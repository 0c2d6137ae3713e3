import Emodbus.Proofs.Server
import Emodbus.Proofs.SrvCases

/-!
# Every request is answered once

A handler that returns zero has left the response its request implies, with room for it, and no
handler touches the function of the request.  So the exception that the super server builds in the
other case is in answer to the same function.
-/

namespace Emodbus

open Octets

variable {σ : Type} (srv : EmbServer σ) {r : SrvRun σ}

/-- What a handler has left when it returns zero. -/
structure WellAnswered (srv : EmbServer σ) (r : SrvRun σ) (res : Byte × SrvRun σ) : Prop where
  function : res.2.rxPdu.function = r.rxPdu.function
  implied : res.1 = 0 → Implied r.rxPdu (srv.fifoCount r) res.2.txPdu
  room : res.1 = 0 → res.2.txPdu.dataSize.toNat ≤ r.txPdu.maxSize.toNat

variable {srv}

theorem Refused.wellAnswered {res : Byte × SrvRun σ} (h : Refused r res) :
    WellAnswered srv r res :=
  ⟨by rw [h.rxPdu], fun h0 => absurd h0 h.code, fun h0 => absurd h0 h.code⟩

theorem Called.wellAnswered {res : Byte × SrvRun σ} {calls : List StoreCall} {store : σ}
    (h : Called r res calls store)
    (hok : res.1 = 0 → Implied r.rxPdu (srv.fifoCount r) res.2.txPdu
      ∧ res.2.txPdu.dataSize.toNat ≤ r.txPdu.maxSize.toNat) : WellAnswered srv r res :=
  ⟨h.function, fun h0 => (hok h0).1, fun h0 => (hok h0).2⟩

theorem be_two_words (d : Mem Byte) :
    Mem.be [getBigEnd16 d 0, getBigEnd16 d 2] = Mem.slice d 0 4 := by
  rw [getBigEnd16_eq, getBigEnd16_eq]
  exact Mem.be_beWords d 0 2

theorem be_three_words (d : Mem Byte) :
    Mem.be [getBigEnd16 d 0, getBigEnd16 d 2, getBigEnd16 d 4] = Mem.slice d 0 6 := by
  rw [getBigEnd16_eq, getBigEnd16_eq, getBigEnd16_eq]
  exact Mem.be_beWords d 0 3

/-- A response that echoes two words. -/
theorem echo_answer {pdu : EmbPdu} {f : Byte} (hf : r.rxPdu.function = f)
    (hfun : f = 0x05 ∨ f = 0x06 ∨ f = 0x0F ∨ f = 0x10)
    (h : pdu.Carries f (Mem.be [getBigEnd16 r.rxPdu.data 0, getBigEnd16 r.rxPdu.data 2]))
    (hroom : 4 ≤ r.txPdu.maxSize.toNat) :
    Implied r.rxPdu (srv.fifoCount r) pdu ∧ pdu.dataSize.toNat ≤ r.txPdu.maxSize.toNat := by
  have hsize := h.dataSize
  rw [be_two_words] at h hsize
  rw [Mem.length_slice] at hsize
  refine ⟨.echo (by rwa [hf]) (by rwa [hf]), by omega⟩

variable (srv)

theorem embSrvReadBits_wellAnswered (hf : r.rxPdu.function = 0x01 ∨ r.rxPdu.function = 0x02) :
    WellAnswered srv r (embSrvReadBits srv r) := by
  rcases embSrvReadBits_cases srv rfl rfl rfl with h | ⟨_, _, -, -, hroom, h, -, hcounted⟩
  · exact h.wellAnswered
  · refine h.wellAnswered fun _ => ⟨.bits hf hcounted, ?_⟩
    rw [hcounted.dataSize]
    exact hroom

theorem embSrvWriteCoil_wellAnswered (hf : r.rxPdu.function = 0x05) :
    WellAnswered srv r (embSrvWriteCoil srv r) := by
  rcases embSrvWriteCoil_cases srv rfl rfl with h | ⟨_, _, -, -, hroom, h, -, hcarries⟩
  · exact h.wellAnswered
  · exact h.wellAnswered fun _ => echo_answer hf (by simp) hcarries hroom

theorem embSrvWriteCoils_wellAnswered (hf : r.rxPdu.function = 0x0F) :
    WellAnswered srv r (embSrvWriteCoils srv r) := by
  rcases embSrvWriteCoils_cases srv rfl rfl with h | ⟨_, _, _, -, -, hroom, h, -, hcarries⟩
  · exact h.wellAnswered
  · exact h.wellAnswered fun _ => echo_answer hf (by simp) hcarries hroom

theorem embSrvReadRegs_wellAnswered (hf : r.rxPdu.function = 0x03 ∨ r.rxPdu.function = 0x04) :
    WellAnswered srv r (embSrvReadRegs srv r) := by
  rcases embSrvReadRegs_cases srv rfl rfl rfl with h | ⟨_, _, -, -, hroom, h, -, hcounted⟩
  · exact h.wellAnswered
  · refine h.wellAnswered fun h0 => ⟨.regs (hf.imp_right Or.inl) (hcounted h0), ?_⟩
    rw [(hcounted h0).dataSize]
    exact hroom

theorem embSrvWriteReg_wellAnswered (hf : r.rxPdu.function = 0x06) :
    WellAnswered srv r (embSrvWriteReg srv r) := by
  rcases embSrvWriteReg_cases srv rfl rfl with ⟨h, -⟩ | ⟨_, _, -, -, h, hcode, hcarries⟩
  · exact h.wellAnswered
  · refine h.wellAnswered fun h0 => echo_answer hf (by simp) (hcarries h0) ?_
    rw [hcode] at h0
    split_ifs at h0 with hwrite hroom
    · exact absurd h0 hwrite
    · exact absurd h0 mbeSlaveFailure_ne
    · exact Nat.not_lt.1 hroom

theorem embSrvWriteRegs_wellAnswered (hf : r.rxPdu.function = 0x10) :
    WellAnswered srv r (embSrvWriteRegs srv r) := by
  rcases embSrvWriteRegs_cases srv rfl rfl with h | ⟨_, _, _, -, -, -, hroom, h, -, hcarries⟩
  · exact h.wellAnswered
  · exact h.wellAnswered fun h0 => echo_answer hf (by simp) (hcarries h0) hroom

theorem embSrvMaskReg_wellAnswered (hf : r.rxPdu.function = 0x16) :
    WellAnswered srv r (embSrvMaskReg srv r) := by
  rcases embSrvMaskReg_cases srv rfl rfl rfl with ⟨h, -⟩ | ⟨_, _, _, -, -, -, hdone⟩
  · exact h.wellAnswered
  rcases hdone with ⟨hne, hcode, h⟩ | ⟨-, h, hcode, hcarries⟩
  · exact h.wellAnswered fun h0 => absurd (hcode.symm.trans h0) hne
  · refine h.wellAnswered fun h0 => ?_
    have hans := hcarries h0
    have hsize := hans.dataSize
    rw [be_three_words] at hans hsize
    rw [Mem.length_slice] at hsize
    rw [hcode] at h0
    split_ifs at h0 with hwrite hroom
    · exact absurd h0 hwrite
    · exact absurd h0 mbeSlaveFailure_ne
    · unfold maskRegisterAnsSize at hroom
      exact ⟨.mask hf (by rwa [hf]), by omega⟩

theorem embSrvReadWriteRegs_wellAnswered (hf : r.rxPdu.function = 0x17) :
    WellAnswered srv r (embSrvReadWriteRegs srv r) := by
  rcases embSrvReadWriteRegs_cases srv rfl rfl rfl rfl with
    h | ⟨_, _, _, _, _, -, -, -, -, -, hroom, hdone⟩
  · exact h.wellAnswered
  rcases hdone with ⟨hne, hcode, h⟩ | ⟨-, -, h, hcounted⟩
  · exact h.wellAnswered fun h0 => absurd (hcode.symm.trans h0) hne
  · refine h.wellAnswered fun h0 => ⟨.regs (Or.inr (Or.inr hf)) ?_, ?_⟩
    · rw [hf]
      exact hcounted h0
    · rw [(hcounted h0).dataSize]
      exact hroom

/-! ## Files and FIFOs -/

/-- A turn of the loop over a file request leaves the response and the request's function. -/
theorem writeFileSub_keeps (stop pos : ℕ) (r : SrvRun σ) :
    (writeFileSub srv stop pos r).2.txPdu = r.txPdu
      ∧ (writeFileSub srv stop pos r).2.rxPdu.function = r.rxPdu.function := by
  unfold writeFileSub
  dsimp only
  repeat' split
  all_goals exact ⟨rfl, rfl⟩

theorem writeFileLoop_keeps (stop fuel pos : ℕ) (r : SrvRun σ) :
    (writeFileLoop srv stop fuel pos r).2.txPdu = r.txPdu
      ∧ (writeFileLoop srv stop fuel pos r).2.rxPdu.function = r.rxPdu.function := by
  induction fuel generalizing pos r with
  | zero => exact ⟨rfl, rfl⟩
  | succ fuel ih =>
    unfold writeFileLoop
    split_ifs
    · have hsub := writeFileSub_keeps srv stop pos r
      generalize writeFileSub srv stop pos r = res at hsub
      obtain ⟨code | next, r'⟩ := res
      · exact hsub
      · obtain ⟨htx, hrx⟩ := ih next r'
        exact ⟨htx.trans hsub.1, hrx.trans hsub.2⟩
    · exact ⟨rfl, rfl⟩

theorem embSrvWriteFile_wellAnswered (hf : r.rxPdu.function = 0x15) :
    WellAnswered srv r (embSrvWriteFile srv r) := by
  unfold embSrvWriteFile
  dsimp only
  split_ifs with hcount hroom
  · exact ⟨rfl, fun h0 => absurd h0 mbeIllegalDataValue_ne,
      fun h0 => absurd h0 mbeIllegalDataValue_ne⟩
  · exact ⟨rfl, fun h0 => absurd h0 mbeSlaveFailure_ne, fun h0 => absurd h0 mbeSlaveFailure_ne⟩
  · obtain ⟨htx, hrx⟩ := writeFileLoop_keeps srv r.rxPdu.dataSize.toNat r.rxPdu.dataSize.toNat 1
      { r with txPdu := { r.txPdu with
        function := 0x15
        dataSize := r.rxPdu.dataSize
        data := Mem.copy r.txPdu.data r.rxPdu.data r.rxPdu.dataSize.toNat } }
    refine ⟨hrx, fun _ => .file hf ?_, fun _ => ?_⟩
    · rw [htx, hf]
      exact ⟨rfl, Mem.slice_copy _ _ le_rfl⟩
    · rw [htx]
      exact Nat.not_lt.1 hroom

/-- The counts that go before the registers of a FIFO, once everything is swapped. -/
theorem fifo_counts (d : Mem Byte) {count : ℕ} (h : count ≤ embSrvReadFifoMaxRegs) :
    let data := Mem.swapWords (storeWord (storeWord d 0 (BitVec.ofNat 16 (count * 2 + 2))) 2
      (BitVec.ofNat 16 count)) 0 (count + 2)
    (getBigEnd16 data 0).toNat = 2 + 2 * count ∧ (getBigEnd16 data 2).toNat = count := by
  unfold embSrvReadFifoMaxRegs at h
  dsimp only
  rw [getBigEnd16_eq, getBigEnd16_eq]
  constructor
  · rw [Mem.beWord_swapWords _ (i := 0) (by omega)]
    have hle (m : Mem Byte) (w : Word) : Mem.leWord (storeWord m 2 w) 0 = Mem.leWord m 0 := by
      unfold Mem.leWord storeWord
      rw [Mem.blit_of_lt _ _ (by omega), Mem.blit_of_lt _ _ (by omega)]
    rw [hle, leWord_storeWord, BitVec.toNat_ofNat]
    omega
  · have hswap (m : Mem Byte) : Mem.beWord (Mem.swapWords m 0 (count + 2)) 2 = Mem.leWord m 2 :=
      Mem.beWord_swapWords m (i := 1) (by omega)
    rw [hswap, leWord_storeWord, BitVec.toNat_ofNat]
    omega

theorem embSrvReadFifo_wellAnswered (hf : r.rxPdu.function = 0x18) :
    WellAnswered srv r (embSrvReadFifo srv r) := by
  unfold embSrvReadFifo
  dsimp only
  cases hfifo : srv.readFifo with
  | none =>
    exact ⟨rfl, fun h0 => absurd h0 mbeSlaveFailure_ne, fun h0 => absurd h0 mbeSlaveFailure_ne⟩
  | some readFifo =>
    dsimp only
    split_ifs with hcode hmax hroom
    · exact ⟨rfl, fun h0 => absurd h0 hcode, fun h0 => absurd h0 hcode⟩
    · exact ⟨rfl, fun h0 => absurd h0 mbeIllegalDataValue_ne,
        fun h0 => absurd h0 mbeIllegalDataValue_ne⟩
    · exact ⟨rfl, fun h0 => absurd h0 mbeSlaveFailure_ne, fun h0 => absurd h0 mbeSlaveFailure_ne⟩
    · refine ⟨rfl, fun _ => .fifo hf ?_, fun _ => Nat.not_lt.1 hroom⟩
      have hcount : srv.fifoCount r
          = (readFifo (getBigEnd16 r.rxPdu.data 0) r.store).2.2.1.toNat := by
        unfold EmbServer.fifoCount
        rw [hfifo]
      rw [hcount]
      have hcounts := fifo_counts
        (Mem.blit r.txPdu.data 4 (Mem.le (readFifo (getBigEnd16 r.rxPdu.data 0) r.store).2.1))
        (Nat.not_lt.1 hmax)
      refine ⟨rfl, ?_, hcounts.1, hcounts.2⟩
      unfold embSrvReadFifoMaxRegs at hmax
      have hsize := dataSize_of_lt
        (n := readFifoAnsSize (readFifo (getBigEnd16 r.rxPdu.data 0) r.store).2.2.1.toNat)
        (by unfold readFifoAnsSize; omega)
      dsimp only
      rw [hsize]
      unfold readFifoAnsSize
      omega

theorem getFunctionFiles_wellAnswered {func : EmbSrvFunction σ}
    (hfunc : getFunctionFiles r.rxPdu.function = some func) :
    WellAnswered srv r (func.call srv r) := by
  unfold getFunctionFiles at hfunc
  refine of_ite_some (P := fun func => WellAnswered srv r (func.call srv r)) hfunc
    (embSrvWriteFile_wellAnswered srv) fun hfunc => ?_
  refine of_ite_some (P := fun func => WellAnswered srv r (func.call srv r)) hfunc
    (embSrvReadFifo_wellAnswered srv) fun hfunc => ?_
  refine getFunction_elim (P := fun func => WellAnswered srv r (func.call srv r)) hfunc
    ?_ ?_ ?_ ?_ ?_ ?_ ?_ ?_
  · exact embSrvReadBits_wellAnswered srv
  · exact embSrvWriteCoil_wellAnswered srv
  · exact embSrvWriteCoils_wellAnswered srv
  · exact embSrvReadRegs_wellAnswered srv
  · exact embSrvWriteReg_wellAnswered srv
  · exact embSrvWriteRegs_wellAnswered srv
  · exact embSrvMaskReg_wellAnswered srv
  · exact embSrvReadWriteRegs_wellAnswered srv

/-! ## The super server -/

/-- An exception that there is room for. -/
theorem answerException_carries {r : SrvRun σ} (h : 1 ≤ r.txPdu.maxSize.toNat) (errno : Byte) :
    (answerException r errno).1.txPdu.Carries (r.rxPdu.function ||| 0x80) [errno]
      ∧ (answerException r errno).1.txPdu.dataSize = 1 := by
  unfold answerException embBuildExceptionPdu
  dsimp only
  rw [if_neg (Nat.not_lt.2 h)]
  have hdata : Mem.slice (Mem.blit r.txPdu.data 0 [errno]) 0 1 = [errno] :=
    Mem.slice_blit r.txPdu.data 0 [errno]
  exact ⟨⟨rfl, hdata⟩, rfl⟩

theorem callFunction_answers {srv : EmbServerEntry σ}
    (hfun : srv.getFunction = some getFunctionFiles) (hmax : 1 ≤ r.txPdu.maxSize.toNat) :
    AnswerTo srv.toEmbServer r (callFunction srv r).1.txPdu
      ∧ (callFunction srv r).1.txPdu.dataSize.toNat ≤ r.txPdu.maxSize.toNat := by
  have hone : (1 : Byte).toNat = 1 := rfl
  unfold callFunction AnswerTo
  rw [hfun]
  dsimp only
  cases hfunc : getFunctionFiles (σ := σ) r.rxPdu.function with
  | none =>
    obtain ⟨hcarries, hsize⟩ := answerException_carries hmax mbeIllegalFunction
    refine ⟨hcarries, ?_⟩
    dsimp only
    rw [hsize, hone]
    exact hmax
  | some func =>
    have hwell := getFunctionFiles_wellAnswered srv.toEmbServer hfunc
    have hsame := func.sameMax srv.toEmbServer r
    dsimp only
    by_cases hcode : (func.call srv.toEmbServer r).1 ≠ 0
    · rw [if_pos hcode]
      have hmax' : 1 ≤ (func.call srv.toEmbServer r).2.txPdu.maxSize.toNat := by
        rw [hsame.tx]
        exact hmax
      obtain ⟨hcarries, hsize⟩ := answerException_carries hmax' (func.call srv.toEmbServer r).1
      rw [hwell.function] at hcarries
      refine ⟨Or.inl ⟨hcode, hcarries⟩, ?_⟩
      rw [hsize, hone]
      exact hmax
    · rw [if_neg hcode]
      have hzero := not_not.1 hcode
      exact ⟨Or.inr ⟨hzero, hwell.implied hzero⟩, hwell.room hzero⟩

/-- A request to a server that is found and is no broadcast is answered by one packet, to the
address of the request: an exception or the response that the request implies. -/
theorem every_request_answered_once {ssrv : EmbSuperServer σ} {slaveAddr : ℤ} {r : SrvRun σ}
    {getServer : Byte → Option (EmbServerEntry σ)} {srv : EmbServerEntry σ}
    (hget : ssrv.getServer = some getServer)
    (hsrv : getServer (BitVec.ofInt 8 slaveAddr) = some srv) (hcast : srv.isBroadcast = false)
    (hfun : srv.getFunction = some getFunctionFiles) (hmax : 1 ≤ r.txPdu.maxSize.toNat) :
    ∃ pdu, (embSuperServerOnReceiveReq ssrv slaveAddr r).sent = [(slaveAddr, pdu)]
      ∧ pdu.dataSize.toNat ≤ r.txPdu.maxSize.toNat ∧ AnswerTo srv.toEmbServer r pdu := by
  obtain ⟨hanswer, hsize⟩ := callFunction_answers hfun hmax
  refine ⟨(callFunction srv r).1.txPdu, ?_, hsize, hanswer⟩
  unfold embSuperServerOnReceiveReq
  rw [hget]
  dsimp only
  rw [hsrv]
  dsimp only
  rw [hcast]
  rfl

/-- A server whose FIFO holds two registers, and no blocks. -/
def fifoServer : EmbServerEntry Unit where
  getCoils := none
  getDiscreteInputs := none
  getHoldingRegs := none
  getInputRegs := none
  getFile := none
  readFifo := some fun _ _ => (0, [1, 2], 2, ())
  getFunction := some getFunctionFiles
  isBroadcast := false

/-- A request to read the FIFO at address zero. -/
def readFifoZero : SrvRun Unit :=
  ⟨⟨0x18, 2, 253, fun _ => 0⟩, ⟨0, 0, 253, fun _ => 0⟩, (), []⟩

theorem fifo_request_answered_once :
    ∃ pdu, (embSuperServerOnReceiveReq ⟨some fun _ => some fifoServer⟩ 1 readFifoZero).sent
        = [(1, pdu)]
      ∧ pdu.dataSize.toNat ≤ readFifoZero.txPdu.maxSize.toNat
      ∧ AnswerTo fifoServer.toEmbServer readFifoZero pdu :=
  have hserver : fifoServer.getFunction = some getFunctionFiles := rfl
  every_request_answered_once rfl rfl rfl hserver (by decide)

end Emodbus
