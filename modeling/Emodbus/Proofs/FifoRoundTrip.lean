import Emodbus.Proofs.AnswerForm
import Emodbus.Proofs.Transaction

/-!
# A FIFO is read as it is

The callback leaves the registers behind the two counts, and one swap turns all of it into the bytes
of an answer.  What the client's getters give is what lies there.
-/

namespace Emodbus

open Octets

/-- What the getters of the client say of an answer with these registers. -/
structure FifoRead (answer : EmbPdu) (regs : List Word) : Prop where
  byteCount : (embReadFifoByteCount (some answer)).toNat = 2 * regs.length + 2
  regsCount : (embReadFifoRegsCount answer).toNat = regs.length
  dataSize : answer.dataSize.toNat = 4 + 2 * regs.length
  ansSize : (answer.dataSize.toNat : ℤ) ≤ embReadFifoCalcAnswerDataSize
  data : ∀ (offset : Word) (h : offset.toNat < regs.length),
    embReadFifoGetData (some answer) offset = regs[offset.toNat]
  noData : ∀ offset : Word, regs.length ≤ offset.toNat →
    embReadFifoGetData (some answer) offset = 0xFFFF
  copied : ∀ (bufSize : Word) (buf : Mem Word),
    (embReadFifoGetAllDataTo (some answer) bufSize buf).1.toNat = min bufSize.toNat regs.length
  stored : ∀ (bufSize : Word) (buf : Mem Word) (i : ℕ) (h : i < regs.length), i < bufSize.toNat →
    (embReadFifoGetAllDataTo (some answer) bufSize buf).2 i = regs[i]
  kept : ∀ (bufSize : Word) (buf : Mem Word) (i : ℕ), min bufSize.toNat regs.length ≤ i →
    (embReadFifoGetAllDataTo (some answer) bufSize buf).2 i = buf i

/-! ## What is sent -/

/-- The counts in front of the registers, and all of it swapped. -/
theorem swapWords_fifo (d : Mem Byte) (byteCount count : Word) (regs : List Word) :
    Mem.swapWords (storeWord (storeWord (Mem.blit d 4 (Mem.le regs)) 0 byteCount) 2 count) 0
        (regs.length + 2)
      = Mem.blit d 0 (Mem.be (byteCount :: count :: regs)) := by
  have hle : storeWord (storeWord (Mem.blit d 4 (Mem.le regs)) 0 byteCount) 2 count
      = Mem.blit d 0 (Mem.le (byteCount :: count :: regs)) :=
    calc _ = Mem.blit (Mem.blit (Mem.blit d 0 [byteCount.lo, byteCount.hi]) 2
            [count.lo, count.hi]) 4 (Mem.le regs) := by
          unfold storeWord
          rw [← Mem.blit_comm d (a := 0) (b := 4) (by simp),
            ← Mem.blit_comm _ (a := 2) (b := 4) (by simp)]
      _ = Mem.blit (Mem.blit d 0 ([byteCount.lo, byteCount.hi] ++ [count.lo, count.hi])) 4
            (Mem.le regs) := by
          rw [Mem.blit_append d]
          rfl
      _ = _ := (Mem.blit_append d 0 ([byteCount.lo, byteCount.hi] ++ [count.lo, count.hi])
          (Mem.le regs)).symm
  rw [hle]
  exact Mem.swapWords_blit_le d 0 (byteCount :: count :: regs)

/-! ## What the getters give -/

/-- The buffer once the loop has copied this many registers. -/
theorem copyFifo_eq (answer : EmbPdu) (buf : Mem Word) (n : ℕ) :
    copyFifo answer buf n
      = Mem.blit buf 0 ((List.range n).map fun i => getSwapped answer (2 * (2 + i))) := by
  induction n with
  | zero => exact (Mem.blit_nil buf 0).symm
  | succ n ih =>
    unfold copyFifo
    rw [ih, List.range_succ, List.map_append, Mem.blit_append]
    simp

/-- The buffer of the caller gets the registers, and nothing else. -/
theorem embReadFifoGetAllDataTo_eq (answer : EmbPdu) (bufSize : Word) (buf : Mem Word) :
    (embReadFifoGetAllDataTo (some answer) bufSize buf).1.toNat
        = (embReadFifoGetAllData answer bufSize).length
      ∧ (embReadFifoGetAllDataTo (some answer) bufSize buf).2
        = Mem.blit buf 0 (embReadFifoGetAllData answer bufSize) := by
  have hmin : (if bufSize.toNat > (embReadFifoRegsCount answer).toNat then
      embReadFifoRegsCount answer else bufSize).toNat
        = min bufSize.toNat (embReadFifoRegsCount answer).toNat := by
    split_ifs
    · omega
    · omega
  unfold embReadFifoGetAllDataTo embReadFifoGetAllData
  dsimp only
  rw [hmin, copyFifo_eq]
  simp

section Getters

variable {answer : EmbPdu} {f : Byte} {byteCount count : Word} {regs : List Word}

theorem getSwapped_fifo (h : answer.Carries f (Mem.be (byteCount :: count :: regs))) {i : ℕ}
    (hi : i < regs.length) : getSwapped answer (2 * (2 + i)) = regs[i] := by
  have hwords : Mem.beWords answer.data 4 regs.length = regs := by
    have hcarries : answer.Carries f (Mem.be [byteCount, count] ++ Mem.be regs ++ []) := by
      rw [List.append_nil, ← Mem.be_append]
      exact h
    exact hcarries.words
  have hget := List.getElem_of_eq hwords (i := i) (by rw [Mem.length_beWords]; exact hi)
  rw [Mem.getElem_beWords] at hget
  rw [getSwapped_eq, getBigEnd16_eq, Nat.mul_add]
  exact hget

/-- An answer whose counts are right is read as it is. -/
theorem fifoRead_of_carries (h : answer.Carries f (Mem.be (byteCount :: count :: regs)))
    (hbytes : byteCount.toNat = 2 * regs.length + 2) (hcount : count.toNat = regs.length)
    (hmax : regs.length ≤ embSrvReadFifoMaxRegs) : FifoRead answer regs := by
  have hregsCount : embReadFifoRegsCount answer = count := by
    unfold embReadFifoRegsCount
    rw [getSwapped_eq]
    exact h.word (Mem.be [byteCount]) (Mem.be regs)
  have hsize : answer.dataSize.toNat = 4 + 2 * regs.length := by
    rw [h.dataSize, Mem.length_be, List.length_cons, List.length_cons]
    omega
  have hall (bufSize : Word) : embReadFifoGetAllData answer bufSize = regs.take bufSize.toNat := by
    unfold embReadFifoGetAllData
    rw [hregsCount, hcount]
    refine List.ext_getElem (by simp) fun i hi _ => ?_
    rw [List.length_map, List.length_range] at hi
    rw [List.getElem_map, List.getElem_range, List.getElem_take, getSwapped_fifo h (by omega)]
  unfold embSrvReadFifoMaxRegs at hmax
  refine ⟨?_, ?_, hsize, ?_, ?_, ?_, ?_, ?_, ?_⟩
  · unfold embReadFifoByteCount
    dsimp only
    rw [getSwapped_eq, ← hbytes]
    exact congrArg BitVec.toNat (h.word [] (Mem.be (count :: regs)))
  · rw [hregsCount, hcount]
  · unfold embReadFifoCalcAnswerDataSize readFifoAnsSize
    omega
  · intro offset hoffset
    unfold embReadFifoGetData
    dsimp only
    rw [hregsCount, if_pos (by omega)]
    exact getSwapped_fifo h hoffset
  · intro offset hoffset
    unfold embReadFifoGetData
    dsimp only
    rw [hregsCount, if_neg (by omega)]
  · intro bufSize buf
    rw [(embReadFifoGetAllDataTo_eq answer bufSize buf).1, hall, List.length_take]
  · intro bufSize buf i hi hlt
    have hlen : i < (regs.take bufSize.toNat).length := by
      rw [List.length_take]
      omega
    have hat : Mem.blit buf 0 (regs.take bufSize.toNat) (0 + i) = (regs.take bufSize.toNat)[i] :=
      Mem.blit_add buf hlen
    rw [Nat.zero_add, List.getElem_take] at hat
    rw [(embReadFifoGetAllDataTo_eq answer bufSize buf).2, hall, hat]
  · intro bufSize buf i hi
    rw [(embReadFifoGetAllDataTo_eq answer bufSize buf).2, hall, Mem.blit_of_ge]
    rw [List.length_take]
    omega

end Getters

/-! ## The round trip -/

section RoundTrip

variable {σ : Type} {srv : EmbServer σ} {r : SrvRun σ} {req : EmbPdu} {addr : Word}
  {readFifo : Word → σ → Byte × List Word × Byte × σ} {regs : List Word} {count : Byte} {s' : σ}

/-- The handler asks for the FIFO at the address of the request, and answers with its registers if
there are not too many of them. -/
theorem fifo_round_trip (hbuilt : (embReadFifoMakeReq req addr).1 = 0)
    (hrx : r.rxPdu.Same (embReadFifoMakeReq req addr).2) (htx : r.txPdu.maxSize = 253)
    (hfifo : srv.readFifo = some readFifo) (hcall : readFifo addr r.store = (0, regs, count, s'))
    (hcount : count.toNat = regs.length) :
    (embSrvReadFifo srv r).2.calls = r.calls ++ [.readFifo addr 4]
      ∧ (embSrvReadFifo srv r).2.store = s'
      ∧ (regs.length ≤ 31 →
        (embSrvReadFifo srv r).1 = 0 ∧ FifoRead (embSrvReadFifo srv r).2.txPdu regs)
      ∧ (31 < regs.length → (embSrvReadFifo srv r).1 = 0x03) := by
  have hreq := (readFifo_makes addr).carries req hbuilt
  have haddr : getBigEnd16 r.rxPdu.data 0 = addr := by
    have hcarries : r.rxPdu.Carries 0x18 (Mem.be [addr]) :=
      ⟨hrx.function.trans hreq.function, hrx.bytes.trans hreq.bytes⟩
    exact hcarries.word [] []
  have hmax : r.txPdu.maxSize.toNat = 253 := by simp [htx]
  unfold embSrvReadFifo
  simp only [hfifo, haddr, hcall]
  rw [if_neg (not_not.2 rfl), hcount]
  by_cases hlen : regs.length ≤ 31
  swap
  · rw [if_pos (by unfold embSrvReadFifoMaxRegs; omega)]
    exact ⟨rfl, rfl, fun h => absurd h hlen, fun _ => rfl⟩
  have hsize : (BitVec.ofNat 8 (readFifoAnsSize regs.length)).toNat = 4 + 2 * regs.length := by
    unfold readFifoAnsSize
    rw [dataSize_of_lt (by omega)]
  rw [if_neg (by unfold embSrvReadFifoMaxRegs; omega), if_neg (by omega)]
  refine ⟨rfl, rfl, fun _ => ⟨rfl, ?_⟩, fun h => absurd hlen (by omega)⟩
  dsimp only
  rw [swapWords_fifo]
  have hbytes : (BitVec.ofNat 16 (regs.length * 2 + 2)).toNat = 2 * regs.length + 2 := by
    rw [BitVec.toNat_ofNat]
    omega
  have hregs : (BitVec.ofNat 16 regs.length).toNat = regs.length := by
    rw [BitVec.toNat_ofNat]
    omega
  refine fifoRead_of_carries (f := 0x18) ⟨rfl, ?_⟩ hbytes hregs hlen
  unfold EmbPdu.bytes
  dsimp only
  have hlength : (BitVec.ofNat 8 (readFifoAnsSize regs.length)).toNat
      = (Mem.be (BitVec.ofNat 16 (regs.length * 2 + 2) :: BitVec.ofNat 16 regs.length
        :: regs)).length := by
    rw [hsize, Mem.length_be, List.length_cons, List.length_cons]
    omega
  rw [hlength, Mem.slice_blit]

end RoundTrip

def twoRegs : List Word := [1, 2]

/-- The two registers of a FIFO at address zero. -/
theorem fifo_round_trip_two :
    (embSrvReadFifo fifoServer.toEmbServer readFifoZero).2.calls
        = readFifoZero.calls ++ [.readFifo 0 4]
      ∧ (embSrvReadFifo fifoServer.toEmbServer readFifoZero).2.store = ()
      ∧ (twoRegs.length ≤ 31 → (embSrvReadFifo fifoServer.toEmbServer readFifoZero).1 = 0
        ∧ FifoRead (embSrvReadFifo fifoServer.toEmbServer readFifoZero).2.txPdu twoRegs)
      ∧ (31 < twoRegs.length → (embSrvReadFifo fifoServer.toEmbServer readFifoZero).1 = 0x03) :=
  have hrx : readFifoZero.rxPdu.Same (embReadFifoMakeReq readFifoZero.txPdu 0).2 := ⟨rfl, rfl, rfl⟩
  fifo_round_trip (by rfl) hrx rfl rfl rfl rfl

end Emodbus
