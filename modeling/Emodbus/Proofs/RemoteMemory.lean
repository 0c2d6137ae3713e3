import Emodbus.Proofs.BitsRun
import Emodbus.Proofs.RemoteBits
import Emodbus.Proofs.Reuse
import Emodbus.Proofs.StoreKeeps
import Emodbus.RemoteMemory

/-!
# Registers and bits from afar are a flat memory

Each operation is one request (`Means`), which the server serves as the flat memory would
(`ServedFlat`), whatever has been in the buffers before.  One operation follows, and from it every
run of any proxies.
-/

namespace Emodbus

open Octets Mealy

/-! ## The server -/

/-- The request has been served as `flat` says: it is refused, or the getters tell the flat
answer. -/
inductive ServedFlat {A : Type} (address : Byte) (l : MemoryLayout) (m : FlatMemory) (c : SrvClient)
    (function : Byte) (getters : EmbPdu → A) (refusal : A) (flat : FlatMemory × A) : Prop
  | refused (answer : EmbPdu) (hsent : (c.serve address).sent = [(↑address.toNat, answer)])
      (herrno : embCheckPduForException answer ≠ 0)
      (hlaid : MemoryLaid l (c.serve address).run.store m) (hflat : flat = (m, refusal))
  | answered (answer : EmbPdu) (hsent : (c.serve address).sent = [(↑address.toNat, answer)])
      (hfunction : answer.function = function) (hexc : answer.function &&& 0x80 = 0)
      (hlaid : MemoryLaid l (c.serve address).run.store flat.1)
      (hanswer : ∀ p : EmbPdu, p.Carries function answer.bytes → getters p = flat.2)

/-- The registers of the flat memory, asked for. -/
def regsFlat (q : RegsRequest) (l : MemoryLayout) (m : FlatMemory) : FlatMemory × RegsAnswer :=
  ({ m with regs := (flatRegsStep l.regs m.regs q).1 }, (flatRegsStep l.regs m.regs q).2)

def bitsFlat (q : BitsRequest) (l : MemoryLayout) (m : FlatMemory) : FlatMemory × BitsAnswer :=
  ({ m with bits := (flatBitsStep l.bits m.bits q).1 }, (flatBitsStep l.bits m.bits q).2)

section Serve

variable {address : Byte} {l : MemoryLayout} {m : FlatMemory} {c : SrvClient}

theorem RegsRequest.handler_keeps (q : RegsRequest) {P : ServerT → Prop}
    (h : serverT.toEmbServer.RegsKeep P) {func : EmbSrvFunction ServerT}
    (hfunc : getFunction q.function = some func) {r : SrvRun ServerT} (hr : P r.store) :
    P (func.call serverT.toEmbServer r).2.store := by
  cases q with
  | readRegs type a n =>
    have hcall : func = ⟨embSrvReadRegs, embSrvReadRegs_sameMax⟩ := by
      cases type <;> exact (Option.some.inj hfunc).symm
    rw [hcall]
    exact embSrvReadRegs_keeps h hr
  | writeReg a value =>
    obtain rfl := Option.some.inj hfunc
    exact embSrvWriteReg_keeps h hr
  | writeRegs a n data =>
    obtain rfl := Option.some.inj hfunc
    exact embSrvWriteRegs_keeps h hr
  | writeMaskReg a andMask orMask =>
    obtain rfl := Option.some.inj hfunc
    exact embSrvMaskReg_keeps h hr
  | rdwrRegs ra rn wa wn data =>
    obtain rfl := Option.some.inj hfunc
    exact embSrvReadWriteRegs_keeps h hr

theorem BitsRequest.handler_keeps (q : BitsRequest) {P : ServerT → Prop}
    (h : serverT.toEmbServer.BitsKeep P) {func : EmbSrvFunction ServerT}
    (hfunc : getFunction q.function = some func) {r : SrvRun ServerT} (hr : P r.store) :
    P (func.call serverT.toEmbServer r).2.store := by
  cases q with
  | readBits type a n =>
    have hcall : func = ⟨embSrvReadBits, embSrvReadBits_sameMax⟩ := by
      cases type <;> exact (Option.some.inj hfunc).symm
    rw [hcall]
    exact embSrvReadBits_keeps h hr
  | writeCoil a value =>
    obtain rfl := Option.some.inj hfunc
    exact embSrvWriteCoil_keeps h hr
  | writeCoils a n coils =>
    obtain rfl := Option.some.inj hfunc
    exact embSrvWriteCoils_keeps h hr

theorem serve_regs (q : RegsRequest) (hl : MemoryLaid l c.run.store m) (hfull : c.FullSize)
    (hin : q.InRange) (hreq : c.req.Carries q.function q.bytes) :
    ServedFlat address l m c q.function q.getters (.exception (-(2 + embExceptionBase)))
      (regsFlat q l m) := by
  obtain ⟨func, hfunc, hhandled⟩ := q.handler
  have hkeeps : BitsLaid l.bits (func.call serverT.toEmbServer c.received).2.store m.bits := by
    have hQ := serverT_regsKeep fun coils inputs =>
      Laid coils l.bits.coils m.bits.coils ∧ Laid inputs l.bits.inputs m.bits.inputs
    obtain ⟨hcoils, hinputs⟩ :=
      q.handler_keeps hQ hfunc (r := c.received) ⟨hl.bits.coils, hl.bits.inputs⟩
    exact ⟨hcoils, hinputs⟩
  have hfunc' := hfunc
  rw [← hreq.function] at hfunc'
  cases hhandled (r := c.received) hl.regs hfull.tx hin (hreq.receive _) with
  | refused hres hflat =>
    obtain ⟨answer, hsent, herrno, hstore⟩ := serve_refused address hfull hfunc' hres
    refine .refused answer hsent (by rw [herrno]; decide) (by rw [hstore]; exact hl) ?_
    unfold regsFlat
    rw [hflat]
  | answered bytes store hres hlaid hanswer =>
    obtain ⟨answer, hsent, -, hcarries, hstore⟩ :=
      serve_answered address hfunc' q.no_exception hres
    have hexc : answer.function &&& 0x80 = 0 := by rw [hcarries.function]; exact q.no_exception
    rw [hres.store] at hkeeps
    refine .answered answer hsent hcarries.function hexc (by rw [hstore]; exact ⟨hlaid, hkeeps⟩)
      fun p hp => hanswer p ?_
    rwa [hcarries.bytes] at hp

theorem serve_bits (q : BitsRequest) (hl : MemoryLaid l c.run.store m) (hfull : c.FullSize)
    (hin : q.InRange) (hreq : c.req.Carries q.function q.bytes) :
    ServedFlat address l m c q.function q.getters (.exception (-(2 + embExceptionBase)))
      (bitsFlat q l m) := by
  obtain ⟨func, hfunc, hhandled⟩ := q.handler
  have hkeeps : RegsLaid l.regs (func.call serverT.toEmbServer c.received).2.store m.regs := by
    have hQ := serverT_bitsKeep fun holdings inputs =>
      Laid holdings l.regs.holdings m.regs.holdings ∧ Laid inputs l.regs.inputs m.regs.inputs
    obtain ⟨hholdings, hinputs⟩ :=
      q.handler_keeps hQ hfunc (r := c.received) ⟨hl.regs.holdings, hl.regs.inputs⟩
    exact ⟨hholdings, hinputs⟩
  have hfunc' := hfunc
  rw [← hreq.function] at hfunc'
  cases hhandled (r := c.received) hl.bits hfull.tx hin (hreq.receive _) with
  | refused hres hflat =>
    obtain ⟨answer, hsent, herrno, hstore⟩ := serve_refused address hfull hfunc' hres
    refine .refused answer hsent (by rw [herrno]; decide) (by rw [hstore]; exact hl) ?_
    unfold bitsFlat
    rw [hflat]
  | answered bytes store hres hlaid hanswer =>
    obtain ⟨answer, hsent, -, hcarries, hstore⟩ :=
      serve_answered address hfunc' q.no_exception hres
    have hexc : answer.function &&& 0x80 = 0 := by rw [hcarries.function]; exact q.no_exception
    rw [hres.store] at hkeeps
    refine .answered answer hsent hcarries.function hexc (by rw [hstore]; exact ⟨hkeeps, hlaid⟩)
      fun p hp => hanswer p ?_
    rwa [hcarries.bytes] at hp

end Serve

/-! ## The operations -/

/-- The operation is this request: it is built, and what the getters tell of the answer is what the
operation is on the flat memory. -/
structure Means {A : Type} (op : ProxyOp) (function : Byte) (bytes : List Byte)
    (getters : EmbPdu → A) (refusal : A) (flat : MemoryLayout → FlatMemory → FlatMemory × A) :
    Prop where
  makes : op.call.build.Makes (function, bytes)
  length_le : bytes.length ≤ 253
  ansSize_le : unsignedInt op.call.build.ansSize ≤ 253
  refused : ∀ l m, flat l m = (m, refusal) → m.apply l op = (m, none)
  answered : ∀ l m (tr : Transaction), tr.req.pdu.Carries function bytes →
    getters tr.ans.pdu = (flat l m).2 →
      tr.ans.pdu.dataSize.toNat ≤ unsignedInt op.call.build.ansSize
        ∧ m.apply l op = ((flat l m).1, some (op.call.result tr))

/-- The operation is a request for registers. -/
def MeansRegs (op : ProxyOp) (q : RegsRequest) : Prop :=
  q.InRange ∧ Means op q.function q.bytes q.getters (.exception (-(2 + embExceptionBase)))
    (regsFlat q)

def MeansBits (op : ProxyOp) (q : BitsRequest) : Prop :=
  q.InRange ∧ Means op q.function q.bytes q.getters (.exception (-(2 + embExceptionBase)))
    (bitsFlat q)

section Means

variable {op : ProxyOp} {l : MemoryLayout} {m : FlatMemory}

theorem unsignedInt_readRegs {n : Word} (hn : 1 ≤ n.toNat ∧ n.toNat ≤ 125) :
    unsignedInt (embReadRegsCalcAnswerDataSize n) = readHoldingsAnsSize n.toNat := by
  unfold embReadRegsCalcAnswerDataSize
  rw [if_pos hn, unsignedInt_natCast]
  unfold readHoldingsAnsSize
  omega

/-- The registers that were read, as the getters tell them. -/
theorem readRegs_told {type : EmbRrType} {a n : Word} {p : EmbPdu}
    (h : (RegsRequest.readRegs type a n).getters p = (regsFlat (.readRegs type a n) l m).2) :
    (l.regs.table type).inside a.toNat n.toNat = true
      ∧ (regsFlat (.readRegs type a n) l m).1 = m
      ∧ p.dataSize.toNat = unsignedInt (embReadRegsCalcAnswerDataSize n)
      ∧ (embReadRegsGetRegsN p).toNat = n.toNat
      ∧ (List.range n.toNat).map (embReadRegsGetReg p)
        = Mem.slice (m.regs.table type) a.toNat n.toNat := by
  unfold regsFlat flatRegsStep at h ⊢
  dsimp only at h ⊢
  split_ifs at h ⊢ with hin
  · unfold RegsRequest.getters at h
    dsimp only at h
    obtain ⟨hsize, hcount, hregs⟩ := RegsAnswer.regs.inj h
    refine ⟨hin, rfl, ?_, ?_, hregs⟩
    · have hnat := congrArg unsignedInt hsize
      rwa [unsignedInt_natCast (by have := p.dataSize.isLt; omega)] at hnat
    · rw [hcount]
      exact Int.toNat_natCast _
  · cases h

/-- An operation that reads registers: `f` makes of them what is returned. -/
theorem readRegs_means {type : EmbRrType} {a n : Word} {f : List Word → ProxyResult}
    (hn : 1 ≤ n.toNat ∧ n.toNat ≤ 125) (hbuild : op.call.build = readRegsBuildReq type a n)
    (hresult : ∀ tr, (embReadRegsGetRegsN tr.ans.pdu).toNat = n.toNat →
      op.call.result tr = f ((List.range n.toNat).map (embReadRegsGetReg tr.ans.pdu)))
    (happly : ∀ (l : MemoryLayout) (m : FlatMemory), m.apply l op
      = (m, if (l.regs.table type).inside a.toNat n.toNat then
          some (f (Mem.slice (m.regs.table type) a.toNat n.toNat)) else none)) :
    MeansRegs op (.readRegs type a n) := by
  have hsize : op.call.build.ansSize = embReadRegsCalcAnswerDataSize n := by
    rw [hbuild]
    rfl
  refine ⟨hn, ?_, ?_, ?_, fun l m h => ?_, fun l m tr _ h => ?_⟩
  · rw [hbuild]
    exact readRegs_makes type a hn
  · simp [RegsRequest.bytes]
  · rw [hsize, unsignedInt_readRegs hn]
    unfold readHoldingsAnsSize
    omega
  · rw [happly, if_neg]
    intro hin
    have htold : (regsFlat (.readRegs type a n) l m).2 = .exception (-(2 + embExceptionBase)) := by
      rw [h]
    unfold regsFlat flatRegsStep at htold
    dsimp only at htold
    rw [if_pos hin] at htold
    cases htold
  · obtain ⟨hin, hflat, hdata, hcount, hregs⟩ := readRegs_told h
    rw [hsize, hflat, happly, if_pos hin, hresult tr hcount, hregs]
    exact ⟨hdata.le, rfl⟩

/-- An operation that writes registers: these values, if all of them have a place. -/
theorem write_means {a : Word} {values : FlatMemory → List Word} {q : RegsRequest} {dataSize : ℕ}
    {words : List Word} (hin : q.InRange) (hmakes : op.call.build.Makes (q.function, q.bytes))
    (hlen : q.bytes.length ≤ 253) (hans : op.call.build.ansSize = dataSize) (hsize : dataSize ≤ 253)
    (hresult : ∀ tr, op.call.result tr = .nothing)
    (hgetters : ∀ p, ∃ words', q.getters p = .written p.dataSize.toNat words')
    (happly : ∀ (l : MemoryLayout) (m : FlatMemory), m.apply l op = m.write l a (values m))
    (hflat : ∀ (l : MemoryLayout) (m : FlatMemory), flatRegsStep l.regs m.regs q =
      if l.regs.holdings.inside a.toNat (values m).length then
        ({ m.regs with holdings := Mem.blit m.regs.holdings a.toNat (values m) },
          .written dataSize words)
      else (m.regs, .exception (-(2 + embExceptionBase)))) : MeansRegs op q := by
  have hans' : unsignedInt op.call.build.ansSize = dataSize := by
    rw [hans, unsignedInt_natCast (by omega)]
  refine ⟨hin, hmakes, hlen, hans'.trans_le hsize, fun l m h => ?_, fun l m tr _ h => ?_⟩
  · rw [happly, FlatMemory.write, if_neg]
    intro hinside
    have htold := congrArg Prod.snd h
    unfold regsFlat at htold
    rw [hflat, if_pos hinside] at htold
    cases htold
  · obtain ⟨words', htold⟩ := hgetters tr.ans.pdu
    rw [htold] at h
    unfold regsFlat at h ⊢
    rw [hflat] at h ⊢
    rw [hans', happly, FlatMemory.write, hresult]
    split_ifs at h ⊢
    · obtain ⟨hdata, -⟩ := RegsAnswer.written.inj h
      exact ⟨(Int.ofNat.inj hdata).le, rfl⟩

theorem writeReg_means {a value : Word} (hbuild : op.call.build = writeRegBuildReq a value)
    (hresult : ∀ tr, op.call.result tr = .nothing)
    (happly : ∀ (l : MemoryLayout) (m : FlatMemory), m.apply l op = m.write l a [value]) :
    MeansRegs op (.writeReg a value) :=
  write_means trivial (by rw [hbuild]; exact writeReg_makes a value) (by simp [RegsRequest.bytes])
    (by rw [hbuild]; rfl) (show writeRegisterAnsSize ≤ 253 by decide) hresult (fun p => ⟨_, rfl⟩)
    happly fun l m => rfl

theorem writeMaskReg_means {a andMask orMask : Word}
    (hbuild : op.call.build = writeMaskRegBuildReq a andMask orMask)
    (hresult : ∀ tr, op.call.result tr = .nothing)
    (happly : ∀ (l : MemoryLayout) (m : FlatMemory), m.apply l op
      = m.modify l a fun x => (x &&& andMask) ||| (orMask &&& ~~~andMask)) :
    MeansRegs op (.writeMaskReg a andMask orMask) :=
  write_means trivial (by rw [hbuild]; exact writeMaskReg_makes a andMask orMask)
    (by simp [RegsRequest.bytes]) (by rw [hbuild]; rfl)
    (show maskRegisterAnsSize ≤ 253 by decide) hresult (fun p => ⟨_, rfl⟩) happly fun l m => rfl

theorem writeRegs_means {a : Word} {values : List Word}
    (hbuild : op.call.build = writeRegsBuildReq a (vecSize values) (vecData values))
    (hn : 1 ≤ values.length ∧ values.length ≤ 123) (hresult : ∀ tr, op.call.result tr = .nothing)
    (happly : ∀ (l : MemoryLayout) (m : FlatMemory), m.apply l op = m.write l a values) :
    MeansRegs op (.writeRegs a (vecSize values) (vecData values)) := by
  have hsize : (vecSize values).toNat = values.length := toNat_vecSize (by omega)
  have hin : (RegsRequest.writeRegs a (vecSize values) (vecData values)).InRange := by
    show 1 ≤ (vecSize values).toNat ∧ (vecSize values).toNat ≤ 123
    rwa [hsize]
  have hflat (l : MemoryLayout) (m : FlatMemory) :
      flatRegsStep l.regs m.regs (.writeRegs a (vecSize values) (vecData values))
        = if l.regs.holdings.inside a.toNat values.length then
            ({ m.regs with holdings := Mem.blit m.regs.holdings a.toNat values },
              .written writeRegistersAnsSize [a, vecSize values])
          else (m.regs, .exception (-(2 + embExceptionBase))) := by
    unfold flatRegsStep
    dsimp only
    rw [hsize, slice_vecData]
    rfl
  refine write_means hin ?_ ?_ (by rw [hbuild]; rfl) (show writeRegistersAnsSize ≤ 253 by decide)
    hresult (fun p => ⟨_, rfl⟩) happly hflat
  · unfold RegsRequest.bytes
    dsimp only
    rw [hbuild, hsize, slice_vecData]
    exact writeRegs_makes a hn
  · simp [RegsRequest.bytes, hsize]
    omega

theorem readWriteHoldings_means {ra rn wa : Word} {values : List Word}
    (hrn : 1 ≤ rn.toNat ∧ rn.toNat ≤ 125) (hwn : 1 ≤ values.length ∧ values.length ≤ 121) :
    MeansRegs (.readWriteHoldings ra rn wa values)
      (.rdwrRegs ra rn wa (vecSize values) (vecData values)) := by
  have hsize : (vecSize values).toNat = values.length := toNat_vecSize (by omega)
  have hin : (RegsRequest.rdwrRegs ra rn wa (vecSize values) (vecData values)).InRange := by
    show (1 ≤ rn.toNat ∧ rn.toNat ≤ 0x007D)
      ∧ 1 ≤ (vecSize values).toNat ∧ (vecSize values).toNat ≤ 0x0079
    rw [hsize]
    exact ⟨hrn, hwn⟩
  have hans : unsignedInt (embRdwrRegsCalcAnswerDataSize rn) = readWriteRegsAnsSize rn.toNat := by
    unfold embRdwrRegsCalcAnswerDataSize
    rw [unsignedInt_natCast]
    unfold readWriteRegsAnsSize
    omega
  refine ⟨hin, ?_, ?_, ?_, fun l m h => ?_, fun l m tr _ h => ?_⟩
  · unfold RegsRequest.bytes
    dsimp only
    rw [hsize, slice_vecData]
    exact readWriteRegs_makes ra wa hrn hwn
  · simp [RegsRequest.bytes, hsize]
    omega
  · refine hans.trans_le ?_
    unfold readWriteRegsAnsSize
    omega
  · unfold regsFlat flatRegsStep at h
    dsimp only at h
    rw [hsize] at h
    unfold FlatMemory.apply
    dsimp only
    split_ifs at h ⊢
    · cases congrArg Prod.snd h
    · rfl
  · unfold regsFlat flatRegsStep RegsRequest.getters at h
    unfold regsFlat flatRegsStep FlatMemory.apply
    dsimp only at h ⊢
    rw [hsize, slice_vecData] at h ⊢
    split_ifs at h ⊢
    · obtain ⟨hdata, hcount, hregs⟩ := RegsAnswer.regs.inj h
      have hdata' := congrArg unsignedInt hdata
      rw [unsignedInt_natCast (by have := tr.ans.pdu.dataSize.isLt; omega)] at hdata'
      refine ⟨hdata'.le, ?_⟩
      have hregs' : readWriteRegsAnswer tr
          = Mem.slice (Mem.blit m.regs.holdings wa.toNat values) ra.toNat rn.toNat := by
        unfold readWriteRegsAnswer
        rw [hcount, Int.toNat_natCast]
        exact hregs
      exact congrArg (fun vs => (_, some (ProxyResult.regs vs))) hregs'.symm

/-! ### Coils and discrete inputs -/

theorem unsignedInt_readBits {n : Word} (hn : 1 ≤ n.toNat ∧ n.toNat ≤ 2000) :
    unsignedInt (embReadBitsCalcAnswerDataSize n) = readCoilsAnsSize ((n.toNat + 7) / 8) := by
  have hn' : 1 ≤ n.toNat ∧ n.toNat ≤ embReadBitsMaxQuantity := hn
  unfold embReadBitsCalcAnswerDataSize
  rw [if_pos hn', unsignedInt_natCast, toNat_bytesCount hn.2]
  unfold readCoilsAnsSize
  have := (bytesCount n).isLt
  omega

theorem readBits_means {type : EmbRbType} {a n : Word} (hn : 1 ≤ n.toNat ∧ n.toNat ≤ 2000)
    (hcall : op.call = ⟨readBitsBuildReq type a n, readBitsResult⟩)
    (happly : ∀ (l : MemoryLayout) (m : FlatMemory), m.apply l op
      = (m, if (l.bits.table type).inside a.toNat n.toNat then
          some (.bits (Mem.slice (m.bits.table type) a.toNat n.toNat)) else none)) :
    MeansBits op (.readBits type a n) := by
  have hsize : op.call.build.ansSize = embReadBitsCalcAnswerDataSize n := by
    rw [hcall]
    rfl
  refine ⟨hn, ?_, ?_, ?_, fun l m h => ?_, fun l m tr hreq h => ?_⟩
  · rw [hcall]
    exact readBits_makes type a hn
  · simp [BitsRequest.bytes]
  · rw [hsize, unsignedInt_readBits hn]
    unfold readCoilsAnsSize
    omega
  · rw [happly, if_neg]
    intro hin
    have htold := congrArg Prod.snd h
    unfold bitsFlat flatBitsStep at htold
    dsimp only at htold
    rw [if_pos hin] at htold
    cases htold
  · have hquantity : getSwapped tr.req.pdu 2 = n := by
      rw [getSwapped_eq]
      exact hreq.word (Mem.be [a]) []
    unfold bitsFlat flatBitsStep BitsRequest.getters at h
    unfold bitsFlat flatBitsStep
    dsimp only at h ⊢
    rw [happly, hsize, hcall]
    split_ifs at h ⊢
    · obtain ⟨hdata, hbits⟩ := BitsAnswer.bits.inj h
      have hdata' := congrArg unsignedInt hdata
      rw [unsignedInt_natCast (by have := tr.ans.pdu.dataSize.isLt; omega)] at hdata'
      have hresult : readBitsResult tr
          = .bits (Mem.slice (m.bits.table type) a.toNat n.toNat) := by
        unfold readBitsResult
        rw [hquantity, hbits]
      exact ⟨hdata'.le, congrArg (fun r => (m, some r)) hresult.symm⟩

theorem writeCoil_means (a : Word) (value : Bool) :
    MeansBits (.writeCoil a value) (.writeCoil a (if value then 1 else 0)) := by
  have hcode : ((if value then 1 else 0 : Byte) != 0) = value := by
    cases value <;> rfl
  refine ⟨trivial, ?_, by simp [BitsRequest.bytes], show writeCoilAnsSize ≤ 253 by decide,
    fun l m h => ?_, fun l m tr _ h => ?_⟩
  · have hmakes := writeCoil_makes a value
    cases value <;> exact hmakes
  · unfold bitsFlat flatBitsStep at h
    unfold FlatMemory.apply
    dsimp only at h ⊢
    rw [hcode] at h
    split_ifs at h ⊢
    · cases congrArg Prod.snd h
    · rfl
  · unfold bitsFlat flatBitsStep BitsRequest.getters at h
    unfold bitsFlat flatBitsStep FlatMemory.apply
    dsimp only at h ⊢
    rw [hcode] at h ⊢
    split_ifs at h ⊢
    · have hdata := BitsAnswer.written.inj h
      exact ⟨(Int.ofNat.inj hdata).le, rfl⟩

/-! ### All of them -/

/-- `|=` and `set_bit`: the server's formula with their masks. -/
theorem mask_setBit_eq (x mask : Word) (value : Bool) :
    (x &&& ~~~mask) ||| ((if value then mask else 0) &&& ~~~(~~~mask))
      = if value then x ||| mask else x &&& ~~~mask := by
  cases value with
  | true => exact mask_or x mask
  | false => exact mask_and x mask

/-- Registers are returned as they are told. -/
theorem readRegsAnswer_told {tr : Transaction} {n : ℕ}
    (hcount : (embReadRegsGetRegsN tr.ans.pdu).toNat = n) :
    readRegsAnswer tr = (List.range n).map (embReadRegsGetReg tr.ans.pdu) := by
  unfold readRegsAnswer
  rw [hcount]

theorem readHoldings_means {a n : Word} (hn : 1 ≤ n.toNat ∧ n.toNat ≤ 125)
    (hcall : op.call = ⟨readRegsBuildReq .holdings a n, fun tr => .regs (readRegsAnswer tr)⟩)
    (happly : ∀ (l : MemoryLayout) (m : FlatMemory), m.apply l op = m.holdings l a n.toNat .regs) :
    MeansRegs op (.readRegs .holdings a n) := by
  refine readRegs_means (f := .regs) hn (by rw [hcall]) (fun tr hcount => ?_) happly
  rw [hcall]
  exact congrArg ProxyResult.regs (readRegsAnswer_told hcount)

/-- An operation on registers or bits whose arguments have a request is that request. -/
theorem means_request (op : ProxyOp) (hop : op.onMemory = true) (hw : op.wire ≠ none) :
    (∃ q, MeansRegs op q) ∨ ∃ q, MeansBits op q := by
  obtain ⟨w, hw⟩ := Option.ne_none_iff_exists'.1 hw
  have hone : 1 ≤ (1 : Word).toNat ∧ (1 : Word).toNat ≤ 125 := by simp
  have htwo : 1 ≤ (2 : Word).toNat ∧ (2 : Word).toNat ≤ 125 := by simp
  cases op with
  | readDiscreteInputs start size =>
    exact .inr ⟨.readBits .discreteInputs start size,
      readBits_means (ProxyOp.readBitsWire_some hw).1 rfl fun _ _ => rfl⟩
  | readCoils start size =>
    exact .inr ⟨.readBits .coils start size,
      readBits_means (ProxyOp.readBitsWire_some hw).1 rfl fun _ _ => rfl⟩
  | writeCoil addr value => exact .inr ⟨_, writeCoil_means addr value⟩
  | readInputRegs start size =>
    refine .inl ⟨.readRegs .inputs start size, readRegs_means (f := .regs)
      (ProxyOp.readRegsWire_some hw).1 rfl (fun tr hcount => ?_) fun _ _ => rfl⟩
    exact congrArg ProxyResult.regs (readRegsAnswer_told hcount)
  | readHoldings start size =>
    exact .inl ⟨_, readHoldings_means (ProxyOp.readRegsWire_some hw).1 rfl fun _ _ => rfl⟩
  | writeHolding addr value =>
    exact .inl ⟨_, writeReg_means rfl (fun _ => rfl) fun _ _ => rfl⟩
  | writeHoldings start values | regAssignRegs start values =>
    obtain ⟨hn, -⟩ := Option.ite_none_right_eq_some.1 hw
    exact .inl ⟨_, writeRegs_means rfl hn (fun _ => rfl) fun _ _ => rfl⟩
  | readWriteHoldings readStart readSize writeStart toWrite =>
    obtain ⟨hn, -⟩ := Option.ite_none_right_eq_some.1 hw
    exact .inl ⟨_, readWriteHoldings_means hn.1 hn.2⟩
  | regInt addr =>
    exact .inl ⟨.readRegs .holdings addr 1, readRegs_means
      (f := fun values => .reg (values.headD 0)) hone rfl (fun _ _ => rfl) fun _ _ => rfl⟩
  | regAssign addr v => exact .inl ⟨_, writeReg_means rfl (fun _ => rfl) fun _ _ => rfl⟩
  | regOr addr v =>
    refine .inl ⟨_, writeMaskReg_means rfl (fun _ => rfl) fun l m => ?_⟩
    unfold FlatMemory.apply FlatMemory.modify
    dsimp only
    rw [mask_or]
  | regAnd addr v =>
    refine .inl ⟨_, writeMaskReg_means rfl (fun _ => rfl) fun l m => ?_⟩
    unfold FlatMemory.apply FlatMemory.modify
    dsimp only
    rw [mask_and]
  | regFloat addr =>
    refine .inl ⟨.readRegs .holdings addr 2, readRegs_means (f := .float) htwo rfl
      (fun tr hcount => ?_) fun _ _ => rfl⟩
    exact congrArg ProxyResult.float (readRegsAnswer_told hcount)
  | regAssignFloat addr first second =>
    exact .inl ⟨_, @writeRegs_means _ addr [first, second] rfl (by simp) (fun _ => rfl)
      fun _ _ => rfl⟩
  | regSetBit addr nbit value =>
    refine .inl ⟨_, writeMaskReg_means rfl (fun _ => rfl) fun l m => ?_⟩
    unfold FlatMemory.apply FlatMemory.modify
    dsimp only
    rw [mask_setBit_eq]
  | regGetBit addr nbit =>
    refine .inl ⟨.readRegs .holdings addr 1, readRegs_means
      (f := fun values => .bit ((values.headD 0).getLsbD nbit.toNat)) hone rfl
      (fun tr _ => ?_) fun _ _ => rfl⟩
    exact congrArg ProxyResult.bit (ProxyOp.and_one_shiftLeft_ne _ _)
  | rangeRegs start stop =>
    obtain ⟨hle, hw⟩ := Option.ite_none_right_eq_some.1 hw
    have hn := (ProxyOp.readRegsWire_some hw).1
    have hsize := ProxyOp.range_size hle hn.2
    rw [← hsize] at hn
    refine .inl ⟨_, readHoldings_means hn rfl fun l m => ?_⟩
    rw [hsize]
    rfl
  | rangeAssign start stop regs =>
    obtain ⟨-, hw⟩ := Option.ite_none_right_eq_some.1 hw
    obtain ⟨hn, -⟩ := Option.ite_none_right_eq_some.1 hw
    exact .inl ⟨_, writeRegs_means rfl hn (fun _ => rfl) fun _ _ => rfl⟩
  | readFile _ | writeFile _ | readFifo _ => cases hop

/-! ## The buffers -/

theorem onMemory_build (op : ProxyOp) (hop : op.onMemory = true) :
    ∃ b : Build, ∀ req, op.call.build.makeReq req = b.req.makeReq req := by
  cases op with
  | readDiscreteInputs start size =>
    exact ⟨.readBits (some .discreteInputs) start size, fun _ => rfl⟩
  | readCoils start size => exact ⟨.readBits (some .coils) start size, fun _ => rfl⟩
  | writeCoil addr value => exact ⟨.writeCoil addr value, fun _ => rfl⟩
  | readInputRegs start size => exact ⟨.readRegs (some .inputs) start size, fun _ => rfl⟩
  | readHoldings start size => exact ⟨.readRegs (some .holdings) start size, fun _ => rfl⟩
  | writeHolding addr value => exact ⟨.writeReg addr value, fun _ => rfl⟩
  | writeHoldings start values | regAssignRegs start values | rangeAssign start _ values =>
    exact ⟨.writeRegs start (vecSize values) (vecData values), fun _ => rfl⟩
  | readWriteHoldings readStart readSize writeStart toWrite =>
    exact ⟨.readWriteRegs readStart readSize writeStart (vecSize toWrite) (some (vecData toWrite)),
      fun _ => rfl⟩
  | regInt addr | regGetBit addr _ => exact ⟨.readRegs (some .holdings) addr 1, fun _ => rfl⟩
  | regFloat addr => exact ⟨.readRegs (some .holdings) addr 2, fun _ => rfl⟩
  | regAssign addr v => exact ⟨.writeReg addr _, fun _ => rfl⟩
  | regOr addr v | regAnd addr v => exact ⟨.writeMaskReg addr _ _, fun _ => rfl⟩
  | regSetBit addr nbit value => exact ⟨.writeMaskReg addr _ _, fun _ => rfl⟩
  | regAssignFloat addr first second => exact ⟨.writeRegs addr 2 _, fun _ => rfl⟩
  | rangeRegs start stop => exact ⟨.readRegs (some .holdings) start _, fun _ => rfl⟩
  | readFile _ | writeFile _ | readFifo _ => cases hop

end Means

/-- The buffers of the transaction are no longer than a request or an answer can be. -/
structure Transaction.Small (tr : Transaction) : Prop where
  counted : tr.Counted
  req : tr.req.bufferSize ≤ 253
  ans : tr.ans.bufferSize ≤ 253

section Built

variable {alloc : ℕ → Bool} {p : PduT} {size : ℕ}

theorem PduT.resize_small (halloc : ∀ n ≤ 253, alloc n = true) (hp : p.Counted)
    (hbuffer : p.bufferSize ≤ 253) (hsize : size ≤ 253) :
    ∃ q, p.resize alloc size = some q ∧ q.Counted ∧ q.bufferSize ≤ 253
      ∧ size ≤ q.pdu.maxSize.toNat := by
  obtain ⟨q, hq, -⟩ := PduT.resize_some (show p.Grows alloc size from fun _ => halloc size hsize)
  obtain ⟨hcounted, hmax, -⟩ := PduT.resize_counted hp hq
  refine ⟨q, hq, hcounted, by omega, ?_⟩
  unfold PduT.Counted at hcounted
  omega

/-- The request is built, and there is room for its answer. -/
theorem BuildReq.Makes.run_small {b : BuildReq} {w : Byte × List Byte} {tr : Transaction}
    (h : b.Makes w) (halloc : ∀ n ≤ 253, alloc n = true) (htr : tr.Small)
    (hlen : w.2.length ≤ 253) (hans : unsignedInt b.ansSize ≤ 253)
    (hkeeps : ∀ req, (b.makeReq req).2.maxSize = req.maxSize) :
    ∃ code tr', b.run alloc tr = (some code, tr') ∧ tr'.Small ∧ tr'.req.pdu.Carries w.1 w.2
      ∧ unsignedInt b.ansSize ≤ tr'.ans.pdu.maxSize.toNat := by
  obtain ⟨req, hreq, hreqCounted, hreqBuffer, hreqRoom⟩ :=
    PduT.resize_small halloc htr.counted.1 htr.req (h.size.trans_le hlen)
  obtain ⟨ans, hans', hansCounted, hansBuffer, hansRoom⟩ :=
    PduT.resize_small halloc htr.counted.2 htr.ans hans
  rw [h.size] at hreqRoom
  have hbuilt := (h.built_iff req.pdu).2 hreqRoom
  refine ⟨(b.makeReq req.pdu).1, ⟨{ req with pdu := (b.makeReq req.pdu).2 }, ans⟩, ?_,
    ⟨⟨?_, hansCounted⟩, hreqBuffer, hansBuffer⟩, h.carries req.pdu hbuilt, hansRoom⟩
  · unfold BuildReq.run
    rw [hreq]
    dsimp only
    rw [hans']
  · unfold PduT.Counted
    dsimp only
    rw [hkeeps]
    exact hreqCounted

theorem Transaction.Small.doTransaction {tr : Transaction} (h : tr.Small) (answer : EmbPdu) :
    (Proxy.doTransaction tr answer).2.Small := by
  unfold Proxy.doTransaction
  split_ifs
  · exact h
  · dsimp only
    split_ifs <;> exact ⟨⟨h.counted.1, h.counted.2⟩, h.req, h.ans⟩

end Built

/-! ## One operation -/

/-- The proxies' buffers are small, those of the server are of full size, and its blocks are the
flat memory. -/
structure RemoteFlat (l : MemoryLayout) (s : RemoteMemory) (m : FlatMemory) : Prop where
  small : ∀ k, (s.proxies k).Small
  rx : s.run.rxPdu.maxSize = 253
  tx : s.run.txPdu.maxSize = 253
  laid : MemoryLaid l s.run.store m

namespace RemoteMemory

variable {address : Byte} {alloc : ℕ → Bool} {l : MemoryLayout} {s : RemoteMemory} {m : FlatMemory}

/-- The client takes an answer that has room and is no exception. -/
theorem doTransaction_answered {tr : Transaction} {answer : EmbPdu}
    (hroom : answer.dataSize.toNat ≤ tr.ans.pdu.maxSize.toNat)
    (hexc : answer.function &&& 0x80 = 0) (hfunction : tr.req.pdu.function = answer.function) :
    Proxy.doTransaction tr answer = (0, { tr with ans.pdu := tr.ans.pdu.receive answer }) := by
  have hsame : (tr.ans.pdu.receive answer).function = answer.function := rfl
  unfold Proxy.doTransaction embCheckPduForException
  dsimp only
  rw [if_neg (Nat.not_lt.2 hroom), hsame, if_neg (not_not.2 hexc), if_neg (not_not.2 rfl),
    if_neg (not_not.2 hfunction)]

theorem doTransaction_refused (tr : Transaction) {answer : EmbPdu}
    (herrno : embCheckPduForException answer ≠ 0) : (Proxy.doTransaction tr answer).1 ≠ 0 := by
  intro hzero
  have htakes := (Proxy.doTransaction_zero_iff tr answer).1 hzero
  refine herrno ?_
  unfold embCheckPduForException
  rw [if_neg (not_not.2 htakes.2.1)]

theorem step_eq {i : ℕ × MemoryOp} {code : ℤ} {tr : Transaction} {answer : EmbPdu}
    (hrun : i.2.1.call.build.run alloc (s.proxies i.1) = (some code, tr))
    (hsent : (SrvClient.serve address ⟨tr.req.pdu, s.run⟩).sent = [(↑address.toNat, answer)]) :
    s.step address alloc i
      = (⟨Function.update s.proxies i.1 (Proxy.doTransaction tr answer).2,
          (SrvClient.serve address ⟨tr.req.pdu, s.run⟩).run⟩,
        if (Proxy.doTransaction tr answer).1 ≠ 0 then none
        else some (i.2.1.call.result (Proxy.doTransaction tr answer).2)) := by
  unfold step
  dsimp only
  rw [hrun]
  dsimp only
  have hserve : embSuperServerOnReceiveReq (superServerT address) address.toNat
      (s.received tr.req.pdu) = SrvClient.serve address ⟨tr.req.pdu, s.run⟩ := rfl
  rw [hserve, hsent]

/-- An operation that is a request which the server serves as the flat memory does. -/
theorem step_means {A : Type} {i : ℕ × MemoryOp} {function : Byte} {bytes : List Byte}
    {getters : EmbPdu → A} {refusal : A} {flat : MemoryLayout → FlatMemory → FlatMemory × A}
    (halloc : ∀ n ≤ 253, alloc n = true) (hR : RemoteFlat l s m)
    (hmeans : Means i.2.1 function bytes getters refusal flat)
    (hserved : ∀ req : EmbPdu, req.Carries function bytes →
      ServedFlat address l m ⟨req, s.run⟩ function getters refusal (flat l m)) :
    (s.step address alloc i).2 = (m.step l i).2
      ∧ RemoteFlat l (s.step address alloc i).1 (m.step l i).1 := by
  obtain ⟨b, hb⟩ := onMemory_build i.2.1 i.2.2
  obtain ⟨code, tr, hrun, hsmall, hcarries, hroom⟩ := hmeans.makes.run_small halloc (hR.small i.1)
    hmeans.length_le hmeans.ansSize_le fun req => by rw [hb]; exact b.makeReq_maxSize req
  have hflat : m.step l i = m.apply l i.2.1 := rfl
  have hsmall' (answer : EmbPdu) (k : ℕ) :
      (Function.update s.proxies i.1 (Proxy.doTransaction tr answer).2 k).Small := by
    rcases eq_or_ne k i.1 with rfl | hne
    · rw [Function.update_self]
      exact hsmall.doTransaction answer
    · rw [Function.update_of_ne hne]
      exact hR.small k
  have hfull : SrvClient.FullSize ⟨tr.req.pdu, s.run⟩ := ⟨hR.rx, hR.tx⟩
  have hfull' :
      SrvClient.FullSize ⟨tr.req.pdu, (SrvClient.serve address ⟨tr.req.pdu, s.run⟩).run⟩ :=
    hfull.serve
  cases hserved tr.req.pdu hcarries with
  | refused answer hsent herrno hlaid hrefused =>
    rw [step_eq hrun hsent, hflat, hmeans.refused l m hrefused]
    dsimp only
    rw [if_pos (doTransaction_refused tr herrno)]
    exact ⟨rfl, hsmall' answer, hfull'.rx, hfull'.tx, hlaid⟩
  | answered answer hsent hfunction hexc hlaid hanswer =>
    have hreceived : (tr.ans.pdu.receive answer).Carries function answer.bytes := by
      rw [← hfunction]
      exact EmbPdu.Carries.receive ⟨rfl, rfl⟩ tr.ans.pdu
    obtain ⟨hsize, happly⟩ := hmeans.answered l m { tr with ans.pdu := tr.ans.pdu.receive answer }
      hcarries (hanswer _ hreceived)
    have hroom' : answer.dataSize.toNat ≤ tr.ans.pdu.maxSize.toNat := hsize.trans hroom
    have hsame : tr.req.pdu.function = answer.function := hcarries.function.trans hfunction.symm
    have htaken := doTransaction_answered hroom' hexc hsame
    have hsmall'' := hsmall' answer
    rw [step_eq hrun hsent, hflat, happly]
    rw [htaken] at hsmall'' ⊢
    dsimp only
    rw [if_neg (not_not.2 rfl)]
    exact ⟨rfl, hsmall'', hfull'.rx, hfull'.tx, hlaid⟩

variable (address) in
theorem step_refines (halloc : ∀ n ≤ 253, alloc n = true) (hR : RemoteFlat l s m)
    {i : ℕ × MemoryOp} (hw : i.2.1.wire ≠ none) :
    (s.step address alloc i).2 = (m.step l i).2
      ∧ RemoteFlat l (s.step address alloc i).1 (m.step l i).1 := by
  have hfull (req : EmbPdu) : SrvClient.FullSize ⟨req, s.run⟩ := ⟨hR.rx, hR.tx⟩
  rcases means_request i.2.1 i.2.2 hw with ⟨q, hin, hmeans⟩ | ⟨q, hin, hmeans⟩
  · exact step_means halloc hR hmeans fun req hreq =>
      serve_regs (c := ⟨req, s.run⟩) q hR.laid (hfull req) hin hreq
  · exact step_means halloc hR hmeans fun req hreq =>
      serve_bits (c := ⟨req, s.run⟩) q hR.laid (hfull req) hin hreq

end RemoteMemory

/-! ## Every run -/

open RemoteMemory in
/-- Proxies that take turns on a server whose blocks are laid out well: whatever they have asked for
before, every operation whose arguments have a request does and returns, or throws, what the flat
memory would. -/
theorem remote_memory_is_flat (address : Byte) (alloc : ℕ → Bool) (function : Byte × Byte)
    (store : ServerT) (is : List (ℕ × MemoryOp)) (halloc : ∀ n ≤ 253, alloc n = true)
    (hstore : store.WellLaid) (his : ∀ i ∈ is, i.2.1.wire ≠ none) :
    let l := store.memoryLayout
    let final := run (step address alloc) (fresh function store) is
    final.2 = (run (FlatMemory.step l) store.flatMemory is).2
      ∧ MemoryLaid l final.1.run.store (run (FlatMemory.step l) store.flatMemory is).1 := by
  have hfresh : RemoteFlat store.memoryLayout (fresh function store) store.flatMemory :=
    ⟨fun _ => ⟨⟨rfl, rfl⟩, Nat.zero_le _, Nat.zero_le _⟩, rfl, rfl,
      ⟨hstore.holdings.laid 0, hstore.inputRegs.laid 0⟩,
      ⟨hstore.coils.laid false, hstore.discreteInputs.laid false⟩⟩
  have hlong : Along (step address alloc) (fun _ (i : ℕ × MemoryOp) => i.2.1.wire ≠ none)
      (fresh function store) is := along_of_forall his
  obtain ⟨hout, hflat⟩ := run_refines (R := RemoteFlat store.memoryLayout)
    (fun _ _ i hR hw => step_refines address halloc hR (i := i) hw) is _ _ hfresh hlong
  exact ⟨hout, hflat.laid⟩

/-- Ten coils and two holding registers. -/
def smallStore : ServerT :=
  ⟨[⟨3, 10, List.replicate 10 false, rfl⟩], [], [⟨7, 2, [1, 0x8000], rfl⟩], []⟩

/-- One proxy writes, the other sets a bit, reads it all back and reads what is not there. -/
def writeAndRead : List (ℕ × MemoryOp) :=
  [(0, ⟨.writeCoil 12 true, rfl⟩), (0, ⟨.writeHoldings 7 [0x1234, 5], rfl⟩),
    (1, ⟨.regSetBit 8 3 true, rfl⟩), (1, ⟨.readHoldings 7 2, rfl⟩), (1, ⟨.readHoldings 8 2, rfl⟩)]

theorem remote_memory_is_flat_two :
    (run (RemoteMemory.step 1 fun _ => true) (RemoteMemory.fresh (0, 0) smallStore) writeAndRead).2
      = [some .nothing, some .nothing, some .nothing, some (.regs [0x1234, 13]), none] := by
  have hstore : smallStore.WellLaid :=
    ⟨⟨by decide, by decide, List.pairwise_singleton _ _⟩,
      ⟨by decide, by decide, List.Pairwise.nil⟩,
      ⟨by decide, by decide, List.pairwise_singleton _ _⟩,
      ⟨by decide, by decide, List.Pairwise.nil⟩⟩
  have his : ∀ i ∈ writeAndRead, i.2.1.wire ≠ none := by
    simp [writeAndRead, ProxyOp.wire, ProxyOp.writeRegsWire, ProxyOp.readRegsWire]
  have hflat : (run (FlatMemory.step smallStore.memoryLayout) smallStore.flatMemory writeAndRead).2
      = [some .nothing, some .nothing, some .nothing, some (.regs [0x1234, 13]), none] := rfl
  exact (remote_memory_is_flat 1 (fun _ => true) (0, 0) smallStore writeAndRead (fun _ _ => rfl)
    hstore his).1.trans hflat

end Emodbus
