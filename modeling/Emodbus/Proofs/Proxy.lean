import Mathlib.Data.List.Forall2
import Mathlib.Data.Nat.Bitwise
import Emodbus.Proofs.FileAnswer
import Emodbus.Proofs.Transaction
import Emodbus.Proxy

/-!
# One honest transaction for every operation

An operation that is not refused builds its request in the buffer of the transaction, whatever lay
there before, and reads its result out of the answer.  It goes wrong where the builder refuses: then
the request of an earlier operation is passed on.
-/

namespace Emodbus

open Octets Mealy

namespace ProxyOp

/-! ## The request -/

theorem readBitsWire_some {function : Byte} {start size : Word} {w : Wire}
    (h : readBitsWire function start size = some w) :
    (1 ≤ size.toNat ∧ size.toNat ≤ 2000) ∧ w = (function, Mem.be [start, size]) := by
  obtain ⟨hsize, hw⟩ := Option.ite_none_right_eq_some.1 h
  exact ⟨hsize, (Option.some.inj hw).symm⟩

theorem readRegsWire_some {function : Byte} {start : Word} {size : ℕ} {w : Wire}
    (h : readRegsWire function start size = some w) :
    (1 ≤ size ∧ size ≤ 125) ∧ w = (function, Mem.be [start, BitVec.ofNat 16 size]) := by
  obtain ⟨hsize, hw⟩ := Option.ite_none_right_eq_some.1 h
  exact ⟨hsize, (Option.some.inj hw).symm⟩

/-- Registers that can be read are asked for. -/
theorem readRegsWire_makes (type : EmbRrType) {start n : Word} {w : Wire}
    (h : readRegsWire (RegsRequest.readRegs type start n).function start n.toNat = some w) :
    (readRegsBuildReq type start n).Makes w := by
  obtain ⟨hsize, rfl⟩ := readRegsWire_some h
  rw [BitVec.ofNat_toNat, BitVec.setWidth_eq]
  exact readRegs_makes type start hsize

theorem readBitsWire_makes (type : EmbRbType) {start n : Word} {w : Wire}
    (h : readBitsWire (BitsRequest.readBits type start n).function start n = some w) :
    (readBitsBuildReq type start n).Makes w := by
  obtain ⟨hsize, rfl⟩ := readBitsWire_some h
  exact readBits_makes type start hsize

theorem writeRegsWire_makes {start : Word} {values : List Word} {w : Wire}
    (h : writeRegsWire start values = some w) :
    (writeRegsBuildReq start (vecSize values) (vecData values)).Makes w := by
  obtain ⟨hsize, hw⟩ := Option.ite_none_right_eq_some.1 h
  rw [← Option.some.inj hw]
  exact writeRegs_makes start hsize

theorem subsWire_some {function : Byte} {body : List Byte} {w : Wire}
    (h : subsWire function body = some w) :
    body.length ≤ 254 ∧ w = (function, BitVec.ofNat 8 body.length :: body) := by
  obtain ⟨hsize, hw⟩ := Option.ite_none_right_eq_some.1 h
  exact ⟨hsize, (Option.some.inj hw).symm⟩

/-- The registers of a range, both ends with it. -/
theorem range_size {start stop : Word} (hle : start.toNat ≤ stop.toNat)
    (hsize : stop.toNat - start.toNat + 1 ≤ 125) :
    (stop - start + 1).toNat = stop.toNat - start.toNat + 1 := by
  have hone : (1 : Word).toNat = 1 := rfl
  have hsub : (stop - start).toNat = stop.toNat - start.toNat := by
    rw [BitVec.toNat_sub]
    have hlt := stop.isLt
    omega
  rw [BitVec.toNat_add, hsub, hone, Nat.mod_eq_of_lt (by omega)]

theorem length_writeFileSub (sub : WriteFileSubreq) :
    (writeFileSub sub).length = 7 + 2 * sub.regs.length := by
  simp [writeFileSub]
  omega

theorem bytes_req {sub : WriteFileSubreq} (h : sub.regs.length < 2 ^ 16) :
    sub.req.bytes = writeFileSub sub := by
  have hlen : sub.req.recordLength.toNat = sub.regs.length := toNat_vecSize h
  have hvalues : sub.req.values = sub.regs := by
    unfold EmbWriteFileReq.values
    rw [hlen]
    exact slice_vecData sub.regs
  unfold EmbWriteFileReq.bytes writeFileSub
  rw [hvalues, Mem.be_append]
  rfl

theorem writeBody_eq {reqs : List WriteFileSubreq}
    (h : (reqs.flatMap writeFileSub).length ≤ 254) :
    writeBody reqs = reqs.flatMap writeFileSub := by
  unfold writeBody
  rw [List.flatMap_map]
  refine List.flatMap_congr fun sub hsub => bytes_req ?_
  have hle : (writeFileSub sub).length ≤ (reqs.flatMap writeFileSub).length :=
    (List.sublist_flatten_of_mem (List.mem_map_of_mem hsub)).length_le
  rw [length_writeFileSub] at hle
  omega

/-- Every request that an operation is for is the one that it builds, but for `&=`. -/
theorem makes {op : ProxyOp} {w : Wire} (hw : op.wire = some w)
    (hand : ∀ addr v, op ≠ .regAnd addr v) : op.call.build.Makes w := by
  cases op with
  | readDiscreteInputs start size => exact readBitsWire_makes .discreteInputs hw
  | readCoils start size => exact readBitsWire_makes .coils hw
  | writeCoil addr value =>
    rw [← Option.some.inj hw]
    exact writeCoil_makes addr value
  | readInputRegs start size => exact readRegsWire_makes .inputs hw
  | readHoldings start size => exact readRegsWire_makes .holdings hw
  | writeHolding addr value =>
    rw [← Option.some.inj hw]
    exact writeReg_makes addr value
  | writeHoldings start values => exact writeRegsWire_makes hw
  | readWriteHoldings readStart readSize writeStart toWrite =>
    obtain ⟨hsize, hw⟩ := Option.ite_none_right_eq_some.1 hw
    rw [← Option.some.inj hw]
    exact readWriteRegs_makes readStart writeStart hsize.1 hsize.2
  | readFile req =>
    obtain ⟨hrec, hw⟩ := Option.ite_none_right_eq_some.1 hw
    obtain ⟨hlen, rfl⟩ := subsWire_some hw
    exact readFile_makes hrec hlen
  | writeFile req =>
    obtain ⟨hreq, hw⟩ := Option.ite_none_right_eq_some.1 hw
    obtain ⟨hlen, rfl⟩ := subsWire_some hw
    have hbody := writeBody_eq hlen
    rw [← hbody] at hlen ⊢
    exact writeFile_makes hreq.1 hreq.2 hlen
  | readFifo start =>
    rw [← Option.some.inj hw]
    exact readFifo_makes start
  | regInt addr => exact readRegsWire_makes .holdings (n := 1) hw
  | regAssign addr v =>
    obtain ⟨hv, hw⟩ := Option.ite_none_right_eq_some.1 hw
    rw [← Option.some.inj hw]
    exact writeReg_makes addr _
  | regOr addr v =>
    obtain ⟨hv, hw⟩ := Option.ite_none_right_eq_some.1 hw
    rw [← Option.some.inj hw]
    exact writeMaskReg_makes addr _ _
  | regAnd addr v => exact absurd rfl (hand addr v)
  | regAssignRegs addr regs => exact writeRegsWire_makes hw
  | regFloat addr => exact readRegsWire_makes .holdings (n := 2) hw
  | regAssignFloat addr first second => exact writeRegsWire_makes hw
  | regSetBit addr nbit value =>
    obtain ⟨hbit, hw⟩ := Option.ite_none_right_eq_some.1 hw
    rw [← Option.some.inj hw]
    exact writeMaskReg_makes addr _ _
  | regGetBit addr nbit =>
    obtain ⟨hbit, hw⟩ := Option.ite_none_right_eq_some.1 hw
    exact readRegsWire_makes .holdings (n := 1) hw
  | rangeRegs start stop =>
    obtain ⟨hle, hw⟩ := Option.ite_none_right_eq_some.1 hw
    have hsize := range_size hle (readRegsWire_some hw).1.2
    rw [← hsize] at hw
    exact readRegsWire_makes .holdings hw
  | rangeAssign start stop regs =>
    obtain ⟨hle, hw⟩ := Option.ite_none_right_eq_some.1 hw
    exact writeRegsWire_makes hw

/-- What is built has the length of the request, and is another one for `&=` only. -/
theorem makes_iff {op : ProxyOp} {w : Wire} (hw : op.wire = some w) :
    ∃ w', op.call.build.Makes w' ∧ w'.1 = w.1 ∧ w'.2.length = w.2.length
      ∧ (w' = w ↔ ∀ addr v, op ≠ .regAnd addr v) := by
  by_cases hand : ∃ addr v, op = .regAnd addr v
  · obtain ⟨addr, v, rfl⟩ := hand
    obtain ⟨hv, hw⟩ := Option.ite_none_right_eq_some.1 hw
    have hne : maskWire addr (~~~BitVec.ofInt 16 v) 0 ≠ maskWire addr (BitVec.ofInt 16 v) 0 := by
      intro heq
      have hwords := Mem.be_injective (congrArg Prod.snd heq)
      simp at hwords
    rw [← Option.some.inj hw]
    exact ⟨maskWire addr (~~~BitVec.ofInt 16 v) 0, writeMaskReg_makes addr _ _, rfl, rfl,
      fun heq => absurd heq hne, fun hall => absurd rfl (hall addr v)⟩
  · have hall : ∀ addr v, op ≠ .regAnd addr v := fun addr v h => hand ⟨addr, v, h⟩
    exact ⟨w, makes hw hall, rfl, rfl, fun _ => hall, fun _ => rfl⟩

/-! ## The answer -/

section Answer

variable {tr : Transaction} {answer : EmbPdu}

/-- The getters for registers, on an answer with registers. -/
theorem RegsIn.read {values : List Word} (h : RegsIn answer values)
    (hans : tr.ans.pdu.Carries answer.function answer.bytes) : readRegsAnswer tr = values := by
  obtain ⟨count, rest, hbytes, hlen⟩ := h
  rw [hbytes] at hans
  have hcount : tr.ans.pdu.data 0 = count := hans.byte [] (Mem.be values ++ rest)
  have hcarries : tr.ans.pdu.Carries answer.function ([count] ++ Mem.be values ++ rest) := hans
  have hregsN : (embReadRegsGetRegsN tr.ans.pdu).toNat = values.length := by
    unfold embReadRegsGetRegsN
    rw [hcount, Int.toNat_natCast, BitVec.toNat_ushiftRight, Nat.shiftRight_one, hlen]
  unfold readRegsAnswer
  rw [hregsN]
  refine Eq.trans (List.map_congr_left fun i hi => ?_) hcarries.words
  unfold embReadRegsGetReg
  rw [getSwapped_eq, getBigEnd16_eq]
  rfl

theorem RegIn.read {value : Word} (h : RegIn answer value)
    (hans : tr.ans.pdu.Carries answer.function answer.bytes) :
    embReadRegsGetReg tr.ans.pdu 0 = value := by
  obtain ⟨count, rest, hbytes⟩ := h
  rw [hbytes] at hans
  unfold embReadRegsGetReg
  rw [getSwapped_eq]
  exact hans.word [count] rest

theorem BitsIn.read {size start : Word} {function : Byte} {r : ProxyResult}
    (h : BitsIn size answer r) (hreq : tr.req.pdu.Carries function (Mem.be [start, size]))
    (hans : tr.ans.pdu.Carries answer.function answer.bytes) : readBitsResult tr = r := by
  obtain ⟨hlen, rfl⟩ := h
  have hsize : getSwapped tr.req.pdu 2 = size := by
    rw [getSwapped_eq]
    exact hreq.word (Mem.be [start]) []
  unfold readBitsResult unpack
  rw [hsize]
  refine congrArg ProxyResult.bits (List.map_congr_left fun i hi => ?_)
  rw [List.mem_range] at hi
  rw [embReadBitsGetBit_eq_bitAt (by rw [hans.bytes]; omega), hans.bytes]

theorem FileIn.read {subs : List (List Word)} (h : FileIn answer subs)
    (hans : tr.ans.pdu.Carries answer.function answer.bytes) :
    readFileAnswer tr.ans.pdu = subs.map fun regs => ⟨vecSize regs, regs⟩ := by
  unfold FileIn at h
  rw [h] at hans
  have hlen := hans.dataSize
  have hlt := tr.ans.pdu.dataSize.isLt
  rw [List.length_cons] at hlen
  have hcount : (tr.ans.pdu.data 0).toNat = (subs.flatMap subanswerBytes).length := by
    have hbyte := hans.byte [] (subs.flatMap subanswerBytes)
    rw [List.length_nil] at hbyte
    rw [hbyte, BitVec.toNat_ofNat, Nat.mod_eq_of_lt (by omega)]
  have hat : Mem.At tr.ans.pdu.data 1 (subs.flatMap subanswerBytes) := by
    have hbytes := hans.bytes
    unfold EmbPdu.bytes at hbytes
    rw [hlen, Mem.slice_succ] at hbytes
    exact (List.cons.inj hbytes).2
  have hturns := two_mul_length_le subs
  have hwalk : readFileWalk tr.ans.pdu 256 none = answerPlaces 1 subs :=
    readFileWalk_eq (by omega) hcount subs (by omega) rfl (Nat.add_comm 1 _) le_rfl hat
  unfold readFileAnswer
  rw [hwalk]
  refine (congrFun₂ List.forall₂_eq_eq_eq _ _).mp ?_
  rw [List.forall₂_map_left_iff, List.forall₂_map_right_iff]
  refine (at_answerPlaces subs (by omega) hat).imp fun place regs hplace => ?_
  obtain ⟨hquantity, hdata⟩ := subanswer_read hplace.1 hplace.2
  have hregs : (vecSize regs).toNat = regs.length := toNat_vecSize (by omega)
  have hquantity' : embReadFileSubanswerQuantity tr.ans.pdu place = vecSize regs := hquantity
  dsimp only
  rw [hquantity', hregs]
  refine congrArg (Subanswer.mk _) (List.ext_getElem (by simp) fun j hj hj' => ?_)
  have hoffset : (BitVec.ofNat 16 j).toNat = j := by
    rw [BitVec.toNat_ofNat, Nat.mod_eq_of_lt (by omega)]
  rw [List.getElem_map, List.getElem_range, hdata _ (by rw [hoffset]; exact hj')]
  simp only [hoffset]

theorem and_one_shiftLeft_ne (x n : ℕ) : (x &&& 1 <<< n != 0) = x.testBit n := by
  rw [Nat.one_shiftLeft, Nat.and_two_pow]
  cases x.testBit n with
  | true => simp
  | false => simp

/-- What an answer says is what the getters give. -/
theorem AnsweredBy.read {op : ProxyOp} {w : Wire} {r : ProxyResult} (hw : op.wire = some w)
    (hreq : tr.req.pdu.Carries w.1 w.2)
    (hans : tr.ans.pdu.Carries answer.function answer.bytes) (h : op.AnsweredBy answer r) :
    op.call.result tr = r := by
  cases op with
  | readDiscreteInputs start size | readCoils start size =>
    obtain ⟨-, rfl⟩ := readBitsWire_some hw
    exact BitsIn.read h hreq hans
  | readInputRegs _ _ | readHoldings _ _ | readWriteHoldings _ _ _ _ | rangeRegs _ _ =>
    obtain ⟨values, rfl, hvalues⟩ := h
    exact congrArg ProxyResult.regs (hvalues.read hans)
  | readFile req =>
    obtain ⟨subs, rfl, hsubs⟩ := h
    exact congrArg ProxyResult.file (hsubs.read hans)
  | readFifo start =>
    obtain ⟨values, rfl, byteCount, hbytes⟩ := h
    rw [hbytes] at hans
    have hlen := hans.dataSize
    have hlt := tr.ans.pdu.dataSize.isLt
    rw [Mem.length_be, List.length_append] at hlen
    have hsize : (vecSize values).toNat = values.length := toNat_vecSize (by omega)
    have hcount : embReadFifoRegsCount tr.ans.pdu = vecSize values := by
      unfold embReadFifoRegsCount
      rw [getSwapped_eq]
      exact hans.word (Mem.be [byteCount]) (Mem.be values)
    have hcarries : tr.ans.pdu.Carries answer.function
        (Mem.be [byteCount, vecSize values] ++ Mem.be values ++ []) := by
      rw [List.append_nil, ← Mem.be_append]
      exact hans
    refine congrArg ProxyResult.regs ?_
    unfold readFifoAnswer embReadFifoGetAllData
    rw [hcount, Nat.min_self, hsize]
    refine Eq.trans (List.map_congr_left fun i hi => ?_) hcarries.words
    rw [getSwapped_eq, getBigEnd16_eq, Nat.mul_add]
    rfl
  | regInt addr =>
    obtain ⟨value, rfl, hvalue⟩ := h
    exact congrArg ProxyResult.reg (hvalue.read hans)
  | regFloat addr =>
    obtain ⟨first, second, rfl, hvalues⟩ := h
    exact congrArg ProxyResult.float (hvalues.read hans)
  | regGetBit addr nbit =>
    obtain ⟨value, rfl, hvalue⟩ := h
    have hreg := hvalue.read hans
    unfold call
    dsimp only
    rw [hreg, and_one_shiftLeft_ne]
    rfl
  | writeCoil _ _ | writeHolding _ _ | writeHoldings _ _ | writeFile _ | regAssign _ _ | regOr _ _
  | regAnd _ _ | regAssignRegs _ _ | regAssignFloat _ _ _ | regSetBit _ _ _ | rangeAssign _ _ _ =>
    exact h.symm

end Answer

end ProxyOp

/-! ## One call -/

theorem EmbPdu.Carries.unique {p : EmbPdu} {w w' : Wire} (h : p.Carries w.1 w.2)
    (h' : p.Carries w'.1 w'.2) : w = w' :=
  Prod.ext (h.function.symm.trans h'.function) (h.bytes.symm.trans h'.bytes)

namespace Proxy

variable {alloc : ℕ → Bool} {function : Byte × Byte} {tr : Transaction} {i : ProxyInput}

/-- The client takes an answer that has room, is no exception and has the right function. -/
theorem doTransaction_zero_iff (tr : Transaction) (answer : EmbPdu) :
    (doTransaction tr answer).1 = 0 ↔ answer.dataSize.toNat ≤ tr.ans.pdu.maxSize.toNat
      ∧ answer.function &&& 0x80 = 0 ∧ answer.function = tr.req.pdu.function := by
  have hfunction : (tr.ans.pdu.receive answer).function = answer.function := rfl
  unfold doTransaction
  by_cases hlong : tr.ans.pdu.maxSize.toNat < answer.dataSize.toNat
  · rw [if_pos hlong]
    exact iff_of_false (show -modbusRespBufferOvf ≠ 0 by decide)
      fun h => absurd h.1 (Nat.not_le.2 hlong)
  rw [if_neg hlong]
  unfold embCheckPduForException
  dsimp only
  rw [hfunction]
  by_cases hexc : answer.function &&& 0x80 = 0
  · have hnot : ¬ answer.function &&& 0x80 ≠ 0 := not_not.2 hexc
    rw [if_neg hnot, if_neg (not_not.2 rfl)]
    by_cases hfunc : tr.req.pdu.function = answer.function
    · rw [if_neg (not_not.2 hfunc)]
      exact iff_of_true rfl ⟨Nat.not_lt.1 hlong, hexc, hfunc.symm⟩
    · rw [if_pos hfunc]
      exact iff_of_false (show -modbusRespWrongFunc ≠ 0 by decide) fun h => hfunc h.2.2.symm
  · rw [if_pos hexc]
    have hne : -(((tr.ans.pdu.receive answer).data 0).toNat + embExceptionBase : ℤ) ≠ 0 := by
      unfold embExceptionBase
      omega
    rw [if_pos hne]
    exact iff_of_false hne fun h => hexc h.2.1

/-- What is in the transaction once the answer has been taken. -/
theorem doTransaction_taken {tr : Transaction} {answer : EmbPdu}
    (h : (doTransaction tr answer).1 = 0) :
    (doTransaction tr answer).2.req = tr.req
      ∧ (doTransaction tr answer).2.ans.pdu.Carries answer.function answer.bytes := by
  have hlong := Nat.not_lt.2 ((doTransaction_zero_iff tr answer).1 h).1
  have hcarries : (tr.ans.pdu.receive answer).Carries answer.function answer.bytes :=
    EmbPdu.Carries.receive ⟨rfl, rfl⟩ tr.ans.pdu
  unfold doTransaction
  rw [if_neg hlong]
  dsimp only
  split_ifs <;> exact ⟨rfl, hcarries⟩

/-- An operation that can resize the buffers transmits what its builder leaves, and returns what
the getters give if the client takes the answer. -/
theorem perform_grows (h : i.op.call.build.Grows alloc tr) :
    ∃ (req : EmbPdu) (built : Transaction),
      (perform alloc tr i).2 = ⟨i.op, i.answer, some (i.op.call.build.makeReq req).1,
          [built.req.pdu], if (doTransaction built i.answer).1 ≠ 0 then none
            else some (i.op.call.result (doTransaction built i.answer).2)⟩
        ∧ built.req.pdu = (i.op.call.build.makeReq req).2
        ∧ req.maxSize.toNat = tr.req.room (unsignedInt i.op.call.build.reqSize)
        ∧ built.ans.pdu.maxSize.toNat = tr.ans.room (unsignedInt i.op.call.build.ansSize) := by
  obtain ⟨req, ans, hrun, hreq, hans⟩ := BuildReq.run_returns h
  refine ⟨req.pdu, ⟨{ req with pdu := (i.op.call.build.makeReq req.pdu).2 }, ans⟩, ?_, rfl, hreq,
    hans⟩
  unfold perform
  rw [hrun]
  dsimp only
  split_ifs <;> rfl

/-- An operation that throws when it resizes the buffers transmits nothing. -/
theorem perform_throws (h : ¬ i.op.call.build.Grows alloc tr) :
    (perform alloc tr i).2 = ⟨i.op, i.answer, none, [], none⟩ := by
  unfold perform
  dsimp only
  rw [BuildReq.run_throws h]

/-- A call that transmits is honest exactly if it builds the request that encodes it, and what it
returns is in the answer. -/
theorem honest_iff {op : ProxyOp} {answer pdu : EmbPdu} {code : ℤ}
    {returned : Option ProxyResult} :
    ProxyOutcome.Honest ⟨op, answer, some code, [pdu], returned⟩
      ↔ op.wire ≠ none ∧ code = 0
        ∧ ∀ r, returned = some r → op.Encodes pdu ∧ op.AnsweredBy answer r := by
  constructor
  · intro h
    have hnot : ¬ (op.wire = none ∨ ∃ c : ℤ, some code = some c ∧ c ≠ 0) := fun hrefused =>
      List.cons_ne_nil _ _ (h.refused hrefused)
    refine ⟨fun hw => hnot (.inl hw), ?_, fun r hr => ?_⟩
    · by_contra hcode
      exact hnot (.inr ⟨code, rfl, hcode⟩)
    · obtain ⟨pdu', hpdu, hencodes⟩ := h.transmits r hr
      rw [List.head_eq_of_cons_eq hpdu]
      exact ⟨hencodes, h.decodes r hr⟩
  · rintro ⟨hw, rfl, hall⟩
    refine ⟨?_, fun r hr => ⟨pdu, rfl, (hall r hr).1⟩, fun r hr => (hall r hr).2⟩
    rintro (hnone | ⟨c, hc, hne⟩)
    · exact absurd hnone hw
    · exact absurd (Option.some.inj hc).symm hne

theorem honest_of_throws {op : ProxyOp} {answer : EmbPdu} {built : Option ℤ} :
    ProxyOutcome.Honest ⟨op, answer, built, [], none⟩ where
  refused _ := rfl
  transmits _ h := nomatch h
  decodes _ h := nomatch h

/-- An operation in the transaction of the proxy is honest exactly if it is sound. -/
theorem perform_honest_iff :
    (perform alloc tr i).2.Honest ↔ ¬ i.op.call.build.Grows alloc tr ∨
      ∃ w, i.op.wire = some w ∧ w.2.length ≤ tr.req.room w.2.length
        ∧ (Takes (tr.ans.room (unsignedInt i.op.call.build.ansSize)) w i.answer →
          (∀ addr v, i.op ≠ .regAnd addr v) ∧ ∃ r, i.op.AnsweredBy i.answer r) := by
  by_cases hgrows : i.op.call.build.Grows alloc tr
  swap
  · rw [perform_throws hgrows]
    exact iff_of_true honest_of_throws (.inl hgrows)
  obtain ⟨req, built, houtcome, hbuilt, hreq, hans⟩ := perform_grows hgrows
  rw [houtcome, honest_iff]
  -- what is taken for an answer, once the request has the function of the operation
  have htakes : ∀ {w : Wire}, built.req.pdu.function = w.1 → ((doTransaction built i.answer).1 = 0
      ↔ Takes (tr.ans.room (unsignedInt i.op.call.build.ansSize)) w i.answer) := by
    intro w hw
    rw [doTransaction_zero_iff, hans, hw]
    exact Iff.rfl
  constructor
  · rintro ⟨hw, hcode, hall⟩
    obtain ⟨w, hw⟩ := Option.ne_none_iff_exists'.1 hw
    obtain ⟨w', hmakes, hfunction, hlen, hiff⟩ := ProxyOp.makes_iff hw
    have hcarries := hmakes.carries req hcode
    rw [← hbuilt] at hcarries
    have hroom := (hmakes.built_iff req).1 hcode
    rw [hreq, hmakes.size, hlen] at hroom
    refine .inr ⟨w, hw, hroom, fun htaken => ?_⟩
    have hres := (htakes (hcarries.function.trans hfunction)).2 htaken
    obtain ⟨⟨w'', hw'', hencoded⟩, hanswered⟩ := hall _ (if_neg (not_not.2 hres))
    obtain rfl : w = w'' := Option.some.inj (hw.symm.trans hw'')
    exact ⟨hiff.1 (hcarries.unique hencoded), _, hanswered⟩
  · rintro (hnot | ⟨w, hw, hroom, hanswer⟩)
    · exact absurd hgrows hnot
    obtain ⟨w', hmakes, hfunction, hlen, hiff⟩ := ProxyOp.makes_iff hw
    have hcode : (i.op.call.build.makeReq req).1 = 0 := by
      rw [hmakes.built_iff, hreq, hmakes.size, hlen]
      exact hroom
    have hcarries := hmakes.carries req hcode
    rw [← hbuilt] at hcarries
    refine ⟨by rw [hw]; exact Option.some_ne_none w, hcode, fun r hr => ?_⟩
    by_cases hres : (doTransaction built i.answer).1 = 0
    · rw [if_neg (not_not.2 hres)] at hr
      obtain ⟨hand, r', hanswered⟩ :=
        hanswer ((htakes (hcarries.function.trans hfunction)).1 hres)
      obtain rfl := hiff.2 hand
      obtain ⟨hkept, htaken⟩ := doTransaction_taken hres
      rw [← Option.some.inj hr, hanswered.read hw (hkept ▸ hcarries) htaken]
      exact ⟨⟨w', hw, hcarries⟩, hanswered⟩
    · rw [if_pos hres] at hr
      exact nomatch hr

/-- `read_fifo` is honest only if it throws. -/
theorem readFifo_honest_iff {start : Word} (hop : i.op = .readFifo start) :
    (readFifo alloc (fresh function) i).Honest
      ↔ ¬ (readFifoBuildReq start).Grows alloc (fresh function) := by
  have hbuild : i.op.call.build = readFifoBuildReq start := by rw [hop]; rfl
  unfold readFifo
  rw [hbuild]
  by_cases hgrows : (readFifoBuildReq start).Grows alloc (fresh function)
  · obtain ⟨req, ans, hrun, hreq, -⟩ := BuildReq.run_returns hgrows
    have hroom : (fresh function).req.room (unsignedInt (readFifoBuildReq start).reqSize) = 2 := rfl
    have hcode : ((readFifoBuildReq start).makeReq req.pdu).1 = 0 := by
      rw [(readFifo_makes start).built_iff, hreq, hroom]
      exact le_rfl
    rw [hrun]
    dsimp only
    rw [hcode, if_neg (not_not.2 rfl)]
    refine iff_of_false (fun h => ?_) (not_not.2 hgrows)
    obtain ⟨pdu, hpdu, -⟩ := h.transmits _ rfl
    exact List.cons_ne_nil _ _ hpdu.symm
  · dsimp only
    rw [BuildReq.run_throws hgrows]
    exact iff_of_true honest_of_throws hgrows

theorem step_honest_iff :
    (step alloc function tr i).2.Honest ↔ Sound alloc function tr i := by
  unfold step Sound
  split
  · next start hop => exact readFifo_honest_iff hop
  · exact perform_honest_iff

end Proxy

/-- The operations of a run are honest transactions exactly if each of them is sound in the buffers
as it finds them. -/
theorem proxy_honest_iff (alloc : ℕ → Bool) (function : Byte × Byte) (is : List ProxyInput) :
    (∀ o ∈ (run (Proxy.step alloc function) (Proxy.fresh function) is).2, o.Honest)
      ↔ Along (Proxy.step alloc function) (Proxy.Sound alloc function) (Proxy.fresh function) is :=
  run_out_iff (fun _ _ => Proxy.step_honest_iff) is _

/-- An answer that echoes the request to write 5 into register 1. -/
def registerOneEcho : EmbPdu := ⟨0x06, 4, 4, Mem.blit (fun _ => 0) 0 (Mem.be [1, 5])⟩

example : Proxy.Sound (fun _ => true) (0, 0) (Proxy.fresh (0, 0))
    ⟨.writeHolding 1 5, registerOneEcho⟩ :=
  .inr ⟨_, rfl, by decide, fun _ => ⟨fun _ _ => nofun, .nothing, rfl⟩⟩

/-- A register is written, and then more registers than one request can hold. -/
def writeTooMany : List ProxyInput :=
  [⟨.writeHolding 1 5, registerOneEcho⟩, ⟨.writeHoldings 0 (List.replicate 124 0), registerOneEcho⟩]

set_option maxRecDepth 2000 in
/-- The registers are not written and the operation returns: what it has transmitted is the write of
register 1 once more. -/
theorem too_many_registers_repeat_request :
    (∃ o ∈ (run (Proxy.step (fun _ => true) (0, 0)) (Proxy.fresh (0, 0)) writeTooMany).2,
      o.built = some (-einval) ∧ o.returned = some .nothing
        ∧ o.transmitted.map (fun pdu => (pdu.function, pdu.bytes)) = [(0x06, Mem.be [1, 5])])
      ∧ ¬ ∀ o ∈ (run (Proxy.step (fun _ => true) (0, 0)) (Proxy.fresh (0, 0)) writeTooMany).2,
        o.Honest := by
  refine ⟨⟨_, List.mem_cons_of_mem _ List.mem_cons_self, rfl, rfl, rfl⟩, fun h => ?_⟩
  have hrefused := (h _ (List.mem_cons_of_mem _ List.mem_cons_self)).refused
    (.inr ⟨-einval, rfl, neg_einval_ne⟩)
  exact List.cons_ne_nil _ _ hrefused

end Emodbus
