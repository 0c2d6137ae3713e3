import Emodbus.Proofs.Server
import Emodbus.RegsRun

/-!
# What the client's functions for registers write and read

A request that was built has its function, and in its bytes the words high byte first, whatever
lay in the PDU before.
-/

namespace Emodbus

open Octets

theorem storeSwapped_eq (p : Mem Byte) (off : ℕ) (data : Mem Word) (n : ℕ) :
    storeSwapped p off data n = Mem.blit p off (Mem.be (Mem.slice data 0 n)) := by
  induction n with
  | zero => rw [storeSwapped, Mem.slice_zero, Mem.be, Mem.blit_nil]
  | succ n ih =>
    rw [storeSwapped, ih, storeWord_swapBytes, Mem.slice_add, Mem.be_append, Mem.blit_append,
      Mem.length_be, Mem.length_slice, Nat.zero_add]
    rfl

theorem getSwapped_eq (pdu : EmbPdu) (off : ℕ) : getSwapped pdu off = getBigEnd16 pdu.data off := by
  rw [getSwapped, loadWord, mkWord_eq, swapBytes_eq, Word.swap_ofBytes, getBigEnd16_eq]
  rfl

namespace RegsRequest

/-- A request that was built without an error. -/
structure Built (request : RegsRequest) (pdu : EmbPdu) : Prop where
  inRange : request.InRange
  carries : pdu.Carries request.function request.bytes

end RegsRequest

theorem readRegs_built {req : EmbPdu} {type : EmbRrType} {a n : Word}
    (h : (embReadRegsMakeReq req type a n).1 = 0) :
    (RegsRequest.readRegs type a n).Built (embReadRegsMakeReq req type a n).2 := by
  unfold embReadRegsMakeReq at h ⊢
  split_ifs at h ⊢ with hmax hn
  · exact absurd h neg_enomem_ne
  · refine ⟨hn, ⟨?_, slice_two _ _ _⟩⟩
    cases type <;> rfl
  · exact absurd h neg_einval_ne

theorem writeReg_built {req : EmbPdu} {a value : Word}
    (h : (embWriteRegMakeReq req a value).1 = 0) :
    (RegsRequest.writeReg a value).Built (embWriteRegMakeReq req a value).2 := by
  unfold embWriteRegMakeReq at h ⊢
  split_ifs at h ⊢ with hmax
  · exact absurd h neg_enomem_ne
  · exact ⟨trivial, ⟨rfl, slice_two _ _ _⟩⟩

theorem writeRegs_built {req : EmbPdu} {a n : Word} {data : Mem Word}
    (h : (embWriteRegsMakeReq req a n data).1 = 0) :
    (RegsRequest.writeRegs a n data).Built (embWriteRegsMakeReq req a n data).2 := by
  unfold embWriteRegsMakeReq at h ⊢
  split_ifs at h ⊢ with hmax hn
  · exact absurd h neg_enomem_ne
  · refine ⟨hn, ⟨rfl, ?_⟩⟩
    have hsize : (BitVec.ofNat 8 (writeRegistersReqSize n.toNat)).toNat = 5 + 2 * n.toNat := by
      rw [BitVec.toNat_ofNat, writeRegistersReqSize]
      omega
    unfold EmbPdu.bytes
    dsimp only
    rw [hsize, storeSwapped_eq]
    have h4 := Mem.slice_blit_append _ [BitVec.ofNat 8 (n.toNat * 2)] (slice_two req.data a n)
      (n := 5) rfl
    exact Mem.slice_blit_append _ _ h4 (by rw [Mem.length_be, Mem.length_slice])
  · exact absurd h neg_einval_ne

theorem writeMaskReg_built {req : EmbPdu} {a andMask orMask : Word}
    (h : (embWriteMaskRegMakeReq req a andMask orMask).1 = 0) :
    (RegsRequest.writeMaskReg a andMask orMask).Built
      (embWriteMaskRegMakeReq req a andMask orMask).2 := by
  unfold embWriteMaskRegMakeReq at h ⊢
  split_ifs at h ⊢ with hmax
  · exact absurd h neg_enomem_ne
  · refine ⟨trivial, ⟨rfl, ?_⟩⟩
    unfold EmbPdu.bytes
    dsimp only
    rw [storeWord_swapBytes _ 4]
    exact Mem.slice_blit_append _ (Mem.be [orMask]) (slice_two req.data a andMask) rfl

theorem rdwrRegs_built {req : EmbPdu} {ra rn wa wn : Word} {data : Mem Word}
    (h : (embRdwrRegsMakeReq req ra rn wa wn data).1 = 0) :
    (RegsRequest.rdwrRegs ra rn wa wn data).Built
      (embRdwrRegsMakeReq req ra rn wa wn data).2 := by
  unfold embRdwrRegsMakeReq at h ⊢
  split_ifs at h ⊢ with hmax hrn hwn
  · exact absurd h neg_enomem_ne
  · refine ⟨⟨hrn, hwn⟩, ⟨rfl, ?_⟩⟩
    have hsize : (BitVec.ofInt 8 (embRdwrRegsCalcReqDataSize wn)).toNat = 9 + 2 * wn.toNat := by
      have hcast : embRdwrRegsCalcReqDataSize wn = ((9 + wn.toNat * 2 : ℕ) : ℤ) := rfl
      rw [hcast, BitVec.ofInt_natCast, BitVec.toNat_ofNat]
      omega
    unfold EmbPdu.bytes
    dsimp only
    rw [hsize, storeSwapped_eq, storeWord_swapBytes _ 4, storeWord_swapBytes _ 6]
    have h4 := Mem.slice_blit_append _ (Mem.be [wa]) (slice_two req.data ra rn) (n := 6) rfl
    have h6 := Mem.slice_blit_append _ (Mem.be [wn]) h4 (n := 8) rfl
    have h8 := Mem.slice_blit_append _ [BitVec.ofNat 8 (wn.toNat * 2)] h6 (n := 9) rfl
    exact Mem.slice_blit_append _ _ h8 (by rw [Mem.length_be, Mem.length_slice])
  · exact absurd h neg_einval_ne
  · exact absurd h neg_einval_ne

theorem RegsRequest.built {request : RegsRequest} {req : EmbPdu}
    (h : (request.makeReq req).1 = 0) : request.Built (request.makeReq req).2 := by
  cases request with
  | readRegs => exact readRegs_built h
  | writeReg => exact writeReg_built h
  | writeRegs => exact writeRegs_built h
  | writeMaskReg => exact writeMaskReg_built h
  | rdwrRegs => exact rdwrRegs_built h

end Emodbus
