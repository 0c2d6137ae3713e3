import Emodbus.Builders
import Emodbus.Lib.Mealy
import Emodbus.Transaction

/-!
# A transaction that is used again

The `build_req` of the ten classes that return what the C function does, called one after another
on one `transaction_t`.
-/

namespace Emodbus

open Octets

/-- `transaction_t::transaction_t`, with what the functions of the PDUs happen to be. -/
def Transaction.fresh (reqFunction ansFunction : Byte) : Transaction :=
  ⟨.empty reqFunction, .empty ansFunction⟩

/-- A call of `build_req`, by its class. -/
inductive Build
  | readBits (type : Option EmbRbType) (startingAddress quantity : Word)
  | writeCoil (address : Word) (value : Bool)
  | writeCoils (startingAddress quantity : Word) (pcoils : Mem Bool)
  | readRegs (subtype : Option EmbRrType) (startingAddress quantity : Word)
  | writeReg (address value : Word)
  | writeRegs (address quantity : Word) (data : Mem Word)
  | readWriteRegs (rdAddress rdQuantity wrAddress wrQuantity : Word) (wrData : Option (Mem Word))
  | writeMaskReg (address andMask orMask : Word)
  | readFile (reqs : List EmbReadFileReq)
  | writeFile (reqs : List WriteFileSubreq)

namespace Build

def req : Build → BuildReq
  | readBits type startingAddress quantity =>
    { reqSize := embReadBitsCalcReqDataSize
      ansSize := embReadBitsCalcAnswerDataSize quantity
      makeReq := fun req => embReadBitsMakeReqOf req type startingAddress quantity }
  | writeCoil address value => writeCoilBuildReq address value
  | writeCoils startingAddress quantity pcoils =>
    let coils := packLoop pcoils quantity.toNat 0 quantity.toNat
    { reqSize := embWriteCoilsCalcReqDataSize quantity
      ansSize := embWriteCoilsCalcAnswerDataSize
      makeReq := fun req =>
        embWriteCoilsMakeReq req startingAddress quantity fun i => coils.getD i 0 }
  | readRegs subtype startingAddress quantity =>
    { reqSize := embReadRegsCalcReqDataSize
      ansSize := embReadRegsCalcAnswerDataSize quantity
      makeReq := fun req => embReadRegsMakeReqOf req subtype startingAddress quantity }
  | writeReg address value => writeRegBuildReq address value
  | writeRegs address quantity data => writeRegsBuildReq address quantity data
  | readWriteRegs rdAddress rdQuantity wrAddress wrQuantity wrData =>
    { reqSize := embRdwrRegsCalcReqDataSize wrQuantity
      ansSize := embRdwrRegsCalcAnswerDataSize rdQuantity
      makeReq := fun req =>
        embRdwrRegsMakeReqOf req rdAddress rdQuantity wrAddress wrQuantity wrData }
  | writeMaskReg address andMask orMask => writeMaskRegBuildReq address andMask orMask
  | readFile reqs => readFileBuildReq reqs
  | writeFile reqs => writeFileBuildReq reqs

/-- The C function accepts the arguments. -/
def InRange : Build → Prop
  | readBits type _ quantity =>
    type.isSome ∧ 1 ≤ quantity.toNat ∧ quantity.toNat ≤ embReadBitsMaxQuantity
  | writeCoils _ quantity _ => 1 ≤ quantity.toNat ∧ quantity.toNat ≤ embWriteCoilsMaxQuantity
  | readRegs subtype _ quantity => subtype.isSome ∧ 1 ≤ quantity.toNat ∧ quantity.toNat ≤ 125
  | writeRegs _ quantity _ => 1 ≤ quantity.toNat ∧ quantity.toNat ≤ 123
  | readWriteRegs _ rdQuantity _ wrQuantity wrData =>
    wrData.isSome ∧ (1 ≤ rdQuantity.toNat ∧ rdQuantity.toNat ≤ 0x007D)
      ∧ 1 ≤ wrQuantity.toNat ∧ wrQuantity.toNat ≤ 0x0079
  | readFile reqs => ∀ sub ∈ reqs, sub.recordNumber.toNat ≤ maxRecordNumber
  | writeFile reqs => reqs ≠ [] ∧ ∀ sub ∈ reqs, sub.recordNumber.toNat ≤ maxRecordNumber
  | writeCoil _ _ | writeReg _ _ | writeMaskReg _ _ _ => True

/-- The arguments are accepted, and the request and its answer fit in a PDU. -/
def InLimits (b : Build) : Prop :=
  b.InRange ∧ b.req.reqSize ≤ maxPduDataSize ∧ b.req.ansSize ≤ maxPduDataSize

end Build

/-- A call of `build_req`, at a moment when a vector can be given the sizes of `alloc`. -/
abbrev BuildCall : Type := (ℕ → Bool) × Build

/-- What the call returns is `none` if it throws. -/
def Transaction.build (tr : Transaction) (c : BuildCall) : Transaction × Option ℤ :=
  ((c.2.req.run c.1 tr).2, (c.2.req.run c.1 tr).1)

/-- Whatever is within the limits can be built, and has room for its answer, as long as there is
memory for the buffers that have to grow. -/
def Transaction.Reusable (tr : Transaction) : Prop :=
  ∀ (alloc : ℕ → Bool) (b : Build), b.req.Grows alloc tr → b.InLimits →
    (tr.build (alloc, b)).2 = some 0
      ∧ b.req.ansSize ≤ ((tr.build (alloc, b)).1.ans.pdu.maxSize.toNat : ℤ)

/-- What `max_size` holds of the size of a buffer is enough for all of the buffer that a PDU can
use.  That is so up to 255, and by chance again where the size ends in `0xFD`, `0xFE` or `0xFF`. -/
def SizeFits (size : ℕ) : Prop := min size maxPduDataSize ≤ size % 256

instance (size : ℕ) : Decidable (SizeFits size) := inferInstanceAs (Decidable (_ ≤ _))

/-- If the buffer grows, its new size fits. -/
def PduT.GrowsWell (alloc : ℕ → Bool) (p : PduT) (size : ℕ) : Prop :=
  p.bufferSize < size → alloc size → SizeFits size

/-- Each buffer that the call grows has a size that fits.  The second is not touched if the first
throws. -/
def Transaction.GrowsWell (tr : Transaction) (c : BuildCall) : Prop :=
  tr.req.GrowsWell c.1 (unsignedInt c.2.req.reqSize)
    ∧ (tr.req.Grows c.1 (unsignedInt c.2.req.reqSize) →
        tr.ans.GrowsWell c.1 (unsignedInt c.2.req.ansSize))

end Emodbus
