import Emodbus.ClientBits
import Emodbus.ClientFile

/-!
# Transactions of the C++ wrapper

`pdu_t`, `transaction_t` and the classes that build requests in `cpp-wrap/emodbus.cpp`.  A buffer
is a vector: `alloc` says which sizes a vector of bytes can be given, and `resize` throws where it
cannot.  The size of a buffer need not fit in `max_size`.
-/

namespace Emodbus

open Octets

/-- `pdu_t`, with the size of its buffer. -/
structure PduT where
  pdu : EmbPdu
  bufferSize : ℕ

/-- `pdu_t::pdu_t`; `function` is what it happens to be. -/
def PduT.empty (function : Byte) : PduT := ⟨⟨function, 0, 0, fun _ => 0⟩, 0⟩

/-- `pdu_t::resize`; `none` if it throws. -/
def PduT.resize (alloc : ℕ → Bool) (p : PduT) (size : ℕ) : Option PduT :=
  if p.bufferSize < size then
    if alloc size then
      some
        { pdu := { p.pdu with
            maxSize := BitVec.ofNat 8 size
            data := fun i => if i < p.bufferSize then p.pdu.data i else 0 }
          bufferSize := size }
    else none
  else some p

/-- The buffer can be resized. -/
def PduT.Grows (alloc : ℕ → Bool) (p : PduT) (size : ℕ) : Prop := p.bufferSize < size → alloc size

instance (alloc : ℕ → Bool) (p : PduT) (size : ℕ) : Decidable (p.Grows alloc size) :=
  inferInstanceAs (Decidable (_ → _))

/-- `max_size` once the buffer has been resized. -/
def PduT.room (p : PduT) (size : ℕ) : ℕ :=
  if p.bufferSize < size then size % 256 else p.pdu.maxSize.toNat

/-- `transaction_t`. -/
structure Transaction where
  req : PduT
  ans : PduT

/-- An `int` passed as an `unsigned int`. -/
def unsignedInt (n : ℤ) : ℕ := (BitVec.ofInt 32 n).toNat

/-- What a `build_req` is made of: the sizes of the buffers and the C function. -/
structure BuildReq where
  reqSize : ℤ
  ansSize : ℤ
  makeReq : EmbPdu → ℤ × EmbPdu

/-- A `build_req`: both buffers are resized, and the request is made.  What it returns is `none` if
it throws. -/
def BuildReq.run (alloc : ℕ → Bool) (b : BuildReq) (tr : Transaction) : Option ℤ × Transaction :=
  match tr.req.resize alloc (unsignedInt b.reqSize) with
  | none => (none, tr)
  | some req =>
    match tr.ans.resize alloc (unsignedInt b.ansSize) with
    | none => (none, { tr with req := req })
    | some ans =>
      (some (b.makeReq req.pdu).1, ⟨{ req with pdu := (b.makeReq req.pdu).2 }, ans⟩)

/-- Both buffers can be resized. -/
def BuildReq.Grows (alloc : ℕ → Bool) (b : BuildReq) (tr : Transaction) : Prop :=
  tr.req.Grows alloc (unsignedInt b.reqSize) ∧ tr.ans.Grows alloc (unsignedInt b.ansSize)

instance (alloc : ℕ → Bool) (b : BuildReq) (tr : Transaction) : Decidable (b.Grows alloc tr) :=
  inferInstanceAs (Decidable (_ ∧ _))

/-- The registers of a vector. -/
def vecData (values : List Word) : Mem Word := fun i => values.getD i 0

/-- The size of a vector as an `uint16_t`. -/
def vecSize (values : List Word) : Word := BitVec.ofNat 16 values.length

/-- `read_bits_t::build_req`. -/
def readBitsBuildReq (type : EmbRbType) (startingAddress quantity : Word) : BuildReq where
  reqSize := embReadBitsCalcReqDataSize
  ansSize := embReadBitsCalcAnswerDataSize quantity
  makeReq req := embReadBitsMakeReq req type startingAddress quantity

/-- `write_coil_t::build_req`. -/
def writeCoilBuildReq (address : Word) (value : Bool) : BuildReq where
  reqSize := writeCoilReqSize
  ansSize := embWriteCoilCalcAnswerDataSize
  makeReq req := embWriteCoilMakeReq req address (if value then 1 else 0)

/-- `read_regs_t::build_req`. -/
def readRegsBuildReq (subtype : EmbRrType) (startingAddress quantity : Word) : BuildReq where
  reqSize := embReadRegsCalcReqDataSize
  ansSize := embReadRegsCalcAnswerDataSize quantity
  makeReq req := embReadRegsMakeReq req subtype startingAddress quantity

/-- `write_reg_t::build_req`. -/
def writeRegBuildReq (address value : Word) : BuildReq where
  reqSize := embWriteRegCalcReqDataSize
  ansSize := embWriteRegCalcAnswerDataSize
  makeReq req := embWriteRegMakeReq req address value

/-- `write_regs_t::build_req`. -/
def writeRegsBuildReq (address quantity : Word) (data : Mem Word) : BuildReq where
  reqSize := embWriteRegsCalcReqDataSize quantity
  ansSize := embWriteRegsCalcAnswerDataSize
  makeReq req := embWriteRegsMakeReq req address quantity data

/-- `read_write_regs_t::build_req`.  Data that are NULL are refused, as a quantity of zero is. -/
def readWriteRegsBuildReq (rdAddress rdQuantity wrAddress wrQuantity : Word) (wrData : Mem Word) :
    BuildReq where
  reqSize := embRdwrRegsCalcReqDataSize wrQuantity
  ansSize := embRdwrRegsCalcAnswerDataSize rdQuantity
  makeReq req := embRdwrRegsMakeReq req rdAddress rdQuantity wrAddress wrQuantity wrData

/-- `write_mask_reg_t::build_req`. -/
def writeMaskRegBuildReq (address andMask orMask : Word) : BuildReq where
  reqSize := embWriteMaskRegCalcReqDataSize
  ansSize := embWriteMaskRegCalcAnswerDataSize
  makeReq req := embWriteMaskRegMakeReq req address andMask orMask

/-- `read_file_t::build_req`. -/
def readFileBuildReq (reqs : List EmbReadFileReq) : BuildReq where
  reqSize := embReadFileCalcReqDataSize reqs.length
  ansSize := embReadFileCalcAnswerDataSize reqs
  makeReq req := embReadFileMakeReq req reqs

/-- `write_file_t::subreq_t`. -/
structure WriteFileSubreq where
  fileNumber : Word
  recordNumber : Word
  regs : List Word

/-- The sub-request for the C function. -/
def WriteFileSubreq.req (sub : WriteFileSubreq) : EmbWriteFileReq :=
  ⟨sub.fileNumber, sub.recordNumber, vecSize sub.regs, vecData sub.regs⟩

/-- `write_file_t::build_req`.  An empty vector has no data, its pointer is NULL. -/
def writeFileBuildReq (reqs : List WriteFileSubreq) : BuildReq :=
  let subs := if reqs = [] then none else some (reqs.map WriteFileSubreq.req)
  { reqSize := embWriteFileCalcReqDataSize subs
    ansSize := embWriteFileCalcReqDataSize subs
    makeReq := fun req => embWriteFileMakeReq req subs }

/-- `read_fifo_t::build_req`, which throws what the others return. -/
def readFifoBuildReq (startingAddress : Word) : BuildReq where
  reqSize := embReadFifoCalcReqDataSize
  ansSize := embReadFifoCalcAnswerDataSize
  makeReq req := embReadFifoMakeReq req startingAddress

end Emodbus
