import Emodbus.ClientBits
import Emodbus.FileStore

/-!
# The request builders of the client

The eleven `emb_*_make_req`, with all that they can be given: an `enum` also holds values that are
none of its constants, and some of the pointers may be NULL (`none`).

`BuilderCall.spill` is what a builder that fails has written before it fails.
-/

namespace Emodbus

open Octets

/-- `emb_read_bits_make_req`; `type` is `none` for a value that is not in the `enum`. -/
def embReadBitsMakeReqOf (req : EmbPdu) (type : Option EmbRbType)
    (startingAddress quantity : Word) : ℤ × EmbPdu :=
  if (req.maxSize.toNat : ℤ) < embReadBitsCalcReqDataSize then (-enomem, req)
  else if 1 ≤ quantity.toNat ∧ quantity.toNat ≤ embReadBitsMaxQuantity then
    let req := { req with
      data := storeWord (storeWord req.data 0 (swapBytes startingAddress)) 2 (swapBytes quantity)
      dataSize := BitVec.ofInt 8 embReadBitsCalcReqDataSize }
    match type with
    | some .coils => (0, { req with function := 0x01 })
    | some .discreteInputs => (0, { req with function := 0x02 })
    | none => (-einval, req)
  else (-einval, req)

/-- `emb_read_regs_make_req`; `type` is `none` for a value that is not in the `enum`. -/
def embReadRegsMakeReqOf (req : EmbPdu) (type : Option EmbRrType)
    (startingAddress quantity : Word) : ℤ × EmbPdu :=
  if (req.maxSize.toNat : ℤ) < embReadRegsCalcReqDataSize then (-enomem, req)
  else if 1 ≤ quantity.toNat ∧ quantity.toNat ≤ 125 then
    let req := { req with
      data := storeWord (storeWord req.data 0 (swapBytes startingAddress)) 2 (swapBytes quantity)
      dataSize := 4 }
    match type with
    | some .holdings => (0, { req with function := 3 })
    | some .inputs => (0, { req with function := 4 })
    | none => (-einval, req)
  else (-einval, req)

/-- `emb_rdwr_regs_make_req`; `wrData` is `none` for NULL. -/
def embRdwrRegsMakeReqOf (req : EmbPdu) (rdAddress rdQuantity wrAddress wrQuantity : Word) :
    Option (Mem Word) → ℤ × EmbPdu
  | none => (-einval, req)
  | some wrData => embRdwrRegsMakeReq req rdAddress rdQuantity wrAddress wrQuantity wrData

theorem embReadBitsMakeReqOf_some (req : EmbPdu) (type : EmbRbType) (a n : Word) :
    embReadBitsMakeReqOf req (some type) a n = embReadBitsMakeReq req type a n := by
  unfold embReadBitsMakeReqOf embReadBitsMakeReq
  split_ifs <;> cases type <;> rfl

theorem embReadRegsMakeReqOf_some (req : EmbPdu) (type : EmbRrType) (a n : Word) :
    embReadRegsMakeReqOf req (some type) a n = embReadRegsMakeReq req type a n := by
  unfold embReadRegsMakeReqOf embReadRegsMakeReq
  split_ifs <;> cases type <;> rfl

/-- A call of a builder. -/
inductive BuilderCall
  | readBits (type : Option EmbRbType) (startingAddress quantity : Word)
  | writeCoil (address : Word) (value : Byte)
  | writeCoils (startingAddress quantity : Word) (pcoils : Mem Byte)
  | readRegs (type : Option EmbRrType) (startingAddress quantity : Word)
  | writeReg (address value : Word)
  | writeRegs (address quantity : Word) (data : Mem Word)
  | writeMaskReg (address andMask orMask : Word)
  | rdwrRegs (rdAddress rdQuantity wrAddress wrQuantity : Word) (wrData : Option (Mem Word))
  | readFile (subRequests : List EmbReadFileReq)
  | writeFile (subRequests : Option (List EmbWriteFileReq))
  | readFifo (startingAddress : Word)

/-- What is written into a PDU: its function, `data_size` and the bytes in front. -/
structure Spill where
  function : Byte
  dataSize : Byte
  bytes : List Byte

/-- The PDU with it. -/
def Spill.into (s : Spill) (req : EmbPdu) : EmbPdu :=
  { req with function := s.function, dataSize := s.dataSize, data := Mem.blit req.data 0 s.bytes }

namespace BuilderCall

def makeReq (req : EmbPdu) : BuilderCall → ℤ × EmbPdu
  | readBits type startingAddress quantity =>
    embReadBitsMakeReqOf req type startingAddress quantity
  | writeCoil address value => embWriteCoilMakeReq req address value
  | writeCoils startingAddress quantity pcoils =>
    embWriteCoilsMakeReq req startingAddress quantity pcoils
  | readRegs type startingAddress quantity =>
    embReadRegsMakeReqOf req type startingAddress quantity
  | writeReg address value => embWriteRegMakeReq req address value
  | writeRegs address quantity data => embWriteRegsMakeReq req address quantity data
  | writeMaskReg address andMask orMask => embWriteMaskRegMakeReq req address andMask orMask
  | rdwrRegs rdAddress rdQuantity wrAddress wrQuantity wrData =>
    embRdwrRegsMakeReqOf req rdAddress rdQuantity wrAddress wrQuantity wrData
  | readFile subRequests => embReadFileMakeReq req subRequests
  | writeFile subRequests => embWriteFileMakeReq req subRequests
  | readFifo startingAddress => embReadFifoMakeReq req startingAddress

/-- The function, `data_size` and the data are what they were if the builder fails. -/
def LeavesUntouched (call : BuilderCall) (req : EmbPdu) : Prop :=
  (call.makeReq req).1 ≠ 0 →
    (call.makeReq req).2.function = req.function ∧ (call.makeReq req).2.dataSize = req.dataSize
      ∧ (call.makeReq req).2.data = req.data

/-- What a call leaves behind that fails too late.  There is room for the request, and its quantity
is in range, but the type is none, or a record number is too large. -/
def spill (req : EmbPdu) : BuilderCall → Option Spill
  | readBits none startingAddress quantity =>
    if 4 ≤ req.maxSize.toNat ∧ 1 ≤ quantity.toNat ∧ quantity.toNat ≤ embReadBitsMaxQuantity then
      some ⟨req.function, 4, Mem.be [startingAddress, quantity]⟩
    else none
  | readRegs none startingAddress quantity =>
    if 4 ≤ req.maxSize.toNat ∧ 1 ≤ quantity.toNat ∧ quantity.toNat ≤ 125 then
      some ⟨req.function, 4, Mem.be [startingAddress, quantity]⟩
    else none
  | readFile subs =>
    let length := 7 * subs.length
    if 1 + length ≤ req.maxSize.toNat ∧ ∃ sub ∈ subs, maxRecordNumber < sub.recordNumber.toNat then
      some ⟨0x14, BitVec.ofNat 8 (1 + length), BitVec.ofNat 8 length
        :: (subs.takeWhile fun sub => sub.recordNumber.toNat ≤ maxRecordNumber).flatMap
          EmbReadFileReq.bytes⟩
    else none
  | writeFile (some subs) =>
    let length := (subs.flatMap EmbWriteFileReq.bytes).length
    if 1 + length ≤ req.maxSize.toNat ∧ ∃ sub ∈ subs, maxRecordNumber < sub.recordNumber.toNat then
      some ⟨0x15, BitVec.ofNat 8 (1 + length), BitVec.ofNat 8 length
        :: (subs.takeWhile fun sub => sub.recordNumber.toNat ≤ maxRecordNumber).flatMap
          EmbWriteFileReq.bytes⟩
    else none
  | _ => none

end BuilderCall

end Emodbus
