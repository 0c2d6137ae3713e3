import Emodbus.ServerT

/-!
# The client's requests for coils and discrete inputs

`client/read_bits.c`, `client/write_coil.c`, `client/write_coils.c`, and the packing of
`write_coils_t::build_req` in `cpp-wrap/emodbus.cpp`.
-/

namespace Emodbus

open Octets

/-- `(_quantity / 8) + ((_quantity & 7) ? 1 : 0)` in an `uint8_t`. -/
def bytesCount (quantity : Word) : Byte :=
  (quantity / 8).setWidth 8 + if quantity &&& 7 ≠ 0 then 1 else 0

/-! ## read_bits.c -/

/-- `enum EMB_RB_TYPE`. -/
inductive EmbRbType
  | coils | discreteInputs
deriving DecidableEq

def embReadBitsMaxQuantity : ℕ := 0x07D0

def embReadBitsCalcReqDataSize : ℤ := readCoilsReqSize

def embReadBitsCalcAnswerDataSize (quantity : Word) : ℤ :=
  if 1 ≤ quantity.toNat ∧ quantity.toNat ≤ embReadBitsMaxQuantity then
    readCoilsAnsSize (bytesCount quantity).toNat
  else -einval

/-- `emb_read_bits_make_req`. -/
def embReadBitsMakeReq (req : EmbPdu) (type : EmbRbType) (startingAddress quantity : Word) :
    ℤ × EmbPdu :=
  if (req.maxSize.toNat : ℤ) < embReadBitsCalcReqDataSize then (-enomem, req)
  else if 1 ≤ quantity.toNat ∧ quantity.toNat ≤ embReadBitsMaxQuantity then
    (0, { req with
      data := storeWord (storeWord req.data 0 (swapBytes startingAddress)) 2 (swapBytes quantity)
      dataSize := BitVec.ofInt 8 embReadBitsCalcReqDataSize
      function := match type with
        | .coils => 0x01
        | .discreteInputs => 0x02 })
  else (-einval, req)

/-- `emb_read_bits_get_bit`. -/
def embReadBitsGetBit (answer : EmbPdu) (coilOffset : ℕ) : Byte :=
  (answer.data (coilOffset / 8 + 1) >>> (coilOffset &&& 7)) &&& 1

/-! ## write_coil.c -/

def embWriteCoilCalcAnswerDataSize : ℤ := writeCoilAnsSize

/-- `emb_write_coil_make_req`. -/
def embWriteCoilMakeReq (req : EmbPdu) (address : Word) (value : Byte) : ℤ × EmbPdu :=
  if req.maxSize.toNat < writeCoilReqSize then (-enomem, req)
  else
    let valueCode : Word := if value ≠ 0 then 0xFF00 else 0x0000
    (0, { req with
      data := storeWord (storeWord req.data 0 (swapBytes address)) 2 (swapBytes valueCode)
      dataSize := BitVec.ofNat 8 writeCoilReqSize
      function := 0x05 })

/-! ## write_coils.c -/

def embWriteCoilsMaxQuantity : ℕ := 0x07B0

def embWriteCoilsCalcReqDataSize (quantity : Word) : ℤ :=
  if 1 ≤ quantity.toNat ∧ quantity.toNat ≤ embWriteCoilsMaxQuantity then
    writeCoilsReqSize (bytesCount quantity).toNat
  else -einval

def embWriteCoilsCalcAnswerDataSize : ℤ := writeCoilsAnsSize

/-- `emb_write_coils_make_req`. -/
def embWriteCoilsMakeReq (req : EmbPdu) (startingAddress quantity : Word) (pcoils : Mem Byte) :
    ℤ × EmbPdu :=
  let byteCount : Byte := BitVec.ofInt 8 (embWriteCoilsCalcReqDataSize quantity)
  let coilsByteCount := byteCount - 5
  if req.maxSize.toNat < byteCount.toNat then (-enomem, req)
  else if 1 ≤ quantity.toNat ∧ quantity.toNat ≤ embWriteCoilsMaxQuantity then
    let p := storeWord (storeWord req.data 0 (swapBytes startingAddress)) 2 (swapBytes quantity)
    let p := Mem.blit p 4 [coilsByteCount]
    (0, { req with
      data := Mem.blit p 5 (Mem.slice pcoils 0 coilsByteCount.toNat)
      dataSize := byteCount
      function := 0x0F })
  else (-einval, req)

/-! ## write_coils_t -/

/-- `pdu_t::resize`, of a buffer whose size is in `max_size`. -/
def EmbPdu.resize (p : EmbPdu) (size : ℕ) : EmbPdu :=
  if p.maxSize.toNat < size then
    { p with
      maxSize := BitVec.ofNat 8 size
      data := fun i => if i < p.maxSize.toNat then p.data i else 0 }
  else p

/-- `write_coils_t::build_req`.  An error from the size becomes an `unsigned int` that no vector can
be resized to: `resize` throws. -/
def writeCoilsBuildReq (req : EmbPdu) (startingAddress quantity : Word) (pcoils : Mem Bool) :
    Option (ℤ × EmbPdu) :=
  let coils := packLoop pcoils quantity.toNat 0 quantity.toNat
  let size := embWriteCoilsCalcReqDataSize quantity
  if size < 0 then none
  else
    some (embWriteCoilsMakeReq (req.resize size.toNat) startingAddress quantity
      fun i => coils.getD i 0)

end Emodbus
