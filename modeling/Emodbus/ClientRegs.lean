import Emodbus.Base

/-!
# The client's requests for registers

`client/read_regs.c`, `client/write_single_reg.c`, `client/write_multi_regs.c`,
`client/write_mask_reg.c` and `client/read_write_regs.c`.  Data of the caller are what lies at his
pointer.
-/

namespace Emodbus

open Octets

/-- `((uint16_t*)p)[..]` at byte offset `off`. -/
def loadWord (p : Mem Byte) (off : ℕ) : Word := mkWord (p off) (p (off + 1))

/-- `data_addr[i] = SWAP_BYTES(data[i])` for `i < n`. -/
def storeSwapped (p : Mem Byte) (off : ℕ) (data : Mem Word) : ℕ → Mem Byte
  | 0 => p
  | n + 1 => storeWord (storeSwapped p off data n) (off + 2 * n) (swapBytes (data n))

/-- The swapped word at byte offset `off`, as the getters read it. -/
def getSwapped (pdu : EmbPdu) (off : ℕ) : Word := swapBytes (loadWord pdu.data off)

/-! ## read_regs.c -/

/-- `enum EMB_RR_TYPE`. -/
inductive EmbRrType
  | holdings | inputs
deriving DecidableEq

def embReadRegsCalcReqDataSize : ℤ := readHoldingsReqSize

def embReadRegsCalcAnswerDataSize (quantity : Word) : ℤ :=
  if 1 ≤ quantity.toNat ∧ quantity.toNat ≤ 125 then readHoldingsAnsSize quantity.toNat
  else -einval

/-- `emb_read_regs_make_req`. -/
def embReadRegsMakeReq (req : EmbPdu) (type : EmbRrType) (startingAddress quantity : Word) :
    ℤ × EmbPdu :=
  if (req.maxSize.toNat : ℤ) < embReadRegsCalcReqDataSize then (-enomem, req)
  else if 1 ≤ quantity.toNat ∧ quantity.toNat ≤ 125 then
    (0, { req with
      data := storeWord (storeWord req.data 0 (swapBytes startingAddress)) 2 (swapBytes quantity)
      dataSize := 4
      function := match type with
        | .holdings => 3
        | .inputs => 4 })
  else (-einval, req)

def embReadRegsGetReg (answer : EmbPdu) (regOffset : ℕ) : Word :=
  getSwapped answer (1 + 2 * regOffset)

def embReadRegsGetRegsN (answer : EmbPdu) : ℤ := (answer.data 0 >>> 1).toNat

/-! ## write_single_reg.c -/

def embWriteRegCalcReqDataSize : ℤ := writeRegisterReqSize

def embWriteRegCalcAnswerDataSize : ℤ := writeRegisterAnsSize

/-- `emb_write_reg_make_req`. -/
def embWriteRegMakeReq (req : EmbPdu) (address value : Word) : ℤ × EmbPdu :=
  if (req.maxSize.toNat : ℤ) < embWriteRegCalcReqDataSize then (-enomem, req)
  else
    (0, { req with
      dataSize := BitVec.ofNat 8 writeRegisterReqSize
      function := 0x06
      data := storeWord (storeWord req.data 0 (swapBytes address)) 2 (swapBytes value) })

def embWriteRegGetAddress (pdu : EmbPdu) : Word := getSwapped pdu 0

def embWriteRegGetValue (pdu : EmbPdu) : Word := getSwapped pdu 2

/-! ## write_multi_regs.c -/

def embWriteRegsCalcReqDataSize (quantity : Word) : ℤ := writeRegistersReqSize quantity.toNat

def embWriteRegsCalcAnswerDataSize : ℤ := writeRegistersAnsSize

/-- `emb_write_regs_make_req`. -/
def embWriteRegsMakeReq (req : EmbPdu) (address quantity : Word) (data : Mem Word) : ℤ × EmbPdu :=
  if (req.maxSize.toNat : ℤ) < embWriteRegsCalcReqDataSize quantity then (-enomem, req)
  else if 1 ≤ quantity.toNat ∧ quantity.toNat ≤ 123 then
    let p := storeWord (storeWord req.data 0 (swapBytes address)) 2 (swapBytes quantity)
    let p := Mem.blit p 4 [BitVec.ofNat 8 (quantity.toNat * 2)]
    (0, { req with
      function := 0x10
      dataSize := BitVec.ofNat 8 (writeRegistersReqSize quantity.toNat)
      data := storeSwapped p 5 data quantity.toNat })
  else (-einval, req)

def embWriteRegsGetAnswerAddress (answer : EmbPdu) : Word := getSwapped answer 0

def embWriteRegsGetAnswerQuantity (answer : EmbPdu) : Word := getSwapped answer 2

/-! ## write_mask_reg.c -/

def embWriteMaskRegCalcReqDataSize : ℤ := maskRegisterReqSize

def embWriteMaskRegCalcAnswerDataSize : ℤ := maskRegisterAnsSize

/-- `emb_write_mask_reg_make_req`. -/
def embWriteMaskRegMakeReq (req : EmbPdu) (address andMask orMask : Word) : ℤ × EmbPdu :=
  if (req.maxSize.toNat : ℤ) < embWriteMaskRegCalcReqDataSize then (-enomem, req)
  else
    let p := storeWord (storeWord req.data 0 (swapBytes address)) 2 (swapBytes andMask)
    (0, { req with
      dataSize := BitVec.ofNat 8 maskRegisterReqSize
      function := 0x16
      data := storeWord p 4 (swapBytes orMask) })

def embWriteMaskRegGetAddress (pdu : EmbPdu) : Word := getSwapped pdu 0

def embWriteMaskRegGetAndMask (pdu : EmbPdu) : Word := getSwapped pdu 2

def embWriteMaskRegGetOrMask (pdu : EmbPdu) : Word := getSwapped pdu 4

/-! ## read_write_regs.c -/

def embRdwrRegsCalcReqDataSize (wrQuantity : Word) : ℤ := readWriteRegsReqSize wrQuantity.toNat

def embRdwrRegsCalcAnswerDataSize (rdQuantity : Word) : ℤ := readWriteRegsAnsSize rdQuantity.toNat

/-- `emb_rdwr_regs_make_req`, with pointers that are not NULL. -/
def embRdwrRegsMakeReq (req : EmbPdu) (rdAddress rdQuantity wrAddress wrQuantity : Word)
    (wrData : Mem Word) : ℤ × EmbPdu :=
  if (req.maxSize.toNat : ℤ) < embRdwrRegsCalcReqDataSize wrQuantity then (-enomem, req)
  else if ¬ (1 ≤ rdQuantity.toNat ∧ rdQuantity.toNat ≤ 0x007D) then (-einval, req)
  else if ¬ (1 ≤ wrQuantity.toNat ∧ wrQuantity.toNat ≤ 0x0079) then (-einval, req)
  else
    let p := storeWord (storeWord req.data 0 (swapBytes rdAddress)) 2 (swapBytes rdQuantity)
    let p := storeWord (storeWord p 4 (swapBytes wrAddress)) 6 (swapBytes wrQuantity)
    let p := Mem.blit p 8 [BitVec.ofNat 8 (wrQuantity.toNat * 2)]
    (0, { req with
      function := 0x17
      dataSize := BitVec.ofInt 8 (embRdwrRegsCalcReqDataSize wrQuantity)
      data := storeSwapped p 9 wrData wrQuantity.toNat })

def embRdwrRegsGetAnswReg (answer : EmbPdu) (offset : ℕ) : Word :=
  getSwapped answer (1 + 2 * offset)

def embRdwrRegsGetAnswRegsN (answer : EmbPdu) : ℤ := (answer.data 0 >>> 1).toNat

end Emodbus
