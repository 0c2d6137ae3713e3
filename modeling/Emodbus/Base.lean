import Emodbus.Lib.WordMem

/-!
# PDUs, byte order and error numbers

`base/modbus_pdu.h`, `base/byte-word.h`, `base/modbus_errno.h` and `base/calc_pdu_size.h`.  The
host is little-endian: a `uint16_t` at an address has its low byte first, so storing
`SWAP_BYTES(x)` through a `uint16_t*` puts the high byte of `x` first.
-/

namespace Emodbus

open Octets

/-- `struct _emb_pdu_t`; `data` is the memory its pointer points to. -/
structure EmbPdu where
  function : Byte
  dataSize : Byte
  maxSize : Byte
  data : Mem Byte

/-- `MAX_PDU_DATA_SIZE`. -/
def maxPduDataSize : ℕ := 256 - (1 + 2)

namespace EmbPdu

/-- The bytes of the PDU that belong to it. -/
def bytes (p : EmbPdu) : List Byte := Mem.slice p.data 0 p.dataSize.toNat

@[simp] theorem length_bytes (p : EmbPdu) : p.bytes.length = p.dataSize.toNat := by simp [bytes]

/-- Two PDUs that no reader within `data_size` tells apart. -/
structure Same (p q : EmbPdu) : Prop where
  function : p.function = q.function
  dataSize : p.dataSize = q.dataSize
  bytes : p.bytes = q.bytes

/-- `src` received into the buffer of `dst`. -/
def receive (dst src : EmbPdu) : EmbPdu :=
  { dst with
    function := src.function
    dataSize := src.dataSize
    data := Mem.copy dst.data src.data src.dataSize.toNat }

/-- The function and the bytes of a PDU, with `data_size` their number. -/
structure Carries (p : EmbPdu) (function : Byte) (bytes : List Byte) : Prop where
  function : p.function = function
  bytes : p.bytes = bytes

theorem receive_same (dst src : EmbPdu) : (receive dst src).Same src where
  function := rfl
  dataSize := rfl
  bytes := Mem.slice_copy _ _ le_rfl

end EmbPdu

/-! ## byte-word.h -/

/-- `GET_BIG_END16`. -/
def getBigEnd16 (p : Mem Byte) (off : ℕ) : Word :=
  ((p off).setWidth 16 <<< 8) ||| (p (off + 1)).setWidth 16

/-- `MKWORD`. -/
def mkWord (lbyte hbyte : Byte) : Word := lbyte.setWidth 16 ||| (hbyte.setWidth 16 <<< 8)

/-- `SWAP_BYTES`, cut to the sixteen bits every use of it keeps. -/
def swapBytes (x : Word) : Word := (x >>> 8) ||| (x <<< 8)

/-- `LIT_END_MK16`. -/
def litEndMk16 (p : Mem Byte) (off : ℕ) (w : Word) : Mem Byte :=
  Mem.blit p off [w.setWidth 8, (w >>> 8).setWidth 8]

/-- `BIG_END_MK16`. -/
def bigEndMk16 (p : Mem Byte) (off : ℕ) (w : Word) : Mem Byte :=
  Mem.blit p off [(w >>> 8).setWidth 8, w.setWidth 8]

/-- `((uint16_t*)p)[..] = w` at byte offset `off`. -/
def storeWord (p : Mem Byte) (off : ℕ) (w : Word) : Mem Byte := Mem.blit p off [w.lo, w.hi]

theorem getBigEnd16_eq (p : Mem Byte) (off : ℕ) : getBigEnd16 p off = Mem.beWord p off :=
  Word.shiftLeft_or_setWidth _ _

theorem mkWord_eq (l h : Byte) : mkWord l h = Word.ofBytes h l := by
  rw [mkWord, BitVec.or_comm, Word.shiftLeft_or_setWidth]

theorem swapBytes_eq (x : Word) : swapBytes x = x.swap := Word.ushiftRight_or_shiftLeft x

theorem litEndMk16_eq (p : Mem Byte) (off : ℕ) (w : Word) :
    litEndMk16 p off w = Mem.blit p off (Mem.le [w]) := by
  rw [litEndMk16, Word.setWidth_ushiftRight]
  rfl

theorem bigEndMk16_eq (p : Mem Byte) (off : ℕ) (w : Word) :
    bigEndMk16 p off w = Mem.blit p off (Mem.be [w]) := by
  rw [bigEndMk16, Word.setWidth_ushiftRight]
  rfl

theorem storeWord_swapBytes (p : Mem Byte) (off : ℕ) (w : Word) :
    storeWord p off (swapBytes w) = Mem.blit p off (Mem.be [w]) := by
  rw [storeWord, swapBytes_eq, Word.lo_swap, Word.hi_swap]
  rfl

theorem leWord_storeWord (p : Mem Byte) (off : ℕ) (w : Word) :
    Mem.leWord (storeWord p off w) off = w := by
  have h0 : storeWord p off w off = w.lo := Mem.blit_add p (i := 0) (by simp)
  have h1 : storeWord p off w (off + 1) = w.hi := Mem.blit_add p (i := 1) (by simp)
  rw [Mem.leWord, h0, h1, Word.ofBytes_hi_lo]

/-! ## What lies in a PDU -/

section Carries

variable {p q : EmbPdu} {function : Byte} {bytes pre post : List Byte}

theorem EmbPdu.Carries.receive (h : q.Carries function bytes) (dst : EmbPdu) :
    (dst.receive q).Carries function bytes where
  function := h.function
  bytes := (EmbPdu.receive_same dst q).bytes.trans h.bytes

theorem EmbPdu.Carries.dataSize (h : p.Carries function bytes) :
    p.dataSize.toNat = bytes.length := by
  rw [← h.bytes, EmbPdu.length_bytes]

theorem EmbPdu.Carries.words {ws : List Word} (h : p.Carries function (pre ++ Mem.be ws ++ post)) :
    Mem.beWords p.data pre.length ws.length = ws :=
  Mem.beWords_of_slice h.bytes

theorem EmbPdu.Carries.word (pre post : List Byte) {w : Word}
    (h : p.Carries function (pre ++ Mem.be [w] ++ post)) :
    getBigEnd16 p.data pre.length = w := by
  have hw : Mem.beWords p.data pre.length 1 = [w] := h.words
  rw [getBigEnd16_eq]
  exact List.head_eq_of_cons_eq hw

theorem EmbPdu.Carries.byte (pre post : List Byte) {x : Byte}
    (h : p.Carries function (pre ++ [x] ++ post)) :
    p.data pre.length = x := by
  have hx := Mem.slice_of_append h.bytes
  rw [Nat.zero_add] at hx
  exact List.head_eq_of_cons_eq hx

end Carries

/-! ## modbus_errno.h -/

def einval : ℤ := 22
def enomem : ℤ := 12
def ebusy : ℤ := 16

theorem neg_einval_ne : -einval ≠ 0 := by decide
theorem neg_enomem_ne : -enomem ≠ 0 := by decide

def mbeIllegalFunction : Byte := 0x01
def mbeIllegalDataAddr : Byte := 0x02
def mbeIllegalDataValue : Byte := 0x03
def mbeSlaveFailure : Byte := 0x04

def modbusBadCrc : ℤ := 1000
def modbusBufferOverflow : ℤ := 1001
def modbusRespWrongAddress : ℤ := 1004
def modbusRespWrongFunc : ℤ := 1005
def modbusRespTimeout : ℤ := 1006
def modbusRespBufferOvf : ℤ := 1007
def modbusRespWrongTransactionId : ℤ := 1008
def embExceptionBase : ℤ := 1500

/-- `emb_check_pdu_for_exception`. -/
def embCheckPduForException (pdu : EmbPdu) : ℤ :=
  if pdu.function &&& 0x80 ≠ 0 then -((pdu.data 0).toNat + embExceptionBase) else 0

/-! ## calc_pdu_size.h -/

def readCoilsReqSize : ℕ := 4
def readCoilsAnsSize (bytesCount : ℕ) : ℕ := 1 + bytesCount
def writeCoilReqSize : ℕ := 4
def writeCoilAnsSize : ℕ := 4
def writeCoilsReqSize (bytesCount : ℕ) : ℕ := 5 + bytesCount
def writeCoilsAnsSize : ℕ := 4
def readHoldingsReqSize : ℕ := 4
def readHoldingsAnsSize (quantity : ℕ) : ℕ := 1 + quantity * 2
def maskRegisterReqSize : ℕ := 6
def maskRegisterAnsSize : ℕ := 6
def writeRegistersReqSize (quantity : ℕ) : ℕ := 5 + quantity * 2
def writeRegistersAnsSize : ℕ := 4
def writeRegisterReqSize : ℕ := 4
def writeRegisterAnsSize : ℕ := 4
def readWriteRegsReqSize (wrCount : ℕ) : ℕ := 9 + wrCount * 2
def readWriteRegsAnsSize (rdCount : ℕ) : ℕ := 1 + rdCount * 2
def readFifoAnsSize (count : ℕ) : ℕ := 2 + 2 + 2 * count

end Emodbus
