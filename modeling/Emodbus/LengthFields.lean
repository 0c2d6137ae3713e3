import Emodbus.FileSubs
import Emodbus.ServerBits
import Emodbus.ServerRegs

/-!
# The length fields of the requests to write

A request to write says three times how long it is: the number of elements, the number of bytes,
and the size of the PDU.  Each handler compares some of them.  What it compares, and that the store
takes the values, is all there is to a request that is answered.
-/

namespace Emodbus

open Octets

variable {σ : Type}

/-! ## What should agree -/

/-- Of a request to write coils. -/
structure CoilLengths (req : EmbPdu) : Prop where
  bytes : (req.data 4).toNat = bitsBytes (getBigEnd16 req.data 2)
  dataSize : req.dataSize.toNat = 5 + (req.data 4).toNat

/-- Of a request to write registers. -/
structure RegLengths (req : EmbPdu) : Prop where
  bytes : (req.data 4).toNat = 2 * (getBigEnd16 req.data 2).toNat
  dataSize : req.dataSize.toNat = 5 + (req.data 4).toNat

/-- Of a request to read and write registers. -/
structure ReadWriteLengths (req : EmbPdu) : Prop where
  bytes : (req.data 8).toNat = 2 * (getBigEnd16 req.data 6).toNat
  dataSize : req.dataSize.toNat = 9 + (req.data 8).toNat

/-- How many bytes a sub-request of a request to write files takes. -/
def FileSub.size (sub : FileSub) : ℕ := 7 + 2 * sub.values.length

/-- Of a request to write files. -/
structure FileLengths (req : EmbPdu) : Prop where
  dataSize : req.dataSize.toNat = 1 + (req.data 0).toNat
  filled : (req.fileSubs.map FileSub.size).sum = (req.data 0).toNat

/-! ## What is compared -/

/-- `emb_srv_write_coils` does not compare the number of coils with the number of bytes. -/
structure CoilChecks (req : EmbPdu) : Prop where
  quantity : 1 ≤ (getBigEnd16 req.data 2).toNat ∧ (getBigEnd16 req.data 2).toNat ≤ 0x07B0
  dataSize : req.dataSize.toNat = 5 + (req.data 4).toNat

/-- `emb_srv_write_regs` does not look at the size of the PDU. -/
structure RegChecks (req : EmbPdu) : Prop where
  quantity : 1 ≤ (getBigEnd16 req.data 2).toNat ∧ (getBigEnd16 req.data 2).toNat ≤ 0x007B
  bytes : (req.data 4).toNat = 2 * (getBigEnd16 req.data 2).toNat

/-- Nor does `emb_srv_read_write_regs`. -/
structure ReadWriteChecks (req : EmbPdu) : Prop where
  rdQuantity : 1 ≤ (getBigEnd16 req.data 2).toNat
    ∧ (getBigEnd16 req.data 2).toNat ≤ embSrvRdwrRegsMaxReadRegs
  wrQuantity : 1 ≤ (getBigEnd16 req.data 6).toNat
    ∧ (getBigEnd16 req.data 6).toNat ≤ embSrvRdwrRegsMaxWriteRegs
  bytes : (req.data 8).toNat = 2 * (getBigEnd16 req.data 6).toNat

/-- `emb_srv_write_file` does not compare the number of bytes with anything else. -/
structure FileChecks (req : EmbPdu) : Prop where
  byteCount : 0x09 < (req.data 0).toNat ∧ (req.data 0).toNat < 0xFB
  dataSize : req.dataSize.toNat ≤ 253

/-! ## What the store takes -/

/-- There are coils to write the bits to, and writing them succeeds. -/
def TakesCoils (srv : EmbServer σ) (req : EmbPdu) (s : σ) : Prop :=
  let addr := getBigEnd16 req.data 0
  let quantity := getBigEnd16 req.data 2
  ∃ block writeBits, lookUp srv.getCoils addr s = .ok block
    ∧ addr.toNat + quantity.toNat ≤ block.start.toNat + block.size.toNat
    ∧ block.writeBits = some writeBits
    ∧ (writeBits (addr - block.start) quantity
        (Mem.slice req.data 5 (bitsBytes quantity)) s).1 = 0

/-- There are registers to write the values to, which are at this place of the request, and writing
them succeeds and leaves this store. -/
def TakesRegs (srv : EmbServer σ) (req : EmbPdu) (addr quantity : Word) (pos : ℕ) (s s' : σ) :
    Prop :=
  ∃ block writeRegs, lookUp srv.getHoldingRegs addr s = .ok block
    ∧ addr.toNat + quantity.toNat ≤ block.start.toNat + block.size.toNat
    ∧ block.writeRegs = some writeRegs
    ∧ writeRegs (addr - block.start) quantity (Mem.beWords req.data pos quantity.toNat) s = (0, s')

/-- There are registers to be read, and once the store is `s'` reading them succeeds. -/
def GivesRegs (srv : EmbServer σ) (addr quantity : Word) (s s' : σ) : Prop :=
  ∃ block readRegs, lookUp srv.getHoldingRegs addr s = .ok block
    ∧ addr.toNat + quantity.toNat ≤ block.start.toNat + block.size.toNat
    ∧ block.readRegs = some readRegs
    ∧ (readRegs (addr - block.start) quantity s').1 = 0

/-- Each sub-request is for a file, ends in front of the end of the request, and is written. -/
def TakesSubs (srv : EmbServer σ) : List FileSub → σ → Prop
  | [], _ => True
  | sub :: subs, s => ∃ file writeFile s', sub.check srv s = .ok (file, writeFile)
    ∧ writeFile sub.startAddr sub.regCount sub.values s = (0, s') ∧ TakesSubs srv subs s'

end Emodbus
