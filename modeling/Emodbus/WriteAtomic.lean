import Emodbus.FileSubs
import Emodbus.ServerBits
import Emodbus.ServerRegs

/-!
# Exceptions that have changed nothing

Most handlers that write make all their checks first.  Two look for room in the response only after
they have written, and the one for files checks a sub-request after it has written the one before.
-/

namespace Emodbus

open Octets

variable {σ : Type}

/-- The handlers that write. -/
inductive SrvWriter
  | writeCoil | writeCoils | writeReg | writeRegs | maskReg | readWriteRegs | writeFile
deriving DecidableEq

def SrvWriter.handler : SrvWriter → SrvHandler σ
  | writeCoil => embSrvWriteCoil
  | writeCoils => embSrvWriteCoils
  | writeReg => embSrvWriteReg
  | writeRegs => embSrvWriteRegs
  | maskReg => embSrvMaskReg
  | readWriteRegs => embSrvReadWriteRegs
  | writeFile => embSrvWriteFile

/-- The callbacks of the blocks and files that the handlers that write find return zero. -/
structure EmbServer.NeverFails (srv : EmbServer σ) : Prop where
  writeBits : ∀ {addr s block write}, lookUp srv.getCoils addr s = .ok block →
    block.writeBits = some write → ∀ offset n values s, (write offset n values s).1 = 0
  readRegs : ∀ {addr s block read}, lookUp srv.getHoldingRegs addr s = .ok block →
    block.readRegs = some read → ∀ offset n s, (read offset n s).1 = 0
  writeRegs : ∀ {addr s block write}, lookUp srv.getHoldingRegs addr s = .ok block →
    block.writeRegs = some write → ∀ offset n values s, (write offset n values s).1 = 0
  writeFile : ∀ {fileno s file write}, lookUp srv.getFile fileno s = .ok file →
    file.writeFile = some write → ∀ offset n values s, (write offset n values s).1 = 0

/-- What the handler makes of a register. -/
def masked (value andMask orMask : Word) : Word := (value &&& andMask) ||| (orMask &&& ~~~andMask)

/-- Where a sub-request fails a check, the ones before it have left the store `s₀`. -/
def Undisturbed (srv : EmbServer σ) (s₀ : σ) : List FileSub → σ → Prop
  | [], _ => True
  | sub :: subs, s =>
    match sub.check srv s with
    | .error _ => s = s₀
    | .ok (_, writeFile) =>
      Undisturbed srv s₀ subs (writeFile sub.startAddr sub.regCount sub.values s).2

/-- With no room for the response, writing the register would have changed nothing; a sub-request
that fails a check comes behind none that has changed something. -/
def SrvWriter.Harmless (srv : EmbServer σ) (r : SrvRun σ) : SrvWriter → Prop
  | writeReg =>
    r.txPdu.maxSize.toNat < writeRegisterAnsSize → ∀ block write,
      lookUp srv.getHoldingRegs (getBigEnd16 r.rxPdu.data 0) r.store = .ok block →
      block.writeRegs = some write →
      (write (getBigEnd16 r.rxPdu.data 0 - block.start) 1 [getBigEnd16 r.rxPdu.data 2] r.store).2
        = r.store
  | maskReg =>
    r.txPdu.maxSize.toNat < maskRegisterAnsSize → ∀ block read write,
      lookUp srv.getHoldingRegs (getBigEnd16 r.rxPdu.data 0) r.store = .ok block →
      block.readRegs = some read → block.writeRegs = some write →
      let offset := getBigEnd16 r.rxPdu.data 0 - block.start
      let value := masked ((read offset 1 r.store).2.1.headD 0) (getBigEnd16 r.rxPdu.data 2)
        (getBigEnd16 r.rxPdu.data 4)
      (write offset 1 [value] (read offset 1 r.store).2.2).2 = r.store
  | writeFile =>
    0x09 < (r.rxPdu.data 0).toNat → (r.rxPdu.data 0).toNat < 0xFB →
      r.rxPdu.dataSize.toNat ≤ r.txPdu.maxSize.toNat →
      Undisturbed srv r.store r.rxPdu.fileSubs r.store
  | _ => True

end Emodbus
