import Emodbus.ServerBits
import Emodbus.ServerFile
import Emodbus.ServerRegs

/-!
# The handlers and the bytes of a request

Each handler reads its request at fixed places and behind counts that the request itself gives.
`passes` are the checks a handler makes of the request before it looks for a block, and `span` is
how far into the data it then reads, whether or not the request is that long.
-/

namespace Emodbus

open Octets

variable {σ : Type}

inductive SrvHandlerKind
  | readBits | writeCoil | writeCoils
  | readRegs | writeReg | writeRegs | maskReg | readWriteRegs
  | readFile | writeFile | readFifo
deriving DecidableEq

/-- How far `emb_srv_read_file` reads in this many turns: it stops at a reference type other
than 6. -/
def readFileSpan (d : Mem Byte) : ℕ → ℕ → ℕ
  | 0, pos => pos
  | turns + 1, pos => if d pos = embFileRefType then readFileSpan d turns (pos + 7) else pos + 1

/-- How far `emb_srv_write_file` reads.  It asks for the file before it knows that the registers
end in front of `stop`. -/
def writeFileSpan (d : Mem Byte) (stop : ℕ) : ℕ → ℕ → ℕ
  | 0, pos => pos
  | fuel + 1, pos =>
    if pos < stop then
      if d pos = embFileRefType then
        let next := pos + 7 + (getBigEnd16 d (pos + 5)).toNat * 2
        if next > stop then pos + 3 else writeFileSpan d stop fuel next
      else pos + 1
    else pos

namespace SrvHandlerKind

def handler : SrvHandlerKind → SrvHandler σ
  | readBits => embSrvReadBits
  | writeCoil => embSrvWriteCoil
  | writeCoils => embSrvWriteCoils
  | readRegs => embSrvReadRegs
  | writeReg => embSrvWriteReg
  | writeRegs => embSrvWriteRegs
  | maskReg => embSrvMaskReg
  | readWriteRegs => embSrvReadWriteRegs
  | readFile => embSrvReadFile
  | writeFile => embSrvWriteFile
  | readFifo => embSrvReadFifo

/-- The checks of the request's own bytes. -/
def passes (function dataSize : Byte) (d : Mem Byte) : SrvHandlerKind → Prop
  | readBits => 1 ≤ (getBigEnd16 d 2).toNat ∧ (getBigEnd16 d 2).toNat ≤ 0x07D0
  | writeCoil => getBigEnd16 d 2 = 0x0000 ∨ getBigEnd16 d 2 = 0xFF00
  | writeCoils =>
    (1 ≤ (getBigEnd16 d 2).toNat ∧ (getBigEnd16 d 2).toNat ≤ 0x07B0)
      ∧ (dataSize.toNat : ℤ) - 5 = (d 4).toNat
  | readRegs =>
    (function = 0x03 ∨ function = 0x04)
      ∧ 1 ≤ (getBigEnd16 d 2).toNat ∧ (getBigEnd16 d 2).toNat ≤ 0x007D
  | writeReg => True
  | writeRegs =>
    (1 ≤ (getBigEnd16 d 2).toNat ∧ (getBigEnd16 d 2).toNat ≤ 0x007B)
      ∧ (d 4).toNat = (getBigEnd16 d 2).toNat * 2
  | maskReg => True
  | readWriteRegs =>
    (1 ≤ (getBigEnd16 d 2).toNat ∧ (getBigEnd16 d 2).toNat ≤ embSrvRdwrRegsMaxReadRegs)
      ∧ (1 ≤ (getBigEnd16 d 6).toNat ∧ (getBigEnd16 d 6).toNat ≤ embSrvRdwrRegsMaxWriteRegs)
      ∧ (d 8).toNat = (getBigEnd16 d 6).toNat * 2
  | readFile => 7 ≤ (d 0).toNat ∧ (d 0).toNat ≤ 7 * 35
  | writeFile => 0x09 < (d 0).toNat ∧ (d 0).toNat < 0xFB
  | readFifo => True

/-- How far into the data of a request that passes its checks the handler reads. -/
def span (function dataSize : Byte) (d : Mem Byte) : SrvHandlerKind → ℕ
  | readBits => if function = 0x01 ∨ function = 0x02 then 4 else 0
  | writeCoil => 4
  | writeCoils => 5 + bitsBytes (getBigEnd16 d 2)
  | readRegs => 4
  | writeReg => 4
  | writeRegs => 5 + 2 * (getBigEnd16 d 2).toNat
  | maskReg => 6
  | readWriteRegs => 9 + 2 * (getBigEnd16 d 6).toNat
  | readFile => readFileSpan d (((d 0).toNat + 6) / 7) 1
  | writeFile => writeFileSpan d dataSize.toNat dataSize.toNat 1
  | readFifo => 2

/-- The handler's reactions to two requests are the same to whoever sees its code, its answer, the
store and the calls of the store's callbacks. -/
def Alike (k : SrvHandlerKind) (function dataSize : Byte) (d d' : Mem Byte) : Prop :=
  ∀ (σ : Type) (srv : EmbServer σ) (maxSize : Byte) (tx : EmbPdu) (s : σ) (calls : List StoreCall),
    let r := k.handler srv ⟨⟨function, dataSize, maxSize, d⟩, tx, s, calls⟩
    let r' := k.handler srv ⟨⟨function, dataSize, maxSize, d'⟩, tx, s, calls⟩
    r.1 = r'.1 ∧ r.2.txPdu.Same r'.2.txPdu ∧ r.2.store = r'.2.store ∧ r.2.calls = r'.2.calls

/-- No bytes behind `data_size` decide whether the request passes, and if it does, all the handler
reads is in front of `data_size`. -/
def Enclosed (k : SrvHandlerKind) (function dataSize : Byte) (d : Mem Byte) : Prop :=
  ∀ d₁ d₂, Mem.Agree dataSize.toNat d d₁ → Mem.Agree dataSize.toNat d d₂ →
    k.passes function dataSize d₁ →
      k.passes function dataSize d₂ ∧ k.span function dataSize d₁ ≤ dataSize.toNat

end SrvHandlerKind

end Emodbus
