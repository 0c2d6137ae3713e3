import Emodbus.ClientFile
import Emodbus.Lib.Blocks

/-!
# Files of registers

A store of files, each an array of registers, and the server whose callbacks copy from and to it.
-/

namespace Emodbus

open Octets

/-- The registers of each file there is. -/
abbrev FileStore := Word → Option (List Word)

namespace FileStore

/-- The registers put into the file from `offset` on. -/
def write (s : FileStore) (fileno : Word) (offset : ℕ) (values : List Word) : FileStore :=
  fun f => if f = fileno then (s f).map fun regs => overwrite regs offset values else s f

/-- The register of a file, zero where there is none. -/
def reg (s : FileStore) (fileno : Word) (offset : ℕ) : Word :=
  ((s fileno).getD []).getD offset 0

/-- The file with its callbacks, as `my_file_t` has them. -/
def file (fileno : Word) : EmbSrvFile FileStore where
  fileno := fileno
  readFile := some fun offset quantity s =>
    (0, (((s fileno).getD []).drop offset.toNat).take quantity.toNat, s)
  writeFile := some fun offset quantity values s =>
    (0, s.write fileno offset.toNat (values.take quantity.toNat))

/-- A server of files. -/
def server : EmbServer FileStore where
  getCoils := none
  getDiscreteInputs := none
  getHoldingRegs := none
  getInputRegs := none
  getFile := some fun fileno s => (s fileno).map fun _ => file fileno
  readFifo := none

end FileStore

namespace EmbWriteFileReq

/-- The registers of a sub-request. -/
def values (sub : EmbWriteFileReq) : List Word := Mem.slice sub.data 0 sub.recordLength.toNat

/-- The call that writes it. -/
def call (sub : EmbWriteFileReq) : StoreCall :=
  .writeFile sub.fileNumber sub.recordNumber sub.recordLength sub.values

/-- The files with it written. -/
def writeTo (s : FileStore) (sub : EmbWriteFileReq) : FileStore :=
  s.write sub.fileNumber sub.recordNumber.toNat sub.values

end EmbWriteFileReq

/-- The registers that are asked for are those of a file. -/
def EmbReadFileReq.Within (sub : EmbReadFileReq) (s : FileStore) : Prop :=
  ∃ regs, s sub.fileNumber = some regs
    ∧ sub.recordNumber.toNat + sub.recordLength.toNat ≤ regs.length

/-- The sub-answer holds the registers of the file that were asked for. -/
structure SubAnswers (s : FileStore) (answer : EmbPdu) (subanswer : ℕ) (sub : EmbReadFileReq) :
    Prop where
  quantity : embReadFileSubanswerQuantity answer subanswer = sub.recordLength
  data : ∀ offset : Word, offset.toNat < sub.recordLength.toNat →
    embReadFileSubanswerData answer subanswer offset
      = s.reg sub.fileNumber (sub.recordNumber.toNat + offset.toNat)

/-- The bytes of a sub-request to read. -/
def EmbReadFileReq.bytes (sub : EmbReadFileReq) : List Byte :=
  [6] ++ Mem.be [sub.fileNumber] ++ Mem.be [sub.recordNumber] ++ Mem.be [sub.recordLength]

/-- The bytes of a sub-request to write. -/
def EmbWriteFileReq.bytes (sub : EmbWriteFileReq) : List Byte :=
  [6] ++ Mem.be [sub.fileNumber] ++ Mem.be [sub.recordNumber] ++ Mem.be [sub.recordLength]
    ++ Mem.be sub.values

/-- How many bytes the answer to it takes. -/
def EmbReadFileReq.answerSize (sub : EmbReadFileReq) : ℕ := 2 + 2 * sub.recordLength.toNat

end Emodbus
