import Emodbus.FileStore

/-!
# The limits of a request to write files

`base/limits.h` bounds the bytes of the sub-requests of a request to write files.  The client builds
any request that has room in its PDU; the server has bounds of its own.
-/

namespace Emodbus

variable {σ : Type}

/-- `EMB_WRITE_FILE_REQ_MIN_BYTE_COUNT`. -/
def embWriteFileReqMinByteCount : ℕ := 0x09

/-- `EMB_WRITE_FILE_REQ_MAX_BYTE_COUNT`. -/
def embWriteFileReqMaxByteCount : ℕ := 0xFB

/-- How many bytes the sub-requests take. -/
def writeBodySize (subs : List EmbWriteFileReq) : ℕ :=
  (subs.map fun sub => 7 + 2 * sub.recordLength.toNat).sum

/-- The sub-requests that are meant to be written in one request. -/
structure WriteInLimits (subs : List EmbWriteFileReq) : Prop where
  nonempty : subs ≠ []
  recordNumber : ∀ sub ∈ subs, sub.recordNumber.toNat ≤ maxRecordNumber
  recordLength : ∀ sub ∈ subs, 1 ≤ sub.recordLength.toNat
  minByteCount : embWriteFileReqMinByteCount ≤ writeBodySize subs
  maxByteCount : writeBodySize subs ≤ embWriteFileReqMaxByteCount

/-- Each sub-request is for a file, and writing it succeeds. -/
def TakesFiles (srv : EmbServer σ) : List EmbWriteFileReq → σ → Prop
  | [], _ => True
  | sub :: subs, s => ∃ getFile file writeFile s', srv.getFile = some getFile
    ∧ getFile sub.fileNumber s = some file ∧ file.writeFile = some writeFile
    ∧ writeFile sub.recordNumber sub.recordLength sub.values s = (0, s')
    ∧ TakesFiles srv subs s'

end Emodbus
