import Emodbus.ServerFile

/-!
# The sub-requests of a request to read files

`fileReadSubs` is the list of the sub-requests `emb_srv_read_file` goes through, and `askedSubs`
those of them whose file would be asked if every sub-answer were let through.

The room in the response is checked against `byte_counter`, a byte: `RoomChecked` says that the
check works where it is needed, at the first sub-answer for which there is no room.
-/

namespace Emodbus

open Octets

variable {σ : Type}

/-- A sub-request as it lies in the request. -/
structure FileReadSub where
  refType : Byte
  fileno : Word
  startAddr : Word
  regCount : Word
deriving DecidableEq

/-- The sub-request at this place. -/
def fileReadSubAt (d : Mem Byte) (pos : ℕ) : FileReadSub where
  refType := d pos
  fileno := getBigEnd16 d (pos + 1)
  startAddr := getBigEnd16 d (pos + 3)
  regCount := getBigEnd16 d (pos + 5)

/-- This many sub-requests, from `pos` on. -/
def fileReadSubs (d : Mem Byte) : (turns pos : ℕ) → List FileReadSub
  | 0, _ => []
  | turns + 1, pos => fileReadSubAt d pos :: fileReadSubs d turns (pos + 7)

/-- The sub-requests of a request, none where its `byte_count` is refused. -/
def EmbPdu.fileReadSubs (req : EmbPdu) : List FileReadSub :=
  let byteCount := (req.data 0).toNat
  if byteCount < 7 ∨ byteCount > 7 * 35 then []
  else Emodbus.fileReadSubs req.data ((byteCount + 6) / 7) 1

/-- How many bytes the sub-answer takes. -/
def FileReadSub.answerSize (sub : FileReadSub) : ℕ := 2 + 2 * sub.regCount.toNat

/-- How many bytes the sub-answers take. -/
def answersSize (subs : List FileReadSub) : ℕ := (subs.map FileReadSub.answerSize).sum

/-- The file to read, and its callback. -/
def FileReadSub.file (sub : FileReadSub) (srv : EmbServer σ) (s : σ) :
    Option (EmbSrvFile σ × (Word → Word → σ → Byte × List Word × σ)) :=
  if sub.refType = embFileRefType then do
    let getFile ← srv.getFile
    let file ← getFile sub.fileno s
    let readFile ← file.readFile
    pure (file, readFile)
  else none

/-- The sub-requests up to the first without a file to read, or whose file reports an error. -/
def askedSubs (srv : EmbServer σ) : List FileReadSub → σ → List FileReadSub
  | [], _ => []
  | sub :: subs, s =>
    match sub.file srv s with
    | none => []
    | some (_, readFile) =>
      let res := readFile sub.startAddr sub.regCount s
      sub :: if res.1 = 0 then askedSubs srv subs res.2.2 else []

/-- The first sub-answer that ends behind `max_size`, with the byte count at its front and `size`
bytes of sub-answers before it, is one whose end is behind `max_size` in eight bits, too. -/
def RoomChecked (maxSize : ℕ) : (size : ℕ) → List FileReadSub → Prop
  | _, [] => True
  | size, sub :: subs =>
    if 1 + (size + sub.answerSize) ≤ maxSize then RoomChecked maxSize (size + sub.answerSize) subs
    else maxSize < (size + sub.answerSize) % 256

/-- What a read callback is to put into the response ends within it. -/
def StoreCall.HasRoom (maxSize : ℕ) : StoreCall → Prop
  | .readFile _ _ quantity out => out + 2 * quantity.toNat ≤ maxSize
  | _ => True

/-- The response accounts for every byte of the sub-answers. -/
structure AccountsFor (answer : EmbPdu) (maxSize : ℕ) (subs : List FileReadSub) : Prop where
  dataSize : answer.dataSize.toNat = 1 + answersSize subs
  maxSize : answer.dataSize.toNat ≤ maxSize
  byteCount : (answer.data 0).toNat = answer.dataSize.toNat - 1
  lengths : ∀ pre sub post, subs = pre ++ sub :: post →
    (answer.data (1 + answersSize pre)).toNat = 2 * sub.regCount.toNat + 1

/-- No call of the handler can write behind the response, and a response it sends accounts for
every byte. -/
structure ReadFileInBounds (srv : EmbServer σ) (r : SrvRun σ) : Prop where
  hasRoom : ∃ made, (embSrvReadFile srv r).2.calls = r.calls ++ made
    ∧ ∀ c ∈ made, c.HasRoom r.txPdu.maxSize.toNat
  accounts : (embSrvReadFile srv r).1 = 0 →
    AccountsFor (embSrvReadFile srv r).2.txPdu r.txPdu.maxSize.toNat r.rxPdu.fileReadSubs

end Emodbus
