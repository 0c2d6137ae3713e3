import Emodbus.ClientFile

/-!
# What the client's getters look at

The getters of `read_fifo.c` and `read_file_record.c` take an answer as a peer sent it, and behind
its `data_size` bytes the buffer holds whatever was there.  A getter is confined to an answer if it
does not tell what lies behind.
-/

namespace Emodbus

open Octets

/-- PDUs that differ behind their data, at most. -/
structure EmbPdu.SameData (p q : EmbPdu) : Prop where
  dataSize : p.dataSize = q.dataSize
  data : Mem.Agree p.dataSize.toNat p.data q.data

/-- A call of a getter.  A sub-answer is its place in the answer. -/
inductive AnswerGetter
  | readFifoGetData (offset : Word)
  | readFifoGetAllData (bufSize : Word) (buf : Mem Word)
  | readFileWalk (turns : ℕ)
  | readFileFindSubanswer (subAnswerNumber : ℤ)
  | readFileSubanswerQuantity (subanswer : ℕ)
  | readFileSubanswerData (subanswer : ℕ) (offset : Word)

/-- What a getter gives back. -/
inductive GetterResult
  | word (value : Word)
  | words (count : Word) (buf : Mem Word)
  | subanswers (places : List ℕ)
  | subanswer (place : Option ℕ)

namespace AnswerGetter

def get (answer : EmbPdu) : AnswerGetter → GetterResult
  | readFifoGetData offset => .word (embReadFifoGetData (some answer) offset)
  | readFifoGetAllData bufSize buf =>
    .words (embReadFifoGetAllDataTo (some answer) bufSize buf).1
      (embReadFifoGetAllDataTo (some answer) bufSize buf).2
  | readFileWalk turns => .subanswers (Emodbus.readFileWalk answer turns none)
  | readFileFindSubanswer number => .subanswer (embReadFileFindSubanswer answer number)
  | readFileSubanswerQuantity subanswer => .word (embReadFileSubanswerQuantity answer subanswer)
  | readFileSubanswerData subanswer offset =>
    .word (embReadFileSubanswerData answer subanswer offset)

/-- What is asked of a sub-answer is asked of one that the walk yields. -/
def AskedOf (answer : EmbPdu) : AnswerGetter → Prop
  | readFileSubanswerQuantity subanswer | readFileSubanswerData subanswer _ =>
    ∃ turns, subanswer ∈ Emodbus.readFileWalk answer turns none
  | _ => True

/-- The getter gives the same for whatever lies behind the answer. -/
def Confined (answer : EmbPdu) (getter : AnswerGetter) : Prop :=
  ∀ q, answer.SameData q → getter.get q = getter.get answer

end AnswerGetter

/-! ## What an answer holds -/

/-- The answer with every byte behind it 255. -/
def EmbPdu.filled (p : EmbPdu) : EmbPdu :=
  { p with data := fun i => if i < p.dataSize.toNat then p.data i else 0xFF }

/-- The number of registers in the answer, the largest it can be if the answer ends before that. -/
def EmbPdu.maxRegsCount (p : EmbPdu) : ℕ := (embReadFifoRegsCount p.filled).toNat

/-- The place of the sub-answer with this number, as long as the ones in front of it have both
their length and their type inside of the answer. -/
inductive EmbPdu.SubanswerAt (p : EmbPdu) : (number place : ℕ) → Prop
  | first : SubanswerAt p 0 1
  | next {number place : ℕ} (before : SubanswerAt p number place)
    (head : place + 1 < p.dataSize.toNat) (refType : p.data (place + 1) = 6)
    (inside : place + (p.data place).toNat + 1 ≤ p.dataSize.toNat) :
    SubanswerAt p (number + 1) (place + (p.data place).toNat + 1)

/-- The answer ends in a sub-answer of length zero, whose type is not in the answer any more. -/
def EmbPdu.UntypedAtEnd (p : EmbPdu) (number : ℕ) : Prop :=
  p.dataSize.toNat = (p.data 0).toNat + 1
    ∧ ∃ place, p.SubanswerAt number place ∧ place + 1 = p.dataSize.toNat ∧ p.data place = 0

/-- What the getter looks at is in the answer. -/
def AnswerGetter.Inside (answer : EmbPdu) : AnswerGetter → Prop
  | readFifoGetData offset =>
    offset.toNat < answer.maxRegsCount → 6 + 2 * offset.toNat ≤ answer.dataSize.toNat
  | readFifoGetAllData bufSize _ =>
    ∀ i < min bufSize.toNat answer.maxRegsCount, 6 + 2 * i ≤ answer.dataSize.toNat
  | readFileWalk turns => ∀ number < turns, ¬ answer.UntypedAtEnd number
  | readFileFindSubanswer number => ∀ k : ℕ, number = k → ¬ answer.UntypedAtEnd k
  | readFileSubanswerQuantity _ => True
  | readFileSubanswerData subanswer offset =>
    offset.toNat ≤ (answer.data subanswer).toNat / 2 →
      subanswer + 4 + 2 * offset.toNat ≤ answer.dataSize.toNat

end Emodbus
