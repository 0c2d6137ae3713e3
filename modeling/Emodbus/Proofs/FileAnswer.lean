import Emodbus.Proofs.ClientFile

/-!
# The client's walk over an answer

An answer to a request to read files is a run of sub-answers behind their number of bytes.  The
walk stops at each of them, and what the client reads there are its registers.
-/

namespace Emodbus

open Octets

/-- Where the next sub-answer would begin. -/
def nextPlace (answer : EmbPdu) : Option ℕ → ℕ
  | none => 1
  | some p => p + (answer.data p).toNat + 1

theorem nextSubanswer_eq {answer : EmbPdu} (h : answer.dataSize.toNat = (answer.data 0).toNat + 1)
    (subanswer : Option ℕ) :
    embReadFileNextSubanswer answer subanswer
      = if nextPlace answer subanswer + (answer.data (nextPlace answer subanswer)).toNat + 1
          > (answer.data 0).toNat + 1 then none
        else if answer.data (nextPlace answer subanswer + 1) ≠ 6 then none
        else some (nextPlace answer subanswer) := by
  unfold embReadFileNextSubanswer embReadFileGetAnswerLength
  dsimp only
  rw [if_neg (not_not.2 h)]
  cases subanswer <;> rfl

@[simp] theorem length_subanswerBytes (regs : List Word) :
    (subanswerBytes regs).length = 2 + 2 * regs.length := by
  simp [subanswerBytes]
  omega

/-- Where the sub-answers begin, the first at `pos`. -/
def answerPlaces : ℕ → List (List Word) → List ℕ
  | _, [] => []
  | pos, regs :: subs => pos :: answerPlaces (pos + (2 + 2 * regs.length)) subs

section Walk

variable {answer : EmbPdu} {pos : ℕ} {regs : List Word}

/-- What a sub-answer begins with. -/
theorem subanswer_head (hat : Mem.At answer.data pos (subanswerBytes regs))
    (hsize : 2 + 2 * regs.length ≤ 254) :
    (answer.data pos).toNat = 1 + 2 * regs.length ∧ answer.data (pos + 1) = 6 := by
  unfold subanswerBytes at hat
  rw [Mem.at_cons, Mem.at_cons] at hat
  obtain ⟨hbytes, htype, -⟩ := hat
  refine ⟨?_, htype⟩
  rw [hbytes, BitVec.toNat_ofNat]
  omega

/-- The walk stops at every sub-answer, and then ends. -/
theorem readFileWalk_eq {total : ℕ}
    (hsize : answer.dataSize.toNat = (answer.data 0).toNat + 1)
    (hcount : (answer.data 0).toNat = total) (subs : List (List Word)) {turns : ℕ}
    {subanswer : Option ℕ} (hturns : subs.length < turns) (hpos : nextPlace answer subanswer = pos)
    (hend : pos + (subs.flatMap subanswerBytes).length = total + 1) (hpos1 : 1 ≤ pos)
    (hat : Mem.At answer.data pos (subs.flatMap subanswerBytes)) :
    readFileWalk answer turns subanswer = answerPlaces pos subs := by
  induction subs generalizing turns pos subanswer with
  | nil =>
    obtain ⟨turns, rfl⟩ : ∃ n, turns = n + 1 := ⟨turns - 1, by omega⟩
    rw [List.flatMap_nil, List.length_nil] at hend
    unfold readFileWalk
    rw [nextSubanswer_eq hsize, hpos, if_pos (by omega)]
    rfl
  | cons regs subs ih =>
    obtain ⟨turns, rfl⟩ : ∃ n, turns = n + 1 := ⟨turns - 1, by omega⟩
    have hlt := answer.dataSize.isLt
    rw [List.flatMap_cons, List.length_append, length_subanswerBytes] at hend
    rw [List.flatMap_cons, Mem.at_append, length_subanswerBytes] at hat
    rw [List.length_cons] at hturns
    obtain ⟨hhead, htype⟩ := subanswer_head hat.1 (by omega)
    have hnext : nextPlace answer (some pos) = pos + (2 + 2 * regs.length) := by
      unfold nextPlace
      dsimp only
      omega
    unfold readFileWalk
    rw [nextSubanswer_eq hsize, hpos, if_neg (by omega), if_neg (not_not.2 htype)]
    dsimp only
    rw [ih (by omega) hnext (by omega) (by omega) hat.2]
    rfl

/-- What is read of a sub-answer. -/
theorem subanswer_read (hat : Mem.At answer.data pos (subanswerBytes regs))
    (hsize : 2 + 2 * regs.length ≤ 254) :
    embReadFileSubanswerQuantity answer pos = BitVec.ofNat 16 regs.length
      ∧ ∀ (offset : Word) (h : offset.toNat < regs.length),
        embReadFileSubanswerData answer pos offset = regs[offset.toNat] := by
  obtain ⟨hhead, -⟩ := subanswer_head hat hsize
  have hquantity : (answer.data pos).toNat / 2 = regs.length := by omega
  refine ⟨?_, fun offset hoffset => ?_⟩
  · unfold embReadFileSubanswerQuantity
    rw [hquantity]
  · unfold subanswerBytes at hat
    rw [Mem.at_cons, Mem.at_cons] at hat
    have hwords : Mem.beWords answer.data (pos + 2) regs.length = regs := hat.2.2.beWords
    have hget := List.getElem_of_eq hwords (i := offset.toNat)
      (by rw [Mem.length_beWords]; exact hoffset)
    rw [Mem.getElem_beWords] at hget
    unfold embReadFileSubanswerData
    rw [hquantity, if_neg (by omega), getSwapped_eq, getBigEnd16_eq, hget]

/-- The sub-answers lie at their places. -/
theorem at_answerPlaces (subs : List (List Word))
    (hsize : (subs.flatMap subanswerBytes).length ≤ 254)
    (hat : Mem.At answer.data pos (subs.flatMap subanswerBytes)) :
    List.Forall₂
      (fun place regs => Mem.At answer.data place (subanswerBytes regs) ∧ 2 + 2 * regs.length ≤ 254)
      (answerPlaces pos subs) subs := by
  induction subs generalizing pos with
  | nil => exact .nil
  | cons regs subs ih =>
    rw [List.flatMap_cons, List.length_append, length_subanswerBytes] at hsize
    rw [List.flatMap_cons, Mem.at_append, length_subanswerBytes] at hat
    exact .cons ⟨hat.1, by omega⟩ (ih (by omega) hat.2)

end Walk

theorem two_mul_length_le (subs : List (List Word)) :
    2 * subs.length ≤ (subs.flatMap subanswerBytes).length := by
  induction subs with
  | nil => exact le_rfl
  | cons regs subs ih =>
    rw [List.flatMap_cons, List.length_append, length_subanswerBytes, List.length_cons]
    omega

end Emodbus
