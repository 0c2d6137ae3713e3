import Emodbus.Proofs.FileAnswer
import Mathlib.Order.CompletePartialOrder
import Mathlib.Order.Interval.Set.Disjoint

/-!
# The walk over any answer to a request to read files

Whatever the bytes of the answer are, a sub-answer that is found ends inside of it, and the next one
does not begin in front of that end.  So the walk ends, and the sub-answers do not overlap.
-/

namespace Emodbus

open Cursor

/-- The bytes of a sub-answer: its length, and as many as that says. -/
def subanswerRange (answer : EmbPdu) (sa : ℕ) : Set ℕ :=
  Set.Ico sa (sa + (answer.data sa).toNat + 1)

/-- The sub-answers of an answer, one after the other up to NULL. -/
structure SubanswersOf (answer : EmbPdu) (subs : List ℕ) : Prop where
  walk : Walk (embReadFileNextSubanswer answer) none subs
  length : subs.length ≤ answer.dataSize.toNat
  increasing : subs.Pairwise (· < ·)
  disjoint : subs.Pairwise fun sa sa' =>
    Disjoint (subanswerRange answer sa) (subanswerRange answer sa')
  inside : ∀ sa ∈ subs, subanswerRange answer sa ⊆ Set.Ico 1 answer.dataSize.toNat
  refType : ∀ sa ∈ subs, answer.data (sa + 1) = 6
  found : ∀ k : ℤ, 0 ≤ k → k < 2 ^ 31 - 1 → embReadFileFindSubanswer answer k = subs[k.toNat]?

variable {answer : EmbPdu}

theorem nextSubanswer_size {c : Option ℕ} {sa : ℕ}
    (h : embReadFileNextSubanswer answer c = some sa) :
    answer.dataSize.toNat = (answer.data 0).toNat + 1 := by
  by_contra hsize
  unfold embReadFileNextSubanswer embReadFileGetAnswerLength at h
  dsimp only at h
  rw [if_pos hsize] at h
  cases h

/-- What it takes for there to be a next sub-answer. -/
theorem nextSubanswer_some {c : Option ℕ} {sa : ℕ}
    (h : embReadFileNextSubanswer answer c = some sa) :
    sa = nextPlace answer c ∧ sa + (answer.data sa).toNat + 1 ≤ answer.dataSize.toNat
      ∧ answer.data (sa + 1) = 6 := by
  have hsize := nextSubanswer_size h
  rw [nextSubanswer_eq hsize] at h
  split_ifs at h with hend htype
  simp only [Option.some.injEq] at h
  subst h
  exact ⟨rfl, by omega, not_not.1 htype⟩

theorem advances_nextSubanswer (answer : EmbPdu) :
    Advances (embReadFileNextSubanswer answer) id (nextPlace answer) answer.dataSize.toNat where
  begins h := (nextSubanswer_some h).1.ge
  ends h := by
    unfold nextPlace
    dsimp only [id]
    omega
  inside h := (nextSubanswer_some h).2.1

theorem one_le_nextPlace (answer : EmbPdu) (c : Option ℕ) : 1 ≤ nextPlace answer c := by
  cases c with
  | none => exact le_rfl
  | some sa =>
    unfold nextPlace
    dsimp only
    omega

/-- Enough turns go all the way. -/
theorem readFileWalk_of_walk {c : Option ℕ} {subs : List ℕ} {turns : ℕ}
    (h : Walk (embReadFileNextSubanswer answer) c subs) (hturns : subs.length < turns) :
    readFileWalk answer turns c = subs := by
  induction h generalizing turns with
  | stop h =>
    cases turns with
    | zero => rfl
    | succ turns =>
      unfold readFileWalk
      rw [h]
  | step h rest ih =>
    cases turns with
    | zero => cases hturns
    | succ turns =>
      unfold readFileWalk
      rw [h]
      dsimp only
      rw [ih (Nat.lt_of_succ_lt_succ hturns)]

/-- From NULL on there are finitely many sub-answers up to NULL, and what reads the answer sees
these and no others. -/
theorem subanswers_of_any_answer (answer : EmbPdu) :
    ∃ subs, SubanswersOf answer subs
      ∧ ∀ turns, answer.dataSize.toNat < turns → readFileWalk answer turns none = subs := by
  have hadv := advances_nextSubanswer answer
  obtain ⟨subs, hwalk, hlen⟩ := hadv.exists_walk none
  have hpair := hadv.pairwise hwalk
  refine ⟨subs, ⟨hwalk, by omega, ?_, ?_, ?_, ?_, ?_⟩, fun turns hturns =>
    readFileWalk_of_walk hwalk (by omega)⟩
  · exact hpair.imp fun h => lt_of_lt_of_le h.1 h.2
  · refine hpair.imp fun h => ?_
    unfold subanswerRange
    rw [Set.Ico_disjoint_Ico]
    exact (min_le_left _ _).trans (h.2.trans (le_max_right _ _))
  · refine hwalk.forall fun c sa h => ?_
    obtain ⟨hplace, hend, -⟩ := nextSubanswer_some h
    have hone := one_le_nextPlace answer c
    exact Set.Ico_subset_Ico (by omega) hend
  · exact hwalk.forall fun c sa h => (nextSubanswer_some h).2.2
  · intro k hk _
    obtain ⟨n, rfl⟩ := Int.eq_ofNat_of_zero_le hk
    exact hwalk.moved_eq n

end Emodbus
