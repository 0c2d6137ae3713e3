import Mathlib.Data.List.Pairwise
import Mathlib.Data.List.Perm.Basic
import Mathlib.Order.CompletePartialOrder
import Mathlib.Order.Interval.Set.Disjoint
import Mathlib.Tactic.Linarith

/-!
# Looking up an interval

Entries of a list, each with an interval, and the first entry that passes a test.  Where no two
entries pass it, the order of the list does not matter.
-/

namespace Lookup

open Set

section Find

variable {β : Type*} {hit : β → Bool} {bs bs' : List β}

/-- At most one entry passes the test. -/
def Exclusive (hit : β → Bool) (bs : List β) : Prop := bs.Pairwise fun b b' => ¬ (hit b ∧ hit b')

theorem Exclusive.eq (h : Exclusive hit bs) {b b' : β} (hb : b ∈ bs) (hb' : b' ∈ bs)
    (hit_b : hit b) (hit_b' : hit b') : b = b' := by
  by_contra hne
  have hsymm : Std.Symm fun b b' => ¬ (hit b = true ∧ hit b' = true) :=
    ⟨fun _ _ hn hboth => hn hboth.symm⟩
  exact List.Pairwise.forall h hb hb' hne ⟨hit_b, hit_b'⟩

theorem Exclusive.find?_perm (h : Exclusive hit bs) (hperm : bs'.Perm bs) :
    bs'.find? hit = bs.find? hit := by
  cases hfind : bs.find? hit with
  | none =>
    rw [List.find?_eq_none] at hfind ⊢
    intro b hb
    exact hfind b (hperm.mem_iff.1 hb)
  | some b =>
    have hb : b ∈ bs := List.mem_of_find?_eq_some hfind
    have hit_b : hit b := List.find?_some hfind
    cases hfind' : bs'.find? hit with
    | none =>
      rw [List.find?_eq_none] at hfind'
      exact absurd hit_b (hfind' b (hperm.mem_iff.2 hb))
    | some b' =>
      have hb' : b' ∈ bs := hperm.mem_iff.1 (List.mem_of_find?_eq_some hfind')
      rw [h.eq hb' hb (List.find?_some hfind') hit_b]

end Find

section Intervals

variable {s e s' e' : ℕ}

/-- An end of one interval lies strictly inside the other. -/
def Crosses (s e s' e' : ℕ) : Prop :=
  (s < s' ∧ s' < e) ∨ (s < e' ∧ e' < e) ∨ (s' < s ∧ s < e') ∨ (s' < e ∧ e < e')

theorem Crosses.symm (h : Crosses s e s' e') : Crosses s' e' s e := by
  unfold Crosses at *
  omega

/-- Intervals that do not cross are disjoint, unless they are the same and not empty. -/
theorem disjoint_of_not_crosses (h : ¬ Crosses s e s' e') (hne : ¬ (s = s' ∧ e = e') ∨ e ≤ s) :
    Disjoint (Ico s e) (Ico s' e') := by
  unfold Crosses at h
  rw [Ico_disjoint_Ico]
  omega

theorem not_crosses_self : ¬ Crosses s e s e := by
  unfold Crosses
  omega

theorem not_disjoint_self (h : s < e) : ¬ Disjoint (Ico s e) (Ico s e) := by
  rw [Ico_disjoint_Ico]
  omega

end Intervals

end Lookup
