import Mathlib.Data.List.Pairwise
import Mathlib.Tactic.Linarith

/-!
# Cursors

A cursor is at an element or, as `none`, in front of the first, and `next` moves it on.  There is no
element left where `next` gives `none`.  Where each element ends behind its place and the next one
does not begin in front of that end, a walk inside bounds ends, and what it passes is in order.
-/

namespace Cursor

variable {α : Type*} {next : Option α → Option α} {c : Option α} {x : α} {xs : List α}

/-- The elements that a cursor passes up to the last. -/
inductive Walk (next : Option α → Option α) : Option α → List α → Prop
  | stop {c : Option α} (h : next c = none) : Walk next c []
  | step {c : Option α} {x : α} {xs : List α} (h : next c = some x) (rest : Walk next (some x) xs) :
    Walk next c (x :: xs)

/-- The cursor moved on this many times, or up to where there is no element left. -/
def moved (next : Option α → Option α) : (turns : ℕ) → Option α → Option α
  | 0, c => c
  | turns + 1, c =>
    match next c with
    | none => none
    | some x => moved next turns (some x)

theorem moved_one (next : Option α → Option α) (c : Option α) : moved next 1 c = next c := by
  unfold moved
  rcases next c with _ | x <;> rfl

/-- Moved on once more than there are elements in front of it, the cursor is at the element. -/
theorem Walk.moved_eq (h : Walk next c xs) (k : ℕ) : moved next (k + 1) c = xs[k]? := by
  induction h generalizing k with
  | stop h =>
    unfold moved
    rw [h]
    rfl
  | step h rest ih =>
    unfold moved
    rw [h]
    cases k with
    | zero => rfl
    | succ k => exact ih k

theorem Walk.forall {P : α → Prop} (hP : ∀ c x, next c = some x → P x) (h : Walk next c xs) :
    ∀ x ∈ xs, P x := by
  induction h with
  | stop _ => simp
  | step h _ ih => exact List.forall_mem_cons.2 ⟨hP _ _ h, ih⟩

/-- Elements with a place; the cursor goes on at the end of the one it is at. -/
structure Advances (next : Option α → Option α) (place : α → ℕ) (goesOn : Option α → ℕ)
    (bound : ℕ) : Prop where
  begins : ∀ {c x}, next c = some x → goesOn c ≤ place x
  ends : ∀ {c x}, next c = some x → place x < goesOn (some x)
  inside : ∀ {c x}, next c = some x → goesOn (some x) ≤ bound

section Advances

variable {place : α → ℕ} {goesOn : Option α → ℕ} {bound : ℕ}

/-- What is left for the cursor gets smaller with every move. -/
theorem Advances.exists_walk (h : Advances next place goesOn bound) (c : Option α) :
    ∃ xs, Walk next c xs ∧ xs.length ≤ bound - goesOn c := by
  induction hleft : bound - goesOn c using Nat.strong_induction_on generalizing c with
  | _ left ih =>
    cases hnext : next c with
    | none => exact ⟨[], .stop hnext, Nat.zero_le _⟩
    | some x =>
      have hbegins := h.begins hnext
      have hends := h.ends hnext
      have hinside := h.inside hnext
      obtain ⟨xs, hwalk, hlen⟩ := ih (bound - goesOn (some x)) (by omega) (some x) rfl
      refine ⟨x :: xs, .step hnext hwalk, ?_⟩
      rw [List.length_cons]
      omega

theorem Advances.le_place (h : Advances next place goesOn bound) (hwalk : Walk next c xs) :
    ∀ x ∈ xs, goesOn c ≤ place x := by
  induction hwalk with
  | stop _ => simp
  | step hnext _ ih =>
    refine List.forall_mem_cons.2 ⟨h.begins hnext, fun y hy => ?_⟩
    have hbegins := h.begins hnext
    have hends := h.ends hnext
    have hle := ih y hy
    omega

/-- Each element that is passed ends in front of the ones that are passed later. -/
theorem Advances.pairwise (h : Advances next place goesOn bound) (hwalk : Walk next c xs) :
    xs.Pairwise fun x y => place x < goesOn (some x) ∧ goesOn (some x) ≤ place y := by
  induction hwalk with
  | stop _ => exact .nil
  | step hnext rest ih =>
    exact List.pairwise_cons.2 ⟨fun y hy => ⟨h.ends hnext, h.le_place rest y hy⟩, ih⟩

end Advances

end Cursor
