import Emodbus.Lib.Mealy
import Mathlib.Data.List.Forall2

/-!
# Outboxes

Something is handed over piece by piece: each time all that is left is offered, and the taker takes
some of it from the front.  Whatever the takers take, what they have is a prefix of the whole.
-/

/-- Takes so many of the elements that it is offered. -/
structure Taker (α : Type*) where
  count : List α → ℕ
  count_le : ∀ offered, count offered ≤ offered.length

/-- What has been taken, and what is left. -/
structure Outbox (α : Type*) where
  taken : List α
  rest : List α

namespace Taker

variable {α : Type*}

/-- What is taken of an offer. -/
def take (t : Taker α) (offered : List α) : List α := offered.take (t.count offered)

/-- What is taken of one offer after the other. -/
def takeAll (ts : List (Taker α)) (offers : List (List α)) : List α :=
  (List.zipWith take ts offers).flatten

/-- Takes `n` elements, or all if there are fewer. -/
def upTo (n : ℕ) : Taker α := ⟨fun offered => min n offered.length, fun _ => Nat.min_le_right _ _⟩

end Taker

namespace Outbox

variable {α : Type*}

/-- All of it. -/
def whole (o : Outbox α) : List α := o.taken ++ o.rest

/-- What is left is offered, and some of it is taken. -/
def step (o : Outbox α) (t : Taker α) : Outbox α × List α :=
  (⟨o.taken ++ t.take o.rest, o.rest.drop (t.count o.rest)⟩, o.rest)

theorem whole_step (o : Outbox α) (t : Taker α) : (o.step t).1.whole = o.whole := by
  unfold step whole Taker.take
  rw [List.append_assoc, List.take_append_drop]

theorem length_taken_step (o : Outbox α) (t : Taker α) :
    (o.step t).1.taken.length = o.taken.length + t.count o.rest := by
  have hle := t.count_le o.rest
  unfold step Taker.take
  rw [List.length_append, List.length_take, Nat.min_eq_left hle]

theorem whole_run (ts : List (Taker α)) (o : Outbox α) :
    (Mealy.run step o ts).1.whole = o.whole := by
  induction ts generalizing o with
  | nil => rfl
  | cons t ts ih => rw [Mealy.run_cons, ih, whole_step]

theorem taken_run (ts : List (Taker α)) (o : Outbox α) :
    (Mealy.run step o ts).1.taken = o.taken ++ Taker.takeAll ts (Mealy.run step o ts).2 := by
  induction ts generalizing o with
  | nil => simp [Taker.takeAll]
  | cons t ts ih =>
    rw [Mealy.run_cons, ih]
    simp [step, Taker.takeAll]

/-! ## Frames one after the other -/

/-- What was taken and what is left are these frames in their order, each of them whole or cut off;
what is left is the end of the last one. -/
def Cuts (frames : List (List α)) (o : Outbox α) : Prop :=
  ∃ cuts : List (List α), List.Forall₂ (· <+: ·) cuts frames ∧ o.whole = cuts.flatten
    ∧ (o.rest ≠ [] → ∃ pre c, cuts = pre ++ [c ++ o.rest])

variable {frames : List (List α)} {taken rest : List α}

theorem cuts_nil : Cuts [] (⟨[], []⟩ : Outbox α) :=
  ⟨[], .nil, rfl, fun h => absurd rfl h⟩

/-- Some of the rest is taken. -/
theorem Cuts.took (h : Cuts frames ⟨taken, rest⟩) (n : ℕ) :
    Cuts frames ⟨taken ++ rest.take n, rest.drop n⟩ := by
  obtain ⟨cuts, hprefix, hwhole, hlast⟩ := h
  refine ⟨cuts, hprefix, ?_, fun hdrop => ?_⟩
  · rw [← hwhole, whole, whole, List.append_assoc, List.take_append_drop]
  · have hrest : rest ≠ [] := by
      rintro rfl
      exact hdrop (by simp)
    obtain ⟨pre, c, hcuts⟩ := hlast hrest
    refine ⟨pre, c ++ rest.take n, ?_⟩
    rw [List.append_assoc, List.take_append_drop]
    exact hcuts

theorem forall₂_prefix_cut {c : List α} : ∀ {pre frames : List (List α)},
    List.Forall₂ (· <+: ·) (pre ++ [c ++ rest]) frames →
      List.Forall₂ (· <+: ·) (pre ++ [c]) frames
  | [], _, .cons hc .nil => .cons ((List.prefix_append c rest).trans hc) .nil
  | _ :: _, _, .cons hp hps => .cons hp (forall₂_prefix_cut hps)

/-- The rest is given up. -/
theorem Cuts.failed (h : Cuts frames ⟨taken, rest⟩) : Cuts frames ⟨taken, []⟩ := by
  by_cases hrest : rest = []
  · subst hrest
    exact h
  · obtain ⟨cuts, hprefix, hwhole, hlast⟩ := h
    obtain ⟨pre, c, rfl⟩ := hlast hrest
    refine ⟨pre ++ [c], ?_, ?_, fun h => absurd rfl h⟩
    · exact forall₂_prefix_cut hprefix
    · simp only [whole, List.flatten_append, List.flatten_singleton, ← List.append_assoc] at hwhole
      have hcancel := List.append_cancel_right hwhole
      simpa [whole] using hcancel

/-- With nothing left another frame is to go out. -/
theorem Cuts.sent (h : Cuts frames ⟨taken, []⟩) (frame : List α) :
    Cuts (frames ++ [frame]) ⟨taken, frame⟩ := by
  obtain ⟨cuts, hprefix, hwhole, -⟩ := h
  refine ⟨cuts ++ [frame], ?_, ?_, fun _ => ⟨cuts, [], rfl⟩⟩
  · exact List.rel_append hprefix (.cons (List.prefix_refl frame) .nil)
  · have htaken : taken = cuts.flatten := by simpa [whole] using hwhole
    simp [whole, htaken]

end Outbox
