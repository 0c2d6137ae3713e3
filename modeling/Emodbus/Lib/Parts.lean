import Mathlib.Logic.Function.Basic

/-!
# Parts of a state

A part of a state can be read and replaced.  Reading gives what was put there last, and replacing
touches nothing else, so that putting back what was read changes nothing.
-/

/-- How a `σ` is part of a `τ`. -/
structure Lens (τ σ : Type*) where
  get : τ → σ
  set : σ → τ → τ
  get_set : ∀ x t, get (set x t) = x
  set_get : ∀ t, set (get t) t = t
  set_set : ∀ x y t, set y (set x t) = set y t

namespace Lens

attribute [simp] get_set set_get set_set

variable {κ σ : Type*} [DecidableEq κ]

/-- The value at one place. -/
def at_ (k : κ) : Lens (κ → σ) σ where
  get f := f k
  set x f := Function.update f k x
  get_set x f := Function.update_self k x f
  set_get f := Function.update_eq_self k f
  set_set x y f := Function.update_idem x y f

end Lens
