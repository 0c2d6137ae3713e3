import Mathlib.Tactic.Linarith

/-!
# Bytes and sixteen-bit words

A word is its high byte and its low byte.  A statement about the two halves is stated over `hi`,
`lo` and `ofBytes`; a statement about sizes is one about `toNat`, where `omega` decides it.
-/

namespace Octets

abbrev Byte := BitVec 8
abbrev Word := BitVec 16

namespace Word

/-- The word with the given high and low byte. -/
def ofBytes (h l : Byte) : Word := h ++ l

def hi (w : Word) : Byte := w.extractLsb' 8 8

def lo (w : Word) : Byte := w.setWidth 8

theorem toNat_ofBytes (h l : Byte) : (ofBytes h l).toNat = h.toNat * 256 + l.toNat := by
  rw [ofBytes, BitVec.toNat_append, ← Nat.shiftLeft_add_eq_or_of_lt l.isLt, Nat.shiftLeft_eq]

theorem toNat_hi (w : Word) : w.hi.toNat = w.toNat / 256 := by
  have := w.isLt
  rw [hi, BitVec.extractLsb'_toNat, Nat.shiftRight_eq_div_pow, Nat.mod_eq_of_lt (by omega)]

theorem toNat_lo (w : Word) : w.lo.toNat = w.toNat % 256 := by
  rw [lo, BitVec.toNat_setWidth]

@[simp] theorem hi_ofBytes (h l : Byte) : (ofBytes h l).hi = h := by
  apply BitVec.eq_of_toNat_eq
  have := l.isLt
  rw [toNat_hi, toNat_ofBytes]
  omega

@[simp] theorem lo_ofBytes (h l : Byte) : (ofBytes h l).lo = l := by
  apply BitVec.eq_of_toNat_eq
  have := l.isLt
  rw [toNat_lo, toNat_ofBytes]
  omega

@[simp] theorem ofBytes_hi_lo (w : Word) : ofBytes w.hi w.lo = w := by
  apply BitVec.eq_of_toNat_eq
  rw [toNat_ofBytes, toNat_hi, toNat_lo]
  omega

theorem ofBytes_inj {h l h' l' : Byte} : ofBytes h l = ofBytes h' l' ↔ h = h' ∧ l = l' := by
  constructor
  · intro e
    exact ⟨by simpa using congrArg hi e, by simpa using congrArg lo e⟩
  · rintro ⟨rfl, rfl⟩
    rfl

/-- The two bytes exchanged. -/
def swap (w : Word) : Word := ofBytes w.lo w.hi

@[simp] theorem swap_swap (w : Word) : w.swap.swap = w := by simp [swap]

@[simp] theorem hi_swap (w : Word) : w.swap.hi = w.lo := by simp [swap]

@[simp] theorem lo_swap (w : Word) : w.swap.lo = w.hi := by simp [swap]

@[simp] theorem swap_ofBytes (h l : Byte) : (ofBytes h l).swap = ofBytes l h := by simp [swap]

/-- Shifting the high byte into place and joining the low one. -/
theorem shiftLeft_or_setWidth (h l : Byte) :
    (h.setWidth 16 <<< 8) ||| l.setWidth 16 = ofBytes h l := by
  apply BitVec.eq_of_toNat_eq
  have hh := h.isLt
  have hl := l.isLt
  rw [toNat_ofBytes, BitVec.toNat_or, BitVec.toNat_shiftLeft, BitVec.toNat_setWidth,
    BitVec.toNat_setWidth, Nat.mod_eq_of_lt (a := h.toNat) (by omega),
    Nat.mod_eq_of_lt (a := l.toNat) (by omega), Nat.shiftLeft_eq, Nat.mod_eq_of_lt (by omega),
    Nat.mul_comm, ← Nat.two_pow_add_eq_or_of_lt (i := 8) hl h.toNat]

theorem setWidth_ushiftRight (w : Word) : (w >>> 8).setWidth 8 = w.hi := by
  apply BitVec.eq_of_toNat_eq
  have := w.isLt
  rw [toNat_hi, BitVec.toNat_setWidth, BitVec.toNat_ushiftRight, Nat.shiftRight_eq_div_pow]
  omega

theorem ushiftRight_or_shiftLeft (w : Word) : (w >>> 8) ||| (w <<< 8) = w.swap := by
  apply BitVec.eq_of_getLsbD_eq
  intro i hi
  simp only [swap, ofBytes, BitVec.getLsbD_or, BitVec.getLsbD_ushiftRight,
    BitVec.getLsbD_shiftLeft, BitVec.getLsbD_append, Word.hi, Word.lo, BitVec.getLsbD_extractLsb',
    BitVec.getLsbD_setWidth]
  by_cases h8 : i < 8
  · simp [h8, hi]
  · have : w.getLsbD (8 + i) = false := BitVec.getLsbD_of_ge _ _ (by omega)
    simp [h8, this, hi, show i - 8 < 8 by omega]

end Word

end Octets
