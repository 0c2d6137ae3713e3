import Mathlib.Algebra.BigOperators.Ring.Finset
import Mathlib.Algebra.Field.ZMod

/-!
# A shift register with feedback

The register of `w` bits takes one bit at a time into its lowest place and is shifted towards it;
the bit that falls out adds the polynomial `p`.  All of it is linear in exclusive or, so two streams
of bits are told apart by what their difference makes of a register that starts at zero: `p` with
its top bit set tells every difference within `w` places, one with an odd number of bits every odd
number of differences, and the place where the register comes back to 1 decides about pairs.
-/

namespace Lfsr

variable {w : ℕ} (p : BitVec w)

/-- The register shifted by one place. -/
def shift (s : BitVec w) : BitVec w := if s.getLsbD 0 then (s >>> 1) ^^^ p else s >>> 1

/-- A bit in the lowest place. -/
def bit (b : Bool) : BitVec w := if b then 1#w else 0#w

/-- The register, `s` at first, after the first `n` bits. -/
def reg (s : BitVec w) (e : ℕ → Bool) : ℕ → BitVec w
  | 0 => s
  | n + 1 => shift p (reg s e n ^^^ bit (e n))

/-- The first `n` bits as a number. -/
def word (e : ℕ → Bool) : ℕ → BitVec w
  | 0 => 0#w
  | n + 1 => word e n ^^^ (bit (e n) <<< n)

/-- The number of bits set, modulo 2. -/
def parity (s : BitVec w) : ZMod 2 := ∑ i ∈ Finset.range w, if s.getLsbD i then 1 else 0

/-- The register, shifted from `s` on, is not at `x` in the next `n` places. -/
def avoids (x : BitVec w) : ℕ → BitVec w → Bool
  | 0, _ => true
  | n + 1, s => s != x && avoids x n (shift p s)

/-! ## The shift -/

theorem getLsbD_bit (b : Bool) (i : ℕ) :
    (bit b : BitVec w).getLsbD i = (b && decide (i = 0 ∧ 0 < w)) := by
  cases b
  · simp [bit]
  · simp only [bit, if_true, BitVec.getLsbD_one, Bool.true_and]
    by_cases hi : i = 0 <;> simp [hi]

theorem bit_xor (a b : Bool) : (bit (a ^^ b) : BitVec w) = bit a ^^^ bit b := by
  cases a <;> cases b <;> simp [bit]

@[simp] theorem shift_zero : shift p 0#w = 0#w := by simp [shift]

theorem shift_xor (a b : BitVec w) : shift p (a ^^^ b) = shift p a ^^^ shift p b := by
  unfold shift
  rw [BitVec.getLsbD_xor, BitVec.ushiftRight_xor_distrib]
  cases a.getLsbD 0 <;> cases b.getLsbD 0
  · rfl
  · simp [BitVec.xor_assoc]
  · simp only [Bool.xor_false, if_true, Bool.false_eq_true, if_false]
    rw [BitVec.xor_assoc, BitVec.xor_assoc, BitVec.xor_comm p]
  · simp only [Bool.xor_self, Bool.false_eq_true, if_false, if_true]
    rw [BitVec.xor_assoc, BitVec.xor_comm (b >>> 1) p, ← BitVec.xor_assoc p p, BitVec.xor_self,
      BitVec.zero_xor]

theorem iterate_shift_zero (n : ℕ) : (shift p)^[n] 0#w = 0#w :=
  Function.iterate_fixed (shift_zero p) n

theorem iterate_shift_xor (n : ℕ) (a b : BitVec w) :
    (shift p)^[n] (a ^^^ b) = (shift p)^[n] a ^^^ (shift p)^[n] b := by
  induction n generalizing a b with
  | zero => rfl
  | succ n ih => rw [Function.iterate_succ_apply, shift_xor, ih]; rfl

/-- Where the lowest places are empty, shifting only moves. -/
theorem iterate_shift_of_low {n : ℕ} {s : BitVec w} (h : ∀ i < n, s.getLsbD i = false) :
    (shift p)^[n] s = s >>> n := by
  induction n with
  | zero => simp
  | succ n ih =>
    have hlow : (s >>> n).getLsbD 0 = false := by
      rw [BitVec.getLsbD_ushiftRight]
      exact h n (Nat.lt_succ_self n)
    rw [Function.iterate_succ_apply', ih fun i hi => h i (by omega), shift, hlow,
      if_neg Bool.false_ne_true, BitVec.shiftRight_add]

theorem iterate_shift_shiftLeft {n : ℕ} {s : BitVec w} (h : ∀ i, w - n ≤ i → s.getLsbD i = false) :
    (shift p)^[n] (s <<< n) = s := by
  rw [iterate_shift_of_low p fun i hi => by simp [BitVec.getLsbD_shiftLeft, hi]]
  refine BitVec.eq_of_getLsbD_eq fun i hi => ?_
  rw [BitVec.getLsbD_ushiftRight, BitVec.getLsbD_shiftLeft, Nat.add_sub_cancel_left]
  by_cases hlt : n + i < w
  · simp [hlt]
  · rw [h i (by omega)]
    simp

/-- With the top bit of the polynomial set, nothing is lost. -/
theorem shift_injective (hp : p.getLsbD (w - 1) = true) : Function.Injective (shift p) := by
  have hzero : ∀ s, shift p s = 0#w → s = 0#w := by
    intro s hs
    unfold shift at hs
    split_ifs at hs with hlow
    -- only the polynomial has a top bit
    · have htop : (s >>> 1).getLsbD (w - 1) = false := by
        rw [BitVec.getLsbD_ushiftRight]
        exact BitVec.getLsbD_of_ge s _ (by omega)
      rw [BitVec.xor_eq_zero_iff.1 hs, hp] at htop
      exact absurd htop (by decide)
    · refine BitVec.eq_of_getLsbD_eq fun i hi => ?_
      cases i with
      | zero => simpa using hlow
      | succ i =>
        have hbit := congrArg (fun x : BitVec w => x.getLsbD i) hs
        rw [BitVec.getLsbD_ushiftRight, Nat.add_comm] at hbit
        simpa using hbit
  intro a b h
  refine BitVec.xor_eq_zero_iff.1 (hzero _ ?_)
  rw [shift_xor]
  exact BitVec.xor_eq_zero_iff.2 h

/-! ## The register -/

theorem reg_congr {e f : ℕ → Bool} {n : ℕ} (s : BitVec w) (h : ∀ i < n, e i = f i) :
    reg p s e n = reg p s f n := by
  induction n with
  | zero => rfl
  | succ n ih => rw [reg, reg, ih fun i hi => h i (by omega), h n (Nat.lt_succ_self n)]

theorem reg_add (s : BitVec w) (e : ℕ → Bool) (m n : ℕ) :
    reg p s e (m + n) = reg p (reg p s e m) (fun i => e (m + i)) n := by
  induction n with
  | zero => rfl
  | succ n ih => rw [← Nat.add_assoc, reg, reg, ih]

theorem reg_xor (a b : BitVec w) (e f : ℕ → Bool) (n : ℕ) :
    reg p (a ^^^ b) (fun i => e i ^^ f i) n = reg p a e n ^^^ reg p b f n := by
  induction n with
  | zero => rfl
  | succ n ih =>
    rw [reg, reg, reg, ih, bit_xor, ← shift_xor]
    congr 1
    rw [BitVec.xor_assoc, BitVec.xor_assoc, ← BitVec.xor_assoc _ (bit (e n)),
      BitVec.xor_comm _ (bit (e n)), BitVec.xor_assoc]

theorem reg_false {e : ℕ → Bool} {n : ℕ} (s : BitVec w) (h : ∀ i < n, e i = false) :
    reg p s e n = (shift p)^[n] s := by
  induction n with
  | zero => rfl
  | succ n ih =>
    rw [reg, ih fun i hi => h i (by omega), h n (Nat.lt_succ_self n), Function.iterate_succ_apply']
    simp [bit]

/-- Two registers that take the same bits stay apart by the shifts of what they differ in. -/
theorem reg_from (a b : BitVec w) (e : ℕ → Bool) (n : ℕ) :
    reg p a e n = reg p b e n ^^^ (shift p)^[n] (a ^^^ b) := by
  have hzero : reg p (a ^^^ b) (fun _ => false) n = (shift p)^[n] (a ^^^ b) :=
    reg_false p _ fun _ _ => rfl
  have hsplit := reg_xor p b (a ^^^ b) e (fun _ => false) n
  simp only [Bool.xor_false] at hsplit
  rw [hzero, BitVec.xor_comm a b, ← BitVec.xor_assoc, BitVec.xor_self, BitVec.zero_xor] at hsplit
  rw [hsplit, BitVec.xor_comm a b]

theorem getLsbD_word (e : ℕ → Bool) {n : ℕ} (hn : n ≤ w) (i : ℕ) :
    (word e n : BitVec w).getLsbD i = (decide (i < n) && e i) := by
  induction n with
  | zero => simp [word]
  | succ n ih =>
    rw [word, BitVec.getLsbD_xor, ih (by omega), BitVec.getLsbD_shiftLeft, getLsbD_bit]
    rcases Nat.lt_trichotomy i n with h | rfl | h
    · simp [h, Nat.lt_succ_of_lt h]
    · simp [show i < w by omega, show 0 < w by omega]
    · simp [show ¬ i < n by omega, show ¬ i < n + 1 by omega, show i - n ≠ 0 by omega]

/-- Up to `w` bits may as well be put in all at once. -/
theorem reg_word (s : BitVec w) (e : ℕ → Bool) {n : ℕ} (hn : n ≤ w) :
    reg p s e n = (shift p)^[n] (s ^^^ word e n) := by
  induction n with
  | zero => simp [reg, word]
  | succ n ih =>
    have hbit : (shift p)^[n] (bit (e n) <<< n) = (bit (e n) : BitVec w) := by
      refine iterate_shift_shiftLeft p fun i hi => ?_
      rw [getLsbD_bit]
      simp [show i ≠ 0 by omega]
    have hnext : reg p s e n ^^^ bit (e n)
        = (shift p)^[n] (s ^^^ word e n ^^^ (bit (e n) <<< n)) := by
      rw [iterate_shift_xor, hbit, ih (by omega)]
    rw [reg, hnext, word, Function.iterate_succ_apply', BitVec.xor_assoc]

/-! ## Differences that are seen -/

section Seen

variable {p} {e : ℕ → Bool} {n : ℕ}

/-! ### Bits within `w` places of each other -/

theorem reg_ne_zero_of_window (hp : p.getLsbD (w - 1) = true) {start : ℕ}
    (hwindow : ∀ i < n, e i = true → start ≤ i ∧ i < start + w) (hex : ∃ i < n, e i = true) :
    reg p 0#w e n ≠ 0#w := by
  obtain ⟨k, hk, hek⟩ := hex
  obtain ⟨hstart, hend⟩ := hwindow k hk hek
  set m := min w (n - start) with hm
  have hn : n = start + (m + (n - start - m)) := by omega
  have hbefore : reg p 0#w e start = 0#w := by
    rw [reg_false p 0#w fun i hi => ?_, iterate_shift_zero]
    by_contra h
    exact absurd (hwindow i (by omega) (by simpa using h)).1 (by omega)
  have hbehind : ∀ i < n - start - m, (fun i => e (start + (m + i))) i = false := by
    intro i hi
    by_contra h
    have hin := hwindow (start + (m + i)) (by omega) (by simpa using h)
    omega
  have hinj := shift_injective p hp
  rw [hn, reg_add, hbefore, reg_add, reg_false p _ hbehind, reg_word p _ _ (by omega),
    BitVec.zero_xor]
  intro h0
  have hzero : (word (fun i => e (start + i)) m : BitVec w) = 0#w := by
    refine (hinj.iterate m) ((hinj.iterate (n - start - m)) ?_)
    rw [iterate_shift_zero, iterate_shift_zero, h0]
  have hbit := getLsbD_word (w := w) (fun i => e (start + i)) (n := m) (by omega) (k - start)
  rw [hzero, Nat.add_sub_cancel' hstart, hek] at hbit
  simp at hbit
  omega

/-! ### An odd number of bits -/

theorem parity_xor (a b : BitVec w) : parity (a ^^^ b) = parity a + parity b := by
  unfold parity
  rw [← Finset.sum_add_distrib]
  refine Finset.sum_congr rfl fun i _ => ?_
  rw [BitVec.getLsbD_xor]
  cases a.getLsbD i <;> cases b.getLsbD i <;> decide

theorem parity_ushiftRight (s : BitVec w) :
    parity s = parity (s >>> 1) + if s.getLsbD 0 then 1 else 0 := by
  cases w with
  | zero => simp [parity]
  | succ v =>
    unfold parity
    rw [Finset.sum_range_succ', Finset.sum_range_succ]
    have htop : (s >>> 1).getLsbD v = false := by
      rw [BitVec.getLsbD_ushiftRight]
      exact BitVec.getLsbD_of_ge s _ (by omega)
    rw [htop, if_neg Bool.false_ne_true, add_zero]
    congr 1
    refine Finset.sum_congr rfl fun i _ => ?_
    rw [BitVec.getLsbD_ushiftRight, Nat.add_comm 1 i]

theorem parity_shift (hp : parity p = 1) (s : BitVec w) : parity (shift p s) = parity s := by
  rw [parity_ushiftRight s]
  unfold shift
  split_ifs with hlow
  · rw [parity_xor, hp]
  · rw [add_zero]

theorem parity_bit (hp : parity p = 1) (b : Bool) :
    parity (bit b : BitVec w) = if b then 1 else 0 := by
  have hw : 0 < w := by
    rcases Nat.eq_zero_or_pos w with rfl | h
    · simp [parity] at hp
    · exact h
  unfold parity
  rw [Finset.sum_eq_single 0]
  · rw [getLsbD_bit]
    simp [hw]
  · intro i _ hi
    rw [getLsbD_bit]
    simp [hi]
  · simp [hw]

theorem parity_reg (hp : parity p = 1) (s : BitVec w) (n : ℕ) :
    parity (reg p s e n) = parity s + ∑ i ∈ Finset.range n, if e i then 1 else 0 := by
  induction n with
  | zero => simp [reg]
  | succ n ih =>
    rw [reg, parity_shift hp, parity_xor, ih, parity_bit hp, Finset.sum_range_succ, add_assoc]

theorem reg_ne_zero_of_odd (hp : parity p = 1)
    (hodd : Odd ((Finset.range n).filter fun i => e i = true).card) :
    reg p 0#w e n ≠ 0#w := by
  intro h0
  have hparity := parity_reg (e := e) hp 0#w n
  have hzero : parity 0#w = 0 := by simp [parity]
  rw [h0, hzero, zero_add, Finset.sum_boole, ZMod.natCast_eq_one_iff_odd.2 hodd] at hparity
  exact absurd hparity (by decide)

/-! ### Two bits -/

theorem reg_single {a : ℕ} (ha : a < n) :
    reg p 0#w (fun i => decide (i = a)) n = (shift p)^[n - a] 1#w := by
  have hn : n = a + (1 + (n - a - 1)) := by omega
  have hbefore : reg p 0#w (fun i => decide (i = a)) a = 0#w := by
    rw [reg_false p 0#w fun i hi => by simp [Nat.ne_of_lt hi], iterate_shift_zero]
  have hbit : reg p 0#w (fun i => decide (a + i = a)) 1 = shift p 1#w := by simp [reg, bit]
  rw [hn, reg_add, hbefore, reg_add, hbit, reg_false p _ fun i _ => by simp,
    ← Function.iterate_succ_apply]
  congr 1
  omega

theorem reg_ne_zero_of_pair (hp : p.getLsbD (w - 1) = true) {a b : ℕ} (hab : a < b) (hb : b < n)
    (hpair : ∀ i < n, e i = true ↔ i = a ∨ i = b) (hback : (shift p)^[b - a] 1#w ≠ 1#w) :
    reg p 0#w e n ≠ 0#w := by
  have he : reg p 0#w e n = reg p (0#w ^^^ 0#w) (fun i => decide (i = a) ^^ decide (i = b)) n := by
    rw [BitVec.xor_self]
    refine reg_congr p _ fun i hi => ?_
    rw [Bool.eq_iff_iff, hpair i hi]
    by_cases h : i = a
    · simp [h, Nat.ne_of_lt hab]
    · simp [h]
  have hsplit : n - a = (n - b) + (b - a) := by omega
  rw [he, reg_xor, reg_single (by omega), reg_single hb, hsplit, Function.iterate_add_apply]
  intro h0
  exact hback ((shift_injective p hp).iterate (n - b) (BitVec.xor_eq_zero_iff.1 h0))

theorem iterate_ne_of_avoids {x s : BitVec w} (h : avoids p x n s = true) :
    ∀ d < n, (shift p)^[d] s ≠ x := by
  induction n generalizing s with
  | zero => simp
  | succ n ih =>
    simp only [avoids, Bool.and_eq_true, bne_iff_ne] at h
    intro d hd
    cases d with
    | zero => exact h.1
    | succ d =>
      rw [Function.iterate_succ_apply]
      exact ih h.2 d (by omega)

end Seen

end Lfsr
