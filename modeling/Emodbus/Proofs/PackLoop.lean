import Emodbus.Lib.Bits
import Emodbus.ServerT

/-!
# The packing and unpacking loops

Whatever bits they are given, the packing loops leave `pack` of them, and the unpacking loop puts
`unpack` of the bytes over the values.
-/

namespace Emodbus

open Octets

/-- The bits of `1 << n` in a byte. -/
theorem getLsbD_one_shiftLeft (n : ℕ) {i : ℕ} (hi : i < 8) :
    (BitVec.ofNat 8 (1 <<< n)).getLsbD i = decide (i = n) := by
  rw [BitVec.getLsbD_ofNat, decide_eq_true hi, Bool.true_and, Nat.one_shiftLeft,
    Nat.testBit_two_pow]
  simp only [eq_comm]

theorem getLsbD_packByte (bit : ℕ → Bool) (n : ℕ) {i : ℕ} (hi : i < 8) :
    (packByte bit n).getLsbD i = (decide (i < n) && bit i) := by
  unfold packByte
  induction n with
  | zero => simp
  | succ n ih =>
    rw [List.range_succ, List.foldl_append, List.foldl_cons, List.foldl_nil]
    by_cases hn : i = n
    · subst hn
      have hlt : ¬ i < i := Nat.lt_irrefl i
      rw [decide_eq_true (Nat.lt_succ_self i), Bool.true_and]
      rw [decide_eq_false hlt, Bool.false_and] at ih
      cases hbit : bit i with
      | true =>
        rw [if_pos rfl]
        exact (BitVec.getLsbD_or ..).trans (by rw [getLsbD_one_shiftLeft i hi]; simp)
      | false => rwa [if_neg (by simp)]
    · have hlt : i < n + 1 ↔ i < n := by omega
      simp only [hlt, ← ih]
      split_ifs with hbit
      · refine (BitVec.getLsbD_or ..).trans ?_
        rw [getLsbD_one_shiftLeft n hi, decide_eq_false hn, Bool.or_false]
      · rfl

theorem packByte_eq (bit : ℕ → Bool) (n : ℕ) :
    packByte bit n = byteOf fun i => decide (i < n) && bit i := by
  refine BitVec.eq_of_getLsbD_eq fun i hi => ?_
  rw [getLsbD_packByte bit n hi, getLsbD_byteOf _ hi]

theorem packLoop_eq (bit : ℕ → Bool) :
    ∀ (fuel byte quantity : ℕ), quantity ≤ fuel →
      packLoop bit fuel byte quantity = pack (fun i => bit (byte * 8 + i)) quantity
  | 0, byte, quantity, h => by
    obtain rfl : quantity = 0 := by omega
    rfl
  | fuel + 1, byte, quantity, h => by
    unfold packLoop
    by_cases h0 : quantity = 0
    · rw [if_pos h0, h0]
      rfl
    · have hrest : quantity - min 8 quantity = quantity - 8 := by omega
      rw [if_neg h0, pack_eq_cons _ (Nat.pos_of_ne_zero h0)]
      dsimp only
      rw [packLoop_eq bit fuel (byte + 1) _ (by omega), hrest, packByte_eq]
      have hhead : (byteOf fun i => decide (i < min 8 quantity) && bit (byte * 8 + i))
          = byteOf fun i => decide (i < quantity) && bit (byte * 8 + i) := by
        refine byteOf_congr fun i hi => ?_
        have hlt : i < min 8 quantity ↔ i < quantity := by omega
        simp only [hlt]
      have hplace : ∀ i, (byte + 1) * 8 + i = byte * 8 + (8 + i) := fun i => by omega
      simp only [hhead, hplace]

theorem and_one_shiftLeft (value : Byte) {i : ℕ} (hi : i < 8) :
    (value &&& BitVec.ofNat 8 (1 <<< i) != 0) = value.getLsbD i := by
  have hbit : ∀ j < 8, (value &&& BitVec.ofNat 8 (1 <<< i)).getLsbD j
      = (value.getLsbD i && decide (j = i)) := by
    intro j hj
    refine (BitVec.getLsbD_and ..).trans ?_
    rw [getLsbD_one_shiftLeft i hj]
    by_cases hij : j = i
    · rw [hij]
    · rw [decide_eq_false hij, Bool.and_false, Bool.and_false]
  cases hv : value.getLsbD i with
  | true =>
    have hne : value &&& BitVec.ofNat 8 (1 <<< i) ≠ 0 := by
      intro h0
      have hset := hbit i hi
      rw [h0, hv] at hset
      simp at hset
    simpa using hne
  | false =>
    have hzero : value &&& BitVec.ofNat 8 (1 <<< i) = 0 := by
      refine BitVec.eq_of_getLsbD_eq fun j hj => ?_
      rw [hbit j hj, hv, Bool.false_and]
      simp
    rw [hzero]
    rfl

theorem unpackByte_eq (value : Byte) (place : ℕ) (values : List Bool) :
    ∀ n ≤ 8, unpackByte value place n values
      = overwrite values place ((List.range n).map fun i => value.getLsbD i)
  | 0, _ => (overwrite_nil values place).symm
  | n + 1, h => by
    have ih := unpackByte_eq value place values n (by omega)
    unfold unpackByte at ih ⊢
    rw [List.range_succ, List.foldl_append, ih, List.foldl_cons, List.foldl_nil,
      and_one_shiftLeft value (by omega), List.map_append, overwrite_append, List.length_map,
      List.length_range]
    exact (overwrite_singleton _ _ _).symm

theorem unpackLoop_eq (pvalues : List Byte) (offset : ℕ) :
    ∀ (fuel byte quantity : ℕ) (values : List Bool), quantity ≤ fuel →
      unpackLoop pvalues offset fuel byte quantity values
        = overwrite values (offset + byte * 8)
          ((List.range quantity).map fun i => bitAt pvalues (byte * 8 + i))
  | 0, byte, quantity, values, h => by
    obtain rfl : quantity = 0 := by omega
    exact (overwrite_nil values _).symm
  | fuel + 1, byte, quantity, values, h => by
    unfold unpackLoop
    by_cases h0 : quantity = 0
    · rw [if_pos h0, h0]
      exact (overwrite_nil values _).symm
    · have hbits : (List.range (min 8 quantity)).map (fun i => (pvalues.getD byte 0).getLsbD i)
          = (List.range (min 8 quantity)).map fun i => bitAt pvalues (byte * 8 + i) := by
        refine List.map_congr_left fun i hi => ?_
        have hi := List.mem_range.1 hi
        have hdiv : (byte * 8 + i) / 8 = byte := by omega
        have hmod : (byte * 8 + i) % 8 = i := by omega
        rw [bitAt, hdiv, hmod]
      rw [if_neg h0]
      dsimp only
      rw [unpackLoop_eq pvalues offset fuel (byte + 1) _ _ (by omega),
        unpackByte_eq _ _ _ _ (by omega), hbits]
      rcases Nat.lt_or_ge quantity 8 with hlt | hge
      · -- this is the last byte
        have hmin : min 8 quantity = quantity := by omega
        rw [hmin, Nat.sub_self]
        exact overwrite_nil _ _
      · have hmin : min 8 quantity = 8 := by omega
        have hsplit : quantity = 8 + (quantity - 8) := by omega
        have hplace : offset + (byte + 1) * 8 = offset + byte * 8 + 8 := by omega
        have hnext : ∀ i, (byte + 1) * 8 + i = byte * 8 + (8 + i) := fun i => by omega
        rw [hmin]
        conv_rhs => rw [hsplit, List.range_add, List.map_append, overwrite_append]
        simp only [List.length_map, List.length_range, List.map_map, Function.comp_def, hplace,
          hnext]

end Emodbus
