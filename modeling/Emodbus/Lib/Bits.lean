import Emodbus.Lib.Memory
import Emodbus.Lib.Words
import Mathlib.Data.Finset.Basic

/-!
# Bits packed into bytes

Eight bits a byte, the first one lowest, and zeros behind the last.  What is packed is read back bit
by bit (`bitAt_pack`), and so all at once (`unpack_pack`).
-/

namespace Octets

/-- The byte of these eight bits. -/
def byteOf (bit : ℕ → Bool) : Byte :=
  BitVec.ofBoolListLE [bit 0, bit 1, bit 2, bit 3, bit 4, bit 5, bit 6, bit 7]

/-- The first `n` bits in bytes. -/
def pack (bit : ℕ → Bool) (n : ℕ) : List Byte :=
  (List.range ((n + 7) / 8)).map fun j => byteOf fun i => decide (8 * j + i < n) && bit (8 * j + i)

/-- The bit at place `k` of the bytes, `false` behind their end. -/
def bitAt (bytes : List Byte) (k : ℕ) : Bool := (bytes.getD (k / 8) 0).getLsbD (k % 8)

/-- The first `n` bits of the bytes. -/
def unpack (bytes : List Byte) (n : ℕ) : List Bool := (List.range n).map (bitAt bytes)

theorem getLsbD_byteOf (bit : ℕ → Bool) {i : ℕ} (hi : i < 8) : (byteOf bit).getLsbD i = bit i := by
  have hbits : [bit 0, bit 1, bit 2, bit 3, bit 4, bit 5, bit 6, bit 7] = (List.range 8).map bit :=
    rfl
  have hlsb : (byteOf bit).getLsbD i
      = [bit 0, bit 1, bit 2, bit 3, bit 4, bit 5, bit 6, bit 7].getD i false :=
    BitVec.getLsbD_ofBoolListLE
  rw [hlsb, hbits, List.getD_eq_getElem?_getD, List.getElem?_map, List.getElem?_range hi]
  rfl

theorem byteOf_congr {bit bit' : ℕ → Bool} (h : ∀ i < 8, bit i = bit' i) :
    byteOf bit = byteOf bit' := by
  refine BitVec.eq_of_getLsbD_eq fun i hi => ?_
  rw [getLsbD_byteOf bit hi, getLsbD_byteOf bit' hi, h i hi]

@[simp] theorem length_pack (bit : ℕ → Bool) (n : ℕ) : (pack bit n).length = (n + 7) / 8 := by
  simp [pack]

@[simp] theorem length_unpack (bytes : List Byte) (n : ℕ) : (unpack bytes n).length = n := by
  simp [unpack]

theorem pack_congr {bit bit' : ℕ → Bool} {n : ℕ} (h : ∀ i < n, bit i = bit' i) :
    pack bit n = pack bit' n := by
  refine List.map_congr_left fun j _ => byteOf_congr fun i _ => ?_
  by_cases hlt : 8 * j + i < n
  · rw [h _ hlt]
  · rw [decide_eq_false hlt, Bool.false_and, Bool.false_and]

/-- The first byte, and the bytes of the bits from the ninth on. -/
theorem pack_eq_cons (bit : ℕ → Bool) {n : ℕ} (h : 0 < n) :
    pack bit n = byteOf (fun i => decide (i < n) && bit i)
      :: pack (fun i => bit (8 + i)) (n - 8) := by
  have hlen : (n + 7) / 8 = (n - 8 + 7) / 8 + 1 := by omega
  have hhead : byteOf (fun i => decide (8 * 0 + i < n) && bit (8 * 0 + i))
      = byteOf fun i => decide (i < n) && bit i := by
    simp only [Nat.mul_zero, Nat.zero_add]
  have htail : ∀ j, byteOf (fun i => decide (8 * (j + 1) + i < n) && bit (8 * (j + 1) + i))
      = byteOf fun i => decide (8 * j + i < n - 8) && bit (8 + (8 * j + i)) := by
    intro j
    refine byteOf_congr fun i _ => ?_
    have hi : 8 * (j + 1) + i = 8 + (8 * j + i) := by omega
    have hlt : 8 + (8 * j + i) < n ↔ 8 * j + i < n - 8 := by omega
    simp only [hi, hlt]
  unfold pack
  rw [hlen, List.range_succ_eq_map, List.map_cons, List.map_map, hhead]
  exact congrArg _ (List.map_congr_left fun j _ => htail j)

theorem bitAt_pack (bit : ℕ → Bool) {n k : ℕ} (h : k < n) : bitAt (pack bit n) k = bit k := by
  have hj : k / 8 < (n + 7) / 8 := by omega
  have hk : 8 * (k / 8) + k % 8 = k := by omega
  unfold bitAt pack
  rw [List.getD_eq_getElem?_getD, List.getElem?_map, List.getElem?_range hj, Option.map_some,
    Option.getD_some, getLsbD_byteOf _ (by omega), hk, decide_eq_true h, Bool.true_and]

theorem unpack_pack (bit : ℕ → Bool) (n : ℕ) : unpack (pack bit n) n = Mem.slice bit 0 n := by
  refine List.map_congr_left fun k hk => ?_
  rw [bitAt_pack bit (List.mem_range.1 hk), Nat.zero_add]

/-! ## Bytes bit by bit -/

theorem bitAt_of_ge {bytes : List Byte} {k : ℕ} (h : 8 * bytes.length ≤ k) :
    bitAt bytes k = false := by
  unfold bitAt
  rw [List.getD_eq_getElem?_getD, List.getElem?_eq_none (by omega)]
  exact BitVec.getLsbD_zero

theorem bitAt_cons_of_lt (b : Byte) (bytes : List Byte) {k : ℕ} (h : k < 8) :
    bitAt (b :: bytes) k = b.getLsbD k := by
  unfold bitAt
  rw [Nat.div_eq_of_lt h, Nat.mod_eq_of_lt h]
  rfl

theorem bitAt_cons_add (b : Byte) (bytes : List Byte) (k : ℕ) :
    bitAt (b :: bytes) (8 + k) = bitAt bytes k := by
  unfold bitAt
  rw [Nat.add_comm 8 k, Nat.add_div_right k (by decide), Nat.add_mod_right]
  rfl

/-- Bytes are the same if their bits are. -/
theorem eq_of_bitAt_eq {bytes bytes' : List Byte} (hlen : bytes.length = bytes'.length)
    (h : ∀ k, bitAt bytes k = bitAt bytes' k) : bytes = bytes' := by
  refine List.ext_getElem hlen fun j hj hj' => ?_
  refine BitVec.eq_of_getLsbD_eq fun i hi => ?_
  have hbit := h (8 * j + i)
  unfold bitAt at hbit
  have hdiv : (8 * j + i) / 8 = j := by omega
  have hmod : (8 * j + i) % 8 = i := by omega
  rw [hdiv, hmod] at hbit
  simpa [List.getD_eq_getElem?_getD, hj, hj'] using hbit

/-- The bytes with the bits at these places inverted. -/
def flipBits (places : Finset ℕ) (bytes : List Byte) : List Byte :=
  pack (fun k => bitAt bytes k ^^ decide (k ∈ places)) (8 * bytes.length)

@[simp] theorem length_flipBits (places : Finset ℕ) (bytes : List Byte) :
    (flipBits places bytes).length = bytes.length := by
  rw [flipBits, length_pack]
  omega

theorem bitAt_flipBits (places : Finset ℕ) {bytes : List Byte} {k : ℕ}
    (h : k < 8 * bytes.length) :
    bitAt (flipBits places bytes) k = (bitAt bytes k ^^ decide (k ∈ places)) :=
  bitAt_pack _ h

end Octets
