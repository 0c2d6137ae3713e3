import Emodbus.Lib.Memory

/-!
# Blocks of a flat memory

An address space can be kept in blocks, each a vector of values from a first address on.  Where no
two blocks overlap, the blocks are one flat memory: a range inside a block reads what the memory
holds there, and a write into a block is the write into the memory.
-/

namespace Octets

universe u

variable {β : Type u}

/-- `xs` with `ys` put over what is there from `off` on; what does not fit is lost. -/
def overwrite (xs : List β) (off : ℕ) (ys : List β) : List β :=
  xs.mapIdx fun i x => if off ≤ i then (ys[i - off]?).getD x else x

@[simp] theorem length_overwrite (xs : List β) (off : ℕ) (ys : List β) :
    (overwrite xs off ys).length = xs.length := by simp [overwrite]

theorem overwrite_slice (m : Mem β) (start n off : ℕ) (ys : List β) :
    overwrite (Mem.slice m start n) off ys
      = Mem.slice (Mem.blit m (start + off) ys) start n := by
  refine List.ext_getElem (by simp) fun i h1 h2 => ?_
  simp only [overwrite, List.getElem_mapIdx, Mem.getElem_slice, Mem.blit]
  by_cases hoff : off ≤ i
  · rw [if_pos hoff, if_pos (by omega), Nat.add_sub_add_left]
  · rw [if_neg hoff, if_neg (by omega)]

theorem overwrite_nil (xs : List β) (off : ℕ) : overwrite xs off [] = xs := by
  refine List.ext_getElem (by simp) fun i _ _ => ?_
  simp [overwrite]

/-- Two runs, one right behind the other. -/
theorem overwrite_append (xs : List β) (off : ℕ) (ys zs : List β) :
    overwrite xs off (ys ++ zs) = overwrite (overwrite xs off ys) (off + ys.length) zs := by
  refine List.ext_getElem (by simp) fun i _ _ => ?_
  simp only [overwrite, List.getElem_mapIdx]
  by_cases h1 : off ≤ i
  · by_cases h2 : off + ys.length ≤ i
    · have hnone : ys[i - off]? = none := by rw [List.getElem?_eq_none_iff]; omega
      rw [if_pos h1, if_pos h2, if_pos h1, List.getElem?_append_right (by omega), hnone,
        Nat.sub_sub]
      rfl
    · rw [if_pos h1, if_neg h2, if_pos h1, List.getElem?_append_left (by omega)]
  · rw [if_neg h1, if_neg (by omega), if_neg h1]

theorem overwrite_singleton (xs : List β) (off : ℕ) (y : β) :
    overwrite xs off [y] = xs.set off y := by
  refine List.ext_getElem (by simp) fun i _ _ => ?_
  simp only [overwrite, List.getElem_mapIdx, List.getElem_set]
  by_cases h : off = i
  · subst h
    simp
  · rw [if_neg h]
    by_cases h1 : off ≤ i
    · have hnone : [y][i - off]? = none := by
        rw [List.getElem?_eq_none_iff, List.length_singleton]
        omega
      rw [if_pos h1, hnone]
      rfl
    · rw [if_neg h1]

/-- The values from the address `start` on. -/
structure Block (β : Type u) where
  start : ℕ
  values : List β

namespace Block

/-- The addresses from `a` on, `n` of them, are all in the block. -/
structure Covers (b : Block β) (a n : ℕ) : Prop where
  start_le : b.start ≤ a
  le_stop : a + n ≤ b.start + b.values.length

/-- No address is in both blocks. -/
def Apart (b b' : Block β) : Prop :=
  b.start + b.values.length ≤ b'.start ∨ b'.start + b'.values.length ≤ b.start

/-- The block holds what the memory does. -/
def Holds (b : Block β) (m : Mem β) : Prop := b.values = Mem.slice m b.start b.values.length

variable {b b' : Block β} {m : Mem β} {a n : ℕ}

theorem Apart.not_covers (h : b.Apart b') (hc : b.Covers a n) (hn : 1 ≤ n) (n' : ℕ) (hn' : 1 ≤ n') :
    ¬ b'.Covers a n' := by
  rintro ⟨h1, h2⟩
  obtain ⟨h3, h4⟩ := hc
  rcases h with h | h <;> omega

theorem Holds.read (h : b.Holds m) (hc : b.Covers a n) :
    (b.values.drop (a - b.start)).take n = Mem.slice m a n := by
  obtain ⟨h1, h2⟩ := hc
  rw [h, Mem.drop_slice m (by omega), Mem.take_slice m (by omega), Nat.add_sub_cancel' h1]

theorem Holds.overwrite (h : b.Holds m) (ha : b.start ≤ a) (ys : List β) :
    (Block.mk b.start (overwrite b.values (a - b.start) ys)).Holds (Mem.blit m a ys) := by
  unfold Holds
  rw [length_overwrite]
  conv_lhs => rw [h]
  rw [overwrite_slice, Nat.add_sub_cancel' ha]

theorem Holds.blit_apart (h : b'.Holds m) (hap : b.Apart b') {ys : List β}
    (hc : b.Covers a ys.length) : b'.Holds (Mem.blit m a ys) := by
  obtain ⟨h1, h2⟩ := hc
  unfold Holds
  rcases hap with hap | hap
  · rw [Mem.slice_blit_of_ge _ (by omega)]
    exact h
  · rw [Mem.slice_blit_of_le _ _ (by omega)]
    exact h

end Block

/-- Blocks that share no address. -/
def Blocks.Apart (bs : List (Block β)) : Prop := bs.Pairwise Block.Apart

/-- Every block holds what the memory does. -/
def Blocks.Hold (bs : List (Block β)) (m : Mem β) : Prop := ∀ b ∈ bs, b.Holds m

section Blocks

variable {bs : List (Block β)} {m : Mem β} {a : ℕ}

theorem Blocks.Apart.getElem (h : Blocks.Apart bs) {i j : ℕ} (hi : i < bs.length)
    (hj : j < bs.length) (hne : i ≠ j) : bs[i].Apart bs[j] := by
  unfold Blocks.Apart at h
  rw [List.pairwise_iff_getElem] at h
  rcases Nat.lt_or_gt_of_ne hne with hlt | hlt
  · exact h i j hi hj hlt
  · exact (h j i hj hi hlt).symm

/-- An address is in one block only. -/
theorem Blocks.Apart.index_eq (h : Blocks.Apart bs) {i j n n' : ℕ} (hi : i < bs.length)
    (hj : j < bs.length) (hci : bs[i].Covers a n) (hcj : bs[j].Covers a n') (hn : 1 ≤ n)
    (hn' : 1 ≤ n') : i = j := by
  by_contra hne
  exact (h.getElem hi hj hne).not_covers hci hn n' hn' hcj

/-- Apart is a matter of where the blocks are. -/
theorem Blocks.Apart.set (h : Blocks.Apart bs) {k : ℕ} (hk : k < bs.length) {values : List β}
    (hlen : values.length = bs[k].values.length) :
    Blocks.Apart (bs.set k ⟨bs[k].start, values⟩) := by
  unfold Blocks.Apart
  rw [List.pairwise_iff_getElem]
  intro i j hi hj hij
  rw [List.length_set] at hi hj
  have hne := h.getElem hi hj (by omega)
  rw [List.getElem_set, List.getElem_set]
  split_ifs with h1 h2 h2
  · omega
  · subst h1
    unfold Block.Apart at hne ⊢
    rwa [hlen]
  · subst h2
    unfold Block.Apart at hne ⊢
    rwa [hlen]
  · exact hne

/-- A write into one of the blocks. -/
theorem Blocks.Hold.overwrite (h : Blocks.Hold bs m) (hap : Blocks.Apart bs) {k : ℕ}
    (hk : k < bs.length) {ys : List β} (hc : bs[k].Covers a ys.length) :
    Blocks.Hold (bs.set k ⟨bs[k].start, Octets.overwrite bs[k].values (a - bs[k].start) ys⟩)
      (Mem.blit m a ys) := by
  intro b hb
  obtain ⟨i, hi, rfl⟩ := List.getElem_of_mem hb
  rw [List.getElem_set]
  rw [List.length_set] at hi
  split_ifs with hik
  · exact (h _ (List.getElem_mem hk)).overwrite hc.start_le ys
  · exact (h _ (List.getElem_mem hi)).blit_apart (hap.getElem hk hi hik) hc

end Blocks

end Octets
