import Mathlib.Data.List.Basic
import Mathlib.Tactic.Linarith

/-!
# Memory seen from a pointer

A buffer is what lies at each offset from its first element.  `slice` reads a run of it, `blit`
writes one, `copy` is a block copy between two buffers.  Nothing here bounds an offset: what lies
behind the end of a buffer is there to be read, which is what a statement about stale bytes needs.
-/

namespace Octets

universe u

/-- What lies at each offset from a pointer. -/
abbrev Mem (β : Type u) := ℕ → β

variable {β : Type u}

namespace Mem

/-- The `n` elements from `off` on. -/
def slice (m : Mem β) (off n : ℕ) : List β := (List.range n).map fun i => m (off + i)

/-- `m` with `xs` written from `off` on. -/
def blit (m : Mem β) (off : ℕ) (xs : List β) : Mem β :=
  fun i => if off ≤ i then (xs[i - off]?).getD (m i) else m i

/-- `dst` with its first `n` elements replaced by those of `src`. -/
def copy (dst src : Mem β) (n : ℕ) : Mem β := fun i => if i < n then src i else dst i

/-- The buffer seen from `off` elements further on. -/
def shift (m : Mem β) (off : ℕ) : Mem β := fun i => m (off + i)

/-- Two buffers with the same first `n` elements. -/
def Agree (n : ℕ) (m m' : Mem β) : Prop := ∀ i < n, m i = m' i

section Slice

variable (m m' : Mem β)

@[simp] theorem length_slice (off n : ℕ) : (slice m off n).length = n := by simp [slice]

@[simp] theorem slice_zero (off : ℕ) : slice m off 0 = [] := rfl

theorem getElem?_slice {off n i : ℕ} (h : i < n) : (slice m off n)[i]? = some (m (off + i)) := by
  simp [slice, h]

@[simp] theorem getElem_slice {off n i : ℕ} (h : i < (slice m off n).length) :
    (slice m off n)[i] = m (off + i) := by simp [slice]

theorem slice_add (off a b : ℕ) : slice m off (a + b) = slice m off a ++ slice m (off + a) b := by
  simp [slice, List.range_add, Function.comp_def, Nat.add_assoc]

theorem slice_succ (off n : ℕ) : slice m off (n + 1) = m off :: slice m (off + 1) n := by
  rw [Nat.add_comm, slice_add]
  rfl

theorem slice_shift (off k n : ℕ) : slice (shift m k) off n = slice m (k + off) n := by
  simp [slice, shift, Nat.add_assoc]

theorem take_slice {off n k : ℕ} (h : k ≤ n) : (slice m off n).take k = slice m off k := by
  obtain ⟨j, rfl⟩ := Nat.exists_eq_add_of_le h
  rw [slice_add, List.take_left' (length_slice m off k)]

theorem drop_slice {off n k : ℕ} (h : k ≤ n) :
    (slice m off n).drop k = slice m (off + k) (n - k) := by
  obtain ⟨j, rfl⟩ := Nat.exists_eq_add_of_le h
  rw [slice_add, List.drop_left' (length_slice m off k), Nat.add_sub_cancel_left]

theorem slice_eq_iff {off n : ℕ} {xs : List β} :
    slice m off n = xs ↔ xs.length = n ∧ ∀ i (h : i < xs.length), m (off + i) = xs[i] := by
  constructor
  · rintro rfl
    simp
  · rintro ⟨rfl, h⟩
    refine List.ext_getElem (by simp) fun i _ hi => ?_
    rw [getElem_slice, h i hi]

variable {m m'}

theorem slice_of_append {off n : ℕ} {pre xs post : List β}
    (h : slice m off n = pre ++ xs ++ post) : slice m (off + pre.length) xs.length = xs := by
  have hlen := congrArg List.length h
  rw [length_slice, List.length_append, List.length_append] at hlen
  rw [← take_slice m (n := n - pre.length) (by omega), ← drop_slice m (by omega), h,
    List.append_assoc, List.drop_left, List.take_left]

theorem slice_congr {off off' n : ℕ} (h : ∀ i < n, m (off + i) = m' (off' + i)) :
    slice m off n = slice m' off' n := by
  simp only [slice]
  exact List.map_congr_left fun i hi => h i (List.mem_range.1 hi)

theorem eq_of_slice_eq {off off' n : ℕ} (h : slice m off n = slice m' off' n) {i : ℕ}
    (hi : i < n) : m (off + i) = m' (off' + i) := by
  have := congrArg (·[i]?) h
  simpa [getElem?_slice _ hi] using this

theorem Agree.slice_eq {n off k : ℕ} (h : Agree n m m') (hk : off + k ≤ n) :
    slice m off k = slice m' off k :=
  slice_congr fun i hi => h _ (by omega)

theorem Agree.symm {n : ℕ} (h : Agree n m m') : Agree n m' m := fun i hi => (h i hi).symm

theorem Agree.trans {n : ℕ} {m'' : Mem β} (h : Agree n m m') (h' : Agree n m' m'') :
    Agree n m m'' := fun i hi => (h i hi).trans (h' i hi)

end Slice

section Blit

variable (m : Mem β)

theorem blit_of_lt {off i : ℕ} (xs : List β) (h : i < off) : blit m off xs i = m i := by
  simp [blit, Nat.not_le.2 h]

theorem blit_of_ge {off i : ℕ} {xs : List β} (h : off + xs.length ≤ i) : blit m off xs i = m i := by
  have h1 : off ≤ i := by omega
  have h2 : xs[i - off]? = none := by simp; omega
  simp [blit, h1, h2]

theorem blit_add {off i : ℕ} {xs : List β} (h : i < xs.length) :
    blit m off xs (off + i) = xs[i] := by simp [blit, h]

theorem blit_apply (off : ℕ) (xs : List β) (i : ℕ) :
    blit m off xs i = if h : off ≤ i ∧ i < off + xs.length then xs[i - off] else m i := by
  split_ifs with h
  · obtain ⟨j, rfl⟩ := Nat.exists_eq_add_of_le h.1
    rw [blit_add _ (by omega)]
    simp
  · rcases Nat.lt_or_ge i off with h' | h'
    · exact blit_of_lt m xs h'
    · exact blit_of_ge m (by omega)

/-- A run written over another of the same length. -/
theorem blit_blit {off : ℕ} {xs ys : List β} (h : xs.length = ys.length) :
    blit (blit m off xs) off ys = blit m off ys := by
  funext i
  simp only [blit_apply, h]
  split_ifs <;> rfl

/-- Writes to disjoint runs commute. -/
theorem blit_comm {a b : ℕ} {xs ys : List β} (h : a + xs.length ≤ b) :
    blit (blit m a xs) b ys = blit (blit m b ys) a xs := by
  funext i
  simp only [blit_apply]
  split_ifs with h1 h2 h2
  · omega
  · rfl
  · rfl
  · rfl

@[simp] theorem blit_nil (off : ℕ) : blit m off [] = m := by
  funext i
  simp [blit]

theorem blit_singleton (off : ℕ) (x : β) (i : ℕ) :
    blit m off [x] i = if i = off then x else m i := by
  rcases lt_trichotomy i off with h | rfl | h
  · rw [blit_of_lt _ _ h, if_neg h.ne]
  · simp [blit]
  · rw [blit_of_ge _ (by simp only [List.length_singleton]; omega), if_neg h.ne']

theorem blit_append (off : ℕ) (xs ys : List β) :
    blit m off (xs ++ ys) = blit (blit m off xs) (off + xs.length) ys := by
  funext i
  rcases Nat.lt_or_ge i off with h | h
  · rw [blit_of_lt _ _ h, blit_of_lt _ _ (by omega), blit_of_lt _ _ h]
  obtain ⟨j, rfl⟩ := Nat.exists_eq_add_of_le h
  rcases Nat.lt_or_ge j xs.length with hj | hj
  · rw [blit_add _ (by simp; omega), blit_of_lt _ _ (by omega), blit_add _ hj,
      List.getElem_append_left hj]
  obtain ⟨k, rfl⟩ := Nat.exists_eq_add_of_le hj
  rcases Nat.lt_or_ge k ys.length with hk | hk
  · rw [blit_add _ (by simp; omega), ← Nat.add_assoc, blit_add _ hk]
    simp
  · rw [blit_of_ge _ (by simp; omega), blit_of_ge _ (by omega), blit_of_ge _ (by omega)]

theorem blit_cons (off : ℕ) (x : β) (xs : List β) :
    blit m off (x :: xs) = blit (blit m off [x]) (off + 1) xs := blit_append m off [x] xs

@[simp] theorem slice_blit (off : ℕ) (xs : List β) : slice (blit m off xs) off xs.length = xs := by
  rw [slice_eq_iff]
  exact ⟨rfl, fun i hi => blit_add m hi⟩

theorem slice_blit_of_le {off k n : ℕ} (xs : List β) (h : k + n ≤ off) :
    slice (blit m off xs) k n = slice m k n :=
  slice_congr fun i hi => blit_of_lt m xs (by omega)

theorem slice_blit_of_ge {off k n : ℕ} {xs : List β} (h : off + xs.length ≤ k) :
    slice (blit m off xs) k n = slice m k n :=
  slice_congr fun i _ => blit_of_ge m (by omega)

/-- A run written right behind what the buffer begins with. -/
theorem slice_blit_append {k n : ℕ} {xs : List β} (ys : List β) (h : slice m 0 k = xs)
    (hn : n = k + ys.length) : slice (blit m k ys) 0 n = xs ++ ys := by
  subst hn
  rw [slice_add, slice_blit_of_le _ _ (by omega), Nat.zero_add, slice_blit, h]

end Blit

/-! ## What lies at a place -/

/-- The elements `xs` lie at `off`. -/
def At (m : Mem β) (off : ℕ) (xs : List β) : Prop := slice m off xs.length = xs

section At

variable {m m' : Mem β} {off : ℕ} {x : β} {xs ys : List β}

theorem at_append : At m off (xs ++ ys) ↔ At m off xs ∧ At m (off + xs.length) ys := by
  unfold At
  rw [List.length_append, slice_add]
  constructor
  · intro h
    exact List.append_inj h (length_slice m off xs.length)
  · rintro ⟨hx, hy⟩
    rw [hx, hy]

theorem at_cons : At m off (x :: xs) ↔ m off = x ∧ At m (off + 1) xs := by
  unfold At
  rw [List.length_cons, slice_succ, List.cons.injEq]

theorem at_blit : At (blit m off xs) off xs := slice_blit m off xs

theorem At.congr (h : At m off xs) (hm : ∀ i < xs.length, m' (off + i) = m (off + i)) :
    At m' off xs := by
  unfold At at *
  rw [slice_congr hm, h]

/-- A write changes nothing exactly if it writes what lies there. -/
theorem blit_eq_self_iff : blit m off xs = m ↔ At m off xs := by
  constructor
  · intro h
    rw [← h]
    exact at_blit
  · intro h
    funext i
    rw [blit_apply]
    split_ifs with hi
    · obtain ⟨hlen, hall⟩ := (slice_eq_iff m).1 h
      rw [← hall (i - off) (by omega), Nat.add_sub_cancel' hi.1]
    · rfl

/-- A write in front of what lies there. -/
theorem At.blit_le (h : At m off xs) {k : ℕ} {zs : List β} (hk : k + zs.length ≤ off) :
    At (blit m k zs) off xs :=
  h.congr fun i _ => blit_of_ge m (by omega)

end At

section Copy

variable (dst src : Mem β)

theorem slice_copy {n k : ℕ} (h : k ≤ n) : slice (copy dst src n) 0 k = slice src 0 k :=
  slice_congr fun i hi => by simp [copy, show i < n by omega]

theorem slice_copy_shift {off n : ℕ} :
    slice (copy dst (shift src off) n) 0 n = slice src off n := by
  rw [slice_copy dst _ le_rfl, slice_shift, Nat.add_zero]

end Copy

end Mem

end Octets
