import Emodbus.Lib.Memory
import Emodbus.Lib.Words

/-!
# Words in a byte buffer

Each word takes two bytes, high byte first (`be`) or low byte first (`le`).  `swapWords` exchanges
the bytes of each word of a run in place, which turns one order into the other.
-/

namespace Octets

namespace Mem

/-- The bytes of the words, high byte first. -/
def be : List Word → List Byte
  | [] => []
  | w :: ws => w.hi :: w.lo :: be ws

/-- The bytes of the words, low byte first. -/
def le : List Word → List Byte
  | [] => []
  | w :: ws => w.lo :: w.hi :: le ws

def beWord (m : Mem Byte) (off : ℕ) : Word := Word.ofBytes (m off) (m (off + 1))

def leWord (m : Mem Byte) (off : ℕ) : Word := Word.ofBytes (m (off + 1)) (m off)

/-- The `n` words from `off` on, each high byte first. -/
def beWords (m : Mem Byte) (off n : ℕ) : List Word :=
  (List.range n).map fun i => beWord m (off + 2 * i)

/-- The `n` words from `off` on, each low byte first. -/
def leWords (m : Mem Byte) (off n : ℕ) : List Word :=
  (List.range n).map fun i => leWord m (off + 2 * i)

/-- `m` with the bytes of the `n` words from `off` on exchanged. -/
def swapWords (m : Mem Byte) (off : ℕ) : ℕ → Mem Byte
  | 0 => m
  | n + 1 => swapWords (blit m off [m (off + 1), m off]) (off + 2) n

@[simp] theorem length_be (ws : List Word) : (be ws).length = 2 * ws.length := by
  induction ws with
  | nil => rfl
  | cons w ws ih => simp only [be, List.length_cons, ih]; omega

@[simp] theorem length_le (ws : List Word) : (le ws).length = 2 * ws.length := by
  induction ws with
  | nil => rfl
  | cons w ws ih => simp only [le, List.length_cons, ih]; omega

variable (m : Mem Byte)

@[simp] theorem length_beWords (off n : ℕ) : (beWords m off n).length = n := by simp [beWords]

@[simp] theorem getElem_beWords {off n i : ℕ} (h : i < (beWords m off n).length) :
    (beWords m off n)[i] = beWord m (off + 2 * i) := by simp [beWords]

theorem beWords_succ (off n : ℕ) :
    beWords m off (n + 1) = beWord m off :: beWords m (off + 2) n := by
  simp [beWords, List.range_succ_eq_map, Function.comp_def, Nat.mul_add, Nat.add_assoc,
    Nat.add_comm 2]

theorem swap_leWord (off : ℕ) : (leWord m off).swap = beWord m off := by
  simp [leWord, beWord]

variable {m}

theorem beWord_congr {m' : Mem Byte} {off off' : ℕ} (h0 : m off = m' off')
    (h1 : m (off + 1) = m' (off' + 1)) : beWord m off = beWord m' off' := by
  rw [beWord, beWord, h0, h1]

theorem Agree.beWord_eq {m' : Mem Byte} {n off : ℕ} (h : Agree n m m') (ho : off + 2 ≤ n) :
    beWord m off = beWord m' off :=
  beWord_congr (h _ (by omega)) (h _ (by omega))

theorem Agree.beWords_eq {m' : Mem Byte} {n off k : ℕ} (h : Agree n m m')
    (ho : off + 2 * k ≤ n) : beWords m off k = beWords m' off k :=
  List.map_congr_left fun i hi => h.beWord_eq (by have := List.mem_range.1 hi; omega)

variable (m)

/-- The bytes of a run of words, as they lie in the buffer. -/
theorem be_beWords (off n : ℕ) : be (beWords m off n) = slice m off (2 * n) := by
  induction n generalizing off with
  | zero => rfl
  | succ n ih =>
    rw [beWords_succ, be, ih, Nat.mul_add, Nat.mul_one, slice_succ, slice_succ]
    simp [beWord, Nat.add_assoc]

theorem be_append (ws ws' : List Word) : be (ws ++ ws') = be ws ++ be ws' := by
  induction ws with
  | nil => rfl
  | cons w ws ih => rw [List.cons_append, be, be, ih, List.cons_append, List.cons_append]

theorem be_injective : ∀ {ws ws' : List Word}, be ws = be ws' → ws = ws'
  | [], [], _ => rfl
  | [], _ :: _, h => by simp [be] at h
  | _ :: _, [], h => by simp [be] at h
  | w :: ws, w' :: ws', h => by
    simp only [be, List.cons.injEq] at h
    obtain ⟨hhi, hlo, hws⟩ := h
    have hw : w = w' := by rw [← Word.ofBytes_hi_lo w, hhi, hlo, Word.ofBytes_hi_lo]
    rw [hw, be_injective hws]

/-- The words of a run of bytes with others around it. -/
theorem beWords_of_slice {m : Mem Byte} {n : ℕ} {pre post : List Byte} {ws : List Word}
    (h : slice m 0 n = pre ++ be ws ++ post) : beWords m pre.length ws.length = ws := by
  have hrun := slice_of_append h
  rw [Nat.zero_add, length_be] at hrun
  apply be_injective
  rw [be_beWords, hrun]

theorem At.beWords {m : Mem Byte} {off : ℕ} {ws : List Word} (h : At m off (be ws)) :
    beWords m off ws.length = ws := by
  unfold At at h
  rw [length_be] at h
  apply be_injective
  rw [be_beWords, h]

theorem At.beWord {m : Mem Byte} {off : ℕ} {w : Word} (h : At m off (be [w])) :
    beWord m off = w := by
  have hw : Mem.beWords m off 1 = [w] := h.beWords
  exact List.head_eq_of_cons_eq hw

/-- What `swapWords` leaves at each offset. -/
theorem swapWords_apply (off n i : ℕ) :
    swapWords m off n i = if off ≤ i ∧ i < off + 2 * n then
      (if (i - off) % 2 = 0 then m (i + 1) else m (i - 1)) else m i := by
  induction n generalizing m off with
  | zero => rw [swapWords, if_neg (by omega)]
  | succ n ih =>
    rw [swapWords, ih]
    by_cases h0 : i < off
    · rw [if_neg (by omega), if_neg (by omega), blit_of_lt _ _ h0]
    by_cases h1 : off + 2 ≤ i
    · have hb : ∀ j, off + 2 ≤ j → blit m off [m (off + 1), m off] j = m j :=
        fun j hj => blit_of_ge m hj
      have hin : (off + 2 ≤ i ∧ i < off + 2 + 2 * n) ↔ (off ≤ i ∧ i < off + 2 * (n + 1)) := by omega
      have hpar : (i - (off + 2)) % 2 = (i - off) % 2 := by omega
      simp only [hin, hpar]
      split_ifs with h2 hp
      · exact hb _ (by omega)
      · exact hb _ (by omega)
      · exact hb _ h1
    · rw [if_neg (by omega), if_pos (by omega)]
      obtain rfl | rfl : i = off ∨ i = off + 1 := by omega
      · simp [blit]
      · rw [if_neg (by omega), Nat.add_sub_cancel]
        simp [blit]

theorem swapWords_of_ge {off n i : ℕ} (h : off + 2 * n ≤ i) : swapWords m off n i = m i := by
  rw [swapWords_apply, if_neg (by omega)]

/-- After the swap the host's words are the ones that were there high byte first. -/
theorem leWords_swapWords (off n : ℕ) : leWords (swapWords m off n) off n = beWords m off n := by
  refine List.map_congr_left fun i hi => ?_
  have hi := List.mem_range.1 hi
  have h0 : swapWords m off n (off + 2 * i) = m (off + 2 * i + 1) := by
    rw [swapWords_apply, if_pos ⟨by omega, by omega⟩, if_pos (by omega)]
  have h1 : swapWords m off n (off + 2 * i + 1) = m (off + 2 * i) := by
    rw [swapWords_apply, if_pos ⟨by omega, by omega⟩, if_neg (by omega), Nat.add_sub_cancel]
  rw [leWord, beWord, h0, h1]

/-- The swap of the words that are there low byte first. -/
theorem beWord_swapWords {off n i : ℕ} (h : i < n) :
    beWord (swapWords m off n) (off + 2 * i) = leWord m (off + 2 * i) := by
  have h0 : swapWords m off n (off + 2 * i) = m (off + 2 * i + 1) := by
    rw [swapWords_apply, if_pos ⟨by omega, by omega⟩, if_pos (by omega)]
  have h1 : swapWords m off n (off + 2 * i + 1) = m (off + 2 * i) := by
    rw [swapWords_apply, if_pos ⟨by omega, by omega⟩, if_neg (by omega), Nat.add_sub_cancel]
  rw [leWord, beWord, h0, h1]

/-- Words written low byte first and then swapped lie there high byte first. -/
theorem swapWords_blit_le (off : ℕ) (ws : List Word) :
    swapWords (blit m off (le ws)) off ws.length = blit m off (be ws) := by
  induction ws generalizing m off with
  | nil => rfl
  | cons w ws ih =>
    have hle : blit m off (le (w :: ws)) = blit (blit m off [w.lo, w.hi]) (off + 2) (le ws) :=
      blit_append m off [w.lo, w.hi] (le ws)
    have hbe : blit m off (be (w :: ws)) = blit (blit m off [w.hi, w.lo]) (off + 2) (be ws) :=
      blit_append m off [w.hi, w.lo] (be ws)
    have h1 : blit m off (le (w :: ws)) (off + 1) = w.hi := blit_add m (i := 1) (by simp [le])
    have h0 : blit m off (le (w :: ws)) off = w.lo := blit_add m (i := 0) (by simp [le])
    have hpair : blit (blit (blit m off [w.lo, w.hi]) (off + 2) (le ws)) off [w.hi, w.lo]
        = blit (blit m off [w.hi, w.lo]) (off + 2) (le ws) :=
      calc _ = blit (blit (blit m off [w.lo, w.hi]) off [w.hi, w.lo]) (off + 2) (le ws) :=
            (blit_comm _ (a := off) (b := off + 2) le_rfl).symm
        _ = _ := by rw [blit_blit m (show [w.lo, w.hi].length = [w.hi, w.lo].length from rfl)]
    rw [List.length_cons, swapWords, h1, h0, hle, hbe, ← ih, hpair]

end Mem

end Octets
