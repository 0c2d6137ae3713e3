import Mathlib.Data.List.Basic
import Mathlib.Logic.Function.Basic

/-!
# Chains of links

Every node has a link to another node or to none.  `Chain nxt a xs` says that the links from `a` on
lead through `xs` and then to nothing.  A walk along a chain ends, before the first node it is to
stop at or at the chain's end; the links that are not those of the chain do not matter to it.
-/

namespace Links

variable {ν : Type*}

def Chain (nxt : ν → Option ν) : ν → List ν → Prop
  | a, [] => nxt a = none
  | a, x :: xs => nxt a = some x ∧ Chain nxt x xs

/-- Goes on from `i` until the next node is one to stop at, or there is none. -/
def walk (nxt : ν → Option ν) (stop : ν → Bool) : ℕ → ν → Option ν
  | 0, _ => none
  | fuel + 1, i =>
    match nxt i with
    | none => some i
    | some j => if stop j then some i else walk nxt stop fuel j

variable {nxt nxt' : ν → Option ν} {stop : ν → Bool} {a : ν}

@[simp] theorem chain_nil : Chain nxt a [] ↔ nxt a = none := Iff.rfl

@[simp] theorem chain_cons {x : ν} {xs : List ν} :
    Chain nxt a (x :: xs) ↔ nxt a = some x ∧ Chain nxt x xs := Iff.rfl

/-- A chain is where it was as long as the links of its nodes are what they were. -/
theorem Chain.congr : ∀ {xs : List ν} {a : ν}, Chain nxt a xs →
    (∀ x ∈ a :: xs, nxt' x = nxt x) → Chain nxt' a xs
  | [], a, h, hsame => by
    rw [chain_nil, hsame a (by simp)]
    exact h
  | x :: xs, a, h, hsame => by
    refine ⟨?_, h.2.congr fun y hy => hsame y (List.mem_cons_of_mem _ hy)⟩
    rw [hsame a (by simp)]
    exact h.1

theorem ne_getLastD {x : ν} {xs ys : List ν} (h : a ∉ x :: (xs ++ ys)) : a ≠ xs.getLastD x := by
  rintro rfl
  refine h ?_
  rw [← List.cons_append]
  exact List.mem_append_left _ List.getLastD_mem_cons

/-- Behind the nodes of `xs` the chain goes on from the last of them. -/
theorem Chain.behind : ∀ {xs ys : List ν} {a : ν}, Chain nxt a (xs ++ ys) →
    Chain nxt (xs.getLastD a) ys
  | [], _, _, h => h
  | x :: xs, ys, a, h => by
    rw [List.getLastD_cons]
    exact Chain.behind h.2

/-! ## Walks -/

/-- A walk that has nothing to stop at ends at the last node of the chain. -/
theorem walk_to_end : ∀ {xs : List ν} {a : ν} {fuel : ℕ}, Chain nxt a xs →
    (∀ x ∈ xs, stop x = false) → xs.length < fuel → walk nxt stop fuel a = some (xs.getLastD a)
  | [], a, fuel + 1, h, _, _ => by
    rw [chain_nil] at h
    simp [walk, h]
  | x :: xs, a, fuel + 1, h, hgo, hfuel => by
    rw [List.length_cons] at hfuel
    have hx : stop x = false := hgo x (by simp)
    have hrest : ∀ y ∈ xs, stop y = false := fun y hy => hgo y (List.mem_cons_of_mem _ hy)
    have ih : walk nxt stop fuel x = some (xs.getLastD x) := walk_to_end h.2 hrest (by omega)
    rw [List.getLastD_cons]
    simp only [walk, h.1, hx]
    exact ih

/-- A walk ends before the first node to stop at. -/
theorem walk_to_stop {e : ν} {ys : List ν} (he : stop e = true) :
    ∀ {xs : List ν} {a : ν} {fuel : ℕ}, Chain nxt a (xs ++ e :: ys) →
      (∀ x ∈ xs, stop x = false) → xs.length < fuel → walk nxt stop fuel a = some (xs.getLastD a)
  | [], a, fuel + 1, h, _, _ => by
    simp only [List.nil_append, chain_cons] at h
    simp [walk, h.1, he]
  | x :: xs, a, fuel + 1, h, hgo, hfuel => by
    rw [List.length_cons] at hfuel
    have hx : stop x = false := hgo x (by simp)
    have hrest : ∀ y ∈ xs, stop y = false := fun y hy => hgo y (List.mem_cons_of_mem _ hy)
    have ih : walk nxt stop fuel x = some (xs.getLastD x) :=
      walk_to_stop he h.2 hrest (by omega)
    rw [List.getLastD_cons]
    simp only [walk, h.1, hx]
    exact ih

/-! ## Nodes put in and taken out -/

variable [DecidableEq ν]

theorem Chain.update {xs : List ν} {x : ν} {l : Option ν} (h : Chain nxt a xs)
    (hx : x ∉ a :: xs) : Chain (Function.update nxt x l) a xs := by
  refine h.congr fun y hy => Function.update_of_ne ?_ _ _
  rintro rfl
  exact hx hy

/-- The node `y` is linked in behind the last node of `xs`. -/
theorem Chain.insert {y : ν} {ys : List ν} : ∀ {xs : List ν} {a : ν}, Chain nxt a (xs ++ ys) →
    (a :: (xs ++ ys)).Nodup → y ∉ a :: (xs ++ ys) →
    Chain (Function.update (Function.update nxt y (nxt (xs.getLastD a))) (xs.getLastD a) (some y))
      a (xs ++ y :: ys)
  | [], a, h, hnd, hy => by
    have hya : y ≠ a := fun he => hy (by simp [he])
    rw [List.getLastD_nil]
    refine ⟨by simp, ?_⟩
    cases ys with
    | nil => simpa [hya] using h
    | cons z zs =>
      refine ⟨by simpa [hya] using h.1, ?_⟩
      refine (h.2.update fun hm => hy ?_).update fun hm => ?_
      · exact List.mem_cons_of_mem _ hm
      · exact (List.nodup_cons.1 hnd).1 hm
  | x :: xs, a, h, hnd, hy => by
    obtain ⟨ha, hnd'⟩ := List.nodup_cons.1 hnd
    have hlast : a ≠ xs.getLastD x := ne_getLastD ha
    have hya : a ≠ y := fun he => hy (by simp [he])
    rw [List.getLastD_cons]
    refine ⟨?_, Chain.insert h.2 hnd' fun hm => hy (List.mem_cons_of_mem _ hm)⟩
    rw [Function.update_of_ne hlast, Function.update_of_ne hya]
    exact h.1

/-- The node `e` is left out: the last node before it links to where `e` does. -/
theorem Chain.remove {e : ν} {ys : List ν} : ∀ {xs : List ν} {a : ν},
    Chain nxt a (xs ++ e :: ys) → (a :: (xs ++ e :: ys)).Nodup →
    Chain (Function.update nxt (xs.getLastD a) (nxt e)) a (xs ++ ys)
  | [], a, h, hnd => by
    obtain ⟨ha, -⟩ := List.nodup_cons.1 hnd
    obtain ⟨-, hrest⟩ := h
    rw [List.getLastD_nil]
    cases ys with
    | nil => simpa using hrest
    | cons z zs =>
      refine ⟨by simpa using hrest.1, hrest.2.update fun hm => ha ?_⟩
      exact List.mem_cons_of_mem _ hm
  | x :: xs, a, h, hnd => by
    obtain ⟨ha, hnd'⟩ := List.nodup_cons.1 hnd
    have hlast : a ≠ xs.getLastD x := ne_getLastD ha
    rw [List.getLastD_cons]
    refine ⟨?_, Chain.remove h.2 hnd'⟩
    rw [Function.update_of_ne hlast]
    exact h.1

end Links
