import Mathlib.Data.List.Chain
import Mathlib.Data.List.Nodup
import Mathlib.Logic.Function.Basic

/-!
# Rings of nodes

Every node points forward to a node or to none and backward to a node or to none.  Two nodes are
joined if each of them points to the other, and a ring is a node without a value of its own, the
head, from which the joints lead through the members and back to it.  All that happens to rings
happens by joining two nodes, `link`, which lets go of the two that were joined to them before.
-/

namespace Rings

variable {ν : Type*}

@[ext]
structure Node (ν : Type*) where
  next : Option ν
  prev : Option ν
deriving DecidableEq

def Joined (heap : ν → Node ν) (u v : ν) : Prop :=
  (heap u).next = some v ∧ (heap v).prev = some u

structure Ring (heap : ν → Node ν) (h : ν) (xs : List ν) : Prop where
  nodup : (h :: xs).Nodup
  chain : (h :: (xs ++ [h])).IsChain (Joined heap)

variable {heap heap' : ν → Node ν} {h e u v w x : ν} {l r xs ys : List ν}

/-! ## Chains of joints -/

/-- A chain uses the forward pointers of all its nodes but the last one, and the backward pointers
of all but the first one. -/
theorem chain_congr : ∀ {l : List ν}, l.IsChain (Joined heap) →
    (∀ x ∈ l.dropLast, (heap' x).next = (heap x).next) →
    (∀ x ∈ l.tail, (heap' x).prev = (heap x).prev) → l.IsChain (Joined heap')
  | [], _, _, _ => .nil
  | [a], _, _, _ => .singleton a
  | a :: b :: l, hchain, hnext, hprev => by
    obtain ⟨hab, hl⟩ := List.isChain_cons_cons.1 hchain
    have ha : (heap' a).next = (heap a).next := hnext a (by simp)
    have hb : (heap' b).prev = (heap b).prev := hprev b (by simp)
    refine List.isChain_cons_cons.2 ⟨⟨ha.trans hab.1, hb.trans hab.2⟩, ?_⟩
    refine chain_congr hl (fun x hx => hnext x ?_) (fun x hx => hprev x ?_)
    · rw [List.dropLast_cons_cons]
      exact List.mem_cons_of_mem _ hx
    · exact List.mem_of_mem_tail hx

theorem cons_eq_concat (h : ν) (xs : List ν) :
    h :: xs = (h :: xs).dropLast ++ [xs.getLastD h] := by
  have hsplit := List.dropLast_append_getLast (List.cons_ne_nil h xs)
  rw [List.getLast_eq_getLastD] at hsplit
  exact hsplit.symm

theorem concat_eq_cons (h : ν) (xs : List ν) :
    xs ++ [h] = xs.headD h :: (xs ++ [h]).tail := by
  cases xs with
  | nil => rfl
  | cons x xs => rfl

theorem getLastD_mem (h : ν) (xs : List ν) : xs.getLastD h ∈ h :: xs := List.getLastD_mem_cons

theorem headD_mem (h : ν) (xs : List ν) : xs.headD h ∈ xs ++ [h] := by
  rw [concat_eq_cons]
  exact List.mem_cons_self

theorem getLastD_mem_append (h : ν) (xs ys : List ν) : xs.getLastD h ∈ h :: (xs ++ ys) := by
  rw [← List.cons_append]
  exact List.mem_append_left _ (getLastD_mem h xs)

theorem headD_mem_append (h : ν) (xs ys : List ν) : ys.headD h ∈ h :: (xs ++ ys) := by
  rcases List.mem_append.1 (headD_mem h ys) with hy | hy
  · exact List.mem_cons_of_mem h (List.mem_append_right xs hy)
  · have heq : ys.headD h = h := by simpa using hy
    rw [heq]
    exact List.mem_cons_self

/-- The last node of a list without duplicates stands nowhere else in it. -/
theorem getLastD_notMem_dropLast (hnd : (h :: xs).Nodup) : xs.getLastD h ∉ (h :: xs).dropLast := by
  rw [cons_eq_concat, List.nodup_append] at hnd
  intro hmem
  exact hnd.2.2 _ hmem _ (by simp) rfl

theorem headD_notMem_tail (hnd : (h :: xs).Nodup) : xs.headD h ∉ (xs ++ [h]).tail := by
  have hnd' : (xs ++ [h]).Nodup := List.perm_append_singleton h xs |>.nodup_iff.2 hnd
  rw [concat_eq_cons] at hnd'
  exact (List.nodup_cons.1 hnd').1

theorem headD_notMem (hnd : (h :: (xs ++ ys)).Nodup) : ys.headD h ∉ xs := by
  intro hmem
  have hsplit : (h :: xs ++ ys).Nodup := hnd
  obtain ⟨hndx, -, hdisj⟩ := List.nodup_append.1 hsplit
  rcases List.mem_append.1 (headD_mem h ys) with hy | hy
  · exact hdisj _ (List.mem_cons_of_mem h hmem) _ hy rfl
  · have heq : ys.headD h = h := by simpa using hy
    rw [heq] at hmem
    exact (List.nodup_cons.1 hndx).1 hmem

/-! ## Joining two nodes -/

variable [DecidableEq ν]

/-- `u` and `v` are made to point to each other. -/
def link (heap : ν → Node ν) (u v : ν) : ν → Node ν :=
  let heap := Function.update heap v { heap v with prev := some u }
  Function.update heap u { heap u with next := some v }

@[simp] theorem link_next :
    (link heap u v x).next = if x = u then some v else (heap x).next := by
  by_cases hu : x = u
  · simp [link, hu]
  · by_cases hv : x = v
    · subst hv
      simp [link, hu]
    · simp [link, hu, hv]

@[simp] theorem link_prev :
    (link heap u v x).prev = if x = v then some u else (heap x).prev := by
  by_cases hu : x = u
  · subst hu
    by_cases hv : x = v
    · subst hv
      simp [link]
    · simp [link, hv]
  · by_cases hv : x = v
    · subst hv
      simp [link, hu]
    · simp [link, hu, hv]

theorem link_of_ne (hu : x ≠ u) (hv : x ≠ v) : link heap u v x = heap x := by
  ext1
  · rw [link_next, if_neg hu]
  · rw [link_prev, if_neg hv]

theorem joined_link : Joined (link heap u v) u v := by
  simp [Joined]

/-- A chain stays as long as its last node alone may point forward to another one, and its first
node alone backward. -/
theorem chain_keep (hl : l.IsChain (Joined heap)) (hu : u ∉ l.dropLast) (hv : v ∉ l.tail) :
    l.IsChain (Joined (link heap u v)) := by
  refine chain_congr hl (fun x hx => ?_) (fun x hx => ?_)
  · have hxu : x ≠ u := fun he => hu (he ▸ hx)
    rw [link_next, if_neg hxu]
  · have hxv : x ≠ v := fun he => hv (he ▸ hx)
    rw [link_prev, if_neg hxv]

/-- The last node of one chain is joined to the first one of another. -/
theorem chain_link (hl : (l ++ [u]).IsChain (Joined heap)) (hr : (v :: r).IsChain (Joined heap))
    (hul : u ∉ l) (hur : u ∉ (v :: r).dropLast) (hvl : v ∉ (l ++ [u]).tail) (hvr : v ∉ r) :
    (l ++ u :: v :: r).IsChain (Joined (link heap u v)) := by
  refine List.isChain_append_cons_cons.2 ⟨?_, joined_link, ?_⟩
  · exact chain_keep hl (by simpa using hul) hvl
  · exact chain_keep hr hur hvr

/-- The same for chains that begin and end with a given node. -/
theorem chain_join {a b : ν} (hxs : (a :: xs).IsChain (Joined heap))
    (hys : (ys ++ [b]).IsChain (Joined heap)) (hndx : (a :: xs).Nodup) (hndy : (b :: ys).Nodup)
    (hdisj : ∀ x ∈ a :: xs, x ∉ ys) (hhead : ys.headD b ∉ xs) :
    (a :: xs ++ (ys ++ [b])).IsChain (Joined (link heap (xs.getLastD a) (ys.headD b))) := by
  rw [cons_eq_concat, concat_eq_cons b ys, List.append_assoc, List.singleton_append]
  refine chain_link (by rwa [← cons_eq_concat]) (by rwa [← concat_eq_cons])
    (getLastD_notMem_dropLast hndx) ?_ ?_ (headD_notMem_tail hndy)
  · rw [← concat_eq_cons, List.dropLast_concat]
    exact hdisj _ (getLastD_mem a xs)
  · rw [← cons_eq_concat, List.tail_cons]
    exact hhead

/-! ## Rings -/

omit [DecidableEq ν] in
theorem Ring.congr (hring : Ring heap h xs) (hsame : ∀ x ∈ h :: xs, heap' x = heap x) :
    Ring heap' h xs := by
  have hmem : ∀ x ∈ h :: (xs ++ [h]), x ∈ h :: xs := by
    intro x hx
    simpa [or_comm, or_assoc] using hx
  refine ⟨hring.nodup, chain_congr hring.chain (fun x hx => ?_) (fun x hx => ?_)⟩
  · rw [hsame x (hmem x (List.dropLast_subset _ hx))]
  · rw [hsame x (hmem x (List.mem_of_mem_tail hx))]

omit [DecidableEq ν] in
/-- A ring falls into the chain up to a member and the chain from the next one on. -/
theorem Ring.cut (hring : Ring heap h (xs ++ ys)) :
    (h :: xs).IsChain (Joined heap) ∧ Joined heap (xs.getLastD h) (ys.headD h)
      ∧ (ys ++ [h]).IsChain (Joined heap) := by
  have hchain := hring.chain
  have hassoc : h :: (xs ++ ys ++ [h]) = (h :: xs) ++ (ys ++ [h]) := by simp
  rw [hassoc, cons_eq_concat, concat_eq_cons h ys, List.append_assoc, List.singleton_append,
    List.isChain_append_cons_cons, ← cons_eq_concat, ← concat_eq_cons] at hchain
  exact hchain

omit [DecidableEq ν] in
theorem Ring.head_next (hring : Ring heap h xs) : (heap h).next = some (xs.headD h) := by
  have hring' : Ring heap h ([] ++ xs) := hring
  exact hring'.cut.2.1.1

omit [DecidableEq ν] in
theorem Ring.head_prev (hring : Ring heap h xs) : (heap h).prev = some (xs.getLastD h) := by
  have hring' : Ring heap h (xs ++ []) := by rwa [List.append_nil]
  exact hring'.cut.2.1.2

omit [DecidableEq ν] in
theorem Ring.mem_next (hring : Ring heap h (xs ++ e :: ys)) :
    (heap e).next = some (ys.headD h) := by
  have hring' : Ring heap h (xs ++ [e] ++ ys) := by simpa using hring
  have hjoined := hring'.cut.2.1.1
  rwa [List.getLastD_concat] at hjoined

omit [DecidableEq ν] in
theorem Ring.mem_prev (hring : Ring heap h (xs ++ e :: ys)) :
    (heap e).prev = some (xs.getLastD h) :=
  hring.cut.2.1.2

/-- A ring is closed by joining the end of one chain to the beginning of the other. -/
theorem Ring.close (hxs : (h :: xs).IsChain (Joined heap)) (hys : (ys ++ [h]).IsChain (Joined heap))
    (hnd : (h :: (xs ++ ys)).Nodup) :
    Ring (link heap (xs.getLastD h) (ys.headD h)) h (xs ++ ys) := by
  have hsplit : (h :: xs ++ ys).Nodup := hnd
  obtain ⟨hndx, -, hdisj⟩ := List.nodup_append.1 hsplit
  have hndy : (h :: ys).Nodup :=
    hnd.sublist (List.Sublist.cons_cons h (List.sublist_append_right xs ys))
  have hjoin := chain_join hxs hys hndx hndy (fun x hx hy => hdisj x hx x hy rfl) (headD_notMem hnd)
  exact ⟨hnd, by simpa using hjoin⟩

/-- A node by itself. -/
theorem Ring.single (h : ν) : Ring (link heap h h) h [] :=
  ⟨by simp, by simp [Joined]⟩

/-- A member is taken out by joining its neighbours. -/
theorem Ring.remove (hring : Ring heap h (xs ++ e :: ys)) :
    Ring (link heap (xs.getLastD h) (ys.headD h)) h (xs ++ ys) := by
  obtain ⟨hxs, -, hys⟩ := hring.cut
  have hys' : (ys ++ [h]).IsChain (Joined heap) := List.IsChain.tail hys
  refine Ring.close hxs hys' (hring.nodup.sublist ?_)
  exact List.Sublist.cons_cons h (List.Sublist.append_left (List.sublist_cons_self e ys) xs)

/-- A node is put in between two neighbours. -/
theorem Ring.insert {n : ν} (hring : Ring heap h (xs ++ ys)) (hn : n ∉ h :: (xs ++ ys)) :
    Ring (link (link heap n (ys.headD h)) (xs.getLastD h) n) h (xs ++ n :: ys) := by
  obtain ⟨hxs, -, hys⟩ := hring.cut
  have hsplit : (h :: xs ++ ys).Nodup := hring.nodup
  obtain ⟨hndx, -, hdisj⟩ := List.nodup_append.1 hsplit
  have hndy : (h :: ys).Nodup :=
    hring.nodup.sublist (List.Sublist.cons_cons h (List.sublist_append_right xs ys))
  have hny : n ∉ ys := fun hmem => hn (by simp [hmem])
  have hnx : n ∉ h :: xs := by
    intro hmem
    refine hn ?_
    rw [← List.cons_append]
    exact List.mem_append_left _ hmem
  have hright : (n :: ys ++ [h]).IsChain (Joined (link heap n (ys.headD h))) :=
    chain_join (.singleton n) hys (by simp) hndy (by simpa using hny) (by simp)
  have hleft : (h :: xs).IsChain (Joined (link heap n (ys.headD h))) := by
    refine chain_keep hxs (fun hmem => hnx (List.dropLast_subset _ hmem)) ?_
    rw [List.tail_cons]
    exact headD_notMem hring.nodup
  have hnd : (h :: (xs ++ n :: ys)).Nodup := by
    rw [← List.cons_append, List.nodup_middle]
    exact List.nodup_cons.2 ⟨hn, hring.nodup⟩
  exact Ring.close hleft hright hnd

/-- The members of one ring are put in at the beginning of another. -/
theorem Ring.splice {l y : ν} (hring : Ring heap h xs) (hl : Ring heap l (y :: ys))
    (hdisj : ∀ x ∈ h :: xs, x ∉ l :: y :: ys) :
    Ring (link (link heap h y) (ys.getLastD y) (xs.headD h)) h (y :: ys ++ xs) := by
  have hmembers : (y :: ys).IsChain (Joined heap) := by
    have hl' : Ring heap l (y :: ys ++ []) := by rwa [List.append_nil]
    exact hl'.cut.1.tail
  have hrest : (xs ++ [h]).IsChain (Joined heap) := hring.chain.tail
  have hndy : (y :: ys).Nodup := (List.nodup_cons.1 hl.nodup).2
  have hh : h ∉ y :: ys := fun hmem => hdisj h (by simp) (List.mem_cons_of_mem l hmem)
  have hy : y ∉ xs := fun hmem => hdisj y (List.mem_cons_of_mem h hmem) (by simp)
  have hhy : h ≠ y := fun he => hh (by simp [he])
  have hleft : (h :: y :: ys).IsChain (Joined (link heap h y)) := by
    have hhead : ([] ++ [h]).IsChain (Joined heap) := .singleton h
    exact chain_link hhead hmembers (by simp) (fun hmem => hh (List.dropLast_subset _ hmem))
      (by simp) (List.nodup_cons.1 hndy).1
  have hright : (xs ++ [h]).IsChain (Joined (link heap h y)) := by
    refine chain_keep hrest ?_ (fun hmem => ?_)
    · rw [List.dropLast_concat]
      exact (List.nodup_cons.1 hring.nodup).1
    · have hmem' := List.mem_of_mem_tail hmem
      simp [hy, hhy.symm] at hmem'
  have hnd : (h :: (y :: ys ++ xs)).Nodup := by
    refine List.nodup_cons.2 ⟨?_, List.nodup_append.2 ⟨hndy, (List.nodup_cons.1 hring.nodup).2, ?_⟩⟩
    · rw [List.mem_append, not_or]
      exact ⟨hh, (List.nodup_cons.1 hring.nodup).1⟩
    · rintro a ha b hb rfl
      exact hdisj a (List.mem_cons_of_mem h hb) (List.mem_cons_of_mem l ha)
  have hring' := Ring.close hleft hright hnd
  rwa [List.getLastD_cons] at hring'

end Rings
