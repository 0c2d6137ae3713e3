import Emodbus.SList
import Mathlib.Data.List.Nodup

/-!
# What the calls of the linked list do

Each function on a list it finds in order, then whole sequences of calls: the chain from the anchor
is the sequence without duplicates that the calls describe.
-/

namespace Emodbus

open Links Mealy

variable {ν : Type} [DecidableEq ν] {heap : SbHeap ν} {anchor elem : ν} {elems : List ν} {fuel : ℕ}

namespace SbList

omit [DecidableEq ν] in
/-- A list splits where an element of it stands for the first time. -/
theorem split (h : SbList heap anchor elems) (he : elem ∈ elems) :
    ∃ xs ys, elems = xs ++ elem :: ys ∧ elem ∉ xs ∧ heap (xs.getLastD anchor) = some elem := by
  obtain ⟨xs, ys, rfl, hxs⟩ := List.eq_append_cons_of_mem he
  exact ⟨xs, ys, rfl, hxs, h.chain.behind.1⟩

omit [DecidableEq ν] in
theorem last (h : SbList heap anchor elems) : heap (elems.getLastD anchor) = none := by
  have hchain : Chain heap anchor (elems ++ []) := by
    rw [List.append_nil]
    exact h.chain
  exact hchain.behind

/-- The loop of `sb_list_remove` and `sb_list_has_elem` for an element of the list. -/
theorem walk_mem {xs ys : List ν} (h : SbList heap anchor (xs ++ elem :: ys)) (hxs : elem ∉ xs)
    (hfuel : (xs ++ elem :: ys).length < fuel) :
    walk heap (· == elem) fuel anchor = some (xs.getLastD anchor) := by
  rw [List.length_append] at hfuel
  refine walk_to_stop (by simp) h.chain (fun x hx => ?_) (by omega)
  rw [beq_eq_false_iff_ne]
  rintro rfl
  exact hxs hx

theorem walk_not_mem (h : SbList heap anchor elems) (he : elem ∉ elems)
    (hfuel : elems.length < fuel) :
    walk heap (· == elem) fuel anchor = some (elems.getLastD anchor) := by
  refine walk_to_end h.chain (fun x hx => ?_) hfuel
  rw [beq_eq_false_iff_ne]
  rintro rfl
  exact he hx

/-- A node is put in behind the last one of `xs`. -/
theorem insert {xs ys : List ν} (h : SbList heap anchor (xs ++ ys)) (ha : elem ≠ anchor)
    (he : elem ∉ xs ++ ys) :
    SbList (Function.update (Function.update heap elem (heap (xs.getLastD anchor)))
      (xs.getLastD anchor) (some elem)) anchor (xs ++ elem :: ys) := by
  have hout : elem ∉ anchor :: (xs ++ ys) := by simp_all
  refine ⟨h.chain.insert h.nodup hout, ?_⟩
  rw [← List.cons_append, List.nodup_middle]
  exact List.nodup_cons.2 ⟨hout, h.nodup⟩

theorem remove {xs ys : List ν} (h : SbList heap anchor (xs ++ elem :: ys)) :
    SbList (Function.update heap (xs.getLastD anchor) (heap elem)) anchor (xs ++ ys) := by
  refine ⟨h.chain.remove h.nodup, ?_⟩
  have hnd := h.nodup
  rw [← List.cons_append, List.nodup_middle] at hnd
  exact (List.nodup_cons.1 hnd).2

end SbList

theorem sbListInit_spec (heap : SbHeap ν) (anchor : ν) :
    SbList (sbListInit heap anchor) anchor [] :=
  ⟨by simp [sbListInit], by simp⟩

theorem sbListHasElem_spec (elem : ν) (h : SbList heap anchor elems) (hfuel : elems.length < fuel) :
    sbListHasElem fuel heap anchor elem = some (if elem ∈ elems then 1 else 0) := by
  unfold sbListHasElem
  by_cases he : elem ∈ elems
  · obtain ⟨xs, ys, rfl, hxs, hlast⟩ := h.split he
    simp [-List.getLastD_eq_getLast?, h.walk_mem hxs hfuel, hlast]
  · simp [-List.getLastD_eq_getLast?, h.walk_not_mem he hfuel, h.last, he]

/-- What a call does to a list it finds in order; the nodes that are not on it, before or after,
keep their links. -/
structure Turns (anchor : ν) (heap heap' : SbHeap ν) (elems elems' : List ν) : Prop where
  list : SbList heap' anchor elems'
  frame : ∀ x, x ∉ anchor :: elems → x ∉ elems' → heap' x = heap x

omit [DecidableEq ν] in
theorem Turns.stay (h : SbList heap anchor elems) : Turns anchor heap heap elems elems :=
  ⟨h, fun _ _ _ => rfl⟩

theorem sbListAddToBegin_spec (h : SbList heap anchor elems) (ha : elem ≠ anchor)
    (he : elem ∉ elems) :
    Turns anchor heap (sbListAddToBegin heap anchor elem) elems (elem :: elems) := by
  have hlist : SbList heap anchor ([] ++ elems) := h
  refine ⟨hlist.insert ha he, fun x hx hx' => ?_⟩
  have hxa : x ≠ anchor := fun h => hx (by simp [h])
  have hxe : x ≠ elem := fun h => hx' (by simp [h])
  simp [sbListAddToBegin, hxa, hxe]

theorem sbListAddToEnd_spec (h : SbList heap anchor elems) (ha : elem ≠ anchor)
    (he : elem ∉ elems) (hfuel : elems.length < fuel) :
    ∃ heap', sbListAddToEnd fuel heap anchor elem = some heap'
      ∧ Turns anchor heap heap' elems (elems ++ [elem]) := by
  have hwalk : walk heap (fun _ => false) fuel anchor = some (elems.getLastD anchor) :=
    walk_to_end h.chain (fun _ _ => rfl) hfuel
  have hmem : elems.getLastD anchor ∈ anchor :: elems := List.getLastD_mem_cons
  have hne : elems.getLastD anchor ≠ elem := by
    intro heq
    rw [heq] at hmem
    simp_all
  refine ⟨_, by simp [-List.getLastD_eq_getLast?, sbListAddToEnd, hwalk]; rfl, ?_,
    fun x hx hx' => ?_⟩
  · have hlist : SbList heap anchor (elems ++ []) := by simpa using h
    have hins := hlist.insert ha (by simpa using he)
    rw [h.last] at hins
    rwa [Function.update_comm hne]
  · have hxl : x ≠ elems.getLastD anchor := by
      rintro rfl
      exact hx hmem
    have hxe : x ≠ elem := fun h => hx' (by simp [h])
    rw [Function.update_of_ne hxe, Function.update_of_ne hxl]

theorem sbListRemove_spec (elem : ν) (h : SbList heap anchor elems) (hfuel : elems.length < fuel) :
    ∃ heap', sbListRemove fuel heap anchor elem = some (heap', if elem ∈ elems then 0 else -1)
      ∧ (elem ∉ elems → heap' = heap) ∧ Turns anchor heap heap' elems (elems.erase elem) := by
  by_cases he : elem ∈ elems
  · obtain ⟨xs, ys, rfl, hxs, hlast⟩ := h.split he
    have herase : (xs ++ elem :: ys).erase elem = xs ++ ys := by
      rw [List.erase_append_right _ hxs, List.erase_cons_head]
    have hwalk := h.walk_mem hxs hfuel
    refine ⟨_, by simp [-List.getLastD_eq_getLast?, sbListRemove, hwalk, hlast]; rfl,
      fun hn => absurd he hn, ?_⟩
    rw [herase]
    refine ⟨h.remove, fun x hx _ => Function.update_of_ne ?_ _ _⟩
    rintro rfl
    rw [← List.cons_append] at hx
    exact hx (List.mem_append_left _ List.getLastD_mem_cons)
  · have hwalk := h.walk_not_mem he hfuel
    refine ⟨heap, by simp [-List.getLastD_eq_getLast?, sbListRemove, hwalk, h.last, he],
      fun _ => rfl, ?_⟩
    rw [List.erase_of_not_mem he]
    exact Turns.stay h

namespace SbCall

variable {call : SbCall ν}

/-- One call: the list is what the sequence is after the same call. -/
theorem exec_spec (h : SbList heap anchor elems) (hcall : call.Spares anchor)
    (hfuel : elems.length < fuel) :
    ∃ heap', call.exec fuel anchor heap = some (heap', (call.spec elems).2)
      ∧ Turns anchor heap heap' elems (call.spec elems).1 := by
  cases call with
  | init =>
    refine ⟨_, rfl, sbListInit_spec heap anchor, fun x hx _ => ?_⟩
    have hxa : x ≠ anchor := fun h => hx (by simp [h])
    simp [sbListInit, hxa]
  | addToBeginSafe elem =>
    have hhas := sbListHasElem_spec elem h hfuel
    by_cases he : elem ∈ elems
    · exact ⟨heap, by simp [exec, sbListAddToBeginSafe, hhas, spec, he],
        by simpa [spec, he] using Turns.stay h⟩
    · exact ⟨_, by simp [exec, sbListAddToBeginSafe, hhas, spec, he]; rfl,
        by simpa [spec, he] using sbListAddToBegin_spec h hcall he⟩
  | addToEndSafe elem =>
    have hhas := sbListHasElem_spec elem h hfuel
    by_cases he : elem ∈ elems
    · exact ⟨heap, by simp [exec, sbListAddToEndSafe, hhas, spec, he],
        by simpa [spec, he] using Turns.stay h⟩
    · obtain ⟨heap', hadd, hturn⟩ := sbListAddToEnd_spec h hcall he hfuel
      exact ⟨heap', by simp [exec, sbListAddToEndSafe, hhas, hadd, spec, he],
        by simpa [spec, he] using hturn⟩
  | remove elem =>
    obtain ⟨heap', hremove, -, hturn⟩ := sbListRemove_spec elem h hfuel
    exact ⟨heap', by simp [exec, hremove, spec], hturn⟩
  | hasElem elem =>
    exact ⟨heap, by simp [exec, sbListHasElem_spec elem h hfuel, spec], Turns.stay h⟩

/-- A call makes the sequence longer by one node at most. -/
theorem length_spec_le (call : SbCall ν) (elems : List ν) :
    (call.spec elems).1.length ≤ elems.length + 1 := by
  cases call with
  | init => simp [spec]
  | addToBeginSafe elem => simp only [spec]; split_ifs <;> simp
  | addToEndSafe elem => simp only [spec]; split_ifs <;> simp
  | remove elem =>
    have := List.length_erase_le (a := elem) (l := elems)
    simp only [spec]
    omega
  | hasElem elem => simp [spec]

theorem length_run_le (elems : List ν) (calls : List (SbCall ν)) :
    (run spec elems calls).1.length ≤ elems.length + calls.length := by
  induction calls generalizing elems with
  | nil => simp
  | cons call calls ih =>
    have hlen := length_spec_le call elems
    have hrest := ih (call.spec elems).1
    rw [run_cons, List.length_cons]
    dsimp only
    omega

/-- The calls after a list was found in order. -/
theorem execAll_spec : ∀ (calls : List (SbCall ν)) {heap : SbHeap ν} {elems : List ν},
    SbList heap anchor elems → (∀ call ∈ calls, call.Spares anchor) →
    elems.length + calls.length ≤ fuel →
    ∃ heap', execAll fuel anchor heap calls = some (heap', (run spec elems calls).2)
      ∧ SbList heap' anchor (run spec elems calls).1
      ∧ ∀ x, x ≠ anchor → (∀ pre, pre <+: calls → x ∉ (run spec elems pre).1) → heap' x = heap x
  | [], heap, elems, h, _, _ => ⟨heap, rfl, h, fun _ _ _ => rfl⟩
  | call :: calls, heap, elems, h, hcalls, hfuel => by
    rw [List.length_cons] at hfuel
    have hlt : elems.length < fuel := by omega
    obtain ⟨heap₁, hexec, hturn⟩ := exec_spec h (hcalls call (by simp)) hlt
    have hlen := length_spec_le call elems
    obtain ⟨heap₂, hrest, hlist, hframe⟩ := execAll_spec calls hturn.list
      (fun c hc => hcalls c (List.mem_cons_of_mem _ hc)) (by omega)
    refine ⟨heap₂, by simp [execAll, hexec, hrest], hlist, fun x hxa hx => ?_⟩
    have hbefore : x ∉ elems := hx [] (List.nil_prefix)
    have hafter : x ∉ (call.spec elems).1 := by simpa using hx [call] ⟨calls, rfl⟩
    rw [hframe x hxa fun pre hpre => hx (call :: pre) (List.cons_prefix_cons.2 ⟨rfl, hpre⟩)]
    exact hturn.frame x (by simp [hxa, hbefore]) hafter

end SbCall

/-- From `sb_list_init` on, whatever the links were before: every call comes to its end and returns
what it returns for a sequence without duplicates, the chain is that sequence, and a node that was
never part of it has the link it had. -/
theorem sbList_calls (heap : SbHeap ν) (anchor : ν) (calls : List (SbCall ν))
    (hcalls : ∀ call ∈ calls, call.Spares anchor) (fuel : ℕ) (hfuel : calls.length < fuel) :
    ∃ heap', SbCall.execAll fuel anchor heap (.init :: calls)
        = some (heap', none :: (run SbCall.spec [] calls).2)
      ∧ SbList heap' anchor (run SbCall.spec [] calls).1
      ∧ (∀ elem ∉ (run SbCall.spec [] calls).1,
          sbListRemove fuel heap' anchor elem = some (heap', -1))
      ∧ ∀ x, x ≠ anchor → (∀ pre, pre <+: calls → x ∉ (run SbCall.spec [] pre).1) →
          heap' x = heap x := by
  have hinit := sbListInit_spec heap anchor
  have hle : ([] : List ν).length + calls.length ≤ fuel := by
    rw [List.length_nil]
    omega
  obtain ⟨heap', hexec, hlist, hframe⟩ := SbCall.execAll_spec calls hinit hcalls hle
  refine ⟨heap', by simp [SbCall.execAll, SbCall.exec, hexec], hlist, fun elem he => ?_,
    fun x hxa hx => ?_⟩
  · have hlen := SbCall.length_run_le [] calls
    rw [List.length_nil] at hlen
    have hlt : (run SbCall.spec [] calls).1.length < fuel := by omega
    obtain ⟨heap'', hremove, hsame, -⟩ := sbListRemove_spec elem hlist hlt
    rw [hremove, hsame he, if_neg he]
  · rw [hframe x hxa hx]
    simp [sbListInit, hxa]

/-- Nodes 1 and 2 are added, 1 is removed and added again at the other end; the links were a cycle
before. -/
theorem sbList_calls_cycle :
    ∃ heap', SbCall.execAll 6 0 (fun n : ℕ => some n)
        [.init, .addToEndSafe 1, .addToBeginSafe 2, .remove 1, .addToBeginSafe 1, .hasElem 3]
        = some (heap', [none, none, none, some 0, none, some 0])
      ∧ SbList heap' 0 [1, 2]
      ∧ (∀ elem ∉ [1, 2], sbListRemove 6 heap' (some 0) (some elem) = some (heap', -1))
      ∧ ∀ x, x ≠ 0 → (∀ pre, pre <+: [.addToEndSafe 1, .addToBeginSafe 2, .remove 1,
          .addToBeginSafe 1, .hasElem 3] → x ∉ (run SbCall.spec [] pre).1) → heap' x = some x :=
  sbList_calls (fun n : ℕ => some n) 0
    [.addToEndSafe 1, .addToBeginSafe 2, .remove 1, .addToBeginSafe 1, .hasElem 3]
    (by simp [SbCall.Spares]) 6 (by simp)

end Emodbus
