import Emodbus.ListHead
import Emodbus.Lib.Mealy
import Mathlib.Data.List.Perm.Subperm

/-!
# What the calls of the doubly linked list do

Each function joins nodes, and a call that finds the pointers of some lists leaves those of the
lists the call describes.
-/

namespace Emodbus

open Rings Mealy

variable {ν : Type} [DecidableEq ν] {heap heap' : ListHeap ν} {lists lists' : Lists ν}
variable {head node new : ν} {xs ys done rest : List ν} {fuel : ℕ}

/-! ## The functions as joints -/

theorem rawListAdd_eq (heap : ListHeap ν) (n u v : ν) :
    rawListAdd heap (some n) (some u) (some v) = some (link (link heap n v) u n) := rfl

theorem rawListDel_eq (heap : ListHeap ν) (u v : ν) :
    rawListDel heap (some u) (some v) = some (link heap u v) := rfl

theorem setNext_setPrev_eq (heap : ListHeap ν) (u v : ν) :
    (setNext heap (some u) (some v) >>= fun heap => setPrev heap (some v) (some u))
      = some (link heap u v) := by
  simp only [setNext, setPrev, link, Option.bind_eq_bind, Option.bind_some, Option.pure_def,
    Option.some.injEq]
  funext x
  by_cases huv : u = v
  · subst huv
    simp
  · rw [Function.update_of_ne (Ne.symm huv), Function.update_of_ne huv, Function.update_comm huv]

theorem initListHead_eq (heap : ListHeap ν) (ptr : ν) :
    initListHead heap ptr = some (link heap ptr ptr) :=
  setNext_setPrev_eq heap ptr ptr

theorem rawListSplice_eq {list first last before : ν} (hfirst : (heap list).next = some first)
    (hlast : (heap list).prev = some last) (hat : (heap head).next = some before) :
    rawListSplice heap list head = some (link (link heap head first) last before) := by
  unfold rawListSplice
  rw [hfirst, hlast, hat]
  exact setNext_setPrev_eq (link heap head first) last before

/-! ## Lists that stay apart -/

namespace ListsHold

omit [DecidableEq ν] in
theorem not_mem (h : ListsHold heap lists) {other : ν} (hxs : lists head = some xs)
    (hys : lists other = some ys) (hne : other ≠ head) (hnode : node ∈ head :: xs) :
    node ∉ other :: ys := by
  intro hmem
  exact h.apart _ _ _ _ hxs hys (Ne.symm hne) hnode hmem

omit [DecidableEq ν] in
/-- An entry is no list head. -/
theorem entry_none (h : ListsHold heap lists) (hxs : lists head = some xs) (hnode : node ∈ xs) :
    lists node = none := by
  cases hn : lists node with
  | none => rfl
  | some ys =>
    have hne : node ≠ head := by
      rintro rfl
      exact (List.nodup_cons.1 (h.ring _ _ hxs).nodup).1 hnode
    exact absurd List.mem_cons_self (h.not_mem hxs hn hne (List.mem_cons_of_mem head hnode))

omit [DecidableEq ν] in
variable (head) in
/-- One list is changed; the others that remain are where they were. -/
theorem change (h : ListsHold heap lists)
    (hhead : ∀ ms, lists' head = some ms → Ring heap' head ms)
    (hother : ∀ other os, other ≠ head → lists' other = some os → lists other = some os
      ∧ (∀ x ∈ other :: os, heap' x = heap x)
      ∧ ∀ ms, lists' head = some ms → (head :: ms).Disjoint (other :: os)) :
    ListsHold heap' lists' := by
  refine ⟨fun a as ha => ?_, fun a as b bs ha hb hne => ?_⟩
  · by_cases hah : a = head
    · subst hah
      exact hhead as ha
    · obtain ⟨hold, hsame, -⟩ := hother a as hah ha
      exact (h.ring a as hold).congr hsame
  · by_cases hah : a = head
    · subst hah
      obtain ⟨-, -, hdisj⟩ := hother b bs (Ne.symm hne) hb
      exact hdisj as ha
    · by_cases hbh : b = head
      · subst hbh
        obtain ⟨-, -, hdisj⟩ := hother a as hah ha
        exact fun x hx hxb => hdisj bs hb hxb hx
      · obtain ⟨holda, -, -⟩ := hother a as hah ha
        obtain ⟨holdb, -, -⟩ := hother b bs hbh hb
        exact h.apart a as b bs holda holdb hne

omit [DecidableEq ν] in
/-- A node that has no part in any list may point anywhere. -/
theorem spare (h : ListsHold heap lists) (hentry : ¬lists.Entry node) (hnode : lists node = none)
    (hsame : ∀ x, x ≠ node → heap' x = heap x) : ListsHold heap' lists := by
  refine ⟨fun a as ha => (h.ring a as ha).congr fun x hx => hsame x ?_, h.apart⟩
  rintro rfl
  rcases List.mem_cons.1 hx with rfl | hx
  · rw [ha] at hnode
    exact Option.some_ne_none _ hnode
  · exact hentry ⟨a, as, ha, hx⟩

end ListsHold

/-! ## A head, a new entry, an entry taken out -/

theorem initListHead_spec (h : ListsHold heap lists) (hhead : ¬lists.Entry head) :
    ∃ heap', initListHead heap head = some heap' ∧ ListsHold heap' (lists.put head []) := by
  refine ⟨_, initListHead_eq heap head, h.change head (fun ms hms => ?_)
    fun other os hne hos => ?_⟩
  · obtain rfl : [] = ms := by simpa [Lists.put] using hms
    exact Ring.single head
  · have hold : lists other = some os := by simpa [Lists.put, hne] using hos
    have hnot : head ∉ other :: os := by
      rw [List.mem_cons, not_or]
      exact ⟨Ne.symm hne, fun hmem => hhead ⟨other, os, hold, hmem⟩⟩
    refine ⟨hold, fun x hx => ?_, fun ms hms => ?_⟩
    · have hxh : x ≠ head := fun he => hnot (he ▸ hx)
      exact link_of_ne hxh hxh
    · obtain rfl : [] = ms := by simpa [Lists.put] using hms
      simpa using hnot

theorem rawListAdd_spec (h : ListsHold heap lists) (hnew : lists.Free new)
    (hhead : lists head = some (xs ++ ys)) (hne : new ≠ head) :
    ∃ heap', rawListAdd heap new (xs.getLastD head) (ys.headD head) = some heap'
      ∧ ListsHold heap' (Lists.put (Function.update lists new none) head (xs ++ new :: ys)) := by
  have hring := h.ring head _ hhead
  have hnot : new ∉ head :: (xs ++ ys) := by
    rw [List.mem_cons, not_or]
    exact ⟨hne, fun hmem => hnew.1 ⟨head, _, hhead, hmem⟩⟩
  refine ⟨_, rawListAdd_eq heap _ _ _, h.change head (fun ms hms => ?_)
    fun other os hother hos => ?_⟩
  · obtain rfl : xs ++ new :: ys = ms := by simpa [Lists.put] using hms
    exact hring.insert hnot
  · have hos' : other ≠ new ∧ lists other = some os := by
      by_cases hon : other = new
      · subst hon
        simp [Lists.put, hother] at hos
      · exact ⟨hon, by simpa [Lists.put, hother, hon] using hos⟩
    obtain ⟨hon, hold⟩ := hos'
    have hnewos : new ∉ other :: os := by
      rw [List.mem_cons, not_or]
      exact ⟨Ne.symm hon, fun hmem => hnew.1 ⟨other, os, hold, hmem⟩⟩
    have hapart : ∀ x ∈ other :: os, x ∉ head :: (xs ++ ys) :=
      fun x hx => h.not_mem hold hhead (Ne.symm hother) hx
    refine ⟨hold, fun x hx => ?_, fun ms hms => ?_⟩
    · have hxn : x ≠ new := ne_of_mem_of_not_mem hx hnewos
      have hxu : x ≠ xs.getLastD head :=
        (ne_of_mem_of_not_mem (getLastD_mem_append head xs ys) (hapart x hx)).symm
      have hxv : x ≠ ys.headD head :=
        (ne_of_mem_of_not_mem (headD_mem_append head xs ys) (hapart x hx)).symm
      rw [link_of_ne hxu hxn, link_of_ne hxn hxv]
    · obtain rfl : xs ++ new :: ys = ms := by simpa [Lists.put] using hms
      intro x hx hxo
      have hx' : x = new ∨ x ∈ head :: (xs ++ ys) := by
        simp only [List.mem_cons, List.mem_append] at hx ⊢
        tauto
      rcases hx' with rfl | hx'
      · exact hnewos hxo
      · exact hapart x hxo hx'

theorem listAdd_spec (h : ListsHold heap lists) (hnew : lists.Free new)
    (hhead : (lists head).isSome) (hne : new ≠ head) :
    ∃ heap', listAdd heap new head = some heap' ∧ ListsHold heap' (lists.add new head) := by
  obtain ⟨members, hmembers⟩ := Option.isSome_iff_exists.1 hhead
  have hnext := (h.ring head members hmembers).head_next
  have hmembers' : lists head = some ([] ++ members) := hmembers
  obtain ⟨heap', hadd, hhold⟩ := rawListAdd_spec h hnew hmembers' hne
  refine ⟨heap', ?_, ?_⟩
  · rw [listAdd, hnext]
    exact hadd
  · simpa [Lists.add, Lists.members, hmembers] using hhold

theorem listAddTail_spec (h : ListsHold heap lists) (hnew : lists.Free new)
    (hhead : (lists head).isSome) (hne : new ≠ head) :
    ∃ heap', listAddTail heap new head = some heap'
      ∧ ListsHold heap' (lists.addTail new head) := by
  obtain ⟨members, hmembers⟩ := Option.isSome_iff_exists.1 hhead
  have hprev := (h.ring head members hmembers).head_prev
  have hmembers' : lists head = some (members ++ []) := by rw [List.append_nil, hmembers]
  obtain ⟨heap', hadd, hhold⟩ := rawListAdd_spec h hnew hmembers' hne
  refine ⟨heap', ?_, ?_⟩
  · rw [listAddTail, hprev]
    exact hadd
  · simpa [Lists.addTail, Lists.members, hmembers] using hhold

/-- A node that was taken out has no part in any list. -/
theorem ListsHold.takeOut_free (h : ListsHold heap lists) (node : ν) :
    (lists.takeOut node).Free node := by
  refine ⟨?_, Or.inl (by simp [Lists.takeOut])⟩
  rintro ⟨a, as, ha, hmem⟩
  by_cases han : a = node
  · simp [Lists.takeOut, han] at ha
  · rw [Lists.takeOut, Function.update_of_ne han, Option.map_eq_some_iff] at ha
    obtain ⟨bs, hbs, rfl⟩ := ha
    exact (List.nodup_cons.1 (h.ring a bs hbs).nodup).2.not_mem_erase hmem

/-- An entry leaves the list it is in. -/
theorem ListsHold.takeOut_entry (h : ListsHold heap lists)
    (hhead : lists head = some (xs ++ node :: ys)) :
    lists.takeOut node = lists.put head (xs ++ ys) := by
  have hnd := (h.ring head _ hhead).nodup
  have hmem : node ∈ xs ++ node :: ys := by simp
  have hxs : node ∉ xs := by
    intro hx
    exact (List.nodup_append.1 (List.nodup_cons.1 hnd).2).2.2 node hx node (by simp) rfl
  funext other
  by_cases hon : other = node
  · have hoh : other ≠ head := by
      rintro rfl
      exact (List.nodup_cons.1 hnd).1 (hon ▸ hmem)
    rw [Lists.put, Function.update_of_ne hoh, hon, h.entry_none hhead hmem]
    simp [Lists.takeOut]
  · rw [Lists.takeOut, Function.update_of_ne hon, Lists.put]
    by_cases hoh : other = head
    · subst hoh
      simp [hhead, List.erase_append_right _ hxs]
    · rw [Function.update_of_ne hoh]
      cases hos : lists other with
      | none => rfl
      | some os =>
        have hnot := h.not_mem hhead hos hoh (List.mem_cons_of_mem head hmem)
        have hnot' : node ∉ os := fun hx => hnot (List.mem_cons_of_mem other hx)
        rw [Option.map_some, List.erase_of_not_mem hnot']

/-- A node that stands for itself is a list head no more. -/
theorem ListsHold.takeOut_self (h : ListsHold heap lists) (hself : lists node = some []) :
    lists.takeOut node = Function.update lists node none := by
  funext other
  by_cases hon : other = node
  · simp [Lists.takeOut, hon]
  · rw [Lists.takeOut, Function.update_of_ne hon, Function.update_of_ne hon]
    cases hos : lists other with
    | none => rfl
    | some os =>
      have hnot := h.not_mem hself hos hon List.mem_cons_self
      have hnot' : node ∉ os := fun hx => hnot (List.mem_cons_of_mem other hx)
      rw [Option.map_some, List.erase_of_not_mem hnot']

theorem rawListDel_spec (h : ListsHold heap lists) (hnode : lists.Placed node) :
    ∃ heap', rawListDel heap (heap node).prev (heap node).next = some heap'
      ∧ ListsHold heap' (lists.takeOut node) := by
  rcases hnode with ⟨head, members, hmembers, hmem⟩ | hself
  · obtain ⟨xs, ys, rfl⟩ := List.append_of_mem hmem
    have hring := h.ring head _ hmembers
    refine ⟨link heap (xs.getLastD head) (ys.headD head), ?_, ?_⟩
    · rw [hring.mem_prev, hring.mem_next]
      exact rawListDel_eq heap _ _
    · rw [h.takeOut_entry hmembers]
      refine h.change head (fun ms hms => ?_) fun other os hother hos => ?_
      · obtain rfl : xs ++ ys = ms := by simpa [Lists.put] using hms
        exact hring.remove
      · have hold : lists other = some os := by simpa [Lists.put, hother] using hos
        have hapart : ∀ x ∈ other :: os, x ∉ head :: (xs ++ ys) := by
          intro x hx hmem'
          refine h.not_mem hold hmembers (Ne.symm hother) hx ?_
          simp only [List.mem_cons, List.mem_append] at hmem' ⊢
          tauto
        refine ⟨hold, fun x hx => ?_, fun ms hms => ?_⟩
        · have hxu : x ≠ xs.getLastD head :=
            (ne_of_mem_of_not_mem (getLastD_mem_append head xs ys) (hapart x hx)).symm
          have hxv : x ≠ ys.headD head :=
            (ne_of_mem_of_not_mem (headD_mem_append head xs ys) (hapart x hx)).symm
          exact link_of_ne hxu hxv
        · obtain rfl : xs ++ ys = ms := by simpa [Lists.put] using hms
          exact fun x hx hxo => hapart x hxo hx
  · have hring := h.ring node [] hself
    refine ⟨link heap node node, ?_, ?_⟩
    · rw [hring.head_prev, hring.head_next]
      exact rawListDel_eq heap _ _
    · rw [h.takeOut_self hself]
      refine h.change node (fun ms hms => by simp at hms) fun other os hother hos => ?_
      have hold : lists other = some os := by simpa [hother] using hos
      have hnot := h.not_mem hself hold hother List.mem_cons_self
      refine ⟨hold, fun x hx => ?_, fun ms hms => by simp at hms⟩
      have hxn : x ≠ node := ne_of_mem_of_not_mem hx hnot
      exact link_of_ne hxn hxn

theorem listDel_spec (h : ListsHold heap lists) (hnode : lists.Placed node) :
    ∃ heap', listDel heap node = some heap' ∧ ListsHold heap' (lists.takeOut node) := by
  obtain ⟨heap₁, hdel, hhold⟩ := rawListDel_spec h hnode
  have hout : lists.takeOut node node = none := by simp [Lists.takeOut]
  refine ⟨_, by simp [listDel, hdel, setNext, setPrev]; rfl,
    hhold.spare (h.takeOut_free node).1 hout fun x hx => ?_⟩
  rw [Function.update_of_ne hx]

theorem listDelInit_spec (h : ListsHold heap lists) (hnode : lists.Placed node) :
    ∃ heap', listDelInit heap node = some heap'
      ∧ ListsHold heap' ((lists.takeOut node).put node []) := by
  obtain ⟨heap₁, hdel, hhold⟩ := rawListDel_spec h hnode
  obtain ⟨heap₂, hinit, hhold'⟩ := initListHead_spec hhold (h.takeOut_free node).1
  exact ⟨heap₂, by simp [listDelInit, hdel, hinit], hhold'⟩

theorem takeOut_isSome (hhead : (lists head).isSome) (hne : node ≠ head) :
    (lists.takeOut node head).isSome := by
  rw [Lists.takeOut, Function.update_of_ne (Ne.symm hne), Option.isSome_map]
  exact hhead

theorem listMove_spec (h : ListsHold heap lists) (hnode : lists.Placed node)
    (hhead : (lists head).isSome) (hne : node ≠ head) :
    ∃ heap', listMove heap node head = some heap'
      ∧ ListsHold heap' ((lists.takeOut node).add node head) := by
  obtain ⟨heap₁, hdel, hhold⟩ := rawListDel_spec h hnode
  obtain ⟨heap₂, hadd, hhold'⟩ :=
    listAdd_spec hhold (h.takeOut_free node) (takeOut_isSome hhead hne) hne
  exact ⟨heap₂, by simp [listMove, hdel, hadd], hhold'⟩

theorem listMoveTail_spec (h : ListsHold heap lists) (hnode : lists.Placed node)
    (hhead : (lists head).isSome) (hne : node ≠ head) :
    ∃ heap', listMoveTail heap node head = some heap'
      ∧ ListsHold heap' ((lists.takeOut node).addTail node head) := by
  obtain ⟨heap₁, hdel, hhold⟩ := rawListDel_spec h hnode
  obtain ⟨heap₂, hadd, hhold'⟩ :=
    listAddTail_spec hhold (h.takeOut_free node) (takeOut_isSome hhead hne) hne
  exact ⟨heap₂, by simp [listMoveTail, hdel, hadd], hhold'⟩

/-! ## Lists joined -/

theorem listEmpty_spec (h : ListsHold heap lists) (hhead : (lists head).isSome) :
    listEmpty heap head = if lists.members head = [] then 1 else 0 := by
  obtain ⟨members, hmembers⟩ := Option.isSome_iff_exists.1 hhead
  have hring := h.ring head members hmembers
  have hmem : lists.members head = members := by simp [Lists.members, hmembers]
  rw [listEmpty, hring.head_next, hmem]
  cases members with
  | nil => simp
  | cons x xs =>
    have hxh : x ≠ head := fun he => (List.nodup_cons.1 hring.nodup).1 (by simp [he])
    simp [hxh]

theorem rawListSplice_spec {list y : ν} (h : ListsHold heap lists)
    (hlist : lists list = some (y :: ys)) (hhead : lists head = some xs) (hne : list ≠ head) :
    ∃ heap', rawListSplice heap list head = some heap'
      ∧ ListsHold heap' (Lists.put (Function.update lists list none) head (y :: ys ++ xs)) := by
  have hring := h.ring head xs hhead
  have hlring := h.ring list _ hlist
  have hdisj : ∀ x ∈ head :: xs, x ∉ list :: y :: ys :=
    fun x hx => h.not_mem hhead hlist hne hx
  have hlast : (heap list).prev = some (ys.getLastD y) := by
    rw [hlring.head_prev, List.getLastD_cons]
  refine ⟨_, rawListSplice_eq hlring.head_next hlast hring.head_next, ?_⟩
  refine h.change head (fun ms hms => ?_) fun other os hother hos => ?_
  · obtain rfl : y :: ys ++ xs = ms := by simpa [Lists.put] using hms
    exact hring.splice hlring hdisj
  · have hol : other ≠ list := by
      rintro rfl
      simp [Lists.put, hother] at hos
    have hold : lists other = some os := by simpa [Lists.put, hother, hol] using hos
    have hapart : ∀ x ∈ other :: os, x ∉ head :: xs :=
      fun x hx => h.not_mem hold hhead (Ne.symm hother) hx
    have hlapart : ∀ x ∈ other :: os, x ∉ list :: y :: ys :=
      fun x hx => h.not_mem hold hlist (Ne.symm hol) hx
    refine ⟨hold, fun x hx => ?_, fun ms hms => ?_⟩
    · have hxh : x ≠ head := fun he => hapart x hx (by simp [he])
      have hxy : x ≠ y := fun he => hlapart x hx (by simp [he])
      have hxl : x ≠ ys.getLastD y :=
        (ne_of_mem_of_not_mem (List.mem_cons_of_mem list (getLastD_mem y ys)) (hlapart x hx)).symm
      have hxv : x ≠ xs.headD head :=
        (ne_of_mem_of_not_mem (headD_mem_append head [] xs) (hapart x hx)).symm
      rw [link_of_ne hxl hxv]
      exact link_of_ne hxh hxy
    · obtain rfl : y :: ys ++ xs = ms := by simpa [Lists.put] using hms
      intro x hx hxo
      have hx' : x ∈ head :: xs ∨ x ∈ list :: y :: ys := by
        simp only [List.mem_cons, List.mem_append] at hx ⊢
        tauto
      rcases hx' with hx' | hx'
      · exact hapart x hxo hx'
      · exact hlapart x hxo hx'

theorem listSplice_spec {list : ν} (h : ListsHold heap lists) (hlist : (lists list).isSome)
    (hhead : (lists head).isSome) (hne : list ≠ head) :
    ∃ heap', listSplice heap list head = some heap' ∧ ListsHold heap' (lists.splice list head) := by
  obtain ⟨ys, hys⟩ := Option.isSome_iff_exists.1 hlist
  obtain ⟨xs, hxs⟩ := Option.isSome_iff_exists.1 hhead
  have hempty := listEmpty_spec h hlist
  cases ys with
  | nil => exact ⟨heap, by simp [listSplice, hempty, Lists.members, hys],
      by simpa [Lists.splice, Lists.members, hys] using h⟩
  | cons y ys =>
    obtain ⟨heap', hsplice, hhold⟩ := rawListSplice_spec h hys hxs hne
    exact ⟨heap', by simp [listSplice, hempty, Lists.members, hys, hsplice],
      by simpa [Lists.splice, Lists.members, hys, hxs] using hhold⟩

theorem listSpliceInit_spec {list : ν} (h : ListsHold heap lists) (hlist : (lists list).isSome)
    (hhead : (lists head).isSome) (hne : list ≠ head) :
    ∃ heap', listSpliceInit heap list head = some heap'
      ∧ ListsHold heap' ((lists.splice list head).put list []) := by
  obtain ⟨ys, hys⟩ := Option.isSome_iff_exists.1 hlist
  obtain ⟨xs, hxs⟩ := Option.isSome_iff_exists.1 hhead
  have hempty := listEmpty_spec h hlist
  cases ys with
  | nil =>
    have hsame : lists.put list [] = lists := by
      rw [Lists.put, ← hys, Function.update_eq_self]
    exact ⟨heap, by simp [listSpliceInit, hempty, Lists.members, hys],
      by simpa [Lists.splice, Lists.members, hys, hsame] using h⟩
  | cons y ys =>
    obtain ⟨heap₁, hsplice, hhold⟩ := rawListSplice_spec h hys hxs hne
    have hnot : ¬(Lists.put (Function.update lists list none) head (y :: ys ++ xs)).Entry list := by
      rintro ⟨a, as, ha, hmem⟩
      by_cases hah : a = head
      · subst hah
        obtain rfl : y :: ys ++ xs = as := by simpa [Lists.put] using ha
        rcases List.mem_append.1 hmem with hmem | hmem
        · exact (List.nodup_cons.1 (h.ring _ _ hys).nodup).1 hmem
        · exact h.not_mem hys hxs (Ne.symm hne) List.mem_cons_self (List.mem_cons_of_mem a hmem)
      · have hal : a ≠ list := by
          rintro rfl
          simp [Lists.put, hah] at ha
        have hold : lists a = some as := by simpa [Lists.put, hah, hal] using ha
        exact h.not_mem hys hold hal List.mem_cons_self (List.mem_cons_of_mem a hmem)
    obtain ⟨heap₂, hinit, hhold'⟩ := initListHead_spec hhold hnot
    exact ⟨heap₂, by simp [listSpliceInit, hempty, Lists.members, hys, hsplice, hinit],
      by simpa [Lists.splice, Lists.members, hys, hxs] using hhold'⟩

/-! ## Which nodes become entries -/

namespace Lists

theorem Entry.of_put {ms : List ν} (hentry : (lists.put head ms).Entry node) :
    node ∈ ms ∨ lists.Entry node := by
  obtain ⟨a, as, ha, hmem⟩ := hentry
  by_cases hah : a = head
  · subst hah
    obtain rfl : ms = as := by simpa [put] using ha
    exact Or.inl hmem
  · exact Or.inr ⟨a, as, by simpa [put, hah] using ha, hmem⟩

theorem Entry.of_update_none {other : ν}
    (hentry : Entry (Function.update lists other none) node) : lists.Entry node := by
  obtain ⟨a, as, ha, hmem⟩ := hentry
  by_cases hao : a = other
  · simp [hao] at ha
  · exact ⟨a, as, by simpa [hao] using ha, hmem⟩

theorem Entry.of_takeOut {other : ν} (hentry : (lists.takeOut other).Entry node) :
    lists.Entry node := by
  obtain ⟨a, as, ha, hmem⟩ := hentry.of_update_none
  obtain ⟨bs, hbs, rfl⟩ := Option.map_eq_some_iff.1 ha
  exact ⟨a, bs, hbs, List.mem_of_mem_erase hmem⟩

omit [DecidableEq ν] in
theorem Entry.of_members (hmem : node ∈ lists.members head) : lists.Entry node := by
  cases hhead : lists head with
  | none => simp [members, hhead] at hmem
  | some ms => exact ⟨head, ms, hhead, by simpa [members, hhead] using hmem⟩

theorem Entry.of_add (hentry : (lists.add new head).Entry node) :
    node = new ∨ lists.Entry node := by
  rcases hentry.of_put with hmem | hrest
  · rcases List.mem_cons.1 hmem with rfl | hmem
    · exact Or.inl rfl
    · exact Or.inr (Entry.of_members hmem)
  · exact Or.inr hrest.of_update_none

theorem Entry.of_addTail (hentry : (lists.addTail new head).Entry node) :
    node = new ∨ lists.Entry node := by
  rcases hentry.of_put with hmem | hrest
  · rcases List.mem_append.1 hmem with hmem | hmem
    · exact Or.inr (Entry.of_members hmem)
    · exact Or.inl (by simpa using hmem)
  · exact Or.inr hrest.of_update_none

theorem Entry.of_splice {list : ν} (hentry : (lists.splice list head).Entry node) :
    lists.Entry node := by
  unfold splice at hentry
  split at hentry
  · exact hentry
  · rcases hentry.of_put with hmem | hrest
    · rcases List.mem_append.1 hmem with hmem | hmem
      · exact Entry.of_members hmem
      · exact Entry.of_members hmem
    · exact hrest.of_update_none

/-- A call makes one node an entry at most. -/
theorem Entry.of_spec (lists : Lists ν) (call : ListCall ν) :
    ∃ new, ∀ node, (lists.spec call).1.Entry node → node = new ∨ lists.Entry node := by
  cases call with
  | init head => exact ⟨head, fun node h => Or.inr (by simpa using h.of_put)⟩
  | add new head => exact ⟨new, fun node h => h.of_add⟩
  | addTail new head => exact ⟨new, fun node h => h.of_addTail⟩
  | del entry => exact ⟨entry, fun node h => Or.inr h.of_takeOut⟩
  | delInit entry =>
    refine ⟨entry, fun node h => Or.inr ?_⟩
    have hrest : (lists.takeOut entry).Entry node := by simpa using h.of_put
    exact hrest.of_takeOut
  | move list head => exact ⟨list, fun node h => h.of_add.imp_right Entry.of_takeOut⟩
  | moveTail list head => exact ⟨list, fun node h => h.of_addTail.imp_right Entry.of_takeOut⟩
  | empty head => exact ⟨head, fun node h => Or.inr h⟩
  | splice list head => exact ⟨list, fun node h => Or.inr h.of_splice⟩
  | spliceInit list head =>
    refine ⟨list, fun node h => Or.inr ?_⟩
    have hrest : (lists.splice list head).Entry node := by simpa using h.of_put
    exact hrest.of_splice
  | forEach head => exact ⟨head, fun node h => Or.inr h⟩
  | forEachPrev head => exact ⟨head, fun node h => Or.inr h⟩
  | forEachSafe head deleted =>
    refine ⟨head, fun node h => Or.inr ?_⟩
    rcases h.of_put with hmem | hrest
    · exact Entry.of_members (List.mem_of_mem_filter hmem)
    · exact hrest

end Lists

/-! ## Loops -/

/-- A loop that goes on from every entry of a sequence to the next one, and from the last one to
the head, goes through the sequence. -/
theorem listWalk_eq {step : ν → Option ν} (hhead : head ∉ xs) :
    ∀ (done rest : List ν) {fuel : ℕ}, done ++ rest = xs →
      (∀ l e r, xs = l ++ e :: r → step e = some (r.headD head)) → rest.length < fuel →
      listWalk step head fuel (some (rest.headD head)) = some rest
  | done, [], fuel + 1, _, _, _ => by simp [listWalk]
  | done, e :: rest, fuel + 1, hxs, hstep, hfuel => by
    have heh : e ≠ head := by
      rintro rfl
      exact hhead (by simp [← hxs])
    have hassoc : done ++ [e] ++ rest = xs := by simpa using hxs
    rw [List.length_cons] at hfuel
    have hlt : rest.length < fuel := by omega
    have ih := listWalk_eq hhead (done ++ [e]) rest hassoc hstep hlt
    simp only [listWalk, List.headD_cons, Option.some.injEq, heh, if_false, Option.bind_eq_bind,
      Option.bind_some, hstep done e rest hxs.symm, ih]
    rfl

theorem listForEach_spec (h : ListsHold heap lists) (hxs : lists head = some xs)
    (hfuel : xs.length < fuel) : listForEach fuel heap head = some xs := by
  have hring := h.ring head xs hxs
  have hhead : head ∉ xs := (List.nodup_cons.1 hring.nodup).1
  rw [listForEach, hring.head_next]
  refine listWalk_eq hhead [] xs rfl (fun l e r hsplit => ?_) hfuel
  subst hsplit
  exact hring.mem_next

theorem listForEachPrev_spec (h : ListsHold heap lists) (hxs : lists head = some xs)
    (hfuel : xs.length < fuel) : listForEachPrev fuel heap head = some xs.reverse := by
  have hring := h.ring head xs hxs
  have hhead : head ∉ xs.reverse := by
    rw [List.mem_reverse]
    exact (List.nodup_cons.1 hring.nodup).1
  have hlast : ∀ l : List ν, l.getLastD head = l.reverse.headD head := by
    intro l
    simp
  rw [listForEachPrev, hring.head_prev, hlast]
  refine listWalk_eq hhead [] xs.reverse rfl (fun l e r hsplit => ?_) (by simpa using hfuel)
  have hxs' : xs = r.reverse ++ e :: l.reverse := by
    rw [← List.reverse_reverse xs, hsplit]
    simp
  subst hxs'
  rw [hring.mem_prev, hlast, List.reverse_reverse]

namespace ListCall

theorem delBody_spec (deleted : ν → Bool) (h : ListsHold heap lists)
    (hhead : lists head = some (done ++ node :: rest)) :
    ∃ heap', delBody deleted heap node = some heap'
      ∧ ListsHold heap' (lists.put head (done ++ [node].filter (!deleted ·) ++ rest)) := by
  by_cases hdel : deleted node = true
  · have hplaced : lists.Placed node := Or.inl ⟨head, _, hhead, by simp⟩
    obtain ⟨heap', hlistDel, hhold⟩ := listDel_spec h hplaced
    rw [h.takeOut_entry hhead] at hhold
    exact ⟨heap', by simp [delBody, hdel, hlistDel], by simpa [hdel] using hhold⟩
  · have hsame : lists.put head (done ++ node :: rest) = lists := by
      rw [Lists.put, ← hhead, Function.update_eq_self]
    exact ⟨heap, by simp [delBody, hdel], by simpa [hdel, hsame] using h⟩

/-- The loop with `n` read before the body runs: what was deleted behind it does not matter. -/
theorem listSafeLoop_spec (deleted : ν → Bool) : ∀ (rest done : List ν) {heap : ListHeap ν}
    {lists : Lists ν} {fuel : ℕ}, ListsHold heap lists → lists head = some (done ++ rest) →
    rest.length < fuel →
    ∃ heap', listSafeLoop (delBody deleted) head fuel heap (some (rest.headD head))
        (heap (rest.headD head)).next = some heap'
      ∧ ListsHold heap' (lists.put head (done ++ rest.filter (!deleted ·)))
  | [], done, heap, lists, fuel + 1, h, hhead, _ => by
    have hsame : lists.put head done = lists := by
      rw [List.append_nil] at hhead
      rw [Lists.put, ← hhead, Function.update_eq_self]
    exact ⟨heap, by simp [listSafeLoop], by simpa [hsame] using h⟩
  | e :: rest, done, heap, lists, fuel + 1, h, hhead, hfuel => by
    have hring := h.ring head _ hhead
    have heh : e ≠ head := by
      rintro rfl
      exact (List.nodup_cons.1 hring.nodup).1 (by simp)
    rw [List.length_cons] at hfuel
    obtain ⟨heap₁, hbody, hhold⟩ := delBody_spec deleted h hhead
    have hhead₁ : lists.put head (done ++ [e].filter (!deleted ·) ++ rest) head
        = some (done ++ [e].filter (!deleted ·) ++ rest) := by simp [Lists.put]
    have hlt : rest.length < fuel := by omega
    obtain ⟨heap₂, hloop, hhold'⟩ := listSafeLoop_spec deleted rest _ hhold hhead₁ hlt
    refine ⟨heap₂, ?_, ?_⟩
    · simp only [listSafeLoop, List.headD_cons, Option.some.injEq, heh, if_false,
        Option.bind_eq_bind, Option.bind_some, hbody, hring.mem_next, hloop]
    · have hput : (lists.put head (done ++ [e].filter (!deleted ·) ++ rest)).put head
          (done ++ [e].filter (!deleted ·) ++ rest.filter (!deleted ·))
          = lists.put head (done ++ (e :: rest).filter (!deleted ·)) := by
        rw [Lists.put, Lists.put, Function.update_idem, List.append_assoc, ← List.filter_append,
          List.singleton_append]
        rfl
      rwa [hput] at hhold'

theorem listForEachSafe_spec (deleted : ν → Bool) (h : ListsHold heap lists)
    (hxs : lists head = some xs) (hfuel : xs.length < fuel) :
    ∃ heap', listForEachSafe fuel (delBody deleted) heap head = some heap'
      ∧ ListsHold heap' (lists.put head (xs.filter (!deleted ·))) := by
  obtain ⟨heap', hloop, hhold⟩ := listSafeLoop_spec deleted xs [] h hxs hfuel
  refine ⟨heap', ?_, hhold⟩
  rw [listForEachSafe, (h.ring head xs hxs).head_next]
  exact hloop

/-- One call: the lists are what they are after the same call on sequences. -/
theorem exec_spec (call : ListCall ν) (h : ListsHold heap lists) (hlegal : lists.Legal call)
    (hfuel : ∀ head members, lists head = some members → members.length < fuel) :
    ∃ heap', call.exec fuel heap = some (heap', (lists.spec call).2)
      ∧ ListsHold heap' (lists.spec call).1 := by
  cases call with
  | init head =>
    obtain ⟨heap', hexec, hhold⟩ := initListHead_spec h hlegal
    exact ⟨heap', by simp [exec, hexec, Lists.spec], hhold⟩
  | add new head =>
    obtain ⟨hnew, hhead, hne⟩ := hlegal
    obtain ⟨heap', hexec, hhold⟩ := listAdd_spec h hnew hhead hne
    exact ⟨heap', by simp [exec, hexec, Lists.spec], hhold⟩
  | addTail new head =>
    obtain ⟨hnew, hhead, hne⟩ := hlegal
    obtain ⟨heap', hexec, hhold⟩ := listAddTail_spec h hnew hhead hne
    exact ⟨heap', by simp [exec, hexec, Lists.spec], hhold⟩
  | del entry =>
    obtain ⟨heap', hexec, hhold⟩ := listDel_spec h hlegal
    exact ⟨heap', by simp [exec, hexec, Lists.spec], hhold⟩
  | delInit entry =>
    obtain ⟨heap', hexec, hhold⟩ := listDelInit_spec h hlegal
    exact ⟨heap', by simp [exec, hexec, Lists.spec], hhold⟩
  | move list head =>
    obtain ⟨hlist, hhead, hne⟩ := hlegal
    obtain ⟨heap', hexec, hhold⟩ := listMove_spec h hlist hhead hne
    exact ⟨heap', by simp [exec, hexec, Lists.spec], hhold⟩
  | moveTail list head =>
    obtain ⟨hlist, hhead, hne⟩ := hlegal
    obtain ⟨heap', hexec, hhold⟩ := listMoveTail_spec h hlist hhead hne
    exact ⟨heap', by simp [exec, hexec, Lists.spec], hhold⟩
  | empty head =>
    exact ⟨heap, by simp [exec, listEmpty_spec h hlegal, Lists.spec], h⟩
  | splice list head =>
    obtain ⟨hlist, hhead, hne⟩ := hlegal
    obtain ⟨heap', hexec, hhold⟩ := listSplice_spec h hlist hhead hne
    exact ⟨heap', by simp [exec, hexec, Lists.spec], hhold⟩
  | spliceInit list head =>
    obtain ⟨hlist, hhead, hne⟩ := hlegal
    obtain ⟨heap', hexec, hhold⟩ := listSpliceInit_spec h hlist hhead hne
    exact ⟨heap', by simp [exec, hexec, Lists.spec], hhold⟩
  | forEach head =>
    obtain ⟨xs, hxs⟩ := Option.isSome_iff_exists.1 hlegal
    have hmem : lists.members head = xs := by simp [Lists.members, hxs]
    have hwalk := listForEach_spec h hxs (hfuel head xs hxs)
    exact ⟨heap, by simp [exec, hwalk, Lists.spec, hmem], h⟩
  | forEachPrev head =>
    obtain ⟨xs, hxs⟩ := Option.isSome_iff_exists.1 hlegal
    have hmem : lists.members head = xs := by simp [Lists.members, hxs]
    have hwalk := listForEachPrev_spec h hxs (hfuel head xs hxs)
    exact ⟨heap, by simp [exec, hwalk, Lists.spec, hmem], h⟩
  | forEachSafe head deleted =>
    obtain ⟨xs, hxs⟩ := Option.isSome_iff_exists.1 hlegal
    have hmem : lists.members head = xs := by simp [Lists.members, hxs]
    obtain ⟨heap', hexec, hhold⟩ := listForEachSafe_spec deleted h hxs (hfuel head xs hxs)
    exact ⟨heap', by simp [exec, hexec, Lists.spec], by simpa [Lists.spec, hmem] using hhold⟩

/-- The calls after some lists were found in order, whose entries are among those seen. -/
theorem execAll_spec : ∀ (calls : List (ListCall ν)) {heap : ListHeap ν} {lists : Lists ν}
    (seen : List ν), ListsHold heap lists → (∀ node, lists.Entry node → node ∈ seen) →
    Along Lists.spec Lists.Legal lists calls → seen.length + calls.length ≤ fuel →
    ∃ heap', execAll fuel heap calls = some (heap', (run Lists.spec lists calls).2)
      ∧ ListsHold heap' (run Lists.spec lists calls).1
  | [], heap, lists, _, h, _, _, _ => ⟨heap, rfl, h⟩
  | call :: calls, heap, lists, seen, h, hseen, hlegal, hfuel => by
    rw [List.length_cons] at hfuel
    have hshort : ∀ head members, lists head = some members → members.length < fuel := by
      intro head members hmembers
      have hsub : members ⊆ seen := fun x hx => hseen x ⟨head, members, hmembers, hx⟩
      have hnd : members.Nodup := (List.nodup_cons.1 (h.ring head members hmembers).nodup).2
      have hle : members.length ≤ seen.length := (hnd.subperm hsub).length_le
      omega
    obtain ⟨heap₁, hexec, hhold⟩ := exec_spec call h hlegal.1 hshort
    obtain ⟨new, hnew⟩ := Lists.Entry.of_spec lists call
    have hseen' : ∀ node, (lists.spec call).1.Entry node → node ∈ new :: seen := by
      intro node hnode
      rcases hnew node hnode with rfl | hold
      · exact List.mem_cons_self
      · exact List.mem_cons_of_mem new (hseen node hold)
    obtain ⟨heap₂, hrest, hhold'⟩ := execAll_spec calls (new :: seen) hhold hseen' hlegal.2
      (by rw [List.length_cons]; omega)
    exact ⟨heap₂, by simp [execAll, hexec, hrest], hhold'⟩

end ListCall

/-- Whatever the pointers were before: as long as new entries are in no list, entries deleted or
moved are in one, heads are initialised ones and other nodes than the entries, no call goes through
`NULL`, every loop comes to its end, forwards, backwards and with entries deleted under it, and the
calls answer what they answer for sequences; after them the pointers are those of the sequences. -/
theorem lists_follow_sequences (heap : ListHeap ν) (calls : List (ListCall ν))
    (hlegal : Along Lists.spec Lists.Legal (fun _ => none) calls) (fuel : ℕ)
    (hfuel : calls.length ≤ fuel) :
    ∃ heap', ListCall.execAll fuel heap calls
        = some (heap', (run Lists.spec (fun _ => none) calls).2)
      ∧ ListsHold heap' (run Lists.spec (fun _ => none) calls).1 := by
  have hnone : ListsHold heap (fun _ => none) := by
    refine ⟨fun head members hmembers => ?_, fun head members head' members' hmembers => ?_⟩
    · exact absurd hmembers (by simp)
    · exact absurd hmembers (by simp)
  have hseen : ∀ node, Lists.Entry (fun _ : ν => none) node → node ∈ ([] : List ν) := by
    rintro node ⟨head, members, hmembers, -⟩
    exact absurd hmembers (by simp)
  exact ListCall.execAll_spec calls [] hnone hseen hlegal (by simpa using hfuel)

/-- Two lists: entries are added at both ends, one is moved from one list to the other, the lists
are joined, and one entry is deleted by the loop that goes through them. -/
def joinedCalls : List (ListCall ℕ) :=
  [.init 0, .init 10, .add 1 0, .addTail 2 0, .addTail 11 10, .move 2 10, .spliceInit 10 0,
    .forEachPrev 0, .forEachSafe 0 (· == 11)]

theorem joinedCalls_legal : Along Lists.spec Lists.Legal (fun _ => none) joinedCalls := by
  simp [joinedCalls, Along, Lists.Legal, Lists.spec, Lists.Free, Lists.Placed, Lists.Entry,
    Lists.put, Lists.add, Lists.addTail, Lists.takeOut, Lists.members, Lists.splice,
    Function.update_apply]
  refine ⟨?_, ?_, ?_, 0, [1, 2], rfl, by simp⟩
  · intro head members hmembers
    split_ifs at hmembers <;> cases hmembers <;> simp
  · intro head members hmembers
    split_ifs at hmembers <;> cases hmembers <;> simp
  · intro head members hmembers
    split_ifs at hmembers <;> cases hmembers <;> simp

theorem lists_follow_sequences_joined :
    ∃ heap', ListCall.execAll 9 (fun _ => ⟨none, none⟩) joinedCalls
        = some (heap', [.done, .done, .done, .done, .done, .done, .done, .entries [1, 11, 2],
          .done])
      ∧ ListsHold heap' (run Lists.spec (fun _ => none) joinedCalls).1 :=
  lists_follow_sequences (fun _ => ⟨none, none⟩) joinedCalls joinedCalls_legal 9 (by decide)

end Emodbus
