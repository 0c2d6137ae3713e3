import Mathlib.Data.Int.Notation
import Emodbus.Lib.Links
import Emodbus.Lib.Mealy

/-!
# The single linked list

`base/add/s-list.c` and the macros of `s-list.h` over it.  A pointer to a `struct sb_list_head` is
a node or `NULL`, and the heap holds the `next` of every node.  A loop that has not come to its end
when the fuel is used up gives no result.
-/

namespace Emodbus

open Links

variable {ν : Type} [DecidableEq ν]

/-- The `next` pointers. -/
abbrev SbHeap (ν : Type) := ν → Option ν

/-- `sb_list_init`. -/
def sbListInit (heap : SbHeap ν) : Option ν → SbHeap ν
  | some anchor => Function.update heap anchor none
  | none => heap

/-- `sb_list_add_to_begin`. -/
def sbListAddToBegin (heap : SbHeap ν) : Option ν → Option ν → SbHeap ν
  | some anchor, some newElem =>
    let heap := Function.update heap newElem (heap anchor)
    Function.update heap anchor (some newElem)
  | _, _ => heap

/-- `sb_list_add_to_end`. -/
def sbListAddToEnd (fuel : ℕ) (heap : SbHeap ν) : Option ν → Option ν → Option (SbHeap ν)
  | some anchor, some newElem => do
    let i ← walk heap (fun _ => false) fuel anchor
    let heap := Function.update heap i (some newElem)
    return Function.update heap newElem none
  | _, _ => some heap

/-- `sb_list_remove`. -/
def sbListRemove (fuel : ℕ) (heap : SbHeap ν) : Option ν → Option ν → Option (SbHeap ν × ℤ)
  | some anchor, some elem => do
    let i ← walk heap (· == elem) fuel anchor
    if (heap i).isSome then return (Function.update heap i (heap elem), 0)
    else return (heap, -1)
  | _, _ => some (heap, -1)

/-- `sb_list_has_elem`. -/
def sbListHasElem (fuel : ℕ) (heap : SbHeap ν) : Option ν → Option ν → Option ℤ
  | some anchor, some elem => do
    let i ← walk heap (· == elem) fuel anchor
    return if (heap i).isSome then 1 else 0
  | _, _ => some 0

/-- `sb_list_add_to_begin_safe`. -/
def sbListAddToBeginSafe (fuel : ℕ) (heap : SbHeap ν) (anchor newElem : Option ν) :
    Option (SbHeap ν) := do
  let has ← sbListHasElem fuel heap anchor newElem
  if has = 0 then return sbListAddToBegin heap anchor newElem
  else return heap

/-- `sb_list_add_to_end_safe`. -/
def sbListAddToEndSafe (fuel : ℕ) (heap : SbHeap ν) (anchor newElem : Option ν) :
    Option (SbHeap ν) := do
  let has ← sbListHasElem fuel heap anchor newElem
  if has = 0 then sbListAddToEnd fuel heap anchor newElem
  else return heap

/-! ## Sequences of calls -/

/-- A call for one anchor, with the node it is given. -/
inductive SbCall (ν : Type)
  | init
  | addToBeginSafe (elem : ν)
  | addToEndSafe (elem : ν)
  | remove (elem : ν)
  | hasElem (elem : ν)

namespace SbCall

/-- The node a call is given is not this one. -/
def Spares (anchor : ν) : SbCall ν → Prop
  | init => True
  | addToBeginSafe elem => elem ≠ anchor
  | addToEndSafe elem => elem ≠ anchor
  | remove elem => elem ≠ anchor
  | hasElem elem => elem ≠ anchor

/-- What a call does to the heap, and what it returns, if it returns something. -/
def exec (fuel : ℕ) (anchor : ν) (heap : SbHeap ν) : SbCall ν → Option (SbHeap ν × Option ℤ)
  | init => some (sbListInit heap anchor, none)
  | addToBeginSafe elem => do
    return (← sbListAddToBeginSafe fuel heap anchor elem, none)
  | addToEndSafe elem => do
    return (← sbListAddToEndSafe fuel heap anchor elem, none)
  | remove elem => do
    let (heap, result) ← sbListRemove fuel heap anchor elem
    return (heap, some result)
  | hasElem elem => do
    return (heap, some (← sbListHasElem fuel heap anchor elem))

/-- The calls of the list one after the other. -/
def execAll (fuel : ℕ) (anchor : ν) (heap : SbHeap ν) :
    List (SbCall ν) → Option (SbHeap ν × List (Option ℤ))
  | [] => some (heap, [])
  | call :: calls => do
    let (heap, result) ← call.exec fuel anchor heap
    let (heap, results) ← execAll fuel anchor heap calls
    return (heap, result :: results)

/-- The same call of a sequence without duplicates. -/
def spec (elems : List ν) : SbCall ν → List ν × Option ℤ
  | init => ([], none)
  | addToBeginSafe elem => (if elem ∈ elems then elems else elem :: elems, none)
  | addToEndSafe elem => (if elem ∈ elems then elems else elems ++ [elem], none)
  | remove elem => (elems.erase elem, some (if elem ∈ elems then 0 else -1))
  | hasElem elem => (elems, some (if elem ∈ elems then 1 else 0))

end SbCall

/-- The chain from the anchor is this sequence: it comes to an end, and no node is on it twice. -/
structure SbList (heap : SbHeap ν) (anchor : ν) (elems : List ν) : Prop where
  chain : Chain heap anchor elems
  nodup : (anchor :: elems).Nodup

end Emodbus
