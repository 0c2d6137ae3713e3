import Emodbus.Lib.Rings
import Mathlib.Data.Int.Notation

/-!
# The doubly linked list

`base/add/list.c` and the macros of `list.h`.  A `struct list_head` is a node with two pointers to
nodes; one that is `NULL` has no node behind it, and reading or writing through it gives no result.
Neither does a loop that has not come to its end when the fuel is used up.
-/

namespace Emodbus

open Rings

variable {ν : Type} [DecidableEq ν]

/-- The two pointers of every `struct list_head`. -/
abbrev ListHeap (ν : Type) := ν → Node ν

def setNext (heap : ListHeap ν) (pos value : Option ν) : Option (ListHeap ν) := do
  let pos ← pos
  return Function.update heap pos { heap pos with next := value }

def setPrev (heap : ListHeap ν) (pos value : Option ν) : Option (ListHeap ν) := do
  let pos ← pos
  return Function.update heap pos { heap pos with prev := value }

/-- `INIT_LIST_HEAD`. -/
def initListHead (heap : ListHeap ν) (ptr : ν) : Option (ListHeap ν) := do
  let heap ← setNext heap ptr ptr
  setPrev heap ptr ptr

/-- `__list_add`. -/
def rawListAdd (heap : ListHeap ν) (new prev next : Option ν) : Option (ListHeap ν) := do
  let heap ← setPrev heap next new
  let heap ← setNext heap new next
  let heap ← setPrev heap new prev
  setNext heap prev new

/-- `list_add`. -/
def listAdd (heap : ListHeap ν) (new head : ν) : Option (ListHeap ν) :=
  rawListAdd heap new head (heap head).next

/-- `list_add_tail`. -/
def listAddTail (heap : ListHeap ν) (new head : ν) : Option (ListHeap ν) :=
  rawListAdd heap new (heap head).prev head

/-- `__list_del`. -/
def rawListDel (heap : ListHeap ν) (prev next : Option ν) : Option (ListHeap ν) := do
  let heap ← setPrev heap next prev
  setNext heap prev next

/-- `list_del`. -/
def listDel (heap : ListHeap ν) (entry : ν) : Option (ListHeap ν) := do
  let heap ← rawListDel heap (heap entry).prev (heap entry).next
  let heap ← setNext heap entry none
  setPrev heap entry none

/-- `list_del_init`. -/
def listDelInit (heap : ListHeap ν) (entry : ν) : Option (ListHeap ν) := do
  let heap ← rawListDel heap (heap entry).prev (heap entry).next
  initListHead heap entry

/-- `list_move`. -/
def listMove (heap : ListHeap ν) (list head : ν) : Option (ListHeap ν) := do
  let heap ← rawListDel heap (heap list).prev (heap list).next
  listAdd heap list head

/-- `list_move_tail`. -/
def listMoveTail (heap : ListHeap ν) (list head : ν) : Option (ListHeap ν) := do
  let heap ← rawListDel heap (heap list).prev (heap list).next
  listAddTail heap list head

/-- `list_empty`. -/
def listEmpty (heap : ListHeap ν) (head : ν) : ℤ :=
  if (heap head).next = some head then 1 else 0

/-- `__list_splice`. -/
def rawListSplice (heap : ListHeap ν) (list head : ν) : Option (ListHeap ν) := do
  let first := (heap list).next
  let last := (heap list).prev
  let at_ := (heap head).next
  let heap ← setPrev heap first head
  let heap ← setNext heap head first
  let heap ← setNext heap last at_
  setPrev heap at_ last

/-- `list_splice`. -/
def listSplice (heap : ListHeap ν) (list head : ν) : Option (ListHeap ν) :=
  if listEmpty heap list = 0 then rawListSplice heap list head else some heap

/-- `list_splice_init`. -/
def listSpliceInit (heap : ListHeap ν) (list head : ν) : Option (ListHeap ν) :=
  if listEmpty heap list = 0 then do
    let heap ← rawListSplice heap list head
    initListHead heap list
  else some heap

/-- The entries a loop meets that goes on from an entry to `step entry`. -/
def listWalk (step : ν → Option ν) (head : ν) : ℕ → Option ν → Option (List ν)
  | 0, _ => none
  | fuel + 1, pos =>
    if pos = some head then some []
    else do
      let entry ← pos
      let entries ← listWalk step head fuel (step entry)
      return entry :: entries

/-- The entries `list_for_each` goes through. -/
def listForEach (fuel : ℕ) (heap : ListHeap ν) (head : ν) : Option (List ν) :=
  listWalk (fun entry => (heap entry).next) head fuel (heap head).next

/-- The entries `list_for_each_prev` goes through. -/
def listForEachPrev (fuel : ℕ) (heap : ListHeap ν) (head : ν) : Option (List ν) :=
  listWalk (fun entry => (heap entry).prev) head fuel (heap head).prev

/-- The loop of `list_for_each_safe`, from where `pos` and `n` point. -/
def listSafeLoop (body : ListHeap ν → ν → Option (ListHeap ν)) (head : ν) :
    ℕ → ListHeap ν → Option ν → Option ν → Option (ListHeap ν)
  | 0, _, _, _ => none
  | fuel + 1, heap, pos, n =>
    if pos = some head then some heap
    else do
      let entry ← pos
      let heap ← body heap entry
      let next ← n
      listSafeLoop body head fuel heap next (heap next).next

/-- `list_for_each_safe` with this body. -/
def listForEachSafe (fuel : ℕ) (body : ListHeap ν → ν → Option (ListHeap ν)) (heap : ListHeap ν)
    (head : ν) : Option (ListHeap ν) := do
  let pos ← (heap head).next
  listSafeLoop body head fuel heap pos (heap pos).next

/-! ## Sequences of calls -/

/-- A call, with the nodes it is given; `forEachSafe` is the loop whose body is `list_del` for the
entries to be deleted. -/
inductive ListCall (ν : Type)
  | init (head : ν)
  | add (new head : ν)
  | addTail (new head : ν)
  | del (entry : ν)
  | delInit (entry : ν)
  | move (list head : ν)
  | moveTail (list head : ν)
  | empty (head : ν)
  | splice (list head : ν)
  | spliceInit (list head : ν)
  | forEach (head : ν)
  | forEachPrev (head : ν)
  | forEachSafe (head : ν) (deleted : ν → Bool)

/-- What a call returns, or the entries its loop goes through. -/
inductive ListAnswer (ν : Type)
  | done
  | int (value : ℤ)
  | entries (nodes : List ν)
deriving DecidableEq

namespace ListCall

/-- `list_del` for the entries to be deleted. -/
def delBody (deleted : ν → Bool) (heap : ListHeap ν) (entry : ν) : Option (ListHeap ν) :=
  if deleted entry then listDel heap entry else some heap

def exec (fuel : ℕ) (heap : ListHeap ν) : ListCall ν → Option (ListHeap ν × ListAnswer ν)
  | init head => return (← initListHead heap head, .done)
  | add new head => return (← listAdd heap new head, .done)
  | addTail new head => return (← listAddTail heap new head, .done)
  | del entry => return (← listDel heap entry, .done)
  | delInit entry => return (← listDelInit heap entry, .done)
  | move list head => return (← listMove heap list head, .done)
  | moveTail list head => return (← listMoveTail heap list head, .done)
  | empty head => return (heap, .int (listEmpty heap head))
  | splice list head => return (← listSplice heap list head, .done)
  | spliceInit list head => return (← listSpliceInit heap list head, .done)
  | forEach head => return (heap, .entries (← listForEach fuel heap head))
  | forEachPrev head => return (heap, .entries (← listForEachPrev fuel heap head))
  | forEachSafe head deleted => return (← listForEachSafe fuel (delBody deleted) heap head, .done)

/-- The calls one after the other. -/
def execAll (fuel : ℕ) (heap : ListHeap ν) :
    List (ListCall ν) → Option (ListHeap ν × List (ListAnswer ν))
  | [] => some (heap, [])
  | call :: calls => do
    let (heap, answer) ← call.exec fuel heap
    let (heap, answers) ← execAll fuel heap calls
    return (heap, answer :: answers)

end ListCall

/-! ## What the lists are for -/

/-- The sequence of entries of every list head; a node that is none has no sequence. -/
abbrev Lists (ν : Type) := ν → Option (List ν)

namespace Lists

/-- The node is an entry of a list. -/
def Entry (lists : Lists ν) (node : ν) : Prop :=
  ∃ head members, lists head = some members ∧ node ∈ members

/-- The node is no entry, and no list would be lost if it became one. -/
def Free (lists : Lists ν) (node : ν) : Prop :=
  ¬lists.Entry node ∧ (lists node = none ∨ lists node = some [])

/-- The node can be taken out: it is an entry, or stands for itself as after `list_del_init`. -/
def Placed (lists : Lists ν) (node : ν) : Prop :=
  lists.Entry node ∨ lists node = some []

def members (lists : Lists ν) (head : ν) : List ν := (lists head).getD []

def put (lists : Lists ν) (head : ν) (members : List ν) : Lists ν :=
  Function.update lists head (some members)

/-- The node is an entry of no list and no list head any more. -/
def takeOut (lists : Lists ν) (node : ν) : Lists ν :=
  Function.update (fun head => (lists head).map (·.erase node)) node none

def add (lists : Lists ν) (new head : ν) : Lists ν :=
  put (Function.update lists new none) head (new :: lists.members head)

def addTail (lists : Lists ν) (new head : ν) : Lists ν :=
  put (Function.update lists new none) head (lists.members head ++ [new])

/-- The entries of `list` come before those of `head`; `list` is no list head any more, unless it
had none. -/
def splice (lists : Lists ν) (list head : ν) : Lists ν :=
  if lists.members list = [] then lists
  else put (Function.update lists list none) head (lists.members list ++ lists.members head)

/-- A call on sequences. -/
def spec (lists : Lists ν) : ListCall ν → Lists ν × ListAnswer ν
  | .init head => (lists.put head [], .done)
  | .add new head => (lists.add new head, .done)
  | .addTail new head => (lists.addTail new head, .done)
  | .del entry => (lists.takeOut entry, .done)
  | .delInit entry => ((lists.takeOut entry).put entry [], .done)
  | .move list head => ((lists.takeOut list).add list head, .done)
  | .moveTail list head => ((lists.takeOut list).addTail list head, .done)
  | .empty head => (lists, .int (if lists.members head = [] then 1 else 0))
  | .splice list head => (lists.splice list head, .done)
  | .spliceInit list head => ((lists.splice list head).put list [], .done)
  | .forEach head => (lists, .entries (lists.members head))
  | .forEachPrev head => (lists, .entries (lists.members head).reverse)
  | .forEachSafe head deleted =>
    (lists.put head ((lists.members head).filter (!deleted ·)), .done)

/-- The call is given nodes as the comments of `list.h` want them: a new entry is in no list, an
entry to be deleted or moved is in one, and a head is one and another node. -/
def Legal (lists : Lists ν) : ListCall ν → Prop
  | .init head => ¬lists.Entry head
  | .add new head => lists.Free new ∧ (lists head).isSome ∧ new ≠ head
  | .addTail new head => lists.Free new ∧ (lists head).isSome ∧ new ≠ head
  | .del entry => lists.Placed entry
  | .delInit entry => lists.Placed entry
  | .move list head => lists.Placed list ∧ (lists head).isSome ∧ list ≠ head
  | .moveTail list head => lists.Placed list ∧ (lists head).isSome ∧ list ≠ head
  | .empty head => (lists head).isSome
  | .splice list head => (lists list).isSome ∧ (lists head).isSome ∧ list ≠ head
  | .spliceInit list head => (lists list).isSome ∧ (lists head).isSome ∧ list ≠ head
  | .forEach head => (lists head).isSome
  | .forEachPrev head => (lists head).isSome
  | .forEachSafe head _ => (lists head).isSome

end Lists

/-- The pointers are those of these lists, and no node is in two of them. -/
structure ListsHold (heap : ListHeap ν) (lists : Lists ν) : Prop where
  ring : ∀ head members, lists head = some members → Ring heap head members
  apart : ∀ head members head' members', lists head = some members →
    lists head' = some members' → head ≠ head' → (head :: members).Disjoint (head' :: members')

end Emodbus
