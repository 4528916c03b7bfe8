import MultiPandOS.Headers.Listx
import MultiPandOS.Headers.Types

/-! Process control blocks down to their links (`phase1/pcb.c`).

Here a queue is not a list but the `next` and `prev` pointers of its sentinel and of
the `p_list`s linked behind it. `P` are the addresses of `pcb_t`s and `A` those of the
list heads outside of `pcb.c` and of any `pcb_t`: ready queue, queues of semaphores,
local variables. -/
namespace MultiPandOS
open CircularList Listx

/-- The address of a `struct list_head`. -/
inductive ListHead (P A : Type) where
  | pList (p : P)
  | pChild (p : P)
  | pSib (p : P)
  | pcbFreeH
  | other (a : A)
deriving DecidableEq

/-- The fields of a `pcb_t` that are no list heads. -/
structure PcbFields (P : Type) where
  pParent : Option P
  pS : State
  pTime : Word
  pSemAdd : Addr
  pSupportStruct : Addr
  pPrio : Word
  pPid : Word

structure Heap (P A : Type) where
  link : Links (ListHead P A)
  pcb : P → PcbFields P

namespace Heap
variable {P A : Type} [DecidableEq P] [DecidableEq A]

/-- `container_of(entry, pcb_t, p_list)`. Any other list head would give the address of
something that is no `pcb_t`. -/
def containerOf : ListHead P A → Option P
  | .pList p => some p
  | _ => none

/-- The priority `insertProcQ` compares, as the signed integer it is. -/
def prio (m : Heap P A) (p : P) : Int := (m.pcb p).pPrio.toInt

/-! ### Process queues -/

def mkEmptyProcQ (head : ListHead P A) (m : Heap P A) : Heap P A :=
  {m with link := initListHead head m.link}

def emptyProcQ (head : ListHead P A) (m : Heap P A) : Bool := listEmpty head m.link

def insertProcQ (fuel : Nat) (head : ListHead P A) (p : P) (m : Heap P A) : Option (Heap P A) := do
  let found ← listForEach m.link head (fun iter => do
    let item ← containerOf iter
    if m.prio item < m.prio p then
      some (some (listAdd (.pList p) (m.link iter).prev m.link))
    else some none) fuel (m.link head).next
  match found with
  | some link => some {m with link := link}
  | none => some {m with link := listAddTail (.pList p) head m.link}

def headProcQ (head : ListHead P A) (m : Heap P A) : Option (Option P) :=
  if listEmpty head m.link then some none
  else do
    let p ← containerOf (m.link head).next
    some (some p)

def removeProcQ (head : ListHead P A) (m : Heap P A) : Option (Heap P A × Option P) :=
  if listEmpty head m.link then some (m, none)
  else do
    let entry := (m.link head).next
    let m := {m with link := listDel entry m.link}
    let p ← containerOf entry
    some (m, some p)

def outProcQ (fuel : Nat) (head : ListHead P A) (p : P) (m : Heap P A) :
    Option (Heap P A × Option P) := do
  let found ← listForEach m.link head (fun iter => do
    let item ← containerOf iter
    if item = p then some (some (listDel iter m.link)) else some none) fuel (m.link head).next
  match found with
  | some link => some ({m with link := link}, some p)
  | none => some (m, none)

/-! ### The process tree -/

/-- `container_of(entry, pcb_t, p_sib)`. -/
def siblingOf : ListHead P A → Option P
  | .pSib p => some p
  | _ => none

def setParent (p : P) (prnt : Option P) (m : Heap P A) : Heap P A :=
  {m with pcb := Function.update m.pcb p {m.pcb p with pParent := prnt}}

def emptyChild (p : Option P) (m : Heap P A) : Bool :=
  match p with
  | none => true
  | some p => (m.link (.pChild p)).next == .pChild p

def insertChild (prnt p : Option P) (m : Heap P A) : Heap P A :=
  match prnt, p with
  | some prnt, some p =>
    let m := m.setParent p (some prnt)
    {m with link := listAdd (.pSib p) (.pChild prnt) m.link}
  | _, _ => m

def removeChild (p : Option P) (m : Heap P A) : Option (Heap P A × Option P) :=
  match p with
  | none => some (m, none)
  | some p =>
    if emptyChild (some p) m then some (m, none)
    else do
      let removedChild ← siblingOf (m.link (.pChild p)).next
      let m := {m with link := listDel (.pSib removedChild) m.link}
      let m := m.setParent removedChild none
      some ({m with link := initListHead (.pSib removedChild) m.link}, some removedChild)

def outChild (p : Option P) (m : Heap P A) : Heap P A × Option P :=
  match p with
  | none => (m, none)
  | some p =>
    match (m.pcb p).pParent with
    | none => (m, none)
    | some _ =>
      let m := {m with link := listDel (.pSib p) m.link}
      let m := m.setParent p none
      ({m with link := initListHead (.pSib p) m.link}, some p)

end Heap

/-! ### The free list -/

/-- The static variables of `pcb.c` and the memory around them. `pcbFree_table` has an
entry for each `PcbPtr`. -/
structure Pcbs (A : Type) where
  heap : Heap PcbPtr A
  nextPid : Word

namespace Pcbs
variable {A : Type} [DecidableEq A]

def initPcbs (s : Pcbs A) : Pcbs A :=
  let link := initListHead .pcbFreeH s.heap.link
  let link := (List.finRange MAXPROC).foldl (fun link c => listAdd (.pList c) .pcbFreeH link) link
  {s with heap := {s.heap with link := link}}

def freePcb (p : PcbPtr) (s : Pcbs A) : Pcbs A :=
  {s with heap := {s.heap with link := listAdd (.pList p) .pcbFreeH s.heap.link}}

def allocPcb (s : Pcbs A) : Option (Pcbs A × Option PcbPtr) :=
  if listEmpty .pcbFreeH s.heap.link then some (s, none)
  else do
    let entry := (s.heap.link .pcbFreeH).next
    let link := listDel entry s.heap.link
    let p ← Heap.containerOf entry
    let b := {s.heap.pcb p with pPid := s.nextPid, pParent := none}
    let link := initListHead (.pChild p) link
    let link := initListHead (.pSib p) link
    let b := {b with pTime := 0, pSemAdd := NULL, pSupportStruct := NULL, pPrio := 0}
    let b := {b with pS := {b.pS with entryHi := 0, cause := 0, status := 0, pcEpc := 0, mie := 0}}
    let gpr := (List.finRange 32).foldl (fun gpr c => Function.update gpr c 0) b.pS.gpr
    let b := {b with pS := {b.pS with gpr := gpr}}
    some ({heap := {link := link, pcb := Function.update s.heap.pcb p b}, nextPid := s.nextPid + 1}, some p)

end Pcbs

end MultiPandOS
