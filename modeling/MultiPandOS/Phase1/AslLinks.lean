import MultiPandOS.Phase1.PcbLinks

/-! The active semaphore list down to its links (`phase1/asl.c`).

`Linked` is the memory of the nucleus with every list as the pointers of its nodes; what
is not a list is in `Globals`. The loops take the fuel that bounds one traversal. -/
namespace MultiPandOS
open CircularList Listx

/-- The list heads that are not in `pcb.c` and not in a `pcb_t`. -/
inductive NucleusHead where
  | semdH
  | semdFreeH
  | sLink (j : SemdPtr)
  | sProcq (j : SemdPtr)
  | readyQueue
deriving DecidableEq

abbrev Node := ListHead PcbPtr NucleusHead

/-- The global variables of the nucleus that are not lists. -/
structure Globals where
  currentProcess : Option PcbPtr
  processCount : Word
  softBlockCount : Word
  mem : Addr → Word
  startTime : Fin NCPU → Word
  support : Addr → Support
  devWrites : List (Addr × Word)
  control : Control

/-- `sKey` is the `s_key` of each element of `semd_table`. -/
structure Linked extends Pcbs NucleusHead where
  sKey : SemdPtr → Addr
  globals : Globals

namespace Linked

def semdH : Node := .other .semdH
def semdFreeH : Node := .other .semdFreeH
def sLink (j : SemdPtr) : Node := .other (.sLink j)
def sProcq (j : SemdPtr) : Node := .other (.sProcq j)
def readyQueue : Node := .other .readyQueue

def setLink (link : Links Node) (n : Linked) : Linked := {n with heap := {n.heap with link := link}}

def setPcb (p : PcbPtr) (b : PcbFields PcbPtr) (n : Linked) : Linked :=
  {n with heap := {n.heap with pcb := Function.update n.heap.pcb p b}}

/-- `p->p_semAdd = semAdd`. -/
def setSemAdd (p : PcbPtr) (semAdd : Addr) (n : Linked) : Linked :=
  n.setPcb p {n.heap.pcb p with pSemAdd := semAdd}

/-- `container_of(iter, semd_t, s_link)`. -/
def semdOf : Node → Option SemdPtr
  | .other (.sLink j) => some j
  | _ => none

def initASL (n : Linked) : Linked :=
  let n := n.setLink (initListHead semdFreeH n.heap.link)
  let n := n.setLink (initListHead semdH n.heap.link)
  (List.finRange MAXPROC).foldl (fun n c =>
    let n := n.setLink (listAdd (sLink c) semdFreeH n.heap.link)
    let n := {n with sKey := Function.update n.sKey c NULL}
    n.setLink (initListHead (sProcq c) n.heap.link)) n

/-- The loop over `semd_h` that all functions but `initASL` begin with. -/
def findSemd (fuel : Nat) (semAdd : Addr) (n : Linked) : Option (Option SemdPtr) :=
  listForEach n.heap.link semdH (fun iter => do
    let item ← semdOf iter
    if n.sKey item = semAdd then some (some item) else some none) fuel (n.heap.link semdH).next

/-- `list_del`, then `list_add` to `semdFree_h`, if nobody is left in the queue. -/
def reclaim (item : SemdPtr) (n : Linked) : Linked :=
  if listEmpty (sProcq item) n.heap.link then
    let n := n.setLink (listDel (sLink item) n.heap.link)
    n.setLink (listAdd (sLink item) semdFreeH n.heap.link)
  else n

def insertBlocked (fuel : Nat) (semAdd : Addr) (p : PcbPtr) (n : Linked) : Option (Linked × Bool) := do
  match ← findSemd fuel semAdd n with
  | some item =>
    let n := n.setLink (listAddTail (.pList p) (sProcq item) n.heap.link)
    some (n.setSemAdd p semAdd, false)
  | none =>
    if listEmpty semdFreeH n.heap.link then some (n, true)
    else do
      let entry := (n.heap.link semdFreeH).next
      let n := n.setLink (listDel entry n.heap.link)
      let descriptor ← semdOf entry
      let n := n.setLink (initListHead (sProcq descriptor) n.heap.link)
      let n := {n with sKey := Function.update n.sKey descriptor semAdd}
      let n := n.setLink (listAdd (sLink descriptor) semdH n.heap.link)
      let n := n.setLink (listAddTail (.pList p) (sProcq descriptor) n.heap.link)
      some (n.setSemAdd p semAdd, false)

def removeBlocked (fuel : Nat) (semAdd : Addr) (n : Linked) : Option (Linked × Option PcbPtr) :=
  if listEmpty semdH n.heap.link then some (n, none)
  else do
    match ← findSemd fuel semAdd n with
    | none => some (n, none)
    | some item =>
      let (m, p) ← Heap.removeProcQ (sProcq item) n.heap
      let n := reclaim item {n with heap := m}
      match p with
      | none => some (n, none)
      | some p => some (n.setSemAdd p NULL, some p)

/-- `pout->p_semAdd = NULL` comes before the test of `pout`. -/
def outBlocked (fuel : Nat) (p : PcbPtr) (n : Linked) : Option (Linked × Option PcbPtr) :=
  if listEmpty semdH n.heap.link then some (n, none)
  else do
    match ← findSemd fuel (n.heap.pcb p).pSemAdd n with
    | none => some (n, none)
    | some item =>
      let (m, pout) ← Heap.outProcQ fuel (sProcq item) p n.heap
      let n := {n with heap := m}
      let pout ← pout
      let n := reclaim item (n.setSemAdd pout NULL)
      some (n.setSemAdd pout NULL, some pout)

def headBlocked (fuel : Nat) (semAdd : Addr) (n : Linked) : Option (Option PcbPtr) :=
  if listEmpty semdH n.heap.link then some none
  else do
    match ← findSemd fuel semAdd n with
    | none => some none
    | some item => Heap.headProcQ (sProcq item) n.heap

/-- The loop inside `findBlockedPcb`, on the queue of `item`. -/
def findInQueue (fuel : Nat) (pid : Word) (item : SemdPtr) (n : Linked) : Option (Option PcbPtr) :=
  listForEach n.heap.link (sProcq item) (fun iter => do
    let item2 ← Heap.containerOf iter
    if (n.heap.pcb item2).pPid = pid then some (some item2) else some none) fuel (n.heap.link (sProcq item)).next

/-- Both loops share `iter`: after the inner one it is the sentinel of its queue, and the
outer one goes on behind that. -/
def findBlockedPcb (fuel : Nat) (pid : Word) (n : Linked) : Option (Option PcbPtr) :=
  outer fuel (n.heap.link semdH).next
where
  outer : Nat → Node → Option (Option PcbPtr)
  | 0, _ => none
  | steps + 1, iter =>
    if iter = semdH then some none
    else do
      let item ← semdOf iter
      match ← findInQueue fuel pid item n with
      | some item2 => some (some item2)
      | none => outer steps (n.heap.link (sProcq item)).next

end Linked

end MultiPandOS
