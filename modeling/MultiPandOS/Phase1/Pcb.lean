import MultiPandOS.Headers.Types
import MultiPandOS.Library.PriorityQueue

/-! Process control blocks: the free list, process queues and the process tree
(`phase1/pcb.c`). -/
namespace MultiPandOS

/-! ### The free list -/

/-- `list_add` of every element of `pcbFree_table`. -/
def initPcbs (s : Nucleus) : Nucleus :=
  {s with pcbFreeH := (List.finRange MAXPROC).foldl (fun q c => c :: q) []}

def freePcb (p : PcbPtr) (s : Nucleus) : Nucleus := {s with pcbFreeH := p :: s.pcbFreeH}

/-- The `pcb_t` that `allocPcb` hands out, with the next process id. -/
def Pcb.fresh (pid : Word) : Pcb := ⟨none, [], State.zero, 0, NULL, NULL, 0, pid⟩

def allocPcb (s : Nucleus) : Nucleus × Option PcbPtr :=
  match s.pcbFreeH with
  | [] => (s, none)
  | p :: rest =>
    ({(s.setPcb p (Pcb.fresh s.nextPid)) with pcbFreeH := rest, nextPid := s.nextPid + 1}, some p)

/-! ### Process queues -/

def emptyProcQ (head : List PcbPtr) : Bool := head.isEmpty

/-- Before the first element of lower priority, at the tail if there is none. -/
def insertProcQ (prio : PcbPtr → Int) (p : PcbPtr) : List PcbPtr → List PcbPtr
  | [] => [p]
  | item :: rest => if prio item < prio p then p :: item :: rest else item :: insertProcQ prio p rest

def headProcQ (head : List PcbPtr) : Option PcbPtr := head.head?

def removeProcQ (head : List PcbPtr) : List PcbPtr × Option PcbPtr := (head.tail, head.head?)

def outProcQ (head : List PcbPtr) (p : PcbPtr) : List PcbPtr × Option PcbPtr :=
  if p ∈ head then (head.erase p, some p) else (head, none)

theorem insertProcQ_eq (prio : PcbPtr → Int) (p : PcbPtr) (q : List PcbPtr) :
    insertProcQ prio p q = PriorityQueue.insert prio p q := by
  induction q with
  | nil => rfl
  | cons x rest ih => simp only [insertProcQ, PriorityQueue.insert, ih]

theorem insertProcQ_perm (prio : PcbPtr → Int) (p : PcbPtr) (q : List PcbPtr) :
    (insertProcQ prio p q).Perm (p :: q) := by
  rw [insertProcQ_eq]
  exact PriorityQueue.insert_perm prio p q

@[simp] theorem mem_insertProcQ (prio : PcbPtr → Int) (p x : PcbPtr) (q : List PcbPtr) :
    x ∈ insertProcQ prio p q ↔ x = p ∨ x ∈ q := by
  rw [insertProcQ_eq, PriorityQueue.mem_insert]

theorem insertProcQ_nodup {prio : PcbPtr → Int} {p : PcbPtr} {q : List PcbPtr} (hq : q.Nodup)
    (hp : p ∉ q) : (insertProcQ prio p q).Nodup :=
  (insertProcQ_perm prio p q).nodup_iff.mpr (List.nodup_cons.mpr ⟨hp, hq⟩)

theorem insertProcQ_ne_nil (prio : PcbPtr → Int) (p : PcbPtr) (q : List PcbPtr) :
    insertProcQ prio p q ≠ [] := by
  intro h
  have hp : p ∈ insertProcQ prio p q := by simp
  rw [h] at hp
  cases hp

theorem outProcQ_fst (q : List PcbPtr) (p : PcbPtr) : (outProcQ q p).1 = q.erase p := by
  unfold outProcQ
  split
  · rfl
  · exact (List.erase_of_not_mem (by assumption)).symm

/-! ### The process tree -/

def emptyChild (p : PcbPtr) (s : Nucleus) : Bool := (s.pcb p).pChild.isEmpty

def insertChild (prnt p : PcbPtr) (s : Nucleus) : Nucleus :=
  let s := s.setPcb p {s.pcb p with pParent := some prnt}
  s.setPcb prnt {s.pcb prnt with pChild := p :: (s.pcb prnt).pChild}

/-- NULL exactly when `emptyChild`. -/
def removeChild (p : PcbPtr) (s : Nucleus) : Nucleus × Option PcbPtr :=
  match (s.pcb p).pChild with
  | [] => (s, none)
  | child :: rest =>
    let s := s.setPcb p {s.pcb p with pChild := rest}
    (s.setPcb child {s.pcb child with pParent := none}, some child)

/-- `list_del` of `p_sib` takes `p` out of the child list it is linked in. -/
def outChild (p : PcbPtr) (s : Nucleus) : Nucleus × Option PcbPtr :=
  match (s.pcb p).pParent with
  | none => (s, none)
  | some _ =>
    let s := {s with pcb := fun q => {s.pcb q with pChild := (s.pcb q).pChild.erase p}}
    (s.setPcb p {s.pcb p with pParent := none}, some p)

end MultiPandOS
