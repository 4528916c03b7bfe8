import MultiPandOS.Phase1.Asl

/-! Functions shared by the handlers (`phase2/functions.c`).

`killProcess` recurses on the process tree through a loop that consumes it, so it
takes fuel and answers `none` when the fuel runs out or when a NULL pointer is
dereferenced on the way; `Nucleus/Kill.lean` shows that `killFuel` is enough. -/
namespace MultiPandOS

def copyState (arr : State) : State :=
  { entryHi := arr.entryHi
    cause := arr.cause
    status := arr.status
    pcEpc := arr.pcEpc
    mie := arr.mie
    gpr := fun c => arr.gpr c }

@[simp] theorem copyState_eq (st : State) : copyState st = st := rfl

/-- The subtraction is unsigned, the result a signed `int`. -/
def findDeviceIndex (deviceAddr : Addr) : Int :=
  let bottom := (deviceAddr - START_DEVREG).toNat
  let deviceIndex : Int :=
    if bottom ≥ 32 * 0x10 then 32 + ((bottom - 32 * 0x10) / 0x8 : Nat) else (bottom / 0x10 : Nat)
  if deviceIndex < 0 ∨ deviceIndex ≥ 49 then -1 else deviceIndex

/-- `getPRID()` on the single processor of the configuration. -/
def getPRID : Fin NCPU := ⟨0, by decide⟩

def updateTime (e : Trap) (pid : Fin NCPU) (s : Nucleus) : Word := e.clock - s.startTime pid

namespace Nucleus

/-- `insertProcQ(&readyQueue, p)`. -/
def enqueue (p : PcbPtr) (s : Nucleus) : Nucleus :=
  {s with readyQueue := insertProcQ s.prio p s.readyQueue}

end Nucleus

def findProcess (pid : Word) (s : Nucleus) : Option (Option PcbPtr) :=
  match s.currentProcess with
  | some c =>
    if (s.pcb c).pPid = pid then some (some c) else inReady
  | none => inReady
where
  inReady : Option (Option PcbPtr) :=
    match s.readyQueue.find? (fun p => (s.pcb p).pPid == pid) with
    | some p => some (some p)
    | none => findBlockedPcb pid s

/-! ### killProcess -/

/-- Steps 2 to 6 of `killProcess`, once `pcb` has no children. -/
def killOne (L : Layout) (pcb : PcbPtr) (s : Nucleus) : Option Nucleus :=
  let s := (outChild pcb s).1
  let unqueued : Option Nucleus :=
    if (s.pcb pcb).pSemAdd ≠ NULL then
      let s := if (s.pcb pcb).pSemAdd = L.devSem PSEUDOINDEX then
        {s with softBlockCount := s.softBlockCount - 1} else s
      (outBlocked pcb s).map Prod.fst
    else some {s with readyQueue := (outProcQ s.readyQueue pcb).1}
  unqueued.map fun s => freePcb pcb {s with processCount := s.processCount - 1}

mutual

def killProcess (L : Layout) : Nat → PcbPtr → Nucleus → Option Nucleus
  | 0, _, _ => none
  | n + 1, pcb, s => (killChildren L n pcb s).bind (killOne L pcb)

/-- `while (!emptyChild(pcb)) killProcess(removeChild(pcb))`. -/
def killChildren (L : Layout) : Nat → PcbPtr → Nucleus → Option Nucleus
  | 0, _, _ => none
  | n + 1, pcb, s =>
    match removeChild pcb s with
    | (s, none) => some s
    | (s, some child) => (killProcess L n child s).bind (killChildren L n pcb)

end

/-- Twice the number of child links there can be, and the first call. -/
def killFuel : Nat := 2 * MAXPROC + 2

end MultiPandOS
