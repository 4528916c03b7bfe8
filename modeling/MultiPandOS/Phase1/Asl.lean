import MultiPandOS.Phase1.Pcb

/-! The active semaphore list (`phase1/asl.c`): `semd_h` holds the descriptors of
the semaphores somebody is blocked on, `semdFree_h` the others. -/
namespace MultiPandOS

def initASL (s : Nucleus) : Nucleus :=
  {s with
    semdH := []
    semdFreeH := (List.finRange MAXPROC).foldl (fun q c => c :: q) []
    semd := fun _ => ⟨NULL, []⟩}

/-- The first descriptor of `semd_h` whose key is `semAdd`. -/
def findSemd (semAdd : Addr) (s : Nucleus) : Option SemdPtr :=
  s.semdH.find? (fun j => (s.semd j).sKey == semAdd)

/-- `list_del` from `semd_h`, then `list_add` to `semdFree_h`, if nobody is left. -/
def reclaim (j : SemdPtr) (s : Nucleus) : Nucleus :=
  if (s.semd j).sProcq.isEmpty then
    {s with semdH := s.semdH.erase j, semdFreeH := j :: s.semdFreeH}
  else s

/-- True when no descriptor is left for a semaphore that is not active. -/
def insertBlocked (semAdd : Addr) (p : PcbPtr) (s : Nucleus) : Nucleus × Bool :=
  match findSemd semAdd s with
  | some j =>
    let s := s.setSemd j {s.semd j with sProcq := (s.semd j).sProcq ++ [p]}
    (s.setPcb p {s.pcb p with pSemAdd := semAdd}, false)
  | none =>
    match s.semdFreeH with
    | [] => (s, true)
    | j :: rest =>
      let s := {(s.setSemd j ⟨semAdd, [p]⟩) with semdFreeH := rest, semdH := j :: s.semdH}
      (s.setPcb p {s.pcb p with pSemAdd := semAdd}, false)

def removeBlocked (semAdd : Addr) (s : Nucleus) : Nucleus × Option PcbPtr :=
  match findSemd semAdd s with
  | none => (s, none)
  | some j =>
    let (procq, p) := removeProcQ (s.semd j).sProcq
    let s := reclaim j (s.setSemd j {s.semd j with sProcq := procq})
    match p with
    | none => (s, none)
    | some p => (s.setPcb p {s.pcb p with pSemAdd := NULL}, some p)

/-- The result of `outProcQ` is dereferenced before it is tested, so a `p` that is
not in the queue of its own `p_semAdd` makes the code write through NULL: `none`. -/
def outBlocked (p : PcbPtr) (s : Nucleus) : Option (Nucleus × Option PcbPtr) :=
  match findSemd (s.pcb p).pSemAdd s with
  | none => some (s, none)
  | some j =>
    match outProcQ (s.semd j).sProcq p with
    | (_, none) => none
    | (procq, some p) =>
      let s := s.setPcb p {s.pcb p with pSemAdd := NULL}
      some (reclaim j (s.setSemd j {s.semd j with sProcq := procq}), some p)

def headBlocked (semAdd : Addr) (s : Nucleus) : Option PcbPtr :=
  match findSemd semAdd s with
  | none => none
  | some j => headProcQ (s.semd j).sProcq

/-- Both loops share `iter`. When the inner one ends without a match, `iter` is the
sentinel of the queue just scanned, so the outer loop steps to the first `p_list`
of that queue and takes it for an `s_link`: `none`. -/
def findBlockedPcb (pid : Word) (s : Nucleus) : Option (Option PcbPtr) :=
  match s.semdH with
  | [] => some none
  | j :: _ =>
    match (s.semd j).sProcq.find? (fun p => (s.pcb p).pPid == pid) with
    | some p => some (some p)
    | none => none

end MultiPandOS
