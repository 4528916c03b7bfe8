import MultiPandOS.Phase2.Exceptions

/-! Boot (`phase2/initial.c`). -/
namespace MultiPandOS

/-- What boot finds in the machine: the integers and support structures in memory,
`RAMTOP` and the address of `test`. -/
structure Boot where
  mem : Addr → Word
  support : Addr → Support
  ramTop : Word
  test : Addr

/-- The statically initialised globals. -/
def Boot.globals (b : Boot) : Nucleus :=
  { pcb := fun _ => Pcb.zero
    pcbFreeH := []
    nextPid := 1
    semd := fun _ => ⟨NULL, []⟩
    semdH := []
    semdFreeH := []
    readyQueue := []
    currentProcess := none
    processCount := 0
    softBlockCount := 0
    mem := b.mem
    startTime := fun _ => 0
    support := b.support
    devWrites := []
    control := .wait }

def Layout.clearDevSem (L : Layout) (s : Nucleus) : Nucleus :=
  (List.range SEMDEVLEN).foldl (fun s c => s.setMem (L.devSem c) 0) s

/-- The state of the first process. -/
def Boot.firstState (b : Boot) (st : State) : State :=
  {(st.setSp b.ramTop) with
    mie := MIE_ALL, status := MSTATUS_MPIE_MASK ||| MSTATUS_MPP_M, pcEpc := b.test}

/-- From the static globals to the first dispatch. -/
def main (L : Layout) (b : Boot) : Nucleus :=
  let s := initASL (initPcbs b.globals)
  let s := L.clearDevSem {s with readyQueue := [], startTime := fun _ => 0}
  match allocPcb s with
  | (s, none) => {s with control := .panic}
  | (s, some p) =>
    let s := {s with processCount := s.processCount + 1}
    let s := s.setPcb p {s.pcb p with pS := b.firstState (s.pcb p).pS}
    scheduler (s.enqueue p)

end MultiPandOS
