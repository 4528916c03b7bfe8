import MultiPandOS.Phase2.Interrupts

/-! The exception handlers of the nucleus (`phase2/exceptions.c`).

Each service of `syscallHandler` is a definition of its own; `c` is the caller,
`currentProcess`. A handler answers `none` where the code dereferences a pointer
that points nowhere, or falls off its end without giving up the processor. -/
namespace MultiPandOS

/-- The system calls of the nucleus, -1 to -10 in this order. -/
inductive Service where
  | createProcess
  | termProcess
  | passeren
  | verhogen
  | doio
  | getTime
  | clockWait
  | getSupportPtr
  | getProcessId
  | yield
deriving DecidableEq

def Service.ofWord (w : Word) : Option Service :=
  match w.toInt with
  | -1 => some .createProcess
  | -2 => some .termProcess
  | -3 => some .passeren
  | -4 => some .verhogen
  | -5 => some .doio
  | -6 => some .getTime
  | -7 => some .clockWait
  | -8 => some .getSupportPtr
  | -9 => some .getProcessId
  | -10 => some .yield
  | _ => none

namespace Nucleus

def ldst (st : State) (s : Nucleus) : Nucleus := {s with control := .ldst st}

end Nucleus

/-- The end of a service that suspends its caller: its state and its time are saved
and nobody is running. -/
def suspend (e : Trap) (c : PcbPtr) (s : Nucleus) : Nucleus :=
  let s := s.setPcb c {s.pcb c with pS := copyState e.state.advance}
  let s := s.setPcb c {s.pcb c with pTime := (s.pcb c).pTime + updateTime e getPRID s}
  {s with currentProcess := none}

def passUpOrDie (L : Layout) (index : Fin 2) (exceptionState : State) (s : Nucleus) : Option Nucleus :=
  match s.currentProcess with
  | none => none
  | some c =>
    let sup := (s.pcb c).pSupportStruct
    if sup = NULL then
      (killProcess L killFuel c s).map fun s => scheduler {s with currentProcess := none}
    else
      let old := s.support sup
      let new := {old with
        supExceptState := Function.update old.supExceptState index (copyState exceptionState)}
      some {s with
        support := Function.update s.support sup new
        control := .ldcxt (new.supExceptContext index)}

/-! ### The services -/

def createProcess (e : Trap) (c : PcbPtr) (s : Nucleus) : Nucleus :=
  match allocPcb s with
  | (s, none) => s.ldst (e.state.setA0 (-1)).advance
  | (s, some newPcb) =>
    let st := e.state.setA0 (s.pcb newPcb).pPid
    let s := s.setPcb newPcb {s.pcb newPcb with
      pS := copyState e.argState
      pPrio := st.regA2
      pSupportStruct := st.regA3}
    let s := (insertChild c newPcb s).enqueue newPcb
    Nucleus.ldst st.advance {s with processCount := s.processCount + 1}

/-- What TERMPROCESS kills: the caller if `a1` is 0, else the process whose id `a1` is. -/
def termTarget (e : Trap) (c : PcbPtr) (s : Nucleus) : Option (Option PcbPtr) :=
  if e.state.regA1 = 0 then some (some c) else findProcess e.state.regA1 s

/-- TERMPROCESS once the process is looked up. Only the process named is compared
with the caller. -/
def terminate (L : Layout) (e : Trap) (target : Option PcbPtr) (s : Nucleus) : Option Nucleus :=
  let killed := match target with
    | none => some s
    | some r => killProcess L killFuel r s
  killed.map fun s =>
    if target = s.currentProcess then scheduler {s with currentProcess := none}
    else s.ldst e.state.advance

def termProcess (L : Layout) (e : Trap) (c : PcbPtr) (s : Nucleus) : Option Nucleus :=
  (termTarget e c s).bind fun target => terminate L e target s

def passeren (e : Trap) (c : PcbPtr) (s : Nucleus) : Nucleus :=
  let semAdd := e.state.regA1
  if (s.mem semAdd).toInt ≤ 0 then
    scheduler (suspend e c (insertBlocked semAdd c s).1)
  else
    Nucleus.ldst e.state.advance (s.setMem semAdd (s.mem semAdd - 1))

def verhogen (e : Trap) (s : Nucleus) : Nucleus :=
  let semAdd := e.state.regA1
  let s := match removeBlocked semAdd s with
    | (s, some unlockedProcess) => s.enqueue unlockedProcess
    | (s, none) => s.setMem semAdd (s.mem semAdd + 1)
  s.ldst e.state.advance

/-- The wait on an entry of `deviceSemaphore` that DOIO and CLOCKWAIT share: the
caller is queued only if the semaphore is not positive. -/
def waitDevSem (e : Trap) (c : PcbPtr) (sem : Addr) (s : Nucleus) : Nucleus :=
  let s := if (s.mem sem).toInt ≤ 0 then (insertBlocked sem c s).1 else s.setMem sem (s.mem sem - 1)
  let s := suspend e c s
  {s with softBlockCount := s.softBlockCount + 1}

def doio (L : Layout) (e : Trap) (c : PcbPtr) (s : Nucleus) : Nucleus :=
  let commandAddr := e.state.regA1
  let s := s.writeDev commandAddr e.state.regA2
  scheduler (waitDevSem e c (L.devSem (findDeviceIndex commandAddr)) s)

/-- `findProcess` is asked for the processor number; its answer is dereferenced. -/
def getTime (e : Trap) (s : Nucleus) : Option Nucleus :=
  match findProcess (BitVec.ofNat 32 getPRID.val) s with
  | none => none
  | some none => none
  | some (some p) =>
    some (s.ldst (e.state.setA0 ((s.pcb p).pTime + updateTime e getPRID s)).advance)

def clockWait (L : Layout) (e : Trap) (c : PcbPtr) (s : Nucleus) : Nucleus :=
  scheduler (waitDevSem e c (L.devSem PSEUDOINDEX) s)

def getSupportPtr (e : Trap) (c : PcbPtr) (s : Nucleus) : Nucleus :=
  s.ldst (e.state.setA0 (s.pcb c).pSupportStruct).advance

def getProcessId (e : Trap) (c : PcbPtr) (s : Nucleus) : Nucleus :=
  let a0 := if e.state.regA1 = 0 then (s.pcb c).pPid else
    match (s.pcb c).pParent with
    | some prnt => (s.pcb prnt).pPid
    | none => 0
  s.ldst (e.state.setA0 a0).advance

def yield (e : Trap) (c : PcbPtr) (s : Nucleus) : Nucleus :=
  let s := suspend e c s
  scheduler (if s.readyQueue.isEmpty then s.enqueue c else {s with readyQueue := s.readyQueue ++ [c]})

/-! ### Dispatch -/

/-- A negative service number from user mode. -/
def unprivileged (st : State) : Prop := st.regA0.toInt < 0 ∧ st.status &&& MSTATUS_MPP_MASK = 0

instance (st : State) : Decidable (unprivileged st) := inferInstanceAs (Decidable (_ ∧ _))

/-- The exception code replaced by PRIVINSTR. -/
def setPrivInstr (st : State) : State :=
  let oldCode := st.cause &&& GETEXECCODE
  {st with cause := (st.cause - oldCode) ||| (PRIVINSTR <<< CAUSESHIFT)}

def syscallHandler (L : Layout) (e : Trap) (s : Nucleus) : Option Nucleus :=
  if unprivileged e.state then passUpOrDie L GENERALEXCEPT (setPrivInstr e.state) s
  else
    match s.currentProcess with
    | none => none
    | some c =>
      match Service.ofWord e.state.regA0 with
      | some .createProcess => some (createProcess e c s)
      | some .termProcess => termProcess L e c s
      | some .passeren => some (passeren e c s)
      | some .verhogen => some (verhogen e s)
      | some .doio => some (doio L e c s)
      | some .getTime => getTime e s
      | some .clockWait => some (clockWait L e c s)
      | some .getSupportPtr => some (getSupportPtr e c s)
      | some .getProcessId => some (getProcessId e c s)
      | some .yield => some (yield e c s)
      | none => passUpOrDie L GENERALEXCEPT e.state.advance s

/-- `cause` is also what `getCAUSE()` reads. -/
def exceptionHandler (L : Layout) (e : Trap) (s : Nucleus) : Option Nucleus :=
  let causeCode := (e.state.cause &&& CAUSE_EXCCODE_MASK).toNat
  if e.state.cause &&& CAUSE_INTERRUPT_BIT ≠ 0 then interruptHandler L e s
  else if causeCode ≥ 24 ∧ causeCode ≤ 28 then passUpOrDie L PGFAULTEXCEPT e.state s
  else if causeCode = 8 ∨ causeCode = 11 then syscallHandler L e s
  else if causeCode ≤ 7 ∨ causeCode = 9 ∨ causeCode = 10 ∨ (causeCode ≥ 12 ∧ causeCode ≤ 23) then
    passUpOrDie L GENERALEXCEPT e.state s
  else none

end MultiPandOS
