import MultiPandOS.Nucleus.Runs
import MultiPandOS.Nucleus.Switches
import MultiPandOS.Support.System

/-! The support level on the nucleus.

`test` and the U-procs are processes of the nucleus: their code runs while their pcb is
`currentProcess`, and a call of the nucleus is a trap. `Kernel` is the nucleus, what the
support level keeps for itself, and which pcb is whose; the semaphores and the support
structures are in the memory that both work on (`Kernel.sys`). Who passes a semaphore, who
waits for a device and who runs next is decided by `exceptionHandler` alone: the code
after a call goes on when the nucleus has let its caller go (`kernelStep`). -/
namespace MultiPandOS
open Runs

deriving instance DecidableEq for Kind

/-! ### Memory -/

/-- Where the linker put the globals: those of the nucleus, the pool, the code and stacks
of the handlers, and what `initProc.c` shares with the nucleus. -/
structure Image where
  layout : Layout
  pool : PoolLayout
  handlers : Handlers
  sem : Sem → Addr
  sup : SupPtr → Addr
  sem_inj : Function.Injective sem
  sup_inj : Function.Injective sup
  sem_null : ∀ x, sem x ≠ NULL
  sup_null : ∀ u, sup u ≠ NULL
  sem_device : ∀ x, ¬ layout.isDevSem (sem x)

/-- The support structures written to memory. -/
def Image.store (A : Image) (supportPool : SupPtr → Support) (support : Addr → Support) : Addr → Support :=
  fun a =>
    match (List.finRange UPROCMAX).find? (fun u => A.sup u == a) with
    | some u => supportPool u
    | none => support a

/-- The values the semaphores of `initProc.c` are initialised with. -/
def Sem.initial : Sem → Word
  | .swapPoolSemaphore => 1
  | .masterSemaphore => 0
  | .shellSemaphore => 0
  | .terminalWriteSem => 1
  | .terminalReadSem => 1

/-- The loader has initialised the semaphores. -/
def Image.Loaded (A : Image) (b : Boot) : Prop := ∀ x, b.mem (A.sem x) = x.initial

/-! ### Calls of the nucleus -/

/-- `test` or a U-proc. -/
inductive Task where
  | test
  | uproc (q : Nat)
deriving DecidableEq

/-- Who takes a step. -/
def SysEvent.task : SysEvent → Task
  | .access q _ _ _ => .uproc q
  | .trap q _ => .uproc q
  | .go q _ => .uproc q
  | .test => .test

/-- The task goes on in its code. -/
def Task.goes (inp : Input) : Task → SysEvent
  | .test => .test
  | .uproc q => .go q inp

/-- The calls that the support level makes, but for GETSUPPORTPTR. -/
inductive NucleusCall where
  | createProcess (asid : Word) (sup : SupPtr)
  | termProcess
  | passeren (x : Sem)
  | verhogen (x : Sem)
  | doio (commandAddr : Addr) (commandValue : Word)

def RECEIVECHAR : Word := 2

/-- `DEV_REG_ADDR(IL_FLASH, i)->command`. -/
def flashCommand (i : Fin UPROCMAX) : Addr := devRegAddr 4 i.val + 0x4

/-- `DEV_REG_ADDR(IL_TERMINAL, 0)->transm_command`. -/
def transmCommand : Addr := devRegAddr 7 0 + 0xC

/-- `DEV_REG_ADDR(IL_TERMINAL, 0)->recv_command`. -/
def recvCommand : Addr := devRegAddr 7 0 + 0x4

/-- The pager of the process whose support structure is `u`. -/
def PagerAt.call (u : SupPtr) (vm : Vm) : PagerAt → Option NucleusCall
  | .evicted _ f asid =>
    (flashDevice asid).map fun i => .doio (flashCommand i) (writeCommand (vm.swapPool f).swPageNo)
  | .reading p _ =>
    (flashDevice (pteAsid (vm.pte (u, p)).entryHi)).map fun i =>
      .doio (flashCommand i) (readCommand (BitVec.ofNat 32 p.val))
  | .published => some (.verhogen .swapPoolSemaphore)
  | .failed _ => some (.verhogen .swapPoolSemaphore)
  | .locked => none
  | .chosen _ _ => none
  | .wrote _ _ _ _ => none
  | .got _ _ _ _ => none
  | .loaded _ _ => none

def TermAt.call (asid : Word) : TermAt → Option NucleusCall
  | .lock => some (.passeren .swapPoolSemaphore)
  | .free => none
  | .unlock => some (.verhogen .swapPoolSemaphore)
  | .dealloc => none
  | .signal => some (.verhogen (if asid = SHELL_ASID then .masterSemaphore else .shellSemaphore))
  | .die => some .termProcess

namespace Sys

/-- The call that the next step of a U-proc waits for, if it waits for one. -/
def uprocCall (s : Sys) (q : Nat) : Option NucleusCall :=
  match (s.proc q).place with
  | .absent => none
  | .code _ => none
  | .fault _ =>
    let state := (s.vm.supportPool (s.proc q).sup).supExceptState PGFAULTEXCEPT
    if state.cause &&& GETEXECCODE = TLBINVLDMOD then none else some (.passeren .swapPoolSemaphore)
  | .pager place _ => place.call (s.proc q).sup s.vm
  | .general => none
  | .writeLock => some (.passeren .terminalWriteSem)
  | .writeIo _ command => some (.doio transmCommand command)
  | .writeDone => some (.verhogen .terminalWriteSem)
  | .readLock _ => some (.passeren .terminalReadSem)
  | .readLoop _ _ => none
  | .readIo _ _ => some (.doio recvCommand RECEIVECHAR)
  | .readDone => some (.verhogen .terminalReadSem)
  | .readAbort _ => some (.verhogen .terminalReadSem)
  | .executing asid =>
    let newAsid := (s.state q).regA1
    if badExecute asid newAsid then none
    else (allocateSupport s.supportFree).map fun r => .createProcess newAsid r.1
  | .waitShell => some (.passeren .shellSemaphore)
  | .terminate step asid => step.call asid

def call (s : Sys) : Task → Option NucleusCall
  | .test =>
    match s.test with
    | .waiting => some (.passeren .masterSemaphore)
    | .dying => some .termProcess
    | .gone => none
  | .uproc q => s.uprocCall q

/-- `pager`, `generalExceptionHandler` and `TerminateSys` begin with GETSUPPORTPTR. -/
def begins (s : Sys) : Task → Bool
  | .test => false
  | .uproc q =>
    match (s.proc q).place with
    | .fault _ => true
    | .general => true
    | .terminate .lock _ => true
    | _ => false

/-- An access that finds an invalid entry is passed up to the pager, and a refill that reads
past the end of memory is a program trap. -/
def faults (s : Sys) (q : Nat) (k : Code) (va : Addr) (inp : Input) : Option (Nat × Fin 2 × State × Place) :=
  let hi := accessHi (s.proc q).asid va
  match lookup hi s.vm with
  | .miss =>
    if inp.busError = true ∧ s.outside q va then
      some (q, GENERALEXCEPT, {inp.saved with cause := LOADFAULT}, .general)
    else none
  | .invalid => some (q, PGFAULTEXCEPT, {inp.saved with entryHi := hi}, .fault k)
  | .hit _ => none

/-- Whom a step passes an exception up for, the state to be saved and where the U-proc is
after that. -/
def passedUp (s : Sys) : SysEvent → Option (Nat × Fin 2 × State × Place)
  | .access q va _ inp => if (s.proc q).place = .code .user then s.faults q .user va inp else none
  | .trap q st =>
    if (s.proc q).place = .code .user ∧ ¬ callsNucleus st then some (q, GENERALEXCEPT, st, .general) else none
  | .go q inp =>
    match (s.proc q).place with
    | .code (.writing i) =>
      if (i : Int) < ((s.state q).regA2).toInt then s.faults q (.writing i) (bufferAddr q i s) inp else none
    | .code (.reading asid len character) => s.faults q (.reading asid len character) (bufferAddr q len s) inp
    | _ => none
  | .test => none

end Sys

/-- The registers of the trap that makes the call. -/
def NucleusCall.Made (A : Image) (t : Trap) : NucleusCall → Prop
  | .createProcess asid u => t.kind = .service .createProcess ∧ t.argState = initUProcState asid t.argState ∧
      t.state.regA2 = PROCESS_PRIO_LOW ∧ t.state.regA3 = A.sup u
  | .termProcess => t.kind = .service .termProcess ∧ t.state.regA1 = 0
  | .passeren x => t.kind = .service .passeren ∧ t.state.regA1 = A.sem x
  | .verhogen x => t.kind = .service .verhogen ∧ t.state.regA1 = A.sem x
  | .doio commandAddr commandValue =>
    t.kind = .service .doio ∧ t.state.regA1 = commandAddr ∧ t.state.regA2 = commandValue

instance (A : Image) (t : Trap) : (call : NucleusCall) → Decidable (call.Made A t)
  | .createProcess _ _ => inferInstanceAs (Decidable (_ ∧ _ ∧ _ ∧ _))
  | .termProcess => inferInstanceAs (Decidable (_ ∧ _))
  | .passeren _ => inferInstanceAs (Decidable (_ ∧ _))
  | .verhogen _ => inferInstanceAs (Decidable (_ ∧ _))
  | .doio _ _ => inferInstanceAs (Decidable (_ ∧ _ ∧ _))

/-! ### The machine -/

/-- The nucleus, what the support level does not share with it, and whose the pcbs are.
The semaphores and support structures in `user` are not looked at. -/
structure Kernel where
  nucleus : Nucleus
  user : Sys
  task : PcbPtr → Task

/-- What `a0` holds when `p` runs again. -/
def Nucleus.returned (n : Nucleus) (p : PcbPtr) : Word :=
  match n.currentProcess, n.control with
  | some c, .ldst st => if c = p then st.regA0 else (n.pcb p).pS.regA0
  | _, _ => (n.pcb p).pS.regA0

/-- Whose call of the nucleus returns at a trap: that of a caller who is not suspended,
and that of whoever is woken. -/
def returning (L : Layout) (t : Trap) (n : Nucleus) : List PcbPtr :=
  match t.kind, n.currentProcess with
  | .service .passeren, some c => if (n.mem t.state.regA1).toInt ≤ 0 then [] else [c]
  | .service .verhogen, some c => c :: (headBlocked t.state.regA1 n).toList
  | .service .createProcess, some c => [c]
  | .service .termProcess, some c => [c]
  | .interrupt (some line), _ =>
    if line = 1 ∨ line = 2 then []
    else
      match t.served line with
      | some (_, _, reg) => (headBlocked (L.devSem (findDeviceIndex reg)) n).toList
      | none => []
  | _, _ => []

namespace Kernel

/-- The support level, as it is in memory. -/
def sys (A : Image) (k : Kernel) : Sys :=
  {k.user with
    sem := fun x => (k.nucleus.mem (A.sem x)).toInt
    vm := {k.user.vm with supportPool := fun u => k.nucleus.support (A.sup u)}}

def runs (k : Kernel) (task : Task) : Prop := k.nucleus.currentProcess.map k.task = some task

instance (k : Kernel) (task : Task) : Decidable (k.runs task) := inferInstanceAs (Decidable (_ = _))

/-- A step of the code of the support level, after the call it begins with; whether that
call lets it pass is not decided here. -/
def goOn (A : Image) (e : SysEvent) (k : Kernel) : Option Kernel :=
  (sysStep A.pool A.handlers e {k.sys A with sem := fun _ => 1}).map fun s =>
    {k with
      nucleus := {k.nucleus with support := A.store s.vm.supportPool k.nucleus.support}
      user := s}

/-- The process that CREATEPROCESS makes is the next U-proc. -/
def born (t : Trap) (k : Kernel) : PcbPtr → Task :=
  match t.kind, k.nucleus.pcbFreeH with
  | .service .createProcess, p :: _ => Function.update k.task p (.uproc k.user.next)
  | _, _ => k.task

/-- What the tasks do whose calls have returned. -/
def answers (inp : Input) (ps : List PcbPtr) (k : Kernel) : List SysEvent :=
  ps.map fun p => (k.task p).goes {inp with status := k.nucleus.returned p}

/-- The trap is an interrupt or the call that the running task makes. -/
def asks (A : Image) (t : Trap) (k : Kernel) : Bool :=
  match t.kind, k.nucleus.currentProcess with
  | .interrupt _, _ => true
  | .service .getSupportPtr, some c => (k.sys A).begins (k.task c)
  | .service _, some c => ((k.sys A).call (k.task c)).any fun call => call.Made A t
  | _, _ => false

end Kernel

/-- What happens next: the running task goes on by itself or passes an exception up, or the
nucleus is called or interrupted. -/
inductive KernelEvent where
  | code (e : SysEvent)
  | passUp (t : Trap) (e : SysEvent)
  | trap (t : Trap) (inp : Input)

def kernelStep (A : Image) : KernelEvent → Kernel → Option Kernel
  | .code e, k =>
    if k.runs e.task ∧ ((k.sys A).call e.task).isNone ∧ ((k.sys A).passedUp e).isNone then k.goOn A e else none
  | .passUp t e, k =>
    match (k.sys A).passedUp e with
    | some (q, index, st, place) =>
      if k.runs e.task ∧ t.kind = .passUp index st then
        (exceptionHandler A.layout t k.nucleus).map fun n => {k with nucleus := n, user := k.user.goto q place}
      else none
    | none => none
  | .trap t inp, k =>
    if k.asks A t then
      (exceptionHandler A.layout t k.nucleus).bind fun n =>
        let k' : Kernel := {k with nucleus := n, task := k.born t}
        exec (Kernel.goOn A) (k'.answers inp (returning A.layout t k.nucleus)) k'
    else none

/-- The steps of the support level that an event comes to. -/
def Kernel.did (A : Image) (k : Kernel) (i : KernelEvent) (k' : Kernel) : List SysEvent :=
  match i with
  | .code e => [e]
  | .passUp _ e => [e]
  | .trap t inp => k'.answers inp (returning A.layout t k.nucleus)

/-- After `test` has created the shell. -/
def Kernel.start (A : Image) (b : Boot) (vm : Vm) (t : Trap) : Option Kernel :=
  (Sys.start A.handlers {vm with supportPool := fun u => b.support (A.sup u)}).bind fun s =>
    if (NucleusCall.createProcess SHELL_ASID (s.proc shellNo).sup).Made A t then
      (exceptionHandler A.layout t (main A.layout b)).map fun n =>
        { nucleus := {n with support := A.store s.vm.supportPool n.support}
          user := s
          task := fun p => if p = firstProcess then .test else .uproc shellNo }
    else none

/-- An interrupt is one that the nucleus is meant for, and there are process ids left. -/
def TrapOk (A : Image) (n : Nucleus) (t : Trap) : Kind → Prop
  | .interrupt line => KindOk A.layout SelfOnly n t (.interrupt line)
  | _ => n.nextPid ≠ -1

def KernelOk (A : Image) (k : Kernel) : KernelEvent → Prop
  | .trap t _ => TrapOk A k.nucleus t t.kind
  | _ => True

instance (A : Image) (n : Nucleus) (t : Trap) : (kind : Kind) → Decidable (TrapOk A n t kind)
  | .interrupt line => inferInstanceAs (Decidable (KindOk A.layout SelfOnly n t (.interrupt line)))
  | .service _ => inferInstanceAs (Decidable (_ ≠ _))
  | .passUp _ _ => inferInstanceAs (Decidable (_ ≠ _))
  | .ignored => inferInstanceAs (Decidable (_ ≠ _))

instance decidableKernelOk (A : Image) (k : Kernel) : (i : KernelEvent) → Decidable (KernelOk A k i)
  | .code _ => isTrue trivial
  | .passUp _ _ => isTrue trivial
  | .trap t _ => inferInstanceAs (Decidable (TrapOk A k.nucleus t t.kind))

end MultiPandOS
