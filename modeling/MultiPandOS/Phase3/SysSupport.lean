import MultiPandOS.Phase2.Exceptions
import MultiPandOS.Phase3.InitProc

/-! The system calls of the support level (`phase3/sysSupport.c`).

A handler gives up the processor at every call of the nucleus, so each function is a
step from one such call to the next. `Place` says where a U-proc is and `Sys` is what
the U-procs share. A call of PASSEREN is refused (`none`) while the semaphore is not
positive; who passes first is left open. -/
namespace MultiPandOS

def SYSEXCEPTION : Word := 8
def TERMINATE : Int := 2
def WRITETERMINAL : Int := 4
def READTERMINAL : Int := 5
def EXECUTE : Int := 6
def TRANSMITCHAR : Word := 2

/-- The cause of a load from an address where there is no memory. -/
def LOADFAULT : Word := 5

/-! ### Dispatch -/

/-- The function that the general exception handler ends in. -/
inductive Call where
  | terminateSys (asid : Word)
  | writeTerminalSys (asid : Word)
  | readTerminalSys (asid : Word)
  | executeSys (asid : Word)
  | programTrapHandler (asid : Word)
deriving DecidableEq

def supportSyscallHandler (state : State) (asid : Word) : Call :=
  if state.regA0.toInt = TERMINATE then .terminateSys asid
  else if state.regA0.toInt = WRITETERMINAL then .writeTerminalSys asid
  else if state.regA0.toInt = READTERMINAL then .readTerminalSys asid
  else if state.regA0.toInt = EXECUTE then .executeSys asid
  else .programTrapHandler asid

def generalExceptionHandler (sup : Support) : Call :=
  let state := sup.supExceptState GENERALEXCEPT
  if state.cause &&& GETEXECCODE = SYSEXCEPTION then supportSyscallHandler state sup.supAsid
  else .programTrapHandler sup.supAsid

/-! ### The support level -/

/-- What a page fault interrupts: code of the U-proc, or a terminal system call at its
access to the buffer. -/
inductive Code where
  | user
  | writing (i : Nat)
  | reading (asid : Word) (len : Nat) (character : Word)
deriving DecidableEq

/-- The calls of `TerminateSys`, in order; `free` and `dealloc` are what it does on its
own between two of them. -/
inductive TermAt where
  | lock
  | free
  | unlock
  | dealloc
  | signal
  | die
deriving DecidableEq

/-- Where a U-proc is; `absent` before it is created and once it is terminated. -/
inductive Place where
  | absent
  | code (k : Code)
  | fault (k : Code)
  | pager (place : PagerAt) (k : Code)
  | general
  | writeLock
  | writeIo (i : Nat) (command : Word)
  | writeDone
  | readLock (asid : Word)
  | readLoop (asid : Word) (len : Nat)
  | readIo (asid : Word) (len : Nat)
  | readDone
  | readAbort (asid : Word)
  | executing (asid : Word)
  | waitShell
  | terminate (step : TermAt) (asid : Word)
deriving DecidableEq

/-- A U-proc: its support structure, the ASID of its processor state and its place. -/
structure Proc where
  sup : SupPtr
  asid : Word
  place : Place

inductive Sem where
  | swapPoolSemaphore
  | masterSemaphore
  | shellSemaphore
  | terminalWriteSem
  | terminalReadSem
deriving DecidableEq

/-- Where `test` is after it has started the shell. -/
inductive TestAt where
  | waiting
  | dying
  | gone
deriving DecidableEq

/-- The support level. U-procs are numbered in the order of their creation, from the
shell on. -/
structure Sys where
  vm : Vm
  supportFree : List SupPtr
  sem : Sem → Int
  proc : Nat → Proc
  next : Nat
  test : TestAt

/-- The number of the shell. -/
def shellNo : Nat := 0

namespace Sys

def goto (q : Nat) (place : Place) (s : Sys) : Sys :=
  {s with proc := Function.update s.proc q {s.proc q with place := place}}

def passeren (x : Sem) (s : Sys) : Option Sys :=
  if 0 < s.sem x then some {s with sem := Function.update s.sem x (s.sem x - 1)} else none

def verhogen (x : Sem) (s : Sys) : Sys := {s with sem := Function.update s.sem x (s.sem x + 1)}

def setVm (vm : Vm) (s : Sys) : Sys := {s with vm := vm}

/-- `sup->sup_exceptState[i] = st`. -/
def setState (q : Nat) (i : Fin 2) (st : State) (s : Sys) : Sys :=
  let old := s.vm.supportPool (s.proc q).sup
  let new := {old with supExceptState := Function.update old.supExceptState i st}
  {s with vm := {s.vm with supportPool := Function.update s.vm.supportPool (s.proc q).sup new}}

/-- The state that the general exception handler works on. -/
def state (q : Nat) (s : Sys) : State := (s.vm.supportPool (s.proc q).sup).supExceptState GENERALEXCEPT

/-- `state->pc_epc += 4; LDST(state)`. -/
def ldst (q : Nat) (s : Sys) : Sys := (s.setState q GENERALEXCEPT (s.state q).advance).goto q (.code .user)

/-- `state->reg_a0 = w`. -/
def setA0 (q : Nat) (w : Word) (s : Sys) : Sys := s.setState q GENERALEXCEPT ((s.state q).setA0 w)

end Sys

/-! ### Accesses to memory -/

/-- What the machine answers, the state that is saved if an exception comes, and whether a
read past the end of a page table is one past the end of memory too. -/
structure Input extends Answer where
  saved : State
  busError : Bool := true

/-- ENTRYHI of an access. -/
def accessHi (asid : Word) (va : Addr) : Word := (va &&& 0xFFFFF000) ||| (asid <<< ASIDSHIFT)

inductive Lookup where
  | miss
  | invalid
  | hit (entryLo : Word)

def lookup (hi : Word) (vm : Vm) : Lookup :=
  match TLBP hi vm with
  | none => .miss
  | some i => if (vm.tlb i).valid then .hit (vm.tlb i).entryLo else .invalid

/-- `uTLB_RefillHandler` at an index past the end of the page table. Either there is no
memory, and the fault of the handler is passed up as a program trap of `q`; or what is read
there is no entry of the page, and the access misses again. -/
def strayRefill (q : Nat) (inp : Input) (s : Sys) : Sys :=
  if inp.busError then (s.setState q GENERALEXCEPT {inp.saved with cause := LOADFAULT}).goto q .general else s

/-- An access of `q` to `va`: a miss refills the TLB and repeats the instruction, an
invalid entry is passed up to the pager, and a hit goes on with `done`. -/
def touch (q : Nat) (k : Code) (va : Addr) (inp : Input) (done : Word → Sys) (s : Sys) : Option Sys :=
  let hi := accessHi (s.proc q).asid va
  match lookup hi s.vm with
  | .miss =>
    match uTLB_RefillHandler (s.proc q).sup hi inp.slot s.vm with
    | some vm => some (s.setVm vm)
    | none => some (strayRefill q inp s)
  | .invalid => some ((s.setState q PGFAULTEXCEPT {inp.saved with entryHi := hi}).goto q (.fault k))
  | .hit lo => some (done lo)

/-- The word of a page that an address is in. -/
def wordIndex (va : Addr) : Fin 1024 := Fin.ofNat 1024 (va.toNat / 4)

/-- The byte at `va`, in the page of an entry. -/
def loadByte (L : PoolLayout) (lo : Word) (va : Addr) (vm : Vm) : Word :=
  match frameAt L lo with
  | some f => (vm.swapFrames f (wordIndex va) >>> (8 * (va.toNat % 4))) &&& 0xff
  | none => 0

def storeByte (L : PoolLayout) (lo : Word) (va : Addr) (c : Word) (vm : Vm) : Vm :=
  match frameAt L lo with
  | some f =>
    let w := vm.swapFrames f (wordIndex va)
    let shift := 8 * (va.toNat % 4)
    storeWord L lo (wordIndex va) ((w &&& ~~~((0xff : Word) <<< shift)) ||| (c <<< shift)) vm
  | none => vm

/-! ### TerminateSys -/

/-- TERMPROCESS on the caller: the launched programs are the children of the shell. -/
def termprocess (q : Nat) (s : Sys) : Sys :=
  if q = shellNo then {s with proc := fun r => {s.proc r with place := .absent}} else s.goto q .absent

def terminateSys (q : Nat) (asid : Word) (s : Sys) : TermAt → Option Sys
  | .lock => (s.passeren .swapPoolSemaphore).map fun s => s.goto q (.terminate .free asid)
  | .free => some ((s.setVm (freeSwapFrames asid s.vm)).goto q (.terminate .unlock asid))
  | .unlock => some ((s.verhogen .swapPoolSemaphore).goto q (.terminate .dealloc asid))
  | .dealloc =>
    let u := (s.proc q).sup
    let s := s.setVm (s.vm.setAsid u 0)
    some ({s with supportFree := deallocateSupport u s.supportFree}.goto q (.terminate .signal asid))
  | .signal =>
    let s := s.verhogen (if asid = SHELL_ASID then .masterSemaphore else .shellSemaphore)
    some (s.goto q (.terminate .die asid))
  | .die => some (termprocess q s)

/-! ### Terminals -/

/-- The arguments that WRITETERMINAL refuses. -/
def badWrite (st : State) : Prop :=
  st.regA2.toInt < 0 ∨ st.regA2.toInt > 128 ∨ st.regA1 < KUSEG ∨ st.regA1 + st.regA2 > USERSTACKTOP

instance (st : State) : Decidable (badWrite st) := inferInstanceAs (Decidable (_ ∨ _ ∨ _ ∨ _))

/-- The arguments that READTERMINAL refuses. -/
def badRead (st : State) : Prop := st.regA1 < KUSEG ∨ st.regA1 ≥ USERSTACKTOP

instance (st : State) : Decidable (badRead st) := inferInstanceAs (Decidable (_ ∨ _))

/-- `virtAddr[i]` of a terminal system call. -/
def bufferAddr (q : Nat) (i : Nat) (s : Sys) : Addr := (s.state q).regA1 + BitVec.ofNat 32 i

/-- WRITETERMINAL at `virtAddr[i]`. -/
def writeChar (L : PoolLayout) (q : Nat) (i : Nat) (inp : Input) (s : Sys) : Option Sys :=
  let len := (s.state q).regA2
  if (i : Int) < len.toInt then
    let va := bufferAddr q i s
    touch q (.writing i) va inp (fun lo =>
      s.goto q (.writeIo i ((loadByte L lo va s.vm <<< 8) ||| TRANSMITCHAR))) s
  else some ((s.setA0 q len).goto q .writeDone)

def writeStatus (q : Nat) (i : Nat) (status : Word) (s : Sys) : Sys :=
  if status &&& 0xff ≠ OKCHARTRANS then (s.setA0 q (-status)).goto q .writeDone
  else s.goto q (.code (.writing (i + 1)))

/-- READTERMINAL before its DOIO. -/
def readLoop (q : Nat) (asid : Word) (len : Nat) (s : Sys) : Sys :=
  if bufferAddr q len s ≥ USERSTACKTOP then s.goto q (.readAbort asid) else s.goto q (.readIo asid len)

def readStatus (q : Nat) (asid : Word) (len : Nat) (status : Word) (s : Sys) : Sys :=
  if status &&& 0xff ≠ OKCHARTRANS then (s.setA0 q (-status)).goto q .readDone
  else s.goto q (.code (.reading asid len ((status >>> 8) &&& 0xff)))

/-- `*virtAddr = character`, and what follows it. -/
def readChar (L : PoolLayout) (q : Nat) (asid : Word) (len : Nat) (character : Word) (inp : Input) (s : Sys) :
    Option Sys :=
  let va := bufferAddr q len s
  touch q (.reading asid len character) va inp (fun lo =>
    let s := s.setVm (storeByte L lo va character s.vm)
    if character = 10 then (s.setA0 q (BitVec.ofNat 32 (len + 1))).goto q .readDone
    else s.goto q (.readLoop asid (len + 1))) s

/-! ### ExecuteSys -/

/-- The arguments that EXECUTE refuses. -/
def badExecute (asid newAsid : Word) : Prop :=
  asid ≠ SHELL_ASID ∨ newAsid.toInt ≤ SHELL_ASID.toInt ∨ newAsid.toInt > UPROCMAX

instance (asid newAsid : Word) : Decidable (badExecute asid newAsid) := inferInstanceAs (Decidable (_ ∨ _ ∨ _))

/-- `initSupportStructure` on an element of `supportPool`. -/
def Vm.initSupport (h : Handlers) (u : SupPtr) (asid : Word) (vm : Vm) : Vm :=
  {vm with supportPool := Function.update vm.supportPool u (initSupportStructure h asid (vm.supportPool u))}

/-- CREATEPROCESS: the new U-proc starts in its own code. -/
def Sys.create (u : SupPtr) (asid : Word) (s : Sys) : Sys :=
  {s with proc := Function.update s.proc s.next ⟨u, asid, .code .user⟩, next := s.next + 1}

/-- Up to PASSEREN on `shellSemaphore`; `result` is what CREATEPROCESS returns. -/
def executeSys (h : Handlers) (q : Nat) (asid : Word) (result : Word) (s : Sys) : Sys :=
  let newAsid := (s.state q).regA1
  if badExecute asid newAsid then s.goto q (.terminate .lock asid)
  else
    match allocateSupport s.supportFree with
    | none => (s.setA0 q (-1)).ldst q
    | some (u, supportFree) =>
      let s := {s.setVm (s.vm.initSupport h u newAsid) with supportFree := supportFree}
      if result = -1 then
        let s := s.setVm (s.vm.setAsid u 0)
        let s := {s with supportFree := deallocateSupport u s.supportFree}
        (s.setA0 q (-1)).ldst q
      else (s.create u newAsid).goto q .waitShell

/-! ### Steps -/

/-- The general exception handler, up to the first call of the nucleus of the function
it ends in. -/
def handleException (q : Nat) (s : Sys) : Sys :=
  match generalExceptionHandler (s.vm.supportPool (s.proc q).sup) with
  | .terminateSys asid => s.goto q (.terminate .lock asid)
  | .programTrapHandler asid => s.goto q (.terminate .lock asid)
  | .writeTerminalSys asid =>
    if badWrite (s.state q) then s.goto q (.terminate .lock asid) else s.goto q .writeLock
  | .readTerminalSys asid =>
    if badRead (s.state q) then s.goto q (.terminate .lock asid) else s.goto q (.readLock asid)
  | .executeSys asid => s.goto q (.executing asid)

/-- The entry of `pager`, up to its PASSEREN. -/
def enterPager (q : Nat) (k : Code) (s : Sys) : Option Sys :=
  let sup := s.vm.supportPool (s.proc q).sup
  if (sup.supExceptState PGFAULTEXCEPT).cause &&& GETEXECCODE = TLBINVLDMOD then
    some (s.goto q (.terminate .lock sup.supAsid))
  else (s.passeren .swapPoolSemaphore).map fun s => s.goto q (.pager .locked k)

/-- The pager inside and at the end of its critical section. -/
def runPager (L : PoolLayout) (q : Nat) (k : Code) (a : Answer) (s : Sys) : PagerAt → Option Sys
  | .published => some ((s.verhogen .swapPoolSemaphore).goto q (.code k))
  | .failed asid => some ((s.verhogen .swapPoolSemaphore).goto q (.terminate .lock asid))
  | place => (pagerStep L (s.proc q).sup a place s.vm).map fun r => (s.setVm r.2).goto q (.pager r.1 k)

/-- A U-proc goes on to its next call of the nucleus, or to its next access. -/
def proceed (L : PoolLayout) (h : Handlers) (q : Nat) (inp : Input) (s : Sys) : Option Sys :=
  match (s.proc q).place with
  | .absent => none
  | .code .user => none
  | .code (.writing i) => writeChar L q i inp s
  | .code (.reading asid len character) => readChar L q asid len character inp s
  | .fault k => enterPager q k s
  | .pager place k => runPager L q k inp.toAnswer s place
  | .general => some (handleException q s)
  | .writeLock => (s.passeren .terminalWriteSem).map fun s => s.goto q (.code (.writing 0))
  | .writeIo i _ => some (writeStatus q i inp.status s)
  | .writeDone => some ((s.verhogen .terminalWriteSem).ldst q)
  | .readLock asid => (s.passeren .terminalReadSem).map fun s => s.goto q (.readLoop asid 0)
  | .readLoop asid len => some (readLoop q asid len s)
  | .readIo asid len => some (readStatus q asid len inp.status s)
  | .readDone => some ((s.verhogen .terminalReadSem).ldst q)
  | .readAbort asid => some ((s.verhogen .terminalReadSem).goto q (.terminate .lock asid))
  | .executing asid => some (executeSys h q asid inp.status s)
  | .waitShell => (s.passeren .shellSemaphore).map fun s => s.ldst q
  | .terminate step asid => terminateSys q asid s step

/-- What happens next: a U-proc loads or stores at `va`, causes an exception with the
state `st`, or goes on in a handler; or `test` goes on. -/
inductive SysEvent where
  | access (q : Nat) (va : Addr) (value : Option Word) (inp : Input)
  | trap (q : Nat) (st : State)
  | go (q : Nat) (inp : Input)
  | test

/-- A call of the nucleus by the code of a U-proc is not part of this machine. -/
def callsNucleus (st : State) : Prop :=
  (st.cause = 8 ∨ st.cause = 11) ∧ (Service.ofWord st.regA0).isSome

instance (st : State) : Decidable (callsNucleus st) := inferInstanceAs (Decidable (_ ∧ _))

def sysStep (L : PoolLayout) (h : Handlers) : SysEvent → Sys → Option Sys
  | .access q va value inp, s =>
    if (s.proc q).place = .code .user then
      touch q .user va inp (fun lo =>
        match value with
        | none => s
        | some v => s.setVm (storeWord L lo (wordIndex va) v s.vm)) s
    else none
  | .trap q st, s =>
    if (s.proc q).place = .code .user ∧ ¬ callsNucleus st then
      some ((s.setState q GENERALEXCEPT st).goto q .general)
    else none
  | .go q inp, s => proceed L h q inp s
  | .test, s =>
    match s.test with
    | .waiting => (s.passeren .masterSemaphore).map fun s => {s with test := .dying}
    | .dying => some {s with proc := fun r => {s.proc r with place := .absent}, test := .gone}
    | .gone => none

/-- What `test` starts: the swap pool and the semaphores as initialised, and the shell
in the support structure freed last. -/
def Sys.start (h : Handlers) (vm : Vm) : Option Sys :=
  (allocateSupport ((List.finRange UPROCMAX).foldl (fun q u => deallocateSupport u q) [])).map
    fun (u, supportFree) =>
      let vm := initSwapStructs {vm with frameIndex := 0, tlb := fun _ => ⟨0, 0⟩}
      { vm := vm.initSupport h u SHELL_ASID
        supportFree := supportFree
        sem := fun x =>
          match x with
          | .swapPoolSemaphore => 1
          | .terminalWriteSem => 1
          | .terminalReadSem => 1
          | _ => 0
        proc := fun q => if q = shellNo then ⟨u, SHELL_ASID, .code .user⟩ else ⟨u, 0, .absent⟩
        next := 1
        test := .waiting }

end MultiPandOS
