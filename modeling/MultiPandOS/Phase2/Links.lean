import MultiPandOS.Phase1.AslLinks
import MultiPandOS.Phase2.Initial

/-! The nucleus down to the links of its lists (`phase2`).

The handlers of `Phase2/Functions` to `Phase2/Initial` once more, on `Linked`: every list
is reached through the functions of phase 1 on pointers. What is not a list is computed
by the same definitions. A handler answers `none` where a loop does not end within
`fuel`, or where the code takes one structure for another or follows NULL. -/
namespace MultiPandOS.Linked
open CircularList Listx

def enqueue (fuel : Nat) (p : PcbPtr) (n : Linked) : Option Linked :=
  (Heap.insertProcQ fuel readyQueue p n.heap).map fun m => {n with heap := m}

def setControl (control : Control) (n : Linked) : Linked := {n with globals := {n.globals with control := control}}

def ldst (st : State) (n : Linked) : Linked := n.setControl (.ldst st)

def setMem (a : Addr) (w : Word) (n : Linked) : Linked :=
  {n with globals := {n.globals with mem := Function.update n.globals.mem a w}}

def writeDev (a : Addr) (w : Word) (n : Linked) : Linked :=
  {n with globals := {n.globals with devWrites := (a, w) :: n.globals.devWrites}}

def setCurrent (c : Option PcbPtr) (n : Linked) : Linked := {n with globals := {n.globals with currentProcess := c}}

def addCount (w : Word) (n : Linked) : Linked :=
  {n with globals := {n.globals with processCount := n.globals.processCount + w}}

def addSoft (w : Word) (n : Linked) : Linked :=
  {n with globals := {n.globals with softBlockCount := n.globals.softBlockCount + w}}

def updateTime (e : Trap) (pid : Fin NCPU) (n : Linked) : Word := e.clock - n.globals.startTime pid

def findProcess (fuel : Nat) (pid : Word) (n : Linked) : Option (Option PcbPtr) :=
  match n.globals.currentProcess with
  | some c => if (n.heap.pcb c).pPid = pid then some (some c) else inReady
  | none => inReady
where
  inReady : Option (Option PcbPtr) := do
    match ← listForEach n.heap.link readyQueue (fun iter => do
      let item ← Heap.containerOf iter
      if (n.heap.pcb item).pPid = pid then some (some item) else some none) fuel (n.heap.link readyQueue).next with
    | some item => some (some item)
    | none => findBlockedPcb fuel pid n

/-! ### killProcess -/

/-- Steps 2 to 6. -/
def killOne (L : Layout) (fuel : Nat) (pcb : PcbPtr) (n : Linked) : Option Linked :=
  let n := {n with heap := (Heap.outChild (some pcb) n.heap).1}
  let unqueued : Option Linked :=
    if (n.heap.pcb pcb).pSemAdd ≠ NULL then
      let n := if (n.heap.pcb pcb).pSemAdd = L.devSem PSEUDOINDEX then n.addSoft (-1) else n
      (outBlocked fuel pcb n).map Prod.fst
    else (Heap.outProcQ fuel readyQueue pcb n.heap).map fun r => {n with heap := r.1}
  unqueued.map fun n =>
    let n := n.addCount (-1)
    {n with toPcbs := Pcbs.freePcb pcb n.toPcbs}

mutual

/-- Nothing is done for NULL. -/
def killProcess (L : Layout) (fuel : Nat) : Nat → Option PcbPtr → Linked → Option Linked
  | 0, _, _ => none
  | _ + 1, none, n => some n
  | steps + 1, some pcb, n => (killChildren L fuel steps pcb n).bind (killOne L fuel pcb)

/-- `while (!emptyChild(pcb)) killProcess(removeChild(pcb))`. -/
def killChildren (L : Layout) (fuel : Nat) : Nat → PcbPtr → Linked → Option Linked
  | 0, _, _ => none
  | steps + 1, pcb, n =>
    if Heap.emptyChild (some pcb) n.heap then some n
    else (Heap.removeChild (some pcb) n.heap).bind fun r =>
      (killProcess L fuel steps r.2 {n with heap := r.1}).bind (killChildren L fuel steps pcb)

end

/-! ### The scheduler -/

def scheduler (n : Linked) : Option Linked :=
  if listEmpty readyQueue n.heap.link then
    some (if n.globals.processCount = 0 then n.setControl .halt
      else if n.globals.processCount > 0 ∧ n.globals.softBlockCount > 0 then n.setControl .wait
      else n.setControl .panic)
  else do
    let (m, p) ← Heap.removeProcQ readyQueue n.heap
    let n := {n with heap := m}
    let p ← p
    some ((n.setCurrent (some p)).ldst (n.heap.pcb p).pS)

/-! ### Interrupts -/

def resume (stato : State) (n : Linked) : Option Linked :=
  match n.globals.currentProcess with
  | some _ => some (n.ldst stato)
  | none => scheduler n

def completeDevice (fuel : Nat) (sem : Addr) (savedStatus : Word) (n : Linked) : Option Linked := do
  match ← removeBlocked fuel sem n with
  | (n, some unblocked) =>
    let b := n.heap.pcb unblocked
    let n := n.setPcb unblocked {b with pS := b.pS.setA0 savedStatus}
    let n ← n.enqueue fuel unblocked
    some (n.addSoft (-1))
  | (n, none) => some (n.setMem sem (n.globals.mem sem + 1))

def handleDevice (L : Layout) (fuel : Nat) (intlineNo : Nat) (e : Trap) (n : Linked) : Option Linked :=
  match calcDevNo intlineNo e.bus with
  | none => some (n.setControl .panic)
  | some devNo =>
    match servedDevice intlineNo (devRegAddr intlineNo devNo) e.bus with
    | none => none
    | some (savedStatus, command, reg) =>
      let n := n.writeDev command ACK
      let semIndex := findDeviceIndex reg
      let completed := if semIndex ≠ -1 then completeDevice fuel (L.devSem semIndex) savedStatus n else some n
      completed.bind (resume e.state)

def handlePLT (fuel : Nat) (e : Trap) (n : Linked) : Option Linked := do
  let c ← n.globals.currentProcess
  let n := n.setPcb c {n.heap.pcb c with pS := copyState e.state}
  let n ← n.enqueue fuel c
  scheduler n

def clockTick (L : Layout) (fuel : Nat) : Nat → Linked → Option Linked
  | 0, _ => none
  | steps + 1, n => do
    match ← removeBlocked fuel (L.devSem PSEUDOINDEX) n with
    | (n, none) => some n
    | (n, some p) => (n.enqueue fuel p).bind fun n => clockTick L fuel steps (n.addSoft (-1))

def handleIntervalClock (L : Layout) (fuel : Nat) (e : Trap) (n : Linked) : Option Linked :=
  (clockTick L fuel (MAXPROC + 1) n).bind (resume e.state)

def interruptHandler (L : Layout) (fuel : Nat) (e : Trap) (n : Linked) : Option Linked :=
  match calcIntLineNo e.state.cause with
  | none => some (n.setControl .panic)
  | some intlineNo =>
    if intlineNo = 1 then handlePLT fuel e n
    else if intlineNo = 2 then handleIntervalClock L fuel e n
    else handleDevice L fuel intlineNo e n

/-! ### Exceptions -/

def suspend (e : Trap) (c : PcbPtr) (n : Linked) : Linked :=
  let n := n.setPcb c {n.heap.pcb c with pS := copyState e.state.advance}
  let n := n.setPcb c {n.heap.pcb c with pTime := (n.heap.pcb c).pTime + updateTime e getPRID n}
  n.setCurrent none

def passUpOrDie (L : Layout) (fuel : Nat) (index : Fin 2) (exceptionState : State) (n : Linked) : Option Linked := do
  let c ← n.globals.currentProcess
  let sup := (n.heap.pcb c).pSupportStruct
  if sup = NULL then (killProcess L fuel killFuel (some c) n).bind fun n => scheduler (n.setCurrent none)
  else
    let old := n.globals.support sup
    let new := {old with
      supExceptState := Function.update old.supExceptState index (copyState exceptionState)}
    let n := {n with globals := {n.globals with support := Function.update n.globals.support sup new}}
    some (n.setControl (.ldcxt (new.supExceptContext index)))

def createProcess (fuel : Nat) (e : Trap) (c : PcbPtr) (n : Linked) : Option Linked := do
  match ← Pcbs.allocPcb n.toPcbs with
  | (_, none) => some (n.ldst (e.state.setA0 (-1)).advance)
  | (pcbs, some newPcb) =>
    let n := {n with toPcbs := pcbs}
    let st := e.state.setA0 (n.heap.pcb newPcb).pPid
    let n := n.setPcb newPcb {n.heap.pcb newPcb with
      pS := copyState e.argState
      pPrio := st.regA2
      pSupportStruct := st.regA3}
    let n := {n with heap := Heap.insertChild (some c) (some newPcb) n.heap}
    let n ← n.enqueue fuel newPcb
    some ((n.addCount 1).ldst st.advance)

def terminate (L : Layout) (fuel : Nat) (e : Trap) (target : Option PcbPtr) (n : Linked) : Option Linked := do
  let n ← killProcess L fuel killFuel target n
  if target = n.globals.currentProcess then scheduler (n.setCurrent none)
  else some (n.ldst e.state.advance)

def termProcess (L : Layout) (fuel : Nat) (e : Trap) (c : PcbPtr) (n : Linked) : Option Linked :=
  let target := if e.state.regA1 = 0 then some (some c) else findProcess fuel e.state.regA1 n
  target.bind fun target => terminate L fuel e target n

def passeren (fuel : Nat) (e : Trap) (c : PcbPtr) (n : Linked) : Option Linked :=
  let semAdd := e.state.regA1
  if (n.globals.mem semAdd).toInt ≤ 0 then
    (insertBlocked fuel semAdd c n).bind fun r => scheduler (suspend e c r.1)
  else some ((n.setMem semAdd (n.globals.mem semAdd - 1)).ldst e.state.advance)

def verhogen (fuel : Nat) (e : Trap) (n : Linked) : Option Linked := do
  let semAdd := e.state.regA1
  match ← removeBlocked fuel semAdd n with
  | (n, some unlockedProcess) => (n.enqueue fuel unlockedProcess).map (ldst e.state.advance)
  | (n, none) => some ((n.setMem semAdd (n.globals.mem semAdd + 1)).ldst e.state.advance)

def waitDevSem (fuel : Nat) (e : Trap) (c : PcbPtr) (sem : Addr) (n : Linked) : Option Linked :=
  let waited :=
    if (n.globals.mem sem).toInt ≤ 0 then (insertBlocked fuel sem c n).map Prod.fst
    else some (n.setMem sem (n.globals.mem sem - 1))
  waited.map fun n => (suspend e c n).addSoft 1

def doio (L : Layout) (fuel : Nat) (e : Trap) (c : PcbPtr) (n : Linked) : Option Linked :=
  let commandAddr := e.state.regA1
  let n := n.writeDev commandAddr e.state.regA2
  (waitDevSem fuel e c (L.devSem (findDeviceIndex commandAddr)) n).bind scheduler

def getTime (fuel : Nat) (e : Trap) (n : Linked) : Option Linked := do
  let p ← findProcess fuel (BitVec.ofNat 32 getPRID.val) n
  let p ← p
  some (n.ldst (e.state.setA0 ((n.heap.pcb p).pTime + updateTime e getPRID n)).advance)

def clockWait (L : Layout) (fuel : Nat) (e : Trap) (c : PcbPtr) (n : Linked) : Option Linked :=
  (waitDevSem fuel e c (L.devSem PSEUDOINDEX) n).bind scheduler

def getSupportPtr (e : Trap) (c : PcbPtr) (n : Linked) : Linked :=
  n.ldst (e.state.setA0 (n.heap.pcb c).pSupportStruct).advance

def getProcessId (e : Trap) (c : PcbPtr) (n : Linked) : Linked :=
  let a0 := if e.state.regA1 = 0 then (n.heap.pcb c).pPid else
    match (n.heap.pcb c).pParent with
    | some prnt => (n.heap.pcb prnt).pPid
    | none => 0
  n.ldst (e.state.setA0 a0).advance

def yield (fuel : Nat) (e : Trap) (c : PcbPtr) (n : Linked) : Option Linked :=
  let n := suspend e c n
  let queued :=
    if listEmpty readyQueue n.heap.link then n.enqueue fuel c
    else some (n.setLink (listAddTail (.pList c) readyQueue n.heap.link))
  queued.bind scheduler

def syscallHandler (L : Layout) (fuel : Nat) (e : Trap) (n : Linked) : Option Linked :=
  if unprivileged e.state then passUpOrDie L fuel GENERALEXCEPT (setPrivInstr e.state) n
  else
    match n.globals.currentProcess with
    | none => none
    | some c =>
      match Service.ofWord e.state.regA0 with
      | some .createProcess => createProcess fuel e c n
      | some .termProcess => termProcess L fuel e c n
      | some .passeren => passeren fuel e c n
      | some .verhogen => verhogen fuel e n
      | some .doio => doio L fuel e c n
      | some .getTime => getTime fuel e n
      | some .clockWait => clockWait L fuel e c n
      | some .getSupportPtr => some (getSupportPtr e c n)
      | some .getProcessId => some (getProcessId e c n)
      | some .yield => yield fuel e c n
      | none => passUpOrDie L fuel GENERALEXCEPT e.state.advance n

def exceptionHandler (L : Layout) (fuel : Nat) (e : Trap) (n : Linked) : Option Linked :=
  let causeCode := (e.state.cause &&& CAUSE_EXCCODE_MASK).toNat
  if e.state.cause &&& CAUSE_INTERRUPT_BIT ≠ 0 then interruptHandler L fuel e n
  else if causeCode ≥ 24 ∧ causeCode ≤ 28 then passUpOrDie L fuel PGFAULTEXCEPT e.state n
  else if causeCode = 8 ∨ causeCode = 11 then syscallHandler L fuel e n
  else if causeCode ≤ 7 ∨ causeCode = 9 ∨ causeCode = 10 ∨ (causeCode ≥ 12 ∧ causeCode ≤ 23) then
    passUpOrDie L fuel GENERALEXCEPT e.state n
  else none

/-! ### Boot -/

/-- The statically initialised globals; the links are what the memory holds. -/
def globals₀ (b : Boot) (link : Links Node) : Linked where
  heap := ⟨link, fun _ => ⟨none, State.zero, 0, NULL, NULL, 0, 0⟩⟩
  nextPid := 1
  sKey := fun _ => NULL
  globals :=
    { currentProcess := none
      processCount := 0
      softBlockCount := 0
      mem := b.mem
      startTime := fun _ => 0
      support := b.support
      devWrites := []
      control := .wait }

def clearDevSem (L : Layout) (n : Linked) : Linked :=
  (List.range SEMDEVLEN).foldl (fun n c => n.setMem (L.devSem c) 0) n

/-- The end of `main`: the process that executes `test`. -/
def dispatchFirst (fuel : Nat) (b : Boot) (n : Linked) : Option Linked := do
  match ← Pcbs.allocPcb n.toPcbs with
  | (_, none) => some (n.setControl .panic)
  | (pcbs, some p) =>
    let n := {n with toPcbs := pcbs}
    let n := n.addCount 1
    let n := n.setPcb p {n.heap.pcb p with pS := b.firstState (n.heap.pcb p).pS}
    let n ← n.enqueue fuel p
    scheduler n

def main (L : Layout) (fuel : Nat) (b : Boot) (link : Links Node) : Option Linked :=
  let n := globals₀ b link
  let n := {n with toPcbs := Pcbs.initPcbs n.toPcbs}
  let n := initASL n
  let n := {n with heap := Heap.mkEmptyProcQ readyQueue n.heap}
  let n := {n with globals := {n.globals with startTime := fun _ => 0}}
  let n := clearDevSem L n
  dispatchFirst fuel b n

end MultiPandOS.Linked
