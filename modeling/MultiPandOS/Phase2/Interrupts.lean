import MultiPandOS.Phase2.Scheduler

/-! The interrupt handlers (`phase2/interrupts.c`). -/
namespace MultiPandOS

def IL_TIMER : Word := 3
def IL_CPUTIMER : Word := 7
def IL_DISK : Word := 17
def IL_FLASH : Word := 18
def IL_ETHERNET : Word := 19
def IL_PRINTER : Word := 20
def IL_TERMINAL : Word := 21

/-- Without a value where the source calls PANIC. -/
def calcIntLineNo (cause : Word) : Option Nat :=
  let code := cause &&& CAUSE_EXCCODE_MASK
  if code = IL_CPUTIMER then some 1
  else if code = IL_TIMER then some 2
  else if code = IL_DISK then some 3
  else if code = IL_FLASH then some 4
  else if code = IL_ETHERNET then some 5
  else if code = IL_PRINTER then some 6
  else if code = IL_TERMINAL then some 7
  else none

/-- The interrupt bitmap of the line; its lowest bit set names the device. -/
def calcDevNo (intlineNo : Nat) (bus : Addr → Word) : Option Nat :=
  (List.range 8).find? fun n => (bus (0x10000040 + BitVec.ofNat 32 (4 * (intlineNo - 3)))).getLsbD n

def devRegAddr (intlineNo devNo : Nat) : Addr :=
  START_DEVREG + BitVec.ofNat 32 ((intlineNo - 3) * 0x80) + BitVec.ofNat 32 (devNo * 0x10)

/-- What `handleDevice` finds done at `devAddr`: the status word it saves, the
command register it acknowledges and the address it looks the semaphore up by.
A terminal neither of whose sub-devices reports 5 has none. -/
def servedDevice (intlineNo : Nat) (devAddr : Addr) (bus : Addr → Word) : Option (Word × Addr × Addr) :=
  if intlineNo = 7 then
    if bus (devAddr + 0x8) &&& 0xff = OKCHARTRANS then
      some (bus (devAddr + 0x8), devAddr + 0xC, devAddr + 0x8)
    else if bus devAddr &&& 0xff = CHARRECV then
      some (bus devAddr, devAddr + 0x4, devAddr)
    else none
  else some (bus devAddr, devAddr + 0x4, devAddr)

/-- `removeBlocked` on the semaphore of the (sub)device, and what follows it. -/
def completeDevice (sem : Addr) (savedStatus : Word) (s : Nucleus) : Nucleus :=
  match removeBlocked sem s with
  | (s, some unblocked) =>
    let s := s.setPcb unblocked {s.pcb unblocked with pS := (s.pcb unblocked).pS.setA0 savedStatus}
    let s := s.enqueue unblocked
    {s with softBlockCount := s.softBlockCount - 1}
  | (s, none) => s.setMem sem (s.mem sem + 1)

/-- `LDST(stato)` if a process was running, else the scheduler. -/
def resume (stato : State) (s : Nucleus) : Nucleus :=
  match s.currentProcess with
  | some _ => {s with control := .ldst stato}
  | none => scheduler s

/-- With nothing served `sem` is still NULL while `semIndex` is 0, and `(*sem)++`
goes through it: `none`. -/
def handleDevice (L : Layout) (intlineNo : Nat) (e : Trap) (s : Nucleus) : Option Nucleus :=
  match calcDevNo intlineNo e.bus with
  | none => some {s with control := .panic}
  | some devNo =>
    match servedDevice intlineNo (devRegAddr intlineNo devNo) e.bus with
    | none => none
    | some (savedStatus, command, reg) =>
      let s := s.writeDev command ACK
      let semIndex := findDeviceIndex reg
      let s := if semIndex ≠ -1 then completeDevice (L.devSem semIndex) savedStatus s else s
      some (resume e.state s)

/-- `currentProcess` keeps pointing to the process just queued until the scheduler
overwrites it. -/
def handlePLT (e : Trap) (s : Nucleus) : Option Nucleus :=
  match s.currentProcess with
  | none => none
  | some c =>
    let s := s.setPcb c {s.pcb c with pS := copyState e.state}
    some (scheduler (s.enqueue c))

/-- `while ((p = removeBlocked(&deviceSemaphore[PSEUDOINDEX])) != NULL)`. -/
def clockTick (L : Layout) : Nat → Nucleus → Option Nucleus
  | 0, _ => none
  | n + 1, s =>
    match removeBlocked (L.devSem PSEUDOINDEX) s with
    | (s, none) => some s
    | (s, some p) => clockTick L n {(s.enqueue p) with softBlockCount := s.softBlockCount - 1}

/-- Every process can be waiting for the clock, and one more test ends the loop. -/
def handleIntervalClock (L : Layout) (e : Trap) (s : Nucleus) : Option Nucleus :=
  (clockTick L (MAXPROC + 1) s).map (resume e.state)

def interruptHandler (L : Layout) (e : Trap) (s : Nucleus) : Option Nucleus :=
  match calcIntLineNo e.state.cause with
  | none => some {s with control := .panic}
  | some intlineNo =>
    if intlineNo = 1 then handlePLT e s
    else if intlineNo = 2 then handleIntervalClock L e s
    else handleDevice L intlineNo e s

end MultiPandOS
