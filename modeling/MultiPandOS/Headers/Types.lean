import Mathlib.Data.Fintype.Card
import Mathlib.Data.Fintype.Pi
import Mathlib.Logic.Function.Basic

/-! The data of the nucleus and of the support level.

Machine words and addresses are 32-bit vectors. A `pcb_t *` is an index into
`pcbFree_table` and a `semd_t *` an index into `semd_table`; a queue threaded
through `p_list`, `p_sib` or `s_link` is the list of the elements it visits,
head first. Pointers to integers (semaphores) and to support structures stay
addresses, because the code compares and dereferences them as such.

`Nucleus` collects the global variables of phases 1 and 2. Its field `control`
records how the last handler gave up the processor. -/
namespace MultiPandOS

abbrev Word := BitVec 32
abbrev Addr := BitVec 32

def NULL : Addr := 0

/-- An `int` that is not negative. -/
theorem toInt_toNat {w : Word} (h : 0 ≤ w.toInt) : w.toInt = w.toNat := by
  have hmsb : w.msb = false := by
    rw [BitVec.msb_eq_toInt]
    simpa using h
  exact BitVec.toInt_eq_toNat_of_msb hmsb

/-! ### Constants -/

def MAXPROC : Nat := 20
def SEMDEVLEN : Nat := 49
def PSEUDOINDEX : Int := 48
def NCPU : Nat := 8
def UPROCMAX : Nat := 8
def POOLSIZE : Nat := UPROCMAX * 2
def USERPGTBLSIZE : Nat := 32
def PGFAULTEXCEPT : Fin 2 := 0
def GENERALEXCEPT : Fin 2 := 1

def START_DEVREG : Addr := 0x10000054
def OKCHARTRANS : Word := 5
def CHARRECV : Word := 5
def ACK : Word := 1

def MSTATUS_MPIE_MASK : Word := 0x80
def MSTATUS_MPP_MASK : Word := 0x1800
def MSTATUS_MPP_M : Word := 0x1800
def MIE_ALL : Word := 0xFFFFFFFF
def GETEXECCODE : Word := 0x0000007C
def PRIVINSTR : Word := 10
def CAUSESHIFT : Nat := 2
def CAUSE_EXCCODE_MASK : Word := 0x7FFFFFFF
def CAUSE_INTERRUPT_BIT : Word := 0x80000000

/-! ### Processor state -/

/-- `state_t`. -/
structure State where
  entryHi : Word
  cause : Word
  status : Word
  pcEpc : Word
  mie : Word
  gpr : Fin 32 → Word

namespace State

def zero : State := ⟨0, 0, 0, 0, 0, fun _ => 0⟩

def regSp (st : State) : Word := st.gpr 2
def regA0 (st : State) : Word := st.gpr 10
def regA1 (st : State) : Word := st.gpr 11
def regA2 (st : State) : Word := st.gpr 12
def regA3 (st : State) : Word := st.gpr 13

def setSp (st : State) (w : Word) : State := {st with gpr := Function.update st.gpr 2 w}
def setA0 (st : State) (w : Word) : State := {st with gpr := Function.update st.gpr 10 w}

/-- `state->pc_epc += 4`. -/
def advance (st : State) : State := {st with pcEpc := st.pcEpc + 4}

@[simp] theorem setA0_status (st : State) (w : Word) : (st.setA0 w).status = st.status := rfl
@[simp] theorem setSp_status (st : State) (w : Word) : (st.setSp w).status = st.status := rfl
@[simp] theorem advance_status (st : State) : st.advance.status = st.status := rfl

end State

/-- `context_t`: what a pass-up loads with LDCXT. -/
structure Context where
  stackPtr : Word
  status : Word
  pc : Word

/-- `pteEntry_t`. -/
structure PteEntry where
  entryHi : Word
  entryLo : Word
deriving DecidableEq

/-- `support_t`, without the stacks and the free-list link. -/
structure Support where
  supAsid : Word
  supExceptState : Fin 2 → State
  supExceptContext : Fin 2 → Context
  supPrivatePgTbl : Fin USERPGTBLSIZE → PteEntry

/-! ### Processes and semaphore descriptors -/

abbrev PcbPtr := Fin MAXPROC
abbrev SemdPtr := Fin MAXPROC

instance : LawfulBEq PcbPtr := inferInstance

/-- `pcb_t`. `pChild` is the queue whose sentinel is `p_child`, threaded through
the children's `p_sib`. -/
structure Pcb where
  pParent : Option PcbPtr
  pChild : List PcbPtr
  pS : State
  pTime : Word
  pSemAdd : Addr
  pSupportStruct : Addr
  pPrio : Word
  pPid : Word

/-- An entry of a static table before anything is written to it. -/
def Pcb.zero : Pcb := ⟨none, [], State.zero, 0, NULL, NULL, 0, 0⟩

/-- `semd_t`. -/
structure Semd where
  sKey : Addr
  sProcq : List PcbPtr

/-! ### The nucleus -/

/-- How a handler gives up the processor. -/
inductive Control where
  | ldst (state : State)
  | ldcxt (context : Context)
  | wait
  | halt
  | panic

/-- Some process executes after `c`. -/
def Control.running : Control → Bool
  | .ldst _ => true
  | .ldcxt _ => true
  | _ => false

/-- The global variables of phases 1 and 2. `mem` holds the integers reached
through semaphore pointers, `deviceSemaphore` among them; `devWrites` lists what
was stored into device registers, the latest first. -/
structure Nucleus where
  pcb : PcbPtr → Pcb
  pcbFreeH : List PcbPtr
  nextPid : Word
  semd : SemdPtr → Semd
  semdH : List SemdPtr
  semdFreeH : List SemdPtr
  readyQueue : List PcbPtr
  currentProcess : Option PcbPtr
  processCount : Word
  softBlockCount : Word
  mem : Addr → Word
  startTime : Fin NCPU → Word
  support : Addr → Support
  devWrites : List (Addr × Word)
  control : Control

namespace Nucleus

def setPcb (s : Nucleus) (p : PcbPtr) (b : Pcb) : Nucleus :=
  {s with pcb := Function.update s.pcb p b}

def setSemd (s : Nucleus) (j : SemdPtr) (d : Semd) : Nucleus :=
  {s with semd := Function.update s.semd j d}

def setMem (s : Nucleus) (a : Addr) (w : Word) : Nucleus :=
  {s with mem := Function.update s.mem a w}

def writeDev (s : Nucleus) (a : Addr) (w : Word) : Nucleus :=
  {s with devWrites := (a, w) :: s.devWrites}

/-- The priority `insertProcQ` compares, as the signed integer it is. -/
def prio (s : Nucleus) (p : PcbPtr) : Int := (s.pcb p).pPrio.toInt

end Nucleus

/-- Where the linker put `deviceSemaphore`: 49 words that neither wrap around the
address space nor start at address 0. -/
structure Layout where
  deviceSemaphore : Addr
  nonNull : 0 < deviceSemaphore.toNat
  fits : deviceSemaphore.toNat + 4 * SEMDEVLEN ≤ 2 ^ 32

/-- `&deviceSemaphore[i]`. -/
def Layout.devSem (L : Layout) (i : Int) : Addr := L.deviceSemaphore + BitVec.ofInt 32 (4 * i)

theorem Layout.devSem_toNat (L : Layout) (i : Nat) (h : i < SEMDEVLEN) :
    (L.devSem i).toNat = L.deviceSemaphore.toNat + 4 * i := by
  have hfits := L.fits
  have hbound : i < 49 := h
  have hi : (BitVec.ofInt 32 (4 * (i : Int))).toNat = 4 * i := by
    rw [show (4 * (i : Int)) = ((4 * i : Nat) : Int) by omega, BitVec.ofInt_natCast, BitVec.toNat_ofNat]
    exact Nat.mod_eq_of_lt (by omega)
  simp only [SEMDEVLEN] at hfits
  rw [devSem, BitVec.toNat_add, hi]
  exact Nat.mod_eq_of_lt (by omega)

theorem Layout.devSem_ne_null (L : Layout) (i : Nat) (h : i < SEMDEVLEN) : L.devSem i ≠ NULL := by
  intro hz
  have hn := L.devSem_toNat i h
  rw [hz] at hn
  have := L.nonNull
  simp [NULL] at hn
  omega

theorem Layout.devSem_inj (L : Layout) {i j : Nat} (hi : i < SEMDEVLEN) (hj : j < SEMDEVLEN)
    (h : L.devSem i = L.devSem j) : i = j := by
  have hni := L.devSem_toNat i hi
  rw [h, L.devSem_toNat j hj] at hni
  omega

/-- An address inside `deviceSemaphore`. -/
def Layout.isDevSem (L : Layout) (a : Addr) : Prop := ∃ i : Nat, i < SEMDEVLEN ∧ a = L.devSem i

/-- What a trap hands to the nucleus: the exception state saved in the BIOS data
page, the `state_t` that `a1` points to (read by CREATEPROCESS), the bus registers
(interrupt bitmaps and device registers) and the clock that STCK reads. -/
structure Trap where
  state : State
  argState : State
  bus : Addr → Word
  clock : Word

end MultiPandOS
