import MultiPandOS.Library.Runs
import MultiPandOS.Nucleus.Modes
import MultiPandOS.Nucleus.Runs
import MultiPandOS.Phase3.SysSupport

/-! The processor mode of U-procs.

`Machine` is the nucleus with the support level around it: processes are started by
the CREATEPROCESS of `test` and `ExecuteSys`, the handlers of the support level
return with LDST, and a trap saves the interrupted mode in `status.MPP`. IMON covers
the two bits of MPP, so what `initUProcState` builds is machine mode. It stays so
through every copy, pass-up and return (`run_privileged`), and the mode test of
`syscallHandler` never refuses a service. -/
namespace MultiPandOS
open Runs

/-- `active` says which handlers of a support structure have been entered and have
not returned. -/
structure Machine where
  nucleus : Nucleus
  active : Addr → Fin 2 → Bool

/-- A trap, or a piece of support code that runs without the nucleus: the call of
CREATEPROCESS with a state of `initUProcState`, `initSupportStructure`, and the
return of a handler, which may have changed `a0` and the program counter. -/
inductive MachineEvent where
  | trap (e : Trap)
  | create (e : Trap) (asid : Word)
  | initSupport (a : Addr) (h : Handlers) (asid : Word)
  | ldst (i : Fin 2) (a0 pc : Word)

namespace Machine

/-- The handler that a pass-up enters. -/
def enter (e : Trap) (m : Machine) : Addr → Fin 2 → Bool :=
  match e.kind, m.nucleus.currentProcess with
  | .passUp index _, some c =>
    let a := (m.nucleus.pcb c).pSupportStruct
    if a = NULL then m.active else Function.update m.active a (Function.update (m.active a) index true)
  | _, _ => m.active

def trap (L : Layout) (e : Trap) (m : Machine) : Option Machine :=
  (exceptionHandler L e m.nucleus).map fun n => ⟨n, m.enter e⟩

def step (L : Layout) : MachineEvent → Machine → Option Machine
  | .trap e, m => m.trap L e
  | .create e asid, m => m.trap L {e with argState := initUProcState asid e.argState}
  | .initSupport a h asid, m =>
    let n := m.nucleus
    some ⟨{n with support := Function.update n.support a (initSupportStructure h asid (n.support a))},
      Function.update m.active a fun _ => false⟩
  | .ldst i a0 pc, m =>
    let n := m.nucleus
    n.currentProcess.map fun c =>
      let a := (n.pcb c).pSupportStruct
      let old := n.support a
      let state := {(old.supExceptState i).setA0 a0 with pcEpc := pc}
      let new := {old with supExceptState := Function.update old.supExceptState i state}
      ⟨{n with support := Function.update n.support a new, control := .ldst state},
        Function.update m.active a (Function.update (m.active a) i false)⟩

end Machine

/-- The mode that the processor is in. -/
def Control.mode : Control → Word
  | .ldst st => st.status &&& MSTATUS_MPP_MASK
  | .ldcxt c => c.status &&& MSTATUS_MPP_MASK
  | _ => MSTATUS_MPP_M

def Kind.creates : Kind → Bool
  | .service .createProcess => true
  | _ => false

/-- The contexts are those of `initSupportStructure`. -/
def initialised (sup : Support) : Prop :=
  ∀ i, (sup.supExceptContext i).status = IEPON ||| IMON ||| TEBITON

/-- A trap saves the interrupted mode. Processes are created as `test` and
`ExecuteSys` do, a support structure is initialised while nobody has it, and a
handler returns once it has been entered. -/
def Machine.Ok (m : Machine) : MachineEvent → Prop
  | .trap e => e.state.status &&& MSTATUS_MPP_MASK = m.nucleus.control.mode ∧ e.kind.creates = false
  | .create e _ =>
    e.state.status &&& MSTATUS_MPP_MASK = m.nucleus.control.mode ∧ e.kind.creates = true ∧
      initialised (m.nucleus.support e.state.regA3)
  | .initSupport a _ _ => ∀ p, m.nucleus.holds p → (m.nucleus.pcb p).pSupportStruct ≠ a
  | .ldst i _ _ =>
    ∃ c, m.nucleus.currentProcess = some c ∧ (m.nucleus.pcb c).pSupportStruct ≠ NULL ∧
      m.active (m.nucleus.pcb c).pSupportStruct i = true

instance (s : Nucleus) (p : PcbPtr) : Decidable (s.holds p) := inferInstanceAs (Decidable (_ ∨ _ ∨ _))

instance (sup : Support) : Decidable (initialised sup) := inferInstanceAs (Decidable (∀ _, _))

instance (m : Machine) : (ev : MachineEvent) → Decidable (m.Ok ev)
  | .trap _ => inferInstanceAs (Decidable (_ ∧ _))
  | .create _ _ => inferInstanceAs (Decidable (_ ∧ _ ∧ _))
  | .initSupport _ _ _ => inferInstanceAs (Decidable (∀ _, _))
  | .ldst _ _ _ => inferInstanceAs (Decidable (∃ _, _))

def Machine.boot (L : Layout) (b : Boot) : Machine := ⟨main L b, fun _ _ => false⟩

/-! ### Every run stays in machine mode -/

/-- Whatever the processor is given next names machine mode. -/
structure Machine.Privileged (m : Machine) : Prop where
  nucleus : m.nucleus.Privileged
  control : m.nucleus.control.machine
  active : ∀ a i, m.active a i = true → machineMode ((m.nucleus.support a).supExceptState i).status

/-- IMON covers MPP. -/
theorem initUProcState_machine (asid : Word) (st : State) : machineMode (initUProcState asid st).status := by
  show machineMode (USERPON ||| IEPON ||| IMON ||| TEBITON)
  decide

theorem initialised.machine {sup : Support} (h : initialised sup) (i : Fin 2) :
    machineMode (sup.supExceptContext i).status := by
  rw [h i]
  decide

theorem Control.machine.mode {c : Control} (h : c.machine) : c.mode = MSTATUS_MPP_M := by
  cases c <;> first | exact h | rfl

theorem kind_passUp_status {e : Trap} {index : Fin 2} {st : State} (h : e.kind = .passUp index st) :
    st.status = e.state.status := by
  unfold Trap.kind at h
  dsimp only at h
  split_ifs at h
  · cases h
    rfl
  · cases h
    rfl
  · split at h <;> cases h
    rfl
  · cases h
    rfl

section Steps
variable {L : Layout} {m m' : Machine} {e : Trap}

theorem Machine.Privileged.trap (h : m.Privileged)
    (hmode : e.state.status &&& MSTATUS_MPP_MASK = m.nucleus.control.mode)
    (hcreate : e.kind.creates = true → machineMode e.argState.status ∧
      (e.state.regA3 ≠ NULL → ∀ i, machineMode ((m.nucleus.support e.state.regA3).supExceptContext i).status))
    (hstep : m.trap L e = some m') : m'.Privileged := by
  have he : machineMode e.state.status := hmode.trans h.control.mode
  obtain ⟨n, hn, rfl⟩ := Option.map_eq_some_iff.mp hstep
  have hleft : Nucleus.Left m.nucleus n → m.enter e = m.active → (Machine.mk n (m.enter e)).Privileged := by
    intro hl henter
    refine ⟨hl.privileged, hl.control, fun a i ha => ?_⟩
    rw [henter] at ha
    rw [hl.support]
    exact h.active a i ha
  rw [exceptionHandler_kind] at hn
  cases hk : e.kind with
  | interrupt line =>
    rw [hk] at hn
    exact hleft (Nucleus.interruptHandler_left h.nucleus he hn) (by simp only [Machine.enter, hk])
  | service sv =>
    rw [hk] at hn hcreate
    obtain ⟨c, hc, hn⟩ := Option.bind_eq_some_iff.mp hn
    refine hleft (Nucleus.serve_left h.nucleus he hc (fun hsv => hcreate ?_) hn) (by simp only [Machine.enter, hk])
    rw [hsv]
    rfl
  | passUp index st =>
    rw [hk] at hn
    have hst : machineMode st.status := by rwa [kind_passUp_status hk]
    obtain ⟨hpriv, hcontrol, c, hc, hstates⟩ := Nucleus.passUpOrDie_left h.nucleus hn
    refine ⟨hpriv, hcontrol, fun a i ha => ?_⟩
    show machineMode ((n.support a).supExceptState i).status
    rw [hstates]
    split
    · exact hst
    · rename_i hne
      apply h.active a i
      simp only [Machine.enter, hk, hc] at ha
      split at ha
      · exact ha
      · rename_i hnull
        by_cases haa : a = (m.nucleus.pcb c).pSupportStruct
        · subst haa
          by_cases hi : i = index
          · exact absurd ⟨rfl, hnull, hi⟩ hne
          · simpa [hi] using ha
        · simpa [haa] using ha
  | ignored =>
    rw [hk] at hn
    cases hn

theorem Machine.Privileged.initSupport (h : m.Privileged) {a : Addr} (hs : Handlers) (asid : Word)
    (hstep : Machine.step L (.initSupport a hs asid) m = some m') : m'.Privileged := by
  cases hstep
  refine ⟨⟨h.nucleus.state, fun p hp hne i => ?_⟩, h.control, fun b i hb => ?_⟩
  · by_cases hpa : (m.nucleus.pcb p).pSupportStruct = a
    · have hnew : initialised (initSupportStructure hs asid (m.nucleus.support a)) := by
        intro j
        simp only [initSupportStructure]
        split <;> rfl
      have := hnew.machine i
      simpa [hpa] using this
    · simpa [hpa] using h.nucleus.context p hp hne i
  · by_cases hba : b = a
    · subst hba
      simp at hb
    · simpa [hba] using h.active b i (by simpa [hba] using hb)

theorem Machine.Privileged.ldst (h : m.Privileged) {i : Fin 2} {a0 pc : Word} (hok : m.Ok (.ldst i a0 pc))
    (hstep : Machine.step L (.ldst i a0 pc) m = some m') : m'.Privileged := by
  obtain ⟨c, hc, -, hactive⟩ := hok
  obtain ⟨c', hc', rfl⟩ := Option.map_eq_some_iff.mp hstep
  obtain rfl : c = c' := Option.some.inj (hc.symm.trans hc')
  have hstate := h.active _ i hactive
  refine ⟨⟨h.nucleus.state, fun p hp hne j => ?_⟩, hstate, fun b j hb => ?_⟩
  · have := h.nucleus.context p hp hne j
    by_cases hpa : (m.nucleus.pcb p).pSupportStruct = (m.nucleus.pcb c).pSupportStruct
    · rw [hpa] at this
      simpa [hpa] using this
    · simpa [hpa] using this
  · by_cases hba : b = (m.nucleus.pcb c).pSupportStruct
    · subst hba
      by_cases hj : j = i
      · subst hj
        simp at hb
      · simpa [hj] using h.active _ j (by simpa [hj] using hb)
    · simpa [hba] using h.active b j (by simpa [hba] using hb)

theorem Machine.Privileged.step (h : m.Privileged) {ev : MachineEvent} (hok : m.Ok ev)
    (hstep : Machine.step L ev m = some m') : m'.Privileged := by
  cases ev with
  | trap e => exact h.trap hok.1 (fun hk => by rw [hok.2] at hk; cases hk) hstep
  | create e asid =>
    refine h.trap (e := {e with argState := initUProcState asid e.argState}) hok.1 (fun _ => ?_) hstep
    exact ⟨initUProcState_machine asid e.argState, fun _ i => hok.2.2.machine i⟩
  | initSupport a hs asid => exact h.initSupport hs asid hstep
  | ldst i a0 pc => exact h.ldst hok hstep

end Steps

/-- Boot starts `test` in machine mode. -/
theorem boot_privileged (L : Layout) (b : Boot) : (Machine.boot L b).Privileged := by
  obtain ⟨rest, -, hmain⟩ := main_eq L b
  have hholds : ∀ p, (main L b).holds p → p = firstProcess := by
    intro p hp
    rw [hmain] at hp
    rcases hp with hready | ⟨j, hj⟩ | hcur
    · cases hready
    · cases hj
    · exact (Option.some.inj hcur).symm
  have hfirst : (main L b).pcb firstProcess = {Pcb.fresh 1 with pS := b.firstState State.zero} := by
    rw [hmain]
    simp
  have hstate : machineMode (b.firstState State.zero).status := by
    show machineMode (MSTATUS_MPIE_MASK ||| MSTATUS_MPP_M)
    decide
  refine ⟨⟨fun p hp => ?_, fun p hp hne => ?_⟩, ?_, fun a i ha => by cases ha⟩
  · show machineMode ((main L b).pcb p).pS.status
    rw [hholds p hp, hfirst]
    exact hstate
  · rw [hholds p hp] at hne
    exact absurd (congrArg Pcb.pSupportStruct hfirst) hne
  · show (main L b).control.machine
    rw [hmain]
    exact hstate

theorem run_privileged {L : Layout} {b : Boot} {es : List MachineEvent} {m : Machine}
    (h : Run (Machine.step L) Machine.Ok (Machine.boot L b) es m) : m.Privileged :=
  h.invariant Machine.Privileged (boot_privileged L b) fun _ _ _ hm hok hstep => hm.step hok hstep

/-! ### Service calls of a U-proc -/

/-- The process `c` runs code of its own: none of its handlers has been entered. -/
structure OwnCode (m : Machine) (c : PcbPtr) : Prop where
  current : m.nucleus.currentProcess = some c
  sup : (m.nucleus.pcb c).pSupportStruct ≠ NULL
  handlers : ∀ i, m.active (m.nucleus.pcb c).pSupportStruct i = false

/-- A system call with a negative `a0`, in the mode the processor is in. -/
structure NegativeCall (m : Machine) (e : Trap) : Prop where
  mode : e.state.status &&& MSTATUS_MPP_MASK = m.nucleus.control.mode
  ecall : e.state.cause = 8 ∨ e.state.cause = 11
  negative : e.state.regA0.toInt < 0

/-- The call is passed up as GENERALEXCEPT and ends in `programTrapHandler`; the
queues, the tree, the semaphores and the counters are as they were. -/
def Contained (L : Layout) (m : Machine) (c : PcbPtr) (e : Trap) : Prop :=
  ∃ n, exceptionHandler L e m.nucleus = some n ∧ n.view = m.nucleus.view ∧
    n.control = .ldcxt ((m.nucleus.support (m.nucleus.pcb c).pSupportStruct).supExceptContext GENERALEXCEPT) ∧
    ∃ asid, generalExceptionHandler (n.support (m.nucleus.pcb c).pSupportStruct) = .programTrapHandler asid

theorem ofWord_eq_none {w : Word} (hneg : w.toInt < 0) : Service.ofWord w = none ↔ w.toInt < -10 := by
  unfold Service.ofWord
  split
  all_goals
    simp_all
    try omega

/-- No service leaves through a support context. -/
theorem serve_control {L : Layout} {e : Trap} {c : PcbPtr} {s s' : Nucleus} {sv : Service}
    (h : serve L e c s sv = some s') (x : Context) : s'.control ≠ .ldcxt x := by
  have hscheduler : ∀ s : Nucleus, (scheduler s).control ≠ .ldcxt x := by
    intro s
    cases hr : s.readyQueue with
    | nil =>
      rw [scheduler_nil hr]
      unfold idle
      split_ifs <;> simp
    | cons p rest =>
      rw [scheduler_cons hr]
      simp
  cases sv with
  | createProcess =>
    cases h
    unfold createProcess
    split <;> simp [Nucleus.ldst]
  | termProcess =>
    obtain ⟨_, -, hterm⟩ := Option.bind_eq_some_iff.mp h
    obtain ⟨s₁, -, rfl⟩ := Option.map_eq_some_iff.mp hterm
    split
    · exact hscheduler _
    · simp [Nucleus.ldst]
  | passeren =>
    cases h
    unfold passeren
    dsimp only
    split
    · exact hscheduler _
    · simp [Nucleus.ldst]
  | verhogen =>
    cases h
    simp [verhogen, Nucleus.ldst]
  | doio =>
    cases h
    exact hscheduler _
  | getTime =>
    rw [serve, getTime] at h
    split at h
    · cases h
    · cases h
    · cases h
      simp [Nucleus.ldst]
  | clockWait =>
    cases h
    exact hscheduler _
  | getSupportPtr =>
    cases h
    simp [getSupportPtr, Nucleus.ldst]
  | getProcessId =>
    cases h
    simp [getProcessId, Nucleus.ldst]
  | yield =>
    cases h
    exact hscheduler _

/-- What a negative call from machine mode asks for. -/
theorem NegativeCall.kind {m : Machine} {e : Trap} (h : NegativeCall m e) (hm : m.Privileged) :
    e.kind = match Service.ofWord e.state.regA0 with
      | some sv => .service sv
      | none => .passUp GENERALEXCEPT e.state.advance := by
  have hpriv : ¬ unprivileged e.state := by
    intro hu
    have hzero : MSTATUS_MPP_M = 0 := (h.mode.trans hm.control.mode).symm.trans hu.2
    exact absurd hzero (by decide)
  unfold Trap.kind
  rcases h.ecall with hc | hc
  · simp only [hc, hpriv, if_false]
    rfl
  · simp only [hc, hpriv, if_false]
    rfl

/-- **Nucleus services from U-procs**: in every run, a negative call of a U-proc's own
code is contained exactly if it names no service. The ten services are executed. -/
theorem call_contained_iff {L : Layout} {b : Boot} {es : List MachineEvent} {m : Machine}
    (h : Run (Machine.step L) Machine.Ok (Machine.boot L b) es m) {c : PcbPtr} (hc : OwnCode m c) {e : Trap}
    (he : NegativeCall m e) : Contained L m c e ↔ e.state.regA0.toInt < -10 := by
  have hm := run_privileged h
  have hkind := he.kind hm
  have hhandler := exceptionHandler_kind L e m.nucleus
  rw [hkind] at hhandler
  cases hsv : Service.ofWord e.state.regA0 with
  | some sv =>
    rw [hsv] at hhandler
    have hnum : ¬ e.state.regA0.toInt < -10 := by
      rw [← ofWord_eq_none he.negative, hsv]
      simp
    refine ⟨fun hcontained => ?_, fun hlt => absurd hlt hnum⟩
    obtain ⟨n, hn, -, hcontrol, -⟩ := hcontained
    rw [hhandler] at hn
    obtain ⟨c', -, hserve⟩ := Option.bind_eq_some_iff.mp hn
    exact absurd hcontrol (serve_control hserve _)
  | none =>
    rw [hsv] at hhandler
    have hnum := (ofWord_eq_none he.negative).mp hsv
    refine ⟨fun _ => hnum, fun _ => ?_⟩
    have hpass := passUpOrDie_eq (L := L) hc.current hc.sup GENERALEXCEPT e.state.advance
    refine ⟨_, hhandler.trans hpass, rfl, rfl, (m.nucleus.support (m.nucleus.pcb c).pSupportStruct).supAsid, ?_⟩
    simp only [generalExceptionHandler, Function.update_self]
    have hcause : e.state.advance.cause &&& GETEXECCODE = SYSEXCEPTION := by
      show e.state.cause &&& GETEXECCODE = SYSEXCEPTION
      rcases he.ecall with hcause | hcause <;> rw [hcause] <;> decide
    have ha0 : e.state.advance.regA0.toInt = e.state.regA0.toInt := rfl
    rw [if_pos hcause, supportSyscallHandler, ha0, if_neg, if_neg, if_neg, if_neg]
    all_goals
      simp only [TERMINATE, WRITETERMINAL, READTERMINAL, EXECUTE]
      omega

/-! ### The shell calls VERHOGEN -/

namespace CallSample
open Sample

def supportAddr : Addr := 0x20010000
def masterSemaphore : Addr := 0x20030000

/-- A system call from machine mode, with a support structure in `a3`. -/
def call (a0 : Int) (a1 a3 : Word) : Trap :=
  {ecall a0 a1 0 with state := {(ecall a0 a1 0).state with
    gpr := fun r => if r.val = 13 then a3 else (ecall a0 a1 0).state.gpr r}}

/-- `test` starts the shell and waits for it. -/
def events : List MachineEvent :=
  [.initSupport supportAddr ⟨0x20005000, 0x20006000, 0x20007000, 0x20008000⟩ SHELL_ASID,
    .create (call (-1) 0 supportAddr) SHELL_ASID, .trap (call (-3) masterSemaphore 0)]

/-- What the shell calls. -/
def verhogenMaster : Trap := call (-4) masterSemaphore 0

theorem run : ∃ m, exec (Machine.step layout) events (Machine.boot layout boot) = some m ∧
    Run (Machine.step layout) Machine.Ok (Machine.boot layout boot) events m ∧
    OwnCode m child ∧ NegativeCall m verhogenMaster := by
  have hfollows : Follows (Machine.step layout) Machine.Ok events (Machine.boot layout boot) := by
    decide +kernel
  obtain ⟨m, hexec, hrun⟩ := hfollows.run
  have hstate : (exec (Machine.step layout) events (Machine.boot layout boot)).all (fun m =>
      m.nucleus.currentProcess = some child ∧ (m.nucleus.pcb child).pSupportStruct ≠ NULL ∧
      (∀ i, m.active (m.nucleus.pcb child).pSupportStruct i = false) ∧
      verhogenMaster.state.status &&& MSTATUS_MPP_MASK = m.nucleus.control.mode) = true := by
    decide +kernel
  rw [hexec] at hstate
  obtain ⟨hcur, hsup, hactive, hmode⟩ := of_decide_eq_true hstate
  exact ⟨m, hexec, hrun, ⟨hcur, hsup, hactive⟩, hmode, .inr rfl, by decide⟩

end CallSample

open Sample CallSample in
theorem call_contained_iff_sample :
    ∃ m, exec (Machine.step layout) CallSample.events (Machine.boot layout boot) = some m ∧
      ¬ Contained layout m child verhogenMaster := by
  obtain ⟨m, hexec, hrun, hown, hcall⟩ := CallSample.run
  have hnum : ¬ verhogenMaster.state.regA0.toInt < -10 := by decide
  exact ⟨m, hexec, fun hcontained => hnum ((call_contained_iff hrun hown hcall).mp hcontained)⟩

open Sample CallSample in
/-- The nucleus performs the VERHOGEN: `test` is ready to shut the system down. -/
theorem uproc_calls_verhogen :
    ∃ m, Run (Machine.step layout) Machine.Ok (Machine.boot layout boot) CallSample.events m ∧
      OwnCode m child ∧ NegativeCall m verhogenMaster ∧ ¬ Contained layout m child verhogenMaster ∧
      ∃ n, exceptionHandler layout verhogenMaster m.nucleus = some n ∧
        firstProcess ∈ m.nucleus.view.waiting masterSemaphore ∧ firstProcess ∈ n.readyQueue := by
  obtain ⟨m, hexec, hrun, hown, hcall⟩ := CallSample.run
  have hserved : (exec (Machine.step layout) CallSample.events (Machine.boot layout boot)).all (fun m =>
      firstProcess ∈ waiting masterSemaphore m.nucleus ∧
      (exceptionHandler layout verhogenMaster m.nucleus).any fun n =>
        firstProcess ∈ n.readyQueue ∧ n.view.ready ≠ m.nucleus.view.ready) = true := by
    decide +kernel
  rw [hexec] at hserved
  obtain ⟨hwaiting, hserved⟩ := of_decide_eq_true hserved
  obtain ⟨n, hn⟩ : ∃ n, exceptionHandler layout verhogenMaster m.nucleus = some n := by
    cases hn : exceptionHandler layout verhogenMaster m.nucleus with
    | none => simp [hn] at hserved
    | some n => exact ⟨n, rfl⟩
  rw [hn] at hserved
  obtain ⟨hmem, hview⟩ := of_decide_eq_true hserved
  refine ⟨m, hrun, hown, hcall, fun hcontained => ?_, n, hn, hwaiting, hmem⟩
  obtain ⟨n', hn', hsame, -⟩ := hcontained
  obtain rfl : n = n' := Option.some.inj (hn.symm.trans hn')
  exact hview (congrArg View.ready hsame)

end MultiPandOS
