import MultiPandOS.Kernel.Machine
import MultiPandOS.Support.Mutexes

/-! Calls of the nucleus by the support level.

A step of the support level does to the semaphores what the call says that it begins with,
and takes nothing else from them (`sysStep_sem`): so it does not matter who keeps the
semaphores. Whoever is stopped in a call still asks for the same thing after a step of
somebody else, unless that step ends everything (`Orderly.call_kept`). -/
namespace MultiPandOS

/-! ### What a call does to the semaphores -/

def NucleusCall.doing : NucleusCall → Doing
  | .passeren x => .passeren x
  | .verhogen x => .verhogen x
  | _ => .nothing

/-- The P or V that a step begins with. -/
def Sys.doing (s : Sys) (e : SysEvent) : Doing := (s.call e.task).elim .nothing NucleusCall.doing

theorem doing_doio {ι : Type} (o : Option ι) (commandAddr : ι → Addr) (commandValue : Word) :
    (o.map fun i => NucleusCall.doio (commandAddr i) commandValue).elim .nothing NucleusCall.doing = .nothing := by
  cases o <;> rfl

theorem doing_createProcess (o : Option (SupPtr × List SupPtr)) (asid : Word) :
    (o.map fun r => NucleusCall.createProcess asid r.1).elim .nothing NucleusCall.doing = .nothing := by
  cases o <;> rfl

section Sems
variable {L : PoolLayout} {h : Handlers} {q : Nat} {s s' : Sys} {e : SysEvent} {inp : Input} {σ τ : Sem → Int}

theorem strayRefill_sem (q : Nat) (inp : Input) (s : Sys) (ρ : Sem → Int) :
    strayRefill q inp {s with sem := ρ} = {strayRefill q inp s with sem := ρ} := by
  unfold strayRefill
  split <;> rfl

theorem touch_sem {k : Code} {va : Addr} {done done' : Word → Sys} (hdone : ∀ lo, done' lo = {done lo with sem := σ})
    (hstep : touch q k va inp done {s with sem := τ} = some s') :
    touch q k va inp done' {s with sem := σ} = some {s' with sem := σ} := by
  simp only [touch] at hstep ⊢
  cases hlook : lookup (accessHi (s.proc q).asid va) s.vm with
  | miss =>
    simp only [hlook] at hstep ⊢
    cases hrefill : uTLB_RefillHandler (s.proc q).sup (accessHi (s.proc q).asid va) inp.slot s.vm with
    | some vm =>
      simp only [hrefill] at hstep ⊢
      obtain rfl := Option.some.inj hstep
      rfl
    | none =>
      simp only [hrefill] at hstep ⊢
      obtain rfl := Option.some.inj hstep
      rw [strayRefill_sem q inp s τ, strayRefill_sem q inp s σ]
  | invalid =>
    simp only [hlook] at hstep ⊢
    obtain rfl := Option.some.inj hstep
    rfl
  | hit lo =>
    simp only [hlook] at hstep ⊢
    obtain rfl := Option.some.inj hstep
    rw [hdone]

/-- A P, and what follows it. -/
theorem passeren_sem {x : Sem} {f : Sys → Sys} (hf : ∀ t ρ, f {t with sem := ρ} = {f t with sem := ρ})
    (hpos : (Doing.passeren x).Allowed σ) (hstep : (Sys.passeren x {s with sem := τ}).map f = some s') :
    (Sys.passeren x {s with sem := σ}).map f = some {s' with sem := (Doing.passeren x).apply σ} := by
  obtain ⟨s₁, hpass, rfl⟩ := Option.map_eq_some_iff.mp hstep
  obtain ⟨-, rfl⟩ := passeren_eq_some hpass
  have hpos' : 0 < σ x := hpos
  simp only [Sys.passeren, if_pos hpos', Option.map_some, Option.some.injEq]
  rw [hf s (Function.update σ x _), hf s (Function.update τ x _)]
  rfl

theorem executeSys_sem (h : Handlers) (q : Nat) (asid result : Word) (s : Sys) (σ : Sem → Int) :
    executeSys h q asid result {s with sem := σ} = {executeSys h q asid result s with sem := σ} := by
  unfold executeSys
  have hstate : ({s with sem := σ} : Sys).state q = s.state q := rfl
  simp only [hstate]
  by_cases hbad : badExecute asid (s.state q).regA1
  · simp only [if_pos hbad]
    rfl
  · simp only [if_neg hbad]
    cases allocateSupport s.supportFree with
    | none => rfl
    | some r =>
      by_cases hfail : result = -1
      · simp only [if_pos hfail]
        rfl
      · simp only [if_neg hfail]
        rfl

theorem runPager_sem {k : Code} {place : PagerAt} {a : Answer} (hstep : runPager L q k a {s with sem := τ} place = some s') :
    runPager L q k a {s with sem := σ} place =
      some {s' with sem := ((place.call (s.proc q).sup s.vm).elim .nothing NucleusCall.doing).apply σ} := by
  cases place with
  | published =>
    obtain rfl := Option.some.inj hstep
    rfl
  | failed asid =>
    obtain rfl := Option.some.inj hstep
    rfl
  | evicted p f asid =>
    simp only [runPager] at hstep ⊢
    obtain ⟨r, hr, rfl⟩ := Option.map_eq_some_iff.mp hstep
    rw [hr, PagerAt.call, doing_doio]
    rfl
  | reading p f =>
    simp only [runPager] at hstep ⊢
    obtain ⟨r, hr, rfl⟩ := Option.map_eq_some_iff.mp hstep
    rw [hr, PagerAt.call, doing_doio]
    rfl
  | _ =>
    simp only [runPager] at hstep ⊢
    obtain ⟨r, hr, rfl⟩ := Option.map_eq_some_iff.mp hstep
    rw [hr]
    rfl

theorem enterPager_sem {k : Code} (hplace : (s.proc q).place = .fault k)
    (hd : (s.doing (.go q inp)).Allowed σ) (hstep : enterPager q k {s with sem := τ} = some s') :
    enterPager q k {s with sem := σ} = some {s' with sem := (s.doing (.go q inp)).apply σ} := by
  simp only [Sys.doing, SysEvent.task, Sys.call, Sys.uprocCall, hplace] at hd ⊢
  simp only [enterPager] at hstep ⊢
  by_cases hcause : ((s.vm.supportPool (s.proc q).sup).supExceptState PGFAULTEXCEPT).cause &&& GETEXECCODE = TLBINVLDMOD
  · simp only [if_pos hcause] at hd hstep ⊢
    obtain rfl := Option.some.inj hstep
    rfl
  · simp only [if_neg hcause] at hd hstep ⊢
    exact passeren_sem (fun _ _ => rfl) hd hstep

theorem terminateSys_sem {asid : Word} {step : TermAt} (hd : ((step.call asid).elim .nothing NucleusCall.doing).Allowed σ)
    (hstep : terminateSys q asid {s with sem := τ} step = some s') :
    terminateSys q asid {s with sem := σ} step =
      some {s' with sem := ((step.call asid).elim .nothing NucleusCall.doing).apply σ} := by
  cases step with
  | lock => exact passeren_sem (fun _ _ => rfl) hd hstep
  | die =>
    obtain rfl := Option.some.inj hstep
    simp only [terminateSys, Option.some.injEq]
    rw [termprocess_eq]
    unfold termprocess
    split <;> rfl
  | _ =>
    obtain rfl := Option.some.inj hstep
    rfl

theorem writeChar_sem {i : Nat} (hstep : writeChar L q i inp {s with sem := τ} = some s') :
    writeChar L q i inp {s with sem := σ} = some {s' with sem := σ} := by
  have hstate : ∀ ρ, ({s with sem := ρ} : Sys).state q = s.state q := fun _ => rfl
  simp only [writeChar, hstate] at hstep ⊢
  by_cases hi : (i : Int) < ((s.state q).regA2).toInt
  · simp only [if_pos hi] at hstep ⊢
    exact touch_sem (fun _ => rfl) hstep
  · simp only [if_neg hi] at hstep ⊢
    obtain rfl := Option.some.inj hstep
    rfl

theorem readChar_sem {asid : Word} {len : Nat} {character : Word}
    (hstep : readChar L q asid len character inp {s with sem := τ} = some s') :
    readChar L q asid len character inp {s with sem := σ} = some {s' with sem := σ} := by
  unfold readChar at hstep ⊢
  refine touch_sem (fun lo => ?_) hstep
  by_cases hend : character = 10
  · simp only [if_pos hend]
    rfl
  · simp only [if_neg hend]
    rfl

theorem readLoop_sem (q : Nat) (asid : Word) (len : Nat) (s : Sys) (σ : Sem → Int) :
    readLoop q asid len {s with sem := σ} = {readLoop q asid len s with sem := σ} := by
  have hva : bufferAddr q len {s with sem := σ} = bufferAddr q len s := rfl
  simp only [readLoop, hva]
  split <;> rfl

theorem handleException_sem (q : Nat) (s : Sys) (σ : Sem → Int) :
    handleException q {s with sem := σ} = {handleException q s with sem := σ} := by
  have hstate : ({s with sem := σ} : Sys).state q = s.state q := rfl
  simp only [handleException, hstate]
  cases generalExceptionHandler (s.vm.supportPool (s.proc q).sup) with
  | writeTerminalSys asid => by_cases hbad : badWrite (s.state q) <;> simp only [hbad, if_true, if_false] <;> rfl
  | readTerminalSys asid => by_cases hbad : badRead (s.state q) <;> simp only [hbad, if_true, if_false] <;> rfl
  | _ => rfl

/-- The semaphores do not matter to the code of a U-proc, as long as it passes them. -/
theorem proceed_sem (hd : (s.doing (.go q inp)).Allowed σ) (hstep : proceed L h q inp {s with sem := τ} = some s') :
    proceed L h q inp {s with sem := σ} = some {s' with sem := (s.doing (.go q inp)).apply σ} := by
  unfold proceed at hstep ⊢
  cases hplace : (s.proc q).place with
  | absent => simp [hplace] at hstep
  | fault k =>
    simp only [hplace] at hstep ⊢
    exact enterPager_sem hplace hd hstep
  | code k =>
    simp only [Sys.doing, SysEvent.task, Sys.call, Sys.uprocCall, hplace] at hd ⊢
    cases k with
    | user => simp [hplace] at hstep
    | writing i => exact writeChar_sem (by simpa only [hplace] using hstep)
    | reading asid len character => exact readChar_sem (by simpa only [hplace] using hstep)
  | pager place k =>
    simp only [Sys.doing, SysEvent.task, Sys.call, Sys.uprocCall, hplace] at hd hstep ⊢
    exact runPager_sem hstep
  | writeLock =>
    simp only [Sys.doing, SysEvent.task, Sys.call, Sys.uprocCall, hplace] at hd hstep ⊢
    exact passeren_sem (fun _ _ => rfl) hd hstep
  | readLock asid =>
    simp only [Sys.doing, SysEvent.task, Sys.call, Sys.uprocCall, hplace] at hd hstep ⊢
    exact passeren_sem (fun _ _ => rfl) hd hstep
  | waitShell =>
    simp only [Sys.doing, SysEvent.task, Sys.call, Sys.uprocCall, hplace] at hd hstep ⊢
    exact passeren_sem (fun _ _ => rfl) hd hstep
  | terminate step asid =>
    simp only [Sys.doing, SysEvent.task, Sys.call, Sys.uprocCall, hplace] at hd hstep ⊢
    exact terminateSys_sem hd hstep
  | executing asid =>
    have hnothing : s.doing (.go q inp) = .nothing := by
      simp only [Sys.doing, SysEvent.task, Sys.call, Sys.uprocCall, hplace]
      split
      · rfl
      · exact doing_createProcess _ _
    simp only [hplace] at hstep ⊢
    obtain rfl := Option.some.inj hstep
    rw [hnothing, executeSys_sem h q asid _ s σ, executeSys_sem h q asid _ s τ]
    rfl
  | general =>
    simp only [Sys.doing, SysEvent.task, Sys.call, Sys.uprocCall, hplace] at hd hstep ⊢
    obtain rfl := Option.some.inj hstep
    rw [handleException_sem q s σ, handleException_sem q s τ]
    rfl
  | writeIo i command =>
    simp only [Sys.doing, SysEvent.task, Sys.call, Sys.uprocCall, hplace] at hd hstep ⊢
    obtain rfl := Option.some.inj hstep
    unfold writeStatus
    split <;> rfl
  | readLoop asid len =>
    simp only [Sys.doing, SysEvent.task, Sys.call, Sys.uprocCall, hplace] at hd hstep ⊢
    obtain rfl := Option.some.inj hstep
    rw [readLoop_sem q asid len s σ, readLoop_sem q asid len s τ]
    rfl
  | readIo asid len =>
    simp only [Sys.doing, SysEvent.task, Sys.call, Sys.uprocCall, hplace] at hd hstep ⊢
    obtain rfl := Option.some.inj hstep
    unfold readStatus
    split <;> rfl
  | _ =>
    simp only [Sys.doing, SysEvent.task, Sys.call, Sys.uprocCall, hplace] at hd hstep ⊢
    obtain rfl := Option.some.inj hstep
    rfl

/-- **The semaphores can be kept elsewhere**: a step that passes all of them passes those of
`σ` if its P is allowed there, and does its P or V to `σ`. -/
theorem sysStep_sem (hd : (s.doing e).Allowed σ) (hstep : sysStep L h e {s with sem := τ} = some s') :
    sysStep L h e {s with sem := σ} = some {s' with sem := (s.doing e).apply σ} := by
  cases e with
  | access q va value inp =>
    simp only [sysStep] at hstep ⊢
    by_cases hk : (s.proc q).place = .code .user
    · simp only [if_pos hk] at hstep ⊢
      have hnothing : s.doing (.access q va value inp) = .nothing := by
        simp only [Sys.doing, SysEvent.task, Sys.call, Sys.uprocCall, hk]
        rfl
      rw [hnothing]
      exact touch_sem (fun _ => by cases value <;> rfl) hstep
    · simp [hk] at hstep
  | trap q st =>
    simp only [sysStep] at hstep ⊢
    by_cases hk : (s.proc q).place = .code .user ∧ ¬ callsNucleus st
    · simp only [if_pos hk] at hstep ⊢
      have hnothing : s.doing (.trap q st) = .nothing := by
        simp only [Sys.doing, SysEvent.task, Sys.call, Sys.uprocCall, hk.1]
        rfl
      rw [hnothing]
      obtain rfl := Option.some.inj hstep
      rfl
    · simp only [if_neg hk] at hstep
      cases hstep
  | go q inp => exact proceed_sem hd hstep
  | test =>
    simp only [sysStep] at hstep ⊢
    simp only [Sys.doing, SysEvent.task, Sys.call] at hd ⊢
    cases htest : s.test with
    | waiting =>
      simp only [htest] at hd hstep ⊢
      exact passeren_sem (s := {s with test := .waiting}) (fun _ _ => rfl) hd hstep
    | dying =>
      simp only [htest] at hstep ⊢
      obtain rfl := Option.some.inj hstep
      rfl
    | gone => simp [htest] at hstep

end Sems

/-- A step that is passed up saves its state, and its U-proc goes to the handler. -/
theorem passedUp_step (L : PoolLayout) (h : Handlers) {s : Sys} {e : SysEvent} {q : Nat} {index : Fin 2} {st : State}
    {place : Place} (hup : s.passedUp e = some (q, index, st, place)) :
    e.task = .uproc q ∧ sysStep L h e s = some ((s.setState q index st).goto q place) := by
  have hfaults : ∀ {k va inp done} {r : Nat}, s.faults r k va inp = some (q, index, st, place) →
      r = q ∧ touch r k va inp done s = some ((s.setState q index st).goto q place) := by
    intro k va inp done r hfault
    simp only [Sys.faults] at hfault
    simp only [touch]
    cases hlook : lookup (accessHi (s.proc r).asid va) s.vm with
    | miss =>
      simp only [hlook] at hfault
      split at hfault
      · rename_i hstray
        obtain ⟨herror, hindex⟩ := hstray
        simp only [Option.some.injEq, Prod.mk.injEq] at hfault
        obtain ⟨rfl, rfl, rfl, rfl⟩ := hfault
        have hrefill : uTLB_RefillHandler (s.proc r).sup (accessHi (s.proc r).asid va) inp.slot s.vm = none :=
          Option.map_eq_none_iff.mpr hindex
        refine ⟨rfl, ?_⟩
        simp only [hrefill, strayRefill, if_pos herror]
      · cases hfault
    | hit lo => simp [hlook] at hfault
    | invalid =>
      simp only [hlook, Option.some.injEq, Prod.mk.injEq] at hfault
      obtain ⟨rfl, rfl, rfl, rfl⟩ := hfault
      exact ⟨rfl, rfl⟩
  cases e with
  | test => cases hup
  | access r va value inp =>
    simp only [Sys.passedUp] at hup
    split at hup
    · rename_i hk
      obtain ⟨rfl, htouch⟩ := hfaults hup
      exact ⟨rfl, (if_pos hk).trans htouch⟩
    · cases hup
  | trap r st' =>
    simp only [Sys.passedUp] at hup
    split at hup
    · rename_i hk
      simp only [Option.some.injEq, Prod.mk.injEq] at hup
      obtain ⟨rfl, rfl, rfl, rfl⟩ := hup
      exact ⟨rfl, if_pos hk⟩
    · cases hup
  | go r inp =>
    simp only [Sys.passedUp] at hup
    split at hup
    · rename_i i hk
      split at hup
      · rename_i hi
        obtain ⟨rfl, htouch⟩ := hfaults hup
        refine ⟨rfl, ?_⟩
        simp only [sysStep, proceed, hk, writeChar, if_pos hi]
        exact htouch
      · cases hup
    · rename_i asid len character hk
      obtain ⟨rfl, htouch⟩ := hfaults hup
      refine ⟨rfl, ?_⟩
      simp only [sysStep, proceed, hk, readChar]
      exact htouch
    · cases hup

theorem passedUp_call {s : Sys} {e : SysEvent} {r : Nat × Fin 2 × State × Place} (hup : s.passedUp e = some r) :
    s.call e.task = none := by
  have hcode : ∀ {q k}, (s.proc q).place = .code k → s.uprocCall q = none := by
    intro q k hplace
    simp only [Sys.uprocCall, hplace]
  cases e with
  | test => cases hup
  | access q va value inp =>
    simp only [Sys.passedUp] at hup
    split at hup
    · rename_i hk
      exact hcode hk
    · cases hup
  | trap q st =>
    simp only [Sys.passedUp] at hup
    split at hup
    · rename_i hk
      exact hcode hk.1
    · cases hup
  | go q inp =>
    simp only [Sys.passedUp] at hup
    split at hup
    · rename_i i hk
      exact hcode hk
    · rename_i asid len character hk
      exact hcode hk
    · cases hup

/-! ### Where a call is made -/

/-- The calls of a U-proc, by its place. -/
inductive Asks (s : Sys) (q : Nat) : Place → NucleusCall → Prop where
  | fault {k} : Asks s q (.fault k) (.passeren .swapPoolSemaphore)
  | evicted {p f asid k} (i : Fin UPROCMAX) (commandValue : Word) :
      Asks s q (.pager (.evicted p f asid) k) (.doio (flashCommand i) commandValue)
  | reading {p f k} (i : Fin UPROCMAX) (commandValue : Word) :
      Asks s q (.pager (.reading p f) k) (.doio (flashCommand i) commandValue)
  | published {k} : Asks s q (.pager .published k) (.verhogen .swapPoolSemaphore)
  | failed {asid k} : Asks s q (.pager (.failed asid) k) (.verhogen .swapPoolSemaphore)
  | writeLock : Asks s q .writeLock (.passeren .terminalWriteSem)
  | writeIo {i command} : Asks s q (.writeIo i command) (.doio transmCommand command)
  | writeDone : Asks s q .writeDone (.verhogen .terminalWriteSem)
  | readLock {asid} : Asks s q (.readLock asid) (.passeren .terminalReadSem)
  | readIo {asid len} : Asks s q (.readIo asid len) (.doio recvCommand RECEIVECHAR)
  | readDone : Asks s q .readDone (.verhogen .terminalReadSem)
  | readAbort {asid} : Asks s q (.readAbort asid) (.verhogen .terminalReadSem)
  | executing {asid u supportFree} (accepted : ¬ badExecute asid (s.state q).regA1)
      (popped : allocateSupport s.supportFree = some (u, supportFree)) :
      Asks s q (.executing asid) (.createProcess (s.state q).regA1 u)
  | waitShell : Asks s q .waitShell (.passeren .shellSemaphore)
  | terminate {step asid call} (asks : TermAt.call asid step = some call) : Asks s q (.terminate step asid) call

section Asks
variable {s s' : Sys} {q : Nat} {t : Task} {call : NucleusCall}

theorem uprocCall_asks (hcall : s.uprocCall q = some call) : Asks s q (s.proc q).place call := by
  simp only [Sys.uprocCall] at hcall
  cases hplace : (s.proc q).place with
  | absent => simp [hplace] at hcall
  | code k => simp [hplace] at hcall
  | general => simp [hplace] at hcall
  | readLoop asid len => simp [hplace] at hcall
  | fault k =>
    simp only [hplace] at hcall
    split at hcall
    · cases hcall
    · obtain rfl := Option.some.inj hcall
      exact .fault
  | pager place k =>
    cases place with
    | evicted p f asid =>
      simp only [hplace, PagerAt.call] at hcall
      obtain ⟨i, -, rfl⟩ := Option.map_eq_some_iff.mp hcall
      exact .evicted i _
    | reading p f =>
      simp only [hplace, PagerAt.call] at hcall
      obtain ⟨i, -, rfl⟩ := Option.map_eq_some_iff.mp hcall
      exact .reading i _
    | published =>
      simp only [hplace, PagerAt.call, Option.some.injEq] at hcall
      exact hcall ▸ .published
    | failed asid =>
      simp only [hplace, PagerAt.call, Option.some.injEq] at hcall
      exact hcall ▸ .failed
    | _ => simp [hplace, PagerAt.call] at hcall
  | executing asid =>
    simp only [hplace] at hcall
    split at hcall
    · cases hcall
    · rename_i haccepted
      obtain ⟨⟨u, supportFree⟩, hpop, rfl⟩ := Option.map_eq_some_iff.mp hcall
      exact .executing haccepted hpop
  | terminate step asid => exact .terminate (by simpa only [hplace] using hcall)
  | _ =>
    simp only [hplace, Option.some.injEq] at hcall
    subst hcall
    constructor

theorem uprocCall_congr (hproc : s'.proc q = s.proc q) (hvm : s'.vm = s.vm) (hfree : s'.supportFree = s.supportFree) :
    s'.uprocCall q = s.uprocCall q := by
  unfold Sys.uprocCall Sys.state
  rw [hproc, hvm, hfree]

/-- Commands go to command registers. -/
theorem call_command {commandAddr : Addr} {commandValue : Word}
    (hcall : s.call t = some (.doio commandAddr commandValue)) : commandAddr ∈ commandRegs := by
  have hflash : ∀ i : Fin UPROCMAX, flashCommand i ∈ commandRegs := by
    decide +kernel
  cases t with
  | test =>
    simp only [Sys.call] at hcall
    split at hcall <;> cases hcall
  | uproc q =>
    have hasks := uprocCall_asks hcall
    generalize (s.proc q).place = place at hasks
    cases hasks with
    | evicted i => exact hflash i
    | reading i => exact hflash i
    | writeIo => decide +kernel
    | readIo => decide +kernel
    | @terminate step asid call asks => cases step <;> cases asks

end Asks

/-! ### Who is stopped in a call -/

/-- The calls that can suspend their caller. -/
def NucleusCall.stops : NucleusCall → Bool
  | .passeren _ => true
  | .doio _ _ => true
  | _ => false

/-- The task has not ended. -/
def Sys.alive (s : Sys) : Task → Prop
  | .test => s.test ≠ .gone
  | .uproc q => (s.proc q).place ≠ .absent

section Stopped
variable {L : PoolLayout} {hd : Handlers} {s s' : Sys} {e : SysEvent} {q : Nat} {call : NucleusCall}

theorem SysEvent.task_of_actor (h : e.actor = some q) : e.task = .uproc q := by
  cases e with
  | test => cases h
  | _ =>
    obtain rfl := Option.some.inj h
    rfl

theorem uprocCall_pending (hcall : s.uprocCall q = some call) (hstops : call.stops = true) :
    (s.proc q).place.pending = true := by
  have hasks := uprocCall_asks hcall
  generalize (s.proc q).place = place at hasks ⊢
  cases hasks with
  | @terminate step asid call asks =>
    cases step with
    | die =>
      obtain rfl := Option.some.inj asks
      cases hstops
    | _ => rfl
  | _ => rfl

theorem uprocCall_signals {x : Sem} (hcall : s.uprocCall q = some (.verhogen x)) :
    (s.proc q).place.pending = true ∧ (s.proc q).place ≠ .waitShell := by
  have hasks := uprocCall_asks hcall
  generalize (s.proc q).place = place at hasks ⊢
  cases hasks with
  | @terminate step asid call asks =>
    cases step with
    | die => cases asks
    | _ => exact ⟨rfl, nofun⟩
  | _ => exact ⟨rfl, nofun⟩

theorem uprocCall_dies (hcall : s.uprocCall q = some .termProcess) : ∃ asid, (s.proc q).place = .terminate .die asid := by
  have hasks := uprocCall_asks hcall
  generalize (s.proc q).place = place at hasks ⊢
  cases hasks with
  | @terminate step asid call asks =>
    cases step with
    | die => exact ⟨asid, rfl⟩
    | _ => cases asks

theorem uprocCall_waitShell (hplace : (s.proc q).place = .waitShell) :
    s.uprocCall q = some (.passeren .shellSemaphore) := by
  simp only [Sys.uprocCall, hplace]

/-- **A call stays the same while its caller is stopped**, whoever goes on. -/
theorem Orderly.call_kept (h : Orderly s) (hstep : Stepped L hd s e s') {t : Task} (hother : e.task ≠ t)
    (halive : s'.alive t) (hcall : s.call t = some call) (hstops : call.stops = true) : s'.call t = some call := by
  cases t with
  | test =>
    have htest : s'.test = s.test := by
      cases hstep with
      | flow actor flow allowed goes => exact goes.test
      | die old => exact termprocess_test _ _
      | create => rfl
      | await => exact absurd rfl hother
      | kill => exact absurd rfl hother
    simp only [Sys.call, htest] at hcall ⊢
    exact hcall
  | uproc r =>
    have hpending := uprocCall_pending hcall hstops
    have hne : ∀ {q}, e.actor = some q → r ≠ q := fun hactor he =>
      hother (he ▸ SysEvent.task_of_actor hactor)
    show s'.uprocCall r = some call
    by_cases hwait : (s.proc r).place = .waitShell
    · -- the waiting shell asks for the same whatever happens to the rest
      have hshell := h.handshake.waits r hwait
      have hstay : (s'.proc r).place = .waitShell := by
        rw [← hwait]
        cases hstep with
        | flow actor flow allowed goes => exact goes.toMoved.other (hne actor)
        | @die q inp asid old =>
          have hq : r ≠ q := hne rfl
          exact (termprocess_moved fun he => hq (hshell.trans he.symm)).other hq
        | @create q inp asid newAsid u supportFree old arg accepted popped created =>
          exact absurd (hshell.trans (h.named.accepted old accepted).1.symm) (hne rfl)
        | await old pass =>
          obtain ⟨-, rfl⟩ := passeren_eq_some pass
          rfl
        | kill old => exact absurd rfl halive
      rw [uprocCall_waitShell hstay, ← hcall]
      exact (uprocCall_waitShell hwait).symm
    · -- anybody else who is stopped is the only one with something left to do
      have hover := h.handshake.running hpending hwait
      cases hstep with
      | @flow e q d st place s' actor flow allowed goes =>
        by_cases hq : (s.proc q).place = .waitShell
        · have hr : r ≠ shellNo := fun he => hne actor (he.trans (h.handshake.waits q hq).symm)
          obtain ⟨-, rfl⟩ | ⟨a, hsignal, -⟩ | ⟨hawake, -⟩ := flow.signals
          · have hpos : 0 < s.sem .shellSemaphore := allowed
            rw [(h.handshake.waiting r hr hpending).2] at hpos
            cases hpos
          · rw [hq] at hsignal
            cases hsignal
          · exact absurd hq hawake
        · exact absurd (h.handshake.only hpending hwait flow.pending hq) (hne actor)
      | @die q inp asid old =>
        have hq : q ≠ shellNo := by
          rintro rfl
          rw [h.handshake.nobody old r] at hpending
          cases hpending
        rw [← hcall]
        refine uprocCall_congr ?_ (by simp) (by simp)
        rw [(termprocess_moved hq).proc, Function.update_of_ne (hne rfl)]
      | @create q inp asid newAsid u supportFree old arg accepted popped created =>
        exact absurd (h.handshake.only hpending hwait (by rw [old]; rfl) (by simp [old])) (hne rfl)
      | await old pass => exact absurd (.inl (passeren_eq_some pass).1) hover
      | kill old => exact absurd (.inr (by simp [old])) hover

end Stopped

/-! ### Who is alive -/

/-- The task that a task is created by. -/
def Task.parent : Task → Option Task
  | .test => none
  | .uproc 0 => some .test
  | .uproc (_ + 1) => some (.uproc shellNo)

/-- What TERMPROCESS by `root` ends. -/
def Task.Under (root t : Task) : Prop := root = t ∨ root = .test ∨ (root = .uproc shellNo ∧ t ≠ .test)

section Alive
variable {L : PoolLayout} {hd : Handlers} {s s' : Sys} {e : SysEvent} {q : Nat} {t : Task}

theorem Moved.alive {place : Place} (h : Moved q place s s') (hold : (s.proc q).place ≠ .absent) (hnew : place ≠ .absent)
    (t : Task) : s'.alive t ↔ s.alive t := by
  cases t with
  | test => simp only [Sys.alive, h.test]
  | uproc r =>
    by_cases hr : r = q
    · subst hr
      simp only [Sys.alive, h.self]
      exact iff_of_true hnew hold
    · simp only [Sys.alive, h.other hr]

theorem Flow.present {loads : Addr → Word → Prop} {asid : Word} {st st' : State} {place place' : Place} {d : Doing}
    (h : Flow loads asid st place d st' place') : place' ≠ .absent := by
  cases h <;> simp

/-- Nobody comes and nobody goes. -/
structure Peaceful (s s' : Sys) : Prop where
  alive : ∀ t, s'.alive t ↔ s.alive t
  sup : ∀ q, (s'.proc q).sup = (s.proc q).sup

/-- Unless it terminates or creates somebody, a step leaves everybody alive. -/
theorem Stepped.peaceful (hstep : Stepped L hd s e s') (hterm : s.call e.task ≠ some .termProcess)
    (hnext : s'.next = s.next) : Peaceful s s' := by
  cases hstep with
  | flow actor flow allowed goes =>
    exact ⟨goes.toMoved.alive (Place.pending_present flow.pending) flow.present, goes.toMoved.sup⟩
  | @die q inp asid old =>
    refine absurd ?_ hterm
    simp only [SysEvent.task, Sys.call, Sys.uprocCall, old, TermAt.call]
  | create =>
    have hsucc : s.next + 1 = s.next := hnext
    omega
  | await old pass =>
    obtain ⟨-, rfl⟩ := passeren_eq_some pass
    refine ⟨fun t => ?_, fun _ => rfl⟩
    cases t with
    | test => simp [Sys.alive, old]
    | uproc q => exact Iff.rfl
  | kill old =>
    refine absurd ?_ hterm
    simp only [SysEvent.task, Sys.call, old]

/-- A task that terminates takes those below it along. -/
theorem Stepped.ends (hstep : Stepped L hd s e s') (hterm : s.call e.task = some .termProcess) :
    (∀ t, s'.alive t ↔ s.alive t ∧ ¬ e.task.Under t) ∧ ∀ q, (s'.proc q).sup = (s.proc q).sup := by
  cases hstep with
  | flow actor flow allowed goes =>
    rw [SysEvent.task_of_actor actor] at hterm
    obtain ⟨asid, hdie⟩ := uprocCall_dies hterm
    rw [hdie] at flow
    cases flow
  | @die q inp asid old =>
    by_cases hq : q = shellNo
    · subst hq
      refine ⟨fun t => ?_, fun _ => rfl⟩
      cases t with
      | test => simp [Sys.alive, Task.Under, SysEvent.task]
      | uproc r => simp [Sys.alive, Task.Under, SysEvent.task, termprocess]
    · have hm := termprocess_moved (s := s) hq
      refine ⟨fun t => ?_, hm.sup⟩
      cases t with
      | test => simp [Sys.alive, Task.Under, SysEvent.task, hq]
      | uproc r =>
        by_cases hr : r = q
        · subst hr
          simp [Sys.alive, Task.Under, SysEvent.task, hm.self]
        · simp [Sys.alive, Task.Under, SysEvent.task, hm.other hr, hq, Ne.symm hr]
  | create old => simp [SysEvent.task, Sys.call, Sys.uprocCall, old] at hterm
  | await old pass => simp [SysEvent.task, Sys.call, old] at hterm
  | kill old =>
    refine ⟨fun t => ?_, fun _ => rfl⟩
    cases t <;> simp [Sys.alive, Task.Under, SysEvent.task]

theorem uprocCall_creates {asid : Word} {u : SupPtr} (hcall : s.uprocCall q = some (.createProcess asid u)) :
    ∃ old supportFree, (s.proc q).place = .executing old ∧ ¬ badExecute old (s.state q).regA1 ∧
      allocateSupport s.supportFree = some (u, supportFree) := by
  have hasks := uprocCall_asks hcall
  generalize (s.proc q).place = place at hasks ⊢
  cases hasks with
  | executing accepted popped => exact ⟨_, _, rfl, accepted, popped⟩
  | @terminate step asid call asks => cases step <;> cases asks

/-- The number of U-procs grows if CREATEPROCESS returns an id. -/
theorem creates_next {inp : Input} {asid : Word} {u : SupPtr} (hstep : sysStep L hd (.go q inp) s = some s')
    (hcall : s.uprocCall q = some (.createProcess asid u)) :
    s'.next = if inp.status = -1 then s.next else s.next + 1 := by
  obtain ⟨old, supportFree, hplace, haccepted, hpop⟩ := uprocCall_creates hcall
  simp only [sysStep, proceed, hplace, executeSys, if_neg haccepted, hpop, Option.some.injEq] at hstep
  subst hstep
  split
  · rfl
  · rfl

/-- Nobody else creates a U-proc. -/
theorem Stepped.next (hstep : Stepped L hd s e s') (hcall : ∀ asid u, s.call e.task ≠ some (.createProcess asid u)) :
    s'.next = s.next := by
  cases hstep with
  | flow actor flow allowed goes => exact goes.next
  | die old => exact termprocess_next _ s
  | @create q inp asid newAsid u supportFree old arg accepted popped created =>
    refine absurd ?_ (hcall newAsid u)
    simp only [SysEvent.task, Sys.call, Sys.uprocCall, old, ← arg, if_neg accepted, popped, Option.map_some]
  | await old pass =>
    obtain ⟨-, rfl⟩ := passeren_eq_some pass
    rfl
  | kill => rfl

/-- The shell creates the next U-proc. -/
theorem Orderly.creates (h : Orderly s) (hstep : Stepped L hd s e s') (hnext : s'.next ≠ s.next) :
    e.task = .uproc shellNo ∧ s'.next = s.next + 1 ∧ (∀ t, s'.alive t ↔ s.alive t ∨ t = .uproc s.next) ∧
      ∃ asid u, s.call e.task = some (.createProcess asid u) ∧
        ∀ q, (s'.proc q).sup = if q = s.next then u else (s.proc q).sup := by
  cases hstep with
  | flow actor flow allowed goes => exact absurd goes.next hnext
  | die old => exact absurd (termprocess_next _ s) hnext
  | @create q inp asid newAsid u supportFree old arg accepted popped created =>
    obtain rfl := (h.named.accepted old accepted).1
    have hne : shellNo ≠ s.next := ne_of_lt h.owners.next
    refine ⟨rfl, rfl, fun t => ?_, newAsid, u, ?_, fun r => ?_⟩
    · cases t with
      | test => simp [Sys.alive, Sys.goto, Sys.create, Sys.setVm]
      | uproc r =>
        by_cases hr : r = s.next
        · subst hr
          simp [Sys.alive, Sys.goto, Sys.create, Sys.setVm, hne.symm]
        · by_cases hr' : r = shellNo
          · subst hr'
            simp [Sys.alive, Sys.goto, Sys.create, Sys.setVm, old, hr]
          · simp [Sys.alive, Sys.goto, Sys.create, Sys.setVm, hr, hr']
    · simp only [SysEvent.task, Sys.call, Sys.uprocCall, old, ← arg, if_neg accepted, popped, Option.map_some]
    · by_cases hr : r = s.next
      · subst hr
        simp [Sys.goto, Sys.create, Sys.setVm, hne.symm]
      · by_cases hr' : r = shellNo
        · subst hr'
          simp [Sys.goto, Sys.create, Sys.setVm, hr]
        · simp [Sys.goto, Sys.create, Sys.setVm, hr, hr']
  | await old pass =>
    obtain ⟨-, rfl⟩ := passeren_eq_some pass
    exact absurd rfl hnext
  | kill => exact absurd rfl hnext

end Alive

/-! ### Every semaphore is 0 or 1 where it is signalled -/

/-- A P that is allowed leaves nothing negative. -/
theorem Doing.Allowed.nonneg {d : Doing} {σ : Sem → Int} (h : d.Allowed σ) {x : Sem} (hx : 0 ≤ σ x) : 0 ≤ d.apply σ x := by
  cases d with
  | nothing => exact hx
  | passeren y =>
    have hpos : 0 < σ y := h
    by_cases hxy : x = y
    · subst hxy
      simp only [Doing.apply, Function.update_self]
      omega
    · simpa only [Doing.apply, Function.update_of_ne hxy] using hx
  | verhogen y =>
    by_cases hxy : x = y
    · subst hxy
      simp only [Doing.apply, Function.update_self]
      omega
    · simpa only [Doing.apply, Function.update_of_ne hxy] using hx

/-- What holds in every run, as far as the semaphores are concerned. -/
structure Tame (s : Sys) : Prop where
  orderly : Orderly s
  guarded : ∀ x : Sem, x.mutex = true → Semaphore.Guarded (s.sem x) (s.holds x)
  master : 0 ≤ s.sem .masterSemaphore

section Tame
variable {L : PoolLayout} {hd : Handlers} {vm : Vm} {s s' : Sys} {e : SysEvent} {t : Task} {x : Sem}

theorem Tame.value (h : Tame s) (x : Sem) : 0 ≤ s.sem x := by
  have hmutex : ∀ x : Sem, x.mutex = true → 0 ≤ s.sem x := by
    intro x hx
    have := (h.guarded x hx).value
    omega
  cases x with
  | masterSemaphore => exact h.master
  | shellSemaphore =>
    obtain hzero | ⟨hone, -⟩ := h.orderly.handshake.signal
    · exact hzero.symm ▸ le_refl 0
    · exact hone.symm ▸ by decide
  | _ => exact hmutex _ rfl

/-- There is room for a signal. -/
theorem Tame.room (h : Tame s) (hcall : s.call t = some (.verhogen x)) : s.sem x ≤ 1 := by
  have hmutex : x.mutex = true → s.sem x ≤ 1 := by
    intro hx
    have := (h.guarded x hx).value
    omega
  cases x with
  | shellSemaphore =>
    obtain hzero | ⟨hone, -⟩ := h.orderly.handshake.signal
    · exact hzero.symm ▸ by decide
    · exact hone.symm ▸ le_refl 1
  | masterSemaphore =>
    cases t with
    | test => simp only [Sys.call] at hcall; split at hcall <;> cases hcall
    | uproc q =>
      obtain ⟨hpending, hawake⟩ := uprocCall_signals hcall
      have := h.orderly.handshake.running hpending hawake
      omega
  | _ => exact hmutex rfl

theorem Tame.step (h : Tame s) (hstep : sysStep L hd e s = some s') : Tame s' := by
  refine ⟨h.orderly.step hstep, fun x hx => (h.orderly.used hx (sysStep_stepped hstep)).guarded (h.guarded x hx), ?_⟩
  cases sysStep_stepped hstep with
  | flow actor flow allowed goes =>
    rw [goes.sem]
    exact allowed.nonneg h.master
  | die old => exact (termprocess_sem _ s).symm ▸ h.master
  | create => exact h.master
  | await old pass =>
    obtain ⟨hpos, rfl⟩ := passeren_eq_some pass
    exact Doing.Allowed.nonneg (d := .passeren .masterSemaphore) hpos h.master
  | kill old => exact h.master

theorem start_tame (hstart : Sys.start hd vm = some s) : Tame s := by
  obtain ⟨u, hu⟩ := start_started hstart
  exact ⟨hu.orderly, fun x hx => (start_attended hstart hx).toGuarded, hu.signals.1.symm ▸ le_refl 0⟩

end Tame

end MultiPandOS
