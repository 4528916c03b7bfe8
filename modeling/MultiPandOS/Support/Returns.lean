import MultiPandOS.Nucleus.Switches
import MultiPandOS.Support.Handshake

/-! Where a system call returns to.

`Returns st st'` says that a system call made with the state `st` returns with `st'`: the
nucleus answers at once, or it suspends the caller and the scheduler loads it again, or
it passes the call up and the support level serves it. The nucleus advances the saved
`pc_epc` once whatever it does with the call, and the support level advances it once
more: a call returns to the instruction after its ECALL exactly when the nucleus serves
it (`returns_iff`). -/
namespace MultiPandOS
open Runs Forest

theorem State.advance_pcEpc (st : State) : st.advance.pcEpc = st.pcEpc + 4 := rfl

/-! ### Calls that return at once -/

/-- Whoever goes on after the trap goes on after its ECALL. -/
def Trap.next (e : Trap) (s : Nucleus) : Prop := ∀ st, s.control = .ldst st → st.pcEpc = e.state.pcEpc + 4

section Immediate
variable {L : Layout} {e : Trap} {c : PcbPtr} {s s' : Nucleus} {sv : Service}

theorem next_ldst {st : State} (h : st.pcEpc = e.state.pcEpc + 4) : e.next (s.ldst st) := by
  intro st' hst
  rw [← Control.ldst.inj hst]
  exact h

/-- The scheduler loads somebody who is ready. -/
theorem scheduler_other (hnone : s.currentProcess = none) (hc : c ∉ s.readyQueue) :
    (scheduler s).currentProcess ≠ some c := by
  cases hr : s.readyQueue with
  | nil =>
    rw [scheduler_nil hr]
    simp [hnone]
  | cons p rest =>
    rw [scheduler_cons hr]
    intro he
    apply hc
    rw [hr, ← Option.some.inj he]
    exact List.mem_cons_self

/-- TERMPROCESS returns unless it has killed its caller. -/
theorem termProcess_next (hs : Sound s) (hc : s.currentProcess = some c) (h : termProcess L e c s = some s')
    (hback : s'.currentProcess = some c) : e.next s' := by
  obtain ⟨target, htarget, hterm⟩ := Option.bind_eq_some_iff.mp h
  cases target with
  | none =>
    have hne : none ≠ s.currentProcess := by simp [hc]
    simp only [terminate, Option.map_some, if_neg hne] at hterm
    obtain rfl := Option.some.inj hterm
    exact next_ldst rfl
  | some r =>
    obtain ⟨ks, s₁, hkill, hkilled, -⟩ := killProcess_killed L hs.asl hs.ok (termTarget_live hs hc htarget)
    have hcur : s₁.currentProcess = some c := (congrArg View.current hkilled.view).trans hc
    have hready : s₁.readyQueue = s.readyQueue.filter (· ∉ ks) := congrArg View.ready hkilled.view
    simp only [terminate, hkill, Option.map_some, hcur, Option.some.injEq] at hterm
    subst hterm
    by_cases hr : r = c
    · rw [if_pos hr] at hback
      refine absurd hback (scheduler_other rfl fun hmem => ?_)
      have hmem : c ∈ s₁.readyQueue := hmem
      rw [hready] at hmem
      exact (hs.current c hc).unready (List.mem_of_mem_filter hmem)
    · rw [if_neg hr]
      exact next_ldst rfl

/-- A service that neither suspends nor kills its caller. -/
theorem serve_next (hs : Sound s) (hc : s.currentProcess = some c) (hk : e.kind = .service sv)
    (hsus : e.suspends s = false) (h : serve L e c s sv = some s') (hback : s'.currentProcess = some c) :
    e.next s' := by
  simp only [Trap.suspends, hk] at hsus
  cases sv with
  | createProcess =>
    obtain rfl := Option.some.inj h
    unfold createProcess
    split
    · exact next_ldst rfl
    · exact next_ldst rfl
  | termProcess => exact termProcess_next hs hc h hback
  | passeren =>
    obtain rfl := Option.some.inj h
    have hpos : ¬ (s.mem e.state.regA1).toInt ≤ 0 := by simpa using hsus
    simp only [passeren, if_neg hpos]
    exact next_ldst rfl
  | verhogen =>
    obtain rfl := Option.some.inj h
    exact next_ldst rfl
  | doio => cases hsus
  | getTime =>
    simp only [serve, getTime] at h
    split at h
    · cases h
    · cases h
    · obtain rfl := Option.some.inj h
      exact next_ldst rfl
  | clockWait => cases hsus
  | getSupportPtr =>
    obtain rfl := Option.some.inj h
    exact next_ldst rfl
  | getProcessId =>
    obtain rfl := Option.some.inj h
    exact next_ldst rfl
  | yield => cases hsus

end Immediate

/-! ### Calls that suspend their caller -/

section Suspended
variable {L : Layout} {e : Trap} {s s' : Nucleus} {p : PcbPtr} {st : State}

theorem Trap.kind_service {sv : Service} (h : e.kind = .service sv) : Service.ofWord e.state.regA0 = some sv := by
  simp only [Trap.kind] at h
  split_ifs at h
  split at h
  · rename_i hsv
    rw [hsv]
    exact congrArg some (Kind.service.inj h)
  · cases h

/-- Whoever is suspended in a system call has called the nucleus. -/
theorem suspended_service (h : .suspended p st true ∈ switches L s e s') : (Service.ofWord st.regA0).isSome = true := by
  have hmem : .suspended p st true ∈ suspensions s e := by
    simp only [switches, List.mem_append] at h
    obtain (((h | h) | h) | h) | h := h
    · simp [creations] at h
    · exact h
    · unfold deviceWakes at h
      repeat' split at h
      all_goals simp at h
    · simp [kills] at h
    · unfold dispatches at h
      repeat' split at h
      all_goals simp at h
  have hcall : e.state = st ∧ e.isCall = true := by
    unfold suspensions at hmem
    split at hmem
    · obtain ⟨c, -, hc⟩ := List.mem_map.mp hmem
      exact (Switch.suspended.inj hc).2
    · cases hmem
  obtain ⟨rfl, hcall⟩ := hcall
  cases hk : e.kind with
  | service sv =>
    rw [Trap.kind_service hk]
    rfl
  | interrupt line => simp [Trap.isCall, hk] at hcall
  | passUp index st => simp [Trap.isCall, hk] at hcall
  | ignored => simp [Trap.isCall, hk] at hcall

theorem continued_pcEpc (st : State) (status : Option Word) :
    (wokenWith (continued st true) status).pcEpc = st.pcEpc + 4 := by
  cases status with
  | none => rfl
  | some w => rfl

end Suspended

/-! ### Calls that are passed up -/

/-- The trap is a system call. -/
def Trap.isEcall (e : Trap) : Prop :=
  e.state.cause &&& CAUSE_INTERRUPT_BIT = 0 ∧
    ((e.state.cause &&& CAUSE_EXCCODE_MASK).toNat = 8 ∨ (e.state.cause &&& CAUSE_EXCCODE_MASK).toNat = 11)

instance (e : Trap) : Decidable e.isEcall := inferInstanceAs (Decidable (_ ∧ _))

/-- The services of the support level that return. -/
def supportCall (st : State) : Prop :=
  st.regA0.toInt = WRITETERMINAL ∨ st.regA0.toInt = READTERMINAL ∨ st.regA0.toInt = EXECUTE

instance (st : State) : Decidable (supportCall st) := inferInstanceAs (Decidable (_ ∨ _ ∨ _))

section PassUp
variable {L : Layout} {e : Trap} {n n' : Nucleus} {c : PcbPtr}

theorem supportCall_positive {st : State} (h : supportCall st) : 0 < st.regA0.toInt := by
  unfold supportCall WRITETERMINAL READTERMINAL EXECUTE at h
  omega

theorem supportCall_service {st : State} (h : supportCall st) : Service.ofWord st.regA0 = none := by
  unfold Service.ofWord
  obtain h | h | h := h
  · rw [h]
    rfl
  · rw [h]
    rfl
  · rw [h]
    rfl

/-- The nucleus passes the call up, past its ECALL. -/
theorem Trap.kind_supportCall (he : e.isEcall) (hcall : supportCall e.state) :
    e.kind = .passUp GENERALEXCEPT e.state.advance := by
  obtain ⟨hint, hcode⟩ := he
  have hpositive := supportCall_positive hcall
  have hpriv : ¬ unprivileged e.state := fun hu => by
    have := hu.1
    omega
  have htlb : ¬ ((e.state.cause &&& CAUSE_EXCCODE_MASK).toNat ≥ 24 ∧
      (e.state.cause &&& CAUSE_EXCCODE_MASK).toNat ≤ 28) := by omega
  simp only [Trap.kind, hint, htlb, hcode, hpriv, supportCall_service hcall, ne_eq, not_true, if_true, if_false]

theorem passedUp_state (hc : n.currentProcess = some c) (hsup : (n.pcb c).pSupportStruct ≠ NULL)
    (he : e.isEcall) (hcall : supportCall e.state) (hstep : exceptionHandler L e n = some n') :
    (n'.support (n.pcb c).pSupportStruct).supExceptState GENERALEXCEPT = e.state.advance := by
  rw [exceptionHandler_kind, Trap.kind_supportCall he hcall] at hstep
  simp only [passUpOrDie_eq hc hsup, Option.some.injEq] at hstep
  subst hstep
  simp

end PassUp

/-- The access to the buffer of a system call. -/
def Code.calling : Code → Bool
  | .user => false
  | _ => true

/-- The U-proc is in the middle of a system call. -/
def Place.calling : Place → Bool
  | .absent => false
  | .code k => k.calling
  | .fault k => k.calling
  | .pager _ k => k.calling
  | .terminate _ _ => false
  | _ => true

theorem Place.calling_owns {place : Place} (h : place.calling = true) : place.owns = true := by
  cases place with
  | absent => cases h
  | terminate => cases h
  | _ => rfl

/-- The refill handler has trapped at the buffer of a system call. -/
def Trapped (place : Place) (st : State) : Prop := place = .general ∧ st.cause = LOADFAULT

/-- Where a U-proc is that made a system call with the saved `pc_epc` `pc`: in the middle
of it, past it, or about to be terminated. -/
def Called (pc : Word) (place : Place) (st : State) : Prop :=
  (place.calling = true ∧ st.pcEpc = pc) ∨ (place = .code .user ∧ st.pcEpc = pc + 4) ∨
    place.working = false ∨ Trapped place st

/-- Each way out of a system call advances the saved `pc_epc`. -/
theorem Flow.called {loads : Addr → Word → Prop} {asid : Word} {st st' : State} {place place' : Place} {d : Doing}
    (h : Flow loads asid st place d st' place') (hcalling : place.calling = true) : Called st.pcEpc place' st' := by
  cases h with
  | stay => exact .inl ⟨hcalling, rfl⟩
  | fault => exact .inl ⟨hcalling, rfl⟩
  | enter => exact .inl ⟨hcalling, rfl⟩
  | work => exact .inl ⟨hcalling, rfl⟩
  | resume => exact .inl ⟨hcalling, rfl⟩
  | trap => cases hcalling
  | writeLeave => exact .inr (.inl ⟨rfl, rfl⟩)
  | readLeave => exact .inr (.inl ⟨rfl, rfl⟩)
  | executeFailed => exact .inr (.inl ⟨rfl, rfl⟩)
  | wake => exact .inr (.inl ⟨rfl, rfl⟩)
  | modified => exact .inr (.inr (.inl rfl))
  | fail => exact .inr (.inr (.inl rfl))
  | refuse => exact .inr (.inr (.inl rfl))
  | abort => exact .inr (.inr (.inl rfl))
  | executeRefused => exact .inr (.inr (.inl rfl))
  | stray cause => exact .inr (.inr (.inr ⟨rfl, cause⟩))
  | lock => cases hcalling
  | free => cases hcalling
  | unlock => cases hcalling
  | dealloc => cases hcalling
  | signal => cases hcalling
  | _ => exact .inl ⟨rfl, rfl⟩

/-- A trap is no system call, so its U-proc is terminated. -/
theorem Flow.trapped {loads : Addr → Word → Prop} {asid : Word} {st st' : State} {place place' : Place} {d : Doing}
    (h : Flow loads asid st place d st' place') (htrapped : Trapped place st) : place'.working = false := by
  obtain ⟨hplace, hcause⟩ := htrapped
  cases h with
  | refuse => rfl
  | write ha => exact absurd ha (not_asksFor hcause _)
  | read ha => exact absurd ha (not_asksFor hcause _)
  | execute ha => exact absurd ha (not_asksFor hcause _)
  | _ => cases hplace

section Serving
variable {L : PoolLayout} {hd : Handlers} {q : Nat} {s s' : Sys} {e : SysEvent}

theorem Stepped.next_le (hstep : Stepped L hd s e s') : s.next ≤ s'.next := by
  cases hstep with
  | flow actor flow allowed goes => exact Nat.le_of_eq goes.next.symm
  | die old => rw [termprocess_next]
  | create old arg accepted popped created => exact Nat.le_succ _
  | await old pass =>
    obtain ⟨-, rfl⟩ := passeren_eq_some pass
    exact Nat.le_refl _
  | kill old => exact Nat.le_refl _

/-- What the others do leaves a U-proc where it is, or terminates it. -/
theorem Orderly.place_kept (h : Orderly s) (hstep : Stepped L hd s e s') (hq : q < s.next) (hactor : e.actor ≠ some q) :
    (s'.proc q).place = (s.proc q).place ∨ (s'.proc q).place = .absent := by
  cases hstep with
  | @flow e r d st place s' actor flow allowed goes =>
    have hqr : q ≠ r := fun he => hactor (he ▸ actor)
    exact .inl (goes.toMoved.other hqr)
  | @die r inp asid old =>
    have hqr : q ≠ r := fun he => hactor (congrArg some he.symm)
    by_cases hr : r = shellNo
    · subst hr
      exact .inr (termprocess_shell s q)
    · exact .inl ((termprocess_moved hr).other hqr)
  | @create r inp asid newAsid u supportFree old arg accepted popped created =>
    have hqr : q ≠ r := fun he => hactor (congrArg some he.symm)
    have hc := h.owners.created old (s.vm.initSupport hd u newAsid) u supportFree newAsid
    exact .inl (congrArg Proc.place (hc.other q hqr (Nat.ne_of_lt hq)))
  | await old pass =>
    obtain ⟨-, rfl⟩ := passeren_eq_some pass
    exact .inl rfl
  | kill old => exact .inr rfl

/-- A U-proc that is about to be terminated never runs again. -/
theorem Orderly.ended_kept (h : Orderly s) (hstep : Stepped L hd s e s') (hq : q < s.next)
    (hended : (s.proc q).place.working = false) : (s'.proc q).place.working = false := by
  by_cases hactor : e.actor = some q
  · cases hstep with
    | @flow e r d st place s' actor flow allowed goes =>
      obtain rfl : r = q := Option.some.inj (actor.symm.trans hactor)
      rw [goes.toMoved.self]
      refine Bool.eq_false_iff.mpr fun hw => ?_
      rw [flow.working hw] at hended
      cases hended
    | @die r inp asid old =>
      obtain rfl : r = q := Option.some.inj hactor
      rw [termprocess_self]
      rfl
    | @create r inp asid newAsid u supportFree old arg accepted popped created =>
      obtain rfl : r = q := Option.some.inj hactor
      rw [old] at hended
      cases hended
    | await => cases hactor
    | kill => cases hactor
  · obtain hkept | habsent := h.place_kept hstep hq hactor
    · rw [hkept]
      exact hended
    · rw [habsent]
      rfl

theorem Orderly.trapped_kept (h : Orderly s) (hstep : Stepped L hd s e s') (hq : q < s.next)
    (htrapped : Trapped (s.proc q).place (s.state q)) :
    (s'.proc q).place.working = false ∨ Trapped (s'.proc q).place (s'.state q) := by
  by_cases hactor : e.actor = some q
  · cases hstep with
    | @flow e r d st place s' actor flow allowed goes =>
      obtain rfl : r = q := Option.some.inj (actor.symm.trans hactor)
      rw [goes.toMoved.self]
      exact .inl (flow.trapped htrapped)
    | @die r inp asid old =>
      obtain rfl : r = q := Option.some.inj hactor
      exact absurd (htrapped.1.symm.trans old) (by simp)
    | @create r inp asid newAsid u supportFree old arg accepted popped created =>
      obtain rfl : r = q := Option.some.inj hactor
      exact absurd (htrapped.1.symm.trans old) (by simp)
    | await => cases hactor
    | kill => cases hactor
  · rw [h.state_kept hstep (by rw [htrapped.1]; rfl) hactor]
    obtain hkept | habsent := h.place_kept hstep hq hactor
    · rw [hkept]
      exact .inr htrapped
    · rw [habsent]
      exact .inl rfl

/-- One step of anybody while `q` is in the middle of a system call. -/
theorem Orderly.called (h : Orderly s) (hstep : Stepped L hd s e s') (hq : q < s.next)
    (hcalling : (s.proc q).place.calling = true) : Called (s.state q).pcEpc (s'.proc q).place (s'.state q) := by
  by_cases hactor : e.actor = some q
  · cases hstep with
    | @flow e r d st place s' actor flow allowed goes =>
      obtain rfl : r = q := Option.some.inj (actor.symm.trans hactor)
      rw [goes.toMoved.self, goes.state]
      exact flow.called hcalling
    | @die r inp asid old =>
      obtain rfl : r = q := Option.some.inj hactor
      rw [old] at hcalling
      cases hcalling
    | @create r inp asid newAsid u supportFree old arg accepted popped created =>
      obtain rfl : r = q := Option.some.inj hactor
      have hc := h.owners.created old (s.vm.initSupport hd u newAsid) u supportFree newAsid
      rw [hc.shell]
      refine .inl ⟨rfl, ?_⟩
      show ((s.vm.initSupport hd u newAsid).general _).pcEpc = (s.vm.general (s.proc r).sup).pcEpc
      rw [hc.sup (Nat.ne_of_lt hq), Vm.general_initSupport]
    | await => cases hactor
    | kill => cases hactor
  · rw [h.state_kept hstep (Place.calling_owns hcalling) hactor]
    obtain hkept | habsent := h.place_kept hstep hq hactor
    · rw [hkept]
      exact .inl ⟨hcalling, rfl⟩
    · rw [habsent]
      exact .inr (.inr (.inl rfl))

/-- Until the U-proc goes on in its own code. -/
theorem run_called {pc : Word} {es : List SysEvent} (h : Orderly s) (hq : q < s.next)
    (hcalled : Called pc (s.proc q).place (s.state q))
    (hrun : Run (sysStep L hd) (fun s _ => (s.proc q).place ≠ .code .user) s es s') :
    Called pc (s'.proc q).place (s'.state q) := by
  have hall : Orderly s' ∧ q < s'.next ∧ Called pc (s'.proc q).place (s'.state q) := by
    refine hrun.invariant (fun s => Orderly s ∧ q < s.next ∧ Called pc (s.proc q).place (s.state q))
      ⟨h, hq, hcalled⟩ fun s e s' hs haway hstep => ?_
    obtain ⟨ho, hq, hcalled⟩ := hs
    have hstepped := sysStep_stepped hstep
    refine ⟨ho.step hstep, Nat.lt_of_lt_of_le hq hstepped.next_le, ?_⟩
    obtain ⟨hcalling, rfl⟩ | ⟨huser, -⟩ | hended | htrapped := hcalled
    · exact ho.called hstepped hq hcalling
    · exact absurd huser haway
    · exact .inr (.inr (.inl (ho.ended_kept hstepped hq hended)))
    · exact .inr (.inr (ho.trapped_kept hstepped hq htrapped))
  exact hall.2.2

/-- The exception of a U-proc that goes on in its own code afterwards. -/
theorem served_pcEpc {st : State} {es : List SysEvent} (h : Orderly s)
    (htrap : sysStep L hd (.trap q st) s = some s')
    {s'' : Sys} (hrun : Run (sysStep L hd) (fun s _ => (s.proc q).place ≠ .code .user) s' es s'')
    (hback : (s''.proc q).place = .code .user) : (s''.state q).pcEpc = st.pcEpc + 4 := by
  have ho : Orderly s' := h.step htrap
  simp only [sysStep] at htrap
  split at htrap
  · rename_i huser
    have hpresent : (s.proc q).place ≠ .absent := by simp [huser.1]
    have hnext : q < s.next := h.owners.lt_next hpresent
    have hgoes : Goes q .nothing st .general s s' := by
      rw [← Option.some.inj htrap]
      exact ((Goes.refl q s).setState st).goto .general
    have hcalled : Called st.pcEpc (s'.proc q).place (s'.state q) := by
      rw [hgoes.toMoved.self, hgoes.state]
      exact .inl ⟨rfl, rfl⟩
    obtain ⟨hcalling, -⟩ | ⟨-, hpc⟩ | hended | ⟨htrapped, -⟩ := run_called ho (hgoes.next.symm ▸ hnext) hcalled hrun
    · rw [hback] at hcalling
      cases hcalling
    · exact hpc
    · rw [hback] at hended
      cases hended
    · rw [hback] at htrapped
      cases htrapped
  · cases htrap

end Serving

/-! ### Every system call -/

/-- A system call that is made with the state `st` returns with `st'`. -/
inductive Returns : State → State → Prop where
  /-- The nucleus answers, and the caller is still running. -/
  | answered {L b es s e sv c s' st'}
      (run : Run (exceptionHandler L) (Allowed L TermOk) (main L b) es s)
      (service : e.kind = .service sv) (caller : s.currentProcess = some c)
      (step : exceptionHandler L e s = some s') (awake : e.suspends s = false)
      (back : s'.currentProcess = some c) (resumed : s'.control = .ldst st') : Returns e.state st'
  /-- The nucleus suspends the caller, which the scheduler loads next with `st'`. -/
  | suspended {L b es s p st st' before between after}
      (run : Run (exceptionHandler L) (Allowed L TermOk) (main L b) es s)
      (seen : trace (exceptionHandler L) (switches L) (main L b) es =
        before ++ .suspended p st true :: between ++ .dispatched p st' :: after)
      (between : ∀ x ∈ between, ¬ x.about p) : Returns st st'
  /-- The nucleus passes the call up with the state it has saved, and the support level
  serves it until the U-proc goes on in its own code. -/
  | passedUp {N b es n e c n' L hd vm s₀ es₁ s₁ q s₂ es₂ s₃}
      (nucleus : Run (exceptionHandler N) (fun _ _ => True) (main N b) es n)
      (ecall : e.isEcall) (call : supportCall e.state) (caller : n.currentProcess = some c)
      (support : (n.pcb c).pSupportStruct ≠ NULL) (step : exceptionHandler N e n = some n')
      (start : Sys.start hd vm = some s₀) (before : Run (sysStep L hd) (fun _ _ => True) s₀ es₁ s₁)
      (exception : sysStep L hd
        (.trap q ((n'.support (n.pcb c).pSupportStruct).supExceptState GENERALEXCEPT)) s₁ = some s₂)
      (serving : Run (sysStep L hd) (fun s _ => (s.proc q).place ≠ .code .user) s₂ es₂ s₃)
      (back : (s₃.proc q).place = .code .user) : Returns e.state (s₃.state q)

/-- **Where a system call returns to**: after its ECALL exactly if the nucleus serves it. -/
theorem returns_iff {st st' : State} (h : Returns st st') :
    st'.pcEpc = st.pcEpc + 4 ↔ (Service.ofWord st.regA0).isSome = true := by
  cases h with
  | @answered L b es s e sv c s' st' run service caller step awake back resumed =>
    have hserve : serve L e c s sv = some s' := by
      rw [exceptionHandler_kind, service] at step
      simpa only [caller, Option.bind_some] using step
    have hnext := serve_next (run_sound (fun _ _ _ => id) run) caller service awake hserve back
    have hservice := Trap.kind_service service
    exact ⟨fun _ => by rw [hservice]; rfl, fun _ => hnext st' resumed⟩
  | @suspended L b es s p st st' before between after run seen hbetween =>
    obtain ⟨hlegal, -⟩ := run_holds (fun _ _ _ => id) p run
    rw [seen] at hlegal
    obtain ⟨status, -, rfl⟩ := hlegal.dispatched hbetween
    have hmem : .suspended p st true ∈ trace (exceptionHandler L) (switches L) (main L b) es := by
      rw [seen]
      simp
    obtain ⟨s₁, e, s₂, -, -, hseen⟩ := run.mem_trace hmem
    exact ⟨fun _ => suspended_service hseen, fun _ => continued_pcEpc st status⟩
  | @passedUp N b es n e c n' L hd vm s₀ es₁ s₁ q s₂ es₂ s₃ nucleus ecall call caller support step start before
      exception serving back =>
    have hserved := served_pcEpc (run_orderly start before) exception serving back
    rw [passedUp_state caller support ecall call step] at hserved
    have htwice : (s₃.state q).pcEpc ≠ e.state.pcEpc + 4 := by
      rw [hserved, State.advance_pcEpc]
      bv_omega
    have hnone : (Service.ofWord e.state.regA0).isSome ≠ true := by
      rw [supportCall_service call]
      simp
    exact ⟨fun hpc => absurd hpc htwice, fun hsome => absurd hsome hnone⟩

open Sample in
theorem returns_iff_sample : Returns (ecall (-5) printer 2).state printed ∧
    (printed.pcEpc = (ecall (-5) printer 2).state.pcEpc + 4 ↔
      (Service.ofWord (ecall (-5) printer 2).state.regA0).isSome = true) := by
  have hfollows : Follows (exceptionHandler layout) (Allowed layout SelfOnly) events (main layout boot) := by
    decide +kernel
  obtain ⟨s, -, hrun⟩ := hfollows.run
  have htrace : seen = seen.take 5 ++ .suspended firstProcess (ecall (-5) printer 2).state true ::
      [.woken firstProcess 0] ++ .dispatched firstProcess printed :: seen.drop 8 := by decide +kernel
  have hreturns : Returns (ecall (-5) printer 2).state printed :=
    .suspended (hrun.mono fun _ _ h => h.mono fun _ => SelfOnly.termOk) htrace (by simp [Switch.about])
  exact ⟨hreturns, returns_iff hreturns⟩

namespace Sample

/-- CREATEPROCESS of a process with the support structure at 0x20050000. -/
def launch : Trap :=
  let e := ecall (-1) 0 0
  {e with state := {e.state with gpr := fun r => if r.val = 13 then 0x20050000 else e.state.gpr r}}

/-- WRITETERMINAL of no characters, from user mode. -/
def write : Trap :=
  let e := ecall 4 KUSEG 0
  {e with state := {e.state with cause := 8, status := 0, pcEpc := 0x80000100}}

/-- The new process is loaded. -/
def launched : List Trap := [launch, ecall (-10) 0 0]

end Sample

open Sample in
/-- WRITETERMINAL skips the instruction after its ECALL. -/
theorem write_returns_late :
    ∃ st', Returns write.state st' ∧ st'.pcEpc = write.state.pcEpc + 8 ∧ st'.pcEpc ≠ write.state.pcEpc + 4 := by
  have hnucleus : Follows (exceptionHandler layout) (fun _ _ => True) launched (main layout boot) := by
    decide +kernel
  obtain ⟨n, hexec, hrun⟩ := hnucleus.run
  have hpassed : (exec (exceptionHandler layout) launched (main layout boot)).all (fun n =>
      n.currentProcess = some child ∧ (n.pcb child).pSupportStruct ≠ NULL ∧
        (exceptionHandler layout write n).isSome = true) = true := by
    decide +kernel
  rw [hexec] at hpassed
  obtain ⟨hc, hsup, hsome⟩ := of_decide_eq_true hpassed
  obtain ⟨n', hstep⟩ := Option.isSome_iff_exists.mp hsome
  have hecall : write.isEcall := by decide
  have hcall : supportCall write.state := by decide
  have hsaved := passedUp_state hc hsup hecall hcall hstep
  have hserved : (sysStep SysSample.layout SysSample.handlers (.trap shellNo write.state.advance) SysSample.start).any
      (fun s => Follows (sysStep SysSample.layout SysSample.handlers) (fun s _ => (s.proc shellNo).place ≠ .code .user)
          (SysSample.goes shellNo 4 0) s ∧
        (exec (sysStep SysSample.layout SysSample.handlers) (SysSample.goes shellNo 4 0) s).all (fun s =>
          (s.proc shellNo).place = .code .user)) = true := by
    decide +kernel
  obtain ⟨s₂, htrap, hserving⟩ := (Option.any_eq_true ..).mp hserved
  obtain ⟨hfollows, hback⟩ := of_decide_eq_true hserving
  obtain ⟨s₃, hexec₃, hrun₃⟩ := hfollows.run
  rw [hexec₃] at hback
  have hback := of_decide_eq_true hback
  have hpc := served_pcEpc (run_orderly (L := SysSample.layout) SysSample.start_eq .nil) htrap hrun₃ hback
  rw [← hsaved] at htrap
  refine ⟨s₃.state shellNo, .passedUp hrun hecall hcall hc hsup hstep SysSample.start_eq .nil htrap hrun₃ hback, ?_⟩
  rw [hpc]
  exact ⟨rfl, by decide⟩

end MultiPandOS
