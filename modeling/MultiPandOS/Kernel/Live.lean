import MultiPandOS.Kernel.Halting

/-! The kernel goes on.

After a call the code goes on whatever the nucleus answers (`call_goes`), and whoever a trap
lets go is stopped in a call: so the nucleus serves every call and every interrupt, and
everybody goes on whose call has returned (`Hosted.served`). What the code of the handlers
does by itself is as in the support level alone (`run_unblocked`). -/
namespace MultiPandOS
open Runs

section Calls
variable {L : PoolLayout} {h : Handlers} {s : Sys} {q : Nat} {call : NucleusCall}

theorem uprocCall_goes (hcall : s.uprocCall q = some call) (inp : Input) :
    ∃ s', proceed L h q inp {s with sem := fun _ => 1} = some s' := by
  have hpass : ∀ x, ∃ s₁, ({s with sem := fun _ => 1} : Sys).passeren x = some s₁ := fun x => ⟨_, if_pos one_pos⟩
  simp only [Sys.uprocCall] at hcall
  simp only [proceed]
  cases hplace : (s.proc q).place with
  | absent => simp [hplace] at hcall
  | code k => simp [hplace] at hcall
  | fault k =>
    obtain ⟨s₁, hs₁⟩ := hpass .swapPoolSemaphore
    simp only [enterPager, hs₁]
    split
    · exact ⟨_, rfl⟩
    · exact ⟨_, rfl⟩
  | pager place k =>
    cases place with
    | evicted p f asid =>
      simp only [hplace, PagerAt.call] at hcall
      obtain ⟨i, hi, -⟩ := Option.map_eq_some_iff.mp hcall
      simp only [runPager, pagerStep, hi]
      exact ⟨_, rfl⟩
    | reading p f =>
      simp only [hplace, PagerAt.call] at hcall
      obtain ⟨i, hi, -⟩ := Option.map_eq_some_iff.mp hcall
      simp only [runPager, pagerStep, hi]
      exact ⟨_, rfl⟩
    | published => exact ⟨_, rfl⟩
    | failed asid => exact ⟨_, rfl⟩
    | _ => simp [hplace, PagerAt.call] at hcall
  | writeLock =>
    obtain ⟨s₁, hs₁⟩ := hpass .terminalWriteSem
    exact ⟨_, by rw [hs₁]; rfl⟩
  | readLock asid =>
    obtain ⟨s₁, hs₁⟩ := hpass .terminalReadSem
    exact ⟨_, by rw [hs₁]; rfl⟩
  | waitShell =>
    obtain ⟨s₁, hs₁⟩ := hpass .shellSemaphore
    exact ⟨_, by rw [hs₁]; rfl⟩
  | terminate step asid =>
    cases step with
    | lock =>
      obtain ⟨s₁, hs₁⟩ := hpass .swapPoolSemaphore
      exact ⟨_, by simp only [terminateSys, hs₁]; rfl⟩
    | _ => exact ⟨_, rfl⟩
  | _ => exact ⟨_, rfl⟩

/-- **The code after a call goes on**, whatever the call returns. -/
theorem call_goes {t : Task} (hcall : s.call t = some call) (inp : Input) :
    ∃ s', sysStep L h (t.goes inp) {s with sem := fun _ => 1} = some s' := by
  cases t with
  | uproc q => exact uprocCall_goes hcall inp
  | test =>
    cases htest : s.test with
    | gone =>
      simp only [Sys.call, htest] at hcall
      cases hcall
    | waiting => exact ⟨_, by simp only [Task.goes, sysStep, Sys.passeren, if_pos one_pos]; rfl⟩
    | dying => exact ⟨_, by simp only [Task.goes, sysStep]; rfl⟩

end Calls

section Traps
variable {A : Image} {k k' k₁ : Kernel} {n : Nucleus} {t : Trap} {inp : Input} {p c : PcbPtr} {e : SysEvent}
  {ps : List PcbPtr} {x : Sem} {m : Sys}

theorem goOn_goes {task : Task} {call : NucleusCall} (hcall : (k.sys A).call task = some call) (inp : Input) :
    ∃ k', k.goOn A (task.goes inp) = some k' := by
  obtain ⟨s, hs⟩ := call_goes (L := A.pool) (h := A.handlers) hcall inp
  exact ⟨_, by rw [Kernel.goOn, hs]; rfl⟩

/-- One process at most is let go, and it is stopped in a call. -/
theorem answers_one (hlength : ps.length ≤ 1) (hcalls : ∀ p ∈ ps, ∃ call, (k.sys A).call (k.task p) = some call) :
    ∃ k', exec (Kernel.goOn A) (k.answers inp ps) k = some k' := by
  cases ps with
  | nil => exact ⟨k, rfl⟩
  | cons p rest =>
    obtain rfl : rest = [] := by simpa using hlength
    obtain ⟨call, hcall⟩ := hcalls p List.mem_cons_self
    obtain ⟨k', hgo⟩ := goOn_goes hcall {inp with status := k.nucleus.returned p}
    exact ⟨k', exec_one hgo⟩

/-- An interrupt lets one process go at most, which has waited for the device. -/
theorem returning_interrupt {L : Layout} {line : Option Nat} (hk : t.kind = .interrupt line) :
    (returning L t n).length ≤ 1 ∧ ∀ p ∈ returning L t n, ∃ i < SEMDEVLEN, ∃ j : Int, j = i ∧ p ∈ waiting (L.devSem j) n := by
  cases line with
  | none => simp [returning, hk]
  | some line =>
    simp only [returning, hk]
    split
    · simp
    · rename_i hline
      split
      · rename_i status command reg served
        obtain ⟨hlo, hhi⟩ := calcIntLineNo_range (Trap.kind_interrupt hk)
        obtain ⟨i, hi, hidx⟩ := findDeviceIndex_served (by omega) hhi served
        rw [headBlocked_eq]
        refine ⟨by cases (waiting (L.devSem (findDeviceIndex reg)) n).head? <;> simp, fun p hp => ?_⟩
        refine ⟨i, by simp only [SEMDEVLEN]; omega, _, hidx, ?_⟩
        exact List.mem_of_mem_head? (Option.mem_toList.mp hp)
      · simp

/-- What the tasks are stopped in is nothing that the nucleus keeps for itself. -/
theorem kept_call (hsupport : n.support = k.nucleus.support) (task : PcbPtr → Task) (t : Task) :
    (({k with nucleus := n, task := task} : Kernel).sys A).call t = (k.sys A).call t := by
  have hsame : ({k with nucleus := n, task := task} : Kernel).sys A =
      {k.sys A with sem := (({k with nucleus := n, task := task} : Kernel).sys A).sem} := by
    simp only [Kernel.sys, hsupport]
  rw [hsame]
  exact call_withSem _ _ t

/-- A V that wakes somebody: both go on. -/
theorem Hosted.answers_two {p' : PcbPtr} (h : Hosted A k m) (hlive : p ∉ k.nucleus.pcbFreeH)
    (hp : (k.nucleus.pcb p).pSemAdd = NULL) (hlive' : p' ∉ k.nucleus.pcbFreeH) (hne : p ≠ p')
    (hcall : m.call (k.task p) = some (.verhogen x)) (hcall' : m.call (k.task p') = some (.passeren x)) (inp : Input) :
    ∃ k', exec (Kernel.goOn A) (k.answers inp [p, p']) k = some k' := by
  have hlevel : ∀ {k m t}, Hosted A k m → (k.sys A).call t = m.call t := by
    intro k m t hm
    rw [hm.same]
    exact (call_withSem _ _ _).symm
  obtain ⟨k₁, hgo⟩ := goOn_goes ((hlevel h).trans hcall) {inp with status := k.nucleus.returned p}
  have htask : ∀ (t : Task) (inp : Input), t = (t.goes inp).task := fun t inp => (goes_task t inp).symm
  rw [htask (k.task p) {inp with status := k.nucleus.returned p}] at hcall
  obtain ⟨m₁, -, hm₁, -, hkept⟩ := h.goes_on hgo hlive hp (htask _ _) hlive' rfl hne hcall hcall'
  obtain ⟨k₂, hgo'⟩ := goOn_goes ((hlevel hm₁).trans hkept) {inp with status := k.nucleus.returned p'}
  exact ⟨k₂, by simp only [Kernel.answers, List.map_cons, List.map_nil, exec, hgo, Option.bind_some, hgo']⟩

/-- No call and no interrupt changes a support structure. -/
theorem Hosted.support_kept (h : Hosted A k m) (hadm : Admissible A.layout SelfOnly k.nucleus t)
    (hpass : ∀ index st, t.kind ≠ .passUp index st) (hstep : exceptionHandler A.layout t k.nucleus = some n) :
    n.support = k.nucleus.support := by
  have hhomes : (t.kind = .service .createProcess → k.nucleus.pcbFreeH = []) → n.homes = k.nucleus.homes := fun hcreate =>
    handler_homes h.sound hadm.allowed (fun _ => SelfOnly.termOk) hcreate hpass hstep
  cases hf : k.nucleus.pcbFreeH with
  | nil => exact congrArg Prod.snd (hhomes fun _ => hf)
  | cons p rest =>
    by_cases hk : t.kind = .service .createProcess
    · rw [exceptionHandler_kind, hk] at hstep
      obtain ⟨c, hc, hserve⟩ := Option.bind_eq_some_iff.mp hstep
      obtain rfl := Option.some.inj hserve
      exact congrArg Prod.snd (createProcess_homes h.sound hc hf)
    · exact congrArg Prod.snd (hhomes fun hcreate => absurd hcreate hk)

/-- Whoever is let go is stopped in a call, and if two are, it is by a V. -/
theorem Hosted.let_go (h : Hosted A k (k.sys A)) (hasked : Asked A k t) :
    ((returning A.layout t k.nucleus).length ≤ 1 ∧
      ∀ p ∈ returning A.layout t k.nucleus, ∃ call, (k.sys A).call (k.born t p) = some call) ∨
    ∃ c p x rest, k.nucleus.currentProcess = some c ∧ (k.sys A).call (k.task c) = some (.verhogen x) ∧
      (NucleusCall.verhogen x).Made A t ∧ waiting (A.sem x) k.nucleus = p :: rest ∧
        returning A.layout t k.nucleus = [c, p] := by
  cases hasked with
  | @interrupt line kind =>
    obtain ⟨hlength, hwaited⟩ := returning_interrupt (n := k.nucleus) (L := A.layout) kind
    refine .inl ⟨hlength, fun p hp => ?_⟩
    obtain ⟨i, hi, j, hj, hp⟩ := hwaited p hp
    obtain ⟨commandAddr, commandValue, hcall⟩ := h.waits_doio hi hj hp
    rw [born_nobody (.inl (by simp [kind]))]
    exact ⟨_, hcall⟩
  | support kind caller => simp [returning, kind]
  | @call c call caller asks made =>
    -- the caller alone is let go, unless it wakes somebody
    have hcaller : returning A.layout t k.nucleus = [] ∨ returning A.layout t k.nucleus = [c] →
        (returning A.layout t k.nucleus).length ≤ 1 ∧
          ∀ p ∈ returning A.layout t k.nucleus, ∃ call, (k.sys A).call (k.born t p) = some call := by
      rintro (hret | hret)
      · simp [hret]
      · refine ⟨by simp [hret], fun p hp => ?_⟩
        obtain rfl : p = c := by simpa [hret] using hp
        rw [h.born_caller caller]
        exact ⟨_, asks⟩
    cases call with
    | createProcess asid u => exact .inl (hcaller (.inr (by simp [returning, made.1, caller])))
    | termProcess => exact .inl (hcaller (.inr (by simp [returning, made.1, caller])))
    | doio commandAddr commandValue => exact .inl (hcaller (.inl (by simp [returning, made.1])))
    | passeren x =>
      refine .inl (hcaller ?_)
      simp only [returning, made.1, caller]
      split
      · exact .inl rfl
      · exact .inr rfl
    | verhogen x =>
      have hret : returning A.layout t k.nucleus = c :: (waiting (A.sem x) k.nucleus).head?.toList := by
        simp [returning, made.1, made.2, caller, headBlocked_eq]
      cases hq : waiting (A.sem x) k.nucleus with
      | nil => exact .inl (hcaller (.inr (by rw [hret, hq]; rfl)))
      | cons p rest => exact .inr ⟨c, p, x, rest, caller, asks, made, hq, by rw [hret, hq]; rfl⟩

/-- **The nucleus serves every call and every interrupt**, and everybody goes on whose call
has returned. -/
theorem Hosted.served (h : Hosted A k (k.sys A)) (hok : TrapOk A k.nucleus t t.kind) (hasks : k.asks A t = true) (inp : Input) :
    ∃ k', MultiPandOS.kernelStep A (.trap t inp) k = some k' := by
  have hasked := asks_asked hasks
  have hadm := h.admissible hok hasked
  obtain ⟨n, as, v, hstep, -⟩ := handler_acts h.sound hadm.allowed fun _ => SelfOnly.termOk
  have hpass : ∀ index st, t.kind ≠ .passUp index st := by
    cases hasked with
    | interrupt kind => simp [kind]
    | support kind caller => simp [kind]
    | @call c call caller asks made => cases call <;> simp [made.1]
  have hsupport := h.support_kept hadm hpass hstep
  have hexec : ∃ k', exec (Kernel.goOn A)
      (({k with nucleus := n, task := k.born t} : Kernel).answers inp (returning A.layout t k.nucleus))
        {k with nucleus := n, task := k.born t} = some k' := by
    obtain ⟨hlength, hcalls⟩ | ⟨c, p, x, rest, hc, hcall, hmade, hq, hret⟩ := h.let_go hasked
    · refine answers_one hlength fun p hp => ?_
      rw [kept_call hsupport]
      exact hcalls p hp
    · obtain ⟨hhosted, hfree, hp, hc', hcp, hlive', hcall', -⟩ := h.woken hc hmade hadm hstep hq
      rw [hret, born_nobody (.inl (by simp [hmade.1]))]
      exact hhosted.answers_two (by rw [hfree]; exact (h.caller hc).1) hc' (by rw [hfree]; exact hlive') hcp hcall hcall' inp
  obtain ⟨k', hexec⟩ := hexec
  exact ⟨k', by simp only [MultiPandOS.kernelStep, if_pos hasks, hstep, Option.bind_some, hexec]⟩

/-- An exception is passed up to the handler that the support structure names. -/
theorem Hosted.raised {q : Nat} {index : Fin 2} {st : State} {place : Place} (h : Hosted A k (k.sys A))
    (hruns : k.runs e.task) (hup : (k.sys A).passedUp e = some (q, index, st, place)) (hk : t.kind = .passUp index st) :
    ∃ k', MultiPandOS.kernelStep A (.passUp t e) k = some k' := by
  obtain ⟨c, hc, htask⟩ := Option.map_eq_some_iff.mp hruns
  have hhome : (k.nucleus.pcb c).pSupportStruct = A.sup ((k.sys A).proc q).sup :=
    h.hosts.home c q (h.caller hc).1 (htask.trans (passedUp_step A.pool A.handlers hup).1)
  have hpass : ∃ n, exceptionHandler A.layout t k.nucleus = some n := by
    rw [exceptionHandler_kind, hk]
    exact ⟨_, passUpOrDie_eq hc (hhome ▸ A.sup_null _) index st⟩
  obtain ⟨n, hn⟩ := hpass
  exact ⟨_, by simp only [MultiPandOS.kernelStep, hup, if_pos (And.intro hruns hk), hn, Option.map_some]; rfl⟩

/-- What the support level can do, the kernel does. -/
theorem code_goes {s' : Sys} (hruns : k.runs e.task) (hcall : (k.sys A).call e.task = none)
    (hup : (k.sys A).passedUp e = none) (hstep : sysStep A.pool A.handlers e (k.sys A) = some s') :
    ∃ k', kernelStep A (.code e) k = some k' := by
  have hallowed : ((k.sys A).doing e).Allowed fun _ => 1 := by
    simp only [Sys.doing, hcall, Option.elim_none]
    trivial
  have hgo := sysStep_sem (τ := (k.sys A).sem) hallowed hstep
  simp only [kernelStep, hruns, hcall, hup, Option.isNone_none, and_self, if_true]
  exact ⟨_, by rw [Kernel.goOn, hgo]; rfl⟩

end Traps

/-- Nothing that can happen next stops the kernel: calls and interrupts are served, exceptions
are passed up, handlers and programs go on, and somebody runs or waits for a device until
`test` has ended. -/
structure Kernel.Live (A : Image) (k : Kernel) : Prop where
  served : ∀ t inp, TrapOk A k.nucleus t t.kind → k.asks A t = true → ∃ k', kernelStep A (.trap t inp) k = some k'
  raised : ∀ t e q index st place, k.runs e.task → (k.sys A).passedUp e = some (q, index, st, place) →
    t.kind = .passUp index st → ∃ k', kernelStep A (.passUp t e) k = some k'
  handler : ∀ q inp, k.runs (.uproc q) → (k.sys A).call (.uproc q) = none → ((k.sys A).proc q).place ≠ .code .user →
    (∀ a ∈ (k.sys A).transfer (.go q inp), a.ready) → (k.sys A).passedUp (.go q inp) = none →
      ∃ k', kernelStep A (.code (.go q inp)) k = some k'
  program : ∀ q va value inp, k.runs (.uproc q) → ((k.sys A).proc q).place = .code .user →
    (k.sys A).passedUp (.access q va value inp) = none → ∃ k', kernelStep A (.code (.access q va value inp)) k = some k'
  somebody : k.nucleus.currentProcess = none → (k.sys A).test = .gone ∨ ∃ p commandAddr commandValue,
    p ∈ waiting (A.layout.deviceSem commandAddr) k.nucleus ∧
      (k.sys A).call (k.task p) = some (.doio commandAddr commandValue)

theorem Hosted.somebody {A : Image} {k : Kernel} (h : Hosted A k (k.sys A)) (hrests : k.Rests A)
    (hnone : k.nucleus.currentProcess = none) : (k.sys A).test = .gone ∨ ∃ p commandAddr commandValue,
      p ∈ waiting (A.layout.deviceSem commandAddr) k.nucleus ∧
        (k.sys A).call (k.task p) = some (.doio commandAddr commandValue) := by
  have hrun : k.nucleus.control.running = false := by
    rw [h.sound.control, hnone]
    rfl
  cases hcontrol : k.nucleus.control with
  | halt => exact .inl (hrests.halt.mp hcontrol)
  | wait => exact .inr (hrests.wait hcontrol)
  | panic => exact absurd hcontrol hrests.panic
  | _ =>
    rw [hcontrol] at hrun
    cases hrun

/-- **The kernel never gets stuck** in a run whose steps are steady and in which devices
interrupt only while somebody waits for them, before the counter of the replacements can
overflow. -/
theorem run_goes_on {A : Image} {b : Boot} {vm : Vm} {t : Trap} {k₀ k : Kernel} {is : List KernelEvent}
    (hload : A.Loaded b) (hstart : Kernel.start A b vm t = some k₀) (hrun : Run (kernelStep A) (KernelExpects A) k₀ is k)
    (hsteady : Follows (sysStep A.pool A.handlers) Steady (trace (kernelStep A) (Kernel.did A) k₀ is) (k₀.sys A))
    (hfew : (trace (kernelStep A) (Kernel.did A) k₀ is).length < 2 ^ 31) : k.Live A := by
  obtain ⟨hh, h⟩ := tracked hload hstart hrun
  have hsys := steady_run hload hstart hrun hsteady
  have hlevel := (start_hosted hload hstart).1
  refine ⟨fun t inp hok hasks => hh.served hok hasks inp, fun t e q index st place => hh.raised, ?_, ?_, ?_⟩
  · intro q inp hruns hcall huser hready hup
    have hpresent : ((k.sys A).proc q).place ≠ .absent := by
      obtain ⟨c, hc, htask⟩ := Option.map_eq_some_iff.mp hruns
      exact (hh.hosts.live (.uproc q)).mpr ⟨c, (hh.caller hc).1, htask⟩
    obtain hgoes | ⟨hwait, -⟩ := run_handlers hlevel hsys hfew hpresent huser
    · obtain ⟨s', hstep⟩ := hgoes inp hready
      exact code_goes hruns hcall hup hstep
    · have hcall : (k.sys A).uprocCall q = none := hcall
      rw [uprocCall_waitShell hwait] at hcall
      cases hcall
  · intro q va value inp hruns huser hup
    have hcall : (k.sys A).uprocCall q = none := by
      simp only [Sys.uprocCall, huser]
    obtain ⟨s', hstep⟩ := touch_total ..
    exact code_goes hruns hcall hup (by simp only [sysStep, if_pos huser]; exact hstep)
  · exact hh.somebody (hh.rests (hh.accounted h) (run_somebody hlevel hsys))

open KernelSample in
theorem run_goes_on_sample :
    ∃ k, exec (kernelStep image) faulting kernel = some k ∧ k.nucleus.currentProcess = none ∧ k.Live image := by
  have hfollows : Follows (kernelStep image) (KernelExpects image) faulting kernel := by
    decide +kernel
  obtain ⟨k, hexec, hrun⟩ := hfollows.run
  have hsteady : Follows (sysStep image.pool image.handlers) Steady
      (trace (kernelStep image) (Kernel.did image) kernel faulting) (kernel.sys image) := by
    decide +kernel
  have hfew : (trace (kernelStep image) (Kernel.did image) kernel faulting).length < 2 ^ 31 := by
    decide +kernel
  have hnobody : (exec (kernelStep image) faulting kernel).all (fun k => k.nucleus.currentProcess = none) = true := by
    decide +kernel
  rw [hexec] at hnobody
  exact ⟨k, hexec, by simpa using hnobody, run_goes_on boot_loaded kernel_eq hrun hsteady hfew⟩

end MultiPandOS
