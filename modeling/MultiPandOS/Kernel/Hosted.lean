import MultiPandOS.Kernel.Hosting
import MultiPandOS.Library.Simulation

/-! The support level on the nucleus refines the support level.

What the machine of `phase3` leaves open, who goes on and when a P lets its caller pass, is
what the nucleus decides. Each event of the kernel is a list of steps of the support level,
`Kernel.did`: none where a call suspends its caller, two where a V wakes somebody. -/
namespace MultiPandOS
open Forest Runs

/-! ### Code -/

theorem Image.store_sup (A : Image) (supportPool : SupPtr → Support) (support : Addr → Support) (u : SupPtr) :
    A.store supportPool support (A.sup u) = supportPool u := by
  have hfind : (List.finRange UPROCMAX).find? (fun u' => A.sup u' == A.sup u) = some u := by
    cases h : (List.finRange UPROCMAX).find? (fun u' => A.sup u' == A.sup u) with
    | none => exact absurd (beq_self_eq_true (A.sup u)) (List.find?_eq_none.mp h u (List.mem_finRange u))
    | some u' =>
      have hu := List.find?_some h
      exact congrArg some (A.sup_inj (by simpa using hu))
  simp only [Image.store, hfind]

section Code
variable {A : Image} {k k' : Kernel} {e : SysEvent} {es : List SysEvent}

/-- Code writes to support structures only. -/
theorem goOn_keeps (h : k.goOn A e = some k') :
    k'.task = k.task ∧ ∃ support, k'.nucleus = {k.nucleus with support := support} := by
  obtain ⟨s, -, rfl⟩ := Option.map_eq_some_iff.mp h
  exact ⟨rfl, _, rfl⟩

theorem exec_goOn_keeps (h : exec (Kernel.goOn A) es k = some k') :
    k'.task = k.task ∧ ∃ support, k'.nucleus = {k.nucleus with support := support} := by
  induction es generalizing k with
  | nil =>
    obtain rfl := Option.some.inj h
    exact ⟨rfl, _, rfl⟩
  | cons e es ih =>
    obtain ⟨k₁, hgo, hrest⟩ := Option.bind_eq_some_iff.mp h
    obtain ⟨htask, support, hn⟩ := goOn_keeps hgo
    obtain ⟨htask', support', hn'⟩ := ih hrest
    exact ⟨htask'.trans htask, support', by rw [hn', hn]⟩

theorem goOn_sysStep {σ : Sem → Int} (h : k.goOn A e = some k') (hd : ((k.sys A).doing e).Allowed σ) :
    sysStep A.pool A.handlers e {k.sys A with sem := σ} =
      some {k'.sys A with sem := ((k.sys A).doing e).apply σ} := by
  obtain ⟨s, hstep, rfl⟩ := Option.map_eq_some_iff.mp h
  rw [sysStep_sem hd hstep]
  have hpool : (fun u => A.store s.vm.supportPool k.nucleus.support (A.sup u)) = s.vm.supportPool :=
    funext fun u => A.store_sup _ _ u
  simp only [Kernel.sys, hpool]

end Code

/-! ### The relation -/

theorem call_withSem (s : Sys) (σ : Sem → Int) (t : Task) : ({s with sem := σ} : Sys).call t = s.call t := by
  cases t <;> rfl

/-- The kernel hosts the support level `m`, whose semaphores may be ahead or behind. -/
structure Hosted (A : Image) (k : Kernel) (m : Sys) : Prop where
  sound : Sound k.nucleus
  same : m = {k.sys A with sem := m.sem}
  tame : Tame m
  hosts : Hosts A k.nucleus.view (fun p => (k.nucleus.pcb p).pSupportStruct) k.task m

theorem Sound.withSupport {n : Nucleus} (h : Sound n) (support : Addr → Support) : Sound {n with support := support} :=
  ⟨h.asl.congr rfl rfl rfl, h.ok, h.current, h.control⟩

section Steps
variable {A : Image} {k k' : Kernel} {m : Sys} {e : SysEvent} {p c : PcbPtr} {t : Trap} {n : Nucleus} {inp : Input}

/-- A step of the support level by a process, as far as the nucleus is not concerned. -/
theorem Hosted.step (hsame : m = {k.sys A with sem := m.sem}) (htame : Tame m) (hgo : k.goOn A e = some k')
    (hallowed : (m.doing e).Allowed m.sem) :
    ∃ m', sysStep A.pool A.handlers e m = some m' ∧ Tame m' ∧ m' = {k'.sys A with sem := m'.sem} ∧
      m'.sem = (m.doing e).apply m.sem := by
  have hdoing : (k.sys A).doing e = m.doing e := by
    rw [hsame]
    simp only [Sys.doing, call_withSem]
  have hstep := goOn_sysStep hgo (hdoing.symm ▸ hallowed)
  rw [← hsame, hdoing] at hstep
  exact ⟨_, hstep, htame.step hstep, rfl, rfl⟩

/-- A process that is in no queue goes on, and nobody comes or goes. -/
theorem Hosted.goes (h : Hosted A k m) (hgo : k.goOn A e = some k') (hlive : p ∉ k.nucleus.pcbFreeH)
    (hp : (k.nucleus.pcb p).pSemAdd = NULL) (htask : k.task p = e.task) (hallowed : (m.doing e).Allowed m.sem)
    (hterm : m.call e.task ≠ some .termProcess)
    (hnext : ∀ m', sysStep A.pool A.handlers e m = some m' → m'.next = m.next) :
    ∃ m', sysStep A.pool A.handlers e m = some m' ∧ Hosted A k' m' ∧ m'.sem = (m.doing e).apply m.sem := by
  obtain ⟨m', hstep, htame, hsame, hsem⟩ := Hosted.step h.same h.tame hgo hallowed
  obtain ⟨htask', support, hn⟩ := goOn_keeps hgo
  have hstepped := sysStep_stepped hstep
  have hhosts := h.hosts.goes h.tame.orderly h.sound.ok hlive hp htask hstepped (hstepped.peaceful hterm (hnext m' hstep))
  refine ⟨m', hstep, ⟨hn ▸ h.sound.withSupport support, hsame, htame, ?_⟩, hsem⟩
  rw [htask', hn]
  exact hhosts

/-- The nucleus moves somebody. -/
theorem Hosted.moves (h : Hosted A k m) (hs : Sound n) {as : List Act} {v : View}
    (hacts : Acts A.layout.clock as k.nucleus.view v) (hrest : ∀ a ∈ as, a.rests = true) (hleaves : Leaves v n)
    (hhomes : n.homes = k.nucleus.homes)
    (hblock : ∀ key d p, .block key d ∈ as → k.nucleus.currentProcess = some p → m.awaits A (k.task p) key) :
    Hosted A {k with nucleus := n} m := by
  have hsupport : n.support = k.nucleus.support := congrArg Prod.snd hhomes
  have hstruct : (fun p => (n.pcb p).pSupportStruct) = fun p => (k.nucleus.pcb p).pSupportStruct := congrArg Prod.fst hhomes
  refine ⟨hs, ?_, h.tame, ?_⟩
  · rw [h.same]
    simp only [Kernel.sys, hsupport]
  · exact (h.hosts.rests (hacts.rests hrest) hstruct hblock).leaves hleaves

/-- The values of the semaphores of the support level. -/
theorem sem_kept {as : List Act} {v : View} {task : PcbPtr → Task} (hacts : Acts A.layout.clock as k.nucleus.view v)
    (hleaves : Leaves v n) (hw : ∀ a ∈ as, ∀ x, a.writes ≠ some (A.sem x)) :
    (({k with nucleus := n, task := task} : Kernel).sys A).sem = (k.sys A).sem := by
  funext x
  have hmem : n.mem (A.sem x) = k.nucleus.mem (A.sem x) :=
    (congrFun hleaves.frame.2.2 (A.sem x)).trans (hacts.mem_frame fun a ha => hw a ha x)
  simp only [Kernel.sys, hmem]

end Steps

/-! ### Traps -/

/-- What a trap of the kernel is. -/
inductive Asked (A : Image) (k : Kernel) (t : Trap) : Prop where
  | interrupt {line} (kind : t.kind = .interrupt line) : Asked A k t
  | support {c} (kind : t.kind = .service .getSupportPtr) (caller : k.nucleus.currentProcess = some c) : Asked A k t
  | call {c call} (caller : k.nucleus.currentProcess = some c) (asks : (k.sys A).call (k.task c) = some call)
      (made : call.Made A t) : Asked A k t

section Traps
variable {A : Image} {k k' : Kernel} {m : Sys} {e : SysEvent} {p c : PcbPtr} {t : Trap} {n : Nucleus} {inp : Input}
  {call : NucleusCall} {x : Sem}

theorem asks_asked (h : k.asks A t = true) : Asked A k t := by
  unfold Kernel.asks at h
  split at h
  · rename_i hk
    exact .interrupt hk
  · rename_i c hk hc
    exact .support hk hc
  · rename_i sv c hne hk hc
    cases hcall : (k.sys A).call (k.task c) with
    | none =>
      rw [hcall] at h
      cases h
    | some call =>
      rw [hcall] at h
      exact .call hc hcall (of_decide_eq_true h)
  · cases h

/-- A trap of the kernel is one that the nucleus is meant for. -/
theorem Hosted.admissible (h : Hosted A k (k.sys A)) (hok : TrapOk A k.nucleus t t.kind) (hasked : Asked A k t) :
    Admissible A.layout SelfOnly k.nucleus t := by
  have hrun : ∀ {c}, k.nucleus.currentProcess = some c → k.nucleus.control.running = true := by
    intro c hc
    rw [h.sound.control, hc]
    rfl
  unfold Admissible
  cases hasked with
  | interrupt kind =>
    rw [kind] at hok ⊢
    exact hok
  | support kind caller =>
    rw [kind]
    exact ⟨hrun caller, trivial, nofun⟩
  | @call c call caller asks made =>
    cases call with
    | createProcess asid u =>
      rw [made.1]
      exact ⟨hrun caller, trivial, nofun⟩
    | termProcess =>
      rw [made.1]
      exact ⟨hrun caller, trivial, fun _ _ _ => made.2⟩
    | passeren x =>
      rw [made.1]
      refine ⟨hrun caller, ?_, nofun⟩
      show t.state.regA1 ≠ NULL ∧ ¬ A.layout.isDevSem t.state.regA1
      rw [made.2]
      exact ⟨A.sem_null x, A.sem_device x⟩
    | verhogen x =>
      rw [made.1]
      refine ⟨hrun caller, ?_, nofun⟩
      show t.state.regA1 ≠ NULL ∧ ¬ A.layout.isDevSem t.state.regA1
      rw [made.2]
      exact ⟨A.sem_null x, A.sem_device x⟩
    | doio commandAddr commandValue =>
      rw [made.1]
      refine ⟨hrun caller, ?_, nofun⟩
      show t.state.regA1 ∈ commandRegs
      rw [made.2.1]
      exact call_command asks

theorem goes_task (t : Task) (inp : Input) : (t.goes inp).task = t := by
  cases t <;> rfl

theorem doing_eq (hcall : m.call e.task = some call) : m.doing e = call.doing := by
  simp only [Sys.doing, hcall, Option.elim_some]

theorem exec_one (hgo : k.goOn A e = some k') : exec (Kernel.goOn A) [e] k = some k' := by
  simp only [exec, hgo, Option.bind_some]

/-- Calls have returned, or none has: what the events come to, and what is left to show. -/
def Carried (A : Image) (k : Kernel) (es : List SysEvent) (k' : Kernel) : Prop :=
  exec (sysStep A.pool A.handlers) es (k.sys A) = some (k'.sys A) ∧ Hosted A k' (k'.sys A)

/-- The semaphores of `m` are those in memory. -/
theorem Hosted.level (h : Hosted A k m) (hsem : m.sem = (k.sys A).sem) : m = k.sys A := by
  rw [h.same, hsem]

theorem goOn_sem (h : k.goOn A e = some k') : (k'.sys A).sem = (k.sys A).sem := by
  obtain ⟨-, support, hn⟩ := goOn_keeps h
  simp only [Kernel.sys, hn]

/-- A call that nobody returns from. -/
theorem Hosted.carried_nil (h : Hosted A {k with nucleus := n} (k.sys A))
    (hsem : (({k with nucleus := n} : Kernel).sys A).sem = (k.sys A).sem)
    (hexec : exec (Kernel.goOn A) [] {k with nucleus := n} = some k') : Carried A k [] k' := by
  obtain rfl := Option.some.inj hexec
  have hlevel := h.level hsem.symm
  exact ⟨congrArg some hlevel, hlevel ▸ h⟩

/-- A call that one process returns from, `k₁` being what the nucleus makes of the kernel. -/
theorem carried_step {k₁ : Kernel} (htame : Tame (k.sys A)) (hs : Sound k₁.nucleus)
    (hsame : k.sys A = {k₁.sys A with sem := (k.sys A).sem}) (hexec : exec (Kernel.goOn A) [e] k₁ = some k')
    (hallowed : ((k.sys A).doing e).Allowed (k.sys A).sem)
    (hhosts : ∀ m', sysStep A.pool A.handlers e (k.sys A) = some m' →
      Hosts A k₁.nucleus.view (fun p => (k₁.nucleus.pcb p).pSupportStruct) k₁.task m')
    (hsem : (k₁.sys A).sem = ((k.sys A).doing e).apply (k.sys A).sem) : Carried A k [e] k' := by
  obtain ⟨k₂, hgo, hnil⟩ := Option.bind_eq_some_iff.mp hexec
  obtain rfl := Option.some.inj hnil
  obtain ⟨m', hstep, htame', hsame', hsem'⟩ := Hosted.step hsame htame hgo hallowed
  obtain ⟨htask, support, hn⟩ := goOn_keeps hgo
  have hhosted : Hosted A k₂ m' := by
    refine ⟨hn ▸ hs.withSupport support, hsame', htame', ?_⟩
    rw [htask, hn]
    exact hhosts m' hstep
  have hlevel : m' = k₂.sys A := hhosted.level (by rw [hsem', goOn_sem hgo, hsem])
  refine ⟨?_, hlevel ▸ hhosted⟩
  simp only [exec, hstep, Option.bind_some, hlevel]

/-- Nobody comes or goes by that. -/
theorem Hosted.carried_one (h : Hosted A {k with nucleus := n} (k.sys A))
    (hexec : exec (Kernel.goOn A) [e] {k with nucleus := n} = some k') (hlive : p ∉ n.pcbFreeH)
    (hp : (n.pcb p).pSemAdd = NULL) (htask : k.task p = e.task) (hcall : (k.sys A).call e.task = some call)
    (hallowed : call.doing.Allowed (k.sys A).sem) (hterm : call ≠ .termProcess)
    (hnext : ∀ m', sysStep A.pool A.handlers e (k.sys A) = some m' → m'.next = (k.sys A).next)
    (hsem : (({k with nucleus := n} : Kernel).sys A).sem = call.doing.apply (k.sys A).sem) : Carried A k [e] k' := by
  have hdoing := doing_eq hcall
  refine carried_step h.tame h.sound h.same hexec (hdoing.symm ▸ hallowed) (fun m' hstep => ?_) (hdoing.symm ▸ hsem)
  have hstepped := sysStep_stepped hstep
  refine h.hosts.goes h.tame.orderly h.sound.ok hlive hp htask hstepped (hstepped.peaceful (fun he => hterm ?_) (hnext m' hstep))
  exact Option.some.inj (hcall.symm.trans he)

/-- A call other than CREATEPROCESS makes no U-proc. -/
theorem next_kept (hcall : m.call e.task = some call) (hnot : ∀ asid u, call ≠ .createProcess asid u) (m' : Sys)
    (hstep : sysStep A.pool A.handlers e m = some m') : m'.next = m.next := by
  refine (sysStep_stepped hstep).next fun asid u he => hnot asid u ?_
  exact Option.some.inj (hcall.symm.trans he)

/-- The caller of a V has gone on: the one that it wakes still asks for the same. -/
theorem Hosted.goes_on {t' : Task} {p' : PcbPtr} {k₁ : Kernel} (h : Hosted A k m) (hgo : k.goOn A e = some k₁)
    (hlive : p ∉ k.nucleus.pcbFreeH) (hp : (k.nucleus.pcb p).pSemAdd = NULL) (htask : k.task p = e.task)
    (hlive' : p' ∉ k.nucleus.pcbFreeH) (htask' : k.task p' = t') (hne : p ≠ p')
    (hcall : m.call e.task = some (.verhogen x)) (hcall' : m.call t' = some (.passeren x)) :
    ∃ m₁, sysStep A.pool A.handlers e m = some m₁ ∧ Hosted A k₁ m₁ ∧ m₁.sem = (Doing.verhogen x).apply m.sem ∧
      m₁.call t' = some (.passeren x) := by
  have hdoing : m.doing e = .verhogen x := doing_eq hcall
  obtain ⟨m₁, hstep, hm₁, hsem₁⟩ := h.goes hgo hlive hp htask (hdoing.symm ▸ trivial)
    (by rw [hcall]; exact nofun) (next_kept hcall nofun)
  refine ⟨m₁, hstep, hm₁, hdoing ▸ hsem₁, ?_⟩
  have hother : e.task ≠ t' := by
    intro he
    exact hne (h.hosts.inj p p' hlive hlive' (htask.trans (he.trans htask'.symm)))
  obtain ⟨htask₁, support, hn₁⟩ := goOn_keeps hgo
  have halive : m₁.alive t' := by
    refine (hm₁.hosts.live _).mpr ⟨p', ?_, ?_⟩
    · rw [hn₁]
      exact hlive'
    · rw [htask₁]
      exact htask'
  exact h.tame.orderly.call_kept (sysStep_stepped hstep) hother halive hcall' rfl

/-- A V that wakes somebody: its caller goes on, and the P returns. -/
theorem Hosted.carried_two {e' : SysEvent} {p' : PcbPtr} (h : Hosted A {k with nucleus := n} (k.sys A))
    (hexec : exec (Kernel.goOn A) [e, e'] {k with nucleus := n} = some k') (hlive : p ∉ n.pcbFreeH)
    (hp : (n.pcb p).pSemAdd = NULL) (htask : k.task p = e.task) (hlive' : p' ∉ n.pcbFreeH)
    (hp' : (n.pcb p').pSemAdd = NULL) (htask' : k.task p' = e'.task) (hne : p ≠ p')
    (hcall : (k.sys A).call e.task = some (.verhogen x)) (hcall' : (k.sys A).call e'.task = some (.passeren x))
    (hsem : (({k with nucleus := n} : Kernel).sys A).sem = (k.sys A).sem) : Carried A k [e, e'] k' := by
  obtain ⟨k₁, hgo, hrest⟩ := Option.bind_eq_some_iff.mp hexec
  obtain ⟨k₂, hgo', hnil⟩ := Option.bind_eq_some_iff.mp hrest
  obtain rfl := Option.some.inj hnil
  obtain ⟨m₁, hstep, hm₁, hsem₁, hkept⟩ := h.goes_on hgo hlive hp htask hlive' htask' hne hcall hcall'
  obtain ⟨htask₁, support, hn₁⟩ := goOn_keeps hgo
  have hdoing' : m₁.doing e' = .passeren x := doing_eq hkept
  have hpos : 0 ≤ (k.sys A).sem x := h.tame.value x
  have hallowed : (m₁.doing e').Allowed m₁.sem := by
    rw [hdoing', hsem₁]
    show 0 < Function.update (k.sys A).sem x ((k.sys A).sem x + 1) x
    rw [Function.update_self]
    omega
  obtain ⟨m₂, hstep', hm₂, hsem₂⟩ := hm₁.goes hgo' (by rw [hn₁]; exact hlive') (by rw [hn₁]; exact hp')
    (by rw [htask₁]; exact htask') hallowed (by rw [hkept]; exact nofun) (next_kept hkept nofun)
  have hback : m₂.sem = (k.sys A).sem := by
    rw [hsem₂, hdoing', hsem₁]
    simp only [Doing.apply, Function.update_self, Function.update_idem, add_sub_cancel_right, Function.update_eq_self]
  have hlevel : m₂ = k₂.sys A := hm₂.level (by rw [hback, goOn_sem hgo', goOn_sem hgo, hsem])
  refine ⟨?_, hlevel ▸ hm₂⟩
  simp only [exec, hstep, hstep', Option.bind_some, hlevel]

theorem Leaves.semAdd {v : View} (h : Leaves v n) : n.view.semAdd = v.semAdd := by
  cases h with
  | resume _ hview => rw [hview]
  | dispatch _ hview => rw [hview, View.dispatch_eq]

/-- The acts of a trap, and what they leave. -/
theorem Hosted.acts (h : Hosted A k (k.sys A)) (hadm : Admissible A.layout SelfOnly k.nucleus t)
    (hstep : exceptionHandler A.layout t k.nucleus = some n) :
    ∃ as v, Acted A.layout t k.nucleus as ∧ Acts A.layout.clock as k.nucleus.view v ∧ Leaves v n ∧ Sound n := by
  obtain ⟨n', as, v, hres, hasl, hacted, hacts, hleaves⟩ := handler_acts h.sound hadm.allowed fun _ => SelfOnly.termOk
  obtain rfl := Option.some.inj (hres.symm.trans hstep)
  obtain ⟨hok, hcur⟩ := hacts.ok h.sound.ok h.sound.current
  exact ⟨as, v, hacted, hacts, hleaves, hleaves.sound hok hcur hasl⟩

/-- No semaphore of the support level is one of a device. -/
theorem sem_ne_devSem (A : Image) (x : Sem) {i : Nat} (hi : i < SEMDEVLEN) {j : Int} (hj : j = i) :
    some (A.layout.devSem j) ≠ some (A.sem x) := devSem_ne (A.sem_device x) hi hj

/-- Whoever waits for a device has asked for it. -/
theorem Hosted.waits_doio (h : Hosted A k m) {i : Nat} (hi : i < SEMDEVLEN) {j : Int} (hj : j = i)
    (hp : p ∈ waiting (A.layout.devSem j) k.nucleus) :
    ∃ commandAddr commandValue, m.call (k.task p) = some (.doio commandAddr commandValue) := by
  obtain ⟨call, hcall, hkey⟩ := h.hosts.waits _ p hp
  cases call with
  | doio commandAddr commandValue => exact ⟨_, _, hcall⟩
  | passeren x => exact absurd hkey.symm (sem_ne_devSem A x hi hj)
  | _ => cases hkey

theorem Hosted.interrupted (h : Hosted A k (k.sys A)) {line : Option Nat} (hk : t.kind = .interrupt line)
    (hadm : Admissible A.layout SelfOnly k.nucleus t) (hstep : exceptionHandler A.layout t k.nucleus = some n)
    (hexec : exec (Kernel.goOn A) (({k with nucleus := n} : Kernel).answers inp (returning A.layout t k.nucleus))
      {k with nucleus := n} = some k') :
    Carried A k (({k with nucleus := n} : Kernel).answers inp (returning A.layout t k.nucleus)) k' := by
  obtain ⟨as, v, hacted, hacts, hleaves, hs⟩ := h.acts hadm hstep
  have hhomes := handler_homes h.sound hadm.allowed (fun _ => SelfOnly.termOk) (by simp [hk]) (by simp [hk]) hstep
  -- nobody is blocked by an interrupt
  have hmoved : (∀ a ∈ as, a.rests = true) → (∀ a ∈ as, ∀ key d, a ≠ .block key d) →
      Hosted A {k with nucleus := n} (k.sys A) := fun hrest hnot =>
    h.moves hs hacts hrest hleaves hhomes fun key d p hmem => absurd rfl (hnot _ hmem key d)
  cases hacted with
  | preempt kind =>
    have hnil : returning A.layout t k.nucleus = [] := by simp [returning, kind]
    rw [hnil] at hexec ⊢
    exact (hmoved (by simp [Act.rests]) (by simp)).carried_nil (sem_kept hacts hleaves (by simp [Act.writes])) hexec
  | tick kind =>
    have hnil : returning A.layout t k.nucleus = [] := by simp [returning, kind]
    rw [hnil] at hexec ⊢
    have hall : ∀ a ∈ List.replicate (waiting A.layout.clock k.nucleus).length (Act.wake A.layout.clock 1),
        a = .wake A.layout.clock 1 := fun _ => List.eq_of_mem_replicate
    refine (hmoved (fun a ha => ?_) fun a ha => ?_).carried_nil (sem_kept hacts hleaves fun a ha => ?_) hexec
    · rw [hall a ha]
      rfl
    · rw [hall a ha]
      simp
    · rw [hall a ha]
      simp [Act.writes]
  | @complete line status command reg kind plt clock served =>
    obtain ⟨hlo, hhi⟩ := calcIntLineNo_range (Trap.kind_interrupt kind)
    obtain ⟨i, hi, hidx⟩ := findDeviceIndex_served (by omega) hhi served
    have hi : i < SEMDEVLEN := by
      simp only [SEMDEVLEN]
      omega
    have hret : returning A.layout t k.nucleus = (waiting (A.layout.devSem (findDeviceIndex reg)) k.nucleus).head?.toList := by
      simp [returning, kind, plt, clock, served, headBlocked_eq]
    have hhosted := hmoved (forall_either rfl rfl) (forall_either (by simp) (by simp))
    have hsem : (({k with nucleus := n} : Kernel).sys A).sem = (k.sys A).sem :=
      sem_kept hacts hleaves (forall_either (fun x => sem_ne_devSem A x hi hidx) (by simp [Act.writes]))
    rw [hret] at hexec ⊢
    cases hq : waiting (A.layout.devSem (findDeviceIndex reg)) k.nucleus with
    | nil =>
      rw [hq] at hexec
      exact hhosted.carried_nil hsem hexec
    | cons p rest =>
      rw [hq] at hexec
      have hp : p ∈ waiting (A.layout.devSem (findDeviceIndex reg)) k.nucleus := by simp [hq]
      obtain ⟨commandAddr, commandValue, hcall⟩ := h.waits_doio hi hidx hp
      rw [if_neg (by simp [hq])] at hacts
      have hwoken : n.pcbFreeH = k.nucleus.pcbFreeH ∧ (n.pcb p).pSemAdd = NULL := by
        have hsemAdd := congrFun hleaves.semAdd p
        have hfree := hleaves.frame.1
        cases hacts.single with
        | @wake _ _ p' rest' _ _ hq' =>
          obtain ⟨rfl, -⟩ := List.cons.inj (hq.symm.trans hq')
          exact ⟨hfree, hsemAdd.trans (Function.update_self _ _ _)⟩
      have hlive : p ∉ n.pcbFreeH := by
        rw [hwoken.1]
        exact h.sound.ok.waiting_live hp
      have htask : k.task p = ((k.task p).goes {inp with status := n.returned p}).task := (goes_task _ _).symm
      rw [htask] at hcall
      refine hhosted.carried_one hexec hlive hwoken.2 htask hcall trivial (by simp) (fun m' hm' => ?_) hsem
      exact (sysStep_stepped hm').next fun asid u he => by simp [hcall] at he
  | create kind | terminate kind | die kind | passeren kind | verhogen kind | waitDevSem kind | yield kind =>
    simp [hk] at kind
  | none kind => simp [hk, Kind.quiet] at kind

theorem sem_write {w : Word} {z : Int} (hmem : n.mem = Function.update k.nucleus.mem (A.sem x) w) (hw : w.toInt = z) :
    (({k with nucleus := n} : Kernel).sys A).sem = Function.update (k.sys A).sem x z := by
  funext y
  simp only [Kernel.sys, hmem]
  by_cases hy : y = x
  · subst hy
    rw [Function.update_self, Function.update_self, hw]
  · rw [Function.update_of_ne (A.sem_inj.ne hy), Function.update_of_ne hy]

/-- Whoever runs is in no queue. -/
theorem Hosted.caller (h : Hosted A k m) (hc : k.nucleus.currentProcess = some c) :
    c ∉ k.nucleus.pcbFreeH ∧ (k.nucleus.pcb c).pSemAdd = NULL :=
  ⟨(h.sound.current c hc).live, (h.sound.current c hc).unblocked⟩

theorem Hosted.passeren (h : Hosted A k (k.sys A)) (hc : k.nucleus.currentProcess = some c)
    (hcall : (k.sys A).call (k.task c) = some (.passeren x)) (hmade : (NucleusCall.passeren x).Made A t)
    (hadm : Admissible A.layout SelfOnly k.nucleus t) (hstep : exceptionHandler A.layout t k.nucleus = some n)
    (hexec : exec (Kernel.goOn A) (({k with nucleus := n} : Kernel).answers inp (returning A.layout t k.nucleus))
      {k with nucleus := n} = some k') :
    Carried A k (({k with nucleus := n} : Kernel).answers inp (returning A.layout t k.nucleus)) k' := by
  obtain ⟨hk, ha1⟩ := hmade
  obtain ⟨as, v, hacted, hacts, hleaves, hs⟩ := h.acts hadm hstep
  have hhomes := handler_homes h.sound hadm.allowed (fun _ => SelfOnly.termOk) (by simp [hk]) (by simp [hk]) hstep
  obtain ⟨hlive, hloose⟩ := h.caller hc
  cases hacted with
  | passeren kind =>
    rw [ha1] at hacts
    have hret : returning A.layout t k.nucleus = if (k.nucleus.mem (A.sem x)).toInt ≤ 0 then [] else [c] := by
      simp [returning, hk, hc, ha1]
    rw [hret] at hexec ⊢
    by_cases hv : (k.nucleus.mem (A.sem x)).toInt ≤ 0
    · rw [if_pos hv] at hacts hexec ⊢
      refine Hosted.carried_nil (h.moves hs hacts (by simp [Act.rests]) hleaves hhomes fun key d p hmem hp => ?_)
        (sem_kept hacts hleaves (by simp [Act.writes])) hexec
      obtain ⟨rfl, rfl⟩ := Act.block.inj (List.mem_singleton.mp hmem)
      obtain rfl := Option.some.inj (hc.symm.trans hp)
      exact ⟨_, hcall, rfl⟩
    · rw [if_neg hv] at hacts hexec ⊢
      have hhosted := h.moves hs hacts (by simp [Act.rests]) hleaves hhomes (by simp)
      have hpos : 0 < (k.nucleus.mem (A.sem x)).toInt := not_le.mp hv
      have htask : k.task c = ((k.task c).goes {inp with status := n.returned c}).task := (goes_task _ _).symm
      have hleft : n.pcbFreeH = k.nucleus.pcbFreeH ∧ n.view.semAdd = k.nucleus.view.semAdd ∧
          n.mem = Function.update k.nucleus.mem (A.sem x) (k.nucleus.mem (A.sem x) - 1) := by
        obtain ⟨hfree, -, hmem⟩ := hleaves.frame
        have hsemAdd := hleaves.semAdd
        cases hacts.single with
        | take => exact ⟨hfree, hsemAdd, hmem⟩
      rw [htask] at hcall
      exact hhosted.carried_one hexec (by rw [hleft.1]; exact hlive) ((congrFun hleft.2.1 c).trans hloose) htask hcall
        hpos nofun (next_kept hcall nofun) (sem_write hleft.2.2 (toInt_sub_one hpos))
  | none kind => simp [hk, Kind.quiet] at kind
  | waitDevSem kind => simp [hk] at kind
  | _ kind => simp [hk] at kind

/-- Whom a V wakes: it asks for what is signalled. -/
theorem Hosted.woken (h : Hosted A k (k.sys A)) (hc : k.nucleus.currentProcess = some c)
    (hmade : (NucleusCall.verhogen x).Made A t) (hadm : Admissible A.layout SelfOnly k.nucleus t)
    (hstep : exceptionHandler A.layout t k.nucleus = some n) {rest : List PcbPtr}
    (hq : waiting (A.sem x) k.nucleus = p :: rest) :
    Hosted A {k with nucleus := n} (k.sys A) ∧ n.pcbFreeH = k.nucleus.pcbFreeH ∧ (n.pcb p).pSemAdd = NULL ∧
      (n.pcb c).pSemAdd = NULL ∧ c ≠ p ∧ p ∉ k.nucleus.pcbFreeH ∧ (k.sys A).call (k.task p) = some (.passeren x) ∧
        (({k with nucleus := n} : Kernel).sys A).sem = (k.sys A).sem := by
  obtain ⟨hk, ha1⟩ := hmade
  obtain ⟨as, v, hacted, hacts, hleaves, hs⟩ := h.acts hadm hstep
  have hhomes := handler_homes h.sound hadm.allowed (fun _ => SelfOnly.termOk) (by simp [hk]) (by simp [hk]) hstep
  have hp : p ∈ waiting (A.sem x) k.nucleus := by simp [hq]
  have hcp : c ≠ p := by
    rintro rfl
    exact h.sound.ok.not_waiting (h.caller hc).2 _ hp
  cases hacted with
  | verhogen kind =>
    rw [ha1, if_neg (by simp [hq])] at hacts
    have hsemAdd := hleaves.semAdd
    obtain ⟨hfree, -, hmem⟩ := hleaves.frame
    have hleft : n.pcbFreeH = k.nucleus.pcbFreeH ∧ (n.pcb p).pSemAdd = NULL ∧ (n.pcb c).pSemAdd = NULL := by
      cases hacts.single with
      | @wake _ _ p' rest' _ _ hq' =>
        obtain ⟨rfl, -⟩ := List.cons.inj (hq.symm.trans hq')
        refine ⟨hfree, (congrFun hsemAdd p).trans (Function.update_self _ _ _), (congrFun hsemAdd c).trans ?_⟩
        exact (Function.update_of_ne hcp _ _).trans (h.caller hc).2
    -- the P that is woken is one on the same semaphore
    have hcall' : (k.sys A).call (k.task p) = some (.passeren x) := by
      obtain ⟨call, hcall', hkey⟩ := h.hosts.waits _ p hp
      cases call with
      | passeren y => rw [hcall', A.sem_inj (Option.some.inj hkey)]
      | doio commandAddr commandValue =>
        obtain ⟨i, hi, hidx⟩ := findDeviceIndex_command (call_command hcall')
        have hi : i < SEMDEVLEN := by
          simp only [SEMDEVLEN]
          omega
        exact absurd hkey (sem_ne_devSem A x hi hidx)
      | _ => cases hkey
    exact ⟨h.moves hs hacts (by simp [Act.rests]) hleaves hhomes (by simp), hleft.1, hleft.2.1, hleft.2.2, hcp,
      h.sound.ok.waiting_live hp, hcall', sem_kept hacts hleaves (by simp [Act.writes])⟩
  | none kind => simp [hk, Kind.quiet] at kind
  | waitDevSem kind => simp [hk] at kind
  | _ kind => simp [hk] at kind

theorem Hosted.verhogen (h : Hosted A k (k.sys A)) (hc : k.nucleus.currentProcess = some c)
    (hcall : (k.sys A).call (k.task c) = some (.verhogen x)) (hmade : (NucleusCall.verhogen x).Made A t)
    (hadm : Admissible A.layout SelfOnly k.nucleus t) (hstep : exceptionHandler A.layout t k.nucleus = some n)
    (hexec : exec (Kernel.goOn A) (({k with nucleus := n} : Kernel).answers inp (returning A.layout t k.nucleus))
      {k with nucleus := n} = some k') :
    Carried A k (({k with nucleus := n} : Kernel).answers inp (returning A.layout t k.nucleus)) k' := by
  obtain ⟨hk, ha1⟩ := hmade
  obtain ⟨as, v, hacted, hacts, hleaves, hs⟩ := h.acts hadm hstep
  have hhomes := handler_homes h.sound hadm.allowed (fun _ => SelfOnly.termOk) (by simp [hk]) (by simp [hk]) hstep
  obtain ⟨hlive, hloose⟩ := h.caller hc
  have htask : ∀ p, k.task p = ((k.task p).goes {inp with status := n.returned p}).task := fun p => (goes_task _ _).symm
  cases hacted with
  | verhogen kind =>
    rw [ha1] at hacts
    have hret : returning A.layout t k.nucleus = c :: (waiting (A.sem x) k.nucleus).head?.toList := by
      simp [returning, hk, hc, ha1, headBlocked_eq]
    rw [hret] at hexec ⊢
    have hsemAdd := hleaves.semAdd
    obtain ⟨hfree, -, hmem⟩ := hleaves.frame
    cases hq : waiting (A.sem x) k.nucleus with
    | nil =>
      rw [hq] at hexec
      rw [if_pos hq] at hacts
      have hhosted := h.moves hs hacts (by simp [Act.rests]) hleaves hhomes (by simp)
      have hleft : n.pcbFreeH = k.nucleus.pcbFreeH ∧ n.view.semAdd = k.nucleus.view.semAdd ∧
          n.mem = Function.update k.nucleus.mem (A.sem x) (k.nucleus.mem (A.sem x) + 1) := by
        cases hacts.single with
        | give => exact ⟨hfree, hsemAdd, hmem⟩
      have hroom : (k.nucleus.mem (A.sem x)).toInt ≤ 1 := h.tame.room hcall
      rw [htask] at hcall
      exact hhosted.carried_one hexec (by rw [hleft.1]; exact hlive) ((congrFun hleft.2.1 c).trans hloose) (htask c) hcall
        trivial nofun (next_kept hcall nofun) (sem_write hleft.2.2 (toInt_add_one (by omega)))
    | cons p rest =>
      rw [hq] at hexec
      obtain ⟨hhosted, hfree, hp, hc', hcp, hlive', hcall', hsem⟩ := h.woken hc ⟨hk, ha1⟩ hadm hstep hq
      rw [htask] at hcall hcall'
      exact hhosted.carried_two hexec (by rw [hfree]; exact hlive) hc' (htask c) (by rw [hfree]; exact hlive') hp (htask p) hcp
        hcall hcall' hsem
  | none kind => simp [hk, Kind.quiet] at kind
  | waitDevSem kind => simp [hk] at kind
  | _ kind => simp [hk] at kind

theorem Hosted.doio {commandAddr : Addr} {commandValue : Word} (h : Hosted A k (k.sys A))
    (hc : k.nucleus.currentProcess = some c)
    (hcall : (k.sys A).call (k.task c) = some (.doio commandAddr commandValue))
    (hmade : (NucleusCall.doio commandAddr commandValue).Made A t)
    (hadm : Admissible A.layout SelfOnly k.nucleus t) (hstep : exceptionHandler A.layout t k.nucleus = some n)
    (hexec : exec (Kernel.goOn A) (({k with nucleus := n} : Kernel).answers inp (returning A.layout t k.nucleus))
      {k with nucleus := n} = some k') :
    Carried A k (({k with nucleus := n} : Kernel).answers inp (returning A.layout t k.nucleus)) k' := by
  obtain ⟨hk, ha1, -⟩ := hmade
  obtain ⟨as, v, hacted, hacts, hleaves, hs⟩ := h.acts hadm hstep
  have hhomes := handler_homes h.sound hadm.allowed (fun _ => SelfOnly.termOk) (by simp [hk]) (by simp [hk]) hstep
  obtain ⟨i, hi, hidx⟩ := findDeviceIndex_command (call_command hcall)
  have hi : i < SEMDEVLEN := by
    simp only [SEMDEVLEN]
    omega
  cases hacted with
  | @waitDevSem key kind =>
    obtain rfl : key = A.layout.devSem (findDeviceIndex commandAddr) := by
      rcases kind with ⟨-, hkey⟩ | ⟨kind, -⟩
      · rw [hkey, ha1]
      · simp [hk] at kind
    have hret : returning A.layout t k.nucleus = [] := by simp [returning, hk]
    rw [hret] at hexec ⊢
    refine Hosted.carried_nil (h.moves hs hacts (forall_either rfl rfl) hleaves hhomes fun key d p hmem hp => ?_)
      (sem_kept hacts hleaves (forall_either (by simp [Act.writes]) fun x => sem_ne_devSem A x hi hidx)) hexec
    have hmem := List.mem_singleton.mp hmem
    obtain rfl := Option.some.inj (hc.symm.trans hp)
    split at hmem
    · exact ⟨_, hcall, congrArg some (Act.block.inj hmem).1.symm⟩
    · cases hmem
  | none kind => simp [hk, Kind.quiet] at kind
  | _ kind => simp [hk] at kind

theorem Hosted.getSupportPtr (h : Hosted A k (k.sys A)) (hk : t.kind = .service .getSupportPtr)
    (hadm : Admissible A.layout SelfOnly k.nucleus t) (hstep : exceptionHandler A.layout t k.nucleus = some n)
    (hexec : exec (Kernel.goOn A) (({k with nucleus := n} : Kernel).answers inp (returning A.layout t k.nucleus))
      {k with nucleus := n} = some k') :
    Carried A k (({k with nucleus := n} : Kernel).answers inp (returning A.layout t k.nucleus)) k' := by
  obtain ⟨as, v, hacted, hacts, hleaves, hs⟩ := h.acts hadm hstep
  have hhomes := handler_homes h.sound hadm.allowed (fun _ => SelfOnly.termOk) (by simp [hk]) (by simp [hk]) hstep
  have hret : returning A.layout t k.nucleus = [] := by simp [returning, hk]
  rw [hret] at hexec ⊢
  cases hacted with
  | none kind =>
    exact Hosted.carried_nil (h.moves hs hacts (by simp) hleaves hhomes (by simp)) (sem_kept hacts hleaves (by simp)) hexec
  | waitDevSem kind => simp [hk] at kind
  | _ kind => simp [hk] at kind

theorem Hosted.termProcess (h : Hosted A k (k.sys A)) (hc : k.nucleus.currentProcess = some c)
    (hcall : (k.sys A).call (k.task c) = some .termProcess) (hmade : NucleusCall.termProcess.Made A t)
    (hadm : Admissible A.layout SelfOnly k.nucleus t) (hstep : exceptionHandler A.layout t k.nucleus = some n)
    (hexec : exec (Kernel.goOn A) (({k with nucleus := n} : Kernel).answers inp (returning A.layout t k.nucleus))
      {k with nucleus := n} = some k') :
    Carried A k (({k with nucleus := n} : Kernel).answers inp (returning A.layout t k.nucleus)) k' := by
  obtain ⟨hk, ha1⟩ := hmade
  have hs : Sound n := h.sound.step hadm.allowed (fun _ => SelfOnly.termOk) hstep
  have hhomes := handler_homes h.sound hadm.allowed (fun _ => SelfOnly.termOk) (by simp [hk]) (by simp [hk]) hstep
  have hsupport : n.support = k.nucleus.support := congrArg Prod.snd hhomes
  have hstruct : (fun p => (n.pcb p).pSupportStruct) = fun p => (k.nucleus.pcb p).pSupportStruct := congrArg Prod.fst hhomes
  obtain ⟨hlive, hloose⟩ := h.caller hc
  -- `a1` is 0: the nucleus kills its caller
  obtain ⟨ks, n', v, hres, -, hks, hdoes, hleaves⟩ := terminate_leaves (L := A.layout) (e := t) h.sound hc hlive fun _ => rfl
  obtain rfl : n = n' := by
    rw [exceptionHandler_kind, hk] at hstep
    simp only [hc, Option.bind_some, serve, MultiPandOS.termProcess, termTarget, if_pos ha1, hres, Option.some.injEq] at hstep
    exact hstep.symm
  have hsem : (({k with nucleus := n} : Kernel).sys A).sem = (k.sys A).sem :=
    sem_kept (.one hdoes) hleaves (by simp [Act.writes])
  have hret : returning A.layout t k.nucleus = [c] := by simp [returning, hk, hc]
  rw [hret] at hexec ⊢
  have htask : k.task c = ((k.task c).goes {inp with status := n.returned c}).task := (goes_task _ _).symm
  rw [htask] at hcall
  have hdoing := doing_eq hcall
  refine carried_step h.tame hs ?_ hexec (hdoing.symm ▸ trivial) (fun m' hstep' => ?_) (by rw [hdoing]; exact hsem)
  · simp only [Kernel.sys, hsupport]
  · show Hosts A n.view (fun p => (n.pcb p).pSupportStruct) k.task m'
    rw [hstruct]
    refine Hosts.leaves (v := v) ?_ hleaves
    cases hdoes with
    | kill hnd hlive' hclosed hcaller =>
      exact h.hosts.ends h.tame.orderly h.sound.ok hlive hloose htask (sysStep_stepped hstep') hcall hks

theorem born_eq (hk : t.kind = .service .createProcess) {rest : List PcbPtr} (hf : k.nucleus.pcbFreeH = p :: rest) :
    k.born t = Function.update k.task p (.uproc k.user.next) := by
  simp only [Kernel.born, hk, hf]

theorem born_nobody (h : t.kind ≠ .service .createProcess ∨ k.nucleus.pcbFreeH = []) : k.born t = k.task := by
  unfold Kernel.born
  split
  · rename_i p rest hk hf
    rcases h with h | h
    · exact absurd hk h
    · rw [hf] at h
      cases h
  · rfl

/-- Whoever runs keeps its task. -/
theorem Hosted.born_caller (h : Hosted A k m) (hc : k.nucleus.currentProcess = some c) : k.born t c = k.task c := by
  by_cases hk : t.kind = .service .createProcess
  · cases hf : k.nucleus.pcbFreeH with
    | nil => rw [born_nobody (.inr hf)]
    | cons p rest =>
      rw [born_eq hk hf]
      refine Function.update_of_ne (fun hcp => (h.caller hc).1 ?_) _ _
      rw [hf, hcp]
      exact List.mem_cons_self
  · rw [born_nobody (.inl hk)]

theorem Hosted.createProcess {asid : Word} {u : SupPtr} (h : Hosted A k (k.sys A))
    (hc : k.nucleus.currentProcess = some c)
    (hcall : (k.sys A).call (k.task c) = some (.createProcess asid u)) (hmade : (NucleusCall.createProcess asid u).Made A t)
    (hpid : k.nucleus.nextPid ≠ -1)
    (hadm : Admissible A.layout SelfOnly k.nucleus t) (hstep : exceptionHandler A.layout t k.nucleus = some n)
    (hexec : exec (Kernel.goOn A)
      (({k with nucleus := n, task := k.born t} : Kernel).answers inp (returning A.layout t k.nucleus))
      {k with nucleus := n, task := k.born t} = some k') :
    Carried A k (({k with nucleus := n, task := k.born t} : Kernel).answers inp (returning A.layout t k.nucleus)) k' := by
  obtain ⟨hk, -, -, hsup⟩ := hmade
  have hs : Sound n := h.sound.step hadm.allowed (fun _ => SelfOnly.termOk) hstep
  obtain ⟨hlive, hloose⟩ := h.caller hc
  have hret : returning A.layout t k.nucleus = [c] := by simp [returning, hk, hc]
  obtain ⟨q, htaskq⟩ : ∃ q, k.task c = .uproc q := by
    cases htask : k.task c with
    | test =>
      rw [htask] at hcall
      simp only [Sys.call] at hcall
      split at hcall <;> cases hcall
    | uproc q => exact ⟨q, rfl⟩
  have hn : n = MultiPandOS.createProcess t c k.nucleus := by
    rw [exceptionHandler_kind, hk] at hstep
    simp only [hc, Option.bind_some, serve, Option.some.injEq] at hstep
    exact hstep.symm
  have hcaller : k.born t c = k.task c := h.born_caller hc
  rw [hret] at hexec ⊢
  have hes : ({k with nucleus := n, task := k.born t} : Kernel).answers inp [c] =
      [.go q {inp with status := n.returned c}] := by
    simp only [Kernel.answers, List.map_cons, List.map_nil, hcaller, htaskq, Task.goes]
  rw [hes] at hexec ⊢
  rw [htaskq] at hcall
  have htask : k.task c = (SysEvent.go q {inp with status := n.returned c}).task := htaskq
  have hcall' : (k.sys A).call (SysEvent.go q {inp with status := n.returned c}).task = some (.createProcess asid u) := hcall
  cases hf : k.nucleus.pcbFreeH with
  | nil =>
    -- CREATEPROCESS fails
    have hfull : n = k.nucleus.ldst (t.state.setA0 (-1)).advance := by
      rw [hn]
      simp only [MultiPandOS.createProcess, allocPcb, hf]
    have hstatus : n.returned c = -1 := by
      simp only [Nucleus.returned, hfull, Nucleus.ldst, hc, if_true]
      rfl
    rw [born_nobody (.inr hf)] at hexec
    have hhosted : Hosted A {k with nucleus := n} (k.sys A) := by
      subst hfull
      have hnone : ∀ a ∈ ([] : List Act), a.rests = true := by simp
      exact h.moves hs .nil hnone (.resume (by rw [show k.nucleus.view.current = some c from hc]; rfl) rfl rfl) rfl (by simp)
    refine hhosted.carried_one hexec (by rw [hfull]; exact hlive) (by rw [hfull]; exact hloose) htask hcall' trivial (by simp)
      (fun m' hm' => ?_) (by rw [hfull]; rfl)
    rw [creates_next hm' hcall, if_pos hstatus]
  | cons p rest =>
    have hhomes := createProcess_homes (e := t) h.sound hc hf
    obtain ⟨ready, hleaves, hmem⟩ := createProcess_leaves A.layout h.sound hc hk hf
    rw [← hn] at hhomes hleaves hmem
    have hsupport : n.support = k.nucleus.support := congrArg Prod.snd hhomes
    have hstruct : (fun x => (n.pcb x).pSupportStruct) =
        Function.update (fun x => (k.nucleus.pcb x).pSupportStruct) p t.state.regA3 := congrArg Prod.fst hhomes
    have hstatus : n.returned c ≠ -1 := by
      have hpPid : n.returned c = k.nucleus.nextPid := by
        rw [hn]
        simp only [MultiPandOS.createProcess, allocPcb, hf, Nucleus.returned, Nucleus.ldst, Nucleus.enqueue, insertChild,
          Nucleus.setPcb, hc, if_true, Function.update_self]
        rfl
      rw [hpPid]
      exact hpid
    rw [born_eq hk hf] at hexec
    have hdoing := doing_eq hcall'
    refine carried_step h.tame hs ?_ hexec (hdoing.symm ▸ trivial) (fun m' hstep' => ?_) ?_
    · simp only [Kernel.sys, hsupport]
    · have hnext : m'.next ≠ (k.sys A).next := by
        rw [creates_next hstep' hcall, if_neg hstatus]
        exact Nat.succ_ne_self _
      refine Hosts.leaves (h.hosts.creates h.tame.orderly h.sound.ok hlive hloose htask (sysStep_stepped hstep') hnext hf
        fun asid' u' he => ?_) hleaves
      rw [hcall'] at he
      obtain ⟨-, rfl⟩ := NucleusCall.createProcess.inj (Option.some.inj he)
      rw [hstruct, hsup]
    · rw [hdoing]
      simp only [Kernel.sys, hmem]
      rfl

/-- Code that makes no call. -/
theorem Hosted.code (h : Hosted A k (k.sys A)) (hruns : k.runs e.task) (hcall : (k.sys A).call e.task = none)
    (hgo : k.goOn A e = some k') : Carried A k [e] k' := by
  obtain ⟨c, hc, htask⟩ := Option.map_eq_some_iff.mp hruns
  obtain ⟨hlive, hloose⟩ := h.caller hc
  have hdoing : (k.sys A).doing e = .nothing := by
    simp only [Sys.doing, hcall, Option.elim_none]
  refine carried_step h.tame h.sound h.same (exec_one hgo) (hdoing.symm ▸ trivial) (fun m' hstep => ?_) (by rw [hdoing]; rfl)
  have hstepped := sysStep_stepped hstep
  refine h.hosts.goes h.tame.orderly h.sound.ok hlive hloose htask hstepped (hstepped.peaceful ?_ (hstepped.next fun asid u => ?_))
  · rw [hcall]
    simp
  · rw [hcall]
    simp

/-- The nucleus saves the state where the support level finds it. -/
theorem Hosted.passUp {q : Nat} {index : Fin 2} {st : State} {place : Place} (h : Hosted A k (k.sys A))
    (hruns : k.runs e.task) (hup : (k.sys A).passedUp e = some (q, index, st, place)) (hk : t.kind = .passUp index st)
    (hstep : exceptionHandler A.layout t k.nucleus = some n) :
    Carried A k [e] {k with nucleus := n, user := k.user.goto q place} := by
  obtain ⟨c, hc, htask⟩ := Option.map_eq_some_iff.mp hruns
  obtain ⟨hlive, hloose⟩ := h.caller hc
  obtain ⟨hq, hsys⟩ := passedUp_step A.pool A.handlers hup
  have hcall := passedUp_call hup
  have hhome : (k.nucleus.pcb c).pSupportStruct = A.sup ((k.sys A).proc q).sup := h.hosts.home c q hlive (htask.trans hq)
  rw [exceptionHandler_kind, hk] at hstep
  simp only [passUpOrDie_eq hc (hhome ▸ A.sup_null _), hhome, Option.some.injEq] at hstep
  subst hstep
  -- what the nucleus has written is what the handler reads
  have hlevel : ((k.sys A).setState q index st).goto q place =
      Kernel.sys A {k with
        nucleus := {k.nucleus with
          support := Function.update k.nucleus.support (A.sup ((k.sys A).proc q).sup)
            {k.nucleus.support (A.sup ((k.sys A).proc q).sup) with
              supExceptState := Function.update (k.nucleus.support (A.sup ((k.sys A).proc q).sup)).supExceptState index st}
          control := .ldcxt ((k.nucleus.support (A.sup ((k.sys A).proc q).sup)).supExceptContext index)}
        user := k.user.goto q place} := by
    have hpool := Function.update_comp_eq_of_injective k.nucleus.support A.sup_inj ((k.sys A).proc q).sup
      {k.nucleus.support (A.sup ((k.sys A).proc q).sup) with
        supExceptState := Function.update (k.nucleus.support (A.sup ((k.sys A).proc q).sup)).supExceptState index st}
    simp only [Kernel.sys, Sys.goto, Sys.setState]
    exact congrArg (fun pool => ({k.sys A with
      vm := {k.user.vm with supportPool := pool}
      proc := Function.update k.user.proc q {k.user.proc q with place := place}} : Sys)) hpool.symm
  have hstepped := sysStep_stepped hsys
  have hpeace : Peaceful (k.sys A) (((k.sys A).setState q index st).goto q place) :=
    hstepped.peaceful (by rw [hcall]; simp) rfl
  have hhosts := h.hosts.goes h.tame.orderly h.sound.ok hlive hloose htask hstepped hpeace
  rw [hlevel] at hsys hhosts
  refine ⟨?_, ?_, rfl, h.tame.step hsys, hhosts⟩
  · simp only [exec, hsys, Option.bind_some]
  · refine ⟨h.sound.asl.congr rfl rfl rfl, h.sound.ok, h.sound.current, ?_⟩
    show true = k.nucleus.currentProcess.isSome
    rw [hc]
    rfl

/-- **One event of the kernel** is as many steps of the support level as calls return. -/
theorem Hosted.kernelStep {i : KernelEvent} (h : Hosted A k (k.sys A)) (hok : KernelOk A k i)
    (hstep : kernelStep A i k = some k') : Carried A k (k.did A i k') k' := by
  cases i with
  | code e =>
    simp only [MultiPandOS.kernelStep] at hstep
    split at hstep
    · rename_i hcode
      exact h.code hcode.1 (Option.isNone_iff_eq_none.mp hcode.2.1) hstep
    · cases hstep
  | passUp t e =>
    simp only [MultiPandOS.kernelStep] at hstep
    split at hstep
    · rename_i q index st place hup
      split at hstep
      · rename_i hpass
        obtain ⟨n, hn, rfl⟩ := Option.map_eq_some_iff.mp hstep
        exact h.passUp hpass.1 hup hpass.2 hn
      · cases hstep
    · cases hstep
  | trap t inp =>
    simp only [MultiPandOS.kernelStep] at hstep
    split at hstep
    · rename_i hasks
      obtain ⟨n, hn, hexec⟩ := Option.bind_eq_some_iff.mp hstep
      have hasked := asks_asked hasks
      have hadm := h.admissible hok hasked
      -- what is observed at the end is what the calls have returned
      have hdid : k.did A (.trap t inp) k' =
          ({k with nucleus := n, task := k.born t} : Kernel).answers inp (returning A.layout t k.nucleus) := by
        obtain ⟨htask, support, hnucleus⟩ := exec_goOn_keeps hexec
        simp only [Kernel.did, Kernel.answers, htask, hnucleus]
        rfl
      rw [hdid]
      cases hasked with
      | interrupt kind =>
        rw [born_nobody (.inl (by simp [kind]))] at hexec ⊢
        exact h.interrupted kind hadm hn hexec
      | support kind caller =>
        rw [born_nobody (.inl (by simp [kind]))] at hexec ⊢
        exact h.getSupportPtr kind hadm hn hexec
      | @call c call caller asks made =>
        cases call with
        | createProcess asid u =>
          have hpid : TrapOk A k.nucleus t t.kind := hok
          rw [made.1] at hpid
          exact h.createProcess caller asks made hpid hadm hn hexec
        | termProcess =>
          rw [born_nobody (.inl (by simp [made.1]))] at hexec ⊢
          exact h.termProcess caller asks made hadm hn hexec
        | passeren x =>
          rw [born_nobody (.inl (by simp [made.1]))] at hexec ⊢
          exact h.passeren caller asks made hadm hn hexec
        | verhogen x =>
          rw [born_nobody (.inl (by simp [made.1]))] at hexec ⊢
          exact h.verhogen caller asks made hadm hn hexec
        | doio commandAddr commandValue =>
          rw [born_nobody (.inl (by simp [made.1]))] at hexec ⊢
          exact h.doio caller asks made hadm hn hexec
    · cases hstep

end Traps

end MultiPandOS
