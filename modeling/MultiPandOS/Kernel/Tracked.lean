import MultiPandOS.Kernel.Runs
import MultiPandOS.Nucleus.SoftBlock

/-! Where everybody is in a run of the kernel.

What the nucleus alone needs rules for, `test` and the U-procs keep by themselves: no
DOIO finds the semaphore of its device positive, and nobody who waits for a device is killed.
That a device interrupts only while somebody waits for it (`Expected`) is all that is
asked. Then every process is ready, running, or in the queue of a semaphore that is not
positive, `softBlockCount` is right, and at most one process waits for a device
(`run_accounted`). -/
namespace MultiPandOS
open Forest Runs

/-! ### Queues at semaphores that are not positive -/

def View.Closed (v : View) : Prop := ∀ k, v.waiting k ≠ [] → (v.mem k).toInt ≤ 0

/-- What an act finds at its semaphore. -/
def Act.finds (v : View) : Act → Prop
  | .block k _ => (v.mem k).toInt ≤ 0
  | .take k => 0 < (v.mem k).toInt
  | .drop k => 0 < (v.mem k).toInt
  | .give k => v.waiting k = []
  | _ => True

section Closed
variable {L : Layout} {e : Trap} {s : Nucleus} {a : Act} {as : List Act} {v v' : View}

/-- A queue that is empty does not matter. -/
theorem View.Closed.setMem (h : v.Closed) {k : Addr} {w : Word} (hk : v.waiting k = []) (c : Option PcbPtr) (soft : Word) :
    View.Closed {v with mem := Function.update v.mem k w, current := c, soft := soft} := by
  intro k' hk'
  have hne : k' ≠ k := by
    rintro rfl
    exact hk' hk
  show (Function.update v.mem k w k').toInt ≤ 0
  rw [Function.update_of_ne hne]
  exact h k' hk'

theorem View.Closed.empty (h : v.Closed) {k : Addr} (hk : 0 < (v.mem k).toInt) : v.waiting k = [] := by
  by_contra hw
  exact absurd (h k hw) (not_le.mpr hk)

theorem Does.closed (hd : Does L.clock a v v') (h : v.Closed) (ha : a.finds v) : v'.Closed := by
  cases hd with
  | create => exact h
  | requeue => exact h
  | kill =>
    refine fun k hk => h k fun hnil => hk ?_
    show (v.waiting k).filter _ = []
    rw [hnil]
    rfl
  | @block _ c k d hc hnull =>
    intro k' hk'
    by_cases hkk : k' = k
    · exact hkk ▸ ha
    · exact h k' (by simpa [View.block, hkk] using hk')
  | @wake _ k p rest q d hq hperm =>
    intro k' hk'
    by_cases hkk : k' = k
    · exact hkk ▸ h k (by simp [hq])
    · exact h k' (by simpa [View.wake, hkk] using hk')
  | take => exact h.setMem (h.empty ha) v.current v.soft
  | give => exact h.setMem ha v.current v.soft
  | drop => exact h.setMem (h.empty ha) none (v.soft + 1)

/-- The handlers test what they find. -/
theorem acted_closed (hacted : Acted L e s as) (hacts : Acts L.clock as s.view v) (h : s.view.Closed) : v.Closed := by
  cases hacted with
  | none =>
    cases hacts
    exact h
  | tick kind =>
    refine hacts.invariant View.Closed h fun a ha w w' hd hw => hd.closed hw ?_
    rw [List.eq_of_mem_replicate ha]
    trivial
  | complete =>
    refine hacts.single.closed h ?_
    split
    · assumption
    · trivial
  | passeren =>
    refine hacts.single.closed h ?_
    split
    · assumption
    · exact not_le.mp (by assumption)
  | verhogen =>
    refine hacts.single.closed h ?_
    split
    · assumption
    · trivial
  | waitDevSem =>
    refine hacts.single.closed h ?_
    split
    · assumption
    · exact not_le.mp (by assumption)
  | _ => exact hacts.single.closed h trivial

end Closed

/-! ### Devices -/

/-- The status register of the device that interrupts. -/
def Trap.reg (t : Trap) : Option Addr :=
  match t.kind with
  | .interrupt (some line) => if line = 1 ∨ line = 2 then none else (t.served line).map fun r => r.2.2
  | _ => none

/-- A device interrupts only while somebody waits for it. -/
def Expected (L : Layout) (n : Nucleus) (t : Trap) : Prop :=
  ∀ reg ∈ t.reg, waiting (L.devSem (findDeviceIndex reg)) n ≠ []

instance (L : Layout) (n : Nucleus) (t : Trap) : Decidable (Expected L n t) := Option.decidableForallMem _

/-- Everybody is somewhere, and what the nucleus counts is right. -/
structure Tracked (L : Layout) (n : Nucleus) : Prop where
  unlost : Unlost L n.view
  counted : Counted L n.view
  idled : Idled n
  closed : n.view.Closed
  devices : ∀ i : Nat, i < 48 → (n.mem (L.devSem i)).toInt ≤ 0

section Step
variable {L : Layout} {n n' : Nucleus} {t : Trap} {as : List Act} {v : View}

theorem Tracked.waits (h : Tracked L n) (hadm : Admissible L SelfOnly n t) : WaitRule L n t := by
  refine ⟨hadm.mono fun _ => SelfOnly.termOk, fun hdoio => ?_⟩
  cases hk : t.kind with
  | service sv =>
    rw [hk] at hdoio
    obtain rfl := Option.some.inj hdoio
    simp only [Admissible, hk, KindOk] at hadm
    obtain ⟨i, hi, hsem⟩ := deviceSem_index L (a := t.state.regA1) hadm.2.1
    rw [hsem]
    exact h.devices i hi
  | _ =>
    rw [hk] at hdoio
    cases hdoio

/-- No act changes the semaphore of a device. -/
theorem Tracked.frame (h : Tracked L n) (hadm : Admissible L SelfOnly n t) (hexp : Expected L n t)
    (hacted : Acted L t n as) {i : Nat} (hi : i < 48) : ∀ a ∈ as, a.writes ≠ some (L.devSem i) := by
  have hother : ∀ {sv}, t.kind = .service sv → sv = .passeren ∨ sv = .verhogen →
      some t.state.regA1 ≠ some (L.devSem i) := by
    rintro sv hk hsv ha1
    have hdev : L.isDevSem t.state.regA1 := ⟨i, by simp only [SEMDEVLEN]; omega, Option.some.inj ha1⟩
    simp only [Admissible, hk, KindOk] at hadm
    rcases hsv with rfl | rfl
    · exact hadm.2.1.2 hdev
    · exact hadm.2.1.2 hdev
  cases hacted with
  | preempt | yield | create | terminate | die | none => simp [Act.writes]
  | tick =>
    intro a ha
    rw [List.eq_of_mem_replicate ha]
    simp [Act.writes]
  | @complete line status command reg kind plt clock served =>
    rw [if_neg (hexp reg (by simp [Trap.reg, kind, plt, clock, served]))]
    simp [Act.writes]
  | passeren kind => exact forall_either (by simp [Act.writes]) (hother kind (.inl rfl))
  | verhogen kind => exact forall_either (hother kind (.inr rfl)) (by simp [Act.writes])
  | @waitDevSem k kind =>
    have hle : (n.mem k).toInt ≤ 0 := by
      rcases kind with ⟨kind, rfl⟩ | ⟨-, rfl⟩
      · exact (h.waits hadm).2 (by rw [kind]; rfl)
      · exact h.unlost.clock
    rw [if_pos hle]
    simp [Act.writes]

theorem Tracked.step (h : Tracked L n) (hs : Sound n) (hadm : Admissible L SelfOnly n t) (hexp : Expected L n t)
    (hspares : SparesDevices L n t) (hstep : exceptionHandler L t n = some n') : Tracked L n' := by
  have hrule := h.waits hadm
  obtain ⟨n₁, as, v, hres, -, hacted, hacts, hleaves⟩ := handler_acts hs hadm.allowed fun _ => SelfOnly.termOk
  obtain rfl : n' = n₁ := Option.some.inj (hstep.symm.trans hres)
  obtain ⟨-, hwait, hmem⟩ := hleaves.frame
  refine ⟨unlost_step hs h.unlost hrule hstep, ?_, hleaves.idled, fun k hk => ?_, fun i hi => ?_⟩
  · exact hleaves.counted (acts_count hs h.unlost.clock ⟨hrule, hspares⟩ hacted hacts h.counted)
  · have hclosed := acted_closed hacted hacts h.closed
    rw [show n'.view.mem = v.mem from hmem]
    exact hclosed k (by rw [← hwait k]; exact hk)
  · rw [hmem, hacts.mem_frame (h.frame hadm hexp hacted hi)]
    exact h.devices i hi

theorem Tracked.withSupport (h : Tracked L n) (support : Addr → Support) : Tracked L {n with support := support} :=
  ⟨h.unlost, h.counted, h.idled, h.closed, h.devices⟩

theorem main_tracked (L : Layout) (b : Boot) : Tracked L (main L b) := by
  obtain ⟨hc, -, hwait⟩ := main_idle L b
  refine ⟨main_unlost L b, main_counted L b, fun hrun => ?_, fun k hk => absurd (hwait k) hk, fun i hi => ?_⟩
  · rw [(main_sound L b).control, hc] at hrun
    cases hrun
  · obtain ⟨rest, -, hmain⟩ := main_eq L b
    have hzero : (main L b).mem (L.devSem i) = 0 := by
      rw [hmain]
      exact (clearDevSem_mem L b.globals _).trans (if_pos ⟨i, List.mem_range.mpr (by simp only [SEMDEVLEN]; omega), rfl⟩)
    rw [hzero]
    decide

end Step

/-! ### The kernel -/

/-- `KernelOk`, and no interrupt comes from a device that nobody waits for. -/
def KernelExpects (A : Image) (k : Kernel) : KernelEvent → Prop
  | .trap t _ => TrapOk A k.nucleus t t.kind ∧ Expected A.layout k.nucleus t
  | .code _ => True
  | .passUp _ _ => True

instance decidableKernelExpects (A : Image) (k : Kernel) : (i : KernelEvent) → Decidable (KernelExpects A k i)
  | .trap t _ => inferInstanceAs (Decidable (TrapOk A k.nucleus t t.kind ∧ Expected A.layout k.nucleus t))
  | .code _ => isTrue trivial
  | .passUp _ _ => isTrue trivial

theorem KernelExpects.ok {A : Image} {k : Kernel} {i : KernelEvent} (h : KernelExpects A k i) : KernelOk A k i := by
  cases i with
  | trap t inp => exact h.1
  | _ => trivial

section Waits
variable {s : Sys} {t t' : Task} {commandAddr : Addr} {commandValue : Word} {q : Nat}

/-- Whoever uses a device has something left to do, and is not the shell waiting. -/
theorem call_doio (hcall : s.call t = some (.doio commandAddr commandValue)) :
    ∃ q, t = .uproc q ∧ (s.proc q).place.pending = true ∧ (s.proc q).place ≠ .waitShell := by
  cases t with
  | test =>
    simp only [Sys.call] at hcall
    split at hcall <;> cases hcall
  | uproc q =>
    refine ⟨q, rfl, uprocCall_pending hcall rfl, fun hwait => ?_⟩
    have hcall : s.uprocCall q = some (.doio commandAddr commandValue) := hcall
    rw [uprocCall_waitShell hwait] at hcall
    cases hcall

/-- Nobody who uses a device is below a task that terminates. -/
theorem Orderly.spared (h : Orderly s) (hterm : s.call t = some .termProcess) (hunder : t.Under t') :
    s.call t' ≠ some (.doio commandAddr commandValue) := by
  intro hcall
  obtain ⟨q, rfl, hpending, hawake⟩ := call_doio hcall
  rcases hunder with rfl | rfl | ⟨rfl, -⟩
  · rw [hterm] at hcall
    cases hcall
  · have htest : s.test ≠ .waiting := by
      intro htest
      simp only [Sys.call, htest] at hterm
      cases hterm
    exact h.handshake.running hpending hawake (.inr htest)
  · obtain ⟨asid, hdie⟩ := uprocCall_dies hterm
    rw [h.handshake.nobody hdie q] at hpending
    cases hpending

end Waits

section Kernel
variable {A : Image} {b : Boot} {vm : Vm} {k₀ k k' : Kernel} {i : KernelEvent} {is : List KernelEvent} {t : Trap}
  {p q : PcbPtr} {m : Sys}

/-- Whoever waits for a device or the clock uses a device. -/
theorem Hosted.uses (h : Hosted A k m) (hp : A.layout.isDevSem (k.nucleus.pcb p).pSemAdd) :
    ∃ commandAddr commandValue, m.call (k.task p) = some (.doio commandAddr commandValue) := by
  obtain ⟨j, hj, hsem⟩ := hp
  have hwait : p ∈ k.nucleus.view.waiting (A.layout.devSem j) :=
    (h.sound.ok.mem_waiting _ p).mpr ⟨hsem, A.layout.devSem_ne_null j hj⟩
  exact h.waits_doio hj rfl hwait

/-- Nobody who is killed waits for a device. -/
theorem Hosted.spares (h : Hosted A k (k.sys A)) (hasked : Asked A k t) : SparesDevices A.layout k.nucleus t := by
  intro r q hkills hbelow j hj hsem
  obtain ⟨c, hc, hkill⟩ := hkills
  obtain ⟨hlive, -⟩ := h.caller hc
  cases hasked with
  | interrupt kind =>
    rcases hkill with ⟨hk, -⟩ | ⟨hk, -⟩
    · rw [kind] at hk
      cases hk
    · rw [kind] at hk
      cases hk
  | support kind =>
    rcases hkill with ⟨hk, -⟩ | ⟨hk, -⟩
    · rw [kind] at hk
      cases hk
    · rw [kind] at hk
      cases hk
  | @call c' call caller asks made =>
    obtain rfl := Option.some.inj (hc.symm.trans caller)
    have hterm : call = .termProcess ∧ r = c := by
      rcases hkill with ⟨hk, htarget⟩ | ⟨hk, -⟩
      · cases call with
        | termProcess =>
          simp only [termTarget, if_pos made.2, Option.some.injEq] at htarget
          exact ⟨rfl, htarget.symm⟩
        | _ =>
          rw [made.1] at hk
          cases hk
      · cases call with
        | _ =>
          rw [made.1] at hk
          cases hk
    obtain ⟨rfl, rfl⟩ := hterm
    have hq := h.sound.ok.live_of_below hlive hbelow
    obtain ⟨commandAddr, commandValue, hcall⟩ := h.uses (p := q) ⟨j, by simp only [SEMDEVLEN]; omega, hsem⟩
    exact h.tame.orderly.spared asks ((h.hosts.below h.sound.ok hlive hq).mp hbelow) hcall

theorem Tracked.kernelStep (h : Tracked A.layout k.nucleus) (hh : Hosted A k (k.sys A)) (hok : KernelExpects A k i)
    (hstep : kernelStep A i k = some k') : Tracked A.layout k'.nucleus := by
  cases i with
  | code e =>
    simp only [MultiPandOS.kernelStep] at hstep
    split at hstep
    · obtain ⟨-, support, hn⟩ := goOn_keeps hstep
      exact hn ▸ h.withSupport support
    · cases hstep
  | passUp t e =>
    simp only [MultiPandOS.kernelStep] at hstep
    split at hstep
    · rename_i q index st place hup
      split at hstep
      · rename_i hpass
        obtain ⟨n, hn, rfl⟩ := Option.map_eq_some_iff.mp hstep
        obtain ⟨c, hc, htask⟩ := Option.map_eq_some_iff.mp hpass.1
        have hhome := hh.hosts.home c q (hh.caller hc).1 (htask.trans (passedUp_step A.pool A.handlers hup).1)
        rw [exceptionHandler_kind, hpass.2] at hn
        simp only [passUpOrDie_eq hc (hhome ▸ A.sup_null _), Option.some.injEq] at hn
        subst hn
        exact ⟨h.unlost, h.counted, fun hrun => (by cases hrun), h.closed, h.devices⟩
      · cases hstep
    · cases hstep
  | trap t inp =>
    simp only [MultiPandOS.kernelStep] at hstep
    split at hstep
    · rename_i hasks
      obtain ⟨n, hn, hexec⟩ := Option.bind_eq_some_iff.mp hstep
      have hasked := asks_asked hasks
      have htracked := h.step hh.sound (hh.admissible hok.1 hasked) hok.2 (hh.spares hasked) hn
      obtain ⟨-, support, hnucleus⟩ := exec_goOn_keeps hexec
      rw [hnucleus]
      exact htracked.withSupport support
    · cases hstep

theorem start_tracked (hstart : Kernel.start A b vm t = some k) : Tracked A.layout k.nucleus := by
  obtain ⟨s, n, -, hk, -, hn, rfl⟩ := start_cases hstart
  have hexp : Expected A.layout (main A.layout b) t := by
    simp [Expected, Trap.reg, hk]
  have hspares : SparesDevices A.layout (main A.layout b) t := by
    rintro r q ⟨c, -, ⟨hterm, -⟩ | ⟨hpass, -⟩⟩
    · rw [hk] at hterm
      cases hterm
    · rw [hk] at hpass
      cases hpass
  exact ((main_tracked A.layout b).step (main_sound A.layout b) (create_admissible hk) hexp hspares hn).withSupport _

theorem tracked (hload : A.Loaded b) (hstart : Kernel.start A b vm t = some k₀)
    (hrun : Run (MultiPandOS.kernelStep A) (KernelExpects A) k₀ is k) :
    Hosted A k (k.sys A) ∧ Tracked A.layout k.nucleus := by
  refine hrun.invariant (fun k => Hosted A k (k.sys A) ∧ Tracked A.layout k.nucleus)
    ⟨(start_hosted hload hstart).2, start_tracked hstart⟩ ?_
  rintro k i k' ⟨hh, h⟩ hok hstep
  exact ⟨(hh.kernelStep hok.ok hstep).2, h.kernelStep hh hok hstep⟩

/-- Who waits, for what, and what the nucleus makes of it. -/
structure Kernel.Accounted (A : Image) (k : Kernel) : Prop where
  placed : ∀ p, p ∉ k.nucleus.pcbFreeH → p ∈ k.nucleus.readyQueue ∨ k.nucleus.currentProcess = some p ∨
    ∃ key, p ∈ waiting key k.nucleus ∧ (k.nucleus.mem key).toInt ≤ 0 ∧ (k.sys A).awaits A (k.task p) key
  device : ∀ p q, A.layout.isDevSem (k.nucleus.pcb p).pSemAdd → A.layout.isDevSem (k.nucleus.pcb q).pSemAdd → p = q
  counts : Counts A.layout k.nucleus

theorem Hosted.accounted (hh : Hosted A k (k.sys A)) (h : Tracked A.layout k.nucleus) : k.Accounted A := by
  refine ⟨fun p hp => ?_, fun p q hp hq => ?_, hh.sound.counts h.counted h.idled⟩
  · rcases h.unlost.placed p hp with hready | hsem | hcurrent
    · exact .inl hready
    · have hwait : p ∈ k.nucleus.view.waiting (k.nucleus.pcb p).pSemAdd := (hh.sound.ok.mem_waiting _ p).mpr ⟨rfl, hsem⟩
      exact .inr (.inr ⟨_, hwait, h.closed _ (List.ne_nil_of_mem hwait), hh.hosts.waits _ p hwait⟩)
    · exact .inr (.inl hcurrent)
  · have hlive : ∀ {p}, A.layout.isDevSem (k.nucleus.pcb p).pSemAdd → p ∉ k.nucleus.pcbFreeH := by
      intro p hp hf
      have hnull : (k.nucleus.pcb p).pSemAdd = NULL := hh.sound.ok.free_semAdd p hf
      rw [hnull] at hp
      exact not_isDevSem_null A.layout hp
    obtain ⟨commandAddr, commandValue, hcall⟩ := hh.uses hp
    obtain ⟨commandAddr', commandValue', hcall'⟩ := hh.uses hq
    obtain ⟨r, hr, hpending, hawake⟩ := call_doio hcall
    obtain ⟨r', hr', hpending', hawake'⟩ := call_doio hcall'
    obtain rfl := hh.tame.orderly.handshake.only hpending hawake hpending' hawake'
    exact hh.hosts.inj p q (hlive hp) (hlive hq) (hr.trans hr'.symm)

end Kernel

/-- **Nobody is lost** in a run of the kernel in which devices interrupt only while somebody
waits for them: every process is ready, running, or stopped in a call at a semaphore that is
not positive, one at most for a device, and `softBlockCount` counts it. -/
theorem run_accounted {A : Image} {b : Boot} {vm : Vm} {t : Trap} {k₀ k : Kernel} {is : List KernelEvent}
    (hload : A.Loaded b) (hstart : Kernel.start A b vm t = some k₀)
    (hrun : Run (kernelStep A) (KernelExpects A) k₀ is k) : k.Accounted A := by
  obtain ⟨hh, h⟩ := tracked hload hstart hrun
  exact hh.accounted h

open KernelSample in
theorem run_accounted_sample :
    ∃ k, exec (kernelStep image) launching kernel = some k ∧ k.nucleus.processCount = 2 ∧ k.Accounted image := by
  have hfollows : Follows (kernelStep image) (KernelExpects image) launching kernel := by
    decide +kernel
  obtain ⟨k, hexec, hrun⟩ := hfollows.run
  have hcount : (exec (kernelStep image) launching kernel).all (fun k => k.nucleus.processCount = 2) = true := by
    decide +kernel
  rw [hexec] at hcount
  exact ⟨k, hexec, by simpa using hcount, run_accounted boot_loaded kernel_eq hrun⟩

end MultiPandOS
