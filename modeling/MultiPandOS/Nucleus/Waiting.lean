import MultiPandOS.Nucleus.Semaphores

/-! Waiting for devices and for the clock.

A process that waits is in the queue of an entry of `deviceSemaphore` until the
completion interrupt takes it out. DOIO relies on that entry not being positive: if
it is, the caller is suspended without being queued anywhere. As long as no DOIO
meets a positive entry (`WaitRule`), every live process stays in some queue or runs
(`Unlost`), and whoever waits is woken through the queue it is in (`run_waits`). -/
namespace MultiPandOS
open Forest Runs

/-! ### Sub-devices -/

/-- The semaphore of the sub-device with the command register `command`. -/
def Layout.deviceSem (L : Layout) (command : Addr) : Addr := L.devSem (findDeviceIndex command)

theorem deviceSem_index (L : Layout) {a : Addr} (h : a ∈ commandRegs) :
    ∃ i : Nat, i < 48 ∧ L.deviceSem a = L.devSem i := by
  obtain ⟨i, hi, hidx⟩ := findDeviceIndex_command h
  exact ⟨i, hi, by rw [Layout.deviceSem, hidx]⟩

/-- An interrupt is served through the semaphore of the sub-device it acknowledges. -/
theorem served_command {e : Trap} {line : Nat} (h3 : 3 ≤ line) (h7 : line ≤ 7) {status : Word}
    {command reg : Addr} (h : e.served line = some (status, command, reg)) :
    command ∈ commandRegs ∧ findDeviceIndex reg = findDeviceIndex command := by
  have hcommand : ∀ l n : Fin 8, 3 ≤ l.val → devRegAddr l n + 0x4 ∈ commandRegs ∧
      findDeviceIndex (devRegAddr l n) = findDeviceIndex (devRegAddr l n + 0x4) := by decide +kernel
  have htransm : ∀ n : Fin 8, devRegAddr 7 n + 0xC ∈ commandRegs ∧
      findDeviceIndex (devRegAddr 7 n + 0x8) = findDeviceIndex (devRegAddr 7 n + 0xC) := by decide +kernel
  obtain ⟨l, n, hl, -, ⟨rfl, rfl⟩ | ⟨rfl, rfl⟩⟩ := served_cases h3 h7 h
  · exact htransm n
  · exact hcommand l n hl

/-! ### The rule -/

/-- The service a trap asks for, if it asks for one. -/
def Kind.service? : Kind → Option Service
  | .service sv => some sv
  | _ => none

/-- No DOIO finds its semaphore positive. -/
def DoioWaits (L : Layout) (s : Nucleus) (e : Trap) : Prop :=
  e.kind.service? = some .doio → (s.mem (L.deviceSem e.state.regA1)).toInt ≤ 0

instance (L : Layout) (s : Nucleus) (e : Trap) : Decidable (DoioWaits L s e) :=
  inferInstanceAs (Decidable (_ → _))

def WaitRule (L : Layout) (s : Nucleus) (e : Trap) : Prop := Admissible L TermOk s e ∧ DoioWaits L s e

/-- Every live process is somewhere, and nobody ever signalled the clock in vain. -/
structure Unlost (L : Layout) (v : View) : Prop where
  placed : ∀ p, p ∉ v.free → p ∈ v.ready ∨ v.semAdd p ≠ NULL ∨ v.current = some p
  clock : (v.mem L.clock).toInt ≤ 0

/-- A rule for what a list of acts preserves. -/
theorem Acts.invariant {clock : Addr} {as : List Act} {v v' : View} (h : Acts clock as v v')
    (Inv : View → Prop) (hv : Inv v)
    (hstep : ∀ a ∈ as, ∀ w w', Does clock a w w' → Inv w → Inv w') : Inv v' := by
  induction h with
  | nil => exact hv
  | cons hd _ ih => exact ih (hstep _ (by simp) _ _ hd hv) fun a ha => hstep a (by simp [ha])

/-- Every act but `drop` leaves everybody somewhere. -/
theorem Does.unlost {L : Layout} {a : Act} {v v' : View} (h : Does L.clock a v v') (hv : Unlost L v)
    (hdrop : ∀ k, a ≠ .drop k) (hgive : a ≠ .give L.clock) (htake : a ≠ .take L.clock) : Unlost L v' := by
  have hupdate : ∀ {k w}, k ≠ L.clock → (Function.update v.mem k w L.clock).toInt ≤ 0 := by
    intro k w hk
    rw [Function.update_of_ne hk.symm]
    exact hv.clock
  cases h with
  | @create _ c p rest q hcur hf hq =>
    refine ⟨fun x hx => ?_, hv.clock⟩
    by_cases hxp : x = p
    · subst hxp
      exact Or.inl (hq.mem_iff.mpr (by simp))
    · rcases hv.placed x (by simpa [hf, hxp, View.create] using hx) with hx | hx | hx
      · exact Or.inl (hq.mem_iff.mpr (by simp [hx]))
      · exact Or.inr (Or.inl hx)
      · exact Or.inr (Or.inr hx)
  | @kill _ ks caller _ _ _ hcaller =>
    refine ⟨fun x hx => ?_, hv.clock⟩
    have hxk : x ∉ ks := fun hxk => hx (by simp [View.kill, hxk])
    have hxf : x ∉ v.free := fun hxf => hx (by simp [View.kill, hxf])
    rcases hv.placed x hxf with hx | hx | hx
    · exact Or.inl (List.mem_filter.mpr ⟨hx, by simpa using hxk⟩)
    · exact Or.inr (Or.inl (by simpa [View.kill, hxk] using hx))
    · have hcaller : caller = false := by
        rw [← Bool.not_eq_true, ← hcaller x hx]
        exact hxk
      exact Or.inr (Or.inr (by simpa [hcaller] using hx))
  | @block _ c k d hcur hk =>
    refine ⟨fun x hx => ?_, hv.clock⟩
    by_cases hxc : x = c
    · subst hxc
      exact Or.inr (Or.inl (by simpa [View.block] using hk))
    · rcases hv.placed x hx with hx | hx | hx
      · exact Or.inl hx
      · exact Or.inr (Or.inl (by simpa [View.block, hxc] using hx))
      · exact absurd (Option.some.inj (hx.symm.trans hcur)) hxc
  | @wake _ k p rest q d hq hperm =>
    refine ⟨fun x hx => ?_, hv.clock⟩
    by_cases hxp : x = p
    · subst hxp
      exact Or.inl (hperm.mem_iff.mpr (by simp))
    · rcases hv.placed x hx with hx | hx | hx
      · exact Or.inl (hperm.mem_iff.mpr (by simp [hx]))
      · exact Or.inr (Or.inl (by simpa [View.wake, hxp] using hx))
      · exact Or.inr (Or.inr hx)
  | take => exact ⟨hv.placed, hupdate fun hk => htake (by rw [hk])⟩
  | give => exact ⟨hv.placed, hupdate fun hk => hgive (by rw [hk])⟩
  | drop => exact absurd rfl (hdrop _)
  | @requeue _ c q hcur hq =>
    refine ⟨fun x hx => ?_, hv.clock⟩
    rcases hv.placed x hx with hx | hx | hx
    · exact Or.inl (hq.mem_iff.mpr (by simp [hx]))
    · exact Or.inr (Or.inl hx)
    · obtain rfl : c = x := Option.some.inj (hcur.symm.trans hx)
      exact Or.inl (hq.mem_iff.mpr (by simp))

section Step
variable {L : Layout} {s s' : Nucleus} {e : Trap} {c : PcbPtr}

/-- A device that completes is not the clock. -/
theorem devSem_ne_clock (L : Layout) {i : Nat} (hi : i < 48) : L.devSem i ≠ L.clock := by
  intro h
  have := L.devSem_inj (i := i) (j := 48) (by simp only [SEMDEVLEN]; omega) (by decide) h
  omega

/-- Within the rule no act drops the caller or changes the value of the clock. -/
theorem acts_keep (hrule : WaitRule L s e) (hclock : (s.mem L.clock).toInt ≤ 0) {as : List Act}
    (h : Acted L e s as) : ∀ a ∈ as, (∀ k, a ≠ .drop k) ∧ a ≠ .give L.clock ∧ a ≠ .take L.clock := by
  obtain ⟨hadm, hdoio⟩ := hrule
  have hclockSem : L.isDevSem L.clock := ⟨48, by decide, rfl⟩
  have hother : ∀ {sv}, e.kind = .service sv → sv = .passeren ∨ sv = .verhogen → e.state.regA1 ≠ L.clock := by
    intro sv hk hsv ha1
    simp only [Admissible, hk, KindOk] at hadm
    rcases hsv with rfl | rfl <;> exact hadm.2.1.2 (ha1 ▸ hclockSem)
  cases h with
  | preempt | yield | create | terminate | die | none => simp
  | tick =>
    intro a ha
    obtain rfl := List.eq_of_mem_replicate ha
    simp
  | @complete line status command reg hk h1 h2 hserved =>
    obtain ⟨hlo, hhi⟩ := calcIntLineNo_range (Trap.kind_interrupt hk)
    obtain ⟨i, hi, hidx⟩ := findDeviceIndex_served (by omega) hhi hserved
    have hne : L.devSem (findDeviceIndex reg) ≠ L.clock := by
      rw [hidx]
      exact devSem_ne_clock L hi
    exact forall_either (by simp [hne]) (by simp)
  | passeren hk =>
    have hne := hother hk (.inl rfl)
    exact forall_either (by simp) (by simp [hne])
  | verhogen hk =>
    have hne := hother hk (.inr rfl)
    exact forall_either (by simp [hne]) (by simp)
  | @waitDevSem k hk =>
    have hle : (s.mem k).toInt ≤ 0 := by
      rcases hk with ⟨hk, rfl⟩ | ⟨hk, rfl⟩
      · exact hdoio (by rw [hk]; rfl)
      · exact hclock
    rw [if_pos hle]
    simp

theorem Leaves.unlost {v : View} (h : Leaves v s') (hv : Unlost L v) : Unlost L s'.view := by
  cases h with
  | resume _ hview => exact hview ▸ hv
  | dispatch hcur hview =>
    rw [hview]
    refine ⟨fun p hp => ?_, ?_⟩
    · have hp : p ∉ v.free := by rwa [View.dispatch_eq] at hp
      unfold View.dispatch
      cases hr : v.ready with
      | nil => simpa [hr] using hv.placed p hp
      | cons q rest =>
        rcases hv.placed p hp with h | h | h
        · rw [hr, List.mem_cons] at h
          rcases h with rfl | h
          · exact Or.inr (Or.inr rfl)
          · exact Or.inl h
        · exact Or.inr (Or.inl h)
        · rw [hcur] at h
          cases h
    · rw [View.dispatch_eq]
      exact hv.clock

/-- One step within the rule loses nobody. -/
theorem unlost_step (hs : Sound s) (hv : Unlost L s.view) (hrule : WaitRule L s e)
    (hstep : exceptionHandler L e s = some s') : Unlost L s'.view := by
  obtain ⟨s₁, as, v, hres, -, hacted, hacts, hleaves⟩ := handler_acts hs hrule.1.allowed fun _ => id
  obtain rfl : s' = s₁ := Option.some.inj (hstep.symm.trans hres)
  have hkeep := acts_keep hrule hv.clock hacted
  refine hleaves.unlost (hacts.invariant (Unlost L) hv fun a ha w w' hd hw => ?_)
  obtain ⟨hdrop, hgive, htake⟩ := hkeep a ha
  exact hd.unlost hw hdrop hgive htake

/-- A process that has just blocked on `k` is in the queue of `k` and in no other. -/
theorem mem_waiting_of_block (hs : Sound s) (hc : s.currentProcess = some c) {k : Addr} (hk : k ≠ NULL) {d : Word}
    (hleaves : Leaves (s.view.block k c d) s') (k' : Addr) : c ∈ waiting k' s' ↔ k' = k := by
  have hblock : Does NULL (.block k d) s.view (s.view.block k c d) := .block hc hk
  have hok := (hblock.ok hs.ok hs.current).1
  rw [hleaves.frame.2.1 k']
  rw [hok.mem_waiting]
  have hsem : (s.view.block k c d).semAdd c = k := by simp [View.block]
  rw [hsem]
  constructor
  · exact fun h => h.1.symm
  · rintro rfl
    exact ⟨rfl, hk⟩

theorem doio_waits (hs : Sound s) (hrule : WaitRule L s e) (hk : e.kind = .service .doio)
    (hc : s.currentProcess = some c) (hstep : exceptionHandler L e s = some s') (k : Addr) :
    c ∈ waiting k s' ↔ k = L.deviceSem e.state.regA1 := by
  have hadm := hrule.1
  simp only [Admissible, hk, KindOk] at hadm
  obtain ⟨i, hi, hsem⟩ := deviceSem_index L (a := e.state.regA1) hadm.2.1
  have hnull : L.deviceSem e.state.regA1 ≠ NULL := by
    rw [hsem]
    exact L.devSem_ne_null i (by simp only [SEMDEVLEN]; omega)
  obtain ⟨-, hleaves⟩ := waitDevSem_blocks hs hc hnull (hrule.2 (by rw [hk]; rfl)) e
    ((e.state.regA1, e.state.regA2) :: s.devWrites)
  have hres : exceptionHandler L e s = some (doio L e c s) := by
    rw [exceptionHandler_kind, hk]
    simp only [hc, Option.bind_some, serve]
  obtain rfl : s' = doio L e c s := Option.some.inj (hstep.symm.trans hres)
  exact mem_waiting_of_block hs hc hnull hleaves k

theorem clockWait_waits (hs : Sound s) (hclock : (s.mem L.clock).toInt ≤ 0) (hk : e.kind = .service .clockWait)
    (hc : s.currentProcess = some c) (hstep : exceptionHandler L e s = some s') (k : Addr) :
    c ∈ waiting k s' ↔ k = L.clock := by
  have hnull : L.clock ≠ NULL := L.devSem_ne_null 48 (by decide)
  obtain ⟨-, hleaves⟩ := waitDevSem_blocks hs hc hnull hclock e s.devWrites
  have hres : exceptionHandler L e s = some (clockWait L e c s) := by
    rw [exceptionHandler_kind, hk]
    simp only [hc, Option.bind_some, serve]
  obtain rfl : s' = clockWait L e c s := Option.some.inj (hstep.symm.trans hres)
  exact mem_waiting_of_block hs hc hnull hleaves k

/-- The completion of a sub-device readies the head of its queue. -/
theorem completion_wakes (hs : Sound s) {line : Nat} (hk : e.kind = .interrupt (some line)) (h1 : line ≠ 1)
    (h2 : line ≠ 2) {status : Word} {command reg : Addr} (hserved : e.served line = some (status, command, reg))
    {p : PcbPtr} (hp : headBlocked (L.deviceSem command) s = some p) :
    ∃ s₁, p ∈ s₁.readyQueue ∧ exceptionHandler L e s = some (resume e.state s₁) := by
  have hline := Trap.kind_interrupt hk
  obtain ⟨hlo, hhi⟩ := calcIntLineNo_range hline
  obtain ⟨hcommand, hidx⟩ := served_command (by omega) hhi hserved
  obtain ⟨i, -, hi⟩ := findDeviceIndex_command hcommand
  rw [headBlocked_eq] at hp
  obtain ⟨rest, hq⟩ : ∃ rest, waiting (L.deviceSem command) s = p :: rest := by
    cases hw : waiting (L.deviceSem command) s with
    | nil => simp [hw] at hp
    | cons q rest =>
      rw [hw] at hp
      exact ⟨rest, by rw [Option.some.inj hp]⟩
  have hq' : waiting (L.devSem (findDeviceIndex reg)) (s.writeDev command ACK) = p :: rest := by
    rw [hidx]
    exact (waiting_congr rfl rfl _).trans hq
  refine ⟨_, completeDevice_ready (s := s.writeDev command ACK) (hs.asl.congr rfl rfl rfl) hq' status, ?_⟩
  rw [exceptionHandler_kind, hk]
  simp only [interruptHandler, hline, h1, h2, if_false]
  exact handleDevice_eq hserved (by omega)

/-- A tick readies everybody who waits for the clock. -/
theorem tick_wakes (hs : Sound s) (hk : e.kind = .interrupt (some 2)) {p : PcbPtr} (hp : p ∈ waiting L.clock s) :
    ∃ s₁, p ∈ s₁.readyQueue ∧ exceptionHandler L e s = some (resume e.state s₁) := by
  obtain ⟨s₁, htick, hd⟩ := clockTick_ends hs.asl (hs.ok.waiting_nodup L.clock)
  refine ⟨s₁, hd.ready_perm.mem_iff.mpr (List.mem_append_left _ hp), ?_⟩
  rw [exceptionHandler_kind, hk]
  simp only [interruptHandler, Trap.kind_interrupt hk, handleIntervalClock, htick, Option.map_some]
  rfl

end Step

/-! ### Every run -/

/-- Nobody is lost, and whoever waits for a sub-device or for the clock is in its
queue and is woken from there. -/
structure Waits (L : Layout) (s : Nucleus) : Prop where
  placed : ∀ p, p ∉ s.pcbFreeH →
    p ∈ s.readyQueue ∨ (∃ j, p ∈ (s.semd j).sProcq) ∨ s.currentProcess = some p
  doio : ∀ e c s', WaitRule L s e → e.kind = .service .doio → s.currentProcess = some c →
    exceptionHandler L e s = some s' → ∀ k, c ∈ waiting k s' ↔ k = L.deviceSem e.state.regA1
  clockWait : ∀ e c s', WaitRule L s e → e.kind = .service .clockWait → s.currentProcess = some c →
    exceptionHandler L e s = some s' → ∀ k, c ∈ waiting k s' ↔ k = L.clock
  completion : ∀ e line status command reg p, e.kind = .interrupt (some line) → line ≠ 1 → line ≠ 2 →
    e.served line = some (status, command, reg) → headBlocked (L.deviceSem command) s = some p →
    ∃ s₁, p ∈ s₁.readyQueue ∧ exceptionHandler L e s = some (resume e.state s₁)
  tick : ∀ e p, e.kind = .interrupt (some 2) → headBlocked L.clock s = some p →
    ∃ s₁, p ∈ s₁.readyQueue ∧ exceptionHandler L e s = some (resume e.state s₁)

theorem main_unlost (L : Layout) (b : Boot) : Unlost L (main L b).view := by
  obtain ⟨rest, hrest, hmain⟩ := main_eq L b
  have hcover : ∀ p, p ∈ firstProcess :: rest := by
    rw [← hrest]
    decide
  refine ⟨fun p hp => Or.inr (Or.inr ?_), ?_⟩
  · have hp : p ∉ (main L b).pcbFreeH := hp
    rw [hmain] at hp ⊢
    rcases List.mem_cons.mp (hcover p) with rfl | h
    · rfl
    · exact absurd h hp
  · show ((main L b).mem L.clock).toInt ≤ 0
    have hzero : (main L b).mem L.clock = 0 := by
      rw [hmain]
      exact (clearDevSem_mem L b.globals L.clock).trans (if_pos ⟨48, by decide, rfl⟩)
    rw [hzero]
    decide

theorem Sound.waits {L : Layout} {s : Nucleus} (hs : Sound s) (hv : Unlost L s.view) : Waits L s := by
  refine ⟨fun p hp => ?_, fun e c s' hrule hk hc hstep => doio_waits hs hrule hk hc hstep,
    fun e c s' _ hk hc hstep => clockWait_waits hs hv.clock hk hc hstep,
    fun e line status command reg p hk h1 h2 hserved hp => completion_wakes hs hk h1 h2 hserved hp,
    fun e p hk hp => tick_wakes hs hk ?_⟩
  · rcases hv.placed p hp with h | h | h
    · exact Or.inl h
    · obtain ⟨j, -, -, hj⟩ := (mem_waiting hs.asl).mp ((hs.ok.mem_waiting _ p).mpr ⟨rfl, h⟩)
      exact Or.inr (Or.inl ⟨j, hj⟩)
    · exact Or.inr (Or.inr h)
  · rw [headBlocked_eq] at hp
    exact List.mem_of_mem_head? hp

/-- **Nobody is lost by waiting**, in every run in which no DOIO finds the semaphore
of its device positive. -/
theorem run_waits {L : Layout} {b : Boot} {es : List Trap} {s : Nucleus}
    (h : Run (exceptionHandler L) (WaitRule L) (main L b) es s) : Waits L s := by
  obtain ⟨hs, hv⟩ := h.invariant (fun s => Sound s ∧ Unlost L s.view) ⟨main_sound L b, main_unlost L b⟩
    fun s e s' hs hrule hstep => ⟨hs.1.step hrule.1.allowed (fun _ => id) hstep, unlost_step hs.1 hs.2 hrule hstep⟩
  exact hs.waits hv

/-- A run under the narrower rule of TERMPROCESS with `a1` = 0. -/
theorem Admissible.mono {L : Layout} {Term Term' : Nucleus → Trap → PcbPtr → Prop} {s : Nucleus} {e : Trap}
    (h : Admissible L Term s e) (hle : ∀ c, Term s e c → Term' s e c) : Admissible L Term' s e := by
  unfold Admissible at h ⊢
  cases hk : e.kind with
  | service sv =>
    simp only [hk, KindOk] at h ⊢
    exact ⟨h.1, h.2.1, fun hsv c hc => hle c (h.2.2 hsv c hc)⟩
  | interrupt line =>
    cases line with
    | none => simp only [hk, KindOk] at h
    | some line => simpa only [hk, KindOk] using h
  | passUp => simpa only [hk, KindOk] using h
  | ignored => simp only [hk, KindOk] at h

open Sample in
theorem run_waits_sample :
    ∃ s, exec (exceptionHandler layout) events (main layout boot) = some s ∧ Waits layout s := by
  have hfollows : Follows (exceptionHandler layout)
      (fun s e => Admissible layout SelfOnly s e ∧ DoioWaits layout s e) events (main layout boot) := by
    decide +kernel
  obtain ⟨s, hexec, hrun⟩ := hfollows.run
  refine ⟨s, hexec, run_waits (hrun.mono fun s e h => ⟨h.1.mono fun _ => SelfOnly.termOk, h.2⟩)⟩

namespace Sample

/-- A process starts the printer and dies with its parent; the interrupt comes late,
and then the first process starts the printer. -/
def lateInterrupt : List Trap :=
  [ecall (-1) 0 0, ecall (-10) 0 0, ecall (-1) 0 0, ecall (-10) 0 0, ecall (-10) 0 0, ecall (-5) printer 2,
    ecall (-2) 0 0, printerDone, ecall (-5) printer 2]

end Sample

open Sample in
/-- The first process is lost. -/
theorem doio_loses_caller : ∃ s,
    Run (exceptionHandler layout) (Admissible layout SelfOnly) (main layout boot) lateInterrupt s ∧
    firstProcess ∉ s.pcbFreeH ∧ firstProcess ∉ s.readyQueue ∧ (∀ j, firstProcess ∉ (s.semd j).sProcq) ∧
    s.currentProcess = none := by
  have hfollows : Follows (exceptionHandler layout) (Admissible layout SelfOnly) lateInterrupt
      (main layout boot) := by decide +kernel
  obtain ⟨s, hexec, hrun⟩ := hfollows.run
  have hlost : (exec (exceptionHandler layout) lateInterrupt (main layout boot)).all (fun s =>
      firstProcess ∉ s.pcbFreeH ∧ firstProcess ∉ s.readyQueue ∧ (∀ j, firstProcess ∉ (s.semd j).sProcq) ∧
      s.currentProcess = none) = true := by decide +kernel
  rw [hexec] at hlost
  exact ⟨s, hrun, by simpa using hlost⟩

end MultiPandOS
