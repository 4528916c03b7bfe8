import MultiPandOS.Nucleus.Accounting

/-! The times, whatever traps come.

Nothing writes `startTime`, and only a service that suspends its caller adds to a
`p_time` (`exceptionHandler_spent`). That is so in every state, also in one that an
earlier trap has left inconsistent, and the meter notices every such service. So the
clock of a metered run and `p_time` keep in step without any rule for the traps but that
the clock does not run backwards (`run_clocked`). -/
namespace MultiPandOS
open Runs

/-- What the code keeps account in. -/
def Nucleus.times (s : Nucleus) : (Fin NCPU → Word) × (PcbPtr → Word) := (s.startTime, fun p => (s.pcb p).pTime)

/-! ### Queues and the tree -/

section Frame
variable {L : Layout} {s s' : Nucleus}

theorem times_setPcb {p : PcbPtr} {b : Pcb} (h : b.pTime = (s.pcb p).pTime) : (s.setPcb p b).times = s.times :=
  Prod.ext rfl (field_setPcb Pcb.pTime h)

theorem times_reclaim (j : SemdPtr) (s : Nucleus) : (reclaim j s).times = s.times := by
  unfold reclaim
  split <;> rfl

theorem times_insertBlocked (k : Addr) (c : PcbPtr) (s : Nucleus) : (insertBlocked k c s).1.times = s.times := by
  unfold insertBlocked
  split
  · exact times_setPcb rfl
  · split
    · rfl
    · exact times_setPcb rfl

theorem times_removeBlocked (k : Addr) (s : Nucleus) : (removeBlocked k s).1.times = s.times := by
  unfold removeBlocked
  split
  · rfl
  · rename_i j _
    have hunqueued : ∀ q, (reclaim j (s.setSemd j {s.semd j with sProcq := q})).times = s.times :=
      fun q => times_reclaim j _
    cases (s.semd j).sProcq with
    | nil => exact hunqueued []
    | cons p rest =>
      refine (times_setPcb ?_).trans (hunqueued rest)
      rfl

theorem times_outBlocked {p : PcbPtr} {r : Nucleus × Option PcbPtr} (h : outBlocked p s = some r) :
    r.1.times = s.times := by
  unfold outBlocked at h
  split at h
  · cases h
    rfl
  · rename_i j _
    simp only [outProcQ] at h
    split_ifs at h with hmem
    · cases h
      have hunblocked : (s.setPcb p {s.pcb p with pSemAdd := NULL}).times = s.times := times_setPcb rfl
      exact (times_reclaim j _).trans hunblocked

theorem times_insertChild (prnt p : PcbPtr) (s : Nucleus) : (insertChild prnt p s).times = s.times := by
  have hchild : (s.setPcb p {s.pcb p with pParent := some prnt}).times = s.times := times_setPcb rfl
  refine (times_setPcb ?_).trans hchild
  rfl

theorem times_removeChild (p : PcbPtr) (s : Nucleus) : (removeChild p s).1.times = s.times := by
  unfold removeChild
  split
  · rfl
  · rename_i child rest _
    have hunlinked : (s.setPcb p {s.pcb p with pChild := rest}).times = s.times := times_setPcb rfl
    refine (times_setPcb ?_).trans hunlinked
    rfl

theorem times_outChild (p : PcbPtr) (s : Nucleus) : (outChild p s).1.times = s.times := by
  unfold outChild
  split
  · rfl
  · exact times_setPcb rfl

/-! ### Killing -/

theorem times_killOne {p : PcbPtr} (h : killOne L p s = some s') : s'.times = s.times := by
  unfold killOne at h
  obtain ⟨s₁, hs₁, rfl⟩ := Option.map_eq_some_iff.mp h
  have hchild := times_outChild p s
  split at hs₁
  · obtain ⟨r, hr, rfl⟩ := Option.map_eq_some_iff.mp hs₁
    refine (times_outBlocked hr).trans ?_
    split <;> exact hchild
  · cases hs₁
    exact hchild

theorem times_kill (L : Layout) (n : Nat) :
    (∀ p s s', killProcess L n p s = some s' → s'.times = s.times) ∧
      ∀ p s s', killChildren L n p s = some s' → s'.times = s.times := by
  have hkill := fun t : Nucleus => kill_invariant (L := L) (P := fun s => s.times = t.times)
    (fun p s hs => (times_removeChild p s).trans hs) (fun _ _ _ hs h => (times_killOne h).trans hs) n
  exact ⟨fun p s s' => (hkill s).1 p s s' rfl, fun p s s' => (hkill s).2 p s s' rfl⟩

/-! ### Handlers -/

theorem times_scheduler (s : Nucleus) : (scheduler s).times = s.times := by
  unfold scheduler
  split
  · split_ifs <;> rfl
  · rfl

theorem times_resume (st : State) (s : Nucleus) : (resume st s).times = s.times := by
  unfold resume
  split
  · rfl
  · exact times_scheduler s

theorem times_completeDevice (k : Addr) (status : Word) (s : Nucleus) :
    (completeDevice k status s).times = s.times := by
  have hremove := times_removeBlocked k s
  unfold completeDevice
  split
  · rename_i s₁ p hs₁
    rw [hs₁] at hremove
    have hstatus : (s₁.setPcb p {s₁.pcb p with pS := (s₁.pcb p).pS.setA0 status}).times = s₁.times :=
      times_setPcb rfl
    exact hstatus.trans hremove
  · rename_i s₁ hs₁
    rwa [hs₁] at hremove

theorem times_clockTick {n : Nat} (h : clockTick L n s = some s') : s'.times = s.times := by
  refine clockTick_invariant (P := fun t => t.times = s.times) (fun t t₁ p ht hrem => ?_) (fun t t₁ ht hrem => ?_)
    rfl h
  · have hremove := times_removeBlocked L.clock t
    rw [hrem] at hremove
    exact Eq.trans hremove ht
  · have hremove := times_removeBlocked L.clock t
    rw [hrem] at hremove
    exact Eq.trans hremove ht

theorem times_interruptHandler {e : Trap} (h : interruptHandler L e s = some s') : s'.times = s.times := by
  unfold interruptHandler at h
  split at h
  · cases h
    rfl
  · rename_i line _
    split_ifs at h with h1 h2
    · unfold handlePLT at h
      split at h
      · cases h
      · rename_i c _
        cases h
        have hsaved : (s.setPcb c {s.pcb c with pS := copyState e.state}).times = s.times := times_setPcb rfl
        exact (times_scheduler _).trans hsaved
    · obtain ⟨s₁, htick, rfl⟩ := Option.map_eq_some_iff.mp h
      exact (times_resume e.state s₁).trans (times_clockTick htick)
    · unfold handleDevice at h
      split at h
      · cases h
        rfl
      · split at h
        · cases h
        · rename_i status command reg _
          cases h
          refine (times_resume e.state _).trans ?_
          split
          · exact times_completeDevice _ _ (s.writeDev command ACK)
          · rfl

theorem times_passUpOrDie {index : Fin 2} {st : State} (h : passUpOrDie L index st s = some s') :
    s'.times = s.times := by
  unfold passUpOrDie at h
  split at h
  · cases h
  · rename_i c _
    simp only at h
    split_ifs at h with hsup
    · obtain ⟨s₁, hkill, rfl⟩ := Option.map_eq_some_iff.mp h
      exact (times_scheduler _).trans ((times_kill L killFuel).1 c s s₁ hkill)
    · cases h
      rfl

theorem times_termProcess {e : Trap} {c : PcbPtr} (h : termProcess L e c s = some s') : s'.times = s.times := by
  obtain ⟨target, -, hterm⟩ := Option.bind_eq_some_iff.mp h
  unfold terminate at hterm
  obtain ⟨s₁, hkilled, rfl⟩ := Option.map_eq_some_iff.mp hterm
  have hkill : s₁.times = s.times := by
    cases target with
    | none =>
      cases hkilled
      rfl
    | some r => exact (times_kill L killFuel).1 r s s₁ hkilled
  split
  · exact (times_scheduler _).trans hkill
  · exact hkill

end Frame

/-! ### Every trap -/

/-- Nobody is charged but the caller of a service that suspends it. -/
structure Spent (e : Trap) (s s' : Nucleus) : Prop where
  startTime : s'.startTime = s.startTime
  pTime : ∀ p, (s'.pcb p).pTime = (s.pcb p).pTime ∨ (s'.pcb p).pTime = 0 ∨
    (e.suspends s = true ∧ s.currentProcess = some p ∧
      (s'.pcb p).pTime = (s.pcb p).pTime + updateTime e getPRID s)

section Spent
variable {L : Layout} {e : Trap} {s s₁ s' : Nucleus} {c : PcbPtr}

theorem Spent.of_times (h : s'.times = s.times) : Spent e s s' :=
  ⟨congrArg Prod.fst h, fun p => .inl (congrFun (congrArg Prod.snd h) p)⟩

theorem Spent.of_suspend (s₁ : Nucleus) (hsus : e.suspends s = true) (hc : s.currentProcess = some c) (h₁ : s₁.times = s.times)
    (h : s'.times = (suspend e c s₁).times) : Spent e s s' := by
  have hstart : s₁.startTime = s.startTime := congrArg Prod.fst h₁
  have hbefore : ∀ p, (s₁.pcb p).pTime = (s.pcb p).pTime := congrFun (congrArg Prod.snd h₁)
  have hafter : ∀ p, (s'.pcb p).pTime = ((suspend e c s₁).pcb p).pTime := congrFun (congrArg Prod.snd h)
  refine ⟨(congrArg Prod.fst h).trans hstart, fun p => ?_⟩
  by_cases hp : p = c
  · subst hp
    refine .inr (.inr ⟨hsus, hc, (hafter p).trans ?_⟩)
    rw [← hbefore p, updateTime, ← hstart]
    simp [suspend, Nucleus.setPcb, updateTime]
  · refine .inl ((hafter p).trans ?_)
    rw [← hbefore p]
    simp [suspend, Nucleus.setPcb, hp]

theorem createProcess_spent (e : Trap) (c : PcbPtr) (s : Nucleus) : Spent e s (createProcess e c s) := by
  unfold createProcess allocPcb
  cases s.pcbFreeH with
  | nil => exact .of_times rfl
  | cons q rest =>
    simp only
    let s₁ : Nucleus := {(s.setPcb q (Pcb.fresh s.nextPid)) with pcbFreeH := rest, nextPid := s.nextPid + 1}
    let b : Pcb := {s₁.pcb q with
      pS := copyState e.argState
      pPrio := (e.state.setA0 (s₁.pcb q).pPid).regA2
      pSupportStruct := (e.state.setA0 (s₁.pcb q).pPid).regA3}
    have hsame : (insertChild c q (s₁.setPcb q b)).times = s₁.times :=
      (times_insertChild c q _).trans (times_setPcb rfl)
    refine ⟨congrArg Prod.fst hsame, fun p => ?_⟩
    have hp : ((insertChild c q (s₁.setPcb q b)).pcb p).pTime = (s₁.pcb p).pTime :=
      congrFun (congrArg Prod.snd hsame) p
    by_cases hpq : p = q
    · refine .inr (.inl (hp.trans ?_))
      simp [s₁, hpq, Nucleus.setPcb, Pcb.fresh]
    · refine .inl (hp.trans ?_)
      simp [s₁, hpq, Nucleus.setPcb]

theorem waitDevSem_spent {k : Addr} (hsus : e.suspends s = true) (hc : s.currentProcess = some c)
    (h₁ : s₁.times = s.times) : Spent e s (scheduler (waitDevSem e c k s₁)) := by
  unfold waitDevSem
  split
  · exact .of_suspend _ hsus hc ((times_insertBlocked k c s₁).trans h₁) (times_scheduler _)
  · exact .of_suspend (s₁.setMem k (s₁.mem k - 1)) hsus hc h₁ (times_scheduler _)

theorem serve_spent {sv : Service} (hk : e.kind = .service sv) (hc : s.currentProcess = some c)
    (h : serve L e c s sv = some s') : Spent e s s' := by
  cases sv with
  | createProcess =>
    cases h
    exact createProcess_spent e c s
  | termProcess => exact .of_times (times_termProcess h)
  | passeren =>
    cases h
    unfold passeren
    by_cases hvalue : (s.mem e.state.regA1).toInt ≤ 0
    · simp only [if_pos hvalue]
      exact .of_suspend _ (by simp [Trap.suspends, hk, hvalue]) hc (times_insertBlocked _ c s) (times_scheduler _)
    · simp only [if_neg hvalue]
      exact .of_times rfl
  | verhogen =>
    cases h
    have hremove := times_removeBlocked e.state.regA1 s
    cases hr : removeBlocked e.state.regA1 s with
    | mk s₁ unlocked =>
      rw [hr] at hremove
      simp only [verhogen, hr]
      cases unlocked with
      | none => exact .of_times hremove
      | some p => exact .of_times hremove
  | doio =>
    cases h
    exact waitDevSem_spent (by simp [Trap.suspends, hk]) hc rfl
  | getTime =>
    simp only [serve, getTime] at h
    split at h
    · cases h
    · cases h
    · cases h
      exact .of_times rfl
  | clockWait =>
    cases h
    exact waitDevSem_spent (by simp [Trap.suspends, hk]) hc rfl
  | getSupportPtr =>
    cases h
    exact .of_times rfl
  | getProcessId =>
    cases h
    exact .of_times rfl
  | yield =>
    cases h
    refine .of_suspend s (by simp [Trap.suspends, hk]) hc rfl ((times_scheduler _).trans ?_)
    split <;> rfl

theorem exceptionHandler_spent (h : exceptionHandler L e s = some s') : Spent e s s' := by
  rw [exceptionHandler_kind] at h
  cases hk : e.kind with
  | interrupt line =>
    simp only [hk] at h
    exact .of_times (times_interruptHandler h)
  | service sv =>
    simp only [hk] at h
    obtain ⟨c, hc, hserve⟩ := Option.bind_eq_some_iff.mp h
    exact serve_spent hk hc hserve
  | passUp index st =>
    simp only [hk] at h
    exact .of_times (times_passUpOrDie h)
  | ignored => simp [hk] at h

end Spent

/-! ### Every run -/

/-- The clock does not run backwards. -/
def Forward (x : Nucleus × Meter) (e : Trap) : Prop := x.2.now ≤ e.clock.toNat

/-- What the two readings of the clock have to do with each other. -/
structure Clocked (x : Nucleus × Meter) : Prop where
  startTime : x.1.startTime getPRID = 0
  since : x.2.since ≤ x.2.now
  /-- Nobody is charged before the processor first changes hands. -/
  uncharged : x.2.since = 0 → ∀ p, (x.1.pcb p).pTime = 0

/-- The meter is started again by a suspension. -/
theorem since_read (now : Nat) (ws : List Switch) (m : Meter) :
    ((ws.foldl (Meter.read now) m).since = m.since ∧ ∀ p st call, .suspended p st call ∉ ws) ∨
      (ws.foldl (Meter.read now) m).since = now := by
  induction ws generalizing m with
  | nil => exact .inl ⟨rfl, by simp⟩
  | cons w rest ih =>
    rcases ih (m.read now w) with ⟨hsince, hnone⟩ | hsince
    · cases w with
      | suspended => exact .inr hsince
      | dispatched => exact .inr hsince
      | _ =>
        refine .inl ⟨hsince, fun p st call hmem => ?_⟩
        rcases List.mem_cons.mp hmem with hw | hmem
        · cases hw
        · exact hnone p st call hmem
    · exact .inr hsince

theorem Clocked.step {L : Layout} {e : Trap} {x x' : Nucleus × Meter} (h : Clocked x) (hlate : Forward x e)
    (hstep : meteredStep L e x = some x') : Clocked x' := by
  obtain ⟨s', hres, rfl⟩ := Option.map_eq_some_iff.mp hstep
  have hspent := exceptionHandler_spent hres
  have hread := since_read e.clock.toNat (switches L x.1 e s') x.2
  have hsince := h.since
  unfold Forward at hlate
  refine ⟨hspent.startTime ▸ h.startTime, ?_, fun hzero p => ?_⟩
  · show (List.foldl (Meter.read e.clock.toNat) x.2 (switches L x.1 e s')).since ≤ e.clock.toNat
    rcases hread with ⟨hkept, -⟩ | hnow <;> omega
  · have hzero' : (List.foldl (Meter.read e.clock.toNat) x.2 (switches L x.1 e s')).since = 0 := hzero
    have hbefore : x.2.since = 0 := by
      rcases hread with ⟨hkept, -⟩ | hnow <;> omega
    rcases hspent.pTime p with hp | hp | ⟨hsus, hc, hp⟩
    · exact hp.trans (h.uncharged hbefore p)
    · exact hp
    · have hclock : e.clock.toNat = 0 := by
        rcases hread with ⟨-, hnone⟩ | hnow
        · refine absurd ?_ (hnone p e.state e.isCall)
          have hmem : .suspended p e.state e.isCall ∈ suspensions x.1 e := by
            simp [suspensions, hsus, hc]
          simp [switches, hmem]
        · omega
      have hcharge : updateTime e getPRID x.1 = 0 := by
        rw [updateTime, h.startTime, show e.clock = 0 from BitVec.eq_of_toNat_eq hclock]
        rfl
      refine hp.trans ?_
      rw [hcharge, h.uncharged hbefore p]
      rfl

theorem run_clocked {L : Layout} {b : Boot} {boot : Nat} {es : List Trap} {x : Nucleus × Meter}
    (h : Run (meteredStep L) Forward (main L b, .start boot) es x) : Clocked x := by
  refine h.invariant Clocked ⟨(main_metered L b boot).1.startTime, Nat.le_refl _, fun _ p => ?_⟩
    fun _ _ _ hx hlate hstep => hx.step hlate hstep
  show ((main L b).pcb p).pTime = 0
  rw [main_pcb]
  split <;> rfl

end MultiPandOS
