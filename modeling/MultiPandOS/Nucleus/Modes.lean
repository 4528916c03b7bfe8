import MultiPandOS.Nucleus.Steps

/-! The processor mode that the handlers leave in.

A handler loads the saved state of a process, the trap's own state or a support
context. `Privileged` says that all of them name machine mode, for the processes that
the nucleus still holds; every handler that is entered from machine mode keeps it so
and leaves in machine mode (`serve_left`, `interruptHandler_left`,
`passUpOrDie_left`). -/
namespace MultiPandOS

/-- MPP names machine mode. -/
def machineMode (w : Word) : Prop := w &&& MSTATUS_MPP_MASK = MSTATUS_MPP_M

instance (w : Word) : Decidable (machineMode w) := inferInstanceAs (Decidable (_ = _))

def Control.machine : Control → Prop
  | .ldst st => machineMode st.status
  | .ldcxt c => machineMode c.status
  | _ => True

namespace Nucleus

/-- The nucleus will load the state of `p` again, or `p` is running. -/
def holds (s : Nucleus) (p : PcbPtr) : Prop :=
  p ∈ s.readyQueue ∨ (∃ j, p ∈ (s.semd j).sProcq) ∨ s.currentProcess = some p

/-- Every process is resumed in machine mode, and its handlers start in it. -/
structure Privileged (s : Nucleus) : Prop where
  state : ∀ p, s.holds p → machineMode (s.pcb p).pS.status
  context : ∀ p, s.holds p → (s.pcb p).pSupportStruct ≠ NULL →
    ∀ i, machineMode ((s.support (s.pcb p).pSupportStruct).supExceptContext i).status

/-- `s'` holds no process that `s` does not, and what they are resumed with is as
privileged as in `s`. -/
structure Within (s s' : Nucleus) : Prop where
  holds : ∀ p, s'.holds p → s.holds p
  status : ∀ p, (s'.pcb p).pS.status = (s.pcb p).pS.status
  sup : ∀ p, (s'.pcb p).pSupportStruct = (s.pcb p).pSupportStruct
  support : s'.support = s.support

variable {s s₁ s' : Nucleus}

theorem Within.refl (s : Nucleus) : Within s s := ⟨fun _ h => h, fun _ => rfl, fun _ => rfl, rfl⟩

theorem Within.trans (h : Within s s₁) (h' : Within s₁ s') : Within s s' :=
  ⟨fun p hp => h.holds p (h'.holds p hp), fun p => (h'.status p).trans (h.status p),
    fun p => (h'.sup p).trans (h.sup p), h'.support.trans h.support⟩

theorem Privileged.within (h : s.Privileged) (hw : Within s s') : s'.Privileged := by
  constructor
  · intro p hp
    rw [hw.status]
    exact h.state p (hw.holds p hp)
  · intro p hp hsup
    rw [hw.sup] at hsup ⊢
    rw [hw.support]
    exact h.context p (hw.holds p hp) hsup

/-- An entry whose status and support structure are as before. -/
theorem within_setPcb {p : PcbPtr} {b : Pcb} (hstatus : b.pS.status = (s.pcb p).pS.status)
    (hsup : b.pSupportStruct = (s.pcb p).pSupportStruct) : Within s (s.setPcb p b) :=
  ⟨fun _ h => h, congrFun (field_setPcb (fun b => b.pS.status) hstatus),
    congrFun (field_setPcb Pcb.pSupportStruct hsup), rfl⟩

/-- What neither the queues nor the entries depend on. -/
theorem within_queues (hpcb : s'.pcb = s.pcb) (hsupport : s'.support = s.support)
    (hholds : ∀ p, s'.holds p → s.holds p) : Within s s' :=
  ⟨hholds, fun p => by rw [hpcb], fun p => by rw [hpcb], hsupport⟩

theorem Within.nobody (h : Within s s₁) : Within s {s₁ with currentProcess := none} := by
  refine h.trans (within_queues rfl rfl fun q hq => ?_)
  rcases hq with hready | hsem | hcur
  · exact .inl hready
  · exact .inr (.inl hsem)
  · cases hcur

/-- Inserting somebody who was held before. -/
theorem Within.ready (h : Within s s₁) {p : PcbPtr} (hp : s.holds p) {q : List PcbPtr}
    (hq : ∀ x ∈ q, x = p ∨ x ∈ s₁.readyQueue) : Within s {s₁ with readyQueue := q} := by
  refine ⟨fun x hx => ?_, h.status, h.sup, h.support⟩
  rcases hx with hready | hrest
  · rcases hq x hready with rfl | hx
    · exact hp
    · exact h.holds x (.inl hx)
  · exact h.holds x (.inr hrest)

theorem Within.enqueue (h : Within s s₁) {p : PcbPtr} (hp : s.holds p) : Within s (s₁.enqueue p) :=
  h.ready hp fun x hx => (mem_insertProcQ s₁.prio p x s₁.readyQueue).mp hx

theorem within_setSemd {j : SemdPtr} {d : Semd} (hd : ∀ p ∈ d.sProcq, s.holds p) : Within s (s.setSemd j d) := by
  refine within_queues rfl rfl fun q hq => ?_
  rcases hq with hready | ⟨i, hi⟩ | hcur
  · exact .inl hready
  · by_cases hij : i = j
    · subst hij
      exact hd q (by simpa [setSemd] using hi)
    · exact .inr (.inl ⟨i, by simpa [setSemd, hij] using hi⟩)
  · exact .inr (.inr hcur)

theorem within_reclaim (j : SemdPtr) (s : Nucleus) : Within s (reclaim j s) := by
  unfold reclaim
  split
  · exact within_queues rfl rfl fun _ h => h
  · exact .refl s

theorem within_insertBlocked {c : PcbPtr} (hc : s.holds c) (k : Addr) : Within s (insertBlocked k c s).1 := by
  unfold insertBlocked
  split
  · rename_i j _
    refine .trans (within_setSemd (j := j) fun p hp => ?_) (within_setPcb rfl rfl)
    rcases List.mem_append.mp hp with hp | hp
    · exact .inr (.inl ⟨j, hp⟩)
    · rw [List.mem_singleton.mp hp]
      exact hc
  · split
    · exact .refl s
    · rename_i j rest _
      have hset : Within s (s.setSemd j ⟨k, [c]⟩) := within_setSemd fun p hp => by
        rw [List.mem_singleton.mp hp]
        exact hc
      exact @Within.trans s {(s.setSemd j ⟨k, [c]⟩) with semdFreeH := rest, semdH := j :: s.semdH} _
        (hset.trans (within_queues rfl rfl fun _ h => h)) (within_setPcb rfl rfl)

theorem within_removeBlocked (k : Addr) (s : Nucleus) :
    Within s (removeBlocked k s).1 ∧ ∀ p, (removeBlocked k s).2 = some p → s.holds p := by
  unfold removeBlocked
  split
  · exact ⟨.refl s, by simp⟩
  · rename_i j _
    have hset : ∀ q, (∀ p ∈ q, p ∈ (s.semd j).sProcq) →
        Within s (reclaim j (s.setSemd j {s.semd j with sProcq := q})) :=
      fun q hq => .trans (within_setSemd fun p hp => .inr (.inl ⟨j, hq p hp⟩)) (within_reclaim j _)
    cases hq : (s.semd j).sProcq with
    | nil =>
      simp only [removeProcQ, List.tail_nil, List.head?_nil]
      exact ⟨hset [] (by simp), by simp⟩
    | cons p rest =>
      simp only [removeProcQ, List.tail_cons, List.head?_cons]
      refine ⟨(hset rest fun x hx => by simp [hq, hx]).trans (within_setPcb rfl rfl), fun x hx => ?_⟩
      obtain rfl : p = x := Option.some.inj hx
      exact .inr (.inl ⟨j, by simp [hq]⟩)

theorem within_outBlocked {p : PcbPtr} {r : Nucleus × Option PcbPtr} (h : outBlocked p s = some r) :
    Within s r.1 := by
  unfold outBlocked at h
  split at h
  · cases h
    exact .refl s
  · rename_i j _
    simp only [outProcQ] at h
    split_ifs at h with hmem
    · cases h
      have hunblock : Within s (s.setPcb p {s.pcb p with pSemAdd := NULL}) := within_setPcb rfl rfl
      have herase : ∀ q ∈ (s.semd j).sProcq.erase p, s.holds q :=
        fun q hq => .inr (.inl ⟨j, List.mem_of_mem_erase hq⟩)
      exact (hunblock.trans (within_setSemd (j := j) (d := ⟨(s.semd j).sKey, _⟩) herase)).trans (within_reclaim j _)

/-! ### Killing -/

theorem within_outChild (p : PcbPtr) (s : Nucleus) : Within s (outChild p s).1 := by
  unfold outChild
  split
  · exact .refl s
  · let s₁ := {s with pcb := fun q => {s.pcb q with pChild := (s.pcb q).pChild.erase p}}
    have herase : Within s s₁ := ⟨fun _ h => h, fun _ => rfl, fun _ => rfl, rfl⟩
    have hparent : Within s₁ (s₁.setPcb p {s₁.pcb p with pParent := none}) := within_setPcb rfl rfl
    exact herase.trans hparent

theorem within_removeChild (p : PcbPtr) (s : Nucleus) : Within s (removeChild p s).1 := by
  unfold removeChild
  split
  · exact .refl s
  · rename_i child rest _
    let s₁ := s.setPcb p {s.pcb p with pChild := rest}
    have hchild : Within s s₁ := within_setPcb rfl rfl
    have hparent : Within s₁ (s₁.setPcb child {s₁.pcb child with pParent := none}) := within_setPcb rfl rfl
    exact hchild.trans hparent

theorem within_killOne {L : Layout} {p : PcbPtr} (h : killOne L p s = some s') : Within s s' := by
  unfold killOne at h
  obtain ⟨s₁, hs₁, rfl⟩ := Option.map_eq_some_iff.mp h
  have hfree : Within s₁ (freePcb p {s₁ with processCount := s₁.processCount - 1}) :=
    within_queues rfl rfl fun _ h => h
  refine .trans ?_ hfree
  have hchild := within_outChild p s
  split at hs₁
  · obtain ⟨r, hr, rfl⟩ := Option.map_eq_some_iff.mp hs₁
    refine hchild.trans (.trans ?_ (within_outBlocked hr))
    split
    · exact within_queues rfl rfl fun _ h => h
    · exact .refl _
  · cases hs₁
    refine hchild.trans (within_queues rfl rfl fun q hq => ?_)
    rcases hq with hready | hrest
    · refine .inl ?_
      simp only [outProcQ] at hready
      split at hready
      · exact List.mem_of_mem_erase hready
      · exact hready
    · exact .inr hrest

/-- Killing a tree only takes processes away. -/
theorem within_kill (L : Layout) (n : Nat) :
    (∀ p s s', killProcess L n p s = some s' → Within s s') ∧
      ∀ p s s', killChildren L n p s = some s' → Within s s' := by
  have hkill := fun t : Nucleus => kill_invariant (L := L) (P := Within t)
    (fun p s hs => hs.trans (within_removeChild p s)) (fun _ _ _ hs h => hs.trans (within_killOne h)) n
  exact ⟨fun p s s' => (hkill s).1 p s s' (.refl s), fun p s s' => (hkill s).2 p s s' (.refl s)⟩

/-! ### How the handlers leave -/

/-- A handler that passes nothing up leaves in machine mode, and keeps it so. -/
structure Left (s s' : Nucleus) : Prop where
  privileged : s'.Privileged
  control : s'.control.machine
  support : s'.support = s.support

theorem scheduler_left (h : s₁.Privileged) (hsupport : s₁.support = s.support) : Left s (scheduler s₁) := by
  cases hr : s₁.readyQueue with
  | nil =>
    rw [scheduler_nil hr]
    refine ⟨h.within (within_queues rfl rfl fun _ h => h), ?_, hsupport⟩
    unfold MultiPandOS.idle
    split_ifs <;> exact trivial
  | cons p rest =>
    rw [scheduler_cons hr]
    refine ⟨h.within (within_queues rfl rfl fun q hq => ?_), h.state p (.inl (by simp [hr])), hsupport⟩
    rcases hq with hready | hsem | hcur
    · exact .inl (by rw [hr]; exact List.mem_cons_of_mem p hready)
    · exact .inr (.inl hsem)
    · obtain rfl : p = q := Option.some.inj hcur
      exact .inl (by simp [hr])

theorem ldst_left (h : s₁.Privileged) (hsupport : s₁.support = s.support) (st : State)
    (hst : machineMode st.status) : Left s (s₁.ldst st) :=
  ⟨h.within (within_queues rfl rfl fun _ h => h), hst, hsupport⟩

section Handlers
variable {L : Layout} {e : Trap} {c : PcbPtr}

/-- Everything but the process `p` is as before. -/
theorem Privileged.step (h : s.Privileged) {p : PcbPtr} (hholds : ∀ q, s'.holds q → q = p ∨ s.holds q)
    (hsame : ∀ q, q ≠ p → (s'.pcb q).pS.status = (s.pcb q).pS.status ∧
      (s'.pcb q).pSupportStruct = (s.pcb q).pSupportStruct)
    (hsupport : s'.support = s.support) (hstate : machineMode (s'.pcb p).pS.status)
    (hcontext : s'.holds p → (s'.pcb p).pSupportStruct ≠ NULL →
      ∀ i, machineMode ((s'.support (s'.pcb p).pSupportStruct).supExceptContext i).status) : s'.Privileged := by
  constructor
  · intro q hq
    by_cases hqp : q = p
    · exact hqp ▸ hstate
    · rw [(hsame q hqp).1]
      exact h.state q ((hholds q hq).resolve_left hqp)
  · intro q hq
    by_cases hqp : q = p
    · subst hqp
      exact hcontext hq
    · rw [(hsame q hqp).2, hsupport]
      exact h.context q ((hholds q hq).resolve_left hqp)

/-- The caller's state is saved. -/
theorem Privileged.save (h : s.Privileged) {st : State} (hst : machineMode st.status) (c : PcbPtr) :
    (s.setPcb c {s.pcb c with pS := st}).Privileged := by
  have hself : (s.setPcb c {s.pcb c with pS := st}).pcb c = {s.pcb c with pS := st} := Function.update_self c _ _
  have hother : ∀ q, q ≠ c → (s.setPcb c {s.pcb c with pS := st}).pcb q = s.pcb q :=
    fun q hq => Function.update_of_ne hq _ _
  refine h.step (p := c) (fun q hq => .inr hq) (fun q hq => by simp [hother q hq]) rfl ?_ fun hc => ?_
  · rw [hself]
    exact hst
  · rw [hself]
    exact h.context c hc

theorem within_suspend (e : Trap) (c : PcbPtr) (s : Nucleus) :
    Within (s.setPcb c {s.pcb c with pS := e.state.advance}) (suspend e c s) := by
  let s₁ := s.setPcb c {s.pcb c with pS := e.state.advance}
  let s₂ := s₁.setPcb c {s₁.pcb c with pTime := (s₁.pcb c).pTime + updateTime e getPRID s₁}
  have htime : Within s₁ s₂ := within_setPcb rfl rfl
  refine htime.trans (within_queues rfl rfl fun q hq => ?_)
  rcases hq with hready | hsem | hcur
  · exact .inl hready
  · exact .inr (.inl hsem)
  · cases hcur

theorem Privileged.suspend (h : s.Privileged) (he : machineMode e.state.status) (c : PcbPtr) :
    (suspend e c s).Privileged :=
  @Privileged.within _ _ (@Privileged.save s h e.state.advance he c) (within_suspend e c s)

theorem createProcess_left (h : s.Privileged) (he : machineMode e.state.status)
    (hst : machineMode e.argState.status)
    (hsup : e.state.regA3 ≠ NULL → ∀ i, machineMode ((s.support e.state.regA3).supExceptContext i).status) :
    Left s (createProcess e c s) := by
  have ha3 : ∀ w, (e.state.setA0 w).regA3 = e.state.regA3 := fun w => by simp [State.regA3, State.setA0]
  unfold createProcess allocPcb
  cases hfree : s.pcbFreeH with
  | nil => exact ldst_left h rfl _ he
  | cons p rest =>
    refine ⟨h.step (p := p) (fun q hq => ?_) (fun q hq => ?_) rfl ?_ fun _ => ?_, he, rfl⟩
    · rcases hq with hready | hrest
      · rcases (mem_insertProcQ _ _ _ _).mp hready with hqp | hq
        · exact .inl hqp
        · exact .inr (.inl hq)
      · exact .inr (.inr hrest)
    · by_cases hqc : q = c
      · subst hqc
        simp [ldst, enqueue, insertChild, setPcb, hq]
      · simp [ldst, enqueue, insertChild, setPcb, hq, hqc]
    · by_cases hpc : p = c
      · subst hpc
        simpa [ldst, enqueue, insertChild, setPcb, copyState] using hst
      · simpa [ldst, enqueue, insertChild, setPcb, copyState, hpc] using hst
    · by_cases hpc : p = c
      · subst hpc
        simpa [ldst, enqueue, insertChild, setPcb, ha3] using hsup
      · simpa [ldst, enqueue, insertChild, setPcb, hpc, ha3] using hsup

theorem passeren_left (h : s.Privileged) (he : machineMode e.state.status) (hc : s.currentProcess = some c) :
    Left s (passeren e c s) := by
  unfold passeren
  by_cases hv : (s.mem e.state.regA1).toInt ≤ 0
  · simp only [hv, if_true]
    have hblock := within_insertBlocked (.inr (.inr hc)) e.state.regA1
    exact scheduler_left ((h.within hblock).suspend he c) hblock.support
  · simp only [hv, if_false]
    have htake : Within s (s.setMem e.state.regA1 (s.mem e.state.regA1 - 1)) :=
      within_queues rfl rfl fun _ h => h
    exact ldst_left (h.within htake) htake.support e.state.advance he

/-- The head of a queue is made ready. -/
theorem within_wake (k : Addr) (s : Nucleus) :
    ∀ p, (removeBlocked k s).2 = some p → Within s ((removeBlocked k s).1.enqueue p) := by
  intro p hp
  obtain ⟨hw, hholds⟩ := within_removeBlocked k s
  exact hw.enqueue (hholds p hp)

theorem verhogen_left (h : s.Privileged) (he : machineMode e.state.status) : Left s (verhogen e s) := by
  have hremove := (within_removeBlocked e.state.regA1 s).1
  have hwake := within_wake e.state.regA1 s
  cases hr : removeBlocked e.state.regA1 s with
  | mk s₁ unlocked =>
    rw [hr] at hremove hwake
    simp only [verhogen, hr]
    cases unlocked with
    | none =>
      have hgive : Within s (s₁.setMem e.state.regA1 (s₁.mem e.state.regA1 + 1)) :=
        hremove.trans (within_queues rfl rfl fun _ h => h)
      exact ldst_left (h.within hgive) hgive.support _ he
    | some p => exact ldst_left (h.within (hwake p rfl)) (hwake p rfl).support _ he

theorem waitDevSem_privileged (h : s.Privileged) (he : machineMode e.state.status)
    (hc : s.currentProcess = some c) (sem : Addr) :
    (waitDevSem e c sem s).Privileged ∧ (waitDevSem e c sem s).support = s.support := by
  have htake : ∃ s₁, Within s s₁ ∧ waitDevSem e c sem s =
      {(suspend e c s₁) with softBlockCount := (suspend e c s₁).softBlockCount + 1} := by
    by_cases hv : (s.mem sem).toInt ≤ 0
    · exact ⟨_, within_insertBlocked (.inr (.inr hc)) sem, by simp only [waitDevSem, hv, if_true]⟩
    · exact ⟨s.setMem sem (s.mem sem - 1), within_queues rfl rfl fun _ h => h, by
        simp only [waitDevSem, hv, if_false]⟩
  obtain ⟨s₁, hw, hres⟩ := htake
  rw [hres]
  exact ⟨((h.within hw).suspend he c).within (within_queues rfl rfl fun _ h => h), hw.support⟩

theorem yield_left (h : s.Privileged) (he : machineMode e.state.status) (hc : s.currentProcess = some c) :
    Left s (yield e c s) := by
  let saved := s.setPcb c {s.pcb c with pS := e.state.advance}
  have hsaved : saved.Privileged := @Privileged.save s h e.state.advance he c
  have hw : Within saved (suspend e c s) := within_suspend e c s
  have hheld : saved.holds c := .inr (.inr hc)
  unfold yield
  by_cases hempty : (suspend e c s).readyQueue.isEmpty
  · simp only [hempty, if_true]
    exact scheduler_left (hsaved.within (hw.enqueue hheld)) rfl
  · simp only [hempty, if_false, Bool.false_eq_true]
    refine scheduler_left (hsaved.within (hw.ready hheld fun x hx => ?_)) rfl
    rcases List.mem_append.mp hx with hx | hx
    · exact .inr hx
    · exact .inl (List.mem_singleton.mp hx)

theorem termProcess_left (h : s.Privileged) (he : machineMode e.state.status) {s' : Nucleus}
    (hstep : termProcess L e c s = some s') : Left s s' := by
  obtain ⟨target, -, hterm⟩ := Option.bind_eq_some_iff.mp hstep
  obtain ⟨s₁, hkilled, rfl⟩ := Option.map_eq_some_iff.mp hterm
  have hw : Within s s₁ := by
    cases target with
    | none =>
      obtain rfl : s = s₁ := Option.some.inj hkilled
      exact .refl s
    | some r => exact (within_kill L killFuel).1 r s s₁ hkilled
  split
  · exact scheduler_left (h.within hw.nobody) hw.support
  · exact ldst_left (h.within hw) hw.support _ he

theorem serve_left (h : s.Privileged) (he : machineMode e.state.status) (hc : s.currentProcess = some c)
    {sv : Service} (hcreate : sv = .createProcess → machineMode e.argState.status ∧
      (e.state.regA3 ≠ NULL → ∀ i, machineMode ((s.support e.state.regA3).supExceptContext i).status))
    {s' : Nucleus} (hstep : serve L e c s sv = some s') : Left s s' := by
  cases sv with
  | createProcess =>
    cases hstep
    exact createProcess_left h he (hcreate rfl).1 (hcreate rfl).2
  | termProcess => exact termProcess_left h he hstep
  | passeren =>
    cases hstep
    exact passeren_left h he hc
  | verhogen =>
    cases hstep
    exact verhogen_left h he
  | doio =>
    cases hstep
    have hdev : (s.writeDev e.state.regA1 e.state.regA2).Privileged := h.within (within_queues rfl rfl fun _ h => h)
    obtain ⟨hpriv, hsupport⟩ := waitDevSem_privileged hdev he (c := c) hc
      (L.devSem (findDeviceIndex e.state.regA1))
    exact scheduler_left hpriv hsupport
  | getTime =>
    rw [serve, getTime] at hstep
    split at hstep
    · cases hstep
    · cases hstep
    · cases hstep
      exact ldst_left h rfl _ he
  | clockWait =>
    cases hstep
    obtain ⟨hpriv, hsupport⟩ := waitDevSem_privileged h he hc (L.devSem PSEUDOINDEX)
    exact scheduler_left hpriv hsupport
  | getSupportPtr =>
    cases hstep
    exact ldst_left h rfl _ he
  | getProcessId =>
    cases hstep
    exact ldst_left h rfl _ he
  | yield =>
    cases hstep
    exact yield_left h he hc

theorem resume_left (h : s₁.Privileged) (hsupport : s₁.support = s.support) {st : State}
    (hst : machineMode st.status) : Left s (resume st s₁) := by
  unfold resume
  split
  · exact ⟨h.within (within_queues rfl rfl fun _ h => h), hst, hsupport⟩
  · exact scheduler_left h hsupport

theorem within_completeDevice (sem : Addr) (status : Word) (s : Nucleus) :
    Within s (completeDevice sem status s) := by
  have hremove := within_removeBlocked sem s
  unfold completeDevice
  cases hr : removeBlocked sem s with
  | mk s₁ unblocked =>
    rw [hr] at hremove
    cases unblocked with
    | none => exact hremove.1.trans (within_queues rfl rfl fun _ h => h)
    | some p =>
      let s₂ := s₁.setPcb p {s₁.pcb p with pS := (s₁.pcb p).pS.setA0 status}
      have hstatus : Within s₁ s₂ := within_setPcb rfl rfl
      exact ((hremove.1.trans hstatus).enqueue (hremove.2 p rfl)).trans (within_queues rfl rfl fun _ h => h)

theorem within_clockTick (L : Layout) (n : Nat) :
    ∀ s s', clockTick L n s = some s' → Within s s' := by
  intro s s' h
  refine clockTick_invariant (P := Within s) (fun t t₁ p ht hrem => ?_) (fun t t₁ ht hrem => ?_) (.refl s) h
  · have hwake := within_wake L.clock t
    rw [hrem] at hwake
    exact (ht.trans (hwake p rfl)).trans (within_queues rfl rfl fun _ h => h)
  · have hremove := (within_removeBlocked L.clock t).1
    rw [hrem] at hremove
    exact ht.trans hremove

theorem interruptHandler_left (h : s.Privileged) (he : machineMode e.state.status) {s' : Nucleus}
    (hstep : interruptHandler L e s = some s') : Left s s' := by
  have hsame : ∀ {s₁ : Nucleus}, s₁.pcb = s.pcb → s₁.support = s.support →
      (∀ p, s₁.holds p → s.holds p) → s₁.Privileged := fun hpcb hsup hh => h.within (within_queues hpcb hsup hh)
  unfold interruptHandler at hstep
  split at hstep
  · cases hstep
    exact ⟨hsame rfl rfl fun _ h => h, trivial, rfl⟩
  · rename_i line _
    split_ifs at hstep with h1 h2
    · unfold handlePLT at hstep
      split at hstep
      · cases hstep
      · rename_i c hc
        cases hstep
        let saved := s.setPcb c {s.pcb c with pS := e.state}
        have hsaved : saved.Privileged := h.save he c
        have hheld : saved.holds c := .inr (.inr hc)
        exact scheduler_left (hsaved.within ((Within.refl saved).enqueue hheld)) rfl
    · obtain ⟨s₁, hs₁, rfl⟩ := Option.map_eq_some_iff.mp hstep
      have hw := within_clockTick L _ s s₁ hs₁
      exact resume_left (h.within hw) hw.support he
    · unfold handleDevice at hstep
      split at hstep
      · cases hstep
        exact ⟨hsame rfl rfl fun _ h => h, trivial, rfl⟩
      · split at hstep
        · cases hstep
        · rename_i status command reg _
          cases hstep
          have hack : Within s (s.writeDev command ACK) := within_queues rfl rfl fun _ h => h
          split
          · have hw := hack.trans (within_completeDevice (L.devSem (findDeviceIndex reg)) status _)
            exact resume_left (h.within hw) hw.support he
          · exact resume_left (h.within hack) hack.support he

/-- A pass-up saves the trap's state and starts the handler, or kills the process. -/
theorem passUpOrDie_left (h : s.Privileged) {index : Fin 2} {st : State} {s' : Nucleus}
    (hstep : passUpOrDie L index st s = some s') :
    s'.Privileged ∧ s'.control.machine ∧ ∃ c, s.currentProcess = some c ∧
      ∀ a i, ((s'.support a).supExceptState i) =
        if a = (s.pcb c).pSupportStruct ∧ a ≠ NULL ∧ i = index then st else (s.support a).supExceptState i := by
  unfold passUpOrDie at hstep
  split at hstep
  · cases hstep
  · rename_i c hc
    by_cases hsup : (s.pcb c).pSupportStruct = NULL
    · simp only [hsup, if_true] at hstep
      obtain ⟨s₁, hkill, rfl⟩ := Option.map_eq_some_iff.mp hstep
      have hw := (within_kill L killFuel).1 c s s₁ hkill
      have hleft : Left s (scheduler {s₁ with currentProcess := none}) :=
        scheduler_left (h.within hw.nobody) hw.support
      refine ⟨hleft.privileged, hleft.control, c, hc, fun a i => ?_⟩
      have hno : ¬ (a = (s.pcb c).pSupportStruct ∧ a ≠ NULL ∧ i = index) := by
        rintro ⟨rfl, hne, -⟩
        exact hne hsup
      rw [if_neg hno, hleft.support]
    · simp only [hsup, if_false] at hstep
      cases hstep
      have hcontext : ∀ a, ((Function.update s.support (s.pcb c).pSupportStruct
          {s.support (s.pcb c).pSupportStruct with
            supExceptState := Function.update (s.support (s.pcb c).pSupportStruct).supExceptState index
              (copyState st)}) a).supExceptContext = (s.support a).supExceptContext := by
        intro a
        by_cases ha : a = (s.pcb c).pSupportStruct
        · subst ha
          simp
        · simp [ha]
      refine ⟨⟨h.state, fun p hp hne i => ?_⟩, h.context c (.inr (.inr hc)) hsup index, c, hc, fun a i => ?_⟩
      · have := h.context p hp hne i
        rwa [← congrFun (hcontext _) i] at this
      · by_cases ha : a = (s.pcb c).pSupportStruct
        · subst ha
          by_cases hi : i = index
          · subst hi
            simp [hsup]
          · simp [hi]
        · simp [ha]

end Handlers

end Nucleus

end MultiPandOS
