import MultiPandOS.Nucleus.ClockTick

/-! What the handlers do to the view.

`Trap.kind` says which handler a trap reaches and `Acted` which acts that handler
then performs; `handler_acts` shows it for every trap within the rule of
`Allowed`, from every `Sound` state. The handler is then never refused and
leaves in one of two ways: back to the process that was running, or through the
scheduler (`Leaves`). -/
namespace MultiPandOS
open Forest

/-! ### What a trap asks for -/

inductive Kind where
  | interrupt (line : Option Nat)
  | service (sv : Service)
  | passUp (index : Fin 2) (st : State)
  | ignored

/-- Where `exceptionHandler` and `syscallHandler` send a trap. -/
def Trap.kind (e : Trap) : Kind :=
  let causeCode := (e.state.cause &&& CAUSE_EXCCODE_MASK).toNat
  if e.state.cause &&& CAUSE_INTERRUPT_BIT ≠ 0 then .interrupt (calcIntLineNo e.state.cause)
  else if causeCode ≥ 24 ∧ causeCode ≤ 28 then .passUp PGFAULTEXCEPT e.state
  else if causeCode = 8 ∨ causeCode = 11 then
    if unprivileged e.state then .passUp GENERALEXCEPT (setPrivInstr e.state)
    else
      match Service.ofWord e.state.regA0 with
      | some sv => .service sv
      | none => .passUp GENERALEXCEPT e.state.advance
  else if causeCode ≤ 7 ∨ causeCode = 9 ∨ causeCode = 10 ∨ (causeCode ≥ 12 ∧ causeCode ≤ 23) then
    .passUp GENERALEXCEPT e.state
  else .ignored

/-- The arms of `syscallHandler`. -/
def serve (L : Layout) (e : Trap) (c : PcbPtr) (s : Nucleus) : Service → Option Nucleus
  | .createProcess => some (createProcess e c s)
  | .termProcess => termProcess L e c s
  | .passeren => some (passeren e c s)
  | .verhogen => some (verhogen e s)
  | .doio => some (doio L e c s)
  | .getTime => getTime e s
  | .clockWait => some (clockWait L e c s)
  | .getSupportPtr => some (getSupportPtr e c s)
  | .getProcessId => some (getProcessId e c s)
  | .yield => some (yield e c s)

theorem exceptionHandler_kind (L : Layout) (e : Trap) (s : Nucleus) :
    exceptionHandler L e s = match e.kind with
      | .interrupt _ => interruptHandler L e s
      | .service sv => s.currentProcess.bind fun c => serve L e c s sv
      | .passUp index st => passUpOrDie L index st s
      | .ignored => none := by
  unfold exceptionHandler Trap.kind
  by_cases hint : e.state.cause &&& CAUSE_INTERRUPT_BIT ≠ 0
  · simp only [if_pos hint]
  simp only [if_neg hint]
  by_cases htlb : (e.state.cause &&& CAUSE_EXCCODE_MASK).toNat ≥ 24 ∧
      (e.state.cause &&& CAUSE_EXCCODE_MASK).toNat ≤ 28
  · simp only [if_pos htlb]
  simp only [if_neg htlb]
  by_cases hsys : (e.state.cause &&& CAUSE_EXCCODE_MASK).toNat = 8 ∨
      (e.state.cause &&& CAUSE_EXCCODE_MASK).toNat = 11
  · simp only [if_pos hsys, syscallHandler]
    by_cases hpriv : unprivileged e.state
    · simp only [if_pos hpriv]
    · simp only [if_neg hpriv]
      cases hsv : Service.ofWord e.state.regA0 with
      | none => cases hcur : s.currentProcess <;> simp only [passUpOrDie, hcur]
      | some sv =>
        cases hcur : s.currentProcess with
        | none => rfl
        | some c => cases sv <;> rfl
  · simp only [if_neg hsys]
    split <;> rfl

/-! ### The rule -/

/-- The command registers of the devices: one each on lines 3 to 6, one for each
sub-device of a terminal. -/
def commandRegs : List Addr :=
  (List.range 4).flatMap (fun i => (List.range 8).map fun n => devRegAddr (i + 3) n + 0x4) ++
    (List.range 8).flatMap fun n => [devRegAddr 7 n + 0x4, devRegAddr 7 n + 0xC]

/-- What TERMPROCESS may be asked for: the id is looked up without a wild pointer, and
it is not that of a proper ancestor of the caller. -/
def TermOk (s : Nucleus) (e : Trap) (c : PcbPtr) : Prop :=
  ∃ target, termTarget e c s = some target ∧ ∀ r, target = some r → Below s.links r c → r = c

def ServiceOk (L : Layout) (s : Nucleus) (e : Trap) : Service → Prop
  | .passeren => e.state.regA1 ≠ NULL ∧ ¬ L.isDevSem e.state.regA1
  | .verhogen => e.state.regA1 ≠ NULL ∧ ¬ L.isDevSem e.state.regA1
  | .doio => e.state.regA1 ∈ commandRegs
  | .getTime => ∃ p, findProcess (BitVec.ofNat 32 getPRID.val) s = some (some p)
  | _ => True

/-- The processor is executing a process or waiting for an interrupt. -/
def Control.interruptible : Control → Bool
  | .ldst _ => true
  | .ldcxt _ => true
  | .wait => true
  | _ => false

/-- The device of `line` that interrupts, and what its handler finds done. -/
def Trap.served (e : Trap) (line : Nat) : Option (Word × Addr × Addr) :=
  (calcDevNo line e.bus).bind fun devNo => servedDevice line (devRegAddr line devNo) e.bus

/-- The traps the nucleus is meant for: exceptions and the PLT interrupt come from a
running process, the other interrupts also while the processor waits; a service call
satisfies `ServiceOk`, and `Term` if it is TERMPROCESS; an interrupting device has
something done. -/
def KindOk (L : Layout) (Term : Nucleus → Trap → PcbPtr → Prop) (s : Nucleus) (e : Trap) : Kind → Prop
  | .interrupt none => False
  | .interrupt (some line) =>
    if line = 1 then s.control.running = true
    else s.control.interruptible = true ∧ (line ≠ 2 → (e.served line).isSome = true)
  | .service sv =>
    s.control.running = true ∧ ServiceOk L s e sv ∧
      (sv = .termProcess → ∀ c, s.currentProcess = some c → Term s e c)
  | .passUp _ _ => s.control.running = true
  | .ignored => False

def Admissible (L : Layout) (Term : Nucleus → Trap → PcbPtr → Prop) (s : Nucleus) (e : Trap) : Prop :=
  KindOk L Term s e e.kind

/-- `ServiceOk` without the restriction of PASSEREN and VERHOGEN to semaphores outside
`deviceSemaphore`. -/
def ServiceSafe (s : Nucleus) (e : Trap) : Service → Prop
  | .passeren => e.state.regA1 ≠ NULL
  | .verhogen => e.state.regA1 ≠ NULL
  | .doio => e.state.regA1 ∈ commandRegs
  | .getTime => ∃ p, findProcess (BitVec.ofNat 32 getPRID.val) s = some (some p)
  | _ => True

def KindSafe (L : Layout) (Term : Nucleus → Trap → PcbPtr → Prop) (s : Nucleus) (e : Trap) : Kind → Prop
  | .service sv =>
    s.control.running = true ∧ ServiceSafe s e sv ∧
      (sv = .termProcess → ∀ c, s.currentProcess = some c → Term s e c)
  | k => KindOk L Term s e k

/-- The traps that no handler goes astray on. -/
def Allowed (L : Layout) (Term : Nucleus → Trap → PcbPtr → Prop) (s : Nucleus) (e : Trap) : Prop :=
  KindSafe L Term s e e.kind

/-- A narrower rule of TERMPROCESS. -/
theorem Allowed.mono {L : Layout} {Term Term' : Nucleus → Trap → PcbPtr → Prop} {s : Nucleus} {e : Trap}
    (h : Allowed L Term s e) (hle : ∀ c, Term s e c → Term' s e c) : Allowed L Term' s e := by
  unfold Allowed at h ⊢
  cases hk : e.kind with
  | service sv =>
    simp only [hk, KindSafe] at h ⊢
    exact ⟨h.1, h.2.1, fun hsv c hc => hle c (h.2.2 hsv c hc)⟩
  | interrupt line =>
    cases line with
    | none => simp only [hk, KindSafe, KindOk] at h
    | some line => simpa only [hk, KindSafe, KindOk] using h
  | passUp => simpa only [hk, KindSafe, KindOk] using h
  | ignored => simp only [hk, KindSafe, KindOk] at h

theorem Admissible.allowed {L : Layout} {Term : Nucleus → Trap → PcbPtr → Prop} {s : Nucleus} {e : Trap}
    (h : Admissible L Term s e) : Allowed L Term s e := by
  unfold Admissible at h
  unfold Allowed
  cases hk : e.kind with
  | service sv =>
    simp only [hk, KindOk] at h
    refine ⟨h.1, ?_, h.2.2⟩
    cases sv with
    | passeren => exact h.2.1.1
    | verhogen => exact h.2.1.1
    | _ => exact h.2.1
  | interrupt line => simpa only [hk, KindSafe] using h
  | passUp => simpa only [hk, KindSafe] using h
  | ignored => simpa only [hk, KindSafe] using h

instance (L : Layout) (a : Addr) : Decidable (L.isDevSem a) :=
  inferInstanceAs (Decidable (∃ i : Nat, i < SEMDEVLEN ∧ a = L.devSem i))

instance (L : Layout) (s : Nucleus) (e : Trap) : (sv : Service) → Decidable (ServiceOk L s e sv)
  | .passeren => inferInstanceAs (Decidable (_ ∧ _))
  | .verhogen => inferInstanceAs (Decidable (_ ∧ _))
  | .doio => inferInstanceAs (Decidable (_ ∈ _))
  | .getTime => inferInstanceAs (Decidable (∃ p, _ = some (some p)))
  | .createProcess => isTrue trivial
  | .termProcess => isTrue trivial
  | .clockWait => isTrue trivial
  | .getSupportPtr => isTrue trivial
  | .getProcessId => isTrue trivial
  | .yield => isTrue trivial

instance (L : Layout) (Term : Nucleus → Trap → PcbPtr → Prop) [∀ s e c, Decidable (Term s e c)]
    (s : Nucleus) (e : Trap) : (k : Kind) → Decidable (KindOk L Term s e k)
  | .interrupt none => isFalse id
  | .interrupt (some line) => inferInstanceAs (Decidable (if line = 1 then _ else _))
  | .service _ => inferInstanceAs (Decidable (_ ∧ _ ∧ _))
  | .passUp _ _ => inferInstanceAs (Decidable (_ = _))
  | .ignored => isFalse id

instance (L : Layout) (Term : Nucleus → Trap → PcbPtr → Prop) [∀ s e c, Decidable (Term s e c)]
    (s : Nucleus) (e : Trap) : Decidable (Admissible L Term s e) :=
  inferInstanceAs (Decidable (KindOk L Term s e e.kind))

instance (s : Nucleus) (e : Trap) : (sv : Service) → Decidable (ServiceSafe s e sv)
  | .passeren => inferInstanceAs (Decidable (_ ≠ _))
  | .verhogen => inferInstanceAs (Decidable (_ ≠ _))
  | .doio => inferInstanceAs (Decidable (_ ∈ _))
  | .getTime => inferInstanceAs (Decidable (∃ p, _ = some (some p)))
  | .createProcess => isTrue trivial
  | .termProcess => isTrue trivial
  | .clockWait => isTrue trivial
  | .getSupportPtr => isTrue trivial
  | .getProcessId => isTrue trivial
  | .yield => isTrue trivial

instance (L : Layout) (Term : Nucleus → Trap → PcbPtr → Prop) [∀ s e c, Decidable (Term s e c)]
    (s : Nucleus) (e : Trap) : (k : Kind) → Decidable (KindSafe L Term s e k)
  | .service _ => inferInstanceAs (Decidable (_ ∧ _ ∧ _))
  | .interrupt line => inferInstanceAs (Decidable (KindOk L Term s e (.interrupt line)))
  | .passUp index st => inferInstanceAs (Decidable (KindOk L Term s e (.passUp index st)))
  | .ignored => inferInstanceAs (Decidable (KindOk L Term s e .ignored))

instance (L : Layout) (Term : Nucleus → Trap → PcbPtr → Prop) [∀ s e c, Decidable (Term s e c)]
    (s : Nucleus) (e : Trap) : Decidable (Allowed L Term s e) :=
  inferInstanceAs (Decidable (KindSafe L Term s e e.kind))

/-! ### Sound states -/

/-- The states in which the nucleus gives up the processor. -/
structure Sound (s : Nucleus) : Prop where
  asl : Asl s
  ok : s.view.Ok
  current : s.view.CurrentOk
  control : s.control.running = s.currentProcess.isSome

/-- Nobody waits for the clock twice, or is ready as well. -/
theorem Sound.asleep_nodup {L : Layout} {s : Nucleus} (h : Sound s) :
    (waiting L.clock s ++ s.readyQueue).Nodup :=
  List.nodup_append.mpr ⟨h.ok.waiting_nodup L.clock, h.ok.ready_nodup, fun _ hp _ hq he =>
    h.ok.unready hp (he ▸ hq)⟩

/-- The traps after which every process may still be where it was. -/
def Kind.quiet : Kind → Bool
  | .service .createProcess => true
  | .service .termProcess => true
  | .service .getTime => true
  | .service .getSupportPtr => true
  | .service .getProcessId => true
  | .passUp _ _ => true
  | _ => false

/-- The acts of the handler a trap reaches. -/
inductive Acted (L : Layout) (e : Trap) (s : Nucleus) : List Act → Prop where
  | preempt : e.kind = .interrupt (some 1) → Acted L e s [.requeue]
  | tick : e.kind = .interrupt (some 2) →
      Acted L e s (List.replicate (waiting L.clock s).length (.wake L.clock 1))
  | complete {line status command reg} : e.kind = .interrupt (some line) → line ≠ 1 → line ≠ 2 →
      e.served line = some (status, command, reg) →
      Acted L e s [if waiting (L.devSem (findDeviceIndex reg)) s = [] then .give (L.devSem (findDeviceIndex reg))
        else .wake (L.devSem (findDeviceIndex reg)) 1]
  | create : e.kind = .service .createProcess → Acted L e s [.create]
  | terminate {c r ks} {caller : Bool} : e.kind = .service .termProcess → s.currentProcess = some c →
      termTarget e c s = some (some r) → (∀ q, q ∈ ks ↔ Below s.links r q) → (caller = true ↔ r = c) →
      Acted L e s [.kill ks caller]
  | die {c ks index st} : e.kind = .passUp index st → s.currentProcess = some c →
      (s.pcb c).pSupportStruct = NULL → (∀ q, q ∈ ks ↔ Below s.links c q) → Acted L e s [.kill ks true]
  | passeren : e.kind = .service .passeren →
      Acted L e s [if (s.mem e.state.regA1).toInt ≤ 0 then .block e.state.regA1 0 else .take e.state.regA1]
  | verhogen : e.kind = .service .verhogen →
      Acted L e s [if waiting e.state.regA1 s = [] then .give e.state.regA1 else .wake e.state.regA1 0]
  | waitDevSem {k} : (e.kind = .service .doio ∧ k = L.devSem (findDeviceIndex e.state.regA1)) ∨
      (e.kind = .service .clockWait ∧ k = L.clock) →
      Acted L e s [if (s.mem k).toInt ≤ 0 then .block k 1 else .drop k]
  | yield : e.kind = .service .yield → Acted L e s [.requeue]
  | none : e.kind.quiet → Acted L e s []

/-- What the scheduler does without a ready process. -/
def idle (count soft : Word) : Control :=
  if count = 0 then .halt else if count > 0 ∧ soft > 0 then .wait else .panic

/-- How a handler leaves once its acts are done. -/
inductive Leaves (v : View) (s' : Nucleus) : Prop where
  | resume : v.current.isSome → s'.view = v → s'.control.running → Leaves v s'
  | dispatch : v.current = none → s'.view = v.dispatch →
      (v.ready = [] → s'.control = idle v.count v.soft) →
      (∀ p rest, v.ready = p :: rest → s'.control = .ldst (s'.pcb p).pS) → Leaves v s'

/-- What is to be shown of every handler. -/
def Outcome (L : Layout) (e : Trap) (s : Nucleus) (result : Option Nucleus) : Prop :=
  ∃ s' as v, result = some s' ∧ Asl s' ∧ Acted L e s as ∧ Acts L.clock as s.view v ∧ Leaves v s'

/-! ### The pieces of the handlers -/

theorem Acts.one {clock : Addr} {a : Act} {v v' : View} (h : Does clock a v v') : Acts clock [a] v v' :=
  .cons h .nil

theorem scheduler_nil {s : Nucleus} (h : s.readyQueue = []) :
    scheduler s = {s with control := idle s.processCount s.softBlockCount} := by
  unfold scheduler idle
  rw [h]
  simp only [removeProcQ, List.head?_nil]
  split_ifs <;> rfl

theorem scheduler_cons {s : Nucleus} {p : PcbPtr} {rest : List PcbPtr} (h : s.readyQueue = p :: rest) :
    scheduler s =
      {s with readyQueue := rest, currentProcess := some p, control := .ldst (s.pcb p).pS} := by
  unfold scheduler
  rw [h]
  rfl

theorem scheduler_asl {s : Nucleus} (h : Asl s) : Asl (scheduler s) := by
  cases hr : s.readyQueue with
  | nil =>
    rw [scheduler_nil hr]
    exact h.congr rfl rfl rfl
  | cons p rest =>
    rw [scheduler_cons hr]
    exact h.congr rfl rfl rfl

/-- The scheduler overwrites `currentProcess` if somebody is ready. -/
theorem scheduler_leaves {s : Nucleus} {v : View} (hv : {s.view with current := none} = v)
    (hcur : s.currentProcess = none ∨ s.readyQueue ≠ []) : Leaves v (scheduler s) := by
  subst hv
  cases hr : s.readyQueue with
  | nil =>
    have hnone : s.currentProcess = none := by simpa [hr] using hcur
    have hready : s.view.ready = [] := hr
    rw [scheduler_nil hr]
    refine .dispatch rfl ?_ (fun _ => rfl) (fun p rest h => ?_)
    · simp only [View.dispatch, hready]
      exact View.ext rfl hr rfl rfl rfl hnone rfl rfl rfl
    · rw [show s.view.ready = p :: rest from h] at hready
      cases hready
  | cons p rest =>
    have hready : s.view.ready = p :: rest := hr
    rw [scheduler_cons hr]
    refine .dispatch rfl ?_ (fun h => ?_) (fun q rest' h => ?_)
    · simp only [View.dispatch, hready]
      rfl
    · rw [show s.view.ready = [] from h] at hready
      cases hready
    · rw [show s.view.ready = q :: rest' from h] at hready
      obtain ⟨rfl, rfl⟩ := List.cons.inj hready
      rfl

theorem suspend_view (e : Trap) (c : PcbPtr) (s : Nucleus) :
    (suspend e c s).view = {s.view with current := none} := by
  let s₁ := s.setPcb c {s.pcb c with pS := copyState e.state.advance}
  have h₁ : s₁.view = s.view := view_setPcb rfl rfl rfl
  have h₂ : (s₁.setPcb c {s₁.pcb c with pTime := (s₁.pcb c).pTime + updateTime e getPRID s₁}).view = s₁.view :=
    view_setPcb rfl rfl rfl
  show {(s₁.setPcb c {s₁.pcb c with pTime := (s₁.pcb c).pTime + updateTime e getPRID s₁}).view with
    current := none} = _
  rw [h₂, h₁]

theorem suspend_asl {s : Nucleus} (h : Asl s) (e : Trap) (c : PcbPtr) : Asl (suspend e c s) :=
  h.congr rfl rfl rfl

/-- Whoever runs is in no queue. -/
theorem Sound.spread {s : Nucleus} (hs : Sound s) {c : PcbPtr} (hc : s.currentProcess = some c) :
    Spread s c := by
  have hwait : ∀ {j p}, p ∈ (s.semd j).sProcq → j ∈ s.semdH ∧ (s.semd j).sKey = (s.pcb p).pSemAdd := by
    intro j p hp
    obtain ⟨hj, hw⟩ := mem_sProcq hs.asl hp
    exact ⟨hj, ((hs.ok.mem_waiting _ p).mp hw).1.symm⟩
  refine ⟨hs.asl.cover, hs.asl.nonempty, fun i hi j hj x hxi hxj => ?_, fun j hj hcj => ?_⟩
  · exact hs.asl.keys i hi j hj ((hwait hxi).2.trans (hwait hxj).2.symm)
  · exact hs.asl.nonNull j hj ((hwait hcj).2.trans (hs.current c hc).unblocked)

/-- A process in no queue finds a descriptor to block on. -/
theorem Sound.blocked {s : Nucleus} (hs : Sound s) {c : PcbPtr} (hc : s.currentProcess = some c)
    {k : Addr} (hk : k ≠ NULL) :
    Requeued k (waiting k s ++ [c]) c k s (insertBlocked k c s).1 :=
  (insertBlocked_requeued hs.asl hk (hs.spread hc).semdFreeH_ne_nil).2

/-- The view after the caller blocked and was suspended. -/
theorem Sound.block_view {s : Nucleus} (hs : Sound s) {c : PcbPtr} (hc : s.currentProcess = some c)
    {k : Addr} (hk : k ≠ NULL) (e : Trap) :
    (suspend e c (insertBlocked k c s).1).view = s.view.block k c 0 := by
  rw [suspend_view, (hs.blocked hc hk).view]
  exact View.ext rfl rfl rfl rfl rfl rfl rfl (BitVec.add_zero _).symm rfl

/-- Removing the head of a queue and making it ready. -/
theorem wake_view {s : Nucleus} (h : Asl s) {k : Addr} {p : PcbPtr} {rest : List PcbPtr}
    (hq : waiting k s = p :: rest) :
    ∃ s₁, removeBlocked k s = (s₁, some p) ∧ Asl s₁ ∧ s₁.currentProcess = s.currentProcess ∧
      s₁.rest = s.rest ∧
      ∀ d, ∃ q, q.Perm (p :: s.readyQueue) ∧
        {(s₁.enqueue p).view with soft := s₁.softBlockCount - d} = s.view.wake k p rest q d := by
  obtain ⟨hsome, hre⟩ := removeBlocked_requeued h hq
  refine ⟨(removeBlocked k s).1, Prod.ext rfl hsome, hre.asl, by rw [hre.frame], hre.rest, fun d => ?_⟩
  have hready : (removeBlocked k s).1.readyQueue = s.readyQueue := congrArg View.ready hre.view
  refine ⟨insertProcQ (removeBlocked k s).1.prio p (removeBlocked k s).1.readyQueue, ?_, ?_⟩
  · rw [← hready]
    exact insertProcQ_perm _ p _
  · show {(removeBlocked k s).1.view with
      ready := insertProcQ (removeBlocked k s).1.prio p (removeBlocked k s).1.readyQueue
      soft := (removeBlocked k s).1.view.soft - d} = _
    rw [hre.view]
    rfl

/-! ### The handlers, one by one -/

section Handlers
variable {L : Layout} {e : Trap} {s : Nucleus} {c : PcbPtr}

/-- Nothing moves and a process goes on. -/
theorem stay_outcome (hc : s.currentProcess = some c) (ha : Acted L e s []) {s' : Nucleus}
    (hview : s'.view = s.view) (hasl : Asl s') (hrun : s'.control.running) : Outcome L e s (some s') :=
  ⟨s', [], s.view, rfl, hasl, ha, .nil, .resume (by rw [show s.view.current = some c from hc]; rfl) hview hrun⟩

theorem createProcess_outcome (hs : Sound s) (hc : s.currentProcess = some c)
    (hk : e.kind = .service .createProcess) {p : PcbPtr} {rest : List PcbPtr} (hf : s.pcbFreeH = p :: rest) :
    Outcome L e s (some (createProcess e c s)) := by
  have hp : p ∈ s.pcbFreeH := by simp [hf]
  have hcp : c ≠ p := fun hcp => (hs.current c hc).live (hcp ▸ hp)
  let s₁ : Nucleus := {(s.setPcb p (Pcb.fresh s.nextPid)) with pcbFreeH := rest, nextPid := s.nextPid + 1}
  let st := e.state.setA0 (s₁.pcb p).pPid
  let s₂ := s₁.setPcb p {s₁.pcb p with
    pS := copyState e.argState, pPrio := st.regA2, pSupportStruct := st.regA3}
  let s₃ := insertChild c p s₂
  have hres : createProcess e c s =
      Nucleus.ldst st.advance {(s₃.enqueue p) with processCount := s.processCount + 1} := by
    simp only [createProcess, allocPcb, hf]
    rfl
  have hsem : (fun x => (s₃.pcb x).pSemAdd) = s.view.semAdd := by
    funext x
    show (s₃.pcb x).pSemAdd = (s.pcb x).pSemAdd
    by_cases hxp : x = p
    · subst hxp
      have hnull : (s.pcb x).pSemAdd = NULL := hs.ok.free_semAdd x hp
      simp [s₃, s₂, s₁, insertChild, Nucleus.setPcb, hcp.symm, Pcb.fresh, hnull]
    · by_cases hxc : x = c <;> simp [s₃, s₂, s₁, insertChild, Nucleus.setPcb, hxp, hxc, hcp]
  have hlinks : s₃.links = attach c p s.links := by
    have hchild : (s.pcb p).pChild = [] := hs.ok.free_child p hp
    simp only [Nucleus.links, attach, Links.mk.injEq]
    constructor <;> funext x
    · by_cases hxp : x = p
      · subst hxp
        simp [s₃, s₂, s₁, insertChild, Nucleus.setPcb, hcp.symm]
      · by_cases hxc : x = c <;> simp [s₃, s₂, s₁, insertChild, Nucleus.setPcb, hxp, hxc, hcp]
    · by_cases hxc : x = c
      · subst hxc
        simp [s₃, s₂, s₁, insertChild, Nucleus.setPcb, hcp]
      · by_cases hxp : x = p
        · subst hxp
          simp [s₃, s₂, s₁, insertChild, Nucleus.setPcb, hxc, Pcb.fresh, hchild]
        · simp [s₃, s₂, s₁, insertChild, Nucleus.setPcb, hxp, hxc]
  rw [hres]
  refine ⟨_, _, _, rfl, hs.asl.congr rfl rfl rfl, .create hk,
    .one (.create hc hf (insertProcQ_perm s₃.prio p s₃.readyQueue)), .resume ?_ ?_ rfl⟩
  · show s.view.current.isSome
    rw [show s.view.current = some c from hc]
    rfl
  · exact View.ext rfl rfl rfl hsem hlinks rfl rfl rfl rfl

theorem passeren_outcome (hs : Sound s) (hc : s.currentProcess = some c)
    (hk : e.kind = .service .passeren) (hnull : e.state.regA1 ≠ NULL) :
    Outcome L e s (some (passeren e c s)) := by
  have ha := Acted.passeren (L := L) (s := s) hk
  by_cases hv : (s.mem e.state.regA1).toInt ≤ 0
  · rw [if_pos hv] at ha
    refine ⟨_, _, _, rfl, ?_, ha, .one (.block hc hnull), ?_⟩
    · simp only [passeren, if_pos hv]
      exact scheduler_asl (suspend_asl (hs.blocked hc hnull).asl e c)
    · simp only [passeren, if_pos hv]
      refine scheduler_leaves ?_ (Or.inl rfl)
      rw [hs.block_view hc hnull e]
      rfl
  · rw [if_neg hv] at ha
    refine ⟨_, _, _, rfl, ?_, ha, .one .take, ?_⟩
    · simp only [passeren, if_neg hv]
      exact hs.asl.congr rfl rfl rfl
    · simp only [passeren, if_neg hv]
      exact .resume (by rw [show s.view.current = some c from hc]; rfl) rfl rfl

theorem verhogen_outcome (hs : Sound s) (hc : s.currentProcess = some c)
    (hk : e.kind = .service .verhogen) : Outcome L e s (some (verhogen e s)) := by
  have ha := Acted.verhogen (L := L) (s := s) hk
  have hcur : s.view.current = some c := hc
  cases hq : waiting e.state.regA1 s with
  | nil =>
    rw [if_pos hq] at ha
    refine ⟨_, _, _, rfl, ?_, ha, .one .give, .resume (by rw [hcur]; rfl) ?_ rfl⟩
    · simp only [verhogen, removeBlocked_nil hs.asl hq]
      exact hs.asl.congr rfl rfl rfl
    · simp only [verhogen, removeBlocked_nil hs.asl hq]
      rfl
  | cons p rest =>
    rw [if_neg (by simp [hq])] at ha
    obtain ⟨s₁, hrem, hasl, hcur₁, -, hwake⟩ := wake_view hs.asl hq
    obtain ⟨q, hperm, hview⟩ := hwake 0
    refine ⟨_, _, _, rfl, ?_, ha, .one (.wake hq hperm),
      .resume (show s.view.current.isSome by rw [hcur]; rfl) ?_ rfl⟩
    · simp only [verhogen, hrem]
      exact hasl.congr rfl rfl rfl
    · simp only [verhogen, hrem]
      rw [← hview]
      exact View.ext rfl rfl rfl rfl rfl rfl rfl (BitVec.sub_zero _).symm rfl

/-- DOIO and CLOCKWAIT on an entry of `deviceSemaphore` that is not positive. -/
theorem waitDevSem_blocks (hs : Sound s) (hc : s.currentProcess = some c) {k : Addr} (hnull : k ≠ NULL)
    (hv : (s.mem k).toInt ≤ 0) (e : Trap) (writes : List (Addr × Word)) :
    let s' := scheduler (waitDevSem e c k {s with devWrites := writes})
    Asl s' ∧ Leaves (s.view.block k c 1) s' := by
  let s₁ := (insertBlocked k c {s with devWrites := writes}).1
  have hw : waitDevSem e c k {s with devWrites := writes} =
      {(suspend e c s₁) with softBlockCount := (suspend e c s₁).softBlockCount + 1} := by
    simp only [waitDevSem, if_pos hv, s₁]
  have hs' : Sound {s with devWrites := writes} :=
    ⟨hs.asl.congr rfl rfl rfl, hs.ok, hs.current, hs.control⟩
  have hasl : Asl s₁ := (hs'.blocked hc hnull).asl
  have hview : (suspend e c s₁).view = s.view.block k c 0 := hs'.block_view hc hnull e
  rw [hw]
  refine ⟨scheduler_asl ((suspend_asl hasl e c).congr rfl rfl rfl), scheduler_leaves ?_ (Or.inl rfl)⟩
  show {(suspend e c s₁).view with soft := (suspend e c s₁).view.soft + 1, current := none} = _
  rw [hview]
  refine View.ext rfl rfl rfl rfl rfl rfl rfl ?_ rfl
  exact congrArg (· + 1) (BitVec.add_zero s.softBlockCount)

/-- DOIO and CLOCKWAIT, on the entry `k` of `deviceSemaphore`. -/
theorem waitDevSem_outcome (hs : Sound s) (hc : s.currentProcess = some c) {k : Addr} (hnull : k ≠ NULL)
    (hk : (e.kind = .service .doio ∧ k = L.devSem (findDeviceIndex e.state.regA1)) ∨
      (e.kind = .service .clockWait ∧ k = L.clock)) (writes : List (Addr × Word)) :
    Outcome L e s (some (scheduler (waitDevSem e c k {s with devWrites := writes}))) := by
  have ha := Acted.waitDevSem (L := L) (s := s) hk
  by_cases hv : (s.mem k).toInt ≤ 0
  · rw [if_pos hv] at ha
    obtain ⟨hasl, hleaves⟩ := waitDevSem_blocks hs hc hnull hv e writes
    exact ⟨_, _, _, rfl, hasl, ha, .one (.block hc hnull), hleaves⟩
  · rw [if_neg hv] at ha
    let s₁ := Nucleus.setMem {s with devWrites := writes} k (s.mem k - 1)
    have hw : waitDevSem e c k {s with devWrites := writes} =
        {(suspend e c s₁) with softBlockCount := (suspend e c s₁).softBlockCount + 1} := by
      simp only [waitDevSem, if_neg hv, s₁]
    refine ⟨_, _, _, rfl, ?_, ha, .one .drop, ?_⟩
    · rw [hw]
      exact scheduler_asl (hs.asl.congr rfl rfl rfl)
    · rw [hw]
      refine scheduler_leaves ?_ (Or.inl rfl)
      show {(suspend e c s₁).view with soft := (suspend e c s₁).view.soft + 1, current := none} = _
      rw [suspend_view]
      rfl

theorem yield_outcome (hs : Sound s) (hc : s.currentProcess = some c) (hk : e.kind = .service .yield) :
    Outcome L e s (some (yield e c s)) := by
  let s₁ := suspend e c s
  have hview : s₁.view = {s.view with current := none} := suspend_view e c s
  let q := if s₁.readyQueue.isEmpty then insertProcQ s₁.prio c s₁.readyQueue else s₁.readyQueue ++ [c]
  have hq : yield e c s = scheduler {s₁ with readyQueue := q} := by
    simp only [yield, q, s₁]
    split <;> rfl
  have hready : s₁.readyQueue = s.readyQueue := congrArg View.ready hview
  have hperm : q.Perm (c :: s.readyQueue) := by
    simp only [q, hready]
    split
    · exact insertProcQ_perm _ c _
    · exact List.perm_append_singleton c s.readyQueue
  refine ⟨_, _, _, rfl, ?_, .yield hk, .one (.requeue hc hperm), ?_⟩
  · rw [hq]
    exact scheduler_asl ((suspend_asl hs.asl e c).congr rfl rfl rfl)
  · rw [hq]
    refine scheduler_leaves ?_ (Or.inl rfl)
    show {s₁.view with ready := q, current := none} = _
    rw [hview]

theorem handlePLT_outcome (hs : Sound s) (hc : s.currentProcess = some c)
    (hk : e.kind = .interrupt (some 1)) : Outcome L e s (handlePLT e s) := by
  let s₁ := s.setPcb c {s.pcb c with pS := copyState e.state}
  have hview : s₁.view = s.view := view_setPcb rfl rfl rfl
  have hq : handlePLT e s = some (scheduler (s₁.enqueue c)) := by simp only [handlePLT, hc, s₁]
  refine ⟨_, _, _, hq, scheduler_asl (hs.asl.congr rfl rfl rfl), .preempt hk,
    .one (.requeue hc (insertProcQ_perm s₁.prio c s₁.readyQueue)),
    scheduler_leaves ?_ (Or.inr (insertProcQ_ne_nil _ c _))⟩
  show {s₁.view with ready := insertProcQ s₁.prio c s₁.readyQueue, current := none} = _
  rw [hview]

/-- Whoever TERMPROCESS finds is alive. -/
theorem termTarget_live (hs : Sound s) (hc : s.currentProcess = some c) {r : PcbPtr}
    (h : termTarget e c s = some (some r)) : r ∉ s.pcbFreeH := by
  have hlive := (hs.current c hc).live
  unfold termTarget at h
  split at h
  · obtain rfl : c = r := by simpa using h
    exact hlive
  unfold findProcess at h
  simp only [hc] at h
  split at h
  · obtain rfl : c = r := by simpa using h
    exact hlive
  unfold findProcess.inReady at h
  cases hready : s.readyQueue.find? (fun p => (s.pcb p).pPid == e.state.regA1) with
  | some p =>
    simp only [hready, Option.some.injEq] at h
    subst h
    exact hs.ok.ready_live p (List.mem_of_find?_eq_some hready)
  | none =>
    simp only [hready] at h
    unfold findBlockedPcb at h
    cases hH : s.semdH with
    | nil => simp [hH] at h
    | cons j rest =>
      simp only [hH] at h
      cases hj : (s.semd j).sProcq.find? (fun p => (s.pcb p).pPid == e.state.regA1) with
      | none => simp [hj] at h
      | some p =>
        simp only [hj, Option.some.injEq] at h
        subst h
        exact hs.ok.waiting_live (mem_sProcq hs.asl (List.mem_of_find?_eq_some hj)).2

/-- Killing `r` from the process `c`, who is not below it unless it is `c` itself. -/
theorem kill_does (hs : Sound s) (hc : s.currentProcess = some c) {r : PcbPtr} (hr : r ∉ s.pcbFreeH)
    (hanc : Below s.links r c → r = c) :
    ∃ ks s₁, killProcess L killFuel r s = some s₁ ∧ Asl s₁ ∧ s₁.currentProcess = some c ∧
      s₁.rest = s.rest ∧ (∀ q, q ∈ ks ↔ Below s.links r q) ∧
      Does L.clock (.kill ks (r = c)) s.view {s₁.view with current := if r = c then none else s₁.currentProcess} := by
  obtain ⟨ks, s₁, hkill, hk, hks⟩ := killProcess_killed L hs.asl hs.ok hr
  have hcur : s₁.currentProcess = s.currentProcess := congrArg View.current hk.view
  refine ⟨ks, s₁, hkill, hk.asl, hcur.trans hc, hk.rest, hks, ?_⟩
  have hdoes : Does L.clock (.kill ks (r = c)) s.view
      {(s.view.kill L.clock ks) with current := if decide (r = c) then none else s.view.current} := by
    refine .kill hk.nodup hk.live hk.closed fun c' hcur' => ?_
    obtain rfl : c = c' := Option.some.inj (hc.symm.trans hcur')
    rw [hks, decide_eq_true_eq]
    exact ⟨hanc, fun hrc => hrc ▸ .refl⟩
  rw [hcur, hk.view]
  simp only [decide_eq_true_eq] at hdoes
  exact hdoes

theorem terminate_leaves (hs : Sound s) (hc : s.currentProcess = some c) {r : PcbPtr} (hr : r ∉ s.pcbFreeH)
    (hanc : Below s.links r c → r = c) :
    ∃ ks s' v, terminate L e (some r) s = some s' ∧ Asl s' ∧ (∀ q, q ∈ ks ↔ Below s.links r q) ∧
      Does L.clock (.kill ks (r = c)) s.view v ∧ Leaves v s' := by
  obtain ⟨ks, s₁, hkill, hasl, hcur, -, hks, hdoes⟩ := kill_does (L := L) hs hc hr hanc
  by_cases hrc : r = c
  · have hres : terminate L e (some r) s = some (scheduler {s₁ with currentProcess := none}) := by
      rw [hrc] at hkill
      simp only [terminate, hkill, Option.map_some, hcur, hrc, if_true]
    refine ⟨ks, _, _, hres, scheduler_asl (hasl.congr rfl rfl rfl), hks, hdoes,
      scheduler_leaves ?_ (Or.inl rfl)⟩
    rw [if_pos hrc]
    rfl
  · have hres : terminate L e (some r) s = some (s₁.ldst e.state.advance) := by
      simp only [terminate, hkill, Option.map_some, hcur, Option.some.injEq, hrc, if_false]
    refine ⟨ks, _, _, hres, hasl.congr rfl rfl rfl, hks, hdoes, .resume ?_ ?_ rfl⟩
    · simp [hrc, hcur]
    · rw [if_neg hrc]
      rfl

theorem termProcess_outcome (hs : Sound s) (hc : s.currentProcess = some c)
    (hk : e.kind = .service .termProcess) {r : PcbPtr} (htarget : termTarget e c s = some (some r))
    (hanc : Below s.links r c → r = c) : Outcome L e s (termProcess L e c s) := by
  obtain ⟨ks, s', v, hres, hasl, hks, hdoes, hleaves⟩ :=
    terminate_leaves (L := L) (e := e) hs hc (termTarget_live hs hc htarget) hanc
  refine ⟨s', _, v, ?_, hasl, .terminate hk hc htarget hks (by simp), .one hdoes, hleaves⟩
  simp only [termProcess, htarget, Option.bind_some, hres]

/-- A process with a support structure goes on in the handler of its context. -/
theorem passUpOrDie_eq (hc : s.currentProcess = some c) (hsup : (s.pcb c).pSupportStruct ≠ NULL)
    (index : Fin 2) (st : State) :
    passUpOrDie L index st s = some {s with
      support := Function.update s.support (s.pcb c).pSupportStruct
        {s.support (s.pcb c).pSupportStruct with
          supExceptState := Function.update (s.support (s.pcb c).pSupportStruct).supExceptState index st}
      control := .ldcxt ((s.support (s.pcb c).pSupportStruct).supExceptContext index)} := by
  simp only [passUpOrDie, hc, hsup, if_false, copyState_eq]

theorem passUpOrDie_outcome (hs : Sound s) (hc : s.currentProcess = some c) {index : Fin 2} {st : State}
    (hk : e.kind = .passUp index st) : Outcome L e s (passUpOrDie L index st s) := by
  by_cases hsup : (s.pcb c).pSupportStruct = NULL
  · obtain ⟨ks, s₁, hkill, hasl, hcur, -, hks, hdoes⟩ :=
      kill_does (L := L) hs hc (hs.current c hc).live fun _ => rfl
    have hres : passUpOrDie L index st s = some (scheduler {s₁ with currentProcess := none}) := by
      simp only [passUpOrDie, hc, hsup, if_true, hkill, Option.map_some]
    refine ⟨_, _, _, hres, scheduler_asl (hasl.congr rfl rfl rfl),
      (decide_eq_true (rfl : c = c)) ▸ .die hk hc hsup hks, .one hdoes, scheduler_leaves ?_ (Or.inl rfl)⟩
    rw [if_pos rfl]
    rfl
  · rw [passUpOrDie_eq hc hsup]
    exact stay_outcome hc (.none (by rw [hk]; rfl)) rfl
      (hs.asl.congr rfl rfl rfl) rfl

/-! ### Interrupts -/

theorem resume_leaves (st : State) (s : Nucleus) : Leaves s.view (resume st s) := by
  cases hc : s.currentProcess with
  | none =>
    simp only [resume, hc]
    refine scheduler_leaves ?_ (Or.inl hc)
    exact View.ext rfl rfl rfl rfl rfl hc.symm rfl rfl rfl
  | some c =>
    have hres : resume st s = {s with control := .ldst st} := by simp only [resume, hc]
    rw [hres]
    exact .resume (by rw [show s.view.current = some c from hc]; rfl) rfl rfl

theorem resume_asl (st : State) (h : Asl s) : Asl (resume st s) := by
  cases hc : s.currentProcess with
  | none =>
    simp only [resume, hc]
    exact scheduler_asl h
  | some c =>
    simp only [resume, hc]
    exact h.congr rfl rfl rfl

/-- `removeBlocked` on a device semaphore and what follows it. -/
theorem completeDevice_does (h : Asl s) (k : Addr) (status : Word) :
    Asl (completeDevice k status s) ∧
      Does L.clock (if waiting k s = [] then .give k else .wake k 1) s.view (completeDevice k status s).view := by
  cases hq : waiting k s with
  | nil =>
    simp only [completeDevice, removeBlocked_nil h hq, if_true]
    exact ⟨h.congr rfl rfl rfl, .give⟩
  | cons p rest =>
    obtain ⟨hsome, hre⟩ := removeBlocked_requeued h hq
    let s₁ := (removeBlocked k s).1
    have hrem : removeBlocked k s = (s₁, some p) := Prod.ext rfl hsome
    let s₂ := s₁.setPcb p {s₁.pcb p with pS := (s₁.pcb p).pS.setA0 status}
    have hview : s₂.view = s₁.view := view_setPcb rfl rfl rfl
    have hready : s₂.readyQueue = s.readyQueue := congrArg View.ready (hview.trans hre.view)
    have hres : completeDevice k status s =
        {(s₂.enqueue p) with softBlockCount := s₂.softBlockCount - 1} := by
      simp only [completeDevice, hrem]
      rfl
    rw [hres, if_neg (by simp)]
    refine ⟨hre.asl.congr rfl rfl rfl, ?_⟩
    have hperm : (insertProcQ s₂.prio p s₂.readyQueue).Perm (p :: s.view.ready) := by
      rw [hready]
      exact insertProcQ_perm _ p _
    have hv : Nucleus.view {(s₂.enqueue p) with softBlockCount := s₂.softBlockCount - 1} =
        s.view.wake k p rest (insertProcQ s₂.prio p s₂.readyQueue) 1 := by
      show {s₂.view with
        ready := insertProcQ s₂.prio p s₂.readyQueue, soft := s₂.view.soft - 1} = _
      rw [hview, show s₁.view = _ from hre.view]
      rfl
    rw [hv]
    exact .wake hq hperm

/-- Whoever heads the queue becomes ready. -/
theorem completeDevice_ready (h : Asl s) {k : Addr} {p : PcbPtr} {rest : List PcbPtr}
    (hq : waiting k s = p :: rest) (status : Word) : p ∈ (completeDevice k status s).readyQueue := by
  have hrem : removeBlocked k s = ((removeBlocked k s).1, some p) :=
    Prod.ext rfl (removeBlocked_requeued h hq).1
  rw [completeDevice, hrem]
  exact (mem_insertProcQ _ p p _).mpr (Or.inl rfl)

theorem handleDevice_eq {line : Nat} {status : Word} {command reg : Addr}
    (hserved : e.served line = some (status, command, reg)) (hidx : findDeviceIndex reg ≠ -1) :
    handleDevice L line e s = some (resume e.state
      (completeDevice (L.devSem (findDeviceIndex reg)) status (s.writeDev command ACK))) := by
  obtain ⟨devNo, hdev, hdone⟩ := Option.bind_eq_some_iff.mp hserved
  simp only [handleDevice, hdev, hdone, hidx, ne_eq, not_false_eq_true, if_true]

theorem handleDevice_outcome (hs : Sound s) {line : Nat} (hk : e.kind = .interrupt (some line))
    (h1 : line ≠ 1) (h2 : line ≠ 2) {status : Word} {command reg : Addr}
    (hserved : e.served line = some (status, command, reg)) (hidx : findDeviceIndex reg ≠ -1) :
    Outcome L e s (handleDevice L line e s) := by
  have hasl₁ : Asl (s.writeDev command ACK) := hs.asl.congr rfl rfl rfl
  obtain ⟨hasl, hdoes⟩ := completeDevice_does (L := L) hasl₁ (L.devSem (findDeviceIndex reg)) status
  rw [show waiting (L.devSem (findDeviceIndex reg)) (s.writeDev command ACK) =
    waiting (L.devSem (findDeviceIndex reg)) s from waiting_congr rfl rfl _,
    show (s.writeDev command ACK).view = s.view from rfl] at hdoes
  exact ⟨_, _, _, handleDevice_eq hserved hidx, resume_asl _ hasl, .complete hk h1 h2 hserved, .one hdoes,
    resume_leaves _ _⟩

theorem clockTick_acts (n : Nat) (h : Asl s) (hn : (waiting L.clock s).length < n) :
    ∃ s₁, clockTick L n s = some s₁ ∧ Asl s₁ ∧
      Acts L.clock (List.replicate (waiting L.clock s).length (.wake L.clock 1)) s.view s₁.view := by
  induction n generalizing s with
  | zero => omega
  | succ n ih =>
    cases hq : waiting L.clock s with
    | nil =>
      refine ⟨s, ?_, h, .nil⟩
      simp only [clockTick]
      rw [show L.devSem PSEUDOINDEX = L.clock from rfl, removeBlocked_nil h hq]
    | cons p rest =>
      obtain ⟨s₁, hrem, hasl, -, -, hwake⟩ := wake_view h hq
      obtain ⟨q, hperm, hview⟩ := hwake 1
      let s₂ : Nucleus := {(s₁.enqueue p) with softBlockCount := s₁.softBlockCount - 1}
      have hasl₂ : Asl s₂ := hasl.congr rfl rfl rfl
      have hv₂ : s₂.view = s.view.wake L.clock p rest q 1 := hview
      have hwait : waiting L.clock s₂ = rest := by
        show s₂.view.waiting L.clock = rest
        rw [hv₂]
        exact Function.update_self L.clock rest s.view.waiting
      obtain ⟨s', htick, hasl', hacts⟩ := ih hasl₂ (by rw [hwait]; rw [hq] at hn; simpa using hn)
      refine ⟨s', ?_, hasl', ?_⟩
      · simp only [clockTick]
        rw [show L.devSem PSEUDOINDEX = L.clock from rfl, hrem]
        exact htick
      · rw [hwait, hv₂] at hacts
        rw [List.length_cons, List.replicate_succ]
        exact .cons (.wake hq hperm) hacts

theorem handleIntervalClock_outcome (hs : Sound s) (hk : e.kind = .interrupt (some 2)) :
    Outcome L e s (handleIntervalClock L e s) := by
  have hlen : (s.view.waiting L.clock).length ≤ MAXPROC := by
    simpa using List.Nodup.length_le_card (hs.ok.waiting_nodup L.clock)
  obtain ⟨s₁, htick, hasl, hacts⟩ := clockTick_acts (L := L) (MAXPROC + 1) hs.asl (Nat.lt_succ_of_le hlen)
  refine ⟨_, _, _, ?_, resume_asl _ hasl, .tick hk, hacts, resume_leaves e.state s₁⟩
  simp only [handleIntervalClock, htick, Option.map_some]

end Handlers

/-! ### Device registers -/

/-- A command register belongs to one of the 48 device semaphores. -/
theorem findDeviceIndex_command {a : Addr} (h : a ∈ commandRegs) :
    ∃ i : Nat, i < 48 ∧ findDeviceIndex a = i := by
  have hall : commandRegs.all (fun a => 0 ≤ findDeviceIndex a ∧ findDeviceIndex a < 48) = true := by
    decide +kernel
  obtain ⟨h0, h48⟩ : 0 ≤ findDeviceIndex a ∧ findDeviceIndex a < 48 := by
    simpa using List.all_eq_true.mp hall a h
  exact ⟨(findDeviceIndex a).toNat, by omega, by omega⟩

theorem calcIntLineNo_range {cause : Word} {line : Nat} (h : calcIntLineNo cause = some line) :
    1 ≤ line ∧ line ≤ 7 := by
  simp only [calcIntLineNo] at h
  split_ifs at h <;> simp only [Option.some.injEq] at h <;> omega

/-- An interrupt finds a transmitter done, or else a device or a receiver. -/
theorem served_cases {e : Trap} {line : Nat} (h3 : 3 ≤ line) (h7 : line ≤ 7) {status : Word} {command reg : Addr}
    (h : e.served line = some (status, command, reg)) : ∃ l n : Fin 8, 3 ≤ l.val ∧ status = e.bus reg ∧
      (command = devRegAddr 7 n + 0xC ∧ reg = devRegAddr 7 n + 0x8 ∨
        command = devRegAddr l n + 0x4 ∧ reg = devRegAddr l n) := by
  obtain ⟨devNo, hdev, hdone⟩ := Option.bind_eq_some_iff.mp h
  have hlt : devNo < 8 := by
    unfold calcDevNo at hdev
    exact List.mem_range.mp (List.mem_of_find?_eq_some hdev)
  refine ⟨⟨line, by omega⟩, ⟨devNo, hlt⟩, h3, ?_⟩
  unfold servedDevice at hdone
  split_ifs at hdone with hline ht hr <;> simp only [Option.some.injEq, Prod.mk.injEq] at hdone <;>
    obtain ⟨rfl, rfl, rfl⟩ := hdone
  · subst hline
    exact ⟨rfl, .inl ⟨rfl, rfl⟩⟩
  · exact ⟨rfl, .inr ⟨rfl, rfl⟩⟩
  · exact ⟨rfl, .inr ⟨rfl, rfl⟩⟩

/-- What a device interrupt is served through has an index too. -/
theorem findDeviceIndex_served {e : Trap} {line : Nat} (h3 : 3 ≤ line) (h7 : line ≤ 7)
    {r : Word × Addr × Addr} (h : e.served line = some r) :
    ∃ i : Nat, i < 48 ∧ findDeviceIndex r.2.2 = i := by
  have hstatus : ∀ l n : Fin 8, 3 ≤ l.val → 0 ≤ findDeviceIndex (devRegAddr l n) ∧
      findDeviceIndex (devRegAddr l n) < 48 := by decide +kernel
  have htransm : ∀ n : Fin 8, 0 ≤ findDeviceIndex (devRegAddr 7 n + 0x8) ∧
      findDeviceIndex (devRegAddr 7 n + 0x8) < 48 := by decide +kernel
  have hindex : 0 ≤ findDeviceIndex r.2.2 ∧ findDeviceIndex r.2.2 < 48 := by
    obtain ⟨l, n, hl, -, ⟨-, hreg⟩ | ⟨-, hreg⟩⟩ := served_cases h3 h7 h
    · exact hreg ▸ htransm n
    · exact hreg ▸ hstatus l n hl
  exact ⟨(findDeviceIndex r.2.2).toNat, by omega, by omega⟩

/-! ### The step -/

theorem Trap.kind_interrupt {e : Trap} {line : Option Nat} (h : e.kind = .interrupt line) :
    calcIntLineNo e.state.cause = line := by
  unfold Trap.kind at h
  simp only at h
  split_ifs at h
  · exact Kind.interrupt.inj h
  · split at h <;> cases h

theorem devSem_ne_null_of {L : Layout} {a : Addr} {i : Nat} (hi : i < SEMDEVLEN) (h : findDeviceIndex a = i) :
    L.devSem (findDeviceIndex a) ≠ NULL := by
  rw [h]
  exact L.devSem_ne_null i hi

/-- What a trap comes down to: the handler of an interrupt, of a service or of a passed-up
exception, or an answer to a process that goes on. -/
inductive Reached (L : Layout) (e : Trap) (s : Nucleus) : Option Nucleus → Prop where
  | preempt {c} (kind : e.kind = .interrupt (some 1)) (caller : s.currentProcess = some c) :
      Reached L e s (handlePLT e s)
  | tick (kind : e.kind = .interrupt (some 2)) : Reached L e s (handleIntervalClock L e s)
  | complete {line status command reg} (kind : e.kind = .interrupt (some line)) (plt : line ≠ 1) (clock : line ≠ 2)
      (served : e.served line = some (status, command, reg)) (index : findDeviceIndex reg ≠ -1) :
      Reached L e s (handleDevice L line e s)
  | passUp {c index st} (kind : e.kind = .passUp index st) (caller : s.currentProcess = some c) :
      Reached L e s (passUpOrDie L index st s)
  | create {c p rest} (kind : e.kind = .service .createProcess) (caller : s.currentProcess = some c)
      (free : s.pcbFreeH = p :: rest) : Reached L e s (some (createProcess e c s))
  | terminate {c r} (kind : e.kind = .service .termProcess) (caller : s.currentProcess = some c)
      (target : termTarget e c s = some (some r)) (rule : Below s.links r c → r = c) :
      Reached L e s (termProcess L e c s)
  | passeren {c} (kind : e.kind = .service .passeren) (caller : s.currentProcess = some c)
      (null : e.state.regA1 ≠ NULL) : Reached L e s (some (passeren e c s))
  | verhogen {c} (kind : e.kind = .service .verhogen) (caller : s.currentProcess = some c) :
      Reached L e s (some (verhogen e s))
  | wait {c k} (writes : List (Addr × Word)) (caller : s.currentProcess = some c) (null : k ≠ NULL)
      (kind : (e.kind = .service .doio ∧ k = L.devSem (findDeviceIndex e.state.regA1)) ∨
        (e.kind = .service .clockWait ∧ k = L.clock)) :
      Reached L e s (some (scheduler (waitDevSem e c k {s with devWrites := writes})))
  | yield {c} (kind : e.kind = .service .yield) (caller : s.currentProcess = some c) :
      Reached L e s (some (yield e c s))
  | answer {c} (st : State) (kind : e.kind.quiet = true) (caller : s.currentProcess = some c) :
      Reached L e s (some (s.ldst st))

/-- Within the rule a trap reaches a handler that is ready for it. -/
theorem Allowed.reached {L : Layout} {Term : Nucleus → Trap → PcbPtr → Prop} {s : Nucleus} {e : Trap}
    (h : Allowed L Term s e) (hcontrol : s.control.running = s.currentProcess.isSome)
    (hterm : ∀ c, Term s e c → TermOk s e c) : Reached L e s (exceptionHandler L e s) := by
  have hcaller : s.control.running → ∃ c, s.currentProcess = some c := fun hrun =>
    Option.isSome_iff_exists.mp (hcontrol ▸ hrun)
  rw [exceptionHandler_kind]
  unfold Allowed at h
  cases hk : e.kind with
  | ignored => simp only [hk, KindSafe, KindOk] at h
  | passUp index st =>
    simp only [hk, KindSafe, KindOk] at h
    obtain ⟨c, hc⟩ := hcaller h
    exact .passUp hk hc
  | interrupt line =>
    have hline := Trap.kind_interrupt hk
    cases line with
    | none => simp only [hk, KindSafe, KindOk] at h
    | some line =>
      simp only [hk, KindSafe, KindOk] at h
      simp only [interruptHandler, hline]
      by_cases h1 : line = 1
      · rw [if_pos h1] at h
        rw [if_pos h1]
        obtain ⟨c, hc⟩ := hcaller h
        exact .preempt (h1 ▸ hk) hc
      rw [if_neg h1] at h
      rw [if_neg h1]
      by_cases h2 : line = 2
      · rw [if_pos h2]
        exact .tick (h2 ▸ hk)
      rw [if_neg h2]
      have hrange := calcIntLineNo_range hline
      obtain ⟨⟨status, command, reg⟩, hserved⟩ := Option.isSome_iff_exists.mp (h.2 h2)
      obtain ⟨i, -, hi⟩ := findDeviceIndex_served (by omega) hrange.2 hserved
      have hi : findDeviceIndex reg = i := hi
      exact .complete hk h1 h2 hserved (by omega)
  | service sv =>
    simp only [hk, KindSafe] at h
    obtain ⟨hrun, hok, hT⟩ := h
    obtain ⟨c, hc⟩ := hcaller hrun
    simp only [hc, Option.bind_some]
    cases sv with
    | createProcess =>
      cases hf : s.pcbFreeH with
      | nil =>
        have hfull : createProcess e c s = s.ldst (e.state.setA0 (-1)).advance := by
          simp only [createProcess, allocPcb, hf]
        simp only [serve, hfull]
        exact .answer _ (by rw [hk]; rfl) hc
      | cons p rest => exact .create hk hc hf
    | termProcess =>
      obtain ⟨target, htarget, hanc⟩ := hterm c (hT rfl c hc)
      cases target with
      | none =>
        have hres : termProcess L e c s = some (s.ldst e.state.advance) := by
          simp only [termProcess, terminate, htarget, Option.bind_some, Option.map_some, hc, reduceCtorEq, if_false]
        simp only [serve, hres]
        exact .answer _ (by rw [hk]; rfl) hc
      | some r => exact .terminate hk hc htarget (hanc r rfl)
    | passeren => exact .passeren hk hc hok
    | verhogen => exact .verhogen hk hc
    | doio =>
      obtain ⟨i, hi, hidx⟩ := findDeviceIndex_command hok
      exact .wait ((e.state.regA1, e.state.regA2) :: s.devWrites) hc
        (devSem_ne_null_of (by simp only [SEMDEVLEN]; omega) hidx) (.inl ⟨hk, rfl⟩)
    | getTime =>
      obtain ⟨p, hp⟩ := hok
      have hres : getTime e s =
          some (s.ldst (e.state.setA0 ((s.pcb p).pTime + updateTime e getPRID s)).advance) := by
        simp only [getTime, hp]
      simp only [serve, hres]
      exact .answer _ (by rw [hk]; rfl) hc
    | clockWait => exact .wait s.devWrites hc (L.devSem_ne_null 48 (by decide)) (.inr ⟨hk, rfl⟩)
    | getSupportPtr => exact .answer _ (by rw [hk]; rfl) hc
    | getProcessId => exact .answer _ (by rw [hk]; rfl) hc
    | yield => exact .yield hk hc

/-- **The nucleus refines the view**: within the rule a handler is never refused, it
performs the acts of its trap, and leaves in one of the two ways. -/
theorem handler_acts {L : Layout} {Term : Nucleus → Trap → PcbPtr → Prop} {s : Nucleus} {e : Trap}
    (hs : Sound s) (h : Allowed L Term s e) (hterm : ∀ c, Term s e c → TermOk s e c) :
    Outcome L e s (exceptionHandler L e s) := by
  have hreached := h.reached hs.control hterm
  generalize exceptionHandler L e s = result at hreached ⊢
  cases hreached with
  | preempt kind caller => exact handlePLT_outcome hs caller kind
  | tick kind => exact handleIntervalClock_outcome hs kind
  | complete kind plt clock served index => exact handleDevice_outcome hs kind plt clock served index
  | passUp kind caller => exact passUpOrDie_outcome hs caller kind
  | create kind caller free => exact createProcess_outcome hs caller kind free
  | terminate kind caller target rule => exact termProcess_outcome hs caller kind target rule
  | passeren kind caller null => exact passeren_outcome hs caller kind null
  | verhogen kind caller => exact verhogen_outcome hs caller kind
  | wait writes caller null kind => exact waitDevSem_outcome hs caller null kind writes
  | yield kind caller => exact yield_outcome hs caller kind
  | answer st kind caller => exact stay_outcome caller (.none kind) rfl (hs.asl.congr rfl rfl rfl) rfl

/-- Leaving keeps a state sound. -/
theorem Leaves.sound {v : View} {s' : Nucleus} (h : Leaves v s') (hok : v.Ok) (hcur : v.CurrentOk)
    (hasl : Asl s') : Sound s' := by
  cases h with
  | resume hsome hview hrun =>
    subst hview
    exact ⟨hasl, hok, hcur, hrun.trans hsome.symm⟩
  | dispatch hnone hview hidle hready =>
    refine ⟨hasl, hview ▸ hok.dispatch, hview ▸ hok.dispatch_current hcur, ?_⟩
    have hcurrent : s'.currentProcess = v.dispatch.current := congrArg View.current hview
    rw [hcurrent, View.dispatch]
    cases hr : v.ready with
    | nil =>
      rw [hidle hr]
      simp only [hnone, idle]
      split_ifs <;> rfl
    | cons p rest =>
      rw [hready p rest hr]
      rfl

/-- One step keeps a state sound. -/
theorem Sound.step {L : Layout} {Term : Nucleus → Trap → PcbPtr → Prop} {s s' : Nucleus} {e : Trap}
    (hs : Sound s) (h : Allowed L Term s e) (hterm : ∀ c, Term s e c → TermOk s e c)
    (hstep : exceptionHandler L e s = some s') : Sound s' := by
  obtain ⟨s₁, as, v, hres, hasl, -, hacts, hleaves⟩ := handler_acts hs h hterm
  obtain rfl : s' = s₁ := Option.some.inj (hstep.symm.trans hres)
  obtain ⟨hok, hcur⟩ := hacts.ok hs.ok hs.current
  exact hleaves.sound hok hcur hasl

end MultiPandOS
