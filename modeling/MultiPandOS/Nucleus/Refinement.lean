import MultiPandOS.Nucleus.Represents
import MultiPandOS.Nucleus.Runs

/-! The nucleus on pointers refines the nucleus on lists.

Handler by handler, where the nucleus on lists answers the one on pointers answers too,
and its links are the new lists (`exceptionHandler_refines`). A sound state is all that
is asked: the process that runs is in no list, and a dead one in no other than the free
list. Boot makes the lists from whatever the memory holds (`main_refines`). -/
namespace MultiPandOS
open CircularList Listx Runs
open Forest hiding Links

/-! ### Writes -/

section Writes
variable {n : Linked} {s : Nucleus}

theorem Represents.mem (h : Represents n s) : n.globals.mem = s.mem := congrArg Globals.mem h.globals

theorem Represents.setControl (h : Represents n s) (c : Control) :
    Represents (n.setControl c) {s with control := c} :=
  h.withGlobals (by rw [h.globals]; rfl) rfl

theorem Represents.ldst (h : Represents n s) (st : State) : Represents (n.ldst st) (s.ldst st) := h.setControl (.ldst st)

theorem Represents.setMem (h : Represents n s) (a : Addr) (w : Word) : Represents (n.setMem a w) (s.setMem a w) :=
  h.withGlobals (by rw [h.globals]; rfl) rfl

theorem Represents.writeDev (h : Represents n s) (a : Addr) (w : Word) : Represents (n.writeDev a w) (s.writeDev a w) :=
  h.withGlobals (by rw [h.globals]; rfl) rfl

theorem Represents.setCurrent (h : Represents n s) (c : Option PcbPtr) :
    Represents (n.setCurrent c) {s with currentProcess := c} :=
  h.withGlobals (by rw [h.globals]; rfl) rfl

theorem Represents.addCount (h : Represents n s) (w : Word) :
    Represents (n.addCount w) {s with processCount := s.processCount + w} :=
  h.withGlobals (by rw [h.globals]; rfl) rfl

theorem Represents.addSoft (h : Represents n s) (w : Word) :
    Represents (n.addSoft w) {s with softBlockCount := s.softBlockCount + w} :=
  h.withGlobals (by rw [h.globals]; rfl) rfl

theorem Represents.setStartTime (h : Represents n s) (f : Fin NCPU → Word) :
    Represents {n with globals := {n.globals with startTime := f}} {s with startTime := f} :=
  h.withGlobals (by rw [h.globals]; rfl) rfl

theorem add_neg_one (w : Word) : w + -1 = w - 1 := by
  rw [BitVec.sub_eq_add_neg]

/-- Fields that are no lists. -/
theorem Represents.setFields (h : Represents n s) (p : PcbPtr) {f : PcbFields PcbPtr → PcbFields PcbPtr} {g : Pcb → Pcb}
    (hfields : ∀ b, (g b).fields = f b.fields) (hchild : ∀ b, (g b).pChild = b.pChild) :
    Represents (n.setPcb p (f (n.heap.pcb p))) (s.setPcb p (g (s.pcb p))) := by
  rw [h.pcb p, ← hfields]
  exact h.setPcb p (hchild _)

theorem Represents.setState (h : Represents n s) (p : PcbPtr) (st : State) :
    Represents (n.setPcb p {n.heap.pcb p with pS := st}) (s.setPcb p {s.pcb p with pS := st}) :=
  h.setFields p (f := fun b => {b with pS := st}) (g := fun b => {b with pS := st}) (fun _ => rfl) fun _ => rfl

theorem Unlisted.congr {s s' : Nucleus} {p : PcbPtr} (h : Unlisted s p) (hl : SameLists s s') : Unlisted s' p :=
  ⟨hl.free ▸ h.free, hl.ready ▸ h.ready, fun j => (hl.procq j).symm ▸ h.procq j⟩

/-- Whoever runs is in no queue. -/
theorem Sound.unlisted (hs : Sound s) {c : PcbPtr} (hc : s.currentProcess = some c) : Unlisted s c := by
  have hloose := hs.current c hc
  exact ⟨hloose.live, hloose.unready, fun j hj => (hs.mem_sProcq hj).2.2 hloose.unblocked⟩

end Writes

/-! ### The scheduler -/

section Handlers
variable {L : Layout} {fuel : Nat} {e : Trap} {n : Linked} {s : Nucleus} {c p : PcbPtr}

theorem scheduler_refines (h : Represents n s) : Refines Represents n.scheduler (some (scheduler s)) := by
  have hring : Heap.Queue n.heap Linked.readyQueue s.readyQueue := h.queue (readyQueue_mem s) rfl
  have hempty := listEmpty_iff hring
  rw [List.map_eq_nil_iff] at hempty
  unfold Linked.scheduler
  cases hr : s.readyQueue with
  | nil =>
    rw [if_pos (hempty.mpr hr), scheduler_nil hr]
    have hg : ∀ x : Control, Represents (n.setControl x) {s with control := x} := h.setControl
    have hcount : n.globals.processCount = s.processCount := congrArg Globals.processCount h.globals
    have hsoft : n.globals.softBlockCount = s.softBlockCount := congrArg Globals.softBlockCount h.globals
    refine .some ?_
    unfold idle
    rw [hcount, hsoft]
    split_ifs <;> exact hg _
  | cons p rest =>
    rw [if_neg (by rw [hempty, hr]; exact List.cons_ne_nil _ _), scheduler_cons hr]
    obtain ⟨link, hrem, hrings, -⟩ := removeProcQ_rings h.rings (readyQueue_mem s)
      (show s.content Linked.readyQueue = s.readyQueue.map .pList from rfl)
    rw [hr] at hrem hrings
    have hset : Represents (n.setLink link) {s with readyQueue := rest} := by
      refine h.setLink _ ?_ (fun _ => rfl) (fun _ => rfl) rfl rfl
      rw [content_ready]
      exact hrings
    have hstate : (n.heap.pcb p).pS = (s.pcb p).pS := congrArg PcbFields.pS (h.pcb p)
    simp only [hrem, Option.bind_eq_bind, Option.bind_some, List.head?_cons, hstate]
    exact .some ((hset.setCurrent (some p)).ldst (s.pcb p).pS)

theorem resume_refines (h : Represents n s) (st : State) :
    Refines Represents (n.resume st) (some (resume st s)) := by
  cases hc : s.currentProcess with
  | none =>
    simp only [Linked.resume, resume, h.current, hc]
    exact scheduler_refines h
  | some c =>
    simp only [Linked.resume, resume, h.current, hc]
    exact .some (hc ▸ h.ldst st)

theorem findProcess_refines (h : Represents n s) (hfuel : MAXPROC < fuel) (pid : Word) :
    n.findProcess fuel pid = findProcess pid s := by
  have hready : Linked.findProcess.inReady fuel pid n = findProcess.inReady pid s := by
    unfold Linked.findProcess.inReady findProcess.inReady
    rw [h.forEach_pid (readyQueue_mem s) (show s.content Linked.readyQueue = s.readyQueue.map .pList from rfl) hfuel,
      h.findBlockedPcb hfuel]
    cases s.readyQueue.find? fun p => (s.pcb p).pPid == pid <;> rfl
  have hpid : ∀ p, (n.heap.pcb p).pPid = (s.pcb p).pPid := fun p => congrArg PcbFields.pPid (h.pcb p)
  unfold Linked.findProcess findProcess
  rw [h.current, hready]
  cases s.currentProcess with
  | none => rfl
  | some c => simp only [hpid]

/-! ### killProcess -/

/-- Step 4 of `killProcess`: off the queue of its semaphore or off the ready queue. -/
theorem unqueue_refines (h : Represents n s) (hfuel : MAXPROC < fuel) (hasl : Asl s) (hok : s.view.Ok)
    (hp : p ∉ s.pcbFreeH) :
    Refines (fun n s => Represents n s ∧ Unlisted s p)
      (if (n.heap.pcb p).pSemAdd ≠ NULL then
        (Linked.outBlocked fuel p
          (if (n.heap.pcb p).pSemAdd = L.devSem PSEUDOINDEX then n.addSoft (-1) else n)).map Prod.fst
      else (Heap.outProcQ fuel Linked.readyQueue p n.heap).map fun r => {n with heap := r.1})
      (if (s.pcb p).pSemAdd ≠ NULL then
        (outBlocked p (if (s.pcb p).pSemAdd = L.devSem PSEUDOINDEX then
          {s with softBlockCount := s.softBlockCount - 1} else s)).map Prod.fst
      else some {s with readyQueue := (outProcQ s.readyQueue p).1}) := by
  have hsem : (n.heap.pcb p).pSemAdd = (s.pcb p).pSemAdd := congrArg PcbFields.pSemAdd (h.pcb p)
  rw [hsem]
  by_cases hnull : (s.pcb p).pSemAdd = NULL
  · rw [if_neg (not_not_intro hnull), if_neg (not_not_intro hnull)]
    have hcontent : s.content Linked.readyQueue = s.readyQueue.map .pList := rfl
    obtain ⟨link, hout, hrings, -⟩ := outProcQ_rings h.rings (readyQueue_mem s) hcontent
      (h.length_lt (readyQueue_mem s) hcontent rfl hfuel) p
    rw [hout, Option.map_some]
    refine .some ⟨h.setLink _ ?_ (fun _ => rfl) (fun _ => rfl) rfl rfl, hp, ?_, fun j hj => ?_⟩
    · rw [content_ready]
      exact hrings
    · show p ∉ (outProcQ s.readyQueue p).1
      rw [outProcQ_fst]
      exact hok.ready_nodup.not_mem_erase
    · exact ((hok.mem_waiting _ p).mp (mem_sProcq hasl hj).2).2
        (((hok.mem_waiting _ p).mp (mem_sProcq hasl hj).2).1.symm.trans hnull)
  · rw [if_pos hnull, if_pos hnull]
    let m := if (s.pcb p).pSemAdd = L.devSem PSEUDOINDEX then n.addSoft (-1) else n
    let t := if (s.pcb p).pSemAdd = L.devSem PSEUDOINDEX then {s with softBlockCount := s.softBlockCount - 1} else s
    obtain ⟨hsoft, hasl', hpcb, hwait⟩ :
        Represents m t ∧ Asl t ∧ t.pcb = s.pcb ∧ ∀ k, waiting k t = waiting k s := by
      simp only [m, t]
      split
      · refine ⟨?_, hasl.congr rfl rfl rfl, rfl, fun k => waiting_congr rfl rfl k⟩
        rw [← add_neg_one]
        exact h.addSoft (-1)
      · exact ⟨h, hasl, rfl, fun _ => rfl⟩
    have hin : p ∈ waiting (t.pcb p).pSemAdd t := by
      rw [hpcb, hwait]
      exact (hok.mem_waiting _ p).mpr ⟨rfl, hnull⟩
    -- `p` is where its `p_semAdd` says
    obtain ⟨s', hout, -⟩ := outBlocked_requeued hasl' hin
    have hrefines := hsoft.outBlocked hfuel p
    rw [hout] at hrefines
    obtain ⟨r, hr, ⟨hrep, -⟩, hunlisted⟩ := hrefines.answer
    show Refines _ ((Linked.outBlocked fuel p m).map Prod.fst) ((outBlocked p t).map Prod.fst)
    rw [hr, hout]
    exact .some ⟨hrep, hunlisted p rfl⟩

theorem killOne_refines (h : Represents n s) (hfuel : MAXPROC < fuel) (hasl : Asl s) (hok : s.view.Ok)
    (hp : p ∉ s.pcbFreeH) : Refines Represents (Linked.killOne L fuel p n) (killOne L p s) := by
  have hparent : ∀ prnt, (s.pcb p).pParent = some prnt → prnt ∉ s.pcbFreeH ∧ ∀ q, p ∈ (s.pcb q).pChild ↔ q = prnt := by
    intro prnt hprnt
    have hchild : p ∈ (s.pcb prnt).pChild := (hok.wf.child prnt p).mpr hprnt
    refine ⟨fun hf => ?_, fun q => ⟨fun hq => ?_, fun hq => hq ▸ hchild⟩⟩
    · rw [show (s.pcb prnt).pChild = [] from hok.free_child prnt hf] at hchild
      cases hchild
    · exact Option.some.inj (((hok.wf.child q p).mp hq).symm.trans hprnt)
  obtain ⟨hview, -, hsemd, hH, hF⟩ := outChild_spec hok.wf p
  have hok₁ : (outChild p s).1.view.Ok := hview ▸ hok.detach p
  have hfree₁ : p ∉ (outChild p s).1.pcbFreeH := by
    rw [show (outChild p s).1.pcbFreeH = s.pcbFreeH from congrArg View.free hview]
    exact hp
  have hunqueue := unqueue_refines (L := L) (h.outChild hparent) hfuel (hasl.congr hsemd hH hF) hok₁ hfree₁
  unfold Linked.killOne killOne
  refine hunqueue.map fun n s ⟨hrep, hunlisted⟩ => ?_
  have hcount := hrep.addCount (-1)
  rw [add_neg_one] at hcount
  exact hcount.freePcb ⟨hunlisted.free, hunlisted.ready, hunlisted.procq⟩

/-- By induction on the fuel, both functions together. -/
theorem kill_refines (hfuel : MAXPROC < fuel) (k : Nat) :
    (∀ p (n : Linked) (s : Nucleus), Represents n s → Asl s → s.view.Ok → p ∉ s.pcbFreeH → 2 * linked s.links + 2 ≤ k →
      Refines Represents (Linked.killProcess L fuel k (some p) n) (killProcess L k p s)) ∧
    (∀ p (n : Linked) (s : Nucleus), Represents n s → Asl s → s.view.Ok → p ∉ s.pcbFreeH → 2 * linked s.links + 1 ≤ k →
      Refines Represents (Linked.killChildren L fuel k p n) (killChildren L k p s)) := by
  induction k with
  | zero => exact ⟨fun _ _ _ _ _ _ _ h => by omega, fun _ _ _ _ _ _ _ h => by omega⟩
  | succ k ih =>
    obtain ⟨ihProcess, ihChildren⟩ := ih
    constructor
    · intro p n s h hasl hok hp hk
      obtain ⟨ks, s₁, hkill, hkilled, -, hbelow⟩ := (kill_killed L k).2 p s hasl hok (by omega)
      have hlive : p ∉ s₁.pcbFreeH := by
        have hfree : s₁.pcbFreeH = ks.reverse ++ s.pcbFreeH := congrArg View.free hkilled.view
        rw [hfree, List.mem_append, List.mem_reverse, not_or]
        refine ⟨fun hpk => ?_, hp⟩
        obtain ⟨c, hc, hcp⟩ := hbelow p hpk
        exact hok.wf.not_below_child hc hcp
      rw [Linked.killProcess, killProcess]
      refine (ihChildren p n s h hasl hok hp (by omega)).bind fun n₂ s₂ hrep hs₂ => ?_
      obtain rfl : s₁ = s₂ := Option.some.inj (hkill.symm.trans hs₂)
      exact killOne_refines hrep hfuel hkilled.asl (hkilled.ok hok) hlive
    · intro p n s h hasl hok hp hk
      rw [Linked.killChildren]
      cases hchild : (s.pcb p).pChild with
      | nil =>
        rw [if_pos ((h.emptyChild hp).mpr hchild)]
        have hdone : killChildren L (k + 1) p s = some s := by simp only [killChildren, removeChild, hchild]
        rw [hdone]
        exact .some h
      | cons c rest =>
        have hempty : ¬ Heap.emptyChild (some p) n.heap = true := by
          rw [h.emptyChild hp, hchild]
          exact List.cons_ne_nil _ _
        obtain ⟨m, hrem, hrep⟩ := h.removeChild hp hchild
        obtain ⟨s₁, hremoved, hview, -, hsemd, hH, hF⟩ := removeChild_spec hok.wf hchild
        rw [hremoved] at hrep
        have hparent : s.links.parent c = some p := (hok.wf.child p c).mp (by simp [Nucleus.view, Nucleus.links, hchild])
        have hasl₁ : Asl s₁ := hasl.congr hsemd hH hF
        have hok₁ : s₁.view.Ok := hview ▸ hok.detach c
        have hlt : linked s₁.links < linked s.links := by
          rw [show s₁.links = detach c s.links from congrArg View.links hview]
          exact linked_detach_lt (by rw [hparent]; rfl)
        have hfree₁ : s₁.pcbFreeH = s.pcbFreeH := congrArg View.free hview
        have hlive : c ∉ s₁.pcbFreeH := by
          rw [hfree₁]
          intro hf
          exact Option.some_ne_none p (hparent.symm.trans (hok.free_parent c hf))
        obtain ⟨ks, s₂, hkill, hkilled, -, hbelow⟩ := (kill_killed L k).1 c s₁ hasl₁ hok₁ hlive (by omega)
        rw [if_neg hempty, hrem, Option.bind_some]
        simp only [killChildren, hremoved]
        refine (ihProcess c _ s₁ hrep hasl₁ hok₁ hlive (by omega)).bind fun n₃ s₃ hrep₃ hs₃ => ?_
        obtain rfl : s₂ = s₃ := Option.some.inj (hkill.symm.trans hs₃)
        have hle : linked s₂.links ≤ linked s₁.links := by
          rw [show s₂.links = prune ks s₁.links from congrArg View.links hkilled.view]
          exact linked_prune_le ks s₁.links
        have hp₂ : p ∉ s₂.pcbFreeH := by
          have hfree : s₂.pcbFreeH = ks.reverse ++ s₁.pcbFreeH := congrArg View.free hkilled.view
          rw [hfree, List.mem_append, List.mem_reverse, not_or]
          refine ⟨fun hpk => ?_, hfree₁ ▸ hp⟩
          have hsub : ∀ x, ∀ y ∈ s₁.links.child x, y ∈ s.links.child x :=
            (show s₁.links = detach c s.links from congrArg View.links hview) ▸ child_detach_sub c s.links
          exact hok.wf.not_below_child ((hok.wf.child p c).mpr hparent) ((hbelow p hpk).mono hsub)
        exact ihChildren p n₃ s₂ hrep₃ hkilled.asl (hkilled.ok hok₁) hp₂ (by omega)

theorem killProcess_refines (h : Represents n s) (hfuel : MAXPROC < fuel) (hasl : Asl s) (hok : s.view.Ok)
    (hp : p ∉ s.pcbFreeH) :
    Refines Represents (Linked.killProcess L fuel killFuel (some p) n) (killProcess L killFuel p s) := by
  have hle : linked s.links ≤ MAXPROC := by simpa using linked_le s.links
  exact (kill_refines hfuel killFuel).1 p n s h hasl hok hp (by simp only [killFuel]; omega)

/-! ### Interrupts -/

theorem completeDevice_refines (h : Represents n s) (hfuel : MAXPROC < fuel) (sem : Addr) (savedStatus : Word) :
    Refines Represents (n.completeDevice fuel sem savedStatus) (some (completeDevice sem savedStatus s)) := by
  unfold Linked.completeDevice completeDevice
  rcases h.removed hfuel sem with ⟨n₁, s₁, hn, hs, hrep⟩ | ⟨n₁, s₁, p, hn, hs, hrep, hp⟩
  · simp only [hn, hs, Option.bind_eq_bind, Option.bind_some]
    rw [hrep.mem]
    exact .some (hrep.setMem sem (s₁.mem sem + 1))
  · simp only [hn, hs, Option.bind_eq_bind, Option.bind_some]
    have hset := hrep.setFields p (f := fun b => {b with pS := b.pS.setA0 savedStatus})
      (g := fun b => {b with pS := b.pS.setA0 savedStatus}) (fun _ => rfl) fun _ => rfl
    obtain ⟨n₂, hn₂, hrep₂⟩ := (hset.enqueue hfuel (hp.congr (sameLists_setPcb rfl))).answer
    have hsoft := hrep₂.addSoft (-1)
    rw [add_neg_one] at hsoft
    rw [hn₂, Option.bind_some]
    exact .some hsoft

theorem handleDevice_refines (h : Represents n s) (hfuel : MAXPROC < fuel) (intlineNo : Nat) (e : Trap) :
    Refines Represents (n.handleDevice L fuel intlineNo e) (handleDevice L intlineNo e s) := by
  unfold Linked.handleDevice handleDevice
  cases hdev : calcDevNo intlineNo e.bus with
  | none => exact .some (h.setControl .panic)
  | some devNo =>
    simp only
    cases hserved : servedDevice intlineNo (devRegAddr intlineNo devNo) e.bus with
    | none => exact .none
    | some r =>
      obtain ⟨savedStatus, command, reg⟩ := r
      have hwrite := h.writeDev command ACK
      simp only
      by_cases hidx : findDeviceIndex reg ≠ -1
      · simp only [if_pos hidx]
        obtain ⟨n₁, hn₁, hrep⟩ := (completeDevice_refines hwrite hfuel (L.devSem (findDeviceIndex reg)) savedStatus).answer
        rw [hn₁, Option.bind_some]
        exact resume_refines hrep e.state
      · simp only [if_neg hidx, Option.bind_some]
        exact resume_refines hwrite e.state

theorem handlePLT_refines (h : Represents n s) (hs : Sound s) (hfuel : MAXPROC < fuel) (e : Trap) :
    Refines Represents (n.handlePLT fuel e) (handlePLT e s) := by
  unfold Linked.handlePLT handlePLT
  rw [h.current]
  cases hc : s.currentProcess with
  | none => exact .none
  | some c =>
    have hset := h.setState c (copyState e.state)
    obtain ⟨n₁, hn₁, hrep⟩ := (hset.enqueue hfuel ((hs.unlisted hc).congr (sameLists_setPcb rfl))).answer
    simp only [Option.bind_eq_bind, Option.bind_some, hn₁]
    exact scheduler_refines hrep

/-- By induction on the number of tests of the loop. -/
theorem clockTick_refines (hfuel : MAXPROC < fuel) (k : Nat) (h : Represents n s) :
    Refines Represents (Linked.clockTick L fuel k n) (clockTick L k s) := by
  induction k generalizing n s with
  | zero => exact .none
  | succ k ih =>
    unfold Linked.clockTick clockTick
    rcases h.removed hfuel (L.devSem PSEUDOINDEX) with ⟨n₁, s₁, hn, hs, hrep⟩ | ⟨n₁, s₁, p, hn, hs, hrep, hp⟩
    · simp only [hn, hs, Option.bind_eq_bind, Option.bind_some]
      exact .some hrep
    · simp only [hn, hs, Option.bind_eq_bind, Option.bind_some]
      obtain ⟨n₂, hn₂, hrep₂⟩ := (hrep.enqueue hfuel hp).answer
      have hsoft := hrep₂.addSoft (-1)
      rw [add_neg_one] at hsoft
      rw [hn₂, Option.bind_some]
      exact ih hsoft

theorem handleIntervalClock_refines (h : Represents n s) (hfuel : MAXPROC < fuel) (e : Trap) :
    Refines Represents (n.handleIntervalClock L fuel e) (handleIntervalClock L e s) := by
  unfold Linked.handleIntervalClock handleIntervalClock
  rw [Option.map_eq_bind]
  exact (clockTick_refines hfuel (MAXPROC + 1) h).bind fun n s hrep _ => resume_refines hrep e.state

theorem interruptHandler_refines (h : Represents n s) (hs : Sound s) (hfuel : MAXPROC < fuel) (e : Trap) :
    Refines Represents (n.interruptHandler L fuel e) (interruptHandler L e s) := by
  unfold Linked.interruptHandler interruptHandler
  cases calcIntLineNo e.state.cause with
  | none => exact .some (h.setControl .panic)
  | some intlineNo =>
    simp only
    split_ifs
    · exact handlePLT_refines h hs hfuel e
    · exact handleIntervalClock_refines h hfuel e
    · exact handleDevice_refines h hfuel intlineNo e

/-! ### Exceptions -/

theorem suspend_refines (h : Represents n s) (e : Trap) (c : PcbPtr) : Represents (n.suspend e c) (suspend e c s) := by
  have htime : n.globals.startTime = s.startTime := congrArg Globals.startTime h.globals
  have hstate := h.setState c (copyState e.state.advance)
  have hset := hstate.setFields c (f := fun b => {b with pTime := b.pTime + (e.clock - n.globals.startTime getPRID)})
    (g := fun b => {b with pTime := b.pTime + (e.clock - s.startTime getPRID)}) (fun b => by rw [htime]; rfl) fun _ => rfl
  exact hset.setCurrent none

theorem passUpOrDie_refines (h : Represents n s) (hs : Sound s) (hfuel : MAXPROC < fuel) (index : Fin 2) (st : State) :
    Refines Represents (n.passUpOrDie L fuel index st) (passUpOrDie L index st s) := by
  unfold Linked.passUpOrDie passUpOrDie
  rw [h.current]
  cases hc : s.currentProcess with
  | none => exact .none
  | some c =>
    have hsup : (n.heap.pcb c).pSupportStruct = (s.pcb c).pSupportStruct := congrArg PcbFields.pSupportStruct (h.pcb c)
    have hsupport : n.globals.support = s.support := congrArg Globals.support h.globals
    simp only [Option.bind_eq_bind, Option.bind_some, hsup, hsupport]
    split_ifs with hnull
    · rw [Option.map_eq_bind]
      exact (killProcess_refines h hfuel hs.asl hs.ok (hs.current c hc).live).bind fun n s hrep _ =>
        scheduler_refines (hrep.setCurrent none)
    · exact .some (h.withGlobals (by rw [← hsupport, h.globals, ← hc]; rfl) (by rw [← hc]))

/-- A dead process is nobody's child. -/
theorem Sound.childless (hs : Sound s) (hp : p ∈ s.pcbFreeH) (q : PcbPtr) : p ∉ (s.pcb q).pChild := by
  intro hq
  have hparent := (hs.ok.wf.child q p).mp hq
  rw [hs.ok.free_parent p hp] at hparent
  cases hparent

theorem createProcess_refines (h : Represents n s) (hs : Sound s) (hfuel : MAXPROC < fuel)
    (hc : s.currentProcess = some c) :
    Refines Represents (n.createProcess fuel e c) (some (createProcess e c s)) := by
  unfold Linked.createProcess
  cases hfree : s.pcbFreeH with
  | nil =>
    have hfull : createProcess e c s = s.ldst (e.state.setA0 (-1)).advance := by
      simp only [createProcess, allocPcb, hfree]
    rw [h.allocPcb_nil hfree, hfull]
    exact .some (h.ldst (e.state.setA0 (-1)).advance)
  | cons p rest =>
    have hp : p ∈ s.pcbFreeH := hfree ▸ List.mem_cons_self ..
    obtain ⟨pcbs, halloc, hrep, hunlisted⟩ := h.allocPcb_cons hfree (hs.childless hp)
    let s₁ : Nucleus := {(s.setPcb p (Pcb.fresh s.nextPid)) with pcbFreeH := rest, nextPid := s.nextPid + 1}
    have hpid : (pcbs.heap.pcb p).pPid = (s₁.pcb p).pPid := congrArg PcbFields.pPid (hrep.pcb p)
    let st := e.state.setA0 (s₁.pcb p).pPid
    have hst : e.state.setA0 (pcbs.heap.pcb p).pPid = st := by rw [hpid]
    let s₂ := s₁.setPcb p {s₁.pcb p with pS := copyState e.argState, pPrio := st.regA2, pSupportStruct := st.regA3}
    have hset : Represents _ s₂ := hrep.setFields p
      (f := fun b => {b with pS := copyState e.argState, pPrio := st.regA2, pSupportStruct := st.regA3})
      (g := fun b => {b with pS := copyState e.argState, pPrio := st.regA2, pSupportStruct := st.regA3})
      (fun _ => rfl) fun _ => rfl
    have hlive : c ∉ rest := by
      intro hm
      refine (hs.unlisted hc).free ?_
      rw [hfree]
      exact List.mem_cons_of_mem p hm
    have hchild : ∀ q, p ∉ (s₂.pcb q).pChild := by
      intro q
      by_cases hq : q = p
      · subst hq
        simp [s₂, s₁, Nucleus.setPcb, Pcb.fresh]
      · simpa [s₂, s₁, Nucleus.setPcb, hq] using hs.childless hp q
    have hinsert := hset.insertChild hlive hchild
    have hunlisted₃ : Unlisted (insertChild c p s₂) p := ⟨hunlisted.free, hunlisted.ready, hunlisted.procq⟩
    obtain ⟨n₄, hn₄, hrep₄⟩ := (hinsert.enqueue hfuel hunlisted₃).answer
    have hres : createProcess e c s = Nucleus.ldst st.advance
        {((insertChild c p s₂).enqueue p) with processCount := ((insertChild c p s₂).enqueue p).processCount + 1} := by
      simp only [createProcess, allocPcb, hfree]
      rfl
    rw [hres, halloc]
    refine refines_of_answer ?_ ((hrep₄.addCount 1).ldst st.advance)
    simp only [Option.bind_eq_bind, Option.bind_some, hst]
    exact congrArg (fun x => Option.bind x fun n => some ((n.addCount 1).ldst st.advance)) hn₄

theorem terminate_refines (h : Represents n s) (hs : Sound s) (hfuel : MAXPROC < fuel) (e : Trap)
    {target : Option PcbPtr} (hlive : ∀ r, target = some r → r ∉ s.pcbFreeH) :
    Refines Represents (n.terminate L fuel e target) (terminate L e target s) := by
  have hafter : ∀ {n : Linked} {s : Nucleus}, Represents n s → Refines Represents
      (if target = n.globals.currentProcess then (n.setCurrent none).scheduler else some (n.ldst e.state.advance))
      (some (if target = s.currentProcess then scheduler {s with currentProcess := none} else s.ldst e.state.advance)) := by
    intro n s hrep
    rw [hrep.current]
    split
    · exact scheduler_refines (hrep.setCurrent none)
    · exact .some (hrep.ldst e.state.advance)
  unfold Linked.terminate terminate
  cases target with
  | none => exact hafter h
  | some r =>
    rw [Option.map_eq_bind]
    exact (killProcess_refines h hfuel hs.asl hs.ok (hlive r rfl)).bind fun n s hrep _ => hafter hrep

theorem termProcess_refines (h : Represents n s) (hs : Sound s) (hfuel : MAXPROC < fuel) (e : Trap)
    (hc : s.currentProcess = some c) : Refines Represents (n.termProcess L fuel e c) (termProcess L e c s) := by
  unfold Linked.termProcess termProcess
  have htarget : (if e.state.regA1 = 0 then some (some c) else n.findProcess fuel e.state.regA1) = termTarget e c s := by
    rw [termTarget, findProcess_refines h hfuel]
  simp only [htarget]
  cases ht : termTarget e c s with
  | none => exact .none
  | some target =>
    exact terminate_refines h hs hfuel e fun r hr => termTarget_live hs hc (hr ▸ ht)

theorem passeren_refines (h : Represents n s) (hs : Sound s) (hfuel : MAXPROC < fuel) (e : Trap)
    (hc : s.currentProcess = some c) : Refines Represents (n.passeren fuel e c) (some (passeren e c s)) := by
  unfold Linked.passeren passeren
  simp only [h.mem]
  split
  · obtain ⟨⟨n₁, b⟩, hn₁, hrep, -⟩ := (h.insertBlocked hfuel e.state.regA1 (hs.unlisted hc)).answer
    rw [hn₁, Option.bind_some]
    exact scheduler_refines (suspend_refines hrep e c)
  · exact .some ((h.setMem _ _).ldst e.state.advance)

theorem verhogen_refines (h : Represents n s) (hfuel : MAXPROC < fuel) (e : Trap) :
    Refines Represents (n.verhogen fuel e) (some (verhogen e s)) := by
  unfold Linked.verhogen verhogen
  rcases h.removed hfuel e.state.regA1 with ⟨n₁, s₁, hn, hs, hrep⟩ | ⟨n₁, s₁, p, hn, hs, hrep, hp⟩
  · simp only [hn, hs, Option.bind_eq_bind, Option.bind_some]
    rw [hrep.mem]
    exact .some ((hrep.setMem _ _).ldst e.state.advance)
  · simp only [hn, hs, Option.bind_eq_bind, Option.bind_some]
    obtain ⟨n₂, hn₂, hrep₂⟩ := (hrep.enqueue hfuel hp).answer
    rw [hn₂, Option.map_some]
    exact .some (hrep₂.ldst e.state.advance)

theorem waitDevSem_refines (h : Represents n s) (hs : Sound s) (hfuel : MAXPROC < fuel) (e : Trap)
    (hc : s.currentProcess = some c) (sem : Addr) :
    Refines Represents (n.waitDevSem fuel e c sem) (some (waitDevSem e c sem s)) := by
  have hafter : ∀ {n : Linked} {s : Nucleus}, Represents n s →
      Represents ((n.suspend e c).addSoft 1) {(suspend e c s) with softBlockCount := (suspend e c s).softBlockCount + 1} :=
    fun hrep => (suspend_refines hrep e c).addSoft 1
  unfold Linked.waitDevSem waitDevSem
  simp only [h.mem]
  by_cases hv : (s.mem sem).toInt ≤ 0
  · obtain ⟨⟨n₁, b⟩, hn₁, hrep, -⟩ := (h.insertBlocked hfuel sem (hs.unlisted hc)).answer
    simp only [if_pos hv, hn₁, Option.map_some]
    exact .some (hafter hrep)
  · simp only [if_neg hv, Option.map_some]
    exact .some (hafter (h.setMem sem _))

theorem yield_refines (h : Represents n s) (hs : Sound s) (hfuel : MAXPROC < fuel) (e : Trap)
    (hc : s.currentProcess = some c) : Refines Represents (n.yield fuel e c) (some (yield e c s)) := by
  have hrep := suspend_refines h e c
  have hunlisted : Unlisted (suspend e c s) c :=
    ⟨(hs.unlisted hc).free, (hs.unlisted hc).ready, (hs.unlisted hc).procq⟩
  have hempty := listEmpty_iff (hrep.rings.ring Linked.readyQueue (readyQueue_mem _))
  rw [show (suspend e c s).content Linked.readyQueue = (suspend e c s).readyQueue.map .pList from rfl,
    List.map_eq_nil_iff, ← List.isEmpty_iff] at hempty
  unfold Linked.yield yield
  simp only [Bool.eq_iff_iff.mpr hempty]
  split
  · obtain ⟨n₁, hn₁, hrep₁⟩ := (hrep.enqueue hfuel hunlisted).answer
    rw [hn₁, Option.bind_some]
    exact scheduler_refines hrep₁
  · rw [Option.bind_some]
    refine scheduler_refines (hrep.setLink _ ?_ (fun _ => rfl) (fun _ => rfl) rfl rfl)
    rw [content_ready, List.map_append]
    exact listAddTail_rings hrep.rings (readyQueue_mem _) (loose_pList.mpr hunlisted)

theorem getTime_refines (h : Represents n s) (hfuel : MAXPROC < fuel) (e : Trap) :
    Refines Represents (n.getTime fuel e) (getTime e s) := by
  have htime : n.globals.startTime = s.startTime := congrArg Globals.startTime h.globals
  unfold Linked.getTime getTime
  rw [findProcess_refines h hfuel]
  cases findProcess (BitVec.ofNat 32 getPRID.val) s with
  | none => exact .none
  | some r =>
    cases r with
    | none => exact .none
    | some p =>
      have hp : (n.heap.pcb p).pTime = (s.pcb p).pTime := congrArg PcbFields.pTime (h.pcb p)
      simp only [Option.bind_eq_bind, Option.bind_some, hp, Linked.updateTime, htime]
      exact .some (h.ldst _)

theorem getProcessId_refines (h : Represents n s) (e : Trap) (c : PcbPtr) :
    Represents (n.getProcessId e c) (getProcessId e c s) := by
  have hpid : ∀ p, (n.heap.pcb p).pPid = (s.pcb p).pPid := fun p => congrArg PcbFields.pPid (h.pcb p)
  have hparent : (n.heap.pcb c).pParent = (s.pcb c).pParent := congrArg PcbFields.pParent (h.pcb c)
  unfold Linked.getProcessId getProcessId
  simp only [hpid, hparent]
  exact h.ldst _

/-! ### Dispatch -/

theorem syscallHandler_refines (h : Represents n s) (hs : Sound s) (hfuel : MAXPROC < fuel) (e : Trap) :
    Refines Represents (n.syscallHandler L fuel e) (syscallHandler L e s) := by
  unfold Linked.syscallHandler syscallHandler
  split
  · exact passUpOrDie_refines h hs hfuel GENERALEXCEPT (setPrivInstr e.state)
  · rw [h.current]
    cases hc : s.currentProcess with
    | none => exact .none
    | some c =>
      simp only
      cases Service.ofWord e.state.regA0 with
      | none => exact passUpOrDie_refines h hs hfuel GENERALEXCEPT e.state.advance
      | some sv =>
        cases sv with
        | createProcess => exact createProcess_refines h hs hfuel hc
        | termProcess => exact termProcess_refines h hs hfuel e hc
        | passeren => exact passeren_refines h hs hfuel e hc
        | verhogen => exact verhogen_refines h hfuel e
        | doio =>
          have hwrite := h.writeDev e.state.regA1 e.state.regA2
          have hs' : Sound (s.writeDev e.state.regA1 e.state.regA2) :=
            ⟨hs.asl.congr rfl rfl rfl, hs.ok, hs.current, hs.control⟩
          exact (waitDevSem_refines hwrite hs' hfuel e hc _).bind fun n s hrep _ => scheduler_refines hrep
        | getTime => exact getTime_refines h hfuel e
        | clockWait => exact (waitDevSem_refines h hs hfuel e hc _).bind fun n s hrep _ => scheduler_refines hrep
        | getSupportPtr =>
          have hsup : (n.heap.pcb c).pSupportStruct = (s.pcb c).pSupportStruct :=
            congrArg PcbFields.pSupportStruct (h.pcb c)
          refine .some ?_
          rw [Linked.getSupportPtr, hsup]
          exact h.ldst _
        | getProcessId => exact .some (getProcessId_refines h e c)
        | yield => exact yield_refines h hs hfuel e hc

theorem exceptionHandler_refines (h : Represents n s) (hs : Sound s) (hfuel : MAXPROC < fuel) (e : Trap) :
    Refines Represents (n.exceptionHandler L fuel e) (exceptionHandler L e s) := by
  unfold Linked.exceptionHandler exceptionHandler
  simp only
  split_ifs
  · exact interruptHandler_refines h hs hfuel e
  · exact passUpOrDie_refines h hs hfuel PGFAULTEXCEPT e.state
  · exact syscallHandler_refines h hs hfuel e
  · exact passUpOrDie_refines h hs hfuel GENERALEXCEPT e.state
  · exact .none

end Handlers

/-! ### Boot -/

theorem clearDevSem_refines {n : Linked} {s : Nucleus} (h : Represents n s) (L : Layout) :
    Represents (n.clearDevSem L) (L.clearDevSem s) := by
  have hfold : ∀ (is : List Nat) {n : Linked} {s : Nucleus}, Represents n s →
      Represents (is.foldl (fun n (c : Nat) => n.setMem (L.devSem c) 0) n)
        (is.foldl (fun s (c : Nat) => s.setMem (L.devSem c) 0) s) := by
    intro is
    induction is with
    | nil => exact fun h => h
    | cons i rest ih => exact fun h => ih (h.setMem (L.devSem i) 0)
  exact hfold (List.range SEMDEVLEN) h

/-- The nucleus before its first process. -/
def Boot.ready (L : Layout) (b : Boot) : Nucleus :=
  L.clearDevSem {(initASL (initPcbs b.globals)) with readyQueue := [], startTime := fun _ => 0}

/-- Whatever `link` holds. -/
theorem ready_refines (L : Layout) (b : Boot) (link : Links Node) :
    let n := {(Linked.globals₀ b link) with toPcbs := Pcbs.initPcbs (Linked.globals₀ b link).toPcbs}
    let n := Linked.initASL n
    let n := {n with heap := Heap.mkEmptyProcQ Linked.readyQueue n.heap}
    Represents (Linked.clearDevSem L {n with globals := {n.globals with startTime := fun _ => 0}}) (b.ready L) := by
  have hstart : RepresentsOn ∅ (Linked.globals₀ b link) b.globals :=
    ⟨⟨fun _ hx => hx.elim, fun _ hx => hx.elim⟩, fun _ => rfl, fun _ => rfl, rfl, rfl⟩
  have hasl := hstart.initPcbs.initASL rfl rfl rfl
  have hall : ∀ p, p ∈ (initASL (initPcbs b.globals)).pcbFreeH := by
    intro p
    show p ∈ (List.finRange MAXPROC).foldl (fun q c => c :: q) []
    rw [List.foldl_flip_cons_eq_append]
    simp
  exact clearDevSem_refines ((hasl.mkEmptyProcQ hall).setStartTime fun _ => 0) L

/-- The end of `main`. -/
def Boot.dispatchFirst (b : Boot) (s : Nucleus) : Nucleus :=
  match allocPcb s with
  | (s, none) => {s with control := .panic}
  | (s, some p) =>
    let s := {s with processCount := s.processCount + 1}
    let s := s.setPcb p {s.pcb p with pS := b.firstState (s.pcb p).pS}
    scheduler (s.enqueue p)

theorem main_eq_dispatchFirst (L : Layout) (b : Boot) : main L b = b.dispatchFirst (b.ready L) := rfl

theorem dispatchFirst_refines {fuel : Nat} (hfuel : MAXPROC < fuel) {n : Linked} {s : Nucleus} (h : Represents n s)
    (b : Boot) {p : PcbPtr} {rest : List PcbPtr} (hfree : s.pcbFreeH = p :: rest) (hchild : ∀ q, p ∉ (s.pcb q).pChild) :
    Refines Represents (Linked.dispatchFirst fuel b n) (some (b.dispatchFirst s)) := by
  obtain ⟨pcbs, halloc, hrep, hunlisted⟩ := h.allocPcb_cons hfree hchild
  have hset := (hrep.addCount 1).setFields p (f := fun b' => {b' with pS := b.firstState b'.pS})
    (g := fun b' => {b' with pS := b.firstState b'.pS}) (fun _ => rfl) fun _ => rfl
  obtain ⟨n₂, hn₂, hrep₂⟩ := (hset.enqueue hfuel ⟨hunlisted.free, hunlisted.ready, hunlisted.procq⟩).answer
  have hlist : allocPcb s =
      ({(s.setPcb p (Pcb.fresh s.nextPid)) with pcbFreeH := rest, nextPid := s.nextPid + 1}, some p) := by
    simp only [allocPcb, hfree]
  rw [Linked.dispatchFirst, halloc, Boot.dispatchFirst, hlist]
  simp only [Option.bind_eq_bind, Option.bind_some]
  rw [hn₂, Option.bind_some]
  exact scheduler_refines hrep₂

theorem main_refines {fuel : Nat} (hfuel : MAXPROC < fuel) (L : Layout) (b : Boot) (link : Links Node) :
    Refines Represents (Linked.main L fuel b link) (some (main L b)) := by
  obtain ⟨rest, hrest, -⟩ := main_eq L b
  have hs : b.ready L = {(initASL (initPcbs b.globals)) with
      readyQueue := []
      startTime := fun _ => 0
      mem := (b.ready L).mem} := clearDevSem_eq L _
  have hfree : (b.ready L).pcbFreeH = firstProcess :: rest := by
    rw [hs]
    exact hrest
  have hchild : ∀ q, firstProcess ∉ ((b.ready L).pcb q).pChild := by
    intro q
    rw [hs]
    exact List.not_mem_nil
  rw [main_eq_dispatchFirst]
  exact dispatchFirst_refines hfuel (ready_refines L b link) b hfree hchild

/-- **Two nuclei in step**: whatever the memory held before boot, the nucleus that follows
pointers takes the same traps as the one that keeps lists, its loops come to an end, and at
every point its links are those lists and nothing else differs. -/
theorem run_refines {L : Layout} {b : Boot} {es : List Trap} {s : Nucleus} {fuel : Nat} (hfuel : MAXPROC < fuel)
    (h : Run (exceptionHandler L) (Allowed L TermOk) (main L b) es s) (link : Links Node) :
    ∃ n₀ n, Linked.main L fuel b link = some n₀ ∧ exec (Linked.exceptionHandler L fuel) es n₀ = some n ∧
      Represents n s := by
  obtain ⟨n₀, hboot, hstart⟩ := (main_refines hfuel L b link).answer
  obtain ⟨n, hexec, hrep⟩ := h.refined hstart (main_sound L b)
    (fun s e s' hs hallowed hstep => hs.step hallowed (fun _ h => h) hstep)
    fun n s e hrep hs _ => exceptionHandler_refines hrep hs hfuel e
  exact ⟨n₀, n, hboot, hexec, hrep⟩

open Sample in
theorem run_refines_sample : ∃ s n₀ n, exec (exceptionHandler layout) events (main layout boot) = some s ∧
    Linked.main layout 21 boot (fun _ => ⟨.pcbFreeH, .pcbFreeH⟩) = some n₀ ∧
      exec (Linked.exceptionHandler layout 21) events n₀ = some n ∧ Represents n s := by
  have hfollows : Follows (exceptionHandler layout) (Admissible layout SelfOnly) events (main layout boot) := by
    decide +kernel
  obtain ⟨s, hexec, hrun⟩ := hfollows.run
  have hallowed : Run (exceptionHandler layout) (Allowed layout TermOk) (main layout boot) events s :=
    hrun.mono fun _ _ h => h.allowed.mono fun _ => SelfOnly.termOk
  have hfuel : MAXPROC < 21 := by decide
  obtain ⟨n₀, n, hrest⟩ := run_refines hfuel hallowed fun _ => ⟨.pcbFreeH, .pcbFreeH⟩
  exact ⟨s, n₀, n, hexec, hrest⟩

/-- **`killProcess`, pointer by pointer.** The recursion follows `p_child` and `p_sib`, which
it cuts on its way, and still frees every process below `p` and no other; each leaves the
one queue it is in. -/
theorem killProcess_links {L : Layout} {n : Linked} {s : Nucleus} {fuel : Nat} (hfuel : MAXPROC < fuel)
    (h : Represents n s) (hs : Sound s) {p : PcbPtr} (hp : p ∉ s.pcbFreeH) :
    ∃ n' s' ks, Linked.killProcess L fuel killFuel (some p) n = some n' ∧ Represents n' s' ∧
      s'.view = s.view.kill L.clock ks ∧ ∀ q, q ∈ ks ↔ Below s.links p q := by
  obtain ⟨ks, s', hkill, hkilled, hbelow⟩ := killProcess_killed L hs.asl hs.ok hp
  obtain ⟨n', hn', hrep⟩ := killProcess_refines h hfuel hs.asl hs.ok hp s' hkill
  exact ⟨n', s', ks, hn', hrep, hkilled.view, hbelow⟩

open Sample in
theorem killProcess_links_sample : ∃ s n n' s' ks, exceptionHandler layout (ecall (-1) 0 0) (main layout boot) = some s ∧
    Represents n s ∧ Linked.killProcess layout 21 killFuel (some firstProcess) n = some n' ∧ Represents n' s' ∧
      s'.view = s.view.kill layout.clock ks ∧ child ∈ ks := by
  have hfuel : MAXPROC < 21 := by decide
  have hfollows : Follows (exceptionHandler layout) (Admissible layout SelfOnly) [ecall (-1) 0 0] (main layout boot) := by
    decide +kernel
  have hstate : (exceptionHandler layout (ecall (-1) 0 0) (main layout boot)).any (fun s =>
      decide (firstProcess ∉ s.pcbFreeH ∧ child ∈ (s.pcb firstProcess).pChild)) = true := by
    decide +kernel
  obtain ⟨s, hstep, hs⟩ := (Option.any_eq_true _ _).mp hstate
  obtain ⟨hlive, hchild⟩ := of_decide_eq_true hs
  have hallowed : Allowed layout SelfOnly (main layout boot) (ecall (-1) 0 0) := hfollows.1.allowed
  have hsound := (main_sound layout boot).step hallowed (fun _ => SelfOnly.termOk) hstep
  obtain ⟨n₀, -, hstart⟩ := (main_refines hfuel layout boot fun _ => ⟨.pcbFreeH, .pcbFreeH⟩).answer
  obtain ⟨n, -, hrep⟩ := exceptionHandler_refines hstart (main_sound layout boot) hfuel (ecall (-1) 0 0) s hstep
  obtain ⟨n', s', ks, hn', hrep', hview, hks⟩ := killProcess_links hfuel hrep hsound hlive
  exact ⟨s, n, n', s', ks, hstep, hrep, hn', hrep', hview, (hks child).mpr (Relation.ReflTransGen.single hchild)⟩

end MultiPandOS
