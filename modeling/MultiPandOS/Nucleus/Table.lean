import MultiPandOS.Nucleus.Runs

/-! What the handlers do to the process table.

`View` leaves out what a process is resumed with and in which order the ready ones
stand. `ProcTable` is the rest of what the nucleus keeps of its processes, `Move` what can
be done to it, and `Turned` lists the moves of each handler. `handler_turns` shows them
for every trap within the rule: scheduling, accounting and the transparency of a
context switch are read off it. -/
namespace MultiPandOS
open Forest

@[ext] structure ProcTable where
  free : List PcbPtr
  pS : PcbPtr → State
  pTime : PcbPtr → Word
  pPrio : PcbPtr → Word
  ready : List PcbPtr
  current : Option PcbPtr

def Nucleus.table (s : Nucleus) : ProcTable :=
  { free := s.pcbFreeH
    pS := fun p => (s.pcb p).pS
    pTime := fun p => (s.pcb p).pTime
    pPrio := fun p => (s.pcb p).pPrio
    ready := s.readyQueue
    current := s.currentProcess }

/-- `charge` is what is added to `p_time` when `p_s` is saved; `complete` makes a process
ready with a device status in its `a0`. -/
inductive Move where
  | create (p : PcbPtr) (st : State) (prio : Word)
  | save (c : PcbPtr) (st : State) (charge : Word)
  | complete (p : PcbPtr) (w : Word)
  | insert (p : PcbPtr)
  | tail (p : PcbPtr)
  | remove (ks : List PcbPtr)
  | leave
  | dispatch

namespace ProcTable

/-- The order `insertProcQ` compares by. -/
def prio (t : ProcTable) (p : PcbPtr) : Int := (t.pPrio p).toInt

def apply (t : ProcTable) : Move → ProcTable
  | .create p st prio => {t with
      free := t.free.tail
      pS := Function.update t.pS p st
      pTime := Function.update t.pTime p 0
      pPrio := Function.update t.pPrio p prio}
  | .save c st charge => {t with
      pS := Function.update t.pS c st
      pTime := Function.update t.pTime c (t.pTime c + charge)}
  | .complete p w => {t with
      pS := Function.update t.pS p ((t.pS p).setA0 w)
      ready := insertProcQ t.prio p t.ready}
  | .insert p => {t with ready := insertProcQ t.prio p t.ready}
  | .tail p => {t with ready := t.ready ++ [p]}
  | .remove ks => {t with free := ks.reverse ++ t.free, ready := t.ready.filter (· ∉ ks)}
  | .leave => {t with current := none}
  | .dispatch =>
    match t.ready with
    | [] => t
    | p :: rest => {t with ready := rest, current := some p}

theorem dispatch_ready (t : ProcTable) : (t.apply .dispatch).ready = t.ready.tail := by
  cases hr : t.ready <;> simp [apply, hr]

/-- Nothing else that is kept of the processes changes. -/
theorem dispatch_eq (t : ProcTable) : t.apply .dispatch =
    {t with ready := t.ready.tail, current := (t.apply .dispatch).current} := by
  refine ProcTable.ext ?_ ?_ ?_ ?_ t.dispatch_ready rfl
  all_goals cases hr : t.ready <;> simp only [apply, hr]

theorem dispatch_free (t : ProcTable) : (t.apply .dispatch).free = t.free := by rw [dispatch_eq]

theorem dispatch_pS (t : ProcTable) : (t.apply .dispatch).pS = t.pS := by rw [dispatch_eq]

/-- One move after the other. -/
def moves (t : ProcTable) (ms : List Move) : ProcTable := ms.foldl apply t

end ProcTable

/-! ### The moves of a trap -/

/-- What `suspend` does. -/
def suspendMoves (e : Trap) (c : PcbPtr) (s : Nucleus) : List Move :=
  [.save c e.state.advance (updateTime e getPRID s), .leave]

/-- The end of an interrupt handler: the scheduler if nobody was running. -/
def resumeMoves (s : Nucleus) : List Move := if s.currentProcess = none then [.dispatch] else []

/-- The moves of the handler a trap reaches. -/
inductive Turned (L : Layout) (e : Trap) (s : Nucleus) : List Move → Prop where
  | preempt {c} : e.kind = .interrupt (some 1) → s.currentProcess = some c →
      Turned L e s [.save c e.state 0, .insert c, .dispatch]
  | tick : e.kind = .interrupt (some 2) →
      Turned L e s ((waiting L.clock s).map .insert ++ resumeMoves s)
  | complete {line status command reg p rest} : e.kind = .interrupt (some line) → line ≠ 1 → line ≠ 2 →
      e.served line = some (status, command, reg) → waiting (L.devSem (findDeviceIndex reg)) s = p :: rest →
      Turned L e s (.complete p status :: resumeMoves s)
  | nobody {line status command reg} : e.kind = .interrupt (some line) → line ≠ 1 → line ≠ 2 →
      e.served line = some (status, command, reg) → waiting (L.devSem (findDeviceIndex reg)) s = [] →
      Turned L e s (resumeMoves s)
  | create {p rest} : e.kind = .service .createProcess → s.pcbFreeH = p :: rest →
      Turned L e s [.create p e.argState e.state.regA2, .insert p]
  | kill {c r ks} : e.kind = .service .termProcess → termTarget e c s = some (some r) → r ≠ c →
      s.currentProcess = some c → (∀ q, q ∈ ks ↔ Below s.links r q) → c ∉ ks → (∀ q ∈ ks, q ∉ s.pcbFreeH) →
      Turned L e s [.remove ks]
  | die {c ks} : (e.kind = .service .termProcess ∧ termTarget e c s = some (some c)) ∨
      (∃ index st, e.kind = .passUp index st) → s.currentProcess = some c →
      (∀ q, q ∈ ks ↔ Below s.links c q) → (∀ q ∈ ks, q ∉ s.pcbFreeH) →
      Turned L e s [.remove ks, .leave, .dispatch]
  | block {c} : e.kind = .service .passeren → (s.mem e.state.regA1).toInt ≤ 0 → s.currentProcess = some c →
      Turned L e s (suspendMoves e c s ++ [.dispatch])
  | wait {c} : e.kind = .service .doio ∨ e.kind = .service .clockWait → s.currentProcess = some c →
      Turned L e s (suspendMoves e c s ++ [.dispatch])
  | wake {p rest} : e.kind = .service .verhogen → waiting e.state.regA1 s = p :: rest → Turned L e s [.insert p]
  | yield {c} : e.kind = .service .yield → s.currentProcess = some c →
      Turned L e s (suspendMoves e c s ++
        [if s.readyQueue = [] then .insert c else .tail c, .dispatch])
  | none : e.kind.quiet ∨ (e.kind = .service .passeren ∧ 0 < (s.mem e.state.regA1).toInt) ∨
      (e.kind = .service .verhogen ∧ waiting e.state.regA1 s = []) → Turned L e s []

/-- What is to be shown of every handler. Whoever is dispatched is loaded with its `p_s`. -/
def Turns (L : Layout) (e : Trap) (s : Nucleus) (result : Option Nucleus) : Prop :=
  ∃ s' ms, result = some s' ∧ Turned L e s ms ∧ s'.table = s.table.moves ms ∧ s'.startTime = s.startTime ∧
    (.dispatch ∈ ms → ∀ p, s'.currentProcess = some p → s'.control = .ldst (s'.pcb p).pS)

/-! ### The pieces of the handlers -/

theorem ProcTable.moves_append (t : ProcTable) (ms ns : List Move) : t.moves (ms ++ ns) = (t.moves ms).moves ns :=
  List.foldl_append

theorem ProcTable.moves_inserts (t : ProcTable) (ps : List PcbPtr) :
    t.moves (ps.map .insert) = {t with ready := PriorityQueue.insertAll t.prio ps t.ready} := by
  induction ps generalizing t with
  | nil => rfl
  | cons p rest ih =>
    refine (ih (t.apply (.insert p))).trans ?_
    simp only [ProcTable.apply, insertProcQ_eq]
    rfl

theorem Requeued.table {k : Addr} {q : List PcbPtr} {p : PcbPtr} {w : Addr} {s s' : Nucleus}
    (h : Requeued k q p w s s') : s'.table = s.table ∧ s'.startTime = s.startTime := by
  have hrest := h.rest
  have hview := h.view
  exact ⟨ProcTable.ext (congrArg View.free hview) (congrArg Rest.pS hrest) (congrArg Rest.pTime hrest)
    (congrArg Rest.pPrio hrest) (congrArg View.ready hview) (congrArg View.current hview),
    congrArg Rest.startTime hrest⟩

theorem Killed.table {L : Layout} {ks : List PcbPtr} {s s' : Nucleus} (h : Killed L ks s s') :
    s'.table = s.table.apply (.remove ks) ∧ s'.startTime = s.startTime :=
  ⟨ProcTable.ext (congrArg View.free h.view) (congrArg Rest.pS h.rest) (congrArg Rest.pTime h.rest)
    (congrArg Rest.pPrio h.rest) (congrArg View.ready h.view) (congrArg View.current h.view),
    congrArg Rest.startTime h.rest⟩

theorem suspend_table (e : Trap) (c : PcbPtr) (s : Nucleus) :
    (suspend e c s).table = s.table.moves (suspendMoves e c s) := by
  refine ProcTable.ext rfl ?_ ?_ ?_ rfl rfl
  all_goals
    funext p
    by_cases hp : p = c
    · subst hp
      simp [suspend, Nucleus.table, Nucleus.setPcb, ProcTable.moves, suspendMoves, ProcTable.apply, updateTime]
    · simp [suspend, Nucleus.table, Nucleus.setPcb, ProcTable.moves, suspendMoves, ProcTable.apply, hp]

theorem scheduler_table (s : Nucleus) :
    (scheduler s).table = s.table.apply .dispatch ∧ (scheduler s).startTime = s.startTime := by
  cases hr : s.readyQueue with
  | nil =>
    have hready : s.table.ready = [] := hr
    rw [scheduler_nil hr]
    simp only [ProcTable.apply, hready]
    exact ⟨rfl, trivial⟩
  | cons p rest =>
    have hready : s.table.ready = p :: rest := hr
    rw [scheduler_cons hr]
    simp only [ProcTable.apply, hready]
    exact ⟨rfl, trivial⟩

theorem scheduler_ldst {s : Nucleus} (h : s.currentProcess = none ∨ s.readyQueue ≠ []) {p : PcbPtr}
    (hp : (scheduler s).currentProcess = some p) : (scheduler s).control = .ldst ((scheduler s).pcb p).pS := by
  cases hr : s.readyQueue with
  | nil =>
    rw [scheduler_nil hr] at hp
    rcases h with hnone | hne
    · rw [show s.currentProcess = some p from hp] at hnone
      cases hnone
    · exact absurd hr hne
  | cons q rest =>
    rw [scheduler_cons hr] at hp ⊢
    obtain rfl : q = p := Option.some.inj hp
    rfl

theorem resume_table (st : State) (s : Nucleus) :
    (resume st s).table = s.table.moves (resumeMoves s) ∧ (resume st s).startTime = s.startTime := by
  cases hc : s.currentProcess with
  | none =>
    simp only [resume, resumeMoves, hc, if_true]
    exact scheduler_table s
  | some c =>
    have hres : resume st s = {s with control := .ldst st} := by simp only [resume, hc]
    have hmoves : resumeMoves s = [] := by simp only [resumeMoves, hc, reduceCtorEq, if_false]
    rw [hres, hmoves]
    exact ⟨rfl, rfl⟩

/-- A process taken off a queue and made ready. -/
theorem wake_table {s : Nucleus} (h : Asl s) {k : Addr} {p : PcbPtr} {rest : List PcbPtr}
    (hq : waiting k s = p :: rest) :
    ∃ s₁, removeBlocked k s = (s₁, some p) ∧ Asl s₁ ∧ waiting k s₁ = rest ∧ s₁.table = s.table ∧
      s₁.startTime = s.startTime := by
  obtain ⟨hsome, hre⟩ := removeBlocked_requeued h hq
  refine ⟨(removeBlocked k s).1, Prod.ext rfl hsome, hre.asl, ?_, hre.table⟩
  rw [hre.waiting k, if_pos rfl]

/-! ### The handlers, one by one -/

section Handlers
variable {L : Layout} {e : Trap} {s : Nucleus} {c : PcbPtr}

theorem stay_turns (ha : Turned L e s []) {s' : Nucleus} (htable : s'.table = s.table)
    (htime : s'.startTime = s.startTime) : Turns L e s (some s') :=
  ⟨s', [], rfl, ha, htable, htime, fun h => (List.not_mem_nil h).elim⟩

theorem createProcess_turns (hs : Sound s) (hc : s.currentProcess = some c)
    (hk : e.kind = .service .createProcess) {p : PcbPtr} {rest : List PcbPtr} (hf : s.pcbFreeH = p :: rest) :
    Turns L e s (some (createProcess e c s)) := by
  have hcp : c ≠ p := fun hcp => (hs.current c hc).live (by rw [hcp]; simp [Nucleus.view, hf])
  let s₁ : Nucleus := {(s.setPcb p (Pcb.fresh s.nextPid)) with pcbFreeH := rest, nextPid := s.nextPid + 1}
  let s₂ := s₁.setPcb p {s₁.pcb p with
    pS := copyState e.argState, pPrio := e.state.regA2, pSupportStruct := e.state.regA3}
  let s₃ := insertChild c p s₂
  have hres : createProcess e c s = Nucleus.ldst (e.state.setA0 (s₁.pcb p).pPid).advance
      {(s₃.enqueue p) with processCount := s.processCount + 1} := by
    simp only [createProcess, allocPcb, hf]
    rfl
  have htable : s₃.table = s.table.apply (.create p e.argState e.state.regA2) := by
    refine ProcTable.ext ?_ ?_ ?_ ?_ rfl rfl
    · show rest = s.pcbFreeH.tail
      rw [hf, List.tail_cons]
    all_goals
      funext x
      by_cases hxp : x = p
      · subst hxp
        simp [ProcTable.apply, Nucleus.table, s₃, s₂, s₁, insertChild, Nucleus.setPcb, hcp.symm, Pcb.fresh]
      · by_cases hxc : x = c <;>
          simp [ProcTable.apply, Nucleus.table, s₃, s₂, s₁, insertChild, Nucleus.setPcb, hxp, hxc, hcp]
  refine ⟨_, _, rfl, .create hk hf, ?_, ?_, by simp⟩
  · rw [hres]
    show (s₃.enqueue p).table = (s.table.apply (.create p e.argState e.state.regA2)).apply (.insert p)
    rw [← htable]
    rfl
  · rw [hres]
    rfl

/-- A suspended caller, once it is blocked or counted. -/
theorem suspend_turns {s₁ : Nucleus} (htable : s₁.table = s.table) (htime : s₁.startTime = s.startTime) :
    (scheduler (suspend e c s₁)).table = s.table.moves (suspendMoves e c s ++ [.dispatch]) ∧
      (scheduler (suspend e c s₁)).startTime = s.startTime := by
  have hmoves : suspendMoves e c s₁ = suspendMoves e c s := by
    simp only [suspendMoves, updateTime, htime]
  refine ⟨?_, (scheduler_table _).2.trans htime⟩
  rw [(scheduler_table _).1, suspend_table, hmoves, htable, ProcTable.moves_append]
  rfl

theorem passeren_turns (hs : Sound s) (hc : s.currentProcess = some c)
    (hk : e.kind = .service .passeren) (hnull : e.state.regA1 ≠ NULL) : Turns L e s (some (passeren e c s)) := by
  by_cases hv : (s.mem e.state.regA1).toInt ≤ 0
  · obtain ⟨htable, htime⟩ := (hs.blocked hc hnull).table
    have hres : passeren e c s = scheduler (suspend e c (insertBlocked e.state.regA1 c s).1) := by
      simp only [passeren, if_pos hv]
    obtain ⟨ht, hst⟩ := suspend_turns (e := e) (c := c) htable htime
    refine ⟨_, _, rfl, .block hk hv hc, hres ▸ ht, hres ▸ hst, fun _ p hp => ?_⟩
    rw [hres] at hp ⊢
    exact scheduler_ldst (.inl rfl) hp
  · have hres : passeren e c s = Nucleus.ldst e.state.advance (s.setMem e.state.regA1 (s.mem e.state.regA1 - 1)) := by
      simp only [passeren, if_neg hv]
    rw [hres]
    exact stay_turns (.none (.inr (.inl ⟨hk, by omega⟩))) rfl rfl

theorem verhogen_turns (hs : Sound s) (hk : e.kind = .service .verhogen) : Turns L e s (some (verhogen e s)) := by
  cases hq : waiting e.state.regA1 s with
  | nil =>
    have hres : verhogen e s = Nucleus.ldst e.state.advance (s.setMem e.state.regA1 (s.mem e.state.regA1 + 1)) := by
      simp only [verhogen, removeBlocked_nil hs.asl hq]
    rw [hres]
    exact stay_turns (.none (.inr (.inr ⟨hk, hq⟩))) rfl rfl
  | cons p rest =>
    obtain ⟨s₁, hrem, -, -, htable, htime⟩ := wake_table hs.asl hq
    have hres : verhogen e s = Nucleus.ldst e.state.advance (s₁.enqueue p) := by
      simp only [verhogen, hrem]
    refine ⟨_, _, rfl, .wake hk hq, ?_, ?_, by simp⟩
    · rw [hres]
      show s₁.table.apply (.insert p) = s.table.apply (.insert p)
      rw [htable]
    · rw [hres]
      exact htime

/-- DOIO and CLOCKWAIT. -/
theorem waitDevSem_turns (hs : Sound s) (hc : s.currentProcess = some c) {k : Addr} (hnull : k ≠ NULL)
    (hk : e.kind = .service .doio ∨ e.kind = .service .clockWait) (writes : List (Addr × Word)) :
    Turns L e s (some (scheduler (waitDevSem e c k {s with devWrites := writes}))) := by
  have hs' : Sound {s with devWrites := writes} := ⟨hs.asl.congr rfl rfl rfl, hs.ok, hs.current, hs.control⟩
  let s₁ : Nucleus := if (s.mem k).toInt ≤ 0 then (insertBlocked k c {s with devWrites := writes}).1
    else Nucleus.setMem {s with devWrites := writes} k (s.mem k - 1)
  have h₁ : s₁.table = s.table ∧ s₁.startTime = s.startTime := by
    simp only [s₁]
    split
    · exact (hs'.blocked hc hnull).table
    · exact ⟨rfl, rfl⟩
  let s₂ : Nucleus := {suspend e c s₁ with softBlockCount := (suspend e c s₁).softBlockCount + 1}
  have hres : waitDevSem e c k {s with devWrites := writes} = s₂ := rfl
  obtain ⟨ht, hst⟩ := suspend_turns (e := e) (c := c) h₁.1 h₁.2
  refine ⟨_, _, rfl, .wait hk hc, ?_, ?_, fun _ p hp => scheduler_ldst (.inl rfl) hp⟩
  · rw [hres, ← ht, (scheduler_table s₂).1, (scheduler_table (suspend e c s₁)).1]
    rfl
  · rw [hres, ← hst, (scheduler_table s₂).2, (scheduler_table (suspend e c s₁)).2]

theorem yield_turns (hc : s.currentProcess = some c) (hk : e.kind = .service .yield) :
    Turns L e s (some (yield e c s)) := by
  have hready : (suspend e c s).readyQueue = s.readyQueue := congrArg View.ready (suspend_view e c s)
  refine ⟨_, _, rfl, .yield hk hc, ?_, (scheduler_table _).2.trans ?_, fun _ p hp => scheduler_ldst (.inl ?_) hp⟩
  · rw [yield, (scheduler_table _).1, ProcTable.moves_append, ← suspend_table, hready]
    cases hq : s.readyQueue with
    | nil =>
      simp only [List.isEmpty_nil, if_true, ProcTable.moves, List.foldl_cons, List.foldl_nil]
      rfl
    | cons p rest =>
      simp only [List.isEmpty_cons, Bool.false_eq_true, reduceCtorEq, if_false, ProcTable.moves, List.foldl_cons,
        List.foldl_nil]
      rw [← hq, ← hready]
      rfl
  · rw [hready]
    split <;> rfl
  · rw [hready]
    split <;> rfl

theorem handlePLT_turns (hc : s.currentProcess = some c) (hk : e.kind = .interrupt (some 1)) :
    Turns L e s (handlePLT e s) := by
  let s₁ := s.setPcb c {s.pcb c with pS := copyState e.state}
  have hres : handlePLT e s = some (scheduler (s₁.enqueue c)) := by simp only [handlePLT, hc, s₁]
  have htable : s₁.table = s.table.apply (.save c e.state 0) := by
    refine ProcTable.ext rfl ?_ ?_ ?_ rfl rfl
    all_goals
      funext p
      by_cases hp : p = c
      · subst hp
        simp [Nucleus.table, Nucleus.setPcb, ProcTable.apply, s₁]
      · simp [Nucleus.table, Nucleus.setPcb, ProcTable.apply, s₁, hp]
  refine ⟨_, _, hres, .preempt hk hc, ?_, (scheduler_table _).2,
    fun _ p hp => scheduler_ldst (.inr (insertProcQ_ne_nil _ c _)) hp⟩
  rw [(scheduler_table _).1]
  show (s₁.table.apply (.insert c)).apply .dispatch =
    ((s.table.apply (.save c e.state 0)).apply (.insert c)).apply .dispatch
  rw [htable]

/-- Killing the caller. -/
theorem die_turns (hs : Sound s) (hc : s.currentProcess = some c)
    (hk : (e.kind = .service .termProcess ∧ termTarget e c s = some (some c)) ∨
      ∃ index st, e.kind = .passUp index st) :
    Turns L e s ((killProcess L killFuel c s).map fun s => scheduler {s with currentProcess := none}) := by
  obtain ⟨ks, s₁, hkill, hkd, hks⟩ := killProcess_killed L hs.asl hs.ok (hs.current c hc).live
  obtain ⟨htable, htime⟩ := hkd.table
  refine ⟨scheduler {s₁ with currentProcess := none}, _, by rw [hkill]; rfl, .die hk hc hks hkd.live, ?_,
    (scheduler_table _).2.trans htime, fun _ p hp => scheduler_ldst (.inl rfl) hp⟩
  rw [(scheduler_table _).1]
  show (s₁.table.apply .leave).apply .dispatch = ((s.table.apply (.remove ks)).apply .leave).apply .dispatch
  rw [htable]

theorem termProcess_turns (hs : Sound s) (hc : s.currentProcess = some c)
    (hk : e.kind = .service .termProcess) {r : PcbPtr} (htarget : termTarget e c s = some (some r))
    (hanc : Below s.links r c → r = c) : Turns L e s (termProcess L e c s) := by
  by_cases hrc : r = c
  · subst hrc
    have hcur : ∀ s₁, killProcess L killFuel r s = some s₁ → s₁.currentProcess = some r := by
      intro s₁ hkill
      obtain ⟨ks, s₂, hkill', hkd, -⟩ := killProcess_killed L hs.asl hs.ok (hs.current r hc).live
      obtain rfl := Option.some.inj (hkill.symm.trans hkill')
      exact (congrArg View.current hkd.view).trans hc
    have hres : termProcess L e r s =
        (killProcess L killFuel r s).map fun s => scheduler {s with currentProcess := none} := by
      simp only [termProcess, terminate, htarget, Option.bind_some]
      cases hkill : killProcess L killFuel r s with
      | none => rfl
      | some s₁ => simp only [Option.map_some, hcur s₁ hkill, if_true]
    rw [hres]
    exact die_turns hs hc (.inl ⟨hk, htarget⟩)
  · obtain ⟨ks, s₁, hkill, hkd, hks⟩ := killProcess_killed L hs.asl hs.ok (termTarget_live hs hc htarget)
    have hcur : s₁.currentProcess = some c := (congrArg View.current hkd.view).trans hc
    obtain ⟨htable, htime⟩ := hkd.table
    have hck : c ∉ ks := fun hck => hrc (hanc ((hks c).mp hck))
    refine ⟨s₁.ldst e.state.advance, _, ?_, .kill hk htarget hrc hc hks hck hkd.live, htable, htime, by simp⟩
    simp only [termProcess, terminate, htarget, Option.bind_some, hkill, Option.map_some, hcur,
      Option.some.injEq, hrc, if_false]

theorem passUpOrDie_turns (hs : Sound s) (hc : s.currentProcess = some c) {index : Fin 2} {st : State}
    (hk : e.kind = .passUp index st) : Turns L e s (passUpOrDie L index st s) := by
  by_cases hsup : (s.pcb c).pSupportStruct = NULL
  · have hres : passUpOrDie L index st s =
        (killProcess L killFuel c s).map fun s => scheduler {s with currentProcess := none} := by
      simp only [passUpOrDie, hc, hsup, if_true]
    rw [hres]
    exact die_turns hs hc (.inr ⟨index, st, hk⟩)
  · rw [passUpOrDie_eq hc hsup]
    exact stay_turns (.none (.inl (by rw [hk]; rfl))) rfl rfl

/-! ### Interrupts -/

theorem resume_turns {s₁ : Nucleus} {ms : List Move} (htable : s₁.table = s.table.moves ms)
    (htime : s₁.startTime = s.startTime) (hcur : s₁.currentProcess = s.currentProcess)
    (hms : .dispatch ∉ ms) (hturned : Turned L e s (ms ++ resumeMoves s)) :
    Turns L e s (some (resume e.state s₁)) := by
  obtain ⟨ht, hst⟩ := resume_table e.state s₁
  have hmoves : resumeMoves s₁ = resumeMoves s := by simp only [resumeMoves, hcur]
  refine ⟨_, _, rfl, hturned, by rw [ht, htable, hmoves, ProcTable.moves_append], hst.trans htime, fun hd p hp => ?_⟩
  cases hc : s.currentProcess with
  | none =>
    have hres : resume e.state s₁ = scheduler s₁ := by simp only [resume, hcur, hc]
    rw [hres] at hp ⊢
    exact scheduler_ldst (.inl (hcur.trans hc)) hp
  | some c =>
    have hnil : resumeMoves s = [] := by simp only [resumeMoves, hc, reduceCtorEq, if_false]
    rw [hnil, List.append_nil] at hd
    exact absurd hd hms

theorem handleDevice_turns (hs : Sound s) {line : Nat} (hk : e.kind = .interrupt (some line))
    (h1 : line ≠ 1) (h2 : line ≠ 2) {status : Word} {command reg : Addr}
    (hserved : e.served line = some (status, command, reg)) (hidx : findDeviceIndex reg ≠ -1) :
    Turns L e s (handleDevice L line e s) := by
  have hasl : Asl (s.writeDev command ACK) := hs.asl.congr rfl rfl rfl
  have hwait : waiting (L.devSem (findDeviceIndex reg)) (s.writeDev command ACK) =
      waiting (L.devSem (findDeviceIndex reg)) s := waiting_congr rfl rfl _
  rw [handleDevice_eq hserved hidx]
  cases hq : waiting (L.devSem (findDeviceIndex reg)) s with
  | nil =>
    simp only [completeDevice, removeBlocked_nil hasl (hwait.trans hq)]
    exact @resume_turns L e s _ [] rfl rfl rfl List.not_mem_nil (.nobody hk h1 h2 hserved hq)
  | cons p rest =>
    obtain ⟨s₁, hrem, -, -, htable, htime⟩ := wake_table hasl (hwait.trans hq)
    let s₂ := s₁.setPcb p {s₁.pcb p with pS := (s₁.pcb p).pS.setA0 status}
    have hcomplete : (s₂.enqueue p).table = s₁.table.apply (.complete p status) := by
      have hprio : s₂.prio = s₁.prio := field_setPcb (fun b => b.pPrio.toInt) rfl
      refine ProcTable.ext rfl ?_ ?_ ?_ (congrArg (insertProcQ · p s₁.readyQueue) hprio) rfl
      all_goals
        funext x
        by_cases hx : x = p
        · subst hx
          simp [Nucleus.table, Nucleus.setPcb, Nucleus.enqueue, ProcTable.apply, s₂]
        · simp [Nucleus.table, Nucleus.setPcb, Nucleus.enqueue, ProcTable.apply, s₂, hx]
    simp only [completeDevice, hrem]
    refine @resume_turns L e s _ [.complete p status] ?_ htime ?_ (by simp) (.complete hk h1 h2 hserved hq)
    · show (s₂.enqueue p).table = s.table.apply (.complete p status)
      rw [hcomplete, htable]
      rfl
    · exact congrArg ProcTable.current htable

theorem Drained.table {s₁ : Nucleus} (h : Drained L s s₁) :
    s₁.table = s.table.moves ((MultiPandOS.waiting L.clock s).map .insert) ∧ s₁.startTime = s.startTime := by
  rw [ProcTable.moves_inserts, h.frame]
  refine ⟨ProcTable.ext rfl ?_ ?_ ?_ rfl rfl, rfl⟩
  all_goals
    funext p
    by_cases hp : p ∈ MultiPandOS.waiting L.clock s <;> simp [Nucleus.table, hp]

theorem handleIntervalClock_turns (hs : Sound s) (hk : e.kind = .interrupt (some 2)) :
    Turns L e s (handleIntervalClock L e s) := by
  obtain ⟨s₁, htick, hd⟩ := clockTick_ends (L := L) hs.asl (hs.ok.waiting_nodup L.clock)
  obtain ⟨htable, htime⟩ := hd.table
  have hcur : s₁.currentProcess = s.currentProcess := congrArg ProcTable.current (htable.trans (s.table.moves_inserts _))
  have hres : handleIntervalClock L e s = some (resume e.state s₁) := by
    simp only [handleIntervalClock, htick, Option.map_some]
  rw [hres]
  exact resume_turns htable htime hcur (by simp) (.tick hk)

end Handlers

/-! ### The step -/

/-- **What every handler does to the process table**, for every trap within the rule. -/
theorem handler_turns {L : Layout} {Term : Nucleus → Trap → PcbPtr → Prop} {s : Nucleus} {e : Trap}
    (hs : Sound s) (h : Allowed L Term s e) (hterm : ∀ c, Term s e c → TermOk s e c) :
    Turns L e s (exceptionHandler L e s) := by
  have hreached := h.reached hs.control hterm
  generalize exceptionHandler L e s = result at hreached ⊢
  cases hreached with
  | preempt kind caller => exact handlePLT_turns caller kind
  | tick kind => exact handleIntervalClock_turns hs kind
  | complete kind plt clock served index => exact handleDevice_turns hs kind plt clock served index
  | passUp kind caller => exact passUpOrDie_turns hs caller kind
  | create kind caller free => exact createProcess_turns hs caller kind free
  | terminate kind caller target rule => exact termProcess_turns hs caller kind target rule
  | passeren kind caller null => exact passeren_turns hs caller kind null
  | verhogen kind caller => exact verhogen_turns hs kind
  | wait writes caller null kind => exact waitDevSem_turns hs caller null (kind.imp And.left And.left) writes
  | yield kind caller => exact yield_turns caller kind
  | answer st kind caller => exact stay_turns (.none (.inl kind)) rfl rfl

/-! ### Moves that fit -/

/-- Only free pcbs are created, only the running process is saved, and nobody is made
ready twice or killed twice. -/
def Move.Fits (t : ProcTable) : Move → Prop
  | .create p _ _ => (∃ rest, t.free = p :: rest) ∧ p ∉ t.ready
  | .save c _ _ => t.current = some c ∧ c ∉ t.free
  | .complete p _ => p ∉ t.ready ∧ p ∉ t.free
  | .insert p => p ∉ t.ready
  | .tail p => p ∉ t.ready ∧ t.ready ≠ []
  | .remove ks => ∀ p ∈ ks, p ∉ t.free
  | _ => True

def ProcTable.Fits : ProcTable → List Move → Prop
  | _, [] => True
  | t, m :: ms => m.Fits t ∧ ProcTable.Fits (t.apply m) ms

theorem ProcTable.Fits.append {t : ProcTable} {ms ns : List Move} (h : t.Fits ms) (h' : (t.moves ms).Fits ns) :
    t.Fits (ms ++ ns) := by
  induction ms generalizing t with
  | nil => exact h'
  | cons m rest ih => exact ⟨h.1, ih h.2 h'⟩

theorem resumeMoves_fits (s : Nucleus) (t : ProcTable) : t.Fits (resumeMoves s) := by
  unfold resumeMoves
  split
  · exact ⟨trivial, trivial⟩
  · exact trivial

theorem inserts_fits {ps : List PcbPtr} (hps : ps.Nodup) {t : ProcTable} (ht : ∀ p ∈ ps, p ∉ t.ready) :
    t.Fits (ps.map .insert) := by
  induction ps generalizing t with
  | nil => exact trivial
  | cons p rest ih =>
    obtain ⟨hp, hrest⟩ := List.nodup_cons.mp hps
    refine ⟨ht p (List.mem_cons_self ..), ih hrest fun x hx hmem => ?_⟩
    rcases (mem_insertProcQ t.prio p x t.ready).mp hmem with hxp | hmem
    · exact hp (hxp ▸ hx)
    · exact ht x (List.mem_cons_of_mem p hx) hmem

/-- The moves of every handler fit. -/
theorem Turned.fits {L : Layout} {e : Trap} {s : Nucleus} {ms : List Move} (hs : Sound s) (h : Turned L e s ms) :
    s.table.Fits ms := by
  have hcur : ∀ {c}, s.currentProcess = some c → c ∉ s.readyQueue ∧ c ∉ s.pcbFreeH :=
    fun hc => ⟨(hs.current _ hc).unready, (hs.current _ hc).live⟩
  have hwoken : ∀ {k p rest}, waiting k s = p :: rest → p ∉ s.readyQueue ∧ p ∉ s.pcbFreeH := by
    intro k p rest hq
    have hp : p ∈ s.view.waiting k := by
      show p ∈ waiting k s
      rw [hq]
      exact List.mem_cons_self ..
    exact ⟨hs.ok.unready hp, hs.ok.waiting_live hp⟩
  cases h with
  | preempt _ hc => exact ⟨⟨hc, (hcur hc).2⟩, (hcur hc).1, trivial, trivial⟩
  | tick =>
    have hps : ∀ p ∈ waiting L.clock s, p ∉ s.table.ready := fun p hp => hs.ok.unready hp
    exact (inserts_fits (hs.ok.waiting_nodup L.clock) hps).append (resumeMoves_fits s _)
  | complete _ _ _ _ hq => exact ⟨hwoken hq, resumeMoves_fits s _⟩
  | nobody => exact resumeMoves_fits s _
  | @create p rest _ hf =>
    have hp : p ∉ s.readyQueue := by
      intro hp
      refine hs.ok.ready_live p hp ?_
      show p ∈ s.pcbFreeH
      rw [hf]
      exact List.mem_cons_self ..
    exact ⟨⟨⟨rest, hf⟩, hp⟩, hp, trivial⟩
  | kill _ _ _ _ _ _ hlive => exact ⟨hlive, trivial⟩
  | die _ _ _ hlive => exact ⟨hlive, trivial, trivial, trivial⟩
  | block _ _ hc => exact ⟨⟨hc, (hcur hc).2⟩, trivial, trivial, trivial⟩
  | wait _ hc => exact ⟨⟨hc, (hcur hc).2⟩, trivial, trivial, trivial⟩
  | wake _ hq => exact ⟨(hwoken hq).1, trivial⟩
  | yield _ hc =>
    refine ⟨⟨hc, (hcur hc).2⟩, trivial, ?_, trivial, trivial⟩
    by_cases hready : s.readyQueue = []
    · rw [if_pos hready]
      exact (hcur hc).1
    · rw [if_neg hready]
      exact ⟨(hcur hc).1, hready⟩
  | none => exact trivial

end MultiPandOS
