import MultiPandOS.Library.PriorityQueue
import MultiPandOS.Nucleus.SemMap
import MultiPandOS.Nucleus.Table

/-! The scheduling discipline.

YIELD puts its caller at the end of `readyQueue` whatever its priority, so the queue is
not sorted. Any sequence of the operations of the nucleus keeps it `Ordered` all the
same, and whoever yields stays behind those that were ready then (`run_schedule`). The
handlers do nothing else to the queue (`run_queueOps`). -/
namespace MultiPandOS
open Forest Runs PriorityQueue

/-- What the nucleus does to `readyQueue`: CREATEPROCESS gives a pcb its priority before
it inserts it, and `killProcess` takes a process out wherever it is. -/
inductive QueueOp where
  | create (p : PcbPtr) (prio : Int)
  | insert (p : PcbPtr)
  | yield (p : PcbPtr)
  | dispatch
  | out (p : PcbPtr)

/-- `readyQueue` and the priorities, with when and how every process last entered. -/
structure Ready where
  prio : PcbPtr → Int
  queue : List PcbPtr
  time : Nat
  entry : PcbPtr → Entry

def Ready.empty (prio : PcbPtr → Int) : Ready := ⟨prio, [], 0, fun _ => ⟨0, true⟩⟩

/-- `p` enters, and `queue` is what becomes of the queue. -/
def Ready.enter (p : PcbPtr) (inserted : Bool) (queue : List PcbPtr) (r : Ready) : Ready :=
  { prio := r.prio
    queue := queue
    time := r.time + 1
    entry := Function.update r.entry p ⟨r.time, inserted⟩ }

def queueStep (op : QueueOp) (r : Ready) : Option Ready :=
  match op with
  | .create p prio => some {r with prio := Function.update r.prio p prio}
  | .insert p => some (r.enter p true (insertProcQ r.prio p r.queue))
  | .yield p =>
    if emptyProcQ r.queue then some (r.enter p true (insertProcQ r.prio p r.queue))
    else some (r.enter p false (r.queue ++ [p]))
  | .dispatch => some {r with queue := (removeProcQ r.queue).1}
  | .out p => some {r with queue := (outProcQ r.queue p).1}

/-- Nobody enters the queue, or is created, while in it. -/
def QueueRule (r : Ready) : QueueOp → Prop
  | .create p _ => p ∉ r.queue
  | .insert p => p ∉ r.queue
  | .yield p => p ∉ r.queue
  | _ => True

instance (r : Ready) : (op : QueueOp) → Decidable (QueueRule r op)
  | .create _ _ => inferInstanceAs (Decidable (_ ∉ _))
  | .insert _ => inferInstanceAs (Decidable (_ ∉ _))
  | .yield _ => inferInstanceAs (Decidable (_ ∉ _))
  | .dispatch => isTrue trivial
  | .out _ => isTrue trivial

/-- Who is dispatched or killed. -/
def gone (r : Ready) (op : QueueOp) (_ : Ready) : List PcbPtr :=
  match op with
  | .dispatch => (removeProcQ r.queue).2.toList
  | .out p => [p]
  | _ => []

/-! ### The order of the queue -/

/-- What every operation keeps. -/
structure ReadyOk (r : Ready) : Prop where
  nodup : r.queue.Nodup
  ordered : Ordered r.prio r.entry r.queue
  past : ∀ p ∈ r.queue, (r.entry p).time < r.time

theorem ReadyOk.sublist {r : Ready} (h : ReadyOk r) {q : List PcbPtr} (hsub : q.Sublist r.queue) :
    ReadyOk {r with queue := q} :=
  ⟨h.nodup.sublist hsub, h.ordered.sublist hsub, fun p hp => h.past p (hsub.subset hp)⟩

theorem Ready.enter_entry {r : Ready} {p : PcbPtr} (hp : p ∉ r.queue) {inserted : Bool} {q : List PcbPtr}
    {x : PcbPtr} (hx : x ∈ r.queue) : (r.enter p inserted q).entry x = r.entry x := by
  have hxp : x ≠ p := by
    rintro rfl
    exact hp hx
  exact Function.update_of_ne hxp _ _

theorem ReadyOk.insert {r : Ready} (h : ReadyOk r) {p : PcbPtr} (hp : p ∉ r.queue) :
    ReadyOk (r.enter p true (insertProcQ r.prio p r.queue)) := by
  let r' := r.enter p true (insertProcQ r.prio p r.queue)
  have hself : r'.entry p = ⟨r.time, true⟩ := Function.update_self ..
  have hold : ∀ x ∈ r.queue, r'.entry x = r.entry x := fun x hx => Ready.enter_entry hp hx
  refine ⟨insertProcQ_nodup h.nodup hp, ?_, fun x hx => ?_⟩
  · show Ordered r.prio r'.entry (insertProcQ r.prio p r.queue)
    rw [insertProcQ_eq]
    refine (h.ordered.congr (fun _ _ => rfl) hold).insert fun x hx => ?_
    rw [hold x hx, hself]
    exact h.past x hx
  · show (r'.entry x).time < r.time + 1
    rcases (mem_insertProcQ r.prio p x r.queue).mp hx with rfl | hx
    · rw [hself]
      exact Nat.lt_succ_self _
    · rw [hold x hx]
      exact Nat.lt_succ_of_lt (h.past x hx)

theorem ReadyOk.append {r : Ready} (h : ReadyOk r) {p : PcbPtr} (hp : p ∉ r.queue) :
    ReadyOk (r.enter p false (r.queue ++ [p])) := by
  let r' := r.enter p false (r.queue ++ [p])
  have hself : r'.entry p = ⟨r.time, false⟩ := Function.update_self ..
  have hold : ∀ x ∈ r.queue, r'.entry x = r.entry x := fun x hx => Ready.enter_entry hp hx
  refine ⟨List.nodup_append_comm.mp (List.nodup_cons.mpr ⟨hp, h.nodup⟩),
    (h.ordered.congr (fun _ _ => rfl) hold).append (by rw [hself]), fun x hx => ?_⟩
  show (r'.entry x).time < r.time + 1
  rcases List.mem_append.mp hx with hx | hx
  · rw [hold x hx]
    exact Nat.lt_succ_of_lt (h.past x hx)
  · rw [List.mem_singleton.mp hx, hself]
    exact Nat.lt_succ_self _

theorem ReadyOk.step {r r' : Ready} (h : ReadyOk r) {op : QueueOp} (hop : QueueRule r op)
    (hstep : queueStep op r = some r') : ReadyOk r' := by
  cases op with
  | create p w =>
    obtain rfl := Option.some.inj hstep
    refine ⟨h.nodup, h.ordered.congr (fun x hx => ?_) fun _ _ => rfl, h.past⟩
    have hxp : x ≠ p := by
      rintro rfl
      exact hop hx
    exact Function.update_of_ne hxp _ _
  | insert p =>
    obtain rfl := Option.some.inj hstep
    exact h.insert hop
  | yield p =>
    simp only [queueStep] at hstep
    split at hstep
    · obtain rfl := Option.some.inj hstep
      exact h.insert hop
    · obtain rfl := Option.some.inj hstep
      exact h.append hop
  | dispatch =>
    obtain rfl := Option.some.inj hstep
    exact h.sublist (List.tail_sublist _)
  | out p =>
    obtain rfl := Option.some.inj hstep
    refine h.sublist ?_
    rw [outProcQ_fst]
    exact List.erase_sublist

/-- The discipline, in the words of the queue: an inserted process is preceded only by
processes of at least its priority, those of its own priority that were inserted came
earlier, and the process dispatched next is below no inserted one. -/
structure Disciplined (r : Ready) : Prop where
  priority : ∀ front p back, r.queue = front ++ p :: back → (r.entry p).inserted = true →
    ∀ q ∈ front, r.prio p ≤ r.prio q
  fifo : ∀ front p back, r.queue = front ++ p :: back → (r.entry p).inserted = true →
    ∀ q ∈ front, (r.entry q).inserted = true → r.prio q = r.prio p → (r.entry q).time < (r.entry p).time
  dispatch : ∀ p, (removeProcQ r.queue).2 = some p →
    ∀ q ∈ r.queue, (r.entry q).inserted = true → r.prio q ≤ r.prio p

theorem ReadyOk.before {r : Ready} (h : ReadyOk r) {front back : List PcbPtr} {p q : PcbPtr}
    (hsplit : r.queue = front ++ p :: back) (hq : q ∈ front) : Before r.prio r.entry q p := by
  have hordered := h.ordered
  rw [hsplit] at hordered
  exact (List.pairwise_append.mp hordered).2.2 q hq p (List.mem_cons_self ..)

theorem ReadyOk.disciplined {r : Ready} (h : ReadyOk r) : Disciplined r := by
  refine ⟨fun front p back hsplit hp q hq => (h.before hsplit hq hp).1,
    fun front p back hsplit hp q hq hins heq => (h.before hsplit hq hp).2 hins heq, fun p hp q hq hins => ?_⟩
  cases hqueue : r.queue with
  | nil =>
    rw [hqueue] at hq
    cases hq
  | cons x rest =>
    rw [hqueue] at hp hq
    obtain rfl : x = p := Option.some.inj hp
    rcases List.mem_cons.mp hq with rfl | hq
    · exact Int.le_refl _
    · have hordered := h.ordered
      rw [hqueue] at hordered
      exact ((List.pairwise_cons.mp hordered).1 q hq hins).1

/-! ### Whoever yields -/

/-- Of the processes `qs`, those not in `left` are still in front of `p`. -/
def Behind (p : PcbPtr) (qs left : List PcbPtr) (r : Ready) : Prop :=
  ∃ front back, r.queue = front ++ p :: back ∧ ∀ q ∈ qs, q ∈ left ∨ q ∈ front

theorem Behind.step {p : PcbPtr} {qs left : List PcbPtr} {r r' : Ready} {op : QueueOp}
    (h : Behind p qs left r) (hop : op ≠ .out p) (hstep : queueStep op r = some r') :
    (∀ q ∈ qs, q ∈ left ++ gone r op r') ∨ Behind p qs (left ++ gone r op r') r' := by
  obtain ⟨front, back, hsplit, hqs⟩ := h
  have hkeep : ∀ front' : List PcbPtr, (∀ x ∈ front, x ∈ front') →
      ∀ q ∈ qs, q ∈ left ++ gone r op r' ∨ q ∈ front' := by
    intro front' hsub q hq
    rcases hqs q hq with hq | hq
    · exact .inl (List.mem_append_left _ hq)
    · exact .inr (hsub q hq)
  have hinsert : ∀ x, ∃ front' back', insertProcQ r.prio x r.queue = front' ++ p :: back' ∧
      ∀ y ∈ front, y ∈ front' := by
    intro x
    rw [insertProcQ_eq, hsplit]
    exact insert_split r.prio x p front back
  cases op with
  | create x w =>
    obtain rfl := Option.some.inj hstep
    exact .inr ⟨front, back, hsplit, hkeep front fun _ hx => hx⟩
  | insert x =>
    obtain rfl := Option.some.inj hstep
    obtain ⟨front', back', heq, hsub⟩ := hinsert x
    exact .inr ⟨front', back', heq, hkeep front' hsub⟩
  | yield x =>
    have hne : emptyProcQ r.queue = false := by
      rw [hsplit]
      cases front <;> rfl
    simp only [queueStep, hne, Bool.false_eq_true, if_false] at hstep
    obtain rfl := Option.some.inj hstep
    refine .inr ⟨front, back ++ [x], ?_, hkeep front fun _ hx => hx⟩
    show r.queue ++ [x] = front ++ p :: (back ++ [x])
    rw [hsplit, List.append_assoc]
    rfl
  | dispatch =>
    obtain rfl := Option.some.inj hstep
    cases front with
    | nil =>
      -- `p` itself: nobody was left in front of it
      refine .inl fun q hq => ?_
      rcases hqs q hq with hq | hq
      · exact List.mem_append_left _ hq
      · exact (List.not_mem_nil hq).elim
    | cons y rest =>
      have hgone : gone r .dispatch {r with queue := (removeProcQ r.queue).1} = [y] := by
        rw [gone, hsplit]
        rfl
      refine .inr ⟨rest, back, ?_, fun q hq => ?_⟩
      · show (removeProcQ r.queue).1 = _
        rw [hsplit]
        rfl
      · rw [hgone]
        rcases hqs q hq with hq | hq
        · exact .inl (List.mem_append_left _ hq)
        · rcases List.mem_cons.mp hq with rfl | hq
          · exact .inl (by simp)
          · exact .inr hq
  | out x =>
    obtain rfl := Option.some.inj hstep
    have hpx : p ≠ x := by
      rintro rfl
      exact hop rfl
    have hgone : gone r (.out x) {r with queue := (outProcQ r.queue x).1} = [x] := rfl
    rw [hgone]
    by_cases hx : x ∈ front
    · refine .inr ⟨front.erase x, back, ?_, fun q hq => ?_⟩
      · show (outProcQ r.queue x).1 = _
        rw [outProcQ_fst, hsplit, List.erase_append_left _ hx]
      · by_cases hqx : q = x
        · exact .inl (by simp [hqx])
        · rcases hqs q hq with hq | hq
          · exact .inl (List.mem_append_left _ hq)
          · exact .inr ((List.mem_erase_of_ne hqx).mpr hq)
    · refine .inr ⟨front, back.erase x, ?_, hkeep front fun _ hx => hx⟩
      show (outProcQ r.queue x).1 = _
      rw [outProcQ_fst, hsplit, List.erase_append_right _ hx, List.erase_cons_tail (by simpa using hpx)]

/-- From a YIELD of `p` until it is dispatched. -/
theorem run_behind {p : PcbPtr} {qs : List PcbPtr} {r₁ r : Ready} {ops : List QueueOp}
    (hok : ReadyOk r₁) (hstart : Behind p qs [] r₁) (h : Run queueStep QueueRule r₁ ops r)
    (hout : QueueOp.out p ∉ ops) :
    (∀ q ∈ qs, q ∈ trace queueStep gone r₁ ops) ∨ Behind p qs (trace queueStep gone r₁ ops) r := by
  have hrun : ReadyOk r ∧ (QueueOp.out p ∉ ops → (∀ q ∈ qs, q ∈ trace queueStep gone r₁ ops) ∨
      Behind p qs (trace queueStep gone r₁ ops) r) := by
    clear hout
    induction h with
    | nil => exact ⟨hok, fun _ => .inr hstart⟩
    | @snoc ops r op r' hrun hop hstep ih =>
      refine ⟨ih.1.step hop hstep, fun hout => ?_⟩
      rw [hrun.trace_snoc hstep]
      have hout' : QueueOp.out p ∉ ops ∧ op ≠ .out p := by
        simp only [List.mem_append, List.mem_singleton, not_or] at hout
        exact ⟨hout.1, fun h => hout.2 h.symm⟩
      rcases ih.2 hout'.1 with hall | hbehind
      · exact .inl fun q hq => List.mem_append_left _ (hall q hq)
      · exact hbehind.step hout'.2 hstep
  exact hrun.2 hout

/-! ### Every sequence of operations -/

theorem run_readyOk {prio : PcbPtr → Int} {ops : List QueueOp} {r : Ready}
    (h : Run queueStep QueueRule (Ready.empty prio) ops r) : ReadyOk r :=
  h.invariant ReadyOk ⟨List.nodup_nil, List.Pairwise.nil, fun _ hp => (List.not_mem_nil hp).elim⟩
    fun _ _ _ hr hop hstep => hr.step hop hstep

/-- **The scheduling discipline**, after any operations with any priorities; and when a
process that yielded is about to be dispatched, everybody who was ready at that moment
has been dispatched or killed in between, unless it was killed itself. -/
theorem run_schedule {prio : PcbPtr → Int} {ops : List QueueOp} {r : Ready}
    (h : Run queueStep QueueRule (Ready.empty prio) ops r) :
    Disciplined r ∧ ∀ p r₁ mid r₂, QueueRule r (.yield p) → queueStep (.yield p) r = some r₁ →
      Run queueStep QueueRule r₁ mid r₂ → (removeProcQ r₂.queue).2 = some p → QueueOp.out p ∉ mid →
      ∀ q ∈ r.queue, q ∈ trace queueStep gone r₁ mid := by
  have hok := run_readyOk h
  refine ⟨hok.disciplined, fun p r₁ mid r₂ hp hyield hrun hhead hout q hq => ?_⟩
  have hok₁ : ReadyOk r₁ := hok.step hp hyield
  have hne : emptyProcQ r.queue = false := by
    cases hqueue : r.queue with
    | nil => rw [hqueue] at hq; cases hq
    | cons => rfl
  simp only [queueStep, hne, Bool.false_eq_true, if_false] at hyield
  obtain rfl := Option.some.inj hyield
  have hstart : Behind p r.queue [] (r.enter p false (r.queue ++ [p])) :=
    ⟨r.queue, [], rfl, fun q hq => .inr hq⟩
  rcases run_behind hok₁ hstart hrun hout with hall | ⟨front, back, hsplit, hqs⟩
  · exact hall q hq
  · have hok₂ : ReadyOk r₂ := hrun.invariant ReadyOk hok₁ fun _ _ _ hr hop hstep => hr.step hop hstep
    have hfront : front = [] := by
      cases front with
      | nil => rfl
      | cons y rest =>
        -- `p` would head the queue and stand behind `y`
        rw [hsplit] at hhead
        obtain rfl : y = p := Option.some.inj hhead
        have hnd := hok₂.nodup
        rw [hsplit] at hnd
        exact absurd (List.mem_append_right rest (List.mem_cons_self ..)) (List.nodup_cons.mp hnd).1
    rcases hqs q hq with hq | hq
    · exact hq
    · rw [hfront] at hq
      cases hq

namespace Sample

/-- Three processes of priorities 2, 1 and 2; the first to be dispatched yields, two of
the others come back by their priority, and one is killed. -/
def queueOps : List QueueOp :=
  [.create firstProcess 2, .insert firstProcess, .create child 1, .insert child, .create firstProcess.rev 2,
    .insert firstProcess.rev, .dispatch]

/-- From the YIELD of the first one to its next dispatch. -/
def queueOpsLater : List QueueOp := [.dispatch, .insert firstProcess.rev, .dispatch, .out child]

end Sample

open Sample in
theorem run_schedule_sample : ∃ r r₁ r₂, exec queueStep queueOps (Ready.empty fun _ => 0) = some r ∧
    queueStep (.yield firstProcess) r = some r₁ ∧ exec queueStep queueOpsLater r₁ = some r₂ ∧
    r.queue = [firstProcess.rev, child] ∧ Disciplined r ∧
    ∀ q ∈ [firstProcess.rev, child], q ∈ trace queueStep gone r₁ queueOpsLater := by
  have hfollows : Follows queueStep QueueRule queueOps (Ready.empty fun _ => 0) := by decide +kernel
  obtain ⟨r, hexec, hrun⟩ := hfollows.run
  have hr : (exec queueStep queueOps (Ready.empty fun _ => 0)).all (fun r => r.queue = [firstProcess.rev, child] ∧
      Follows queueStep QueueRule (.yield firstProcess :: queueOpsLater) r ∧
      (exec queueStep (.yield firstProcess :: queueOpsLater) r).all fun r₂ =>
        (removeProcQ r₂.queue).2 = some firstProcess) = true := by decide +kernel
  rw [hexec] at hr
  obtain ⟨hqueue, ⟨hrule, hfollows₁⟩, hhead⟩ := of_decide_eq_true hr
  cases hyield : queueStep (.yield firstProcess) r with
  | none =>
    rw [hyield] at hfollows₁
    exact hfollows₁.elim
  | some r₁ =>
    rw [hyield] at hfollows₁
    obtain ⟨r₂, hexec₂, hrun₂⟩ := Follows.run hfollows₁
    have hhead₂ : (removeProcQ r₂.queue).2 = some firstProcess := by
      simpa only [exec, hyield, Option.bind_some, hexec₂, Option.all_some, decide_eq_true_eq] using hhead
    obtain ⟨hdisc, hlater⟩ := run_schedule hrun
    have hne : firstProcess ≠ child := by decide
    have hall := hlater firstProcess r₁ queueOpsLater r₂ hrule hyield hrun₂ hhead₂ (by simp [queueOpsLater, hne])
    rw [hqueue] at hall
    exact ⟨r, r₁, r₂, hexec, hyield, hexec₂, hqueue, hdisc, hall⟩

/-! ### The handlers -/

/-- What a move does to the queue. -/
def Move.ops : Move → List QueueOp
  | .create p _ prio => [.create p prio.toInt]
  | .complete p _ => [.insert p]
  | .insert p => [.insert p]
  | .tail p => [.yield p]
  | .remove ks => ks.map .out
  | .dispatch => [.dispatch]
  | _ => []

/-- The queue and the priorities of a table. -/
structure Shows (r : Ready) (t : ProcTable) : Prop where
  ok : ReadyOk r
  queue : r.queue = t.ready
  prio : r.prio = t.prio

theorem run_outs {r : Ready} (hok : ReadyOk r) (ks : List PcbPtr) :
    Run queueStep QueueRule r (ks.map .out) {r with queue := r.queue.filter (· ∉ ks)} := by
  have hfollows : ∀ ks : List PcbPtr, ∀ r : Ready, ReadyOk r →
      Run queueStep QueueRule r (ks.map .out) {r with queue := r.queue.filter (· ∉ ks)} := by
    intro ks
    induction ks with
    | nil =>
      intro r _
      simpa using (Run.nil : Run queueStep QueueRule r [] r)
    | cons k rest ih =>
      intro r hok
      have hfirst : Run queueStep QueueRule r ([] ++ [.out k]) {r with queue := r.queue.erase k} :=
        .snoc .nil trivial (by simp only [queueStep, outProcQ_fst])
      have hok' : ReadyOk {r with queue := r.queue.erase k} := hok.sublist List.erase_sublist
      have hlast := hfirst.append (ih _ hok')
      have hq : (r.queue.erase k).filter (· ∉ rest) = r.queue.filter (· ∉ k :: rest) := by
        rw [erase_eq_filter hok.nodup, List.filter_filter]
        apply List.filter_congr
        intro x _
        by_cases hx : x = k <;> simp [hx]
      rw [← hq]
      exact hlast
  exact hfollows ks r hok

theorem Shows.apply {r : Ready} {t : ProcTable} (h : Shows r t) {m : Move} (hm : m.Fits t) :
    ∃ r', Run queueStep QueueRule r m.ops r' ∧ Shows r' (t.apply m) := by
  have hone : ∀ op r', QueueRule r op → queueStep op r = some r' → r'.queue = (t.apply m).ready →
      r'.prio = (t.apply m).prio → m.ops = [op] →
      ∃ r', Run queueStep QueueRule r m.ops r' ∧ Shows r' (t.apply m) := by
    intro op r' hop hstep hqueue hprio hops
    refine ⟨r', ?_, h.ok.step hop hstep, hqueue, hprio⟩
    rw [hops]
    exact .snoc .nil hop hstep
  cases m with
  | create p st w =>
    have hp : p ∉ r.queue := h.queue ▸ hm.2
    refine hone (.create p w.toInt) _ hp rfl h.queue ?_ rfl
    show Function.update r.prio p w.toInt = _
    rw [h.prio]
    funext x
    by_cases hx : x = p <;> simp [ProcTable.apply, ProcTable.prio, hx]
  | complete p w =>
    have hp : p ∉ r.queue := h.queue ▸ hm.1
    refine hone (.insert p) _ hp rfl ?_ h.prio rfl
    show insertProcQ r.prio p r.queue = insertProcQ t.prio p t.ready
    rw [h.prio, h.queue]
  | insert p =>
    have hp : p ∉ r.queue := h.queue ▸ hm
    refine hone (.insert p) _ hp rfl ?_ h.prio rfl
    show insertProcQ r.prio p r.queue = insertProcQ t.prio p t.ready
    rw [h.prio, h.queue]
  | tail p =>
    have hp : p ∉ r.queue := h.queue ▸ hm.1
    have hne : emptyProcQ r.queue = false := by
      rw [h.queue]
      cases hready : t.ready with
      | nil => exact absurd hready hm.2
      | cons => rfl
    refine hone (.yield p) (r.enter p false (r.queue ++ [p])) hp ?_ ?_ h.prio rfl
    · simp only [queueStep, hne, Bool.false_eq_true, if_false]
    · show r.queue ++ [p] = t.ready ++ [p]
      rw [h.queue]
  | remove ks =>
    refine ⟨_, run_outs h.ok ks, h.ok.sublist List.filter_sublist, ?_, h.prio⟩
    show r.queue.filter (· ∉ ks) = t.ready.filter (· ∉ ks)
    rw [h.queue]
  | dispatch =>
    refine hone .dispatch _ trivial rfl ?_ ?_ rfl
    · show r.queue.tail = _
      rw [h.queue, ProcTable.dispatch_ready]
    · rw [ProcTable.dispatch_eq]
      exact h.prio
  | _ => exact ⟨r, .nil, h.ok, h.queue, h.prio⟩

theorem Shows.moves {r : Ready} {t : ProcTable} (h : Shows r t) {ms : List Move} (hms : t.Fits ms) :
    ∃ r', Run queueStep QueueRule r (ms.flatMap Move.ops) r' ∧ Shows r' (t.moves ms) := by
  induction ms generalizing r t with
  | nil => exact ⟨r, .nil, h⟩
  | cons m rest ih =>
    obtain ⟨r₁, hrun, h₁⟩ := h.apply hms.1
    obtain ⟨r', hrun', h'⟩ := ih h₁ hms.2
    exact ⟨r', hrun.append hrun', h'⟩

/-- The scheduler, if an interrupt finds nobody running. -/
def resumeOps (s : Nucleus) : List QueueOp := if s.currentProcess = none then [.dispatch] else []

/-- The operations of the handler that a trap reaches, in order. -/
inductive Queued (L : Layout) (e : Trap) (s : Nucleus) : List QueueOp → Prop where
  | preempt {c} : e.kind = .interrupt (some 1) → s.currentProcess = some c → Queued L e s [.insert c, .dispatch]
  | tick : e.kind = .interrupt (some 2) → Queued L e s ((waiting L.clock s).map .insert ++ resumeOps s)
  | complete {line status command reg p rest} : e.kind = .interrupt (some line) → line ≠ 1 → line ≠ 2 →
      e.served line = some (status, command, reg) → waiting (L.devSem (findDeviceIndex reg)) s = p :: rest →
      Queued L e s (.insert p :: resumeOps s)
  | nobody {line status command reg} : e.kind = .interrupt (some line) → line ≠ 1 → line ≠ 2 →
      e.served line = some (status, command, reg) → waiting (L.devSem (findDeviceIndex reg)) s = [] →
      Queued L e s (resumeOps s)
  | create {p rest} : e.kind = .service .createProcess → s.pcbFreeH = p :: rest →
      Queued L e s [.create p e.state.regA2.toInt, .insert p]
  | kill {c r} {ks : List PcbPtr} : e.kind = .service .termProcess → termTarget e c s = some (some r) → r ≠ c →
      s.currentProcess = some c → (∀ q, q ∈ ks ↔ Below s.links r q) → Queued L e s (ks.map .out)
  | die {c} {ks : List PcbPtr} : (e.kind = .service .termProcess ∧ termTarget e c s = some (some c)) ∨
      (∃ index st, e.kind = .passUp index st) → s.currentProcess = some c →
      (∀ q, q ∈ ks ↔ Below s.links c q) → Queued L e s (ks.map .out ++ [.dispatch])
  | suspend {c} : (e.kind = .service .passeren ∧ (s.mem e.state.regA1).toInt ≤ 0) ∨ e.kind = .service .doio ∨
      e.kind = .service .clockWait → s.currentProcess = some c → Queued L e s [.dispatch]
  | wake {p rest} : e.kind = .service .verhogen → waiting e.state.regA1 s = p :: rest → Queued L e s [.insert p]
  | yield {c} : e.kind = .service .yield → s.currentProcess = some c → Queued L e s [.yield c, .dispatch]
  | none : e.kind.quiet ∨ (e.kind = .service .passeren ∧ 0 < (s.mem e.state.regA1).toInt) ∨
      (e.kind = .service .verhogen ∧ waiting e.state.regA1 s = []) → Queued L e s []

section Handlers
variable {L : Layout} {e : Trap} {s s' : Nucleus} {r : Ready}

theorem resumeOps_eq (s : Nucleus) : (resumeMoves s).flatMap Move.ops = resumeOps s := by
  unfold resumeMoves resumeOps
  split <;> rfl

/-- YIELD does not look at the priority, unless nobody is ready. -/
theorem Shows.yield {t : ProcTable} {c : PcbPtr} (h : Shows r t) (hc : c ∉ t.ready) :
    ∃ r', Run queueStep QueueRule r [.yield c] r' ∧ Shows r' (t.apply (if t.ready = [] then .insert c else .tail c)) := by
  by_cases hready : t.ready = []
  · have hqueue : r.queue = [] := h.queue.trans hready
    have hsame : queueStep (.yield c) r = queueStep (.insert c) r := by
      simp only [queueStep, hqueue, emptyProcQ, List.isEmpty_nil, if_true]
    have hrule : QueueRule r (.insert c) := by
      rw [QueueRule, hqueue]
      exact List.not_mem_nil
    refine ⟨r.enter c true (insertProcQ r.prio c r.queue), .snoc .nil hrule hsame, h.ok.insert hrule, ?_, ?_⟩
    · rw [if_pos hready]
      show insertProcQ r.prio c r.queue = insertProcQ t.prio c t.ready
      rw [h.prio, h.queue]
    · rw [if_pos hready]
      exact h.prio
  · rw [if_neg hready]
    exact h.apply (m := .tail c) ⟨hc, hready⟩

theorem Shows.turned {ms : List Move} (h : Shows r s.table) (hturned : Turned L e s ms) (hfits : s.table.Fits ms) :
    ∃ ops r', Queued L e s ops ∧ Run queueStep QueueRule r ops r' ∧ Shows r' (s.table.moves ms) := by
  have hops : ∀ {ops}, Queued L e s ops → ms.flatMap Move.ops = ops →
      ∃ ops r', Queued L e s ops ∧ Run queueStep QueueRule r ops r' ∧ Shows r' (s.table.moves ms) := by
    rintro ops hqueued rfl
    obtain ⟨r', hrun, hshows⟩ := h.moves hfits
    exact ⟨_, r', hqueued, hrun, hshows⟩
  cases hturned with
  | preempt kind caller => exact hops (.preempt kind caller) rfl
  | tick kind =>
    refine hops (.tick kind) ?_
    rw [List.flatMap_append, resumeOps_eq, List.flatMap_map]
    exact congrArg (· ++ resumeOps s) (List.map_eq_flatMap ..).symm
  | complete kind plt clock served queue =>
    exact hops (.complete kind plt clock served queue) (congrArg (List.cons _) (resumeOps_eq s))
  | nobody kind plt clock served queue => exact hops (.nobody kind plt clock served queue) (resumeOps_eq s)
  | create kind free => exact hops (.create kind free) rfl
  | kill kind target other caller below spared live =>
    exact hops (.kill kind target other caller below) (List.append_nil _)
  | die kind caller below live => exact hops (.die kind caller below) rfl
  | block kind value caller => exact hops (.suspend (.inl ⟨kind, value⟩) caller) rfl
  | wait kind caller => exact hops (.suspend (.inr kind) caller) rfl
  | wake kind queue => exact hops (.wake kind queue) rfl
  | @yield c kind caller =>
    -- the operation of the source does the case distinction
    obtain ⟨hsave, hleave, hyield, -⟩ := hfits
    have hc : c ∉ s.readyQueue := by
      split at hyield
      · exact hyield
      · exact hyield.1
    have hsuspend : s.table.Fits (suspendMoves e c s) := ⟨hsave, hleave, trivial⟩
    obtain ⟨r₁, hrun, hshows⟩ := h.moves hsuspend
    obtain ⟨r₂, hrun₂, hshows₂⟩ := hshows.yield (c := c) hc
    obtain ⟨r₃, hrun₃, hshows₃⟩ := hshows₂.apply (m := .dispatch) trivial
    exact ⟨_, r₃, .yield kind caller, (hrun.append hrun₂).append hrun₃, hshows₃⟩
  | none kind => exact hops (.none kind) rfl

/-- The operations of one trap. -/
theorem queueOps_step (hs : Sound s) (hallowed : Allowed L TermOk s e) (hstep : exceptionHandler L e s = some s')
    (h : Shows r s.table) : ∃ ops r', Queued L e s ops ∧ Run queueStep QueueRule r ops r' ∧ Shows r' s'.table := by
  obtain ⟨s₁, ms, hres, hturned, htable, -, -⟩ := handler_turns hs hallowed fun _ => id
  obtain rfl : s' = s₁ := Option.some.inj (hstep.symm.trans hres)
  rw [htable]
  exact h.turned hturned (hturned.fits hs)

/-- **The nucleus does nothing else to `readyQueue`**: in every run each trap performs the
operations of its handler, and the queue is what they make of it one after the other. -/
theorem run_queueOps {b : Boot} {es : List Trap} (h : Run (exceptionHandler L) (Allowed L TermOk) (main L b) es s) :
    ∃ opss r, List.Forall₂ (fun (x : Nucleus × Trap) ops => Queued L x.2 x.1 ops)
        (trace (exceptionHandler L) (fun s e _ => [(s, e)]) (main L b) es) opss ∧
      Run queueStep QueueRule (Ready.empty (main L b).table.prio) opss.flatten r ∧ r.queue = s.readyQueue ∧
      r.prio = s.prio := by
  have hshows : ∃ opss r, List.Forall₂ (fun (x : Nucleus × Trap) ops => Queued L x.2 x.1 ops)
        (trace (exceptionHandler L) (fun s e _ => [(s, e)]) (main L b) es) opss ∧
      Run queueStep QueueRule (Ready.empty (main L b).table.prio) opss.flatten r ∧ Shows r s.table := by
    induction h with
    | nil =>
      obtain ⟨rest, -, hmain⟩ := main_eq L b
      have hready : (main L b).readyQueue = [] := by rw [hmain]; rfl
      exact ⟨[], _, .nil, .nil, run_readyOk .nil, hready.symm, rfl⟩
    | @snoc es s e s' hrun hallowed hstep ih =>
      obtain ⟨opss, r, hqueued, hops, hr⟩ := ih
      obtain ⟨ops, r', hqueued', hops', hr'⟩ := queueOps_step (run_sound (fun _ _ _ => id) hrun) hallowed hstep hr
      refine ⟨opss ++ [ops], r', ?_, ?_, hr'⟩
      · rw [hrun.trace_snoc hstep]
        exact List.rel_append hqueued (.cons hqueued' .nil)
      · rw [List.flatten_append, List.flatten_singleton]
        exact hops.append hops'
  obtain ⟨opss, r, hqueued, hops, hr⟩ := hshows
  exact ⟨opss, r, hqueued, hops, hr.queue, hr.prio⟩

end Handlers

end MultiPandOS
