import MultiPandOS.Phase1.PcbLinks
import MultiPandOS.Phase1.Pcb

/-! Process queues as rings of `p_list`s.

`Queue m head q` reads the queue of `head` off the pointers: the `p_list`s of `q`, in
this order, in a circular list. Each operation finds its place by following `next` and
then writes to nodes of this list and to the `p_list` it links in or out, so that no
other list can tell (`Elsewhere`). -/
namespace MultiPandOS.Heap
open CircularList Listx

variable {P A : Type}

def Queue (m : Heap P A) (head : ListHead P A) (q : List P) : Prop := Circular m.link head (q.map .pList)

/-- Nothing but links of `nodes` is written to: other lists are what they were. -/
structure Elsewhere (nodes : List (ListHead P A)) (m m' : Heap P A) : Prop where
  pcb : m'.pcb = m.pcb
  link : ∀ n, n ∉ nodes → m'.link n = m.link n
  lists : ∀ other xs, Circular m.link other xs → (∀ n ∈ other :: xs, n ∉ nodes) →
    Circular m'.link other xs

theorem elsewhere_link {nodes : List (ListHead P A)} {m : Heap P A} {link : Links (ListHead P A)}
    (h : ∀ n, n ∉ nodes → link n = m.link n) : Elsewhere nodes m {m with link := link} :=
  ⟨rfl, h, fun _ _ hlist hnodes => hlist.congr fun n hn => h n (hnodes n hn)⟩

section Operations
variable [DecidableEq P] [DecidableEq A] {m : Heap P A} {head : ListHead P A} {p : P} {q : List P} {fuel : Nat}

/-- A traversal that looks for the first element with `c`. -/
theorem forEach_queue {β : Type} (h : Queue m head q) (hfuel : q.length < fuel) (c : P → Prop) [DecidablePred c]
    (r : ListHead P A → β) :
    listForEach m.link head (fun iter => do
      let item ← containerOf iter
      if c item then some (some (r iter)) else some none) fuel (m.link head).next =
      some ((q.find? (fun x => decide (c x))).map fun x => r (.pList x)) := by
  refine listForEach_find h (fun y _ => ?_) hfuel
  by_cases hc : c y <;> simp [containerOf, hc]

theorem insertProcQ_queue (h : Queue m head q) (hp : .pList p ∉ head :: q.map ListHead.pList)
    (hfuel : q.length < fuel) :
    ∃ m', insertProcQ fuel head p m = some m' ∧ Queue m' head (PriorityQueue.insert m.prio p q) ∧
      Elsewhere (.pList p :: head :: q.map .pList) m m' := by
  have hloop := forEach_queue h hfuel (fun x => m.prio x < m.prio p)
    fun iter => listAdd (.pList p) (m.link iter).prev m.link
  cases hfind : q.find? (fun x => decide (m.prio x < m.prio p)) with
  | none =>
    -- nobody is of lower priority: at the tail
    have hall : ∀ x ∈ q, m.prio p ≤ m.prio x := by
      intro x hx
      have := List.find?_eq_none.mp hfind x hx
      simpa using this
    have hq : PriorityQueue.insert m.prio p q = q ++ [p] := by
      have := PriorityQueue.insert_append hall []
      simpa [PriorityQueue.insert] using this
    obtain ⟨hring, hframe⟩ := listAddTail_circular h hp
    refine ⟨{m with link := listAddTail (.pList p) head m.link}, ?_, ?_, elsewhere_link fun n hn => ?_⟩
    · rw [insertProcQ, hloop, hfind]
      rfl
    · rw [hq]
      simpa [Queue] using hring
    · rw [List.mem_cons, not_or] at hn
      exact hframe n hn.2 hn.1
  | some y =>
    -- `y` is the first one: between its predecessor and itself
    obtain ⟨hy, front, back, rfl, hfront⟩ := List.find?_eq_some_iff_append.mp hfind
    have hlt : m.prio y < m.prio p := by simpa using hy
    have hq : PriorityQueue.insert m.prio p (front ++ y :: back) = front ++ p :: y :: back := by
      rw [PriorityQueue.insert_append fun x hx => by simpa using hfront x hx]
      simp [PriorityQueue.insert, hlt]
    rw [List.map_append, List.map_cons] at hp
    have hsplit : Circular m.link head (front.map .pList ++ .pList y :: back.map .pList) := by
      simpa [Queue] using h
    obtain ⟨a, ha⟩ := exists_getLast? head (front.map ListHead.pList)
    have hprev : (m.link (.pList y)).prev = a := (hsplit.joined_at ha rfl).2
    obtain ⟨hring, hframe⟩ := listAdd_circular hsplit ha hp
    refine ⟨{m with link := listAdd (.pList p) (m.link (.pList y)).prev m.link}, ?_, ?_,
      elsewhere_link fun n hn => ?_⟩
    · rw [insertProcQ, hloop, hfind]
      rfl
    · rw [hq, hprev]
      simpa [Queue] using hring
    · rw [List.mem_cons, not_or, List.map_append, List.map_cons] at hn
      rw [hprev]
      exact hframe n hn.2 hn.1

/-- What `list_del` of the `p_list` of `p` does to the queue `p` is in. -/
theorem listDel_queue {front back : List P} (h : Queue m head (front ++ p :: back)) :
    Queue {m with link := listDel (.pList p) m.link} head (front ++ back) ∧
      listDel (.pList p) m.link (.pList p) = ⟨.pList p, .pList p⟩ ∧
      Elsewhere (head :: (front ++ p :: back).map .pList) m {m with link := listDel (.pList p) m.link} := by
  have hsplit : Circular m.link head (front.map .pList ++ .pList p :: back.map .pList) := by
    simpa [Queue] using h
  obtain ⟨hring, hself, hframe⟩ := listDel_circular hsplit
  refine ⟨by simpa [Queue] using hring, hself, elsewhere_link fun n hn => hframe n ?_⟩
  rwa [List.map_append, List.map_cons] at hn

theorem removeProcQ_queue (h : Queue m head q) :
    ∃ m', removeProcQ head m = some (m', q.head?) ∧ Queue m' head q.tail ∧
      (∀ p ∈ q.head?, m'.link (.pList p) = ⟨.pList p, .pList p⟩) ∧ Elsewhere (head :: q.map .pList) m m' := by
  cases q with
  | nil =>
    have hempty : listEmpty head m.link = true := (listEmpty_iff h).mpr rfl
    refine ⟨m, ?_, h, fun _ hp => (Option.not_mem_none _ hp).elim, elsewhere_link fun _ _ => rfl⟩
    rw [removeProcQ, if_pos hempty]
    rfl
  | cons p rest =>
    have hempty : ¬ listEmpty head m.link = true := by
      rw [listEmpty_iff h]
      simp
    have hnext : (m.link head).next = .pList p := h.next_head rfl
    obtain ⟨hqueue, hself, helse⟩ := listDel_queue (show Queue m head ([] ++ p :: rest) from h)
    refine ⟨{m with link := listDel (.pList p) m.link}, ?_, hqueue, fun x hx => ?_, helse⟩
    · rw [removeProcQ, if_neg hempty, hnext]
      rfl
    · obtain rfl : p = x := Option.some.inj hx
      exact hself

theorem outProcQ_queue (h : Queue m head q) (hfuel : q.length < fuel) (p : P) :
    ∃ m', outProcQ fuel head p m = some (m', if p ∈ q then some p else none) ∧
      Queue m' head (q.erase p) ∧ (p ∉ q → m' = m) ∧
      (p ∈ q → m'.link (.pList p) = ⟨.pList p, .pList p⟩) ∧ Elsewhere (head :: q.map .pList) m m' := by
  have hloop := forEach_queue h hfuel (fun x => x = p) fun iter => listDel iter m.link
  by_cases hp : p ∈ q
  · obtain ⟨front, back, hfront, rfl, herase⟩ := List.exists_erase_eq hp
    have hfind : (front ++ p :: back).find? (fun x => decide (x = p)) = some p := by
      refine List.find?_eq_some_iff_append.mpr ⟨by simp, front, back, rfl, fun x hx => ?_⟩
      have hne : x ≠ p := fun he => hfront (he ▸ hx)
      simpa using hne
    obtain ⟨hqueue, hself, helse⟩ := listDel_queue h
    refine ⟨{m with link := listDel (.pList p) m.link}, ?_, by rwa [herase], fun hn => absurd hp hn, fun _ => hself,
      helse⟩
    rw [outProcQ, hloop, hfind, if_pos hp]
    rfl
  · have hfind : q.find? (fun x => decide (x = p)) = none := by
      refine List.find?_eq_none.mpr fun x hx => ?_
      have hne : x ≠ p := fun he => hp (he ▸ hx)
      simpa using hne
    refine ⟨m, ?_, by rwa [List.erase_of_not_mem hp], fun _ => rfl, fun h' => absurd h' hp, elsewhere_link fun _ _ => rfl⟩
    rw [outProcQ, hloop, hfind, if_neg hp]
    rfl

/-- **Process queues, pointer by pointer.** Any queue, of any length, anywhere in memory.
Each operation comes to an end, given a step of its loop for every element and for the
sentinel: insertion before the first element of lower priority, removal of the head,
removal of `p` from wherever it is. A process that leaves is linked to itself, and what
shares no node with this queue is as it was. -/
theorem processQueues_links (h : Queue m head q) (hfuel : q.length < fuel) :
    (∀ p, .pList p ∉ head :: q.map ListHead.pList →
      ∃ m', insertProcQ fuel head p m = some m' ∧
        Queue m' head (q.takeWhile (fun x => m.prio p ≤ m.prio x) ++
          p :: q.dropWhile (fun x => m.prio p ≤ m.prio x)) ∧
        Elsewhere (.pList p :: head :: q.map .pList) m m') ∧
    (∃ m', removeProcQ head m = some (m', q.head?) ∧ Queue m' head q.tail ∧
      (∀ p ∈ q.head?, m'.link (.pList p) = ⟨.pList p, .pList p⟩) ∧ Elsewhere (head :: q.map .pList) m m') ∧
    ∀ p, ∃ m', outProcQ fuel head p m = some (m', if p ∈ q then some p else none) ∧
      Queue m' head (q.erase p) ∧ (p ∉ q → m' = m) ∧
      (p ∈ q → m'.link (.pList p) = ⟨.pList p, .pList p⟩) ∧ Elsewhere (head :: q.map .pList) m m' := by
  refine ⟨fun p hp => ?_, removeProcQ_queue h, outProcQ_queue h hfuel⟩
  rw [← PriorityQueue.insert_eq_takeWhile]
  exact insertProcQ_queue h hp hfuel

end Operations

namespace Sample

/-- Three processes queued on one sentinel, by falling priority, one on another. Process 4
has the priority of process 2. -/
def memory : Heap Nat Bool where
  link
    | .other true => ⟨.pList 1, .pList 3⟩
    | .pList 1 => ⟨.pList 2, .other true⟩
    | .pList 2 => ⟨.pList 3, .pList 1⟩
    | .pList 3 => ⟨.other true, .pList 2⟩
    | .other false => ⟨.pList 5, .pList 5⟩
    | .pList 5 => ⟨.other false, .other false⟩
    | n => ⟨n, n⟩
  pcb p := ⟨none, State.zero, 0, NULL, NULL, if p = 4 then 7 else 9 - BitVec.ofNat 32 p, BitVec.ofNat 32 p⟩

theorem memory_queue : Queue memory (.other true) [1, 2, 3] := ⟨by decide, by decide⟩

end Sample

open Sample in
theorem processQueues_links_sample :
    (∃ m', insertProcQ 4 (.other true) 4 memory = some m' ∧ Queue m' (.other true) [1, 2, 4, 3]) ∧
      ∃ m', outProcQ 4 (.other true) 2 memory = some (m', some 2) ∧ Queue m' (.other true) [1, 3] := by
  obtain ⟨hinsert, -, hout⟩ := processQueues_links memory_queue (show [1, 2, 3].length < 4 by decide)
  obtain ⟨m₁, hm₁, hq₁, -⟩ := hinsert 4 (by decide)
  obtain ⟨m₂, hm₂, hq₂, -⟩ := hout 2
  exact ⟨⟨m₁, hm₁, hq₁⟩, m₂, hm₂, hq₂⟩

/-! ### Queues as lists

On the processes of `pcbFree_table` the head is that of `Phase1/Pcb`, where a queue is the
list of its elements. -/

section Lists
variable {A : Type} [DecidableEq A] {m : Heap PcbPtr A} {head : ListHead PcbPtr A} {q : List PcbPtr}

theorem headProcQ_refines (h : Queue m head q) : headProcQ head m = some (MultiPandOS.headProcQ q) := by
  cases q with
  | nil => rw [headProcQ, if_pos ((listEmpty_iff h).mpr rfl)]; rfl
  | cons p rest =>
    have hnext : (m.link head).next = .pList p := h.next_head rfl
    rw [headProcQ, if_neg (by rw [listEmpty_iff h]; simp), hnext]
    rfl

end Lists

end MultiPandOS.Heap
