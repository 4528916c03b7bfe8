import MultiPandOS.Library.Simulation
import MultiPandOS.Phase1.AslProofs
import MultiPandOS.Phase1.Allocation
import MultiPandOS.Phase2.Links

/-! The lists of the nucleus as rings of pointers.

`Represents n s` says that the links of `n` are the lists of `s`: every list head is the
head of a circular list, no node is in two of them, and everything that is not a list is
the same. On that, each function of phase 1 on pointers refines the function on lists.
What is linked in must be in no list before (`Unlisted`), and what is linked out is in
none afterwards. While boot makes one list after the other, `RepresentsOn` names those
that are there. -/
namespace MultiPandOS
open CircularList Listx Runs

/-- The fields of a `pcb_t` that are no lists. -/
def Pcb.fields (b : Pcb) : PcbFields PcbPtr :=
  ⟨b.pParent, b.pS, b.pTime, b.pSemAdd, b.pSupportStruct, b.pPrio, b.pPid⟩

namespace Nucleus

def globals (s : Nucleus) : Globals :=
  { currentProcess := s.currentProcess
    processCount := s.processCount
    softBlockCount := s.softBlockCount
    mem := s.mem
    startTime := s.startTime
    support := s.support
    devWrites := s.devWrites
    control := s.control }

/-- The elements of each list, as nodes. -/
def content (s : Nucleus) : Node → List Node
  | .pcbFreeH => s.pcbFreeH.map .pList
  | .pChild p => (s.pcb p).pChild.map .pSib
  | .other .readyQueue => s.readyQueue.map .pList
  | .other (.sProcq j) => (s.semd j).sProcq.map .pList
  | .other .semdH => s.semdH.map Linked.sLink
  | .other .semdFreeH => s.semdFreeH.map Linked.sLink
  | _ => []

end Nucleus

/-- The other nodes are elements of lists. -/
def isHead : Node → Bool
  | .pList _ => false
  | .pSib _ => false
  | .other (.sLink _) => false
  | _ => true

/-- `p_child` is a list head once the process has been handed out. -/
def heads (s : Nucleus) : Set Node := {x | isHead x = true ∧ ∀ p, x = .pChild p → p ∉ s.pcbFreeH}

theorem pcbFreeH_mem (s : Nucleus) : (.pcbFreeH : Node) ∈ heads s := ⟨rfl, nofun⟩

theorem pChild_mem {s : Nucleus} {p : PcbPtr} (h : p ∉ s.pcbFreeH) : (.pChild p : Node) ∈ heads s := by
  refine ⟨rfl, fun q hq => ?_⟩
  obtain rfl : p = q := ListHead.pChild.inj hq
  exact h

theorem readyQueue_mem (s : Nucleus) : Linked.readyQueue ∈ heads s := ⟨rfl, nofun⟩

theorem sProcq_mem (s : Nucleus) (j : SemdPtr) : Linked.sProcq j ∈ heads s := ⟨rfl, nofun⟩

theorem semdH_mem (s : Nucleus) : Linked.semdH ∈ heads s := ⟨rfl, nofun⟩

theorem semdFreeH_mem (s : Nucleus) : Linked.semdFreeH ∈ heads s := ⟨rfl, nofun⟩

theorem ne_of_mem_heads {s : Nucleus} {x y : Node} (hx : x ∈ heads s) (hy : isHead y = false) : y ≠ x := by
  rintro rfl
  exact Bool.false_ne_true (hy.symm.trans hx.1)

theorem heads_congr {s s' : Nucleus} (h : s'.pcbFreeH = s.pcbFreeH) : heads s' = heads s := by
  unfold heads
  rw [h]

/-- The lists of `H` are there, and what is no list. -/
structure RepresentsOn (H : Set Node) (n : Linked) (s : Nucleus) : Prop where
  rings : Rings H n.heap.link s.content
  pcb : ∀ p, n.heap.pcb p = (s.pcb p).fields
  sKey : ∀ j, n.sKey j = (s.semd j).sKey
  nextPid : n.nextPid = s.nextPid
  globals : n.globals = s.globals

abbrev Represents (n : Linked) (s : Nucleus) : Prop := RepresentsOn (heads s) n s

/-- The same answer. -/
def Returned {α : Type} (r : Linked × α) (r' : Nucleus × α) : Prop := Represents r.1 r'.1 ∧ r.2 = r'.2

/-! ### One list changes -/

section Content
variable {s s' : Nucleus}

theorem sLink_injective : Function.Injective Linked.sLink := fun i j h => by simpa [Linked.sLink] using h

theorem pList_injective : Function.Injective (ListHead.pList : PcbPtr → Node) := fun p q h => by simpa using h

theorem pSib_injective : Function.Injective (ListHead.pSib : PcbPtr → Node) := fun p q h => by simpa using h

/-- The lists are the same. -/
structure SameLists (s s' : Nucleus) : Prop where
  free : s'.pcbFreeH = s.pcbFreeH
  child : ∀ p, (s'.pcb p).pChild = (s.pcb p).pChild
  ready : s'.readyQueue = s.readyQueue
  procq : ∀ j, (s'.semd j).sProcq = (s.semd j).sProcq
  semdH : s'.semdH = s.semdH
  semdFreeH : s'.semdFreeH = s.semdFreeH

theorem SameLists.content (h : SameLists s s') : s'.content = s.content := by
  funext x
  unfold Nucleus.content
  split
  · rw [h.free]
  · rw [h.child]
  · rw [h.ready]
  · rw [h.procq]
  · rw [h.semdH]
  · rw [h.semdFreeH]
  · rfl

theorem sameLists_setPcb {p : PcbPtr} {b : Pcb} (hchild : b.pChild = (s.pcb p).pChild) : SameLists s (s.setPcb p b) := by
  refine ⟨rfl, fun q => ?_, rfl, fun _ => rfl, rfl, rfl⟩
  by_cases hq : q = p
  · subst hq
    simp [Nucleus.setPcb, hchild]
  · simp [Nucleus.setPcb, hq]

theorem content_eq_update {head : Node} {xs : List Node} (hhead : s'.content head = xs)
    (hother : ∀ x, x ≠ head → s'.content x = s.content x) : s'.content = Function.update s.content head xs := by
  funext x
  by_cases hx : x = head
  · rw [hx, hhead, Function.update_self]
  · rw [hother x hx, Function.update_of_ne hx]

theorem content_free (q : List PcbPtr) : Nucleus.content {s with pcbFreeH := q} =
    Function.update s.content .pcbFreeH (q.map .pList) := by
  refine content_eq_update rfl fun x hx => ?_
  unfold Nucleus.content
  split <;> first | rfl | exact absurd rfl hx

theorem content_ready (q : List PcbPtr) : Nucleus.content {s with readyQueue := q} =
    Function.update s.content Linked.readyQueue (q.map .pList) := by
  refine content_eq_update rfl fun x hx => ?_
  unfold Nucleus.content
  split <;> first | rfl | exact absurd rfl hx

theorem content_semdH (q : List SemdPtr) : Nucleus.content {s with semdH := q} =
    Function.update s.content Linked.semdH (q.map Linked.sLink) := by
  refine content_eq_update rfl fun x hx => ?_
  unfold Nucleus.content
  split <;> first | rfl | exact absurd rfl hx

theorem content_semdFreeH (q : List SemdPtr) : Nucleus.content {s with semdFreeH := q} =
    Function.update s.content Linked.semdFreeH (q.map Linked.sLink) := by
  refine content_eq_update rfl fun x hx => ?_
  unfold Nucleus.content
  split <;> first | rfl | exact absurd rfl hx

theorem content_setSemd (j : SemdPtr) (d : Semd) : (s.setSemd j d).content =
    Function.update s.content (Linked.sProcq j) (d.sProcq.map .pList) := by
  refine content_eq_update ?_ fun x hx => ?_
  · simp [Nucleus.content, Nucleus.setSemd, Linked.sProcq]
  · unfold Nucleus.content
    split
    · rfl
    · rfl
    · rfl
    · rename_i i
      have hi : i ≠ j := fun he => hx (by rw [he]; rfl)
      simp [Nucleus.setSemd, hi]
    · rfl
    · rfl
    · rfl

theorem content_setPcb (p : PcbPtr) (b : Pcb) : (s.setPcb p b).content =
    Function.update s.content (.pChild p) (b.pChild.map .pSib) := by
  refine content_eq_update ?_ fun x hx => ?_
  · simp [Nucleus.content, Nucleus.setPcb]
  · unfold Nucleus.content
    split
    · rfl
    · rename_i q
      have hq : q ≠ p := fun he => hx (by rw [he])
      simp [Nucleus.setPcb, hq]
    · rfl
    · rfl
    · rfl
    · rfl
    · rfl

end Content

/-! ### Nodes that are in no list -/

section Nodes
variable {n : Linked} {s : Nucleus} {p : PcbPtr}

/-- The `p_list` of `p` is in no list. -/
structure Unlisted (s : Nucleus) (p : PcbPtr) : Prop where
  free : p ∉ s.pcbFreeH
  ready : p ∉ s.readyQueue
  procq : ∀ j, p ∉ (s.semd j).sProcq

theorem unlisted_of_loose {s₀ : Nucleus} (h : Loose (heads s₀) s.content (.pList p)) : Unlisted s p := by
  refine ⟨fun hp => ?_, fun hp => ?_, fun j hp => ?_⟩
  · exact h.notMem (pcbFreeH_mem s₀) (List.mem_map_of_mem hp)
  · exact h.notMem (readyQueue_mem s₀) (List.mem_map_of_mem hp)
  · exact h.notMem (sProcq_mem s₀ j) (List.mem_map_of_mem hp)

theorem loose_pList : Loose (heads s) s.content (.pList p) ↔ Unlisted s p := by
  constructor
  · exact unlisted_of_loose
  · intro h x hx
    rw [List.mem_cons, not_or]
    refine ⟨ne_of_mem_heads hx rfl, fun hm => ?_⟩
    unfold Nucleus.content at hm
    split at hm
    · exact h.free (by simpa using hm)
    · simp at hm
    · exact h.ready (by simpa using hm)
    · exact h.procq _ (by simpa using hm)
    · simp [Linked.sLink] at hm
    · simp [Linked.sLink] at hm
    · cases hm

theorem loose_pSib (hchild : ∀ q, p ∉ (s.pcb q).pChild) : Loose (heads s) s.content (.pSib p) := by
  intro x hx
  rw [List.mem_cons, not_or]
  refine ⟨ne_of_mem_heads hx rfl, fun hm => ?_⟩
  unfold Nucleus.content at hm
  split at hm
  · simp at hm
  · exact hchild _ (by simpa using hm)
  · simp at hm
  · simp at hm
  · simp [Linked.sLink] at hm
  · simp [Linked.sLink] at hm
  · cases hm

/-- A queue of processes, as a ring. -/
theorem Represents.queue (h : Represents n s) {head : Node} (hh : head ∈ heads s) {q : List PcbPtr}
    (hq : s.content head = q.map .pList) : Heap.Queue n.heap head q := by
  have hring := h.rings.ring head hh
  rwa [hq] at hring

/-- One step of the loop for each element and one for the head. -/
theorem Represents.length_lt (h : Represents n s) {head : Node} (hh : head ∈ heads s) {γ : Type} [Fintype γ]
    {q : List γ} {node : γ → Node} (hq : s.content head = q.map node) (hcard : Fintype.card γ = MAXPROC) {fuel : Nat}
    (hfuel : MAXPROC < fuel) : q.length < fuel := by
  have hnd := (List.nodup_cons.mp (h.rings.ring head hh).nodup).2
  rw [hq] at hnd
  have hle := hnd.of_map.length_le_card
  omega

end Nodes

/-! ### Writes that are not to lists -/

section Writes
variable {n : Linked} {s s' : Nucleus}

/-- Only variables that are not lists are written. -/
theorem Represents.withGlobals (h : Represents n s) {g : Globals} (hg : g = s'.globals)
    (hs : s' = {s with
      currentProcess := s'.currentProcess
      processCount := s'.processCount
      softBlockCount := s'.softBlockCount
      mem := s'.mem
      startTime := s'.startTime
      support := s'.support
      devWrites := s'.devWrites
      control := s'.control}) : Represents {n with globals := g} s' := by
  have hlists : SameLists s s' := by
    rw [hs]
    exact ⟨rfl, fun _ => rfl, rfl, fun _ => rfl, rfl, rfl⟩
  refine ⟨?_, ?_, ?_, ?_, hg⟩
  · rw [hlists.content, heads_congr hlists.free]
    exact h.rings
  · rw [hs]
    exact h.pcb
  · rw [hs]
    exact h.sKey
  · rw [hs]
    exact h.nextPid

theorem Represents.setPcb (h : Represents n s) (p : PcbPtr) {b : Pcb} (hchild : b.pChild = (s.pcb p).pChild) :
    Represents (n.setPcb p b.fields) (s.setPcb p b) := by
  refine ⟨?_, fun q => ?_, h.sKey, h.nextPid, h.globals⟩
  · rw [(sameLists_setPcb hchild).content]
    exact h.rings
  · by_cases hq : q = p
    · subst hq
      simp [Linked.setPcb, Nucleus.setPcb]
    · simpa [Linked.setPcb, Nucleus.setPcb, hq] using h.pcb q

theorem Represents.setSemAdd (h : Represents n s) (p : PcbPtr) (k : Addr) :
    Represents (n.setSemAdd p k) (s.setPcb p {s.pcb p with pSemAdd := k}) := by
  have hset := h.setPcb p (b := {s.pcb p with pSemAdd := k}) rfl
  rwa [show n.setSemAdd p k = n.setPcb p (Pcb.fields {s.pcb p with pSemAdd := k}) by
    rw [Linked.setSemAdd, h.pcb p]; rfl]

theorem Represents.current (h : Represents n s) : n.globals.currentProcess = s.currentProcess :=
  congrArg Globals.currentProcess h.globals

/-- The priorities that `insertProcQ` compares. -/
theorem Represents.prio (h : Represents n s) : n.heap.prio = s.prio := by
  funext p
  simp only [Heap.prio, h.pcb p, Nucleus.prio, Pcb.fields]

end Writes

/-! ### Queues among other lists -/

section Queues
variable {m : Heap PcbPtr NucleusHead} {H : Set Node} {content : Node → List Node} {head : Node} {q : List PcbPtr}

theorem removeProcQ_rings (hr : Rings H m.link content) (hh : head ∈ H) (hq : content head = q.map .pList) :
    ∃ link, Heap.removeProcQ head m = some ({m with link := link}, q.head?) ∧
      Rings H link (Function.update content head (q.tail.map .pList)) ∧
      ∀ p ∈ q.head?, Loose H (Function.update content head (q.tail.map .pList)) (.pList p) := by
  have hring := hr.ring head hh
  rw [hq] at hring
  cases q with
  | nil =>
    have hempty : listEmpty head m.link = true := (listEmpty_iff hring).mpr rfl
    refine ⟨m.link, by rw [Heap.removeProcQ, if_pos hempty]; rfl, ?_, fun _ hp => (Option.not_mem_none _ hp).elim⟩
    rw [Function.update_eq_self_iff.mpr hq.symm]
    exact hr
  | cons p rest =>
    have hempty : ¬ listEmpty head m.link = true := by
      rw [listEmpty_iff hring]
      exact List.cons_ne_nil _ _
    have hnext : (m.link head).next = .pList p := hring.next_head rfl
    obtain ⟨hdel, hloose⟩ := listDel_rings hr hh (show content head = [] ++ .pList p :: rest.map .pList from hq)
    refine ⟨listDel (.pList p) m.link, ?_, hdel, fun x hx => ?_⟩
    · rw [Heap.removeProcQ, if_neg hempty, hnext]
      rfl
    · obtain rfl : p = x := Option.some.inj hx
      exact hloose

theorem outProcQ_rings (hr : Rings H m.link content) (hh : head ∈ H) (hq : content head = q.map .pList)
    {fuel : Nat} (hfuel : q.length < fuel) (p : PcbPtr) :
    ∃ link, Heap.outProcQ fuel head p m = some ({m with link := link}, (outProcQ q p).2) ∧
      Rings H link (Function.update content head ((outProcQ q p).1.map .pList)) ∧
      (p ∈ q → Loose H (Function.update content head ((outProcQ q p).1.map .pList)) (.pList p)) := by
  have hring := hr.ring head hh
  rw [hq] at hring
  obtain ⟨m', hout, hring', hsame, -, helse⟩ := Heap.outProcQ_queue hring hfuel p
  rw [outProcQ_fst]
  have hm' : m' = {m with link := m'.link} := by
    obtain ⟨link, pcb⟩ := m'
    obtain rfl : pcb = m.pcb := helse.pcb
    rfl
  have hres : (if p ∈ q then some p else none) = (outProcQ q p).2 := by
    unfold outProcQ
    split <;> rfl
  refine ⟨m'.link, by rw [hout, ← hm', hres], ?_, fun hp => ?_⟩
  · refine hr.write hh hring' (fun x hx => .inl ?_) fun x hx _ => helse.link x (hq ▸ hx)
    obtain ⟨y, hy, rfl⟩ := List.mem_map.mp hx
    rw [hq]
    exact List.mem_map_of_mem (List.mem_of_mem_erase hy)
  · refine hr.loose hh (by rw [hq]; exact List.mem_map_of_mem hp) ?_
    have hnd := List.nodup_cons.mp hring.nodup
    rw [List.mem_cons, not_or]
    refine ⟨fun he => hnd.1 (he ▸ List.mem_map_of_mem hp), fun hx => ?_⟩
    obtain ⟨y, hy, he⟩ := List.mem_map.mp hx
    exact hnd.2.of_map.not_mem_erase (pList_injective he ▸ hy)

end Queues

/-! ### Writes to one list -/

section Lists
variable {n : Linked} {s : Nucleus} {fuel : Nat} {p : PcbPtr}

/-- The links of one list, or of loose nodes, are written; nothing else is. -/
theorem Represents.setLink (h : Represents n s) (s' : Nucleus) {link : Links Node} (hrings : Rings (heads s') link s'.content)
    (hpcb : ∀ p, (s'.pcb p).fields = (s.pcb p).fields) (hkey : ∀ j, (s'.semd j).sKey = (s.semd j).sKey)
    (hpid : s'.nextPid = s.nextPid) (hg : s'.globals = s.globals) : Represents (n.setLink link) s' :=
  ⟨hrings, fun p => (h.pcb p).trans (hpcb p).symm, fun j => (h.sKey j).trans (hkey j).symm, h.nextPid.trans hpid.symm,
    h.globals.trans hg.symm⟩

theorem Represents.enqueue (h : Represents n s) (hfuel : MAXPROC < fuel) (hp : Unlisted s p) :
    Refines Represents (n.enqueue fuel p) (some (s.enqueue p)) := by
  have hloose := loose_pList.mpr hp
  have hqueue : Heap.Queue n.heap Linked.readyQueue s.readyQueue := h.queue (readyQueue_mem s) rfl
  have hlen : s.readyQueue.length < fuel := h.length_lt (readyQueue_mem s) rfl rfl hfuel
  obtain ⟨m, hm, hring, helse⟩ := Heap.insertProcQ_queue hqueue (hloose Linked.readyQueue (readyQueue_mem s)) hlen
  rw [← insertProcQ_eq, h.prio] at hring
  refine refines_of_answer (a := {n with heap := m}) (by rw [Linked.enqueue, hm, Option.map_some])
    ⟨?_, fun q => ?_, h.sKey, h.nextPid, h.globals⟩
  · rw [Nucleus.enqueue, content_ready]
    refine h.rings.write (readyQueue_mem s) hring (fun x hx => ?_) fun x hx hx' => helse.link x ?_
    · obtain ⟨q, hq, rfl⟩ := List.mem_map.mp hx
      rcases (mem_insertProcQ ..).mp hq with rfl | hq
      · exact .inr hloose
      · exact .inl (List.mem_map_of_mem hq)
    · rw [List.mem_cons, not_or]
      exact ⟨fun he => hx' (he ▸ hloose), hx⟩
  · exact (congrFun helse.pcb q).trans (h.pcb q)

end Lists

/-! ### The active semaphore list -/

section Asl
variable {n : Linked} {s : Nucleus} {fuel : Nat} {k : Addr} {p : PcbPtr} {j : SemdPtr}

/-- A traversal of `semd_h`. -/
theorem Represents.findSemd (h : Represents n s) (hfuel : MAXPROC < fuel) (k : Addr) :
    n.findSemd fuel k = some (findSemd k s) := by
  have hring : Circular n.heap.link Linked.semdH (s.semdH.map Linked.sLink) := h.rings.ring Linked.semdH (semdH_mem s)
  have hlen : s.semdH.length < fuel := h.length_lt (semdH_mem s) rfl rfl hfuel
  have hbody : ∀ j ∈ s.semdH, (do
      let item ← Linked.semdOf (Linked.sLink j)
      if n.sKey item = k then some (some item) else some none) =
        some (if (s.semd j).sKey == k then some (id j) else none) := by
    intro j _
    by_cases hj : (s.semd j).sKey = k <;> simp [Linked.semdOf, Linked.sLink, h.sKey j, hj]
  rw [Linked.findSemd]
  refine (listForEach_find hring hbody hlen).trans ?_
  rw [Option.map_id_fun, id_eq]
  rfl

theorem mem_semdH (hf : findSemd k s = some j) : j ∈ s.semdH := List.mem_of_find?_eq_some hf

theorem Represents.listEmpty_semdH (h : Represents n s) :
    listEmpty Linked.semdH n.heap.link = true ↔ s.semdH = [] := by
  rw [listEmpty_iff (h.rings.ring Linked.semdH (semdH_mem s))]
  exact List.map_eq_nil_iff

theorem content_procq (j : SemdPtr) (s : Nucleus) : s.content (Linked.sProcq j) = (s.semd j).sProcq.map .pList := rfl

theorem Represents.listEmpty_procq (h : Represents n s) (j : SemdPtr) :
    listEmpty (Linked.sProcq j) n.heap.link = (s.semd j).sProcq.isEmpty := by
  have hempty := listEmpty_iff (h.rings.ring (Linked.sProcq j) (sProcq_mem s j))
  rw [content_procq, List.map_eq_nil_iff, ← List.isEmpty_iff] at hempty
  exact Bool.eq_iff_iff.mpr hempty

/-- Where a traversal finds nothing, the test before it would have made no difference. -/
theorem Represents.findSemd_none (h : Represents n s) (hempty : listEmpty Linked.semdH n.heap.link = true) :
    MultiPandOS.findSemd k s = none := by
  rw [MultiPandOS.findSemd, h.listEmpty_semdH.mp hempty]
  rfl

theorem Represents.reclaim (h : Represents n s) (hj : j ∈ s.semdH) : Represents (n.reclaim j) (reclaim j s) := by
  unfold Linked.reclaim MultiPandOS.reclaim
  rw [h.listEmpty_procq]
  split
  · have hmem : Linked.sLink j ∈ s.content Linked.semdH := List.mem_map_of_mem hj
    obtain ⟨hdel, hloose⟩ := listDel_erase_rings h.rings (semdH_mem s) hmem
    have hcontent : (s.content Linked.semdH).erase (Linked.sLink j) = (s.semdH.erase j).map Linked.sLink :=
      (List.map_erase sLink_injective s.semdH).symm
    rw [hcontent, ← content_semdH] at hdel hloose
    have hadd := listAdd_head_rings hdel (semdFreeH_mem s) hloose
    refine h.setLink {s with semdH := s.semdH.erase j, semdFreeH := j :: s.semdFreeH} ?_ (fun _ => rfl) (fun _ => rfl)
      rfl rfl
    exact content_semdFreeH (s := {s with semdH := s.semdH.erase j}) (j :: s.semdFreeH) ▸ hadd
  · exact h

/-- The queue of `j` is `q` now. -/
theorem Represents.setProcq (h : Represents n s) (j : SemdPtr) {link : Links Node} {q : List PcbPtr}
    (hrings : Rings (heads s) link (Function.update s.content (Linked.sProcq j) (q.map .pList))) :
    Represents (n.setLink link) (s.setSemd j {s.semd j with sProcq := q}) := by
  refine h.setLink _ ?_ (fun _ => rfl) (fun i => ?_) rfl rfl
  · rw [content_setSemd]
    exact hrings
  · by_cases hi : i = j
    · subst hi
      simp [Nucleus.setSemd]
    · simp [Nucleus.setSemd, hi]

/-- `p` at the end of the queue of the descriptor `j`. -/
theorem Represents.appendProcq (h : Represents n s) (j : SemdPtr) (hp : Unlisted s p) :
    Represents (n.setLink (listAddTail (.pList p) (Linked.sProcq j) n.heap.link))
      (s.setSemd j {s.semd j with sProcq := (s.semd j).sProcq ++ [p]}) := by
  have hadd := listAddTail_rings h.rings (sProcq_mem s j) (loose_pList.mpr hp)
  refine h.setProcq j ?_
  rw [List.map_append]
  exact hadd

/-- The queue of the descriptor `j` is initialised, and its key set. -/
theorem Represents.initSemd (h : Represents n s) (j : SemdPtr) (k : Addr) :
    Represents {(n.setLink (initListHead (Linked.sProcq j) n.heap.link)) with sKey := Function.update n.sKey j k}
      (s.setSemd j ⟨k, []⟩) := by
  have hinit := initListHead_rings h.rings (sProcq_mem s j)
  refine ⟨?_, h.pcb, fun i => ?_, h.nextPid, h.globals⟩
  · rw [content_setSemd, List.map_nil]
    exact hinit
  · by_cases hi : i = j
    · subst hi
      simp [Nucleus.setSemd]
    · simpa [Nucleus.setSemd, hi] using h.sKey i

/-- A free descriptor is put into use for `k`, with `p` in its queue. -/
theorem Represents.openSemd (h : Represents n s) {rest : List SemdPtr} (hfree : s.semdFreeH = j :: rest) (k : Addr)
    (hp : Unlisted s p) :
    let n₁ := n.setLink (listDel (Linked.sLink j) n.heap.link)
    let n₂ := n₁.setLink (initListHead (Linked.sProcq j) n₁.heap.link)
    let n₃ := {n₂ with sKey := Function.update n.sKey j k}
    let n₄ := n₃.setLink (listAdd (Linked.sLink j) Linked.semdH n₃.heap.link)
    Represents (n₄.setLink (listAddTail (.pList p) (Linked.sProcq j) n₄.heap.link)) (s.openSemd j rest k p) := by
  intro n₁ n₂ n₃ n₄
  have hcontent : s.content Linked.semdFreeH = [] ++ Linked.sLink j :: rest.map Linked.sLink := by
    show s.semdFreeH.map Linked.sLink = _
    rw [hfree]
    rfl
  -- the descriptor is taken off `semdFree_h` and initialised
  obtain ⟨hdel, hloose⟩ := listDel_rings h.rings (semdFreeH_mem s) hcontent
  rw [List.nil_append, ← content_semdFreeH] at hdel hloose
  have h₁ : Represents n₁ {s with semdFreeH := rest} := h.setLink _ hdel (fun _ => rfl) (fun _ => rfl) rfl rfl
  have h₃ : Represents n₃ (Nucleus.setSemd {s with semdFreeH := rest} j ⟨k, []⟩) := h₁.initSemd j k
  -- then it is linked into `semd_h`, and `p` into its queue
  have hloose₃ : Loose (heads s) (Nucleus.setSemd {s with semdFreeH := rest} j ⟨k, []⟩).content (Linked.sLink j) := by
    rw [content_setSemd]
    exact hloose.update (sProcq_mem s j) List.not_mem_nil
  have hadd := listAdd_head_rings h₃.rings (semdH_mem s) hloose₃
  let s₄ : Nucleus := {(Nucleus.setSemd {s with semdFreeH := rest} j ⟨k, []⟩) with semdH := j :: s.semdH}
  have h₄ : Represents n₄ s₄ := h₃.setLink s₄
    (content_semdH (s := Nucleus.setSemd {s with semdFreeH := rest} j ⟨k, []⟩) (j :: s.semdH) ▸ hadd)
    (fun _ => rfl) (fun _ => rfl) rfl rfl
  have hp₄ : Unlisted s₄ p := by
    refine ⟨hp.free, hp.ready, fun i => ?_⟩
    by_cases hi : i = j
    · subst hi
      simp [s₄, Nucleus.setSemd]
    · simpa [s₄, Nucleus.setSemd, hi] using hp.procq i
  have hopen : s₄.setSemd j {s₄.semd j with sProcq := (s₄.semd j).sProcq ++ [p]} = s.openSemd j rest k p := by
    simp [s₄, Nucleus.setSemd, Nucleus.openSemd]
  exact hopen ▸ h₄.appendProcq j hp₄

theorem Represents.insertBlocked (h : Represents n s) (hfuel : MAXPROC < fuel) (k : Addr) (hp : Unlisted s p) :
    Refines Returned (n.insertBlocked fuel k p) (some (insertBlocked k p s)) := by
  unfold Linked.insertBlocked
  rw [h.findSemd hfuel k]
  cases hf : MultiPandOS.findSemd k s with
  | some j =>
    rw [insertBlocked_of_find hf]
    exact .some ⟨(h.appendProcq j hp).setSemAdd p k, rfl⟩
  | none =>
    have hring : Circular n.heap.link Linked.semdFreeH (s.semdFreeH.map Linked.sLink) :=
      h.rings.ring Linked.semdFreeH (semdFreeH_mem s)
    cases hfree : s.semdFreeH with
    | nil =>
      have hempty : listEmpty Linked.semdFreeH n.heap.link = true :=
        (listEmpty_iff hring).mpr (List.map_eq_nil_iff.mpr hfree)
      have hfull : MultiPandOS.insertBlocked k p s = (s, true) := by simp only [MultiPandOS.insertBlocked, hf, hfree]
      rw [hfull]
      exact refines_of_answer (a := (n, true)) (by simp [hempty]) ⟨h, rfl⟩
    | cons j rest =>
      rw [hfree] at hring
      have hempty : ¬ listEmpty Linked.semdFreeH n.heap.link = true := by
        rw [listEmpty_iff hring]
        exact List.cons_ne_nil _ _
      have hentry : (n.heap.link Linked.semdFreeH).next = Linked.sLink j := hring.next_head rfl
      rw [insertBlocked_of_free hf hfree]
      refine refines_of_answer (a := (_, false)) ?_ ⟨(h.openSemd hfree k hp).setSemAdd p k, rfl⟩
      simp only [Option.bind_eq_bind, Option.bind_some, if_neg hempty, hentry]
      rfl

/-- `p` leaves a queue and is in no other. -/
def Released (r : Linked × Option PcbPtr) (r' : Nucleus × Option PcbPtr) : Prop :=
  Returned r r' ∧ ∀ p ∈ r'.2, Unlisted r'.1 p

theorem Unlisted.reclaim (h : Unlisted s p) (j : SemdPtr) : Unlisted (MultiPandOS.reclaim j s) p := by
  unfold MultiPandOS.reclaim
  split
  · exact ⟨h.free, h.ready, h.procq⟩
  · exact h

theorem Represents.removeBlocked (h : Represents n s) (hfuel : MAXPROC < fuel) (k : Addr) :
    Refines Released (n.removeBlocked fuel k) (some (removeBlocked k s)) := by
  have hnone : ∀ {n : Linked} {s : Nucleus}, Represents n s → Released (n, none) (s, none) :=
    fun h => ⟨⟨h, rfl⟩, fun _ hp => (Option.not_mem_none _ hp).elim⟩
  unfold Linked.removeBlocked MultiPandOS.removeBlocked
  by_cases hempty : listEmpty Linked.semdH n.heap.link = true
  · rw [if_pos hempty, h.findSemd_none hempty]
    exact .some (hnone h)
  rw [if_neg hempty, h.findSemd hfuel k]
  cases hf : MultiPandOS.findSemd k s with
  | none => exact .some (hnone h)
  | some j =>
    have hj : j ∈ s.semdH := mem_semdH hf
    obtain ⟨link, hrem, hrings, hloose⟩ := removeProcQ_rings h.rings (sProcq_mem s j) (content_procq j s)
    have hset := h.setProcq j hrings
    have hreclaim : Represents ((n.setLink link).reclaim j)
        (MultiPandOS.reclaim j (s.setSemd j {s.semd j with sProcq := (s.semd j).sProcq.tail})) :=
      hset.reclaim hj
    simp only [Option.bind_eq_bind, Option.bind_some, hrem, MultiPandOS.removeProcQ]
    cases hhead : (s.semd j).sProcq.head? with
    | none => exact .some (hnone hreclaim)
    | some p =>
      have hp : Unlisted (s.setSemd j {s.semd j with sProcq := (s.semd j).sProcq.tail}) p := by
        rw [← loose_pList, content_setSemd]
        exact hloose p hhead
      refine .some ⟨⟨hreclaim.setSemAdd p NULL, rfl⟩, fun x hx => ?_⟩
      obtain rfl : p = x := Option.some.inj hx
      have hunlisted := hp.reclaim j
      exact ⟨hunlisted.free, hunlisted.ready, hunlisted.procq⟩

/-- The two ways a call of `removeBlocked` ends. -/
theorem Represents.removed (h : Represents n s) (hfuel : MAXPROC < fuel) (k : Addr) :
    (∃ n₁ s₁, n.removeBlocked fuel k = some (n₁, none) ∧ MultiPandOS.removeBlocked k s = (s₁, none) ∧ Represents n₁ s₁) ∨
      ∃ n₁ s₁ p, n.removeBlocked fuel k = some (n₁, some p) ∧ MultiPandOS.removeBlocked k s = (s₁, some p) ∧
        Represents n₁ s₁ ∧ Unlisted s₁ p := by
  obtain ⟨⟨n₁, r⟩, hn, ⟨hrep, hr⟩, hunlisted⟩ := (h.removeBlocked hfuel k).answer
  cases r with
  | none => exact .inl ⟨n₁, _, hn, Prod.ext rfl hr.symm, hrep⟩
  | some p => exact .inr ⟨n₁, _, p, hn, Prod.ext rfl hr.symm, hrep, hunlisted p hr.symm⟩

/-- The second store of NULL changes nothing. -/
theorem Represents.setSemAdd_again (h : Represents n s) (hp : (s.pcb p).pSemAdd = k) : Represents (n.setSemAdd p k) s := by
  have hset := h.setSemAdd p k
  rwa [show s.setPcb p {s.pcb p with pSemAdd := k} = s by
    rw [← hp]
    exact congrArg (fun pcb => {s with pcb := pcb}) (Function.update_eq_self p s.pcb)] at hset

theorem Represents.outBlocked (h : Represents n s) (hfuel : MAXPROC < fuel) (p : PcbPtr) :
    Refines Released (n.outBlocked fuel p) (outBlocked p s) := by
  have hkey : (n.heap.pcb p).pSemAdd = (s.pcb p).pSemAdd := congrArg PcbFields.pSemAdd (h.pcb p)
  have hnone : Released (n, none) (s, none) := ⟨⟨h, rfl⟩, fun _ hp => (Option.not_mem_none _ hp).elim⟩
  unfold Linked.outBlocked MultiPandOS.outBlocked
  by_cases hempty : listEmpty Linked.semdH n.heap.link = true
  · rw [if_pos hempty, h.findSemd_none hempty]
    exact .some hnone
  rw [if_neg hempty, h.findSemd hfuel, hkey]
  cases hf : MultiPandOS.findSemd (s.pcb p).pSemAdd s with
  | none => exact .some hnone
  | some j =>
    obtain ⟨link, hout, hrings, hloose⟩ := outProcQ_rings h.rings (sProcq_mem s j) (content_procq j s)
      (h.length_lt (sProcq_mem s j) (content_procq j s) rfl hfuel) p
    simp only [Option.bind_eq_bind, Option.bind_some, hout]
    by_cases hp : p ∈ (s.semd j).sProcq
    · have hres : MultiPandOS.outProcQ (s.semd j).sProcq p = ((s.semd j).sProcq.erase p, some p) := if_pos hp
      rw [hres] at hrings hloose ⊢
      have hset := (h.setProcq j hrings).setSemAdd p NULL
      have hreclaim := hset.reclaim (show j ∈ s.semdH from mem_semdH hf)
      have hunlisted : Unlisted (s.setSemd j {s.semd j with sProcq := (s.semd j).sProcq.erase p}) p := by
        rw [← loose_pList, content_setSemd]
        exact hloose hp
      have hcleared : Unlisted ((s.setPcb p {s.pcb p with pSemAdd := NULL}).setSemd j
          {s.semd j with sProcq := (s.semd j).sProcq.erase p}) p :=
        ⟨hunlisted.free, hunlisted.ready, hunlisted.procq⟩
      refine .some ⟨⟨hreclaim.setSemAdd_again ?_, rfl⟩, fun x hx => ?_⟩
      · rw [reclaim_pcb]
        simp [Nucleus.setPcb]
      · obtain rfl : p = x := Option.some.inj hx
        exact hcleared.reclaim j
    · have hres : MultiPandOS.outProcQ (s.semd j).sProcq p = ((s.semd j).sProcq, none) := if_neg hp
      rw [hres]
      exact .none

theorem Represents.headBlocked (h : Represents n s) (hfuel : MAXPROC < fuel) (k : Addr) :
    n.headBlocked fuel k = some (headBlocked k s) := by
  unfold Linked.headBlocked MultiPandOS.headBlocked
  by_cases hempty : listEmpty Linked.semdH n.heap.link = true
  · rw [if_pos hempty, h.findSemd_none hempty]
  rw [if_neg hempty, h.findSemd hfuel k]
  cases hf : MultiPandOS.findSemd k s with
  | none => rfl
  | some j => exact Heap.headProcQ_refines (h.queue (sProcq_mem s j) (content_procq j s))

/-- A traversal of a queue for a process id. -/
theorem Represents.forEach_pid (h : Represents n s) {head : Node} (hh : head ∈ heads s) {q : List PcbPtr}
    (hq : s.content head = q.map .pList) (hfuel : MAXPROC < fuel) (pid : Word) :
    listForEach n.heap.link head (fun iter => do
      let item ← Heap.containerOf iter
      if (n.heap.pcb item).pPid = pid then some (some item) else some none) fuel (n.heap.link head).next =
      some (q.find? fun p => (s.pcb p).pPid == pid) := by
  have hring : Circular n.heap.link head (q.map .pList) := h.queue hh hq
  have hpid : ∀ p, (n.heap.pcb p).pPid = (s.pcb p).pPid := fun p => congrArg PcbFields.pPid (h.pcb p)
  have hbody : ∀ p ∈ q, (do
      let item ← Heap.containerOf (.pList p : Node)
      if (n.heap.pcb item).pPid = pid then some (some item) else some none) =
        some (if (s.pcb p).pPid == pid then some (id p) else none) := by
    intro p _
    by_cases hp : (s.pcb p).pPid = pid <;> simp [Heap.containerOf, hpid, hp]
  refine (listForEach_find hring hbody (h.length_lt hh hq rfl hfuel)).trans ?_
  rw [Option.map_id_fun, id_eq]

/-- Whether it finds the process or goes astray. -/
theorem Represents.findBlockedPcb (h : Represents n s) (hfuel : MAXPROC < fuel) (pid : Word) :
    n.findBlockedPcb fuel pid = findBlockedPcb pid s := by
  obtain ⟨steps, rfl⟩ : ∃ steps, fuel = steps + 1 := ⟨fuel - 1, by omega⟩
  have hring : Circular n.heap.link Linked.semdH (s.semdH.map Linked.sLink) := h.rings.ring Linked.semdH (semdH_mem s)
  unfold Linked.findBlockedPcb MultiPandOS.findBlockedPcb
  cases hH : s.semdH with
  | nil =>
    rw [hH] at hring
    rw [Linked.findBlockedPcb.outer, if_pos (hring.next_head rfl)]
  | cons j rest =>
    rw [hH] at hring
    have hnext : (n.heap.link Linked.semdH).next = Linked.sLink j := hring.next_head rfl
    have hfind : n.findInQueue (steps + 1) pid j = some ((s.semd j).sProcq.find? fun p => (s.pcb p).pPid == pid) :=
      h.forEach_pid (sProcq_mem s j) (content_procq j s) hfuel pid
    have hne : ¬ Linked.sLink j = Linked.semdH := by simp [Linked.sLink, Linked.semdH]
    have hsemd : Linked.semdOf (Linked.sLink j) = some j := rfl
    rw [Linked.findBlockedPcb.outer, hnext, if_neg hne, hsemd]
    simp only [Option.bind_eq_bind, Option.bind_some, hfind]
    cases hp : (s.semd j).sProcq.find? fun p => (s.pcb p).pPid == pid with
    | some p => rfl
    | none =>
      -- `iter` is the sentinel of the queue now, and what follows it no `s_link`
      have hqueue : Circular n.heap.link (Linked.sProcq j) ((s.semd j).sProcq.map .pList) :=
        h.rings.ring (Linked.sProcq j) (sProcq_mem s j)
      show Linked.findBlockedPcb.outer (steps + 1) pid n steps (n.heap.link (Linked.sProcq j)).next = none
      cases steps with
      | zero => rfl
      | succ steps =>
        cases hq : (s.semd j).sProcq with
        | nil =>
          rw [hq] at hqueue
          rw [hqueue.next_head rfl]
          rfl
        | cons p rest =>
          rw [hq] at hqueue
          rw [hqueue.next_head rfl]
          rfl

end Asl

/-! ### Processes and their tree -/

section Pcbs
variable {n : Linked} {s : Nucleus} {fuel : Nat} {p : PcbPtr}

theorem Represents.freePcb (h : Represents n s) (hp : Unlisted s p) :
    Represents {n with toPcbs := Pcbs.freePcb p n.toPcbs} (freePcb p s) := by
  have hadd := listAdd_head_rings h.rings (pcbFreeH_mem s) (loose_pList.mpr hp)
  refine ⟨?_, h.pcb, h.sKey, h.nextPid, h.globals⟩
  rw [MultiPandOS.freePcb, content_free]
  -- one `p_child` less
  exact hadd.subset fun x hx => ⟨hx.1, fun q hq hf => hx.2 q hq (List.mem_cons_of_mem p hf)⟩

theorem Represents.allocPcb_nil (h : Represents n s) (hfree : s.pcbFreeH = []) :
    Pcbs.allocPcb n.toPcbs = some (n.toPcbs, none) := by
  have hqueue : Heap.Queue n.heap .pcbFreeH s.pcbFreeH := h.queue (pcbFreeH_mem s) rfl
  exact Pcbs.allocPcb_nil (hfree ▸ hqueue)

/-- What `allocPcb` leaves in the fields. -/
theorem fresh_fields (pid : Word) : (Pcb.fresh pid).fields = Pcbs.fresh pid := rfl

/-- The process that is handed out is in no list, and its `p_child` is one. -/
theorem Represents.allocPcb_cons (h : Represents n s) {rest : List PcbPtr} (hfree : s.pcbFreeH = p :: rest)
    (hchild : ∀ q, p ∉ (s.pcb q).pChild) :
    let s' : Nucleus := {(s.setPcb p (Pcb.fresh s.nextPid)) with pcbFreeH := rest, nextPid := s.nextPid + 1}
    ∃ pcbs, Pcbs.allocPcb n.toPcbs = some (pcbs, some p) ∧ Represents {n with toPcbs := pcbs} s' ∧ Unlisted s' p := by
  intro s'
  have hring : Circular n.heap.link .pcbFreeH (s.pcbFreeH.map .pList) := h.rings.ring .pcbFreeH (pcbFreeH_mem s)
  rw [hfree] at hring
  have hempty : ¬ listEmpty .pcbFreeH n.heap.link = true := by
    rw [listEmpty_iff hring]
    exact List.cons_ne_nil _ _
  have hnext : (n.heap.link .pcbFreeH).next = .pList p := hring.next_head rfl
  have hcontent : s.content .pcbFreeH = [] ++ .pList p :: rest.map .pList := by
    show s.pcbFreeH.map ListHead.pList = _
    rw [hfree]
    rfl
  -- off the free list
  obtain ⟨hdel, hloose⟩ := listDel_rings h.rings (pcbFreeH_mem s) hcontent
  rw [List.nil_append, ← content_free] at hdel hloose
  -- `p_child` becomes a list
  have hnochild : Loose (heads s) (Nucleus.content {s with pcbFreeH := rest}) (.pChild p) := by
    intro x hx
    rw [List.mem_cons, not_or]
    refine ⟨fun he => ?_, fun hm => ?_⟩
    · exact hx.2 p he.symm (hfree ▸ List.mem_cons_self ..)
    · unfold Nucleus.content at hm
      split at hm <;> simp [Linked.sLink] at hm
  have hinit := initListHead_insert hdel hnochild
  have hupdate : Function.update (Nucleus.content {s with pcbFreeH := rest}) (.pChild p) [] = s'.content :=
    (content_setPcb (s := {s with pcbFreeH := rest}) p (Pcb.fresh s.nextPid)).symm
  rw [hupdate] at hinit
  have hsub : heads s' ⊆ insert (.pChild p) (heads s) := by
    intro x hx
    by_cases hxp : x = .pChild p
    · exact .inl hxp
    · refine .inr ⟨hx.1, fun q hq hf => ?_⟩
      rw [hfree] at hf
      refine hx.2 q hq ((List.mem_cons.mp hf).resolve_left ?_)
      rintro rfl
      exact hxp hq
  have hsib : Loose (heads s') s'.content (.pSib p) := by
    refine loose_pSib fun q => ?_
    by_cases hq : q = p
    · subst hq
      simp [s', Nucleus.setPcb, Pcb.fresh]
    · simpa [s', Nucleus.setPcb, hq] using hchild q
  have hrings := initListHead_loose (hinit.subset hsub) hsib
  refine ⟨⟨⟨_, Function.update n.heap.pcb p (Pcbs.fresh n.nextPid)⟩, n.nextPid + 1⟩, ?_,
    ⟨hrings, fun q => ?_, h.sKey, ?_, h.globals⟩, ?_⟩
  · rw [Pcbs.allocPcb, if_neg hempty, hnext]
    simp only [Heap.containerOf, Option.bind_eq_bind, Option.bind_some, Pcbs.gpr_zero]
    rfl
  · by_cases hq : q = p
    · subst hq
      simp [s', Nucleus.setPcb, h.nextPid, fresh_fields]
    · simpa [s', Nucleus.setPcb, hq] using h.pcb q
  · exact congrArg (· + 1) h.nextPid
  · have hunlisted : Unlisted {s with pcbFreeH := rest} p := unlisted_of_loose hloose
    exact ⟨hunlisted.free, hunlisted.ready, hunlisted.procq⟩

/-- The children of `prnt` are `q` now. -/
theorem Represents.setChildren (h : Represents n s) (prnt : PcbPtr) {link : Links Node} {q : List PcbPtr}
    (hrings : Rings (heads s) link (Function.update s.content (.pChild prnt) (q.map .pSib))) :
    Represents (n.setLink link) (s.setPcb prnt {s.pcb prnt with pChild := q}) := by
  refine h.setLink _ ?_ (fun x => ?_) (fun _ => rfl) rfl rfl
  · rw [content_setPcb]
    exact hrings
  · by_cases hx : x = prnt
    · subst hx
      simp [Nucleus.setPcb, Pcb.fields]
    · simp [Nucleus.setPcb, hx]

theorem Represents.setParent (h : Represents n s) (p : PcbPtr) (prnt : Option PcbPtr) :
    Represents {n with heap := n.heap.setParent p prnt} (s.setPcb p {s.pcb p with pParent := prnt}) := by
  have hset := h.setPcb p (b := {s.pcb p with pParent := prnt}) rfl
  rwa [show n.setPcb p (Pcb.fields {s.pcb p with pParent := prnt}) = {n with heap := n.heap.setParent p prnt} by
    rw [Linked.setPcb, Heap.setParent, h.pcb p]
    rfl] at hset

theorem Represents.insertChild (h : Represents n s) {prnt : PcbPtr} (hprnt : prnt ∉ s.pcbFreeH)
    (hp : ∀ q, p ∉ (s.pcb q).pChild) :
    Represents {n with heap := Heap.insertChild (some prnt) (some p) n.heap} (insertChild prnt p s) := by
  have hset := h.setParent p (some prnt)
  have hchild : ∀ q, p ∉ ((s.setPcb p {s.pcb p with pParent := some prnt}).pcb q).pChild := by
    intro q
    by_cases hq : q = p
    · subst hq
      simpa [Nucleus.setPcb] using hp q
    · simpa [Nucleus.setPcb, hq] using hp q
  exact hset.setChildren prnt (listAdd_head_rings hset.rings (pChild_mem hprnt) (loose_pSib hchild))

theorem Represents.emptyChild (h : Represents n s) (hp : p ∉ s.pcbFreeH) :
    Heap.emptyChild (some p) n.heap = true ↔ (s.pcb p).pChild = [] := by
  refine (listEmpty_iff (h.rings.ring (.pChild p) (pChild_mem hp))).trans ?_
  exact List.map_eq_nil_iff

/-- What ends the removal of a child: it forgets its parent, and its `p_sib` is linked to
itself. -/
theorem Represents.orphan (h : Represents n s) (hp : Loose (heads s) s.content (.pSib p)) :
    Represents {n with heap := {(n.heap.setParent p none) with link := initListHead (.pSib p) n.heap.link}}
      (s.setPcb p {s.pcb p with pParent := none}) := by
  have hset := h.setParent p none
  have hlists : SameLists s (s.setPcb p {s.pcb p with pParent := none}) := sameLists_setPcb rfl
  refine hset.setLink _ (initListHead_loose hset.rings ?_) (fun _ => rfl) (fun _ => rfl) rfl rfl
  rw [hlists.content, heads_congr hlists.free]
  exact hp

theorem Represents.removeChild (h : Represents n s) (hp : p ∉ s.pcbFreeH) {child : PcbPtr} {rest : List PcbPtr}
    (hchild : (s.pcb p).pChild = child :: rest) :
    ∃ m, Heap.removeChild (some p) n.heap = some (m, some child) ∧
      Represents {n with heap := m} (MultiPandOS.removeChild p s).1 := by
  have hcontent : s.content (.pChild p) = [] ++ .pSib child :: rest.map .pSib := by
    show (s.pcb p).pChild.map ListHead.pSib = _
    rw [hchild]
    rfl
  have hring := h.rings.ring (.pChild p) (pChild_mem hp)
  have hnext : (n.heap.link (.pChild p)).next = .pSib child := by
    rw [hcontent] at hring
    exact hring.next_head rfl
  have hempty : ¬ Heap.emptyChild (some p) n.heap = true := by
    rw [h.emptyChild hp, hchild]
    exact List.cons_ne_nil _ _
  -- off the list of its parent
  obtain ⟨hdel, hloose⟩ := listDel_rings h.rings (pChild_mem hp) hcontent
  have hsib : Loose (heads s) (s.setPcb p {s.pcb p with pChild := rest}).content (.pSib child) := by
    rw [content_setPcb]
    exact hloose
  have hinit := (h.setChildren p hdel).orphan hsib
  have hlist : (MultiPandOS.removeChild p s).1 = (s.setPcb p {s.pcb p with pChild := rest}).setPcb child
      {(s.setPcb p {s.pcb p with pChild := rest}).pcb child with pParent := none} := by
    rw [MultiPandOS.removeChild, hchild]
  rw [← hlist] at hinit
  refine ⟨_, ?_, hinit⟩
  rw [Heap.removeChild, if_neg hempty, hnext]
  rfl

theorem Represents.outChild (h : Represents n s)
    (hp : ∀ prnt, (s.pcb p).pParent = some prnt → prnt ∉ s.pcbFreeH ∧ ∀ q, p ∈ (s.pcb q).pChild ↔ q = prnt) :
    Represents {n with heap := (Heap.outChild (some p) n.heap).1} (outChild p s).1 := by
  have hparent : (n.heap.pcb p).pParent = (s.pcb p).pParent := congrArg PcbFields.pParent (h.pcb p)
  cases hprnt : (s.pcb p).pParent with
  | none =>
    rw [hprnt] at hparent
    simp only [Heap.outChild, MultiPandOS.outChild, hparent, hprnt]
    exact h
  | some prnt =>
    obtain ⟨hlive, honly⟩ := hp prnt hprnt
    have hmem : ListHead.pSib p ∈ s.content (.pChild prnt) := List.mem_map_of_mem ((honly prnt).mpr rfl)
    obtain ⟨hdel, hloose⟩ := listDel_erase_rings h.rings (pChild_mem hlive) hmem
    have herase : (s.content (.pChild prnt)).erase (.pSib p) = ((s.pcb prnt).pChild.erase p).map .pSib :=
      (List.map_erase pSib_injective (s.pcb prnt).pChild).symm
    rw [herase] at hdel hloose
    let s₁ := s.setPcb prnt {s.pcb prnt with pChild := (s.pcb prnt).pChild.erase p}
    -- no other list has `p` in it
    have hothers : {s with pcb := fun q => {s.pcb q with pChild := (s.pcb q).pChild.erase p}} = s₁ := by
      refine congrArg (fun pcb => {s with pcb := pcb}) (funext fun q => ?_)
      by_cases hq : q = prnt
      · subst hq
        rw [Function.update_self]
      · rw [Function.update_of_ne hq, List.erase_of_not_mem fun hm => hq ((honly q).mp hm)]
    have hlist : (MultiPandOS.outChild p s).1 = s₁.setPcb p {s₁.pcb p with pParent := none} := by
      rw [← hothers, MultiPandOS.outChild, hprnt]
    have hlinks : (Heap.outChild (some p) n.heap).1 =
        {(Heap.setParent p none n.heap) with link := initListHead (.pSib p) (listDel (.pSib p) n.heap.link)} := by
      rw [Heap.outChild, hparent, hprnt]
      rfl
    have hsib : Loose (heads s) s₁.content (.pSib p) := by
      rw [content_setPcb]
      exact hloose
    rw [hlist, hlinks]
    exact (h.setChildren prnt hdel).orphan hsib

end Pcbs

/-! ### Initialisation

Whatever the memory holds before, list after list comes into being. -/

section Init
variable {H : Set Node} {n : Linked} {s : Nucleus}

theorem content_notHead {s : Nucleus} {x y : Node} (h : x ∈ s.content y) : isHead x = false := by
  unfold Nucleus.content at h
  split at h
  · obtain ⟨p, -, rfl⟩ := List.mem_map.mp h
    rfl
  · obtain ⟨p, -, rfl⟩ := List.mem_map.mp h
    rfl
  · obtain ⟨p, -, rfl⟩ := List.mem_map.mp h
    rfl
  · obtain ⟨p, -, rfl⟩ := List.mem_map.mp h
    rfl
  · obtain ⟨j, -, rfl⟩ := List.mem_map.mp h
    rfl
  · obtain ⟨j, -, rfl⟩ := List.mem_map.mp h
    rfl
  · cases h

/-- A list head that is none yet. -/
theorem loose_head {x : Node} (hx : isHead x = true) (hnew : x ∉ H) : Loose H s.content x := by
  intro y hy
  rw [List.mem_cons, not_or]
  refine ⟨fun he => hnew (he ▸ hy), fun hm => ?_⟩
  exact Bool.false_ne_true ((content_notHead hm).symm.trans hx)

/-- `initPcbs`, on memory that is not in use. -/
theorem RepresentsOn.initPcbs (h : RepresentsOn ∅ n s) :
    RepresentsOn {.pcbFreeH} {n with toPcbs := Pcbs.initPcbs n.toPcbs} (initPcbs s) := by
  have hnew : Loose ∅ s.content (.pcbFreeH : Node) := fun _ hx => hx.elim
  have hinit := initListHead_insert h.rings hnew
  rw [insert_empty_eq] at hinit
  have hloose : ∀ c ∈ List.finRange MAXPROC,
      Loose {.pcbFreeH} (Function.update s.content .pcbFreeH []) (ListHead.pList c : Node) := by
    intro c _ x hx
    obtain rfl : x = .pcbFreeH := hx
    rw [Function.update_self]
    simp
  have hfold := foldl_listAdd_rings pList_injective (List.nodup_finRange MAXPROC) hinit rfl hloose
  rw [Function.update_idem, Function.update_self, List.append_nil, ← List.map_reverse] at hfold
  refine ⟨?_, h.pcb, h.sKey, h.nextPid, h.globals⟩
  rw [MultiPandOS.initPcbs, content_free, List.foldl_flip_cons_eq_append, List.append_nil]
  exact hfold

/-- The loop of `initASL`: `cs` are still to be done. -/
theorem initASL_loop (hsemd : s.semd = fun _ => ⟨NULL, []⟩) (hH : s.semdH = []) (cs : List SemdPtr) :
    ∀ {H : Set Node} {n : Linked} {q : List SemdPtr}, RepresentsOn H n {s with semdFreeH := q} →
      Linked.semdFreeH ∈ H → (∀ x ∈ H, isHead x = true) → (∀ c ∈ cs, Linked.sProcq c ∉ H) → (cs ++ q).Nodup →
      RepresentsOn (H ∪ {x | ∃ c ∈ cs, x = Linked.sProcq c})
        (cs.foldl (fun n c =>
          let n := n.setLink (listAdd (Linked.sLink c) Linked.semdFreeH n.heap.link)
          let n := {n with sKey := Function.update n.sKey c NULL}
          n.setLink (initListHead (Linked.sProcq c) n.heap.link)) n)
        {s with semdFreeH := cs.foldl (fun q c => c :: q) q} := by
  induction cs with
  | nil =>
    intro H n q h _ _ _ _
    rw [show H ∪ {x | ∃ c ∈ [], x = Linked.sProcq c} = H by simp]
    exact h
  | cons c rest ih =>
    intro H n q h hfreeH hheads hnew hnd
    have hnd' : (rest ++ c :: q).Nodup := List.perm_middle.nodup_iff.mpr hnd
    have hcq : c ∉ q := (List.nodup_cons.mp (List.nodup_append.mp hnd').2.1).1
    have hcrest : c ∉ rest := fun hc => (List.nodup_append.mp hnd').2.2 c hc c (List.mem_cons_self ..) rfl
    -- into `semdFree_h`
    have hlink : Loose H (Nucleus.content {s with semdFreeH := q}) (Linked.sLink c) := by
      intro x hx
      rw [List.mem_cons, not_or]
      refine ⟨?_, fun hm => ?_⟩
      · rintro rfl
        exact Bool.false_ne_true (hheads _ hx)
      · unfold Nucleus.content at hm
        split at hm
        · simp [Linked.sLink] at hm
        · simp [Linked.sLink] at hm
        · simp [Linked.sLink] at hm
        · simp [Linked.sLink] at hm
        · simp [hH] at hm
        · obtain ⟨d, hd, he⟩ := List.mem_map.mp hm
          exact hcq (sLink_injective he ▸ hd)
        · cases hm
    have hadd := listAdd_head_rings h.rings hfreeH hlink
    have hcontent : Function.update (Nucleus.content {s with semdFreeH := q}) Linked.semdFreeH
        (Linked.sLink c :: Nucleus.content {s with semdFreeH := q} Linked.semdFreeH) =
        Nucleus.content {s with semdFreeH := c :: q} :=
      (content_semdFreeH (s := {s with semdFreeH := q}) (c :: q)).symm
    rw [hcontent] at hadd
    -- the queue comes into being
    have hinit := initListHead_insert hadd (loose_head rfl (hnew c (List.mem_cons_self ..)))
    have hempty : Nucleus.content {s with semdFreeH := c :: q} (Linked.sProcq c) = [] := by
      show (s.semd c).sProcq.map ListHead.pList = []
      rw [hsemd]
      rfl
    rw [Function.update_eq_self_iff.mpr hempty.symm] at hinit
    have hkey : Function.update n.sKey c NULL = n.sKey := by
      refine Function.update_eq_self_iff.mpr ((h.sKey c).trans ?_).symm
      rw [hsemd]
    have hstep : RepresentsOn (insert (Linked.sProcq c) H)
        (Linked.setLink (initListHead (Linked.sProcq c) (listAdd (Linked.sLink c) Linked.semdFreeH n.heap.link))
          {n with sKey := Function.update n.sKey c NULL}) {s with semdFreeH := c :: q} :=
      ⟨hinit, h.pcb, hkey.symm ▸ h.sKey, h.nextPid, h.globals⟩
    have hrest := ih hstep (.inr hfreeH) ?_ ?_ hnd'
    · rw [show H ∪ {x | ∃ d ∈ c :: rest, x = Linked.sProcq d} =
          insert (Linked.sProcq c) H ∪ {x | ∃ d ∈ rest, x = Linked.sProcq d} by
        ext x
        simp only [List.mem_cons, exists_eq_or_imp, Set.mem_union, Set.mem_ofPred_eq, Set.mem_insert_iff]
        tauto]
      exact hrest
    · rintro x (rfl | hx)
      · rfl
      · exact hheads x hx
    · rintro d hd (he | hx)
      · obtain rfl : d = c := by simpa [Linked.sProcq] using he
        exact hcrest hd
      · exact hnew d (List.mem_cons_of_mem c hd) hx

theorem RepresentsOn.initASL (h : RepresentsOn {.pcbFreeH} n s) (hsemd : s.semd = fun _ => ⟨NULL, []⟩)
    (hH : s.semdH = []) (hF : s.semdFreeH = []) :
    RepresentsOn ({Linked.semdH, Linked.semdFreeH, .pcbFreeH} ∪ {x | ∃ c ∈ List.finRange MAXPROC, x = Linked.sProcq c})
      (Linked.initASL n) (initASL s) := by
  have hfree := initListHead_insert h.rings (loose_head (x := Linked.semdFreeH) rfl (by simp [Linked.semdFreeH]))
  rw [Function.update_eq_self_iff.mpr (show [] = s.semdFreeH.map Linked.sLink by rw [hF]; rfl)] at hfree
  have hact := initListHead_insert hfree
    (loose_head (x := Linked.semdH) rfl (by simp [Linked.semdFreeH, Linked.semdH]))
  rw [Function.update_eq_self_iff.mpr (show [] = s.semdH.map Linked.sLink by rw [hH]; rfl)] at hact
  have hstart : RepresentsOn {Linked.semdH, Linked.semdFreeH, .pcbFreeH}
      (Linked.setLink (initListHead Linked.semdH (initListHead Linked.semdFreeH n.heap.link)) n)
      {s with semdFreeH := []} :=
    ⟨hF ▸ hact, h.pcb, h.sKey, h.nextPid, h.globals⟩
  have hlist : {s with semdFreeH := (List.finRange MAXPROC).foldl (fun q c => c :: q) []} = MultiPandOS.initASL s := by
    rw [MultiPandOS.initASL, hH, hsemd]
  have hloop := initASL_loop hsemd hH (List.finRange MAXPROC) hstart (.inr (.inl rfl)) ?_ ?_ ?_
  · rw [hlist] at hloop
    unfold Linked.initASL
    exact hloop
  · rintro x (rfl | rfl | rfl) <;> rfl
  · rintro c - (he | he | he) <;> cases he
  · rw [List.append_nil]
    exact List.nodup_finRange MAXPROC

/-- With the ready queue initialised all lists are there that a nucleus without processes
has. -/
theorem RepresentsOn.mkEmptyProcQ
    (h : RepresentsOn ({Linked.semdH, Linked.semdFreeH, .pcbFreeH} ∪
      {x | ∃ c ∈ List.finRange MAXPROC, x = Linked.sProcq c}) n s) (hfree : ∀ p, p ∈ s.pcbFreeH) :
    Represents {n with heap := Heap.mkEmptyProcQ Linked.readyQueue n.heap} {s with readyQueue := []} := by
  have hinit := initListHead_insert h.rings (loose_head (x := Linked.readyQueue) rfl ?_)
  · rw [← List.map_nil, ← content_ready] at hinit
    refine ⟨hinit.subset fun x hx => ?_, h.pcb, h.sKey, h.nextPid, h.globals⟩
    obtain ⟨hhead, hchild⟩ := hx
    cases x with
    | pChild p => exact absurd (hfree p) (hchild p rfl)
    | pcbFreeH => exact .inr (.inl (.inr (.inr rfl)))
    | pList p => cases hhead
    | pSib p => cases hhead
    | other a =>
      cases a with
      | semdH => exact .inr (.inl (.inl rfl))
      | semdFreeH => exact .inr (.inl (.inr (.inl rfl)))
      | sLink j => cases hhead
      | sProcq j => exact .inr (.inr ⟨j, List.mem_finRange j, rfl⟩)
      | readyQueue => exact .inl rfl
  · rintro ((he | he | he) | ⟨c, -, he⟩) <;> cases he

end Init

end MultiPandOS
