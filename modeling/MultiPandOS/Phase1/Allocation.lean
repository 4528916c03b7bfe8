import MultiPandOS.Phase1.QueueLinks
import MultiPandOS.Library.Supply
import MultiPandOS.Library.Runs

/-! Allocating and freeing processes.

Between an `allocPcb` and the `freePcb` that gives the process back, whoever holds it may
write to it and to any link that is not the free list's; that is what an `Event` of a
history can be. `pcbFree_h` is then the free list of a `Supply` (`Kept`), and what
`allocPcb` hands out does not depend on the history but for its process id
(`allocPcb_history`). -/
namespace MultiPandOS.Pcbs
open CircularList Listx Heap Runs

variable {A : Type}

/-! ### A process as it is handed out -/

/-- What `allocPcb` leaves in the fields. -/
def fresh (pid : Word) : PcbFields PcbPtr := ⟨none, State.zero, 0, NULL, NULL, 0, pid⟩

/-- What `allocPcb` writes when it hands out `p`. -/
structure Handed (s s' : Pcbs A) (p : PcbPtr) : Prop where
  pList : s'.heap.link (.pList p) = ⟨.pList p, .pList p⟩
  pChild : s'.heap.link (.pChild p) = ⟨.pChild p, .pChild p⟩
  pSib : s'.heap.link (.pSib p) = ⟨.pSib p, .pSib p⟩
  pcb : s'.heap.pcb = Function.update s.heap.pcb p (fresh s.nextPid)
  nextPid : s'.nextPid = s.nextPid + 1

/-- Nothing of an earlier use: the lists are empty, the process is in none, it has no
parent, waits for nothing and belongs to no user. -/
structure Clean (s : Pcbs A) (p : PcbPtr) : Prop where
  pList : s.heap.link (.pList p) = ⟨.pList p, .pList p⟩
  pChild : s.heap.link (.pChild p) = ⟨.pChild p, .pChild p⟩
  pSib : s.heap.link (.pSib p) = ⟨.pSib p, .pSib p⟩
  pParent : (s.heap.pcb p).pParent = none
  pSemAdd : (s.heap.pcb p).pSemAdd = NULL
  pSupportStruct : (s.heap.pcb p).pSupportStruct = NULL

/-- The fields but for `p_pid`. -/
def unnamed (s : Pcbs A) (p : PcbPtr) : PcbFields PcbPtr := {s.heap.pcb p with pPid := 0}

theorem Handed.clean {s s' : Pcbs A} {p : PcbPtr} (h : Handed s s' p) : Clean s' p := by
  have hpcb : s'.heap.pcb p = fresh s.nextPid := by rw [h.pcb, Function.update_self]
  exact ⟨h.pList, h.pChild, h.pSib, by rw [hpcb]; rfl, by rw [hpcb]; rfl, by rw [hpcb]; rfl⟩

theorem Handed.unnamed_eq {s s' : Pcbs A} {p : PcbPtr} (h : Handed s s' p) : unnamed s' p = fresh 0 := by
  rw [unnamed, h.pcb, Function.update_self]
  rfl

variable [DecidableEq A]

/-! ### The functions -/

/-- A loop that stores `w` into every element of an array. -/
theorem foldl_update {ι β : Type} [DecidableEq ι] (w : β) (cs : List ι) (f : ι → β) (i : ι) :
    cs.foldl (fun f c => Function.update f c w) f i = if i ∈ cs then w else f i := by
  induction cs generalizing f with
  | nil => rfl
  | cons c rest ih =>
    rw [List.foldl_cons, ih]
    by_cases hi : i ∈ rest
    · simp [hi]
    · by_cases hc : i = c
      · subst hc
        simp
      · simp [hi, hc]

theorem gpr_zero (gpr : Fin 32 → Word) :
    (List.finRange 32).foldl (fun gpr c => Function.update gpr c 0) gpr = State.zero.gpr := by
  funext i
  rw [foldl_update, if_pos (List.mem_finRange i)]
  rfl

theorem freePcb_free {s : Pcbs A} {free : List PcbPtr} {p : PcbPtr} (h : Queue s.heap .pcbFreeH free)
    (hp : p ∉ free) : Queue (freePcb p s).heap .pcbFreeH (p :: free) := by
  have hsplit : Circular s.heap.link .pcbFreeH ([] ++ free.map .pList) := h
  exact (listAdd_circular hsplit rfl (by simpa using hp)).1

theorem initPcbs_free (s : Pcbs A) :
    Queue (initPcbs s).heap .pcbFreeH ((List.finRange MAXPROC).foldl (fun q c => c :: q) []) := by
  have hloop : ∀ (cs q : List PcbPtr) (link : Links (ListHead PcbPtr A)),
      Circular link .pcbFreeH (q.map .pList) → (cs ++ q).Nodup →
      Circular (cs.foldl (fun link c => listAdd (.pList c) .pcbFreeH link) link) .pcbFreeH
        ((cs.foldl (fun q c => c :: q) q).map .pList) := by
    intro cs
    induction cs with
    | nil => exact fun q link h _ => h
    | cons c rest ih =>
      intro q link h hnd
      have hnd' : (rest ++ c :: q).Nodup := (List.perm_middle.nodup_iff).mpr hnd
      have hc : c ∉ q := (List.nodup_cons.mp (List.nodup_append.mp hnd').2.1).1
      refine ih (c :: q) _ ?_ hnd'
      have hsplit : Circular link .pcbFreeH ([] ++ q.map .pList) := h
      exact (listAdd_circular hsplit rfl (by simpa using hc)).1
  exact hloop _ [] _ (initListHead_circular _ _) (by simpa using List.nodup_finRange MAXPROC)

theorem allocPcb_nil {s : Pcbs A} (h : Queue s.heap .pcbFreeH []) : allocPcb s = some (s, none) := by
  rw [allocPcb, if_pos ((listEmpty_iff h).mpr rfl)]

theorem allocPcb_cons {s : Pcbs A} {p : PcbPtr} {rest : List PcbPtr}
    (h : Queue s.heap .pcbFreeH (p :: rest)) :
    ∃ s', allocPcb s = some (s', some p) ∧ Queue s'.heap .pcbFreeH rest ∧ Handed s s' p := by
  have hempty : ¬ listEmpty .pcbFreeH s.heap.link = true := by
    rw [listEmpty_iff h]
    simp
  have hnext : (s.heap.link .pcbFreeH).next = .pList p := h.next_head rfl
  obtain ⟨hqueue, hself, -⟩ := listDel_queue (show Queue s.heap .pcbFreeH ([] ++ p :: rest) from h)
  let link := initListHead (.pSib p) (initListHead (.pChild p) (listDel (.pList p) s.heap.link))
  have hlink : ∀ n, n ≠ .pChild p → n ≠ .pSib p → link n = listDel (.pList p) s.heap.link n := by
    intro n hc hs
    rw [show link n = _ from initListHead_of_ne hs _, initListHead_of_ne hc]
  refine ⟨⟨⟨link, Function.update s.heap.pcb p (fresh s.nextPid)⟩, s.nextPid + 1⟩, ?_, ?_, ?_, ?_, ?_, rfl, rfl⟩
  · rw [allocPcb, if_neg hempty, hnext]
    simp only [containerOf, Option.bind_eq_bind, Option.bind_some, gpr_zero]
    rfl
  · refine hqueue.congr fun n hn => hlink n ?_ ?_
    · rintro rfl
      simp at hn
    · rintro rfl
      simp at hn
  · exact (hlink (.pList p) (by simp) (by simp)).trans hself
  · show link (.pChild p) = _
    rw [show link (.pChild p) = _ from initListHead_of_ne (by simp) _]
    exact initListHead_self ..
  · exact initListHead_self ..

/-! ### Histories -/

/-- Two calls, and what the holders of processes do in between. -/
inductive Event (A : Type) where
  | alloc
  | free (p : PcbPtr)
  | use (heap : Heap PcbPtr A)

/-- The module and, for the record, the processes handed out and not given back. -/
structure Held (A : Type) where
  pcbs : Pcbs A
  outstanding : Finset PcbPtr

def start (m : Heap PcbPtr A) : Held A := ⟨initPcbs ⟨m, 1⟩, ∅⟩

def step : Event A → Held A → Option (Held A)
  | .alloc, s =>
    match allocPcb s.pcbs with
    | none => none
    | some (pcbs, none) => some {s with pcbs := pcbs}
    | some (pcbs, some p) => some ⟨pcbs, insert p s.outstanding⟩
  | .free p, s => some ⟨freePcb p s.pcbs, s.outstanding.erase p⟩
  | .use heap, s => some {s with pcbs := {s.pcbs with heap := heap}}

/-- Only what was handed out is given back. The links that belong to the free list are
not written to from outside: a process is in no list any more when it is given back. -/
def Rule (s : Held A) : Event A → Prop
  | .alloc => True
  | .free p => p ∈ s.outstanding
  | .use heap => heap.link .pcbFreeH = s.pcbs.heap.link .pcbFreeH ∧
    ∀ p, p ∉ s.outstanding → heap.link (.pList p) = s.pcbs.heap.link (.pList p)

/-- The process id that a step hands out. -/
def handedPid (s : Held A) (e : Event A) (_ : Held A) : List Word :=
  match e with
  | .alloc =>
    match allocPcb s.pcbs with
    | some (pcbs, some p) => [(pcbs.heap.pcb p).pPid]
    | _ => []
  | _ => []

/-- The free list is that of the supply, and what is issued is outstanding. -/
structure Kept (s : Held A) (S : Supply PcbPtr) : Prop where
  free : Queue s.pcbs.heap .pcbFreeH S.free
  outstanding : S.issued = s.outstanding

theorem start_kept (m : Heap PcbPtr A) : ∃ S, Kept (start m) S := by
  have hmem : ∀ p : PcbPtr, p ∈ (List.finRange MAXPROC).foldl (fun q c => c :: q) [] := by
    intro p
    rw [List.foldl_flip_cons_eq_append]
    simp
  have hnd : ((List.finRange MAXPROC).foldl (fun q c => c :: q) []).Nodup := by
    rw [List.foldl_flip_cons_eq_append]
    simpa using List.nodup_finRange MAXPROC
  exact ⟨Supply.full _ hnd hmem, initPcbs_free _, rfl⟩

theorem step_kept {s s' : Held A} {e : Event A} {S : Supply PcbPtr} (h : Kept s S) (hrule : Rule s e)
    (hstep : step e s = some s') : ∃ S', Kept s' S' := by
  cases e with
  | alloc =>
    cases hfree : S.free with
    | nil =>
      have halloc := allocPcb_nil (hfree ▸ h.free)
      simp only [step, halloc, Option.some.injEq] at hstep
      subst hstep
      exact ⟨S, h⟩
    | cons p rest =>
      obtain ⟨pcbs, halloc, hqueue, -⟩ := allocPcb_cons (hfree ▸ h.free)
      simp only [step, halloc, Option.some.injEq] at hstep
      subst hstep
      obtain ⟨hrest, hissued⟩ := Supply.take_cons hfree
      refine ⟨S.take, ?_, ?_⟩
      · rw [hrest]
        exact hqueue
      · rw [hissued, h.outstanding]
  | free p =>
    obtain rfl := Option.some.inj hstep
    have hp : p ∈ S.issued := h.outstanding ▸ hrule
    refine ⟨S.give p hp, freePcb_free h.free fun hf => (S.split p).mp hf hp, ?_⟩
    show S.issued.erase p = s.outstanding.erase p
    rw [h.outstanding]
  | use heap =>
    obtain rfl := Option.some.inj hstep
    refine ⟨S, h.free.congr fun n hn => ?_, h.outstanding⟩
    rcases List.mem_cons.mp hn with rfl | hn
    · exact hrule.1
    · obtain ⟨p, hp, rfl⟩ := List.mem_map.mp hn
      exact hrule.2 p (h.outstanding ▸ (S.split p).mp hp)

theorem run_kept {m : Heap PcbPtr A} {es : List (Event A)} {s : Held A} (h : Run step Rule (start m) es s) :
    ∃ S, Kept s S :=
  h.invariant (fun s => ∃ S, Kept s S) (start_kept m) fun _ _ _ ⟨_, hkept⟩ hrule hstep =>
    step_kept hkept hrule hstep

/-! ### Process ids -/

/-- The `k`-th allocation gets the process id `k`. -/
theorem run_pids {m : Heap PcbPtr A} {es : List (Event A)} {s : Held A} (h : Run step Rule (start m) es s) :
    ∃ n, trace step handedPid (start m) es = (List.range n).map (fun k => BitVec.ofNat 32 (k + 1)) ∧
      s.pcbs.nextPid = BitVec.ofNat 32 (n + 1) := by
  induction h with
  | nil => exact ⟨0, rfl, rfl⟩
  | @snoc es s e s' hrun _ hstep ih =>
    obtain ⟨n, htrace, hnext⟩ := ih
    rw [hrun.trace_snoc hstep, htrace]
    cases e with
    | alloc =>
      obtain ⟨S, hkept⟩ := run_kept hrun
      cases hfree : S.free with
      | nil =>
        have halloc := allocPcb_nil (hfree ▸ hkept.free)
        simp only [step, halloc, Option.some.injEq] at hstep
        subst hstep
        exact ⟨n, by simp only [handedPid, halloc, List.append_nil], hnext⟩
      | cons p rest =>
        obtain ⟨pcbs, halloc, -, hhanded⟩ := allocPcb_cons (hfree ▸ hkept.free)
        simp only [step, halloc, Option.some.injEq] at hstep
        subst hstep
        refine ⟨n + 1, ?_, ?_⟩
        · simp only [handedPid, halloc, hhanded.pcb, Function.update_self, fresh, hnext, List.range_succ,
            List.map_append, List.map_cons, List.map_nil]
        · show pcbs.nextPid = _
          rw [hhanded.nextPid, hnext]
          exact (BitVec.ofNat_add (n + 1) 1).symm
    | free p =>
      obtain rfl := Option.some.inj hstep
      exact ⟨n, by simp only [handedPid, List.append_nil], hnext⟩
    | use heap =>
      obtain rfl := Option.some.inj hstep
      exact ⟨n, by simp only [handedPid, List.append_nil], hnext⟩

theorem pid_toInt {k : Nat} (hk : k < 2 ^ 31 - 1) : (BitVec.ofNat 32 (k + 1)).toInt = k + 1 := by
  have hnat : (BitVec.ofNat 32 (k + 1)).toNat = k + 1 := by
    rw [BitVec.toNat_ofNat]
    exact Nat.mod_eq_of_lt (by omega)
  rw [BitVec.toInt_eq_toNat_of_lt (by omega), hnat]
  rfl

theorem pids_positive {n : Nat} (hn : n < 2 ^ 31 - 1) :
    (∀ w ∈ (List.range n).map (fun k => BitVec.ofNat 32 (k + 1)), 0 < w.toInt) ∧
      ((List.range n).map (fun k => BitVec.ofNat 32 (k + 1))).Nodup := by
  constructor
  · intro w hw
    obtain ⟨k, hk, rfl⟩ := List.mem_map.mp hw
    rw [pid_toInt (by rw [List.mem_range] at hk; omega)]
    omega
  · refine List.Nodup.map_on (fun i hi j hj hij => ?_) List.nodup_range
    rw [List.mem_range] at hi hj
    have htoInt := congrArg BitVec.toInt hij
    rw [pid_toInt (by omega), pid_toInt (by omega)] at htoInt
    omega

/-- What is known of a process that is handed out at the end of a history. -/
theorem run_handed {m : Heap PcbPtr A} {es : List (Event A)} {s : Held A} (h : Run step Rule (start m) es s)
    {s' : Pcbs A} {p : PcbPtr} (halloc : allocPcb s.pcbs = some (s', some p)) :
    p ∉ s.outstanding ∧ Handed s.pcbs s' p := by
  obtain ⟨S, hkept⟩ := run_kept h
  cases hfree : S.free with
  | nil =>
    rw [allocPcb_nil (hfree ▸ hkept.free)] at halloc
    cases halloc
  | cons q rest =>
    obtain ⟨t, ht, -, hhanded⟩ := allocPcb_cons (hfree ▸ hkept.free)
    rw [ht] at halloc
    obtain ⟨rfl, rfl⟩ : t = s' ∧ q = p := by simpa using halloc
    have hq : q ∉ S.issued := (S.split q).mp (by rw [hfree]; exact List.mem_cons_self ..)
    exact ⟨hkept.outstanding ▸ hq, hhanded⟩

/-- **Allocation over all histories.** `allocPcb` fails exactly when the whole table is
outstanding. What it hands out is not outstanding and carries nothing from its earlier
use: it is the same, but for the process id, as what is handed out at the end of any
other history. Short of 2³¹ - 1 allocations all process ids so far are positive and no
two are equal. -/
theorem allocPcb_history {m : Heap PcbPtr A} {es : List (Event A)} {s : Held A}
    (h : Run step Rule (start m) es s) :
    (∃ s' r, allocPcb s.pcbs = some (s', r) ∧ (r = none ↔ s.outstanding.card = MAXPROC) ∧
      ∀ p ∈ r, p ∉ s.outstanding ∧ Clean s' p ∧
        ∀ m₂ es₂ (s₂ : Held A), Run step Rule (start m₂) es₂ s₂ →
          ∀ s₂' p₂, allocPcb s₂.pcbs = some (s₂', some p₂) → unnamed s' p = unnamed s₂' p₂) ∧
    ((trace step handedPid (start m) es).length < 2 ^ 31 - 1 →
      (∀ w ∈ trace step handedPid (start m) es, 0 < w.toInt) ∧
        (trace step handedPid (start m) es).Nodup) := by
  constructor
  · obtain ⟨S, hkept⟩ := run_kept h
    have hcard : S.free = [] ↔ s.outstanding.card = MAXPROC := by
      rw [S.free_eq_nil_iff, hkept.outstanding, Fintype.card_fin]
    cases hfree : S.free with
    | nil =>
      refine ⟨s.pcbs, none, allocPcb_nil (hfree ▸ hkept.free), ?_, fun p hp => (Option.not_mem_none p hp).elim⟩
      exact iff_of_true rfl (hcard.mp hfree)
    | cons q rest =>
      obtain ⟨s', halloc, -, -⟩ := allocPcb_cons (hfree ▸ hkept.free)
      refine ⟨s', some q, halloc, iff_of_false (by simp) fun hc => ?_, fun p hp => ?_⟩
      · rw [hcard.mpr hc] at hfree
        cases hfree
      · obtain rfl : q = p := Option.some.inj hp
        obtain ⟨hq, hhanded⟩ := run_handed h halloc
        refine ⟨hq, hhanded.clean, fun m₂ es₂ s₂ h₂ s₂' p₂ halloc₂ => ?_⟩
        rw [hhanded.unnamed_eq, (run_handed h₂ halloc₂).2.unnamed_eq]
  · obtain ⟨n, htrace, -⟩ := run_pids h
    rw [htrace, List.length_map, List.length_range]
    exact pids_positive

namespace Sample

def memory : Heap PcbPtr Unit := ⟨fun n => ⟨n, n⟩, fun _ => fresh 0⟩

/-- The head of the free list after `initPcbs`. -/
def last : PcbPtr := Fin.last 19

/-- Every field of every process overwritten. -/
def overwritten (s : Pcbs Unit) : Heap PcbPtr Unit := {s.heap with pcb := fun _ => fresh 7}

/-- A process is handed out, all are overwritten, and it is given back. -/
theorem overwritten_run : ∃ es s, es.length = 3 ∧ Run step Rule (start memory) es s := by
  obtain ⟨s₁, halloc, -, -⟩ := allocPcb_cons (initPcbs_free ⟨memory, 1⟩)
  have hstep : step .alloc (start memory) = some ⟨s₁, insert last ∅⟩ := by
    simp only [step, start, halloc]
    rfl
  have h₁ : Run step Rule (start memory) [.alloc] ⟨s₁, insert last ∅⟩ := .snoc .nil trivial hstep
  have hrule : Rule ⟨s₁, insert last ∅⟩ (.use (overwritten s₁)) := ⟨rfl, fun _ _ => rfl⟩
  have h₂ := h₁.snoc hrule rfl
  have hfree : Rule ⟨{s₁ with heap := overwritten s₁}, insert last ∅⟩ (.free last) := Finset.mem_insert_self ..
  exact ⟨_, _, rfl, h₂.snoc hfree rfl⟩

end Sample

open Sample in
theorem allocPcb_history_sample : ∃ es s, es.length = 3 ∧ Run step Rule (start memory) es s ∧
    ∃ s' r, allocPcb s.pcbs = some (s', r) ∧ (r = none ↔ s.outstanding.card = MAXPROC) := by
  obtain ⟨es, s, hlength, hrun⟩ := overwritten_run
  obtain ⟨⟨s', r, halloc, hnull, -⟩, -⟩ := allocPcb_history hrun
  exact ⟨es, s, hlength, hrun, s', r, halloc, hnull⟩

end MultiPandOS.Pcbs
