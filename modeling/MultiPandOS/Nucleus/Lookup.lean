import MultiPandOS.Nucleus.Runs

/-! Looking a process up by its id.

`findProcess` goes through the running process, the ready queue and the queues of all
active semaphores. The two loops over the semaphores share `iter`, so only the queue of
the first descriptor is ever searched: a search that gets beyond it takes a pcb for a
descriptor. -/
namespace MultiPandOS
open Runs

/-- `p` is running, ready or blocked. -/
def Nucleus.Present (s : Nucleus) (p : PcbPtr) : Prop :=
  s.currentProcess = some p ∨ p ∈ s.readyQueue ∨ ∃ j ∈ s.semdH, p ∈ (s.semd j).sProcq

/-- The right answer of a lookup. -/
def Nucleus.Names (s : Nucleus) (pid : Word) : Option PcbPtr → Prop
  | some p => s.Present p ∧ (s.pcb p).pPid = pid
  | none => ∀ p, s.Present p → (s.pcb p).pPid ≠ pid

/-- What `findProcess` owes: it ends, on pointers it may follow, with the right answer. -/
def FindsProcess (pid : Word) (s : Nucleus) : Prop := ∃ r, findProcess pid s = some r ∧ s.Names pid r

/-- The id is that of the running or of a ready process, or it is found in the queue of the
first active semaphore, if there is one. -/
def FoundEarly (pid : Word) (s : Nucleus) : Prop :=
  (∃ p, (s.currentProcess = some p ∨ p ∈ s.readyQueue) ∧ (s.pcb p).pPid = pid) ∨
    ∀ j, s.semdH.head? = some j → ∃ p ∈ (s.semd j).sProcq, (s.pcb p).pPid = pid

section Lookup
variable {s : Nucleus} {pid : Word}

/-- The last part of the search. -/
theorem findBlockedPcb_eq (pid : Word) (s : Nucleus) : findBlockedPcb pid s =
    match s.semdH.head? with
    | none => some none
    | some j => ((s.semd j).sProcq.find? fun p => (s.pcb p).pPid == pid).map some := by
  unfold findBlockedPcb
  cases s.semdH with
  | nil => rfl
  | cons j rest =>
    simp only [List.head?_cons]
    cases (s.semd j).sProcq.find? fun p => (s.pcb p).pPid == pid <;> rfl

theorem named_of_find {q : List PcbPtr} {p : PcbPtr} (h : (q.find? fun p => (s.pcb p).pPid == pid) = some p) :
    p ∈ q ∧ (s.pcb p).pPid = pid :=
  ⟨List.mem_of_find?_eq_some h, eq_of_beq (@List.find?_some _ (fun p => (s.pcb p).pPid == pid) p _ h)⟩

/-- A loop over a queue that has the id in it. -/
theorem find_named {q : List PcbPtr} (h : ∃ p ∈ q, (s.pcb p).pPid = pid) :
    ∃ p, (q.find? fun p => (s.pcb p).pPid == pid) = some p := by
  obtain ⟨p, hp, hpid⟩ := h
  rw [← Option.isSome_iff_exists, List.find?_isSome]
  exact ⟨p, hp, beq_iff_eq.mpr hpid⟩

/-- A search that ends among the running and the ready processes. -/
theorem findProcess_awake (h : ∃ p, (s.currentProcess = some p ∨ p ∈ s.readyQueue) ∧ (s.pcb p).pPid = pid) :
    ∃ p, findProcess pid s = some (some p) ∧ (s.currentProcess = some p ∨ p ∈ s.readyQueue) ∧
      (s.pcb p).pPid = pid := by
  have hready : (∃ p ∈ s.readyQueue, (s.pcb p).pPid = pid) →
      ∃ p, findProcess.inReady pid s = some (some p) ∧ p ∈ s.readyQueue ∧ (s.pcb p).pPid = pid := by
    intro h
    obtain ⟨q, hq⟩ := find_named h
    exact ⟨q, by simp only [findProcess.inReady, hq], named_of_find hq⟩
  unfold findProcess
  cases hc : s.currentProcess with
  | none =>
    obtain ⟨p, hp, hpid⟩ := h
    obtain ⟨q, hres, hq, hqpid⟩ := hready ⟨p, hp.resolve_left (by simp [hc]), hpid⟩
    exact ⟨q, hres, .inr hq, hqpid⟩
  | some c =>
    by_cases hcpid : (s.pcb c).pPid = pid
    · exact ⟨c, by simp only [hcpid, if_true], .inl rfl, hcpid⟩
    · obtain ⟨p, hp, hpid⟩ := h
      have hp : p ∈ s.readyQueue := by
        refine hp.resolve_left fun hcp => hcpid ?_
        rw [Option.some.inj (hc.symm.trans hcp), hpid]
      obtain ⟨q, hres, hq, hqpid⟩ := hready ⟨p, hp, hpid⟩
      exact ⟨q, by simp only [hcpid, if_false, hres], .inr hq, hqpid⟩

/-- A search that goes on to the semaphores. -/
theorem findProcess_blocked (h : ¬ ∃ p, (s.currentProcess = some p ∨ p ∈ s.readyQueue) ∧ (s.pcb p).pPid = pid) :
    findProcess pid s = findBlockedPcb pid s := by
  have hready : findProcess.inReady pid s = findBlockedPcb pid s := by
    have hnone : s.readyQueue.find? (fun p => (s.pcb p).pPid == pid) = none := by
      rw [List.find?_eq_none]
      intro p hp hpid
      exact h ⟨p, .inr hp, eq_of_beq hpid⟩
    simp only [findProcess.inReady, hnone]
  unfold findProcess
  cases hc : s.currentProcess with
  | none => exact hready
  | some c =>
    have hcpid : (s.pcb c).pPid ≠ pid := fun hpid => h ⟨c, .inl hc, hpid⟩
    simp only [hcpid, if_false, hready]

/-- **Looking a process up**: `findProcess` is right exactly about the ids that are found by
the end of the first queue. -/
theorem findProcess_iff (pid : Word) (s : Nucleus) : FindsProcess pid s ↔ FoundEarly pid s := by
  by_cases hawake : ∃ p, (s.currentProcess = some p ∨ p ∈ s.readyQueue) ∧ (s.pcb p).pPid = pid
  · obtain ⟨p, hres, hp, hpid⟩ := findProcess_awake hawake
    have hpresent : s.Present p := hp.elim .inl fun hp => .inr (.inl hp)
    exact iff_of_true ⟨some p, hres, hpresent, hpid⟩ (.inl hawake)
  have hres := findProcess_blocked hawake
  rw [findBlockedPcb_eq] at hres
  cases hhead : s.semdH.head? with
  | none =>
    have hnil : s.semdH = [] := List.head?_eq_none_iff.mp hhead
    refine iff_of_true ⟨none, by rw [hres, hhead], fun p hp hpid => ?_⟩ (.inr fun j hj => ?_)
    · rcases hp with hp | hp | ⟨j, hj, -⟩
      · exact hawake ⟨p, .inl hp, hpid⟩
      · exact hawake ⟨p, .inr hp, hpid⟩
      · rw [hnil] at hj
        cases hj
    · rw [hhead] at hj
      cases hj
  | some j =>
    rw [hhead] at hres
    constructor
    · rintro ⟨r, hr, hnames⟩
      rw [hres] at hr
      obtain ⟨p, hfind, -⟩ := Option.map_eq_some_iff.mp hr
      refine .inr fun i hi => ?_
      obtain rfl : j = i := Option.some.inj (hhead.symm.trans hi)
      exact ⟨p, named_of_find hfind⟩
    · rintro (h | h)
      · exact absurd h hawake
      obtain ⟨p, hfind⟩ := find_named (h j hhead)
      obtain ⟨hp, hpid⟩ := named_of_find hfind
      exact ⟨some p, by simp only [hres, hfind, Option.map_some],
        .inr (.inr ⟨j, List.mem_of_head? hhead, hp⟩), hpid⟩

end Lookup

namespace Sample

/-- The first process creates two others and blocks on one semaphore, then one of them
blocks on another; the ids are 1, 2 and 3. -/
def blocking : List Trap :=
  [ecall (-1) 0 0, ecall (-1) 0 0, ecall (-3) 0x20030000 0, ecall (-3) 0x20030004 0]

end Sample

open Sample in
/-- The first process is blocked, and is not found; no process has the id 9, and that is not
found out either. -/
theorem second_queue_lost : ∃ s,
    Run (exceptionHandler layout) (Admissible layout SelfOnly) (main layout boot) blocking s ∧
    s.Present firstProcess ∧ (s.pcb firstProcess).pPid = 1 ∧ ¬ FindsProcess 1 s ∧ ¬ FindsProcess 9 s := by
  have hfollows : Follows (exceptionHandler layout) (Admissible layout SelfOnly) blocking (main layout boot) := by
    decide +kernel
  obtain ⟨s, hexec, hrun⟩ := hfollows.run
  have hlost : (exec (exceptionHandler layout) blocking (main layout boot)).all (fun s =>
      (∃ j ∈ s.semdH, firstProcess ∈ (s.semd j).sProcq) ∧ (s.pcb firstProcess).pPid = 1 ∧
        findProcess 1 s = none ∧ findProcess 9 s = none) = true := by decide +kernel
  rw [hexec] at hlost
  obtain ⟨hblocked, hpid, hfirst, hnobody⟩ := by simpa using hlost
  refine ⟨s, hrun, .inr (.inr hblocked), hpid, ?_, ?_⟩
  · rintro ⟨r, hr, -⟩
    cases hr.symm.trans hfirst
  · rintro ⟨r, hr, -⟩
    cases hr.symm.trans hnobody

end MultiPandOS
