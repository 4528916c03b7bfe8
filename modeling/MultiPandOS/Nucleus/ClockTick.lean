import MultiPandOS.Library.PriorityQueue
import MultiPandOS.Nucleus.Kill

/-! The tick of the pseudo-clock.

The loop of `handleIntervalClock` takes the processes off the queue of the pseudo-clock
one by one, and the descriptor goes with the last. `Drained` is what is left when it
ends, whatever the queues were at the start; for who becomes ready, and where, it comes
down to `PriorityQueue.insertAll`. -/
namespace MultiPandOS

variable {L : Layout} {s : Nucleus}

/-- What a turn of the loop preserves, whether it wakes somebody or ends the loop. -/
theorem clockTick_invariant {P : Nucleus → Prop}
    (hwake : ∀ s s₁ p, P s → removeBlocked L.clock s = (s₁, some p) →
      P {(s₁.enqueue p) with softBlockCount := s₁.softBlockCount - 1})
    (hend : ∀ s s₁, P s → removeBlocked L.clock s = (s₁, none) → P s₁) {n : Nat} {s' : Nucleus} (hs : P s)
    (h : clockTick L n s = some s') : P s' := by
  induction n generalizing s with
  | zero => cases h
  | succ n ih =>
    rw [clockTick, show L.devSem PSEUDOINDEX = L.clock from rfl] at h
    split at h
    · rename_i s₁ hs₁
      rw [← Option.some.inj h]
      exact hend s s₁ hs hs₁
    · rename_i s₁ p hs₁
      exact ih (hwake s s₁ p hs hs₁) h

/-- Whoever waited for the clock has been inserted in the ready queue, the head of the
queue first, and nothing else has changed but how the descriptors are kept. -/
structure Drained (L : Layout) (s s₁ : Nucleus) : Prop where
  asl : Asl s₁
  waiting : ∀ k, waiting k s₁ = if k = L.clock then [] else waiting k s
  frame : s₁ = {s with
    readyQueue := PriorityQueue.insertAll s.prio (MultiPandOS.waiting L.clock s) s.readyQueue
    softBlockCount := s.softBlockCount - BitVec.ofNat 32 (MultiPandOS.waiting L.clock s).length
    pcb := fun p => if p ∈ MultiPandOS.waiting L.clock s then {s.pcb p with pSemAdd := NULL} else s.pcb p
    semd := s₁.semd
    semdH := s₁.semdH
    semdFreeH := s₁.semdFreeH}

/-- What one turn of the loop does to `p`, the descriptors apart. -/
def Nucleus.woken (p : PcbPtr) (s : Nucleus) : Nucleus :=
  {s with
    readyQueue := PriorityQueue.insert s.prio p s.readyQueue
    softBlockCount := s.softBlockCount - 1
    pcb := Function.update s.pcb p {s.pcb p with pSemAdd := NULL}}

@[simp] theorem Nucleus.woken_prio (p : PcbPtr) (s : Nucleus) : (s.woken p).prio = s.prio := by
  funext x
  by_cases hx : x = p
  · subst hx
    simp [woken, prio]
  · simp [woken, prio, hx]

theorem woken_pcb (p : PcbPtr) (rest : List PcbPtr) (s : Nucleus) :
    (fun x => if x ∈ rest then {(s.woken p).pcb x with pSemAdd := NULL} else (s.woken p).pcb x) =
      fun x => if x ∈ p :: rest then {s.pcb x with pSemAdd := NULL} else s.pcb x := by
  funext x
  by_cases hx : x = p
  · subst hx
    simp [Nucleus.woken]
  · simp [Nucleus.woken, hx]

theorem clockTick_cons (n : Nat) (h : Asl s) {p : PcbPtr} {rest : List PcbPtr}
    (hq : waiting L.clock s = p :: rest) :
    ∃ s₂, clockTick L (n + 1) s = clockTick L n s₂ ∧ Asl s₂ ∧
      (∀ k, waiting k s₂ = if k = L.clock then rest else waiting k s) ∧
      s₂ = {(s.woken p) with semd := s₂.semd, semdH := s₂.semdH, semdFreeH := s₂.semdFreeH} := by
  obtain ⟨hsome, hre⟩ := removeBlocked_requeued h hq
  let s' := (removeBlocked L.clock s).1
  have hrem : removeBlocked (L.devSem PSEUDOINDEX) s = (s', some p) := Prod.ext rfl hsome
  have hprio : s'.prio = s.prio := by
    rw [← s.woken_prio p, show s' = _ from hre.frame]
    rfl
  refine ⟨{(s'.enqueue p) with softBlockCount := s'.softBlockCount - 1}, ?_, hre.asl.congr rfl rfl rfl,
    fun k => (waiting_congr rfl rfl k).trans (hre.waiting k), ?_⟩
  · simp only [clockTick, hrem]
  · rw [Nucleus.enqueue, hprio, insertProcQ_eq, show s' = _ from hre.frame]
    rfl

/-- With a turn of the loop for each process that waits and one more, the loop ends. -/
theorem clockTick_drained (n : Nat) (h : Asl s) (hn : (waiting L.clock s).length < n) :
    ∃ s₁, clockTick L n s = some s₁ ∧ Drained L s s₁ := by
  induction n generalizing s with
  | zero => omega
  | succ n ih =>
    cases hq : waiting L.clock s with
    | nil =>
      refine ⟨s, ?_, h, fun k => ?_, ?_⟩
      · simp only [clockTick, show L.devSem PSEUDOINDEX = L.clock from rfl, removeBlocked_nil h hq]
      · by_cases hk : k = L.clock
        · rw [if_pos hk, hk, hq]
        · rw [if_neg hk]
      · simp [hq, PriorityQueue.insertAll]
    | cons p rest =>
      obtain ⟨s₂, hturn, hasl, hwait, hframe⟩ := clockTick_cons n h hq
      have hclock : waiting L.clock s₂ = rest := by rw [hwait, if_pos rfl]
      obtain ⟨s₁, htick, hd⟩ := ih hasl (by rw [hclock]; rw [hq] at hn; simpa using hn)
      refine ⟨s₁, hturn.trans htick, hd.asl, fun k => ?_, ?_⟩
      · rw [hd.waiting k, hwait k]
        split <;> rfl
      · have hprio : s₂.prio = s.prio := by
          rw [hframe]
          exact s.woken_prio p
        have hsoft : (s.woken p).softBlockCount - BitVec.ofNat 32 rest.length =
            s.softBlockCount - BitVec.ofNat 32 (p :: rest).length := by
          rw [List.length_cons, Nat.add_comm, BitVec.ofNat_add, ← BitVec.sub_sub]
          rfl
        refine hd.frame.trans ?_
        rw [hclock, hprio, hq, ← hsoft, ← woken_pcb, hframe]
        rfl

/-- Everybody can be waiting for the clock at once. -/
theorem clockTick_ends (h : Asl s) (hnd : (waiting L.clock s).Nodup) :
    ∃ s₁, clockTick L (MAXPROC + 1) s = some s₁ ∧ Drained L s s₁ := by
  have hlen : (waiting L.clock s).length ≤ MAXPROC := by simpa using hnd.length_le_card
  exact clockTick_drained (MAXPROC + 1) h (Nat.lt_succ_of_le hlen)

theorem Drained.ready_perm {s₁ : Nucleus} (h : Drained L s s₁) :
    s₁.readyQueue.Perm (MultiPandOS.waiting L.clock s ++ s.readyQueue) := by
  rw [show s₁.readyQueue = _ from congrArg Nucleus.readyQueue h.frame]
  exact PriorityQueue.insertAll_perm ..

end MultiPandOS
