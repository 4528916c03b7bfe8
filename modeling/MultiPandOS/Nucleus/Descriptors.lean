import MultiPandOS.Nucleus.Runs

/-! Semaphore descriptors never run out.

There are as many descriptors as processes, and one that is in use is in use by
somebody. Whoever runs is in no queue, so a descriptor is left for it, and the result of
`insertBlocked`, which PASSEREN, DOIO and CLOCKWAIT do not look at, is always FALSE. That
every state reached is of this kind (`Sound.spread`) is due to the reclaiming of
descriptors in `removeBlocked` and `outBlocked`. -/
namespace MultiPandOS
open Runs

/-- The semaphore that a service waits for. -/
def Service.semaphore (L : Layout) (e : Trap) : Service → Option Addr
  | .passeren => some e.state.regA1
  | .doio => some (L.devSem (findDeviceIndex e.state.regA1))
  | .clockWait => some (L.devSem PSEUDOINDEX)
  | _ => none

section Service
variable {L : Layout} {e : Trap} {s : Nucleus} {c : PcbPtr} {k : Addr} {sv : Service}

theorem scheduler_queues (s : Nucleus) :
    (scheduler s).semd = s.semd ∧ (scheduler s).semdH = s.semdH ∧ (scheduler s).pcb = s.pcb := by
  unfold scheduler
  split
  · split_ifs <;> exact ⟨rfl, rfl, rfl⟩
  · exact ⟨rfl, rfl, rfl⟩

/-- Suspending the caller and dispatching another process moves nobody that waits. -/
theorem suspended_waiting (e : Trap) (c : PcbPtr) (soft : Word) (s : Nucleus) :
    (∀ k, waiting k (scheduler {(suspend e c s) with softBlockCount := soft}) = waiting k s) ∧
      ((scheduler {(suspend e c s) with softBlockCount := soft}).pcb c).pSemAdd = (s.pcb c).pSemAdd := by
  obtain ⟨hsemd, hH, hpcb⟩ := scheduler_queues {(suspend e c s) with softBlockCount := soft}
  refine ⟨fun k => waiting_congr hsemd hH k, ?_⟩
  rw [hpcb]
  simp [suspend, Nucleus.setPcb]

/-- What a service that waits for `k` leaves of the queues: the caller is the last in the
queue of `k`, unless the semaphore was positive and nobody had to wait. -/
def Waited (k : Addr) (c : PcbPtr) (s s' : Nucleus) : Prop :=
  if (s.mem k).toInt ≤ 0 then waiting k s' = waiting k s ++ [c] ∧ (s'.pcb c).pSemAdd = k
  else ∀ k', waiting k' s' = waiting k' s

theorem blocked_waiting (hfree : s.semdFreeH ≠ []) (k : Addr) (e : Trap) (c : PcbPtr) (soft : Word) :
    let s' := scheduler {(suspend e c (insertBlocked k c s).1) with softBlockCount := soft}
    waiting k s' = waiting k s ++ [c] ∧ (s'.pcb c).pSemAdd = k := by
  obtain ⟨-, hqueue, hsem⟩ := insertBlocked_waiting hfree k c
  obtain ⟨hwait, hsame⟩ := suspended_waiting e c soft (insertBlocked k c s).1
  exact ⟨(hwait k).trans hqueue, hsame.trans hsem⟩

theorem passeren_waited (hfree : s.semdFreeH ≠ []) (e : Trap) (c : PcbPtr) :
    Waited e.state.regA1 c s (passeren e c s) := by
  by_cases hv : (s.mem e.state.regA1).toInt ≤ 0
  · rw [Waited, if_pos hv, passeren, if_pos hv]
    exact blocked_waiting hfree e.state.regA1 e c (suspend e c (insertBlocked e.state.regA1 c s).1).softBlockCount
  · rw [Waited, if_neg hv, passeren, if_neg hv]
    exact fun k' => waiting_congr rfl rfl k'

theorem waitDevSem_waited (hfree : s.semdFreeH ≠ []) (k : Addr) (e : Trap) (c : PcbPtr) :
    Waited k c s (scheduler (waitDevSem e c k s)) := by
  by_cases hv : (s.mem k).toInt ≤ 0
  · rw [Waited, if_pos hv, waitDevSem, if_pos hv]
    exact blocked_waiting hfree k e c _
  · rw [Waited, if_neg hv, waitDevSem, if_neg hv]
    exact fun k' => ((suspended_waiting e c _ _).1 k').trans (waiting_congr rfl rfl k')

/-- DOIO stores to the device register first. -/
theorem serve_waited (hfree : s.semdFreeH ≠ []) (hk : sv.semaphore L e = some k) (c : PcbPtr) :
    ∃ s', serve L e c s sv = some s' ∧ Waited k c s s' := by
  cases sv with
  | passeren =>
    obtain rfl := Option.some.inj hk
    exact ⟨_, rfl, passeren_waited hfree e c⟩
  | doio =>
    obtain rfl := Option.some.inj hk
    exact ⟨_, rfl, @waitDevSem_waited (s.writeDev e.state.regA1 e.state.regA2) hfree _ e c⟩
  | clockWait =>
    obtain rfl := Option.some.inj hk
    exact ⟨_, rfl, waitDevSem_waited hfree _ e c⟩
  | _ => cases hk

/-- **Descriptors never run out.** While every descriptor in use has somebody in its queue,
nobody is in two queues and `c` is in none, `insertBlocked` finds a descriptor for `c`
whatever the key, and a service that blocks its caller `c` leaves it in the queue of the
semaphore. -/
theorem insertBlocked_left (h : Spread s c) :
    (∀ k, (insertBlocked k c s).2 = false) ∧
      ∀ L e sv k, s.currentProcess = some c → e.kind = .service sv → sv.semaphore L e = some k →
        ∃ s', exceptionHandler L e s = some s' ∧ Waited k c s s' := by
  refine ⟨fun k => (insertBlocked_waiting h.semdFreeH_ne_nil k c).1, fun L e sv k hc hkind hk => ?_⟩
  rw [exceptionHandler_kind, hkind]
  simp only [hc, Option.bind_some]
  exact serve_waited h.semdFreeH_ne_nil hk c

end Service

open Sample in
/-- The first process waits for the tick, and the second blocks on a semaphore. -/
theorem insertBlocked_left_sample : ∃ s s',
    exec (exceptionHandler layout) [ecall (-1) 0 0, ecall (-7) 0 0] (main layout boot) = some s ∧
      s.currentProcess = some child ∧ exceptionHandler layout (ecall (-3) 0x20030000 0) s = some s' ∧
      Waited 0x20030000 child s s' := by
  have hfollows : Follows (exceptionHandler layout) (Admissible layout SelfOnly)
      [ecall (-1) 0 0, ecall (-7) 0 0] (main layout boot) := by decide +kernel
  obtain ⟨s, hexec, hrun⟩ := hfollows.run
  have hs : Sound s := run_sound (fun _ _ _ => SelfOnly.termOk) (hrun.mono fun _ _ h => h.allowed)
  have hchild : (exec (exceptionHandler layout) [ecall (-1) 0 0, ecall (-7) 0 0] (main layout boot)).all (fun s =>
      s.currentProcess = some child) = true := by decide +kernel
  rw [hexec] at hchild
  have hc : s.currentProcess = some child := by simpa using hchild
  obtain ⟨s', hres, hwaited⟩ := (insertBlocked_left (hs.spread hc)).2 layout (ecall (-3) 0x20030000 0) .passeren
    0x20030000 hc rfl rfl
  exact ⟨s, s', hexec, hc, hres, hwaited⟩

end MultiPandOS
