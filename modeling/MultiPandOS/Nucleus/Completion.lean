import MultiPandOS.Nucleus.Registers

/-! Completion interrupts.

`handleDevice` looks for one (sub)device of the interrupting device that has finished,
acknowledges it and wakes whoever heads its queue. Of a terminal it recognises only the
status 5. A sub-device that ends with an error leaves `sem` at NULL and `semIndex` at 0,
and the common tail of the function increments `*sem`. `handleIntervalClock` wakes
everybody who waits for the tick (`Ticked`). -/
namespace MultiPandOS
open Runs

/-- `i` is the device `devNo` of `line`, or a sub-device of it. -/
def SubDevice.partOf (line devNo : Nat) (i : SubDevice) : Prop :=
  i.registers = devRegAddr line devNo ∨ (line = 7 ∧ i.registers = devRegAddr line devNo + 0x8)

/-- A device has finished when it interrupts. A terminal interrupts for two sub-devices:
the one in question is neither absent (0) nor ready (1) nor busy (3). -/
def reportsDone (line : Nat) (status : Word) : Prop :=
  line = 7 → status &&& 0xff ≠ 0 ∧ status &&& 0xff ≠ 1 ∧ status &&& 0xff ≠ 3

/-- `handleDevice` acknowledges `i` and wakes the head of its queue; `s₁` is what it leaves
to the process that was running, or to the scheduler. -/
structure Completed (L : Layout) (line : Nat) (e : Trap) (s : Nucleus) (i : SubDevice) (s₁ : Nucleus) : Prop where
  handled : handleDevice L line e s = some (resume e.state s₁)
  acked : s₁.devWrites = (i.command, ACK) :: s.devWrites
  woken : ∀ p rest, waiting (L.devSem i.val) s = p :: rest →
    waiting (L.devSem i.val) s₁ = rest ∧ s₁.readyQueue = insertProcQ s.prio p s.readyQueue ∧
      (s₁.pcb p).pS = (s.pcb p).pS.setA0 (e.bus i.registers) ∧ s₁.softBlockCount = s.softBlockCount - 1
  nobody : waiting (L.devSem i.val) s = [] →
    s₁.readyQueue = s.readyQueue ∧ s₁.softBlockCount = s.softBlockCount
  others : ∀ k p, p ∈ waiting k s → (waiting (L.devSem i.val) s).head? ≠ some p → p ∈ waiting k s₁

/-- What a device interrupt owes. -/
def Completes (L : Layout) (line : Nat) (e : Trap) (s : Nucleus) : Prop :=
  ∃ devNo i s₁, calcDevNo line e.bus = some devNo ∧ SubDevice.partOf line devNo i ∧
    reportsDone line (e.bus i.registers) ∧ Completed L line e s i s₁

/-- One of the sub-devices of the terminal has the status that `handleDevice` looks for. -/
def recognised (devNo : Nat) (bus : Addr → Word) : Prop :=
  bus (devRegAddr 7 devNo + 0x8) &&& 0xff = OKCHARTRANS ∨ bus (devRegAddr 7 devNo) &&& 0xff = CHARRECV

section Device
variable {L : Layout} {e : Trap} {s : Nucleus} {line : Nat} {status : Word} {command reg : Addr} {i : SubDevice}

/-- What `completeDevice` does to the queues and to the process it wakes. -/
theorem completeDevice_completed (h : Asl s) (hi : i.command = command)
    (hhandled : handleDevice L line e s = some (resume e.state
      (completeDevice (L.devSem i.val) (e.bus i.registers) (s.writeDev command ACK)))) :
    Completed L line e s i (completeDevice (L.devSem i.val) (e.bus i.registers) (s.writeDev command ACK)) := by
  have hasl : Asl (s.writeDev command ACK) := h.congr rfl rfl rfl
  have hwait : ∀ k, waiting k (s.writeDev command ACK) = waiting k s := waiting_congr rfl rfl
  cases hq : waiting (L.devSem i.val) s with
  | nil =>
    have hres : completeDevice (L.devSem i.val) (e.bus i.registers) (s.writeDev command ACK) =
        (s.writeDev command ACK).setMem (L.devSem i.val) ((s.writeDev command ACK).mem (L.devSem i.val) + 1) := by
      simp only [completeDevice, removeBlocked_nil hasl ((hwait _).trans hq)]
    rw [hres] at hhandled ⊢
    refine ⟨hhandled, by rw [hi]; rfl, fun p rest hp => ?_, fun _ => ⟨rfl, rfl⟩, fun k p hp _ => hp⟩
    rw [hq] at hp
    cases hp
  | cons p rest =>
    obtain ⟨hsome, hre⟩ := removeBlocked_requeued hasl ((hwait _).trans hq)
    generalize hs₁ : (removeBlocked (L.devSem i.val) (s.writeDev command ACK)).1 = s₁ at hre
    have hrem : removeBlocked (L.devSem i.val) (s.writeDev command ACK) = (s₁, some p) := Prod.ext hs₁ hsome
    have hpcb : s₁.pcb = Function.update s.pcb p {s.pcb p with pSemAdd := NULL} := congrArg Nucleus.pcb hre.frame
    have hready : s₁.readyQueue = s.readyQueue := by
      have := congrArg Nucleus.readyQueue hre.frame
      exact this
    have hprio : s₁.prio = s.prio := by
      have hkept : (s.setPcb p {s.pcb p with pSemAdd := NULL}).prio = s.prio :=
        field_setPcb (fun b => b.pPrio.toInt) rfl
      rw [← hkept]
      funext x
      simp only [Nucleus.prio, hpcb, Nucleus.setPcb]
    let s₂ := s₁.setPcb p {s₁.pcb p with pS := (s₁.pcb p).pS.setA0 (e.bus i.registers)}
    have hprio₂ : s₂.prio = s₁.prio := field_setPcb (fun b => b.pPrio.toInt) rfl
    have hres : completeDevice (L.devSem i.val) (e.bus i.registers) (s.writeDev command ACK) =
        {(s₂.enqueue p) with softBlockCount := s₂.softBlockCount - 1} := by
      simp only [completeDevice, hrem]
      rfl
    have hwait₂ : ∀ k, waiting k {(s₂.enqueue p) with softBlockCount := s₂.softBlockCount - 1} =
        if k = L.devSem i.val then rest else waiting k s := by
      intro k
      rw [← hwait k]
      exact (waiting_congr rfl rfl k).trans (hre.waiting k)
    rw [hres] at hhandled ⊢
    refine ⟨hhandled, ?_, fun q rest' hq' => ?_, fun hnil => ?_, fun k q hk hhead => ?_⟩
    · rw [hi]
      have := congrArg Nucleus.devWrites hre.frame
      exact this
    · obtain ⟨rfl, rfl⟩ := List.cons.inj (hq.symm.trans hq')
      refine ⟨(hwait₂ _).trans (if_pos rfl), ?_, ?_, ?_⟩
      · show insertProcQ s₂.prio p s₁.readyQueue = _
        rw [hprio₂, hprio, hready]
      · show (s₂.pcb p).pS = _
        simp [s₂, Nucleus.setPcb, hpcb]
      · have := congrArg (fun t : Nucleus => t.softBlockCount - 1) hre.frame
        exact this
    · rw [hq] at hnil
      cases hnil
    · rw [hwait₂ k]
      split
      · rename_i hkey
        rw [hkey, hq] at hk
        rcases List.mem_cons.mp hk with rfl | hk
        · rw [hq] at hhead
          exact absurd rfl hhead
        · exact hk
      · exact hk

/-- Nothing is found done. -/
theorem served_eq_none {devNo : Nat} (hdev : calcDevNo 7 e.bus = some devNo) :
    e.served 7 = none ↔ ¬ recognised devNo e.bus := by
  simp only [Trap.served, hdev, Option.bind_some, servedDevice, if_true, recognised]
  split_ifs <;> simp_all

/-- The interrupt goes through a NULL pointer. -/
theorem handleDevice_none {devNo : Nat} (hdev : calcDevNo line e.bus = some devNo) (h : e.served line = none) :
    handleDevice L line e s = none := by
  have hdone : servedDevice line (devRegAddr line devNo) e.bus = none := by
    rw [← h, Trap.served, hdev, Option.bind_some]
  simp only [handleDevice, hdev, hdone]

end Device

/-- A sub-device that is served reports that it has finished. -/
theorem served_done {e : Trap} {line devNo : Nat} {status : Word} {command reg : Addr}
    (hdev : calcDevNo line e.bus = some devNo) (h : e.served line = some (status, command, reg)) :
    (reg = devRegAddr line devNo ∨ (line = 7 ∧ reg = devRegAddr line devNo + 0x8)) ∧ reportsDone line status := by
  simp only [Trap.served, hdev, Option.bind_some, servedDevice] at h
  split_ifs at h with hline ht hr <;> simp only [Option.some.injEq, Prod.mk.injEq] at h <;>
    obtain ⟨rfl, rfl, rfl⟩ := h
  · exact ⟨.inr ⟨hline, rfl⟩, fun _ => by rw [ht]; decide⟩
  · exact ⟨.inl rfl, fun _ => by rw [hr]; decide⟩
  · exact ⟨.inl rfl, fun h => absurd h hline⟩

/-- **Completion interrupts**: a device interrupt is completed exactly when it does not come
from a terminal or one of the sub-devices of the terminal has the status 5. -/
theorem handleDevice_iff {L : Layout} {e : Trap} {s : Nucleus} {line devNo : Nat} (hasl : Asl s) (h3 : 3 ≤ line)
    (h7 : line ≤ 7) (hdev : calcDevNo line e.bus = some devNo) :
    Completes L line e s ↔ (line = 7 → recognised devNo e.bus) := by
  constructor
  · rintro ⟨_, i, s₁, -, -, -, hcompleted⟩ rfl
    by_contra hnot
    have hnone := handleDevice_none (L := L) (s := s) hdev ((served_eq_none hdev).mpr hnot)
    rw [hcompleted.handled] at hnone
    cases hnone
  · intro hrec
    have hserved : e.served line ≠ none := by
      by_cases hline : line = 7
      · subst hline
        exact fun hnone => (served_eq_none hdev).mp hnone (hrec rfl)
      · simp only [Trap.served, hdev, Option.bind_some, servedDevice, if_neg hline]
        simp
    obtain ⟨⟨status, command, reg⟩, hsome⟩ := Option.ne_none_iff_exists'.mp hserved
    obtain ⟨i, rfl, rfl, rfl⟩ := served_subDevice h3 h7 hsome
    have hi : i.Contains i.registers := by
      simp only [SubDevice.Contains, BitVec.sub_self, SubDevice.size]
      split <;> decide
    have hindex := findDeviceIndex_contains hi
    have hres := handleDevice_eq (L := L) (s := s) hsome (by omega)
    rw [hindex] at hres
    obtain ⟨hpart, hdone⟩ := served_done hdev hsome
    exact ⟨devNo, i, _, hdev, hpart, hdone, completeDevice_completed hasl rfl hres⟩

namespace Sample

/-- The transmitter of terminal 0, and its interrupt with the given status. -/
def transmitter : SubDevice := ⟨33, by decide⟩

def transmitted (status : Word) : Trap :=
  { state := {State.zero with cause := CAUSE_INTERRUPT_BIT ||| IL_TERMINAL}
    argState := State.zero
    bus := fun a => if a = 0x10000050 then 1 else if a = transmitter.registers then status else 0
    clock := 0 }

/-- The first process transmits a character. -/
def transmit : List Trap := [ecall (-5) transmitter.command 0x4102]

theorem transmit_run : ∃ s, exec (exceptionHandler layout) transmit (main layout boot) = some s ∧
    Run (exceptionHandler layout) (Admissible layout SelfOnly) (main layout boot) transmit s := by
  have hfollows : Follows (exceptionHandler layout) (Admissible layout SelfOnly) transmit (main layout boot) := by
    decide +kernel
  exact hfollows.run

end Sample

open Sample in
theorem handleDevice_iff_sample : ∃ s, exec (exceptionHandler layout) transmit (main layout boot) = some s ∧
    (Completes layout 7 (transmitted 5) s ↔ (7 = 7 → recognised 0 (transmitted 5).bus)) := by
  obtain ⟨s, hexec, hrun⟩ := transmit_run
  have hs : Sound s := run_sound (fun _ _ _ => SelfOnly.termOk) (hrun.mono fun _ _ h => h.allowed)
  exact ⟨s, hexec, handleDevice_iff hs.asl (by decide) (by decide) (by decide +kernel)⟩

open Sample in
/-- A transmission that ends with an error (4) is not completed, and its process waits. -/
theorem transmission_error : ∃ s,
    Run (exceptionHandler layout) (Admissible layout SelfOnly) (main layout boot) transmit s ∧
    waiting (layout.devSem transmitter.val) s = [firstProcess] ∧ calcDevNo 7 (transmitted 4).bus = some 0 ∧
    reportsDone 7 ((transmitted 4).bus transmitter.registers) ∧ ¬ Completes layout 7 (transmitted 4) s := by
  obtain ⟨s, hexec, hrun⟩ := transmit_run
  have hwaits : (exec (exceptionHandler layout) transmit (main layout boot)).all (fun s =>
      waiting (layout.devSem transmitter.val) s = [firstProcess]) = true := by decide +kernel
  rw [hexec] at hwaits
  have hdev : calcDevNo 7 (transmitted 4).bus = some 0 := by decide +kernel
  have hunserved : (transmitted 4).served 7 = none := by decide +kernel
  refine ⟨s, hrun, by simpa using hwaits, hdev, fun _ => by decide +kernel, ?_⟩
  rintro ⟨_, i, s₁, -, -, -, hcompleted⟩
  have hhandled := hcompleted.handled
  rw [handleDevice_none hdev hunserved] at hhandled
  cases hhandled

/-! ### The pseudo-clock -/

/-- What a tick owes; `s₁` is what it leaves to the process that was running, or to the
scheduler. -/
structure Ticked (L : Layout) (s s₁ : Nucleus) : Prop where
  ready : s₁.readyQueue.Perm (waiting L.clock s ++ s.readyQueue)
  once : s₁.readyQueue.Nodup
  order : s.readyQueue.Sublist s₁.readyQueue
  turns : ∀ prio, ((waiting L.clock s).filter fun p => decide (s.prio p = prio)).Sublist s₁.readyQueue
  soft : s₁.softBlockCount = s.softBlockCount - BitVec.ofNat 32 (waiting L.clock s).length
  mem : s₁.mem = s.mem
  queues : ∀ k, k ≠ L.clock → waiting k s₁ = waiting k s
  inactive : ∀ j ∈ s₁.semdH, (s₁.semd j).sKey ≠ L.clock
  current : s₁.currentProcess = s.currentProcess

section Tick
variable {L : Layout} {s s₁ : Nucleus}

theorem ticked_of_drained (h : Drained L s s₁) (hnd : (waiting L.clock s ++ s.readyQueue).Nodup) :
    Ticked L s s₁ := by
  have hready : s₁.readyQueue = PriorityQueue.insertAll s.prio (waiting L.clock s) s.readyQueue :=
    congrArg Nucleus.readyQueue h.frame
  have hsoft := congrArg Nucleus.softBlockCount h.frame
  have hmem := congrArg Nucleus.mem h.frame
  have hcurrent := congrArg Nucleus.currentProcess h.frame
  refine ⟨h.ready_perm, h.ready_perm.nodup_iff.mpr hnd, ?_, fun prio => ?_, hsoft, hmem, fun k hk => by rw [h.waiting k, if_neg hk],
    fun j hj hkey => ?_, hcurrent⟩
  · rw [hready]
    exact PriorityQueue.sublist_insertAll ..
  · rw [hready]
    exact PriorityQueue.turns_insertAll s.prio hnd prio
  · -- an active descriptor has somebody in its queue
    have hempty : waiting L.clock s₁ = [] := by rw [h.waiting, if_pos rfl]
    rw [waiting_of_mem h.asl hj hkey] at hempty
    exact h.asl.nonempty j hj hempty

/-- **The tick of the pseudo-clock**, in every state in which nobody is queued twice. The
loop ends. Everybody who waited for the tick is ready, once: those who were ready keep
their order, and those who waited come in turn among equals. The process that was running
goes on. -/
theorem handleIntervalClock_ticked (h : Asl s) (hnd : (waiting L.clock s ++ s.readyQueue).Nodup) (e : Trap) :
    ∃ s₁, handleIntervalClock L e s = some (resume e.state s₁) ∧ Ticked L s s₁ ∧
      ∀ c, s.currentProcess = some c → resume e.state s₁ = {s₁ with control := .ldst e.state} := by
  obtain ⟨s₁, htick, hd⟩ := clockTick_ends h (List.nodup_append.mp hnd).1
  have hticked := ticked_of_drained hd hnd
  refine ⟨s₁, by simp only [handleIntervalClock, htick, Option.map_some], hticked, fun c hc => ?_⟩
  rw [resume, hticked.current, hc]

end Tick

namespace Sample

/-- The first process creates another, and both wait for the tick. -/
def sleep : List Trap := [ecall (-1) 0 0, ecall (-7) 0 0, ecall (-7) 0 0]

theorem sleep_run : ∃ s, exec (exceptionHandler layout) sleep (main layout boot) = some s ∧
    Run (exceptionHandler layout) (Admissible layout SelfOnly) (main layout boot) sleep s := by
  have hfollows : Follows (exceptionHandler layout) (Admissible layout SelfOnly) sleep (main layout boot) := by
    decide +kernel
  exact hfollows.run

end Sample

open Sample in
theorem handleIntervalClock_ticked_sample : ∃ s s₁,
    exec (exceptionHandler layout) sleep (main layout boot) = some s ∧
      waiting layout.clock s = [firstProcess, child] ∧
      handleIntervalClock layout clockDone s = some (resume clockDone.state s₁) ∧ Ticked layout s s₁ := by
  obtain ⟨s, hexec, hrun⟩ := sleep_run
  have hs : Sound s := run_sound (fun _ _ _ => SelfOnly.termOk) (hrun.mono fun _ _ h => h.allowed)
  have hwaits : (exec (exceptionHandler layout) sleep (main layout boot)).all (fun s =>
      waiting layout.clock s = [firstProcess, child]) = true := by decide +kernel
  rw [hexec] at hwaits
  obtain ⟨s₁, hres, hticked, -⟩ := handleIntervalClock_ticked hs.asl hs.asleep_nodup clockDone
  exact ⟨s, s₁, hexec, by simpa using hwaits, hres, hticked⟩

end MultiPandOS
