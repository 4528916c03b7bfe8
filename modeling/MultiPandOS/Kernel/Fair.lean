import MultiPandOS.Kernel.Runs
import MultiPandOS.Nucleus.Fairness

/-! Everybody's turn in a run of the kernel.

`test` and the U-procs all have the priority PROCESS_PRIO_LOW, so they stand in line
for the processor (`Turned.line`): while somebody is ready, no more time slices end than
there were others in front of it (`run_fair`). -/
namespace MultiPandOS
open Forest Runs Line

/-- Who runs after a step and did not before. -/
def Kernel.dispatched (k : Kernel) (_ : KernelEvent) (k' : Kernel) : List PcbPtr :=
  if k'.nucleus.currentProcess = k.nucleus.currentProcess then [] else k'.nucleus.currentProcess.toList

/-- PLT ends a time slice. -/
def KernelEvent.slice : KernelEvent → Bool
  | .trap t _ => t.kind = .interrupt (some 1)
  | _ => false

def Kernel.slices (_ : Kernel) (i : KernelEvent) (_ : Kernel) : List KernelEvent := if i.slice then [i] else []

section Steps
variable {A : Image} {k k' : Kernel} {i : KernelEvent} {t : Trap}

/-- A line for the processor, in which everybody has the same priority. -/
structure InLine (k : Kernel) (i : KernelEvent) (k' : Kernel) (d : Nat) : Prop where
  moves : Moves d k.nucleus.readyQueue k'.nucleus.readyQueue
  dispatched : (k.dispatched i k').length ≤ d
  slices : (k.slices i k').length ≤ d

theorem InLine.idle (hready : k'.nucleus.readyQueue = k.nucleus.readyQueue)
    (hcurrent : k'.nucleus.currentProcess = k.nucleus.currentProcess) (hslice : i.slice = false) : InLine k i k' 0 := by
  refine ⟨hready ▸ .same, ?_, ?_⟩
  · simp [Kernel.dispatched, hcurrent]
  · simp [Kernel.slices, hslice]

theorem InLine.trap {d : Nat} {inp : Input} {table : ProcTable} (hadvances : Advances k.nucleus table d)
    (hplt : t.kind = .interrupt (some 1) → d = 1) (hready : k'.nucleus.readyQueue = table.ready)
    (hcurrent : k'.nucleus.currentProcess = table.current) : InLine k (.trap t inp) k' d := by
  obtain ⟨hmoves, hd, hsame⟩ := hadvances
  refine ⟨hready ▸ hmoves, ?_, ?_⟩
  · unfold Kernel.dispatched
    split
    · exact Nat.zero_le d
    · rename_i hne
      have hpos : d ≠ 0 := fun hzero => hne (hcurrent.trans (hsame hzero))
      have hlength : k'.nucleus.currentProcess.toList.length ≤ 1 := by
        cases k'.nucleus.currentProcess <;> simp
      omega
  · unfold Kernel.slices
    by_cases hslice : t.kind = .interrupt (some 1)
    · rw [hplt hslice]
      split
      · exact Nat.le_refl 1
      · exact Nat.zero_le 1
    · simp [KernelEvent.slice, hslice]

/-- **The ready queue is a line**, whatever happens. -/
theorem Hosted.line (h : Hosted A k (k.sys A)) (heven : k.nucleus.table.Even PROCESS_PRIO_LOW) (hok : KernelOk A k i)
    (hstep : MultiPandOS.kernelStep A i k = some k') :
    k'.nucleus.table.Even PROCESS_PRIO_LOW ∧ ∃ d, InLine k i k' d := by
  cases i with
  | code e =>
    simp only [MultiPandOS.kernelStep] at hstep
    split at hstep
    · obtain ⟨-, support, hn⟩ := goOn_keeps hstep
      exact ⟨by rw [hn]; exact heven, 0, .idle (by rw [hn]) (by rw [hn]) rfl⟩
    · cases hstep
  | passUp t e =>
    simp only [MultiPandOS.kernelStep] at hstep
    split at hstep
    · rename_i q index st place hup
      split at hstep
      · rename_i hpass
        obtain ⟨n, hn, rfl⟩ := Option.map_eq_some_iff.mp hstep
        obtain ⟨c, hc, htask⟩ := Option.map_eq_some_iff.mp hpass.1
        have hhome := h.hosts.home c q (h.caller hc).1 (htask.trans (passedUp_step A.pool A.handlers hup).1)
        rw [exceptionHandler_kind, hpass.2] at hn
        simp only [passUpOrDie_eq hc (hhome ▸ A.sup_null _), Option.some.injEq] at hn
        subst hn
        exact ⟨heven, 0, .idle rfl rfl rfl⟩
      · cases hstep
    · cases hstep
  | trap t inp =>
    simp only [MultiPandOS.kernelStep] at hstep
    split at hstep
    · rename_i hasks
      obtain ⟨n, hn, hexec⟩ := Option.bind_eq_some_iff.mp hstep
      obtain ⟨-, support, hnucleus⟩ := exec_goOn_keeps hexec
      have hasked := asks_asked hasks
      have hprio : t.kind = .service .createProcess → t.state.regA2 = PROCESS_PRIO_LOW := by
        intro hk
        cases hasked with
        | interrupt kind => simp [hk] at kind
        | support kind caller => simp [hk] at kind
        | @call c call caller asks made =>
          cases call with
          | createProcess asid u => exact made.2.2.1
          | _ => simp [hk, NucleusCall.Made] at made
      obtain ⟨n', ms, hres, hturned, htable, -⟩ :=
        handler_turns h.sound (h.admissible hok hasked).allowed fun _ => SelfOnly.termOk
      obtain rfl := Option.some.inj (hres.symm.trans hn)
      obtain ⟨d, hadvances, hplt⟩ := hturned.line h.sound heven hprio
      refine ⟨?_, d, .trap hadvances hplt ?_ ?_⟩
      · rw [hnucleus]
        show n'.table.Even PROCESS_PRIO_LOW
        rw [htable]
        refine heven.moves (hturned.fits h.sound) fun p st prio hmem => ?_
        obtain ⟨hk, rfl⟩ := hturned.created hmem
        exact hprio hk
      · rw [hnucleus, ← htable]
        rfl
      · rw [hnucleus, ← htable]
        rfl
    · cases hstep

/-- An observer of those who are served. -/
theorem Hosted.serves {ω : Type} {obs : Kernel → KernelEvent → Kernel → List ω}
    (hobs : ∀ k i k' d, InLine k i k' d → (obs k i k').length ≤ d) :
    Serves (MultiPandOS.kernelStep A) (KernelOk A) obs
      (fun k => Hosted A k (k.sys A) ∧ k.nucleus.table.Even PROCESS_PRIO_LOW) fun k => k.nucleus.readyQueue := by
  refine ⟨?_, fun k h => h.1.sound.ok.ready_nodup, ?_⟩
  · rintro k i k' ⟨h, heven⟩ hok hstep
    exact ⟨(h.kernelStep hok hstep).2, (h.line heven hok hstep).1⟩
  · rintro k i k' ⟨h, heven⟩ hok hstep
    obtain ⟨-, d, hline⟩ := h.line heven hok hstep
    exact ⟨d, hobs k i k' d hline, hline.moves⟩

theorem start_even {b : Boot} {vm : Vm} (hstart : Kernel.start A b vm t = some k) :
    k.nucleus.table.Even PROCESS_PRIO_LOW := by
  obtain ⟨s, n, -, hk, -, hn, rfl⟩ := start_cases hstart
  have hprio : t.state.regA2 = PROCESS_PRIO_LOW := by
    obtain ⟨s, -, hrest⟩ := Option.bind_eq_some_iff.mp hstart
    split at hrest
    · rename_i hmade
      exact hmade.2.2.1
    · cases hrest
  have hmain : (main A.layout b).table.Even PROCESS_PRIO_LOW := by
    intro p _
    show ((main A.layout b).pcb p).pPrio = PROCESS_PRIO_LOW
    rw [main_pcb]
    split <;> rfl
  obtain ⟨n', ms, hres, hturned, htable, -⟩ :=
    handler_turns (main_sound A.layout b) (create_admissible hk).allowed fun _ => SelfOnly.termOk
  obtain rfl := Option.some.inj (hres.symm.trans hn)
  show n'.table.Even PROCESS_PRIO_LOW
  rw [htable]
  refine hmain.moves (hturned.fits (main_sound A.layout b)) fun p st prio hmem => ?_
  obtain ⟨-, rfl⟩ := hturned.created hmem
  exact hprio

end Steps

/-- **Nobody starves**: while somebody is ready, no more others come to the processor, and no
more time slices end, than there were others in front of it. -/
theorem run_fair {A : Image} {b : Boot} {vm : Vm} {t : Trap} {k₀ k k' : Kernel} {is js : List KernelEvent} {p : PcbPtr}
    (hload : A.Loaded b) (hstart : Kernel.start A b vm t = some k₀) (hrun : Run (kernelStep A) (KernelOk A) k₀ is k)
    (hlater : Run (kernelStep A) (KernelOk A) k js k')
    (hwaits : ∀ ks k₁, ks <+: js → Run (kernelStep A) (KernelOk A) k ks k₁ → p ∈ k₁.nucleus.readyQueue) :
    k'.nucleus.readyQueue.idxOf p + (trace (kernelStep A) Kernel.dispatched k js).length ≤ k.nucleus.readyQueue.idxOf p ∧
      k'.nucleus.readyQueue.idxOf p + (trace (kernelStep A) Kernel.slices k js).length ≤ k.nucleus.readyQueue.idxOf p := by
  have hinv : Hosted A k (k.sys A) ∧ k.nucleus.table.Even PROCESS_PRIO_LOW :=
    hrun.invariant (fun k => Hosted A k (k.sys A) ∧ k.nucleus.table.Even PROCESS_PRIO_LOW)
      ⟨(start_hosted hload hstart).2, start_even hstart⟩ (Hosted.serves fun _ _ _ _ h => h.dispatched).preserved
  exact ⟨Line.Run.ahead (Hosted.serves fun _ _ _ _ h => h.dispatched) hlater hinv hwaits,
    Line.Run.ahead (Hosted.serves fun _ _ _ _ h => h.slices) hlater hinv hwaits⟩

namespace KernelSample

def plt : KernelEvent :=
  .trap ⟨{State.zero with cause := CAUSE_INTERRUPT_BIT ||| IL_CPUTIMER}, State.zero, fun _ => 0, 0⟩ answer

/-- The shell launches a second program before the first one has died. -/
def relaunching : List KernelEvent :=
  launching.dropLast ++ [plt] ++ serve 0 6 3 ++ [.trap (create 3 ⟨6, launched_lt⟩) answer]

theorem relaunched_lt : 16 < MAXPROC := by decide

def relaunched : PcbPtr := ⟨16, relaunched_lt⟩

end KernelSample

open KernelSample in
theorem run_fair_sample :
    ∃ k k', exec (kernelStep image) relaunching kernel = some k ∧ exec (kernelStep image) [plt] k = some k' ∧
      k.nucleus.readyQueue.idxOf relaunched = 1 ∧
      k'.nucleus.readyQueue.idxOf relaunched + (trace (kernelStep image) Kernel.dispatched k [plt]).length ≤
        k.nucleus.readyQueue.idxOf relaunched ∧
      k'.nucleus.readyQueue.idxOf relaunched + (trace (kernelStep image) Kernel.slices k [plt]).length ≤
        k.nucleus.readyQueue.idxOf relaunched := by
  have hfollows : Follows (kernelStep image) (KernelOk image) relaunching kernel := by
    decide +kernel
  obtain ⟨k, hexec, hrun⟩ := hfollows.run
  have hlater : (exec (kernelStep image) relaunching kernel).all (fun k => Follows (kernelStep image) (KernelOk image) [plt] k ∧
      relaunched ∈ k.nucleus.readyQueue ∧ k.nucleus.readyQueue.idxOf relaunched = 1 ∧
        (exec (kernelStep image) [plt] k).all fun k' => relaunched ∈ k'.nucleus.readyQueue) = true := by
    decide +kernel
  rw [hexec] at hlater
  obtain ⟨hfollows', hready, hsecond, hready'⟩ := of_decide_eq_true hlater
  obtain ⟨k', hexec', hrun'⟩ := hfollows'.run
  rw [hexec'] at hready'
  refine ⟨k, k', hexec, hexec', hsecond, run_fair boot_loaded kernel_eq hrun hrun' fun ks k₁ hks hrun₁ => ?_⟩
  have hall : ks = [] ∨ ks = [plt] := by
    cases ks with
    | nil => exact .inl rfl
    | cons i rest =>
      obtain ⟨rfl, hrest⟩ := List.cons_prefix_cons.mp hks
      exact .inr (by rw [List.prefix_nil.mp hrest])
  rcases hall with rfl | rfl
  · obtain rfl := Option.some.inj hrun₁.exec_eq
    exact hready
  · obtain rfl := Option.some.inj (hexec'.symm.trans hrun₁.exec_eq)
    exact of_decide_eq_true hready'

end MultiPandOS
