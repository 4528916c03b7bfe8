import MultiPandOS.Kernel.Tracked
import MultiPandOS.Support.Progress

/-! The kernel does not panic.

The scheduler panics where nobody is ready and nobody waits for a device, but somebody is
there. Then everybody is stopped at a P (`Kernel.Accounted`). But in a steady run of
the support level somebody is not: the last one who has something left to do finds each mutex
free, and whoever waits for an end has it signalled (`run_somebody`). -/
namespace MultiPandOS
open Forest Runs

section Somebody
variable {L : PoolLayout} {hd : Handlers} {vm : Vm} {s₀ s : Sys} {es : List SysEvent} {q : Nat} {x : Sem}

/-- A U-proc asks for a mutex that it does not hold. -/
theorem uprocCall_passeren (hcall : s.uprocCall q = some (.passeren x)) (hawake : (s.proc q).place ≠ .waitShell) :
    x.mutex = true ∧ s.holds x q = false := by
  have hasks := uprocCall_asks hcall
  unfold Sys.holds
  generalize (s.proc q).place = place at hasks hawake ⊢
  cases hasks with
  | @fault k => exact ⟨rfl, decide_eq_false k.outer_swapPool⟩
  | writeLock => exact ⟨rfl, rfl⟩
  | readLock => exact ⟨rfl, rfl⟩
  | waitShell => exact absurd rfl hawake
  | @terminate step asid call asks =>
    cases step with
    | lock =>
      cases asks
      exact ⟨rfl, rfl⟩
    | _ => cases asks

/-- Whoever has something left to do passes, unless it is the shell that waits. -/
theorem run_passes (hstart : Sys.start hd vm = some s₀) (hrun : Run (sysStep L hd) Steady s₀ es s)
    (hpending : (s.proc q).place.pending = true) (hawake : (s.proc q).place ≠ .waitShell)
    (hcall : s.call (.uproc q) = some (.passeren x)) : 0 < s.sem x := by
  obtain ⟨hmutex, hholds⟩ := uprocCall_passeren hcall hawake
  obtain ⟨s₁, hpass⟩ := run_free hstart hrun hmutex hpending hawake hholds
  exact (passeren_eq_some hpass).1

/-- **Somebody is not stopped at a P**, as long as `test` is there. -/
theorem run_somebody (hstart : Sys.start hd vm = some s₀) (hrun : Run (sysStep L hd) Steady s₀ es s)
    (htest : s.test ≠ .gone) : ∃ t, s.alive t ∧ ∀ x, s.call t = some (.passeren x) → 0 < s.sem x := by
  have hwakes := run_wakes hstart (run_careful hrun)
  have horder := run_orderly hstart (hrun.mono fun _ _ _ => trivial)
  by_cases hshell : (s.proc shellNo).place.pending = true
  · by_cases hwait : (s.proc shellNo).place = .waitShell
    · by_cases hother : ∃ r, r ≠ shellNo ∧ (s.proc r).place.pending = true
      · obtain ⟨r, hr, hpending⟩ := hother
        have hawake : (s.proc r).place ≠ .waitShell := fun he => hr (horder.handshake.waits r he)
        exact ⟨.uproc r, Place.pending_present hpending, fun x hcall => run_passes hstart hrun hpending hawake hcall⟩
      · refine ⟨.uproc shellNo, Place.pending_present hshell, fun x hcall => ?_⟩
        have hcall : s.uprocCall shellNo = some (.passeren x) := hcall
        rw [uprocCall_waitShell hwait] at hcall
        obtain rfl := NucleusCall.passeren.inj (Option.some.inj hcall)
        exact hwakes.shell hwait fun r hr => Bool.eq_false_iff.mpr fun hp => hother ⟨r, hr, hp⟩
    · exact ⟨.uproc shellNo, Place.pending_present hshell, fun x hcall => run_passes hstart hrun hshell hwait hcall⟩
  · refine ⟨.test, htest, fun x hcall => ?_⟩
    cases hat : s.test with
    | waiting =>
      simp only [Sys.call, hat, Option.some.injEq, NucleusCall.passeren.injEq] at hcall
      exact hcall ▸ hwakes.test hat (Bool.eq_false_iff.mpr hshell)
    | dying =>
      simp only [Sys.call, hat] at hcall
      cases hcall
    | gone => exact absurd hat htest

end Somebody

section Kernel
variable {A : Image} {k : Kernel} {p : PcbPtr} {m : Sys}

/-- Above every process is that of `test`. -/
theorem Hosted.test_alive (h : Hosted A k m) (hp : p ∉ k.nucleus.pcbFreeH) : m.alive .test := by
  have hshell : ∀ {p}, p ∉ k.nucleus.pcbFreeH → k.task p = .uproc shellNo → m.alive .test := by
    intro p hp htask
    obtain ⟨q, hq, hqt, -⟩ := h.hosts.above h.sound.ok hp (t := .test) (by rw [htask]; rfl)
    exact (h.hosts.live _).mpr ⟨q, hq, hqt⟩
  cases htask : k.task p with
  | test => exact (h.hosts.live _).mpr ⟨p, hp, htask⟩
  | uproc n =>
    cases n with
    | zero => exact hshell hp htask
    | succ n =>
      obtain ⟨q, hq, hqs, -⟩ := h.hosts.above h.sound.ok hp (t := .uproc shellNo) (by rw [htask]; rfl)
      exact hshell hq hqs

/-- Nobody is left when `test` is gone. -/
theorem Hosted.over (h : Hosted A k m) : m.test = .gone ↔ ∀ p, p ∈ k.nucleus.pcbFreeH := by
  constructor
  · intro hgone p
    by_contra hp
    exact h.test_alive hp hgone
  · intro hall
    by_contra hgone
    obtain ⟨p, hp, -⟩ := (h.hosts.live .test).mp hgone
    exact hp (hall p)

/-- What the processor does when it does not run a process. -/
structure Kernel.Rests (A : Image) (k : Kernel) : Prop where
  panic : k.nucleus.control ≠ .panic
  halt : k.nucleus.control = .halt ↔ (k.sys A).test = .gone
  wait : k.nucleus.control = .wait → ∃ p commandAddr commandValue, p ∈ waiting (A.layout.deviceSem commandAddr) k.nucleus ∧
    (k.sys A).call (k.task p) = some (.doio commandAddr commandValue)

theorem Hosted.rests (h : Hosted A k (k.sys A)) (hacc : k.Accounted A)
    (hsome : (k.sys A).test ≠ .gone →
      ∃ t, (k.sys A).alive t ∧ ∀ x, (k.sys A).call t = some (.passeren x) → 0 < (k.sys A).sem x) : k.Rests A := by
  have hidle : ∀ {c : Control}, k.nucleus.control = c → c.running = false → k.nucleus.control.running = false := by
    rintro c rfl hc
    exact hc
  refine ⟨fun hpanic => ?_, ⟨fun hhalt => ?_, fun hgone => ?_⟩, fun hwait => ?_⟩
  · have hrun := hidle hpanic rfl
    obtain ⟨⟨p, hp⟩, hnone⟩ := (hacc.counts.panic hrun).mp hpanic
    obtain ⟨t, halive, hpass⟩ := hsome (h.test_alive hp)
    obtain ⟨q, hq, rfl⟩ := (h.hosts.live t).mp halive
    -- nobody is ready or running, so `q` is in a queue
    rcases hacc.placed q hq with hready | hcurrent | ⟨key, hmem, hle, call, hcall, hkey⟩
    · rw [hacc.counts.idle hrun] at hready
      cases hready
    · have hsome := h.sound.control
      rw [hrun, hcurrent] at hsome
      cases hsome
    · obtain ⟨hsem, -⟩ := (h.sound.ok.mem_waiting key q).mp hmem
      cases call with
      | passeren x =>
        obtain rfl := Option.some.inj hkey
        exact absurd (hpass x hcall) (not_lt.mpr hle)
      | doio commandAddr commandValue =>
        obtain ⟨j, hj, hidx⟩ := findDeviceIndex_command (call_command hcall)
        refine hnone q hq ⟨j, by simp only [SEMDEVLEN]; omega, ?_⟩
        rw [← hidx]
        exact hsem.trans (Option.some.inj hkey).symm
      | _ => cases hkey
  · exact h.over.mpr ((hacc.counts.halt (hidle hhalt rfl)).mp hhalt)
  · have hall := h.over.mp hgone
    refine (hacc.counts.halt ?_).mpr hall
    rw [h.sound.control]
    cases hc : k.nucleus.currentProcess with
    | none => rfl
    | some c => exact absurd (hall c) (h.caller hc).1
  · obtain ⟨p, hp, hdev⟩ := (hacc.counts.wait (hidle hwait rfl)).mp hwait
    obtain ⟨commandAddr, commandValue, hcall⟩ := h.uses hdev
    rcases hacc.placed p hp with hready | hcurrent | ⟨key, hmem, -, call, hcall', hkey⟩
    · rw [hacc.counts.idle (hidle hwait rfl)] at hready
      cases hready
    · have hsome := h.sound.control
      rw [hidle hwait rfl, hcurrent] at hsome
      cases hsome
    · obtain rfl := Option.some.inj (hcall.symm.trans hcall')
      obtain rfl := Option.some.inj hkey
      exact ⟨p, commandAddr, commandValue, hmem, hcall⟩

/-- The run of the support level that a run of the kernel comes to. -/
theorem steady_run {b : Boot} {vm : Vm} {t : Trap} {k₀ : Kernel} {is : List KernelEvent} (hload : A.Loaded b)
    (hstart : Kernel.start A b vm t = some k₀) (hrun : Run (kernelStep A) (KernelExpects A) k₀ is k)
    (hsteady : Follows (sysStep A.pool A.handlers) Steady (trace (kernelStep A) (Kernel.did A) k₀ is) (k₀.sys A)) :
    Run (sysStep A.pool A.handlers) Steady (k₀.sys A) (trace (kernelStep A) (Kernel.did A) k₀ is) (k.sys A) := by
  obtain ⟨hexec, -⟩ := hosted hload hstart (hrun.mono fun _ _ hok => hok.ok)
  obtain ⟨s, hexec', hsys⟩ := hsteady.run
  obtain rfl := Option.some.inj (hexec.symm.trans hexec')
  exact hsys

end Kernel

/-- **The kernel never panics**: in a run whose steps are steady, and in which devices interrupt only
while somebody waits for them, the processor halts when `test` has ended and all others with it,
and waits only for a device that somebody uses. -/
theorem run_never_panics {A : Image} {b : Boot} {vm : Vm} {t : Trap} {k₀ k : Kernel} {is : List KernelEvent}
    (hload : A.Loaded b) (hstart : Kernel.start A b vm t = some k₀) (hrun : Run (kernelStep A) (KernelExpects A) k₀ is k)
    (hsteady : Follows (sysStep A.pool A.handlers) Steady (trace (kernelStep A) (Kernel.did A) k₀ is) (k₀.sys A)) :
    k.Rests A := by
  obtain ⟨hh, h⟩ := tracked hload hstart hrun
  exact hh.rests (hh.accounted h) (run_somebody (start_hosted hload hstart).1 (steady_run hload hstart hrun hsteady))

namespace KernelSample

/-- The shell reads its first page from the flash device; `test` waits already. -/
def faulting : List KernelEvent :=
  let fault := {State.zero with cause := 25, entryHi := accessHi SHELL_ASID 0x80000000}
  [call (-3) (image.sem .masterSemaphore), .code (.access 0 0x80000000 none answer),
    .passUp ⟨fault, State.zero, fun _ => 0, 0⟩ (.access 0 0x80000000 none {answer with saved := fault}),
    call (-8) 0, call (-3) (image.sem .swapPoolSemaphore), .code (.go 0 answer), .code (.go 0 answer),
    .trap (Sample.ecall (-5) (flashCommand ⟨0, by decide⟩) (readCommand 0)) answer]

end KernelSample

open KernelSample in
theorem run_never_panics_sample :
    ∃ k, exec (kernelStep image) faulting kernel = some k ∧ k.nucleus.currentProcess = none ∧ k.Rests image := by
  have hfollows : Follows (kernelStep image) (KernelExpects image) faulting kernel := by
    decide +kernel
  obtain ⟨k, hexec, hrun⟩ := hfollows.run
  have hsteady : Follows (sysStep image.pool image.handlers) Steady
      (trace (kernelStep image) (Kernel.did image) kernel faulting) (kernel.sys image) := by
    decide +kernel
  have hnobody : (exec (kernelStep image) faulting kernel).all (fun k => k.nucleus.currentProcess = none) = true := by
    decide +kernel
  rw [hexec] at hnobody
  exact ⟨k, hexec, by simpa using hnobody, run_never_panics boot_loaded kernel_eq hrun hsteady⟩

end MultiPandOS
