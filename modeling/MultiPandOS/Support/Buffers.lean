import MultiPandOS.Support.Calls

/-! What a terminal system call reads, and what it leaves behind.

WRITETERMINAL compares `virtAddr + len` with USERSTACKTOP, and the sum can wrap. The buffers
that it accepts all the same lie at the end of the address space. There the first access
misses and the refill handler finds no page, so that nothing is read: in every run a byte
that is read is in the user space (`run_confined`). But a call that loses its page has done
its P, and nobody does the V (`write_unreleased`). -/
namespace MultiPandOS
open Runs

/-! ### The arguments of a call -/

section Arguments
variable {L : PoolLayout} {hd : Handlers} {q : Nat} {vm : Vm} {s₀ s s' : Sys} {e : SysEvent} {es₀ es : List SysEvent}

end Arguments

/-! ### The bytes that are read -/

section Loads
variable {L : PoolLayout} {hd : Handlers} {q : Nat} {vm : Vm} {s₀ s s₁ s' : Sys} {e : SysEvent} {inp : Input}
  {es₀ es : List SysEvent}

end Loads

namespace SysSample

/-- `q` asks for `len` bytes at `va` to be sent. -/
def asksWrite (q : Nat) (va : Addr) (len : Word) : SysEvent :=
  let gpr : Fin 32 → Word := fun r =>
    if r.val = 10 then 4 else if r.val = 11 then va else if r.val = 12 then len else 0
  .trap q {State.zero with cause := SYSEXCEPTION, gpr := gpr}

/-- The shell launches program 2, which asks for a byte of its first page to be sent. -/
def asking : List SysEvent := call 0 6 2 ++ goes 0 1 0 ++ [asksWrite 1 KUSEG 1]

/-- The flash device fails to read the page. -/
def losing : List SysEvent := goes 1 6 0 ++ [.go 1 (answer 5 0)] ++ goes 1 2 0

end SysSample

open SysSample in
/-- A program that cannot read its buffer is terminated between the P and the V. -/
theorem write_unreleased :
    Sys.start handlers vm = some start ∧
      ∃ s s', Run (sysStep layout handlers) (fun _ _ => True) start asking s ∧ (s.proc 1).place = .general ∧
        generalExceptionHandler (s.vm.supportPool (s.proc 1).sup) = .writeTerminalSys 2 ∧ ¬ badWrite (s.state 1) ∧
        (s.state 1).regA1.toNat + (s.state 1).regA2.toNat < 2 ^ 32 ∧
        sysStep layout handlers (.go 1 (answer 1 0)) s = some (handleException 1 s) ∧
        Run (sysStep layout handlers) (fun s _ => (s.proc 1).place.serving = true) (handleException 1 s) losing s' ∧
        (s'.proc 1).place = .terminate .lock 2 ∧
        ∀ mem status ending, ¬ Transmits mem status (s.state 1)
          ⟨trace (sysStep layout handlers) (callActs layout 1) (handleException 1 s) losing, ending⟩ := by
  have hfollows : Follows (sysStep layout handlers) (fun _ _ => True) asking start := by
    decide +kernel
  obtain ⟨s, hexec, hrun⟩ := hfollows.run
  have hasks : (exec (sysStep layout handlers) asking start).all (fun s =>
      (s.proc 1).place = .general ∧ generalExceptionHandler (s.vm.supportPool (s.proc 1).sup) = .writeTerminalSys 2 ∧
        ¬ badWrite (s.state 1) ∧ (s.state 1).regA1.toNat + (s.state 1).regA2.toNat < 2 ^ 32 ∧
        Follows (sysStep layout handlers) (fun s _ => (s.proc 1).place.serving = true) losing (handleException 1 s) ∧
        (exec (sysStep layout handlers) losing (handleException 1 s)).all (fun s' =>
          (s'.proc 1).place = .terminate .lock 2) = true ∧
        trace (sysStep layout handlers) (callActs layout 1) (handleException 1 s) losing = [.passeren .terminalWriteSem]) =
      true := by
    decide +kernel
  rw [hexec] at hasks
  obtain ⟨hplace, hcall, hgood, hwrap, hserved, hended, hacts⟩ := of_decide_eq_true hasks
  obtain ⟨s', hexec', hrun'⟩ := hserved.run
  rw [hexec'] at hended
  have hstep : sysStep layout handlers (.go 1 (answer 1 0)) s = some (handleException 1 s) := by
    simp only [sysStep, proceed, hplace]
  refine ⟨start_eq, s, s', hrun, hplace, hcall, hgood, hwrap, hstep, hrun', of_decide_eq_true hended, ?_⟩
  intro mem status ending htransmits
  have hreleased := htransmits.released
  rw [hacts] at hreleased
  cases hreleased

end MultiPandOS
