import MultiPandOS.Nucleus.Runs

/-! TERMPROCESS and the caller.

`killProcess` frees the whole subtree of its target, but TERMPROCESS gives up the
caller only if the caller is the target itself. So it is safe for every target but
the proper ancestors of the caller (`terminate_safe_iff`): there the caller is
freed and goes on running. -/
namespace MultiPandOS
open Forest Runs

/-- What is to hold once `c` has terminated `r` in the state `s` and `s'` is reached:
nobody killed runs, is ready or blocked, the processor goes back to the caller only
if it was not killed, and in no state from there on does a process run that is on
the free list. -/
structure Terminated (L : Layout) (s : Nucleus) (c r : PcbPtr) (s' : Nucleus) : Prop where
  freed : ∀ q, Below s.links r q → q ∈ s'.pcbFreeH
  gone : ∀ q, Below s.links r q →
    s'.currentProcess ≠ some q ∧ q ∉ s'.readyQueue ∧ ∀ j, q ∉ (s'.semd j).sProcq
  caller : s'.currentProcess = some c → ¬ Below s.links r c
  never : ∀ es t, Run (exceptionHandler L) (Admissible L TermOk) s' es t →
    ∀ p, t.currentProcess = some p → p ∉ t.pcbFreeH

section
variable {L : Layout} {s : Nucleus} {c r : PcbPtr} (hs : Sound s) (hc : s.currentProcess = some c)
  (hr : r ∉ s.pcbFreeH) (e : Trap)
include hs hc hr

/-- A proper ancestor of the caller: the caller is freed and goes on running. -/
theorem terminate_ancestor (hanc : Below s.links r c) (hne : r ≠ c) :
    ∃ s', terminate L e (some r) s = some s' ∧ s'.currentProcess = some c ∧ c ∈ s'.pcbFreeH := by
  obtain ⟨ks, s₁, hkill, hk, hks⟩ := killProcess_killed L hs.asl hs.ok hr
  have hcur : s₁.currentProcess = some c := (congrArg View.current hk.view).trans hc
  have hfree : s₁.pcbFreeH = ks.reverse ++ s.pcbFreeH := congrArg View.free hk.view
  refine ⟨s₁.ldst e.state.advance, ?_, hcur, ?_⟩
  · simp only [terminate, hkill, Option.map_some, hcur, Option.some.injEq, hne, if_false]
  · show c ∈ s₁.pcbFreeH
    simp [hfree, (hks c).mpr hanc]

/-- Any other target: the state stays sound and whoever was killed is free. -/
theorem terminate_sound (hanc : Below s.links r c → r = c) :
    ∃ s', terminate L e (some r) s = some s' ∧ Sound s' ∧ ∀ q, Below s.links r q → q ∈ s'.pcbFreeH := by
  obtain ⟨ks, s', v, hres, hasl, hks, hdoes, hleaves⟩ := terminate_leaves (L := L) (e := e) hs hc hr hanc
  obtain ⟨hok, hcur⟩ := hdoes.ok hs.ok hs.current
  refine ⟨s', hres, hleaves.sound hok hcur hasl, fun q hq => ?_⟩
  have hfree : v.free = ks.reverse ++ s.pcbFreeH := by
    cases hdoes
    rfl
  have hfree' : s'.pcbFreeH = v.free := by
    cases hleaves with
    | resume _ hview => exact congrArg View.free hview
    | dispatch _ hview =>
      refine (congrArg View.free hview).trans ?_
      unfold View.dispatch
      cases v.ready <;> rfl
  rw [hfree', hfree]
  simp [(hks q).mpr hq]

/-- **TERMPROCESS is safe for every target but the proper ancestors of the caller**,
in every process forest. -/
theorem terminate_safe_iff :
    (∃ s', terminate L e (some r) s = some s' ∧ Terminated L s c r s') ↔ (Below s.links r c → r = c) := by
  constructor
  · rintro ⟨s', hres, ht⟩ hanc
    by_contra hne
    obtain ⟨t, hres', hcur, hfree⟩ := terminate_ancestor (L := L) hs hc hr e hanc hne
    obtain rfl : s' = t := Option.some.inj (hres.symm.trans hres')
    exact ht.never [] s' .nil c hcur hfree
  · intro hanc
    obtain ⟨s', hres, hs', hfree⟩ := terminate_sound (L := L) hs hc hr e hanc
    refine ⟨s', hres, hfree, fun q hq => ⟨fun hcur => ?_, fun hq' => ?_, fun j hj => ?_⟩, fun hcur hb => ?_,
      fun es t hrun p hp => ?_⟩
    · exact (hs'.current q hcur).live (hfree q hq)
    · exact hs'.ok.ready_live q hq' (hfree q hq)
    · exact (hs'.mem_sProcq hj).2.2 (hs'.ok.free_semAdd q (hfree q hq))
    · exact (hs'.current c hcur).live (hfree c hb)
    · have ht : Sound t := hrun.invariant Sound hs' fun _ _ _ hs hadm hstep => hs.step hadm.allowed (fun _ => id) hstep
      exact (ht.current p hp).live

end

namespace Sample

/-- The first process creates a second one and yields to it. -/
def parentAndChild : List Trap := [ecall (-1) 0 0, ecall (-10) 0 0]

theorem parentAndChild_run : ∃ s, exec (exceptionHandler layout) parentAndChild (main layout boot) = some s ∧
    Sound s ∧ s.currentProcess = some child ∧ (s.pcb child).pParent = some firstProcess ∧
    firstProcess ∉ s.pcbFreeH ∧ (s.pcb firstProcess).pPid = 1 ∧ termTarget (ecall (-2) 1 0) child s = some (some firstProcess) ∧
    termTarget (ecall (-2) 0 0) child s = some (some child) := by
  have hfollows : Follows (exceptionHandler layout) (Admissible layout SelfOnly) parentAndChild
      (main layout boot) := by decide +kernel
  obtain ⟨s, hexec, hrun⟩ := hfollows.run
  have hs : (exec (exceptionHandler layout) parentAndChild (main layout boot)).all (fun s =>
      s.currentProcess = some child ∧ (s.pcb child).pParent = some firstProcess ∧
      firstProcess ∉ s.pcbFreeH ∧ (s.pcb firstProcess).pPid = 1 ∧
      termTarget (ecall (-2) 1 0) child s = some (some firstProcess) ∧
      termTarget (ecall (-2) 0 0) child s = some (some child)) = true := by decide +kernel
  rw [hexec] at hs
  exact ⟨s, hexec, run_sound (fun _ _ _ => SelfOnly.termOk) (hrun.mono fun _ _ h => h.allowed), by simpa using hs⟩

end Sample

open Sample in
/-- Killing oneself. -/
theorem terminate_safe_self : ∃ s s', exec (exceptionHandler layout) parentAndChild (main layout boot) = some s ∧
    terminate layout (ecall (-2) 0 0) (some child) s = some s' ∧ Terminated layout s child child s' := by
  obtain ⟨s, hexec, hs, hc, -⟩ := parentAndChild_run
  obtain ⟨s', hres, ht⟩ :=
    (terminate_safe_iff (L := layout) hs hc (hs.current child hc).live (ecall (-2) 0 0)).mpr fun _ => rfl
  exact ⟨s, s', hexec, hres, ht⟩

open Sample in
/-- Killing one's parent. -/
theorem terminate_parent_unsafe :
    ∃ s s', exec (exceptionHandler layout) parentAndChild (main layout boot) = some s ∧
      s.currentProcess = some child ∧ firstProcess ∉ s.pcbFreeH ∧ (s.pcb firstProcess).pPid = 1 ∧
      termTarget (ecall (-2) 1 0) child s = some (some firstProcess) ∧
      exceptionHandler layout (ecall (-2) 1 0) s = some s' ∧
      s'.currentProcess = some child ∧ child ∈ s'.pcbFreeH ∧ ¬ Terminated layout s child firstProcess s' := by
  obtain ⟨s, hexec, hs, hc, hparent, hlive, hpid, htarget, -⟩ := parentAndChild_run
  have hbelow : Below s.links firstProcess child := .single ((hs.ok.wf.child firstProcess child).mpr hparent)
  obtain ⟨s', hres, hcur, hfree⟩ :=
    terminate_ancestor (L := layout) hs hc hlive (ecall (-2) 1 0) hbelow (by decide)
  have hkind : (ecall (-2) 1 0).kind = .service .termProcess := rfl
  refine ⟨s, s', hexec, hc, hlive, hpid, htarget, ?_, hcur, hfree, fun ht => ?_⟩
  · rw [exceptionHandler_kind, hkind]
    simp only [hc, Option.bind_some, serve, termProcess, htarget, hres]
  · exact ht.caller hcur hbelow

end MultiPandOS
