import MultiPandOS.Nucleus.SoftBlock
import MultiPandOS.Support.Privilege

/-! The cause word, as the nucleus and the support level read it.

`exceptionHandler` takes the whole word below the interrupt bit for the code;
`generalExceptionHandler` and `pager` mask the saved word with GETEXECCODE, which covers
bits 2 to 6 only, and compare with codes that are not shifted. The two readings agree
except for the codes 9 and 10, which the support level takes for the system call 8, and
for the TLB modification 24, which it never recognises. -/
namespace MultiPandOS
open Runs

/-- Where an exception ends: in the nucleus, in `supportSyscallHandler`, in
`programTrapHandler` by way of `generalExceptionHandler` or of `pager` before its
PASSEREN, or in the critical section of `pager`. -/
inductive Route where
  | nucleus
  | dispatcher
  | programTrap
  | pagerTrap
  | paging
deriving DecidableEq

/-- The decision of `generalExceptionHandler`. -/
def generalRoute (sup : Support) : Route :=
  if (sup.supExceptState GENERALEXCEPT).cause &&& GETEXECCODE = SYSEXCEPTION then .dispatcher else .programTrap

/-- The decision of `pager`. -/
def pagerRoute (sup : Support) : Route :=
  if (sup.supExceptState PGFAULTEXCEPT).cause &&& GETEXECCODE = TLBINVLDMOD then .pagerTrap else .paging

theorem generalExceptionHandler_route (sup : Support) : generalExceptionHandler sup =
    if generalRoute sup = .dispatcher then supportSyscallHandler (sup.supExceptState GENERALEXCEPT) sup.supAsid
    else .programTrapHandler sup.supAsid := by
  unfold generalExceptionHandler generalRoute
  by_cases h : (sup.supExceptState GENERALEXCEPT).cause &&& GETEXECCODE = SYSEXCEPTION
  · simp only [h, if_true]
  · simp only [h, if_false, reduceCtorEq]

theorem enterPager_route (q : Nat) (k : Code) (s : Sys) : enterPager q k s =
    if pagerRoute (s.vm.supportPool (s.proc q).sup) = .pagerTrap then
      some (s.goto q (.terminate .lock (s.vm.supportPool (s.proc q).sup).supAsid))
    else (s.passeren .swapPoolSemaphore).map fun s => s.goto q (.pager .locked k) := by
  unfold enterPager pagerRoute
  by_cases h : ((s.vm.supportPool (s.proc q).sup).supExceptState PGFAULTEXCEPT).cause &&& GETEXECCODE = TLBINVLDMOD
  · simp only [h, if_true]
  · simp only [h, if_false, reduceCtorEq]

/-- The running process `c` has a support structure whose contexts start the handlers that
`initSupportStructure` names. -/
structure HasSupport (h : Handlers) (s : Nucleus) (c : PcbPtr) : Prop where
  current : s.currentProcess = some c
  support : (s.pcb c).pSupportStruct ≠ NULL
  pager : ((s.support (s.pcb c).pSupportStruct).supExceptContext PGFAULTEXCEPT).pc = h.pager
  general : ((s.support (s.pcb c).pSupportStruct).supExceptContext GENERALEXCEPT).pc = h.generalExceptionHandler
  distinct : h.pager ≠ h.generalExceptionHandler

/-- Where the exception of the process `c` ends, from what the nucleus leaves. -/
def route (h : Handlers) (c : PcbPtr) : Option Nucleus → Route
  | none => .nucleus
  | some n =>
    match n.control with
    | .ldcxt context =>
      if context.pc = h.pager then pagerRoute (n.support (n.pcb c).pSupportStruct)
      else if context.pc = h.generalExceptionHandler then generalRoute (n.support (n.pcb c).pSupportStruct)
      else .nucleus
    | _ => .nucleus

/-- The exception code, as the nucleus reads it. -/
def Trap.code (e : Trap) : Nat := (e.state.cause &&& CAUSE_EXCCODE_MASK).toNat

/-- A system call that `syscallHandler` neither serves nor turns into PRIVINSTR. -/
def passedOn (e : Trap) : Prop :=
  (e.code = 8 ∨ e.code = 11) ∧ ¬ unprivileged e.state ∧ Service.ofWord e.state.regA0 = none

instance (e : Trap) : Decidable (passedOn e) := inferInstanceAs (Decidable (_ ∧ _))

/-- The two levels decode the exception `e` of `c` alike. -/
structure DecodesAlike (L : Layout) (h : Handlers) (e : Trap) (s : Nucleus) (c : PcbPtr) : Prop where
  dispatcher : route h c (exceptionHandler L e s) = .dispatcher ↔ passedOn e
  modification : e.code = 24 → route h c (exceptionHandler L e s) = .pagerTrap
  paging : 25 ≤ e.code → e.code ≤ 28 → route h c (exceptionHandler L e s) = .paging
  trap : ∀ st, e.kind = .passUp GENERALEXCEPT st → ¬ passedOn e →
    route h c (exceptionHandler L e s) = .programTrap

section Route
variable {L : Layout} {h : Handlers} {e : Trap} {s : Nucleus} {c : PcbPtr}

theorem route_general (hu : HasSupport h s c) (st : State) :
    route h c (passUpOrDie L GENERALEXCEPT st s) =
      if st.cause &&& GETEXECCODE = SYSEXCEPTION then .dispatcher else .programTrap := by
  rw [passUpOrDie_eq hu.current hu.support]
  simp only [route, hu.general, hu.distinct.symm, if_false, if_true, Function.update_self, generalRoute]

theorem route_pgfault (hu : HasSupport h s c) (st : State) :
    route h c (passUpOrDie L PGFAULTEXCEPT st s) =
      if st.cause &&& GETEXECCODE = TLBINVLDMOD then .pagerTrap else .paging := by
  rw [passUpOrDie_eq hu.current hu.support]
  simp only [route, hu.pager, if_true, Function.update_self, pagerRoute]

theorem route_nucleus {n : Nucleus} (hn : ∀ x, n.control ≠ .ldcxt x) : route h c (some n) = .nucleus := by
  unfold route
  cases hcontrol : n.control with
  | ldcxt context => exact absurd hcontrol (hn context)
  | _ => simp only [hcontrol]

end Route

theorem syscall_masked (n : Fin 29) : BitVec.ofNat 32 n.val &&& GETEXECCODE = SYSEXCEPTION ↔ 8 ≤ n.val ∧ n.val ≤ 11 := by
  revert n
  decide +kernel

/-- TLBINVLDMOD is not among the values it leaves. -/
theorem modification_masked (w : Word) : w &&& GETEXECCODE ≠ TLBINVLDMOD := by
  intro h
  have hbit := congrArg (BitVec.getLsbD · 0) h
  simp [GETEXECCODE, TLBINVLDMOD] at hbit

theorem privInstr_masked (st : State) (hcause : st.cause = 8 ∨ st.cause = 11) :
    (setPrivInstr st).cause &&& GETEXECCODE ≠ SYSEXCEPTION := by
  rcases hcause with hcause | hcause <;> simp only [setPrivInstr, hcause] <;> decide

section Decode
variable {L : Layout} {h : Handlers} {e : Trap} {s : Nucleus} {c : PcbPtr}

/-- Without the interrupt bit the code is the cause. -/
theorem code_cause (hint : e.state.cause &&& CAUSE_INTERRUPT_BIT = 0) : e.state.cause = BitVec.ofNat 32 e.code := by
  have hmask : e.state.cause &&& CAUSE_EXCCODE_MASK = e.state.cause :=
    calc e.state.cause &&& CAUSE_EXCCODE_MASK
        = (e.state.cause &&& CAUSE_EXCCODE_MASK) ||| (e.state.cause &&& CAUSE_INTERRUPT_BIT) := by
          rw [hint]
          exact BitVec.or_zero.symm
      _ = e.state.cause &&& (CAUSE_EXCCODE_MASK ||| CAUSE_INTERRUPT_BIT) := (BitVec.and_or_distrib_left ..).symm
      _ = e.state.cause := BitVec.and_allOnes
  rw [Trap.code, hmask, BitVec.ofNat_toNat, BitVec.setWidth_eq]

/-- What the support level does not take for a system call. -/
theorem not_dispatched (h9 : ¬ (e.code = 9 ∨ e.code = 10)) (hnot : ¬ passedOn e) :
    ¬ (e.code = 9 ∨ e.code = 10 ∨ passedOn e) := fun hor => (or_assoc.mpr hor).elim h9 hnot

/-- What the nucleus makes of an exception, by its code. -/
theorem kind_code (hint : e.state.cause &&& CAUSE_INTERRUPT_BIT = 0) :
    e.kind = if 24 ≤ e.code ∧ e.code ≤ 28 then .passUp PGFAULTEXCEPT e.state
      else if e.code = 8 ∨ e.code = 11 then
        if unprivileged e.state then .passUp GENERALEXCEPT (setPrivInstr e.state)
        else (Service.ofWord e.state.regA0).elim (.passUp GENERALEXCEPT e.state.advance) .service
      else if e.code ≤ 7 ∨ e.code = 9 ∨ e.code = 10 ∨ (e.code ≥ 12 ∧ e.code ≤ 23) then
        .passUp GENERALEXCEPT e.state
      else .ignored := by
  simp only [Trap.kind, hint, ne_eq, not_true_eq_false, if_false]
  cases Service.ofWord e.state.regA0 <;> rfl

/-- Which codes GETEXECCODE makes 8 of. -/
theorem code_masked (hint : e.state.cause &&& CAUSE_INTERRUPT_BIT = 0) (hcode : e.code < 29) :
    e.state.cause &&& GETEXECCODE = SYSEXCEPTION ↔ 8 ≤ e.code ∧ e.code ≤ 11 := by
  rw [code_cause hint]
  exact syscall_masked ⟨e.code, hcode⟩

/-- Where every exception ends, by its code. -/
theorem route_eq (hu : HasSupport h s c) (hint : e.state.cause &&& CAUSE_INTERRUPT_BIT = 0) :
    route h c (exceptionHandler L e s) =
      if 24 ≤ e.code ∧ e.code ≤ 28 then .paging
      else if e.code = 9 ∨ e.code = 10 ∨ passedOn e then .dispatcher
      else if e.kind.passes then .programTrap
      else .nucleus := by
  have hkind := kind_code hint
  rw [exceptionHandler_kind]
  by_cases htlb : 24 ≤ e.code ∧ e.code ≤ 28
  · rw [if_pos htlb] at hkind
    simp only [hkind, route_pgfault hu, modification_masked, if_false, htlb, and_self, if_true]
  simp only [if_neg htlb] at hkind ⊢
  by_cases hsys : e.code = 8 ∨ e.code = 11
  · rw [if_pos hsys] at hkind
    have h8 : ¬ (e.code = 9 ∨ e.code = 10) := by omega
    by_cases hpriv : unprivileged e.state
    · rw [if_pos hpriv] at hkind
      have hcode : e.state.cause = 8 ∨ e.state.cause = 11 := by
        rw [code_cause hint]
        exact hsys.imp (fun hc => by rw [hc]; rfl) (fun hc => by rw [hc]; rfl)
      have hnot : ¬ passedOn e := fun hpassed => hpassed.2.1 hpriv
      simp only [hkind, route_general hu, privInstr_masked _ hcode, if_false]
      rw [if_neg (not_dispatched h8 hnot)]
      rfl
    · rw [if_neg hpriv] at hkind
      cases hsv : Service.ofWord e.state.regA0 with
      | some sv =>
        rw [hsv, Option.elim_some] at hkind
        have hnot : ¬ passedOn e := fun hpassed => by simp [hpassed.2.2] at hsv
        simp only [hkind]
        rw [if_neg (not_dispatched h8 hnot)]
        cases hres : s.currentProcess.bind fun c => serve L e c s sv with
        | none => rfl
        | some n =>
          obtain ⟨c', -, hserve⟩ := Option.bind_eq_some_iff.mp hres
          exact route_nucleus (serve_control hserve)
      | none =>
        rw [hsv, Option.elim_none] at hkind
        have hpassed : passedOn e := ⟨hsys, hpriv, hsv⟩
        have hmasked : e.state.advance.cause &&& GETEXECCODE = SYSEXCEPTION :=
          (code_masked hint (by omega)).mpr (by omega)
        simp only [hkind, route_general hu, hmasked, if_true]
        rw [if_pos (.inr (.inr hpassed))]
  · rw [if_neg hsys] at hkind
    have hnot : ¬ passedOn e := fun hpassed => hsys hpassed.1
    by_cases hgeneral : e.code ≤ 7 ∨ e.code = 9 ∨ e.code = 10 ∨ (e.code ≥ 12 ∧ e.code ≤ 23)
    · rw [if_pos hgeneral] at hkind
      have hmasked := code_masked hint (by omega)
      simp only [hkind, route_general hu, hmasked]
      by_cases h9 : e.code = 9 ∨ e.code = 10
      · rw [if_pos (by omega), if_pos (or_assoc.mp (.inl h9))]
      · rw [if_neg (by omega), if_neg (not_dispatched h9 hnot)]
        rfl
    · rw [if_neg hgeneral] at hkind
      simp only [hkind, route]
      rw [if_neg (not_dispatched (by omega) hnot)]
      rfl

/-- **The cause word**: the two levels decode an exception of a U-proc alike exactly if its
code is none of 9, 10 and 24. -/
theorem decode_iff (hu : HasSupport h s c) (hint : e.state.cause &&& CAUSE_INTERRUPT_BIT = 0) :
    DecodesAlike L h e s c ↔ e.code ≠ 9 ∧ e.code ≠ 10 ∧ e.code ≠ 24 := by
  have hroute := route_eq (L := L) hu hint
  constructor
  · intro hd
    refine ⟨fun h9 => ?_, fun h10 => ?_, fun h24 => ?_⟩
    · have hpassed := hd.dispatcher.mp (by rw [hroute, if_neg (by omega), if_pos (.inl h9)])
      have := hpassed.1
      omega
    · have hpassed := hd.dispatcher.mp (by rw [hroute, if_neg (by omega), if_pos (.inr (.inl h10))])
      have := hpassed.1
      omega
    · have hpager := hd.modification h24
      rw [hroute, if_pos (by omega)] at hpager
      cases hpager
  · rintro ⟨h9, h10, h24⟩
    refine ⟨?_, fun h => absurd h h24, fun h25 h28 => by rw [hroute, if_pos (by omega)], fun st hst hnot => ?_⟩
    · rw [hroute]
      by_cases htlb : 24 ≤ e.code ∧ e.code ≤ 28
      · rw [if_pos htlb]
        refine iff_of_false (by simp) fun hpassed => ?_
        have := hpassed.1
        omega
      · rw [if_neg htlb]
        by_cases hpassed : passedOn e
        · simp only [hpassed, or_true, if_true]
        · rw [if_neg (not_dispatched (by omega) hpassed)]
          refine iff_of_false ?_ hpassed
          split <;> simp
    · have htlb : ¬ (24 ≤ e.code ∧ e.code ≤ 28) := by
        rintro htlb
        have hkind : e.kind = .passUp PGFAULTEXCEPT e.state := (kind_code hint).trans (if_pos htlb)
        rw [hkind] at hst
        exact absurd (Kind.passUp.inj hst).1 (by decide)
      rw [hroute, if_neg htlb, if_neg (not_dispatched (by omega) hnot), hst]
      rfl

end Decode

namespace CauseSample
open Sample CallSample

def handlers : Handlers := ⟨0x20005000, 0x20006000, 0x20007000, 0x20008000⟩

/-- The shell has an exception with the cause `cause` and 4 (WRITETERMINAL) in `a0`. -/
def trap (cause : Word) : Trap := {call 4 0 0 with state := {(call 4 0 0).state with cause := cause}}

theorem shell : ∃ m, exec (Machine.step layout) CallSample.events (Machine.boot layout boot) = some m ∧
    Run (Machine.step layout) Machine.Ok (Machine.boot layout boot) CallSample.events m ∧
    HasSupport handlers m.nucleus child := by
  obtain ⟨m, hexec, hrun, hown, -⟩ := CallSample.run
  have hpcs : (exec (Machine.step layout) CallSample.events (Machine.boot layout boot)).all (fun m =>
      ((m.nucleus.support (m.nucleus.pcb child).pSupportStruct).supExceptContext PGFAULTEXCEPT).pc =
          handlers.pager ∧
        ((m.nucleus.support (m.nucleus.pcb child).pSupportStruct).supExceptContext GENERALEXCEPT).pc =
          handlers.generalExceptionHandler) = true := by decide +kernel
  rw [hexec] at hpcs
  obtain ⟨hpager, hgeneral⟩ := of_decide_eq_true hpcs
  exact ⟨m, hexec, hrun, hown.current, hown.sup, hpager, hgeneral, by decide⟩

end CauseSample

open Sample CauseSample in
theorem decode_iff_sample : ∃ m,
    exec (Machine.step layout) CallSample.events (Machine.boot layout boot) = some m ∧
    DecodesAlike layout handlers (trap 11) m.nucleus child := by
  obtain ⟨m, hexec, -, hu⟩ := shell
  exact ⟨m, hexec, (decode_iff hu (by decide)).mpr (by decide)⟩

open Sample CauseSample in
/-- Cause 9 is dispatched as the system call in `a0`, and a TLB modification is paged in. -/
theorem cause_misread : ∃ m, Run (Machine.step layout) Machine.Ok (Machine.boot layout boot) CallSample.events m ∧
    HasSupport handlers m.nucleus child ∧
    route handlers child (exceptionHandler layout (trap 9) m.nucleus) = .dispatcher ∧
    ¬ DecodesAlike layout handlers (trap 9) m.nucleus child ∧
    route handlers child (exceptionHandler layout (trap 24) m.nucleus) = .paging ∧
    ¬ DecodesAlike layout handlers (trap 24) m.nucleus child := by
  obtain ⟨m, -, hrun, hu⟩ := shell
  have h9 : route handlers child (exceptionHandler layout (trap 9) m.nucleus) = .dispatcher := by
    rw [route_eq hu (by decide), if_neg (by decide), if_pos (by decide)]
  have h24 : route handlers child (exceptionHandler layout (trap 24) m.nucleus) = .paging := by
    rw [route_eq hu (by decide), if_pos (by decide)]
  refine ⟨m, hrun, hu, h9, fun hd => ?_, h24, fun hd => ?_⟩
  · exact absurd (hd.dispatcher.mp h9) (by decide)
  · cases h24.symm.trans (hd.modification (by decide))

end MultiPandOS
