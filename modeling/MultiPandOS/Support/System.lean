import MultiPandOS.Phase3.SysSupport
import MultiPandOS.Support.Paging
import Mathlib.Tactic.SplitIfs

/-! What a step of the support level can do.

The place of a U-proc says whether it still has pages, owns a support structure, holds
`swapPoolSemaphore` and has yet to signal its end. Most steps change nothing but saved
states and the terminals (`Quiet`). The others enter or leave the critical section of
the pager, move within it, give something back or start a program: `sysStep_effect`
lists them once, and what is proved of runs starts from that list. -/
namespace MultiPandOS

/-! ### Places -/

/-- The frame that nobody may map while its pager works on it. -/
def PagerAt.detached : PagerAt → Option Frame
  | .evicted _ f _ => some f
  | .wrote _ f _ _ => some f
  | .reading _ f => some f
  | .got _ f _ _ => some f
  | .loaded _ f => some f
  | _ => none

/-- The ASIDs that lead to `programTrapHandler` are `a`. -/
def PagerAt.asidOk (a : Word) : PagerAt → Prop
  | .wrote _ _ asid status => status &&& 0xff = 4 → asid = a
  | .got _ _ asid _ => asid = a
  | .failed asid => asid = a
  | _ => True

def Code.asidOk (a : Word) : Code → Prop
  | .reading asid _ _ => asid = a
  | _ => True

namespace Place

/-- The U-proc still has its pages. -/
def mapped : Place → Bool
  | .absent => false
  | .terminate .lock _ => true
  | .terminate .free _ => true
  | .terminate _ _ => false
  | _ => true

/-- The U-proc owns its support structure. -/
def owns : Place → Bool
  | .absent => false
  | .terminate .signal _ => false
  | .terminate .die _ => false
  | _ => true

/-- The U-proc holds `swapPoolSemaphore`. -/
def locks : Place → Bool
  | .pager _ _ => true
  | .terminate .free _ => true
  | .terminate .unlock _ => true
  | _ => false

/-- The U-proc has not signalled its end. -/
def pending : Place → Bool
  | .absent => false
  | .terminate .die _ => false
  | _ => true

def detached : Place → Option Frame
  | .pager place _ => place.detached
  | _ => none

/-- Every ASID at hand is that of the U-proc. -/
def asidOk (a : Word) : Place → Prop
  | .code k => k.asidOk a
  | .fault k => k.asidOk a
  | .pager place k => place.asidOk a ∧ k.asidOk a
  | .readLock asid => asid = a
  | .readLoop asid _ => asid = a
  | .readIo asid _ => asid = a
  | .readAbort asid => asid = a
  | .executing asid => asid = a
  | .waitShell => a = SHELL_ASID
  | .terminate _ asid => asid = a
  | _ => True

/-- Outside the critical sections, with everything still to be given back. -/
def calm : Place → Bool
  | .absent => false
  | .pager _ _ => false
  | .waitShell => false
  | .terminate .lock _ => true
  | .terminate _ _ => false
  | _ => true

variable {place : Place}

theorem calm_mapped (h : place.calm = true) : place.mapped = true := by
  cases place with
  | terminate step asid => cases step <;> first | rfl | cases h
  | _ => first | rfl | cases h

theorem calm_owns (h : place.calm = true) : place.owns = true := by
  cases place with
  | terminate step asid => cases step <;> first | rfl | cases h
  | _ => first | rfl | cases h

theorem calm_pending (h : place.calm = true) : place.pending = true := by
  cases place with
  | terminate step asid => cases step <;> first | rfl | cases h
  | _ => first | rfl | cases h

theorem calm_detached (h : place.calm = true) : place.detached = none := by
  cases place with
  | pager at' k => cases h
  | _ => rfl

theorem mapped_owns (h : place.mapped = true) : place.owns = true := by
  cases place with
  | terminate step asid => cases step <;> first | rfl | cases h
  | _ => first | rfl | cases h

theorem mapped_pending (h : place.mapped = true) : place.pending = true := by
  cases place with
  | terminate step asid => cases step <;> first | rfl | cases h
  | _ => first | rfl | cases h

theorem locks_pending (h : place.locks = true) : place.pending = true := by
  cases place with
  | terminate step asid => cases step <;> first | rfl | cases h
  | _ => first | rfl | cases h

theorem locks_owns (h : place.locks = true) : place.owns = true := by
  cases place with
  | terminate step asid => cases step <;> first | rfl | cases h
  | _ => first | rfl | cases h

theorem detached_locks {f : Frame} (h : place.detached = some f) : place.locks = true := by
  cases place with
  | pager at' k => rfl
  | _ => cases h

end Place

/-! ### Steps of one U-proc -/

/-- `q` has gone to `place`. -/
structure Moved (q : Nat) (place : Place) (s s' : Sys) : Prop where
  proc : s'.proc = Function.update s.proc q {s.proc q with place := place}
  next : s'.next = s.next
  test : s'.test = s.test

section Moves
variable {q : Nat} {place : Place} {s s' : Sys}

theorem Moved.sup (h : Moved q place s s') (r : Nat) : (s'.proc r).sup = (s.proc r).sup := by
  rw [h.proc]
  by_cases hr : r = q
  · subst hr
    simp
  · simp [hr]

theorem Moved.asid (h : Moved q place s s') (r : Nat) : (s'.proc r).asid = (s.proc r).asid := by
  rw [h.proc]
  by_cases hr : r = q
  · subst hr
    simp
  · simp [hr]

theorem Moved.self (h : Moved q place s s') : (s'.proc q).place = place := by
  rw [h.proc, Function.update_self]

theorem Moved.other (h : Moved q place s s') {r : Nat} (hr : r ≠ q) : (s'.proc r).place = (s.proc r).place := by
  rw [h.proc, Function.update_of_ne hr]

theorem Moved.goto (h : Moved q place s s') (place' : Place) : Moved q place' s (s'.goto q place') := by
  refine ⟨?_, h.next, h.test⟩
  show Function.update s'.proc q _ = _
  rw [h.proc, Function.update_idem, Function.update_self]

theorem Moved.ldst (h : Moved q place s s') : Moved q (.code .user) s (s'.ldst q) := by
  have hstate : Moved q place s (s'.setState q GENERALEXCEPT (s'.state q).advance) := ⟨h.proc, h.next, h.test⟩
  exact hstate.goto (.code .user)

/-- What `q` does not gain, nobody gains. -/
theorem Moved.attr (h : Moved q place s s') {attr : Place → Bool}
    (hq : attr place = true → attr (s.proc q).place = true) {r : Nat} (hr : attr (s'.proc r).place = true) :
    attr (s.proc r).place = true := by
  by_cases hrq : r = q
  · subst hrq
    rw [h.self] at hr
    exact hq hr
  · rwa [h.other hrq] at hr

/-- A program that terminates. -/
theorem termprocess_moved (hq : q ≠ shellNo) : Moved q .absent s (termprocess q s) := by
  unfold termprocess
  rw [if_neg hq]
  exact ⟨rfl, rfl, rfl⟩

/-- The shell takes the programs with it. -/
theorem termprocess_shell (s : Sys) (r : Nat) : ((termprocess shellNo s).proc r).place = .absent := rfl

theorem termprocess_self (q : Nat) (s : Sys) : ((termprocess q s).proc q).place = .absent := by
  by_cases hq : q = shellNo
  · subst hq
    exact termprocess_shell s shellNo
  · exact (termprocess_moved hq).self

/-- Nothing else changes. -/
theorem termprocess_eq (q : Nat) (s : Sys) : termprocess q s = {s with proc := (termprocess q s).proc} := by
  unfold termprocess
  split
  · rfl
  · rfl

@[simp] theorem termprocess_vm (q : Nat) (s : Sys) : (termprocess q s).vm = s.vm := by rw [termprocess_eq]
@[simp] theorem termprocess_sem (q : Nat) (s : Sys) : (termprocess q s).sem = s.sem := by rw [termprocess_eq]
@[simp] theorem termprocess_next (q : Nat) (s : Sys) : (termprocess q s).next = s.next := by rw [termprocess_eq]
@[simp] theorem termprocess_test (q : Nat) (s : Sys) : (termprocess q s).test = s.test := by rw [termprocess_eq]
@[simp] theorem termprocess_supportFree (q : Nat) (s : Sys) : (termprocess q s).supportFree = s.supportFree := by
  rw [termprocess_eq]

end Moves

/-! ### Quiet steps -/

/-- `q` has gone to `place`, and besides only saved states, the frames, the terminals
and free support structures have changed. -/
structure Quiet (q : Nat) (place : Place) (s s' : Sys) : Prop extends Moved q place s s' where
  swapPool : s'.vm.swapPool = s.vm.swapPool
  tlb : s'.vm.tlb = s.vm.tlb
  tables : SameTables {u | u ∉ s.supportFree} s.vm s'.vm
  supportFree : s'.supportFree = s.supportFree
  sem : ∀ x, x ≠ .terminalWriteSem → x ≠ .terminalReadSem → s'.sem x = s.sem x

/-- A semaphore of a terminal. -/
def Sem.terminal (x : Sem) : Prop := x = .terminalWriteSem ∨ x = .terminalReadSem

section Quiet
variable {q : Nat} {place : Place} {s s' s'' : Sys}

theorem Quiet.refl (q : Nat) (s : Sys) : Quiet q (s.proc q).place s s :=
  ⟨⟨(Function.update_eq_self q s.proc).symm, rfl, rfl⟩, rfl, rfl, ⟨fun _ _ => rfl, fun _ _ => rfl⟩, rfl,
    fun _ _ _ => rfl⟩

theorem Quiet.goto (h : Quiet q place s s') (place' : Place) : Quiet q place' s (s'.goto q place') :=
  ⟨h.toMoved.goto place', h.swapPool, h.tlb, h.tables, h.supportFree, h.sem⟩

theorem Quiet.setVm (h : Quiet q place s s') {vm : Vm} (hpool : vm.swapPool = s'.vm.swapPool)
    (htlb : vm.tlb = s'.vm.tlb) (htables : SameTables {u | u ∉ s.supportFree} s'.vm vm) :
    Quiet q place s (s'.setVm vm) := by
  have hsame : SameTables {u | u ∉ s.supportFree} s.vm vm :=
    ⟨fun k hk => (htables.pte k hk).trans (h.tables.pte k hk),
      fun u hu => (htables.asid u hu).trans (h.tables.asid u hu)⟩
  exact ⟨⟨h.proc, h.next, h.test⟩, hpool.trans h.swapPool, htlb.trans h.tlb, hsame, h.supportFree, h.sem⟩

theorem Quiet.setState (h : Quiet q place s s') (i : Fin 2) (st : State) :
    Quiet q place s (s'.setState q i st) := by
  have hpte : ∀ k, (s'.setState q i st).vm.pte k = s'.vm.pte k := by
    intro k
    by_cases hk : k.1 = (s'.proc q).sup
    · simp [Vm.pte, Sys.setState, hk]
    · simp [Vm.pte, Sys.setState, hk]
  have hasid : ∀ u, (s'.setState q i st).vm.asid u = s'.vm.asid u := by
    intro u
    by_cases hu : u = (s'.proc q).sup
    · simp [Vm.asid, Sys.setState, hu]
    · simp [Vm.asid, Sys.setState, hu]
  exact h.setVm rfl rfl ⟨fun k _ => hpte k, fun u _ => hasid u⟩

theorem Quiet.setA0 (h : Quiet q place s s') (w : Word) : Quiet q place s (s'.setA0 q w) := h.setState _ _

theorem Quiet.ldst (h : Quiet q place s s') : Quiet q (.code .user) s (s'.ldst q) := (h.setState _ _).goto _

theorem Quiet.setSem (h : Quiet q place s s') {x : Sem} (hx : x.terminal) (v : Int) :
    Quiet q place s {s' with sem := Function.update s'.sem x v} := by
  refine ⟨⟨h.proc, h.next, h.test⟩, h.swapPool, h.tlb, h.tables, h.supportFree, fun y hw hr => ?_⟩
  have hne : y ≠ x := by
    rintro rfl
    exact hx.elim hw hr
  exact (Function.update_of_ne hne _ _).trans (h.sem y hw hr)

theorem Quiet.verhogen (h : Quiet q place s s') {x : Sem} (hx : x.terminal) : Quiet q place s (s'.verhogen x) :=
  h.setSem hx _

theorem passeren_eq_some {x : Sem} (h : s.passeren x = some s') :
    0 < s.sem x ∧ s' = {s with sem := Function.update s.sem x (s.sem x - 1)} := by
  unfold Sys.passeren at h
  split at h
  · exact ⟨by assumption, (Option.some.inj h).symm⟩
  · cases h

theorem Quiet.passeren (h : Quiet q place s s') {x : Sem} (hx : x.terminal) (hs : s'.passeren x = some s'') :
    Quiet q place s s'' := by
  obtain ⟨-, rfl⟩ := passeren_eq_some hs
  exact h.setSem hx _

/-- A system call that ends with a P. -/
theorem passeren_ldst {x : Sem} (hs : s.passeren x = some s') (q : Nat) : Moved q (.code .user) s (s'.ldst q) := by
  obtain ⟨-, rfl⟩ := passeren_eq_some hs
  exact ⟨(Quiet.refl q s).ldst.proc, rfl, rfl⟩

theorem Quiet.setFrame (h : Quiet q place s s') (f : Frame) (d : Page) :
    Quiet q place s (s'.setVm (s'.vm.setFrame f d)) :=
  h.setVm rfl rfl ⟨fun _ _ => rfl, fun _ _ => rfl⟩

theorem Quiet.storeWord (h : Quiet q place s s') (L : PoolLayout) (lo : Word) (w : Fin 1024) (v : Word) :
    Quiet q place s (s'.setVm (storeWord L lo w v s'.vm)) := by
  unfold MultiPandOS.storeWord
  split
  · exact h.setFrame _ _
  · exact h.setVm rfl rfl ⟨fun _ _ => rfl, fun _ _ => rfl⟩

theorem Quiet.storeByte (h : Quiet q place s s') (L : PoolLayout) (lo : Word) (va : Addr) (c : Word) :
    Quiet q place s (s'.setVm (storeByte L lo va c s'.vm)) := by
  unfold MultiPandOS.storeByte
  split
  · exact h.storeWord L lo _ _
  · exact h.setVm rfl rfl ⟨fun _ _ => rfl, fun _ _ => rfl⟩

end Quiet

/-! ### What the functions do -/

section Cases
variable {q : Nat} {s s' : Sys} {inp : Input}

theorem lookup_eq_miss {hi : Word} {vm : Vm} (h : lookup hi vm = .miss) : TLBP hi vm = none := by
  unfold lookup at h
  split at h
  · assumption
  · split at h <;> cases h

/-- A refill past the end of the page table is a program trap, or it is no use. -/
theorem strayRefill_cases (q : Nat) (inp : Input) (s : Sys) :
    (inp.busError = true ∧
      strayRefill q inp s = (s.setState q GENERALEXCEPT {inp.saved with cause := LOADFAULT}).goto q .general) ∨
    (inp.busError = false ∧ strayRefill q inp s = s) := by
  unfold strayRefill
  cases inp.busError with
  | true => exact .inl ⟨rfl, rfl⟩
  | false => exact .inr ⟨rfl, rfl⟩

/-- An access refills the TLB, or tries to, is passed up to the pager, or goes on. -/
theorem touch_cases {k : Code} {va : Addr} {done : Word → Sys} (h : touch q k va inp done s = some s') :
    (∃ p, lookup (accessHi (s.proc q).asid va) s.vm = .miss ∧
      arrayIndex USERPGTBLSIZE (findPageIndex (accessHi (s.proc q).asid va)) = some p ∧
        s' = s.setVm (s.vm.setTlb inp.slot (s.vm.pte ((s.proc q).sup, p)))) ∨
    (lookup (accessHi (s.proc q).asid va) s.vm = .miss ∧
      arrayIndex USERPGTBLSIZE (findPageIndex (accessHi (s.proc q).asid va)) = none ∧ s' = strayRefill q inp s) ∨
    (lookup (accessHi (s.proc q).asid va) s.vm = .invalid ∧
      s' = (s.setState q PGFAULTEXCEPT {inp.saved with entryHi := accessHi (s.proc q).asid va}).goto q (.fault k)) ∨
    ∃ lo, lookup (accessHi (s.proc q).asid va) s.vm = .hit lo ∧ s' = done lo := by
  simp only [touch] at h
  cases hlook : lookup (accessHi (s.proc q).asid va) s.vm with
  | miss =>
    cases hindex : arrayIndex USERPGTBLSIZE (findPageIndex (accessHi (s.proc q).asid va)) with
    | none =>
      simp only [hlook, uTLB_RefillHandler, hindex, Option.map_none] at h
      exact .inr (.inl ⟨rfl, rfl, (Option.some.inj h).symm⟩)
    | some p =>
      simp only [hlook, uTLB_RefillHandler, hindex, Option.map_some] at h
      exact .inl ⟨p, rfl, rfl, (Option.some.inj h).symm⟩
  | invalid =>
    simp only [hlook] at h
    exact .inr (.inr (.inl ⟨rfl, (Option.some.inj h).symm⟩))
  | hit lo =>
    simp only [hlook] at h
    exact .inr (.inr (.inr ⟨lo, rfl, (Option.some.inj h).symm⟩))

/-- The exception is the system call number `n`. -/
def State.asksFor (st : State) (n : Int) : Prop := st.cause &&& GETEXECCODE = SYSEXCEPTION ∧ st.regA0.toInt = n

theorem not_asksFor {st : State} (h : st.cause = LOADFAULT) (n : Int) : ¬ st.asksFor n := by
  rintro ⟨hcause, -⟩
  rw [h] at hcause
  exact absurd hcause (by decide)

/-- The function that an exception ends in, by the number of the call. -/
theorem generalExceptionHandler_call (sup : Support) :
    generalExceptionHandler sup = .terminateSys sup.supAsid ∨ generalExceptionHandler sup = .programTrapHandler sup.supAsid ∨
      (generalExceptionHandler sup = .writeTerminalSys sup.supAsid ∧
        (sup.supExceptState GENERALEXCEPT).asksFor WRITETERMINAL) ∨
      (generalExceptionHandler sup = .readTerminalSys sup.supAsid ∧
        (sup.supExceptState GENERALEXCEPT).asksFor READTERMINAL) ∨
      (generalExceptionHandler sup = .executeSys sup.supAsid ∧
        (sup.supExceptState GENERALEXCEPT).asksFor EXECUTE) := by
  simp only [generalExceptionHandler, supportSyscallHandler, State.asksFor]
  split_ifs <;> simp_all

/-- An exception starts the termination of `q`, or a call whose arguments are in order. -/
theorem handleException_cases (q : Nat) (s : Sys) :
    handleException q s = s.goto q (.terminate .lock (s.vm.asid (s.proc q).sup)) ∨
    ((s.state q).asksFor WRITETERMINAL ∧ ¬ badWrite (s.state q) ∧ handleException q s = s.goto q .writeLock) ∨
    ((s.state q).asksFor READTERMINAL ∧
      handleException q s = s.goto q (.readLock (s.vm.asid (s.proc q).sup))) ∨
    ((s.state q).asksFor EXECUTE ∧
      handleException q s = s.goto q (.executing (s.vm.asid (s.proc q).sup))) := by
  obtain hc | hc | ⟨hc, ha⟩ | ⟨hc, ha⟩ | ⟨hc, ha⟩ := generalExceptionHandler_call (s.vm.supportPool (s.proc q).sup)
  · exact .inl (by simp only [handleException, hc]; rfl)
  · exact .inl (by simp only [handleException, hc]; rfl)
  · by_cases hbad : badWrite (s.state q)
    · exact .inl (by simp only [handleException, hc, if_pos hbad]; rfl)
    · exact .inr (.inl ⟨ha, hbad, by simp only [handleException, hc, if_neg hbad]⟩)
  · by_cases hbad : badRead (s.state q)
    · exact .inl (by simp only [handleException, hc, if_pos hbad]; rfl)
    · exact .inr (.inr (.inl ⟨ha, by simp only [handleException, hc, if_neg hbad]; rfl⟩))
  · exact .inr (.inr (.inr ⟨ha, by simp only [handleException, hc]; rfl⟩))

theorem enterPager_cases {k : Code} (h : enterPager q k s = some s') :
    s' = s.goto q (.terminate .lock (s.vm.asid (s.proc q).sup)) ∨
    ∃ s₁, s.passeren .swapPoolSemaphore = some s₁ ∧ s' = s₁.goto q (.pager .locked k) := by
  simp only [enterPager] at h
  split at h
  · exact .inl (Option.some.inj h).symm
  · obtain ⟨s₁, hpass, rfl⟩ := Option.map_eq_some_iff.mp h
    exact .inr ⟨s₁, hpass, rfl⟩

/-- EXECUTE refuses the caller, finds no support structure, fails to create the process and
frees its structure again, or launches the program. -/
theorem executeSys_cases (h : Handlers) (q : Nat) (asid result : Word) (s : Sys) :
    (badExecute asid (s.state q).regA1 ∧ executeSys h q asid result s = s.goto q (.terminate .lock asid)) ∨
    (¬ badExecute asid (s.state q).regA1 ∧ s.supportFree = [] ∧
      executeSys h q asid result s = (s.setA0 q (-1)).ldst q) ∨
    (∃ u supportFree, ¬ badExecute asid (s.state q).regA1 ∧ s.supportFree = u :: supportFree ∧ result = -1 ∧
      executeSys h q asid result s =
        (({s.setVm ((s.vm.initSupport h u (s.state q).regA1).setAsid u 0) with
          supportFree := u :: supportFree} : Sys).setA0 q (-1)).ldst q) ∨
    ∃ u supportFree, ¬ badExecute asid (s.state q).regA1 ∧ s.supportFree = u :: supportFree ∧ result ≠ -1 ∧
      executeSys h q asid result s =
        (({s.setVm (s.vm.initSupport h u (s.state q).regA1) with supportFree := supportFree} : Sys).create u
          (s.state q).regA1).goto q .waitShell := by
  unfold executeSys
  by_cases hbad : badExecute asid (s.state q).regA1
  · exact .inl ⟨hbad, by simp only [if_pos hbad]⟩
  · simp only [if_neg hbad]
    cases hfree : s.supportFree with
    | nil => exact .inr (.inl ⟨hbad, rfl, rfl⟩)
    | cons u supportFree =>
      by_cases hfail : result = -1
      · exact .inr (.inr (.inl ⟨u, supportFree, hbad, rfl, hfail, by simp only [allocateSupport, if_pos hfail]; rfl⟩))
      · exact .inr (.inr (.inr ⟨u, supportFree, hbad, rfl, hfail, by simp only [allocateSupport, if_neg hfail]⟩))

end Cases

/-! ### What a step does -/

/-- Who takes a step. -/
def SysEvent.actor : SysEvent → Option Nat
  | .access q _ _ _ => some q
  | .trap q _ => some q
  | .go q _ => some q
  | .test => none

/-- The number of the access to its buffer that a terminal system call is about to make. -/
def Code.access (st : State) : Code → Option Nat
  | .user => none
  | .writing i => if (i : Int) < st.regA2.toInt then some i else none
  | .reading _ len _ => some len

namespace Sys

/-- Where the next step accesses memory on behalf of a U-proc. -/
def touched (s : Sys) : SysEvent → Option (Nat × Addr)
  | .access q va _ _ => some (q, va)
  | .go q _ =>
    match (s.proc q).place with
    | .code (.writing i) => some (q, bufferAddr q i s)
    | .code (.reading _ len _) => some (q, bufferAddr q len s)
    | _ => none
  | _ => none

/-- The number of the access to its buffer that `q` is about to make in a terminal system
call. -/
def access (s : Sys) (q : Nat) : Option Nat :=
  match (s.proc q).place with
  | .code k => k.access (s.state q)
  | _ => none

/-- The page table of `q` has no entry for `va`. -/
def outside (s : Sys) (q : Nat) (va : Addr) : Prop :=
  arrayIndex USERPGTBLSIZE (findPageIndex (accessHi (s.proc q).asid va)) = none

instance (s : Sys) (q : Nat) (va : Addr) : Decidable (s.outside q va) := inferInstanceAs (Decidable (_ = _))

/-- A terminal system call is about to access its buffer outside the page table. -/
def strays (s : Sys) (q : Nat) : Prop := ∃ i ∈ s.access q, s.outside q (bufferAddr q i s)

instance (s : Sys) (q : Nat) : Decidable (s.strays q) :=
  inferInstanceAs (Decidable (∃ i ∈ s.access q, s.outside q (bufferAddr q i s)))

/-- What `q` works for at `place` is what it has worked for, or its `sup_asid`. -/
def Inherits (s : Sys) (q : Nat) (place : Place) : Prop :=
  ∀ a, (s.proc q).place.asidOk a → s.vm.asid (s.proc q).sup = a → place.asidOk a

end Sys

/-- What each event can do to `s`. -/
inductive Effect (L : PoolLayout) (h : Handlers) (s : Sys) : SysEvent → Sys → Prop where
  | calm {e q place s'} (old : (s.proc q).place.calm = true) (new : place.calm = true)
      (inherits : s.Inherits q place) (quiet : Quiet q place s s') : Effect L h s e s'
  | refill {e q k va p} (slot : Fin TLBSIZE) (code : (s.proc q).place = .code k) (touched : s.touched e = some (q, va))
      (miss : TLBP (accessHi (s.proc q).asid va) s.vm = none)
      (index : arrayIndex USERPGTBLSIZE (findPageIndex (accessHi (s.proc q).asid va)) = some p) :
      Effect L h s e (s.setVm (s.vm.setTlb slot (s.vm.pte ((s.proc q).sup, p))))
  | lock {e q place s₁} (old : (s.proc q).place.calm = true) (pass : s.passeren .swapPoolSemaphore = some s₁)
      (locks : place.locks = true) (mapped : place.mapped = true) (attached : place.detached = none)
      (inherits : s.Inherits q place) : Effect L h s e (s₁.goto q place)
  | unlock {e q place} (old : (s.proc q).place.locks = true) (locks : place.locks = false)
      (pending : place.pending = true) (mapped : place.mapped = (s.proc q).place.mapped) (inherits : s.Inherits q place) :
      Effect L h s e ((s.verhogen .swapPoolSemaphore).goto q place)
  | pager {q k inp place r} (old : (s.proc q).place = .pager place k)
      (step : pagerStep L (s.proc q).sup inp.toAnswer place s.vm = some r) :
      Effect L h s (.go q inp) ((s.setVm r.2).goto q (.pager r.1 k))
  | free {q inp asid} (old : (s.proc q).place = .terminate .free asid) :
      Effect L h s (.go q inp) ((s.setVm (freeSwapFrames asid s.vm)).goto q (.terminate .unlock asid))
  | dealloc {q inp asid} (old : (s.proc q).place = .terminate .dealloc asid) :
      Effect L h s (.go q inp)
        ({s.setVm (s.vm.setAsid (s.proc q).sup 0) with
          supportFree := deallocateSupport (s.proc q).sup s.supportFree}.goto q (.terminate .signal asid))
  | signal {q inp asid} (old : (s.proc q).place = .terminate .signal asid) :
      Effect L h s (.go q inp)
        ((s.verhogen (if asid = SHELL_ASID then .masterSemaphore else .shellSemaphore)).goto q (.terminate .die asid))
  | die {q inp asid} (old : (s.proc q).place = .terminate .die asid) : Effect L h s (.go q inp) (termprocess q s)
  | create {q inp asid newAsid u supportFree} (old : (s.proc q).place = .executing asid)
      (arg : newAsid = (s.state q).regA1) (accepted : ¬ badExecute asid newAsid)
      (popped : allocateSupport s.supportFree = some (u, supportFree)) (created : inp.status ≠ -1) :
      Effect L h s (.go q inp)
        (({s.setVm (s.vm.initSupport h u newAsid) with supportFree := supportFree}.create u newAsid).goto q .waitShell)
  | wake {q inp s₁} (old : (s.proc q).place = .waitShell) (pass : s.passeren .shellSemaphore = some s₁) :
      Effect L h s (.go q inp) (s₁.ldst q)
  | await {s₁} (old : s.test = .waiting) (pass : s.passeren .masterSemaphore = some s₁) :
      Effect L h s .test {s₁ with test := .dying}
  | kill (old : s.test = .dying) :
      Effect L h s .test {s with proc := fun r => {s.proc r with place := .absent}, test := .gone}

section Inversion
variable {L : PoolLayout} {h : Handlers} {q : Nat} {s s' : Sys} {e : SysEvent} {inp : Input}

theorem goto_place (q : Nat) (place : Place) (s : Sys) : ((s.goto q place).proc q).place = place :=
  ((Quiet.refl q s).goto place).self

/-- A terminal system call at its loop has come to the end of its buffer, or makes its next
access, after which it neither faults nor traps. -/
theorem go_code {k : Code} (hk : (s.proc q).place = .code k) (hstep : sysStep L h (.go q inp) s = some s') :
    (k.access (s.state q) = none ∧ (s'.proc q).place = .writeDone) ∨
    ∃ i ∈ k.access (s.state q), ∃ done, touch q k (bufferAddr q i s) inp done s = some s' ∧
      ∀ lo, ((done lo).proc q).place ≠ .general ∧ ∀ k', ((done lo).proc q).place ≠ .fault k' := by
  simp only [sysStep, proceed, hk] at hstep
  cases k with
  | user => cases hstep
  | writing i =>
    simp only [writeChar] at hstep
    by_cases hi : (i : Int) < ((s.state q).regA2).toInt
    · rw [if_pos hi] at hstep
      exact .inr ⟨i, by simp [Code.access, hi], _, hstep, fun lo => by simp [goto_place]⟩
    · rw [if_neg hi] at hstep
      obtain rfl := Option.some.inj hstep
      exact .inl ⟨if_neg hi, goto_place ..⟩
  | reading asid len character =>
    simp only [readChar] at hstep
    refine .inr ⟨len, rfl, _, hstep, fun lo => ?_⟩
    split <;> simp [goto_place]

/-- What has trapped was a refill past the page table. -/
theorem go_traps {k : Code} (hk : (s.proc q).place = .code k) (hstep : sysStep L h (.go q inp) s = some s')
    (htraps : (s'.proc q).place = .general) : inp.busError = true ∧ s.strays q := by
  have hcode : (s.proc q).place ≠ .general := by simp [hk]
  obtain ⟨-, hdone⟩ | ⟨i, hi, done, htouch, hnot⟩ := go_code hk hstep
  · rw [hdone] at htraps
    cases htraps
  · obtain ⟨p, -, -, rfl⟩ | ⟨-, hindex, rfl⟩ | ⟨-, rfl⟩ | ⟨lo, -, rfl⟩ := touch_cases htouch
    · exact absurd htraps hcode
    · obtain ⟨herror, -⟩ | ⟨-, hs⟩ := strayRefill_cases q inp s
      · exact ⟨herror, i, by simpa only [Sys.access, hk] using hi, hindex⟩
      · rw [hs] at htraps
        exact absurd htraps hcode
    · rw [goto_place] at htraps
      cases htraps
    · exact absurd htraps (hnot lo).1

/-- What faults has found an invalid entry. -/
theorem go_faults {k k' : Code} (hk : (s.proc q).place = .code k) (hstep : sysStep L h (.go q inp) s = some s')
    (hfaults : (s'.proc q).place = .fault k') :
    ∃ i ∈ k.access (s.state q), lookup (accessHi (s.proc q).asid (bufferAddr q i s)) s.vm = .invalid := by
  have hcode : (s.proc q).place ≠ .fault k' := by simp [hk]
  obtain ⟨-, hdone⟩ | ⟨i, hi, done, htouch, hnot⟩ := go_code hk hstep
  · rw [hdone] at hfaults
    cases hfaults
  · obtain ⟨p, -, -, rfl⟩ | ⟨-, hindex, rfl⟩ | ⟨hinvalid, -⟩ | ⟨lo, -, rfl⟩ := touch_cases htouch
    · exact absurd hfaults hcode
    · obtain ⟨-, hs⟩ | ⟨-, hs⟩ := strayRefill_cases q inp s
      · rw [hs, goto_place] at hfaults
        cases hfaults
      · rw [hs] at hfaults
        exact absurd hfaults hcode
    · exact ⟨i, hi, hinvalid⟩
    · exact absurd hfaults ((hnot lo).2 k')

/-- An access to memory, when what follows a hit changes nothing else. -/
theorem touch_effect {k : Code} {va : Addr} {done : Word → Sys} (place : Word → Place)
    (hk : (s.proc q).place = .code k) (htouched : s.touched e = some (q, va))
    (hnew : ∀ lo, (place lo).calm = true) (hinherits : ∀ lo, s.Inherits q (place lo))
    (hdone : ∀ lo, Quiet q (place lo) s (done lo)) (hstep : touch q k va inp done s = some s') : Effect L h s e s' := by
  have hcalm : (s.proc q).place.calm = true := by
    rw [hk]
    rfl
  obtain ⟨p, hmiss, hp, rfl⟩ | ⟨-, -, rfl⟩ | ⟨-, rfl⟩ | ⟨lo, -, rfl⟩ := touch_cases hstep
  · exact .refill inp.slot hk htouched (lookup_eq_miss hmiss) hp
  · obtain ⟨-, hs⟩ | ⟨-, hs⟩ := strayRefill_cases q inp s
    · have hgeneral : s.Inherits q .general := fun _ _ _ => trivial
      rw [hs]
      exact .calm hcalm rfl hgeneral (((Quiet.refl q s).setState _ _).goto _)
    · rw [hs]
      exact .calm hcalm hcalm (fun _ ha _ => ha) (Quiet.refl q s)
  · have hfault : s.Inherits q (.fault k) := by
      intro a ha _
      rwa [hk] at ha
    exact .calm hcalm rfl hfault (((Quiet.refl q s).setState _ _).goto _)
  · exact .calm hcalm (hnew _) (hinherits _) (hdone _)

theorem writeChar_effect {i : Nat} (hk : (s.proc q).place = .code (.writing i))
    (hstep : writeChar L q i inp s = some s') : Effect L h s (.go q inp) s' := by
  have hcalm : (s.proc q).place.calm = true := by
    rw [hk]
    rfl
  unfold writeChar at hstep
  by_cases hi : (i : Int) < ((s.state q).regA2).toInt
  · rw [if_pos hi] at hstep
    have htouched : s.touched (.go q inp) = some (q, bufferAddr q i s) := by
      simp only [Sys.touched, hk]
    exact touch_effect (fun lo => .writeIo i ((loadByte L lo (bufferAddr q i s) s.vm <<< 8) ||| TRANSMITCHAR)) hk
      htouched (fun _ => rfl) (fun _ _ _ _ => trivial) (fun _ => (Quiet.refl q s).goto _) hstep
  · rw [if_neg hi] at hstep
    obtain rfl := Option.some.inj hstep
    have hdone : s.Inherits q .writeDone := fun _ _ _ => trivial
    exact .calm hcalm rfl hdone (((Quiet.refl q s).setA0 _).goto .writeDone)

/-- The byte is stored before the loop goes on. -/
theorem readChar_effect {asid : Word} {len : Nat} {character : Word}
    (hk : (s.proc q).place = .code (.reading asid len character))
    (hstep : readChar L q asid len character inp s = some s') : Effect L h s (.go q inp) s' := by
  have htouched : s.touched (.go q inp) = some (q, bufferAddr q len s) := by
    simp only [Sys.touched, hk]
  have hstored : ∀ lo, Quiet q (s.proc q).place s (s.setVm (storeByte L lo (bufferAddr q len s) character s.vm)) :=
    fun lo => (Quiet.refl q s).storeByte L lo _ _
  unfold readChar at hstep
  by_cases hend : character = 10
  · simp only [if_pos hend] at hstep
    have hdone : s.Inherits q .readDone := fun _ _ _ => trivial
    exact touch_effect (fun _ => .readDone) hk htouched (fun _ => rfl) (fun _ => hdone)
      (fun lo => ((hstored lo).setA0 _).goto _) hstep
  · simp only [if_neg hend] at hstep
    have hloop : s.Inherits q (.readLoop asid (len + 1)) := by
      intro a ha _
      rwa [hk] at ha
    exact touch_effect (fun _ => .readLoop asid (len + 1)) hk htouched (fun _ => rfl) (fun _ => hloop)
      (fun lo => (hstored lo).goto _) hstep

theorem handleException_effect (hk : (s.proc q).place = .general) : Effect L h s e (handleException q s) := by
  have hcalm : (s.proc q).place.calm = true := by
    rw [hk]
    rfl
  have hgoto : ∀ place : Place, place.calm = true → s.Inherits q place → Effect L h s e (s.goto q place) :=
    fun place hnew hinherits => .calm hcalm hnew hinherits ((Quiet.refl q s).goto place)
  obtain hs | ⟨-, -, hs⟩ | ⟨-, hs⟩ | ⟨-, hs⟩ := handleException_cases q s
  · rw [hs]
    exact hgoto _ rfl fun _ _ ha => ha
  · rw [hs]
    exact hgoto .writeLock rfl fun _ _ _ => trivial
  · rw [hs]
    exact hgoto (.readLock (s.vm.asid (s.proc q).sup)) rfl fun _ _ ha => ha
  · rw [hs]
    exact hgoto (.executing (s.vm.asid (s.proc q).sup)) rfl fun _ _ ha => ha

theorem enterPager_effect {k : Code} (hk : (s.proc q).place = .fault k) (hstep : enterPager q k s = some s') :
    Effect L h s e s' := by
  have hcalm : (s.proc q).place.calm = true := by
    rw [hk]
    rfl
  obtain rfl | ⟨s₁, hpass, rfl⟩ := enterPager_cases hstep
  · have hstop : s.Inherits q (.terminate .lock (s.vm.asid (s.proc q).sup)) := fun _ _ ha => ha
    exact .calm hcalm rfl hstop ((Quiet.refl q s).goto _)
  · have hlocked : s.Inherits q (.pager .locked k) := by
      intro a ha _
      rw [hk] at ha
      exact ⟨trivial, ha⟩
    exact .lock hcalm hpass rfl rfl rfl hlocked

theorem runPager_effect {k : Code} {place : PagerAt} (hk : (s.proc q).place = .pager place k)
    (hstep : runPager L q k inp.toAnswer s place = some s') : Effect L h s (.go q inp) s' := by
  have hlocks : (s.proc q).place.locks = true := by
    rw [hk]
    rfl
  have hmapped : (s.proc q).place.mapped = true := by
    rw [hk]
    rfl
  cases place with
  | published =>
    obtain rfl := Option.some.inj hstep
    have hcode : s.Inherits q (.code k) := by
      intro a ha _
      rw [hk] at ha
      exact ha.2
    exact .unlock hlocks rfl rfl hmapped.symm hcode
  | failed asid =>
    obtain rfl := Option.some.inj hstep
    have hstop : s.Inherits q (.terminate .lock asid) := by
      intro a ha _
      rw [hk] at ha
      exact ha.1
    exact .unlock hlocks rfl rfl hmapped.symm hstop
  | _ =>
    simp only [runPager] at hstep
    obtain ⟨r, hr, rfl⟩ := Option.map_eq_some_iff.mp hstep
    exact .pager hk hr

theorem terminateSys_effect {asid : Word} {step : TermAt} (hk : (s.proc q).place = .terminate step asid)
    (hstep : terminateSys q asid s step = some s') : Effect L h s (.go q inp) s' := by
  have hkeep : ∀ step', s.Inherits q (.terminate step' asid) := by
    intro step' a ha _
    rwa [hk] at ha
  cases step with
  | lock =>
    obtain ⟨s₁, hpass, rfl⟩ := Option.map_eq_some_iff.mp hstep
    have hcalm : (s.proc q).place.calm = true := by
      rw [hk]
      rfl
    exact .lock hcalm hpass rfl rfl rfl (hkeep .free)
  | free =>
    obtain rfl := Option.some.inj hstep
    exact .free hk
  | unlock =>
    obtain rfl := Option.some.inj hstep
    exact .unlock (by rw [hk]; rfl) rfl rfl (by rw [hk]; rfl) (hkeep .dealloc)
  | dealloc =>
    obtain rfl := Option.some.inj hstep
    exact .dealloc hk
  | signal =>
    obtain rfl := Option.some.inj hstep
    exact .signal hk
  | die =>
    obtain rfl := Option.some.inj hstep
    exact .die hk

theorem executeSys_effect {asid result : Word} (hk : (s.proc q).place = .executing asid) (hresult : inp.status = result) :
    Effect L h s (.go q inp) (executeSys h q asid result s) := by
  have hcalm : (s.proc q).place.calm = true := by
    rw [hk]
    rfl
  have huser : s.Inherits q (.code .user) := fun _ _ _ => trivial
  obtain ⟨-, hs⟩ | ⟨-, -, hs⟩ | ⟨u, supportFree, -, hfree, -, hs⟩ | ⟨u, supportFree, hgood, hfree, hok, hs⟩ :=
    executeSys_cases h q asid result s
  · have hstop : s.Inherits q (.terminate .lock asid) := by
      intro a ha _
      rwa [hk] at ha
    rw [hs]
    exact .calm hcalm rfl hstop ((Quiet.refl q s).goto _)
  · rw [hs]
    exact .calm hcalm rfl huser ((Quiet.refl q s).setA0 _).ldst
  · -- the structure is freed again, so only a free one has changed
    have hquiet : Quiet q (s.proc q).place s
        {s.setVm ((s.vm.initSupport h u (s.state q).regA1).setAsid u 0) with supportFree := u :: supportFree} := by
      have hsame : ∀ v, v ∉ s.supportFree →
          ((s.vm.initSupport h u (s.state q).regA1).setAsid u 0).supportPool v = s.vm.supportPool v := by
        intro v hv
        have hvu : v ≠ u := by
          rintro rfl
          exact hv (by simp [hfree])
        simp [Vm.initSupport, Vm.setAsid, hvu]
      refine ⟨⟨(Quiet.refl q s).proc, rfl, rfl⟩, rfl, rfl, ⟨fun k hk => ?_, fun v hv => ?_⟩, hfree.symm, fun _ _ _ => rfl⟩
      · exact congrArg (fun sup => sup.supPrivatePgTbl k.2) (hsame k.1 hk)
      · exact congrArg Support.supAsid (hsame v hv)
    rw [hs]
    exact .calm hcalm rfl huser (hquiet.setA0 _).ldst
  · rw [hs]
    exact .create hk rfl hgood (by rw [hfree]; rfl) (by rwa [hresult])

theorem proceed_effect (hstep : proceed L h q inp s = some s') : Effect L h s (.go q inp) s' := by
  have hcalm : ∀ {old place s'}, (s.proc q).place = old → Quiet q place s s' → old.calm = true →
      place.calm = true → (∀ a, old.asidOk a → place.asidOk a) → Effect L h s (.go q inp) s' := by
    intro old place s' hold hquiet hc hnew hok
    have hinherits : s.Inherits q place := by
      intro a ha _
      rw [hold] at ha
      exact hok a ha
    exact .calm (by rw [hold]; exact hc) hnew hinherits hquiet
  have hrefl := Quiet.refl q s
  unfold proceed at hstep
  cases hplace : (s.proc q).place with
  | absent => simp [hplace] at hstep
  | code k =>
    cases k with
    | user => simp [hplace] at hstep
    | writing i => exact writeChar_effect hplace (by simpa only [hplace] using hstep)
    | reading asid len character => exact readChar_effect hplace (by simpa only [hplace] using hstep)
  | fault k => exact enterPager_effect hplace (by simpa only [hplace] using hstep)
  | pager place k => exact runPager_effect hplace (by simpa only [hplace] using hstep)
  | general =>
    simp only [hplace] at hstep
    obtain rfl := Option.some.inj hstep
    exact handleException_effect hplace
  | writeLock =>
    simp only [hplace] at hstep
    obtain ⟨s₁, hpass, rfl⟩ := Option.map_eq_some_iff.mp hstep
    exact hcalm hplace ((hrefl.passeren (.inl rfl) hpass).goto (.code (.writing 0))) rfl rfl fun _ _ => trivial
  | writeIo i command =>
    simp only [hplace] at hstep
    obtain rfl := Option.some.inj hstep
    unfold writeStatus
    split
    · exact hcalm hplace ((hrefl.setA0 _).goto .writeDone) rfl rfl fun _ _ => trivial
    · exact hcalm hplace (hrefl.goto (.code (.writing (i + 1)))) rfl rfl fun _ _ => trivial
  | writeDone =>
    simp only [hplace] at hstep
    obtain rfl := Option.some.inj hstep
    exact hcalm hplace ((hrefl.verhogen (.inl rfl)).ldst) rfl rfl fun _ _ => trivial
  | readLock asid =>
    simp only [hplace] at hstep
    obtain ⟨s₁, hpass, rfl⟩ := Option.map_eq_some_iff.mp hstep
    exact hcalm hplace ((hrefl.passeren (.inr rfl) hpass).goto (.readLoop asid 0)) rfl rfl fun _ ha => ha
  | readLoop asid len =>
    simp only [hplace] at hstep
    obtain rfl := Option.some.inj hstep
    unfold readLoop
    split
    · exact hcalm hplace (hrefl.goto (.readAbort asid)) rfl rfl fun _ ha => ha
    · exact hcalm hplace (hrefl.goto (.readIo asid len)) rfl rfl fun _ ha => ha
  | readIo asid len =>
    simp only [hplace] at hstep
    obtain rfl := Option.some.inj hstep
    unfold readStatus
    split
    · exact hcalm hplace ((hrefl.setA0 _).goto .readDone) rfl rfl fun _ _ => trivial
    · exact hcalm hplace (hrefl.goto (.code (.reading asid len ((inp.status >>> 8) &&& 0xff)))) rfl rfl fun _ ha => ha
  | readDone =>
    simp only [hplace] at hstep
    obtain rfl := Option.some.inj hstep
    exact hcalm hplace ((hrefl.verhogen (.inr rfl)).ldst) rfl rfl fun _ _ => trivial
  | readAbort asid =>
    simp only [hplace] at hstep
    obtain rfl := Option.some.inj hstep
    exact hcalm hplace ((hrefl.verhogen (.inr rfl)).goto (.terminate .lock asid)) rfl rfl fun _ ha => ha
  | executing asid =>
    simp only [hplace] at hstep
    obtain rfl := Option.some.inj hstep
    exact executeSys_effect hplace rfl
  | waitShell =>
    simp only [hplace] at hstep
    obtain ⟨s₁, hpass, rfl⟩ := Option.map_eq_some_iff.mp hstep
    exact .wake hplace hpass
  | terminate step asid => exact terminateSys_effect hplace (by simpa only [hplace] using hstep)

/-- Everything that a step of the support level can do. -/
theorem sysStep_effect (hstep : sysStep L h e s = some s') : Effect L h s e s' := by
  cases e with
  | access q va value inp =>
    simp only [sysStep] at hstep
    split at hstep
    · rename_i hk
      have huser : s.Inherits q (.code .user) := fun _ _ _ => trivial
      have hrefl : Quiet q (.code .user) s s := by
        have := Quiet.refl q s
        rwa [hk] at this
      refine touch_effect (fun _ => .code .user) hk rfl (fun _ => rfl) (fun _ => huser) (fun lo => ?_) hstep
      cases value with
      | none => exact hrefl
      | some v => exact hrefl.storeWord L lo _ v
    · cases hstep
  | trap q st =>
    simp only [sysStep] at hstep
    split at hstep
    · rename_i hk
      obtain rfl := Option.some.inj hstep
      have hgeneral : s.Inherits q .general := fun _ _ _ => trivial
      exact .calm (by rw [hk.1]; rfl) rfl hgeneral (((Quiet.refl q s).setState _ _).goto .general)
    · cases hstep
  | go q inp => exact proceed_effect hstep
  | test =>
    simp only [sysStep] at hstep
    cases htest : s.test with
    | waiting =>
      simp only [htest] at hstep
      obtain ⟨s₁, hpass, rfl⟩ := Option.map_eq_some_iff.mp hstep
      exact .await htest hpass
    | dying =>
      simp only [htest] at hstep
      obtain rfl := Option.some.inj hstep
      exact .kill htest
    | gone => simp [htest] at hstep

end Inversion

/-! ### A small system -/

namespace SysSample

def layout : PoolLayout := ⟨0x20040, by decide⟩

def handlers : Handlers := ⟨0x20005000, 0x20006000, 0x20007000, 0x20008000⟩

/-- Empty flash devices, and memory as the loader leaves it. -/
def vm : Vm :=
  { swapPool := fun _ => Swap.free
    frameIndex := 0
    swapFrames := fun _ _ => 0
    supportPool := fun _ => ⟨0, fun _ => State.zero, fun _ => ⟨0, 0, 0⟩, fun _ => ⟨0, 0⟩⟩
    flash := fun _ _ _ => 0
    tlb := fun _ => ⟨0, 0⟩ }

def start : Sys := (Sys.start handlers vm).get rfl

theorem start_eq : Sys.start handlers vm = some start := (Option.some_get _).symm

/-- The machine answers `status`, and TLBWR picks the entry `slot`. -/
def answer (status : Word) (slot : Nat) : Input :=
  {status := status, garbage := fun _ => 0, slot := Fin.ofNat 16 slot, saved := State.zero, busError := false}

/-- `q` goes on `n` times, and the devices do what they are asked. -/
def goes (q n : Nat) (slot : Nat) : List SysEvent := List.replicate n (.go q (answer 1 slot))

/-- `q` faults on its page `n`, which comes in without a victim. -/
def pageIn (q n : Nat) : List SysEvent :=
  let va : Addr := KUSEG + BitVec.ofNat 32 (4096 * n)
  [.access q va none (answer 1 n), .access q va none (answer 1 n)] ++ goes q 7 n

/-- `q` calls the support level, up to the function that serves it. -/
def call (q : Nat) (a0 a1 : Word) : List SysEvent :=
  let gpr : Fin 32 → Word := fun r => if r.val = 10 then a0 else if r.val = 11 then a1 else 0
  .trap q {State.zero with cause := SYSEXCEPTION, gpr := gpr} :: goes q 1 0

/-- The shell launches program 2, which reads its first page and terminates. -/
def program : List SysEvent := call 0 6 2 ++ goes 0 1 0 ++ pageIn 1 0 ++ call 1 2 0 ++ goes 1 6 0 ++ goes 0 1 0

end SysSample

end MultiPandOS
