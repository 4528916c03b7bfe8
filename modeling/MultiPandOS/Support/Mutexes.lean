import MultiPandOS.Library.Mutex
import MultiPandOS.Support.Handshake

/-! The mutexes of the support level.

`Sem.held` says where a U-proc is between its P on `swapPoolSemaphore`,
`terminalWriteSem` or `terminalReadSem` and the matching V. Nobody gets there without a
P, in any run (`run_guarded`). But the pager knows nothing of the mutex that a terminal
system call holds around it: when a page of the buffer cannot be brought in, the U-proc
terminates with the terminal locked (`mutex_dies`). Where that does not happen, no
mutex dies with its holder (`run_attended`). -/
namespace MultiPandOS
open Runs
open Semaphore (Guarded Attended Event holders)

/-- The semaphores that start at 1. -/
def Sem.mutex : Sem → Bool
  | .swapPoolSemaphore => true
  | .terminalWriteSem => true
  | .terminalReadSem => true
  | _ => false

/-- The mutex of the system call that a page fault interrupts. -/
def Code.outer : Code → Option Sem
  | .user => none
  | .writing _ => some .terminalWriteSem
  | .reading _ _ _ => some .terminalReadSem

/-- The U-proc is between its P on `x` and the matching V. -/
def Sem.held (x : Sem) : Place → Bool
  | .code k => decide (k.outer = some x)
  | .fault k => decide (k.outer = some x)
  | .pager _ k => decide (x = .swapPoolSemaphore) || decide (k.outer = some x)
  | .writeIo _ _ => decide (x = .terminalWriteSem)
  | .writeDone => decide (x = .terminalWriteSem)
  | .readLoop _ _ => decide (x = .terminalReadSem)
  | .readIo _ _ => decide (x = .terminalReadSem)
  | .readDone => decide (x = .terminalReadSem)
  | .readAbort _ => decide (x = .terminalReadSem)
  | .terminate .free _ => decide (x = .swapPoolSemaphore)
  | .terminate .unlock _ => decide (x = .swapPoolSemaphore)
  | _ => false

/-- Who is between the P and the V. -/
def Sys.holds (s : Sys) (x : Sem) (q : Nat) : Bool := x.held (s.proc q).place

/-- The pager gives up, or the refill handler traps, and the system call is left that it
interrupts. -/
inductive Abandons : Place → Place → Prop where
  | failed {a k place} : k ≠ .user → Abandons (.pager (.failed a) k) place
  | modified {k a} : k ≠ .user → Abandons (.fault k) (.terminate .lock a)
  | stray {k} : k ≠ .user → Abandons (.code k) .general

/-! ### Ways -/

/-- What a way does with a mutex. -/
inductive Uses (x : Sem) (d : Doing) (place place' : Place) : Prop where
  | took (p : d = .passeren x) (old : x.held place = false) (new : x.held place' = true)
  | gave (v : d = .verhogen x) (old : x.held place = true) (new : x.held place' = false)
  | kept (sem : ∀ sem, d.apply sem x = sem x) (new : x.held place' = true → x.held place = true)
      (old : x.held place = true → x.held place' = true ∨ Abandons place place')

section Ways
variable {loads : Addr → Word → Prop} {asid : Word} {st st' : State} {place place' : Place} {d : Doing} {x : Sem}

theorem Code.outer_swapPool (k : Code) : k.outer ≠ some .swapPoolSemaphore := by
  cases k <;> simp [Code.outer]

theorem Doing.apply_other {x y : Sem} (h : x ≠ y) (sem : Sem → Int) :
    (Doing.passeren y).apply sem x = sem x ∧ (Doing.verhogen y).apply sem x = sem x :=
  ⟨Function.update_of_ne h _ _, Function.update_of_ne h _ _⟩

theorem held_user (x : Sem) {k : Code} (h : decide (k.outer = some x) = true) : k ≠ .user := by
  rintro rfl
  simp [Code.outer] at h

/-- Outside the pager, `k` does not hold `swapPoolSemaphore`. -/
theorem held_pager {p : PagerAt} {k : Code} (hx : x ≠ .swapPoolSemaphore) :
    x.held (.pager p k) = decide (k.outer = some x) := by
  simp [Sem.held, hx]

theorem Uses.nothing (h : x.held place' = x.held place) : Uses x .nothing place place' :=
  .kept (fun _ => rfl) (fun hp => h ▸ hp) fun hp => .inl (h ▸ hp)

theorem Uses.passeren {y : Sem} (hold : x.held place = false) (hnew : x.held place' = decide (x = y)) :
    Uses x (.passeren y) place place' := by
  by_cases hxy : x = y
  · exact .took (by rw [hxy]) hold (hnew.trans (decide_eq_true hxy))
  · rw [decide_eq_false hxy] at hnew
    exact .kept (fun sem => (Doing.apply_other hxy sem).1) (by simp [hnew]) (by simp [hold])

theorem Uses.verhogen {y : Sem} (hold : x.held place = decide (x = y)) (hnew : x.held place' = false) :
    Uses x (.verhogen y) place place' := by
  by_cases hxy : x = y
  · exact .gave (by rw [hxy]) (hold.trans (decide_eq_true hxy)) hnew
  · rw [decide_eq_false hxy] at hold
    exact .kept (fun sem => (Doing.apply_other hxy sem).2) (by simp [hnew]) (by simp [hold])

theorem Flow.mutex (h : Flow loads asid st place d st' place') (hx : x.mutex = true) : Uses x d place place' := by
  cases h with
  | stay => exact .kept (fun _ => rfl) id fun h => .inl h
  | fault => exact .kept (fun _ => rfl) id fun h => .inl h
  | work => exact .kept (fun _ => rfl) id fun h => .inl h
  | modified => exact .kept (fun _ => rfl) (fun h => by cases h) fun h => .inr (.modified (held_user x h))
  | stray => exact .kept (fun _ => rfl) (fun h => by cases h) fun h => .inr (.stray (held_user x h))
  | @enter k =>
    by_cases hs : x = .swapPoolSemaphore
    · subst hs
      exact .took rfl (decide_eq_false k.outer_swapPool) (by simp [Sem.held])
    · refine .kept (fun sem => (Doing.apply_other hs sem).1) (fun h => ?_) fun h => .inl ?_
      · rwa [held_pager hs] at h
      · rwa [held_pager hs]
  | @resume k =>
    by_cases hs : x = .swapPoolSemaphore
    · subst hs
      exact .gave rfl (by simp [Sem.held]) (decide_eq_false k.outer_swapPool)
    · refine .kept (fun sem => (Doing.apply_other hs sem).2) (fun h => ?_) fun h => .inl ?_
      · rwa [held_pager hs]
      · rwa [held_pager hs] at h
  | fail =>
    by_cases hs : x = .swapPoolSemaphore
    · subst hs
      exact .gave rfl (by simp [Sem.held]) rfl
    · refine .kept (fun sem => (Doing.apply_other hs sem).2) (fun h => by cases h) fun h => .inr (.failed ?_)
      rw [held_pager hs] at h
      exact held_user x h
  | @signal a =>
    refine .verhogen ?_ rfl
    by_cases ha : a = SHELL_ASID
    · cases x <;> simp_all [Sem.held, Sem.mutex]
    · cases x <;> simp_all [Sem.held, Sem.mutex]
  | wake =>
    refine .passeren rfl ?_
    cases x <;> simp_all [Sem.held, Sem.mutex, Code.outer]
  | writeEnter => exact .passeren rfl (by simp [Sem.held, Code.outer, eq_comm])
  | readEnter => exact .passeren rfl rfl
  | lock => exact .passeren rfl rfl
  | writeLeave => exact .verhogen rfl rfl
  | readLeave => exact .verhogen rfl rfl
  | abort => exact .verhogen rfl rfl
  | unlock => exact .verhogen rfl rfl
  | _ => exact .nothing (by simp [Sem.held, Code.outer, eq_comm])

end Ways

/-! ### Steps -/

/-- The P and V operations on `x` that are completed in a step. -/
def Sys.uses (x : Sem) (s : Sys) (e : SysEvent) (s' : Sys) : List (Event Nat) :=
  match e.actor with
  | none => []
  | some q =>
    if s'.sem x = s.sem x - 1 then [.acquire q] else if s'.sem x = s.sem x + 1 then [.signal q none] else []

/-- What a step does with a mutex. -/
inductive Used (x : Sem) (s : Sys) (e : SysEvent) (s' : Sys) : Prop where
  | took {q} (actor : e.actor = some q) (pos : 0 < s.sem x) (sem : s'.sem x = s.sem x - 1) (new : s'.holds x q = true)
      (le : ∀ r, s'.holds x r = true → r = q ∨ s.holds x r = true)
  | gave {q} (actor : e.actor = some q) (sem : s'.sem x = s.sem x + 1) (old : s.holds x q = true)
      (le : ∀ r, s'.holds x r = true → r ≠ q ∧ s.holds x r = true)
  | kept (sem : s'.sem x = s.sem x) (le : ∀ r, s'.holds x r = true → s.holds x r = true)
      (stay : ∀ r, s.holds x r = true → s'.holds x r = true ∨
        e.actor = some r ∧ Abandons (s.proc r).place (s'.proc r).place)

section Steps
variable {L : PoolLayout} {hd : Handlers} {x : Sem} {q : Nat} {place : Place} {s s' : Sys} {e : SysEvent}

theorem held_pending (h : x.held place = true) : place.pending = true ∧ place ≠ .waitShell := by
  refine ⟨?_, fun he => ?_⟩
  · cases place with
    | terminate step a => cases step <;> first | rfl | cases h
    | _ => first | rfl | cases h
  · rw [he] at h
    cases h

theorem unheld (x : Sem) (h : place.pending = false) : x.held place = false := by
  refine Bool.eq_false_iff.mpr fun hx => ?_
  rw [(held_pending hx).1] at h
  cases h

theorem Moved.holds_self (h : Moved q place s s') (x : Sem) : s'.holds x q = x.held place := by
  unfold Sys.holds
  rw [h.self]

theorem Moved.holds_other (h : Moved q place s s') (x : Sem) {r : Nat} (hr : r ≠ q) : s'.holds x r = s.holds x r := by
  unfold Sys.holds
  rw [h.other hr]

theorem Used.flow {d : Doing} {st : State} (actor : e.actor = some q) (huses : Uses x d (s.proc q).place place)
    (allowed : d.Allowed s.sem) (goes : Goes q d st place s s') : Used x s e s' := by
  have hm := goes.toMoved
  have hself := hm.holds_self x
  cases huses with
  | took p old new =>
    subst p
    have hsem : s'.sem x = s.sem x - 1 := by
      rw [goes.sem]
      exact Function.update_self ..
    refine .took actor allowed hsem (hself.trans new) fun r hr => ?_
    by_cases hrq : r = q
    · exact .inl hrq
    · exact .inr (hm.holds_other x hrq ▸ hr)
  | gave v old new =>
    subst v
    have hsem : s'.sem x = s.sem x + 1 := by
      rw [goes.sem]
      exact Function.update_self ..
    refine .gave actor hsem old fun r hr => ?_
    have hrq : r ≠ q := by
      rintro rfl
      rw [hself, new] at hr
      cases hr
    exact ⟨hrq, hm.holds_other x hrq ▸ hr⟩
  | kept sem new old =>
    refine .kept (by rw [goes.sem, sem]) (fun r hr => ?_) fun r hr => ?_
    · by_cases hrq : r = q
      · subst hrq
        rw [hself] at hr
        exact new hr
      · exact hm.holds_other x hrq ▸ hr
    · by_cases hrq : r = q
      · subst hrq
        rw [hself, hm.self]
        exact (old hr).imp_right fun ha => ⟨actor, ha⟩
      · exact .inl (by rw [hm.holds_other x hrq]; exact hr)

/-- Nobody is stopped at once who is in a critical section. -/
theorem Used.stopped (habsent : ∀ r, (s'.proc r).place = .absent) (hsem : s'.sem x = s.sem x)
    (hnone : ∀ r, s.holds x r = false) : Used x s e s' := by
  refine .kept hsem (fun r hr => ?_) fun r hr => ?_
  · unfold Sys.holds at hr
    rw [habsent] at hr
    cases hr
  · rw [hnone r] at hr
    cases hr

theorem Orderly.used (h : Orderly s) (hx : x.mutex = true) (hstep : Stepped L hd s e s') : Used x s e s' := by
  cases hstep with
  | flow actor flow allowed goes => exact .flow actor (flow.mutex hx) allowed goes
  | @die q inp asid old =>
    by_cases hq : q = shellNo
    · subst hq
      exact .stopped (termprocess_shell s) rfl fun r => unheld x (h.handshake.nobody old r)
    · have hm := termprocess_moved (s := s) hq
      refine .kept (by simp) (fun r hr => ?_) fun r hr => ?_
      · by_cases hrq : r = q
        · rw [hrq, hm.holds_self] at hr
          cases hr
        · rwa [hm.holds_other x hrq] at hr
      · by_cases hrq : r = q
        · unfold Sys.holds at hr
          rw [hrq, old] at hr
          cases hr
        · exact .inl (by rw [hm.holds_other x hrq]; exact hr)
  | @create q inp asid newAsid u supportFree old arg accepted popped created =>
    have hfresh : s.holds x s.next = false := by
      unfold Sys.holds
      rw [h.owners.fresh s.next (Nat.le_refl _)]
      rfl
    generalize hs' : ({s.setVm (s.vm.initSupport hd u newAsid) with supportFree := supportFree}.create u newAsid).goto q
      .waitShell = s'
    have hc : Created q u newAsid s s' := hs' ▸ h.owners.created old _ u supportFree newAsid
    have hsame : ∀ r, s'.holds x r = s.holds x r := by
      intro r
      by_cases hrn : r = s.next
      · rw [hrn, hfresh]
        unfold Sys.holds
        rw [hc.program]
        simp [Sem.held, Code.outer]
      · exact hc.attr x.held (by rw [old]; rfl) hrn
    have hsem : s'.sem x = s.sem x := by
      subst hs'
      rfl
    exact .kept hsem (fun r hr => hsame r ▸ hr) fun r hr => .inl (by rw [hsame]; exact hr)
  | await old pass =>
    obtain ⟨-, rfl⟩ := passeren_eq_some pass
    have hne : x ≠ .masterSemaphore := by
      rintro rfl
      cases hx
    exact .kept (Function.update_of_ne hne _ _) (fun _ hr => hr) fun _ hr => .inl hr
  | kill old =>
    refine .stopped (fun _ => rfl) rfl fun r => Bool.eq_false_iff.mpr fun hr => ?_
    obtain ⟨hpending, hawake⟩ := held_pending hr
    exact h.handshake.running hpending hawake (.inr (by simp [old]))

theorem Used.guarded (hu : Used x s e s') (h : Guarded (s.sem x) (s.holds x)) : Guarded (s'.sem x) (s'.holds x) := by
  cases hu with
  | took actor pos sem new le =>
    rw [sem]
    exact h.acquire pos le
  | gave actor sem old le =>
    rw [sem]
    exact h.release old le
  | kept sem le stay =>
    rw [sem]
    exact h.mono le

/-- A step that nobody abandons a system call in. -/
theorem Used.attended {tr : List (Event Nat)} (hu : Used x s e s')
    (hspares : ∀ q, e.actor = some q → ¬ Abandons (s.proc q).place (s'.proc q).place)
    (h : Attended (s.sem x) (s.holds x) tr) : Attended (s'.sem x) (s'.holds x) (tr ++ s.uses x e s') := by
  cases hu with
  | @took q actor pos sem new le =>
    have huses : s.uses x e s' = [.acquire q] := by simp [Sys.uses, actor, sem]
    rw [huses, sem]
    exact h.acquire pos le new
  | @gave q actor sem old le =>
    have huses : s.uses x e s' = [.signal q none] := by
      simp only [Sys.uses, actor, sem]
      rw [if_neg (by omega)]
      simp
    rw [huses, sem]
    exact h.release old le
  | kept sem le stay =>
    have huses : s.uses x e s' = [] := by
      unfold Sys.uses
      split
      · rfl
      · rw [sem, if_neg (by omega), if_neg (by omega)]
    rw [huses, sem, List.append_nil]
    exact h.keep le fun r hr => (stay r hr).resolve_right fun ⟨hactor, ha⟩ => hspares r hactor ha

end Steps

/-! ### Runs -/

/-- What `q` gives up with its next step: its pager does after an error of the flash device
or when it finds a TLB modification, and the refill handler when it reads past the page
table and past the end of memory. -/
def Sys.givesUp (s : Sys) (q : Nat) (inp : Input) : Option Code :=
  match (s.proc q).place with
  | .pager (.failed _) k => some k
  | .fault k =>
    if ((s.vm.supportPool (s.proc q).sup).supExceptState PGFAULTEXCEPT).cause &&& GETEXECCODE = TLBINVLDMOD then some k
    else none
  | .code k => if inp.busError = true ∧ s.strays q then some k else none
  | _ => none

/-- Nobody gives up in the middle of a terminal system call. -/
def Spares (s : Sys) : SysEvent → Prop
  | .go q inp => ∀ k ∈ s.givesUp q inp, k = .user
  | _ => True

instance decidableSpares (s : Sys) : (e : SysEvent) → Decidable (Spares s e)
  | .go q inp => inferInstanceAs (Decidable (∀ k ∈ s.givesUp q inp, k = .user))
  | .access .. => isTrue trivial
  | .trap .. => isTrue trivial
  | .test => isTrue trivial

/-- Whenever a mutex is 0, the U-proc that last completed the P on it without the
matching V is live, in the state `s` that `es` leads to. -/
def Manned (L : PoolLayout) (hd : Handlers) (s₀ : Sys) (es : List SysEvent) (s : Sys) : Prop :=
  ∀ x : Sem, x.mutex = true → s.sem x = 0 →
    ∃ q, (holders (trace (sysStep L hd) (Sys.uses x) s₀ es)).head? = some q ∧ (s.proc q).place ≠ .absent

section Runs
variable {L : PoolLayout} {hd : Handlers} {vm : Vm} {x : Sem} {q : Nat} {s₀ s s' : Sys} {e : SysEvent} {es : List SysEvent}

theorem Spares.not_abandons (h : Spares s e) (hstep : sysStep L hd e s = some s') (hactor : e.actor = some q) :
    ¬ Abandons (s.proc q).place (s'.proc q).place := by
  intro ha
  have hcode : (s.proc q).place ≠ .code .user := by
    intro hplace
    generalize (s'.proc q).place = place' at ha
    rw [hplace] at ha
    cases ha with
    | stray hk => exact hk rfl
  cases e with
  | access r va value inp =>
    obtain rfl : r = q := Option.some.inj hactor
    rw [sysStep, if_neg hcode] at hstep
    cases hstep
  | trap r st =>
    obtain rfl : r = q := Option.some.inj hactor
    rw [sysStep, if_neg (fun hk => hcode hk.1)] at hstep
    cases hstep
  | test => cases hactor
  | go r inp =>
    obtain rfl : r = q := Option.some.inj hactor
    generalize hnew : (s'.proc r).place = place' at ha
    generalize hold : (s.proc r).place = place at ha
    cases ha with
    | failed hk => exact hk (h _ (by simp [Sys.givesUp, hold]))
    | @stray k hk =>
      have htraps := go_traps hold hstep hnew
      exact hk (h k (by simp [Sys.givesUp, hold, htraps]))
    | @modified k a hk =>
      have hcause : ¬ ((s.vm.supportPool (s.proc r).sup).supExceptState PGFAULTEXCEPT).cause &&& GETEXECCODE =
          TLBINVLDMOD := fun hcause => hk (h k (by simp [Sys.givesUp, hold, hcause]))
      have henter : enterPager r k s = some s' := by
        simpa only [sysStep, proceed, hold] using hstep
      simp only [enterPager, if_neg hcause] at henter
      obtain ⟨s₁, hpass, rfl⟩ := Option.map_eq_some_iff.mp henter
      simp [Sys.goto] at hnew

theorem start_mutex (hstart : Sys.start hd vm = some s) (hx : x.mutex = true) : s.sem x = 1 := by
  obtain ⟨⟨u, supportFree⟩, -, rfl⟩ := Option.map_eq_some_iff.mp hstart
  cases x with
  | masterSemaphore => cases hx
  | shellSemaphore => cases hx
  | _ => rfl

theorem start_holds (hstart : Sys.start hd vm = some s) (q : Nat) : s.holds x q = false := by
  obtain ⟨u, hu⟩ := start_started hstart
  refine Bool.eq_false_iff.mpr fun hq => ?_
  have hqs := hu.attr x.held rfl hq
  unfold Sys.holds at hq
  rw [hqs, hu.shell] at hq
  simp [Sem.held, Code.outer] at hq

theorem start_attended (hstart : Sys.start hd vm = some s) (hx : x.mutex = true) :
    Attended (s.sem x) (s.holds x) [] := by
  have hone := start_mutex hstart hx
  have hnone : ∀ q, s.holds x q = true → False := by
    intro q hq
    rw [start_holds hstart q] at hq
    cases hq
  refine ⟨⟨.inr hone, fun q hq => (hnone q hq).elim, fun q _ hq => (hnone q hq).elim⟩, .inl rfl, fun _ => rfl,
    fun hzero => ?_⟩
  rw [hone] at hzero
  cases hzero

/-- One U-proc at a time is between the P and the V of a mutex. -/
theorem run_guarded (hstart : Sys.start hd vm = some s₀) (hrun : Run (sysStep L hd) (fun _ _ => True) s₀ es s)
    (hx : x.mutex = true) : Guarded (s.sem x) (s.holds x) := by
  induction hrun with
  | nil => exact (start_attended hstart hx).toGuarded
  | snoc hrun _ hstep ih => exact ((run_orderly hstart hrun).used hx (sysStep_stepped hstep)).guarded ih

/-- The one whose P on a mutex was the last to complete, without the V, is still
between the two. -/
theorem run_attended (hstart : Sys.start hd vm = some s₀) (hrun : Run (sysStep L hd) Spares s₀ es s)
    (hx : x.mutex = true) : Attended (s.sem x) (s.holds x) (trace (sysStep L hd) (Sys.uses x) s₀ es) := by
  induction hrun with
  | nil => exact start_attended hstart hx
  | snoc hrun hspares hstep ih =>
    have horder := run_orderly hstart (hrun.mono fun _ _ _ => trivial)
    rw [hrun.trace_snoc hstep]
    exact (horder.used hx (sysStep_stepped hstep)).attended (fun q => hspares.not_abandons hstep) ih

/-- **No mutex dies with its holder**, in every run in which the pager does not give up
in the middle of a terminal system call. -/
theorem run_manned {L : PoolLayout} {hd : Handlers} {vm : Vm} {s₀ s : Sys} {es : List SysEvent}
    (hstart : Sys.start hd vm = some s₀) (hrun : Run (sysStep L hd) Spares s₀ es s) : Manned L hd s₀ es s := by
  intro x hx hzero
  obtain ⟨q, hlast, hq⟩ := (run_attended hstart hrun hx).holder hzero
  exact ⟨q, hlast, Place.pending_present (held_pending hq).1⟩

end Runs

namespace SysSample

/-- `q` calls WRITETERMINAL with a buffer of `len` bytes on its first page. -/
def write (q : Nat) (len : Word) : List SysEvent :=
  let gpr : Fin 32 → Word := fun r =>
    if r.val = 10 then 4 else if r.val = 11 then KUSEG else if r.val = 12 then len else 0
  .trap q {State.zero with cause := SYSEXCEPTION, gpr := gpr} :: goes q 1 0

/-- The shell sends the first of two characters. -/
def sending : List SysEvent := write 0 2 ++ goes 0 11 0

/-- The shell launches program 2, which wants to write a character; the flash device
fails to read the page that it is on, and the program terminates. -/
def unreadable : List SysEvent :=
  call 0 6 2 ++ goes 0 1 0 ++ write 1 1 ++ goes 1 6 0 ++ [.go 1 (answer 5 0)] ++ goes 1 8 0 ++ goes 0 1 0

end SysSample

open SysSample in
theorem run_manned_sample :
    ∃ s, exec (sysStep layout handlers) sending start = some s ∧ s.sem .terminalWriteSem = 0 ∧
      Manned layout handlers start sending s := by
  have hfollows : Follows (sysStep layout handlers) Spares sending start := by
    decide +kernel
  obtain ⟨s, hexec, hrun⟩ := hfollows.run
  have hlocked : (exec (sysStep layout handlers) sending start).all (fun s =>
      s.sem .terminalWriteSem = 0 ∧ (s.proc 0).place = .writeIo 0 2) = true := by
    decide +kernel
  rw [hexec] at hlocked
  exact ⟨s, hexec, (of_decide_eq_true hlocked).1, run_manned start_eq hrun⟩

open SysSample in
/-- A program that cannot read its buffer terminates with the terminal locked, and the
shell goes on without it. -/
theorem mutex_dies :
    Sys.start handlers vm = some start ∧
      ∃ s, Run (sysStep layout handlers) (fun _ _ => True) start unreadable s ∧
        s.sem .terminalWriteSem = 0 ∧ (s.proc 1).place = .absent ∧ (s.proc shellNo).place = .code .user ∧
        ¬ Manned layout handlers start unreadable s := by
  have hfollows : Follows (sysStep layout handlers) (fun _ _ => True) unreadable start := by
    decide +kernel
  obtain ⟨s, hexec, hrun⟩ := hfollows.run
  have hdead : (exec (sysStep layout handlers) unreadable start).all (fun s =>
      s.sem .terminalWriteSem = 0 ∧ (s.proc 1).place = .absent ∧ (s.proc shellNo).place = .code .user) = true := by
    decide +kernel
  have hlast : (holders (trace (sysStep layout handlers) (Sys.uses .terminalWriteSem) start unreadable)).head? = some 1 := by
    decide +kernel
  rw [hexec] at hdead
  obtain ⟨hzero, habsent, hshell⟩ := of_decide_eq_true hdead
  refine ⟨start_eq, s, hrun, hzero, habsent, hshell, fun hmanned => ?_⟩
  obtain ⟨q, hq, hlive⟩ := hmanned .terminalWriteSem rfl hzero
  obtain rfl : 1 = q := Option.some.inj (hlast.symm.trans hq)
  exact hlive habsent

end MultiPandOS
