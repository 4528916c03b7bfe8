import MultiPandOS.Support.Invariant

/-! Termination at the support level acts on the U-proc that terminates.

`Settled` is what that means of a state and of the steps that have led to it: the ASID
handed to `TerminateSys` is that of the caller, the frames that a step frees are those
recorded for it, nobody else loses a frame and nothing of it stays behind, and every
U-proc signals its end once, the shell on `masterSemaphore` and a program on
`shellSemaphore`. It holds in every run in which no U-proc fails to write back a page
of another one (`run_settled`). In such a failure `writeToDevice` hands the ASID of the
page to `programTrapHandler`, and the wrong U-proc loses its frames
(`foreign_write_error`). -/
namespace MultiPandOS
open Paging Runs

/-- The semaphore on which a U-proc signals its end. -/
def endSem (q : Nat) : Sem := if q = shellNo then .masterSemaphore else .shellSemaphore

/-- The V operations of a step on these semaphores, and who does them. -/
def signals (s : Sys) (e : SysEvent) (s' : Sys) : List (Option Nat × Sem) :=
  ([.masterSemaphore, .shellSemaphore].filter fun x => decide (s.sem x < s'.sem x)).map fun x => (e.actor, x)

/-- The frames that a step frees. -/
def freed (s s' : Sys) : Set Frame :=
  {f | (s.vm.swapPool f).swAsid ≠ -1 ∧ (s'.vm.swapPool f).swAsid = -1}

/-- `q` has come as far as its TERMPROCESS, or is gone. -/
def Sys.ended (s : Sys) (q : Nat) : Bool := decide (q < s.next) && !(s.proc q).place.pending

/-- What is recorded for page `p` of `q`. -/
def Sys.record (s : Sys) (q : Nat) (p : PageNo) : Swap :=
  ⟨(s.proc q).asid, BitVec.ofNat 32 p.val, some ((s.proc q).sup, p)⟩

/-- How often each U-proc has signalled its end, and that nobody else has. -/
structure Signalled (L : PoolLayout) (h : Handlers) (s₀ : Sys) (es : List SysEvent) (s : Sys) : Prop where
  signalled : ∀ q x, (trace (sysStep L h) signals s₀ es).count (some q, x) =
    if x = endSem q ∧ s.ended q = true then 1 else 0
  nobody : ∀ x, (trace (sysStep L h) signals s₀ es).count (none, x) = 0

/-- Termination has acted on the U-procs that terminated, in the steps `es` from `s₀`
to `s` and in the one that comes next. -/
structure Settled (L : PoolLayout) (h : Handlers) (s₀ : Sys) (es : List SysEvent) (s : Sys) : Prop
    extends Signalled L h s₀ es s where
  asid : ∀ q step asid, (s.proc q).place = .terminate step asid → asid = (s.proc q).asid
  frees : ∀ e s', sysStep L h e s = some s' → freed s s' = {f | ∃ q asid, e.actor = some q ∧
    (s.proc q).place = .terminate .free asid ∧ (s.vm.swapPool f).swAsid = (s.proc q).asid}
  kept : ∀ q p, (s.proc q).place.mapped = true → (s.vm.pte ((s.proc q).sup, p)).valid →
    ∃ f, frameAt L (s.vm.pte ((s.proc q).sup, p)).entryLo = some f ∧ s.vm.swapPool f = s.record q p
  left : ∀ f, (s.vm.swapPool f).swAsid ≠ -1 →
    ∃ q p, (s.proc q).place.mapped = true ∧ s.vm.swapPool f = s.record q p

/-! ### The frames -/

section Frames
variable {L : PoolLayout} {h : Handlers} {s s' : Sys} {e : SysEvent}

theorem pagerStep_swapPool {u : SupPtr} {a : Answer} {place place' : PagerAt} {vm vm' : Vm}
    (hstep : pagerStep L u a place vm = some (place', vm')) :
    vm'.swapPool = vm.swapPool ∨ ∃ p f, vm'.swapPool = Function.update vm.swapPool f (vm.record (u, p)) := by
  cases pagerStep_effect hstep with
  | @evict p f k occupied record => exact .inl (swapPool_invalidate k vm)
  | @publish p f => exact .inr ⟨p, f, swapPool_publish u p f a.slot⟩
  | _ => exact .inl rfl

/-- Only `TerminateSys` frees frames. -/
theorem Effect.occupied (he : Effect L h s e s') (hi : Inv L s)
    (hnot : ∀ q inp asid, e = .go q inp → (s.proc q).place ≠ .terminate .free asid) (f : Frame)
    (hf : (s.vm.swapPool f).swAsid ≠ -1) : (s'.vm.swapPool f).swAsid ≠ -1 := by
  cases he with
  | calm old new inherits quiet => rwa [quiet.swapPool]
  | refill slot code touched miss index => exact hf
  | lock old pass locks mapped attached inherits =>
    obtain ⟨-, rfl⟩ := passeren_eq_some pass
    exact hf
  | unlock old locks pending mapped inherits => exact hf
  | @pager q k inp place r old step =>
    obtain hpool | ⟨p, g, hpool⟩ := pagerStep_swapPool step
    · show (r.2.swapPool f).swAsid ≠ -1
      rwa [hpool]
    · show (r.2.swapPool f).swAsid ≠ -1
      rw [hpool]
      by_cases hfg : f = g
      · rw [hfg, Function.update_self]
        exact (hi.memory.paged.asid _ ⟨q, by rw [old]; rfl, rfl⟩).ne_neg
      · rwa [Function.update_of_ne hfg]
  | free old => exact absurd old (hnot _ _ _ rfl)
  | dealloc old => exact hf
  | signal old => exact hf
  | die old =>
    rw [termprocess_vm]
    exact hf
  | create old arg accepted popped created => exact hf
  | wake old pass =>
    obtain ⟨-, rfl⟩ := passeren_eq_some pass
    exact hf
  | await old pass =>
    obtain ⟨-, rfl⟩ := passeren_eq_some pass
    exact hf
  | kill old => exact hf

theorem Inv.freed (hi : Inv L s) (hstep : sysStep L h e s = some s') :
    freed s s' = {f | ∃ q asid, e.actor = some q ∧ (s.proc q).place = .terminate .free asid ∧
      (s.vm.swapPool f).swAsid = (s.proc q).asid} := by
  by_cases hfree : ∃ q inp asid, e = .go q inp ∧ (s.proc q).place = .terminate .free asid
  · obtain ⟨q, inp, asid, rfl, hq⟩ := hfree
    have hok : asid = (s.proc q).asid := by
      have := hi.identity.ok q
      rwa [hq] at this
    have hpresent : (s.proc q).place ≠ .absent := by simp [hq]
    simp only [sysStep, proceed, hq] at hstep
    obtain rfl := Option.some.inj hstep
    refine Set.ext fun f => ⟨fun hf => ?_, fun hf => ?_⟩
    · refine ⟨q, asid, rfl, hq, ?_⟩
      by_contra hne
      refine hf.1 (Eq.trans (congrArg Swap.swAsid (Eq.symm (if_neg ?_))) hf.2)
      rwa [hok]
    · obtain ⟨r, _, hr, -, hf⟩ := hf
      obtain rfl : q = r := Option.some.inj hr
      refine ⟨?_, congrArg Swap.swAsid (if_pos ?_)⟩
      · rw [hf]
        exact (hi.identity.asid q hpresent).ne_neg
      · rw [hf, hok]
  · refine Set.ext fun f => ⟨fun hf => ?_, fun hf => ?_⟩
    · have hnot : ∀ q inp asid, e = .go q inp → (s.proc q).place ≠ .terminate .free asid :=
        fun q inp asid he hq => hfree ⟨q, inp, asid, he, hq⟩
      exact absurd hf.2 ((sysStep_effect hstep).occupied hi hnot f hf.1)
    · obtain ⟨q, asid, hactor, hq, -⟩ := hf
      cases e with
      | access r va value inp =>
        obtain rfl : r = q := Option.some.inj hactor
        simp [sysStep, hq] at hstep
      | trap r st =>
        obtain rfl : r = q := Option.some.inj hactor
        simp [sysStep, hq] at hstep
      | go r inp =>
        obtain rfl : r = q := Option.some.inj hactor
        exact absurd ⟨r, inp, asid, rfl, hq⟩ hfree
      | test => cases hactor

/-- A U-proc that has its pages is recorded wherever its entries lead. -/
theorem Inv.kept (hi : Inv L s) {q : Nat} {p : PageNo} (hq : (s.proc q).place.mapped = true)
    (hv : (s.vm.pte ((s.proc q).sup, p)).valid) :
    ∃ f, frameAt L (s.vm.pte ((s.proc q).sup, p)).entryLo = some f ∧ s.vm.swapPool f = s.record q p := by
  have hlive : (s.proc q).sup ∈ s.live := ⟨q, hq, rfl⟩
  obtain ⟨f, hf⟩ := hi.memory.paged.framed ((s.proc q).sup, p) hlive hv
  obtain ⟨howner, -⟩ := hi.memory.paged.owned _ f (table_map_eq_some.mpr ⟨hlive, hv, hf⟩)
  refine ⟨f, hf, ?_⟩
  rw [(hi.memory.paged.owner_record howner).2, Vm.record, hi.memory.held q (Place.mapped_owns hq)]
  rfl

theorem Inv.left (hi : Inv L s) {f : Frame} (hf : (s.vm.swapPool f).swAsid ≠ -1) :
    ∃ q p, (s.proc q).place.mapped = true ∧ s.vm.swapPool f = s.record q p := by
  obtain ⟨k, ⟨q, hq, hu⟩, hrec⟩ := hi.memory.paged.tagged f hf
  refine ⟨q, k.2, hq, ?_⟩
  rw [hrec, Vm.record, ← hu, hi.memory.held q (Place.mapped_owns hq), Sys.record, hu]

end Frames

/-! ### The signals -/

section Signals
variable {L : PoolLayout} {h : Handlers} {q : Nat} {place : Place} {s s' s₁ : Sys} {e : SysEvent}

/-- A step signals the end of one U-proc, which ends with it, or of none. -/
inductive Tally (s : Sys) (e : SysEvent) (s' : Sys) : Prop where
  | none (signals : signals s e s' = []) (ended : ∀ r, s'.ended r = s.ended r)
  | one (q : Nat) (signals : signals s e s' = [(some q, endSem q)]) (before : s.ended q = false)
      (after : s'.ended q = true) (ended : ∀ r, r ≠ q → s'.ended r = s.ended r)

theorem signals_nil (hmaster : s'.sem .masterSemaphore ≤ s.sem .masterSemaphore)
    (hshell : s'.sem .shellSemaphore ≤ s.sem .shellSemaphore) : signals s e s' = [] := by
  simp [signals, hmaster, hshell]

theorem Moved.ended (hm : Moved q place s s') (r : Nat) (hr : r = q → place.pending = (s.proc q).place.pending) :
    s'.ended r = s.ended r := by
  unfold Sys.ended
  rw [hm.next]
  by_cases hrq : r = q
  · subst hrq
    rw [hm.self, hr rfl]
  · rw [hm.other hrq]

theorem Tally.moved (hm : Moved q place s s') (hpending : place.pending = (s.proc q).place.pending)
    (hmaster : s'.sem .masterSemaphore ≤ s.sem .masterSemaphore)
    (hshell : s'.sem .shellSemaphore ≤ s.sem .shellSemaphore) : Tally s e s' :=
  .none (signals_nil hmaster hshell) fun r => hm.ended r fun _ => hpending

/-- Everybody has signalled their end before everybody is terminated. -/
theorem Tally.killed (hi : Inv L s) (hover : (s.proc shellNo).place.pending = false) (hnext : s'.next = s.next)
    (hgone : ∀ r, (s'.proc r).place = .absent) (hsem : s'.sem = s.sem) : Tally s e s' := by
  refine .none (signals_nil (by rw [hsem]) (by rw [hsem])) fun r => ?_
  unfold Sys.ended
  rw [hnext, hgone, hi.protocol.over hover r]
  rfl

theorem Inv.signals (hi : Inv L s) {inp : Input} {asid : Word} (hold : (s.proc q).place = .terminate .signal asid) :
    Tally s (.go q inp) ((s.verhogen (if asid = SHELL_ASID then .masterSemaphore else .shellSemaphore)).goto q
      (.terminate .die asid)) := by
  have hpresent : (s.proc q).place ≠ .absent := by simp [hold]
  have hok : asid = (s.proc q).asid := by
    have := hi.identity.ok q
    rwa [hold] at this
  have hsem : (if asid = SHELL_ASID then .masterSemaphore else .shellSemaphore) = endSem q := by
    have hshell : asid = SHELL_ASID ↔ q = shellNo := by
      rw [hok]
      exact hi.identity.shell q hpresent
    simp only [endSem, hshell]
  have hnext : q < s.next := hi.owners.lt_next hpresent
  rw [hsem]
  have hm : Moved q (.terminate .die asid) s ((s.verhogen (endSem q)).goto q (.terminate .die asid)) := ⟨rfl, rfl, rfl⟩
  refine .one q ?_ ?_ ?_ fun r hr => hm.ended r fun he => absurd he hr
  · have hraised : ∀ x, s.sem x < ((s.verhogen (endSem q)).goto q (.terminate .die asid)).sem x ↔ x = endSem q := by
      intro x
      show s.sem x < Function.update s.sem (endSem q) (s.sem (endSem q) + 1) x ↔ x = endSem q
      by_cases hx : x = endSem q
      · rw [hx, Function.update_self]
        simp
      · rw [Function.update_of_ne hx]
        simp [hx]
    unfold MultiPandOS.signals
    simp only [hraised]
    unfold endSem
    by_cases hq : q = shellNo
    · simp [hq, SysEvent.actor]
    · simp [hq, SysEvent.actor]
  · simp [Sys.ended, hold, Place.pending]
  · unfold Sys.ended
    rw [hm.next, hm.self]
    simp [hnext, Place.pending]

theorem Inv.tally (hi : Inv L s) (hstep : sysStep L h e s = some s') : Tally s e s' := by
  cases sysStep_effect hstep with
  | calm old new inherits quiet =>
    exact .moved quiet.toMoved ((Place.calm_pending new).trans (Place.calm_pending old).symm)
      (quiet.sem _ (by simp) (by simp)).le (quiet.sem _ (by simp) (by simp)).le
  | refill slot code touched miss index => exact .none (signals_nil (Int.le_refl _) (Int.le_refl _)) fun _ => rfl
  | lock old pass locks mapped attached inherits =>
    obtain ⟨-, rfl⟩ := passeren_eq_some pass
    exact .moved ⟨rfl, rfl, rfl⟩ ((Place.locks_pending locks).trans (Place.calm_pending old).symm) (Int.le_refl _)
      (Int.le_refl _)
  | unlock old locks pending mapped inherits =>
    exact .moved ⟨rfl, rfl, rfl⟩ (pending.trans (Place.locks_pending old).symm) (Int.le_refl _) (Int.le_refl _)
  | pager old step =>
    refine .moved ⟨rfl, rfl, rfl⟩ ?_ (Int.le_refl _) (Int.le_refl _)
    rw [old]
    rfl
  | free old =>
    refine .moved ⟨rfl, rfl, rfl⟩ ?_ (Int.le_refl _) (Int.le_refl _)
    rw [old]
    rfl
  | dealloc old =>
    refine .moved ⟨rfl, rfl, rfl⟩ ?_ (Int.le_refl _) (Int.le_refl _)
    rw [old]
    rfl
  | signal old => exact hi.signals old
  | @die q inp asid old =>
    by_cases hq : q = shellNo
    · subst hq
      exact .killed hi (by rw [old]; rfl) rfl (termprocess_shell s) rfl
    · exact .moved (termprocess_moved hq) (by rw [old]; rfl) (by simp) (by simp)
  | @create q inp asid newAsid u supportFree old arg accepted popped created =>
    have hc := hi.owners.created old (s.vm.initSupport h u newAsid) u supportFree newAsid
    refine .none (signals_nil (Int.le_refl _) (Int.le_refl _)) fun r => ?_
    unfold Sys.ended
    by_cases hr : r = s.next
    · rw [hr, hc.program]
      simp [Place.pending]
    · rw [hc.attr Place.pending (by rw [old]; rfl) hr]
      have hlt : r < s.next + 1 ↔ r < s.next := by omega
      show (decide (r < s.next + 1) && _) = _
      simp only [hlt]
  | @wake q inp s₁ old pass =>
    obtain ⟨-, rfl⟩ := passeren_eq_some pass
    have hm : Moved q (s.proc q).place s {s with sem := Function.update s.sem .shellSemaphore (s.sem .shellSemaphore - 1)} :=
      ⟨(Quiet.refl q s).proc, rfl, rfl⟩
    refine .moved hm.ldst (by rw [old]; rfl) (Int.le_refl _) ?_
    show Function.update s.sem .shellSemaphore (s.sem .shellSemaphore - 1) .shellSemaphore ≤ _
    rw [Function.update_self]
    omega
  | await old pass =>
    obtain ⟨-, rfl⟩ := passeren_eq_some pass
    refine .none (signals_nil ?_ (Int.le_refl _)) fun _ => rfl
    show Function.update s.sem .masterSemaphore (s.sem .masterSemaphore - 1) .masterSemaphore ≤ _
    rw [Function.update_self]
    omega
  | kill old => exact .killed hi (hi.protocol.master (.inr (by simp [old]))) rfl (fun _ => rfl) rfl

theorem Signalled.step {s₀ : Sys} {es : List SysEvent} (hc : Signalled L h s₀ es s)
    (htrace : trace (sysStep L h) signals s₀ (es ++ [e]) = trace (sysStep L h) signals s₀ es ++ signals s e s')
    (ht : Tally s e s') : Signalled L h s₀ (es ++ [e]) s' := by
  cases ht with
  | none hsignals hended =>
    rw [hsignals, List.append_nil] at htrace
    refine ⟨fun q x => ?_, fun x => ?_⟩
    · rw [htrace, hended q]
      exact hc.signalled q x
    · rw [htrace]
      exact hc.nobody x
  | one q hsignals hbefore hafter hended =>
    rw [hsignals] at htrace
    refine ⟨fun r x => ?_, fun x => ?_⟩
    · rw [htrace, List.count_append, hc.signalled r x]
      by_cases hr : r = q
      · subst hr
        rw [hbefore, hafter]
        by_cases hx : x = endSem r
        · simp [hx]
        · simp [hx, Ne.symm hx]
      · rw [hended r hr]
        simp [Ne.symm hr]
    · rw [htrace, List.count_append, hc.nobody x]
      simp

end Signals

/-! ### Runs -/

section Runs
variable {L : PoolLayout} {h : Handlers} {vm : Vm} {s₀ s : Sys} {es : List SysEvent}

theorem run_signalled (hstart : Sys.start h vm = some s₀) (hrun : Run (sysStep L h) OwnWrites s₀ es s) :
    Signalled L h s₀ es s := by
  induction hrun with
  | nil =>
    obtain ⟨u, hu⟩ := start_started hstart
    refine ⟨fun q x => ?_, fun x => rfl⟩
    have hpending : s₀.ended q = false := by
      unfold Sys.ended
      rw [hu.next]
      by_cases hq : q = shellNo
      · rw [hq, hu.shell]
        rfl
      · have hge : ¬ q < 1 := by
          unfold shellNo at hq
          omega
        simp [hge]
    simp [trace, hpending]
  | snoc hrun hown hstep ih => exact ih.step (hrun.trace_snoc hstep) ((run_inv hstart hrun).tally hstep)

/-- **Termination acts on the U-proc that terminates**, whatever way it has come to
`TerminateSys`, in every run in which no U-proc fails to write back a page of another
one. -/
theorem run_settled {L : PoolLayout} {h : Handlers} {vm : Vm} {s₀ s : Sys} {es : List SysEvent}
    (hstart : Sys.start h vm = some s₀) (hrun : Run (sysStep L h) OwnWrites s₀ es s) : Settled L h s₀ es s := by
  have hi := @run_inv L h vm s₀ s es hstart hrun
  have hc := run_signalled hstart hrun
  refine ⟨hc, fun q step asid hq => ?_, fun e s' hstep => hi.freed hstep, fun q p hq hv => hi.kept hq hv,
    fun f hf => hi.left hf⟩
  have hok := hi.identity.ok q
  rwa [hq] at hok

end Runs

namespace SysSample

/-- A program is launched and terminates, and so does the shell. -/
def whole : List SysEvent := program ++ call 0 2 0 ++ goes 0 6 0 ++ [.test, .test]

/-- The shell fills the pool with its first sixteen pages and launches program 2, whose
first fault evicts one of them; the device fails to write it. -/
def failing : List SysEvent :=
  (List.range 16).flatMap (pageIn 0) ++ call 0 6 2 ++ goes 0 1 0 ++
    [.access 1 KUSEG none (answer 1 0), .access 1 KUSEG none (answer 1 0)] ++ goes 1 3 0 ++
    [.go 1 (answer 4 0)] ++ goes 1 7 0

end SysSample

open SysSample in
theorem run_settled_sample :
    ∃ s, exec (sysStep layout handlers) whole start = some s ∧ s.ended shellNo = true ∧ s.ended 1 = true ∧
      Settled layout handlers start whole s := by
  have hfollows : Follows (sysStep layout handlers) OwnWrites whole start := by
    decide +kernel
  obtain ⟨s, hexec, hrun⟩ := hfollows.run
  have hended : (exec (sysStep layout handlers) whole start).all (fun s => s.ended shellNo && s.ended 1) = true := by
    decide +kernel
  rw [hexec] at hended
  have hboth : s.ended shellNo = true ∧ s.ended 1 = true := by simpa using hended
  exact ⟨s, hexec, hboth.1, hboth.2, run_settled start_eq hrun⟩

open SysSample in
/-- The failure to write a page of the shell back ends the program with the ASID of the
shell: the frames of the shell are free while its entries are valid, and the program
has signalled `masterSemaphore`. -/
theorem foreign_write_error :
    Sys.start handlers vm = some start ∧
      ∃ s, Run (sysStep layout handlers) (fun _ _ => True) start failing s ∧
        (s.proc 1).asid = 2 ∧ (s.proc 1).place = .terminate .die SHELL_ASID ∧
        (s.proc shellNo).place = .waitShell ∧
        (∃ p f, (s.vm.pte ((s.proc shellNo).sup, p)).valid ∧
          frameAt layout (s.vm.pte ((s.proc shellNo).sup, p)).entryLo = some f ∧ s.vm.swapPool f = Swap.free) ∧
        (trace (sysStep layout handlers) signals start failing).count (some 1, .masterSemaphore) = 1 ∧
        ¬ Settled layout handlers start failing s := by
  have hfollows : Follows (sysStep layout handlers) (fun _ _ => True) failing start := by
    decide +kernel
  obtain ⟨s, hexec, hrun⟩ := hfollows.run
  have hwrong : (exec (sysStep layout handlers) failing start).all (fun s =>
      (s.proc 1).asid = 2 ∧ (s.proc 1).place = .terminate .die SHELL_ASID ∧ (s.proc shellNo).place = .waitShell ∧
      ∃ p f, (s.vm.pte ((s.proc shellNo).sup, p)).valid ∧
        frameAt layout (s.vm.pte ((s.proc shellNo).sup, p)).entryLo = some f ∧ s.vm.swapPool f = Swap.free) = true := by
    decide +kernel
  have hcount : (trace (sysStep layout handlers) signals start failing).count (some 1, .masterSemaphore) = 1 := by
    decide +kernel
  rw [hexec] at hwrong
  obtain ⟨hasid, hplace, hshell, hfree⟩ := of_decide_eq_true hwrong
  refine ⟨start_eq, s, hrun, hasid, hplace, hshell, hfree, hcount, fun hsettled => ?_⟩
  have hnever := hsettled.signalled 1 .masterSemaphore
  rw [hcount] at hnever
  simp [endSem, shellNo] at hnever

end MultiPandOS
