import Mathlib.Algebra.BigOperators.Fin
import Mathlib.Algebra.Order.BigOperators.Group.Finset
import MultiPandOS.Nucleus.Switches

/-! CPU-time accounting.

A `Meter` runs along with the nucleus: it is started when a process is dispatched and
read when it is suspended. `p_time` is charged by `updateTime` against `startTime`, which
`main` sets to 0 and nobody sets again, and `handlePLT` charges nothing. So `p_time` is
right as long as system calls suspend only processes dispatched at clock 0 and PLT
interrupts only those that have not run at all, and then never again
(`run_accounting`). -/
namespace MultiPandOS
open Runs

/-- `since` is when the processor last changed hands, `used` what every process has used
of it since its creation. -/
structure Meter where
  now : Nat
  since : Nat
  used : PcbPtr → Nat

namespace Meter

def start (boot : Nat) : Meter := ⟨boot, boot, fun _ => 0⟩

def read (now : Nat) (m : Meter) : Switch → Meter
  | .created p => {m with used := Function.update m.used p 0}
  | .suspended p _ _ => {m with since := now, used := Function.update m.used p (m.used p + (now - m.since))}
  | .dispatched _ _ => {m with since := now}
  | _ => m

end Meter

/-- The nucleus and its meter. -/
def meteredStep (L : Layout) (e : Trap) (x : Nucleus × Meter) : Option (Nucleus × Meter) :=
  (exceptionHandler L e x.1).map fun s' =>
    (s', {(switches L x.1 e s').foldl (Meter.read e.clock.toNat) x.2 with now := e.clock.toNat})

/-- The clock does not run backwards. -/
def Timely (L : Layout) (x : Nucleus × Meter) (e : Trap) : Prop :=
  Allowed L TermOk x.1 e ∧ x.2.now ≤ e.clock.toNat

/-- A process gives up the processor: how, when it got it and when it loses it, its
`p_time` afterwards and what it has used. -/
structure Bill where
  call : Bool
  since : Nat
  clock : Nat
  time : Nat
  used : Nat
deriving DecidableEq

def bills (x : Nucleus × Meter) (e : Trap) (x' : Nucleus × Meter) : List Bill :=
  if e.suspends x.1 then
    x.1.currentProcess.toList.map fun c =>
      ⟨e.isCall, x.2.since, e.clock.toNat, (x'.1.pcb c).pTime.toNat, x'.2.used c⟩
  else []

/-- What the code charges is what has passed: a system call is charged from clock 0, a
time slice not at all. -/
def Bill.Right (b : Bill) : Prop := b.since = if b.call then 0 else b.clock

/-! ### What a move does to the times -/

/-- The moves that leave the times alone. -/
def Move.Untimed : Move → Prop
  | .create _ _ _ => False
  | .save _ _ _ => False
  | _ => True

/-- What a suspended process is charged. -/
def Trap.charge (e : Trap) (s : Nucleus) : Word := if e.isCall then updateTime e getPRID s else 0

inductive Timed (e : Trap) (s : Nucleus) : List Move → Prop where
  | untimed {ms} : e.suspends s = false → (∀ m ∈ ms, m.Untimed) → Timed e s ms
  | create {p st prio ms} : e.suspends s = false → (∀ m ∈ ms, m.Untimed) →
      Timed e s (.create p st prio :: ms)
  | save {c st ms} : e.suspends s = true → s.currentProcess = some c → (∀ m ∈ ms, m.Untimed) →
      Timed e s (.save c st (e.charge s) :: ms)

theorem Turned.timed {L : Layout} {e : Trap} {s : Nucleus} {ms : List Move} (h : Turned L e s ms) :
    Timed e s ms := by
  have hresume : ∀ m ∈ resumeMoves s, m.Untimed := by
    unfold resumeMoves
    split <;> simp [Move.Untimed]
  have hinserts : ∀ ps : List PcbPtr, ∀ m ∈ ps.map Move.insert, m.Untimed := by
    simp [Move.Untimed]
  have hcall : ∀ sv c ms, e.kind = .service sv → e.suspends s = true → s.currentProcess = some c →
      (∀ m ∈ ms, m.Untimed) → Timed e s (suspendMoves e c s ++ ms) := by
    intro sv c ms hk hsus hc hms
    have hcharge : updateTime e getPRID s = e.charge s := by
      simp only [Trap.charge, Trap.isCall, hk, if_true]
    simp only [suspendMoves, hcharge, List.cons_append, List.nil_append]
    exact .save hsus hc (List.forall_mem_cons.mpr ⟨trivial, hms⟩)
  cases h with
  | @preempt c hk hc =>
    have hcharge : e.charge s = 0 := by simp [Trap.charge, Trap.isCall, hk]
    rw [← hcharge]
    exact .save (by simp [Trap.suspends, hk]) hc (by simp [Move.Untimed])
  | tick hk => exact .untimed (by simp [Trap.suspends, hk]) (List.forall_mem_append.mpr ⟨hinserts _, hresume⟩)
  | complete hk h1 =>
    exact .untimed (by simp [Trap.suspends, hk, h1]) (List.forall_mem_cons.mpr ⟨trivial, hresume⟩)
  | nobody hk h1 => exact .untimed (by simp [Trap.suspends, hk, h1]) hresume
  | create hk => exact .create (by simp [Trap.suspends, hk]) (by simp [Move.Untimed])
  | kill hk => exact .untimed (by simp [Trap.suspends, hk]) (by simp [Move.Untimed])
  | die hk =>
    refine .untimed ?_ (by simp [Move.Untimed])
    rcases hk with ⟨hk, -⟩ | ⟨index, st, hk⟩
    · simp [Trap.suspends, hk]
    · simp [Trap.suspends, hk]
  | block hk hv hc => exact hcall _ _ _ hk (by simp [Trap.suspends, hk, hv]) hc (by simp [Move.Untimed])
  | wait hk hc =>
    rcases hk with hk | hk
    · exact hcall _ _ _ hk (by simp [Trap.suspends, hk]) hc (by simp [Move.Untimed])
    · exact hcall _ _ _ hk (by simp [Trap.suspends, hk]) hc (by simp [Move.Untimed])
  | wake hk => exact .untimed (by simp [Trap.suspends, hk]) (by simp [Move.Untimed])
  | yield hk hc =>
    refine hcall _ _ _ hk (by simp [Trap.suspends, hk]) hc ?_
    split <;> simp [Move.Untimed]
  | none hk =>
    refine .untimed ?_ (by simp)
    rcases hk with hk | ⟨hk, hv⟩ | ⟨hk, -⟩
    · exact suspends_quiet hk
    · simpa [Trap.suspends, hk] using hv
    · simp [Trap.suspends, hk]

/-- Moves that leave the times alone; the meter may be started again. -/
theorem untimed_moves {e : Trap} {now : Nat} {ms : List Move} (hms : ∀ m ∈ ms, m.Untimed) (t : ProcTable)
    (w : Meter) :
    (t.moves ms).pTime = t.pTime ∧ ((t.switches e ms).foldl (Meter.read now) w).used = w.used ∧
      (((t.switches e ms).foldl (Meter.read now) w).since = w.since ∨
        ((t.switches e ms).foldl (Meter.read now) w).since = now) := by
  induction ms generalizing t w with
  | nil => exact ⟨rfl, rfl, .inl rfl⟩
  | cons m rest ih =>
    have hone : (t.apply m).pTime = t.pTime ∧ ((m.switches e t).foldl (Meter.read now) w).used = w.used ∧
        (((m.switches e t).foldl (Meter.read now) w).since = w.since ∨
          ((m.switches e t).foldl (Meter.read now) w).since = now) := by
      have hm := hms m (List.mem_cons_self ..)
      cases m with
      | create => exact hm.elim
      | save => exact hm.elim
      | remove ks =>
        have hkilled : ∀ (qs : List PcbPtr), (qs.map Switch.killed).foldl (Meter.read now) w = w := by
          intro qs
          induction qs with
          | nil => rfl
          | cons q rest ih => exact ih
        simp only [Move.switches, hkilled]
        exact ⟨rfl, trivial, .inl trivial⟩
      | dispatch =>
        refine ⟨by rw [ProcTable.dispatch_eq], ?_⟩
        cases hready : t.ready with
        | nil =>
          simp only [Move.switches, hready, List.head?_nil, Option.toList_none, List.map_nil, List.foldl_nil]
          exact ⟨trivial, .inl trivial⟩
        | cons p rest =>
          simp only [Move.switches, hready, List.head?_cons, Option.toList_some, List.map_cons, List.map_nil,
            List.foldl_cons, List.foldl_nil]
          exact ⟨rfl, .inr rfl⟩
      | _ => exact ⟨rfl, rfl, .inl rfl⟩
    obtain ⟨htime, hused, hsince⟩ := hone
    obtain ⟨htime', hused', hsince'⟩ :=
      ih (fun x hx => hms x (List.mem_cons_of_mem m hx)) (t.apply m) ((m.switches e t).foldl (Meter.read now) w)
    simp only [ProcTable.switches, List.foldl_append]
    refine ⟨htime'.trans htime, hused'.trans hused, ?_⟩
    rcases hsince' with h | h
    · rw [h]
      exact hsince
    · exact .inr h

/-! ### What a step does to the times -/

/-- Nobody is suspended, or one process is charged. -/
inductive Charged (e : Trap) (x x' : Nucleus × Meter) : Prop where
  | kept : bills x e x' = [] → (x'.2.since = x.2.since ∨ x'.2.since = e.clock.toNat) →
      (∀ p, ((x'.1.pcb p).pTime = (x.1.pcb p).pTime ∧ x'.2.used p = x.2.used p) ∨
        ((x'.1.pcb p).pTime = 0 ∧ x'.2.used p = 0)) → Charged e x x'
  | charged {c} : bills x e x' = [⟨e.isCall, x.2.since, e.clock.toNat, (x'.1.pcb c).pTime.toNat, x'.2.used c⟩] →
      x'.2.since = e.clock.toNat →
      (∀ p, (x'.1.pcb p).pTime =
        if p = c then (x.1.pcb c).pTime + e.charge x.1 else (x.1.pcb p).pTime) →
      x'.2.used = Function.update x.2.used c (x.2.used c + (e.clock.toNat - x.2.since)) → Charged e x x'

theorem meteredStep_charged {L : Layout} {e : Trap} {x x' : Nucleus × Meter} (hs : Sound x.1)
    (h : Allowed L TermOk x.1 e) (hstep : meteredStep L e x = some x') :
    exceptionHandler L e x.1 = some x'.1 ∧ x'.1.startTime = x.1.startTime ∧ x'.2.now = e.clock.toNat ∧
      Charged e x x' := by
  obtain ⟨s₁, ms, hres, hturned, htable, htime, hldst⟩ := handler_turns hs h fun _ => id
  have hseen := hturned.switches hs h htable hldst
  simp only [meteredStep, hres, Option.map_some] at hstep
  obtain rfl := Option.some.inj hstep
  refine ⟨hres, htime, rfl, ?_⟩
  let w := (switches L x.1 e s₁).foldl (Meter.read e.clock.toNat) x.2
  have hpTime : ∀ p, (s₁.pcb p).pTime = (x.1.table.moves ms).pTime p := fun p =>
    congrFun (congrArg ProcTable.pTime htable) p
  cases hturned.timed with
  | untimed hsus hms =>
    obtain ⟨htimes, hused, hsince⟩ := @untimed_moves e e.clock.toNat _ hms x.1.table x.2
    have hbills : bills x e (s₁, {w with now := e.clock.toNat}) = [] := by
      simp only [bills, hsus, Bool.false_eq_true, if_false]
    rw [← hseen] at hused hsince
    refine .kept hbills hsince fun p => .inl ⟨?_, congrFun hused p⟩
    rw [hpTime p, htimes]
    rfl
  | @create q st prio ms hsus hms =>
    obtain ⟨htimes, hused, hsince⟩ := @untimed_moves e e.clock.toNat _ hms (x.1.table.apply (.create q st prio))
      (x.2.read e.clock.toNat (.created q))
    have hbills : bills x e (s₁, {w with now := e.clock.toNat}) = [] := by
      simp only [bills, hsus, Bool.false_eq_true, if_false]
    have hfold : w = ((x.1.table.apply (.create q st prio)).switches e ms).foldl (Meter.read e.clock.toNat)
        (x.2.read e.clock.toNat (.created q)) := by
      simp only [w, hseen, ProcTable.switches, List.foldl_append]
      rfl
    rw [← hfold] at hused hsince
    refine .kept hbills hsince fun p => ?_
    have htime' : (s₁.pcb p).pTime = Function.update x.1.table.pTime q 0 p :=
      (hpTime p).trans (congrFun htimes p)
    have hused' : w.used p = Function.update x.2.used q 0 p := congrFun hused p
    by_cases hp : p = q
    · subst hp
      exact .inr ⟨htime'.trans (Function.update_self ..), hused'.trans (Function.update_self ..)⟩
    · exact .inl ⟨htime'.trans (Function.update_of_ne hp _ _), hused'.trans (Function.update_of_ne hp _ _)⟩
  | @save c st ms hsus hc hms =>
    obtain ⟨htimes, hused, hsince⟩ := @untimed_moves e e.clock.toNat _ hms
      (x.1.table.apply (.save c st (e.charge x.1))) (x.2.read e.clock.toNat (.suspended c e.state e.isCall))
    have hfold : w = ((x.1.table.apply (.save c st (e.charge x.1))).switches e ms).foldl
        (Meter.read e.clock.toNat) (x.2.read e.clock.toNat (.suspended c e.state e.isCall)) := by
      simp only [w, hseen, ProcTable.switches, List.foldl_append]
      rfl
    rw [← hfold] at hused hsince
    refine .charged ?_ (hsince.elim id id) (fun p => ?_) hused
    · simp only [bills, hsus, if_true, hc]
      rfl
    · have htime' : (s₁.pcb p).pTime =
          Function.update x.1.table.pTime c ((x.1.pcb c).pTime + e.charge x.1) p :=
        (hpTime p).trans (congrFun htimes p)
      rw [htime', Function.update_apply]
      rfl

/-! ### The total -/

/-- What has been used fits between the boot and the last time the processor changed
hands. -/
structure MeterOk (boot : Nat) (x : Nucleus × Meter) : Prop where
  startTime : x.1.startTime getPRID = 0
  since : x.2.since ≤ x.2.now
  total : ∑ p, x.2.used p + boot ≤ x.2.since

/-- `p_time` is what the meter says. -/
def Exact (x : Nucleus × Meter) : Prop := ∀ p, (x.1.pcb p).pTime.toNat = x.2.used p

theorem MeterOk.step {L : Layout} {boot : Nat} {e : Trap} {x x' : Nucleus × Meter} (h : MeterOk boot x)
    (hs : Sound x.1) (ht : Timely L x e) (hstep : meteredStep L e x = some x') : MeterOk boot x' := by
  obtain ⟨-, hstart, hnow, hcharged⟩ := meteredStep_charged hs ht.1 hstep
  have hlate := ht.2
  have hsince := h.since
  have htotal := h.total
  cases hcharged with
  | kept _ hsince' hused =>
    have hle : ∑ p, x'.2.used p ≤ ∑ p, x.2.used p := by
      apply Finset.sum_le_sum
      intro p _
      rcases hused p with ⟨-, h⟩ | ⟨-, h⟩
      · exact le_of_eq h
      · rw [h]
        exact Nat.zero_le _
    refine ⟨hstart ▸ h.startTime, ?_, ?_⟩ <;> omega
  | @charged c _ hsince' _ hused =>
    have hsum : ∑ p, x'.2.used p = ∑ p, x.2.used p + (e.clock.toNat - x.2.since) := by
      have hbefore := Finset.sum_update_of_mem (Finset.mem_univ c) x.2.used (x.2.used c)
      rw [Function.update_eq_self] at hbefore
      rw [hused, Finset.sum_update_of_mem (Finset.mem_univ c), hbefore]
      omega
    refine ⟨hstart ▸ h.startTime, ?_, ?_⟩ <;> omega

/-- What the code adds to `p_time`. -/
theorem charge_toNat {e : Trap} {s : Nucleus} (h : s.startTime getPRID = 0) :
    (e.charge s).toNat = if e.isCall then e.clock.toNat else 0 := by
  unfold Trap.charge
  split
  · simp [updateTime, h]
  · rfl

/-- The bill is right exactly when what is charged is what has passed. -/
theorem Charged.bill {boot : Nat} {e : Trap} {x x' : Nucleus × Meter} (h : MeterOk boot x) (hexact : Exact x)
    (hlate : x.2.now ≤ e.clock.toNat) (hcharged : Charged e x x') :
    ((∀ b ∈ bills x e x', b.time = b.used) ↔ ∀ b ∈ bills x e x', b.Right) ∧
      ((∀ b ∈ bills x e x', b.Right) → Exact x') := by
  cases hcharged with
  | kept hbills _ hkept =>
    simp only [hbills, List.not_mem_nil, false_implies, implies_true, true_and, true_implies]
    intro p
    rcases hkept p with ⟨htime, hused⟩ | ⟨htime, hused⟩
    · rw [htime, hused]
      exact hexact p
    · rw [htime, hused]
      rfl
  | @charged c hbills _ htime hused =>
    have htimec : (x'.1.pcb c).pTime = (x.1.pcb c).pTime + e.charge x.1 := by rw [htime c, if_pos rfl]
    have husedc : x'.2.used c = x.2.used c + (e.clock.toNat - x.2.since) := by rw [hused, Function.update_self]
    have hle : x.2.used c ≤ ∑ p, x.2.used p :=
      Finset.single_le_sum (fun p _ => Nat.zero_le (x.2.used p)) (Finset.mem_univ c)
    have hiff : (x'.1.pcb c).pTime.toNat = x'.2.used c ↔ x.2.since = if e.isCall then 0 else e.clock.toNat := by
      have hclock := e.clock.isLt
      have hsince := h.since
      have htotal := h.total
      rw [htimec, husedc, BitVec.toNat_add, hexact c, charge_toNat h.startTime]
      split <;> omega
    simp only [hbills, List.forall_mem_singleton]
    refine ⟨hiff, fun hright p => ?_⟩
    by_cases hp : p = c
    · subst hp
      exact hiff.mpr hright
    · rw [htime p, if_neg hp, hused, Function.update_of_ne hp]
      exact hexact p

/-! ### Every run -/

theorem main_metered (L : Layout) (b : Boot) (boot : Nat) :
    MeterOk boot (main L b, .start boot) ∧ Exact (main L b, .start boot) := by
  obtain ⟨rest, -, hmain⟩ := main_eq L b
  refine ⟨⟨?_, Nat.le_refl _, ?_⟩, fun p => ?_⟩
  · show (main L b).startTime getPRID = 0
    rw [hmain]
    rfl
  · simp [Meter.start]
  · show ((main L b).pcb p).pTime.toNat = 0
    rw [main_pcb]
    split
    · rfl
    · rfl

/-- What is known after every run. -/
structure Metered (boot : Nat) (bs : List Bill) (x : Nucleus × Meter) : Prop where
  sound : Sound x.1
  meter : MeterOk boot x
  bills : (∀ b ∈ bs, b.time = b.used) ↔ ∀ b ∈ bs, b.Right
  exact : (∀ b ∈ bs, b.Right) → Exact x

theorem run_bills {L : Layout} {b : Boot} {boot : Nat} {es : List Trap} {x : Nucleus × Meter}
    (h : Run (meteredStep L) (Timely L) (main L b, .start boot) es x) :
    Metered boot (trace (meteredStep L) bills (main L b, .start boot) es) x := by
  induction h with
  | nil =>
    obtain ⟨hok, hexact⟩ := main_metered L b boot
    exact ⟨main_sound L b, hok, by simp [trace], fun _ => hexact⟩
  | @snoc es x e x' hrun ht hstep ih =>
    obtain ⟨hres, -, -, hcharged⟩ := meteredStep_charged ih.sound ht.1 hstep
    have hbill := fun hexact => hcharged.bill ih.meter hexact ht.2
    rw [hrun.trace_snoc hstep]
    refine ⟨ih.sound.step ht.1 (fun _ => id) hres, ih.meter.step ih.sound ht hstep, ?_, fun hright => ?_⟩
    · rw [List.forall_mem_append, List.forall_mem_append, ih.bills]
      exact and_congr_right fun hright => (hbill (ih.exact hright)).1
    · obtain ⟨hright, hlast⟩ := List.forall_mem_append.mp hright
      exact (hbill (ih.exact hright)).2 hlast

/-- **CPU-time accounting**: in every run whose clock does not run backwards, every
process that gives up the processor has what it has used in `p_time` if and only if each
time the code charges what has passed; all `p_time` together are then at most the time
since the boot. -/
theorem run_accounting {L : Layout} {b : Boot} {boot : Nat} {es : List Trap} {x : Nucleus × Meter}
    (h : Run (meteredStep L) (Timely L) (main L b, .start boot) es x) :
    ((∀ bill ∈ trace (meteredStep L) bills (main L b, .start boot) es, bill.time = bill.used) ↔
      ∀ bill ∈ trace (meteredStep L) bills (main L b, .start boot) es, bill.Right) ∧
    ((∀ bill ∈ trace (meteredStep L) bills (main L b, .start boot) es, bill.Right) →
      ∑ p, (x.1.pcb p).pTime.toNat + boot ≤ x.2.now) := by
  have hmetered := run_bills h
  refine ⟨hmetered.bills, fun hright => ?_⟩
  have hsum : ∑ p, (x.1.pcb p).pTime.toNat = ∑ p, x.2.used p :=
    Finset.sum_congr rfl fun p _ => hmetered.exact hright p
  rw [hsum]
  exact hmetered.meter.total.trans hmetered.meter.since

namespace Sample

/-- The first process, dispatched at the boot, yields at 10 and again at 25. -/
def yields : List Trap := [{ecall (-10) 0 0 with clock := 10}, {ecall (-10) 0 0 with clock := 25}]

theorem yields_run : ∃ x, exec (meteredStep layout) yields (main layout boot, .start 0) = some x ∧
    Run (meteredStep layout) (Timely layout) (main layout boot, .start 0) yields x := by
  have hfollows : Follows (meteredStep layout)
      (fun x e => Allowed layout SelfOnly x.1 e ∧ x.2.now ≤ e.clock.toNat) yields (main layout boot, .start 0) := by
    decide +kernel
  obtain ⟨x, hexec, hrun⟩ := hfollows.run
  exact ⟨x, hexec, hrun.mono fun _ _ h => ⟨h.1.mono fun _ => SelfOnly.termOk, h.2⟩⟩

/-- The second YIELD is charged 25 for the 15 that have passed. -/
theorem yields_bills : trace (meteredStep layout) bills (main layout boot, .start 0) yields =
    [⟨true, 0, 10, 10, 10⟩, ⟨true, 10, 25, 35, 25⟩] := by decide +kernel

end Sample

open Sample in
theorem run_accounting_sample : ∃ x, exec (meteredStep layout) yields (main layout boot, .start 0) = some x ∧
    ((∀ bill ∈ trace (meteredStep layout) bills (main layout boot, .start 0) yields, bill.time = bill.used) ↔
      ∀ bill ∈ trace (meteredStep layout) bills (main layout boot, .start 0) yields, bill.Right) ∧
    ((∀ bill ∈ trace (meteredStep layout) bills (main layout boot, .start 0) yields, bill.Right) →
      ∑ p, (x.1.pcb p).pTime.toNat + 0 ≤ x.2.now) := by
  obtain ⟨x, hexec, hrun⟩ := yields_run
  exact ⟨x, hexec, run_accounting hrun⟩

open Sample in
/-- `p_time` exceeds what the process has used, and what has elapsed at all. -/
theorem accounting_fails : ¬ ∀ (L : Layout) (b : Boot) (boot : Nat) (es : List Trap) (x : Nucleus × Meter),
    Run (meteredStep L) (Timely L) (main L b, .start boot) es x →
      (∀ bill ∈ trace (meteredStep L) bills (main L b, .start boot) es, bill.time = bill.used) ∧
        ∑ p, (x.1.pcb p).pTime.toNat + boot ≤ x.2.now := by
  intro h
  obtain ⟨x, -, hrun⟩ := yields_run
  have hbills := (h layout boot 0 yields x hrun).1
  rw [yields_bills] at hbills
  have hsecond := hbills ⟨true, 10, 25, 35, 25⟩ (by simp)
  simp at hsecond

/-- Every run of the nucleus whose clock does not run backwards is metered. -/
theorem run_metered {L : Layout} {b : Boot} {boot : Nat} {es : List Trap} {s : Nucleus}
    (h : Run (exceptionHandler L) (Allowed L TermOk) (main L b) es s)
    (hclock : (boot :: es.map fun e => e.clock.toNat).Pairwise (· ≤ ·)) :
    ∃ m, Run (meteredStep L) (Timely L) (main L b, .start boot) es (s, m) := by
  have hlast : ∃ m, Run (meteredStep L) (Timely L) (main L b, .start boot) es (s, m) ∧
      m.now ∈ boot :: es.map fun e => e.clock.toNat := by
    induction h with
    | nil => exact ⟨_, .nil, List.mem_cons_self ..⟩
    | @snoc es s e s' hrun hallowed hstep ih =>
      rw [List.map_append, ← List.cons_append] at hclock
      obtain ⟨hbefore, -, hlate⟩ := List.pairwise_append.mp hclock
      obtain ⟨m, hm, hnow⟩ := ih hbefore
      have hm' : meteredStep L e (s, m) = some (s', {(switches L s e s').foldl (Meter.read e.clock.toNat) m with
          now := e.clock.toNat}) := by
        simp only [meteredStep, hstep, Option.map_some]
      exact ⟨_, .snoc hm ⟨hallowed, hlate _ hnow _ (List.mem_singleton_self _)⟩ hm', by simp⟩
  obtain ⟨m, hm, -⟩ := hlast
  exact ⟨m, hm⟩

end MultiPandOS
