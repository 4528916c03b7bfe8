import MultiPandOS.Library.Runs
import Mathlib.Data.List.Basic
import Mathlib.Data.List.Induction

/-! First-in first-out counting semaphores.

A `P` either takes a unit (`acquire`) or joins the queue (`block`); a `V` hands its
unit to the head of the queue or puts it back (`signal`); queued processes may
disappear (`remove`). A history that the semaphore takes obeys its law (`law`): the
value never falls below zero, somebody is queued only at zero, the value counts the
signals against the completed `P`s, and whoever a signal wakes had been waiting
longest. A semaphore that starts at 1 and is signalled only by its holders has at
most one holder (`holders_length_le`). -/
namespace MultiPandOS.Semaphore
open Runs

variable {α : Type}

structure Sem (α : Type) where
  value : Int
  queue : List α

inductive Event (α : Type) where
  | acquire (a : α)
  | block (a : α)
  | signal (a : α) (woken : Option α)
  | remove (gone : List α)
deriving DecidableEq

section Step
variable [DecidableEq α]

/-- What an event makes of a semaphore; `none` if it is not what a semaphore does. -/
def step : Event α → Sem α → Option (Sem α)
  | .acquire _, s => if 0 < s.value then some {s with value := s.value - 1} else none
  | .block a, s => if 0 < s.value then none else some {s with queue := s.queue ++ [a]}
  | .signal _ none, s => if s.queue = [] then some {s with value := s.value + 1} else none
  | .signal _ (some w), s => if s.queue.head? = some w then some {s with queue := s.queue.tail} else none
  | .remove gone, s => some {s with queue := s.queue.filter (· ∉ gone)}

/-! ### What a history says by itself -/

def isSignal : Event α → Bool
  | .signal _ _ => true
  | _ => false

/-- A `P` completes when it takes a unit or when a signal wakes its process. -/
def isCompletion : Event α → Bool
  | .acquire _ => true
  | .signal _ (some _) => true
  | _ => false

def signals (tr : List (Event α)) : Nat := tr.countP isSignal

def completions (tr : List (Event α)) : Nat := tr.countP isCompletion

def pend (q : List α) : Event α → List α
  | .block a => q ++ [a]
  | .signal _ (some _) => q.tail
  | .remove gone => q.filter (· ∉ gone)
  | _ => q

/-- Who is waiting, longest first: the processes that blocked, without those woken
and those gone since. -/
def pending (tr : List (Event α)) : List α := tr.foldl pend []

def hold (h : List α) : Event α → List α
  | .acquire a => a :: h
  | .signal a w => w.toList ++ h.erase a
  | _ => h

/-- Whose `P` has completed without a signal of theirs since. -/
def holders (tr : List (Event α)) : List α := tr.foldl hold []

/-- Every signal wakes the process that has been waiting longest, if any is. -/
def InOrder (tr : List (Event α)) : Prop :=
  ∀ pre a w post, tr = pre ++ .signal a w :: post → w = (pending pre).head?

/-- Signals come from holders. -/
def Paired (tr : List (Event α)) : Prop :=
  ∀ pre a w post, tr = pre ++ .signal a w :: post → a ∈ holders pre

theorem pending_snoc (tr : List (Event α)) (e : Event α) : pending (tr ++ [e]) = pend (pending tr) e := by
  simp [pending]

theorem holders_snoc (tr : List (Event α)) (e : Event α) : holders (tr ++ [e]) = hold (holders tr) e := by
  simp [holders]

omit [DecidableEq α] in
theorem signals_snoc (tr : List (Event α)) (e : Event α) :
    signals (tr ++ [e]) = signals tr + (if isSignal e then 1 else 0) := by
  simp [signals, List.countP_append, List.countP_singleton]

omit [DecidableEq α] in
theorem completions_snoc (tr : List (Event α)) (e : Event α) :
    completions (tr ++ [e]) = completions tr + (if isCompletion e then 1 else 0) := by
  simp [completions, List.countP_append, List.countP_singleton]

/-! ### The law -/

structure Law (v₀ : Int) (tr : List (Event α)) (s : Sem α) : Prop where
  nonneg : 0 ≤ s.value
  blocked : s.queue ≠ [] → s.value = 0
  balance : s.value = v₀ + signals tr - completions tr
  queue : s.queue = pending tr
  inOrder : InOrder tr

theorem inOrder_snoc {tr : List (Event α)} {e : Event α} (h : InOrder tr)
    (he : ∀ a w, e = .signal a w → w = (pending tr).head?) : InOrder (tr ++ [e]) := by
  intro pre a w post heq
  rcases List.eq_nil_or_concat' post with rfl | ⟨post', e', rfl⟩
  · obtain ⟨rfl, hlast⟩ := List.append_inj' heq rfl
    exact he a w (List.cons.inj hlast).1
  · rw [← List.cons_append, ← List.append_assoc] at heq
    exact h pre a w post' (List.append_inj' heq rfl).1

/-- One event keeps the law. -/
theorem law_step {v₀ : Int} {tr : List (Event α)} {s s' : Sem α} {e : Event α} (h : Law v₀ tr s)
    (hs : step e s = some s') : Law v₀ (tr ++ [e]) s' := by
  have hsig := signals_snoc tr e
  have hcom := completions_snoc tr e
  have hpend := pending_snoc tr e
  have hb := h.balance
  have hn := h.nonneg
  cases e with
  | acquire a =>
    by_cases hv : 0 < s.value
    · simp only [step, if_pos hv, Option.some.injEq] at hs
      subst hs
      refine ⟨by simp only; omega, fun hq => ?_, ?_, ?_, inOrder_snoc h.inOrder (by simp)⟩
      · have := h.blocked hq
        omega
      · simp only [hsig, hcom, isSignal, isCompletion, Bool.false_eq_true, if_false, if_true]
        omega
      · rw [hpend]
        exact h.queue
    · simp [step, hv] at hs
  | block a =>
    by_cases hv : 0 < s.value
    · simp [step, hv] at hs
    · simp only [step, if_neg hv, Option.some.injEq] at hs
      subst hs
      refine ⟨hn, fun _ => by simp only; omega, ?_, ?_, inOrder_snoc h.inOrder (by simp)⟩
      · simp only [hsig, hcom, isSignal, isCompletion, Bool.false_eq_true, if_false, Nat.add_zero]
        exact hb
      · rw [hpend, ← h.queue]
        rfl
  | signal a w =>
    cases w with
    | none =>
      by_cases hq : s.queue = []
      · simp only [step, if_pos hq, Option.some.injEq] at hs
        subst hs
        refine ⟨by simp only; omega, fun hne => absurd hq hne, ?_, ?_, ?_⟩
        · simp only [hsig, hcom, isSignal, isCompletion, Bool.false_eq_true, if_false, if_true]
          omega
        · rw [hpend]
          exact h.queue
        · apply inOrder_snoc h.inOrder
          rintro _ _ ⟨⟩
          rw [← h.queue, hq]
          rfl
      · simp [step, hq] at hs
    | some w =>
      by_cases hq : s.queue.head? = some w
      · simp only [step, if_pos hq, Option.some.injEq] at hs
        subst hs
        have hne : s.queue ≠ [] := by
          intro hnil
          rw [hnil] at hq
          cases hq
        have hzero := h.blocked hne
        refine ⟨hn, fun _ => hzero, ?_, ?_, ?_⟩
        · simp only [hsig, hcom, isSignal, isCompletion, if_true]
          omega
        · rw [hpend, ← h.queue]
          rfl
        · apply inOrder_snoc h.inOrder
          rintro _ _ ⟨⟩
          rw [← h.queue, hq]
      · simp [step, hq] at hs
  | remove gone =>
    simp only [step, Option.some.injEq] at hs
    subst hs
    refine ⟨hn, fun hq => ?_, ?_, ?_, inOrder_snoc h.inOrder (by simp)⟩
    · apply h.blocked
      intro hnil
      apply hq
      rw [hnil]
      rfl
    · simp only [hsig, hcom, isSignal, isCompletion, Bool.false_eq_true, if_false, Nat.add_zero]
      exact hb
    · rw [hpend, ← h.queue]
      rfl

/-- **The semaphore law**, for every history a semaphore takes. -/
theorem law {v₀ : Int} (hv : 0 ≤ v₀) (tr : List (Event α)) (s : Sem α)
    (h : exec step tr ⟨v₀, []⟩ = some s) : Law v₀ tr s := by
  induction tr using List.reverseRecOn generalizing s with
  | nil =>
    obtain rfl : (⟨v₀, []⟩ : Sem α) = s := by simpa [exec] using h
    refine ⟨hv, fun hq => absurd rfl hq, by simp [signals, completions], rfl, ?_⟩
    intro pre a w post heq
    simp at heq
  | append_singleton tr e ih =>
    rw [exec_append] at h
    obtain ⟨s₁, hs₁, he⟩ := Option.bind_eq_some_iff.mp h
    apply law_step (ih s₁ hs₁)
    simpa [exec] using he

/-! ### Mutual exclusion -/

theorem paired_init {tr : List (Event α)} {e : Event α} (h : Paired (tr ++ [e])) : Paired tr := by
  intro pre a w post heq
  apply h pre a w (post ++ [e])
  rw [heq, List.append_assoc, List.cons_append]

/-- Signalled by holders only, a semaphore has as many holders as units out. -/
theorem holders_length {tr : List (Event α)} (h : Paired tr) :
    ((holders tr).length : Int) = completions tr - signals tr := by
  induction tr using List.reverseRecOn with
  | nil => simp [holders, completions, signals]
  | append_singleton tr e ih =>
    have ih := ih (paired_init h)
    rw [holders_snoc, completions_snoc, signals_snoc]
    cases e with
    | acquire a =>
      simp only [hold, isCompletion, isSignal, List.length_cons, Bool.false_eq_true, if_false, if_true]
      omega
    | block a => simpa [hold, isCompletion, isSignal] using ih
    | remove gone => simpa [hold, isCompletion, isSignal] using ih
    | signal a w =>
      have ha : a ∈ holders tr := h tr a w [] rfl
      have hpos : 0 < (holders tr).length := List.length_pos_of_mem ha
      cases w with
      | none =>
        simp only [hold, isCompletion, isSignal, Option.toList, List.nil_append,
          List.length_erase_of_mem ha, Bool.false_eq_true, if_false, if_true]
        omega
      | some w =>
        simp only [hold, isCompletion, isSignal, Option.toList, List.cons_append, List.nil_append,
          List.length_cons, List.length_erase_of_mem ha, if_true]
        omega

/-- **Mutual exclusion**: a semaphore that starts at 1 has at most one holder. -/
theorem holders_length_le {tr : List (Event α)} {s : Sem α} (h : Paired tr)
    (hs : exec step tr ⟨1, []⟩ = some s) : (holders tr).length ≤ 1 := by
  have hlaw := law (by decide) tr s hs
  have hb := hlaw.balance
  have hn := hlaw.nonneg
  have hlen := holders_length h
  omega

end Step

end MultiPandOS.Semaphore
