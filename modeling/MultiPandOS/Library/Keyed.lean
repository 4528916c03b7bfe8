import Mathlib.Data.Set.Card
import Mathlib.Logic.Function.Basic

/-! Maps from keys to FIFO queues.

A key without an entry has the empty queue, and an element is in one queue at most
(`Apart`). There is room for `cap` keys: inserting under a further one is refused and
changes nothing. `Op.apply` says what each operation does and answers, `exec` does
them one after the other. -/
namespace MultiPandOS.Keyed

variable {κ α : Type} [DecidableEq κ] [DecidableEq α]

abbrev Queues (κ α : Type) := κ → List α

/-- The keys that have somebody in their queue. -/
def active (m : Queues κ α) : Set κ := {k | m k ≠ []}

inductive Op (κ α : Type) where
  | insert (k : κ) (a : α)
  | remove (k : κ)
  | out (a : α)
  | head (k : κ)

/-- `refused true` when no room is left. -/
inductive Reply (α : Type) where
  | refused (full : Bool)
  | element (a : Option α)

open Classical in
/-- `out` takes its element out of wherever it is. -/
noncomputable def Op.apply (cap : Nat) : Op κ α → Queues κ α → Queues κ α × Reply α
  | .insert k a, m =>
    if m k = [] ∧ (active m).ncard = cap then (m, .refused true)
    else (Function.update m k (m k ++ [a]), .refused false)
  | .remove k, m => (Function.update m k (m k).tail, .element (m k).head?)
  | .out a, m => (fun k => (m k).erase a, .element (if ∃ k, a ∈ m k then some a else none))
  | .head k, m => (m, .element (m k).head?)

/-- The queues after the operations, and what each of them answered. -/
noncomputable def exec (cap : Nat) (m : Queues κ α) (ops : List (Op κ α)) : Queues κ α × List (Reply α) :=
  ops.foldl (fun r op => ((op.apply cap r.1).1, r.2 ++ [(op.apply cap r.1).2])) (m, [])

theorem exec_snoc (cap : Nat) (m : Queues κ α) (ops : List (Op κ α)) (op : Op κ α) :
    exec cap m (ops ++ [op]) =
      ((op.apply cap (exec cap m ops).1).1, (exec cap m ops).2 ++ [(op.apply cap (exec cap m ops).1).2]) := by
  simp only [exec, List.foldl_append, List.foldl_cons, List.foldl_nil]

/-- Nobody is in two queues, or twice in one. -/
structure Apart (m : Queues κ α) : Prop where
  nodup : ∀ k, (m k).Nodup
  unique : ∀ k k' a, a ∈ m k → a ∈ m k' → k = k'

theorem Apart.erase {m : Queues κ α} (h : Apart m) {k : κ} {a : α} (ha : a ∈ m k) :
    (fun k' => (m k').erase a) = Function.update m k ((m k).erase a) := by
  funext k'
  by_cases hk : k' = k
  · subst hk
    simp
  · have hnot : a ∉ m k' := fun ha' => hk (h.unique k' k a ha' ha)
    rw [List.erase_of_not_mem hnot, Function.update_of_ne hk]

omit [DecidableEq α] in
theorem update_tail_of_nil {m : Queues κ α} {k : κ} (h : m k = []) : Function.update m k (m k).tail = m := by
  rw [h, List.tail_nil, ← h, Function.update_eq_self]

end MultiPandOS.Keyed
