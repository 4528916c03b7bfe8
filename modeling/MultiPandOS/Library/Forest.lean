import Mathlib.Data.Fintype.Card
import Mathlib.Data.List.Nodup
import Mathlib.Logic.Function.Basic
import Mathlib.Logic.Relation

/-! Forests kept as parent pointers and child lists.

`Links` holds both encodings of one relation. They agree in a well-formed forest
(`Wf`): the child lists list exactly the nodes that point back, once, and some
depth grows along every link, so there is no cycle. Hanging up a new leaf
(`attach`), cutting off a subtree (`detach`) and dropping a set of nodes closed
under children (`prune`) keep a forest well formed. -/
namespace MultiPandOS.Forest

structure Links (α : Type) where
  parent : α → Option α
  child : α → List α

variable {α : Type} [DecidableEq α]

structure Wf (f : Links α) : Prop where
  child : ∀ p q, q ∈ f.child p ↔ f.parent q = some p
  nodup : ∀ p, (f.child p).Nodup
  acyclic : ∃ depth : α → Nat, ∀ p q, f.parent q = some p → depth p < depth q

/-- `q` is in the subtree of `p`, itself included. -/
def Below (f : Links α) : α → α → Prop := Relation.ReflTransGen fun p q => q ∈ f.child p

def attach (p c : α) (f : Links α) : Links α :=
  { parent := Function.update f.parent c (some p)
    child := Function.update f.child p (c :: f.child p) }

def detach (c : α) (f : Links α) : Links α :=
  { parent := Function.update f.parent c none
    child := fun p => (f.child p).erase c }

def prune (ks : List α) (f : Links α) : Links α :=
  { parent := fun x => if x ∈ ks then none else f.parent x
    child := fun x => if x ∈ ks then [] else (f.child x).filter (· ∉ ks) }

/-- With a node, its children. -/
def Closed (f : Links α) (ks : List α) : Prop := ∀ x ∈ ks, ∀ y ∈ f.child x, y ∈ ks

/-! ### Operations -/

omit [DecidableEq α] in
theorem Wf.parent_ne_self {f : Links α} (h : Wf f) {p : α} : f.parent p ≠ some p := by
  obtain ⟨depth, hd⟩ := h.acyclic
  intro hp
  exact Nat.lt_irrefl _ (hd p p hp)

/-- A new leaf: it has neither parent nor children yet. -/
theorem Wf.attach {f : Links α} (h : Wf f) {p c : α} (hpc : p ≠ c) (hparent : f.parent c = none)
    (hchild : f.child c = []) : Wf (attach p c f) := by
  obtain ⟨depth, hd⟩ := h.acyclic
  have hnew : ∀ q, c ∉ f.child q := by
    intro q hq
    rw [h.child, hparent] at hq
    cases hq
  refine ⟨fun a b => ?_, fun a => ?_, ⟨Function.update depth c (depth p + 1), fun a b hab => ?_⟩⟩
  · simp only [Forest.attach]
    by_cases hap : a = p
    · subst hap
      by_cases hbc : b = c
      · subst hbc
        simp
      · simp [hbc, h.child]
    · by_cases hbc : b = c
      · subst hbc
        simp [hap, hnew a, Ne.symm hap]
      · simp [hap, hbc, h.child]
  · simp only [Forest.attach]
    by_cases hap : a = p
    · subst hap
      simpa using ⟨hnew a, h.nodup a⟩
    · simpa [hap] using h.nodup a
  · simp only [Forest.attach] at hab
    by_cases hbc : b = c
    · subst hbc
      obtain rfl : p = a := by simpa using hab
      simp [hpc]
    · have hab' : f.parent b = some a := by simpa [hbc] using hab
      have hac : a ≠ c := by
        rintro rfl
        rw [← h.child, hchild] at hab'
        cases hab'
      simpa [hac, hbc] using hd a b hab'

theorem Wf.detach {f : Links α} (h : Wf f) (c : α) : Wf (detach c f) := by
  obtain ⟨depth, hd⟩ := h.acyclic
  refine ⟨fun a b => ?_, fun a => (h.nodup a).erase c, ⟨depth, fun a b hab => ?_⟩⟩
  · simp only [Forest.detach, (h.nodup a).mem_erase_iff]
    by_cases hbc : b = c
    · subst hbc
      simp
    · simp [hbc, h.child]
  · simp only [Forest.detach] at hab
    by_cases hbc : b = c
    · subst hbc
      simp at hab
    · exact hd a b (by simpa [hbc] using hab)

theorem Wf.prune {f : Links α} (h : Wf f) {ks : List α} (hc : Closed f ks) : Wf (prune ks f) := by
  obtain ⟨depth, hd⟩ := h.acyclic
  refine ⟨fun a b => ?_, fun a => ?_, ⟨depth, fun a b hab => ?_⟩⟩
  · simp only [Forest.prune]
    by_cases ha : a ∈ ks
    · simp only [if_pos ha, List.not_mem_nil, false_iff]
      by_cases hb : b ∈ ks
      · simp [hb]
      · rw [if_neg hb, ← h.child]
        exact fun hab => hb (hc a ha b hab)
    · by_cases hb : b ∈ ks
      · simp [ha, hb]
      · simp [ha, hb, h.child]
  · simp only [Forest.prune]
    split
    · exact List.nodup_nil
    · exact (h.nodup a).filter _
  · simp only [Forest.prune] at hab
    split at hab
    · cases hab
    · exact hd a b hab

/-- A node without a parent is in no child list. -/
theorem Wf.detach_root {f : Links α} (h : Wf f) {c : α} (hc : f.parent c = none) :
    Forest.detach c f = f := by
  have hnot : ∀ p, c ∉ f.child p := by
    intro p hp
    rw [h.child, hc] at hp
    cases hp
  simp only [Forest.detach, ← hc, Function.update_eq_self]
  congr 1
  funext p
  exact List.erase_of_not_mem (hnot p)

theorem prune_nil (f : Links α) : prune [] f = f := by
  simp [prune]

/-- Dropping a leaf is cutting it off. -/
theorem Wf.prune_leaf {f : Links α} (h : Wf f) {c : α} (hc : f.child c = []) :
    Forest.prune [c] f = Forest.detach c f := by
  simp only [Forest.prune, Forest.detach, List.mem_singleton, Links.mk.injEq]
  constructor
  · funext x
    by_cases hx : x = c <;> simp [hx]
  · funext x
    by_cases hx : x = c
    · simp [hx, hc]
    · rw [if_neg hx, (h.nodup x).erase_eq_filter]
      apply List.filter_congr
      intro y _
      by_cases hy : y = c <;> simp [hy]

theorem prune_prune (ks ls : List α) (f : Links α) : prune ls (prune ks f) = prune (ks ++ ls) f := by
  simp only [prune, Links.mk.injEq]
  constructor
  · funext x
    by_cases hk : x ∈ ks <;> by_cases hl : x ∈ ls <;> simp [hk, hl]
  · funext x
    by_cases hk : x ∈ ks <;> by_cases hl : x ∈ ls <;> simp [hk, hl, List.filter_filter, Bool.and_comm]

theorem filter_erase_of_mem {c : α} {ks : List α} (hc : c ∈ ks) (l : List α) :
    (l.erase c).filter (· ∉ ks) = l.filter (· ∉ ks) := by
  induction l with
  | nil => rfl
  | cons y rest ih =>
    by_cases hy : y = c
    · subst hy
      simp [hc]
    · rw [List.erase_cons_tail (by simpa using hy), List.filter_cons, List.filter_cons, ih]

/-- A node that goes anyway may be cut off first. -/
theorem prune_detach {c : α} {ks : List α} (hc : c ∈ ks) (f : Links α) :
    prune ks (detach c f) = prune ks f := by
  simp only [prune, detach, Links.mk.injEq]
  constructor
  · funext x
    by_cases hx : x = c
    · subst hx
      simp [hc]
    · simp [hx]
  · funext x
    rw [filter_erase_of_mem hc]

/-! ### Subtrees -/

omit [DecidableEq α] in
theorem Below.mono {f g : Links α} (hle : ∀ x, ∀ y ∈ g.child x, y ∈ f.child x) {x y : α}
    (h : Below g x y) : Below f x y := by
  induction h with
  | refl => exact .refl
  | tail _ hstep ih => exact ih.tail (hle _ _ hstep)

theorem child_detach_sub (c : α) (f : Links α) : ∀ x, ∀ y ∈ (detach c f).child x, y ∈ f.child x :=
  fun _ _ hy => List.mem_of_mem_erase hy

theorem child_prune_sub (ks : List α) (f : Links α) : ∀ x, ∀ y ∈ (prune ks f).child x, y ∈ f.child x := by
  intro x y hy
  simp only [prune] at hy
  split at hy
  · cases hy
  · exact (List.mem_filter.mp hy).1

omit [DecidableEq α] in
/-- A parent is not below its child. -/
theorem Wf.not_below_child {f : Links α} (h : Wf f) {p c : α} (hc : c ∈ f.child p) : ¬ Below f c p := by
  obtain ⟨depth, hd⟩ := h.acyclic
  have hmono : ∀ x y, Below f x y → depth x ≤ depth y := by
    intro x y hxy
    induction hxy with
    | refl => exact Nat.le_refl _
    | tail _ hstep ih => exact Nat.le_trans ih (Nat.le_of_lt (hd _ _ ((h.child _ _).mp hstep)))
  intro hb
  have hlt := hd p c ((h.child p c).mp hc)
  have hle := hmono c p hb
  omega

omit [DecidableEq α] in
/-- A closed set holds the subtree of each of its nodes. -/
theorem Closed.below {f : Links α} {ks : List α} (hc : Closed f ks) {x y : α} (hx : x ∈ ks)
    (h : Below f x y) : y ∈ ks := by
  induction h with
  | refl => exact hx
  | tail _ hstep ih => exact hc _ ih _ hstep

/-- Closed after what is closed has gone. -/
theorem Closed.append {f : Links α} {ks ls : List α} (hk : Closed f ks) (hl : Closed (prune ks f) ls)
    (hdisj : ∀ x ∈ ls, x ∉ ks) : Closed f (ks ++ ls) := by
  intro x hx y hy
  rw [List.mem_append]
  rcases List.mem_append.mp hx with hx | hx
  · exact Or.inl (hk x hx y hy)
  · by_cases hyk : y ∈ ks
    · exact Or.inl hyk
    · exact Or.inr (hl x hx y (by simp [prune, hdisj x hx, hy, hyk]))

theorem Closed.of_detach {f : Links α} {ks : List α} {c : α} (hc : c ∈ ks) (h : Closed (detach c f) ks) :
    Closed f ks := by
  intro x hx y hy
  by_cases hyc : y = c
  · exact hyc ▸ hc
  · exact h x hx y ((List.mem_erase_of_ne hyc).mpr hy)

/-! ### How many links there are -/

/-- The number of nodes that hang under another. -/
def linked [Fintype α] (f : Links α) : Nat := (Finset.univ.filter fun q => (f.parent q).isSome).card

omit [DecidableEq α] in
theorem linked_le [Fintype α] (f : Links α) : linked f ≤ Fintype.card α := Finset.card_le_univ _

omit [DecidableEq α] in
theorem linked_mono [Fintype α] {f g : Links α} (h : ∀ q, (g.parent q).isSome → (f.parent q).isSome) :
    linked g ≤ linked f := by
  apply Finset.card_le_card
  intro q hq
  simp only [Finset.mem_filter, Finset.mem_univ, true_and] at hq ⊢
  exact h q hq

theorem linked_prune_le [Fintype α] (ks : List α) (f : Links α) : linked (prune ks f) ≤ linked f := by
  apply linked_mono
  intro q hq
  by_cases hk : q ∈ ks
  · simp [prune, hk] at hq
  · simpa [prune, hk] using hq

theorem linked_detach_lt [Fintype α] {f : Links α} {c : α} (hc : (f.parent c).isSome) :
    linked (detach c f) < linked f := by
  apply Finset.card_lt_card
  refine ⟨fun q hq => ?_, fun hsub => ?_⟩
  · have hq' : (Function.update f.parent c none q).isSome := (Finset.mem_filter.mp hq).2
    refine Finset.mem_filter.mpr ⟨Finset.mem_univ q, ?_⟩
    by_cases hqc : q = c
    · rwa [hqc]
    · simpa [hqc] using hq'
  · have hmem := (Finset.mem_filter.mp (hsub (Finset.mem_filter.mpr ⟨Finset.mem_univ c, hc⟩))).2
    have hnone : (detach c f).parent c = none := by simp [detach]
    rw [hnone] at hmem
    cases hmem

end MultiPandOS.Forest
