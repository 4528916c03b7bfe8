import Mathlib.Order.Lattice
import Mathlib.Data.List.Basic

/-! Priority queues that are not always sorted.

`insert` looks for the first element of lower priority, which finds the right place in
a sorted list. An element put at the end without looking breaks the order; what
survives is `Ordered`: an element that was inserted is preceded by none of lower
priority, and by none of its own priority that was inserted later. -/
namespace MultiPandOS.PriorityQueue

variable {α ρ : Type} [LinearOrder ρ]

/-- Before the first element of lower priority, at the end if there is none. -/
def insert (prio : α → ρ) (a : α) : List α → List α
  | [] => [a]
  | x :: rest => if prio x < prio a then a :: x :: rest else x :: insert prio a rest

/-- When an element entered, and whether by `insert`. -/
structure Entry where
  time : Nat
  inserted : Bool

/-- `x` may precede `y`. -/
def Before (prio : α → ρ) (entry : α → Entry) (x y : α) : Prop :=
  (entry y).inserted = true → prio y ≤ prio x ∧
    ((entry x).inserted = true → prio x = prio y → (entry x).time < (entry y).time)

def Ordered (prio : α → ρ) (entry : α → Entry) (q : List α) : Prop := q.Pairwise (Before prio entry)

variable {prio prio' : α → ρ} {entry entry' : α → Entry} {q : List α} {a : α}

theorem insert_perm (prio : α → ρ) (a : α) (q : List α) : (insert prio a q).Perm (a :: q) := by
  induction q with
  | nil => exact List.Perm.refl _
  | cons x rest ih =>
    unfold insert
    split
    · exact List.Perm.refl _
    · exact (ih.cons x).trans (List.Perm.swap a x rest)

theorem mem_insert {x : α} : x ∈ insert prio a q ↔ x = a ∨ x ∈ q := by
  rw [(insert_perm prio a q).mem_iff, List.mem_cons]

theorem insert_eq_takeWhile (prio : α → ρ) (a : α) (q : List α) :
    insert prio a q =
      q.takeWhile (fun x => decide (prio a ≤ prio x)) ++ a :: q.dropWhile (fun x => decide (prio a ≤ prio x)) := by
  induction q with
  | nil => rfl
  | cons x rest ih =>
    by_cases hlt : prio x < prio a
    · have hle : ¬ prio a ≤ prio x := not_le.mpr hlt
      simp [insert, hlt, hle]
    · have hle : prio a ≤ prio x := not_lt.mp hlt
      simp [insert, hlt, hle, ih]

/-- What precedes the first element of lower priority stays in front. -/
theorem insert_append {front : List α} (hfront : ∀ x ∈ front, prio a ≤ prio x) (back : List α) :
    insert prio a (front ++ back) = front ++ insert prio a back := by
  induction front with
  | nil => rfl
  | cons x rest ih =>
    have hx : ¬ prio x < prio a := not_lt.mpr (hfront x (List.mem_cons_self ..))
    simp only [List.cons_append, insert, hx, if_false]
    rw [ih fun y hy => hfront y (List.mem_cons_of_mem x hy)]

/-- The last to be inserted. -/
theorem Ordered.insert (h : Ordered prio entry q) (hlast : ∀ x ∈ q, (entry x).time < (entry a).time) :
    Ordered prio entry (insert prio a q) := by
  induction q with
  | nil => exact List.pairwise_singleton _ a
  | cons x rest ih =>
    obtain ⟨hx, hrest⟩ := List.pairwise_cons.mp h
    unfold PriorityQueue.insert
    by_cases hlt : prio x < prio a
    · rw [if_pos hlt]
      refine List.pairwise_cons.mpr ⟨fun y hy hins => ?_, h⟩
      have hy' : prio y ≤ prio x := by
        rcases List.mem_cons.mp hy with rfl | hy
        · exact le_refl _
        · exact (hx y hy hins).1
      have hya : prio y < prio a := lt_of_le_of_lt hy' hlt
      exact ⟨le_of_lt hya, fun _ heq => absurd heq (ne_of_gt hya)⟩
    · rw [if_neg hlt]
      refine List.pairwise_cons.mpr ⟨fun y hy => ?_, ih hrest fun y hy => hlast y (List.mem_cons_of_mem x hy)⟩
      rcases mem_insert.mp hy with rfl | hy
      · exact fun _ => ⟨not_lt.mp hlt, fun _ _ => hlast x (List.mem_cons_self ..)⟩
      · exact hx y hy

/-- At the end, without looking. -/
theorem Ordered.append (h : Ordered prio entry q) (ha : (entry a).inserted = false) :
    Ordered prio entry (q ++ [a]) := by
  refine List.pairwise_append.mpr ⟨h, List.pairwise_singleton _ a, fun x _ y hy hins => ?_⟩
  rw [List.mem_singleton.mp hy, ha] at hins
  cases hins

theorem Ordered.sublist {q' : List α} (h : Ordered prio entry q) (hsub : q'.Sublist q) :
    Ordered prio entry q' := List.Pairwise.sublist hsub h

/-- What becomes of elements outside of the queue does not matter. -/
theorem Ordered.congr (h : Ordered prio entry q) (hprio : ∀ x ∈ q, prio' x = prio x)
    (hentry : ∀ x ∈ q, entry' x = entry x) : Ordered prio' entry' q := by
  refine List.Pairwise.imp_of_mem (fun {x y} hx hy hxy => ?_) h
  unfold Before
  rw [hprio x hx, hprio y hy, hentry x hx, hentry y hy]
  exact hxy

/-- Nothing that precedes an element comes behind it by an insertion. -/
theorem insert_split (prio : α → ρ) (a p : α) (front back : List α) :
    ∃ front' back', insert prio a (front ++ p :: back) = front' ++ p :: back' ∧ ∀ x ∈ front, x ∈ front' := by
  induction front with
  | nil =>
    unfold insert
    show ∃ front' back', (if prio p < prio a then a :: p :: back else p :: insert prio a back) = _ ∧ _
    split
    · exact ⟨[a], back, rfl, fun x hx => (List.not_mem_nil hx).elim⟩
    · exact ⟨[], insert prio a back, rfl, fun x hx => hx⟩
  | cons y rest ih =>
    obtain ⟨front', back', heq, hsub⟩ := ih
    show ∃ front' back', (if prio y < prio a then a :: y :: (rest ++ p :: back)
      else y :: insert prio a (rest ++ p :: back)) = _ ∧ _
    split
    · exact ⟨a :: y :: rest, back, rfl, fun x hx => List.mem_cons_of_mem a hx⟩
    · refine ⟨y :: front', back', by rw [heq]; rfl, fun x hx => ?_⟩
      rcases List.mem_cons.mp hx with rfl | hx
      · exact List.mem_cons_self ..
      · exact List.mem_cons_of_mem y (hsub x hx)

/-! ### One after the other -/

/-- The first of `xs` is inserted first. -/
def insertAll (prio : α → ρ) (xs q : List α) : List α := xs.foldl (fun q x => insert prio x q) q

theorem sublist_insert (prio : α → ρ) (a : α) (q : List α) : q.Sublist (insert prio a q) := by
  induction q with
  | nil => exact List.nil_sublist _
  | cons x rest ih =>
    unfold insert
    split
    · exact List.sublist_cons_self a (x :: rest)
    · exact ih.cons_cons x

theorem insertAll_perm (prio : α → ρ) (xs q : List α) : (insertAll prio xs q).Perm (xs ++ q) := by
  induction xs generalizing q with
  | nil => exact List.Perm.refl _
  | cons x rest ih =>
    calc
      (insertAll prio rest (insert prio x q)).Perm (rest ++ insert prio x q) := ih _
      _ |>.Perm (rest ++ x :: q) := (insert_perm prio x q).append_left rest
      _ |>.Perm (x :: rest ++ q) := List.perm_middle

/-- Those already there stay in their order. -/
theorem sublist_insertAll (prio : α → ρ) (xs q : List α) : q.Sublist (insertAll prio xs q) := by
  induction xs generalizing q with
  | nil => exact List.Sublist.refl _
  | cons x rest ih => exact (sublist_insert prio x q).trans (ih _)

/-- Nobody is overtaken by those of no higher priority. -/
theorem insertAll_last {xs : List α} (h : ∀ x ∈ xs, ∀ y ∈ q ++ xs, prio x ≤ prio y) : insertAll prio xs q = q ++ xs := by
  induction xs generalizing q with
  | nil => simp [insertAll]
  | cons x rest ih =>
    have hx : insert prio x q = q ++ [x] := by
      have hfront : ∀ y ∈ q, prio x ≤ prio y := fun y hy => h x List.mem_cons_self y (List.mem_append_left _ hy)
      simpa [insert] using insert_append hfront []
    have hrest : insertAll prio rest (q ++ [x]) = q ++ [x] ++ rest :=
      ih fun y hy z hz => h y (List.mem_cons_of_mem x hy) z (by simpa using hz)
    calc
      insertAll prio (x :: rest) q = insertAll prio rest (insert prio x q) := rfl
      _ = q ++ [x] ++ rest := by rw [hx, hrest]
      _ = q ++ x :: rest := by simp

theorem Ordered.insertAll {xs : List α} (h : Ordered prio entry q)
    (hxs : xs.Pairwise fun x y => (entry x).time < (entry y).time)
    (hlast : ∀ x ∈ q, ∀ y ∈ xs, (entry x).time < (entry y).time) : Ordered prio entry (insertAll prio xs q) := by
  induction xs generalizing q with
  | nil => exact h
  | cons x rest ih =>
    obtain ⟨hx, hrest⟩ := List.pairwise_cons.mp hxs
    refine ih (h.insert fun y hy => hlast y hy x (List.mem_cons_self ..)) hrest fun y hy z hz => ?_
    rcases mem_insert.mp hy with rfl | hy
    · exact hx z hz
    · exact hlast y hy z (List.mem_cons_of_mem x hz)

/-- Those of equal priority come in the order in which they were inserted. -/
theorem turns_insertAll [DecidableEq α] (prio : α → ρ) {xs q : List α} (hnd : (xs ++ q).Nodup) (v : ρ) :
    (xs.filter fun x => decide (prio x = v)).Sublist (insertAll prio xs q) := by
  obtain ⟨hxs, -, hdisjoint⟩ := List.nodup_append.mp hnd
  have hq : ∀ x ∈ q, x ∉ xs := fun x hx hxs => hdisjoint x hxs x hx rfl
  let entry : α → Entry := fun x => if x ∈ xs then ⟨xs.idxOf x + 1, true⟩ else ⟨0, false⟩
  have hentry : ∀ x ∈ xs, entry x = ⟨xs.idxOf x + 1, true⟩ := fun x hx => if_pos hx
  have hearlier : xs.Pairwise fun x y => (entry x).time < (entry y).time := by
    refine List.pairwise_iff_getElem.mpr fun i j hi hj hij => ?_
    rw [hentry _ (List.getElem_mem hi), hentry _ (List.getElem_mem hj), hxs.idxOf_getElem i hi,
      hxs.idxOf_getElem j hj]
    exact Nat.succ_lt_succ hij
  have hstart : Ordered prio entry q := by
    refine List.pairwise_of_forall_mem_list fun x _ y hy hins => ?_
    rw [show entry y = ⟨0, false⟩ from if_neg (hq y hy)] at hins
    cases hins
  have hordered : Ordered prio entry (insertAll prio xs q) := by
    refine hstart.insertAll hearlier fun x hx y hy => ?_
    rw [hentry y hy, show entry x = ⟨0, false⟩ from if_neg (hq x hx)]
    exact Nat.succ_pos _
  -- what came by insertion, of the one priority, is sorted by time in both lists
  let turn : α → Bool := fun x => decide (x ∈ xs) && decide (prio x = v)
  have hperm : ((insertAll prio xs q).filter turn).Perm (xs.filter fun x => decide (prio x = v)) := by
    refine ((insertAll_perm prio xs q).filter turn).trans ?_
    have hnone : q.filter turn = [] := List.filter_eq_nil_iff.mpr fun x hx => by simp [turn, hq x hx]
    have hsame : xs.filter turn = xs.filter fun x => decide (prio x = v) :=
      List.filter_congr fun x hx => by simp [turn, hx]
    rw [List.filter_append, hnone, hsame, List.append_nil]
  have hsorted : ((insertAll prio xs q).filter turn).Pairwise fun x y => (entry x).time < (entry y).time := by
    refine List.Pairwise.imp_of_mem (fun {x y} hx hy hxy => ?_) (hordered.sublist List.filter_sublist)
    obtain ⟨hx, hxv⟩ : x ∈ xs ∧ prio x = v := by simpa [turn] using (List.mem_filter.mp hx).2
    obtain ⟨hy, hyv⟩ : y ∈ xs ∧ prio y = v := by simpa [turn] using (List.mem_filter.mp hy).2
    exact (hxy (by rw [hentry y hy])).2 (by rw [hentry x hx]) (hxv.trans hyv.symm)
  have heq := hperm.eq_of_pairwise (fun x y _ _ hxy hyx => absurd hxy (Nat.lt_asymm hyx)) hsorted
    (hearlier.sublist List.filter_sublist)
  rw [← heq]
  exact List.filter_sublist

end MultiPandOS.PriorityQueue
