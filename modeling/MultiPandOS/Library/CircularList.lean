import Mathlib.Data.List.Chain
import Mathlib.Logic.Function.Basic

/-! Circular doubly linked lists.

The memory of a list is a `next` and a `prev` for every node. `Circular L head xs`
says that following `next` from `head` visits `xs` and comes back, that `prev` goes
the other way round and that no node is met twice; `head` is a node like the others
and carries no element. Nodes are spliced in and out by `join`, which makes two nodes
neighbours: `Circular.insert` and `Circular.remove` say what that does to the list at
any place, `Circular.congr` that a list whose nodes are not written to stays as it is.
-/
namespace MultiPandOS.CircularList

variable {α : Type}

structure Link (α : Type) where
  next : α
  prev : α
deriving DecidableEq

abbrev Links (α : Type) := α → Link α

/-- Each is linked to the other. -/
def Joined (L : Links α) (a b : α) : Prop := (L a).next = b ∧ (L b).prev = a

instance [DecidableEq α] (L : Links α) (a b : α) : Decidable (Joined L a b) :=
  inferInstanceAs (Decidable (_ ∧ _))

structure Circular (L : Links α) (head : α) (xs : List α) : Prop where
  nodup : (head :: xs).Nodup
  joined : (head :: xs ++ [head]).IsChain (Joined L)

section Shape
variable {L L' : Links α} {head a b : α} {xs ys : List α}

/-- Only the `next` of what has a successor and the `prev` of what has a predecessor
matter to a chain. -/
theorem isChain_congr {l : List α} (h : l.IsChain (Joined L))
    (hnext : ∀ x ∈ l.dropLast, (L' x).next = (L x).next)
    (hprev : ∀ x ∈ l.tail, (L' x).prev = (L x).prev) : l.IsChain (Joined L') := by
  induction h with
  | nil => exact .nil
  | singleton x => exact .singleton x
  | @cons_cons x y rest hxy _ ih =>
    have hx : (L' x).next = (L x).next := hnext x (by simp)
    have hy : (L' y).prev = (L y).prev := hprev y (by simp)
    refine .cons_cons ⟨hx.trans hxy.1, hy.trans hxy.2⟩ (ih (fun z hz => ?_) fun z hz => ?_)
    · exact hnext z (by rw [List.dropLast_cons_cons]; exact List.mem_cons_of_mem x hz)
    · exact hprev z (List.mem_cons_of_mem y hz)

theorem Circular.congr (h : Circular L head xs) (hlink : ∀ x ∈ head :: xs, L' x = L x) :
    Circular L' head xs := by
  have hmem : ∀ x ∈ head :: xs ++ [head], L' x = L x := by
    intro x hx
    rcases List.mem_append.mp hx with hx | hx
    · exact hlink x hx
    · rw [List.mem_singleton.mp hx]
      exact hlink head (List.mem_cons_self ..)
  refine ⟨h.nodup, isChain_congr h.joined (fun x hx => ?_) fun x hx => ?_⟩
  · rw [hmem x (List.dropLast_subset _ hx)]
  · rw [hmem x (List.mem_of_mem_tail hx)]

/-- A list is two chains that meet at each place. -/
theorem circular_append : Circular L head (xs ++ ys) ↔
    (head :: (xs ++ ys)).Nodup ∧ (head :: xs).IsChain (Joined L) ∧ (ys ++ [head]).IsChain (Joined L) ∧
      ∀ a ∈ (head :: xs).getLast?, ∀ b ∈ (ys ++ [head]).head?, Joined L a b := by
  have hsplit : head :: (xs ++ ys) ++ [head] = (head :: xs) ++ (ys ++ [head]) := by simp
  constructor
  · intro h
    have hj := h.joined
    rw [hsplit] at hj
    exact ⟨h.nodup, List.isChain_append.mp hj⟩
  · rintro ⟨hnd, hj⟩
    refine ⟨hnd, ?_⟩
    rw [hsplit]
    exact List.isChain_append.mpr hj

theorem Circular.joined_at (h : Circular L head (xs ++ ys)) (ha : (head :: xs).getLast? = some a)
    (hb : (ys ++ [head]).head? = some b) : Joined L a b :=
  (circular_append.mp h).2.2.2 a ha b hb

/-- The node before any place. -/
theorem exists_getLast? (head : α) (xs : List α) : ∃ a, (head :: xs).getLast? = some a :=
  ⟨_, List.getLast?_eq_some_getLast (List.cons_ne_nil head xs)⟩

/-- The node behind any place. -/
theorem exists_head? (ys : List α) (head : α) : ∃ b, (ys ++ [head]).head? = some b := by
  cases ys with
  | nil => exact ⟨head, rfl⟩
  | cons y rest => exact ⟨y, rfl⟩

theorem mem_of_getLast? (ha : (head :: xs).getLast? = some a) (ys : List α) : a ∈ head :: (xs ++ ys) :=
  List.mem_append_left ys (List.mem_of_getLast? ha)

theorem mem_of_head? (hb : (ys ++ [head]).head? = some b) (xs : List α) : b ∈ head :: (xs ++ ys) := by
  rcases List.mem_append.mp (List.mem_of_head? hb) with hb | hb
  · exact List.mem_cons_of_mem head (List.mem_append_right xs hb)
  · rw [List.mem_singleton.mp hb]
    exact List.mem_cons_self ..

/-- The nodes of a list with one more element. -/
theorem nodes_perm (head n : α) (xs ys : List α) :
    (head :: (xs ++ n :: ys)).Perm (n :: head :: (xs ++ ys)) :=
  (List.perm_middle.cons head).trans (List.Perm.swap n head (xs ++ ys))

/-- The first node, the `head` itself if the list is empty. -/
theorem Circular.next_head (h : Circular L head xs) (hb : (xs ++ [head]).head? = some b) :
    (L head).next = b :=
  (Circular.joined_at (show Circular L head ([] ++ xs) from h) rfl hb).1

theorem Circular.next_eq_head (h : Circular L head xs) : (L head).next = head ↔ xs = [] := by
  cases xs with
  | nil => simp [h.next_head (b := head) rfl]
  | cons x rest =>
    rw [h.next_head (b := x) rfl]
    have hx : x ≠ head := by
      rintro rfl
      exact (List.nodup_cons.mp h.nodup).1 (List.mem_cons_self ..)
    simp [hx]

/-- A node linked to itself both ways is the head of an empty list. -/
theorem circular_nil : Circular L head [] ↔ L head = ⟨head, head⟩ := by
  have hchain : (head :: [] ++ [head]).IsChain (Joined L) ↔ Joined L head head := List.isChain_pair
  constructor
  · intro h
    obtain ⟨hn, hp⟩ := hchain.mp h.joined
    cases hl : L head with
    | mk next prev =>
      rw [hl] at hn hp
      rw [show next = head from hn, show prev = head from hp]
  · intro h
    exact ⟨by simp, hchain.mpr ⟨by rw [h], by rw [h]⟩⟩

/-- The part before a place, when what is written is the `next` of its last node. -/
theorem isChain_front (h : (head :: xs).IsChain (Joined L)) (hnd : (head :: xs).Nodup)
    (ha : (head :: xs).getLast? = some a) (hnext : ∀ x ∈ head :: xs, x ≠ a → (L' x).next = (L x).next)
    (hprev : ∀ x ∈ xs, (L' x).prev = (L x).prev) : (head :: xs).IsChain (Joined L') := by
  refine isChain_congr h (fun x hx => ?_) hprev
  obtain ⟨front, hfront⟩ := List.getLast?_eq_some_iff.mp ha
  rw [hfront, List.dropLast_concat] at hx
  have hxa : x ≠ a := by
    rw [hfront] at hnd
    rintro rfl
    exact (List.nodup_append.mp hnd).2.2 x hx x (List.mem_singleton_self x) rfl
  exact hnext x (by rw [hfront]; exact List.mem_append_left [a] hx) hxa

/-- The part behind a place, when what is written is the `prev` of its first node. -/
theorem isChain_back (h : (ys ++ [head]).IsChain (Joined L)) (hnd : (ys ++ [head]).Nodup)
    (hb : (ys ++ [head]).head? = some b) (hnext : ∀ x ∈ ys, (L' x).next = (L x).next)
    (hprev : ∀ x ∈ ys ++ [head], x ≠ b → (L' x).prev = (L x).prev) :
    (ys ++ [head]).IsChain (Joined L') := by
  refine isChain_congr h (fun x hx => hnext x (by rwa [List.dropLast_concat] at hx)) fun x hx => ?_
  obtain ⟨back, hback⟩ := List.head?_eq_some_iff.mp hb
  rw [hback, List.tail_cons] at hx
  have hxb : x ≠ b := by
    rw [hback] at hnd
    rintro rfl
    exact (List.nodup_cons.mp hnd).1 hx
  exact hprev x (by rw [hback]; exact List.mem_cons_of_mem b hx) hxb

/-- Both parts survive writes to the `next` of `a` and the `prev` of `b` only. -/
theorem isChain_parts (hnd : (head :: (xs ++ ys)).Nodup) (hfront : (head :: xs).IsChain (Joined L))
    (hback : (ys ++ [head]).IsChain (Joined L)) (ha : (head :: xs).getLast? = some a)
    (hb : (ys ++ [head]).head? = some b)
    (hnext : ∀ x ∈ head :: (xs ++ ys), x ≠ a → (L' x).next = (L x).next)
    (hprev : ∀ x ∈ head :: (xs ++ ys), x ≠ b → (L' x).prev = (L x).prev) :
    (head :: xs).IsChain (Joined L') ∧ (ys ++ [head]).IsChain (Joined L') := by
  have hparts : (head :: xs ++ ys).Nodup := hnd
  obtain ⟨hxs, hys, hdisjoint⟩ := List.nodup_append.mp hparts
  have haxs : a ∈ head :: xs := List.mem_of_getLast? ha
  have hbys : b ∈ ys ++ [head] := List.mem_of_head? hb
  constructor
  · refine isChain_front hfront hxs ha (fun x hx hxa => hnext x ?_ hxa) fun x hx => hprev x ?_ ?_
    · exact List.mem_append_left ys hx
    · exact List.mem_cons_of_mem head (List.mem_append_left ys hx)
    · rintro rfl
      rcases List.mem_append.mp hbys with hb | hb
      · exact hdisjoint x (List.mem_cons_of_mem head hx) x hb rfl
      · rw [List.mem_singleton.mp hb] at hx
        exact (List.nodup_cons.mp hxs).1 hx
  · have hnd' : (ys ++ [head]).Nodup := by
      refine List.nodup_append.mpr ⟨hys, by simp, fun x hx y hy => ?_⟩
      rw [List.mem_singleton.mp hy]
      exact fun he => hdisjoint head (List.mem_cons_self ..) x hx he.symm
    refine isChain_back hback hnd' hb (fun x hx => hnext x ?_ ?_) fun x hx hxb => hprev x ?_ hxb
    · exact List.mem_cons_of_mem head (List.mem_append_right xs hx)
    · exact fun he => hdisjoint a haxs x hx he.symm
    · rcases List.mem_append.mp hx with hx | hx
      · exact List.mem_cons_of_mem head (List.mem_append_right xs hx)
      · rw [List.mem_singleton.mp hx]
        exact List.mem_cons_self ..

end Shape

/-! ### Splicing -/

section Splice
variable [DecidableEq α] {L L' : Links α} {head n a b : α} {xs ys : List α}

def setNext (a b : α) (L : Links α) : Links α := Function.update L a {L a with next := b}
def setPrev (b a : α) (L : Links α) : Links α := Function.update L b {L b with prev := a}

/-- `a` and `b` become neighbours. -/
def join (a b : α) (L : Links α) : Links α := setNext a b (setPrev b a L)

theorem join_next (a b x : α) (L : Links α) :
    (join a b L x).next = if x = a then b else (L x).next := by
  by_cases hxa : x = a
  · subst hxa
    simp [join, setNext]
  · by_cases hxb : x = b
    · subst hxb
      simp [join, setNext, setPrev, hxa]
    · simp [join, setNext, setPrev, hxa, hxb]

theorem join_prev (a b x : α) (L : Links α) :
    (join a b L x).prev = if x = b then a else (L x).prev := by
  by_cases hxb : x = b
  · subst hxb
    by_cases hxa : x = a
    · subst hxa
      simp [join, setNext, setPrev]
    · simp [join, setNext, setPrev, hxa]
  · by_cases hxa : x = a
    · subst hxa
      simp [join, setNext, setPrev, hxb]
    · simp [join, setNext, setPrev, hxa, hxb]

theorem join_of_ne {x : α} (ha : x ≠ a) (hb : x ≠ b) : join a b L x = L x := by
  simp [join, setNext, setPrev, ha, hb]

/-- `n` comes between `a` and `b`, wherever in the list that is. -/
theorem Circular.insert (h : Circular L head (xs ++ ys)) (ha : (head :: xs).getLast? = some a)
    (hb : (ys ++ [head]).head? = some b) (hn : n ∉ head :: (xs ++ ys)) :
    Circular (join a n (join n b L)) head (xs ++ n :: ys) := by
  obtain ⟨hnd, hfront, hback, -⟩ := circular_append.mp h
  have hne : ∀ x ∈ head :: (xs ++ ys), x ≠ n := fun x hx he => hn (he ▸ hx)
  have han : a ≠ n := hne a (mem_of_getLast? ha ys)
  have hbn : b ≠ n := hne b (mem_of_head? hb xs)
  obtain ⟨hfront', hback'⟩ := isChain_parts hnd hfront hback ha hb
    (fun x hx hxa => by rw [join_next, if_neg hxa, join_next, if_neg (hne x hx)])
    fun x hx hxb => by rw [join_prev, if_neg (hne x hx), join_prev, if_neg hxb]
  refine circular_append.mpr ⟨?_, hfront', List.isChain_cons.mpr ⟨fun y hy => ?_, hback'⟩, fun x hx y hy => ?_⟩
  · exact (nodes_perm head n xs ys).nodup_iff.mpr (List.nodup_cons.mpr ⟨hn, hnd⟩)
  · obtain rfl : b = y := Option.some.inj (hb.symm.trans hy)
    exact ⟨by rw [join_next, if_neg (Ne.symm han), join_next, if_pos rfl],
      by rw [join_prev, if_neg hbn, join_prev, if_pos rfl]⟩
  · obtain rfl : a = x := Option.some.inj (ha.symm.trans hx)
    obtain rfl : n = y := Option.some.inj hy
    exact ⟨by rw [join_next, if_pos rfl], by rw [join_prev, if_pos rfl]⟩

/-- The neighbours of `n` are joined. -/
theorem Circular.remove (h : Circular L head (xs ++ n :: ys)) (ha : (head :: xs).getLast? = some a)
    (hb : (ys ++ [head]).head? = some b) : Circular (join a b L) head (xs ++ ys) := by
  obtain ⟨hnd, hfront, hback, -⟩ := circular_append.mp h
  have hnd' : (head :: (xs ++ ys)).Nodup :=
    (List.nodup_cons.mp ((nodes_perm head n xs ys).nodup_iff.mp hnd)).2
  obtain ⟨hfront', hback'⟩ := isChain_parts hnd' hfront (List.isChain_cons.mp hback).2 ha hb
    (fun x _ hxa => by rw [join_next, if_neg hxa]) fun x _ hxb => by rw [join_prev, if_neg hxb]
  refine circular_append.mpr ⟨hnd', hfront', hback', fun x hx y hy => ?_⟩
  obtain rfl : a = x := Option.some.inj (ha.symm.trans hx)
  obtain rfl : b = y := Option.some.inj (hb.symm.trans hy)
  exact ⟨by rw [join_next, if_pos rfl], by rw [join_prev, if_pos rfl]⟩

end Splice

end MultiPandOS.CircularList
