import MultiPandOS.Library.Rings

/-! Intrusive lists (`headers/listx.h`).

`N` are the addresses of the `struct list_head`s, a `Links N` is what they hold. Each
function makes the stores of the source in their order; its lemma says what becomes of
a circular list, and that nothing else is written to but the node linked in or out. -/
namespace MultiPandOS.Listx
open CircularList

variable {N : Type} [DecidableEq N]

def initListHead (list : N) (L : Links N) : Links N :=
  let L := setNext list list L
  setPrev list list L

/-- `__list_add`. -/
def listAddBetween (new prev next : N) (L : Links N) : Links N :=
  let L := setPrev next new L
  let L := setNext new next L
  let L := setPrev new prev L
  setNext prev new L

def listAdd (new head : N) (L : Links N) : Links N := listAddBetween new head (L head).next L

def listAddTail (new head : N) (L : Links N) : Links N := listAddBetween new (L head).prev head L

/-- `__list_del`. -/
def listDelBetween (prev next : N) (L : Links N) : Links N :=
  let L := setPrev next prev L
  setNext prev next L

def listDel (entry : N) (L : Links N) : Links N :=
  let L := listDelBetween (L entry).prev (L entry).next L
  let L := setNext entry entry L
  setPrev entry entry L

def listEmpty (head : N) (L : Links N) : Bool := (L head).next == head

/-- `list_for_each (pos, head) body` from `pos` on. The body answers what it returns
from the function around the loop, `some none` to go on, and `none` where it reads what
is not there; the loop is `none` also when `fuel` runs out. -/
def listForEach {β : Type} (L : Links N) (head : N) (body : N → Option (Option β)) :
    Nat → N → Option (Option β)
  | 0, _ => none
  | fuel + 1, pos =>
    if pos = head then some none
    else
      match body pos with
      | none => none
      | some (some r) => some (some r)
      | some none => listForEach L head body fuel (L pos).next

variable {L : Links N} {head n a x : N} {xs ys : List N}

@[simp] theorem initListHead_self (list : N) (L : Links N) : initListHead list L list = ⟨list, list⟩ := by
  simp [initListHead, setNext, setPrev]

theorem initListHead_of_ne {list : N} (h : x ≠ list) (L : Links N) : initListHead list L x = L x := by
  simp [initListHead, setNext, setPrev, h]

theorem initListHead_circular (list : N) (L : Links N) : Circular (initListHead list L) list [] :=
  circular_nil.mpr (initListHead_self list L)

theorem listEmpty_iff (h : Circular L head xs) : listEmpty head L = true ↔ xs = [] := by
  rw [listEmpty, beq_iff_eq]
  exact h.next_eq_head

/-! ### Linking in -/

theorem listAddBetween_eq (new prev next : N) (L : Links N) :
    listAddBetween new prev next L = join prev new (join new next L) := rfl

theorem listAddBetween_of_ne {new prev next : N} (hn : x ≠ new) (hp : x ≠ prev) (hx : x ≠ next) :
    listAddBetween new prev next L x = L x := by
  rw [listAddBetween_eq, join_of_ne hp hn, join_of_ne hn hx]

/-- Behind the node `a` of the list, which may be the head. -/
theorem listAdd_circular (h : Circular L head (xs ++ ys)) (ha : (head :: xs).getLast? = some a)
    (hn : n ∉ head :: (xs ++ ys)) :
    Circular (listAdd n a L) head (xs ++ n :: ys) ∧
      ∀ x, x ∉ head :: (xs ++ ys) → x ≠ n → listAdd n a L x = L x := by
  obtain ⟨b, hb⟩ := exists_head? ys head
  have hnext : (L a).next = b := (h.joined_at ha hb).1
  have hadd : listAdd n a L = join a n (join n b L) := by rw [listAdd, hnext, listAddBetween_eq]
  constructor
  · rw [hadd]
    exact h.insert ha hb hn
  · intro x hx hxn
    refine listAddBetween_of_ne hxn ?_ ?_
    · rintro rfl
      exact hx (mem_of_getLast? ha ys)
    · rw [hnext]
      rintro rfl
      exact hx (mem_of_head? hb xs)

theorem listAddTail_circular (h : Circular L head xs) (hn : n ∉ head :: xs) :
    Circular (listAddTail n head L) head (xs ++ [n]) ∧
      ∀ x, x ∉ head :: xs → x ≠ n → listAddTail n head L x = L x := by
  obtain ⟨a, ha⟩ := exists_getLast? head xs
  rw [← List.append_nil xs] at h hn
  have hprev : (L head).prev = a := (h.joined_at ha rfl).2
  have hnext : (L a).next = head := (h.joined_at ha rfl).1
  have hadd : listAddTail n head L = listAdd n a L := by rw [listAddTail, listAdd, hprev, hnext]
  rw [hadd]
  simpa using listAdd_circular h ha hn

/-! ### Linking out -/

theorem listDel_circular (h : Circular L head (xs ++ n :: ys)) :
    Circular (listDel n L) head (xs ++ ys) ∧ listDel n L n = ⟨n, n⟩ ∧
      ∀ x, x ∉ head :: (xs ++ n :: ys) → listDel n L x = L x := by
  obtain ⟨a, ha⟩ := exists_getLast? head xs
  obtain ⟨b, hb⟩ := exists_head? ys head
  have hprev : (L n).prev = a := (h.joined_at ha rfl).2
  have hnext : (L n).next = b := by
    have hsplit : Circular L head ((xs ++ [n]) ++ ys) := by simpa using h
    have hlast : (head :: (xs ++ [n])).getLast? = some n := List.getLast?_concat (l := head :: xs)
    exact (hsplit.joined_at hlast hb).1
  have hdel : ∀ x, x ≠ n → listDel n L x = join a b L x := by
    intro x hx
    rw [listDel, hprev, hnext]
    simp [listDelBetween, join, setNext, setPrev, hx]
  have hperm := nodes_perm head n xs ys
  have hn : n ∉ head :: (xs ++ ys) := (List.nodup_cons.mp (hperm.nodup_iff.mp h.nodup)).1
  refine ⟨(h.remove ha hb).congr fun x hx => hdel x fun he => hn (he ▸ hx),
    by simp [listDel, setNext, setPrev], fun x hx => ?_⟩
  rw [hperm.mem_iff, List.mem_cons, not_or] at hx
  rw [hdel x hx.1]
  refine join_of_ne ?_ ?_
  · rintro rfl
    exact hx.2 (mem_of_getLast? ha ys)
  · rintro rfl
    exact hx.2 (mem_of_head? hb xs)

/-! ### Traversal -/

section Traversal
variable {β γ : Type} {body : N → Option (Option β)} {node : γ → N} {c : γ → Bool} {r : γ → β} {q : List γ}

/-- From any place on. -/
theorem listForEach_suffix (h : Circular L head (xs ++ q.map node))
    (hbody : ∀ y ∈ q, body (node y) = some (if c y then some (r y) else none)) {fuel : Nat}
    (hfuel : q.length < fuel) {pos : N} (hpos : (q.map node ++ [head]).head? = some pos) :
    listForEach L head body fuel pos = some ((q.find? c).map r) := by
  induction q generalizing xs fuel pos with
  | nil =>
    obtain ⟨fuel, rfl⟩ : ∃ f, fuel = f + 1 := ⟨fuel - 1, by simp at hfuel; omega⟩
    obtain rfl : head = pos := Option.some.inj hpos
    simp [listForEach]
  | cons y rest ih =>
    obtain ⟨fuel, rfl⟩ : ∃ f, fuel = f + 1 := ⟨fuel - 1, by simp at hfuel; omega⟩
    obtain rfl : node y = pos := Option.some.inj hpos
    have hne : node y ≠ head := by
      intro he
      have := (List.nodup_cons.mp h.nodup).1
      rw [← he] at this
      exact this (by simp)
    rw [listForEach, if_neg hne, hbody y (List.mem_cons_self ..)]
    cases hc : c y with
    | true => simp [hc]
    | false =>
      have h' : Circular L head ((xs ++ [node y]) ++ rest.map node) := by simpa using h
      obtain ⟨next, hnext⟩ := exists_head? (rest.map node) head
      have hlast : (head :: (xs ++ [node y])).getLast? = some (node y) :=
        List.getLast?_concat (l := head :: xs)
      have hstep : (L (node y)).next = next := (h'.joined_at hlast hnext).1
      simp only [Bool.false_eq_true, if_false, hstep, List.find?_cons, hc]
      exact ih h' (fun z hz => hbody z (List.mem_cons_of_mem y hz)) (by simp at hfuel; omega) hnext

/-- A body that looks for the first element with `c` and answers `r` for it. The loop
ends if there is fuel for every element and for the head. -/
theorem listForEach_find (h : Circular L head (q.map node))
    (hbody : ∀ y ∈ q, body (node y) = some (if c y then some (r y) else none)) {fuel : Nat}
    (hfuel : q.length < fuel) :
    listForEach L head body fuel (L head).next = some ((q.find? c).map r) := by
  obtain ⟨pos, hpos⟩ := exists_head? (q.map node) head
  rw [h.next_head hpos]
  exact listForEach_suffix (show Circular L head ([] ++ q.map node) from h) hbody hfuel hpos

end Traversal

/-! ### Among other lists -/

section Rings
variable {heads : Set N} {content : N → List N}

theorem initListHead_rings (hr : Rings heads L content) (hh : head ∈ heads) :
    Rings heads (initListHead head L) (Function.update content head []) := by
  refine hr.write hh (initListHead_circular head L) (fun x hx => (List.not_mem_nil hx).elim) fun x hx _ => ?_
  refine initListHead_of_ne ?_ L
  rintro rfl
  exact hx (List.mem_cons_self ..)

/-- A list that was not there before. -/
theorem initListHead_insert (hr : Rings heads L content) (hh : Loose heads content head) :
    Rings (insert head heads) (initListHead head L) (Function.update content head []) :=
  hr.insert hh (initListHead_circular head L) fun _ hx => initListHead_of_ne hx L

/-- A node that is in no list may be linked to itself. -/
theorem initListHead_loose (hr : Rings heads L content) (hn : Loose heads content n) :
    Rings heads (initListHead n L) content := by
  refine hr.congr fun x hx => initListHead_of_ne ?_ L
  rintro rfl
  exact hx hn

theorem listAdd_rings (hr : Rings heads L content) (hh : head ∈ heads) (hn : Loose heads content n)
    (hsplit : content head = xs ++ ys) (ha : (head :: xs).getLast? = some a) :
    Rings heads (listAdd n a L) (Function.update content head (xs ++ n :: ys)) := by
  have hnew : n ∉ head :: (xs ++ ys) := hsplit ▸ hn head hh
  obtain ⟨hring, hframe⟩ := listAdd_circular (hsplit ▸ hr.ring head hh) ha hnew
  refine hr.write hh hring (fun x hx => ?_) fun x hx hloose => hframe x (hsplit ▸ hx) ?_
  · rw [hsplit, List.mem_append]
    simp only [List.mem_append, List.mem_cons] at hx
    rcases hx with hx | rfl | hx
    · exact .inl (.inl hx)
    · exact .inr hn
    · exact .inl (.inr hx)
  · rintro rfl
    exact hloose hn

theorem listAdd_head_rings (hr : Rings heads L content) (hh : head ∈ heads) (hn : Loose heads content n) :
    Rings heads (listAdd n head L) (Function.update content head (n :: content head)) :=
  listAdd_rings hr hh hn (show content head = [] ++ content head from rfl) rfl

/-- A loop that links in one node after the other. -/
theorem foldl_listAdd_rings {ι : Type} {node : ι → N} (hnode : Function.Injective node) {cs : List ι} (hnd : cs.Nodup)
    (hr : Rings heads L content) (hh : head ∈ heads) (hcs : ∀ c ∈ cs, Loose heads content (node c)) :
    Rings heads (cs.foldl (fun L c => listAdd (node c) head L) L)
      (Function.update content head ((cs.map node).reverse ++ content head)) := by
  induction cs generalizing L content with
  | nil =>
    rw [List.map_nil, List.reverse_nil, List.nil_append, Function.update_eq_self]
    exact hr
  | cons c rest ih =>
    obtain ⟨hc, hrest⟩ := List.nodup_cons.mp hnd
    have hadd := listAdd_head_rings hr hh (hcs c (List.mem_cons_self ..))
    have hloose : ∀ d ∈ rest, Loose heads (Function.update content head (node c :: content head)) (node d) := by
      intro d hd
      have hdloose := hcs d (List.mem_cons_of_mem c hd)
      refine hdloose.update hh ?_
      rw [List.mem_cons, not_or]
      exact ⟨fun he => hc (hnode he ▸ hd), hdloose.notMem hh⟩
    have hih := ih hrest hadd hloose
    rw [Function.update_idem, Function.update_self] at hih
    rw [List.map_cons, List.reverse_cons, List.append_assoc, List.singleton_append]
    exact hih

theorem listAddTail_rings (hr : Rings heads L content) (hh : head ∈ heads) (hn : Loose heads content n) :
    Rings heads (listAddTail n head L) (Function.update content head (content head ++ [n])) := by
  obtain ⟨hring, hframe⟩ := listAddTail_circular (hr.ring head hh) (hn head hh)
  refine hr.write hh hring (fun x hx => ?_) fun x hx hloose => hframe x hx ?_
  · rcases List.mem_append.mp hx with hx | hx
    · exact .inl hx
    · rw [List.mem_singleton.mp hx]
      exact .inr hn
  · rintro rfl
    exact hloose hn

/-- What is linked out is in no list afterwards. -/
theorem listDel_rings (hr : Rings heads L content) (hh : head ∈ heads) (hsplit : content head = xs ++ n :: ys) :
    Rings heads (listDel n L) (Function.update content head (xs ++ ys)) ∧
      Loose heads (Function.update content head (xs ++ ys)) n := by
  have hcirc : Circular L head (xs ++ n :: ys) := hsplit ▸ hr.ring head hh
  obtain ⟨hring, -, hframe⟩ := listDel_circular hcirc
  have hn : n ∉ head :: (xs ++ ys) :=
    (List.nodup_cons.mp ((nodes_perm head n xs ys).nodup_iff.mp hcirc.nodup)).1
  constructor
  · refine hr.write hh hring (fun x hx => .inl ?_) fun x hx _ => hframe x (hsplit ▸ hx)
    rw [hsplit]
    rcases List.mem_append.mp hx with hx | hx
    · exact List.mem_append_left _ hx
    · exact List.mem_append_right xs (List.mem_cons_of_mem n hx)
  · exact hr.loose hh (by rw [hsplit]; exact List.mem_append_right xs (List.mem_cons_self ..)) hn

theorem listDel_erase_rings (hr : Rings heads L content) (hh : head ∈ heads) (hn : n ∈ content head) :
    Rings heads (listDel n L) (Function.update content head ((content head).erase n)) ∧
      Loose heads (Function.update content head ((content head).erase n)) n := by
  obtain ⟨xs, ys, hxs, hsplit, herase⟩ := List.exists_erase_eq hn
  rw [herase]
  exact listDel_rings hr hh hsplit

end Rings

end MultiPandOS.Listx
