import MultiPandOS.Library.Semaphore

/-! A mutex, by its value and by where its users are.

`held i` says that `i` is between its `P` and its `V`. As long as nobody gets there
without a `P`, the semaphore is 0 or 1 and one user at a time is there (`Guarded`); users
may leave without a `V`, and then nobody gets there any more. If nobody does that, the
value is 0 only while the one whose `P` was the last to complete is there (`Attended`).
Where the section waits for something else, one user at a time waits for it (`Serial`). -/
namespace MultiPandOS.Semaphore

variable {ι : Type}

structure Guarded (v : Int) (held : ι → Bool) : Prop where
  value : v = 0 ∨ v = 1
  zero : ∀ i, held i = true → v = 0
  one : ∀ i j, held i = true → held j = true → i = j

section Guarded
variable {v : Int} {held held' : ι → Bool} {i : ι}

theorem Guarded.free (h : Guarded v held) (hpos : 0 < v) (j : ι) : held j = false := by
  refine Bool.eq_false_iff.mpr fun hj => ?_
  rw [h.zero j hj] at hpos
  exact absurd hpos (by decide)

/-- Nobody has come. -/
theorem Guarded.mono (h : Guarded v held) (hle : ∀ j, held' j = true → held j = true) : Guarded v held' :=
  ⟨h.value, fun j hj => h.zero j (hle j hj), fun j k hj hk => h.one j k (hle j hj) (hle k hk)⟩

/-- `i` has come. -/
theorem Guarded.acquire (h : Guarded v held) (hpos : 0 < v)
    (hle : ∀ j, held' j = true → j = i ∨ held j = true) : Guarded (v - 1) held' := by
  have hself : ∀ j, held' j = true → j = i := by
    intro j hj
    obtain hj | hj := hle j hj
    · exact hj
    · rw [h.free hpos j] at hj
      cases hj
  have hzero : v - 1 = 0 := by
    have := h.value
    omega
  exact ⟨.inl hzero, fun _ _ => hzero, fun j k hj hk => (hself j hj).trans (hself k hk).symm⟩

/-- `i` has gone. -/
theorem Guarded.release (h : Guarded v held) (hi : held i = true)
    (hle : ∀ j, held' j = true → j ≠ i ∧ held j = true) : Guarded (v + 1) held' := by
  have hnone : ∀ j, held' j = true → False := by
    intro j hj
    obtain ⟨hne, hj⟩ := hle j hj
    exact hne (h.one j i hj hi)
  refine ⟨.inr ?_, fun j hj => (hnone j hj).elim, fun j _ hj => (hnone j hj).elim⟩
  rw [h.zero i hi]
  rfl

end Guarded

/-! ### The last to complete its `P` -/

/-- The history of a mutex that nobody leaves without a `V`. -/
structure Attended [DecidableEq ι] (v : Int) (held : ι → Bool) (tr : List (Event ι)) : Prop
    extends Guarded v held where
  out : holders tr = [] ∨ ∃ i, holders tr = [i] ∧ held i = true
  idle : 0 < v → holders tr = []
  busy : v = 0 → holders tr ≠ []

section Attended
variable [DecidableEq ι] {v : Int} {held held' : ι → Bool} {tr : List (Event ι)} {i : ι}

/-- Nobody has come and nobody has gone. -/
theorem Attended.keep (h : Attended v held tr) (hle : ∀ j, held' j = true → held j = true)
    (hstay : ∀ j, held j = true → held' j = true) : Attended v held' tr := by
  refine ⟨h.mono hle, ?_, h.idle, h.busy⟩
  obtain hout | ⟨i, hout, hi⟩ := h.out
  · exact .inl hout
  · exact .inr ⟨i, hout, hstay i hi⟩

theorem Attended.acquire (h : Attended v held tr) (hpos : 0 < v)
    (hle : ∀ j, held' j = true → j = i ∨ held j = true) (hi : held' i = true) :
    Attended (v - 1) held' (tr ++ [.acquire i]) := by
  have hguarded := h.toGuarded.acquire hpos hle
  have hholders : holders (tr ++ [.acquire i]) = [i] := by
    rw [holders_snoc, h.idle hpos]
    rfl
  refine ⟨hguarded, .inr ⟨i, hholders, hi⟩, fun hpos' => ?_, fun _ => ?_⟩
  · rw [hguarded.zero i hi] at hpos'
    exact absurd hpos' (by decide)
  · rw [hholders]
    simp

theorem Attended.release (h : Attended v held tr) (hi : held i = true)
    (hle : ∀ j, held' j = true → j ≠ i ∧ held j = true) :
    Attended (v + 1) held' (tr ++ [.signal i none]) := by
  have hzero := h.zero i hi
  have hholders : holders (tr ++ [.signal i none]) = [] := by
    rw [holders_snoc]
    obtain hout | ⟨j, hout, hj⟩ := h.out
    · exact absurd hout (h.busy hzero)
    · obtain rfl : j = i := h.one j i hj hi
      rw [hout]
      simp [hold]
  refine ⟨h.toGuarded.release hi hle, .inl hholders, fun _ => hholders, fun h1 => ?_⟩
  rw [hzero] at h1
  exact absurd h1 (by decide)

/-- At 0, the last to complete its `P` without the matching `V` is still there. -/
theorem Attended.holder (h : Attended v held tr) (hzero : v = 0) :
    ∃ i, (holders tr).head? = some i ∧ held i = true := by
  obtain hout | ⟨i, hout, hi⟩ := h.out
  · exact absurd hout (h.busy hzero)
  · exact ⟨i, by rw [hout]; rfl, hi⟩

end Attended

/-! ### What a mutex brackets -/

/-- The history of a semaphore that one user at a time waits for: whoever is woken had
been waiting longest. -/
structure Serial [DecidableEq ι] (waits : ι → Bool) (tr : List (Event ι)) : Prop where
  order : InOrder tr
  queue : pending tr = [] ∧ (∀ i, waits i = false) ∨ ∃ i, pending tr = [i] ∧ ∀ j, waits j = true ↔ j = i

section Serial
variable [DecidableEq ι] {waits waits' : ι → Bool} {tr : List (Event ι)} {i : ι}

theorem Serial.waiting (h : Serial waits tr) (hi : waits i = true) :
    pending tr = [i] ∧ ∀ j, waits j = true ↔ j = i := by
  obtain ⟨-, hnone⟩ | ⟨j, hpending, hj⟩ := h.queue
  · rw [hnone i] at hi
    cases hi
  · obtain rfl : i = j := (hj i).mp hi
    exact ⟨hpending, hj⟩

theorem Serial.congr (h : Serial waits tr) (heq : ∀ j, waits' j = waits j) : Serial waits' tr := by
  rw [funext heq]
  exact h

/-- `i` is woken. -/
theorem Serial.leave (h : Serial waits tr) (hi : waits i = true)
    (hothers : ∀ j, waits' j = true → j ≠ i ∧ waits j = true) : Serial waits' (tr ++ [.signal i (some i)]) := by
  obtain ⟨hpending, honly⟩ := h.waiting hi
  refine ⟨inOrder_snoc h.order fun a w he => ?_, .inl ⟨?_, fun j => ?_⟩⟩
  · obtain ⟨-, rfl⟩ := Event.signal.inj he
    rw [hpending]
    rfl
  · rw [pending_snoc, hpending]
    rfl
  · refine Bool.eq_false_iff.mpr fun hj => ?_
    obtain ⟨hne, hj⟩ := hothers j hj
    exact hne ((honly j).mp hj)

/-- `i` begins to wait. -/
theorem Serial.come (h : Serial waits tr) (hnone : ∀ j, waits j = false) (honly : ∀ j, waits' j = true ↔ j = i) :
    Serial waits' (tr ++ [.block i]) := by
  refine ⟨inOrder_snoc h.order (fun a w he => by cases he), .inr ⟨i, ?_, honly⟩⟩
  obtain ⟨hpending, -⟩ | ⟨j, -, hj⟩ := h.queue
  · rw [pending_snoc, hpending]
    rfl
  · have := (hj j).mpr rfl
    rw [hnone j] at this
    cases this

end Serial

end MultiPandOS.Semaphore
