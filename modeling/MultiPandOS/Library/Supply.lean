import Mathlib.Data.Fintype.Card
import Mathlib.Data.List.Basic

/-! Supplies: a finite supply that is handed out and taken back, the last returned first.

Whatever the history, each item is either on the free list, once, or issued; `Supply`
has this as a field, so what remains to be said of an implementation is that its free
list is the one of a supply. -/
namespace MultiPandOS

structure Supply (α : Type) where
  free : List α
  issued : Finset α
  nodup : free.Nodup
  split : ∀ a, a ∈ free ↔ a ∉ issued

namespace Supply
variable {α : Type}

/-- Nothing is issued yet. -/
def full (free : List α) (nodup : free.Nodup) (all : ∀ a, a ∈ free) : Supply α :=
  ⟨free, ∅, nodup, fun a => by simp [all a]⟩

theorem free_eq_nil_iff [Fintype α] (S : Supply α) : S.free = [] ↔ S.issued.card = Fintype.card α := by
  rw [Finset.card_eq_iff_eq_univ, Finset.eq_univ_iff_forall]
  constructor
  · intro h a
    by_contra ha
    have := (S.split a).mpr ha
    rw [h] at this
    cases this
  · intro h
    rw [List.eq_nil_iff_forall_not_mem]
    exact fun a ha => (S.split a).mp ha (h a)

variable [DecidableEq α]

/-- The first free item, if there is one. -/
def take (S : Supply α) : Supply α :=
  match hf : S.free with
  | [] => S
  | a :: rest =>
    { free := rest
      issued := insert a S.issued
      nodup := (List.nodup_cons.mp (hf ▸ S.nodup)).2
      split := by
        intro b
        have hb := S.split b
        have ha := (List.nodup_cons.mp (hf ▸ S.nodup)).1
        rw [hf, List.mem_cons] at hb
        rw [Finset.mem_insert, not_or, ← hb]
        constructor
        · intro h
          exact ⟨fun he => ha (he ▸ h), .inr h⟩
        · rintro ⟨hne, h⟩
          exact h.resolve_left hne }

def give (S : Supply α) (a : α) (ha : a ∈ S.issued) : Supply α where
  free := a :: S.free
  issued := S.issued.erase a
  nodup := List.nodup_cons.mpr ⟨fun h => (S.split a).mp h ha, S.nodup⟩
  split := by
    intro b
    rw [List.mem_cons, Finset.mem_erase, S.split b, not_and_or, not_not]

theorem take_cons {S : Supply α} {a : α} {rest : List α} (h : S.free = a :: rest) :
    S.take.free = rest ∧ S.take.issued = insert a S.issued := by
  unfold take
  split
  · rename_i hf
    rw [h] at hf
    cases hf
  · rename_i b rest' hf
    rw [h] at hf
    obtain ⟨rfl, rfl⟩ := List.cons.inj hf
    exact ⟨rfl, rfl⟩

end Supply

end MultiPandOS
