import MultiPandOS.Library.CircularList
import Mathlib.Data.List.Basic

/-! Disjoint circular lists in one memory.

`Rings heads L content` says that each of `heads` is the head of a circular list, which
holds `content` of it, and that no node is in two of the lists. Whoever writes to the
nodes of one list, and to nodes that are in none (`Loose`), keeps all the others
(`Rings.write`); a node that leaves its list is loose (`Rings.loose`). -/
namespace MultiPandOS.CircularList

variable {α : Type}

structure Rings (heads : Set α) (L : Links α) (content : α → List α) : Prop where
  ring : ∀ h ∈ heads, Circular L h (content h)
  apart : ∀ h ∈ heads, ∀ h' ∈ heads, ∀ x ∈ h :: content h, x ∈ h' :: content h' → h = h'

/-- A node that is in no list. -/
def Loose (heads : Set α) (content : α → List α) (n : α) : Prop := ∀ h ∈ heads, n ∉ h :: content h

section Rings
variable {heads : Set α} {L L' : Links α} {content : α → List α} {h n : α} {xs : List α}

theorem Loose.notMem (hn : Loose heads content n) (hh : h ∈ heads) : n ∉ content h :=
  fun hm => hn h hh (List.mem_cons_of_mem h hm)

theorem Loose.ne (hn : Loose heads content n) (hh : h ∈ heads) : n ≠ h := by
  rintro rfl
  exact hn n hh (List.mem_cons_self ..)

theorem Rings.notMem_of_mem (hr : Rings heads L content) (hh : h ∈ heads) {h' : α} (hh' : h' ∈ heads) (hne : h' ≠ h)
    {x : α} (hx : x ∈ h' :: content h') : x ∉ h :: content h :=
  fun hx' => hne (hr.apart h' hh' h hh x hx hx')

/-- Other lists than that of `h` are neither written to nor linked with. -/
theorem Rings.write [DecidableEq α] (hr : Rings heads L content) (hh : h ∈ heads) (hring : Circular L' h xs)
    (hnodes : ∀ x ∈ xs, x ∈ content h ∨ Loose heads content x)
    (hframe : ∀ x, x ∉ h :: content h → ¬ Loose heads content x → L' x = L x) :
    Rings heads L' (Function.update content h xs) := by
  have hother : ∀ h' ∈ heads, h' ≠ h → ∀ x ∈ h' :: content h', x ∉ h :: content h ∧ ¬ Loose heads content x :=
    fun h' hh' hne x hx => ⟨hr.notMem_of_mem hh hh' hne hx, fun hloose => hloose h' hh' hx⟩
  have hown : ∀ h' ∈ heads, h' ≠ h → ∀ x ∈ h' :: content h', x ∉ h :: xs := by
    intro h' hh' hne x hx hm
    obtain ⟨hnot, hloose⟩ := hother h' hh' hne x hx
    rcases List.mem_cons.mp hm with rfl | hm
    · exact hnot (List.mem_cons_self ..)
    · rcases hnodes x hm with hm | hm
      · exact hnot (List.mem_cons_of_mem h hm)
      · exact hloose hm
  constructor
  · intro h' hh'
    by_cases hne : h' = h
    · subst hne
      rwa [Function.update_self]
    · rw [Function.update_of_ne hne]
      refine (hr.ring h' hh').congr fun x hx => ?_
      obtain ⟨hnot, hloose⟩ := hother h' hh' hne x hx
      exact hframe x hnot hloose
  · intro h₁ hh₁ h₂ hh₂ x hx₁ hx₂
    by_cases h1 : h₁ = h <;> by_cases h2 : h₂ = h
    · rw [h1, h2]
    · subst h1
      rw [Function.update_self] at hx₁
      rw [Function.update_of_ne h2] at hx₂
      exact absurd hx₁ (hown h₂ hh₂ h2 x hx₂)
    · subst h2
      rw [Function.update_self] at hx₂
      rw [Function.update_of_ne h1] at hx₁
      exact absurd hx₂ (hown h₁ hh₁ h1 x hx₁)
    · rw [Function.update_of_ne h1] at hx₁
      rw [Function.update_of_ne h2] at hx₂
      exact hr.apart h₁ hh₁ h₂ hh₂ x hx₁ hx₂

/-- A write to loose nodes. -/
theorem Rings.congr (hr : Rings heads L content) (hframe : ∀ x, ¬ Loose heads content x → L' x = L x) :
    Rings heads L' content :=
  ⟨fun h hh => (hr.ring h hh).congr fun x hx => hframe x fun hloose => hloose h hh hx, hr.apart⟩

/-- Fewer lists. -/
theorem Rings.subset {heads' : Set α} (hr : Rings heads L content) (hle : heads' ⊆ heads) : Rings heads' L content :=
  ⟨fun h hh => hr.ring h (hle hh), fun h hh h' hh' => hr.apart h (hle hh) h' (hle hh')⟩

/-- One more list, an empty one. -/
theorem Rings.insert [DecidableEq α] (hr : Rings heads L content) (hh : Loose heads content h)
    (hring : Circular L' h []) (hframe : ∀ x, x ≠ h → L' x = L x) :
    Rings (insert h heads) L' (Function.update content h []) := by
  have hother : ∀ h' ∈ heads, Function.update content h [] h' = content h' := fun h' hh' =>
    Function.update_of_ne (fun he => hh.ne hh' he.symm) [] content
  have hown : ∀ x ∈ h :: Function.update content h [] h, x = h := by
    intro x hx
    rw [Function.update_self] at hx
    exact List.mem_singleton.mp hx
  refine ⟨fun h' hh' => ?_, fun h₁ hh₁ h₂ hh₂ x hx₁ hx₂ => ?_⟩
  · rcases hh' with rfl | hh'
    · rwa [Function.update_self]
    · rw [hother h' hh']
      refine (hr.ring h' hh').congr fun x hx => hframe x ?_
      rintro rfl
      exact hh h' hh' hx
  · rcases hh₁ with rfl | hh₁ <;> rcases hh₂ with rfl | hh₂
    · rfl
    · rw [hother h₂ hh₂, hown x hx₁] at hx₂
      exact (hh h₂ hh₂ hx₂).elim
    · rw [hother h₁ hh₁, hown x hx₂] at hx₁
      exact (hh h₁ hh₁ hx₁).elim
    · rw [hother h₁ hh₁] at hx₁
      rw [hother h₂ hh₂] at hx₂
      exact hr.apart h₁ hh₁ h₂ hh₂ x hx₁ hx₂

/-- A node that is taken out of its list is in no other. -/
theorem Rings.loose [DecidableEq α] (hr : Rings heads L content) (hh : h ∈ heads) (hn : n ∈ content h)
    (hxs : n ∉ h :: xs) : Loose heads (Function.update content h xs) n := by
  intro h' hh' hm
  by_cases hne : h' = h
  · subst hne
    rw [Function.update_self] at hm
    exact hxs hm
  · rw [Function.update_of_ne hne] at hm
    exact hne (hr.apart h' hh' h hh n hm (List.mem_cons_of_mem h hn))

/-- A loose node that is not linked in stays loose. -/
theorem Loose.update [DecidableEq α] (hn : Loose heads content n) (hh : h ∈ heads) (hxs : n ∉ xs) :
    Loose heads (Function.update content h xs) n := by
  intro h' hh'
  by_cases hne : h' = h
  · subst hne
    rw [Function.update_self, List.mem_cons, not_or]
    exact ⟨hn.ne hh, hxs⟩
  · rw [Function.update_of_ne hne]
    exact hn h' hh'

end Rings

end MultiPandOS.CircularList
