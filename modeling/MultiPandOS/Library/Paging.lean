import Mathlib.Logic.Function.Basic

/-! Demand paging with records of who owns each frame.

A `Table` says which frame holds each page (`map`), which page each frame is
recorded for (`owner`) and what the frames and the backing store contain. The
content of a page is that of its frame if it has one, else that of the store.
Paging a page in over another one unmaps the victim, writes it back, fills the
frame and publishes the new owner. In between, the frame is detached: nothing maps
it (`Owned`), and the victim's content is still in it (`contentWith`). -/
namespace MultiPandOS.Paging

variable {κ φ β : Type}

@[ext] structure Table (κ φ β : Type) where
  map : κ → Option φ
  owner : φ → Option κ
  frame : φ → β
  store : κ → β

namespace Table

def content (t : Table κ φ β) (k : κ) : β :=
  match t.map k with
  | some f => t.frame f
  | none => t.store k

/-- The content of every page while the victim of `pend` is on its way out. -/
def contentWith [DecidableEq κ] (t : Table κ φ β) (pend : Option (κ × φ)) (k : κ) : β :=
  match pend with
  | none => t.content k
  | some (k', f) => if k = k' then t.frame f else t.content k

/-- Mapped frames are recorded for the page that maps them, and are not detached. -/
def Owned (t : Table κ φ β) (off : Option φ) : Prop :=
  ∀ k f, t.map k = some f → t.owner f = some k ∧ off ≠ some f

/-- The page a frame is recorded for maps it, the detached frame apart. -/
def Kept (t : Table κ φ β) (off : Option φ) : Prop :=
  ∀ k f, t.owner f = some k → off ≠ some f → t.map k = some f

/-! ### The steps of paging in -/

def unmap [DecidableEq κ] (t : Table κ φ β) (k : κ) : Table κ φ β :=
  {t with map := Function.update t.map k none}

def writeBack [DecidableEq κ] (t : Table κ φ β) (k : κ) (f : φ) : Table κ φ β :=
  {t with store := Function.update t.store k (t.frame f)}

def fill [DecidableEq φ] (t : Table κ φ β) (f : φ) (b : β) : Table κ φ β :=
  {t with frame := Function.update t.frame f b}

def publish [DecidableEq κ] [DecidableEq φ] (t : Table κ φ β) (k : κ) (f : φ) : Table κ φ β :=
  {t with map := Function.update t.map k (some f), owner := Function.update t.owner f (some k)}

/-- Nobody maps the frame. -/
def Detached (t : Table κ φ β) (f : φ) : Prop := ∀ k, t.map k ≠ some f

variable {t : Table κ φ β} {off : Option φ} {k : κ} {f : φ}

theorem content_of_map (h : t.map k = some f) : t.content k = t.frame f := by
  simp only [content, h]

theorem content_of_unmapped (h : t.map k = none) : t.content k = t.store k := by
  simp only [content, h]

theorem Owned.detached (h : t.Owned (some f)) : t.Detached f := fun k hk => (h k f hk).2 rfl

theorem Owned.attach (h : t.Owned off) : t.Owned none := fun k f hk => ⟨(h k f hk).1, by simp⟩

theorem Owned.detach (h : t.Owned none) (hf : t.Detached f) : t.Owned (some f) := by
  intro k g hk
  refine ⟨(h k g hk).1, fun he => ?_⟩
  rw [← Option.some.inj he] at hk
  exact hf k hk

/-- A frame that is recorded for nobody is mapped by nobody. -/
theorem Owned.of_free (h : t.Owned none) (hf : t.owner f = none) : t.Owned (some f) := by
  intro k g hk
  have hg := (h k g hk).1
  refine ⟨hg, fun he => ?_⟩
  rw [← Option.some.inj he, hf] at hg
  cases hg

theorem Kept.detach (h : t.Kept none) : t.Kept off := fun k f hf _ => h k f hf (by simp)

section Unmap
variable [DecidableEq κ]

/-- Once its owner is unmapped, a frame is detached. -/
theorem Owned.unmap (h : t.Owned none) (hf : t.owner f = some k) : (t.unmap k).Owned (some f) := by
  intro k' g hk'
  have hne : k' ≠ k := by
    rintro rfl
    simp [Table.unmap] at hk'
  have hg := (h k' g (by simpa [Table.unmap, hne] using hk')).1
  refine ⟨hg, fun he => hne ?_⟩
  rw [← Option.some.inj he, hf] at hg
  exact (Option.some.inj hg).symm

theorem Kept.unmap (h : t.Kept none) (hf : t.owner f = some k) :
    (t.unmap k).Kept (some f) := by
  intro k' g hg hoff
  have hmap := h k' g hg (by simp)
  have hne : k' ≠ k := by
    rintro rfl
    have hkf := h k' f hf (by simp)
    rw [hmap] at hkf
    exact hoff hkf.symm
  simpa [Table.unmap, hne] using hmap

end Unmap

section Publish
variable [DecidableEq κ] [DecidableEq φ]

/-- Publishing over a detached frame leaves nothing detached. -/
theorem Owned.publish (h : t.Owned (some f)) (k : κ) : (t.publish k f).Owned none := by
  intro k' g hk'
  refine ⟨?_, by simp⟩
  by_cases hk : k' = k
  · subst hk
    obtain rfl : f = g := by simpa [Table.publish] using hk'
    simp [Table.publish]
  · have hmap : t.map k' = some g := by simpa [Table.publish, hk] using hk'
    have hne : g ≠ f := by
      rintro rfl
      exact h.detached k' hmap
    simpa [Table.publish, hne] using (h k' g hmap).1

theorem Kept.publish (h : t.Kept (some f)) (hk : t.map k = none) : (t.publish k f).Kept none := by
  intro k' g hg _
  by_cases hgf : g = f
  · subst hgf
    obtain rfl : k = k' := by simpa [Table.publish] using hg
    simp [Table.publish]
  · have hmap := h k' g (by simpa [Table.publish, hgf] using hg) (by simpa using Ne.symm hgf)
    have hne : k' ≠ k := by
      rintro rfl
      rw [hk] at hmap
      cases hmap
    simpa [Table.publish, hne] using hmap

end Publish

/-! ### What happens to the content -/

section Content
variable [DecidableEq κ]

theorem contentWith_unmap (h : t.map k = some f) (k' : κ) :
    (t.unmap k).contentWith (some (k, f)) k' = t.content k' := by
  by_cases hk : k' = k
  · subst hk
    simp [contentWith, content, h, unmap]
  · simp [contentWith, content, hk, unmap]

theorem content_writeBack (h : t.map k = none) (k' : κ) :
    (t.writeBack k f).content k' = t.contentWith (some (k, f)) k' := by
  by_cases hk : k' = k
  · subst hk
    simp [contentWith, content, h, writeBack]
  · simp [contentWith, content, hk, writeBack]

variable [DecidableEq φ]

omit [DecidableEq κ] in
theorem content_fill (h : t.Detached f) (b : β) (k' : κ) : (t.fill f b).content k' = t.content k' := by
  cases hk : t.map k' with
  | none => rw [content_of_unmapped hk, content_of_unmapped (t := t.fill f b) hk]; rfl
  | some g =>
    have hne : g ≠ f := by
      rintro rfl
      exact h k' hk
    rw [content_of_map hk, content_of_map (t := t.fill f b) hk]
    simp [fill, hne]

theorem content_publish (hk : t.map k = none) (hfill : t.frame f = t.store k) (k' : κ) :
    (t.publish k f).content k' = t.content k' := by
  by_cases hk' : k' = k
  · subst hk'
    simp [content, publish, hk, hfill]
  · simp [content, publish, hk']

/-- Writing through the map changes the content of one page, whatever is on its way
out of the detached frame. -/
theorem contentWith_fill (h : t.Owned off) {pend : Option (κ × φ)} (hpend : ∀ q ∈ pend, off = some q.2)
    (hpendmap : ∀ q ∈ pend, t.map q.1 = none) (hk : t.map k = some f) (b : β) :
    (t.fill f b).contentWith pend = Function.update (t.contentWith pend) k b := by
  have hcontent : ∀ k', (t.fill f b).content k' = Function.update t.content k b k' := by
    intro k'
    by_cases hk' : k' = k
    · subst hk'
      rw [content_of_map (t := t.fill f b) hk]
      simp [fill]
    · rw [Function.update_of_ne hk']
      cases hm : t.map k' with
      | none => rw [content_of_unmapped hm, content_of_unmapped (t := t.fill f b) hm]; rfl
      | some g =>
        have hne : g ≠ f := by
          rintro rfl
          have := (h k' g hm).1.symm.trans (h k g hk).1
          exact hk' (Option.some.inj this)
        rw [content_of_map hm, content_of_map (t := t.fill f b) hm]
        simp [fill, hne]
  funext k'
  cases pend with
  | none =>
    show (t.fill f b).content k' = Function.update (fun k => t.content k) k b k'
    exact hcontent k'
  | some q =>
    obtain ⟨v, g⟩ := q
    have hoff : off = some g := hpend (v, g) rfl
    have hv : t.map v = none := hpendmap (v, g) rfl
    have hgf : g ≠ f := by
      rintro rfl
      exact (h k g hk).2 hoff
    have hvk : v ≠ k := by
      rintro rfl
      rw [hv] at hk
      cases hk
    by_cases hk' : k' = v
    · subst hk'
      simp [contentWith, hvk, fill, hgf]
    · by_cases hkk : k' = k
      · subst hkk
        simp [contentWith, hk', hcontent]
      · simp [contentWith, hk', hcontent, hkk]

end Content

end Table

end MultiPandOS.Paging
