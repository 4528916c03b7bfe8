import Mathlib.Data.List.Basic
import Mathlib.Data.List.Nodup
import MultiPandOS.Library.Runs

/-! Standing in line.

Those who come stand at the end, those who are served leave from the front, and anybody may
leave. While somebody stays in the line, no more are served than stood in front of it
(`Run.ahead`). -/
namespace MultiPandOS.Line
open Runs

section Moves
variable {α : Type} {q q' r : List α} {p : α} {d : Nat}

/-- `kept` stay, `come` stand at the end, and then the first `d` are served. -/
inductive Moves (d : Nat) (q : List α) : List α → Prop where
  | mk (kept come : List α) (stay : kept.Sublist q) (new : ∀ x ∈ come, x ∉ q) : Moves d q ((kept ++ come).drop d)

theorem Moves.same : Moves 0 q q := by
  have h : Moves 0 q ((q ++ []).drop 0) := ⟨q, [], List.Sublist.refl _, by simp⟩
  simpa using h

variable [DecidableEq α]

theorem idxOf_sublist (h : r.Sublist q) (hnd : q.Nodup) (hp : p ∈ r) : r.idxOf p ≤ q.idxOf p := by
  induction h with
  | slnil => cases hp
  | @cons r q a hsub ih =>
    obtain ⟨ha, hnd⟩ := List.nodup_cons.mp hnd
    have hne : a ≠ p := by
      rintro rfl
      exact ha (hsub.subset hp)
    rw [List.idxOf_cons_ne _ hne]
    exact Nat.le_succ_of_le (ih hnd hp)
  | @cons_cons r q a hsub ih =>
    by_cases hap : a = p
    · simp [hap]
    · rw [List.idxOf_cons_ne _ hap, List.idxOf_cons_ne _ hap]
      exact Nat.succ_le_succ (ih (List.nodup_cons.mp hnd).2 ((List.mem_cons.mp hp).resolve_left (Ne.symm hap)))

/-- Somebody who stands only once, behind the first `d`. -/
theorem idxOf_drop (hp : p ∈ r.drop d) (honce : r.count p ≤ 1) : (r.drop d).idxOf p + d = r.idxOf p := by
  have hfront : p ∉ r.take d := by
    intro htake
    have hsplit : r.count p = (r.take d).count p + (r.drop d).count p := by
      rw [← List.count_append, List.take_append_drop]
    have := List.count_pos_iff.mpr hp
    have := List.count_pos_iff.mpr htake
    omega
  have hlength : (r.take d).length = d := by
    have := List.length_pos_of_mem hp
    rw [List.length_drop] at this
    rw [List.length_take]
    omega
  conv_rhs => rw [← List.take_append_drop d r, List.idxOf_append_of_notMem hfront, hlength]
  exact Nat.add_comm _ _

/-- Whoever stays comes as much closer to the front as others are served. -/
theorem Moves.ahead (h : Moves d q q') (hnd : q.Nodup) (hp : p ∈ q) (hp' : p ∈ q') : q'.idxOf p + d ≤ q.idxOf p := by
  cases h with
  | mk kept come stay new =>
    have hcome : p ∉ come := fun h => new p h hp
    have hkept : p ∈ kept := (List.mem_append.mp (List.mem_of_mem_drop hp')).resolve_right hcome
    have honce : (kept ++ come).count p ≤ 1 := by
      rw [List.count_append, List.count_eq_zero.mpr hcome]
      exact List.nodup_iff_count_le_one.mp (hnd.sublist stay) p
    calc
      ((kept ++ come).drop d).idxOf p + d = (kept ++ come).idxOf p := idxOf_drop hp' honce
      _ = kept.idxOf p := List.idxOf_append_of_mem hkept
      _ ≤ q.idxOf p := idxOf_sublist stay hnd hkept

end Moves

section Runs
variable {σ ι ω α : Type} [DecidableEq α] {step : ι → σ → Option σ} {ok : σ → ι → Prop} {obs : σ → ι → σ → List ω}
  {Inv : σ → Prop} {line : σ → List α} {s₀ s : σ} {is : List ι} {p : α}

/-- At each step as many are served, at least, as the observer writes down. -/
structure Serves (step : ι → σ → Option σ) (ok : σ → ι → Prop) (obs : σ → ι → σ → List ω) (Inv : σ → Prop)
    (line : σ → List α) : Prop where
  preserved : ∀ s i s', Inv s → ok s i → step i s = some s' → Inv s'
  nodup : ∀ s, Inv s → (line s).Nodup
  moves : ∀ s i s', Inv s → ok s i → step i s = some s' → ∃ d, (obs s i s').length ≤ d ∧ Moves d (line s) (line s')

/-- **Whoever stays in the line** sees no more of the others served than stood in front. -/
theorem Run.ahead (hserves : Serves step ok obs Inv line) (h : Run step ok s₀ is s) (hinv : Inv s₀)
    (hstays : ∀ js t, js <+: is → Run step ok s₀ js t → p ∈ line t) :
    (line s).idxOf p + (trace step obs s₀ is).length ≤ (line s₀).idxOf p := by
  have hrun : Inv s ∧ ((∀ js t, js <+: is → Run step ok s₀ js t → p ∈ line t) →
      (line s).idxOf p + (trace step obs s₀ is).length ≤ (line s₀).idxOf p) := by
    clear hstays
    induction h with
    | nil => exact ⟨hinv, fun _ => Nat.le_refl _⟩
    | @snoc is s i s' hrun hok hstep ih =>
      refine ⟨hserves.preserved s i s' ih.1 hok hstep, fun hstays => ?_⟩
      have hbefore := ih.2 fun js t hjs => hstays js t (hjs.trans (List.prefix_append is [i]))
      have hp := hstays is s (List.prefix_append is [i]) hrun
      have hp' := hstays (is ++ [i]) s' (List.prefix_refl _) (.snoc hrun hok hstep)
      obtain ⟨d, hd, hmoves⟩ := hserves.moves s i s' ih.1 hok hstep
      have hahead := hmoves.ahead (hserves.nodup s ih.1) hp hp'
      rw [hrun.trace_snoc hstep, List.length_append]
      omega
  exact hrun.2 hstays

end Runs

end MultiPandOS.Line
