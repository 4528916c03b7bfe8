import MultiPandOS.Library.Runs

/-! Refinement between machines that may refuse.

`Refines R x y` compares a computation `x` with its specification `y`: where `y` answers,
`x` answers too, and `R` relates the two. Refinements compose along the sequencing of both
sides (`Refines.bind`); a step that refines keeps two machines in `R` over every run
(`Run.refined`). A machine that cannot be told from its specification by what an observer
writes down is refined in the same way: the specification accepts the trace of every run
(`Run.observed`). -/
namespace MultiPandOS.Runs

variable {α β γ δ σ σ' ι ω : Type}

def Refines (R : α → β → Prop) (x : Option α) (y : Option β) : Prop := ∀ b, y = some b → ∃ a, x = some a ∧ R a b

section Answers
variable {R : α → β → Prop} {S : γ → δ → Prop} {a : α} {b : β} {x : Option α} {y : Option β}

theorem Refines.some (h : R a b) : Refines R (some a) (some b) := by
  intro b' hb
  obtain rfl : b = b' := Option.some.inj hb
  exact ⟨a, rfl, h⟩

/-- Nothing is asked of `x` where the specification refuses. -/
theorem Refines.none : Refines R x none := by
  intro b hb
  cases hb

theorem Refines.answer (h : Refines R x (Option.some b)) : ∃ a, x = Option.some a ∧ R a b := h b rfl

theorem refines_of_answer (h : x = Option.some a) (hR : R a b) : Refines R x (Option.some b) := h ▸ .some hR

theorem Refines.bind {f : α → Option γ} {g : β → Option δ} (h : Refines R x y)
    (hf : ∀ a b, R a b → y = Option.some b → Refines S (f a) (g b)) : Refines S (x.bind f) (y.bind g) := by
  intro d hd
  obtain ⟨b, hb, hg⟩ := Option.bind_eq_some_iff.mp hd
  obtain ⟨a, ha, hR⟩ := h b hb
  obtain ⟨c, hc, hS⟩ := hf a b hR hb d hg
  exact ⟨c, by rw [ha, Option.bind_some, hc], hS⟩

theorem Refines.map {f : α → γ} {g : β → δ} (h : Refines R x y) (hf : ∀ a b, R a b → S (f a) (g b)) :
    Refines S (x.map f) (y.map g) := by
  rw [Option.map_eq_bind, Option.map_eq_bind]
  exact h.bind fun a b hR _ => .some (hf a b hR)

end Answers

/-- Two machines that take the same inputs. Only the specification has to keep to the
rule. -/
theorem Run.refined {step : ι → σ → Option σ} {step' : ι → σ' → Option σ'} {ok : σ' → ι → Prop}
    {R : σ → σ' → Prop} {Inv : σ' → Prop} {n : σ} {s s₀ : σ'} {is : List ι} (h : Run step' ok s₀ is s) (start : R n s₀)
    (inv : Inv s₀) (preserved : ∀ s i s', Inv s → ok s i → step' i s = some s' → Inv s')
    (refined : ∀ n s i, R n s → Inv s → ok s i → Refines R (step i n) (step' i s)) :
    ∃ n', exec step is n = some n' ∧ R n' s := by
  suffices hboth : (∃ n', exec step is n = some n' ∧ R n' s) ∧ Inv s from hboth.1
  induction h with
  | nil => exact ⟨⟨n, rfl, start⟩, inv⟩
  | snoc _ hok hstep ih =>
    obtain ⟨⟨n₁, hexec, hR⟩, hinv⟩ := ih
    obtain ⟨n', hn', hR'⟩ := refined n₁ _ _ hR hinv hok _ hstep
    refine ⟨⟨n', ?_, hR'⟩, preserved _ _ _ hinv hok hstep⟩
    rw [exec_append, hexec, Option.bind_some]
    simp only [exec, hn', Option.bind_some]

/-- The specification takes what is observed of the machine as its inputs. -/
theorem Run.observed {step : ι → σ → Option σ} {ok : σ → ι → Prop} {obs : σ → ι → σ → List ω} {take : ω → σ' → Option σ'}
    {R : σ → σ' → Prop} {s₀ s : σ} {m₀ : σ'} {is : List ι} (h : Run step ok s₀ is s) (start : R s₀ m₀)
    (observed : ∀ s i s' m, R s m → ok s i → step i s = some s' → ∃ m', exec take (obs s i s') m = some m' ∧ R s' m') :
    ∃ m, exec take (trace step obs s₀ is) m₀ = some m ∧ R s m := by
  induction h with
  | nil => exact ⟨m₀, rfl, start⟩
  | snoc hrun hok hstep ih =>
    obtain ⟨m, hexec, hR⟩ := ih
    obtain ⟨m', htake, hR'⟩ := observed _ _ _ m hR hok hstep
    refine ⟨m', ?_, hR'⟩
    rw [hrun.trace_snoc hstep, exec_append, hexec, Option.bind_some, htake]

end MultiPandOS.Runs
