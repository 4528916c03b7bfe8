/-! Runs of a machine whose step may be refused.

`step i s` answers what the input `i` makes of the state `s`, `none` if the machine
cannot take it; `ok s i` is the rule the environment follows. A `Run` takes inputs
one at a time, all of them within the rule. What every step preserves holds at the
end of every run (`Run.invariant`), and `trace` lists what an observer of the steps
writes down. -/
namespace MultiPandOS.Runs

variable {σ ι ω : Type}

/-- The inputs taken from `s₀`, in order, and the state after them. -/
inductive Run (step : ι → σ → Option σ) (ok : σ → ι → Prop) (s₀ : σ) : List ι → σ → Prop where
  | nil : Run step ok s₀ [] s₀
  | snoc {is s i s'} : Run step ok s₀ is s → ok s i → step i s = some s' →
      Run step ok s₀ (is ++ [i]) s'

section Rule
variable {step : ι → σ → Option σ} {ok ok' : σ → ι → Prop} {s₀ s s₁ : σ} {is js : List ι}

/-- What holds at the start and is preserved by a step within the rule. -/
theorem Run.invariant (h : Run step ok s₀ is s) (Inv : σ → Prop) (start : Inv s₀)
    (preserved : ∀ s i s', Inv s → ok s i → step i s = some s' → Inv s') : Inv s := by
  induction h with
  | nil => exact start
  | snoc _ hok hstep ih => exact preserved _ _ _ ih hok hstep

theorem Run.mono (h : Run step ok s₀ is s) (hle : ∀ s i, ok s i → ok' s i) : Run step ok' s₀ is s := by
  induction h with
  | nil => exact .nil
  | snoc _ hok hstep ih => exact .snoc ih (hle _ _ hok) hstep

/-- The rule refuses everything at the start, so nothing has happened. -/
theorem Run.refused (h : Run step ok s₀ is s) (hrefused : ∀ i, ¬ ok s₀ i) : is = [] ∧ s = s₀ := by
  induction h with
  | nil => exact ⟨rfl, rfl⟩
  | snoc _ hok _ ih =>
    obtain ⟨-, rfl⟩ := ih
    exact absurd hok (hrefused _)

theorem Run.append (h : Run step ok s₀ is s₁) (h' : Run step ok s₁ js s) :
    Run step ok s₀ (is ++ js) s := by
  induction h' with
  | nil => simpa using h
  | snoc _ hok hstep ih =>
    rw [← List.append_assoc]
    exact .snoc ih hok hstep

end Rule

/-! ### Executing a list of inputs -/

/-- The inputs one after the other. -/
def exec (step : ι → σ → Option σ) : List ι → σ → Option σ
  | [], s => some s
  | i :: is, s => (step i s).bind (exec step is)

/-- The machine takes all the inputs, each within the rule. -/
def Follows (step : ι → σ → Option σ) (ok : σ → ι → Prop) : List ι → σ → Prop
  | [], _ => True
  | i :: is, s => ok s i ∧
    match step i s with
    | none => False
    | some s' => Follows step ok is s'

instance decidableFollows (step : ι → σ → Option σ) (ok : σ → ι → Prop)
    [∀ s i, Decidable (ok s i)] : (is : List ι) → (s : σ) → Decidable (Follows step ok is s)
  | [], _ => isTrue trivial
  | i :: is, s =>
    have : Decidable (match step i s with
        | none => False
        | some s' => Follows step ok is s') :=
      match step i s with
      | none => isFalse id
      | some s' => decidableFollows step ok is s'
    inferInstanceAs (Decidable (_ ∧ _))

section Exec
variable {step : ι → σ → Option σ} {ok : σ → ι → Prop} {s₀ s : σ} {is : List ι}

theorem exec_append (is js : List ι) (s : σ) :
    exec step (is ++ js) s = (exec step is s).bind (exec step js) := by
  induction is generalizing s with
  | nil => rfl
  | cons i rest ih =>
    simp only [List.cons_append, exec, Option.bind_assoc]
    congr 1
    funext s'
    exact ih s'

theorem Run.exec_eq (h : Run step ok s₀ is s) : exec step is s₀ = some s := by
  induction h with
  | nil => rfl
  | snoc _ _ hstep ih =>
    rw [exec_append, ih, Option.bind_some]
    simp only [exec, hstep, Option.bind_some]

/-- Inputs that follow the rule make a run. -/
theorem Follows.run (h : Follows step ok is s₀) : ∃ s, exec step is s₀ = some s ∧ Run step ok s₀ is s := by
  induction is generalizing s₀ with
  | nil => exact ⟨s₀, rfl, .nil⟩
  | cons i rest ih =>
    obtain ⟨hok, hrest⟩ := h
    cases hstep : step i s₀ with
    | none =>
      rw [hstep] at hrest
      exact hrest.elim
    | some s' =>
      rw [hstep] at hrest
      obtain ⟨s, hexec, hrun⟩ := ih hrest
      have hone : Run step ok s₀ ([] ++ [i]) s' := .snoc .nil hok hstep
      refine ⟨s, ?_, hone.append hrun⟩
      simp only [exec, hstep, Option.bind_some, hexec]

end Exec

/-! ### Observations -/

/-- What an observer writes down while `is` is taken from `s`. -/
def trace (step : ι → σ → Option σ) (obs : σ → ι → σ → List ω) : σ → List ι → List ω
  | _, [] => []
  | s, i :: is =>
    match step i s with
    | none => []
    | some s' => obs s i s' ++ trace step obs s' is

section Trace
variable {step : ι → σ → Option σ} {ok : σ → ι → Prop} {obs : σ → ι → σ → List ω} {s₀ s s' : σ}
  {is : List ι} {i : ι}

theorem trace_append (js : List ι) (h : exec step is s₀ = some s) :
    trace step obs s₀ (is ++ js) = trace step obs s₀ is ++ trace step obs s js := by
  induction is generalizing s₀ with
  | nil =>
    obtain rfl : s₀ = s := by simpa [exec] using h
    rfl
  | cons i rest ih =>
    obtain ⟨s₁, hstep, hrest⟩ := Option.bind_eq_some_iff.mp h
    simp only [List.cons_append, trace, hstep, ih hrest, List.append_assoc]

/-- One more step writes down one more observation. -/
theorem Run.trace_snoc (h : Run step ok s₀ is s) (hstep : step i s = some s') :
    trace step obs s₀ (is ++ [i]) = trace step obs s₀ is ++ obs s i s' := by
  rw [trace_append [i] h.exec_eq]
  simp only [trace, hstep, List.append_nil]

/-- What is written down was seen at a step of the run. -/
theorem Run.mem_trace (h : Run step ok s₀ is s) {x : ω} (hx : x ∈ trace step obs s₀ is) :
    ∃ s₁ i s₂, ok s₁ i ∧ step i s₁ = some s₂ ∧ x ∈ obs s₁ i s₂ := by
  induction h with
  | nil => cases hx
  | snoc hrun hok hstep ih =>
    rw [hrun.trace_snoc hstep] at hx
    rcases List.mem_append.mp hx with hx | hx
    · exact ih hx
    · exact ⟨_, _, _, hok, hstep, hx⟩

end Trace

end MultiPandOS.Runs
