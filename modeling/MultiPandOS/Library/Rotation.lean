import Mathlib.Data.List.Basic
import Mathlib.Data.Nat.ModEq

/-! Taking turns.

A counter modulo `n` goes through the elements of `Fin n` in turn (`InTurn`). Two equal
turns are then at least `n` apart (`InTurn.spacing`), so any `n` consecutive ones are
different (`InTurn.window_nodup`), and between two equal ones everybody has had a turn
(`InTurn.between`). -/
namespace MultiPandOS.Rotation

variable {n : Nat} {start : Nat} {vs : List (Fin n)}

/-- The values of a counter, modulo `n`, from `start` on. -/
def InTurn (start : Nat) (vs : List (Fin n)) : Prop :=
  ∀ i v, vs[i]? = some v → v.val = (start + i) % n

theorem InTurn.nil : InTurn start ([] : List (Fin n)) := by
  intro i v h
  simp at h

theorem InTurn.cons {v : Fin n} (hv : v.val = start % n) (h : InTurn (start + 1) vs) : InTurn start (v :: vs) := by
  intro i w hw
  cases i with
  | zero =>
    obtain rfl : v = w := by simpa using hw
    simpa using hv
  | succ i =>
    rw [h i w (by simpa using hw)]
    congr 1
    omega

theorem InTurn.spacing (h : InTurn start vs) {i j : Nat} {v : Fin n} (hij : i < j) (hi : vs[i]? = some v)
    (hj : vs[j]? = some v) : i + n ≤ j := by
  have hmod : (start + i) % n = (start + j) % n := (h i v hi).symm.trans (h j v hj)
  have hcongr : i ≡ j [MOD n] := Nat.ModEq.add_left_cancel' start hmod
  have hdvd : n ∣ j - i := (Nat.modEq_iff_dvd' hij.le).mp hcongr
  have hle := Nat.le_of_dvd (by omega) hdvd
  omega

theorem InTurn.window_nodup (h : InTurn start vs) (i : Nat) : ((vs.drop i).take n).Nodup := by
  rw [List.Nodup, List.pairwise_iff_getElem]
  intro a b ha hb hab heq
  rw [List.length_take, List.length_drop] at ha hb
  simp only [List.getElem_take, List.getElem_drop] at heq
  have hva : vs[i + a]? = some vs[i + a] := List.getElem?_eq_getElem (by omega)
  have hvb : vs[i + b]? = some vs[i + a] := by
    rw [heq]
    exact List.getElem?_eq_getElem (by omega)
  have hle := h.spacing (by omega) hva hvb
  omega

/-- Everybody has a turn among any `n` consecutive ones. -/
theorem exists_turn (m : Nat) (v : Fin n) : ∃ d < n, (m + d) % n = v.val := by
  have hpos : 0 < n := Nat.lt_of_le_of_lt (Nat.zero_le _) v.isLt
  refine ⟨(v.val + n - m % n) % n, Nat.mod_lt _ hpos, ?_⟩
  have hlt := Nat.mod_lt m hpos
  have hm : m + (v.val + n - m % n) = v.val + n * (m / n + 1) := by
    have := Nat.div_add_mod m n
    rw [Nat.mul_add, Nat.mul_one]
    omega
  rw [Nat.add_mod_mod, hm, Nat.add_mul_mod_self_left, Nat.mod_eq_of_lt v.isLt]

theorem InTurn.between (h : InTurn start vs) {i j : Nat} {v : Fin n} (hij : i < j) (hi : vs[i]? = some v)
    (hj : vs[j]? = some v) (w : Fin n) : ∃ k, i ≤ k ∧ k < j ∧ vs[k]? = some w := by
  have hle := h.spacing hij hi hj
  have hlen : j < vs.length := by
    obtain ⟨hlt, -⟩ := List.getElem?_eq_some_iff.mp hj
    exact hlt
  obtain ⟨d, hd, hturn⟩ := exists_turn (start + i) w
  have hget : vs[i + d]? = some vs[i + d] := List.getElem?_eq_getElem (by omega)
  refine ⟨i + d, by omega, by omega, ?_⟩
  rw [hget]
  congr 1
  apply Fin.ext
  rw [h (i + d) _ hget, ← Nat.add_assoc, hturn]

end MultiPandOS.Rotation
