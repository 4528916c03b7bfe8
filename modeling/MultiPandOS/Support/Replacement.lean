import Mathlib.Data.List.Count
import MultiPandOS.Library.Rotation
import MultiPandOS.Phase3.VmSupport

/-! Page replacement.

`frameIndex` counts the calls of `pageReplacement` that find the pool full, and its
remainder is the victim. As an `int` it overflows at the call number 2^31, where the
remainder is 0 as it would be without an overflow; from the next call on the remainder is
negative and names no frame. Up to there the frames take turns. -/
namespace MultiPandOS
open Rotation

/-- The swap pool, as a call of `pageReplacement` finds it. -/
abbrev Pool := Frame → Swap

def Pool.full (pool : Pool) : Prop := ∀ c, (pool c).swAsid ≠ -1

instance (pool : Pool) : Decidable pool.full := inferInstanceAs (Decidable (∀ _, _))

/-- The answers of the calls that find the given pools, one after the other; between two
calls the pager and `freeSwapFrames` make any other pool of the last one. -/
def replacements : List Pool → Vm → Option (List (Pool × Frame))
  | [], _ => some []
  | pool :: pools, vm =>
    (pageReplacement {vm with swapPool := pool}).bind fun (f, vm) =>
      (replacements pools vm).map fun answers => (pool, f) :: answers

/-- The frames that were taken from a page, in order. -/
def victims (answers : List (Pool × Frame)) : List Frame :=
  (answers.filter fun r => decide r.1.full).map Prod.snd

/-- What `pageReplacement` owes for its answers. -/
structure Replaces (answers : List (Pool × Frame)) : Prop where
  free : ∀ r ∈ answers, ¬ r.1.full → (r.1 r.2).swAsid = -1
  distinct : ∀ i, (((victims answers).drop i).take POOLSIZE).Nodup
  /-- Nobody loses a page twice before everybody else has lost one. -/
  between : ∀ (i j : Nat) (f : Frame), i < j → (victims answers)[i]? = some f → (victims answers)[j]? = some f →
    ∀ g, ∃ k, i ≤ k ∧ k < j ∧ (victims answers)[k]? = some g

section Call
variable (vm : Vm) {k : Nat}

theorem find_free (h : ¬ Pool.full vm.swapPool) :
    ∃ c, pageReplacement vm = some (c, vm) ∧ (vm.swapPool c).swAsid = -1 := by
  obtain ⟨c, hc⟩ := not_forall.mp h
  have hsome : ((List.finRange POOLSIZE).find? fun c => (vm.swapPool c).swAsid == -1).isSome := by
    rw [List.find?_isSome]
    exact ⟨c, List.mem_finRange c, beq_iff_eq.mpr (not_not.mp hc)⟩
  obtain ⟨d, hd⟩ := Option.isSome_iff_exists.mp hsome
  refine ⟨d, by simp only [pageReplacement, hd], ?_⟩
  exact eq_of_beq (@List.find?_some _ (fun c => (vm.swapPool c).swAsid == -1) d _ hd)

theorem pageReplacement_full (h : Pool.full vm.swapPool) : pageReplacement vm =
    (arrayIndex POOLSIZE ((vm.frameIndex + 1).srem 16)).map fun f =>
      (f, {vm with frameIndex := vm.frameIndex + 1}) := by
  have hnone : ((List.finRange POOLSIZE).find? fun c => (vm.swapPool c).swAsid == -1) = none := by
    rw [List.find?_eq_none]
    intro c _ hc
    exact h c (eq_of_beq hc)
  simp only [pageReplacement, hnone]

/-- The remainder of a counter that has not overflowed, or only just. -/
theorem srem_counter (h : k ≤ 2 ^ 31) : ((BitVec.ofNat 32 k).srem 16).toNat = k % 16 := by
  rcases Nat.lt_or_eq_of_le h with hlt | rfl
  · have hmsb : (BitVec.ofNat 32 k).msb = false := by
      rw [BitVec.msb_eq_false_iff_two_mul_lt, BitVec.toNat_ofNat]
      omega
    have hmsb16 : (16 : Word).msb = false := by decide
    rw [BitVec.srem_eq, hmsb, hmsb16]
    simp only [BitVec.toNat_umod, BitVec.toNat_ofNat, show (16 : Word).toNat = 16 from rfl]
    omega
  · decide

/-- The next frame in turn. -/
theorem pageReplacement_turn (h : Pool.full vm.swapPool) (hindex : vm.frameIndex = BitVec.ofNat 32 k)
    (hk : k + 1 ≤ 2 ^ 31) : ∃ f : Frame, f.val = (k + 1) % POOLSIZE ∧
      pageReplacement vm = some (f, {vm with frameIndex := BitVec.ofNat 32 (k + 1)}) := by
  have hnext : vm.frameIndex + 1 = BitVec.ofNat 32 (k + 1) := by
    rw [hindex, BitVec.ofNat_add]
    rfl
  have hrem := srem_counter hk
  have hlt : ((BitVec.ofNat 32 (k + 1)).srem 16).toNat < POOLSIZE := by
    rw [hrem]
    exact Nat.mod_lt _ (by decide)
  refine ⟨⟨_, hlt⟩, hrem, ?_⟩
  rw [pageReplacement_full vm h, hnext, arrayIndex, dif_pos hlt]
  rfl

/-- The call after the overflow. -/
theorem pageReplacement_overflow (h : Pool.full vm.swapPool) (hindex : vm.frameIndex = BitVec.ofNat 32 (2 ^ 31)) :
    pageReplacement vm = none := by
  have hout : arrayIndex POOLSIZE ((BitVec.ofNat 32 (2 ^ 31) + 1).srem 16) = none := by decide
  rw [pageReplacement_full vm h, hindex, hout]
  rfl

end Call

/-- The calls after the first `k` that found the pool full. -/
theorem replacements_turns (pools : List Pool) (vm : Vm) {k : Nat} (hindex : vm.frameIndex = BitVec.ofNat 32 k)
    (hk : k + (pools.countP fun pool => decide pool.full) ≤ 2 ^ 31) :
    ∃ answers, replacements pools vm = some answers ∧ (∀ r ∈ answers, ¬ r.1.full → (r.1 r.2).swAsid = -1) ∧
      InTurn (k + 1) (victims answers) := by
  induction pools generalizing vm k with
  | nil => exact ⟨[], rfl, by simp, .nil⟩
  | cons pool pools ih =>
    by_cases hfull : pool.full
    · rw [List.countP_cons_of_pos (by simpa using hfull)] at hk
      obtain ⟨f, hf, hcall⟩ :=
        pageReplacement_turn {vm with swapPool := pool} hfull hindex (by omega)
      obtain ⟨answers, hanswers, hfree, hturns⟩ := ih {vm with
        swapPool := pool, frameIndex := BitVec.ofNat 32 (k + 1)} rfl (by omega)
      refine ⟨(pool, f) :: answers, ?_, ?_, ?_⟩
      · simp only [replacements, hcall, Option.bind_some, hanswers, Option.map_some]
      · exact List.forall_mem_cons.mpr ⟨fun hnot => absurd hfull hnot, hfree⟩
      · have hvictims : victims ((pool, f) :: answers) = f :: victims answers := by
          simp [victims, hfull]
        rw [hvictims]
        exact .cons hf hturns
    · rw [List.countP_cons_of_neg (by simpa using hfull)] at hk
      obtain ⟨f, hcall, hf⟩ := find_free {vm with swapPool := pool} hfull
      obtain ⟨answers, hanswers, hfree, hturns⟩ := ih {vm with swapPool := pool} hindex hk
      refine ⟨(pool, f) :: answers, ?_, ?_, ?_⟩
      · simp only [replacements, hcall, Option.bind_some, hanswers, Option.map_some]
      · exact List.forall_mem_cons.mpr ⟨fun _ => hf, hfree⟩
      · have hvictims : victims ((pool, f) :: answers) = victims answers := by
          simp [victims, hfull]
        rw [hvictims]
        exact hturns

/-- Too many of them: one call finds no frame. -/
theorem replacements_overflow (pools : List Pool) (vm : Vm) {k : Nat} (hindex : vm.frameIndex = BitVec.ofNat 32 k)
    (hle : k ≤ 2 ^ 31) (hk : 2 ^ 31 < k + (pools.countP fun pool => decide pool.full)) :
    replacements pools vm = none := by
  induction pools generalizing vm k with
  | nil =>
    rw [List.countP_nil] at hk
    omega
  | cons pool pools ih =>
    by_cases hfull : pool.full
    · rw [List.countP_cons_of_pos (by simpa using hfull)] at hk
      rcases Nat.lt_or_eq_of_le hle with hlt | rfl
      · obtain ⟨f, -, hcall⟩ :=
          pageReplacement_turn {vm with swapPool := pool} hfull hindex (by omega)
        have hrest := ih {vm with swapPool := pool, frameIndex := BitVec.ofNat 32 (k + 1)} rfl
          (by omega) (by omega)
        simp only [replacements, hcall, Option.bind_some, hrest, Option.map_none]
      · have hcall := pageReplacement_overflow {vm with swapPool := pool} hfull hindex
        simp only [replacements, hcall, Option.bind_none]
    · rw [List.countP_cons_of_neg (by simpa using hfull)] at hk
      obtain ⟨f, hcall, -⟩ := find_free {vm with swapPool := pool} hfull
      have hrest := ih {vm with swapPool := pool} hindex hle hk
      simp only [replacements, hcall, Option.bind_some, hrest, Option.map_none]

theorem replaces_inTurn {answers : List (Pool × Frame)} {start : Nat}
    (hfree : ∀ r ∈ answers, ¬ r.1.full → (r.1 r.2).swAsid = -1) (h : InTurn start (victims answers)) :
    Replaces answers :=
  ⟨hfree, h.window_nodup, fun _ _ _ hij hi hj => h.between hij hi hj⟩

/-- **Page replacement**: since the boot every call has answered with a frame, a free one if
there is one and the next one in turn else, exactly if at most 2^31 calls have found the
pool full. -/
theorem replacements_iff (vm : Vm) (pools : List Pool) :
    (∃ answers, replacements pools {vm with frameIndex := 0} = some answers ∧ Replaces answers) ↔
      (pools.countP fun pool => decide pool.full) ≤ 2 ^ 31 := by
  constructor
  · rintro ⟨answers, hanswers, -⟩
    by_contra hmany
    rw [replacements_overflow pools _ (k := 0) rfl (by omega) (by omega)] at hanswers
    cases hanswers
  · intro hfew
    obtain ⟨answers, hanswers, hfree, hturns⟩ := replacements_turns pools
      {vm with frameIndex := 0} (k := 0) rfl (by omega)
    exact ⟨answers, hanswers, replaces_inTurn hfree hturns⟩

namespace ReplacementSample

/-- All frames hold pages of the shell. -/
def occupied : Pool := fun f => ⟨1, BitVec.ofNat 32 f.val, none⟩

theorem occupied_full : occupied.full := by
  intro c
  show (1 : Word) ≠ -1
  decide

def booted : Vm :=
  { swapPool := fun _ => Swap.free
    frameIndex := 0
    swapFrames := fun _ _ => 0
    supportPool := fun _ => ⟨0, fun _ => State.zero, fun _ => ⟨0, 0, 0⟩, fun _ => ⟨0, 0⟩⟩
    flash := fun _ _ _ => 0
    tlb := fun _ => ⟨0, 0⟩ }

end ReplacementSample

open ReplacementSample in
/-- The call number 2^31 + 1 on a full pool has a negative index. -/
theorem frameIndex_overflow :
    ¬ ∃ answers, replacements (List.replicate (2 ^ 31 + 1) occupied) booted = some answers ∧ Replaces answers := by
  rintro ⟨answers, hanswers, -⟩
  have hcount : ((List.replicate (2 ^ 31 + 1) occupied).countP fun pool => decide pool.full) = 2 ^ 31 + 1 := by
    rw [List.countP_replicate, if_pos (by simpa using occupied_full)]
  rw [replacements_overflow _ _ (k := 0) rfl (by omega) (by rw [hcount]; omega)] at hanswers
  cases hanswers

end MultiPandOS
