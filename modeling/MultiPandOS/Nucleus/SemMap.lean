import MultiPandOS.Library.Keyed
import MultiPandOS.Nucleus.Runs

/-! Every sequence of operations on the active semaphore list.

From `initASL` on, with processes inserted only while they are in no queue, the list
is a map from keys to FIFO queues with room for `MAXPROC` keys (`run_asl`): the queues
and the answers are those of `Keyed.exec`, and no operation goes through NULL.
`SemMap` is what all of them keep. -/
namespace MultiPandOS
open Keyed Runs

abbrev AslOp := Keyed.Op Addr PcbPtr

/-- One operation on the list, its answer written down. Without a value where the
code writes through NULL. -/
def aslStep (op : AslOp) (r : Nucleus × List (Reply PcbPtr)) : Option (Nucleus × List (Reply PcbPtr)) :=
  match op with
  | .insert k p => some ((insertBlocked k p r.1).1, r.2 ++ [.refused (insertBlocked k p r.1).2])
  | .remove k => some ((removeBlocked k r.1).1, r.2 ++ [.element (removeBlocked k r.1).2])
  | .out p => (outBlocked p r.1).map fun t => (t.1, r.2 ++ [.element t.2])
  | .head k => some (r.1, r.2 ++ [.element (headBlocked k r.1)])

/-- `insertBlocked` is for a process that is in no queue, under a key that is not NULL. -/
def AslRule (r : Nucleus × List (Reply PcbPtr)) : AslOp → Prop
  | .insert k p => k ≠ NULL ∧ ∀ j, p ∉ (r.1.semd j).sProcq
  | _ => True

instance (r : Nucleus × List (Reply PcbPtr)) : (op : AslOp) → Decidable (AslRule r op)
  | .insert _ _ => inferInstanceAs (Decidable (_ ∧ _))
  | .remove _ => isTrue trivial
  | .out _ => isTrue trivial
  | .head _ => isTrue trivial

/-- The list as a map. -/
def queues (s : Nucleus) : Queues Addr PcbPtr := fun k => waiting k s

/-- The descriptors are kept as they should be, and `p_semAdd` is the key of the one
queue that a pcb is in. -/
structure SemMap (s : Nucleus) : Prop where
  asl : Asl s
  nodup : ∀ k, (waiting k s).Nodup
  mem : ∀ k p, p ∈ waiting k s ↔ (s.pcb p).pSemAdd = k ∧ k ≠ NULL

/-! ### The map -/

theorem SemMap.apart {s : Nucleus} (h : SemMap s) : Apart (queues s) :=
  ⟨h.nodup, fun k k' p hp hp' => ((h.mem k p).mp hp).1.symm.trans ((h.mem k' p).mp hp').1⟩

theorem SemMap.unblocked {s : Nucleus} (h : SemMap s) {p : PcbPtr} (hp : ∀ j, p ∉ (s.semd j).sProcq) :
    (s.pcb p).pSemAdd = NULL := by
  by_contra hne
  obtain ⟨j, -, -, hj⟩ := (mem_waiting h.asl).mp ((h.mem _ p).mpr ⟨rfl, hne⟩)
  exact hp j hj

theorem Requeued.queues {k : Addr} {q : List PcbPtr} {p : PcbPtr} {w : Addr} {s s' : Nucleus}
    (h : Requeued k q p w s s') : queues s' = Function.update (queues s) k q := by
  funext k'
  rw [Function.update_apply]
  exact h.waiting k'

theorem Requeued.pSemAdd {k : Addr} {q : List PcbPtr} {p : PcbPtr} {w : Addr} {s s' : Nucleus}
    (h : Requeued k q p w s s') (x : PcbPtr) : (s'.pcb x).pSemAdd = if x = p then w else (s.pcb x).pSemAdd := by
  rw [h.frame]
  by_cases hx : x = p <;> simp [hx]

theorem SemMap.append {s s' : Nucleus} (h : SemMap s) {k : Addr} (hk : k ≠ NULL) {p : PcbPtr}
    (hp : (s.pcb p).pSemAdd = NULL) (hre : Requeued k (waiting k s ++ [p]) p k s s') : SemMap s' := by
  have hnot : ∀ k', p ∉ waiting k' s := by
    intro k' hmem
    obtain ⟨hkey, hne⟩ := (h.mem k' p).mp hmem
    exact hne (hkey.symm.trans hp)
  refine ⟨hre.asl, fun k' => ?_, fun k' x => ?_⟩
  · rw [hre.waiting k']
    by_cases hkk : k' = k
    · rw [if_pos hkk]
      exact List.nodup_append_comm.mp (List.nodup_cons.mpr ⟨hnot k, h.nodup k⟩)
    · rw [if_neg hkk]
      exact h.nodup k'
  · rw [hre.waiting k', hre.pSemAdd x]
    by_cases hkk : k' = k
    · subst hkk
      by_cases hx : x = p
      · simp [hx, hk]
      · simp [hx, h.mem k' x]
    · by_cases hx : x = p
      · subst hx
        simp [hkk, hnot k', Ne.symm hkk]
      · simp [hkk, hx, h.mem k' x]

theorem SemMap.erase {s s' : Nucleus} (h : SemMap s) {k : Addr} {p : PcbPtr} (hp : p ∈ waiting k s)
    (hre : Requeued k ((waiting k s).erase p) p NULL s s') : SemMap s' := by
  obtain ⟨hkey, hk⟩ := (h.mem k p).mp hp
  refine ⟨hre.asl, fun k' => ?_, fun k' x => ?_⟩
  · rw [hre.waiting k']
    by_cases hkk : k' = k
    · rw [if_pos hkk]
      exact (h.nodup k).erase p
    · rw [if_neg hkk]
      exact h.nodup k'
  · rw [hre.waiting k', hre.pSemAdd x]
    by_cases hkk : k' = k
    · subst hkk
      by_cases hx : x = p
      · subst hx
        simp [(h.nodup k').mem_erase_iff, Ne.symm hk]
      · simp [(h.nodup k').mem_erase_iff, hx, h.mem k' x]
    · by_cases hx : x = p
      · subst hx
        have hnot : x ∉ waiting k' s := fun hx' => hkk (((h.mem k' x).mp hx').1.symm.trans hkey)
        simp only [if_neg hkk, hnot, if_true, false_iff, not_and, not_not]
        exact fun hnull => hnull.symm
      · simp [hkk, hx, h.mem k' x]

/-! ### How many keys are active -/

theorem semd_length {s : Nucleus} (h : Asl s) : s.semdH.length + s.semdFreeH.length = MAXPROC := by
  have huniv : (s.semdH ++ s.semdFreeH).toFinset = Finset.univ := by
    apply Finset.eq_univ_of_forall
    intro j
    rw [List.mem_toFinset, List.mem_append]
    exact h.cover j
  rw [← List.length_append, ← List.toFinset_card_of_nodup h.nodup, huniv, Finset.card_univ, Fintype.card_fin]

theorem active_queues {s : Nucleus} (h : Asl s) :
    active (queues s) = Set.image (fun j => (s.semd j).sKey) ↑s.semdH.toFinset := by
  apply Set.ext
  intro k
  constructor
  · intro hk
    obtain ⟨p, hp⟩ := List.exists_mem_of_ne_nil _ hk
    obtain ⟨j, hj, hkey, -⟩ := (mem_waiting h).mp hp
    exact ⟨j, by simpa using hj, hkey⟩
  · rintro ⟨j, hj, hkey⟩
    have hj : j ∈ s.semdH := by simpa using hj
    show waiting k s ≠ []
    rw [waiting_of_mem h hj hkey]
    exact h.nonempty j hj

theorem active_ncard {s : Nucleus} (h : Asl s) : (active (queues s)).ncard = s.semdH.length := by
  have hinj : Set.InjOn (fun j => (s.semd j).sKey) ↑s.semdH.toFinset := by
    intro i hi j hj hij
    exact h.keys i (by simpa using hi) j (by simpa using hj) hij
  rw [active_queues h, hinj.ncard_image, Set.ncard_coe_finset,
    List.toFinset_card_of_nodup (List.nodup_append.mp h.nodup).1]

theorem semdFreeH_eq_nil {s : Nucleus} (h : Asl s) :
    s.semdFreeH = [] ↔ (active (queues s)).ncard = MAXPROC := by
  rw [active_ncard h, ← List.length_eq_zero_iff]
  have hlen := semd_length h
  omega

/-- `insertBlocked` answers TRUE when the key is new and no descriptor is left. -/
theorem insertBlocked_full {s : Nucleus} (h : Asl s) (k : Addr) (p : PcbPtr) :
    (insertBlocked k p s).2 = true ↔ queues s k = [] ∧ (active (queues s)).ncard = MAXPROC := by
  rw [← semdFreeH_eq_nil h]
  cases hf : findSemd k s with
  | some j =>
    obtain ⟨hj, hkey⟩ := (findSemd_eq_some h).mp hf
    have hne : queues s k ≠ [] := by
      show waiting k s ≠ []
      rw [waiting_of_mem h hj hkey]
      exact h.nonempty j hj
    simp [insertBlocked, hf, hne]
  | none =>
    have hnil : queues s k = [] := waiting_of_forall_ne (findSemd_eq_none.mp hf)
    cases hfree : s.semdFreeH <;> simp [insertBlocked, hf, hfree, hnil]

theorem insertBlocked_unchanged {s : Nucleus} {k : Addr} {p : PcbPtr} (h : (insertBlocked k p s).2 = true) :
    (insertBlocked k p s).1 = s := by
  cases hf : findSemd k s with
  | some j => simp [insertBlocked, hf] at h
  | none =>
    cases hfree : s.semdFreeH with
    | nil => simp only [insertBlocked, hf, hfree]
    | cons j rest => simp [insertBlocked, hf, hfree] at h

/-! ### One operation -/

/-- What an operation does to the map and answers is what the abstract one does. -/
def Simulates (op : AslOp) (r : Nucleus × List (Reply PcbPtr)) : Prop :=
  ∃ s', aslStep op r = some (s', r.2 ++ [(op.apply MAXPROC (queues r.1)).2]) ∧ SemMap s' ∧
    queues s' = (op.apply MAXPROC (queues r.1)).1

section Step
variable {r : Nucleus × List (Reply PcbPtr)} (h : SemMap r.1)
include h

theorem insert_simulates {k : Addr} {p : PcbPtr} (hk : k ≠ NULL) (hp : ∀ j, p ∉ (r.1.semd j).sProcq) :
    Simulates (.insert k p) r := by
  have hfree : r.1.semdFreeH ≠ [] := by
    refine Spread.semdFreeH_ne_nil (p := p)
      ⟨h.asl.cover, h.asl.nonempty, fun i hi j hj x hxi hxj => ?_, fun j _ => hp j⟩
    exact h.asl.keys i hi j hj (h.apart.unique _ _ x (mem_sProcq h.asl hxi).2 (mem_sProcq h.asl hxj).2)
  obtain ⟨hres, hre⟩ := insertBlocked_requeued h.asl hk (p := p) hfree
  have happly : (Op.insert k p).apply MAXPROC (queues r.1) =
      (Function.update (queues r.1) k (queues r.1 k ++ [p]), .refused false) := by
    have hnot : ¬(queues r.1 k = [] ∧ (active (queues r.1)).ncard = MAXPROC) := by
      rw [← insertBlocked_full h.asl k p, hres]
      exact Bool.false_ne_true
    simp only [Op.apply, if_neg hnot]
  refine ⟨(insertBlocked k p r.1).1, ?_, h.append hk (h.unblocked hp) hre, ?_⟩
  · simp only [aslStep, hres, happly]
  · rw [happly]
    exact hre.queues

theorem remove_simulates (k : Addr) : Simulates (.remove k) r := by
  cases hq : waiting k r.1 with
  | nil =>
    have hnil : queues r.1 k = [] := hq
    refine ⟨r.1, ?_, h, (update_tail_of_nil hnil).symm⟩
    simp only [aslStep, removeBlocked_nil h.asl hq, Op.apply, hnil, List.head?_nil]
  | cons p rest =>
    have hcons : queues r.1 k = p :: rest := hq
    obtain ⟨hres, hre⟩ := removeBlocked_requeued h.asl hq
    refine ⟨(removeBlocked k r.1).1, ?_, h.erase (p := p) (k := k) (by simp [hq]) ?_, ?_⟩
    · simp only [aslStep, hres, Op.apply, hcons, List.head?_cons]
    · rw [hq, List.erase_cons_head]
      exact hre
    · simp only [Op.apply, hcons, List.tail_cons]
      exact hre.queues

theorem out_simulates (p : PcbPtr) : Simulates (.out p) r := by
  by_cases hp : (r.1.pcb p).pSemAdd = NULL
  · have hnot : ∀ k, p ∉ queues r.1 k := by
      intro k hmem
      obtain ⟨hkey, hne⟩ := (h.mem k p).mp hmem
      exact hne (hkey.symm.trans hp)
    refine ⟨r.1, ?_, h, ?_⟩
    · simp only [aslStep, outBlocked_null h.asl hp, Op.apply, hnot, exists_false, if_false, Option.map_some]
    · funext k
      exact (List.erase_of_not_mem (hnot k)).symm
  · have hmem : p ∈ waiting (r.1.pcb p).pSemAdd r.1 := (h.mem _ p).mpr ⟨rfl, hp⟩
    obtain ⟨s', hres, hre⟩ := outBlocked_requeued h.asl hmem
    have hex : ∃ k, p ∈ queues r.1 k := ⟨_, hmem⟩
    refine ⟨s', ?_, h.erase hmem hre, ?_⟩
    · simp only [aslStep, hres, Op.apply, if_pos hex, Option.map_some]
    · exact hre.queues.trans (h.apart.erase hmem).symm

theorem head_simulates (k : Addr) : Simulates (.head k) r := by
  have hhead : headBlocked k r.1 = (queues r.1 k).head? := headBlocked_eq k r.1
  exact ⟨r.1, by simp only [aslStep, Op.apply, hhead], h, rfl⟩

theorem asl_simulates {op : AslOp} (hop : AslRule r op) : Simulates op r := by
  cases op with
  | insert k p => exact insert_simulates h hop.1 hop.2
  | remove k => exact remove_simulates h k
  | out p => exact out_simulates h p
  | head k => exact head_simulates h k

end Step

/-! ### Every run -/

theorem initASL_semMap {s : Nucleus} (h : ∀ p, (s.pcb p).pSemAdd = NULL) : SemMap (initASL s) := by
  have hnil : ∀ k, waiting k (initASL s) = [] := fun k => waiting_of_forall_ne fun j hj => (List.not_mem_nil hj).elim
  have hall : ∀ j : SemdPtr, j ∈ (initASL s).semdFreeH := by
    show ∀ j : SemdPtr, j ∈ (List.finRange MAXPROC).foldl (fun q c => c :: q) []
    decide
  have hnd : (initASL s).semdFreeH.Nodup := by
    show ((List.finRange MAXPROC).foldl (fun q c => c :: q) [] : List SemdPtr).Nodup
    decide
  refine ⟨⟨hnd, fun j => Or.inr (hall j), fun i hi => (List.not_mem_nil hi).elim,
    fun j hj => (List.not_mem_nil hj).elim, fun j hj => (List.not_mem_nil hj).elim, fun j _ => rfl⟩,
    fun k => ?_, fun k p => ?_⟩
  · rw [hnil k]
    exact List.nodup_nil
  · have hp : ((initASL s).pcb p).pSemAdd = NULL := h p
    rw [hnil k, hp]
    simp only [List.not_mem_nil, false_iff, not_and, not_not]
    exact fun hk => hk.symm

/-- **The active semaphore list is a map of FIFO queues**: after any operations from
`initASL` its queues and answers are those of the map, no further operation goes
through NULL, and `insertBlocked` refuses a process exactly if its key is new and
`MAXPROC` keys are active, changing nothing. -/
theorem run_asl {s₀ : Nucleus} (h₀ : ∀ p, (s₀.pcb p).pSemAdd = NULL) {ops : List AslOp}
    {r : Nucleus × List (Reply PcbPtr)} (h : Run aslStep AslRule (initASL s₀, []) ops r) :
    SemMap r.1 ∧ (queues r.1, r.2) = Keyed.exec MAXPROC (fun _ => []) ops ∧
      (∀ op, AslRule r op → (aslStep op r).isSome) ∧
      ∀ k p, ((insertBlocked k p r.1).2 = true ↔
          queues r.1 k = [] ∧ (active (queues r.1)).ncard = MAXPROC) ∧
        ((insertBlocked k p r.1).2 = true → (insertBlocked k p r.1).1 = r.1) := by
  have hmap : SemMap r.1 ∧ (queues r.1, r.2) = Keyed.exec MAXPROC (fun _ => []) ops := by
    induction h with
    | nil =>
      have hnil : queues (initASL s₀) = fun _ => [] := by
        funext k
        exact waiting_of_forall_ne fun j hj => (List.not_mem_nil hj).elim
      exact ⟨initASL_semMap h₀, by rw [hnil]; rfl⟩
    | @snoc ops r op r' _ hop hstep ih =>
      obtain ⟨hm, hexec⟩ := ih
      obtain ⟨s', hres, hm', hq⟩ := asl_simulates hm hop
      obtain rfl := Option.some.inj (hstep.symm.trans hres)
      exact ⟨hm', by rw [exec_snoc, ← hexec, ← hq]⟩
  refine ⟨hmap.1, hmap.2, fun op hop => ?_, fun k p =>
    ⟨insertBlocked_full hmap.1.asl k p, insertBlocked_unchanged⟩⟩
  obtain ⟨s', hres, -⟩ := asl_simulates hmap.1 hop
  rw [hres]
  rfl

namespace Sample

/-- The first half of the table. -/
def blocker (i : Fin 10) : PcbPtr := Fin.castLE (Nat.le_add_right 10 10) i

/-- Three processes on one semaphore and one on another; one leaves from the middle,
then again from nowhere, and the queues are emptied. -/
def aslOps : List AslOp :=
  [.insert 4 firstProcess, .insert 4 child, .insert 8 (blocker 3), .insert 4 (blocker 7), .out child,
    .out child, .head 8, .remove 4, .remove 8, .remove 8, .remove 4]

end Sample

open Sample in
theorem run_asl_sample : ∃ r, exec aslStep aslOps (initASL boot.globals, []) = some r ∧ SemMap r.1 ∧
    (queues r.1, r.2) = Keyed.exec MAXPROC (fun _ => []) aslOps := by
  have hfollows : Follows aslStep AslRule aslOps (initASL boot.globals, []) := by decide +kernel
  obtain ⟨r, hexec, hrun⟩ := hfollows.run
  obtain ⟨hmap, hq, -⟩ := @run_asl boot.globals (fun _ => rfl) _ _ hrun
  exact ⟨r, hexec, hmap, hq⟩

end MultiPandOS
