import MultiPandOS.Nucleus.Terminate

/-! `killProcess` from any placement of the processes.

`killProcess_killed` is about states whose `processCount` is right. The count is only
ever decremented, so what else `killProcess` does is the same from any count
(`killProcess_recount`), and the subtree of its argument is what it takes away, from
wherever its processes are (`killProcess_subtree`). -/
namespace MultiPandOS
open Forest Runs

/-! ### The count -/

/-- Another `processCount`. -/
def Nucleus.recount (w : Word) (s : Nucleus) : Nucleus := {s with processCount := s.processCount + w}

theorem outChild_recount (w : Word) (p : PcbPtr) (s : Nucleus) :
    (outChild p (s.recount w)).1 = (outChild p s).1.recount w := by
  have hparent : ((s.recount w).pcb p).pParent = (s.pcb p).pParent := rfl
  cases hp : (s.pcb p).pParent with
  | none => simp only [outChild, hparent, hp]
  | some q =>
    simp only [outChild, hparent, hp]
    rfl

theorem removeChild_recount (w : Word) (p : PcbPtr) (s : Nucleus) :
    removeChild p (s.recount w) = ((removeChild p s).1.recount w, (removeChild p s).2) := by
  have hchild : ((s.recount w).pcb p).pChild = (s.pcb p).pChild := rfl
  cases hp : (s.pcb p).pChild with
  | nil => simp only [removeChild, hchild, hp]
  | cons child rest =>
    simp only [removeChild, hchild, hp]
    rfl

theorem reclaim_recount (w : Word) (j : SemdPtr) (s : Nucleus) :
    reclaim j (s.recount w) = (reclaim j s).recount w := by
  unfold reclaim
  show (if (s.semd j).sProcq.isEmpty then _ else _) = _
  cases (s.semd j).sProcq.isEmpty <;> rfl

theorem outBlocked_recount (w : Word) (p : PcbPtr) (s : Nucleus) :
    outBlocked p (s.recount w) = (outBlocked p s).map fun r => (r.1.recount w, r.2) := by
  have hfind : findSemd ((s.recount w).pcb p).pSemAdd (s.recount w) = findSemd (s.pcb p).pSemAdd s := rfl
  unfold outBlocked
  rw [hfind]
  cases findSemd (s.pcb p).pSemAdd s with
  | none => rfl
  | some j =>
    have hsemd : (s.recount w).semd j = s.semd j := rfl
    simp only [hsemd, outProcQ]
    by_cases hp : p ∈ (s.semd j).sProcq
    · simp only [if_pos hp, Option.map_some]
      rw [← reclaim_recount]
      rfl
    · simp only [if_neg hp, Option.map_none]

theorem killOne_recount (L : Layout) (w : Word) (p : PcbPtr) (s : Nucleus) :
    killOne L p (s.recount w) = (killOne L p s).map (Nucleus.recount w) := by
  have hcount : ∀ n : Word, n + w - 1 = n - 1 + w := fun n => by
    rw [BitVec.sub_eq_add_neg, BitVec.sub_eq_add_neg, BitVec.add_assoc, BitVec.add_comm w, ← BitVec.add_assoc]
  simp only [killOne, outChild_recount]
  generalize (outChild p s).1 = s₁
  have hpcb : (s₁.recount w).pcb = s₁.pcb := rfl
  rw [hpcb]
  by_cases hs : (s₁.pcb p).pSemAdd ≠ NULL
  · have hout : ∀ t : Nucleus,
        ((outBlocked p (t.recount w)).map Prod.fst).map
            (fun t => freePcb p {t with processCount := t.processCount - 1}) =
          (((outBlocked p t).map Prod.fst).map
            (fun t => freePcb p {t with processCount := t.processCount - 1})).map (Nucleus.recount w) := by
      intro t
      rw [outBlocked_recount]
      cases outBlocked p t with
      | none => rfl
      | some r => simp only [Option.map_some, Nucleus.recount, freePcb, hcount]
    rw [if_pos hs, if_pos hs]
    by_cases hc : (s₁.pcb p).pSemAdd = L.devSem PSEUDOINDEX
    · simp only [if_pos hc]
      exact hout {s₁ with softBlockCount := s₁.softBlockCount - 1}
    · simp only [if_neg hc]
      exact hout s₁
  · rw [if_neg hs, if_neg hs]
    simp only [Option.map_some, Nucleus.recount, freePcb, hcount]

theorem kill_recount (L : Layout) (w : Word) (n : Nat) :
    (∀ p s, killProcess L n p (s.recount w) = (killProcess L n p s).map (Nucleus.recount w)) ∧
      ∀ p s, killChildren L n p (s.recount w) = (killChildren L n p s).map (Nucleus.recount w) := by
  induction n with
  | zero => exact ⟨fun _ _ => rfl, fun _ _ => rfl⟩
  | succ n ih =>
    obtain ⟨ihProcess, ihChildren⟩ := ih
    constructor
    · intro p s
      simp only [killProcess, ihChildren]
      cases killChildren L n p s with
      | none => rfl
      | some s₁ =>
        simp only [Option.map_some, Option.bind_some]
        exact killOne_recount L w p s₁
    · intro p s
      simp only [killChildren, removeChild_recount]
      obtain ⟨s₁, child⟩ := removeChild p s
      cases child with
      | none => rfl
      | some c =>
        simp only [ihProcess]
        cases killProcess L n c s₁ with
        | none => rfl
        | some s₂ =>
          simp only [Option.map_some, Option.bind_some]
          exact ihChildren p s₂

theorem killProcess_recount (L : Layout) (w : Word) (n : Nat) (p : PcbPtr) (s : Nucleus) :
    killProcess L n p (s.recount w) = (killProcess L n p s).map (Nucleus.recount w) := (kill_recount L w n).1 p s

/-! ### The subtree -/

/-- The process tree is well formed and every live pcb is in one place at most: on the
processor, in the ready queue or in the queue its `p_semAdd` names. `processCount` may
be anything. -/
structure Placed (s : Nucleus) : Prop where
  asl : Asl s
  ok : View.Ok {s.view with count := BitVec.ofNat 32 (MAXPROC - s.pcbFreeH.length)}

theorem Sound.placed {s : Nucleus} (hs : Sound s) : Placed s := by
  refine ⟨hs.asl, ?_⟩
  have hcount : BitVec.ofNat 32 (MAXPROC - s.pcbFreeH.length) = s.view.count := hs.ok.count.symm
  rw [hcount]
  exact hs.ok

/-- The processes `ks`, the subtree of `r`, are gone, and nothing else has moved. -/
structure SubtreeKilled (ks : List PcbPtr) (r : PcbPtr) (s s' : Nucleus) : Prop where
  subtree : ∀ q, q ∈ ks ↔ Below s.links r q
  nodup : ks.Nodup
  freed : s'.pcbFreeH = ks.reverse ++ s.pcbFreeH
  free_nodup : s'.pcbFreeH.Nodup
  unqueued : ∀ q ∈ ks, q ∉ s'.readyQueue ∧ (∀ j, q ∉ (s'.semd j).sProcq) ∧ (s'.pcb q).pSemAdd = NULL
  unlinked : ∀ q ∈ ks, (s'.pcb q).pParent = none ∧ (s'.pcb q).pChild = [] ∧ ∀ p, q ∉ (s'.pcb p).pChild
  count : s'.processCount = s.processCount - BitVec.ofNat 32 ks.length
  others : ∀ q ∉ ks, (s'.pcb q).pSemAdd = (s.pcb q).pSemAdd ∧ (s'.pcb q).pParent = (s.pcb q).pParent ∧
    (s'.pcb q).pChild = (s.pcb q).pChild.erase r
  current : s'.currentProcess = s.currentProcess
  ready : s'.readyQueue = s.readyQueue.filter (· ∉ ks)
  blocked : ∀ k, waiting k s' = (waiting k s).filter (· ∉ ks)
  mem : s'.mem = s.mem
  asl : Asl s'
  reclaimed : ∀ j, j ∈ s'.semdFreeH ↔ (s'.semd j).sProcq = []

theorem Asl.free_iff {s : Nucleus} (h : Asl s) (j : SemdPtr) : j ∈ s.semdFreeH ↔ (s.semd j).sProcq = [] := by
  constructor
  · exact h.idle j
  · intro hj
    rcases h.cover j with hH | hF
    · exact absurd hj (h.nonempty j hH)
    · exact hF

/-- Only `r` itself hangs under a node outside of its subtree. -/
theorem child_erase_root {f : Links PcbPtr} (hwf : Wf f) {r x : PcbPtr} {ks : List PcbPtr}
    (hks : ∀ q, q ∈ ks ↔ Below f r q) (hx : x ∉ ks) : (f.child x).filter (· ∉ ks) = (f.child x).erase r := by
  rw [erase_eq_filter (hwf.nodup x)]
  apply List.filter_congr
  intro y hy
  have hiff : y ∈ ks ↔ y = r := by
    constructor
    · intro hyk
      rcases Relation.ReflTransGen.cases_tail ((hks y).mp hyk) with hyr | ⟨z, hz, hzy⟩
      · exact hyr
      · have hzx : z = x := Option.some.inj (((hwf.child z y).mp hzy).symm.trans ((hwf.child x y).mp hy))
        exact absurd ((hks x).mpr (hzx ▸ hz)) hx
    · intro hyr
      rw [hks, hyr]
      exact .refl
  simp [hiff]

/-- What `Killed` says of the code's own fields. -/
theorem Killed.subtreeKilled {L : Layout} {ks : List PcbPtr} {s s' : Nucleus} (h : Killed L ks s s')
    (hok : s.view.Ok) {r : PcbPtr} (hks : ∀ q, q ∈ ks ↔ Below s.links r q) : SubtreeKilled ks r s s' := by
  have hok' : s'.view.Ok := h.ok hok
  have hfree : s'.pcbFreeH = ks.reverse ++ s.pcbFreeH := congrArg View.free h.view
  have hsem : ∀ q, (s'.pcb q).pSemAdd = if q ∈ ks then NULL else (s.pcb q).pSemAdd :=
    fun q => congrFun (congrArg View.semAdd h.view) q
  have hlinks : s'.links = prune ks s.links := congrArg View.links h.view
  have hparent : ∀ q, (s'.pcb q).pParent = if q ∈ ks then none else (s.pcb q).pParent :=
    fun q => congrFun (congrArg Links.parent hlinks) q
  have hchild : ∀ q, (s'.pcb q).pChild = if q ∈ ks then [] else (s.pcb q).pChild.filter (· ∉ ks) :=
    fun q => congrFun (congrArg Links.child hlinks) q
  have hready : s'.readyQueue = s.readyQueue.filter (· ∉ ks) := congrArg View.ready h.view
  refine ⟨hks, h.nodup, hfree, hok'.free_nodup, fun q hq => ⟨?_, fun j hj => ?_, by rw [hsem, if_pos hq]⟩,
    fun q hq => ⟨by rw [hparent, if_pos hq], by rw [hchild, if_pos hq], fun p hp => ?_⟩,
    congrArg View.count h.view,
    fun q hq => ⟨by rw [hsem, if_neg hq], by rw [hparent, if_neg hq], ?_⟩, congrArg View.current h.view,
    hready, fun k => congrFun (congrArg View.waiting h.view) k, congrArg View.mem h.view, h.asl, h.asl.free_iff⟩
  · rw [hready, List.mem_filter]
    simp [hq]
  · obtain ⟨-, hw⟩ := mem_sProcq h.asl hj
    obtain ⟨hkey, hne⟩ := (hok'.mem_waiting _ q).mp hw
    have hnull : (s'.pcb q).pSemAdd = NULL := by rw [hsem, if_pos hq]
    exact hne (hkey.symm.trans hnull)
  · have hp' : (s'.pcb q).pParent = some p := (hok'.wf.child p q).mp hp
    rw [hparent, if_pos hq] at hp'
    cases hp'
  · rw [hchild, if_neg hq]
    exact child_erase_root hok.wf hks hq

theorem recount_view {s : Nucleus} (n : Word) :
    (s.recount (n - s.processCount)).view = {s.view with count := n} := by
  have hcount : s.processCount + (n - s.processCount) = n := by
    rw [BitVec.add_comm]
    exact BitVec.sub_add_cancel n s.processCount
  exact View.ext rfl rfl rfl rfl rfl rfl hcount rfl rfl

/-- **`killProcess` kills exactly the subtree of its argument**, from any placement of
the processes. -/
theorem killProcess_subtree (L : Layout) {s : Nucleus} (h : Placed s) {r : PcbPtr} (hr : r ∉ s.pcbFreeH) :
    ∃ ks s', killProcess L killFuel r s = some s' ∧ SubtreeKilled ks r s s' := by
  let w := BitVec.ofNat 32 (MAXPROC - s.pcbFreeH.length) - s.processCount
  have hok : (s.recount w).view.Ok := by
    rw [recount_view]
    exact h.ok
  obtain ⟨ks, s₁, hkill, hk, hks⟩ :=
    killProcess_killed L (s := s.recount w) (h.asl.congr rfl rfl rfl) hok (p := r) hr
  rw [killProcess_recount] at hkill
  obtain ⟨s', hs', rfl⟩ := Option.map_eq_some_iff.mp hkill
  have hsub := hk.subtreeKilled hok hks
  have hcount : s'.processCount = s.processCount - BitVec.ofNat 32 ks.length := by
    have hc : s'.processCount + w = s.processCount + w - BitVec.ofNat 32 ks.length := hsub.count
    rw [BitVec.sub_eq_add_neg, BitVec.add_assoc, BitVec.add_comm w, ← BitVec.add_assoc,
      ← BitVec.sub_eq_add_neg] at hc
    exact (BitVec.add_left_inj w).mp hc
  exact ⟨ks, s', hs', hsub.subtree, hsub.nodup, hsub.freed, hsub.free_nodup, hsub.unqueued, hsub.unlinked,
    hcount, hsub.others, hsub.current, hsub.ready, hsub.blocked, hsub.mem, hsub.asl.congr rfl rfl rfl,
    hsub.reclaimed⟩

open Sample in
/-- The first process and its child, the one ready and the other running. -/
theorem killProcess_subtree_sample : ∃ s, exec (exceptionHandler layout) parentAndChild (main layout boot) = some s ∧
    ∃ ks s', killProcess layout killFuel firstProcess s = some s' ∧ SubtreeKilled ks firstProcess s s' := by
  obtain ⟨s, hexec, hs, -, -, hlive, -⟩ := parentAndChild_run
  exact ⟨s, hexec, killProcess_subtree layout hs.placed hlive⟩

end MultiPandOS
