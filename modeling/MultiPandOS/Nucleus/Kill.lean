import MultiPandOS.Nucleus.View

/-! What `killProcess` does.

`killProcess` walks the tree below its argument, and each `killOne` on the way takes
one process off its queue and out of the tree and frees it. In all, a set of
processes closed under children is subtracted from the view and nothing else changes
(`Killed`): the subtree of the argument, itself included (`killProcess_killed`).
There are fewer links than `killFuel` allows for, so the recursion ends. -/
namespace MultiPandOS
open Forest

/-! ### What is not in the view -/

/-- What a kill does not touch. -/
structure Rest where
  pS : PcbPtr → State
  pTime : PcbPtr → Word
  pSupportStruct : PcbPtr → Addr
  pPrio : PcbPtr → Word
  pPid : PcbPtr → Word
  nextPid : Word
  startTime : Fin NCPU → Word
  support : Addr → Support
  devWrites : List (Addr × Word)
  control : Control

def Nucleus.rest (s : Nucleus) : Rest :=
  { pS := fun p => (s.pcb p).pS
    pTime := fun p => (s.pcb p).pTime
    pSupportStruct := fun p => (s.pcb p).pSupportStruct
    pPrio := fun p => (s.pcb p).pPrio
    pPid := fun p => (s.pcb p).pPid
    nextPid := s.nextPid
    startTime := s.startTime
    support := s.support
    devWrites := s.devWrites
    control := s.control }

/-- A field that `g` reads and that the new entry has like the old one. -/
theorem field_setPcb {β : Type} (g : Pcb → β) {s : Nucleus} {p : PcbPtr} {b : Pcb}
    (h : g b = g (s.pcb p)) : (fun q => g ((s.setPcb p b).pcb q)) = fun q => g (s.pcb q) := by
  funext q
  by_cases hq : q = p
  · subst hq
    simpa [Nucleus.setPcb] using h
  · simp [Nucleus.setPcb, hq]

theorem view_setPcb {s : Nucleus} {p : PcbPtr} {b : Pcb} (hs : b.pSemAdd = (s.pcb p).pSemAdd)
    (hp : b.pParent = (s.pcb p).pParent) (hc : b.pChild = (s.pcb p).pChild) :
    (s.setPcb p b).view = s.view := by
  simp only [Nucleus.view, Nucleus.links, field_setPcb Pcb.pSemAdd hs, field_setPcb Pcb.pParent hp,
    field_setPcb Pcb.pChild hc]
  rfl

theorem rest_setPcb {s : Nucleus} {p : PcbPtr} {b : Pcb} (hs : b.pS = (s.pcb p).pS)
    (ht : b.pTime = (s.pcb p).pTime) (hsup : b.pSupportStruct = (s.pcb p).pSupportStruct)
    (hprio : b.pPrio = (s.pcb p).pPrio) (hpid : b.pPid = (s.pcb p).pPid) :
    (s.setPcb p b).rest = s.rest := by
  simp only [Nucleus.rest, field_setPcb Pcb.pS hs, field_setPcb Pcb.pTime ht,
    field_setPcb Pcb.pSupportStruct hsup, field_setPcb Pcb.pPrio hprio, field_setPcb Pcb.pPid hpid]
  rfl

theorem Requeued.view {k : Addr} {q : List PcbPtr} {p : PcbPtr} {w : Addr} {s s' : Nucleus}
    (h : Requeued k q p w s s') :
    s'.view = {s.view with
      waiting := Function.update s.view.waiting k q
      semAdd := Function.update s.view.semAdd p w} := by
  have hpcb : s'.pcb = Function.update s.pcb p {s.pcb p with pSemAdd := w} := by rw [h.frame]
  have hw : (fun k' => MultiPandOS.waiting k' s') =
      Function.update (fun k' => MultiPandOS.waiting k' s) k q := by
    funext k'
    rw [h.waiting k', Function.update_apply]
  have hs : (fun x => (s'.pcb x).pSemAdd) = Function.update (fun x => (s.pcb x).pSemAdd) p w := by
    funext x
    rw [hpcb]
    by_cases hx : x = p <;> simp [hx]
  have hl : s'.links = s.links := by
    simp only [Nucleus.links, hpcb, Links.mk.injEq]
    constructor <;> funext x <;> by_cases hx : x = p <;> simp [hx]
  simp only [Nucleus.view, hw, hs, hl]
  rw [h.frame]

theorem Requeued.rest {k : Addr} {q : List PcbPtr} {p : PcbPtr} {w : Addr} {s s' : Nucleus}
    (h : Requeued k q p w s s') : s'.rest = s.rest := by
  rw [h.frame]
  exact rest_setPcb (s := s) (p := p) (b := {s.pcb p with pSemAdd := w}) rfl rfl rfl rfl rfl

/-! ### Subtracting sets of processes -/

/-- `&deviceSemaphore[PSEUDOINDEX]`. -/
def Layout.clock (L : Layout) : Addr := L.devSem PSEUDOINDEX

/-- The processes `ks` are gone. -/
structure Killed (L : Layout) (ks : List PcbPtr) (s s' : Nucleus) : Prop where
  asl : Asl s'
  view : s'.view = s.view.kill L.clock ks
  rest : s'.rest = s.rest
  nodup : ks.Nodup
  live : ∀ p ∈ ks, p ∉ s.pcbFreeH
  closed : Closed s.links ks

theorem kill_nil (clock : Addr) (v : View) : v.kill clock [] = v := by
  simp [View.kill, prune_nil]

theorem kill_kill (clock : Addr) {ks ls : List PcbPtr} (v : View) (hdisj : ∀ x ∈ ls, x ∉ ks) :
    (v.kill clock ks).kill clock ls = v.kill clock (ks ++ ls) := by
  have hcount : ls.countP ((v.kill clock ks).semAdd · = clock) = ls.countP (v.semAdd · = clock) := by
    apply List.countP_congr
    intro x hx
    simp [View.kill, hdisj x hx]
  simp only [View.kill, View.mk.injEq]
  refine ⟨by simp, ?_, ?_, ?_, prune_prune ks ls v.links, trivial, ?_, ?_, trivial⟩
  · simp [List.filter_filter, Bool.and_comm]
  · funext k
    simp [List.filter_filter, Bool.and_comm]
  · funext x
    by_cases hk : x ∈ ks <;> by_cases hl : x ∈ ls <;> simp [hk, hl]
  · rw [List.length_append, BitVec.ofNat_add, BitVec.sub_sub]
  · rw [List.countP_append, BitVec.ofNat_add, ← BitVec.sub_sub, ← hcount]
    rfl

theorem Killed.refl (L : Layout) {s : Nucleus} (h : Asl s) : Killed L [] s s :=
  ⟨h, (kill_nil L.clock s.view).symm, rfl, List.nodup_nil, fun _ hp => (List.not_mem_nil hp).elim,
    fun _ hp => (List.not_mem_nil hp).elim⟩

theorem Killed.ok {L : Layout} {ks : List PcbPtr} {s s' : Nucleus} (h : Killed L ks s s') (hok : s.view.Ok) :
    s'.view.Ok := by
  rw [h.view]
  exact hok.kill L.clock h.nodup h.live h.closed

theorem Killed.trans {L : Layout} {ks ls : List PcbPtr} {s s₁ s' : Nucleus} (h : Killed L ks s s₁)
    (h' : Killed L ls s₁ s') : Killed L (ks ++ ls) s s' := by
  have hfree : s₁.pcbFreeH = ks.reverse ++ s.pcbFreeH := congrArg View.free h.view
  have hlinks : s₁.links = prune ks s.links := congrArg View.links h.view
  have hls : ∀ x ∈ ls, x ∉ ks ∧ x ∉ s.pcbFreeH := by
    intro x hx
    simpa [hfree] using h'.live x hx
  refine ⟨h'.asl, ?_, h'.rest.trans h.rest, ?_, fun x hx => ?_, ?_⟩
  · rw [h'.view, h.view]
    exact kill_kill L.clock s.view fun x hx => (hls x hx).1
  · refine List.nodup_append.mpr ⟨h.nodup, h'.nodup, fun x hx y hy => ?_⟩
    rintro rfl
    exact (hls x hy).1 hx
  · rcases List.mem_append.mp hx with hx | hx
    · exact h.live x hx
    · exact (hls x hx).2
  · exact h.closed.append (hlinks ▸ h'.closed) fun x hx => (hls x hx).1

/-! ### One process -/

theorem outChild_spec {s : Nucleus} (hwf : Wf s.links) (p : PcbPtr) :
    (outChild p s).1.view = {s.view with links := detach p s.links} ∧
      (outChild p s).1.rest = s.rest ∧ (outChild p s).1.semd = s.semd ∧
      (outChild p s).1.semdH = s.semdH ∧ (outChild p s).1.semdFreeH = s.semdFreeH := by
  cases hp : (s.pcb p).pParent with
  | none =>
    have hroot : detach p s.links = s.links := hwf.detach_root hp
    have hout : (outChild p s).1 = s := by simp only [outChild, hp]
    rw [hout, hroot]
    exact ⟨rfl, rfl, rfl, rfl, rfl⟩
  | some prnt =>
    let s₁ : Nucleus := {s with pcb := fun q => {s.pcb q with pChild := (s.pcb q).pChild.erase p}}
    have hout : (outChild p s).1 = s₁.setPcb p {s₁.pcb p with pParent := none} := by
      simp only [outChild, hp, s₁]
    have hl : (s₁.setPcb p {s₁.pcb p with pParent := none}).links = detach p s.links := by
      simp only [Nucleus.links, Nucleus.setPcb, detach, Links.mk.injEq]
      constructor <;> funext x <;> by_cases hx : x = p <;> simp [hx, s₁]
    rw [hout]
    exact ⟨View.ext rfl rfl rfl (field_setPcb Pcb.pSemAdd rfl) hl rfl rfl rfl rfl,
      rest_setPcb rfl rfl rfl rfl rfl, rfl, rfl, rfl⟩

theorem filter_not_mem_singleton {q : List PcbPtr} {p : PcbPtr} (hp : p ∉ q) : q.filter (· ∉ [p]) = q := by
  rw [List.filter_eq_self]
  intro x hx
  have hxp : x ≠ p := by
    rintro rfl
    exact hp hx
  simp [hxp]

theorem erase_eq_filter {q : List PcbPtr} (hq : q.Nodup) (p : PcbPtr) : q.erase p = q.filter (· ∉ [p]) := by
  rw [hq.erase_eq_filter]
  apply List.filter_congr
  intro x _
  by_cases hx : x = p <;> simp [hx]

/-- Subtracting one process without children, in the terms of the code. -/
theorem kill_leaf (clock : Addr) {v : View} (h : v.Ok) {p : PcbPtr} (hleaf : v.links.child p = []) :
    v.kill clock [p] = {v with
      free := p :: v.free
      ready := v.ready.erase p
      waiting := Function.update v.waiting (v.semAdd p) ((v.waiting (v.semAdd p)).erase p)
      semAdd := Function.update v.semAdd p NULL
      links := detach p v.links
      count := v.count - 1
      soft := if v.semAdd p = clock then v.soft - 1 else v.soft} := by
  refine View.ext rfl (erase_eq_filter h.ready_nodup p).symm ?_ ?_ (h.wf.prune_leaf hleaf) rfl rfl ?_ rfl
  · funext k
    show (v.waiting k).filter (· ∉ [p]) = Function.update v.waiting (v.semAdd p) _ k
    by_cases hk : k = v.semAdd p
    · subst hk
      rw [Function.update_self, erase_eq_filter (h.waiting_nodup _) p]
    · rw [Function.update_of_ne hk, filter_not_mem_singleton]
      exact fun hp => hk (((h.mem_waiting k p).mp hp).1.symm)
  · funext x
    by_cases hx : x = p <;> simp [View.kill, hx]
  · show v.soft - BitVec.ofNat 32 ([p].countP (v.semAdd · = clock)) = _
    by_cases hc : v.semAdd p = clock <;> simp [hc]

/-- Step 4 of `killProcess`: off the ready queue. -/
theorem killOne_ready {L : Layout} {s : Nucleus} {p : PcbPtr} (hs : ((outChild p s).1.pcb p).pSemAdd = NULL) :
    let s₁ := (outChild p s).1
    killOne L p s = some {s₁ with
      readyQueue := s₁.readyQueue.erase p
      processCount := s₁.processCount - 1
      pcbFreeH := p :: s₁.pcbFreeH} := by
  have hout : ∀ q : List PcbPtr, (outProcQ q p).1 = q.erase p := by
    intro q
    unfold outProcQ
    split
    · rfl
    · rw [List.erase_of_not_mem (by assumption)]
  simp only [killOne, hs, ne_eq, not_true_eq_false, if_false, Option.map_some, freePcb, hout]

/-- Step 4 of `killProcess`: off the queue of a semaphore. -/
theorem killOne_blocked {L : Layout} {s : Nucleus} {p : PcbPtr} {k : Addr} (h : Asl (outChild p s).1)
    (hs : ((outChild p s).1.pcb p).pSemAdd = k) (hk : k ≠ NULL) (hp : p ∈ waiting k (outChild p s).1) :
    let s₁ := (outChild p s).1
    ∃ s₂, Requeued k ((waiting k s₁).erase p) p NULL
        {s₁ with softBlockCount := if k = L.clock then s₁.softBlockCount - 1 else s₁.softBlockCount} s₂ ∧
      killOne L p s = some {s₂ with
        processCount := s₂.processCount - 1
        pcbFreeH := p :: s₂.pcbFreeH} := by
  intro s₁
  let s' : Nucleus :=
    {s₁ with softBlockCount := if k = L.clock then s₁.softBlockCount - 1 else s₁.softBlockCount}
  have hite : (if k = L.devSem PSEUDOINDEX then {s₁ with softBlockCount := s₁.softBlockCount - 1} else s₁) = s' := by
    show (if k = L.clock then _ else _) = _
    by_cases hc : k = L.clock <;> simp [s', hc]
  have hs' : (s'.pcb p).pSemAdd = k := hs
  have hasl : Asl s' := h.congr rfl rfl rfl
  obtain ⟨s₂, hout, hre⟩ := outBlocked_requeued hasl (p := p) (by rw [hs']; exact hp)
  rw [hs'] at hre
  refine ⟨s₂, hre, ?_⟩
  simp only [killOne, hs, ne_eq, hk, not_false_eq_true, if_true]
  rw [hite, hout]
  simp only [Option.map_some, freePcb]

/-- `killOne` on a process without children. -/
theorem killOne_killed (L : Layout) {s : Nucleus} (h : Asl s) (hok : s.view.Ok) {p : PcbPtr}
    (hp : p ∉ s.pcbFreeH) (hleaf : (s.pcb p).pChild = []) :
    ∃ s', killOne L p s = some s' ∧ Killed L [p] s s' := by
  obtain ⟨hview, hrest, hsemd, hH, hF⟩ := outChild_spec hok.wf p
  have hclosed : Closed s.links [p] := by
    intro x hx y hy
    rw [List.mem_singleton] at hx
    subst hx
    simp [Nucleus.links, hleaf] at hy
  have hlive : ∀ x ∈ [p], x ∉ s.pcbFreeH := by simpa using hp
  have hasl₁ : Asl (outChild p s).1 := h.congr hsemd hH hF
  have hsem : ((outChild p s).1.pcb p).pSemAdd = (s.pcb p).pSemAdd := congrFun (congrArg View.semAdd hview) p
  have hwait : ∀ k, waiting k (outChild p s).1 = waiting k s := fun k => waiting_congr hsemd hH k
  by_cases hnull : (s.pcb p).pSemAdd = NULL
  · -- ready, or in no queue at all
    refine ⟨_, killOne_ready (hsem.trans hnull), hasl₁.congr rfl rfl rfl, ?_, hrest, List.nodup_singleton p,
      hlive, hclosed⟩
    have hnotclock : s.view.semAdd p ≠ L.clock := by
      show (s.pcb p).pSemAdd ≠ L.clock
      rw [hnull]
      exact (L.devSem_ne_null 48 (by decide)).symm
    have hempty : s.view.waiting (s.view.semAdd p) = [] := by
      show s.view.waiting (s.pcb p).pSemAdd = []
      rw [hnull]
      exact hok.waiting_null
    let v := (outChild p s).1.view
    show {v with free := p :: v.free, ready := v.ready.erase p, count := v.count - 1} = _
    simp only [v, hview]
    rw [kill_leaf L.clock hok hleaf, hempty, if_neg hnotclock, List.erase_nil]
    exact View.ext rfl rfl (Function.update_eq_self_iff.mpr hempty.symm).symm
      (Function.update_eq_self_iff.mpr hnull.symm).symm rfl rfl rfl rfl rfl
  · have hin : p ∈ waiting (s.pcb p).pSemAdd s := (hok.mem_waiting _ p).mpr ⟨rfl, hnull⟩
    obtain ⟨s₂, hre, hkill⟩ := killOne_blocked (L := L) hasl₁ hsem hnull (by rw [hwait]; exact hin)
    refine ⟨_, hkill, hre.asl.congr rfl rfl rfl, ?_, hre.rest.trans hrest, List.nodup_singleton p, hlive,
      hclosed⟩
    let v := (outChild p s).1.view
    have hv₂ : s₂.view = {v with
        soft := if (s.pcb p).pSemAdd = L.clock then v.soft - 1 else v.soft
        waiting := Function.update v.waiting (s.pcb p).pSemAdd ((v.waiting (s.pcb p).pSemAdd).erase p)
        semAdd := Function.update v.semAdd p NULL} := hre.view
    show {s₂.view with free := p :: s₂.view.free, count := s₂.view.count - 1} = _
    rw [hv₂, kill_leaf L.clock hok hleaf]
    simp only [v, hview]
    refine View.ext rfl ?_ rfl rfl rfl rfl rfl rfl rfl
    have hunready : p ∉ s.readyQueue := hok.unready hin
    exact (List.erase_of_not_mem hunready).symm

/-! ### The subtree -/

theorem View.Ok.detach {v : View} (h : v.Ok) (c : PcbPtr) : Ok {v with links := detach c v.links} := by
  refine ⟨h.free_nodup, h.ready_nodup, h.waiting_nodup, h.ready_live, h.mem_waiting, h.ready_semAdd,
    h.free_semAdd, h.wf.detach c, fun x hx => ?_, fun x hx => ?_, h.count⟩
  · by_cases hxc : x = c
    · simp [Forest.detach, hxc]
    · simpa [Forest.detach, hxc] using h.free_parent x hx
  · simp [Forest.detach, h.free_child x hx]

theorem removeChild_spec {s : Nucleus} (hwf : Wf s.links) {p c : PcbPtr} {rest : List PcbPtr}
    (hp : (s.pcb p).pChild = c :: rest) :
    ∃ s₁, removeChild p s = (s₁, some c) ∧ s₁.view = {s.view with links := detach c s.links} ∧
      s₁.rest = s.rest ∧ s₁.semd = s.semd ∧ s₁.semdH = s.semdH ∧ s₁.semdFreeH = s.semdFreeH := by
  have hc : c ∈ s.links.child p := by simp [Nucleus.links, hp]
  have hpc : p ≠ c := by
    rintro rfl
    exact hwf.parent_ne_self ((hwf.child p p).mp hc)
  let s₀ := s.setPcb p {s.pcb p with pChild := rest}
  have hl : (s₀.setPcb c {s₀.pcb c with pParent := none}).links = detach c s.links := by
    simp only [Nucleus.links, Nucleus.setPcb, Forest.detach, Links.mk.injEq]
    constructor <;> funext x
    · by_cases hxc : x = c
      · simp [hxc]
      · by_cases hxp : x = p
        · subst hxp
          simp [s₀, Nucleus.setPcb, hpc]
        · simp [s₀, Nucleus.setPcb, hxc, hxp]
    · by_cases hxp : x = p
      · subst hxp
        simp [s₀, Nucleus.setPcb, hpc, hp]
      · have hx : c ∉ (s.pcb x).pChild := by
          intro hx
          have hparent := (hwf.child x c).mp hx
          rw [(hwf.child p c).mp hc] at hparent
          exact hxp (Option.some.inj hparent).symm
        rw [List.erase_of_not_mem hx]
        by_cases hxc : x = c
        · subst hxc
          simp [s₀, Nucleus.setPcb, hxp]
        · simp [s₀, Nucleus.setPcb, hxc, hxp]
  refine ⟨s₀.setPcb c {s₀.pcb c with pParent := none}, by simp only [removeChild, hp, s₀], ?_, ?_, rfl, rfl, rfl⟩
  · have hsem : (fun x => (s₀.pcb x).pSemAdd) = fun x => (s.pcb x).pSemAdd := field_setPcb Pcb.pSemAdd rfl
    refine View.ext rfl rfl rfl ?_ hl rfl rfl rfl rfl
    exact (field_setPcb (s := s₀) Pcb.pSemAdd (b := {s₀.pcb c with pParent := none}) rfl).trans hsem
  · have hrest : s₀.rest = s.rest := rest_setPcb rfl rfl rfl rfl rfl
    exact (rest_setPcb (s := s₀) (b := {s₀.pcb c with pParent := none}) rfl rfl rfl rfl rfl).trans hrest

/-- Whoever is killed may have been taken out of the tree before. -/
theorem Killed.of_detach {L : Layout} {ks : List PcbPtr} {s s₁ s' : Nucleus} {c : PcbPtr}
    (h : Killed L ks s₁ s') (hview : s₁.view = {s.view with links := detach c s.links})
    (hrest : s₁.rest = s.rest) (hc : c ∈ ks) : Killed L ks s s' := by
  have hfree : s₁.pcbFreeH = s.pcbFreeH := congrArg View.free hview
  have hlinks : s₁.links = detach c s.links := congrArg View.links hview
  refine ⟨h.asl, ?_, h.rest.trans hrest, h.nodup, fun p hp => hfree ▸ h.live p hp,
    Closed.of_detach hc (hlinks ▸ h.closed)⟩
  rw [h.view, hview]
  exact View.ext rfl rfl rfl rfl (prune_detach hc s.links) rfl rfl rfl rfl

/-- What taking a child off and killing one process preserve, killing a tree preserves. -/
theorem kill_invariant {L : Layout} {P : Nucleus → Prop} (hremove : ∀ p s, P s → P (removeChild p s).1)
    (hone : ∀ p s s', P s → killOne L p s = some s' → P s') (n : Nat) :
    (∀ p s s', P s → killProcess L n p s = some s' → P s') ∧
      ∀ p s s', P s → killChildren L n p s = some s' → P s' := by
  induction n with
  | zero => exact ⟨fun _ _ _ _ h => by simp [killProcess] at h, fun _ _ _ _ h => by simp [killChildren] at h⟩
  | succ n ih =>
    obtain ⟨hproc, hchildren⟩ := ih
    constructor
    · intro p s s' hs h
      obtain ⟨s₁, h₁, h₂⟩ := Option.bind_eq_some_iff.mp (by simpa only [killProcess] using h)
      exact hone p s₁ s' (hchildren p s s₁ hs h₁) h₂
    · intro p s s' hs h
      have hremoved := hremove p s hs
      rw [killChildren] at h
      split at h
      · rename_i s₁ hs₁
        cases h
        rwa [hs₁] at hremoved
      · rename_i s₁ child hs₁
        rw [hs₁] at hremoved
        obtain ⟨s₂, h₂, h₃⟩ := Option.bind_eq_some_iff.mp h
        exact hchildren p s₂ s' (hproc child s₁ s₂ hremoved h₂) h₃

/-- The two functions together, by induction on the fuel. Each round of the loop
removes a link for good, which pays for the call and for the next round. -/
theorem kill_killed (L : Layout) (n : Nat) :
    (∀ p (s : Nucleus), Asl s → s.view.Ok → p ∉ s.pcbFreeH → 2 * linked s.links + 2 ≤ n →
      ∃ ks s', killProcess L n p s = some s' ∧ Killed L ks s s' ∧ p ∈ ks ∧
        ∀ q ∈ ks, Below s.links p q) ∧
    (∀ p (s : Nucleus), Asl s → s.view.Ok → 2 * linked s.links + 1 ≤ n →
      ∃ ks s', killChildren L n p s = some s' ∧ Killed L ks s s' ∧ (s'.pcb p).pChild = [] ∧
        ∀ q ∈ ks, ∃ c ∈ s.links.child p, Below s.links c q) := by
  induction n with
  | zero => exact ⟨fun _ _ _ _ _ h => by omega, fun _ _ _ _ h => by omega⟩
  | succ n ih =>
    obtain ⟨ihProcess, ihChildren⟩ := ih
    constructor
    · intro p s hasl hok hp hn
      obtain ⟨ks, s₁, hkill, hk, hleaf, hbelow⟩ := ihChildren p s hasl hok (by omega)
      have hpk : p ∉ ks := by
        intro hpk
        obtain ⟨c, hc, hcp⟩ := hbelow p hpk
        exact hok.wf.not_below_child hc hcp
      have hfree : s₁.pcbFreeH = ks.reverse ++ s.pcbFreeH := congrArg View.free hk.view
      obtain ⟨s', hone, hk'⟩ :=
        killOne_killed L hk.asl (hk.ok hok) (p := p) (by simp [hfree, hpk, hp]) hleaf
      refine ⟨ks ++ [p], s', by simp only [killProcess, hkill, Option.bind_some, hone], hk.trans hk',
        by simp, fun q hq => ?_⟩
      rcases List.mem_append.mp hq with hq | hq
      · obtain ⟨c, hc, hcq⟩ := hbelow q hq
        exact Relation.ReflTransGen.head hc hcq
      · rw [List.mem_singleton] at hq
        subst hq
        exact Relation.ReflTransGen.refl
    · intro p s hasl hok hn
      cases hchild : (s.pcb p).pChild with
      | nil =>
        refine ⟨[], s, ?_, Killed.refl L hasl, hchild, fun q hq => (List.not_mem_nil hq).elim⟩
        simp only [killChildren, removeChild, hchild]
      | cons c rest =>
        obtain ⟨s₁, hrem, hview, hrest, hsemd, hH, hF⟩ := removeChild_spec hok.wf hchild
        have hc : c ∈ s.links.child p := by simp [Nucleus.links, hchild]
        have hparent : s.links.parent c = some p := (hok.wf.child p c).mp hc
        have hasl₁ : Asl s₁ := hasl.congr hsemd hH hF
        have hok₁ : s₁.view.Ok := hview ▸ hok.detach c
        have hlinks₁ : s₁.links = detach c s.links := congrArg View.links hview
        have hlt : linked s₁.links < linked s.links := by
          rw [hlinks₁]
          exact linked_detach_lt (by rw [hparent]; rfl)
        have hlive : c ∉ s₁.pcbFreeH := by
          rw [show s₁.pcbFreeH = s.pcbFreeH from congrArg View.free hview]
          intro hf
          have hnone := hok.free_parent c hf
          rw [show s.view.links.parent c = some p from hparent] at hnone
          cases hnone
        obtain ⟨ks, s₂, hkill, hk, hck, hbelow⟩ := ihProcess c s₁ hasl₁ hok₁ hlive (by omega)
        have hlinks₂ : s₂.links = prune ks s₁.links := congrArg View.links hk.view
        have hle : linked s₂.links ≤ linked s₁.links := hlinks₂ ▸ linked_prune_le ks s₁.links
        obtain ⟨ls, s', hkill', hk', hleaf, hbelow'⟩ := ihChildren p s₂ hk.asl (hk.ok hok₁) (by omega)
        have hsub₁ : ∀ x, ∀ y ∈ s₁.links.child x, y ∈ s.links.child x := hlinks₁ ▸ child_detach_sub c s.links
        have hsub₂ : ∀ x, ∀ y ∈ s₂.links.child x, y ∈ s.links.child x :=
          fun x y hy => hsub₁ x y (child_prune_sub ks s₁.links x y (hlinks₂ ▸ hy))
        refine ⟨ks ++ ls, s', ?_, (hk.of_detach hview hrest hck).trans hk', hleaf, fun q hq => ?_⟩
        · simp only [killChildren, hrem, hkill, Option.bind_some, hkill']
        · rcases List.mem_append.mp hq with hq | hq
          · exact ⟨c, hc, (hbelow q hq).mono hsub₁⟩
          · obtain ⟨d, hd, hdq⟩ := hbelow' q hq
            exact ⟨d, hsub₂ p d hd, hdq.mono hsub₂⟩

/-- **`killProcess`** subtracts the subtree of its argument. -/
theorem killProcess_killed (L : Layout) {s : Nucleus} (h : Asl s) (hok : s.view.Ok) {p : PcbPtr}
    (hp : p ∉ s.pcbFreeH) :
    ∃ ks s', killProcess L killFuel p s = some s' ∧ Killed L ks s s' ∧ ∀ q, q ∈ ks ↔ Below s.links p q := by
  have hle : linked s.links ≤ MAXPROC := by simpa using linked_le s.links
  obtain ⟨ks, s', hkill, hk, hpk, hbelow⟩ :=
    (kill_killed L killFuel).1 p s h hok hp (by simp only [killFuel]; omega)
  exact ⟨ks, s', hkill, hk, fun q => ⟨hbelow q, hk.closed.below hpk⟩⟩

end MultiPandOS
