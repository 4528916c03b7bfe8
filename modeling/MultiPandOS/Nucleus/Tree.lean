import MultiPandOS.Nucleus.Runs

/-! The process tree over runs.

Every process is created below a live one, and whoever goes takes its subtree along,
so every live process but the first keeps a live parent (`Rooted`). The live processes
are then the tree below the first one (`run_tree`), and when it goes nothing is left
and the scheduler halts. -/
namespace MultiPandOS
open Forest Runs

/-- Every live process but the first has a live parent. -/
structure Rooted (v : View) : Prop where
  root : v.links.parent firstProcess = none
  parent : ∀ p, p ∉ v.free → p ≠ firstProcess → ∃ q, q ∉ v.free ∧ v.links.parent p = some q

/-- Live processes hang, directly or not, under the first one, which is alive. -/
theorem Rooted.below {v : View} (h : Rooted v) (hok : v.Ok) {p : PcbPtr} (hp : p ∉ v.free) :
    firstProcess ∉ v.free ∧ Below v.links firstProcess p := by
  obtain ⟨depth, hd⟩ := hok.wf.acyclic
  -- by induction on the depth of `p`
  induction hn : depth p using Nat.strongRecOn generalizing p with
  | ind n ih =>
    by_cases hroot : p = firstProcess
    · subst hroot
      exact ⟨hp, .refl⟩
    · obtain ⟨q, hq, hparent⟩ := h.parent p hp hroot
      obtain ⟨hlive, hb⟩ := ih (depth q) (hn ▸ hd q p hparent) hq rfl
      exact ⟨hlive, hb.tail ((hok.wf.child q p).mpr hparent)⟩

/-- What hangs under a live process is alive. -/
theorem View.Ok.live_of_below {v : View} (hok : v.Ok) {r p : PcbPtr} (hr : r ∉ v.free)
    (h : Below v.links r p) : p ∉ v.free := by
  induction h with
  | refl => exact hr
  | tail _ hstep _ =>
    intro hfree
    have hparent := (hok.wf.child _ _).mp hstep
    rw [hok.free_parent _ hfree] at hparent
    cases hparent

theorem Rooted.create {v : View} (h : Rooted v) (hok : v.Ok) {c p : PcbPtr} (hc : c ∉ v.free)
    {rest ready : List PcbPtr} (hf : v.free = p :: rest) : Rooted (v.create c p rest ready) := by
  have hp : p ∈ v.free := by simp [hf]
  have hcp : c ≠ p := fun hcp => hc (hcp ▸ hp)
  have hsub : ∀ x ∈ rest, x ∈ v.free := fun x hx => by simp [hf, hx]
  have hroot : firstProcess ≠ p := fun hrp => (h.below hok hc).1 (hrp ▸ hp)
  refine ⟨?_, fun x hx hne => ?_⟩
  · show Function.update v.links.parent p (some c) firstProcess = none
    rw [Function.update_of_ne hroot]
    exact h.root
  · show ∃ q, q ∉ rest ∧ Function.update v.links.parent p (some c) x = some q
    have hcr : c ∉ rest := fun hcr => hc (hsub c hcr)
    by_cases hxp : x = p
    · subst hxp
      exact ⟨c, hcr, Function.update_self ..⟩
    · have hxv : x ∉ v.free := by
        rw [hf, List.mem_cons]
        rintro (hx' | hx')
        · exact hxp hx'
        · exact hx hx'
      obtain ⟨q, hq, hparent⟩ := h.parent x hxv hne
      refine ⟨q, fun hqr => hq (hsub q hqr), ?_⟩
      rw [Function.update_of_ne hxp]
      exact hparent

theorem Rooted.kill {v : View} (h : Rooted v) (hok : v.Ok) (clock : Addr) {ks : List PcbPtr}
    (hclosed : Closed v.links ks) : Rooted (v.kill clock ks) := by
  refine ⟨?_, fun x hx hne => ?_⟩
  · show (if firstProcess ∈ ks then none else v.links.parent firstProcess) = none
    rw [h.root, ite_self]
  · have hx' : x ∉ ks ∧ x ∉ v.free := by simpa [View.kill] using hx
    obtain ⟨q, hq, hparent⟩ := h.parent x hx'.2 hne
    have hqk : q ∉ ks := fun hqk => hx'.1 (hclosed q hqk x ((hok.wf.child q x).mpr hparent))
    refine ⟨q, by simp [View.kill, hqk, hq], ?_⟩
    show (if x ∈ ks then none else v.links.parent x) = some q
    rw [if_neg hx'.1, hparent]

/-- Acts that leave the free list and the links alone. -/
theorem Rooted.congr {v v' : View} (h : Rooted v) (hfree : v'.free = v.free) (hlinks : v'.links = v.links) :
    Rooted v' := by
  refine ⟨by rw [hlinks]; exact h.root, fun p hp hne => ?_⟩
  rw [hfree] at hp
  obtain ⟨q, hq, hparent⟩ := h.parent p hp hne
  exact ⟨q, by rw [hfree]; exact hq, by rw [hlinks]; exact hparent⟩

theorem Does.rooted {clock : Addr} {a : Act} {v v' : View} (hd : Does clock a v v') (hok : v.Ok)
    (hcur : v.CurrentOk) (h : Rooted v) : Rooted v' := by
  cases hd with
  | create hc hf _ => exact h.create hok (hcur _ hc).live hf
  | kill _ _ hclosed _ => exact (h.kill hok clock hclosed).congr rfl rfl
  | _ => exact h.congr rfl rfl

theorem Acts.rooted {clock : Addr} {as : List Act} {v v' : View} (ha : Acts clock as v v') (hok : v.Ok)
    (hcur : v.CurrentOk) (h : Rooted v) : Rooted v' := by
  induction ha with
  | nil => exact h
  | cons hd _ ih => exact ih (hd.ok hok hcur).1 (hd.ok hok hcur).2 (hd.rooted hok hcur h)

theorem View.dispatch_links (v : View) : v.dispatch.links = v.links ∧ v.dispatch.free = v.free ∧
    v.dispatch.count = v.count := by
  unfold View.dispatch
  cases v.ready <;> exact ⟨rfl, rfl, rfl⟩

theorem Leaves.rooted {v : View} {s' : Nucleus} (h : Leaves v s') (hr : Rooted v) : Rooted s'.view := by
  cases h with
  | resume _ hview => rw [hview]; exact hr
  | dispatch _ hview =>
    rw [hview]
    exact hr.congr (View.dispatch_links v).2.1 (View.dispatch_links v).1

/-! ### The end -/

/-- Nobody is left, and the machine is off. -/
structure Over (s : Nucleus) : Prop where
  free : ∀ p, p ∈ s.pcbFreeH
  ready : s.readyQueue = []
  unblocked : ∀ j, (s.semd j).sProcq = []
  control : s.control = .halt

theorem Rooted.all_free {v : View} (h : Rooted v) (hok : v.Ok) (hroot : firstProcess ∈ v.free) (p : PcbPtr) :
    p ∈ v.free := by
  by_contra hp
  exact (h.below hok hp).1 hroot

/-- The scheduler halts as soon as everybody is gone. -/
theorem Leaves.over {v : View} {s' : Nucleus} (h : Leaves v s') (hs : Sound s') (hall : ∀ p, p ∈ s'.pcbFreeH) :
    Over s' := by
  have hready : s'.readyQueue = [] := by
    apply List.eq_nil_iff_forall_not_mem.mpr
    intro p hp
    exact hs.ok.ready_live p hp (hall p)
  have hcurrent : s'.currentProcess = none := by
    cases hc : s'.currentProcess with
    | none => rfl
    | some c => exact absurd (hall c) (hs.current c hc).live
  have hcount : s'.processCount = 0 := by
    have hlen : s'.pcbFreeH.length = MAXPROC := by
      have huniv : s'.pcbFreeH.toFinset = Finset.univ := by
        apply Finset.eq_univ_of_forall
        intro p
        exact List.mem_toFinset.mpr (hall p)
      have hnd : s'.pcbFreeH.Nodup := hs.ok.free_nodup
      rw [← List.toFinset_card_of_nodup hnd, huniv, Finset.card_univ, Fintype.card_fin]
    have hc : s'.processCount = BitVec.ofNat 32 (MAXPROC - s'.pcbFreeH.length) := hs.ok.count
    rw [hc, hlen, Nat.sub_self]
    rfl
  refine ⟨hall, hready, fun j => ?_, ?_⟩
  · apply List.eq_nil_iff_forall_not_mem.mpr
    intro p hp
    exact (hs.mem_sProcq hp).2.2 (hs.ok.free_semAdd p (hall p))
  · cases h with
    | resume hsome hview =>
      rw [← show s'.currentProcess = v.current from congrArg View.current hview, hcurrent] at hsome
      cases hsome
    | dispatch hnone hview hidle _ =>
      cases hr : v.ready with
      | nil =>
        have hv : v.count = 0 := by
          rw [← (View.dispatch_links v).2.2, ← hview]
          exact hcount
        rw [hidle hr, hv]
        rfl
      | cons p rest =>
        have hcur : s'.currentProcess = v.dispatch.current := congrArg View.current hview
        rw [hcurrent, View.dispatch, hr] at hcur
        cases hcur

/-! ### Every run -/

/-- The links of the pcbs are one tree: its root is the first process, its nodes are
the live ones. -/
structure ProcessTree (s : Nucleus) : Prop where
  child : ∀ p q, (s.pcb p).pParent = some q ↔ p ∈ (s.pcb q).pChild
  nodup : ∀ q, (s.pcb q).pChild.Nodup
  acyclic : ∀ p q, q ∈ (s.pcb p).pChild → ¬ Below s.links q p
  root : (s.pcb firstProcess).pParent = none
  parent : ∀ p, p ∉ s.pcbFreeH → p ≠ firstProcess → ∃ q, q ∉ s.pcbFreeH ∧ (s.pcb p).pParent = some q
  nodes : firstProcess ∉ s.pcbFreeH → ∀ p, p ∉ s.pcbFreeH ↔ Below s.links firstProcess p
  ended : firstProcess ∈ s.pcbFreeH → Over s

/-- What the steps keep. -/
structure Grown (s : Nucleus) : Prop where
  sound : Sound s
  rooted : Rooted s.view
  ended : firstProcess ∈ s.pcbFreeH → Over s

theorem Grown.step {L : Layout} {s s' : Nucleus} {e : Trap} (h : Grown s) (hallowed : Allowed L TermOk s e)
    (hstep : exceptionHandler L e s = some s') : Grown s' := by
  obtain ⟨s₁, as, v, hres, -, -, hacts, hleaves⟩ := handler_acts h.sound hallowed fun _ => id
  obtain rfl : s' = s₁ := Option.some.inj (hstep.symm.trans hres)
  have hs' : Sound s' := h.sound.step hallowed (fun _ => id) hstep
  have hrooted : Rooted s'.view := hleaves.rooted (hacts.rooted h.sound.ok h.sound.current h.rooted)
  exact ⟨hs', hrooted, fun hroot => hleaves.over hs' (hrooted.all_free hs'.ok hroot)⟩

theorem main_grown (L : Layout) (b : Boot) : Grown (main L b) := by
  obtain ⟨rest, hrest, hmain⟩ := main_eq L b
  have hcover : ∀ p, p ∈ firstProcess :: rest := by
    rw [← hrest]
    decide
  have hfree : (main L b).pcbFreeH = rest := by rw [hmain]
  have hcurrent : (main L b).currentProcess = some firstProcess := by rw [hmain]
  have hlive : firstProcess ∉ (main L b).pcbFreeH := ((main_sound L b).current firstProcess hcurrent).live
  refine ⟨main_sound L b, ⟨?_, fun p hp hne => ?_⟩, fun hroot => absurd hroot hlive⟩
  · show ((main L b).pcb firstProcess).pParent = none
    rw [main_pcb, if_pos rfl]
    rfl
  · rcases List.mem_cons.mp (hcover p) with hroot | hp'
    · exact absurd hroot hne
    · exact absurd (show p ∈ (main L b).view.free by rw [show (main L b).view.free = rest from hfree]; exact hp') hp

theorem Grown.processTree {s : Nucleus} (h : Grown s) : ProcessTree s := by
  have hok := h.sound.ok
  exact ⟨fun p q => (hok.wf.child q p).symm, hok.wf.nodup, fun p q hq => hok.wf.not_below_child hq, h.rooted.root,
    h.rooted.parent, fun hlive p => ⟨fun hp => (h.rooted.below hok hp).2, fun hb => hok.live_of_below hlive hb⟩,
    h.ended⟩

/-- **One tree below the first process**, in every run in which TERMPROCESS is only
issued for the caller; and when the first process is gone, everybody is. -/
theorem run_tree {L : Layout} {b : Boot} {es : List Trap} {s : Nucleus}
    (h : Run (exceptionHandler L) (Allowed L SelfOnly) (main L b) es s) : ProcessTree s := by
  have hgrown : Grown s := h.invariant Grown (main_grown L b) fun s e s' hs hallowed hstep =>
    hs.step (hallowed.mono fun _ => SelfOnly.termOk) hstep
  exact hgrown.processTree

open Sample in
theorem run_tree_sample :
    ∃ s, exec (exceptionHandler layout) events (main layout boot) = some s ∧ ProcessTree s := by
  have hfollows : Follows (exceptionHandler layout) (Allowed layout SelfOnly) events (main layout boot) := by
    decide +kernel
  obtain ⟨s, hexec, hrun⟩ := hfollows.run
  exact ⟨s, hexec, run_tree hrun⟩

end MultiPandOS
