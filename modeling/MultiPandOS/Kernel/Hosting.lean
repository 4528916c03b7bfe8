import MultiPandOS.Kernel.Calls
import MultiPandOS.Nucleus.Homes
import MultiPandOS.Nucleus.Semaphores
import MultiPandOS.Nucleus.Tree

/-! Which process is which task.

`Hosts` relates where the processes of the nucleus are to what the tasks do: each process
that is not free is one task that has not ended, below the process of the task that
created it, and whoever is in the queue of a semaphore is stopped in a call for it. The acts
of the nucleus and the steps of the tasks keep it together: a birth is a creation
(`Hosts.creates`), a death is the end of all tasks below it (`Hosts.ends`), and anything
else is a step that leaves everybody alive (`Hosts.rests`, `Hosts.goes`). -/
namespace MultiPandOS
open Forest

/-- The semaphore that a call may stop its caller at. -/
def NucleusCall.key (A : Image) : NucleusCall → Option Addr
  | .passeren x => some (A.sem x)
  | .doio commandAddr _ => some (A.layout.devSem (findDeviceIndex commandAddr))
  | .createProcess _ _ => none
  | .termProcess => none
  | .verhogen _ => none

/-- The task is at a call that may stop it at `k`. -/
def Sys.awaits (A : Image) (t : Task) (k : Addr) (s : Sys) : Prop := ∃ call, s.call t = some call ∧ call.key A = some k

theorem NucleusCall.key_stops {A : Image} {call : NucleusCall} {k : Addr} (h : call.key A = some k) :
    call.stops = true := by
  cases call <;> first | rfl | cases h

/-- The processes of the nucleus are the tasks of the support level. -/
structure Hosts (A : Image) (v : View) (home : PcbPtr → Addr) (task : PcbPtr → Task) (s : Sys) : Prop where
  live : ∀ t, s.alive t ↔ ∃ p, p ∉ v.free ∧ task p = t
  inj : ∀ p q, p ∉ v.free → q ∉ v.free → task p = task q → p = q
  parent : ∀ p, p ∉ v.free → (v.links.parent p).map task = (task p).parent
  home : ∀ p q, p ∉ v.free → task p = .uproc q → home p = A.sup (s.proc q).sup
  waits : ∀ k, ∀ p ∈ v.waiting k, s.awaits A (task p) k

/-! ### Acts without births and deaths -/

def Act.rests : Act → Bool
  | .create => false
  | .kill _ _ => false
  | _ => true

/-- Nobody comes or goes; whoever is in a queue was there before, or was running and has
been blocked. -/
structure Rests (as : List Act) (v v' : View) : Prop where
  free : v'.free = v.free
  links : v'.links = v.links
  current : v'.current = v.current ∨ v'.current = none
  waiting : ∀ k p, p ∈ v'.waiting k → p ∈ v.waiting k ∨ (∃ d, .block k d ∈ as) ∧ v.current = some p

section Acts
variable {clock : Addr} {a : Act} {as : List Act} {v v' : View}

theorem Does.rests (h : Does clock a v v') (ha : a.rests = true) : Rests [a] v v' := by
  cases h with
  | create => cases ha
  | kill => cases ha
  | @block _ c k d hc hk =>
    refine ⟨rfl, rfl, .inr rfl, fun k' p hp => ?_⟩
    by_cases hk' : k' = k
    · subst hk'
      rcases List.mem_append.mp (show p ∈ v.waiting k' ++ [c] by simpa [View.block] using hp) with hp | hp
      · exact .inl hp
      · exact .inr ⟨⟨d, List.mem_singleton_self _⟩, List.mem_singleton.mp hp ▸ hc⟩
    · exact .inl (by simpa [View.block, hk'] using hp)
  | @wake _ k p rest q d hq hperm =>
    refine ⟨rfl, rfl, .inl rfl, fun k' x hx => .inl ?_⟩
    by_cases hk' : k' = k
    · subst hk'
      rw [hq]
      exact List.mem_cons_of_mem p (by simpa [View.wake] using hx)
    · simpa [View.wake, hk'] using hx
  | take => exact ⟨rfl, rfl, .inl rfl, fun _ _ hp => .inl hp⟩
  | give => exact ⟨rfl, rfl, .inl rfl, fun _ _ hp => .inl hp⟩
  | drop => exact ⟨rfl, rfl, .inr rfl, fun _ _ hp => .inl hp⟩
  | requeue => exact ⟨rfl, rfl, .inr rfl, fun _ _ hp => .inl hp⟩

theorem Acts.rests (h : Acts clock as v v') (ha : ∀ a ∈ as, a.rests = true) : Rests as v v' := by
  induction h with
  | nil => exact ⟨rfl, rfl, .inl rfl, fun _ _ hp => .inl hp⟩
  | @cons a as v v₁ v' hd _ ih =>
    have h₁ := hd.rests (ha a (by simp))
    have h₂ := ih fun a ha' => ha a (by simp [ha'])
    refine ⟨h₂.free.trans h₁.free, h₂.links.trans h₁.links, ?_, fun k p hp => ?_⟩
    · rcases h₂.current with hc | hc
      · rw [hc]
        exact h₁.current
      · exact .inr hc
    · rcases h₂.waiting k p hp with hp | ⟨⟨d, hd'⟩, hc⟩
      · rcases h₁.waiting k p hp with hp | ⟨⟨d, hd'⟩, hc⟩
        · exact .inl hp
        · exact .inr ⟨⟨d, List.mem_cons.mpr (.inl (List.mem_singleton.mp hd'))⟩, hc⟩
      · rcases h₁.current with hc' | hc'
        · exact .inr ⟨⟨d, List.mem_cons_of_mem a hd'⟩, hc'.symm.trans hc⟩
        · rw [hc'] at hc
          cases hc

end Acts

/-- The semaphore whose value an act changes. -/
def Act.writes : Act → Option Addr
  | .take k => some k
  | .give k => some k
  | .drop k => some k
  | _ => none

theorem Acts.mem_frame {clock : Addr} {as : List Act} {v v' : View} (h : Acts clock as v v') {k : Addr}
    (hw : ∀ a ∈ as, a.writes ≠ some k) : v'.mem k = v.mem k := by
  induction h with
  | nil => rfl
  | @cons a as v v₁ v' hd _ ih =>
    have ha := hw a (by simp)
    have hne : ∀ {k'}, some k' ≠ some k → k ≠ k' := fun h hk => h (congrArg some hk.symm)
    refine (ih fun a ha => hw a (by simp [ha])).trans ?_
    cases hd with
    | take => exact Function.update_of_ne (hne ha) _ _
    | give => exact Function.update_of_ne (hne ha) _ _
    | drop => exact Function.update_of_ne (hne ha) _ _
    | _ => rfl

/-! ### What keeps the relation -/

section Hosts
variable {A : Image} {L : PoolLayout} {hd : Handlers} {v v' : View} {home home' : PcbPtr → Addr}
  {task : PcbPtr → Task} {s s' : Sys} {e : SysEvent} {c p : PcbPtr} {as : List Act}

/-- Nobody in a queue is anywhere else. -/
theorem View.Ok.not_waiting (hok : v.Ok) (hp : v.semAdd p = NULL) (k : Addr) : p ∉ v.waiting k := by
  intro hw
  obtain ⟨hk, hnull⟩ := (hok.mem_waiting k p).mp hw
  exact hnull (hk.symm.trans hp)

/-- The parent of a process is there as long as the process is. -/
theorem View.Ok.parent_live (hok : v.Ok) {q : PcbPtr} (hq : v.links.parent p = some q) : q ∉ v.free := by
  intro hf
  have hchild := (hok.wf.child q p).mpr hq
  rw [hok.free_child q hf] at hchild
  cases hchild

/-- The nucleus moves somebody. -/
theorem Hosts.rests (h : Hosts A v home task s) (hr : Rests as v v') (hhome : home' = home)
    (hblock : ∀ k d p, .block k d ∈ as → v.current = some p → s.awaits A (task p) k) : Hosts A v' home' task s := by
  subst hhome
  refine ⟨?_, ?_, ?_, ?_, fun k p hp => ?_⟩
  · rw [hr.free]
    exact h.live
  · rw [hr.free]
    exact h.inj
  · rw [hr.free, hr.links]
    exact h.parent
  · rw [hr.free]
    exact h.home
  · rcases hr.waiting k p hp with hp | ⟨⟨d, hd⟩, hc⟩
    · exact h.waits k p hp
    · exact hblock k d p hd hc

/-- The scheduler changes nothing of it. -/
theorem Hosts.leaves {n : Nucleus} (h : Hosts A v home task s) (hleaves : Leaves v n) : Hosts A n.view home task s := by
  obtain ⟨hfree, hwait, -⟩ := hleaves.frame
  have hlinks : n.view.links = v.links := by
    cases hleaves with
    | resume _ hview => rw [hview]
    | dispatch _ hview => rw [hview, (View.dispatch_links v).1]
  have hfree : n.view.free = v.free := hfree
  have hwait : n.view.waiting = v.waiting := funext hwait
  refine ⟨?_, ?_, ?_, ?_, ?_⟩
  · rw [hfree]
    exact h.live
  · rw [hfree]
    exact h.inj
  · rw [hfree, hlinks]
    exact h.parent
  · rw [hfree]
    exact h.home
  · rw [hwait]
    exact h.waits

/-- Whoever waits still does when somebody else takes a step and leaves it alive. -/
theorem Hosts.still (h : Hosts A v home task s) (hs : Orderly s) (hok : v.Ok) (hlive : c ∉ v.free)
    (hc : v.semAdd c = NULL) (htask : task c = e.task) (hstep : Stepped L hd s e s') {k : Addr} (hp : p ∈ v.waiting k)
    (halive : s'.alive (task p)) : s'.awaits A (task p) k := by
  obtain ⟨call, hcall, hkey⟩ := h.waits k p hp
  refine ⟨call, hs.call_kept hstep (fun he => ?_) halive hcall (call.key_stops hkey), hkey⟩
  obtain rfl := h.inj c p hlive (hok.waiting_live hp) (htask.trans he)
  exact hok.not_waiting hc k hp

/-- A task goes on that nobody comes or goes by. -/
theorem Hosts.goes (h : Hosts A v home task s) (hs : Orderly s) (hok : v.Ok) (hlive : c ∉ v.free)
    (hc : v.semAdd c = NULL) (htask : task c = e.task) (hstep : Stepped L hd s e s') (hpeace : Peaceful s s') :
    Hosts A v home task s' := by
  refine ⟨fun t => (hpeace.alive t).trans (h.live t), h.inj, h.parent, fun p q hp hq => ?_, fun k p hp => ?_⟩
  · rw [hpeace.sup]
    exact h.home p q hp hq
  · refine h.still hs hok hlive hc htask hstep hp ((hpeace.alive _).mpr ?_)
    exact (h.live _).mpr ⟨p, hok.waiting_live hp, rfl⟩

/-- The process above is that of the task above. -/
theorem Hosts.above (h : Hosts A v home task s) (hok : v.Ok) (hp : p ∉ v.free) {t : Task} (ht : (task p).parent = some t) :
    ∃ q, q ∉ v.free ∧ task q = t ∧ p ∈ v.links.child q := by
  rw [← h.parent p hp] at ht
  obtain ⟨q, hq, rfl⟩ := Option.map_eq_some_iff.mp ht
  exact ⟨q, hok.parent_live hq, rfl, (hok.wf.child q p).mpr hq⟩

/-- The tasks below a task are those of the processes below its own. -/
theorem Hosts.below (h : Hosts A v home task s) (hok : v.Ok) (hc : c ∉ v.free) (hp : p ∉ v.free) :
    Below v.links c p ↔ (task c).Under (task p) := by
  constructor
  · intro hbelow
    induction hbelow with
    | refl => exact .inl rfl
    | @tail q p hbelow hchild ih =>
      have hq := (hok.wf.child q p).mp hchild
      have hparent := h.parent p hp
      rw [hq, Option.map_some] at hparent
      have hunder := ih (hok.parent_live hq)
      cases htask : task p with
      | test =>
        rw [htask] at hparent
        cases hparent
      | uproc n =>
        rw [htask] at hparent
        cases n with
        | zero =>
          rw [Option.some.inj hparent] at hunder
          rcases hunder with hroot | hroot | hroot
          · exact .inr (.inl hroot)
          · exact .inr (.inl hroot)
          · exact absurd rfl hroot.2
        | succ n =>
          rw [Option.some.inj hparent] at hunder
          rcases hunder with hroot | hroot | hroot
          · exact .inr (.inr ⟨hroot, nofun⟩)
          · exact .inr (.inl hroot)
          · exact .inr (.inr ⟨hroot.1, nofun⟩)
  · -- up from `p`: through the shell to `test`
    have hself : ∀ {q}, q ∉ v.free → task q = task c → Below v.links c q := by
      intro q hq hqc
      rw [h.inj q c hq hc hqc]
      exact .refl
    have hshell : ∀ {q}, q ∉ v.free → task q = .uproc shellNo → task c = .test → Below v.links c q := by
      intro q hq hqs hct
      obtain ⟨r, hr, hrt, hchild⟩ := h.above hok hq (t := .test) (by rw [hqs]; rfl)
      exact (hself hr (hrt.trans hct.symm)).tail hchild
    rintro (hroot | hroot | ⟨hroot, hne⟩)
    · exact hself hp hroot.symm
    · cases htask : task p with
      | test => exact hself hp (htask.trans hroot.symm)
      | uproc n =>
        cases n with
        | zero => exact hshell hp htask hroot
        | succ n =>
          obtain ⟨q, hq, hqs, hchild⟩ := h.above hok hp (t := .uproc shellNo) (by rw [htask]; rfl)
          exact (hshell hq hqs hroot).tail hchild
    · cases htask : task p with
      | test => exact absurd htask hne
      | uproc n =>
        cases n with
        | zero => exact hself hp (htask.trans hroot.symm)
        | succ n =>
          obtain ⟨q, hq, hqs, hchild⟩ := h.above hok hp (t := .uproc shellNo) (by rw [htask]; rfl)
          exact (hself hq (hqs.trans hroot.symm)).tail hchild

/-- A task terminates, and the nucleus kills its process. -/
theorem Hosts.ends (h : Hosts A v home task s) (hs : Orderly s) (hok : v.Ok) (hlive : c ∉ v.free)
    (hc : v.semAdd c = NULL) (htask : task c = e.task) (hstep : Stepped L hd s e s')
    (hterm : s.call e.task = some .termProcess) {clock : Addr} {ks : List PcbPtr}
    (hks : ∀ q, q ∈ ks ↔ Below v.links c q) {current : Option PcbPtr} :
    Hosts A {(v.kill clock ks) with current := current} home task s' := by
  obtain ⟨halive, hsup⟩ := hstep.ends hterm
  have hfree : ∀ p, p ∉ (v.kill clock ks).free ↔ p ∉ ks ∧ p ∉ v.free := by
    intro p
    simp [View.kill]
  have hleft : ∀ {p}, p ∉ ks → p ∉ v.free → s'.alive (task p) := by
    intro p hk hp
    refine (halive _).mpr ⟨(h.live _).mpr ⟨p, hp, rfl⟩, fun hunder => hk ((hks p).mpr ?_)⟩
    exact (h.below hok hlive hp).mpr (htask ▸ hunder)
  refine ⟨fun t => ⟨fun ht => ?_, fun ht => ?_⟩, fun p q hp hq => ?_, fun p hp => ?_, fun p q hp hq => ?_, fun k p hp => ?_⟩
  · obtain ⟨ht, hunder⟩ := (halive t).mp ht
    obtain ⟨p, hp, rfl⟩ := (h.live t).mp ht
    refine ⟨p, (hfree p).mpr ⟨fun hk => hunder ?_, hp⟩, rfl⟩
    exact htask ▸ (h.below hok hlive hp).mp ((hks p).mp hk)
  · obtain ⟨p, hp, rfl⟩ := ht
    exact hleft ((hfree p).mp hp).1 ((hfree p).mp hp).2
  · exact h.inj p q ((hfree p).mp hp).2 ((hfree q).mp hq).2
  · obtain ⟨hk, hp⟩ := (hfree p).mp hp
    rw [← h.parent p hp]
    exact congrArg (Option.map task) (if_neg hk)
  · rw [hsup]
    exact h.home p q ((hfree p).mp hp).2 hq
  · obtain ⟨hp, hk⟩ := List.mem_filter.mp hp
    have hk : p ∉ ks := by simpa using hk
    exact h.still hs hok hlive hc htask hstep hp (hleft hk (hok.waiting_live hp))

/-- The shell creates a program, and the nucleus its process. -/
theorem Hosts.creates (h : Hosts A v home task s) (hs : Orderly s) (hok : v.Ok) (hlive : c ∉ v.free)
    (hc : v.semAdd c = NULL) (htask : task c = e.task) (hstep : Stepped L hd s e s') (hnext : s'.next ≠ s.next)
    {rest ready : List PcbPtr} (hfree : v.free = p :: rest)
    (hhome : ∀ asid u, s.call e.task = some (.createProcess asid u) → home' = Function.update home p (A.sup u)) :
    Hosts A (v.create c p rest ready) home' (Function.update task p (.uproc s.next)) s' := by
  obtain ⟨hshell, -, halive, asid, u, hcall, hsup⟩ := hs.creates hstep hnext
  obtain rfl := hhome asid u hcall
  have hp : p ∈ v.free := by simp [hfree]
  have hnd : (p :: rest).Nodup := hfree ▸ hok.free_nodup
  have hmem : ∀ q, q ∉ rest ↔ q = p ∨ q ∉ v.free := by
    intro q
    rw [hfree, List.mem_cons]
    by_cases hq : q = p
    · subst hq
      simp [(List.nodup_cons.mp hnd).1]
    · simp [hq]
  have hne : ∀ {q}, q ∉ v.free → q ≠ p := by
    rintro q hq rfl
    exact hq hp
  have hfresh : ∀ {q}, q ∉ v.free → task q ≠ .uproc s.next := by
    intro q hq hn
    refine (h.live (.uproc s.next)).mpr ⟨q, hq, hn⟩ ?_
    exact hs.owners.fresh s.next le_rfl
  refine ⟨fun t => ?_, fun q r hq hr => ?_, fun q hq => ?_, fun q n hq hn => ?_, fun k q hq => ?_⟩
  · rw [halive]
    constructor
    · rintro (ht | rfl)
      · obtain ⟨q, hq, rfl⟩ := (h.live t).mp ht
        exact ⟨q, (hmem q).mpr (.inr hq), Function.update_of_ne (hne hq) _ _⟩
      · exact ⟨p, (hmem p).mpr (.inl rfl), Function.update_self _ _ _⟩
    · rintro ⟨q, hq, rfl⟩
      rcases (hmem q).mp hq with rfl | hq
      · exact .inr (Function.update_self _ _ _)
      · rw [Function.update_of_ne (hne hq)]
        exact .inl ((h.live _).mpr ⟨q, hq, rfl⟩)
  · rcases (hmem q).mp hq with rfl | hq'
    · rcases (hmem r).mp hr with rfl | hr'
      · exact fun _ => rfl
      · rw [Function.update_self, Function.update_of_ne (hne hr')]
        exact fun he => absurd he.symm (hfresh hr')
    · rcases (hmem r).mp hr with rfl | hr'
      · rw [Function.update_self, Function.update_of_ne (hne hq')]
        exact fun he => absurd he (hfresh hq')
      · rw [Function.update_of_ne (hne hq'), Function.update_of_ne (hne hr')]
        exact h.inj q r hq' hr'
  · rcases (hmem q).mp hq with rfl | hq
    · have hparent : (v.create c q rest ready).links.parent q = some c := by simp [View.create, attach]
      rw [Function.update_self, hparent, Option.map_some, Function.update_of_ne (hne hlive), htask, hshell]
      obtain ⟨n, hn⟩ := Nat.exists_eq_succ_of_ne_zero (Nat.ne_of_gt hs.owners.next)
      rw [hn]
      rfl
    · have hparent : (v.create c p rest ready).links.parent q = v.links.parent q := by
        simp [View.create, attach, hne hq]
      rw [hparent, Function.update_of_ne (hne hq), ← h.parent q hq]
      cases hq' : v.links.parent q with
      | none => rfl
      | some r => exact congrArg some (Function.update_of_ne (hne (hok.parent_live hq')) _ _)
  · rw [hsup]
    rcases (hmem q).mp hq with rfl | hq
    · rw [Function.update_self] at hn ⊢
      rw [if_pos (Task.uproc.inj hn).symm]
    · rw [Function.update_of_ne (hne hq)] at hn ⊢
      have hn' : n ≠ s.next := by
        rintro rfl
        exact hfresh hq hn
      rw [if_neg hn']
      exact h.home q n hq hn
  · have hq' : q ∉ v.free := hok.waiting_live hq
    rw [Function.update_of_ne (hne hq')]
    exact h.still hs hok hlive hc htask hstep hq ((halive _).mpr (.inl ((h.live _).mpr ⟨q, hq', rfl⟩)))

end Hosts

end MultiPandOS
