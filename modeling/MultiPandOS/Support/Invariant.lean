import MultiPandOS.Support.Mutexes

/-! What holds in every run of the support level.

`Inv` ties the free list, the swap pool and the semaphores to the places of the
U-procs: who owns a support structure, on behalf of whom everybody works, who holds
`swapPoolSemaphore`, that the shell waits for the one program it has launched, and
that the swap pool and the page tables of the U-procs that still have pages agree.
Every step keeps it (`Inv.step`) unless the U-proc that takes it has failed to write
a page of another one back. The owners, the mutex and the handshake need no such rule
and come from `Orderly`; the rest is shown here, one invariant after the other. -/
namespace MultiPandOS
open Paging Runs
open Semaphore (Guarded)

/-! ### The invariant -/

/-- The support structures of the U-procs that still have pages. -/
def Sys.live (s : Sys) : Set SupPtr := {u | ∃ q, (s.proc q).place.mapped = true ∧ (s.proc q).sup = u}

theorem Sys.live_owned (s : Sys) : s.live ⊆ s.owned :=
  fun _ ⟨q, hq, hu⟩ => ⟨q, Place.mapped_owns hq, hu⟩

/-- The ASID of the shell is 1, those of the programs are not, and everybody works on
behalf of their own. -/
structure Identity (s : Sys) : Prop where
  asid : ∀ q, (s.proc q).place ≠ .absent → isAsid (s.proc q).asid
  shell : ∀ q, (s.proc q).place ≠ .absent → ((s.proc q).asid = SHELL_ASID ↔ q = shellNo)
  ok : ∀ q, (s.proc q).place.asidOk (s.proc q).asid

/-- One U-proc at a time holds `swapPoolSemaphore`. -/
structure Mutex (s : Sys) : Prop where
  value : s.sem .swapPoolSemaphore = 0 ∨ s.sem .swapPoolSemaphore = 1
  zero : ∀ q, (s.proc q).place.locks = true → s.sem .swapPoolSemaphore = 0
  one : ∀ q r, (s.proc q).place.locks = true → (s.proc r).place.locks = true → q = r

/-- The shell waits for the program it has launched, which signals its end once. -/
structure Protocol (s : Sys) : Prop where
  waiting : ∀ q, q ≠ shellNo → (s.proc q).place.pending = true →
    (s.proc shellNo).place = .waitShell ∧ s.sem .shellSemaphore = 0
  single : ∀ q r, q ≠ shellNo → r ≠ shellNo → (s.proc q).place.pending = true →
    (s.proc r).place.pending = true → q = r
  signal : s.sem .shellSemaphore = 0 ∨ s.sem .shellSemaphore = 1 ∧
    (∀ q, q ≠ shellNo → (s.proc q).place.pending = false) ∧
    ((s.proc shellNo).place.pending = true → (s.proc shellNo).place = .waitShell)
  master : 0 < s.sem .masterSemaphore ∨ s.test ≠ .waiting → (s.proc shellNo).place.pending = false

/-- The swap pool and the page tables of the U-procs that have pages. -/
structure Memory (L : PoolLayout) (s : Sys) : Prop where
  held : ∀ q, (s.proc q).place.owns = true → s.vm.asid (s.proc q).sup = (s.proc q).asid
  paged : Paged L s.live none s.vm
  detached : ∀ q f, (s.proc q).place.detached = some f → (s.vm.table L s.live).Detached f

structure Inv (L : PoolLayout) (s : Sys) : Prop where
  owners : Owners s
  identity : Identity s
  mutex : Mutex s
  protocol : Protocol s
  memory : Memory L s

/-- The ASID of the page that is being written back. -/
def Place.victim : Place → Option Word
  | .pager (.evicted _ _ asid) _ => some asid
  | _ => none

/-- A U-proc that fails to write a page back fails on a page of its own. -/
def OwnWrites (s : Sys) : SysEvent → Prop
  | .go q inp => inp.status &&& 0xff = 4 → ∀ asid ∈ (s.proc q).place.victim, asid = (s.proc q).asid
  | _ => True

instance decidableOwnWrites (s : Sys) : (e : SysEvent) → Decidable (OwnWrites s e)
  | .go _ _ => inferInstanceAs (Decidable (_ → _))
  | .access .. => isTrue trivial
  | .trap .. => isTrue trivial
  | .test => isTrue trivial

/-! ### What needs no rule -/

section Order
variable {L : PoolLayout} {s : Sys}

theorem held_swapPool (place : Place) : Sem.held .swapPoolSemaphore place = place.locks := by
  cases place with
  | code k => exact decide_eq_false k.outer_swapPool
  | fault k => exact decide_eq_false k.outer_swapPool
  | terminate step a => cases step <;> rfl
  | _ => rfl

theorem Mutex.guarded (h : Mutex s) : Guarded (s.sem .swapPoolSemaphore) (s.holds .swapPoolSemaphore) := by
  have hholds : s.holds .swapPoolSemaphore = fun q => (s.proc q).place.locks := funext fun q => held_swapPool _
  rw [hholds]
  exact ⟨h.value, h.zero, h.one⟩

theorem mutex_of_guarded (h : Guarded (s.sem .swapPoolSemaphore) (s.holds .swapPoolSemaphore)) : Mutex s := by
  have hholds : s.holds .swapPoolSemaphore = fun q => (s.proc q).place.locks := funext fun q => held_swapPool _
  rw [hholds] at h
  exact ⟨h.value, h.zero, h.one⟩

/-- Once the shell has signalled its end, everybody has. -/
theorem Protocol.over (h : Protocol s) (hshell : (s.proc shellNo).place.pending = false) (r : Nat) :
    (s.proc r).place.pending = false := by
  by_cases hr : r = shellNo
  · rw [hr]
    exact hshell
  · refine Bool.eq_false_iff.mpr fun hp => ?_
    rw [(h.waiting r hr hp).1] at hshell
    cases hshell

theorem Inv.orderly (h : Inv L s) : Orderly s := by
  refine ⟨h.owners, ⟨h.identity.shell, fun q hq => h.memory.held q (Place.working_owns hq), fun q a hq => ?_⟩,
    ⟨fun q hq => ?_, h.protocol.waiting, h.protocol.single, h.protocol.signal, fun hover => ?_⟩⟩
  · have hok := h.identity.ok q
    rwa [hq] at hok
  · have hok := h.identity.ok q
    rw [hq] at hok
    exact (h.identity.shell q (by simp [hq])).mp hok
  · have hgone := h.protocol.master hover
    refine ⟨fun q _ => h.protocol.over hgone q, fun hp => ?_⟩
    rw [hgone] at hp
    cases hp

end Order

/-! ### On behalf of whom -/

section Identity
variable {L : PoolLayout} {hd : Handlers} {q : Nat} {place : Place} {s s' : Sys} {e : SysEvent}

theorem Identity.move (h : Identity s) (hm : Moved q place s s') (hpresent : (s.proc q).place ≠ .absent)
    (hok : place.asidOk (s.proc q).asid) : Identity s' := by
  have habsent : ∀ r, (s'.proc r).place ≠ .absent → (s.proc r).place ≠ .absent := by
    intro r hr
    by_cases hrq : r = q
    · rw [hrq]
      exact hpresent
    · rwa [hm.other hrq] at hr
  refine ⟨fun r hr => ?_, fun r hr => ?_, fun r => ?_⟩
  · rw [hm.asid]
    exact h.asid r (habsent r hr)
  · rw [hm.asid]
    exact h.shell r (habsent r hr)
  · rw [hm.asid]
    by_cases hrq : r = q
    · rw [hrq, hm.self]
      exact hok
    · rw [hm.other hrq]
      exact h.ok r

theorem Identity.create {u : SupPtr} {a : Word} (h : Identity s) (hc : Created q u a s s') (ha : isAsid a)
    (hnew : a ≠ SHELL_ASID) (hnext : shellNo < s.next) (hpresent : (s.proc q).place ≠ .absent)
    (hq : (s.proc q).asid = SHELL_ASID) : Identity s' := by
  have hkept : ∀ r, r ≠ s.next → (s'.proc r).place ≠ .absent → (s.proc r).place ≠ .absent := by
    intro r hr hp
    by_cases hrq : r = q
    · rw [hrq]
      exact hpresent
    · rwa [hc.other r hrq hr] at hp
  refine ⟨fun r hr => ?_, fun r hr => ?_, fun r => ?_⟩
  · by_cases hrn : r = s.next
    · rw [hrn, hc.program]
      exact ha
    · rw [hc.asid hrn]
      exact h.asid r (hkept r hrn hr)
  · by_cases hrn : r = s.next
    · rw [hrn, hc.program]
      exact ⟨fun he => absurd he hnew, fun he => absurd he (by omega)⟩
    · rw [hc.asid hrn]
      exact h.shell r (hkept r hrn hr)
  · by_cases hrn : r = s.next
    · rw [hrn, hc.program]
      trivial
    · rw [hc.asid hrn]
      by_cases hrq : r = q
      · rw [hrq, hc.shell]
        exact hq
      · rw [hc.other r hrq hrn]
        exact h.ok r

theorem Identity.killed (habsent : ∀ r, (s'.proc r).place = .absent) : Identity s' := by
  refine ⟨fun r hr => absurd (habsent r) hr, fun r hr => absurd (habsent r) hr, fun r => ?_⟩
  rw [habsent]
  trivial

theorem Inv.inherited (h : Inv L s) (howns : (s.proc q).place.owns = true) (hinherits : s.Inherits q place) :
    place.asidOk (s.proc q).asid :=
  hinherits _ (h.identity.ok q) (h.memory.held q howns)

/-- What a U-proc that terminates is handed is its own. -/
theorem Inv.handed (h : Inv L s) {step : TermAt} {asid : Word} (hold : (s.proc q).place = .terminate step asid) :
    asid = (s.proc q).asid := by
  have hok := h.identity.ok q
  rwa [hold] at hok

end Identity

/-! ### The pager -/

section Pager
variable {L : PoolLayout} {q : Nat} {s : Sys}

/-- What the pager of `u` works on, and for whom. -/
structure Working (L : PoolLayout) (live : Set SupPtr) (a : Word) (place : PagerAt) (vm : Vm) : Prop where
  paged : Paged L live none vm
  detached : ∀ f, place.detached = some f → (vm.table L live).Detached f
  ok : place.asidOk a

/-- A step of the pager of `u`, which works for its own ASID as long as no other
page's way out fails. -/
theorem Working.step {live : Set SupPtr} {u : SupPtr} {a : Answer} {at' at'' : PagerAt} {vm vm' : Vm}
    (h : Working L live (vm.asid u) at' vm) (hu : u ∈ live)
    (hown : ∀ p f asid, at' = .evicted p f asid → a.status &&& 0xff = 4 → asid = vm.asid u)
    (hstep : pagerStep L u a at' vm = some (at'', vm')) :
    Working L live (vm.asid u) at'' vm' ∧ ∀ v, vm'.asid v = vm.asid v := by
  have hsame : vm'.swapPool = vm.swapPool → vm'.supportPool = vm.supportPool → at''.asidOk (vm.asid u) →
      (∀ f, at''.detached = some f → at'.detached = some f) →
      Working L live (vm.asid u) at'' vm' ∧ ∀ v, vm'.asid v = vm.asid v := by
    intro hpool hsup hok hdetached
    have hasid : ∀ v, vm'.asid v = vm.asid v := fun v => by rw [Vm.asid, hsup]; rfl
    have htables : SameTables live vm vm' := ⟨fun k _ => by rw [Vm.pte, hsup]; rfl, fun v _ => hasid v⟩
    exact ⟨⟨h.paged.same htables hpool, fun f hf => detached_same (h.detached f (hdetached f hf)) htables, hok⟩, hasid⟩
  cases pagerStep_effect hstep with
  | choose index victim => exact hsame rfl rfl trivial (by simp [PagerAt.detached])
  | @vacant p f free =>
    have hdetached : (vm.table L live).Detached f :=
      (h.paged.owned.of_free ((table_owner_eq_none h.paged).mpr free)).detached
    exact ⟨⟨h.paged, by simpa [PagerAt.detached] using hdetached, trivial⟩, fun _ => rfl⟩
  | @evict p f k occupied record =>
    have hpaged := h.paged.invalidate (table_owner_eq_some.mpr ⟨occupied, record⟩)
    exact ⟨⟨hpaged.attach, by simpa [PagerAt.detached] using hpaged.owned.detached, trivial⟩, asid_invalidate k vm⟩
  | write device => exact hsame rfl rfl (hown _ _ _ rfl) fun _ hf => hf
  | writeError error => exact hsame rfl rfl (h.ok error) (by simp [PagerAt.detached])
  | written ok => exact hsame rfl rfl trivial fun _ hf => hf
  | @read p f i device =>
    have hasid : pteAsid (vm.pte (u, p)).entryHi = vm.asid u := by
      rw [h.paged.entries (u, p) hu]
      exact (pageHi_fields (h.paged.asid u hu) p).2
    exact hsame rfl rfl hasid fun _ hf => hf
  | readError error => exact hsame rfl rfl h.ok (by simp [PagerAt.detached])
  | filled ok => exact hsame rfl rfl trivial fun _ hf => hf
  | @publish p f =>
    have hoff : Paged L live (some f) vm :=
      ⟨h.paged.toUprocs, h.paged.tagged, h.paged.framed, h.paged.owned.detach (h.detached f rfl)⟩
    exact ⟨⟨hoff.publish u p f a.slot hu, by simp [PagerAt.detached], trivial⟩, asid_publish u p f a.slot⟩

theorem Inv.working (h : Inv L s) {inp : Input} {k : Code} {at' : PagerAt} {r : PagerAt × Vm}
    (hold : (s.proc q).place = .pager at' k) (hown : OwnWrites s (.go q inp))
    (hstep : pagerStep L (s.proc q).sup inp.toAnswer at' s.vm = some r) :
    Working L s.live (s.proc q).asid r.1 r.2 ∧ ∀ v, r.2.asid v = s.vm.asid v := by
  obtain ⟨at'', vm⟩ := r
  have hmapped : (s.proc q).place.mapped = true := by
    rw [hold]
    rfl
  have hok := h.identity.ok q
  rw [hold] at hok
  have hasid : s.vm.asid (s.proc q).sup = (s.proc q).asid := h.memory.held q (Place.mapped_owns hmapped)
  have hworking : Working L s.live (s.vm.asid (s.proc q).sup) at' s.vm :=
    ⟨h.memory.paged, fun f hf => h.memory.detached q f (by rw [hold]; exact hf), by rw [hasid]; exact hok.1⟩
  have hwrites : ∀ p f asid, at' = .evicted p f asid → inp.status &&& 0xff = 4 → asid = s.vm.asid (s.proc q).sup := by
    intro p f asid he hs
    rw [hasid]
    refine hown hs asid ?_
    rw [hold, he]
    rfl
  have hnext := hworking.step ⟨q, hmapped, rfl⟩ hwrites hstep
  rwa [hasid] at hnext

end Pager

/-! ### The swap pool and the page tables -/

section Memory
variable {L : PoolLayout} {hd : Handlers} {q : Nat} {place : Place} {s s' : Sys}

theorem Moved.live (h : Moved q place s s') (hmapped : place.mapped = (s.proc q).place.mapped) :
    s'.live = s.live := by
  have hiff : ∀ r, (s'.proc r).place.mapped = (s.proc r).place.mapped := by
    intro r
    by_cases hrq : r = q
    · rw [hrq, h.self, hmapped]
    · rw [h.other hrq]
  unfold Sys.live
  simp only [hiff, h.sup]

theorem Memory.move (h : Memory L s) (hm : Moved q place s s')
    (hmapped : place.mapped = (s.proc q).place.mapped) (howns : place.owns = true → (s.proc q).place.owns = true)
    (hdetached : ∀ f, place.detached = some f → (s.proc q).place.detached = some f)
    (hpool : s'.vm.swapPool = s.vm.swapPool) (hsame : SameTables s'.owned s.vm s'.vm) : Memory L s' := by
  have hlive := hm.live hmapped
  have hsame' : SameTables s.live s.vm s'.vm := hlive ▸ hsame.mono s'.live_owned
  refine ⟨fun r hr => ?_, ?_, fun r f hf => ?_⟩
  · have hown : s'.vm.asid (s'.proc r).sup = s.vm.asid (s'.proc r).sup := hsame.asid _ ⟨r, hr, rfl⟩
    rw [hown, hm.sup, hm.asid]
    exact h.held r (hm.attr howns hr)
  · rw [hlive]
    exact h.paged.same hsame' hpool
  · rw [hlive]
    refine detached_same (h.detached r f ?_) hsame'
    by_cases hrq : r = q
    · subst hrq
      rw [hm.self] at hf
      exact hdetached f hf
    · rwa [hm.other hrq] at hf

/-- A step that changes no page table but those of the free structures. -/
theorem Memory.busy (h : Memory L s) (ho : Owners s') (hm : Moved q place s s')
    (hmapped : place.mapped = (s.proc q).place.mapped) (howns : (s.proc q).place.owns = true)
    (hattached : place.detached = none) (hpool : s'.vm.swapPool = s.vm.swapPool)
    (hsame : SameTables {u | u ∉ s'.supportFree} s.vm s'.vm) : Memory L s' := by
  refine h.move hm hmapped (fun _ => howns) (fun f hf => ?_) hpool (hsame.mono ho.busy)
  rw [hattached] at hf
  cases hf

theorem Inv.memory_pager (h : Inv L s) {inp : Input} {k : Code} {at' : PagerAt} {r : PagerAt × Vm}
    (hold : (s.proc q).place = .pager at' k) (hown : OwnWrites s (.go q inp))
    (hstep : pagerStep L (s.proc q).sup inp.toAnswer at' s.vm = some r) :
    Memory L ((s.setVm r.2).goto q (.pager r.1 k)) := by
  have hm : Moved q (.pager r.1 k) s ((s.setVm r.2).goto q (.pager r.1 k)) := ⟨rfl, rfl, rfl⟩
  have hlocks : (s.proc q).place.locks = true := by
    rw [hold]
    rfl
  have hlive : ((s.setVm r.2).goto q (.pager r.1 k)).live = s.live := hm.live (by rw [hold]; rfl)
  obtain ⟨hworking, hasids⟩ := h.working hold hown hstep
  refine ⟨fun t ht => ?_, ?_, fun t f hf => ?_⟩
  · rw [hm.sup, hm.asid]
    exact (hasids _).trans (h.memory.held t (hm.attr (fun _ => Place.locks_owns hlocks) ht))
  · rw [hlive]
    exact hworking.paged
  · rw [hlive]
    -- nobody else is in the pager
    obtain rfl : t = q := h.mutex.one t q (hm.attr (fun _ => hlocks) (Place.detached_locks hf)) hlocks
    rw [hm.self] at hf
    exact hworking.detached f hf

/-- `q` has no pages any more. -/
theorem Moved.live_diff (h : Moved q place s s') (ho : Owners s) (hmapped : (s.proc q).place.mapped = true)
    (hnew : place.mapped = false) : s'.live = s.live \ {(s.proc q).sup} := by
  refine Set.ext fun u => ⟨fun ⟨r, hr, hu⟩ => ?_, fun ⟨⟨r, hr, hu⟩, hne⟩ => ?_⟩
  · have hrq : r ≠ q := by
      rintro rfl
      rw [h.self, hnew] at hr
      cases hr
    rw [h.other hrq] at hr
    rw [h.sup] at hu
    exact ⟨⟨r, hr, hu⟩, fun he => hrq (ho.inj r q (Place.mapped_owns hr) (Place.mapped_owns hmapped) (hu.trans he))⟩
  · have hrq : r ≠ q := by
      rintro rfl
      exact hne hu.symm
    exact ⟨r, by rw [h.other hrq]; exact hr, by rw [h.sup]; exact hu⟩

theorem Inv.memory_free (h : Inv L s) {asid : Word} (hold : (s.proc q).place = .terminate .free asid) :
    Memory L ((s.setVm (freeSwapFrames asid s.vm)).goto q (.terminate .unlock asid)) := by
  have hm : Moved q (.terminate .unlock asid) s ((s.setVm (freeSwapFrames asid s.vm)).goto q (.terminate .unlock asid)) :=
    ⟨rfl, rfl, rfl⟩
  have hmapped : (s.proc q).place.mapped = true := by
    rw [hold]
    rfl
  have hlocks : (s.proc q).place.locks = true := by
    rw [hold]
    rfl
  have howns := Place.mapped_owns hmapped
  have hasid : s.vm.asid (s.proc q).sup = asid := (h.memory.held q howns).trans (h.handed hold).symm
  refine ⟨fun r hr => ?_, ?_, fun r f hf => ?_⟩
  · rw [hm.sup, hm.asid]
    exact h.memory.held r (hm.attr (fun _ => howns) hr)
  · rw [hm.live_diff h.owners hmapped rfl]
    have hpaged := h.memory.paged.freeSwapFrames ⟨q, hmapped, rfl⟩
    rwa [hasid] at hpaged
  · obtain rfl : r = q := h.mutex.one r q (hm.attr (fun _ => hlocks) (Place.detached_locks hf)) hlocks
    rw [hm.self] at hf
    cases hf

theorem Inv.memory_dealloc (h : Inv L s) {asid : Word} (hold : (s.proc q).place = .terminate .dealloc asid) :
    Memory L ({s.setVm (s.vm.setAsid (s.proc q).sup 0) with
      supportFree := deallocateSupport (s.proc q).sup s.supportFree}.goto q (.terminate .signal asid)) := by
  have howns : (s.proc q).place.owns = true := by
    rw [hold]
    rfl
  generalize hs' : ({s.setVm (s.vm.setAsid (s.proc q).sup 0) with
      supportFree := deallocateSupport (s.proc q).sup s.supportFree} : Sys).goto q (.terminate .signal asid) = s'
  have hm : Moved q (.terminate .signal asid) s s' := by
    subst hs'
    exact ⟨rfl, rfl, rfl⟩
  have hvm : s'.vm = s.vm.setAsid (s.proc q).sup 0 := by
    subst hs'
    rfl
  have hnotOwned : (s.proc q).sup ∉ s'.owned := by
    intro hu
    obtain ⟨r, hr, hu⟩ := hu
    rw [hm.sup] at hu
    exact (h.owners.others hm howns rfl hr).2 hu
  refine h.memory.move hm (by rw [hold]; rfl) (fun _ => howns) (fun _ hf => by cases hf) (by rw [hvm]; rfl) ?_
  rw [hvm]
  exact sameTables_setAsid hnotOwned 0 s.vm

/-- Everybody is terminated, and nobody had pages. -/
theorem Memory.killed (h : Memory L s) (hnone : ∀ r, (s.proc r).place.pending = false)
    (habsent : ∀ r, (s'.proc r).place = .absent) (hvm : s'.vm = s.vm) : Memory L s' := by
  have hnot : ∀ {attr : Place → Bool}, attr .absent = false → ∀ r, attr (s'.proc r).place = true → False := by
    intro attr hattr r hr
    rw [habsent, hattr] at hr
    cases hr
  have hlive : s'.live = s.live := by
    refine Set.ext fun u => ⟨fun ⟨r, hr, _⟩ => (hnot rfl r hr).elim, fun ⟨r, hr, _⟩ => ?_⟩
    have hp := Place.mapped_pending hr
    rw [hnone r] at hp
    cases hp
  refine ⟨fun r hr => (hnot rfl r hr).elim, ?_, fun r f hf => (hnot rfl r (Place.detached_locks hf)).elim⟩
  rw [hlive, hvm]
  exact h.paged

theorem Paged.initSupport {live : Set SupPtr} {vm : Vm} (h : Paged L live none vm) {u : SupPtr} {a : Word}
    (hu : u ∉ live) (ha : isAsid a) (hnew : ∀ v ∈ live, vm.asid v ≠ a) :
    Paged L (insert u live) none (vm.initSupport hd u a) := by
  have hself : (vm.initSupport hd u a).asid u = a := by simp [Vm.asid, Vm.initSupport, initSupportStructure]
  have hpte : ∀ p, (vm.initSupport hd u a).pte (u, p) = ⟨pageHi a p, DIRTYON⟩ := by
    intro p
    simp [Vm.pte, Vm.initSupport, initSupportStructure]
  have hinvalid : ∀ p, ¬ ((vm.initSupport hd u a).pte (u, p)).valid := by
    intro p
    rw [hpte]
    show ¬ DIRTYON &&& VALIDON ≠ 0
    decide
  have hsame : SameTables live vm (vm.initSupport hd u a) := by
    have hsup : ∀ v ∈ live, (vm.initSupport hd u a).supportPool v = vm.supportPool v := by
      intro v hv
      have hne : v ≠ u := by
        rintro rfl
        exact hu hv
      exact Function.update_of_ne hne _ _
    exact ⟨fun k hk => congrArg (fun sup => sup.supPrivatePgTbl k.2) (hsup k.1 hk),
      fun v hv => congrArg Support.supAsid (hsup v hv)⟩
  have hold := h.same hsame rfl
  refine ⟨⟨fun v hv => ?_, fun v hv w hw hvw => ?_, fun k hk => ?_⟩, fun f hf => ?_, fun k hk hv => ?_, fun k f hk => ?_⟩
  · obtain rfl | hv := hv
    · rw [hself]
      exact ha
    · exact hold.asid v hv
  · obtain rfl | hv := hv
    · obtain rfl | hw := hw
      · rfl
      · rw [hself, hsame.asid w hw] at hvw
        exact absurd hvw.symm (hnew w hw)
    · obtain rfl | hw := hw
      · rw [hself, hsame.asid v hv] at hvw
        exact absurd hvw (hnew v hv)
      · exact hold.distinct v hv w hw hvw
  · obtain ⟨v, p⟩ := k
    obtain hv | hv := hk
    · obtain rfl : v = u := hv
      rw [hpte, hself]
    · exact hold.entries (v, p) hv
  · obtain ⟨k, hk, hrec⟩ := hold.tagged f hf
    exact ⟨k, .inr hk, hrec⟩
  · obtain ⟨v, p⟩ := k
    obtain hv' | hv' := hk
    · obtain rfl : v = u := hv'
      exact absurd hv (hinvalid p)
    · exact hold.framed (v, p) hv' hv
  · obtain ⟨hk, hv, hf⟩ := table_map_eq_some.mp hk
    obtain ⟨v, p⟩ := k
    obtain hv' | hv' := hk
    · obtain rfl : v = u := hv'
      exact absurd hv (hinvalid p)
    · exact hold.owned (v, p) f (table_map_eq_some.mpr ⟨hv', hv, hf⟩)

theorem Created.live {u : SupPtr} {a : Word} (h : Created q u a s s') (hnext : (s.proc s.next).place = .absent)
    (hq : (s.proc q).place.mapped = true) : s'.live = insert u s.live := by
  refine Set.ext fun v => ⟨fun hv => ?_, fun hv => ?_⟩
  · obtain ⟨r, hr, hv⟩ := hv
    by_cases hrn : r = s.next
    · rw [hrn, h.program] at hv
      exact .inl hv.symm
    · rw [h.attr Place.mapped hq.symm hrn] at hr
      exact .inr ⟨r, hr, (h.sup hrn).symm.trans hv⟩
  · obtain rfl | hv := hv
    · exact ⟨s.next, by rw [h.program]; rfl, by rw [h.program]⟩
    · obtain ⟨r, hr, hv⟩ := hv
      have hrn : r ≠ s.next := by
        rintro rfl
        rw [hnext] at hr
        cases hr
      exact ⟨r, by rw [h.attr Place.mapped hq.symm hrn]; exact hr, (h.sup hrn).trans hv⟩

/-- A new page table beside that of the shell. -/
theorem Memory.create {u : SupPtr} {a asid : Word} (h : Memory L s) (ho : Owners s) (hc : Created shellNo u a s s')
    (hold : (s.proc shellNo).place = .executing asid) (halone : ∀ r, r ≠ shellNo → (s.proc r).place.pending = false)
    (hshell : (s.proc shellNo).asid = SHELL_ASID) (ha : isAsid a) (hnew : a ≠ SHELL_ASID) (hu : u ∈ s.supportFree)
    (hvm : s'.vm = s.vm.initSupport hd u a) : Memory L s' := by
  have hlive : s'.live = insert u s.live := hc.live (ho.fresh s.next (Nat.le_refl _)) (by rw [hold]; rfl)
  have hother : ∀ v ∈ s.owned, v ≠ u := by
    intro v hv he
    obtain ⟨r, hr, rfl⟩ := hv
    exact ho.taken r hr (he ▸ hu)
  refine ⟨fun r hr => ?_, ?_, fun r f hf => ?_⟩
  · by_cases hrn : r = s.next
    · rw [hrn, hc.program, hvm]
      simp [Vm.asid, Vm.initSupport, initSupportStructure]
    · rw [hc.attr Place.owns (by rw [hold]; rfl) hrn] at hr
      rw [hc.sup hrn, hc.asid hrn, ← h.held r hr, hvm]
      exact congrArg Support.supAsid (Function.update_of_ne (hother _ ⟨r, hr, rfl⟩) _ _)
  · rw [hlive, hvm]
    refine h.paged.initSupport (fun hu => hother u (s.live_owned hu) rfl) ha fun v hv => ?_
    obtain ⟨r, hr, rfl⟩ := hv
    have hrs : r = shellNo := by
      by_contra hr'
      have hp := Place.mapped_pending hr
      rw [halone r hr'] at hp
      cases hp
    rw [h.held r (Place.mapped_owns hr), hrs, hshell]
    exact Ne.symm hnew
  · have hlocks := Place.detached_locks hf
    have hrn : r ≠ s.next := by
      intro he
      rw [he, hc.program] at hf
      cases hf
    rw [hc.attr Place.locks (by rw [hold]; rfl) hrn] at hlocks
    have hrs : r ≠ shellNo := by
      intro he
      rw [he, hold] at hlocks
      cases hlocks
    exact absurd (Place.locks_pending hlocks) (Bool.eq_false_iff.mp (halone r hrs))

end Memory

/-! ### Every step -/

section Steps
variable {L : PoolLayout} {hd : Handlers} {s s' : Sys} {e : SysEvent}

theorem Inv.identity_step (h : Inv L s) (hown : OwnWrites s e) (hstep : sysStep L hd e s = some s') : Identity s' := by
  have hkeep : ∀ {q place s₁}, Moved q place s s₁ → (s.proc q).place.owns = true → s.Inherits q place → Identity s₁ :=
    fun hm howns hinherits => h.identity.move hm (Place.present howns) (h.inherited howns hinherits)
  cases sysStep_effect hstep with
  | calm old new inherits quiet => exact hkeep quiet.toMoved (Place.calm_owns old) inherits
  | refill slot code touched miss index => exact ⟨h.identity.asid, h.identity.shell, h.identity.ok⟩
  | lock old pass locks mapped attached inherits =>
    obtain ⟨-, rfl⟩ := passeren_eq_some pass
    exact hkeep ⟨rfl, rfl, rfl⟩ (Place.calm_owns old) inherits
  | unlock old locks pending mapped inherits => exact hkeep ⟨rfl, rfl, rfl⟩ (Place.locks_owns old) inherits
  | @pager q k inp place r old step =>
    have hok := h.identity.ok q
    rw [old] at hok
    exact h.identity.move ⟨rfl, rfl, rfl⟩ (by simp [old]) ⟨(h.working old hown step).1.ok, hok.2⟩
  | free old => exact h.identity.move ⟨rfl, rfl, rfl⟩ (by simp [old]) (h.handed old)
  | dealloc old => exact h.identity.move ⟨rfl, rfl, rfl⟩ (by simp [old]) (h.handed old)
  | signal old => exact h.identity.move ⟨rfl, rfl, rfl⟩ (by simp [old]) (h.handed old)
  | @die q inp asid old =>
    by_cases hq : q = shellNo
    · subst hq
      exact .killed (termprocess_shell s)
    · exact h.identity.move (termprocess_moved hq) (by simp [old]) trivial
  | @create q inp asid newAsid u supportFree old arg accepted popped created =>
    obtain ⟨-, hisAsid, hnew⟩ := accepted_asid accepted
    have hpresent : (s.proc q).place ≠ .absent := by simp [old]
    have hshell : (s.proc q).asid = SHELL_ASID :=
      (h.identity.shell q hpresent).mpr (h.orderly.named.accepted old accepted).1
    exact h.identity.create (h.owners.created old _ u supportFree newAsid) hisAsid hnew h.owners.next hpresent hshell
  | wake old pass => exact h.identity.move (passeren_ldst pass _) (by simp [old]) trivial
  | await old pass =>
    obtain ⟨-, rfl⟩ := passeren_eq_some pass
    exact ⟨h.identity.asid, h.identity.shell, h.identity.ok⟩
  | kill old => exact .killed fun _ => rfl

theorem Inv.mutex_step (h : Inv L s) (hstep : sysStep L hd e s = some s') : Mutex s' :=
  mutex_of_guarded ((h.orderly.used rfl (sysStep_stepped hstep)).guarded h.mutex.guarded)

/-- Nobody but the shell signals its end. -/
theorem Inv.master_step (h : Inv L s) (hstep : Stepped L hd s e s')
    (hover : 0 < s'.sem .masterSemaphore ∨ s'.test ≠ .waiting) : (s'.proc shellNo).place.pending = false := by
  have hkeep : ∀ {q place}, Moved q place s s' → s'.sem .masterSemaphore = s.sem .masterSemaphore →
      (place.pending = true → (s.proc q).place.pending = true) → (s'.proc shellNo).place.pending = false := by
    intro q place hm hmaster hpending
    rw [hmaster, hm.test] at hover
    have hgone := h.protocol.master hover
    exact Bool.eq_false_iff.mpr fun hp => Bool.eq_false_iff.mp hgone (hm.attr hpending hp)
  cases hstep with
  | @flow e q d st place s' actor flow allowed goes =>
    have hm := goes.toMoved
    obtain ⟨hold, rfl⟩ | ⟨a, hold, rfl, rfl⟩ | ⟨hold, hsems⟩ := flow.signals
    · refine hkeep hm ?_ fun _ => flow.pending
      rw [goes.sem]
      exact Function.update_of_ne (show Sem.masterSemaphore ≠ .shellSemaphore by simp) _ _
    · by_cases ha : a = SHELL_ASID
      · have hq : q = shellNo := (h.identity.shell q (by simp [hold])).mp ((h.handed hold).symm.trans ha)
        rw [← hq, hm.self]
        rfl
      · refine hkeep hm ?_ fun _ => flow.pending
        rw [goes.sem, if_neg ha]
        exact Function.update_of_ne (show Sem.masterSemaphore ≠ .shellSemaphore by simp) _ _
    · refine hkeep hm ?_ fun _ => flow.pending
      rw [goes.sem]
      exact (hsems s.sem).2
  | @die q inp asid old =>
    by_cases hq : q = shellNo
    · subst hq
      rfl
    · exact hkeep (termprocess_moved hq) (by simp) (by simp [Place.pending])
  | @create q inp asid newAsid u supportFree old arg accepted popped created =>
    obtain ⟨rfl, -⟩ := h.orderly.named.accepted old accepted
    have hgone := h.protocol.master hover
    rw [old] at hgone
    cases hgone
  | await old pass =>
    obtain ⟨hpos, rfl⟩ := passeren_eq_some pass
    exact h.protocol.master (.inl hpos)
  | kill old => rfl

theorem Inv.protocol_step (h : Inv L s) (hstep : sysStep L hd e s = some s') : Protocol s' := by
  have ho := (h.orderly.step hstep).handshake
  exact ⟨ho.waiting, ho.single, ho.signal, h.master_step (sysStep_stepped hstep)⟩

theorem Inv.memory_step (h : Inv L s) (hown : OwnWrites s e) (hstep : sysStep L hd e s = some s') : Memory L s' := by
  have howners := h.owners.step hstep
  cases sysStep_effect hstep with
  | calm old new inherits quiet =>
    have hmapped := (Place.calm_mapped new).trans (Place.calm_mapped old).symm
    exact h.memory.busy howners quiet.toMoved hmapped (Place.calm_owns old) (Place.calm_detached new) quiet.swapPool
      (quiet.supportFree ▸ quiet.tables)
  | refill slot code touched miss index =>
    exact ⟨h.memory.held, h.memory.paged.same ⟨fun _ _ => rfl, fun _ _ => rfl⟩ rfl, h.memory.detached⟩
  | lock old pass locks mapped attached inherits =>
    obtain ⟨-, rfl⟩ := passeren_eq_some pass
    exact h.memory.busy howners ⟨rfl, rfl, rfl⟩ (mapped.trans (Place.calm_mapped old).symm) (Place.calm_owns old) attached
      rfl ⟨fun _ _ => rfl, fun _ _ => rfl⟩
  | unlock old locks pending mapped inherits =>
    refine h.memory.move ⟨rfl, rfl, rfl⟩ mapped (fun _ => Place.locks_owns old) (fun f hf => ?_) rfl
      ⟨fun _ _ => rfl, fun _ _ => rfl⟩
    rw [Place.detached_locks hf] at locks
    cases locks
  | pager old step => exact h.memory_pager old hown step
  | free old => exact h.memory_free old
  | dealloc old => exact h.memory_dealloc old
  | signal old =>
    exact h.memory.move ⟨rfl, rfl, rfl⟩ (by rw [old]; rfl) (by simp [Place.owns]) (fun _ hf => by cases hf) rfl
      ⟨fun _ _ => rfl, fun _ _ => rfl⟩
  | @die q inp asid old =>
    by_cases hq : q = shellNo
    · subst hq
      exact h.memory.killed (h.orderly.handshake.nobody old) (termprocess_shell s) (termprocess_vm _ _)
    · refine h.memory.move (termprocess_moved hq) (by rw [old]; rfl) (by simp [Place.owns]) (fun _ hf => by cases hf)
        (by simp) ?_
      rw [termprocess_vm]
      exact ⟨fun _ _ => rfl, fun _ _ => rfl⟩
  | @create q inp asid newAsid u supportFree old arg accepted popped created =>
    obtain ⟨-, hisAsid, hnew⟩ := accepted_asid accepted
    obtain ⟨rfl, -⟩ := h.orderly.named.accepted old accepted
    have hshell : (s.proc shellNo).asid = SHELL_ASID := (h.identity.shell shellNo (by simp [old])).mpr rfl
    exact h.memory.create h.owners (h.owners.created old _ u supportFree newAsid) old
      (fun r hr => h.orderly.handshake.alone (by simp [old]) hr) hshell hisAsid hnew
      (by simp [allocateSupport_eq_some popped]) rfl
  | @wake q inp s₁ old pass =>
    have hm := passeren_ldst pass q
    have hquiet := (Quiet.refl q s₁).ldst
    obtain ⟨-, rfl⟩ := passeren_eq_some pass
    exact h.memory.busy howners hm (by rw [old]; rfl) (by rw [old]; rfl) rfl hquiet.swapPool hquiet.tables
  | await old pass =>
    obtain ⟨-, rfl⟩ := passeren_eq_some pass
    exact ⟨h.memory.held, h.memory.paged, h.memory.detached⟩
  | kill old =>
    have hgone := h.protocol.master (.inr (by simp [old]))
    exact h.memory.killed (h.protocol.over hgone) (fun _ => rfl) rfl

/-- **Every step within the rule keeps the invariant.** -/
theorem Inv.step (h : Inv L s) (hown : OwnWrites s e) (hstep : sysStep L hd e s = some s') : Inv L s' :=
  ⟨h.owners.step hstep, h.identity_step hown hstep, h.mutex_step hstep, h.protocol_step hstep, h.memory_step hown hstep⟩

end Steps

/-! ### Runs -/

section Runs
variable {L : PoolLayout} {hd : Handlers} {vm : Vm} {u : SupPtr} {s₀ s : Sys} {es : List SysEvent}

theorem Started.inv (h : Started hd vm u s) : Inv L s := by
  have hunlocked : ∀ q, (s.proc q).place.locks = true → False := by
    intro q hq
    rw [h.attr Place.locks rfl hq, h.shell] at hq
    cases hq
  refine ⟨h.owners, ⟨fun q hq => ?_, h.named.shell, fun q => ?_⟩,
    ⟨.inr h.swapPool, fun q hq => (hunlocked q hq).elim, fun q _ hq => (hunlocked q hq).elim⟩,
    ⟨h.handshake.waiting, h.handshake.single, h.handshake.signal, fun hover => ?_⟩, ?_⟩
  · rw [h.present hq, h.shell]
    show isAsid SHELL_ASID
    decide
  · by_cases hq : q = shellNo
    · rw [hq, h.shell]
      trivial
    · rw [h.other q hq]
      trivial
  · rw [h.signals.1, h.test] at hover
    simp at hover
  · have hempty : Paged L ∅ none (initSwapStructs {vm with frameIndex := 0, tlb := fun _ => ⟨0, 0⟩}) := by
      refine ⟨⟨fun v hv => hv.elim, fun v hv => hv.elim, fun k hk => hk.elim⟩, fun f hf => ?_, fun k hk => hk.elim,
        fun k f hk => ?_⟩
      · exact absurd rfl hf
      · exact (table_map_eq_some.mp hk).1.elim
    have hlive : s.live = insert u ∅ := by
      refine Set.ext fun v => ⟨fun hv => ?_, fun hv => ?_⟩
      · obtain ⟨q, hq, hv⟩ := hv
        rw [h.attr Place.mapped rfl hq, h.shell] at hv
        exact .inl hv.symm
      · obtain rfl | hv := hv
        · exact ⟨shellNo, by rw [h.shell]; rfl, by rw [h.shell]⟩
        · exact hv.elim
    refine ⟨fun q hq => ?_, ?_, fun q f hf => (hunlocked q (Place.detached_locks hf)).elim⟩
    · rw [h.attr Place.owns rfl hq, h.shell, h.vm]
      simp [Vm.asid, Vm.initSupport, initSupportStructure]
    · rw [hlive, h.vm]
      exact hempty.initSupport (fun hu => hu.elim) (by decide) fun v hv => hv.elim

/-- What holds in every state that is reached within the rule. -/
theorem run_inv (hstart : Sys.start hd vm = some s₀) (hrun : Run (sysStep L hd) OwnWrites s₀ es s) : Inv L s := by
  obtain ⟨u, hu⟩ := start_started hstart
  exact hrun.invariant (Inv L) hu.inv fun _ _ _ hi hown hstep => hi.step hown hstep

end Runs

end MultiPandOS
