import MultiPandOS.Support.Invariant

/-! Coherence of the TLB over whole runs.

An entry is copied from a page table by the refill handler and by the pager, and stays
until it is overwritten. `TlbOk` says that the entries for a page of a U-proc that still
has its pages agree with its page table, and that no page has two. The pager keeps it,
since it looks for the entry (TLBP) whenever it changes a page table, and so does the
refill handler as long as it writes an entry that was not there. Nothing removes the
entries of a U-proc that terminates: a program launched with the same ASID must not
find any that is valid (`run_coherent`), and otherwise it accesses a frame that is not
its own (`stale_entry`). -/
namespace MultiPandOS
open Paging Runs

/-! ### Entries -/

theorem tlbMatch_iff {hi hi' : Word} : tlbMatch hi hi' = true ↔ hi &&& 0xFFFFFFC0 = hi' &&& 0xFFFFFFC0 := beq_iff_eq

/-- Entries that match have one ASID. -/
theorem tlbMatch_asid {hi hi' : Word} (h : tlbMatch hi hi' = true) : pteAsid hi = pteAsid hi' := by
  have hmask : ∀ w : Word, pteAsid w = (w &&& 0xFFFFFFC0) >>> ASIDSHIFT &&& 0x3F := by
    intro w
    unfold pteAsid
    rw [BitVec.ushiftRight_and_distrib, BitVec.ushiftRight_and_distrib, BitVec.and_assoc]
    rfl
  rw [hmask, hmask, tlbMatch_iff.mp h]

theorem TLBP_some {hi : Word} {vm : Vm} {i : Fin TLBSIZE} (h : TLBP hi vm = some i) :
    tlbMatch hi (vm.tlb i).entryHi = true :=
  @List.find?_some _ (fun i => tlbMatch hi (vm.tlb i).entryHi) i _ h

theorem TLBP_none {hi : Word} {vm : Vm} (h : TLBP hi vm = none) (i : Fin TLBSIZE) :
    tlbMatch hi (vm.tlb i).entryHi = false :=
  Bool.eq_false_iff.mpr (List.find?_eq_none.mp h i (List.mem_finRange i))

/-- The TLB agrees with the page tables of the U-procs in `live`. -/
structure TlbOk (live : Set SupPtr) (vm : Vm) : Prop where
  unique : ∀ a p i j, isAsid a → tlbMatch (pageHi a p) (vm.tlb i).entryHi = true →
    tlbMatch (pageHi a p) (vm.tlb j).entryHi = true → i = j
  entry : ∀ k : PtePtr, k.1 ∈ live → ∀ i, tlbMatch (pageHi (vm.asid k.1) k.2) (vm.tlb i).entryHi = true →
    (vm.tlb i).valid → (vm.tlb i).entryLo = (vm.pte k).entryLo

section Entries
variable {live live' : Set SupPtr} {vm vm' : Vm} {k : PtePtr} {i : Fin TLBSIZE}

/-- Fewer U-procs, with the same tables. -/
theorem TlbOk.mono (h : TlbOk live vm) (hsub : live' ⊆ live) (hs : SameTables live' vm vm') (htlb : vm'.tlb = vm.tlb) :
    TlbOk live' vm' := by
  refine ⟨fun a p i j ha => ?_, fun k hk i hm hv => ?_⟩
  · rw [htlb]
    exact h.unique a p i j ha
  · rw [htlb] at hm hv ⊢
    rw [hs.asid k.1 hk] at hm
    rw [hs.pte k hk]
    exact h.entry k (hsub hk) i hm hv

/-- The entry of `k` is changed in its page table and, with `i`, in the TLB. -/
theorem TlbOk.write (h : TlbOk live vm) (hu : Uprocs live vm) (hk : k.1 ∈ live)
    (hasid : ∀ u, vm'.asid u = vm.asid u) (hpte : ∀ k', k' ≠ k → vm'.pte k' = vm.pte k')
    (hhi : (vm'.pte k).entryHi = pageHi (vm.asid k.1) k.2)
    (htlb : vm'.tlb = Function.update vm.tlb i (vm'.pte k))
    (hi : ∀ j, tlbMatch (pageHi (vm.asid k.1) k.2) (vm.tlb j).entryHi = true → j = i) : TlbOk live vm' := by
  have hka := hu.asid k.1 hk
  have hself : (vm'.tlb i) = vm'.pte k := by rw [htlb, Function.update_self]
  have hother : ∀ j, j ≠ i → vm'.tlb j = vm.tlb j := fun j hj => by rw [htlb, Function.update_of_ne hj]
  refine ⟨fun a p j j' ha hj hj' => ?_, fun k' hk' j hm hv => ?_⟩
  · -- the page that `i` is for is at `i`, every other one where it was
    by_cases hap : vm.asid k.1 = a ∧ k.2 = p
    · obtain ⟨rfl, rfl⟩ := hap
      have honly : ∀ j, tlbMatch (pageHi (vm.asid k.1) k.2) (vm'.tlb j).entryHi = true → j = i := by
        intro j hj
        by_contra hne
        rw [hother j hne] at hj
        exact hne (hi j hj)
      exact (honly j hj).trans (honly j' hj').symm
    · have hne : ∀ j, tlbMatch (pageHi a p) (vm'.tlb j).entryHi = true → j ≠ i := by
        intro j hj he
        rw [he, hself, hhi, tlbMatch_pageHi ha hka] at hj
        exact hap ⟨hj.1.symm, hj.2.symm⟩
      have hji := hne j hj
      have hji' := hne j' hj'
      rw [hother j hji] at hj
      rw [hother j' hji'] at hj'
      exact h.unique a p j j' ha hj hj'
  · rw [hasid] at hm
    by_cases hj : j = i
    · rw [hj, hself, hhi, tlbMatch_pageHi (hu.asid k'.1 hk') hka] at hm
      have hkk : k' = k := Prod.ext (hu.distinct k'.1 hk' k.1 hk hm.1) hm.2
      rw [hj, hself, hkk]
    · rw [hother j hj] at hm hv ⊢
      have hkk : k' ≠ k := by
        rintro rfl
        exact hj (hi j hm)
      rw [hpte k' hkk]
      exact h.entry k' hk' j hm hv

/-- A page that is not in the TLB changes its entry. -/
theorem TlbOk.absent (h : TlbOk live vm) (hasid : ∀ u, vm'.asid u = vm.asid u)
    (hpte : ∀ k', k' ≠ k → vm'.pte k' = vm.pte k') (htlb : vm'.tlb = vm.tlb)
    (hnone : ∀ j, tlbMatch (pageHi (vm.asid k.1) k.2) (vm.tlb j).entryHi = false) : TlbOk live vm' := by
  refine ⟨fun a p i j ha => ?_, fun k' hk' j hm hv => ?_⟩
  · rw [htlb]
    exact h.unique a p i j ha
  · rw [htlb] at hm hv ⊢
    rw [hasid] at hm
    have hkk : k' ≠ k := by
      rintro rfl
      rw [hnone] at hm
      cases hm
    rw [hpte k' hkk]
    exact h.entry k' hk' j hm hv

/-- What TLBP finds for `k` is the only entry for it, and if it finds none there is none. -/
theorem TlbOk.only (h : TlbOk live vm) (ha : isAsid (vm.asid k.1)) (hi : TLBP (pageHi (vm.asid k.1) k.2) vm = some i)
    (j : Fin TLBSIZE) (hj : tlbMatch (pageHi (vm.asid k.1) k.2) (vm.tlb j).entryHi = true) : j = i :=
  h.unique _ _ j i ha hj (TLBP_some hi)

theorem TlbOk.invalidate (h : TlbOk live vm) (hu : Uprocs live vm) (hk : k.1 ∈ live) : TlbOk live (invalidate k vm) := by
  have hasid := asid_invalidate k vm
  have hpte : ∀ k', k' ≠ k → (MultiPandOS.invalidate k vm).pte k' = vm.pte k' := fun k' hkk => pte_invalidate_of_ne hkk vm
  let ptu : PteEntry := {vm.pte k with entryLo := (vm.pte k).entryLo &&& VALIDOFF}
  have hhi : ptu.entryHi = pageHi (vm.asid k.1) k.2 := hu.entries k hk
  cases hfound : TLBP ptu.entryHi vm with
  | none =>
    have heq : MultiPandOS.invalidate k vm = vm.setPte k ptu := by
      have : TLBP ptu.entryHi (vm.setPte k ptu) = none := hfound
      simp only [MultiPandOS.invalidate, ptu, this]
    rw [hhi] at hfound
    exact h.absent hasid hpte (by rw [heq]; rfl) (TLBP_none hfound)
  | some i =>
    have heq : MultiPandOS.invalidate k vm = (vm.setPte k ptu).setTlb i ptu := by
      have : TLBP ptu.entryHi (vm.setPte k ptu) = some i := hfound
      simp only [MultiPandOS.invalidate, ptu, this]
    have hself : (MultiPandOS.invalidate k vm).pte k = ptu := by
      rw [heq]
      exact Vm.pte_setPte_self k ptu vm
    rw [hhi] at hfound
    refine h.write hu hk hasid hpte (by rw [hself, hhi]) ?_ (h.only (hu.asid k.1 hk) hfound)
    rw [hself, heq]
    rfl

theorem TlbOk.publish {L : PoolLayout} {u : SupPtr} {p : PageNo} {f : Frame} {slot : Fin TLBSIZE} (h : TlbOk live vm)
    (hu : Uprocs live vm) (hk : u ∈ live) : TlbOk live (publish L u p f slot vm) := by
  have hasid := @asid_publish L vm u p f slot
  have hpte : ∀ k', k' ≠ (u, p) → (MultiPandOS.publish L u p f slot vm).pte k' = vm.pte k' :=
    fun k' hkk => pte_publish_of_ne u p f slot hkk
  have hself := @pte_publish_self L vm u p f slot
  let page : PteEntry := {vm.pte (u, p) with entryLo := publishedLo L f (vm.pte (u, p)).entryLo}
  let vm₁ := (vm.setSwap f (vm.record (u, p))).setPte (u, p) page
  have hhi : page.entryHi = pageHi (vm.asid u) p := hu.entries (u, p) hk
  cases hfound : TLBP page.entryHi vm with
  | none =>
    have heq : MultiPandOS.publish L u p f slot vm = vm₁.setTlb slot page := by
      simp only [MultiPandOS.publish]
      split
      · rename_i j hj
        cases hj.symm.trans hfound
      · rfl
    rw [hhi] at hfound
    refine h.write hu hk hasid hpte (by rw [hself]; exact hhi) (by rw [hself, heq]; rfl) fun j hj => ?_
    rw [TLBP_none hfound j] at hj
    cases hj
  | some i =>
    have heq : MultiPandOS.publish L u p f slot vm = vm₁.setTlb i page := by
      simp only [MultiPandOS.publish]
      split
      · rename_i j hj
        obtain rfl : j = i := Option.some.inj (hj.symm.trans hfound)
        rfl
      · rename_i hj
        cases hj.symm.trans hfound
    rw [hhi] at hfound
    have honly : ∀ j, tlbMatch (pageHi (vm.asid u) p) (vm.tlb j).entryHi = true → j = i :=
      fun j hj => h.unique _ _ j i (hu.asid u hk) hj (TLBP_some hfound)
    exact h.write hu hk hasid hpte (by rw [hself]; exact hhi) (by rw [hself, heq]; rfl) honly

end Entries

/-! ### The rule -/

/-- A transfer of a flash device ends. -/
def Place.transfers : Place → Bool
  | .pager (.evicted _ _ _) _ => true
  | .pager (.reading _ _) _ => true
  | _ => false

namespace Sys

/-- The answer of a flash device in a step. -/
def transfer (s : Sys) : SysEvent → Option Answer
  | .go q inp => if (s.proc q).place.transfers then some inp.toAnswer else none
  | _ => none

/-- The ASID of the program that a step launches. -/
def launched (s : Sys) : SysEvent → Option Word
  | .go q inp =>
    match (s.proc q).place with
    | .executing asid =>
      let newAsid := (s.state q).regA1
      if badExecute asid newAsid ∨ s.supportFree = [] ∨ inp.status = -1 then none else some newAsid
    | _ => none
  | _ => none

/-- The entries that an access to `va` by `q` refills the TLB with. -/
def refills (s : Sys) (q : Nat) (va : Addr) : Option Word :=
  let hi := accessHi (s.proc q).asid va
  if TLBP hi s.vm = none then
    (arrayIndex USERPGTBLSIZE (findPageIndex hi)).map fun p => (s.vm.pte ((s.proc q).sup, p)).entryHi
  else none

end Sys

/-- The flash devices succeed, no refill doubles an entry of the TLB, and a program is
launched with an ASID of which no valid entry is left. -/
structure Careful (s : Sys) (e : SysEvent) : Prop where
  ready : ∀ a ∈ s.transfer e, a.ready
  single : ∀ w ∈ s.touched e, ∀ hi ∈ s.refills w.1 w.2, TLBP hi s.vm = none
  fresh : ∀ a ∈ s.launched e, ∀ i, (s.vm.tlb i).valid → pteAsid (s.vm.tlb i).entryHi ≠ a

instance decidableCareful (s : Sys) (e : SysEvent) : Decidable (Careful s e) :=
  -- words are finite, so the instance must be chosen
  have : Decidable (∀ a ∈ s.transfer e, a.ready) := Option.decidableForallMem _
  have : Decidable (∀ w ∈ s.touched e, ∀ hi ∈ s.refills w.1 w.2, TLBP hi s.vm = none) :=
    @Option.decidableForallMem _ _ (fun _ => Option.decidableForallMem _) _
  have : Decidable (∀ a ∈ s.launched e, ∀ i, (s.vm.tlb i).valid → pteAsid (s.vm.tlb i).entryHi ≠ a) :=
    Option.decidableForallMem _
  decidable_of_iff ((∀ a ∈ s.transfer e, a.ready) ∧ (∀ w ∈ s.touched e, ∀ hi ∈ s.refills w.1 w.2, TLBP hi s.vm = none) ∧
      ∀ a ∈ s.launched e, ∀ i, (s.vm.tlb i).valid → pteAsid (s.vm.tlb i).entryHi ≠ a)
    ⟨fun h => ⟨h.1, h.2.1, h.2.2⟩, fun h => ⟨h.ready, h.single, h.fresh⟩⟩

/-! ### The effects -/

section Effects
variable {L : PoolLayout} {h : Handlers} {s s' : Sys} {e : SysEvent}

/-- When all transfers succeed, no write back fails. -/
theorem Careful.ownWrites (hc : Careful s e) : OwnWrites s e := by
  cases e with
  | go q inp =>
    intro hstatus asid hvictim
    have htransfers : (s.proc q).place.transfers = true := by
      unfold Place.victim at hvictim
      split at hvictim
      · rename_i hplace
        rw [hplace]
        rfl
      · cases hvictim
    have hready : inp.status &&& 0xff = 1 := hc.ready inp.toAnswer (by simp [Sys.transfer, htransfers])
    rw [hstatus] at hready
    cases hready
  | access q va value inp => trivial
  | trap q st => trivial
  | test => trivial

theorem Moved.live_subset {q : Nat} {place : Place} (hm : Moved q place s s')
    (hmapped : place.mapped = true → (s.proc q).place.mapped = true) : s'.live ⊆ s.live := by
  intro u hu
  obtain ⟨r, hr, hu⟩ := hu
  exact ⟨r, hm.attr hmapped hr, (hm.sup r).symm.trans hu⟩

/-- The TLB after a step that is about neither a page nor a new program. -/
theorem TlbOk.same (htlb : TlbOk s.live s.vm) (hsub : s'.live ⊆ s.live) (hvm : s'.vm = s.vm) : TlbOk s'.live s'.vm := by
  rw [hvm]
  exact htlb.mono hsub ⟨fun _ _ => rfl, fun _ _ => rfl⟩ rfl

theorem TlbOk.quiet {q : Nat} {place : Place} (htlb : TlbOk s.live s.vm) (hi : Inv L s) (hq : Quiet q place s s')
    (hmapped : place.mapped = true → (s.proc q).place.mapped = true) : TlbOk s'.live s'.vm := by
  have hsub := hq.toMoved.live_subset hmapped
  refine htlb.mono hsub (hq.tables.mono fun u hu => ?_) hq.tlb
  obtain ⟨r, hr, rfl⟩ := hsub hu
  exact hi.owners.taken r (Place.mapped_owns hr)

theorem TlbOk.pager {live : Set SupPtr} {u : SupPtr} {a : Answer} {place place' : PagerAt} {vm vm' : Vm}
    (htlb : TlbOk live vm) (hpaged : Paged L live none vm) (hu : u ∈ live)
    (hstep : pagerStep L u a place vm = some (place', vm')) : TlbOk live vm' := by
  have hsame : ∀ {vm' : Vm}, vm'.supportPool = vm.supportPool → vm'.tlb = vm.tlb → TlbOk live vm' := by
    intro vm' hsup hsame
    have htables : SameTables live vm vm' :=
      ⟨fun k _ => by rw [Vm.pte, hsup]; rfl, fun v _ => by rw [Vm.asid, hsup]; rfl⟩
    exact htlb.mono (fun _ hv => hv) htables hsame
  cases pagerStep_effect hstep with
  | evict occupied record =>
    have howner := hpaged.owner_record (table_owner_eq_some.mpr ⟨occupied, record⟩)
    exact htlb.invalidate hpaged.toUprocs howner.1
  | publish => exact htlb.publish hpaged.toUprocs hu
  | _ => exact hsame rfl rfl

/-- A miss brings in an entry that was not there. -/
theorem TlbOk.refill (htlb : TlbOk s.live s.vm) (hi : Inv L s) {q : Nat} {p : PageNo} {slot : Fin TLBSIZE}
    (hq : (s.proc q).place.mapped = true)
    (hsingle : TLBP (s.vm.pte ((s.proc q).sup, p)).entryHi s.vm = none) :
    TlbOk s.live (s.vm.setTlb slot (s.vm.pte ((s.proc q).sup, p))) := by
  have hk : (s.proc q).sup ∈ s.live := ⟨q, hq, rfl⟩
  have hhi := hi.memory.paged.entries ((s.proc q).sup, p) hk
  rw [hhi] at hsingle
  refine @TlbOk.write _ _ _ ((s.proc q).sup, p) slot htlb hi.memory.paged.toUprocs hk (fun _ => rfl) (fun _ _ => rfl) hhi rfl ?_
  intro j hj
  rw [TLBP_none hsingle j] at hj
  cases hj

theorem TlbOk.launch {live : Set SupPtr} {vm : Vm} {u : SupPtr} {a : Word} (htlb : TlbOk live vm)
    (ha : isAsid a) (hfresh : ∀ i, (vm.tlb i).valid → pteAsid (vm.tlb i).entryHi ≠ a) :
    TlbOk (insert u live) (vm.initSupport h u a) := by
  refine ⟨htlb.unique, fun k hk i hm hv => ?_⟩
  by_cases hku : k.1 = u
  · have hself : (vm.initSupport h u a).asid k.1 = a := by
      simp [Vm.asid, Vm.initSupport, initSupportStructure, hku]
    rw [hself] at hm
    exact absurd ((tlbMatch_asid hm).symm.trans (pageHi_fields ha k.2).2) (hfresh i hv)
  · have hlive : k.1 ∈ live := hk.resolve_left hku
    have hsup : (vm.initSupport h u a).supportPool k.1 = vm.supportPool k.1 := Function.update_of_ne hku _ _
    rw [Vm.asid, hsup] at hm
    rw [Vm.pte, hsup]
    exact htlb.entry k hlive i hm hv

theorem TlbOk.step (htlb : TlbOk s.live s.vm) (hi : Inv L s) (hc : Careful s e) (hstep : sysStep L h e s = some s') :
    TlbOk s'.live s'.vm := by
  cases sysStep_effect hstep with
  | calm old new inherits quiet => exact htlb.quiet hi quiet fun _ => Place.calm_mapped old
  | @refill e q k va p slot code touched miss index =>
    have hrefills : s.refills q va = some (s.vm.pte ((s.proc q).sup, p)).entryHi := by
      simp only [Sys.refills, miss, index, if_pos, Option.map_some]
    exact htlb.refill hi (by rw [code]; rfl) (hc.single (q, va) touched _ hrefills)
  | lock old pass locks mapped attached inherits =>
    obtain ⟨-, rfl⟩ := passeren_eq_some pass
    have hm := Place.calm_mapped old
    exact htlb.same (Moved.live_subset ⟨rfl, rfl, rfl⟩ fun _ => hm) rfl
  | unlock old locks pending mapped inherits =>
    exact htlb.same (Moved.live_subset ⟨rfl, rfl, rfl⟩ fun hp => mapped ▸ hp) rfl
  | @pager q k inp place r old step =>
    have hmapped : (s.proc q).place.mapped = true := by
      rw [old]
      rfl
    have hlive : ((s.setVm r.2).goto q (.pager r.1 k)).live = s.live := Moved.live ⟨rfl, rfl, rfl⟩ hmapped.symm
    rw [hlive]
    exact htlb.pager hi.memory.paged ⟨q, hmapped, rfl⟩ step
  | @free q inp asid old =>
    have hsub : ((s.setVm (freeSwapFrames asid s.vm)).goto q (.terminate .unlock asid)).live ⊆ s.live :=
      Moved.live_subset ⟨rfl, rfl, rfl⟩ (by simp [Place.mapped])
    exact htlb.mono hsub ⟨fun _ _ => rfl, fun _ _ => rfl⟩ rfl
  | @dealloc q inp asid old =>
    have hsub : ({s.setVm (s.vm.setAsid (s.proc q).sup 0) with
        supportFree := deallocateSupport (s.proc q).sup s.supportFree}.goto q (.terminate .signal asid)).live ⊆ s.live :=
      Moved.live_subset ⟨rfl, rfl, rfl⟩ (by simp [Place.mapped])
    have hnot : (s.proc q).sup ∉ s.live := by
      intro hu
      obtain ⟨r, hr, hu⟩ := hu
      have hrq := hi.owners.inj r q (Place.mapped_owns hr) (by rw [old]; rfl) hu
      rw [hrq, old] at hr
      cases hr
    exact htlb.mono hsub ((sameTables_setAsid hnot 0 s.vm).mono hsub) rfl
  | signal old => exact htlb.same (Moved.live_subset ⟨rfl, rfl, rfl⟩ (by simp [Place.mapped])) rfl
  | @die q inp asid old =>
    by_cases hq : q = shellNo
    · subst hq
      exact htlb.same (fun u ⟨r, hr, _⟩ => by cases hr) rfl
    · exact htlb.same (Moved.live_subset (termprocess_moved hq) (by simp [Place.mapped])) (by simp)
  | @create q inp asid newAsid u supportFree old arg accepted popped created =>
    have hcons := allocateSupport_eq_some popped
    have habsent := hi.owners.fresh s.next (Nat.le_refl _)
    have hlaunched : s.launched (.go q inp) = some newAsid := by
      have hnil : s.supportFree ≠ [] := by simp [hcons]
      simp only [Sys.launched, old, ← arg]
      exact if_neg fun hbad => hbad.elim accepted fun hbad => hbad.elim hnil created
    have hc' := hi.owners.created old (s.vm.initSupport h u newAsid) u supportFree newAsid
    rw [hc'.live habsent (by rw [old]; rfl)]
    exact htlb.launch (accepted_asid accepted).2.1 (hc.fresh newAsid hlaunched)
  | @wake q inp s₁ old pass =>
    have hm := passeren_ldst pass q
    have hquiet := (Quiet.refl q s₁).ldst
    obtain ⟨-, rfl⟩ := passeren_eq_some pass
    have hsub := hm.live_subset fun _ => by rw [old]; rfl
    refine htlb.mono hsub (hquiet.tables.mono fun u hu => ?_) hquiet.tlb
    obtain ⟨r, hr, rfl⟩ := hsub hu
    exact hi.owners.taken r (Place.mapped_owns hr)
  | await old pass =>
    obtain ⟨-, rfl⟩ := passeren_eq_some pass
    exact htlb.same (fun _ hu => hu) rfl
  | kill old => exact htlb.same (fun u ⟨r, hr, _⟩ => by cases hr) rfl

end Effects

/-! ### Runs -/

/-- A valid entry that an access of a U-proc to one of its pages hits names a frame
that is recorded for the page. -/
def Coherent (L : PoolLayout) (s : Sys) : Prop :=
  ∀ q va p lo, (s.proc q).place.mapped = true → accessHi (s.proc q).asid va = pageHi (s.proc q).asid p →
    lookup (accessHi (s.proc q).asid va) s.vm = .hit lo →
    ∃ f, frameAt L lo = some f ∧ (s.vm.swapPool f).swAsid = (s.proc q).asid ∧
      (s.vm.swapPool f).swPageNo = BitVec.ofNat 32 p.val

section Runs
variable {L : PoolLayout} {h : Handlers} {vm : Vm} {s₀ s : Sys} {es : List SysEvent}

theorem lookup_eq_hit {hi lo : Word} {vm : Vm} (hl : lookup hi vm = .hit lo) :
    ∃ i, tlbMatch hi (vm.tlb i).entryHi = true ∧ (vm.tlb i).valid ∧ (vm.tlb i).entryLo = lo := by
  unfold lookup at hl
  split at hl
  · cases hl
  · rename_i i hi
    split at hl
    · rename_i hv
      exact ⟨i, TLBP_some hi, hv, Lookup.hit.inj hl⟩
    · cases hl

theorem TlbOk.coherent (htlb : TlbOk s.live s.vm) (hi : Inv L s) : Coherent L s := by
  intro q va p lo hq hpage hl
  obtain ⟨i, hm, hv, hlo⟩ := lookup_eq_hit hl
  have hk : (s.proc q).sup ∈ s.live := ⟨q, hq, rfl⟩
  have hasid := hi.memory.held q (Place.mapped_owns hq)
  rw [hpage, ← hasid] at hm
  have hpte := htlb.entry ((s.proc q).sup, p) hk i hm hv
  have hvalid : (s.vm.pte ((s.proc q).sup, p)).valid := by
    show (s.vm.pte ((s.proc q).sup, p)).entryLo &&& VALIDON ≠ 0
    rw [← hpte]
    exact hv
  obtain ⟨f, hf⟩ := hi.memory.paged.framed ((s.proc q).sup, p) hk hvalid
  obtain ⟨howner, -⟩ := hi.memory.paged.owned _ f (table_map_eq_some.mpr ⟨hk, hvalid, hf⟩)
  obtain ⟨-, hrec⟩ := hi.memory.paged.owner_record howner
  refine ⟨f, ?_, ?_, ?_⟩
  · rw [← hlo, hpte, hf]
  · rw [hrec, ← hasid]
    rfl
  · rw [hrec]
    rfl

/-- **The TLB is coherent** in every run of careful steps. -/
theorem run_coherent {L : PoolLayout} {h : Handlers} {vm : Vm} {s₀ s : Sys} {es : List SysEvent}
    (hstart : Sys.start h vm = some s₀) (hrun : Run (sysStep L h) Careful s₀ es s) : Coherent L s := by
  obtain ⟨u, hu⟩ := start_started hstart
  have hempty : TlbOk s₀.live s₀.vm := by
    have hinvalid : ∀ i, ¬ (s₀.vm.tlb i).valid := by
      intro i
      rw [hu.vm]
      show ¬ (0 : Word) &&& VALIDON ≠ 0
      decide
    refine ⟨fun a p i j ha hm => ?_, fun k _ i _ hv => absurd hv (hinvalid i)⟩
    rw [hu.vm] at hm
    have hzero : pteAsid (pageHi a p) = pteAsid 0 := tlbMatch_asid hm
    rw [(pageHi_fields ha p).2] at hzero
    rw [hzero] at ha
    exact absurd ha (by decide)
  have hboth : Inv L s ∧ TlbOk s.live s.vm :=
    hrun.invariant (fun s => Inv L s ∧ TlbOk s.live s.vm) ⟨hu.inv, hempty⟩ fun _ _ _ hi hc hstep =>
      ⟨hi.1.step hc.ownWrites hstep, hi.2.step hi.1 hc hstep⟩
  exact hboth.2.coherent hboth.1

end Runs

namespace SysSample

/-- After the program with ASID 2 has come and gone, the shell launches one with ASID
`asid`. -/
def relaunch (asid : Word) : List SysEvent := program ++ call 0 6 asid ++ goes 0 1 0

/-- The program with ASID 3 pages its first page in. -/
def other : List SysEvent := relaunch 3 ++ pageIn 2 0

/-- The frame that an access of ASID `asid` to the first page hits. -/
def hitFrame (asid : Word) (s : Sys) : Option Frame :=
  match lookup (accessHi asid KUSEG) s.vm with
  | .hit lo => frameAt layout lo
  | _ => none

theorem hitFrame_eq_some {asid : Word} {s : Sys} {f : Frame} (h : hitFrame asid s = some f) :
    ∃ lo, lookup (accessHi asid KUSEG) s.vm = .hit lo ∧ frameAt layout lo = some f := by
  unfold hitFrame at h
  split at h
  · rename_i lo hlo
    exact ⟨lo, hlo, h⟩
  · cases h

def firstFrame : Frame := Fin.mk 0 (Nat.zero_lt_succ 15)

def firstPage : PageNo := Fin.mk 0 (Nat.zero_lt_succ 31)

end SysSample

open SysSample in
theorem run_coherent_sample :
    ∃ s, exec (sysStep layout handlers) other start = some s ∧ hitFrame 3 s = some firstFrame ∧ Coherent layout s := by
  have hfollows : Follows (sysStep layout handlers) Careful other start := by
    decide +kernel
  obtain ⟨s, hexec, hrun⟩ := hfollows.run
  have hhit : (exec (sysStep layout handlers) other start).all (fun s => hitFrame 3 s = some firstFrame) = true := by
    decide +kernel
  rw [hexec] at hhit
  exact ⟨s, hexec, of_decide_eq_true hhit, run_coherent start_eq hrun⟩

open SysSample in
/-- The same program is launched twice. The second one hits the entry that the first one
has left behind, and the frame is nobody's. -/
theorem stale_entry :
    Sys.start handlers vm = some start ∧
      ∃ s, Run (sysStep layout handlers) (fun s e => ∀ a ∈ s.transfer e, a.ready) start (relaunch 2) s ∧
        (s.proc 2).place = .code .user ∧ (s.proc 2).asid = 2 ∧
        (∃ lo f, lookup (accessHi 2 KUSEG) s.vm = .hit lo ∧ frameAt layout lo = some f ∧ s.vm.swapPool f = Swap.free) ∧
        ¬ Coherent layout s := by
  have hfollows : Follows (sysStep layout handlers) (fun s e => ∀ a ∈ s.transfer e, a.ready) (relaunch 2) start := by
    decide +kernel
  obtain ⟨s, hexec, hrun⟩ := hfollows.run
  have hstale : (exec (sysStep layout handlers) (relaunch 2) start).all (fun s =>
      (s.proc 2).place = .code .user ∧ (s.proc 2).asid = 2 ∧ hitFrame 2 s = some firstFrame ∧
      s.vm.swapPool firstFrame = Swap.free) = true := by
    decide +kernel
  rw [hexec] at hstale
  obtain ⟨hplace, hasid, hhit, hfree⟩ := of_decide_eq_true hstale
  obtain ⟨lo, hlo, hf⟩ := hitFrame_eq_some hhit
  refine ⟨start_eq, s, hrun, hplace, hasid, ⟨lo, firstFrame, hlo, hf, hfree⟩, fun hcoherent => ?_⟩
  have hpage : accessHi (s.proc 2).asid KUSEG = pageHi (s.proc 2).asid firstPage := by
    rw [hasid]
    decide
  obtain ⟨f, hf', hrec, -⟩ := hcoherent 2 KUSEG firstPage lo (by rw [hplace]; rfl) hpage (by rw [hasid]; exact hlo)
  obtain rfl : firstFrame = f := Option.some.inj (hf.symm.trans hf')
  rw [hfree, hasid] at hrec
  cases hrec

end MultiPandOS
