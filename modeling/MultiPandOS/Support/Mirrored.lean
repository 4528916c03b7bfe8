import MultiPandOS.Support.Tlb

/-! What a lookup says about the page tables.

In a run of careful steps the TLB mirrors the page tables (`Mirrored`): besides agreeing
with them (`TlbOk`), every entry is one of a page, the blank ones of the start apart, and
an entry for a valid page is valid. So an access that hits goes to the frame of a page of
the U-proc (`Mirrored.hit`), and one that is passed up to the pager is to a page that is not
in memory (`Mirrored.fault`). -/
namespace MultiPandOS
open Paging Runs

/-! ### Addresses -/

/-- The page of a U-proc that an address is in, the same for every ASID. -/
def pageOf (va : Addr) : Option PageNo :=
  (List.finRange USERPGTBLSIZE).find? fun p => va &&& 0xFFFFF000 == pageHi 0 p

theorem pageOf_eq_some {va : Addr} {p : PageNo} (h : va &&& 0xFFFFF000 = pageHi 0 p) : pageOf va = some p := by
  have hinj : ∀ p q : PageNo, pageHi 0 p = pageHi 0 q → p = q := by
    decide +kernel
  have hsome : (pageOf va).isSome := by
    rw [pageOf, List.find?_isSome]
    exact ⟨p, List.mem_finRange p, beq_iff_eq.mpr h⟩
  obtain ⟨q, hq⟩ := Option.isSome_iff_exists.mp hsome
  have hfound := @List.find?_some _ (fun p => va &&& 0xFFFFF000 == pageHi 0 p) q _ hq
  rw [hq, hinj p q (h.symm.trans (eq_of_beq hfound))]

/-- An ASID takes the bits between the page number and the flags. -/
theorem isAsid.shifted {a : Word} (h : isAsid a) : (a <<< ASIDSHIFT) &&& 0xFFFFF000 = 0#32 ∧
    (a <<< ASIDSHIFT) &&& 0xFFFFFFC0 = a <<< ASIDSHIFT ∧ pteAsid (a <<< ASIDSHIFT) = a := by
  obtain ⟨i, rfl⟩ := h.cases
  revert i
  decide +kernel

section Access
variable {a : Word} {va : Addr}

theorem accessHi_masked (h : isAsid a) : accessHi a va &&& 0xFFFFFFC0 = accessHi a va := by
  unfold accessHi
  rw [BitVec.and_or_distrib_right, h.shifted.2.1, BitVec.and_assoc]
  rfl

theorem pteAsid_accessHi (h : isAsid a) : pteAsid (accessHi a va) = a := by
  have hlow : (va &&& 0xFFFFF000) &&& 0x00000fff = 0#32 := by
    rw [BitVec.and_assoc]
    exact BitVec.and_zero
  unfold pteAsid accessHi
  rw [BitVec.and_or_distrib_right, hlow, BitVec.zero_or]
  exact h.shifted.2.2

theorem pageHi_page (h : isAsid a) (p : PageNo) : pageHi a p &&& 0xFFFFF000 = pageHi 0 p := by
  obtain ⟨i, rfl⟩ := h.cases
  revert i p
  decide +kernel

/-- An access that matches the entry of a page is one to that page. -/
theorem accessHi_match {b : Word} (ha : isAsid a) (hb : isAsid b) {p : PageNo}
    (h : tlbMatch (accessHi a va) (pageHi b p) = true) : accessHi a va = pageHi a p ∧ pageOf va = some p := by
  have hab : a = b := by
    have hasid := tlbMatch_asid h
    rwa [pteAsid_accessHi ha, (pageHi_fields hb p).2] at hasid
  subst hab
  have heq : accessHi a va = pageHi a p := by
    have hmasked := tlbMatch_iff.mp h
    rwa [accessHi_masked ha, pageHi_masked ha] at hmasked
  refine ⟨heq, pageOf_eq_some ?_⟩
  rw [← pageHi_page ha p, ← heq]
  unfold accessHi
  rw [BitVec.and_or_distrib_right, ha.shifted.1, BitVec.or_zero, BitVec.and_assoc]
  rfl

theorem accessHi_not_blank (ha : isAsid a) : tlbMatch (accessHi a va) 0 = false := by
  refine Bool.eq_false_iff.mpr fun h => ?_
  have hasid : a = pteAsid 0 := (pteAsid_accessHi ha).symm.trans (tlbMatch_asid h)
  rw [hasid] at ha
  exact absurd ha (by decide)

end Access

/-! ### What a step makes of the TLB -/

/-- The entry of `k` changes in the page table, and nothing else does. -/
structure Rewrites (k : PtePtr) (vm vm' : Vm) : Prop where
  asid : ∀ u, vm'.asid u = vm.asid u
  pte : ∀ k', k' ≠ k → vm'.pte k' = vm.pte k'

theorem invalidate_tlb (k : PtePtr) (vm : Vm) : (invalidate k vm).tlb = vm.tlb ∨
    ∃ i, (invalidate k vm).tlb = Function.update vm.tlb i ((invalidate k vm).pte k) := by
  simp only [invalidate]
  split
  · rename_i i _
    refine .inr ⟨i, ?_⟩
    show Function.update vm.tlb i _ = Function.update vm.tlb i ((vm.setPte k _).pte k)
    rw [Vm.pte_setPte_self]
  · exact .inl rfl

theorem publish_tlb (L : PoolLayout) (u : SupPtr) (p : PageNo) (f : Frame) (slot : Fin TLBSIZE) (vm : Vm) :
    ∃ i, (publish L u p f slot vm).tlb = Function.update vm.tlb i ((publish L u p f slot vm).pte (u, p)) := by
  rw [pte_publish_self]
  simp only [publish]
  split
  · rename_i i _
    exact ⟨i, rfl⟩
  · exact ⟨slot, rfl⟩

/-- The TLB is left alone, or one page is written to it, or a page that it does not hold
becomes invalid, or a program starts. -/
inductive TlbEffect (h : Handlers) (s : Sys) (e : SysEvent) (s' : Sys) : Prop where
  | kept (sub : s'.live ⊆ s.live) (tables : SameTables s'.live s.vm s'.vm) (tlb : s'.vm.tlb = s.vm.tlb)
  | written {k i} (live : s'.live = s.live) (page : k.1 ∈ s.live) (rewrites : Rewrites k s.vm s'.vm)
      (tlb : s'.vm.tlb = Function.update s.vm.tlb i (s'.vm.pte k))
  | dropped {k} (live : s'.live = s.live) (rewrites : Rewrites k s.vm s'.vm) (tlb : s'.vm.tlb = s.vm.tlb)
      (invalid : ¬ (s'.vm.pte k).valid)
  | launched {u a} (live : s'.live = insert u s.live) (asid : isAsid a) (launch : s.launched e = some a)
      (vm : s'.vm = s.vm.initSupport h u a)

section Effects
variable {L : PoolLayout} {h : Handlers} {s s' : Sys} {e : SysEvent}

theorem pagerStep_tlb {live : Set SupPtr} {u : SupPtr} {a : Answer} {place place' : PagerAt} {vm vm' : Vm}
    (hpaged : Paged L live none vm) (hu : u ∈ live) (hstep : pagerStep L u a place vm = some (place', vm')) :
    (SameTables live vm vm' ∧ vm'.tlb = vm.tlb) ∨ ∃ k, k.1 ∈ live ∧ Rewrites k vm vm' ∧
      ((∃ i, vm'.tlb = Function.update vm.tlb i (vm'.pte k)) ∨ vm'.tlb = vm.tlb ∧ ¬ (vm'.pte k).valid) := by
  cases pagerStep_effect hstep with
  | @evict p f k occupied record =>
    have howner := hpaged.owner_record (table_owner_eq_some.mpr ⟨occupied, record⟩)
    refine .inr ⟨k, howner.1, ⟨asid_invalidate k vm, fun k' hk' => pte_invalidate_of_ne hk' vm⟩, ?_⟩
    obtain htlb | htlb := invalidate_tlb k vm
    · exact .inr ⟨htlb, pte_invalidate_not_valid k vm⟩
    · exact .inl htlb
  | @publish p f =>
    have hrewrites : Rewrites (u, p) vm (publish L u p f a.slot vm) :=
      ⟨asid_publish u p f a.slot, fun _ hk => pte_publish_of_ne u p f a.slot hk⟩
    exact .inr ⟨(u, p), hu, hrewrites, .inl (publish_tlb L u p f a.slot vm)⟩
  | _ => exact .inl ⟨⟨fun _ _ => rfl, fun _ _ => rfl⟩, rfl⟩

/-- The support structures in use are not free. -/
theorem Inv.live_busy (hi : Inv L s) : s.live ⊆ {u | u ∉ s.supportFree} := by
  rintro u ⟨r, hr, rfl⟩
  exact hi.owners.taken r (Place.mapped_owns hr)

theorem Quiet.tlbEffect {q : Nat} {place : Place} (hq : Quiet q place s s') (hi : Inv L s)
    (hmapped : (s.proc q).place.mapped = true) : TlbEffect h s e s' := by
  have hsub := hq.toMoved.live_subset fun _ => hmapped
  exact .kept hsub (hq.tables.mono (hsub.trans hi.live_busy)) hq.tlb

/-- Nothing happens to the memory. -/
theorem TlbEffect.same (hsub : s'.live ⊆ s.live) (hvm : s'.vm = s.vm) : TlbEffect h s e s' :=
  .kept hsub (hvm ▸ ⟨fun _ _ => rfl, fun _ _ => rfl⟩) (congrArg Vm.tlb hvm)

theorem sysStep_tlb (hi : Inv L s) (hstep : sysStep L h e s = some s') : TlbEffect h s e s' := by
  cases sysStep_effect hstep with
  | calm old new inherits quiet => exact quiet.tlbEffect hi (Place.calm_mapped old)
  | @refill e q k va p slot code touched miss index =>
    have hlive : (s.proc q).sup ∈ s.live := ⟨q, by rw [code]; rfl, rfl⟩
    exact @TlbEffect.written _ _ _ _ ((s.proc q).sup, p) slot rfl hlive ⟨fun _ => rfl, fun _ _ => rfl⟩ rfl
  | lock old pass locks mapped attached inherits =>
    obtain ⟨-, rfl⟩ := passeren_eq_some pass
    exact .same (Moved.live_subset ⟨rfl, rfl, rfl⟩ fun _ => Place.calm_mapped old) rfl
  | unlock old locks pending mapped inherits =>
    exact .same (Moved.live_subset ⟨rfl, rfl, rfl⟩ fun hp => mapped ▸ hp) rfl
  | @pager q k inp place r old step =>
    have hmapped : (s.proc q).place.mapped = true := by
      rw [old]
      rfl
    have hlive : ((s.setVm r.2).goto q (.pager r.1 k)).live = s.live := Moved.live ⟨rfl, rfl, rfl⟩ hmapped.symm
    obtain ⟨htables, htlb⟩ | ⟨k, hk, hrewrites, ⟨i, htlb⟩ | ⟨htlb, hinvalid⟩⟩ :=
      pagerStep_tlb hi.memory.paged ⟨q, hmapped, rfl⟩ step
    · exact .kept hlive.subset (hlive.symm ▸ htables) htlb
    · exact .written hlive hk hrewrites htlb
    · exact .dropped hlive hrewrites htlb hinvalid
  | free old =>
    exact .kept (Moved.live_subset ⟨rfl, rfl, rfl⟩ (by simp [Place.mapped])) ⟨fun _ _ => rfl, fun _ _ => rfl⟩ rfl
  | @dealloc q inp asid old =>
    have hsub : ({s.setVm (s.vm.setAsid (s.proc q).sup 0) with
        supportFree := deallocateSupport (s.proc q).sup s.supportFree}.goto q (.terminate .signal asid)).live ⊆ s.live :=
      Moved.live_subset ⟨rfl, rfl, rfl⟩ (by simp [Place.mapped])
    have hnot : (s.proc q).sup ∉ s.live := by
      intro hu
      obtain ⟨r, hr, hu⟩ := hu
      have hrq := hi.owners.inj r q (Place.mapped_owns hr) (by rw [old]; rfl) hu
      rw [hrq, old] at hr
      cases hr
    exact .kept hsub ((sameTables_setAsid hnot 0 s.vm).mono hsub) rfl
  | signal old => exact .same (Moved.live_subset ⟨rfl, rfl, rfl⟩ (by simp [Place.mapped])) rfl
  | @die q inp asid old =>
    refine .same (fun u hu => ?_) (by simp)
    by_cases hq : q = shellNo
    · subst hq
      obtain ⟨r, hr, -⟩ := hu
      cases hr
    · exact (termprocess_moved hq).live_subset (by simp [Place.mapped]) hu
  | @create q inp asid newAsid u supportFree old arg accepted popped created =>
    have hcons := allocateSupport_eq_some popped
    have hlaunched : s.launched (.go q inp) = some newAsid := by
      have hnil : s.supportFree ≠ [] := by simp [hcons]
      simp only [Sys.launched, old, ← arg]
      exact if_neg fun hbad => hbad.elim accepted fun hbad => hbad.elim hnil created
    have hc := hi.owners.created old (s.vm.initSupport h u newAsid) u supportFree newAsid
    exact .launched (hc.live (hi.owners.fresh s.next (Nat.le_refl _)) (by rw [old]; rfl)) (accepted_asid accepted).2.1
      hlaunched rfl
  | @wake q inp s₁ old pass =>
    have hm := passeren_ldst pass q
    have hquiet := (Quiet.refl q s₁).ldst
    obtain ⟨-, rfl⟩ := passeren_eq_some pass
    have hsub := hm.live_subset fun _ => by rw [old]; rfl
    exact .kept hsub (hquiet.tables.mono (hsub.trans hi.live_busy)) hquiet.tlb
  | await old pass =>
    obtain ⟨-, rfl⟩ := passeren_eq_some pass
    exact .same (fun _ hu => hu) rfl
  | kill old =>
    refine .same (fun u hu => ?_) rfl
    obtain ⟨r, hr, -⟩ := hu
    cases hr

end Effects

/-! ### The mirror -/

/-- The TLB agrees with the page tables of the U-procs in `live`, has no other entries than
those of pages, and none that is invalid for a valid page. -/
structure Mirrored (live : Set SupPtr) (vm : Vm) : Prop extends TlbOk live vm where
  formed : ∀ i, (vm.tlb i).entryHi = 0 ∨ ∃ a p, isAsid a ∧ (vm.tlb i).entryHi = pageHi a p
  current : ∀ k : PtePtr, k.1 ∈ live → ∀ i, tlbMatch (pageHi (vm.asid k.1) k.2) (vm.tlb i).entryHi = true →
    (vm.pte k).valid → (vm.tlb i).valid

section Mirror
variable {L : PoolLayout} {h : Handlers} {s s' : Sys} {e : SysEvent}

theorem Mirrored.step (hm : Mirrored s.live s.vm) (hi : Inv L s) (hc : Careful s e)
    (hstep : sysStep L h e s = some s') : Mirrored s'.live s'.vm := by
  have hok := hm.toTlbOk.step hi hc hstep
  have huprocs := (hi.step hc.ownWrites hstep).memory.paged.toUprocs
  cases sysStep_tlb hi hstep with
  | kept sub tables tlb =>
    refine ⟨hok, fun i => tlb ▸ hm.formed i, fun k hk i hmatch hv => ?_⟩
    rw [tlb] at hmatch ⊢
    rw [tables.asid k.1 hk] at hmatch
    rw [tables.pte k hk] at hv
    exact hm.current k (sub hk) i hmatch hv
  | @written k i live page rewrites tlb =>
    have hlive : k.1 ∈ s'.live := live.symm ▸ page
    have hself : s'.vm.tlb i = s'.vm.pte k := by rw [tlb, Function.update_self]
    have hhi := huprocs.entries k hlive
    refine ⟨hok, fun j => ?_, fun k' hk' j hmatch hv => ?_⟩
    · by_cases hj : j = i
      · rw [hj, hself, hhi]
        exact .inr ⟨_, k.2, huprocs.asid k.1 hlive, rfl⟩
      · rw [tlb, Function.update_of_ne hj]
        exact hm.formed j
    · by_cases hkk : k' = k
      · -- the entry just written is the only one for the page
        have hi' : tlbMatch (pageHi (s'.vm.asid k.1) k.2) (s'.vm.tlb i).entryHi = true := by
          rw [hself, hhi]
          exact tlbMatch_iff.mpr rfl
        subst hkk
        rw [hok.unique _ _ j i (huprocs.asid k'.1 hlive) hmatch hi', hself]
        exact hv
      · by_cases hj : j = i
        · rw [hj, hself, hhi, tlbMatch_pageHi (huprocs.asid k'.1 hk') (huprocs.asid k.1 hlive)] at hmatch
          exact absurd (Prod.ext (huprocs.distinct k'.1 hk' k.1 hlive hmatch.1) hmatch.2) hkk
        · rw [tlb, Function.update_of_ne hj] at hmatch ⊢
          rw [rewrites.asid] at hmatch
          rw [rewrites.pte k' hkk] at hv
          exact hm.current k' (live ▸ hk') j hmatch hv
  | @dropped k live rewrites tlb invalid =>
    refine ⟨hok, fun i => tlb ▸ hm.formed i, fun k' hk' i hmatch hv => ?_⟩
    have hkk : k' ≠ k := by
      rintro rfl
      exact invalid hv
    rw [tlb] at hmatch ⊢
    rw [rewrites.asid] at hmatch
    rw [rewrites.pte k' hkk] at hv
    exact hm.current k' (live ▸ hk') i hmatch hv
  | @launched u a live asid launch vm =>
    refine ⟨hok, fun i => vm ▸ hm.formed i, fun k hk i hmatch hv => ?_⟩
    rw [vm] at hmatch hv ⊢
    by_cases hku : k.1 = u
    · -- no page of the new program is valid
      have hlo : ((s.vm.initSupport h u a).pte k).entryLo = DIRTYON := by
        simp [Vm.pte, Vm.initSupport, initSupportStructure, hku]
      unfold PteEntry.valid at hv
      rw [hlo] at hv
      exact absurd (by decide) hv
    · have hsup : (s.vm.initSupport h u a).supportPool k.1 = s.vm.supportPool k.1 := Function.update_of_ne hku _ _
      rw [Vm.asid, hsup] at hmatch
      rw [Vm.pte, hsup] at hv
      rw [live] at hk
      exact hm.current k (hk.resolve_left hku) i hmatch hv

variable {q : Nat} {va : Addr}

/-- An access that hits goes to the frame of one of the pages of the U-proc. -/
theorem Mirrored.hit (hm : Mirrored s.live s.vm) (hi : Inv L s) (hq : (s.proc q).place.mapped = true) {lo : Word}
    (hl : lookup (accessHi (s.proc q).asid va) s.vm = .hit lo) :
    ∃ p f, pageOf va = some p ∧ (s.vm.pte ((s.proc q).sup, p)).valid ∧
      lo = (s.vm.pte ((s.proc q).sup, p)).entryLo ∧ frameAt L lo = some f := by
  obtain ⟨i, hmatch, hv, hlo⟩ := lookup_eq_hit hl
  have hpresent := Place.present (Place.mapped_owns hq)
  have hasid := hi.identity.asid q hpresent
  obtain hblank | ⟨a, p, ha, hhi⟩ := hm.formed i
  · rw [hblank, accessHi_not_blank hasid] at hmatch
    cases hmatch
  · rw [hhi] at hmatch
    obtain ⟨heq, hpage⟩ := accessHi_match hasid ha hmatch
    have hlive : (s.proc q).sup ∈ s.live := ⟨q, hq, rfl⟩
    have hentry := hm.entry ((s.proc q).sup, p) hlive i
    rw [hi.memory.held q (Place.mapped_owns hq), ← heq, hhi] at hentry
    have hpte := hentry hmatch hv
    have hvalid : (s.vm.pte ((s.proc q).sup, p)).valid := by
      unfold PteEntry.valid
      rw [← hpte]
      exact hv
    obtain ⟨f, hf⟩ := hi.memory.paged.framed ((s.proc q).sup, p) hlive hvalid
    rw [hpte] at hlo
    exact ⟨p, f, hpage, hvalid, hlo.symm, hlo ▸ hf⟩

theorem lookup_eq_invalid {hi : Word} {vm : Vm} (hl : lookup hi vm = .invalid) :
    ∃ i, tlbMatch hi (vm.tlb i).entryHi = true ∧ ¬ (vm.tlb i).valid := by
  unfold lookup at hl
  split at hl
  · cases hl
  · rename_i i hi
    split at hl
    · cases hl
    · rename_i hv
      exact ⟨i, TLBP_some hi, hv⟩

/-- The page of an access that is passed up to the pager is not in memory. -/
theorem Mirrored.fault (hm : Mirrored s.live s.vm) (hi : Inv L s) (hq : (s.proc q).place.mapped = true)
    (hl : lookup (accessHi (s.proc q).asid va) s.vm = .invalid) :
    ∃ p, arrayIndex USERPGTBLSIZE (findPageIndex (accessHi (s.proc q).asid va)) = some p ∧
      ¬ (s.vm.pte ((s.proc q).sup, p)).valid := by
  obtain ⟨i, hmatch, hv⟩ := lookup_eq_invalid hl
  have hasid := hi.identity.asid q (Place.present (Place.mapped_owns hq))
  obtain hblank | ⟨a, p, ha, hhi⟩ := hm.formed i
  · rw [hblank, accessHi_not_blank hasid] at hmatch
    cases hmatch
  · rw [hhi] at hmatch
    obtain ⟨heq, -⟩ := accessHi_match hasid ha hmatch
    refine ⟨p, ?_, fun hvalid => hv (hm.current ((s.proc q).sup, p) ⟨q, hq, rfl⟩ i ?_ hvalid)⟩
    · rw [heq]
      exact (pageHi_fields hasid p).1
    · rw [hi.memory.held q (Place.mapped_owns hq), hhi, ← heq]
      exact hmatch

/-- The TLB is blank at the start. -/
theorem Started.mirrored {vm : Vm} {u : SupPtr} (hs : Started h vm u s) : Mirrored s.live s.vm := by
  have hblank : ∀ i, (s.vm.tlb i).entryHi = 0 := by
    intro i
    rw [hs.vm]
    rfl
  have hnone : ∀ {a : Word} (p : PageNo) i, isAsid a → tlbMatch (pageHi a p) (s.vm.tlb i).entryHi ≠ true := by
    intro a p i ha hmatch
    rw [hblank] at hmatch
    have hasid : a = pteAsid 0 := (pageHi_fields ha p).2.symm.trans (tlbMatch_asid hmatch)
    rw [hasid] at ha
    exact absurd ha (by decide)
  have hasid : ∀ k : PtePtr, k.1 ∈ s.live → isAsid (s.vm.asid k.1) := by
    rintro k ⟨q, hq, hk⟩
    rw [hs.attr Place.mapped rfl hq, hs.shell] at hk
    have hshell : s.vm.asid k.1 = SHELL_ASID := by
      rw [← hk, hs.vm]
      simp [Vm.asid, Vm.initSupport, initSupportStructure]
    rw [hshell]
    decide
  exact ⟨⟨fun a p i j ha hmatch => absurd hmatch (hnone p i ha), fun k hk i hmatch => absurd hmatch (hnone k.2 i (hasid k hk))⟩,
    fun i => .inl (hblank i), fun k hk i hmatch => absurd hmatch (hnone k.2 i (hasid k hk))⟩

end Mirror

end MultiPandOS
