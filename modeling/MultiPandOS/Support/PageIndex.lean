import MultiPandOS.Support.Handshake

/-! The entry of a page table that a fault is served from.

`uTLB_RefillHandler` and `pager` index `sup_privatePgTbl` of the running process with
`findPageIndex` of the saved `entry_hi`, unchecked. In every run the table of a U-proc has
the layout of `initSupportStructure`, and `findPageIndex` inverts that layout; so the
entry is the one of the faulting page exactly if the process has a support structure and
the page is one of the 32. The page after the last of the text and data (0x8001F) is given
the entry of the stack, and any other is looked up outside the table. -/
namespace MultiPandOS
open Runs

/-! ### The layout -/

/-- The virtual page number of an `entry_hi`. -/
def vpn (hi : Word) : Word := hi >>> VPNSHIFT

/-- The virtual page number of page `i`. -/
def pageVpn (i : PageNo) : Word := if i.val = 31 then STACK_PAGE else 0x80000 + BitVec.ofNat 32 i.val

/-- The page of `hi` is one of those that `initSupportStructure` lays out. -/
def LaidOut (hi : Word) : Prop := ∃ i : PageNo, vpn hi = pageVpn i

instance (hi : Word) : Decidable (LaidOut hi) := inferInstanceAs (Decidable (∃ _, _))

theorem vpn_pageHi {a : Word} (h : isAsid a) (p : PageNo) : vpn (pageHi a p) = pageVpn p := by
  obtain ⟨i, rfl⟩ := h.cases
  revert i p
  decide +kernel

/-- `findPageIndex` inverts the layout. -/
theorem findPageIndex_pageVpn {hi : Word} {p : PageNo} (h : vpn hi = pageVpn p) :
    arrayIndex USERPGTBLSIZE (findPageIndex hi) = some p := by
  have hindex : findPageIndex hi = if pageVpn p = STACK_PAGE then 31 else pageVpn p - 0x80000 := by
    rw [← h]
    rfl
  rw [hindex]
  clear hindex h
  revert p
  decide +kernel

/-! ### The tables of the U-procs -/

/-- The entries of `u` are those of the pages that `initSupportStructure` lays out. -/
def Vm.Laid (vm : Vm) (u : SupPtr) : Prop := ∀ p, vpn (vm.pte (u, p)).entryHi = pageVpn p

/-- The `pte_entryHI` of all entries. -/
def Vm.his (vm : Vm) (k : PtePtr) : Word := (vm.pte k).entryHi

section Entries
variable {L : PoolLayout} {hd : Handlers} {q : Nat} {s s' : Sys} {e : SysEvent} {inp : Input}

theorem his_pagerStep {u : SupPtr} {a : Answer} {place place' : PagerAt} {vm vm' : Vm}
    (hstep : pagerStep L u a place vm = some (place', vm')) : vm'.his = vm.his := by
  funext k
  cases pagerStep_effect hstep with
  | @evict p f k' occupied record =>
    unfold Vm.his
    by_cases hk : k = k'
    · subst hk
      obtain ⟨tlb, htlb⟩ := invalidate_eq k vm
      rw [htlb]
      show ((vm.setPte k _).pte k).entryHi = _
      rw [Vm.pte_setPte_self]
    · rw [pte_invalidate_of_ne hk]
  | @publish p f =>
    unfold Vm.his
    by_cases hk : k = (u, p)
    · rw [hk, pte_publish_self]
    · rw [pte_publish_of_ne u p f a.slot hk]
  | _ => rfl

theorem his_setState (q : Nat) (i : Fin 2) (st : State) (s : Sys) : (s.setState q i st).vm.his = s.vm.his := by
  funext k
  by_cases hk : k.1 = (s.proc q).sup
  · simp [Vm.his, Vm.pte, Sys.setState, hk]
  · simp [Vm.his, Vm.pte, Sys.setState, hk]

theorem his_setAsid (u : SupPtr) (a : Word) (vm : Vm) : (vm.setAsid u a).his = vm.his := by
  funext k
  by_cases hk : k.1 = u
  · simp [Vm.his, Vm.pte, Vm.setAsid, hk]
  · simp [Vm.his, Vm.pte, Vm.setAsid, hk]

theorem his_storeWord (lo : Word) (w : Fin 1024) (v : Word) (vm : Vm) : (storeWord L lo w v vm).his = vm.his := by
  unfold storeWord
  split <;> rfl

theorem his_storeByte (lo : Word) (va : Addr) (c : Word) (vm : Vm) : (storeByte L lo va c vm).his = vm.his := by
  unfold storeByte
  split
  · exact his_storeWord _ _ _ _
  · rfl

theorem his_passeren {x : Sem} {s₁ : Sys} (h : s.passeren x = some s₁) : s₁.vm.his = s.vm.his := by
  obtain ⟨-, rfl⟩ := passeren_eq_some h
  rfl

theorem his_touch {k : Code} {va : Addr} {done : Word → Sys} (hdone : ∀ lo, (done lo).vm.his = s.vm.his)
    (hstep : touch q k va inp done s = some s') : s'.vm.his = s.vm.his := by
  obtain ⟨p, -, -, rfl⟩ | ⟨-, -, rfl⟩ | ⟨-, rfl⟩ | ⟨lo, -, rfl⟩ := touch_cases hstep
  · rfl
  · obtain ⟨-, hs⟩ | ⟨-, hs⟩ := strayRefill_cases q inp s
    · rw [hs]
      exact his_setState q GENERALEXCEPT _ s
    · rw [hs]
  · exact his_setState q PGFAULTEXCEPT _ s
  · exact hdone lo

/-- `initSupportStructure` lays out what it is given, and leaves the rest. -/
theorem laid_initSupport {a : Word} (ha : isAsid a) {u v : SupPtr} {vm : Vm} (h : v = u ∨ vm.Laid v) :
    (vm.initSupport hd u a).Laid v := by
  intro p
  by_cases hv : v = u
  · subst hv
    have hpte : (vm.initSupport hd v a).his (v, p) = pageHi a p := by
      simp [Vm.his, Vm.pte, Vm.initSupport, initSupportStructure]
    exact (congrArg vpn hpte).trans (vpn_pageHi ha p)
  · have hpte : (vm.initSupport hd u a).his (v, p) = vm.his (v, p) := by
      simp [Vm.his, Vm.pte, Vm.initSupport, hv]
    exact (congrArg vpn hpte).trans (h.resolve_left hv p)

theorem laid_of_his {vm vm' : Vm} {v : SupPtr} (h : vm.Laid v) (hhis : vm'.his = vm.his) : vm'.Laid v :=
  fun p => (congrArg vpn (congrFun hhis (v, p))).trans (h p)

theorem laid_executeSys {asid result : Word} {v : SupPtr} (h : s.vm.Laid v) :
    (executeSys hd q asid result s).vm.Laid v := by
  obtain ⟨-, hs⟩ | ⟨-, -, hs⟩ | ⟨u, supportFree, hgood, -, -, hs⟩ | ⟨u, supportFree, hgood, -, -, hs⟩ :=
    executeSys_cases hd q asid result s
  · rw [hs]
    exact h
  · rw [hs]
    exact laid_of_his h ((his_setState q GENERALEXCEPT _ _).trans (his_setState q GENERALEXCEPT _ s))
  · have hinit : (s.vm.initSupport hd u (s.state q).regA1).Laid v :=
      laid_initSupport (accepted_asid hgood).2.1 (.inr h)
    rw [hs]
    refine laid_of_his hinit ?_
    exact (his_setState q GENERALEXCEPT _ _).trans ((his_setState q GENERALEXCEPT _ _).trans (his_setAsid u 0 _))
  · rw [hs]
    exact laid_initSupport (accepted_asid hgood).2.1 (.inr h)

theorem his_terminateSys {asid : Word} {step : TermAt} (hstep : terminateSys q asid s step = some s') :
    s'.vm.his = s.vm.his := by
  cases step with
  | lock =>
    obtain ⟨s₁, hpass, rfl⟩ := Option.map_eq_some_iff.mp hstep
    have hhis := his_passeren hpass
    exact hhis
  | dealloc =>
    obtain rfl := Option.some.inj hstep
    exact his_setAsid (s.proc q).sup 0 s.vm
  | die =>
    obtain rfl := Option.some.inj hstep
    exact congrArg Vm.his (termprocess_vm ..)
  | _ =>
    obtain rfl := Option.some.inj hstep
    rfl

theorem his_runPager {place : PagerAt} {k : Code} (hstep : runPager L q k inp.toAnswer s place = some s') :
    s'.vm.his = s.vm.his := by
  cases place with
  | published =>
    obtain rfl := Option.some.inj hstep
    rfl
  | failed a =>
    obtain rfl := Option.some.inj hstep
    rfl
  | _ =>
    simp only [runPager] at hstep
    obtain ⟨⟨place', vm⟩, hr, rfl⟩ := Option.map_eq_some_iff.mp hstep
    exact his_pagerStep hr

theorem his_code {k : Code} (hplace : (s.proc q).place = .code k) (hstep : proceed L hd q inp s = some s') :
    s'.vm.his = s.vm.his := by
  cases k with
  | user => simp [proceed, hplace] at hstep
  | writing i =>
    simp only [proceed, hplace, writeChar] at hstep
    split at hstep
    · refine his_touch (fun lo => ?_) hstep
      rfl
    · obtain rfl := Option.some.inj hstep
      exact his_setState q GENERALEXCEPT _ s
  | reading asid len character =>
    simp only [proceed, hplace, readChar] at hstep
    refine his_touch (fun lo => ?_) hstep
    split
    · exact (his_setState q GENERALEXCEPT _ _).trans (his_storeByte lo _ _ _)
    · exact his_storeByte lo _ _ _

/-- EXECUTE apart, a U-proc goes on without a change to the pages of the entries. -/
theorem his_proceed (hother : ∀ asid, (s.proc q).place ≠ .executing asid) (hstep : proceed L hd q inp s = some s') :
    s'.vm.his = s.vm.his := by
  cases hplace : (s.proc q).place with
  | absent => simp [proceed, hplace] at hstep
  | code k => exact his_code hplace hstep
  | fault k =>
    simp only [proceed, hplace] at hstep
    obtain rfl | ⟨s₁, hpass, rfl⟩ := enterPager_cases hstep
    · rfl
    · have hhis := his_passeren hpass
      exact hhis
  | pager place k =>
    simp only [proceed, hplace] at hstep
    exact his_runPager hstep
  | general =>
    simp only [proceed, hplace] at hstep
    obtain rfl := Option.some.inj hstep
    obtain hs | ⟨-, -, hs⟩ | ⟨-, hs⟩ | ⟨-, hs⟩ := handleException_cases q s
    all_goals
      rw [hs]
      rfl
  | writeIo i command =>
    simp only [proceed, hplace, writeStatus] at hstep
    obtain rfl := Option.some.inj hstep
    split
    · exact his_setState q GENERALEXCEPT _ s
    · rfl
  | readLoop asid len =>
    simp only [proceed, hplace, readLoop] at hstep
    obtain rfl := Option.some.inj hstep
    split <;> rfl
  | readIo asid len =>
    simp only [proceed, hplace, readStatus] at hstep
    obtain rfl := Option.some.inj hstep
    split
    · exact his_setState q GENERALEXCEPT _ s
    · rfl
  | writeDone =>
    simp only [proceed, hplace] at hstep
    obtain rfl := Option.some.inj hstep
    exact his_setState q GENERALEXCEPT _ (s.verhogen .terminalWriteSem)
  | readDone =>
    simp only [proceed, hplace] at hstep
    obtain rfl := Option.some.inj hstep
    exact his_setState q GENERALEXCEPT _ (s.verhogen .terminalReadSem)
  | readAbort asid =>
    simp only [proceed, hplace] at hstep
    obtain rfl := Option.some.inj hstep
    rfl
  | executing asid => exact absurd hplace (hother asid)
  | waitShell =>
    simp only [proceed, hplace] at hstep
    obtain ⟨s₁, hpass, rfl⟩ := Option.map_eq_some_iff.mp hstep
    exact (his_setState q GENERALEXCEPT _ s₁).trans (his_passeren hpass)
  | terminate step asid =>
    simp only [proceed, hplace] at hstep
    exact his_terminateSys hstep
  | _ =>
    simp only [proceed, hplace] at hstep
    obtain ⟨s₁, hpass, rfl⟩ := Option.map_eq_some_iff.mp hstep
    have hhis := his_passeren hpass
    exact hhis

/-- No step moves an entry to another page. -/
theorem laid_step {v : SupPtr} (h : s.vm.Laid v) (hstep : sysStep L hd e s = some s') : s'.vm.Laid v := by
  cases e with
  | access q va value inp =>
    simp only [sysStep] at hstep
    split at hstep
    · refine laid_of_his h (his_touch (fun lo => ?_) hstep)
      cases value with
      | none => rfl
      | some w => exact his_storeWord lo _ w _
    · cases hstep
  | trap q st =>
    simp only [sysStep] at hstep
    split at hstep
    · obtain rfl := Option.some.inj hstep
      exact laid_of_his h (his_setState q GENERALEXCEPT st s)
    · cases hstep
  | go q inp =>
    by_cases hexec : ∃ asid, (s.proc q).place = .executing asid
    · obtain ⟨asid, hplace⟩ := hexec
      simp only [sysStep, proceed, hplace] at hstep
      obtain rfl := Option.some.inj hstep
      exact laid_executeSys h
    · exact laid_of_his h (his_proceed (not_exists.mp hexec) hstep)
  | test =>
    simp only [sysStep] at hstep
    split at hstep
    · obtain ⟨s₁, hpass, rfl⟩ := Option.map_eq_some_iff.mp hstep
      have hhis := his_passeren hpass
      exact laid_of_his h hhis
    · obtain rfl := Option.some.inj hstep
      exact h
    · cases hstep

/-- What the U-procs keep and a new program has, all of them have. -/
theorem Owners.everybody (ho : Owners s) (hstep : sysStep L hd e s = some s') {P R : SupPtr → Word → Prop}
    (h : ∀ q, (s.proc q).place ≠ .absent → P (s.proc q).sup (s.proc q).asid) (hkeep : ∀ u a, P u a → R u a)
    (hnew : ∀ u a, isAsid a → s'.vm = s.vm.initSupport hd u a → R u a) :
    ∀ q, (s'.proc q).place ≠ .absent → R (s'.proc q).sup (s'.proc q).asid := by
  intro q hq
  have hkept : (s.proc q).place ≠ .absent → (s'.proc q).sup = (s.proc q).sup → (s'.proc q).asid = (s.proc q).asid →
      R (s'.proc q).sup (s'.proc q).asid := by
    intro hpresent hsup hasid
    rw [hsup, hasid]
    exact hkeep _ _ (h q hpresent)
  cases sysStep_stepped hstep with
  | @flow e r d st place s' actor flow allowed goes =>
    refine hkept ?_ (goes.toMoved.sup q) (goes.toMoved.asid q)
    by_cases hqr : q = r
    · rw [hqr]
      exact Place.pending_present flow.pending
    · rwa [goes.toMoved.other hqr] at hq
  | @die r inp asid old =>
    by_cases hr : r = shellNo
    · subst hr
      exact absurd (termprocess_shell s q) hq
    · have hm := termprocess_moved (s := s) hr
      by_cases hqr : q = r
      · rw [hqr, hm.self] at hq
        exact absurd rfl hq
      · rw [hm.other hqr] at hq
        exact hkept hq (hm.sup q) (hm.asid q)
  | @create r inp asid newAsid u supportFree old arg accepted popped created =>
    have hc := ho.created old (s.vm.initSupport hd u newAsid) u supportFree newAsid
    by_cases hnext : q = s.next
    · rw [hnext, hc.program]
      exact hnew u newAsid (accepted_asid accepted).2.1 rfl
    · refine hkept ?_ (hc.sup hnext) (hc.asid hnext)
      by_cases hqr : q = r
      · rw [hqr, old]
        simp
      · rwa [hc.other q hqr hnext] at hq
  | await old pass =>
    obtain ⟨-, rfl⟩ := passeren_eq_some pass
    exact hkept hq rfl rfl
  | kill old => exact absurd rfl hq

/-- The U-procs that exist have the entries that `initSupportStructure` wrote. -/
def Tables (s : Sys) : Prop := ∀ q, (s.proc q).place ≠ .absent → s.vm.Laid (s.proc q).sup

theorem Tables.step (h : Tables s) (ho : Owners s) (hstep : sysStep L hd e s = some s') : Tables s' := by
  refine ho.everybody hstep (P := fun u _ => s.vm.Laid u) (R := fun u _ => s'.vm.Laid u) h
    (fun _ _ hu => laid_step hu hstep) fun u a ha hvm => ?_
  rw [hvm]
  exact laid_initSupport ha (.inl rfl)

theorem Started.tables {vm : Vm} {u : SupPtr} (h : Started hd vm u s) : Tables s := by
  intro q hq
  rw [h.present hq, h.shell, h.vm]
  exact laid_initSupport (by decide) (.inl rfl)

theorem run_tables {vm : Vm} {s₀ : Sys} {es : List SysEvent} (hstart : Sys.start hd vm = some s₀)
    (hrun : Run (sysStep L hd) (fun _ _ => True) s₀ es s) : Tables s := by
  obtain ⟨u, hu⟩ := start_started hstart
  have hboth : Owners s ∧ Tables s :=
    hrun.invariant (fun s => Owners s ∧ Tables s) ⟨hu.owners, hu.tables⟩
      fun _ _ _ hs _ hstep => ⟨hs.1.step hstep, hs.2.step hs.1 hstep⟩
  exact hboth.2

/-- The ASIDs of the U-procs are in range. -/
theorem run_asids {vm : Vm} {s₀ : Sys} {es : List SysEvent} (hstart : Sys.start hd vm = some s₀)
    (hrun : Run (sysStep L hd) (fun _ _ => True) s₀ es s) (q : Nat) (hq : (s.proc q).place ≠ .absent) :
    isAsid (s.proc q).asid := by
  induction hrun generalizing q with
  | nil =>
    obtain ⟨u, hu⟩ := start_started hstart
    rw [hu.present hq, hu.shell]
    exact (by decide : isAsid SHELL_ASID)
  | snoc hrun _ hstep ih =>
    exact (run_orderly hstart hrun).owners.everybody hstep (P := fun _ a => isAsid a) (R := fun _ a => isAsid a) ih
      (fun _ _ ha => ha) (fun _ _ ha _ => ha) q hq

end Entries

/-! ### Faults -/

/-- The running process: `test`, which has no support structure, or a U-proc. -/
inductive Current where
  | test
  | uproc (q : Nat)

/-- What a handler takes for the entry of the faulting page: an entry of a page table,
something else (through NULL, or outside the table), or nothing, because the process is
terminated. -/
inductive Touched where
  | entry (k : PtePtr)
  | stray
  | nothing

/-- `sup_privatePgTbl[findPageIndex(entry_hi)]` of the support structure `u`. -/
def tableEntry (u : SupPtr) (hi : Word) : Touched :=
  match arrayIndex USERPGTBLSIZE (findPageIndex hi) with
  | some p => .entry (u, p)
  | none => .stray

namespace Sys

def Exists (s : Sys) : Current → Prop
  | .test => s.test ≠ .gone
  | .uproc q => (s.proc q).place ≠ .absent

/-- `currentProcess->p_supportStruct`. -/
def supportStruct (s : Sys) : Current → Option SupPtr
  | .test => none
  | .uproc q => some (s.proc q).sup

/-- `uTLB_RefillHandler` takes the support structure for granted. -/
def refillTouches (s : Sys) (c : Current) (hi : Word) : Touched :=
  match s.supportStruct c with
  | some u => tableEntry u hi
  | none => .stray

/-- A process without a support structure does not get to the pager: the nucleus
terminates it. -/
def pagerTouches (s : Sys) (c : Current) (hi : Word) : Touched :=
  match s.supportStruct c with
  | some u => tableEntry u hi
  | none => .nothing

/-- The entry is the own one of the page; nothing is touched only for want of one. -/
inductive Proper (s : Sys) (c : Current) (hi : Word) : Touched → Prop where
  | entry {u p} (own : s.supportStruct c = some u) (page : vpn (s.vm.pte (u, p)).entryHi = vpn hi) :
      Proper s c hi (.entry (u, p))
  | nothing (absent : s.supportStruct c = none ∨ ¬ LaidOut hi) : Proper s c hi .nothing

/-- Both handlers serve a fault of `c` at `hi` properly. -/
structure Serves (s : Sys) (c : Current) (hi : Word) : Prop where
  refill : s.Proper c hi (s.refillTouches c hi)
  pager : s.Proper c hi (s.pagerTouches c hi)

end Sys

/-! What the handlers do with it. -/

theorem uTLB_RefillHandler_touches (u : SupPtr) (hi : Word) (slot : Fin TLBSIZE) (vm : Vm) :
    uTLB_RefillHandler u hi slot vm =
      match tableEntry u hi with
      | .entry k => some (vm.setTlb slot (vm.pte k))
      | _ => none := by
  unfold uTLB_RefillHandler tableEntry
  cases arrayIndex USERPGTBLSIZE (findPageIndex hi) with
  | none => rfl
  | some p => rfl

theorem pagerStep_touches (L : PoolLayout) (u : SupPtr) (a : Answer) (vm : Vm) :
    pagerStep L u a .locked vm =
      match tableEntry u ((vm.supportPool u).supExceptState PGFAULTEXCEPT).entryHi with
      | .entry k => (pageReplacement vm).map fun r => (.chosen k.2 r.1, r.2)
      | _ => none := by
  simp only [pagerStep, tableEntry]
  cases arrayIndex USERPGTBLSIZE (findPageIndex ((vm.supportPool u).supExceptState PGFAULTEXCEPT).entryHi) with
  | none => rfl
  | some p => rfl

/-- The page that the pager works for. -/
def PagerAt.page : PagerAt → Option PageNo
  | .chosen p _ => some p
  | .evicted p _ _ => some p
  | .wrote p _ _ _ => some p
  | .reading p _ => some p
  | .got p _ _ _ => some p
  | .loaded p _ => some p
  | _ => none

/-- The pager stays with the page, and changes no entry but that of the page and the one
that `sw_pte` of its frame names. -/
theorem pagerStep_page {L : PoolLayout} {u : SupPtr} {a : Answer} {place place' : PagerAt} {vm vm' : Vm} {p : PageNo}
    (hpage : place.page = some p) (hstep : pagerStep L u a place vm = some (place', vm')) :
    (∀ p', place'.page = some p' → p' = p) ∧ ∀ k, k ≠ (u, p) →
      (∀ f, place = .chosen p f → (vm.swapPool f).swPte ≠ some k) → vm'.pte k = vm.pte k := by
  cases pagerStep_effect hstep with
  | choose index victim => cases hpage
  | @evict _ f k' occupied record =>
    obtain rfl := Option.some.inj hpage
    refine ⟨fun p' hp' => (Option.some.inj hp').symm, fun k _ hevicted => pte_invalidate_of_ne (fun hk => ?_) vm⟩
    exact hevicted f rfl (hk ▸ record)
  | @publish _ f =>
    obtain rfl := Option.some.inj hpage
    exact ⟨fun p' hp' => (by cases hp'), fun k hk _ => pte_publish_of_ne u _ f a.slot hk⟩
  | writeError error => exact ⟨fun p' hp' => (by cases hp'), fun _ _ _ => rfl⟩
  | readError error => exact ⟨fun p' hp' => (by cases hp'), fun _ _ _ => rfl⟩
  | _ =>
    obtain rfl := Option.some.inj hpage
    exact ⟨fun p' hp' => (Option.some.inj hp').symm, fun _ _ _ => rfl⟩

section Faults
variable {L : PoolLayout} {hd : Handlers} {vm : Vm} {s₀ s : Sys} {es : List SysEvent} {c : Current} {hi : Word}

/-- The own entry that has the page number of the fault is that of a page laid out. -/
theorem Tables.laidOut (h : Tables s) (hc : s.Exists c) {u : SupPtr} {p : PageNo} (hown : s.supportStruct c = some u)
    (hpage : vpn (s.vm.pte (u, p)).entryHi = vpn hi) : LaidOut hi := by
  cases c with
  | test => cases hown
  | uproc q =>
    obtain rfl := Option.some.inj hown
    exact ⟨p, hpage.symm.trans (h q hc p)⟩

/-- The index leads to the entry of the page. -/
theorem Tables.proper (h : Tables s) (hc : s.Exists c) {u : SupPtr} (hown : s.supportStruct c = some u)
    (hlaid : LaidOut hi) : s.Proper c hi (tableEntry u hi) := by
  cases c with
  | test => cases hown
  | uproc q =>
    obtain ⟨p, hp⟩ := hlaid
    simp only [tableEntry, findPageIndex_pageVpn hp]
    obtain rfl := Option.some.inj hown
    exact .entry hown ((h q hc p).trans hp.symm)

/-- **The page of a fault**: in every run, both handlers serve a fault from the own entry of
its page exactly if the process has a support structure and the page is one of the 32 that
are laid out. -/
theorem serves_iff (hstart : Sys.start hd vm = some s₀) (hrun : Run (sysStep L hd) (fun _ _ => True) s₀ es s)
    (hc : s.Exists c) : s.Serves c hi ↔ (∃ u, s.supportStruct c = some u) ∧ LaidOut hi := by
  have htables := run_tables hstart hrun
  constructor
  · intro hserves
    have hrefill := hserves.refill
    unfold Sys.refillTouches at hrefill
    cases hown : s.supportStruct c with
    | none =>
      simp only [hown] at hrefill
      cases hrefill
    | some u =>
      simp only [hown] at hrefill
      refine ⟨⟨u, rfl⟩, ?_⟩
      unfold tableEntry at hrefill
      cases hp : arrayIndex USERPGTBLSIZE (findPageIndex hi) with
      | none =>
        rw [hp] at hrefill
        cases hrefill
      | some p =>
        rw [hp] at hrefill
        cases hrefill with
        | entry own page => exact htables.laidOut hc own page
  · rintro ⟨⟨u, hown⟩, hlaid⟩
    have hproper := htables.proper hc hown hlaid
    refine ⟨?_, ?_⟩
    · simpa only [Sys.refillTouches, hown] using hproper
    · simpa only [Sys.pagerTouches, hown] using hproper

end Faults

namespace SysSample

/-- The state after program 2 has been launched and has read its first page. -/
def paged : List SysEvent := call 0 6 2 ++ goes 0 1 0 ++ pageIn 1 0

end SysSample

open SysSample in
theorem serves_iff_sample : ∃ s, exec (sysStep layout handlers) paged start = some s ∧
    s.Serves (.uproc 1) (accessHi 2 0xBFFFFFF0) := by
  have hfollows : Follows (sysStep layout handlers) (fun _ _ => True) paged start := by decide +kernel
  have hexists : (exec (sysStep layout handlers) paged start).all (fun s => (s.proc 1).place ≠ .absent) = true := by
    decide +kernel
  obtain ⟨s, hexec, hrun⟩ := hfollows.run
  rw [hexec] at hexists
  have hpresent : (s.proc 1).place ≠ .absent := of_decide_eq_true hexists
  have hlaid : LaidOut (accessHi 2 0xBFFFFFF0) := by decide
  exact ⟨s, hexec, (serves_iff start_eq hrun (c := .uproc 1) hpresent).mpr ⟨⟨_, rfl⟩, hlaid⟩⟩

open SysSample in
/-- The shell reads the page behind its text and data, and is given the entry of its stack;
the page below KUSEG is looked up outside the table, and `test` has no table at all. -/
theorem page_aliased :
    (∃ s, Run (sysStep layout handlers) (fun _ _ => True) start [.access 0 0x8001F000 none (answer 1 3)] s ∧
      s.vm.tlb (answer 1 3).slot = start.vm.pte ((start.proc 0).sup, ⟨31, by decide⟩) ∧
      vpn (s.vm.tlb (answer 1 3).slot).entryHi = STACK_PAGE) ∧
    start.Exists (.uproc 0) ∧ ¬ start.Serves (.uproc 0) (accessHi 1 0x8001F000) ∧
    ¬ start.Serves (.uproc 0) (accessHi 1 0x7FFFF000) ∧
    start.Exists .test ∧ ¬ start.Serves .test (accessHi 0 KUSEG) := by
  have hshell : (start.proc 0).place ≠ .absent := by decide
  have htest : start.test ≠ .gone := by decide
  have hfollows : Follows (sysStep layout handlers) (fun _ _ => True) [.access 0 0x8001F000 none (answer 1 3)]
      start := by decide +kernel
  have hloaded : (exec (sysStep layout handlers) [.access 0 0x8001F000 none (answer 1 3)] start).all (fun s =>
      s.vm.tlb (answer 1 3).slot = start.vm.pte ((start.proc 0).sup, ⟨31, by decide⟩) ∧
        vpn (s.vm.tlb (answer 1 3).slot).entryHi = STACK_PAGE) = true := by decide +kernel
  obtain ⟨s, hexec, hrun⟩ := hfollows.run
  rw [hexec] at hloaded
  refine ⟨⟨s, hrun, of_decide_eq_true hloaded⟩, hshell, fun hs => ?_, fun hs => ?_, htest, fun hs => ?_⟩
  · have htouched : start.refillTouches (.uproc 0) (accessHi 1 0x8001F000) =
        .entry ((start.proc 0).sup, ⟨31, by decide⟩) := rfl
    have hrefill := hs.refill
    rw [htouched] at hrefill
    cases hrefill with
    | entry own page => exact absurd page (by decide)
  · have htouched : start.refillTouches (.uproc 0) (accessHi 1 0x7FFFF000) = .stray := rfl
    have hrefill := hs.refill
    rw [htouched] at hrefill
    cases hrefill
  · cases hs.refill

end MultiPandOS
