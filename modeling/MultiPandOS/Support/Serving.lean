import MultiPandOS.Support.Mirrored
import MultiPandOS.Support.Pager

/-! The pages in a run, between two faults and during one.

Nothing of the pool is on its way while no fault is served (`AtRest`), and `Phase` says how
the fault of one U-proc changes nothing. Since one U-proc at a time goes on
(`Orderly.turn`), these two cover a whole run: `Serving` says that the pages contain `c`,
whoever is on the way through the pager. -/
namespace MultiPandOS
open Paging Runs

/-! ### The pool between faults -/

/-- What the flash device of `asid` contains. -/
def flashImage (asid : Word) (vm : Vm) (p : PageNo) : Page :=
  match flashDevice asid with
  | some i => vm.flash i (BitVec.ofNat 32 p.val)
  | none => fun _ => 0

/-- No page is on its way, and the pages contain `c`. -/
structure AtRest (L : PoolLayout) (live : Set SupPtr) (c : PtePtr → Option Page) (vm : Vm) : Prop where
  kept : (vm.table L live).Kept none
  contents : ∀ k : PtePtr, k.1 ∈ live → c k = some ((vm.table L live).content k)

section AtRest
variable {L : PoolLayout} {live : Set SupPtr} {c : PtePtr → Option Page} {vm vm' : Vm}

theorem table_same (htables : SameTables live vm vm') (hpool : vm'.swapPool = vm.swapPool)
    (hframes : vm'.swapFrames = vm.swapFrames) (hflash : vm'.flash = vm.flash) :
    vm'.table L live = vm.table L live := by
  have hmap : (vm'.table L live).map = (vm.table L live).map := by
    funext k
    by_cases hk : k.1 ∈ live
    · exact table_map_congr (htables.pte k hk)
    · simp [Vm.table, hk]
  have howner : (vm'.table L live).owner = (vm.table L live).owner := by
    simp only [Vm.table, hpool]
  have hstore : (vm'.table L live).store = (vm.table L live).store := by
    funext k
    by_cases hk : k.1 ∈ live
    · simp only [Vm.table, htables.asid k.1 hk, hflash]
    · simp [Vm.table, hk]
  exact Table.ext hmap howner hframes hstore

theorem AtRest.same (h : AtRest L live c vm) (htable : vm'.table L live = vm.table L live) : AtRest L live c vm' := by
  refine ⟨?_, ?_⟩
  · rw [htable]
    exact h.kept
  · rw [htable]
    exact h.contents

theorem AtRest.store (h : AtRest L live c vm) (hpaged : Paged L live none vm) {k : PtePtr} (hk : k.1 ∈ live)
    (hv : (vm.pte k).valid) (w : Fin 1024) (v : Word) :
    AtRest L live (Access.write (.store k w v) c) (storeWord L (vm.pte k).entryLo w v vm) := by
  obtain ⟨g, d, -, hstore, hc⟩ := @Paged.store L live vm c none none k hpaged (by simp) h.contents hk hv w v
  rw [hstore]
  exact ⟨h.kept, hc⟩

/-- The frames of a U-proc that terminates are free. -/
theorem AtRest.free (h : AtRest L live c vm) (hpaged : Paged L live none vm) {u : SupPtr} (hu : u ∈ live) :
    AtRest L (live \ {u}) c (freeSwapFrames (vm.asid u) vm) := by
  have hmap : ∀ k : PtePtr, k.1 ∈ live \ {u} →
      ((freeSwapFrames (vm.asid u) vm).table L (live \ {u})).map k = (vm.table L live).map k := by
    intro k hk
    refine Option.ext fun f => ?_
    rw [table_map_eq_some, table_map_eq_some]
    exact ⟨fun hf => ⟨hf.1.1, hf.2⟩, fun hf => ⟨hk, hf.2⟩⟩
  have hpaged' := hpaged.freeSwapFrames hu
  refine ⟨fun k f hf _ => ?_, fun k hk => ?_⟩
  · obtain ⟨hk, hrec⟩ := hpaged'.owner_record hf
    have hocc : (vm.swapPool f).swAsid ≠ vm.asid u := by
      intro hasid
      have hfree : (freeSwapFrames (vm.asid u) vm).swapPool f = Swap.free := if_pos hasid
      rw [hfree] at hrec
      exact absurd (congrArg Swap.swPte hrec) (by simp [Swap.free, Vm.record])
    have hpool : (freeSwapFrames (vm.asid u) vm).swapPool f = vm.swapPool f := if_neg hocc
    rw [hmap k hk]
    refine h.kept k f ?_ (by simp)
    rw [table_owner_eq_some] at hf ⊢
    rwa [hpool] at hf
  · rw [h.contents k hk.1]
    unfold Table.content
    rw [hmap k hk]
    cases (vm.table L live).map k with
    | some f => rfl
    | none =>
      obtain ⟨i, hi⟩ := flashDevice_isAsid (hpaged.asid k.1 hk.1)
      rw [table_store hk.1 hi, @table_store L (live \ {u}) (freeSwapFrames (vm.asid u) vm) k hk i hi]
      rfl

/-- The pages of a new program are on its flash device. -/
theorem AtRest.launch (h : AtRest L live c vm) (hpaged : Paged L live none vm) {hd : Handlers} {u : SupPtr} {a : Word}
    (hu : u ∉ live) (ha : isAsid a) :
    AtRest L (insert u live) (fun k => if k.1 = u then some (flashImage a vm k.2) else c k) (vm.initSupport hd u a) := by
  have hne : ∀ k : PtePtr, k.1 ∈ live → k.1 ≠ u := by
    rintro k hk rfl
    exact hu hk
  have hsup : ∀ k : PtePtr, k.1 ∈ live → (vm.initSupport hd u a).supportPool k.1 = vm.supportPool k.1 :=
    fun k hk => Function.update_of_ne (hne k hk) _ _
  have hmap : ∀ k : PtePtr, k.1 ∈ live →
      ((vm.initSupport hd u a).table L (insert u live)).map k = (vm.table L live).map k := by
    intro k hk
    have hpte : (vm.initSupport hd u a).pte k = vm.pte k := by
      rw [Vm.pte, hsup k hk]
      rfl
    refine Option.ext fun f => ?_
    rw [table_map_eq_some, table_map_eq_some, hpte]
    exact ⟨fun hf => ⟨hk, hf.2⟩, fun hf => ⟨.inr hk, hf.2⟩⟩
  refine ⟨fun k f hf _ => ?_, fun k hk => ?_⟩
  · have hf' : (vm.table L live).owner f = some k := hf
    rw [hmap k (hpaged.owner_record hf').1]
    exact h.kept k f hf' (by simp)
  · by_cases hku : k.1 = u
    · rw [if_pos hku]
      have hself : (vm.initSupport hd u a).asid k.1 = a := by
        simp [Vm.asid, Vm.initSupport, initSupportStructure, hku]
      have hinvalid : ((vm.initSupport hd u a).table L (insert u live)).map k = none := by
        have hlo : ((vm.initSupport hd u a).pte k).entryLo = DIRTYON := by
          simp [Vm.pte, Vm.initSupport, initSupportStructure, hku]
        have hv : ¬ ((vm.initSupport hd u a).pte k).valid := by
          unfold PteEntry.valid
          rw [hlo]
          decide
        simp [Vm.table, hv]
      obtain ⟨i, hi⟩ := flashDevice_isAsid ha
      rw [Table.content_of_unmapped hinvalid, @table_store L (insert u live) (vm.initSupport hd u a) k hk i (by rw [hself, hi])]
      simp only [flashImage, hi]
      rfl
    · rw [if_neg hku]
      have hlive : k.1 ∈ live := hk.resolve_left hku
      rw [h.contents k hlive]
      unfold Table.content
      rw [hmap k hlive]
      cases (vm.table L live).map k with
      | some f => rfl
      | none =>
        obtain ⟨i, hi⟩ := flashDevice_isAsid (hpaged.asid k.1 hlive)
        have hi' : flashDevice ((vm.initSupport hd u a).asid k.1) = some i := by
          rw [Vm.asid, hsup k hlive]
          exact hi
        rw [table_store hlive hi, @table_store L (insert u live) (vm.initSupport hd u a) k hk i hi']
        rfl

end AtRest

/-! ### Whose turn it is -/

section Turn
variable {L : PoolLayout} {hd : Handlers} {q : Nat} {s s' : Sys} {e : SysEvent}

/-- While `q` has something left to do, only programs that have signalled their end take a
step besides it. -/
theorem Orderly.turn (h : Orderly s) (hq : (s.proc q).place.pending = true) (hq' : (s.proc q).place ≠ .waitShell)
    (hstep : sysStep L hd e s = some s') :
    e.actor = some q ∨ ∃ r inp asid, r ≠ q ∧ e = .go r inp ∧ (s.proc r).place = .terminate .die asid ∧
      Moved r .absent s s' ∧ s'.vm = s.vm := by
  cases sysStep_stepped hstep with
  | @flow e r d st place s' actor flow allowed goes =>
    by_cases hr : (s.proc r).place = .waitShell
    · -- the program that the shell waits for is there
      obtain rfl := h.handshake.waits r hr
      have hqs : q ≠ shellNo := by
        rintro rfl
        exact hq' hr
      have hzero := (h.handshake.waiting q hqs hq).2
      rw [hr] at flow
      cases flow
      have hpos : 0 < s.sem .shellSemaphore := allowed
      omega
    · rw [actor, h.handshake.only flow.pending hr hq hq']
      exact .inl rfl
  | @die r inp asid old =>
    have hrq : r ≠ q := by
      rintro rfl
      rw [old] at hq
      cases hq
    have hrs : r ≠ shellNo := by
      rintro rfl
      rw [h.handshake.nobody old q] at hq
      cases hq
    exact .inr ⟨r, inp, asid, hrq, rfl, old, termprocess_moved hrs, termprocess_vm r s⟩
  | @create r inp asid newAsid u supportFree old arg accepted popped created =>
    obtain rfl := h.handshake.only (by rw [old]; rfl) (by simp [old]) hq hq'
    exact .inl rfl
  | await old pass => exact absurd (.inl (passeren_eq_some pass).1) (h.handshake.running hq hq')
  | kill old => exact absurd (.inr (by simp [old])) (h.handshake.running hq hq')

end Turn

/-! ### Faults -/

/-- The U-proc is on its way through the pager. -/
def Place.faults : Place → Bool
  | .fault _ => true
  | .pager _ _ => true
  | _ => false

/-- The page of the fault that is saved for `q`, if it has one, is not in memory. -/
def Sys.Missing (s : Sys) (q : Nat) : Prop :=
  ∀ p, arrayIndex USERPGTBLSIZE
      (findPageIndex ((s.vm.supportPool (s.proc q).sup).supExceptState PGFAULTEXCEPT).entryHi) = some p →
    ¬ (s.vm.pte ((s.proc q).sup, p)).valid

/-- The pages contain `c`: nobody faults, or somebody has yet to begin with it or is
being served. -/
inductive Serving (L : PoolLayout) (c : PtePtr → Option Page) (s : Sys) : Prop where
  | idle (nobody : ∀ q, (s.proc q).place.faults = false) (atRest : AtRest L s.live c s.vm)
  | faulted {q k} (place : (s.proc q).place = .fault k ∨ (s.proc q).place = .pager .locked k) (missing : s.Missing q)
      (atRest : AtRest L s.live c s.vm)
  | busy {q at' k p f vm₀} (place : (s.proc q).place = .pager at' k)
      (phase : Phase false L s.live (s.proc q).sup p f vm₀ c at' s.vm)

section Faults
variable {L : PoolLayout} {hd : Handlers} {c : PtePtr → Option Page} {q : Nat} {s s' : Sys} {e : SysEvent}

theorem Sys.Missing.kept (h : s.Missing q) (hsup : (s'.proc q).sup = (s.proc q).sup) (hvm : s'.vm = s.vm) :
    s'.Missing q := by
  intro p hp
  rw [hsup, hvm] at hp ⊢
  exact h p hp

theorem Place.faults_pending {place : Place} (h : place.faults = true) :
    place.pending = true ∧ place ≠ .waitShell ∧ place.mapped = true := by
  cases place with
  | fault k => exact ⟨rfl, by simp, rfl⟩
  | pager at' k => exact ⟨rfl, by simp, rfl⟩
  | _ => cases h

/-- What the others do does not matter to a fault. -/
theorem Serving.other (h : Serving L c s) {r : Nat} (hr : (s.proc r).place.pending = false) (hm : Moved r .absent s s')
    (hvm : s'.vm = s.vm) : Serving L c s' := by
  have hmapped : Place.absent.mapped = (s.proc r).place.mapped := by
    refine (Bool.eq_false_iff.mpr fun hp => ?_).symm
    rw [Place.mapped_pending hp] at hr
    cases hr
  have hlive := hm.live hmapped
  have hkept : ∀ {q}, (s.proc q).place.faults = true → (s'.proc q).place = (s.proc q).place := by
    intro q hq
    refine hm.other ?_
    rintro rfl
    rw [(Place.faults_pending hq).1] at hr
    cases hr
  cases h with
  | idle nobody atRest =>
    refine .idle (fun q => ?_) (by rwa [hlive, hvm])
    by_cases hqr : q = r
    · rw [hqr, hm.self]
      rfl
    · rw [hm.other hqr]
      exact nobody q
  | @faulted q k place missing atRest =>
    have hplace := hkept (q := q) (by obtain hp | hp := place <;> rw [hp] <;> rfl)
    exact .faulted (hplace.symm ▸ place) (missing.kept (hm.sup q) hvm) (by rwa [hlive, hvm])
  | @busy q at' k p f vm₀ place phase =>
    have hplace := hkept (q := q) (by rw [place]; rfl)
    rw [← hlive, ← hm.sup q, ← hvm] at phase
    exact .busy (hplace.trans place) phase

theorem Moved.nobody {place : Place} (hm : Moved q place s s') (hnobody : ∀ q, (s.proc q).place.faults = false)
    (hplace : place.faults = false) (r : Nat) : (s'.proc r).place.faults = false := by
  by_cases hrq : r = q
  · rw [hrq, hm.self]
    exact hplace
  · rw [hm.other hrq]
    exact hnobody r

/-- Who goes on between two faults does not come upon one. -/
theorem Stepped.nobody (hnobody : ∀ q, (s.proc q).place.faults = false)
    (hcode : ∀ q k, e.actor = some q → (s.proc q).place ≠ .code k) (h : Stepped L hd s e s') (hi : Owners s) (r : Nat) :
    (s'.proc r).place.faults = false := by
  cases h with
  | @flow e q d st place s' actor flow allowed goes =>
    refine goes.toMoved.nobody hnobody ?_ r
    have hold := hnobody q
    have hnot := hcode q
    generalize (s.proc q).place = old at hold hnot flow
    cases flow with
    | stay => exact absurd rfl (hnot _ actor)
    | fault => exact absurd rfl (hnot _ actor)
    | enter => cases hold
    | work => cases hold
    | _ => rfl
  | @die q inp asid old =>
    by_cases hq : q = shellNo
    · subst hq
      rw [termprocess_shell]
      rfl
    · exact (termprocess_moved hq).nobody hnobody rfl r
  | @create q inp asid newAsid u supportFree old arg accepted popped created =>
    have hc := hi.created old (s.vm.initSupport hd u newAsid) u supportFree newAsid
    by_cases hrq : r = q
    · rw [hrq, hc.shell]
      rfl
    · by_cases hrn : r = s.next
      · rw [hrn, hc.program]
        rfl
      · rw [hc.other r hrq hrn]
        exact hnobody r
  | await old pass =>
    obtain ⟨-, rfl⟩ := passeren_eq_some pass
    exact hnobody r
  | kill old => rfl

end Faults

/-! ### Steps between faults -/

/-- The frames, what the flash devices contain, and the counter of `pageReplacement`. -/
def Vm.data (vm : Vm) : (Frame → Page) × (Fin UPROCMAX → Word → Page) × Word := (vm.swapFrames, vm.flash, vm.frameIndex)

section Between
variable {L : PoolLayout} {hd : Handlers} {c : PtePtr → Option Page} {q : Nat} {s s' : Sys} {e : SysEvent} {inp : Input}

/-- Only the code of a U-proc and the pager touch the frames. -/
theorem proceed_data (hcode : ∀ k, (s.proc q).place ≠ .code k) (hpager : ∀ at' k, (s.proc q).place ≠ .pager at' k)
    (hstep : proceed L hd q inp s = some s') : s'.vm.data = s.vm.data := by
  unfold proceed at hstep
  cases hplace : (s.proc q).place with
  | absent => simp [hplace] at hstep
  | code k => exact absurd hplace (hcode k)
  | fault k =>
    obtain rfl | ⟨s₁, hpass, rfl⟩ := enterPager_cases (by simpa only [hplace] using hstep)
    · rfl
    · obtain ⟨-, rfl⟩ := passeren_eq_some hpass
      rfl
  | pager at' k => exact absurd hplace (hpager at' k)
  | general =>
    simp only [hplace] at hstep
    obtain rfl := Option.some.inj hstep
    obtain hs | ⟨-, -, hs⟩ | ⟨-, hs⟩ | ⟨-, hs⟩ := handleException_cases q s
    all_goals
      rw [hs]
      rfl
  | writeLock =>
    simp only [hplace] at hstep
    obtain ⟨s₁, hpass, rfl⟩ := Option.map_eq_some_iff.mp hstep
    obtain ⟨-, rfl⟩ := passeren_eq_some hpass
    rfl
  | writeIo i command =>
    simp only [hplace] at hstep
    obtain rfl := Option.some.inj hstep
    unfold writeStatus
    split
    · rfl
    · rfl
  | writeDone =>
    simp only [hplace] at hstep
    obtain rfl := Option.some.inj hstep
    rfl
  | readLock asid =>
    simp only [hplace] at hstep
    obtain ⟨s₁, hpass, rfl⟩ := Option.map_eq_some_iff.mp hstep
    obtain ⟨-, rfl⟩ := passeren_eq_some hpass
    rfl
  | readLoop asid len =>
    simp only [hplace] at hstep
    obtain rfl := Option.some.inj hstep
    unfold readLoop
    split
    · rfl
    · rfl
  | readIo asid len =>
    simp only [hplace] at hstep
    obtain rfl := Option.some.inj hstep
    unfold readStatus
    split
    · rfl
    · rfl
  | readDone =>
    simp only [hplace] at hstep
    obtain rfl := Option.some.inj hstep
    rfl
  | readAbort asid =>
    simp only [hplace] at hstep
    obtain rfl := Option.some.inj hstep
    rfl
  | executing asid =>
    simp only [hplace] at hstep
    obtain rfl := Option.some.inj hstep
    obtain ⟨-, hs⟩ | ⟨-, -, hs⟩ | ⟨u, supportFree, -, -, -, hs⟩ | ⟨u, supportFree, -, -, -, hs⟩ :=
      executeSys_cases hd q asid inp.status s
    all_goals
      rw [hs]
      rfl
  | waitShell =>
    simp only [hplace] at hstep
    obtain ⟨s₁, hpass, rfl⟩ := Option.map_eq_some_iff.mp hstep
    obtain ⟨-, rfl⟩ := passeren_eq_some hpass
    rfl
  | terminate step asid =>
    simp only [hplace] at hstep
    cases step with
    | lock =>
      obtain ⟨s₁, hpass, rfl⟩ := Option.map_eq_some_iff.mp hstep
      obtain ⟨-, rfl⟩ := passeren_eq_some hpass
      rfl
    | die =>
      obtain rfl := Option.some.inj hstep
      exact congrArg Vm.data (termprocess_vm q s)
    | _ =>
      obtain rfl := Option.some.inj hstep
      rfl

theorem sysStep_data (hcode : ∀ q k, e.actor = some q → (s.proc q).place ≠ .code k)
    (hpager : ∀ q at' k, e.actor = some q → (s.proc q).place ≠ .pager at' k) (hstep : sysStep L hd e s = some s') :
    s'.vm.data = s.vm.data := by
  cases e with
  | access q va value inp =>
    simp only [sysStep] at hstep
    split at hstep
    · rename_i hk
      exact absurd hk (hcode q _ rfl)
    · cases hstep
  | trap q st =>
    simp only [sysStep] at hstep
    split at hstep
    · rename_i hk
      exact absurd hk.1 (hcode q _ rfl)
    · cases hstep
  | go q inp => exact proceed_data (fun k => hcode q k rfl) (fun at' k => hpager q at' k rfl) hstep
  | test =>
    cases sysStep_stepped hstep with
    | flow actor flow allowed goes => cases actor
    | await old pass =>
      obtain ⟨-, rfl⟩ := passeren_eq_some pass
      rfl
    | kill old => rfl

end Between

/-! ### The pager -/

section Pager
variable {L : PoolLayout} {hd : Handlers} {c : PtePtr → Option Page} {q : Nat} {k : Code} {s s' : Sys}
  {e : SysEvent} {inp : Input}

/-- Only handlers run outside the code of a U-proc. -/
theorem sysStep_go (hactor : e.actor = some q) (hcode : (s.proc q).place ≠ .code .user)
    (hstep : sysStep L hd e s = some s') : ∃ inp, e = .go q inp ∧ proceed L hd q inp s = some s' := by
  cases e with
  | access r va value inp =>
    obtain rfl := Option.some.inj hactor
    simp [sysStep, hcode] at hstep
  | trap r st =>
    obtain rfl := Option.some.inj hactor
    simp [sysStep, hcode] at hstep
  | go r inp =>
    obtain rfl := Option.some.inj hactor
    exact ⟨inp, rfl, hstep⟩
  | test => cases hactor

/-- Nobody else faults. -/
theorem Orderly.nobody (h : Orderly s) (hq : (s.proc q).place.faults = true) (r : Nat) (hr : r ≠ q) :
    (s.proc r).place.faults = false := by
  refine Bool.eq_false_iff.mpr fun hf => hr ?_
  obtain ⟨hq, hq', -⟩ := Place.faults_pending hq
  obtain ⟨hp, hp', -⟩ := Place.faults_pending hf
  exact h.handshake.only hp hp' hq hq'

theorem Moved.leaves {place : Place} (hm : Moved q place s s') (h : Orderly s) (hq : (s.proc q).place.faults = true)
    (hplace : place.faults = false) (r : Nat) : (s'.proc r).place.faults = false := by
  by_cases hrq : r = q
  · rw [hrq, hm.self]
    exact hplace
  · rw [hm.other hrq]
    exact h.nobody hq r hrq

theorem Serving.enter (hi : Inv L s) (hk : (s.proc q).place = .fault k) (missing : s.Missing q)
    (atRest : AtRest L s.live c s.vm) (hstep : enterPager q k s = some s') : Serving L c s' := by
  have hfaults : (s.proc q).place.faults = true := by
    rw [hk]
    rfl
  obtain rfl | ⟨s₁, hpass, hs'⟩ := enterPager_cases hstep
  · have hm := (Quiet.refl q s).toMoved.goto (.terminate .lock (s.vm.asid (s.proc q).sup))
    refine .idle (hm.leaves hi.orderly hfaults rfl) ?_
    rw [hm.live (by rw [hk]; rfl)]
    exact atRest
  · obtain ⟨-, rfl⟩ := passeren_eq_some hpass
    have hm : Moved q (.pager .locked k) s s' := by
      rw [hs']
      exact ⟨rfl, rfl, rfl⟩
    have hvm : s'.vm = s.vm := by
      rw [hs']
      rfl
    refine .faulted (.inr hm.self) (missing.kept (hm.sup q) hvm) ?_
    rw [hm.live (by rw [hk]; rfl), hvm]
    exact atRest

/-- The pager chooses a frame. -/
theorem Serving.choose (hi : Inv L s) (hk : (s.proc q).place = .pager .locked k) (missing : s.Missing q)
    (atRest : AtRest L s.live c s.vm) (hstep : runPager L q k inp.toAnswer s .locked = some s') : Serving L c s' := by
  obtain ⟨⟨at', vm⟩, hr, rfl⟩ := Option.map_eq_some_iff.mp hstep
  cases pagerStep_effect hr with
  | @choose p f i index victim =>
    have hm : Moved q (.pager (.chosen p f) k) s
        ((s.setVm {s.vm with frameIndex := i}).goto q (.pager (.chosen p f) k)) := ⟨rfl, rfl, rfl⟩
    have hflight : InFlight L s.live (s.proc q).sup p s.vm c none none {s.vm with frameIndex := i} :=
      ⟨hi.memory.paged.same ⟨fun _ _ => rfl, fun _ _ => rfl⟩ rfl, atRest.kept, missing p index, by simp,
        atRest.contents, rfl, fun _ => rfl⟩
    rw [← hm.live (by rw [hk]; rfl), ← hm.sup q] at hflight
    exact .busy hm.self (.chosen hflight)

theorem runPager_eq {a : Answer} {at' : PagerAt} (h : at'.rank ≠ 0) : runPager L q k a s at' =
    (pagerStep L (s.proc q).sup a at' s.vm).map fun r => (s.setVm r.2).goto q (.pager r.1 k) := by
  cases at' with
  | published => exact absurd rfl h
  | failed asid => exact absurd rfl h
  | _ => rfl

theorem transfers_ready {at' : PagerAt} {a : Answer} (h : (Place.pager at' k).transfers = true → a.ready) :
    WriteOk false at' a ∧ Reads false at' a := by
  cases at' with
  | evicted p f asid => exact ⟨h rfl, trivial⟩
  | reading p f => exact ⟨trivial, h rfl⟩
  | _ => exact ⟨trivial, trivial⟩

/-- The pager works on, or leaves with the fault served. -/
theorem Serving.work (hi : Inv L s) (hc : Careful s (.go q inp)) {at' : PagerAt} {p : PageNo} {f : Frame} {vm₀ : Vm}
    (hk : (s.proc q).place = .pager at' k) (phase : Phase false L s.live (s.proc q).sup p f vm₀ c at' s.vm)
    (hstep : runPager L q k inp.toAnswer s at' = some s') : Serving L c s' := by
  by_cases hend : at'.rank = 0
  · cases phase with
    | published _ hserved =>
      obtain rfl := Option.some.inj hstep
      have hm : Moved q (.code k) s ((s.verhogen .swapPoolSemaphore).goto q (.code k)) := ⟨rfl, rfl, rfl⟩
      refine .idle (hm.leaves hi.orderly (by rw [hk]; rfl) rfl) ?_
      rw [hm.live (by rw [hk]; rfl)]
      exact ⟨hserved.kept, hserved.contents⟩
    | failed hfails _ => cases hfails
    | _ => cases hend
  · have hready : (s.proc q).place.transfers = true → inp.toAnswer.ready :=
      fun ht => hc.ready inp.toAnswer (by simp [Sys.transfer, ht])
    rw [hk] at hready
    obtain ⟨hwrite, hread⟩ := transfers_ready hready
    obtain ⟨at'', vm, c', hr, hphase, hc'⟩ := phase.pager ⟨q, by rw [hk]; rfl, rfl⟩ hwrite hread hend
    obtain rfl := hc' rfl
    rw [runPager_eq hend, hr] at hstep
    obtain rfl := Option.some.inj hstep
    have hm : Moved q (.pager at'' k) s ((s.setVm vm).goto q (.pager at'' k)) := ⟨rfl, rfl, rfl⟩
    rw [← hm.live (by rw [hk]; rfl), ← hm.sup q] at hphase
    exact .busy hm.self hphase

/-- Where a U-proc goes from a fault. -/
theorem sysStep_faulting (hq : (s.proc q).place.faults = true) (hactor : e.actor = some q)
    (hstep : sysStep L hd e s = some s') : ∃ place, Moved q place s s' ∧ place.mapped = true := by
  cases sysStep_stepped hstep with
  | @flow e r d st place s' actor flow allowed goes =>
    obtain rfl := Option.some.inj (actor.symm.trans hactor)
    refine ⟨place, goes.toMoved, ?_⟩
    generalize (s.proc r).place = old at hq flow
    cases flow with
    | modified => rfl
    | enter => rfl
    | work => rfl
    | resume => rfl
    | fail => rfl
    | _ => cases hq
  | die old =>
    obtain rfl := Option.some.inj hactor
    rw [old] at hq
    cases hq
  | create old arg accepted popped created =>
    obtain rfl := Option.some.inj hactor
    rw [old] at hq
    cases hq
  | await old pass => cases hactor
  | kill old => cases hactor

end Pager

end MultiPandOS
