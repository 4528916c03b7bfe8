import MultiPandOS.Support.Causes
import MultiPandOS.Support.Memories
import MultiPandOS.Support.Replacement

/-! Nobody waits for ever.

A U-proc in a handler waits at a P, or where the code would do something undefined: the pager
indexes the page table or the pool outside of it, or a flash device that there is not. In a
run of steady steps neither happens (`run_unblocked`). The mutexes are free when somebody
asks for them, since one U-proc at a time has something left to do; the shell waits for the
program it has launched, `test` for the shell, and both are signalled (`Wakes`). -/
namespace MultiPandOS
open Runs

/-! ### Who is signalled -/

/-- Whoever waits for an end has it signalled. -/
structure Wakes (s : Sys) : Prop where
  value : 0 ≤ s.sem .masterSemaphore
  shell : (s.proc shellNo).place = .waitShell → (∀ q, q ≠ shellNo → (s.proc q).place.pending = false) →
    0 < s.sem .shellSemaphore
  test : s.test = .waiting → (s.proc shellNo).place.pending = false → 0 < s.sem .masterSemaphore

section Wakes
variable {L : PoolLayout} {hd : Handlers} {vm : Vm} {u : SupPtr} {s s' : Sys} {e : SysEvent}

/-- Until it signals its end a U-proc has something left to do. -/
theorem Flow.lasting {loads : Addr → Word → Prop} {asid : Word} {st st' : State} {place place' : Place} {d : Doing}
    (h : Flow loads asid st place d st' place') : place'.pending = true ∨
      ∃ a, place = .terminate .signal a ∧ place' = .terminate .die a ∧
        d = .verhogen (if a = SHELL_ASID then .masterSemaphore else .shellSemaphore) := by
  cases h with
  | @signal a => exact .inr ⟨a, rfl, rfl, rfl⟩
  | _ => exact .inl rfl

/-- A U-proc that goes on, not to its end. -/
theorem Wakes.move (h : Wakes s) {q : Nat} {place : Place} (hm : Moved q place s s')
    (hshell : s'.sem .shellSemaphore = s.sem .shellSemaphore)
    (hmaster : s'.sem .masterSemaphore = s.sem .masterSemaphore)
    (hpending : (s.proc q).place.pending = true → place.pending = true) (hnew : place ≠ .waitShell) : Wakes s' := by
  have hkept : ∀ r, (s'.proc r).place.pending = false → (s.proc r).place.pending = false := by
    intro r hr
    refine Bool.eq_false_iff.mpr fun hp => ?_
    by_cases hrq : r = q
    · subst hrq
      rw [hm.self, hpending hp] at hr
      cases hr
    · rw [hm.other hrq, hp] at hr
      cases hr
  refine ⟨by rw [hmaster]; exact h.value, fun hs hnone => ?_, fun ht hs => ?_⟩
  · have hq : shellNo ≠ q := by
      rintro rfl
      rw [hm.self] at hs
      exact hnew hs
    rw [hm.other hq] at hs
    rw [hshell]
    exact h.shell hs fun r hr => hkept r (hnone r hr)
  · rw [hm.test] at ht
    rw [hmaster]
    exact h.test ht (hkept shellNo hs)

/-- The end of the shell is signalled to `test`, that of a program to the shell. -/
theorem Wakes.signal (h : Wakes s) (hi : Inv L s) {q : Nat} {a : Word} (hold : (s.proc q).place = .terminate .signal a)
    (hm : Moved q (.terminate .die a) s s')
    (hsem : s'.sem = (Doing.verhogen (if a = SHELL_ASID then .masterSemaphore else .shellSemaphore)).apply s.sem) :
    Wakes s' := by
  have hasid : a = SHELL_ASID ↔ q = shellNo := by
    rw [hi.handed hold]
    exact hi.identity.shell q (by simp [hold])
  by_cases hq : q = shellNo
  · subst hq
    have hself := hm.self
    rw [if_pos (hasid.mpr rfl)] at hsem
    have hmaster : s'.sem .masterSemaphore = s.sem .masterSemaphore + 1 := by
      rw [hsem]
      exact Function.update_self Sem.masterSemaphore _ s.sem
    have hvalue := h.value
    refine ⟨by omega, fun hs => ?_, fun _ _ => by omega⟩
    rw [hself] at hs
    cases hs
  · obtain ⟨hwait, hzero⟩ := hi.protocol.waiting q hq (by rw [hold]; rfl)
    have hshell := hm.other (Ne.symm hq)
    rw [if_neg (mt hasid.mp hq)] at hsem
    have hmaster : s'.sem .masterSemaphore = s.sem .masterSemaphore := by
      rw [hsem]
      exact Function.update_of_ne (show Sem.masterSemaphore ≠ .shellSemaphore by simp) _ _
    have hone : s'.sem .shellSemaphore = s.sem .shellSemaphore + 1 := by
      rw [hsem]
      exact Function.update_self Sem.shellSemaphore _ s.sem
    refine ⟨by rw [hmaster]; exact h.value, fun _ _ => by omega, fun _ hs => ?_⟩
    rw [hshell, hwait] at hs
    cases hs

theorem Wakes.step (h : Wakes s) (hi : Inv L s) (hstep : Stepped L hd s e s') : Wakes s' := by
  cases hstep with
  | @flow e q d st place s' actor flow allowed goes =>
    have hawake := flow.awake
    obtain hpending | ⟨a, hold, rfl, rfl⟩ := flow.lasting
    · obtain ⟨hold, rfl⟩ | ⟨a, -, rfl, -⟩ | ⟨-, hsems⟩ := flow.signals
      · -- the shell is there again
        obtain rfl := hi.orderly.handshake.waits q hold
        have hmaster : s'.sem .masterSemaphore = s.sem .masterSemaphore := by
          rw [goes.sem]
          exact Function.update_of_ne (show Sem.masterSemaphore ≠ .shellSemaphore by simp) _ _
        refine ⟨by rw [hmaster]; exact h.value, fun hs => ?_, fun _ hs => ?_⟩
        · rw [goes.toMoved.self] at hs
          exact absurd hs hawake
        · rw [goes.toMoved.self, hpending] at hs
          cases hs
      · cases hpending
      · obtain ⟨hshell, hmaster⟩ := hsems s.sem
        rw [← goes.sem] at hshell hmaster
        exact h.move goes.toMoved hshell hmaster (fun _ => hpending) hawake
    · exact h.signal hi hold goes.toMoved goes.sem
  | @die q inp asid old =>
    by_cases hq : q = shellNo
    · subst hq
      refine ⟨by simpa using h.value, fun hs => ?_, fun ht _ => ?_⟩
      · rw [termprocess_shell] at hs
        cases hs
      · rw [termprocess_test] at ht
        simpa using h.test ht (by rw [old]; rfl)
    · refine h.move (termprocess_moved hq) (by simp) (by simp) (fun hp => ?_) (by simp)
      rw [old] at hp
      cases hp
  | @create q inp asid newAsid u supportFree old arg accepted popped created =>
    obtain ⟨rfl, -⟩ := hi.orderly.named.accepted old accepted
    have hc := hi.owners.created old (s.vm.initSupport hd u newAsid) u supportFree newAsid
    refine ⟨h.value, fun _ hnone => ?_, fun _ hs => ?_⟩
    · have hprogram := hnone s.next (Nat.ne_of_gt hi.owners.next)
      rw [hc.program] at hprogram
      cases hprogram
    · rw [hc.shell] at hs
      cases hs
  | await old pass =>
    obtain ⟨hpos, rfl⟩ := passeren_eq_some pass
    have hshell : Function.update s.sem .masterSemaphore (s.sem .masterSemaphore - 1) .shellSemaphore = s.sem .shellSemaphore :=
      Function.update_of_ne (by simp) _ _
    have hmaster : Function.update s.sem .masterSemaphore (s.sem .masterSemaphore - 1) .masterSemaphore =
        s.sem .masterSemaphore - 1 := Function.update_self ..
    refine ⟨?_, fun hs hnone => ?_, fun ht => ?_⟩
    · show 0 ≤ Function.update s.sem .masterSemaphore (s.sem .masterSemaphore - 1) .masterSemaphore
      omega
    · show 0 < Function.update s.sem .masterSemaphore (s.sem .masterSemaphore - 1) .shellSemaphore
      rw [hshell]
      exact h.shell hs hnone
    · cases ht
  | kill old =>
    refine ⟨h.value, fun hs => ?_, fun ht => ?_⟩
    · cases hs
    · cases ht

theorem Started.wakes (h : Started hd vm u s) : Wakes s := by
  refine ⟨by rw [h.signals.1], fun hs => ?_, fun _ hs => ?_⟩
  · rw [h.shell] at hs
    cases hs
  · rw [h.shell] at hs
    cases hs

end Wakes

/-! ### The counter of the replacements -/

section Counter
variable {L : PoolLayout} {hd : Handlers} {q : Nat} {vm vm' : Vm} {s₀ s s' : Sys} {e : SysEvent} {es : List SysEvent}

theorem frameIndex_pagerStep {u : SupPtr} {a : Answer} {place place' : PagerAt}
    (hstep : pagerStep L u a place vm = some (place', vm')) :
    vm'.frameIndex = vm.frameIndex ∨ vm'.frameIndex = vm.frameIndex + 1 := by
  cases pagerStep_effect hstep with
  | @choose p f i index victim =>
    by_cases hfull : Pool.full vm.swapPool
    · rw [pageReplacement_full vm hfull] at victim
      obtain ⟨g, -, hg⟩ := Option.map_eq_some_iff.mp victim
      exact .inr (congrArg Vm.frameIndex (Prod.mk.inj hg).2).symm
    · obtain ⟨g, hg, -⟩ := find_free vm hfull
      rw [hg] at victim
      exact .inl (congrArg Vm.frameIndex (Prod.mk.inj (Option.some.inj victim)).2).symm
  | @evict p f k occupied record =>
    obtain ⟨tlb, htlb⟩ := invalidate_eq k vm
    rw [htlb]
    exact .inl rfl
  | @publish p f =>
    obtain ⟨tlb, htlb⟩ := publish_eq L u p f a.slot vm
    rw [htlb]
    exact .inl rfl
  | _ => exact .inl rfl

theorem frameIndex_storeWord (lo : Word) (w : Fin 1024) (v : Word) (vm : Vm) :
    (storeWord L lo w v vm).frameIndex = vm.frameIndex := by
  unfold storeWord
  split
  · rfl
  · rfl

theorem frameIndex_storeByte (lo : Word) (va : Addr) (c : Word) (vm : Vm) :
    (storeByte L lo va c vm).frameIndex = vm.frameIndex := by
  unfold storeByte
  split
  · exact frameIndex_storeWord _ _ _ _
  · rfl

theorem frameIndex_touch {k : Code} {va : Addr} {inp : Input} {done : Word → Sys}
    (hdone : ∀ lo, (done lo).vm.frameIndex = s.vm.frameIndex) (hstep : touch q k va inp done s = some s') :
    s'.vm.frameIndex = s.vm.frameIndex := by
  obtain ⟨p, -, -, rfl⟩ | ⟨-, -, rfl⟩ | ⟨-, rfl⟩ | ⟨lo, -, rfl⟩ := touch_cases hstep
  · rfl
  · obtain ⟨-, hs⟩ | ⟨-, hs⟩ := strayRefill_cases q inp s <;> rw [hs]
    rfl
  · rfl
  · exact hdone lo

theorem frameIndex_code {k : Code} (hk : (s.proc q).place = .code k) (hactor : e.actor = some q)
    (hstep : sysStep L hd e s = some s') : s'.vm.frameIndex = s.vm.frameIndex := by
  cases e with
  | access r va value inp =>
    simp only [sysStep] at hstep
    split at hstep
    · refine frameIndex_touch (fun lo => ?_) hstep
      cases value with
      | none => rfl
      | some v => exact frameIndex_storeWord _ _ _ _
    · cases hstep
  | trap r st =>
    simp only [sysStep] at hstep
    split at hstep
    · obtain rfl := Option.some.inj hstep
      rfl
    · cases hstep
  | go r inp =>
    obtain rfl := Option.some.inj hactor
    simp only [sysStep, proceed, hk] at hstep
    cases k with
    | user => cases hstep
    | writing i =>
      simp only [writeChar] at hstep
      split at hstep
      · refine frameIndex_touch (fun lo => ?_) hstep
        rfl
      · obtain rfl := Option.some.inj hstep
        rfl
    | reading asid len character =>
      simp only [readChar] at hstep
      refine frameIndex_touch (fun lo => ?_) hstep
      split
      · exact frameIndex_storeByte _ _ _ _
      · exact frameIndex_storeByte _ _ _ _
  | test => cases hactor

/-- A step calls `pageReplacement` once at most. -/
theorem sysStep_frameIndex (hstep : sysStep L hd e s = some s') :
    s'.vm.frameIndex = s.vm.frameIndex ∨ s'.vm.frameIndex = s.vm.frameIndex + 1 := by
  by_cases hcode : ∀ q k, e.actor = some q → (s.proc q).place ≠ .code k
  · by_cases hpager : ∀ q at' k, e.actor = some q → (s.proc q).place ≠ .pager at' k
    · have hdata := sysStep_data hcode hpager hstep
      exact .inl (congrArg (fun d => d.2.2) hdata)
    · push Not at hpager
      obtain ⟨q, at', k, hactor, hk⟩ := hpager
      obtain ⟨inp, rfl, hgo⟩ := sysStep_go hactor (by simp [hk]) hstep
      simp only [proceed, hk] at hgo
      by_cases hend : at'.rank = 0
      · cases at' with
        | published =>
          obtain rfl := Option.some.inj hgo
          exact .inl rfl
        | failed asid =>
          obtain rfl := Option.some.inj hgo
          exact .inl rfl
        | _ => cases hend
      · rw [runPager_eq hend] at hgo
        obtain ⟨r, hr, rfl⟩ := Option.map_eq_some_iff.mp hgo
        exact frameIndex_pagerStep hr
  · push Not at hcode
    obtain ⟨q, k, hactor, hk⟩ := hcode
    exact .inl (frameIndex_code hk hactor hstep)

/-- It has been called at most as often as there were steps. -/
theorem run_frameIndex {ok : Sys → SysEvent → Prop} (hstart : Sys.start hd vm = some s₀)
    (hrun : Run (sysStep L hd) ok s₀ es s) : ∃ k ≤ es.length, s.vm.frameIndex = BitVec.ofNat 32 k := by
  induction hrun with
  | nil =>
    obtain ⟨u, hu⟩ := start_started hstart
    refine ⟨0, Nat.zero_le _, ?_⟩
    rw [hu.vm]
    rfl
  | snoc _ _ hstep ih =>
    obtain ⟨k, hk, hindex⟩ := ih
    rw [List.length_append, List.length_singleton]
    obtain hsame | hnext := sysStep_frameIndex hstep
    · exact ⟨k, by omega, hsame.trans hindex⟩
    · refine ⟨k + 1, by omega, ?_⟩
      rw [hnext, hindex, BitVec.ofNat_add]
      rfl

end Counter

/-! ### Pages that fault -/

/-- The `entry_hi` of the last page fault of `q`. -/
def Sys.faultHi (s : Sys) (q : Nat) : Word :=
  ((s.vm.supportPool (s.proc q).sup).supExceptState PGFAULTEXCEPT).entryHi

/-- What the pager has yet to look up is in the page table. -/
def Sys.Tabled (s : Sys) : Prop :=
  ∀ q k, (s.proc q).place = .fault k ∨ (s.proc q).place = .pager .locked k →
    ∃ p, arrayIndex USERPGTBLSIZE (findPageIndex (s.faultHi q)) = some p

section Faults
variable {L : PoolLayout} {hd : Handlers} {q : Nat} {k : Code} {vm : Vm} {s s' : Sys} {e : SysEvent}

theorem Tabled.touch (hi : Inv L s) (hm : Mirrored s.live s.vm) (hk : (s.proc q).place = .code k) {va : Addr} {inp : Input}
    {done : Word → Sys} (hdone : ∀ lo, ((done lo).proc q).place.faults = false)
    (hstep : touch q k va inp done s = some s') (hfaults : (s'.proc q).place.faults = true) :
    ∃ p, arrayIndex USERPGTBLSIZE (findPageIndex (s'.faultHi q)) = some p := by
  have hcode : (s.proc q).place.faults = false := by
    rw [hk]
    rfl
  obtain ⟨p, -, -, rfl⟩ | ⟨-, -, rfl⟩ | ⟨hinvalid, rfl⟩ | ⟨lo, -, rfl⟩ := touch_cases hstep
  · exact absurd hfaults (by rw [Bool.not_eq_true]; exact hcode)
  · obtain ⟨-, hs⟩ | ⟨-, hs⟩ := strayRefill_cases q inp s
    · rw [hs, goto_place] at hfaults
      cases hfaults
    · rw [hs, hcode] at hfaults
      cases hfaults
  · obtain ⟨p, hp, -⟩ := hm.fault hi (by rw [hk]; rfl) hinvalid
    refine ⟨p, ?_⟩
    have hsaved : ((s.setState q PGFAULTEXCEPT {inp.saved with entryHi := accessHi (s.proc q).asid va}).goto q
        (.fault k)).faultHi q = accessHi (s.proc q).asid va := by
      simp [Sys.faultHi, Sys.goto, Sys.setState]
    rw [hsaved]
    exact hp
  · rw [hdone] at hfaults
    cases hfaults

/-- Only code comes upon a fault. -/
theorem Stepped.faults (hstep : Stepped L hd s e s') (ho : Owners s) (hfaults : (s'.proc q).place.faults = true) :
    (e.actor = some q ∧ ∃ k, (s.proc q).place = .code k ∨ (s.proc q).place = .fault k ∨
      ∃ p, (s.proc q).place = .pager p k) ∨
    e.actor ≠ some q ∧ (s'.proc q).place = (s.proc q).place := by
  have hnot : ∀ {place : Place}, (s'.proc q).place = place → place.faults = false → False := by
    intro place hplace hnone
    rw [hplace, hnone] at hfaults
    cases hfaults
  cases hstep with
  | @flow e r d st place s' actor flow allowed goes =>
    by_cases hqr : q = r
    · subst hqr
      refine .inl ⟨actor, ?_⟩
      rw [goes.toMoved.self] at hfaults
      generalize (s.proc q).place = old at flow
      cases flow with
      | @fault k => exact ⟨k, .inl rfl⟩
      | @enter k => exact ⟨k, .inr (.inl rfl)⟩
      | @work p p' k => exact ⟨k, .inr (.inr ⟨p, rfl⟩)⟩
      | _ => cases hfaults
    · exact .inr ⟨fun he => hqr (Option.some.inj (he.symm.trans actor)), goes.toMoved.other hqr⟩
  | @die r inp asid old =>
    by_cases hr : r = shellNo
    · subst hr
      exact (hnot (termprocess_shell s q) rfl).elim
    · by_cases hqr : q = r
      · subst hqr
        exact (hnot (termprocess_self q s) rfl).elim
      · exact .inr ⟨fun he => hqr (Option.some.inj he).symm, (termprocess_moved hr).other hqr⟩
  | @create r inp asid newAsid u supportFree old arg accepted popped created =>
    have hc := ho.created old (s.vm.initSupport hd u newAsid) u supportFree newAsid
    by_cases hqr : q = r
    · subst hqr
      exact (hnot (congrArg Proc.place hc.shell) rfl).elim
    · by_cases hqn : q = s.next
      · subst hqn
        exact (hnot (congrArg Proc.place hc.program) rfl).elim
      · exact .inr ⟨fun he => hqr (Option.some.inj he).symm, congrArg Proc.place (hc.other q hqr hqn)⟩
  | await old pass =>
    obtain ⟨-, rfl⟩ := passeren_eq_some pass
    exact .inr ⟨by simp [SysEvent.actor], rfl⟩
  | kill old => exact (hnot rfl rfl).elim

theorem Tabled.code (hi : Inv L s) (hm : Mirrored s.live s.vm) (hk : (s.proc q).place = .code k)
    (hactor : e.actor = some q) (hstep : sysStep L hd e s = some s') (hfaults : (s'.proc q).place.faults = true) :
    ∃ p, arrayIndex USERPGTBLSIZE (findPageIndex (s'.faultHi q)) = some p := by
  have hself : ∀ {s₁ : Sys} {place : Place}, ((s₁.goto q place).proc q).place = place := by
    intro s₁ place
    simp [Sys.goto]
  cases e with
  | access r va value inp =>
    obtain rfl := Option.some.inj hactor
    simp only [sysStep] at hstep
    split at hstep
    · rename_i huser
      refine Tabled.touch hi hm huser (fun lo => ?_) hstep hfaults
      have hkept : (s.proc r).place.faults = false := by
        rw [hk]
        rfl
      cases value with
      | none => exact hkept
      | some v => exact hkept
    · cases hstep
  | trap r st =>
    obtain rfl := Option.some.inj hactor
    simp only [sysStep] at hstep
    split at hstep
    · obtain rfl := Option.some.inj hstep
      rw [hself] at hfaults
      cases hfaults
    · cases hstep
  | go r inp =>
    obtain rfl := Option.some.inj hactor
    simp only [sysStep, proceed, hk] at hstep
    cases k with
    | user => cases hstep
    | writing i =>
      simp only [writeChar] at hstep
      split at hstep
      · refine Tabled.touch hi hm hk (fun lo => ?_) hstep hfaults
        rw [hself]
        rfl
      · obtain rfl := Option.some.inj hstep
        rw [hself] at hfaults
        cases hfaults
    | reading asid len character =>
      simp only [readChar] at hstep
      refine Tabled.touch hi hm hk (fun lo => ?_) hstep hfaults
      split
      · rw [hself]
        rfl
      · rw [hself]
        rfl
  | test => cases hactor

theorem Tabled.step (h : s.Tabled) (hi : Inv L s) (hm : Mirrored s.live s.vm) (hstep : sysStep L hd e s = some s') :
    s'.Tabled := by
  intro q k hplace
  have hfaults : (s'.proc q).place.faults = true := by
    obtain hplace | hplace := hplace
    all_goals
      rw [hplace]
      rfl
  obtain ⟨hactor, k', hold⟩ | ⟨hactor, hsame⟩ := (sysStep_stepped hstep).faults hi.owners hfaults
  · obtain hk | hk | ⟨p, hk⟩ := hold
    · exact Tabled.code hi hm hk hactor hstep hfaults
    · obtain ⟨inp, rfl, hgo⟩ := sysStep_go hactor (by simp [hk]) hstep
      simp only [proceed, hk] at hgo
      obtain rfl | ⟨s₁, hpass, rfl⟩ := enterPager_cases hgo
      · simp [Sys.goto, Place.faults] at hfaults
      · obtain ⟨-, rfl⟩ := passeren_eq_some hpass
        have hkept := h q k' (.inl hk)
        simpa [Sys.faultHi, Sys.goto] using hkept
    · obtain ⟨inp, rfl, hgo⟩ := sysStep_go hactor (by simp [hk]) hstep
      simp only [proceed, hk] at hgo
      by_cases hend : p.rank = 0
      · cases p with
        | published =>
          obtain rfl := Option.some.inj hgo
          simp [Sys.goto, Place.faults] at hfaults
        | failed asid =>
          obtain rfl := Option.some.inj hgo
          simp [Sys.goto, Place.faults] at hfaults
        | _ => cases hend
      · -- the pager does not come back to its start
        rw [runPager_eq hend] at hgo
        obtain ⟨⟨p', vm'⟩, hr, rfl⟩ := Option.map_eq_some_iff.mp hgo
        have hrank := pagerStep_rank hr
        simp only [Sys.goto, Function.update_self] at hplace
        obtain hplace | hplace := hplace
        · cases hplace
        · obtain ⟨rfl, -⟩ := Place.pager.inj hplace
          cases p <;> simp [PagerAt.rank] at hrank
  · rw [hsame] at hplace hfaults
    obtain ⟨hq, hq', -⟩ := Place.faults_pending hfaults
    obtain ⟨p, hp⟩ := h q k hplace
    refine ⟨p, ?_⟩
    obtain hself | ⟨r, inp, asid, hrq, -, -, hmoved, hvm⟩ := hi.orderly.turn hq hq' hstep
    · exact absurd hself hactor
    · rw [Sys.faultHi, hmoved.sup, hvm]
      exact hp

theorem Started.tabled {u : SupPtr} (h : Started hd vm u s) : s.Tabled := by
  intro q k hq
  have hshell : q = shellNo := h.present (by obtain hq | hq := hq <;> simp [hq])
  rw [hshell, h.shell] at hq
  simp at hq

end Faults

/-! ### Nobody is stuck -/

/-- `q` goes on in its handler, whatever the machine answers, if transfers succeed. -/
def Sys.GoesOn (L : PoolLayout) (hd : Handlers) (s : Sys) (q : Nat) : Prop :=
  ∀ inp, (∀ a ∈ s.transfer (.go q inp), a.ready) → ∃ s', sysStep L hd (.go q inp) s = some s'

/-- No terminal system call ends where it reads past the page table. -/
def Stays (s : Sys) : SysEvent → Prop
  | .go q inp => ¬ (inp.busError = true ∧ s.strays q)
  | _ => True

instance decidableStays (s : Sys) : (e : SysEvent) → Decidable (Stays s e)
  | .go q inp => inferInstanceAs (Decidable (¬ (inp.busError = true ∧ s.strays q)))
  | .access .. => isTrue trivial
  | .trap .. => isTrue trivial
  | .test => isTrue trivial

/-- A careful step that takes no handler past the page table. -/
structure Steady (s : Sys) (e : SysEvent) : Prop where
  careful : Careful s e
  stays : Stays s e

instance decidableSteady (s : Sys) (e : SysEvent) : Decidable (Steady s e) :=
  decidable_of_iff (Careful s e ∧ Stays s e) ⟨fun h => ⟨h.1, h.2⟩, fun h => ⟨h.careful, h.stays⟩⟩

/-- Everybody in a handler goes on or waits for somebody else who has something left to do. -/
structure Unblocked (L : PoolLayout) (hd : Handlers) (s : Sys) : Prop where
  uproc : ∀ q, (s.proc q).place ≠ .absent → (s.proc q).place ≠ .code .user →
    s.GoesOn L hd q ∨ (s.proc q).place = .waitShell ∧ ∃ r, r ≠ q ∧ (s.proc r).place.pending = true
  test : s.test = .gone ∨ (∃ s', sysStep L hd .test s = some s') ∨ (s.proc shellNo).place.pending = true

section Unblocked
variable {L : PoolLayout} {hd : Handlers} {c : PtePtr → Option Page} {m : Memories} {q : Nat} {vm : Vm} {s₀ s : Sys}
  {e : SysEvent} {es : List SysEvent}

theorem touch_total (q : Nat) (k : Code) (va : Addr) (inp : Input) (done : Word → Sys) (s : Sys) :
    ∃ s', touch q k va inp done s = some s' := by
  simp only [touch]
  split
  · split <;> exact ⟨_, rfl⟩
  · exact ⟨_, rfl⟩
  · exact ⟨_, rfl⟩

theorem run_careful (hrun : Run (sysStep L hd) Steady s₀ es s) : Run (sysStep L hd) Careful s₀ es s :=
  hrun.mono fun _ _ hs => hs.careful

theorem run_tabled (hstart : Sys.start hd vm = some s₀) (hrun : Run (sysStep L hd) Careful s₀ es s) : s.Tabled := by
  induction hrun with
  | nil =>
    obtain ⟨u, hu⟩ := start_started hstart
    exact hu.tabled
  | snoc hrun _ hstep ih =>
    obtain ⟨m, -, hi, hm, -⟩ := run_remembered hstart hrun
    exact Tabled.step ih hi hm hstep

theorem run_wakes (hstart : Sys.start hd vm = some s₀) (hrun : Run (sysStep L hd) Careful s₀ es s) : Wakes s := by
  induction hrun with
  | nil =>
    obtain ⟨u, hu⟩ := start_started hstart
    exact hu.wakes
  | snoc hrun _ hstep ih =>
    obtain ⟨m, -, hi, -, -⟩ := run_remembered hstart hrun
    exact ih.step hi (sysStep_stepped hstep)

/-- In a steady step nobody gives up: transfers that succeed leave the pager no reason to. -/
theorem Serving.spares (h : Serving L c s) (hi : Inv L s) (hs : Steady s e) : Spares s e := by
  cases e with
  | go q inp =>
    intro k hk
    unfold Sys.givesUp at hk
    split at hk
    · rename_i asid k' hplace
      have hfaults : (s.proc q).place.faults = true := by
        rw [hplace]
        rfl
      cases h with
      | idle nobody atRest =>
        rw [nobody q] at hfaults
        cases hfaults
      | @faulted r k place missing atRest =>
        have hr : (s.proc r).place.faults = true := by
          obtain hr | hr := place
          all_goals
            rw [hr]
            rfl
        by_cases hrq : q = r
        · subst hrq
          rw [hplace] at place
          simp at place
        · rw [hi.orderly.nobody hr q hrq] at hfaults
          cases hfaults
      | @busy r at' k p f vm₀ place phase =>
        by_cases hrq : q = r
        · subst hrq
          rw [hplace] at place
          obtain ⟨rfl, -⟩ := Place.pager.inj place
          cases phase with
          | failed hfails _ => cases hfails
        · rw [hi.orderly.nobody (by rw [place]; rfl) q hrq] at hfaults
          cases hfaults
    · rw [if_neg (modification_masked _)] at hk
      cases hk
    · rw [if_neg hs.stays] at hk
      cases hk
    · cases hk
  | access q va value inp => trivial
  | trap q st => trivial
  | test => trivial

theorem run_spares (hstart : Sys.start hd vm = some s₀) (hrun : Run (sysStep L hd) Steady s₀ es s) :
    Run (sysStep L hd) Spares s₀ es s := by
  induction hrun with
  | nil => exact .nil
  | snoc hrun hs hstep ih =>
    obtain ⟨m, -, hi, -, c, hserving, -⟩ := run_remembered hstart (run_careful hrun)
    exact .snoc ih (hserving.spares hi hs) hstep

/-- A mutex is free when the only U-proc that goes on asks for it. -/
theorem run_free (hstart : Sys.start hd vm = some s₀) (hrun : Run (sysStep L hd) Steady s₀ es s) {x : Sem}
    (hx : x.mutex = true) (hq : (s.proc q).place.pending = true) (hq' : (s.proc q).place ≠ .waitShell)
    (hnot : s.holds x q = false) : ∃ s₁, s.passeren x = some s₁ := by
  have hattended := run_attended hstart (run_spares hstart hrun) hx
  suffices hpos : 0 < s.sem x from ⟨_, if_pos hpos⟩
  obtain hzero | hone := hattended.value
  · obtain ⟨r, -, hr⟩ := hattended.holder hzero
    obtain ⟨hpending, hawake⟩ := held_pending hr
    have horder := run_orderly hstart (hrun.mono fun _ _ _ => trivial)
    obtain rfl := horder.handshake.only hq hq' hpending hawake
    rw [hnot] at hr
    cases hr
  · omega

/-- The pager finds a page and a frame. -/
theorem chosen {k : Nat} (htabled : s.Tabled) {code : Code} (hplace : (s.proc q).place = .pager .locked code)
    (hindex : s.vm.frameIndex = BitVec.ofNat 32 k) (hk : k + 1 ≤ 2 ^ 31) (a : Answer) :
    ∃ r, pagerStep L (s.proc q).sup a .locked s.vm = some r := by
  obtain ⟨p, hp⟩ := htabled q code (.inr hplace)
  have hvictim : ∃ r, pageReplacement s.vm = some r := by
    by_cases hfull : Pool.full s.vm.swapPool
    · obtain ⟨f, -, hf⟩ := pageReplacement_turn s.vm hfull hindex hk
      exact ⟨_, hf⟩
    · obtain ⟨f, hf, -⟩ := find_free s.vm hfull
      exact ⟨_, hf⟩
  obtain ⟨⟨f, vm⟩, hf⟩ := hvictim
  refine ⟨(.chosen p f, vm), ?_⟩
  unfold Sys.faultHi at hp
  simp only [pagerStep, hp, hf, Option.bind_some, Option.map_some]

/-- A U-proc in the pager goes on. -/
theorem run_pager (hstart : Sys.start hd vm = some s₀) (hrun : Run (sysStep L hd) Careful s₀ es s)
    (hfew : es.length < 2 ^ 31) {at' : PagerAt} {k : Code} (hplace : (s.proc q).place = .pager at' k) :
    s.GoesOn L hd q := by
  intro inp hready
  simp only [sysStep, proceed, hplace]
  have hfaults : (s.proc q).place.faults = true := by
    rw [hplace]
    rfl
  by_cases hend : at'.rank = 0
  · cases at' with
    | published => exact ⟨_, rfl⟩
    | failed asid => exact ⟨_, rfl⟩
    | _ => cases hend
  · rw [runPager_eq hend]
    suffices hr : ∃ r, pagerStep L (s.proc q).sup inp.toAnswer at' s.vm = some r by
      obtain ⟨r, hr⟩ := hr
      exact ⟨_, by rw [hr]; rfl⟩
    obtain ⟨m, -, hi, -, c, hserving, -⟩ := run_remembered hstart hrun
    cases hserving with
    | idle nobody atRest =>
      rw [nobody q] at hfaults
      cases hfaults
    | @faulted r k' place missing atRest =>
      have hr : (s.proc r).place.faults = true := by
        obtain hr | hr := place
        all_goals
          rw [hr]
          rfl
      have hqr : q = r := by
        by_contra hqr
        rw [hi.orderly.nobody hr q hqr] at hfaults
        cases hfaults
      subst hqr
      obtain hk | hk := place
      · rw [hplace] at hk
        cases hk
      · obtain ⟨rfl, -⟩ := Place.pager.inj (hplace.symm.trans hk)
        obtain ⟨n, hn, hindex⟩ := run_frameIndex hstart hrun
        exact chosen (run_tabled hstart hrun) hplace hindex (by omega) _
    | @busy r at'' k' p f vm₀ place phase =>
      have hqr : q = r := by
        by_contra hqr
        rw [hi.orderly.nobody (by rw [place]; rfl) q hqr] at hfaults
        cases hfaults
      subst hqr
      obtain ⟨rfl, -⟩ := Place.pager.inj (hplace.symm.trans place)
      have hok : (s.proc q).place.transfers = true → inp.toAnswer.ready :=
        fun ht => hready inp.toAnswer (by simp [Sys.transfer, ht])
      rw [hplace] at hok
      obtain ⟨hwrite, hread⟩ := transfers_ready hok
      obtain ⟨at', vm', -, hr, -⟩ := phase.pager ⟨q, by rw [hplace]; rfl, rfl⟩ hwrite hread hend
      exact ⟨_, hr⟩

/-- Whoever is in a handler goes on, but for the shell while a program has something left to do. -/
theorem run_handlers (hstart : Sys.start hd vm = some s₀) (hrun : Run (sysStep L hd) Steady s₀ es s)
    (hfew : es.length < 2 ^ 31) (hpresent : (s.proc q).place ≠ .absent) (huser : (s.proc q).place ≠ .code .user) :
    s.GoesOn L hd q ∨ (s.proc q).place = .waitShell ∧ ∃ r, r ≠ q ∧ (s.proc r).place.pending = true := by
  obtain ⟨m, -, hi, -, -⟩ := run_remembered hstart (run_careful hrun)
  have hwakes := run_wakes hstart (run_careful hrun)
  by_cases hwait : (s.proc q).place = .waitShell
  · by_cases hother : ∃ r, r ≠ q ∧ (s.proc r).place.pending = true
    · exact .inr ⟨hwait, hother⟩
    · obtain rfl := hi.orderly.handshake.waits q hwait
      have hpos := hwakes.shell hwait fun r hr => Bool.eq_false_iff.mpr fun hp => hother ⟨r, hr, hp⟩
      refine .inl fun inp _ => ?_
      simp only [sysStep, proceed, hwait, Sys.passeren, if_pos hpos]
      exact ⟨_, rfl⟩
  · refine .inl fun inp hready => ?_
    have hpass : ∀ x : Sem, x.mutex = true → (s.proc q).place.pending = true → s.holds x q = false →
        ∃ s₁, s.passeren x = some s₁ := fun x hx hp hnot => run_free hstart hrun hx hp hwait hnot
    cases hplace : (s.proc q).place with
    | absent => exact absurd hplace hpresent
    | pager at' k => exact run_pager hstart (run_careful hrun) hfew hplace inp hready
    | code k =>
      cases k with
      | user => exact absurd hplace huser
      | writing i =>
        simp only [sysStep, proceed, hplace, writeChar]
        split
        · exact touch_total ..
        · exact ⟨_, rfl⟩
      | reading asid len character =>
        simp only [sysStep, proceed, hplace, readChar]
        exact touch_total ..
    | fault k =>
      obtain ⟨s₁, hs₁⟩ := hpass .swapPoolSemaphore rfl (by rw [hplace]; rfl)
        (by rw [Sys.holds, hplace]; exact decide_eq_false k.outer_swapPool)
      simp only [sysStep, proceed, hplace, enterPager, if_neg (modification_masked _), hs₁]
      exact ⟨_, rfl⟩
    | writeLock =>
      obtain ⟨s₁, hs₁⟩ := hpass .terminalWriteSem rfl (by rw [hplace]; rfl) (by rw [Sys.holds, hplace]; rfl)
      simp only [sysStep, proceed, hplace, hs₁]
      exact ⟨_, rfl⟩
    | readLock asid =>
      obtain ⟨s₁, hs₁⟩ := hpass .terminalReadSem rfl (by rw [hplace]; rfl) (by rw [Sys.holds, hplace]; rfl)
      simp only [sysStep, proceed, hplace, hs₁]
      exact ⟨_, rfl⟩
    | waitShell => exact absurd hplace hwait
    | terminate step asid =>
      simp only [sysStep, proceed, hplace]
      cases step with
      | lock =>
        obtain ⟨s₁, hs₁⟩ := hpass .swapPoolSemaphore rfl (by rw [hplace]; rfl) (by rw [Sys.holds, hplace]; rfl)
        simp only [terminateSys, hs₁]
        exact ⟨_, rfl⟩
      | _ => exact ⟨_, rfl⟩
    | _ =>
      simp only [sysStep, proceed, hplace]
      exact ⟨_, rfl⟩

theorem run_test (hstart : Sys.start hd vm = some s₀) (hrun : Run (sysStep L hd) Careful s₀ es s) :
    s.test = .gone ∨ (∃ s', sysStep L hd .test s = some s') ∨ (s.proc shellNo).place.pending = true := by
  have hwakes := run_wakes hstart hrun
  cases htest : s.test with
  | gone => exact .inl rfl
  | dying => exact .inr (.inl ⟨_, by simp only [sysStep, htest]; rfl⟩)
  | waiting =>
    refine .inr ?_
    by_cases hshell : (s.proc shellNo).place.pending = true
    · exact .inr hshell
    · have hpos := hwakes.test htest (Bool.eq_false_iff.mpr hshell)
      refine .inl ?_
      simp only [sysStep, htest, Sys.passeren, if_pos hpos]
      exact ⟨_, rfl⟩

/-- **Nobody waits for ever**: in every state that steady steps lead to, before the counter
of the replacements can overflow, everybody in a handler can go on, whatever the machine
answers, except for a shell whose program has something left to do; and `test` can go on once
the shell has ended. -/
theorem run_unblocked {L : PoolLayout} {hd : Handlers} {vm : Vm} {s₀ s : Sys} {es : List SysEvent}
    (hstart : Sys.start hd vm = some s₀) (hrun : Run (sysStep L hd) Steady s₀ es s) (hfew : es.length < 2 ^ 31) :
    Unblocked L hd s :=
  ⟨fun _ hpresent huser => run_handlers hstart hrun hfew hpresent huser, run_test hstart (run_careful hrun)⟩

end Unblocked

namespace SysSample

/-- The shell has filled the pool, and waits for the page that it loses to be written back. -/
def evicting : List SysEvent := (List.range 16).flatMap (fun n => pageIn 0 n) ++ (pageIn 0 16).take 5

end SysSample

open SysSample in
theorem run_unblocked_sample :
    ∃ s, exec (sysStep layout handlers) evicting start = some s ∧ (s.proc shellNo).place.transfers = true ∧
      Unblocked layout handlers s := by
  have hfollows : Follows (sysStep layout handlers) Steady evicting start := by
    decide +kernel
  obtain ⟨s, hexec, hrun⟩ := hfollows.run
  have hlength : evicting.length < 2 ^ 31 := by
    decide +kernel
  have hend : (exec (sysStep layout handlers) evicting start).all (fun s => (s.proc shellNo).place.transfers) = true := by
    decide +kernel
  rw [hexec] at hend
  exact ⟨s, hexec, hend, run_unblocked start_eq hrun hlength⟩

end MultiPandOS
