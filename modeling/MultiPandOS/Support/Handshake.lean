import MultiPandOS.Library.Runs
import MultiPandOS.Support.Flow

/-! The shell and its programs, in every run.

`Orderly` holds whatever the devices answer and the U-procs do: every support structure
is free or belongs to one U-proc, whoever can still read its `sup_asid` finds its own
ASID there, and the shell waits for the one program it has launched. When the end of the
shell is signalled, rightly or wrongly, nobody but a waiting shell is left. -/
namespace MultiPandOS
open Runs

/-- The U-proc has not begun to terminate. -/
def Place.working : Place → Bool
  | .absent => false
  | .terminate _ _ => false
  | _ => true

/-- Only the shell has its ASID, and everybody finds their own. -/
structure Named (s : Sys) : Prop where
  shell : ∀ q, (s.proc q).place ≠ .absent → ((s.proc q).asid = SHELL_ASID ↔ q = shellNo)
  sup : ∀ q, (s.proc q).place.working = true → s.vm.asid (s.proc q).sup = (s.proc q).asid
  executing : ∀ q a, (s.proc q).place = .executing a → a = (s.proc q).asid

/-- The shell waits for the program it has launched. -/
structure Handshake (s : Sys) : Prop where
  waits : ∀ q, (s.proc q).place = .waitShell → q = shellNo
  waiting : ∀ q, q ≠ shellNo → (s.proc q).place.pending = true →
    (s.proc shellNo).place = .waitShell ∧ s.sem .shellSemaphore = 0
  single : ∀ q r, q ≠ shellNo → r ≠ shellNo → (s.proc q).place.pending = true →
    (s.proc r).place.pending = true → q = r
  signal : s.sem .shellSemaphore = 0 ∨ s.sem .shellSemaphore = 1 ∧
    (∀ q, q ≠ shellNo → (s.proc q).place.pending = false) ∧
    ((s.proc shellNo).place.pending = true → (s.proc shellNo).place = .waitShell)
  ending : 0 < s.sem .masterSemaphore ∨ s.test ≠ .waiting →
    (∀ q, q ≠ shellNo → (s.proc q).place.pending = false) ∧
    ((s.proc shellNo).place.pending = true → (s.proc shellNo).place = .waitShell ∧ s.sem .shellSemaphore = 0)

structure Orderly (s : Sys) : Prop where
  owners : Owners s
  named : Named s
  handshake : Handshake s

/-! ### Ways -/

section Ways
variable {loads : Addr → Word → Prop} {asid : Word} {st st' : State} {place place' : Place} {d : Doing}

theorem Flow.working (h : Flow loads asid st place d st' place') (hp : place'.working = true) :
    place.working = true := by
  cases h with
  | lock => cases hp
  | free => cases hp
  | unlock => cases hp
  | dealloc => cases hp
  | signal => cases hp
  | _ => rfl

theorem Flow.pending (h : Flow loads asid st place d st' place') : place.pending = true := by
  cases h <;> rfl

theorem Place.pending_present (h : place.pending = true) : place ≠ .absent := by
  intro he
  rw [he] at h
  cases h

theorem Flow.executing {a : Word} (h : Flow loads asid st place d st' (.executing a)) :
    place = .general ∧ a = asid := by
  cases h
  exact ⟨rfl, rfl⟩

theorem Flow.awake (h : Flow loads asid st place d st' place') : place' ≠ .waitShell := by
  cases h <;> simp

/-- The shell is woken, somebody signals its end, or neither semaphore is touched. -/
theorem Flow.signals (h : Flow loads asid st place d st' place') :
    (place = .waitShell ∧ d = .passeren .shellSemaphore) ∨
      (∃ a, place = .terminate .signal a ∧ place' = .terminate .die a ∧
        d = .verhogen (if a = SHELL_ASID then .masterSemaphore else .shellSemaphore)) ∨
      (place ≠ .waitShell ∧ ∀ sem, d.apply sem .shellSemaphore = sem .shellSemaphore ∧
        d.apply sem .masterSemaphore = sem .masterSemaphore) := by
  cases h with
  | wake => exact .inl ⟨rfl, rfl⟩
  | @signal a => exact .inr (.inl ⟨a, rfl, rfl, rfl⟩)
  | _ => exact .inr (.inr ⟨by simp, fun sem => by simp [Doing.apply]⟩)

end Ways

/-! ### Who owns what -/

section Owners
variable {L : PoolLayout} {hd : Handlers} {q : Nat} {s s' : Sys} {e : SysEvent}

theorem Place.working_owns {place : Place} (h : place.working = true) : place.owns = true := by
  cases place with
  | absent => cases h
  | terminate => cases h
  | _ => rfl

/-- Nobody else writes the `sup_asid` of a U-proc that has not begun to terminate. -/
theorem Owners.asid_kept (h : Owners s) (hstep : sysStep L hd e s = some s') {r : Nat}
    (hr : (s.proc r).place.working = true) : s'.vm.asid (s.proc r).sup = s.vm.asid (s.proc r).sup := by
  have howns := Place.working_owns hr
  cases sysStep_effect hstep with
  | calm old new inherits quiet => exact quiet.tables.asid _ (h.taken r howns)
  | refill slot code touched miss index => rfl
  | lock old pass locks mapped attached inherits =>
    obtain ⟨-, rfl⟩ := passeren_eq_some pass
    rfl
  | unlock old locks pending mapped inherits => rfl
  | @pager q k inp place r' old step =>
    obtain ⟨place', vm⟩ := r'
    exact (pagerStep_support step).2 _
  | free old => rfl
  | @dealloc q inp asid old =>
    have hne : (s.proc r).sup ≠ (s.proc q).sup := by
      intro he
      obtain rfl : r = q := h.inj r q howns (by rw [old]; rfl) he
      rw [old] at hr
      cases hr
    simp [Sys.goto, Sys.setVm, Vm.asid, Vm.setAsid, hne]
  | signal old => rfl
  | die old => rw [termprocess_vm]
  | @create q inp asid newAsid u supportFree old arg accepted popped created =>
    have hne : (s.proc r).sup ≠ u := by
      intro he
      apply h.taken r howns
      rw [he, allocateSupport_eq_some popped]
      exact List.mem_cons_self
    simp [Sys.goto, Sys.create, Sys.setVm, Vm.asid, Vm.initSupport, hne]
  | @wake q inp s₁ old pass =>
    obtain ⟨-, rfl⟩ := passeren_eq_some pass
    by_cases hrq : (s.proc r).sup = (s.proc q).sup
    · simp [Sys.ldst, Sys.goto, Sys.setState, Vm.asid, hrq]
    · simp [Sys.ldst, Sys.goto, Sys.setState, Vm.asid, hrq]
  | await old pass =>
    obtain ⟨-, rfl⟩ := passeren_eq_some pass
    rfl
  | kill old => rfl

end Owners

/-! ### Who is who -/

section Named
variable {L : PoolLayout} {hd : Handlers} {q : Nat} {place : Place} {s s' : Sys} {e : SysEvent}

theorem Place.working_present (h : place.working = true) : place ≠ .absent := by
  intro he
  rw [he] at h
  cases h

theorem Named.killed (habsent : ∀ r, (s'.proc r).place = .absent) : Named s' := by
  refine ⟨fun r hr => absurd (habsent r) hr, fun r hr => ?_, fun r a hr => ?_⟩
  · rw [habsent] at hr
    cases hr
  · rw [habsent] at hr
    cases hr

theorem Named.move (h : Named s) (hm : Moved q place s s') (hpresent : (s.proc q).place ≠ .absent)
    (hkept : ∀ r, (s.proc r).place.working = true → s'.vm.asid (s.proc r).sup = s.vm.asid (s.proc r).sup)
    (hworking : place.working = true → (s.proc q).place.working = true)
    (hexecuting : ∀ a, place = .executing a → a = (s.proc q).asid) : Named s' := by
  refine ⟨fun r hr => ?_, fun r hr => ?_, fun r a hr => ?_⟩
  · rw [hm.asid]
    by_cases hrq : r = q
    · rw [hrq]
      exact h.shell q hpresent
    · rw [hm.other hrq] at hr
      exact h.shell r hr
  · have hr' := hm.attr hworking hr
    rw [hm.sup, hm.asid, hkept r hr']
    exact h.sup r hr'
  · rw [hm.asid]
    by_cases hrq : r = q
    · rw [hrq, hm.self] at hr
      rw [hrq]
      exact hexecuting a hr
    · rw [hm.other hrq] at hr
      exact h.executing r a hr

/-- The shell launches a program in `u`, which nobody has. -/
theorem Named.create {u : SupPtr} {newAsid : Word} (h : Named s) (hc : Created q u newAsid s s')
    (hworking : (s.proc q).place.working = true) (hnew : newAsid ≠ SHELL_ASID) (hnext : shellNo < s.next)
    (hself : s'.vm.asid u = newAsid)
    (hkept : ∀ r, (s.proc r).place.working = true → s'.vm.asid (s.proc r).sup = s.vm.asid (s.proc r).sup) :
    Named s' := by
  refine ⟨fun r hr => ?_, fun r hr => ?_, fun r a hr => ?_⟩
  · by_cases hrn : r = s.next
    · rw [hrn, hc.program]
      exact ⟨fun ha => absurd ha hnew, fun he => absurd he (Nat.ne_of_gt hnext)⟩
    · rw [hc.asid hrn]
      by_cases hrq : r = q
      · rw [hrq]
        exact h.shell q (Place.working_present hworking)
      · rw [hc.other r hrq hrn] at hr
        exact h.shell r hr
  · by_cases hrn : r = s.next
    · rw [hrn, hc.program]
      exact hself
    · rw [hc.attr Place.working hworking.symm hrn] at hr
      rw [hc.sup hrn, hc.asid hrn, hkept r hr]
      exact h.sup r hr
  · by_cases hrn : r = s.next
    · rw [hrn, hc.program] at hr
      cases hr
    · rw [hc.asid hrn]
      by_cases hrq : r = q
      · rw [hrq, hc.shell] at hr
        cases hr
      · rw [hc.other r hrq hrn] at hr
        exact h.executing r a hr

/-- An EXECUTE that is accepted comes from the shell. -/
theorem Named.accepted (h : Named s) {asid newAsid : Word} (hplace : (s.proc q).place = .executing asid)
    (haccepted : ¬ badExecute asid newAsid) : q = shellNo ∧ newAsid ≠ SHELL_ASID := by
  obtain ⟨hasid, -, hnew⟩ := accepted_asid haccepted
  have hpresent : (s.proc q).place ≠ .absent := by simp [hplace]
  refine ⟨(h.shell q hpresent).mp ?_, hnew⟩
  rw [← h.executing q asid hplace]
  exact hasid

theorem Orderly.named_step (h : Orderly s) (hstep : sysStep L hd e s = some s') : Named s' := by
  have hkept : ∀ r, (s.proc r).place.working = true → s'.vm.asid (s.proc r).sup = s.vm.asid (s.proc r).sup :=
    fun r hr => h.owners.asid_kept hstep hr
  cases sysStep_stepped hstep with
  | @flow e q d st place s' actor flow allowed goes =>
    refine h.named.move goes.toMoved (Place.pending_present flow.pending) hkept flow.working fun a ha => ?_
    subst ha
    obtain ⟨hplace, ha⟩ := flow.executing
    rw [ha]
    exact h.named.sup q (by rw [hplace]; rfl)
  | @die q inp asid old =>
    by_cases hq : q = shellNo
    · subst hq
      exact Named.killed (termprocess_shell s)
    · exact h.named.move (termprocess_moved hq) (by simp [old]) hkept (by simp [Place.working]) (by simp)
  | @create q inp asid newAsid u supportFree old arg accepted popped created =>
    have hworking : (s.proc q).place.working = true := by
      rw [old]
      rfl
    have hself : (({s.setVm (s.vm.initSupport hd u newAsid) with supportFree := supportFree}.create u newAsid).goto q
        .waitShell).vm.asid u = newAsid := by
      simp [Sys.goto, Sys.create, Sys.setVm, Vm.asid, Vm.initSupport, initSupportStructure]
    exact h.named.create (h.owners.created old _ u supportFree newAsid) hworking (h.named.accepted old accepted).2
      h.owners.next hself hkept
  | await old pass =>
    obtain ⟨-, rfl⟩ := passeren_eq_some pass
    exact ⟨h.named.shell, h.named.sup, h.named.executing⟩
  | kill old => exact Named.killed fun _ => rfl

end Named

/-! ### The handshake -/

section Handshake
variable {L : PoolLayout} {hd : Handlers} {q : Nat} {place : Place} {s s' : Sys} {e : SysEvent}

/-- No program is left while the shell does not wait. -/
theorem Handshake.alone (h : Handshake s) (hshell : (s.proc shellNo).place ≠ .waitShell) {r : Nat} (hr : r ≠ shellNo) :
    (s.proc r).place.pending = false :=
  Bool.eq_false_iff.mpr fun hp => hshell (h.waiting r hr hp).1

/-- The shell terminates last. -/
theorem Handshake.nobody (h : Handshake s) {a : Word} (hold : (s.proc shellNo).place = .terminate .die a) (r : Nat) :
    (s.proc r).place.pending = false := by
  by_cases hr : r = shellNo
  · rw [hr, hold]
    rfl
  · exact h.alone (by simp [hold]) hr

theorem Handshake.idle (h : Handshake s) (hpending : (s.proc shellNo).place.pending = true)
    (hshell : (s.proc shellNo).place ≠ .waitShell) : s.sem .shellSemaphore = 0 := by
  obtain hzero | ⟨-, -, hwait⟩ := h.signal
  · exact hzero
  · exact absurd (hwait hpending) hshell

/-- One U-proc at a time has something left to do. -/
theorem Handshake.only (h : Handshake s) {r : Nat} (hq : (s.proc q).place.pending = true)
    (hq' : (s.proc q).place ≠ .waitShell) (hr : (s.proc r).place.pending = true)
    (hr' : (s.proc r).place ≠ .waitShell) : q = r := by
  by_cases hqs : q = shellNo
  · by_contra hne
    have hrs : r ≠ shellNo := fun he => hne (hqs.trans he.symm)
    rw [hqs] at hq'
    exact hq' (h.waiting r hrs hr).1
  · have hshell := (h.waiting q hqs hq).1
    by_cases hrs : r = shellNo
    · rw [hrs] at hr'
      exact absurd hshell hr'
    · exact h.single q r hqs hrs hq hr

/-- The end of the shell has not been signalled. -/
theorem Handshake.running (h : Handshake s) {r : Nat} (hpending : (s.proc r).place.pending = true)
    (hr : (s.proc r).place ≠ .waitShell) : ¬ (0 < s.sem .masterSemaphore ∨ s.test ≠ .waiting) := by
  intro hover
  obtain ⟨hnone, hshell⟩ := h.ending hover
  by_cases hrs : r = shellNo
  · rw [hrs] at hpending hr
    exact hr (hshell hpending).1
  · rw [hnone r hrs] at hpending
    cases hpending

/-- A U-proc that is not the waiting shell goes on. -/
theorem Handshake.move (h : Handshake s) (hm : Moved q place s s')
    (hshell : s'.sem .shellSemaphore = s.sem .shellSemaphore)
    (hmaster : s'.sem .masterSemaphore = s.sem .masterSemaphore)
    (hpending : place.pending = true → (s.proc q).place.pending = true)
    (hold : (s.proc q).place ≠ .waitShell) (hnew : place ≠ .waitShell) : Handshake s' := by
  have hattr : ∀ r, (s'.proc r).place.pending = true → (s.proc r).place.pending = true :=
    fun r => hm.attr hpending
  have hnot : ∀ r, (s.proc r).place.pending = false → (s'.proc r).place.pending = false := by
    intro r hr
    refine Bool.eq_false_iff.mpr fun hp => ?_
    rw [hattr r hp] at hr
    cases hr
  have hstay : (s.proc shellNo).place = .waitShell → (s'.proc shellNo).place = .waitShell := by
    intro hs
    have hq : shellNo ≠ q := by
      rintro rfl
      exact hold hs
    rwa [hm.other hq]
  refine ⟨fun r hr => ?_, fun r hr hp => ?_, fun r t hr ht hrp htp => ?_, ?_, fun hover => ?_⟩
  · have hrq : r ≠ q := by
      rintro rfl
      rw [hm.self] at hr
      exact hnew hr
    rw [hm.other hrq] at hr
    exact h.waits r hr
  · obtain ⟨hs, hzero⟩ := h.waiting r hr (hattr r hp)
    exact ⟨hstay hs, by rw [hshell, hzero]⟩
  · exact h.single r t hr ht (hattr r hrp) (hattr t htp)
  · rw [hshell]
    obtain hzero | ⟨hone, hnone, hwait⟩ := h.signal
    · exact .inl hzero
    · exact .inr ⟨hone, fun r hr => hnot r (hnone r hr), fun hp => hstay (hwait (hattr shellNo hp))⟩
  · rw [hmaster, hm.test] at hover
    obtain ⟨hnone, hwait⟩ := h.ending hover
    refine ⟨fun r hr => hnot r (hnone r hr), fun hp => ?_⟩
    obtain ⟨hs, hzero⟩ := hwait (hattr shellNo hp)
    exact ⟨hstay hs, by rw [hshell, hzero]⟩

/-- Nobody but a waiting shell is left. -/
theorem Handshake.settled (hwaits : ∀ r, (s'.proc r).place = .waitShell → r = shellNo)
    (hnone : ∀ r, r ≠ shellNo → (s'.proc r).place.pending = false)
    (hshell : (s'.proc shellNo).place.pending = true → (s'.proc shellNo).place = .waitShell)
    (hsem : s'.sem .shellSemaphore = 0 ∨ s'.sem .shellSemaphore = 1)
    (hending : 0 < s'.sem .masterSemaphore ∨ s'.test ≠ .waiting → (s'.proc shellNo).place.pending = true →
      s'.sem .shellSemaphore = 0) : Handshake s' := by
  refine ⟨hwaits, fun r hr hp => ?_, fun r t hr _ hp _ => ?_, hsem.imp_right fun hone => ⟨hone, hnone, hshell⟩,
    fun hover => ⟨hnone, fun hp => ⟨hshell hp, hending hover hp⟩⟩⟩
  · exact absurd hp (Bool.eq_false_iff.mp (hnone r hr))
  · exact absurd hp (Bool.eq_false_iff.mp (hnone r hr))

theorem Handshake.killed (h : Handshake s) (habsent : ∀ r, (s'.proc r).place = .absent)
    (hshell : s'.sem .shellSemaphore = s.sem .shellSemaphore) : Handshake s' := by
  have hgone : ∀ r, (s'.proc r).place.pending = false := by
    intro r
    rw [habsent]
    rfl
  refine Handshake.settled (fun r hr => ?_) (fun r _ => hgone r) (fun hp => ?_) ?_ fun _ hp => ?_
  · rw [habsent] at hr
    cases hr
  · rw [hgone] at hp
    cases hp
  · rw [hshell]
    exact h.signal.imp_right And.left
  · rw [hgone] at hp
    cases hp

/-- `q` has signalled its end, or that of somebody else. -/
theorem Handshake.signalled (h : Handshake s) {a : Word} (hold : (s.proc q).place = .terminate .signal a)
    (hm : Moved q (.terminate .die a) s s')
    (hsem : s'.sem = (Doing.verhogen (if a = SHELL_ASID then .masterSemaphore else .shellSemaphore)).apply s.sem) :
    Handshake s' := by
  have hpending : (s.proc q).place.pending = true := by
    rw [hold]
    rfl
  have hawake : (s.proc q).place ≠ .waitShell := by simp [hold]
  have hself : (s'.proc q).place.pending = false := by
    rw [hm.self]
    rfl
  have hwaits : ∀ r, (s'.proc r).place = .waitShell → r = shellNo := by
    intro r hr
    have hrq : r ≠ q := by
      rintro rfl
      rw [hm.self] at hr
      cases hr
    rw [hm.other hrq] at hr
    exact h.waits r hr
  have hnone : ∀ r, r ≠ shellNo → (s'.proc r).place.pending = false := by
    intro r hr
    by_cases hrq : r = q
    · rw [hrq]
      exact hself
    · rw [hm.other hrq]
      refine Bool.eq_false_iff.mpr fun hp => ?_
      by_cases hq : q = shellNo
      · have := (h.waiting r hr hp).1
        rw [← hq] at this
        exact hawake this
      · exact hrq (h.single r q hr hq hp hpending)
  have hshell : (s'.proc shellNo).place.pending = true → (s'.proc shellNo).place = .waitShell := by
    intro hp
    have hq : shellNo ≠ q := by
      rintro rfl
      rw [hself] at hp
      cases hp
    rw [hm.other hq]
    exact (h.waiting q (Ne.symm hq) hpending).1
  have hzero : s.sem .shellSemaphore = 0 := by
    by_cases hq : q = shellNo
    · exact h.idle (hq ▸ hpending) (hq ▸ hawake)
    · exact (h.waiting q hq hpending).2
  by_cases ha : a = SHELL_ASID
  · have hzero' : s'.sem .shellSemaphore = 0 := by
      rw [hsem, if_pos ha]
      exact (Function.update_of_ne (by simp) _ _).trans hzero
    exact Handshake.settled hwaits hnone hshell (.inl hzero') fun _ _ => hzero'
  · have hone' : s'.sem .shellSemaphore = 1 := by
      rw [hsem, if_neg ha]
      show Function.update s.sem .shellSemaphore (s.sem .shellSemaphore + 1) .shellSemaphore = 1
      rw [Function.update_self, hzero]
      rfl
    have hmaster : s'.sem .masterSemaphore = s.sem .masterSemaphore := by
      rw [hsem, if_neg ha]
      exact Function.update_of_ne (show Sem.masterSemaphore ≠ .shellSemaphore by simp) _ _
    refine Handshake.settled hwaits hnone hshell (.inr hone') fun hover => ?_
    rw [hmaster, hm.test] at hover
    exact absurd hover (h.running hpending hawake)

theorem Handshake.woken (h : Handshake s) (hold : (s.proc q).place = .waitShell) (hpos : 0 < s.sem .shellSemaphore)
    (hm : Moved q place s s')
    (hsem : s'.sem = (Doing.passeren .shellSemaphore).apply s.sem) : Handshake s' := by
  have hq : q = shellNo := h.waits q hold
  subst hq
  obtain hzero | ⟨hone, hnone, -⟩ := h.signal
  · rw [hzero] at hpos
    exact absurd hpos (by decide)
  have hzero' : s'.sem .shellSemaphore = 0 := by
    rw [hsem]
    show Function.update s.sem .shellSemaphore (s.sem .shellSemaphore - 1) .shellSemaphore = 0
    rw [Function.update_self, hone]
    rfl
  have hmaster : s'.sem .masterSemaphore = s.sem .masterSemaphore := by
    rw [hsem]
    exact Function.update_of_ne (show Sem.masterSemaphore ≠ .shellSemaphore by simp) _ _
  have hnot : ¬ (0 < s.sem .masterSemaphore ∨ s.test ≠ .waiting) := by
    intro hover
    have := ((h.ending hover).2 (by rw [hold]; rfl)).2
    rw [hone] at this
    cases this
  have hnone' : ∀ r, r ≠ shellNo → (s'.proc r).place.pending = false := by
    intro r hr
    rw [hm.other hr]
    exact hnone r hr
  refine ⟨fun r hr => ?_, fun r hr hp => ?_, fun r t hr _ hp _ => ?_, .inl hzero', fun hover => ?_⟩
  · by_contra hrq
    rw [hm.other hrq] at hr
    exact hrq (h.waits r hr)
  · exact absurd hp (Bool.eq_false_iff.mp (hnone' r hr))
  · exact absurd hp (Bool.eq_false_iff.mp (hnone' r hr))
  · rw [hmaster, hm.test] at hover
    exact absurd hover hnot

theorem Handshake.created {u : SupPtr} {newAsid : Word} (h : Handshake s) (hc : Created shellNo u newAsid s s')
    (hpending : (s.proc shellNo).place.pending = true) (hold : (s.proc shellNo).place ≠ .waitShell)
    (hsem : s'.sem = s.sem) (htest : s'.test = s.test) : Handshake s' := by
  have hzero := h.idle hpending hold
  have hwaiting : (s'.proc shellNo).place = .waitShell := by
    rw [hc.shell]
  have hprogram : ∀ r, r ≠ shellNo → (s'.proc r).place.pending = true → r = s.next := by
    intro r hr hp
    by_contra hrn
    rw [hc.other r hr hrn, h.alone hold hr] at hp
    cases hp
  refine ⟨fun r hr => ?_, fun r _ _ => ⟨hwaiting, by rw [hsem, hzero]⟩, fun r t hr ht hrp htp => ?_,
    .inl (by rw [hsem, hzero]), fun hover => ?_⟩
  · by_contra hrq
    by_cases hrn : r = s.next
    · rw [hrn, hc.program] at hr
      cases hr
    · rw [hc.other r hrq hrn] at hr
      exact hrq (h.waits r hr)
  · exact (hprogram r hr hrp).trans (hprogram t ht htp).symm
  · rw [hsem, htest] at hover
    exact absurd hover (h.running hpending hold)

theorem Orderly.handshake_step (h : Orderly s) (hstep : Stepped L hd s e s') : Handshake s' := by
  cases hstep with
  | @flow e q d st place s' actor flow allowed goes =>
    obtain ⟨hold, rfl⟩ | ⟨a, hold, rfl, rfl⟩ | ⟨hold, hsems⟩ := flow.signals
    · exact h.handshake.woken hold allowed goes.toMoved goes.sem
    · exact h.handshake.signalled hold goes.toMoved goes.sem
    · obtain ⟨hshell, hmaster⟩ := hsems s.sem
      rw [← goes.sem] at hshell hmaster
      exact h.handshake.move goes.toMoved hshell hmaster (fun _ => flow.pending) hold flow.awake
  | @die q inp asid old =>
    by_cases hq : q = shellNo
    · subst hq
      exact h.handshake.killed (termprocess_shell s) rfl
    · exact h.handshake.move (termprocess_moved hq) (by simp) (by simp) (by simp [Place.pending]) (by simp [old]) (by simp)
  | @create q inp asid newAsid u supportFree old arg accepted popped created =>
    obtain ⟨rfl, -⟩ := h.named.accepted old accepted
    exact h.handshake.created (h.owners.created old _ u supportFree newAsid) (by rw [old]; rfl)
      (by simp [old]) rfl rfl
  | await old pass =>
    obtain ⟨hpos, rfl⟩ := passeren_eq_some pass
    have hshell : Function.update s.sem .masterSemaphore (s.sem .masterSemaphore - 1) .shellSemaphore = s.sem .shellSemaphore :=
      Function.update_of_ne (by simp) _ _
    obtain ⟨hnone, hwait⟩ := h.handshake.ending (.inl hpos)
    refine Handshake.settled h.handshake.waits hnone (fun hp => (hwait hp).1) ?_ fun _ hp => ?_
    · exact hshell ▸ h.handshake.signal.imp_right And.left
    · exact hshell.trans (hwait hp).2
  | kill old => exact h.handshake.killed (fun _ => rfl) rfl

/-- **Every step keeps the order.** -/
theorem Orderly.step (h : Orderly s) (hstep : sysStep L hd e s = some s') : Orderly s' :=
  ⟨h.owners.step hstep, h.named_step hstep, h.handshake_step (sysStep_stepped hstep)⟩

end Handshake

/-! ### Saved states -/

section Saved
variable {L : PoolLayout} {hd : Handlers} {q : Nat} {place : Place} {d : Doing} {st : State} {s s' : Sys} {e : SysEvent}

/-- A U-proc that has freed its support structure does not write to it. -/
theorem Flow.owned {loads : Addr → Word → Prop} {asid : Word} {place' : Place} {st' : State}
    (h : Flow loads asid st place d st' place') : place.owns = true ∨ st' = st := by
  cases h with
  | signal => exact .inr rfl
  | _ => exact .inl rfl

theorem Goes.state_other (h : Goes q d st place s s') {r : Nat}
    (hr : (s.proc r).sup ≠ (s.proc q).sup ∨ st = s.state q) : s'.state r = s.state r := by
  show s'.vm.general (s'.proc r).sup = s.vm.general (s.proc r).sup
  rw [h.toMoved.sup, h.general]
  by_cases hsup : (s.proc r).sup = (s.proc q).sup
  · obtain hr | hr := hr
    · exact absurd hsup hr
    · rw [hsup, Function.update_self, hr]
      rfl
  · exact Function.update_of_ne hsup _ _

/-- Nobody else writes the saved state of a U-proc that owns its support structure. -/
theorem Orderly.state_kept (h : Orderly s) (hstep : Stepped L hd s e s') {r : Nat} (hr : (s.proc r).place.owns = true)
    (hactor : e.actor ≠ some r) : s'.state r = s.state r := by
  cases hstep with
  | @flow e q d st place s' actor flow allowed goes =>
    refine goes.state_other ?_
    obtain hq | hst := flow.owned
    · refine .inl fun hsup => hactor ?_
      rw [h.owners.inj r q hr hq hsup]
      exact actor
    · exact .inr hst
  | @die q inp asid old =>
    show (termprocess q s).vm.general ((termprocess q s).proc r).sup = s.vm.general (s.proc r).sup
    by_cases hq : q = shellNo
    · subst hq
      rfl
    · rw [termprocess_vm, (termprocess_moved hq).sup]
  | @create q inp asid newAsid u supportFree old arg accepted popped created =>
    have hc := h.owners.created old (s.vm.initSupport hd u newAsid) u supportFree newAsid
    show (s.vm.initSupport hd u newAsid).general _ = s.vm.general (s.proc r).sup
    rw [hc.sup (Nat.ne_of_lt (h.owners.lt_next (Place.present hr))), Vm.general_initSupport]
  | await old pass =>
    obtain ⟨-, rfl⟩ := passeren_eq_some pass
    rfl
  | kill old => rfl

/-- Nobody else moves a U-proc that has something left to do, but wakes the shell. -/
theorem Orderly.place_running (h : Orderly s) (hstep : Stepped L hd s e s') (hpending : (s.proc q).place.pending = true)
    (hawake : (s.proc q).place ≠ .waitShell) (hactor : e.actor ≠ some q) : (s'.proc q).place = (s.proc q).place := by
  cases hstep with
  | @flow e r d st place s' actor flow allowed goes => exact goes.toMoved.other fun he => hactor (he ▸ actor)
  | @die r inp asid old =>
    have hqr : q ≠ r := fun he => hactor (congrArg some he.symm)
    by_cases hr : r = shellNo
    · subst hr
      rw [h.handshake.nobody old q] at hpending
      cases hpending
    · exact (termprocess_moved hr).other hqr
  | @create r inp asid newAsid u supportFree old arg accepted popped created =>
    have hqr : q ≠ r := fun he => hactor (congrArg some he.symm)
    have hc := h.owners.created old (s.vm.initSupport hd u newAsid) u supportFree newAsid
    have hnext := h.owners.lt_next (Place.pending_present hpending)
    exact congrArg Proc.place (hc.other q hqr (Nat.ne_of_lt hnext))
  | await old pass =>
    obtain ⟨-, rfl⟩ := passeren_eq_some pass
    rfl
  | kill old => exact absurd (.inr (by simp [old])) (h.handshake.running hpending hawake)

end Saved

/-! ### Runs -/

section Runs
variable {L : PoolLayout} {hd : Handlers} {vm : Vm} {u : SupPtr} {s₀ s : Sys} {es : List SysEvent}

theorem Started.named (h : Started hd vm u s) : Named s := by
  refine ⟨fun q hq => ?_, fun q hq => ?_, fun q a hq => ?_⟩
  · rw [h.present hq, h.shell]
    simp
  · rw [h.present (Place.working_present hq), h.shell, h.vm]
    simp [Vm.asid, Vm.initSupport, initSupportStructure]
  · have hpresent : (s.proc q).place ≠ .absent := by simp [hq]
    rw [h.present hpresent, h.shell] at hq
    cases hq

theorem Started.handshake (h : Started hd vm u s) : Handshake s := by
  have hpending : ∀ q, (s.proc q).place.pending = true → q = shellNo := fun q hq => h.attr Place.pending rfl hq
  refine ⟨fun q hq => h.present (by simp [hq]), fun q hq hp => ?_, fun q _ hq _ hp => ?_, .inl h.signals.2, fun hover => ?_⟩
  · exact absurd (hpending q hp) hq
  · exact absurd (hpending q hp) hq
  · rw [h.signals.1, h.test] at hover
    simp at hover

theorem Started.orderly (h : Started hd vm u s) : Orderly s := ⟨h.owners, h.named, h.handshake⟩

/-- In every state that is reached. -/
theorem run_orderly (hstart : Sys.start hd vm = some s₀) (hrun : Run (sysStep L hd) (fun _ _ => True) s₀ es s) :
    Orderly s := by
  obtain ⟨u, hu⟩ := start_started hstart
  exact hrun.invariant Orderly hu.orderly fun _ _ _ ho _ hstep => ho.step hstep

end Runs

end MultiPandOS
