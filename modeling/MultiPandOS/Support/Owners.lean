import MultiPandOS.Support.System

/-! Who has which support structure.

Every support structure is free or belongs to one U-proc, and nobody has a number from
`next` on. Every step keeps it, whatever the environment does (`Owners.step`). -/
namespace MultiPandOS

/-- The support structures that belong to U-procs. -/
def Sys.owned (s : Sys) : Set SupPtr := {u | ∃ q, (s.proc q).place.owns = true ∧ (s.proc q).sup = u}

/-- Every support structure is free or belongs to one U-proc. -/
structure Owners (s : Sys) : Prop where
  next : shellNo < s.next
  fresh : ∀ q, s.next ≤ q → (s.proc q).place = .absent
  nodup : s.supportFree.Nodup
  taken : ∀ q, (s.proc q).place.owns = true → (s.proc q).sup ∉ s.supportFree
  inj : ∀ q r, (s.proc q).place.owns = true → (s.proc r).place.owns = true → (s.proc q).sup = (s.proc r).sup → q = r

/-! ### A U-proc goes on -/

section Moves
variable {q : Nat} {place : Place} {s s' : Sys}

theorem Place.present (h : place.owns = true) : place ≠ .absent := by
  intro he
  rw [he] at h
  cases h

theorem Owners.busy (h : Owners s) : s.owned ⊆ {u | u ∉ s.supportFree} :=
  fun _ ⟨q, hq, hu⟩ => hu ▸ h.taken q hq

/-- Whoever has been created has a number. -/
theorem Owners.lt_next (h : Owners s) (hpresent : (s.proc q).place ≠ .absent) : q < s.next := by
  by_contra hge
  exact hpresent (h.fresh q (Nat.le_of_not_lt hge))

theorem Owners.move (h : Owners s) (hm : Moved q place s s') (hfree : s'.supportFree = s.supportFree)
    (hpresent : (s.proc q).place ≠ .absent) (howns : place.owns = true → (s.proc q).place.owns = true) :
    Owners s' := by
  refine ⟨hm.next ▸ h.next, fun r hr => ?_, hfree ▸ h.nodup, fun r hr => ?_, fun r t hr ht hsup => ?_⟩
  · rw [hm.next] at hr
    have hrq : r ≠ q := by
      rintro rfl
      exact hpresent (h.fresh r hr)
    rw [hm.other hrq]
    exact h.fresh r hr
  · rw [hm.sup, hfree]
    exact h.taken r (hm.attr howns hr)
  · rw [hm.sup, hm.sup] at hsup
    exact h.inj r t (hm.attr howns hr) (hm.attr howns ht) hsup

/-- `q` owns nothing any more. -/
theorem Owners.others (h : Owners s) (hm : Moved q place s s') (howns : (s.proc q).place.owns = true)
    (hnew : place.owns = false) {r : Nat} (hr : (s'.proc r).place.owns = true) :
    (s.proc r).place.owns = true ∧ (s.proc r).sup ≠ (s.proc q).sup := by
  have hrq : r ≠ q := by
    rintro rfl
    rw [hm.self, hnew] at hr
    cases hr
  rw [hm.other hrq] at hr
  exact ⟨hr, fun he => hrq (h.inj r q hr howns he)⟩

theorem Owners.dealloc (h : Owners s) (hm : Moved q place s s') (howns : (s.proc q).place.owns = true)
    (hnew : place.owns = false) (hfree : s'.supportFree = (s.proc q).sup :: s.supportFree) : Owners s' := by
  refine ⟨hm.next ▸ h.next, fun r hr => ?_, ?_, fun r hr => ?_, fun r t hr ht hsup => ?_⟩
  · rw [hm.next] at hr
    have hrq : r ≠ q := by
      rintro rfl
      exact Place.present howns (h.fresh r hr)
    rw [hm.other hrq]
    exact h.fresh r hr
  · rw [hfree]
    exact List.nodup_cons.mpr ⟨h.taken q howns, h.nodup⟩
  · obtain ⟨hr', hne⟩ := h.others hm howns hnew hr
    rw [hm.sup, hfree, List.mem_cons, not_or]
    exact ⟨hne, h.taken r hr'⟩
  · rw [hm.sup, hm.sup] at hsup
    exact h.inj r t (h.others hm howns hnew hr).1 (h.others hm howns hnew ht).1 hsup

theorem Owners.killed (h : Owners s) (habsent : ∀ r, (s'.proc r).place = .absent) (hnext : s'.next = s.next)
    (hfree : s'.supportFree = s.supportFree) : Owners s' := by
  have hnot : ∀ r, (s'.proc r).place.owns = true → False := by
    intro r hr
    rw [habsent] at hr
    cases hr
  exact ⟨hnext ▸ h.next, fun r _ => habsent r, hfree ▸ h.nodup, fun r hr => (hnot r hr).elim,
    fun r _ hr => (hnot r hr).elim⟩

/-! ### The shell launches a program -/

theorem accepted_asid {asid newAsid : Word} (h : ¬ badExecute asid newAsid) :
    asid = SHELL_ASID ∧ isAsid newAsid ∧ newAsid ≠ SHELL_ASID := by
  unfold badExecute at h
  rw [not_or, not_or, not_not] at h
  obtain ⟨hasid, hlow, hhigh⟩ := h
  have hone : SHELL_ASID.toInt = 1 := by decide
  rw [hone] at hlow
  have hhigh' : ¬ newAsid.toInt > 8 := hhigh
  have hnat : newAsid.toInt = newAsid.toNat := toInt_toNat (by omega)
  refine ⟨hasid, ⟨by omega, ?_⟩, fun he => hlow (by rw [he]; decide)⟩
  show newAsid.toNat ≤ 8
  omega

theorem allocateSupport_eq_some {u : SupPtr} {free supportFree : List SupPtr}
    (h : allocateSupport free = some (u, supportFree)) : free = u :: supportFree := by
  cases free with
  | nil => cases h
  | cons v rest =>
    obtain ⟨rfl, rfl⟩ := Prod.mk.inj (Option.some.inj h)
    rfl

/-- The shell has launched a program. -/
structure Created (q : Nat) (u : SupPtr) (asid : Word) (s s' : Sys) : Prop where
  shell : s'.proc q = {s.proc q with place := .waitShell}
  program : s'.proc s.next = ⟨u, asid, .code .user⟩
  other : ∀ r, r ≠ q → r ≠ s.next → s'.proc r = s.proc r

theorem Owners.created (h : Owners s) {asid : Word} (hold : (s.proc q).place = .executing asid) (vm : Vm) (u : SupPtr)
    (supportFree : List SupPtr) (newAsid : Word) :
    Created q u newAsid s (({s.setVm vm with supportFree := supportFree}.create u newAsid).goto q .waitShell) := by
  have hq : q ≠ s.next := Nat.ne_of_lt (h.lt_next (by simp [hold]))
  have hcreate : ∀ r, r ≠ s.next → Function.update s.proc s.next ⟨u, newAsid, .code .user⟩ r = s.proc r :=
    fun r hr => Function.update_of_ne hr _ _
  constructor
  · show Function.update _ q _ q = _
    rw [Function.update_self]
    show ({Function.update s.proc s.next ⟨u, newAsid, .code .user⟩ q with place := .waitShell} : Proc) = _
    rw [hcreate q hq]
  · exact (Function.update_of_ne (Ne.symm hq) _ _).trans (Function.update_self ..)
  · intro r hrq hr
    exact (Function.update_of_ne hrq _ _).trans (hcreate r hr)

section Created
variable {u : SupPtr} {a : Word} {r : Nat} (h : Created q u a s s')
include h

theorem Created.sup (hr : r ≠ s.next) : (s'.proc r).sup = (s.proc r).sup := by
  by_cases hrq : r = q
  · rw [hrq, h.shell]
  · rw [h.other r hrq hr]

theorem Created.asid (hr : r ≠ s.next) : (s'.proc r).asid = (s.proc r).asid := by
  by_cases hrq : r = q
  · rw [hrq, h.shell]
  · rw [h.other r hrq hr]

theorem Created.attr (attr : Place → Bool) (hq : attr .waitShell = attr (s.proc q).place) (hr : r ≠ s.next) :
    attr (s'.proc r).place = attr (s.proc r).place := by
  by_cases hrq : r = q
  · rw [hrq, h.shell]
    exact hq
  · rw [h.other r hrq hr]

end Created

theorem Owners.create {u : SupPtr} {a : Word} (h : Owners s) (hc : Created q u a s s')
    (howns : (s.proc q).place.owns = true) (hcons : s.supportFree = u :: s'.supportFree) (hnext : s'.next = s.next + 1) :
    Owners s' := by
  have hnodup := h.nodup
  rw [hcons, List.nodup_cons] at hnodup
  have hkept : ∀ r, r ≠ s.next → (s'.proc r).place.owns = true → (s.proc r).place.owns = true := by
    intro r hr hp
    rwa [hc.attr Place.owns howns.symm hr] at hp
  have hnotU : ∀ r, r ≠ s.next → (s'.proc r).place.owns = true → (s'.proc r).sup ≠ u := by
    intro r hr hp he
    refine h.taken r (hkept r hr hp) ?_
    rw [← hc.sup hr, he, hcons]
    exact List.mem_cons_self
  refine ⟨?_, fun r hr => ?_, hnodup.2, fun r hr => ?_, fun r t hr ht hsup => ?_⟩
  · rw [hnext]
    exact Nat.lt_succ_of_lt h.next
  · rw [hnext] at hr
    have hrq : r ≠ q := by
      rintro rfl
      exact Place.present howns (h.fresh r (by omega))
    rw [hc.other r hrq (by omega)]
    exact h.fresh r (by omega)
  · by_cases hrn : r = s.next
    · rw [hrn, hc.program]
      exact hnodup.1
    · have := h.taken r (hkept r hrn hr)
      rw [hcons, List.mem_cons, not_or] at this
      rw [hc.sup hrn]
      exact this.2
  · by_cases hrn : r = s.next
    · by_cases htn : t = s.next
      · rw [hrn, htn]
      · rw [hrn, hc.program] at hsup
        exact absurd hsup.symm (hnotU t htn ht)
    · by_cases htn : t = s.next
      · rw [htn, hc.program] at hsup
        exact absurd hsup (hnotU r hrn hr)
      · rw [hc.sup hrn, hc.sup htn] at hsup
        exact h.inj r t (hkept r hrn hr) (hkept t htn ht) hsup

end Moves

/-! ### Every step -/

section Steps
variable {L : PoolLayout} {hd : Handlers} {s s' : Sys} {e : SysEvent}

/-- **Every step keeps the owners.** -/
theorem Owners.step (h : Owners s) (hstep : sysStep L hd e s = some s') : Owners s' := by
  have hkeep : ∀ {q place s₁}, Moved q place s s₁ → s₁.supportFree = s.supportFree →
      (s.proc q).place.owns = true → Owners s₁ :=
    fun hm hfree howns => h.move hm hfree (Place.present howns) fun _ => howns
  cases sysStep_effect hstep with
  | calm old new inherits quiet => exact hkeep quiet.toMoved quiet.supportFree (Place.calm_owns old)
  | refill slot code touched miss index => exact ⟨h.next, h.fresh, h.nodup, h.taken, h.inj⟩
  | lock old pass locks mapped attached inherits =>
    obtain ⟨-, rfl⟩ := passeren_eq_some pass
    exact hkeep ⟨rfl, rfl, rfl⟩ rfl (Place.calm_owns old)
  | unlock old locks pending mapped inherits => exact hkeep ⟨rfl, rfl, rfl⟩ rfl (Place.locks_owns old)
  | pager old step => exact hkeep ⟨rfl, rfl, rfl⟩ rfl (by rw [old]; rfl)
  | free old => exact hkeep ⟨rfl, rfl, rfl⟩ rfl (by rw [old]; rfl)
  | dealloc old => exact h.dealloc ⟨rfl, rfl, rfl⟩ (by rw [old]; rfl) rfl rfl
  | signal old => exact h.move ⟨rfl, rfl, rfl⟩ rfl (by simp [old]) (by simp [Place.owns])
  | @die q _ _ old =>
    by_cases hq : q = shellNo
    · subst hq
      exact h.killed (termprocess_shell s) rfl rfl
    · exact h.move (termprocess_moved hq) (by simp) (by simp [old]) (by simp [Place.owns])
  | @create q _ _ newAsid u supportFree old arg accepted popped created =>
    have howns : (s.proc q).place.owns = true := by
      rw [old]
      rfl
    exact h.create (h.created old _ u supportFree newAsid) howns (allocateSupport_eq_some popped) rfl
  | wake old pass =>
    obtain ⟨-, rfl⟩ := passeren_eq_some pass
    exact hkeep ⟨rfl, rfl, rfl⟩ rfl (by rw [old]; rfl)
  | await old pass =>
    obtain ⟨-, rfl⟩ := passeren_eq_some pass
    exact ⟨h.next, h.fresh, h.nodup, h.taken, h.inj⟩
  | kill old => exact h.killed (fun _ => rfl) rfl rfl

end Steps

/-! ### The start -/

/-- The state that `test` starts. -/
structure Started (hd : Handlers) (vm : Vm) (u : SupPtr) (s : Sys) : Prop where
  vm : s.vm = (initSwapStructs {vm with frameIndex := 0, tlb := fun _ => ⟨0, 0⟩}).initSupport hd u SHELL_ASID
  nodup : (u :: s.supportFree).Nodup
  swapPool : s.sem .swapPoolSemaphore = 1
  signals : s.sem .masterSemaphore = 0 ∧ s.sem .shellSemaphore = 0
  shell : s.proc shellNo = ⟨u, SHELL_ASID, .code .user⟩
  other : ∀ q, q ≠ shellNo → (s.proc q).place = .absent
  next : s.next = 1
  test : s.test = .waiting

section Start
variable {hd : Handlers} {vm : Vm} {u : SupPtr} {s : Sys}

theorem start_started (hstart : Sys.start hd vm = some s) : ∃ u, Started hd vm u s := by
  obtain ⟨⟨u, supportFree⟩, hpop, rfl⟩ := Option.map_eq_some_iff.mp hstart
  have hnodup : (u :: supportFree).Nodup := by
    rw [← allocateSupport_eq_some hpop]
    decide
  exact ⟨u, rfl, hnodup, rfl, ⟨rfl, rfl⟩, rfl, fun q hq => by simp only [if_neg hq], rfl, rfl⟩

/-- Only the shell is there. -/
theorem Started.attr (h : Started hd vm u s) (attr : Place → Bool) (hattr : attr .absent = false) {q : Nat}
    (hq : attr (s.proc q).place = true) : q = shellNo := by
  by_contra hne
  rw [h.other q hne, hattr] at hq
  cases hq

theorem Started.present (h : Started hd vm u s) {q : Nat} (hq : (s.proc q).place ≠ .absent) : q = shellNo := by
  by_contra hne
  exact hq (h.other q hne)

theorem Started.owners (h : Started hd vm u s) : Owners s := by
  refine ⟨by rw [h.next]; decide, fun q hq => ?_, (List.nodup_cons.mp h.nodup).2, fun q hq => ?_, fun q r hq hr _ => ?_⟩
  · refine h.other q fun he => ?_
    rw [he, h.next] at hq
    exact absurd hq (by decide)
  · rw [h.attr Place.owns rfl hq, h.shell]
    exact (List.nodup_cons.mp h.nodup).1
  · exact (h.attr Place.owns rfl hq).trans (h.attr Place.owns rfl hr).symm

end Start

end MultiPandOS
