import MultiPandOS.Library.Simulation
import MultiPandOS.Support.Serving

/-! A memory of its own for every U-proc.

`seen` is what the U-procs notice of memory in a step: the words they load and store, the
characters that WRITETERMINAL takes out of their buffers and READTERMINAL puts into them, and
the image that a program starts with. `MemEvent.take` is the memory they expect, in which
nobody shares anything, nothing is paged out and a load finds what was stored last. It
accepts what is seen in every run of careful steps (`run_memories`): neither the sixteen
frames, nor the pager, nor the TLB can be noticed. -/
namespace MultiPandOS
open Paging Runs

/-! ### The memory that is expected -/

/-- The byte at `va` of the word it is in. -/
def byteAt (va : Addr) (w : Word) : Word := (w >>> (8 * (va.toNat % 4))) &&& 0xff

def setByteAt (va : Addr) (c w : Word) : Word :=
  let shift := 8 * (va.toNat % 4)
  (w &&& ~~~((0xff : Word) <<< shift)) ||| (c <<< shift)

/-- The memories of the U-procs, page by page. -/
abbrev Memories := Nat → PageNo → Page

namespace Memories

/-- The word of `q` at `va`, if `va` is in one of its pages. -/
def word (q : Nat) (va : Addr) (m : Memories) : Option Word := (pageOf va).map fun p => m q p (wordIndex va)

def setWord (q : Nat) (va : Addr) (w : Word) (m : Memories) : Option Memories :=
  (pageOf va).map fun p =>
    Function.update m q (Function.update (m q) p (Function.update (m q p) (wordIndex va) w))

end Memories

/-- What U-procs see of memory; a load finds nothing at an entry that names no frame. -/
inductive MemEvent where
  | launch (q : Nat) (image : PageNo → Page)
  | load (q : Nat) (va : Addr) (value : Option Word)
  | store (q : Nat) (va : Addr) (value : Word)
  | loadByte (q : Nat) (va : Addr) (c : Word)
  | storeByte (q : Nat) (va : Addr) (c : Word)

/-- What the memories become, none if they do not hold what has been loaded. -/
def MemEvent.take : MemEvent → Memories → Option Memories
  | .launch q image, m => some (Function.update m q image)
  | .load q va value, m => if value.isSome ∧ m.word q va = value then some m else none
  | .store q va value, m => m.setWord q va value
  | .loadByte q va c, m => if (m.word q va).map (byteAt va) = some c then some m else none
  | .storeByte q va c, m => (m.word q va).bind fun w => m.setWord q va (setByteAt va c w)

namespace Sys

/-- `q` accesses `va` and goes on. -/
def hits (s : Sys) (q : Nat) (va : Addr) : Option Word :=
  match lookup (accessHi (s.proc q).asid va) s.vm with
  | .hit lo => some lo
  | _ => none

/-- The program that a step has started. -/
def started (s s' : Sys) : List MemEvent :=
  if s.next < s'.next then [.launch s.next (flashImage (s'.proc s.next).asid s.vm)] else []

end Sys

/-- What U-procs see of memory in a step: what they load is read where the machine reads
it, and what WRITETERMINAL loads is the character it goes on to transmit. -/
def seen (L : PoolLayout) (s : Sys) : SysEvent → Sys → List MemEvent
  | .access q va value _, _ =>
    match s.hits q va, value with
    | none, _ => []
    | some lo, none => [.load q va ((frameAt L lo).map fun f => s.vm.swapFrames f (wordIndex va))]
    | some _, some v => [.store q va v]
  | .go q _, s' =>
    match (s.proc q).place with
    | .code (.writing i) =>
      match (s'.proc q).place with
      | .writeIo _ command => [.loadByte q (bufferAddr q i s) (command >>> 8)]
      | _ => []
    | .code (.reading _ len character) =>
      match s.hits q (bufferAddr q len s) with
      | some _ => [.storeByte q (bufferAddr q len s) character]
      | none => []
    | _ => s.started s'
  | .trap _ _, _ => []
  | .test, _ => []

/-! ### Between two faults -/

/-- Nobody faults, and `m` is what the pages contain. -/
structure Between (L : PoolLayout) (c : PtePtr → Option Page) (s : Sys) (m : Memories) : Prop where
  nobody : ∀ q, (s.proc q).place.faults = false
  atRest : AtRest L s.live c s.vm
  holds : ∀ q p, (s.proc q).place.mapped = true → c ((s.proc q).sup, p) = some (m q p)

section Memory
variable {L : PoolLayout} {hd : Handlers} {c : PtePtr → Option Page} {m : Memories} {q : Nat} {place : Place}
  {s s' : Sys} {e : SysEvent} {inp : Input}

/-- A step that leaves the pages alone. -/
theorem Between.kept (h : Between L c s m) (hnobody : ∀ q, (s'.proc q).place.faults = false) (hlive : s'.live = s.live)
    (htables : SameTables s.live s.vm s'.vm) (hpool : s'.vm.swapPool = s.vm.swapPool) (hdata : s'.vm.data = s.vm.data)
    (hproc : ∀ r, (s'.proc r).place.mapped = true → (s.proc r).place.mapped = true ∧ (s'.proc r).sup = (s.proc r).sup) :
    Between L c s' m := by
  obtain ⟨hframes, hrest⟩ := Prod.mk.inj hdata
  obtain ⟨hflash, -⟩ := Prod.mk.inj hrest
  refine ⟨hnobody, ?_, fun r p hr => ?_⟩
  · rw [hlive]
    exact h.atRest.same (table_same htables hpool hframes hflash)
  · obtain ⟨hmapped, hsup⟩ := hproc r hr
    rw [hsup]
    exact h.holds r p hmapped

theorem Moved.kept (h : Between L c s m) (hm : Moved q place s s') (hmapped : place.mapped = (s.proc q).place.mapped)
    (hnobody : ∀ q, (s'.proc q).place.faults = false) (htables : SameTables s.live s.vm s'.vm)
    (hpool : s'.vm.swapPool = s.vm.swapPool) (hdata : s'.vm.data = s.vm.data) : Between L c s' m :=
  h.kept hnobody (hm.live hmapped) htables hpool hdata fun r hr =>
    ⟨hm.attr (fun hp => hmapped ▸ hp) hr, hm.sup r⟩

theorem Quiet.kept (hbusy : s.live ⊆ {u | u ∉ s.supportFree}) (h : Between L c s m) (hq : Quiet q place s s')
    (hmapped : place.mapped = (s.proc q).place.mapped) (hnobody : ∀ q, (s'.proc q).place.faults = false)
    (hdata : s'.vm.data = s.vm.data) : Between L c s' m :=
  hq.toMoved.kept h hmapped hnobody (hq.tables.mono hbusy) hq.swapPool hdata

/-- Nobody is left with pages. -/
theorem Between.gone (h : Between L c s m) (hnone : ∀ r, (s.proc r).place.pending = false)
    (habsent : ∀ r, (s'.proc r).place = .absent) (hvm : s'.vm = s.vm) : Between L c s' m := by
  have hlive : s'.live = s.live := by
    refine Set.ext fun u => ⟨fun ⟨r, hr, _⟩ => ?_, fun ⟨r, hr, _⟩ => ?_⟩
    · rw [habsent] at hr
      cases hr
    · have hp := Place.mapped_pending hr
      rw [hnone r] at hp
      cases hp
  refine h.kept (fun r => by rw [habsent]; rfl) hlive (hvm ▸ ⟨fun _ _ => rfl, fun _ _ => rfl⟩) (congrArg _ hvm)
    (congrArg _ hvm) fun r hr => ?_
  rw [habsent] at hr
  cases hr

theorem touched_actor {va : Addr} (h : s.touched e = some (q, va)) : e.actor = some q := by
  cases e with
  | access r va' value inp =>
    obtain ⟨rfl, -⟩ := Prod.mk.inj (Option.some.inj h)
    rfl
  | go r inp =>
    simp only [Sys.touched] at h
    split at h
    · obtain ⟨rfl, -⟩ := Prod.mk.inj (Option.some.inj h)
      rfl
    · obtain ⟨rfl, -⟩ := Prod.mk.inj (Option.some.inj h)
      rfl
    · cases h
  | trap r st => cases h
  | test => cases h

theorem started_of_next (h : s'.next = s.next) : s.started s' = [] := by
  unfold Sys.started
  rw [h]
  exact if_neg (Nat.lt_irrefl _)

/-- A step outside the code of a U-proc, between two faults. -/
theorem Between.step (h : Between L c s m) (hi : Inv L s) (hcode : ∀ q k, e.actor = some q → (s.proc q).place ≠ .code k)
    (hstep : sysStep L hd e s = some s') :
    ∃ c' m', exec MemEvent.take (s.started s') m = some m' ∧ Between L c' s' m' := by
  have hnobody := (sysStep_stepped hstep).nobody h.nobody hcode hi.owners
  have hdata : s'.vm.data = s.vm.data := by
    refine sysStep_data hcode (fun q at' k _ hp => ?_) hstep
    have hfaults := h.nobody q
    rw [hp] at hfaults
    cases hfaults
  have hkept : Between L c s' m → s'.next = s.next →
      ∃ c' m', exec MemEvent.take (s.started s') m = some m' ∧ Between L c' s' m' :=
    fun hb hnext => ⟨c, m, by rw [started_of_next hnext]; rfl, hb⟩
  have hsame : ∀ {vm : Vm}, vm = s.vm → SameTables s.live s.vm vm := by
    rintro vm rfl
    exact ⟨fun _ _ => rfl, fun _ _ => rfl⟩
  cases sysStep_effect hstep with
  | calm old new inherits quiet =>
    exact hkept (quiet.kept hi.live_busy h ((Place.calm_mapped new).trans (Place.calm_mapped old).symm) hnobody hdata) quiet.next
  | refill slot code touched miss index => exact absurd code (hcode _ _ (touched_actor touched))
  | @lock e q place s₁ old pass locks mapped attached inherits =>
    obtain ⟨-, hpass⟩ := passeren_eq_some pass
    have hm : Moved q place s (s₁.goto q place) := by
      rw [hpass]
      exact ⟨rfl, rfl, rfl⟩
    have hvm : (s₁.goto q place).vm = s.vm := by
      rw [hpass]
      rfl
    exact hkept (hm.kept h (mapped.trans (Place.calm_mapped old).symm) hnobody (hsame hvm) (congrArg _ hvm) hdata) hm.next
  | @unlock e q place old locks pending mapped inherits =>
    have hm : Moved q place s ((s.verhogen .swapPoolSemaphore).goto q place) := ⟨rfl, rfl, rfl⟩
    exact hkept (hm.kept h mapped hnobody (hsame rfl) rfl rfl) rfl
  | @pager q k inp at' r old step =>
    have hfaults := h.nobody q
    rw [old] at hfaults
    cases hfaults
  | @free q inp asid old =>
    have hmapped : (s.proc q).place.mapped = true := by
      rw [old]
      rfl
    have hm : Moved q (.terminate .unlock asid) s ((s.setVm (freeSwapFrames asid s.vm)).goto q (.terminate .unlock asid)) :=
      ⟨rfl, rfl, rfl⟩
    have hasid : s.vm.asid (s.proc q).sup = asid :=
      (hi.memory.held q (Place.mapped_owns hmapped)).trans (hi.handed old).symm
    refine hkept ⟨hnobody, ?_, fun r p hr => ?_⟩ rfl
    · rw [hm.live_diff hi.owners hmapped rfl]
      have hfree := h.atRest.free hi.memory.paged ⟨q, hmapped, rfl⟩
      rwa [hasid] at hfree
    · rw [hm.sup]
      exact h.holds r p (hm.attr (fun _ => hmapped) hr)
  | @dealloc q inp asid old =>
    have hm : Moved q (.terminate .signal asid) s ({s.setVm (s.vm.setAsid (s.proc q).sup 0) with
        supportFree := deallocateSupport (s.proc q).sup s.supportFree}.goto q (.terminate .signal asid)) := ⟨rfl, rfl, rfl⟩
    have hnot : (s.proc q).sup ∉ s.live := by
      intro hu
      obtain ⟨r, hr, hu⟩ := hu
      have hrq := hi.owners.inj r q (Place.mapped_owns hr) (by rw [old]; rfl) hu
      rw [hrq, old] at hr
      cases hr
    exact hkept (hm.kept h (by rw [old]; rfl) hnobody (sameTables_setAsid hnot 0 s.vm) rfl rfl) rfl
  | @signal q inp asid old =>
    have hm : Moved q (.terminate .die asid) s ((s.verhogen (if asid = SHELL_ASID then .masterSemaphore else
        .shellSemaphore)).goto q (.terminate .die asid)) := ⟨rfl, rfl, rfl⟩
    exact hkept (hm.kept h (by rw [old]; rfl) hnobody (hsame rfl) rfl rfl) rfl
  | @die q inp asid old =>
    refine hkept ?_ (by simp)
    by_cases hq : q = shellNo
    · subst hq
      exact h.gone (hi.orderly.handshake.nobody old) (termprocess_shell s) (termprocess_vm _ _)
    · have hm := termprocess_moved (s := s) hq
      exact hm.kept h (by rw [old]; rfl) hnobody (hsame (by simp)) (by simp) hdata
  | @create q inp asid newAsid u supportFree old arg accepted popped created =>
    obtain ⟨-, hasid, -⟩ := accepted_asid accepted
    have hcons := allocateSupport_eq_some popped
    have hc := hi.owners.created old (s.vm.initSupport hd u newAsid) u supportFree newAsid
    have hlive := hc.live (hi.owners.fresh s.next (Nat.le_refl _)) (by rw [old]; rfl)
    have hu : u ∉ s.live := fun hu => hi.live_busy hu (by simp [hcons])
    generalize hs' : (({s.setVm (s.vm.initSupport hd u newAsid) with supportFree := supportFree}.create u newAsid).goto q
      .waitShell : Sys) = s' at *
    have hnext : s'.next = s.next + 1 := by
      subst hs'
      rfl
    have hvm : s'.vm = s.vm.initSupport hd u newAsid := by
      subst hs'
      rfl
    refine ⟨fun k => if k.1 = u then some (flashImage newAsid s.vm k.2) else c k,
      Function.update m s.next (flashImage newAsid s.vm), ?_, hnobody, ?_, fun r p hr => ?_⟩
    · rw [Sys.started, if_pos (by omega), hc.program]
      rfl
    · rw [hlive, hvm]
      exact h.atRest.launch hi.memory.paged hu hasid
    · by_cases hrn : r = s.next
      · subst hrn
        rw [hc.program, Function.update_self]
        exact if_pos rfl
      · rw [hc.attr Place.mapped (by rw [old]; rfl) hrn] at hr
        have hne : (s.proc r).sup ≠ u := fun he => hu ⟨r, hr, he⟩
        rw [hc.sup hrn, Function.update_of_ne hrn]
        exact (if_neg hne).trans (h.holds r p hr)
  | @wake q inp s₁ old pass =>
    have hm := passeren_ldst pass q
    have hquiet := (Quiet.refl q s₁).ldst
    obtain ⟨-, rfl⟩ := passeren_eq_some pass
    exact hkept (hm.kept h (by rw [old]; rfl) hnobody (hquiet.tables.mono hi.live_busy) hquiet.swapPool hdata) hm.next
  | await old pass =>
    obtain ⟨-, rfl⟩ := passeren_eq_some pass
    exact hkept ⟨h.nobody, h.atRest, h.holds⟩ rfl
  | kill old =>
    have hgone := hi.protocol.master (.inr (by simp [old]))
    exact hkept (h.gone (hi.protocol.over hgone) (fun _ => rfl) rfl) rfl

end Memory

/-! ### Accesses -/

section Access
variable {L : PoolLayout} {hd : Handlers} {c : PtePtr → Option Page} {m : Memories} {q : Nat} {va : Addr}
  {s s' : Sys} {e : SysEvent} {inp : Input}

/-- An access that goes on, to the page `p` in the frame `f`. -/
structure Hit (L : PoolLayout) (s : Sys) (q : Nat) (va : Addr) (lo : Word) (p : PageNo) (f : Frame) : Prop where
  hits : s.hits q va = some lo
  page : pageOf va = some p
  valid : (s.vm.pte ((s.proc q).sup, p)).valid
  entry : lo = (s.vm.pte ((s.proc q).sup, p)).entryLo
  frame : frameAt L lo = some f

theorem Hit.content {lo : Word} {p : PageNo} {f : Frame} (hh : Hit L s q va lo p f) (h : Between L c s m)
    (hq : (s.proc q).place.mapped = true) : s.vm.swapFrames f = m q p := by
  have hmap : (s.vm.table L s.live).map ((s.proc q).sup, p) = some f :=
    table_map_eq_some.mpr ⟨⟨q, hq, rfl⟩, hh.valid, hh.entry ▸ hh.frame⟩
  have hcontents := h.atRest.contents ((s.proc q).sup, p) ⟨q, hq, rfl⟩
  rw [h.holds q p hq, Table.content_of_map hmap] at hcontents
  exact (Option.some.inj hcontents).symm

theorem Hit.word {lo : Word} {p : PageNo} {f : Frame} (hh : Hit L s q va lo p f) (h : Between L c s m)
    (hq : (s.proc q).place.mapped = true) : m.word q va = some (s.vm.swapFrames f (wordIndex va)) := by
  rw [Memories.word, hh.page, Option.map_some, hh.content h hq]

/-- A store changes a word of the memory of `q`. -/
theorem Between.store (h : Between L c s m) (hi : Inv L s) (hq : (s.proc q).place.mapped = true) {lo : Word} {p : PageNo}
    {f : Frame} (hh : Hit L s q va lo p f) (w : Word) :
    ∃ c' m', m.setWord q va w = some m' ∧ Between L c' (s.setVm (storeWord L lo (wordIndex va) w s.vm)) m' := by
  have hk : (s.proc q).sup ∈ s.live := ⟨q, hq, rfl⟩
  have hset : m.setWord q va w =
      some (Function.update m q (Function.update (m q) p (Function.update (m q p) (wordIndex va) w))) := by
    rw [Memories.setWord, hh.page, Option.map_some]
  refine ⟨Access.write (.store ((s.proc q).sup, p) (wordIndex va) w) c, _, hset, h.nobody, ?_, fun r p' hr => ?_⟩
  · have hstore := h.atRest.store hi.memory.paged hk hh.valid (wordIndex va) w
    rw [← hh.entry] at hstore
    exact hstore
  · show Access.write (.store ((s.proc q).sup, p) (wordIndex va) w) c ((s.proc r).sup, p') = _
    by_cases hrq : r = q
    · subst hrq
      by_cases hp : p' = p
      · subst hp
        simp [Access.write, h.holds r p' hq]
      · have hne : ((s.proc r).sup, p') ≠ ((s.proc r).sup, p) := fun he => hp (Prod.mk.inj he).2
        simp only [Access.write, Function.update_of_ne hne, Function.update_self, Function.update_of_ne hp]
        exact h.holds r p' hq
    · have hne : ((s.proc r).sup, p') ≠ ((s.proc q).sup, p) := fun he =>
        hrq (hi.owners.inj r q (Place.mapped_owns hr) (Place.mapped_owns hq) (Prod.mk.inj he).1)
      simp only [Access.write, Function.update_of_ne hne, Function.update_of_ne hrq]
      exact h.holds r p' hr

theorem Sys.setState_saved (q : Nat) (i : Fin 2) (st : State) (s : Sys) :
    ((s.setState q i st).vm.supportPool (s.proc q).sup).supExceptState i = st := by
  simp [Sys.setState]

/-- A page that is not in memory is passed up to the pager. -/
theorem Between.fault (h : Between L c s m) (hi : Inv L s) {k : Code} (hk : (s.proc q).place = .code k) {st : State}
    (hmissing : ∀ p, arrayIndex USERPGTBLSIZE (findPageIndex st.entryHi) = some p →
      ¬ (s.vm.pte ((s.proc q).sup, p)).valid) (hs' : s' = (s.setState q PGFAULTEXCEPT st).goto q (.fault k)) :
    (s'.proc q).place = .fault k ∧ Serving L c s' ∧
      ∀ r p, (s'.proc r).place.mapped = true → c ((s'.proc r).sup, p) = some (m r p) := by
  have hmapped : (s.proc q).place.mapped = true := by
    rw [hk]
    rfl
  have hquiet : Quiet q (.fault k) s s' := by
    rw [hs']
    exact ((Quiet.refl q s).setState _ _).goto _
  have hsaved : (s'.vm.supportPool (s.proc q).sup).supExceptState PGFAULTEXCEPT = st := by
    rw [hs']
    exact Sys.setState_saved q PGFAULTEXCEPT st s
  have hdata : s'.vm.data = s.vm.data := by
    rw [hs']
    rfl
  obtain ⟨hframes, hrest⟩ := Prod.mk.inj hdata
  obtain ⟨hflash, -⟩ := Prod.mk.inj hrest
  have htables := hquiet.tables.mono hi.live_busy
  refine ⟨hquiet.self, .faulted (.inl hquiet.self) (fun p hp => ?_) ?_, fun r p hr => ?_⟩
  · rw [hquiet.sup] at hp ⊢
    rw [hsaved] at hp
    rw [htables.pte ((s.proc q).sup, p) ⟨q, hmapped, rfl⟩]
    exact hmissing p hp
  · rw [hquiet.toMoved.live (by rw [hk]; rfl)]
    exact h.atRest.same (table_same htables hquiet.swapPool hframes hflash)
  · rw [hquiet.sup]
    exact h.holds r p (hquiet.toMoved.attr (fun _ => hmapped) hr)

/-- A fault of the refill handler leaves the pages alone. -/
theorem Between.strayRefill (h : Between L c s m) (hi : Inv L s) {k : Code} (hk : (s.proc q).place = .code k)
    (hs' : s' = strayRefill q inp s) :
    ((s'.proc q).place = .code k ∨ (s'.proc q).place = .general) ∧ Between L c s' m := by
  obtain ⟨-, hs⟩ | ⟨-, hs⟩ := strayRefill_cases q inp s
  · have hquiet : Quiet q .general s s' := by
      rw [hs', hs]
      exact ((Quiet.refl q s).setState _ _).goto _
    have hmapped : Place.general.mapped = (s.proc q).place.mapped := by
      rw [hk]
      rfl
    have hdata : s'.vm.data = s.vm.data := by
      rw [hs', hs]
      rfl
    exact ⟨.inr hquiet.self, hquiet.kept hi.live_busy h hmapped (hquiet.toMoved.nobody h.nobody rfl) hdata⟩
  · rw [hs', hs]
    exact ⟨.inl hk, h⟩

/-- An access of `q` refills the TLB or starts a fault, which nobody sees, or goes on. -/
theorem Between.touch (h : Between L c s m) (hi : Inv L s) (hm : Mirrored s.live s.vm) {k : Code}
    (hk : (s.proc q).place = .code k) {done : Word → Sys} (hstep : touch q k va inp done s = some s') :
    (s.hits q va = none ∧
      ((s'.proc q).place = .code k ∨ (s'.proc q).place = .fault k ∨ (s'.proc q).place = .general) ∧
      Serving L c s' ∧ ∀ r p, (s'.proc r).place.mapped = true → c ((s'.proc r).sup, p) = some (m r p)) ∨
    ∃ lo p f, Hit L s q va lo p f ∧ s' = done lo := by
  have hmapped : (s.proc q).place.mapped = true := by
    rw [hk]
    rfl
  obtain ⟨p, hmiss, -, rfl⟩ | ⟨hmiss, -, hstray⟩ | ⟨hinvalid, hs'⟩ | ⟨lo, hlook, rfl⟩ := touch_cases hstep
  · refine .inl ⟨by simp only [Sys.hits, hmiss], .inl hk, .idle h.nobody ?_, h.holds⟩
    exact h.atRest.same (table_same ⟨fun _ _ => rfl, fun _ _ => rfl⟩ rfl rfl rfl)
  · obtain ⟨hplace, hbetween⟩ := h.strayRefill hi hk hstray
    refine .inl ⟨by simp only [Sys.hits, hmiss], ?_, .idle hbetween.nobody hbetween.atRest, hbetween.holds⟩
    exact hplace.imp_right .inr
  · obtain ⟨p, hp, hv⟩ := hm.fault hi hmapped hinvalid
    obtain ⟨hplace, hserving, hholds⟩ := h.fault hi hk (fun p' hp' => by
      obtain rfl : p = p' := Option.some.inj (hp.symm.trans hp')
      exact hv) hs'
    exact .inl ⟨by simp only [Sys.hits, hinvalid], .inr (.inl hplace), hserving, hholds⟩
  · obtain ⟨p, f, hpage, hv, hlo, hf⟩ := hm.hit hi hmapped hlook
    exact .inr ⟨lo, p, f, ⟨by simp only [Sys.hits, hlook], hpage, hv, hlo, hf⟩, rfl⟩

/-- The pages contain `m`, whoever is being served. -/
def Remembered (L : PoolLayout) (s : Sys) (m : Memories) : Prop :=
  ∃ c, Serving L c s ∧ ∀ q p, (s.proc q).place.mapped = true → c ((s.proc q).sup, p) = some (m q p)

theorem Between.remembered (h : Between L c s m) : Remembered L s m := ⟨c, .idle h.nobody h.atRest, h.holds⟩

/-- `q` goes on with its own state. -/
theorem Between.quiet {place : Place} (h : Between L c s m) (hbusy : s.live ⊆ {u | u ∉ s.supportFree})
    (hq : (s.proc q).place.mapped = true) (hquiet : Quiet q place s s') (hplace : place.calm = true)
    (hfaults : place.faults = false) (hdata : s'.vm.data = s.vm.data) : Remembered L s' m :=
  (hquiet.kept hbusy h ((Place.calm_mapped hplace).trans hq.symm) (hquiet.toMoved.nobody h.nobody hfaults)
    hdata).remembered

theorem Between.access (h : Between L c s m) (hi : Inv L s) (hm : Mirrored s.live s.vm) {value : Option Word}
    (hstep : sysStep L hd (.access q va value inp) s = some s') :
    ∃ m', exec MemEvent.take (seen L s (.access q va value inp) s') m = some m' ∧ Remembered L s' m' := by
  simp only [sysStep] at hstep
  split at hstep
  · rename_i hk
    have hmapped : (s.proc q).place.mapped = true := by
      rw [hk]
      rfl
    obtain ⟨hnone, -, hserving, hholds⟩ | ⟨lo, p, f, hh, rfl⟩ := h.touch hi hm hk hstep
    · exact ⟨m, by simp only [seen, hnone]; rfl, c, hserving, hholds⟩
    · cases value with
      | none =>
        refine ⟨m, ?_, h.remembered⟩
        simp only [seen, hh.hits, hh.frame, exec, MemEvent.take, hh.word h hmapped, Option.map_some, Option.isSome_some,
          true_and, if_true, Option.bind_some]
      | some v =>
        obtain ⟨c', m', hset, hstored⟩ := h.store hi hmapped hh v
        refine ⟨m', ?_, hstored.remembered⟩
        simp only [seen, hh.hits, exec, MemEvent.take, hset, Option.bind_some]
  · cases hstep

/-- The character of a command of the terminal. -/
theorem command_char (w : Word) (va : Addr) : ((byteAt va w <<< 8) ||| TRANSMITCHAR) >>> 8 = byteAt va w := by
  have htrans : TRANSMITCHAR >>> 8 = 0#32 := by decide
  have hbyte : (byteAt va w).toNat ≤ 255 := by
    rw [byteAt, BitVec.toNat_and]
    exact Nat.and_le_right
  have hshift : (byteAt va w <<< 8) >>> 8 = byteAt va w := by
    refine BitVec.eq_of_toNat_eq ?_
    rw [BitVec.toNat_ushiftRight, BitVec.toNat_shiftLeft, Nat.shiftRight_eq_div_pow, Nat.shiftLeft_eq,
      Nat.mod_eq_of_lt (by omega)]
    omega
  rw [BitVec.ushiftRight_or_distrib, htrans, BitVec.or_zero, hshift]

theorem loadByte_eq {lo : Word} {f : Frame} (hf : frameAt L lo = some f) (va : Addr) (vm : Vm) :
    loadByte L lo va vm = byteAt va (vm.swapFrames f (wordIndex va)) := by
  simp only [loadByte, hf, byteAt]

theorem storeByte_eq {lo : Word} {f : Frame} (hf : frameAt L lo = some f) (va : Addr) (ch : Word) (vm : Vm) :
    storeByte L lo va ch vm =
      storeWord L lo (wordIndex va) (setByteAt va ch (vm.swapFrames f (wordIndex va))) vm := by
  simp only [storeByte, hf, setByteAt]

theorem Between.writeChar {i : Nat} (h : Between L c s m) (hi : Inv L s) (hm : Mirrored s.live s.vm)
    (hk : (s.proc q).place = .code (.writing i)) (hstep : writeChar L q i inp s = some s') :
    ∃ m', exec MemEvent.take (seen L s (.go q inp) s') m = some m' ∧ Remembered L s' m' := by
  have hmapped : (s.proc q).place.mapped = true := by
    rw [hk]
    rfl
  unfold MultiPandOS.writeChar at hstep
  by_cases hend : (i : Int) < ((s.state q).regA2).toInt
  · rw [if_pos hend] at hstep
    obtain ⟨-, hplace, hserving, hholds⟩ | ⟨lo, p, f, hh, rfl⟩ := h.touch hi hm hk hstep
    · refine ⟨m, ?_, c, hserving, hholds⟩
      obtain hplace | hplace | hplace := hplace
      all_goals
        simp only [seen, hk, hplace]
        rfl
    · have hquiet := (Quiet.refl q s).goto
        (.writeIo i ((loadByte L lo (bufferAddr q i s) s.vm <<< 8) ||| TRANSMITCHAR))
      refine ⟨m, ?_, h.quiet hi.live_busy hmapped hquiet rfl rfl rfl⟩
      simp only [seen, hk, hquiet.self]
      rw [loadByte_eq hh.frame, command_char]
      simp only [exec, MemEvent.take, hh.word h hmapped, Option.map_some, if_true, Option.bind_some]
  · rw [if_neg hend] at hstep
    obtain rfl := Option.some.inj hstep
    have hquiet := ((Quiet.refl q s).setA0 (s.state q).regA2).goto .writeDone
    refine ⟨m, ?_, h.quiet hi.live_busy hmapped hquiet rfl rfl rfl⟩
    simp only [seen, hk, hquiet.self]
    rfl

theorem Between.readChar {asid : Word} {len : Nat} {character : Word} (h : Between L c s m) (hi : Inv L s)
    (hm : Mirrored s.live s.vm) (hk : (s.proc q).place = .code (.reading asid len character))
    (hstep : readChar L q asid len character inp s = some s') :
    ∃ m', exec MemEvent.take (seen L s (.go q inp) s') m = some m' ∧ Remembered L s' m' := by
  have hmapped : (s.proc q).place.mapped = true := by
    rw [hk]
    rfl
  unfold MultiPandOS.readChar at hstep
  obtain ⟨hnone, -, hserving, hholds⟩ | ⟨lo, p, f, hh, rfl⟩ := h.touch hi hm hk hstep
  · exact ⟨m, by simp only [seen, hk, hnone]; rfl, c, hserving, hholds⟩
  · obtain ⟨c', m', hset, hstored⟩ := h.store hi hmapped hh
      (setByteAt (bufferAddr q len s) character (s.vm.swapFrames f (wordIndex (bufferAddr q len s))))
    rw [← storeByte_eq hh.frame] at hstored
    have hquiet := Quiet.refl q (s.setVm (storeByte L lo (bufferAddr q len s) character s.vm))
    refine ⟨m', ?_, ?_⟩
    · simp only [seen, hk, hh.hits, exec, MemEvent.take, hh.word h hmapped, hset, Option.bind_some]
    · by_cases hend : character = 10
      · rw [if_pos hend]
        exact hstored.quiet hi.live_busy hmapped ((hquiet.setA0 _).goto .readDone) rfl rfl rfl
      · rw [if_neg hend]
        exact hstored.quiet hi.live_busy hmapped (hquiet.goto (.readLoop asid (len + 1))) rfl rfl rfl

end Access

/-! ### Runs -/

section Runs
variable {L : PoolLayout} {hd : Handlers} {c : PtePtr → Option Page} {m : Memories} {q : Nat} {vm : Vm} {s₀ s s' : Sys}
  {e : SysEvent} {es : List SysEvent}

/-- Outside the code of a U-proc only the start of a program is seen. -/
theorem seen_eq (hcode : ∀ q k, e.actor = some q → (s.proc q).place ≠ .code k) (hstep : sysStep L hd e s = some s') :
    seen L s e s' = s.started s' := by
  cases e with
  | access r va value inp =>
    simp only [sysStep] at hstep
    split at hstep
    · rename_i hk
      exact absurd hk (hcode r _ rfl)
    · cases hstep
  | trap r st =>
    simp only [sysStep] at hstep
    split at hstep
    · rename_i hk
      exact absurd hk.1 (hcode r _ rfl)
    · cases hstep
  | go r inp =>
    have hnot := hcode r
    simp only [seen]
    split
    · rename_i hk
      exact absurd hk (hnot _ rfl)
    · rename_i hk
      exact absurd hk (hnot _ rfl)
    · rfl
  | test =>
    cases sysStep_stepped hstep with
    | flow actor flow allowed goes => cases actor
    | await old pass =>
      obtain ⟨-, rfl⟩ := passeren_eq_some pass
      exact (started_of_next rfl).symm
    | kill old => exact (started_of_next rfl).symm

/-- Nobody sees a fault. -/
theorem Serving.remembered (hq : (s.proc q).place.faults = true)
    (hholds : ∀ q p, (s.proc q).place.mapped = true → c ((s.proc q).sup, p) = some (m q p)) (hactor : e.actor = some q)
    (hstep : sysStep L hd e s = some s') (hserving : Serving L c s') :
    ∃ m', exec MemEvent.take (seen L s e s') m = some m' ∧ Remembered L s' m' := by
  obtain ⟨place, hm, -⟩ := sysStep_faulting hq hactor hstep
  have hmapped := (Place.faults_pending hq).2.2
  have hcode : ∀ r k, e.actor = some r → (s.proc r).place ≠ .code k := by
    intro r k hr hk
    obtain rfl := Option.some.inj (hactor.symm.trans hr)
    rw [hk] at hq
    cases hq
  refine ⟨m, ?_, c, hserving, fun r p hr => ?_⟩
  · rw [seen_eq hcode hstep, started_of_next hm.next]
    rfl
  · rw [hm.sup]
    exact hholds r p (hm.attr (fun _ => hmapped) hr)

/-- Nor the end of another program. -/
theorem Serving.unseen {r : Nat} {inp : Input} {asid : Word} (h : Serving L c s)
    (hholds : ∀ q p, (s.proc q).place.mapped = true → c ((s.proc q).sup, p) = some (m q p))
    (hr : (s.proc r).place = .terminate .die asid) (hm : Moved r .absent s s') (hvm : s'.vm = s.vm) :
    ∃ m', exec MemEvent.take (seen L s (.go r inp) s') m = some m' ∧ Remembered L s' m' := by
  refine ⟨m, ?_, c, h.other (by rw [hr]; rfl) hm hvm, fun q p hq => ?_⟩
  · simp only [seen, hr, started_of_next hm.next]
    rfl
  · rw [hm.sup]
    exact hholds q p (hm.attr (by simp [Place.mapped]) hq)

theorem Between.go {inp : Input} {k : Code} (h : Between L c s m) (hi : Inv L s) (hm : Mirrored s.live s.vm)
    (hk : (s.proc q).place = .code k) (hstep : proceed L hd q inp s = some s') :
    ∃ m', exec MemEvent.take (seen L s (.go q inp) s') m = some m' ∧ Remembered L s' m' := by
  unfold proceed at hstep
  simp only [hk] at hstep
  cases k with
  | user => cases hstep
  | writing i => exact h.writeChar hi hm hk hstep
  | reading asid len character => exact h.readChar hi hm hk hstep

/-- **Every step** within the rule shows the U-procs what their memories hold. -/
theorem Remembered.step (h : Remembered L s m) (hi : Inv L s) (hm : Mirrored s.live s.vm) (hc : Careful s e)
    (hstep : sysStep L hd e s = some s') :
    ∃ m', exec MemEvent.take (seen L s e s') m = some m' ∧ Remembered L s' m' := by
  obtain ⟨c, hserving, hholds⟩ := h
  cases hserving with
  | idle nobody atRest =>
    have hb : Between L c s m := ⟨nobody, atRest, hholds⟩
    by_cases hcode : ∀ q k, e.actor = some q → (s.proc q).place ≠ .code k
    · obtain ⟨c', m', htake, hb'⟩ := hb.step hi hcode hstep
      rw [seen_eq hcode hstep]
      exact ⟨m', htake, hb'.remembered⟩
    · push Not at hcode
      obtain ⟨q, k, hactor, hk⟩ := hcode
      cases e with
      | access r va value inp => exact hb.access hi hm hstep
      | trap r st =>
        obtain rfl := Option.some.inj hactor
        simp only [sysStep] at hstep
        split at hstep
        · obtain rfl := Option.some.inj hstep
          have hquiet := ((Quiet.refl r s).setState GENERALEXCEPT st).goto .general
          exact ⟨m, rfl, hb.quiet hi.live_busy (by rw [hk]; rfl) hquiet rfl rfl rfl⟩
        · cases hstep
      | go r inp =>
        obtain rfl := Option.some.inj hactor
        exact hb.go hi hm hk hstep
      | test => cases hactor
  | @faulted q k place missing atRest =>
    have hfaults : (s.proc q).place.faults = true := by
      obtain hk | hk := place
      all_goals
        rw [hk]
        rfl
    obtain ⟨hq, hq', -⟩ := Place.faults_pending hfaults
    obtain hactor | ⟨r, inp, asid, hrq, rfl, hr, hmoved, hvm⟩ := hi.orderly.turn hq hq' hstep
    · refine Serving.remembered hfaults hholds hactor hstep ?_
      obtain ⟨inp, rfl, hgo⟩ := sysStep_go hactor (by obtain hk | hk := place <;> simp [hk]) hstep
      unfold proceed at hgo
      obtain hk | hk := place
      · exact .enter hi hk missing atRest (by simpa only [hk] using hgo)
      · exact .choose hi hk missing atRest (by simpa only [hk] using hgo)
    · exact Serving.unseen (.faulted place missing atRest) hholds hr hmoved hvm
  | @busy q at' k p f vm₀ place phase =>
    have hfaults : (s.proc q).place.faults = true := by
      rw [place]
      rfl
    obtain ⟨hq, hq', -⟩ := Place.faults_pending hfaults
    obtain hactor | ⟨r, inp, asid, hrq, rfl, hr, hmoved, hvm⟩ := hi.orderly.turn hq hq' hstep
    · refine Serving.remembered hfaults hholds hactor hstep ?_
      obtain ⟨inp, rfl, hgo⟩ := sysStep_go hactor (by simp [place]) hstep
      unfold proceed at hgo
      exact .work hi hc place phase (by simpa only [place] using hgo)
    · exact Serving.unseen (.busy place phase) hholds hr hmoved hvm

theorem Started.remembered {u : SupPtr} (h : Started hd vm u s) :
    Remembered L s (fun _ => flashImage SHELL_ASID vm) := by
  have hempty : AtRest L ∅ (fun _ => none) (initSwapStructs {vm with frameIndex := 0, tlb := fun _ => ⟨0, 0⟩}) := by
    refine ⟨fun k f hf => ?_, fun k hk => hk.elim⟩
    exact absurd rfl (table_owner_eq_some.mp hf).1
  have hpaged : Paged L ∅ none (initSwapStructs {vm with frameIndex := 0, tlb := fun _ => ⟨0, 0⟩}) := by
    refine ⟨⟨fun v hv => hv.elim, fun v hv => hv.elim, fun k hk => hk.elim⟩, fun f hf => absurd rfl hf,
      fun k hk => hk.elim, fun k f hk => ?_⟩
    exact (table_map_eq_some.mp hk).1.elim
  have hshell : ∀ q, (s.proc q).place.mapped = true → q = shellNo := fun q hq => h.attr Place.mapped rfl hq
  have hlive : s.live = insert u ∅ := by
    refine Set.ext fun v => ⟨fun ⟨q, hq, hv⟩ => ?_, fun hv => ?_⟩
    · rw [hshell q hq, h.shell] at hv
      exact .inl hv.symm
    · obtain rfl := hv.resolve_right id
      exact ⟨shellNo, by rw [h.shell]; rfl, by rw [h.shell]⟩
  have hlaunched : AtRest L s.live (fun k => if k.1 = u then some (flashImage SHELL_ASID vm k.2) else none) s.vm := by
    have hshell : isAsid SHELL_ASID := by decide
    rw [hlive, h.vm]
    exact hempty.launch hpaged (fun hu => hu.elim) hshell
  refine ⟨_, .idle (fun q => ?_) hlaunched, fun q p hq => ?_⟩
  · by_cases hq : q = shellNo
    · rw [hq, h.shell]
      rfl
    · rw [h.other q hq]
      rfl
  · rw [hshell q hq, h.shell]
    exact if_pos rfl

theorem run_remembered (hstart : Sys.start hd vm = some s₀) (hrun : Run (sysStep L hd) Careful s₀ es s) :
    ∃ m, exec MemEvent.take (trace (sysStep L hd) (seen L) s₀ es) (fun _ => flashImage SHELL_ASID vm) = some m ∧
      Inv L s ∧ Mirrored s.live s.vm ∧ Remembered L s m := by
  obtain ⟨u, hu⟩ := start_started hstart
  exact hrun.observed (R := fun s m => Inv L s ∧ Mirrored s.live s.vm ∧ Remembered L s m)
    ⟨hu.inv, hu.mirrored, hu.remembered⟩ fun s e s' m ⟨hi, hm, hr⟩ hc hstep => by
      obtain ⟨m', htake, hr'⟩ := hr.step hi hm hc hstep
      exact ⟨m', htake, hi.step hc.ownWrites hstep, hm.step hi hc hstep, hr'⟩

/-- **Every U-proc has a memory of its own**: what the U-procs see of memory in a run of
careful steps, from the start of the shell on, is what the memories of `MemEvent.take` show,
and the pages that `swapPoolSemaphore` guards contain them whenever it is free. -/
theorem run_memories {L : PoolLayout} {hd : Handlers} {vm : Vm} {s₀ s : Sys} {es : List SysEvent}
    (hstart : Sys.start hd vm = some s₀) (hrun : Run (sysStep L hd) Careful s₀ es s) :
    ∃ m, exec MemEvent.take (trace (sysStep L hd) (seen L) s₀ es) (fun _ => flashImage SHELL_ASID vm) = some m ∧
      (s.sem .swapPoolSemaphore = 1 → ∀ q p, (s.proc q).place.mapped = true →
        content L s.vm ((s.proc q).sup, p) = some (m q p)) := by
  obtain ⟨m, htake, hi, -, c, hserving, hholds⟩ := run_remembered hstart hrun
  refine ⟨m, htake, fun hfree q p hq => ?_⟩
  have hunlocked : ∀ r, (s.proc r).place.locks = true → False := by
    intro r hr
    rw [hi.mutex.zero r hr] at hfree
    cases hfree
  have hrest : AtRest L s.live c s.vm := by
    cases hserving with
    | idle nobody atRest => exact atRest
    | faulted place missing atRest => exact atRest
    | @busy r at' k p f vm₀ place phase => exact (hunlocked r (by rw [place]; rfl)).elim
  have hk : ((s.proc q).sup, p).1 ∈ s.live := ⟨q, hq, rfl⟩
  rw [content_eq hi.memory.paged hk, ← hrest.contents _ hk, hholds q p hq]

end Runs

namespace SysSample

/-- The shell stores 42 in its second page, which is evicted when the pool is full, and
loads it again. -/
def evicts : List SysEvent :=
  let va : Addr := KUSEG + 4096
  pageIn 0 0 ++ pageIn 0 1 ++ [.access 0 va (some 42) (answer 1 1)] ++
    (List.range 14).flatMap (fun n => pageIn 0 (n + 2)) ++ pageIn 0 16 ++ goes 0 2 16 ++
    [.access 0 va none (answer 1 1)] ++ goes 0 9 1 ++ [.access 0 va none (answer 1 1)]

def secondPage : PageNo := Fin.mk 1 (Nat.succ_lt_succ (Nat.zero_lt_succ 30))

end SysSample

open SysSample in
theorem run_memories_sample :
    ∃ s, ∃ m : Memories, exec (sysStep layout handlers) evicts start = some s ∧ s.sem .swapPoolSemaphore = 1 ∧
      (trace (sysStep layout handlers) (seen layout) start evicts).length = 2 ∧ m shellNo secondPage 0 = 42 ∧
      content layout s.vm ((s.proc shellNo).sup, secondPage) = some (m shellNo secondPage) := by
  have hfollows : Follows (sysStep layout handlers) Careful evicts start := by
    decide +kernel
  obtain ⟨s, hexec, hrun⟩ := hfollows.run
  have hend : (exec (sysStep layout handlers) evicts start).all (fun s =>
      s.sem .swapPoolSemaphore = 1 ∧ (s.proc shellNo).place.mapped = true) = true := by
    decide +kernel
  have hseen : (trace (sysStep layout handlers) (seen layout) start evicts).length = 2 := by
    decide +kernel
  have hword : (exec MemEvent.take (trace (sysStep layout handlers) (seen layout) start evicts)
      (fun _ => flashImage SHELL_ASID vm)).all (fun m => m shellNo secondPage 0 = 42) = true := by
    decide +kernel
  obtain ⟨m, htake, hcontent⟩ := run_memories start_eq hrun
  rw [hexec] at hend
  rw [htake] at hword
  obtain ⟨hfree, hmapped⟩ := of_decide_eq_true hend
  exact ⟨s, m, hexec, hfree, hseen, of_decide_eq_true hword, hcontent hfree shellNo secondPage hmapped⟩

end MultiPandOS
