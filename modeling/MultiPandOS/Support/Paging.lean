import MultiPandOS.Library.Paging
import MultiPandOS.Phase3.InitProc

/-! The swap pool and the page tables as one paging table.

`Agree` is the agreement between `swap_pool` and the page tables, word for word;
`Paged` is the same with the `Table` of `Library/Paging.lean` in place of the
words, and with one frame that may be detached. Each operation of the pager on the
words is an operation on the table (`table_invalidate`, `table_publish`, and so on),
so that the library's rules say what it does to agreement and content. -/
namespace MultiPandOS
open Paging

namespace Vm

def asid (u : SupPtr) (vm : Vm) : Word := (vm.supportPool u).supAsid

/-- What the pager records for the page `k`. -/
def record (k : PtePtr) (vm : Vm) : Swap := ⟨vm.asid k.1, BitVec.ofNat 32 k.2.val, some k⟩

@[simp] theorem asid_setPte (u : SupPtr) (k : PtePtr) (e : PteEntry) (vm : Vm) :
    (vm.setPte k e).asid u = vm.asid u := by
  by_cases hu : u = k.1
  · subst hu
    simp [asid, setPte]
  · simp [asid, setPte, hu]

@[simp] theorem pte_setPte_self (k : PtePtr) (e : PteEntry) (vm : Vm) : (vm.setPte k e).pte k = e := by
  simp [pte, setPte]

theorem pte_setPte_of_ne {k k' : PtePtr} (h : k' ≠ k) (e : PteEntry) (vm : Vm) :
    (vm.setPte k e).pte k' = vm.pte k' := by
  by_cases hu : k'.1 = k.1
  · have hp : k'.2 ≠ k.2 := fun hp => h (Prod.ext hu hp)
    simp [pte, setPte, hu, hp]
  · simp [pte, setPte, hu]

end Vm

/-! ### Agreement -/

/-- The U-procs in `live` have distinct ASIDs and the entries that
`initSupportStructure` wrote. -/
structure Uprocs (live : Set SupPtr) (vm : Vm) : Prop where
  asid : ∀ u ∈ live, isAsid (vm.asid u)
  distinct : ∀ u ∈ live, ∀ v ∈ live, vm.asid u = vm.asid v → u = v
  entries : ∀ k : PtePtr, k.1 ∈ live → (vm.pte k).entryHi = pageHi (vm.asid k.1) k.2

/-- `swap_pool` and the page tables of the U-procs in `live` agree. -/
structure Agree (L : PoolLayout) (live : Set SupPtr) (vm : Vm) : Prop where
  record : ∀ f, (vm.swapPool f).swAsid ≠ -1 →
    ∃! k : PtePtr, k.1 ∈ live ∧ vm.swapPool f = vm.record k ∧ (vm.pte k).valid ∧
      (vm.pte k).entryLo &&& 0xFFFFF000 = L.swapFrames f
  pte : ∀ k : PtePtr, k.1 ∈ live → (vm.pte k).valid → ∃! f, vm.swapPool f = vm.record k

/-- The content of a page: that of the frame its entry names if the entry is valid,
else its block of the flash device. -/
def content (L : PoolLayout) (vm : Vm) (k : PtePtr) : Option Page :=
  if (vm.pte k).valid then (frameAt L (vm.pte k).entryLo).map vm.swapFrames
  else (flashDevice (vm.asid k.1)).map fun i => vm.flash i (BitVec.ofNat 32 k.2.val)

open Classical in
/-- The paging table of the U-procs in `live`. -/
noncomputable def Vm.table (L : PoolLayout) (live : Set SupPtr) (vm : Vm) : Table PtePtr Frame Page :=
  { map := fun k => if k.1 ∈ live ∧ (vm.pte k).valid then frameAt L (vm.pte k).entryLo else none
    owner := fun f => if (vm.swapPool f).swAsid = -1 then none else (vm.swapPool f).swPte
    frame := vm.swapFrames
    store := fun k => if k.1 ∈ live then
        match flashDevice (vm.asid k.1) with
        | some i => vm.flash i (BitVec.ofNat 32 k.2.val)
        | none => fun _ => 0
      else fun _ => 0 }

/-- Every record is that of a live page and every valid entry names a frame, recorded
for it; the frame `off` is detached. -/
structure Paged (L : PoolLayout) (live : Set SupPtr) (off : Option Frame) (vm : Vm) : Prop
    extends Uprocs live vm where
  tagged : ∀ f, (vm.swapPool f).swAsid ≠ -1 → ∃ k : PtePtr, k.1 ∈ live ∧ vm.swapPool f = vm.record k
  framed : ∀ k : PtePtr, k.1 ∈ live → (vm.pte k).valid → ∃ f, frameAt L (vm.pte k).entryLo = some f
  owned : (vm.table L live).Owned off

section Table
variable {L : PoolLayout} {live : Set SupPtr} {off : Option Frame} {vm : Vm} {k : PtePtr} {f : Frame}

theorem table_map_eq_some :
    (vm.table L live).map k = some f ↔ k.1 ∈ live ∧ (vm.pte k).valid ∧ frameAt L (vm.pte k).entryLo = some f := by
  by_cases h : k.1 ∈ live ∧ (vm.pte k).valid
  · simp [Vm.table, h]
  · simp only [Vm.table, h, if_false, reduceCtorEq, false_iff]
    exact fun hk => h ⟨hk.1, hk.2.1⟩

theorem table_map_congr {vm' : Vm} (h : vm'.pte k = vm.pte k) :
    (vm'.table L live).map k = (vm.table L live).map k :=
  Option.ext fun f => by rw [table_map_eq_some, table_map_eq_some, h]

theorem table_map_eq_none (h : Paged L live off vm) (hk : k.1 ∈ live) :
    (vm.table L live).map k = none ↔ ¬ (vm.pte k).valid := by
  constructor
  · intro hnone hv
    obtain ⟨f, hf⟩ := h.framed k hk hv
    rw [table_map_eq_some.mpr ⟨hk, hv, hf⟩] at hnone
    cases hnone
  · intro hv
    simp [Vm.table, hv]

theorem table_owner_eq_some :
    (vm.table L live).owner f = some k ↔ (vm.swapPool f).swAsid ≠ -1 ∧ (vm.swapPool f).swPte = some k := by
  simp [Vm.table]

theorem table_owner_eq_none (h : Paged L live off vm) :
    (vm.table L live).owner f = none ↔ (vm.swapPool f).swAsid = -1 := by
  by_cases hf : (vm.swapPool f).swAsid = -1
  · simp [Vm.table, hf]
  · obtain ⟨k, -, hk⟩ := h.tagged f hf
    simp [Vm.table, hk, Vm.record]

theorem isAsid.ne_neg {a : Word} (h : isAsid a) : a ≠ -1 := by
  rintro rfl
  exact absurd h (by decide)

theorem Paged.record_owner (h : Paged L live off vm) (hk : k.1 ∈ live) (hf : vm.swapPool f = vm.record k) :
    (vm.table L live).owner f = some k :=
  table_owner_eq_some.mpr ⟨by rw [hf]; exact (h.asid k.1 hk).ne_neg, by rw [hf]; rfl⟩

theorem Paged.owner_record (h : Paged L live off vm) (hf : (vm.table L live).owner f = some k) :
    k.1 ∈ live ∧ vm.swapPool f = vm.record k := by
  obtain ⟨hocc, hpte⟩ := table_owner_eq_some.mp hf
  obtain ⟨k', hk', hrec⟩ := h.tagged f hocc
  rw [hrec] at hpte
  obtain rfl : k' = k := Option.some.inj hpte
  exact ⟨hk', hrec⟩

theorem table_store (hk : k.1 ∈ live) {i : Fin UPROCMAX} (hi : flashDevice (vm.asid k.1) = some i) :
    (vm.table L live).store k = vm.flash i (BitVec.ofNat 32 k.2.val) := by
  simp [Vm.table, hk, hi]

/-- Agreement, in terms of the table. -/
theorem agree_iff (hu : Uprocs live vm) :
    Agree L live vm ↔ Paged L live none vm ∧ (vm.table L live).Kept none := by
  constructor
  · intro h
    have htagged : ∀ f, (vm.swapPool f).swAsid ≠ -1 → ∃ k : PtePtr, k.1 ∈ live ∧ vm.swapPool f = vm.record k := by
      intro f hf
      obtain ⟨k, ⟨hk, hrec, -⟩, -⟩ := h.record f hf
      exact ⟨k, hk, hrec⟩
    have hnamed : ∀ k : PtePtr, k.1 ∈ live → ∀ f, vm.swapPool f = vm.record k →
        (vm.pte k).valid ∧ frameAt L (vm.pte k).entryLo = some f := by
      intro k hk f hrec
      have hocc : (vm.swapPool f).swAsid ≠ -1 := by
        rw [hrec]
        exact (hu.asid k.1 hk).ne_neg
      obtain ⟨k', ⟨-, hrec', hv, hlo⟩, -⟩ := h.record f hocc
      have hkk : k = k' := Option.some.inj (congrArg Swap.swPte (hrec.symm.trans hrec'))
      exact hkk ▸ ⟨hv, frameAt_eq_some.mpr hlo⟩
    have hframed : ∀ k : PtePtr, k.1 ∈ live → (vm.pte k).valid →
        ∃ f, vm.swapPool f = vm.record k ∧ frameAt L (vm.pte k).entryLo = some f := by
      intro k hk hv
      obtain ⟨f, hrec, -⟩ := h.pte k hk hv
      exact ⟨f, hrec, (hnamed k hk f hrec).2⟩
    have howned : (vm.table L live).Owned none := by
      intro k f hkf
      obtain ⟨hk, hv, hf⟩ := table_map_eq_some.mp hkf
      obtain ⟨g, hrec, hg⟩ := hframed k hk hv
      obtain rfl : f = g := Option.some.inj (hf.symm.trans hg)
      refine ⟨table_owner_eq_some.mpr ⟨?_, by rw [hrec]; rfl⟩, by simp⟩
      rw [hrec]
      exact (hu.asid k.1 hk).ne_neg
    have hpaged : Paged L live none vm :=
      ⟨hu, htagged, fun k hk hv => (hframed k hk hv).imp fun _ hf => hf.2, howned⟩
    refine ⟨hpaged, fun k f hf _ => ?_⟩
    obtain ⟨hk, hrec⟩ := hpaged.owner_record hf
    exact table_map_eq_some.mpr ⟨hk, hnamed k hk f hrec⟩
  · rintro ⟨h, hkept⟩
    constructor
    · intro f hf
      obtain ⟨k, hk, hrec⟩ := h.tagged f hf
      obtain ⟨-, hv, hlo⟩ := table_map_eq_some.mp (hkept k f (h.record_owner hk hrec) (by simp))
      refine ⟨k, ⟨hk, hrec, hv, frameAt_eq_some.mp hlo⟩, fun k' hk' => ?_⟩
      exact Option.some.inj (congrArg Swap.swPte (hk'.2.1.symm.trans hrec))
    · intro k hk hv
      obtain ⟨f, hf⟩ := h.framed k hk hv
      have howner := (h.owned k f (table_map_eq_some.mpr ⟨hk, hv, hf⟩)).1
      refine ⟨f, (h.owner_record howner).2, fun g hg => ?_⟩
      obtain ⟨-, -, hlo⟩ := table_map_eq_some.mp (hkept k g (h.record_owner hk hg) (by simp))
      exact Option.some.inj (hlo.symm.trans hf)

/-- The content of a live page is what the table says. -/
theorem content_eq (h : Paged L live off vm) (hk : k.1 ∈ live) :
    content L vm k = some ((vm.table L live).content k) := by
  by_cases hv : (vm.pte k).valid
  · obtain ⟨f, hf⟩ := h.framed k hk hv
    rw [Table.content_of_map (table_map_eq_some.mpr ⟨hk, hv, hf⟩)]
    simp [content, hv, hf, Vm.table]
  · obtain ⟨i, hi⟩ := flashDevice_isAsid (h.asid k.1 hk)
    rw [Table.content_of_unmapped ((table_map_eq_none h hk).mpr hv), table_store hk hi]
    simp [content, hv, hi]

/-- No page is recorded in two frames. -/
def RecordedOnce (vm : Vm) : Prop :=
  ∀ f g, (vm.swapPool f).swAsid ≠ -1 → (vm.swapPool f).swAsid = (vm.swapPool g).swAsid →
    (vm.swapPool f).swPageNo = (vm.swapPool g).swPageNo → f = g

theorem Paged.recordedOnce (h : Paged L live none vm) (hkept : (vm.table L live).Kept none) :
    RecordedOnce vm := by
  intro f g hf hasid hpage
  obtain ⟨k, hk, hrec⟩ := h.tagged f hf
  obtain ⟨k', hk', hrec'⟩ := h.tagged g (hasid ▸ hf)
  rw [hrec, hrec'] at hasid hpage
  obtain rfl : k = k' := Prod.ext (h.distinct k.1 hk k'.1 hk' hasid) (pageNo_inj hpage)
  have hkf := hkept k f (h.record_owner hk hrec) (by simp)
  have hkg := hkept k g (h.record_owner hk hrec') (by simp)
  exact Option.some.inj (hkf.symm.trans hkg)

end Table

/-! ### What a step of the pager does -/

theorem pageReplacement_eq {vm vm' : Vm} {f : Frame} (h : pageReplacement vm = some (f, vm')) :
    ∃ i, vm' = {vm with frameIndex := i} := by
  unfold pageReplacement at h
  split at h
  · obtain ⟨-, rfl⟩ := Prod.mk.inj (Option.some.inj h)
    exact ⟨vm.frameIndex, rfl⟩
  · obtain ⟨g, -, hg⟩ := Option.map_eq_some_iff.mp h
    obtain ⟨-, rfl⟩ := Prod.mk.inj hg
    exact ⟨vm.frameIndex + 1, rfl⟩

/-- A step of the pager of `u`, by where it is. -/
inductive PagerEffect (L : PoolLayout) (u : SupPtr) (a : Answer) (vm : Vm) : PagerAt → PagerAt → Vm → Prop where
  | choose {p f i}
      (index : arrayIndex USERPGTBLSIZE (findPageIndex ((vm.supportPool u).supExceptState PGFAULTEXCEPT).entryHi) = some p)
      (victim : pageReplacement vm = some (f, {vm with frameIndex := i})) :
      PagerEffect L u a vm .locked (.chosen p f) {vm with frameIndex := i}
  | vacant {p f} (free : (vm.swapPool f).swAsid = -1) : PagerEffect L u a vm (.chosen p f) (.reading p f) vm
  | evict {p f k} (occupied : (vm.swapPool f).swAsid ≠ -1) (record : (vm.swapPool f).swPte = some k) :
      PagerEffect L u a vm (.chosen p f) (.evicted p f (vm.swapPool f).swAsid) (invalidate k vm)
  | write {p f asid i} (device : flashDevice asid = some i) :
      PagerEffect L u a vm (.evicted p f asid) (.wrote p f asid a.status)
        (vm.setBlock i (flashBlock (writeCommand (vm.swapPool f).swPageNo)) (a.transfer (vm.swapFrames f)))
  | writeError {p f asid status} (error : status &&& 0xff = 4) :
      PagerEffect L u a vm (.wrote p f asid status) (.failed asid) vm
  | written {p f asid status} (ok : status &&& 0xff ≠ 4) :
      PagerEffect L u a vm (.wrote p f asid status) (.reading p f) vm
  | read {p f i} (device : flashDevice (pteAsid (vm.pte (u, p)).entryHi) = some i) :
      PagerEffect L u a vm (.reading p f) (.got p f (pteAsid (vm.pte (u, p)).entryHi) a.status)
        (vm.setFrame f (a.transfer (vm.flash i (flashBlock (readCommand (BitVec.ofNat 32 p.val))))))
  | readError {p f asid status} (error : status &&& 0xff = 5) :
      PagerEffect L u a vm (.got p f asid status) (.failed asid) vm
  | filled {p f asid status} (ok : status &&& 0xff ≠ 5) : PagerEffect L u a vm (.got p f asid status) (.loaded p f) vm
  | publish {p f} : PagerEffect L u a vm (.loaded p f) .published (publish L u p f a.slot vm)

theorem pagerStep_effect {L : PoolLayout} {u : SupPtr} {a : Answer} {place place' : PagerAt} {vm vm' : Vm}
    (h : pagerStep L u a place vm = some (place', vm')) : PagerEffect L u a vm place place' vm' := by
  cases place with
  | locked =>
    obtain ⟨p, hp, h⟩ := Option.bind_eq_some_iff.mp h
    obtain ⟨⟨f, vm₁⟩, hr, heq⟩ := Option.map_eq_some_iff.mp h
    obtain ⟨rfl, rfl⟩ := Prod.mk.inj heq
    obtain ⟨i, rfl⟩ := pageReplacement_eq hr
    exact .choose hp hr
  | chosen p f =>
    simp only [pagerStep] at h
    split at h
    · rename_i hfree
      obtain ⟨rfl, rfl⟩ := Prod.mk.inj (Option.some.inj h)
      exact .vacant hfree
    · rename_i hocc
      obtain ⟨k, hk, heq⟩ := Option.map_eq_some_iff.mp h
      obtain ⟨rfl, rfl⟩ := Prod.mk.inj heq
      exact .evict hocc hk
  | evicted p f asid =>
    obtain ⟨i, hi, heq⟩ := Option.map_eq_some_iff.mp h
    obtain ⟨rfl, rfl⟩ := Prod.mk.inj heq
    exact .write hi
  | wrote p f asid status =>
    simp only [pagerStep] at h
    split at h
    · rename_i herror
      obtain ⟨rfl, rfl⟩ := Prod.mk.inj (Option.some.inj h)
      exact .writeError herror
    · rename_i hok
      obtain ⟨rfl, rfl⟩ := Prod.mk.inj (Option.some.inj h)
      exact .written hok
  | reading p f =>
    obtain ⟨i, hi, heq⟩ := Option.map_eq_some_iff.mp h
    obtain ⟨rfl, rfl⟩ := Prod.mk.inj heq
    exact .read hi
  | got p f asid status =>
    simp only [pagerStep] at h
    split at h
    · rename_i herror
      obtain ⟨rfl, rfl⟩ := Prod.mk.inj (Option.some.inj h)
      exact .readError herror
    · rename_i hok
      obtain ⟨rfl, rfl⟩ := Prod.mk.inj (Option.some.inj h)
      exact .filled hok
  | loaded p f =>
    obtain ⟨rfl, rfl⟩ := Prod.mk.inj (Option.some.inj h)
    exact .publish
  | published => cases h
  | failed asid => cases h

/-! ### The operations of the pager on the table -/

/-- The page tables and ASIDs of the U-procs in `live` are those of `vm`. -/
structure SameTables (live : Set SupPtr) (vm vm' : Vm) : Prop where
  pte : ∀ k : PtePtr, k.1 ∈ live → vm'.pte k = vm.pte k
  asid : ∀ u ∈ live, vm'.asid u = vm.asid u

section Operations
variable {L : PoolLayout} {live live' : Set SupPtr} {off : Option Frame} {vm vm' : Vm}

theorem SameTables.mono (h : SameTables live vm vm') (hsub : live' ⊆ live) : SameTables live' vm vm' :=
  ⟨fun k hk => h.pte k (hsub hk), fun u hu => h.asid u (hsub hu)⟩

theorem Uprocs.same (h : Uprocs live vm) (hs : SameTables live vm vm') : Uprocs live vm' :=
  ⟨fun u hu => by rw [hs.asid u hu]; exact h.asid u hu,
    fun u hu v hv huv => h.distinct u hu v hv (by rwa [hs.asid u hu, hs.asid v hv] at huv),
    fun k hk => by rw [hs.pte k hk, hs.asid k.1 hk]; exact h.entries k hk⟩

/-- An operation that changes neither the page tables nor the records. -/
theorem Paged.same (h : Paged L live off vm) (hs : SameTables live vm vm') (hpool : vm'.swapPool = vm.swapPool) :
    Paged L live off vm' := by
  have howner : (vm'.table L live).owner = (vm.table L live).owner := by
    funext f
    simp only [Vm.table, hpool]
  refine ⟨h.toUprocs.same hs, fun f hf => ?_, fun k hk => ?_, fun k f hk => ?_⟩
  · rw [hpool] at hf ⊢
    obtain ⟨k, hk, hrec⟩ := h.tagged f hf
    exact ⟨k, hk, by rw [hrec, Vm.record, Vm.record, hs.asid k.1 hk]⟩
  · rw [hs.pte k hk]
    exact h.framed k hk
  · rw [table_map_congr (hs.pte k (table_map_eq_some.mp hk).1)] at hk
    rw [howner]
    exact h.owned k f hk

theorem Uprocs.setPte (h : Uprocs live vm) (k : PtePtr) (lo : Word) :
    Uprocs live (vm.setPte k {vm.pte k with entryLo := lo}) := by
  refine ⟨fun u hu => ?_, fun u hu v hv huv => ?_, fun k' hk' => ?_⟩
  · rw [Vm.asid_setPte]
    exact h.asid u hu
  · rw [Vm.asid_setPte, Vm.asid_setPte] at huv
    exact h.distinct u hu v hv huv
  · rw [Vm.asid_setPte]
    by_cases hk : k' = k
    · subst hk
      rw [Vm.pte_setPte_self]
      exact h.entries k' hk'
    · rw [Vm.pte_setPte_of_ne hk]
      exact h.entries k' hk'

/-! Invalidation. -/

theorem invalidate_eq (k : PtePtr) (vm : Vm) : ∃ tlb, invalidate k vm =
    {(vm.setPte k {vm.pte k with entryLo := (vm.pte k).entryLo &&& VALIDOFF}) with tlb := tlb} := by
  simp only [invalidate]
  split
  · exact ⟨_, rfl⟩
  · exact ⟨_, rfl⟩

theorem pte_invalidate_of_ne {k k' : PtePtr} (h : k' ≠ k) (vm : Vm) : (invalidate k vm).pte k' = vm.pte k' := by
  obtain ⟨tlb, htlb⟩ := invalidate_eq k vm
  rw [htlb]
  exact Vm.pte_setPte_of_ne h _ vm

theorem pte_invalidate_not_valid (k : PtePtr) (vm : Vm) : ¬ ((invalidate k vm).pte k).valid := by
  obtain ⟨tlb, htlb⟩ := invalidate_eq k vm
  rw [htlb]
  show ¬ ((vm.setPte k _).pte k).valid
  rw [Vm.pte_setPte_self]
  exact invalidated_not_valid _ _

theorem asid_invalidate (k : PtePtr) (vm : Vm) (u : SupPtr) : (invalidate k vm).asid u = vm.asid u := by
  obtain ⟨tlb, htlb⟩ := invalidate_eq k vm
  rw [htlb]
  exact Vm.asid_setPte u k _ vm

theorem swapPool_invalidate (k : PtePtr) (vm : Vm) : (invalidate k vm).swapPool = vm.swapPool := by
  obtain ⟨tlb, htlb⟩ := invalidate_eq k vm
  rw [htlb]
  rfl

theorem table_invalidate (k : PtePtr) (vm : Vm) : (invalidate k vm).table L live = (vm.table L live).unmap k := by
  obtain ⟨tlb, htlb⟩ := invalidate_eq k vm
  have hmap : ((invalidate k vm).table L live).map = ((vm.table L live).unmap k).map := by
    funext k'
    by_cases hk : k' = k
    · subst hk
      simp [Vm.table, Table.unmap, pte_invalidate_not_valid]
    · exact (table_map_congr (pte_invalidate_of_ne hk vm)).trans (Function.update_of_ne hk _ _).symm
  have howner : ((invalidate k vm).table L live).owner = (vm.table L live).owner := by
    simp only [Vm.table, swapPool_invalidate]
  have hstore : ((invalidate k vm).table L live).store = (vm.table L live).store := by
    funext k'
    simp only [Vm.table, asid_invalidate]
    rw [htlb]
    rfl
  have hframe : ((invalidate k vm).table L live).frame = (vm.table L live).frame := by
    rw [htlb]
    rfl
  exact Table.ext hmap howner hframe hstore

theorem Paged.invalidate (h : Paged L live none vm) {f : Frame} {k : PtePtr}
    (hf : (vm.table L live).owner f = some k) : Paged L live (some f) (invalidate k vm) := by
  obtain ⟨tlb, htlb⟩ := invalidate_eq k vm
  refine ⟨?_, fun g hg => ?_, fun k' hk' hv => ?_, ?_⟩
  · rw [htlb]
    exact (h.toUprocs.setPte k _).same ⟨fun _ _ => rfl, fun _ _ => rfl⟩
  · rw [swapPool_invalidate] at hg ⊢
    obtain ⟨k', hk', hrec⟩ := h.tagged g hg
    exact ⟨k', hk', by rw [hrec, Vm.record, Vm.record, asid_invalidate]⟩
  · have hne : k' ≠ k := by
      rintro rfl
      exact pte_invalidate_not_valid k' vm hv
    rw [pte_invalidate_of_ne hne] at hv ⊢
    exact h.framed k' hk' hv
  · rw [table_invalidate]
    exact h.owned.unmap hf

/-! Transfers and stores. -/

theorem table_setFrame (f : Frame) (d : Page) (vm : Vm) :
    (vm.setFrame f d).table L live = (vm.table L live).fill f d := rfl

theorem table_setBlock (h : Uprocs live vm) {k : PtePtr} (hk : k.1 ∈ live) {i : Fin UPROCMAX}
    (hi : flashDevice (vm.asid k.1) = some i) (f : Frame) :
    (vm.setBlock i (BitVec.ofNat 32 k.2.val) (vm.swapFrames f)).table L live =
      (vm.table L live).writeBack k f := by
  have hstore : ∀ k', ((vm.setBlock i (BitVec.ofNat 32 k.2.val) (vm.swapFrames f)).table L live).store k' =
      ((vm.table L live).writeBack k f).store k' := by
    intro k'
    by_cases hk' : k' = k
    · subst hk'
      rw [@table_store L live (vm.setBlock _ _ _) k' hk _ hi]
      simp [Table.writeBack, Vm.setBlock, Vm.table]
    · have hwrite : ((vm.table L live).writeBack k f).store k' = (vm.table L live).store k' :=
        Function.update_of_ne hk' _ _
      rw [hwrite]
      by_cases hlive : k'.1 ∈ live
      · obtain ⟨j, hj⟩ := flashDevice_isAsid (h.asid k'.1 hlive)
        rw [table_store hlive hj, @table_store L live (vm.setBlock _ _ _) k' hlive j hj]
        by_cases hij : j = i
        · subst hij
          have hu : k'.1 = k.1 := h.distinct _ hlive _ hk (flashDevice_inj hj hi)
          have hp : BitVec.ofNat 32 k'.2.val ≠ BitVec.ofNat 32 k.2.val :=
            fun hp => hk' (Prod.ext hu (pageNo_inj hp))
          simp [Vm.setBlock, hp]
        · simp [Vm.setBlock, hij]
      · simp [Vm.table, hlive]
  exact Table.ext rfl rfl rfl (funext hstore)

/-! Publication. -/

theorem publish_eq (L : PoolLayout) (u : SupPtr) (p : PageNo) (f : Frame) (slot : Fin TLBSIZE) (vm : Vm) :
    ∃ tlb, publish L u p f slot vm =
      {((vm.setSwap f (vm.record (u, p))).setPte (u, p)
        {vm.pte (u, p) with entryLo := publishedLo L f (vm.pte (u, p)).entryLo}) with tlb := tlb} := by
  simp only [publish]
  split
  · exact ⟨_, rfl⟩
  · exact ⟨_, rfl⟩

section Publish
variable (u : SupPtr) (p : PageNo) (f : Frame) (slot : Fin TLBSIZE)

theorem pte_publish_self : (publish L u p f slot vm).pte (u, p) =
    {vm.pte (u, p) with entryLo := publishedLo L f (vm.pte (u, p)).entryLo} := by
  obtain ⟨tlb, htlb⟩ := publish_eq L u p f slot vm
  rw [htlb]
  exact Vm.pte_setPte_self (u, p) _ (vm.setSwap f _)

theorem pte_publish_of_ne {k : PtePtr} (h : k ≠ (u, p)) : (publish L u p f slot vm).pte k = vm.pte k := by
  obtain ⟨tlb, htlb⟩ := publish_eq L u p f slot vm
  rw [htlb]
  exact Vm.pte_setPte_of_ne h _ (vm.setSwap f _)

theorem asid_publish (v : SupPtr) : (publish L u p f slot vm).asid v = vm.asid v := by
  obtain ⟨tlb, htlb⟩ := publish_eq L u p f slot vm
  rw [htlb]
  exact Vm.asid_setPte v (u, p) _ (vm.setSwap f _)

theorem swapPool_publish :
    (publish L u p f slot vm).swapPool = Function.update vm.swapPool f (vm.record (u, p)) := by
  obtain ⟨tlb, htlb⟩ := publish_eq L u p f slot vm
  rw [htlb]
  rfl

theorem table_publish (h : Uprocs live vm) (hu : u ∈ live) :
    (publish L u p f slot vm).table L live = (vm.table L live).publish (u, p) f := by
  obtain ⟨tlb, htlb⟩ := publish_eq L u p f slot vm
  have hmap : ((publish L u p f slot vm).table L live).map = ((vm.table L live).publish (u, p) f).map := by
    funext k
    by_cases hk : k = (u, p)
    · subst hk
      rw [table_map_eq_some.mpr ⟨hu, by rw [pte_publish_self]; exact publishedLo_valid L f _ _,
        by rw [pte_publish_self]; exact frameAt_publishedLo L f _⟩]
      simp [Table.publish]
    · exact (table_map_congr (pte_publish_of_ne u p f slot hk)).trans (Function.update_of_ne hk _ _).symm
  have howner : ((publish L u p f slot vm).table L live).owner = ((vm.table L live).publish (u, p) f).owner := by
    funext g
    by_cases hg : g = f
    · subst hg
      simp only [Vm.table, Table.publish, swapPool_publish, Function.update_self, Vm.record]
      exact if_neg (h.asid u hu).ne_neg
    · simp [Vm.table, Table.publish, swapPool_publish, hg]
  have hstore : ((publish L u p f slot vm).table L live).store = (vm.table L live).store := by
    funext k
    simp only [Vm.table, asid_publish]
    rw [htlb]
    rfl
  have hframe : ((publish L u p f slot vm).table L live).frame = (vm.table L live).frame := by
    rw [htlb]
    rfl
  exact Table.ext hmap howner hframe hstore

theorem Paged.publish (h : Paged L live (some f) vm) (hu : u ∈ live) :
    Paged L live none (publish L u p f slot vm) := by
  obtain ⟨tlb, htlb⟩ := publish_eq L u p f slot vm
  have hrecord : ∀ k, (MultiPandOS.publish L u p f slot vm).record k = vm.record k := by
    intro k
    rw [Vm.record, Vm.record, asid_publish]
  refine ⟨?_, fun g hg => ?_, fun k hk hv => ?_, ?_⟩
  · rw [htlb]
    have hswap : Uprocs live (vm.setSwap f (vm.record (u, p))) := h.toUprocs.same ⟨fun _ _ => rfl, fun _ _ => rfl⟩
    exact (hswap.setPte (u, p) _).same ⟨fun _ _ => rfl, fun _ _ => rfl⟩
  · rw [swapPool_publish] at hg ⊢
    by_cases hgf : g = f
    · subst hgf
      exact ⟨(u, p), hu, by rw [Function.update_self, hrecord]⟩
    · rw [Function.update_of_ne hgf] at hg ⊢
      obtain ⟨k, hk, hrec⟩ := h.tagged g hg
      exact ⟨k, hk, by rw [hrec, hrecord]⟩
  · by_cases hkk : k = (u, p)
    · subst hkk
      rw [pte_publish_self]
      exact ⟨f, frameAt_publishedLo L f _⟩
    · rw [pte_publish_of_ne u p f slot hkk] at hv ⊢
      exact h.framed k hk hv
  · rw [table_publish u p f slot h.toUprocs hu]
    exact h.owned.publish (u, p)

end Publish

/-! Release. -/

/-- A process that frees its frames leaves the swap pool to the others. -/
theorem Paged.freeSwapFrames (h : Paged L live off vm) {u : SupPtr} (hu : u ∈ live) :
    Paged L (live \ {u}) none (freeSwapFrames (vm.asid u) vm) := by
  refine ⟨⟨fun v hv => h.asid v hv.1, fun v hv w hw => h.distinct v hv.1 w hw.1,
    fun k hk => h.entries k hk.1⟩, fun f hf => ?_, fun k hk => h.framed k hk.1, fun k f hk => ?_⟩
  · by_cases hfu : (vm.swapPool f).swAsid = vm.asid u
    · simp [MultiPandOS.freeSwapFrames, hfu, Swap.free] at hf
    · have hpool : (MultiPandOS.freeSwapFrames (vm.asid u) vm).swapPool f = vm.swapPool f := if_neg hfu
      rw [hpool] at hf ⊢
      obtain ⟨k, hk, hrec⟩ := h.tagged f hf
      refine ⟨k, ⟨hk, ?_⟩, hrec⟩
      rintro rfl
      exact hfu (by rw [hrec]; rfl)
  · obtain ⟨⟨hk, hku⟩, hv, hf⟩ := table_map_eq_some.mp hk
    obtain ⟨howner, -⟩ := h.owned k f (table_map_eq_some.mpr ⟨hk, hv, hf⟩)
    obtain ⟨-, hrec⟩ := h.owner_record howner
    have hne : (vm.swapPool f).swAsid ≠ vm.asid u := by
      rw [hrec]
      exact fun he => hku (h.distinct k.1 hk u hu he)
    have hpool : (MultiPandOS.freeSwapFrames (vm.asid u) vm).swapPool f = vm.swapPool f := if_neg hne
    refine ⟨?_, by simp⟩
    rw [table_owner_eq_some, hpool]
    exact table_owner_eq_some.mp howner

theorem sameTables_setAsid {u : SupPtr} (hu : u ∉ live) (a : Word) (vm : Vm) :
    SameTables live vm (vm.setAsid u a) := by
  have hsame : ∀ v ∈ live, (vm.setAsid u a).supportPool v = vm.supportPool v := by
    intro v hv
    have hne : v ≠ u := by
      rintro rfl
      exact hu hv
    exact Function.update_of_ne hne _ _
  exact ⟨fun k hk => by rw [Vm.pte, hsame k.1 hk]; rfl, fun v hv => by rw [Vm.asid, hsame v hv]; rfl⟩

theorem detached_same {f : Frame} (h : (vm.table L live).Detached f) (hs : SameTables live vm vm') :
    (vm'.table L live).Detached f := by
  intro k hk
  rw [table_map_congr (hs.pte k (table_map_eq_some.mp hk).1)] at hk
  exact h k hk

theorem Paged.attach (h : Paged L live off vm) : Paged L live none vm :=
  ⟨h.toUprocs, h.tagged, h.framed, h.owned.attach⟩

end Operations

end MultiPandOS
