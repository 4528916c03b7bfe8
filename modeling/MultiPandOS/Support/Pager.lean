import MultiPandOS.Library.Runs
import MultiPandOS.Support.Paging

/-! One page fault among the loads and stores of the other U-procs.

`faultStep` interleaves the pager of the U-proc `u`, one place at a time, with what
the others do through their valid entries. `Phase` says what holds at each place,
and every step keeps it (`Phase.pager`, `Phase.store`), so a fault whose transfers
succeed is transparent (`pager_transparent`). A read error that the pager detects
leaves a consistent swap pool exactly when the frame it had chosen held no page of
another U-proc (`read_error_iff`). -/
namespace MultiPandOS
open Paging Runs

/-- Where the pager is, and the memory it shares with the others. -/
structure Fault where
  place : PagerAt
  vm : Vm

/-- The pager goes on with an answer of the machine, or another U-proc reads or
writes word `w` of the page `k`. -/
inductive Access where
  | pager (a : Answer)
  | load (k : PtePtr) (w : Fin 1024)
  | store (k : PtePtr) (w : Fin 1024) (v : Word)

def faultStep (L : PoolLayout) (u : SupPtr) : Access → Fault → Option Fault
  | .pager a, s => (pagerStep L u a s.place s.vm).map fun r => ⟨r.1, r.2⟩
  | .load _ _, s => some s
  | .store k w v, s => some {s with vm := storeWord L (s.vm.pte k).entryLo w v s.vm}

/-- The write back of a victim succeeds; or, where the read is to fail, at least it does not
fail with the status the pager looks for. -/
def WriteOk (fails : Bool) (place : PagerAt) (a : Answer) : Prop :=
  match place with
  | .evicted _ _ _ => if fails then a.status &&& 0xff ≠ 4 else a.ready
  | _ => True

/-- Reading the page succeeds, or fails with the status the pager looks for. -/
def Reads (fails : Bool) (place : PagerAt) (a : Answer) : Prop :=
  match place with
  | .reading _ _ => if fails then a.status &&& 0xff = 5 else a.ready
  | _ => True

/-- The others go through valid entries of their own; `fails` is what the read of the
page comes to. -/
def Others (fails : Bool) (live : Set SupPtr) (u : SupPtr) (s : Fault) : Access → Prop
  | .pager a => WriteOk fails s.place a ∧ Reads fails s.place a
  | .load k _ => k.1 ∈ live ∧ k.1 ≠ u ∧ (s.vm.pte k).valid
  | .store k _ _ => k.1 ∈ live ∧ k.1 ≠ u ∧ (s.vm.pte k).valid

instance (fails : Bool) (place : PagerAt) (a : Answer) : Decidable (WriteOk fails place a) := by
  unfold WriteOk
  split <;> infer_instance

instance (fails : Bool) (place : PagerAt) (a : Answer) : Decidable (Reads fails place a) := by
  unfold Reads
  split <;> infer_instance

instance (fails : Bool) (live : Set SupPtr) [DecidablePred (· ∈ live)] (u : SupPtr) (s : Fault) :
    (e : Access) → Decidable (Others fails live u s e)
  | .pager _ => inferInstanceAs (Decidable (_ ∧ _))
  | .load _ _ => inferInstanceAs (Decidable (_ ∧ _))
  | .store _ _ _ => inferInstanceAs (Decidable (_ ∧ _))

/-- A store, on the logical contents. -/
def Access.write : Access → (PtePtr → Option Page) → PtePtr → Option Page
  | .store k w v, c => Function.update c k ((c k).map fun d => Function.update d w v)
  | _, c => c

/-- The logical contents after the stores among `es`. -/
def written (es : List Access) (c : PtePtr → Option Page) : PtePtr → Option Page :=
  es.foldl (fun c e => e.write c) c

theorem written_snoc (es : List Access) (e : Access) (c : PtePtr → Option Page) :
    written (es ++ [e]) c = e.write (written es c) := by
  simp [written]

/-- The steps that the pager has left at most. -/
def PagerAt.rank : PagerAt → Nat
  | .locked => 7
  | .chosen _ _ => 6
  | .evicted _ _ _ => 5
  | .wrote _ _ _ _ => 4
  | .reading _ _ => 3
  | .got _ _ _ _ => 2
  | .loaded _ _ => 1
  | .published => 0
  | .failed _ => 0

def Access.isPager : Access → Bool
  | .pager _ => true
  | _ => false

theorem pagerStep_rank {L : PoolLayout} {u : SupPtr} {a : Answer} {place place' : PagerAt} {vm vm' : Vm}
    (h : pagerStep L u a place vm = some (place', vm')) : place'.rank < place.rank := by
  cases pagerStep_effect h <;> simp [PagerAt.rank]

/-! ### What holds at each place -/

section Phase
variable (fails : Bool) (L : PoolLayout) (live : Set SupPtr) (u : SupPtr) (p : PageNo) (f : Frame) (vm₀ : Vm)
  (c : PtePtr → Option Page)

/-- The fault is being served: `off` is the detached frame, `pend` the victim in it
that is not written back yet. -/
structure InFlight (off : Option Frame) (pend : Option (PtePtr × Frame)) (vm : Vm) : Prop where
  paged : Paged L live off vm
  kept : (vm.table L live).Kept off
  faulting : ¬ (vm.pte (u, p)).valid
  pending : ∀ q ∈ pend, off = some q.2 ∧ (vm.table L live).map q.1 = none
  contents : ∀ k : PtePtr, k.1 ∈ live → c k = some ((vm.table L live).contentWith pend k)
  pool : vm.swapPool = vm₀.swapPool
  asids : ∀ v, vm.asid v = vm₀.asid v

/-- The frame holds the faulting page. -/
def Filled (vm : Vm) : Prop := vm.swapFrames f = (vm.table L live).store (u, p)

/-- The page fault is served. -/
structure Served (vm : Vm) : Prop where
  paged : Paged L live none vm
  kept : (vm.table L live).Kept none
  valid : (vm.pte (u, p)).valid
  contents : ∀ k : PtePtr, k.1 ∈ live → c k = some ((vm.table L live).content k)

/-- What the pager will choose: the faulting page, and the frame to load it in. -/
def Chooses (vm : Vm) : Prop :=
  arrayIndex USERPGTBLSIZE (findPageIndex ((vm.supportPool u).supExceptState PGFAULTEXCEPT).entryHi) = some p ∧
    ∃ n, pageReplacement vm = some (f, {vm with frameIndex := n})

/-- The pager of `u` serves a fault on page `p` with the frame `f`. -/
inductive Phase : PagerAt → Vm → Prop
  | locked {vm} : Chooses u p f vm → InFlight L live u p vm₀ c none none vm → Phase .locked vm
  | chosen {vm} : InFlight L live u p vm₀ c none none vm → Phase (.chosen p f) vm
  | evicted {k : PtePtr} {vm} : k.1 ∈ live → vm.swapPool f = vm.record k →
      InFlight L live u p vm₀ c (some f) (some (k, f)) vm → Phase (.evicted p f (vm₀.asid k.1)) vm
  | wrote {asid status vm} : status &&& 0xff ≠ 4 → InFlight L live u p vm₀ c (some f) none vm →
      Phase (.wrote p f asid status) vm
  | reading {vm} : InFlight L live u p vm₀ c (some f) none vm → Phase (.reading p f) vm
  | got {status vm} : (if fails then status &&& 0xff = 5 else status &&& 0xff = 1 ∧ Filled L live u p f vm) →
      InFlight L live u p vm₀ c (some f) none vm → Phase (.got p f (vm₀.asid u) status) vm
  | loaded {vm} : fails = false → Filled L live u p f vm → InFlight L live u p vm₀ c (some f) none vm →
      Phase (.loaded p f) vm
  | published {vm} : fails = false → Served L live u p c vm → Phase .published vm
  | failed {vm} : fails = true → InFlight L live u p vm₀ c (some f) none vm → Phase (.failed (vm₀.asid u)) vm

end Phase

section Steps
variable {fails : Bool} {L : PoolLayout} {live : Set SupPtr} {u : SupPtr} {p : PageNo} {f : Frame} {vm₀ vm : Vm}
  {c : PtePtr → Option Page} {off : Option Frame} {pend : Option (PtePtr × Frame)} {a : Answer} {k : PtePtr}

theorem InFlight.unmapped (h : InFlight L live u p vm₀ c off pend vm) (hu : u ∈ live) :
    (vm.table L live).map (u, p) = none := (table_map_eq_none h.paged hu).mpr h.faulting

/-- A free frame is detached as it is. -/
theorem InFlight.free (h : InFlight L live u p vm₀ c none none vm) (hf : (vm.swapPool f).swAsid = -1) :
    InFlight L live u p vm₀ c (some f) none vm :=
  ⟨⟨h.paged.toUprocs, h.paged.tagged, h.paged.framed,
      h.paged.owned.of_free ((table_owner_eq_none h.paged).mpr hf)⟩,
    h.kept.detach, h.faulting, by simp, h.contents, h.pool, h.asids⟩

theorem InFlight.evict (h : InFlight L live u p vm₀ c none none vm) (hk : k.1 ∈ live)
    (hrec : vm.swapPool f = vm.record k) :
    InFlight L live u p vm₀ c (some f) (some (k, f)) (invalidate k vm) := by
  have howner := h.paged.record_owner hk hrec
  have hmap : (vm.table L live).map k = some f := h.kept k f howner (by simp)
  refine ⟨h.paged.invalidate howner, ?_, ?_, fun q hq => ?_, fun k' hk' => ?_, ?_, fun v => ?_⟩
  · rw [table_invalidate]
    exact h.kept.unmap howner
  · by_cases hkp : (u, p) = k
    · rw [hkp]
      exact pte_invalidate_not_valid k vm
    · rw [pte_invalidate_of_ne hkp]
      exact h.faulting
  · obtain rfl : (k, f) = q := Option.some.inj hq
    refine ⟨rfl, ?_⟩
    rw [table_invalidate]
    simp [Table.unmap]
  · rw [table_invalidate, Table.contentWith_unmap hmap]
    exact h.contents k' hk'
  · rw [swapPool_invalidate]
    exact h.pool
  · rw [asid_invalidate]
    exact h.asids v

theorem InFlight.writeBack (h : InFlight L live u p vm₀ c (some f) (some (k, f)) vm)
    (hk : k.1 ∈ live) {i : Fin UPROCMAX} (hi : flashDevice (vm.asid k.1) = some i) :
    InFlight L live u p vm₀ c (some f) none (vm.setBlock i (BitVec.ofNat 32 k.2.val) (vm.swapFrames f)) := by
  have htable := @table_setBlock L live vm h.paged.toUprocs k hk i hi f
  refine ⟨h.paged.same ⟨fun _ _ => rfl, fun _ _ => rfl⟩ rfl, ?_, h.faulting, by simp,
    fun k' hk' => ?_, h.pool, h.asids⟩
  · rw [htable]
    exact h.kept
  · rw [htable]
    exact (h.contents k' hk').trans (congrArg some (Table.content_writeBack (h.pending (k, f) rfl).2 k').symm)

/-- A write that goes wrong unnoticed changes what is on the device, but no entry and no record. -/
theorem InFlight.spoil (h : InFlight L live u p vm₀ c (some f) pend vm) (i : Fin UPROCMAX) (b : Word) (d : Page) :
    ∃ c', InFlight L live u p vm₀ c' (some f) none (vm.setBlock i b d) :=
  ⟨_, h.paged.same ⟨fun _ _ => rfl, fun _ _ => rfl⟩ rfl, h.kept, h.faulting, by simp, fun _ _ => rfl, h.pool, h.asids⟩

theorem InFlight.fill (h : InFlight L live u p vm₀ c (some f) none vm) (d : Page) :
    InFlight L live u p vm₀ c (some f) none (vm.setFrame f d) := by
  refine ⟨h.paged.same ⟨fun _ _ => rfl, fun _ _ => rfl⟩ rfl, h.kept, h.faulting, by simp,
    fun k hk => ?_, h.pool, h.asids⟩
  rw [table_setFrame]
  exact (h.contents k hk).trans (congrArg some (Table.content_fill h.paged.owned.detached d k).symm)

theorem InFlight.publish (h : InFlight L live u p vm₀ c (some f) none vm) (hu : u ∈ live)
    (hfill : Filled L live u p f vm) (slot : Fin TLBSIZE) : Served L live u p c (publish L u p f slot vm) := by
  have hmap := h.unmapped hu
  have htable := table_publish (L := L) u p f slot h.paged.toUprocs hu
  refine ⟨h.paged.publish u p f slot hu, ?_, ?_, fun k hk => ?_⟩
  · rw [htable]
    exact h.kept.publish hmap
  · rw [pte_publish_self]
    exact publishedLo_valid L f _ _
  · rw [htable, Table.content_publish hmap hfill]
    exact h.contents k hk

/-- A store of another U-proc changes the content of its page alone, and does not
reach the detached frame. -/
theorem Paged.store (h : Paged L live off vm) (hpend : ∀ q ∈ pend, off = some q.2 ∧ (vm.table L live).map q.1 = none)
    (hc : ∀ k : PtePtr, k.1 ∈ live → c k = some ((vm.table L live).contentWith pend k))
    (hk : k.1 ∈ live) (hv : (vm.pte k).valid) (w : Fin 1024) (v : Word) :
    ∃ g d, off ≠ some g ∧ storeWord L (vm.pte k).entryLo w v vm = vm.setFrame g d ∧
      ∀ k' : PtePtr, k'.1 ∈ live → Access.write (.store k w v) c k' =
        some (((vm.setFrame g d).table L live).contentWith pend k') := by
  obtain ⟨g, hg⟩ := h.framed k hk hv
  have hmap : (vm.table L live).map k = some g := table_map_eq_some.mpr ⟨hk, hv, hg⟩
  have hold : (vm.table L live).contentWith pend k = vm.swapFrames g := by
    cases hq : pend with
    | none => exact Table.content_of_map hmap
    | some q =>
      have hne : k ≠ q.1 := by
        rintro rfl
        rw [(hpend q hq).2] at hmap
        cases hmap
      simp only [Table.contentWith, hne, if_false]
      exact Table.content_of_map hmap
  refine ⟨g, Function.update (vm.swapFrames g) w v, (h.owned k g hmap).2, ?_, fun k' hk' => ?_⟩
  · simp only [storeWord, hg]
  · rw [table_setFrame, Table.contentWith_fill h.owned (fun q hq => (hpend q hq).1)
      (fun q hq => (hpend q hq).2) hmap]
    by_cases hkk : k' = k
    · subst hkk
      simp only [Access.write, Function.update_self, hc k' hk', Option.map_some, hold]
    · simp only [Access.write, Function.update_of_ne hkk, hc k' hk']

theorem InFlight.store (h : InFlight L live u p vm₀ c off pend vm) (hk : k.1 ∈ live)
    (hv : (vm.pte k).valid) (w : Fin 1024) (v : Word) :
    ∃ g d, off ≠ some g ∧ storeWord L (vm.pte k).entryLo w v vm = vm.setFrame g d ∧
      InFlight L live u p vm₀ (Access.write (.store k w v) c) off pend (vm.setFrame g d) := by
  obtain ⟨g, d, hg, hstore, hc⟩ := h.paged.store h.pending h.contents hk hv w v
  exact ⟨g, d, hg, hstore, h.paged.same ⟨fun _ _ => rfl, fun _ _ => rfl⟩ rfl, h.kept, h.faulting, h.pending,
    hc, h.pool, h.asids⟩

theorem Served.store (h : Served L live u p c vm) (hk : k.1 ∈ live) (hv : (vm.pte k).valid) (w : Fin 1024)
    (v : Word) : Served L live u p (Access.write (.store k w v) c) (storeWord L (vm.pte k).entryLo w v vm) := by
  obtain ⟨g, d, -, hstore, hc⟩ := @Paged.store L live vm c none none k h.paged (by simp) h.contents hk hv w v
  rw [hstore]
  exact ⟨h.paged.same ⟨fun _ _ => rfl, fun _ _ => rfl⟩ rfl, h.kept, h.valid, hc⟩

/-- The pager writes the victim to block `k.2` of the flash device of its owner. -/
theorem InFlight.write (h : InFlight L live u p vm₀ c (some f) (some (k, f)) vm) (hk : k.1 ∈ live)
    (hrec : vm.swapPool f = vm.record k) :
    ∃ vm' c', pagerStep L u a (.evicted p f (vm₀.asid k.1)) vm = some (.wrote p f (vm₀.asid k.1) a.status, vm') ∧
      InFlight L live u p vm₀ c' (some f) none vm' ∧ (a.ready → c' = c) := by
  obtain ⟨i, hi⟩ := flashDevice_isAsid (h.paged.asid k.1 hk)
  have hblock : flashBlock (writeCommand (vm.swapPool f).swPageNo) = BitVec.ofNat 32 k.2.val := by
    rw [hrec]
    exact (flashBlock_command k.2).1
  have hi₀ : flashDevice (vm₀.asid k.1) = some i := by rw [← h.asids, hi]
  have hstep : pagerStep L u a (.evicted p f (vm₀.asid k.1)) vm = some (.wrote p f (vm₀.asid k.1) a.status,
      vm.setBlock i (BitVec.ofNat 32 k.2.val) (a.transfer (vm.swapFrames f))) := by
    simp only [pagerStep, hi₀, hblock, Option.map_some]
  by_cases ha : a.ready
  · have htransfer : a.transfer (vm.swapFrames f) = vm.swapFrames f := if_pos ha
    rw [htransfer] at hstep
    exact ⟨_, c, hstep, h.writeBack hk hi, fun _ => rfl⟩
  · obtain ⟨c', h'⟩ := h.spoil i (BitVec.ofNat 32 k.2.val) (a.transfer (vm.swapFrames f))
    exact ⟨_, c', hstep, h', fun hready => absurd hready ha⟩

/-- The pager reads block `p` of its own flash device. -/
theorem InFlight.read (h : InFlight L live u p vm₀ c (some f) none vm) (hu : u ∈ live) :
    ∃ vm', pagerStep L u a (.reading p f) vm = some (.got p f (vm₀.asid u) a.status, vm') ∧
      InFlight L live u p vm₀ c (some f) none vm' ∧ (a.ready → Filled L live u p f vm') := by
  obtain ⟨i, hi⟩ := flashDevice_isAsid (h.paged.asid u hu)
  have hasid : pteAsid (vm.pte (u, p)).entryHi = vm.asid u := by
    rw [h.paged.entries (u, p) hu]
    exact (pageHi_fields (h.paged.asid u hu) p).2
  refine ⟨vm.setFrame f (a.transfer (vm.flash i (BitVec.ofNat 32 p.val))), ?_, h.fill _, fun ha => ?_⟩
  · simp only [pagerStep, hasid, hi, (flashBlock_command p).2, Option.map_some, ← h.asids]
  · rw [Filled, table_setFrame]
    show Function.update vm.swapFrames f _ f = (vm.table L live).store (u, p)
    rw [Function.update_self, table_store (k := (u, p)) hu hi]
    exact if_pos ha

/-- The pager is never stuck before its end, and every step keeps what holds; the contents
change only if a write goes wrong. -/
theorem Phase.pager {place : PagerAt} (h : Phase fails L live u p f vm₀ c place vm) (hu : u ∈ live)
    (hwrite : WriteOk fails place a) (hread : Reads fails place a) (hend : place.rank ≠ 0) :
    ∃ place' vm' c', pagerStep L u a place vm = some (place', vm') ∧ Phase fails L live u p f vm₀ c' place' vm' ∧
      (fails = false → c' = c) := by
  cases h with
  | locked hchoice h =>
    obtain ⟨hp, n, hn⟩ := hchoice
    refine ⟨.chosen p f, {vm with frameIndex := n}, c, ?_, .chosen ?_, fun _ => rfl⟩
    · simp only [pagerStep, hp, hn, Option.bind_some, Option.map_some]
    · exact ⟨h.paged.same ⟨fun _ _ => rfl, fun _ _ => rfl⟩ rfl, h.kept, h.faulting, h.pending, h.contents,
        h.pool, h.asids⟩
  | chosen h =>
    by_cases hf : (vm.swapPool f).swAsid = -1
    · exact ⟨_, _, c, if_pos hf, .reading (h.free hf), fun _ => rfl⟩
    · obtain ⟨k, hk, hrec⟩ := h.paged.tagged f hf
      have hstep : pagerStep L u a (.chosen p f) vm =
          some (.evicted p f (vm₀.asid k.1), invalidate k vm) := by
        simp only [pagerStep, hf, if_false]
        rw [hrec]
        simp only [Vm.record, Option.map_some, h.asids]
      refine ⟨_, _, c, hstep, .evicted hk ?_ (h.evict hk hrec), fun _ => rfl⟩
      rw [swapPool_invalidate, hrec, Vm.record, Vm.record, asid_invalidate]
  | evicted hk hrec h =>
    obtain ⟨vm', c', hstep, h', hsame⟩ := h.write (a := a) hk hrec
    cases fails with
    | false =>
      have hready : a.status &&& 0xff = 1 := hwrite
      have hne : a.status &&& 0xff ≠ 4 := by
        rw [hready]
        decide
      exact ⟨_, _, c', hstep, .wrote hne h', fun _ => hsame hready⟩
    | true => exact ⟨_, _, c', hstep, .wrote hwrite h', fun hfails => by cases hfails⟩
  | wrote hne h => exact ⟨_, _, c, if_neg hne, .reading h, fun _ => rfl⟩
  | reading h =>
    obtain ⟨vm', hstep, h', hfill⟩ := h.read (a := a) hu
    refine ⟨_, _, c, hstep, .got ?_ h', fun _ => rfl⟩
    cases fails with
    | false => exact ⟨hread, hfill hread⟩
    | true => exact hread
  | @got status _ hstatus h =>
    cases fails with
    | false =>
      have hne : ¬ status &&& 0xff = 5 := by
        rw [hstatus.1]
        decide
      exact ⟨_, _, c, if_neg hne, .loaded rfl hstatus.2 h, fun _ => rfl⟩
    | true => exact ⟨_, _, c, if_pos hstatus, .failed rfl h, fun _ => rfl⟩
  | loaded hok hfill h => exact ⟨_, _, c, rfl, .published hok (h.publish hu hfill a.slot), fun _ => rfl⟩
  | published _ _ => exact absurd rfl hend
  | failed _ _ => exact absurd rfl hend

/-- The choice does not depend on what the frames contain. -/
theorem pageReplacement_setFrame (g : Frame) (d : Page) (vm : Vm) :
    pageReplacement (vm.setFrame g d) = (pageReplacement vm).map fun r => (r.1, r.2.setFrame g d) := by
  simp only [pageReplacement, Vm.setFrame]
  split
  · rfl
  · simp only [Option.map_map]
    rfl

theorem Chooses.setFrame (h : Chooses u p f vm) (g : Frame) (d : Page) : Chooses u p f (vm.setFrame g d) := by
  obtain ⟨hp, n, hn⟩ := h
  refine ⟨hp, n, ?_⟩
  rw [pageReplacement_setFrame, hn]
  rfl

/-- A store of another U-proc keeps what holds, with the store in the contents. -/
theorem Phase.store {place : PagerAt} (h : Phase fails L live u p f vm₀ c place vm)
    (hk : k.1 ∈ live) (hv : (vm.pte k).valid) (w : Fin 1024) (v : Word) :
    Phase fails L live u p f vm₀ (Access.write (.store k w v) c) place (storeWord L (vm.pte k).entryLo w v vm) := by
  have hfilled : ∀ g d, some f ≠ some g → Filled L live u p f vm → Filled L live u p f (vm.setFrame g d) := by
    intro g d hg hfill
    have hfg : f ≠ g := fun he => hg (congrArg some he)
    exact (Function.update_of_ne hfg _ _).trans hfill
  cases h with
  | locked hchoice h =>
    obtain ⟨g, d, -, hstore, h'⟩ := h.store hk hv w v
    exact hstore ▸ .locked (hchoice.setFrame g d) h'
  | chosen h =>
    obtain ⟨g, d, -, hstore, h'⟩ := h.store hk hv w v
    exact hstore ▸ .chosen h'
  | evicted hk' hrec h =>
    obtain ⟨g, d, -, hstore, h'⟩ := h.store hk hv w v
    rw [hstore]
    exact .evicted hk' hrec h'
  | wrote hok h =>
    obtain ⟨g, d, -, hstore, h'⟩ := h.store hk hv w v
    exact hstore ▸ .wrote hok h'
  | reading h =>
    obtain ⟨g, d, -, hstore, h'⟩ := h.store hk hv w v
    exact hstore ▸ .reading h'
  | got hstatus h =>
    obtain ⟨g, d, hg, hstore, h'⟩ := h.store hk hv w v
    refine hstore ▸ .got ?_ h'
    cases fails with
    | false => exact ⟨hstatus.1, hfilled g d hg hstatus.2⟩
    | true => exact hstatus
  | loaded hok hfill h =>
    obtain ⟨g, d, hg, hstore, h'⟩ := h.store hk hv w v
    exact hstore ▸ .loaded hok (hfilled g d hg hfill) h'
  | published hok h => exact .published hok (h.store hk hv w v)
  | failed hfail h =>
    obtain ⟨g, d, -, hstore, h'⟩ := h.store hk hv w v
    exact hstore ▸ .failed hfail h'

/-- What a load through a valid entry reads is the content of its page, whatever is
on its way out. -/
theorem InFlight.content_valid (h : InFlight L live u p vm₀ c off pend vm) (hk : k.1 ∈ live)
    (hv : (vm.pte k).valid) : content L vm k = c k := by
  rw [content_eq h.paged hk, h.contents k hk]
  cases hq : pend with
  | none => rfl
  | some q =>
    have hne : k ≠ q.1 := by
      rintro rfl
      exact (table_map_eq_none h.paged hk).mp (h.pending q hq).2 hv
    simp only [Table.contentWith, hne, if_false]

theorem Phase.content_valid {place : PagerAt} (h : Phase fails L live u p f vm₀ c place vm) (hk : k.1 ∈ live)
    (hv : (vm.pte k).valid) : content L vm k = c k := by
  cases h with
  | locked _ h => exact h.content_valid hk hv
  | chosen h => exact h.content_valid hk hv
  | evicted _ _ h => exact h.content_valid hk hv
  | wrote _ h => exact h.content_valid hk hv
  | reading h => exact h.content_valid hk hv
  | got _ h => exact h.content_valid hk hv
  | loaded _ _ h => exact h.content_valid hk hv
  | published _ h => rw [content_eq h.paged hk, h.contents k hk]
  | failed _ h => exact h.content_valid hk hv

/-- The pager has `swapPoolSemaphore` and serves page `p` with frame `f`, or goes on to
choose them. -/
def Starts (u : SupPtr) (p : PageNo) (f : Frame) (s : Fault) : Prop :=
  s.place = .chosen p f ∨ s.place = .locked ∧ Chooses u p f s.vm

/-- A whole fault: what holds at its last place, and how far the pager has come. -/
theorem run_phase {s₀ : Fault} (hlive : Uprocs live s₀.vm) (hagree : Agree L live s₀.vm) (hu : u ∈ live)
    (hp : ¬ (s₀.vm.pte (u, p)).valid) (hstart : Starts u p f s₀) {es : List Access} {s : Fault}
    (h : Run (faultStep L u) (Others fails live u) s₀ es s) :
    (∃ c, Phase fails L live u p f s₀.vm c s.place s.vm ∧ (fails = false → c = written es (content L s₀.vm))) ∧
      es.countP Access.isPager + s.place.rank ≤ 7 := by
  obtain ⟨hpaged, hkept⟩ := (agree_iff hlive).mp hagree
  induction h with
  | nil =>
    have hflight : InFlight L live u p s₀.vm (content L s₀.vm) none none s₀.vm :=
      ⟨hpaged, hkept, hp, by simp, fun k hk => content_eq hpaged hk, rfl, fun _ => rfl⟩
    rcases hstart with hplace | ⟨hplace, hchoice⟩
    · rw [hplace]
      exact ⟨⟨_, .chosen hflight, fun _ => rfl⟩, by simp [PagerAt.rank]⟩
    · rw [hplace]
      exact ⟨⟨_, .locked hchoice hflight, fun _ => rfl⟩, by simp [PagerAt.rank]⟩
  | @snoc es s e s' _ hok hstep ih =>
    obtain ⟨⟨c, hphase, hc⟩, hcount⟩ := ih
    rw [written_snoc, List.countP_append]
    cases e with
    | pager a =>
      obtain ⟨r, hr, rfl⟩ := Option.map_eq_some_iff.mp hstep
      have hrank : r.1.rank < s.place.rank := pagerStep_rank hr
      obtain ⟨place', vm', c', hr', hphase', hc'⟩ := hphase.pager hu hok.1 hok.2 (by omega)
      obtain rfl : r = (place', vm') := Option.some.inj (hr.symm.trans hr')
      refine ⟨⟨c', hphase', fun hfails => (hc' hfails).trans (hc hfails)⟩, ?_⟩
      simp only [List.countP_singleton, Access.isPager, if_true]
      dsimp only at hrank
      omega
    | load k w =>
      obtain rfl : s = s' := Option.some.inj hstep
      exact ⟨⟨c, hphase, hc⟩, by simpa [Access.isPager] using hcount⟩
    | store k w v =>
      obtain rfl : _ = s' := Option.some.inj hstep
      refine ⟨⟨_, hphase.store hok.1 hok.2.2 w v, fun hfails => ?_⟩, by simpa [Access.isPager] using hcount⟩
      rw [hc hfails]

end Steps

/-! ### Faults that are served -/

/-- **Transparency of the pager**: a fault whose transfers succeed is over after at
most seven steps of the pager, which is never stuck before; the entry is then valid,
the swap pool and the page tables agree, and the pages contain what the stores of the
others have made of them. Until then, too, the others read what has been stored. -/
theorem pager_transparent {L : PoolLayout} {live : Set SupPtr} {u : SupPtr} {p : PageNo} {f : Frame}
    {s₀ s : Fault} {es : List Access} (hlive : Uprocs live s₀.vm) (hagree : Agree L live s₀.vm) (hu : u ∈ live)
    (hp : ¬ (s₀.vm.pte (u, p)).valid) (hstart : Starts u p f s₀)
    (h : Run (faultStep L u) (Others false live u) s₀ es s) :
    es.countP Access.isPager + s.place.rank ≤ 7 ∧
      (s.place ≠ .published → ∀ a, Others false live u s (.pager a) → (faultStep L u (.pager a) s).isSome) ∧
      (∀ k : PtePtr, k.1 ∈ live → (s.vm.pte k).valid → content L s.vm k = written es (content L s₀.vm) k) ∧
      (s.place = .published → (s.vm.pte (u, p)).valid ∧ Agree L live s.vm ∧
        ∀ k : PtePtr, k.1 ∈ live → content L s.vm k = written es (content L s₀.vm) k) := by
  obtain ⟨⟨c, hphase, hc⟩, hcount⟩ := run_phase hlive hagree hu hp hstart h
  obtain rfl := hc rfl
  refine ⟨hcount, fun hend a ha => ?_, fun k hk hv => hphase.content_valid hk hv, fun hend => ?_⟩
  · have hrank : s.place.rank ≠ 0 := by
      cases hplace : s.place with
      | published => exact absurd hplace hend
      | failed asid =>
        rw [hplace] at hphase
        cases hphase with
        | failed hfail _ => cases hfail
      | _ => simp [PagerAt.rank]
    obtain ⟨place', vm', -, hstep, -⟩ := hphase.pager hu ha.1 ha.2 hrank
    simp [faultStep, hstep]
  · rw [hend] at hphase
    cases hphase with
    | published _ hserved =>
      refine ⟨hserved.valid, (agree_iff hserved.paged.toUprocs).mpr ⟨hserved.paged, hserved.kept⟩,
        fun k hk => ?_⟩
      rw [content_eq hserved.paged hk, hserved.contents k hk]

namespace FaultSample

def layout : PoolLayout := ⟨0x20010, by decide⟩

def handlers : Handlers := ⟨0x20005000, 0x20006000, 0x20007000, 0x20008000⟩

def shell : SupPtr := ⟨7, by decide⟩
def program : SupPtr := ⟨6, by decide⟩

def live : Set SupPtr := {u | u = shell ∨ u = program}

instance : DecidablePred (· ∈ live) := fun u => inferInstanceAs (Decidable (u = shell ∨ u = program))

/-- The page of the shell in frame `f`. -/
def held (f : Frame) : PtePtr := (shell, Fin.castLE (by decide) f)

def blank : Support := ⟨0, fun _ => State.zero, fun _ => ⟨0, 0, 0⟩, fun _ => ⟨0, 0⟩⟩

/-- The first sixteen pages of the shell fill the pool and the program faults on its
first page. -/
def vm : Vm :=
  { swapPool := fun f => ⟨1, BitVec.ofNat 32 f.val, some (held f)⟩
    frameIndex := 0
    swapFrames := fun f _ => BitVec.ofNat 32 f.val
    supportPool := fun u =>
      if u = shell then
        {initSupportStructure handlers 1 blank with
          supPrivatePgTbl := fun p =>
            if h : p.val < POOLSIZE then ⟨pageHi 1 p, publishedLo layout ⟨p.val, h⟩ DIRTYON⟩
            else ⟨pageHi 1 p, DIRTYON⟩}
      else if u = program then
        {initSupportStructure handlers 2 blank with
          supExceptState := fun _ => {State.zero with entryHi := 0x80000000 ||| (2 <<< ASIDSHIFT)}}
      else blank
    flash := fun _ b _ => b
    tlb := fun _ => ⟨0, 0⟩ }

def start : Fault := ⟨.locked, vm⟩

def page : PageNo := ⟨0, by decide⟩
def frame : Frame := ⟨1, by decide⟩

theorem uprocs : Uprocs live vm := by
  refine ⟨?_, ?_, ?_⟩
  · show ∀ u, (u = shell ∨ u = program) → isAsid (vm.asid u)
    decide +kernel
  · show ∀ u, (u = shell ∨ u = program) → ∀ v, (v = shell ∨ v = program) → vm.asid u = vm.asid v → u = v
    decide +kernel
  · rintro ⟨u, p⟩ hu
    revert u p
    show ∀ u p, (u = shell ∨ u = program) → (vm.pte (u, p)).entryHi = pageHi (vm.asid u) p
    decide +kernel

theorem agree : Agree layout live vm := by
  have hheld : ∀ f, (vm.pte (held f)).valid ∧ (vm.pte (held f)).entryLo &&& 0xFFFFF000 = layout.swapFrames f ∧
      vm.swapPool f = vm.record (held f) := by
    decide +kernel
  have hvalid : ∀ u p, (u = shell ∨ u = program) → (vm.pte (u, p)).valid → ∃ f, (u, p) = held f := by
    decide +kernel
  constructor
  · intro f _
    obtain ⟨hv, hlo, hrec⟩ := hheld f
    refine ⟨held f, ⟨.inl rfl, hrec, hv, hlo⟩, fun k hk => ?_⟩
    exact (Option.some.inj (congrArg Swap.swPte (hrec.symm.trans hk.2.1))).symm
  · rintro ⟨u, p⟩ hu hv
    obtain ⟨f, hf⟩ := hvalid u p hu hv
    rw [hf]
    refine ⟨f, (hheld f).2.2, fun g hg => ?_⟩
    have hsame : held g = held f := Option.some.inj (congrArg Swap.swPte hg)
    exact Fin.ext (congrArg (fun k : PtePtr => k.2.val) hsame)

theorem starts : Starts program page frame start := by
  refine .inr ⟨rfl, ?_, 1, ?_⟩
  · decide +kernel
  · rfl

/-- The device answers `status`. -/
def answer (status : Word) : Access := .pager ⟨status, fun _ => 0, ⟨5, by decide⟩⟩

/-- The program is served while the shell goes on writing to its first page. -/
def served : List Access :=
  [answer 0, answer 0, .store (held ⟨0, by decide⟩) ⟨3, by decide⟩ 99, answer 1, answer 0,
    .load (held ⟨2, by decide⟩) ⟨0, by decide⟩, answer 1, answer 0, answer 0]

end FaultSample

open FaultSample in
theorem pager_transparent_sample :
    ∃ s, exec (faultStep layout program) served start = some s ∧ s.place = .published ∧
      Agree layout live s.vm ∧
      ∀ k : PtePtr, k.1 ∈ live → content layout s.vm k = written served (content layout vm) k := by
  have hfollows : Follows (faultStep layout program) (Others false live program) served start := by
    decide +kernel
  obtain ⟨s, hexec, hrun⟩ := hfollows.run
  have hdone : (exec (faultStep layout program) served start).all (fun s => s.place = .published) = true := by
    decide +kernel
  rw [hexec] at hdone
  have hplace : s.place = .published := by simpa using hdone
  have hp : ¬ (vm.pte (program, page)).valid := by decide +kernel
  obtain ⟨-, -, -, hend⟩ := pager_transparent uprocs agree (.inr rfl) hp starts hrun
  exact ⟨s, hexec, hplace, (hend hplace).2⟩

/-! ### Faults that end in a read error -/

/-- What `TerminateSys(asid)` makes of the memory, for the process whose support
structure is `u`. -/
def released (u : SupPtr) (asid : Word) (vm : Vm) : Vm := (freeSwapFrames asid vm).setAsid u 0

/-- A fault of a U-proc in `live` is served. -/
def Serviced (L : PoolLayout) (live : Set SupPtr) (vm vm' : Vm) : Prop :=
  ∃ u ∈ live, ∃ p f s₀ es, s₀.vm = vm ∧ ¬ (vm.pte (u, p)).valid ∧ Starts u p f s₀ ∧
    Run (faultStep L u) (Others false live u) s₀ es ⟨.published, vm'⟩

/-- The swap pool is consistent after a fault that failed in frame `f`: the frame is
free, the others are recorded for one valid page each, and no page is recorded twice
whatever faults are served from now on. -/
structure Clean (L : PoolLayout) (live : Set SupPtr) (f : Frame) (vm : Vm) : Prop where
  free : (vm.swapPool f).swAsid = -1
  agree : Agree L live vm
  later : ∀ vm', Relation.ReflTransGen (Serviced L live) vm vm' → RecordedOnce vm'

section Errors
variable {L : PoolLayout} {live : Set SupPtr} {u : SupPtr} {p : PageNo} {f : Frame} {vm₀ vm vm' : Vm}
  {c : PtePtr → Option Page}

theorem Serviced.agree (h : Serviced L live vm vm') (hlive : Uprocs live vm) (hagree : Agree L live vm) :
    Uprocs live vm' ∧ Agree L live vm' := by
  obtain ⟨u, hu, p, f, s₀, es, rfl, hp, hstart, hrun⟩ := h
  obtain ⟨⟨c, hphase, -⟩, -⟩ := run_phase hlive hagree hu hp hstart hrun
  cases hphase with
  | published _ hserved =>
    have hlive' := hserved.paged.toUprocs
    exact ⟨hlive', (agree_iff hlive').mpr ⟨hserved.paged, hserved.kept⟩⟩

/-- Agreement lasts, and keeps every page in one frame. -/
theorem recordedOnce_of_agree (hlive : Uprocs live vm) (hagree : Agree L live vm)
    (h : Relation.ReflTransGen (Serviced L live) vm vm') : RecordedOnce vm' := by
  have hall : Uprocs live vm' ∧ Agree L live vm' := by
    induction h with
    | refl => exact ⟨hlive, hagree⟩
    | tail _ hstep ih => exact hstep.agree ih.1 ih.2
  obtain ⟨hpaged, hkept⟩ := (agree_iff hall.1).mp hall.2
  exact hpaged.recordedOnce hkept

theorem swapPool_released (u : SupPtr) (asid : Word) (vm : Vm) (g : Frame) :
    (released u asid vm).swapPool g = if (vm.swapPool g).swAsid = asid then Swap.free else vm.swapPool g := rfl

theorem InFlight.released (h : InFlight L live u p vm₀ c (some f) none vm) (hu : u ∈ live) :
    Paged L (live \ {u}) none (released u (vm₀.asid u) vm) := by
  have hpaged := h.paged.freeSwapFrames hu
  rw [h.asids] at hpaged
  exact hpaged.same (sameTables_setAsid (by simp) 0 _) rfl

/-- A frame that held nothing of the others is free in the end, and they agree. -/
theorem InFlight.clean (h : InFlight L live u p vm₀ c (some f) none vm) (hu : u ∈ live)
    (hf : (vm₀.swapPool f).swAsid = -1 ∨ (vm₀.swapPool f).swAsid = vm₀.asid u) :
    Clean L (live \ {u}) f (MultiPandOS.released u (vm₀.asid u) vm) := by
  have hpaged := h.released hu
  have hfree : ((MultiPandOS.released u (vm₀.asid u) vm).swapPool f).swAsid = -1 := by
    rw [swapPool_released, h.pool]
    rcases hf with hf | hf
    · split
      · rfl
      · exact hf
    · rw [if_pos hf]
      rfl
  have hkept : ((MultiPandOS.released u (vm₀.asid u) vm).table L (live \ {u})).Kept none := by
    intro k g hg _
    obtain ⟨⟨hk, hku⟩, hrec⟩ := hpaged.owner_record hg
    have hgf : g ≠ f := by
      rintro rfl
      exact (table_owner_eq_some.mp hg).1 hfree
    have hasid : (vm.swapPool g).swAsid ≠ vm₀.asid u := by
      intro hsame
      rw [swapPool_released, if_pos hsame] at hrec
      exact absurd (congrArg Swap.swPte hrec) (by simp [Swap.free, Vm.record])
    have hpool : (MultiPandOS.released u (vm₀.asid u) vm).swapPool g = vm.swapPool g := by
      rw [swapPool_released, if_neg hasid]
    have howner : (vm.table L live).owner g = some k := by
      rw [table_owner_eq_some] at hg ⊢
      rwa [hpool] at hg
    obtain ⟨-, hv, hlo⟩ := table_map_eq_some.mp (h.kept k g howner (by simpa using Ne.symm hgf))
    have hpte := (@sameTables_setAsid (live \ {u}) u (by simp) 0
      (freeSwapFrames (vm₀.asid u) vm)).pte k ⟨hk, hku⟩
    exact table_map_eq_some.mpr ⟨⟨hk, hku⟩, hpte ▸ hv, hpte ▸ hlo⟩
  have hagree := (agree_iff hpaged.toUprocs).mpr ⟨hpaged, hkept⟩
  exact ⟨hfree, hagree, fun vm' hlater => recordedOnce_of_agree hpaged.toUprocs hagree hlater⟩

/-- A frame that held a page of another U-proc stays recorded for it, though its entry
is invalid. -/
theorem InFlight.of_agree (h : InFlight L live u p vm₀ c (some f) none vm)
    (hagree : Agree L (live \ {u}) (MultiPandOS.released u (vm₀.asid u) vm)) :
    (vm₀.swapPool f).swAsid = -1 ∨ (vm₀.swapPool f).swAsid = vm₀.asid u := by
  by_contra hf
  obtain ⟨hocc, hown⟩ := not_or.mp hf
  have hpool : (MultiPandOS.released u (vm₀.asid u) vm).swapPool f = vm₀.swapPool f := by
    rw [swapPool_released, h.pool, if_neg hown]
  obtain ⟨k, ⟨⟨hk, hku⟩, -, hv, hlo⟩, -⟩ := hagree.record f (by rwa [hpool])
  have hpte := (@sameTables_setAsid (live \ {u}) u (by simp) 0
    (freeSwapFrames (vm₀.asid u) vm)).pte k ⟨hk, hku⟩
  have hmap : (vm.table L live).map k = some f :=
    table_map_eq_some.mpr ⟨hk, hpte ▸ hv, frameAt_eq_some.mpr (hpte ▸ hlo)⟩
  exact h.paged.owned.detached k hmap

end Errors

/-- **Read errors**: a fault whose read fails with the status the pager looks for ends
after at most seven steps of the pager, never stuck before, even if the write back of the
victim went wrong unnoticed. Once the U-proc is gone the swap pool is consistent exactly if
the frame it had chosen was free or its own. -/
theorem read_error_iff {L : PoolLayout} {live : Set SupPtr} {u : SupPtr} {p : PageNo} {f : Frame}
    {s₀ s : Fault} {es : List Access} (hlive : Uprocs live s₀.vm) (hagree : Agree L live s₀.vm) (hu : u ∈ live)
    (hp : ¬ (s₀.vm.pte (u, p)).valid) (hstart : Starts u p f s₀)
    (h : Run (faultStep L u) (Others true live u) s₀ es s) :
    es.countP Access.isPager + s.place.rank ≤ 7 ∧
      (s.place.rank ≠ 0 → ∀ a, Others true live u s (.pager a) → (faultStep L u (.pager a) s).isSome) ∧
      (s.place.rank = 0 → ∃ asid, s.place = .failed asid ∧
        (Clean L (live \ {u}) f (released u asid s.vm) ↔
          (s₀.vm.swapPool f).swAsid = -1 ∨ (s₀.vm.swapPool f).swAsid = s₀.vm.asid u) ∧
        (Agree L (live \ {u}) (released u asid s.vm) →
          (s₀.vm.swapPool f).swAsid = -1 ∨ (s₀.vm.swapPool f).swAsid = s₀.vm.asid u)) := by
  obtain ⟨⟨c, hphase, -⟩, hcount⟩ := run_phase hlive hagree hu hp hstart h
  refine ⟨hcount, fun hend a ha => ?_, fun hend => ?_⟩
  · obtain ⟨place', vm', -, hstep, -⟩ := hphase.pager hu ha.1 ha.2 hend
    simp [faultStep, hstep]
  · obtain ⟨place, vm⟩ := s
    cases hphase with
    | published hok _ => cases hok
    | failed _ hflight =>
      exact ⟨_, rfl, ⟨fun hclean => hflight.of_agree hclean.agree, hflight.clean hu⟩, hflight.of_agree⟩
    | _ => cases hend

namespace FaultSample

/-- The write back succeeds and the read fails. -/
def failing : List Access := [answer 0, answer 0, answer 1, answer 0, answer 5, answer 0]

theorem failing_run : ∃ s, exec (faultStep layout program) failing start = some s ∧
    Run (faultStep layout program) (Others true live program) start failing s := by
  have hfollows : Follows (faultStep layout program) (Others true live program) failing start := by
    decide +kernel
  exact hfollows.run

def frame' : Frame := ⟨2, by decide⟩

/-- The shell faults on the page that was evicted, with the next frame. -/
def again (vm : Vm) : Fault := ⟨.chosen (held frame).2 frame', vm⟩

def repaged : List Access := [answer 0, answer 1, answer 0, answer 1, answer 0, answer 0]

instance : DecidablePred (· ∈ live \ {program}) := fun u =>
  inferInstanceAs (Decidable ((u = shell ∨ u = program) ∧ ¬ u = program))

end FaultSample

open FaultSample in
theorem read_error_iff_sample :
    ∃ s asid, exec (faultStep layout program) failing start = some s ∧ s.place = .failed asid ∧
      ¬ Clean layout (live \ {program}) frame (released program asid s.vm) := by
  obtain ⟨s, hexec, hrun⟩ := failing_run
  have hdone : (exec (faultStep layout program) failing start).all (fun s => s.place.rank = 0) = true := by
    decide +kernel
  rw [hexec] at hdone
  have hrank : s.place.rank = 0 := by simpa using hdone
  have hp : ¬ (vm.pte (program, page)).valid := by decide +kernel
  obtain ⟨-, -, hend⟩ := read_error_iff uprocs agree (.inr rfl) hp starts hrun
  obtain ⟨asid, hplace, hiff, -⟩ := hend hrank
  have hcond : ¬ ((vm.swapPool frame).swAsid = -1 ∨ (vm.swapPool frame).swAsid = vm.asid program) := by
    decide +kernel
  exact ⟨s, asid, hexec, hplace, fun hclean => hcond (hiff.mp hclean)⟩

open FaultSample in
/-- The evicted page of the shell stays recorded, and after the next fault on it two
frames are recorded for it. -/
theorem read_error_leaves_record :
    Uprocs live start.vm ∧ Agree layout live start.vm ∧ ¬ (start.vm.pte (program, page)).valid ∧
      Starts program page frame start ∧
      ∃ s, Run (faultStep layout program) (Others true live program) start failing s ∧ s.place = .failed 2 ∧
        ¬ Agree layout (live \ {program}) (released program 2 s.vm) ∧
        ∃ s', Run (faultStep layout shell) (Others false (live \ {program}) shell)
            (again (released program 2 s.vm)) repaged s' ∧ s'.place = .published ∧ ¬ RecordedOnce s'.vm := by
  obtain ⟨s, hexec, hrun⟩ := failing_run
  have hstale : (exec (faultStep layout program) failing start).all (fun s => s.place = .failed 2 ∧
      ((released program 2 s.vm).swapPool frame).swAsid = 1 ∧
      ((released program 2 s.vm).swapPool frame).swPte = some (held frame) ∧
      ¬ ((released program 2 s.vm).pte (held frame)).valid ∧
      Follows (faultStep layout shell) (Others false (live \ {program}) shell) repaged
        (again (released program 2 s.vm))) = true := by
    decide +kernel
  have htwice : (exec (faultStep layout program) failing start).all (fun s =>
      (exec (faultStep layout shell) repaged (again (released program 2 s.vm))).all fun s' =>
        s'.place = .published ∧ (s'.vm.swapPool frame).swAsid = 1 ∧
        (s'.vm.swapPool frame).swAsid = (s'.vm.swapPool frame').swAsid ∧
        (s'.vm.swapPool frame).swPageNo = (s'.vm.swapPool frame').swPageNo) = true := by
    decide +kernel
  rw [hexec] at hstale htwice
  obtain ⟨hplace, hasid, hpte, hinvalid, hfollows⟩ := of_decide_eq_true hstale
  obtain ⟨s', hexec', hrun'⟩ := hfollows.run
  simp only [Option.all_some, hexec'] at htwice
  obtain ⟨hplace', hocc, hsame, hpage⟩ := of_decide_eq_true htwice
  refine ⟨uprocs, agree, by decide +kernel, starts, s, hrun, hplace, fun hbad => ?_, s', hrun', hplace',
    fun honce => ?_⟩
  · obtain ⟨k, ⟨-, hrec, hv, -⟩, -⟩ := hbad.record frame (by rw [hasid]; decide)
    have hk : k = held frame := Option.some.inj ((congrArg Swap.swPte hrec).symm.trans hpte)
    exact hinvalid (hk ▸ hv)
  · have hframes := honce frame frame' (by rw [hocc]; decide) hsame hpage
    exact absurd hframes (by decide)

end MultiPandOS
