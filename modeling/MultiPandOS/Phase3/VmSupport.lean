import MultiPandOS.Headers.Types

/-! Virtual memory (`phase3/vmSupport.c`) and the refill handler of the nucleus.

A `pteEntry_t *` that points into a page table is the support structure and the
index of the entry. `Vm` is the memory these functions work on, the flash devices
and the TLB. The pager gives up the processor at every DOIO, so it is a step
function on the places where it can be (`PagerAt`); the semaphore calls around
those places belong to the machine that runs it. -/
namespace MultiPandOS

def VPNSHIFT : Nat := 12
def ASIDSHIFT : Nat := 6
def STACK_PAGE : Word := 0xBFFFF
def DIRTYON : Word := 0x400
def VALIDON : Word := 0x200
def VALIDOFF : Word := 0xFFFFFDFF
def TLBINVLDMOD : Word := 1
def FLASHREAD : Word := 2
def FLASHWRITE : Word := 3
def TLBSIZE : Nat := 16

abbrev Frame := Fin POOLSIZE
abbrev PageNo := Fin USERPGTBLSIZE
abbrev SupPtr := Fin UPROCMAX
abbrev PtePtr := SupPtr × PageNo

/-- The `PAGESIZE / WORDLEN` words of a page. -/
abbrev Page := Fin 1024 → Word

/-- The element of an array of `n` that the index `i` selects, none outside of it. -/
def arrayIndex (n : Nat) (i : Word) : Option (Fin n) :=
  if h : i.toNat < n then some ⟨i.toNat, h⟩ else none

/-- `swap_t`. -/
structure Swap where
  swAsid : Word
  swPageNo : Word
  swPte : Option PtePtr
deriving DecidableEq

def Swap.free : Swap := ⟨-1, -1, none⟩

/-- The memory of the support level, the flash devices by block and the TLB. -/
structure Vm where
  swapPool : Frame → Swap
  frameIndex : Word
  swapFrames : Frame → Page
  supportPool : SupPtr → Support
  flash : Fin UPROCMAX → Word → Page
  tlb : Fin TLBSIZE → PteEntry

/-- Where the linker put `swapFrames`: pages that do not wrap around the address
space. -/
structure PoolLayout where
  page : BitVec 20
  fits : page.toNat + POOLSIZE ≤ 2 ^ 20

/-- `swapFrames[f]`. -/
def PoolLayout.swapFrames (L : PoolLayout) (f : Frame) : Addr :=
  (L.page + BitVec.ofNat 20 f.val) ++ 0#12

namespace Vm

def pte (k : PtePtr) (vm : Vm) : PteEntry := (vm.supportPool k.1).supPrivatePgTbl k.2

def setPte (k : PtePtr) (e : PteEntry) (vm : Vm) : Vm :=
  let old := vm.supportPool k.1
  let new := {old with supPrivatePgTbl := Function.update old.supPrivatePgTbl k.2 e}
  {vm with supportPool := Function.update vm.supportPool k.1 new}

/-- `sup->sup_asid = asid`. -/
def setAsid (u : SupPtr) (asid : Word) (vm : Vm) : Vm :=
  {vm with supportPool := Function.update vm.supportPool u {vm.supportPool u with supAsid := asid}}

def setTlb (i : Fin TLBSIZE) (e : PteEntry) (vm : Vm) : Vm :=
  {vm with tlb := Function.update vm.tlb i e}

def setSwap (f : Frame) (r : Swap) (vm : Vm) : Vm :=
  {vm with swapPool := Function.update vm.swapPool f r}

def setFrame (f : Frame) (d : Page) (vm : Vm) : Vm :=
  {vm with swapFrames := Function.update vm.swapFrames f d}

def setBlock (i : Fin UPROCMAX) (b : Word) (d : Page) (vm : Vm) : Vm :=
  {vm with flash := Function.update vm.flash i (Function.update (vm.flash i) b d)}

end Vm

/-! ### The TLB -/

/-- The V bit. -/
def PteEntry.valid (e : PteEntry) : Prop := e.entryLo &&& VALIDON ≠ 0

instance (e : PteEntry) : Decidable e.valid := inferInstanceAs (Decidable (_ ≠ _))

/-- An entry matches on VPN and ASID. -/
def tlbMatch (hi hi' : Word) : Bool := hi &&& 0xFFFFFFC0 == hi' &&& 0xFFFFFFC0

/-- TLBP: what INDEX holds, none for `PRESENTFLAG`. -/
def TLBP (hi : Word) (vm : Vm) : Option (Fin TLBSIZE) :=
  (List.finRange TLBSIZE).find? fun i => tlbMatch hi (vm.tlb i).entryHi

/-- The frame at a physical address of an entry, if the address is in `swapFrames`. -/
def frameAt (L : PoolLayout) (lo : Word) : Option Frame :=
  (List.finRange POOLSIZE).find? fun f => lo &&& 0xFFFFF000 == L.swapFrames f

/-! The words of `pte_entryLO`. -/

theorem PoolLayout.swapFrames_aligned (L : PoolLayout) (f : Frame) :
    L.swapFrames f &&& 0xFFFFF000 = L.swapFrames f := by
  show ((L.page + BitVec.ofNat 20 f.val) ++ 0#12) &&& (BitVec.allOnes 20 ++ 0#12) = _
  rw [BitVec.and_append, BitVec.and_allOnes, BitVec.and_self]
  rfl

theorem PoolLayout.swapFrames_inj (L : PoolLayout) {f g : Frame} (h : L.swapFrames f = L.swapFrames g) :
    f = g := by
  have hpage := (BitVec.append_left_inj _).mp h
  have hf : f.val < 16 := f.isLt
  have hg : g.val < 16 := g.isLt
  have hval := congrArg BitVec.toNat (BitVec.add_right_inj L.page |>.mp hpage)
  rw [BitVec.toNat_ofNat, BitVec.toNat_ofNat, Nat.mod_eq_of_lt (by omega), Nat.mod_eq_of_lt (by omega)] at hval
  exact Fin.ext hval

theorem frameAt_eq_some {L : PoolLayout} {lo : Word} {f : Frame} :
    frameAt L lo = some f ↔ lo &&& 0xFFFFF000 = L.swapFrames f := by
  have hfound : ∀ g, frameAt L lo = some g → lo &&& 0xFFFFF000 = L.swapFrames g := by
    intro g hg
    have := @List.find?_some _ (fun f => lo &&& 0xFFFFF000 == L.swapFrames f) g _ hg
    exact eq_of_beq this
  constructor
  · exact hfound f
  · intro h
    have hsome : (frameAt L lo).isSome := by
      rw [frameAt, List.find?_isSome]
      exact ⟨f, List.mem_finRange f, beq_iff_eq.mpr h⟩
    obtain ⟨g, hg⟩ := Option.isSome_iff_exists.mp hsome
    rw [hg, L.swapFrames_inj ((hfound g hg).symm.trans h)]

theorem invalidated_not_valid (hi lo : Word) : ¬ PteEntry.valid ⟨hi, lo &&& VALIDOFF⟩ := by
  show ¬ (lo &&& VALIDOFF) &&& VALIDON ≠ 0
  rw [BitVec.and_assoc, show VALIDOFF &&& VALIDON = 0 by decide, not_not]
  exact BitVec.and_zero

/-- What `pager` stores in `pte_entryLO`. -/
def publishedLo (L : PoolLayout) (f : Frame) (lo : Word) : Word :=
  ((lo ||| VALIDON) &&& 0xFFF) ||| (L.swapFrames f &&& 0xFFFFF000)

theorem publishedLo_valid (L : PoolLayout) (f : Frame) (hi lo : Word) :
    PteEntry.valid ⟨hi, publishedLo L f lo⟩ := by
  intro h
  have hbit := congrArg (BitVec.getLsbD · 9) h
  simp [publishedLo, VALIDON] at hbit

theorem frameAt_publishedLo (L : PoolLayout) (f : Frame) (lo : Word) :
    frameAt L (publishedLo L f lo) = some f := by
  rw [frameAt_eq_some, publishedLo, BitVec.and_or_distrib_right, BitVec.and_assoc,
    show (0xFFF : Word) &&& 0xFFFFF000 = 0 by decide, BitVec.and_assoc,
    show (0xFFFFF000 : Word) &&& 0xFFFFF000 = 0xFFFFF000 by decide, L.swapFrames_aligned]
  simp

/-- A store to word `w` of the physical page of an entry. -/
def storeWord (L : PoolLayout) (lo : Word) (w : Fin 1024) (v : Word) (vm : Vm) : Vm :=
  match frameAt L lo with
  | some f => vm.setFrame f (Function.update (vm.swapFrames f) w v)
  | none => vm

/-! ### The swap pool -/

def initSwapStructs (vm : Vm) : Vm := {vm with swapPool := fun _ => Swap.free}

/-- The answer is used as an index of the page table. -/
def findPageIndex (entryHi : Word) : Word :=
  let vpn := entryHi >>> VPNSHIFT
  if vpn = STACK_PAGE then 31 else vpn - 0x80000

/-- The first free frame, else the next one in turn. The code indexes `swap_pool`
with the remainder, which is negative once `frameIndex` has overflowed. -/
def pageReplacement (vm : Vm) : Option (Frame × Vm) :=
  match (List.finRange POOLSIZE).find? fun c => (vm.swapPool c).swAsid == -1 with
  | some c => some (c, vm)
  | none =>
    let vm := {vm with frameIndex := vm.frameIndex + 1}
    (arrayIndex POOLSIZE (vm.frameIndex.srem 16)).map fun f => (f, vm)

def freeSwapFrames (asid : Word) (vm : Vm) : Vm :=
  {vm with swapPool := fun c => if (vm.swapPool c).swAsid = asid then Swap.free else vm.swapPool c}

/-! ### Page tables -/

/-- The ASID of an entry. -/
def pteAsid (entryHi : Word) : Word := (entryHi &&& 0x00000fff) >>> ASIDSHIFT

/-- The flash device of an ASID. -/
def flashDevice (asid : Word) : Option (Fin UPROCMAX) := arrayIndex UPROCMAX (asid - 1)

def readCommand (p : Word) : Word := (p <<< 8) ||| FLASHREAD
def writeCommand (p : Word) : Word := (p <<< 8) ||| FLASHWRITE

/-- The block a flash command is about. -/
def flashBlock (command : Word) : Word := command >>> 8

/-- `writeToDevice` up to its DOIO: the entry becomes invalid, in the TLB as well. -/
def invalidate (k : PtePtr) (vm : Vm) : Vm :=
  let ptu : PteEntry := {vm.pte k with entryLo := (vm.pte k).entryLo &&& VALIDOFF}
  let vm := vm.setPte k ptu
  match TLBP ptu.entryHi vm with
  | some i => vm.setTlb i ptu
  | none => vm

/-- The new record and entry of a frame just read, in the TLB as well; `slot` is the
entry TLBWR picks. -/
def publish (L : PoolLayout) (u : SupPtr) (p : PageNo) (f : Frame) (slot : Fin TLBSIZE) (vm : Vm) : Vm :=
  let vm := vm.setSwap f ⟨(vm.supportPool u).supAsid, BitVec.ofNat 32 p.val, some (u, p)⟩
  let page : PteEntry := {vm.pte (u, p) with entryLo := publishedLo L f (vm.pte (u, p)).entryLo}
  let vm := vm.setPte (u, p) page
  match TLBP page.entryHi vm with
  | some i => vm.setTlb i page
  | none => vm.setTlb slot page

/-- `uTLB_RefillHandler` for the process whose support structure is `u`. -/
def uTLB_RefillHandler (u : SupPtr) (entryHi : Word) (slot : Fin TLBSIZE) (vm : Vm) : Option Vm :=
  (arrayIndex USERPGTBLSIZE (findPageIndex entryHi)).map fun p => vm.setTlb slot (vm.pte (u, p))

/-! ### The pager -/

/-- Where `pager` is, from the entry of its critical section to the release of
`swapPoolSemaphore`; `failed asid` goes on to `programTrapHandler(asid)`. -/
inductive PagerAt where
  | locked
  | chosen (p : PageNo) (f : Frame)
  | evicted (p : PageNo) (f : Frame) (asid : Word)
  | wrote (p : PageNo) (f : Frame) (asid status : Word)
  | reading (p : PageNo) (f : Frame)
  | got (p : PageNo) (f : Frame) (asid status : Word)
  | loaded (p : PageNo) (f : Frame)
  | published
  | failed (asid : Word)
deriving DecidableEq

/-- What the machine answers: the status DOIO returns, what a transfer that did not
succeed leaves at its destination, and the entry TLBWR picks. -/
structure Answer where
  status : Word
  garbage : Page
  slot : Fin TLBSIZE

/-- The device is ready again: the transfer succeeded. -/
def Answer.ready (a : Answer) : Prop := a.status &&& 0xff = 1

instance (a : Answer) : Decidable a.ready := inferInstanceAs (Decidable (_ = _))

/-- What a transfer of `d` leaves at its destination. -/
def Answer.transfer (a : Answer) (d : Page) : Page := if a.ready then d else a.garbage

/-- The pager of the process whose support structure is `u`. -/
def pagerStep (L : PoolLayout) (u : SupPtr) (a : Answer) : PagerAt → Vm → Option (PagerAt × Vm)
  | .locked, vm =>
    let state := (vm.supportPool u).supExceptState PGFAULTEXCEPT
    (arrayIndex USERPGTBLSIZE (findPageIndex state.entryHi)).bind fun p =>
      (pageReplacement vm).map fun (f, vm) => (.chosen p f, vm)
  | .chosen p f, vm =>
    let frame := vm.swapPool f
    if frame.swAsid = -1 then some (.reading p f, vm)
    else frame.swPte.map fun ptu => (.evicted p f frame.swAsid, invalidate ptu vm)
  | .evicted p f asid, vm =>
    let block := flashBlock (writeCommand (vm.swapPool f).swPageNo)
    (flashDevice asid).map fun i =>
      (.wrote p f asid a.status, vm.setBlock i block (a.transfer (vm.swapFrames f)))
  | .wrote p f asid status, vm =>
    if status &&& 0xff = 4 then some (.failed asid, vm) else some (.reading p f, vm)
  | .reading p f, vm =>
    let asid := pteAsid (vm.pte (u, p)).entryHi
    let block := flashBlock (readCommand (BitVec.ofNat 32 p.val))
    (flashDevice asid).map fun i =>
      (.got p f asid a.status, vm.setFrame f (a.transfer (vm.flash i block)))
  | .got p f asid status, vm =>
    if status &&& 0xff = 5 then some (.failed asid, vm) else some (.loaded p f, vm)
  | .loaded p f, vm => some (.published, publish L u p f a.slot vm)
  | .published, _ => none
  | .failed _, _ => none

end MultiPandOS
