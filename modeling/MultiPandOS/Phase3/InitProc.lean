import MultiPandOS.Phase3.VmSupport

/-! What `phase3/initProc.c` builds for a U-proc: its support structure and its
first state. -/
namespace MultiPandOS

def SHELL_ASID : Word := 1
def USERPON : Word := 0x8
def IEPON : Word := 0x4
def IMON : Word := 0xFF00
def TEBITON : Word := 0x08000000
def UPROCSTARTADDR : Addr := 0x800000B0
def USERSTACKTOP : Addr := 0xC0000000
def KUSEG : Addr := 0x80000000
def PROCESS_PRIO_LOW : Word := 0

/-- The code addresses and the stack tops that a support structure is given. -/
structure Handlers where
  pager : Addr
  generalExceptionHandler : Addr
  stackTLB : Addr
  stackGen : Addr

/-- `pte_entryHI` of page `i` of the U-proc `asid`. -/
def pageHi (asid : Word) (i : PageNo) : Word :=
  let vpn := if i.val = 31 then STACK_PAGE else 0x80000 + BitVec.ofNat 32 i.val
  (vpn <<< VPNSHIFT) ||| (asid <<< ASIDSHIFT)

def initSupportStructure (h : Handlers) (asid : Word) (sup : Support) : Support :=
  let status := IEPON ||| IMON ||| TEBITON
  {sup with
    supAsid := asid
    supPrivatePgTbl := fun i => ⟨pageHi asid i, DIRTYON⟩
    supExceptContext := fun index =>
      if index = PGFAULTEXCEPT then ⟨h.stackTLB, status, h.pager⟩
      else ⟨h.stackGen, status, h.generalExceptionHandler⟩}

def initUProcState (asid : Word) (state : State) : State :=
  let state := {state with gpr := fun _ => 0, pcEpc := UPROCSTARTADDR}
  {(state.setSp USERSTACKTOP) with
    status := USERPON ||| IEPON ||| IMON ||| TEBITON
    mie := MIE_ALL
    entryHi := asid <<< ASIDSHIFT}

/-- `supportFree_h` after `deallocateSupport`. -/
def deallocateSupport (u : SupPtr) (supportFree : List SupPtr) : List SupPtr := u :: supportFree

def allocateSupport : List SupPtr → Option (SupPtr × List SupPtr)
  | [] => none
  | u :: supportFree => some (u, supportFree)

/-! ### The words of an entry -/

/-- The ASIDs of U-procs. -/
def isAsid (a : Word) : Prop := 1 ≤ a.toNat ∧ a.toNat ≤ UPROCMAX

instance (a : Word) : Decidable (isAsid a) := inferInstanceAs (Decidable (_ ∧ _))

theorem isAsid.cases {a : Word} (h : isAsid a) : ∃ i : Fin UPROCMAX, a = BitVec.ofNat 32 (i.val + 1) := by
  have h1 := h.1
  have h8 : a.toNat ≤ 8 := h.2
  refine ⟨⟨a.toNat - 1, by show a.toNat - 1 < 8; omega⟩, BitVec.eq_of_toNat_eq ?_⟩
  rw [BitVec.toNat_ofNat]
  show a.toNat = (a.toNat - 1 + 1) % 2 ^ 32
  omega

/-- The pager finds the page of an entry, and its ASID. -/
theorem pageHi_fields {a : Word} (h : isAsid a) (p : PageNo) :
    arrayIndex USERPGTBLSIZE (findPageIndex (pageHi a p)) = some p ∧ pteAsid (pageHi a p) = a := by
  obtain ⟨i, rfl⟩ := h.cases
  revert i p
  decide +kernel

theorem pageHi_inj {a b : Word} (ha : isAsid a) (hb : isAsid b) {p q : PageNo}
    (h : pageHi a p = pageHi b q) : a = b ∧ p = q := by
  obtain ⟨hp, hpa⟩ := pageHi_fields ha p
  obtain ⟨hq, hqb⟩ := pageHi_fields hb q
  rw [h] at hp hpa
  exact ⟨hpa.symm.trans hqb, Option.some.inj (hp.symm.trans hq)⟩

/-- An entry has no bits below its ASID. -/
theorem pageHi_masked {a : Word} (h : isAsid a) (p : PageNo) : pageHi a p &&& 0xFFFFFFC0 = pageHi a p := by
  obtain ⟨i, rfl⟩ := h.cases
  revert i p
  decide +kernel

theorem tlbMatch_pageHi {a b : Word} (ha : isAsid a) (hb : isAsid b) (p q : PageNo) :
    tlbMatch (pageHi a p) (pageHi b q) = true ↔ a = b ∧ p = q := by
  rw [tlbMatch, pageHi_masked ha, pageHi_masked hb, beq_iff_eq]
  constructor
  · exact pageHi_inj ha hb
  · rintro ⟨rfl, rfl⟩
    rfl

theorem flashDevice_isAsid {a : Word} (h : isAsid a) : ∃ i, flashDevice a = some i := by
  obtain ⟨i, rfl⟩ := h.cases
  revert i
  decide +kernel

theorem flashDevice_inj {a b : Word} {i : Fin UPROCMAX} (ha : flashDevice a = some i)
    (hb : flashDevice b = some i) : a = b := by
  unfold flashDevice arrayIndex at ha hb
  split at ha
  · split at hb
    · have hi : (a - 1).toNat = (b - 1).toNat := by
        have := Option.some.inj (ha.trans hb.symm)
        exact Fin.mk.inj this
      have := BitVec.eq_of_toNat_eq hi
      simpa using this
    · cases hb
  · cases ha

/-- Both commands name the block of their page. -/
theorem flashBlock_command (p : PageNo) :
    flashBlock (writeCommand (BitVec.ofNat 32 p.val)) = BitVec.ofNat 32 p.val ∧
      flashBlock (readCommand (BitVec.ofNat 32 p.val)) = BitVec.ofNat 32 p.val := by
  revert p
  decide +kernel

theorem pageNo_inj {p q : PageNo} (h : BitVec.ofNat 32 p.val = BitVec.ofNat 32 q.val) : p = q := by
  have hp : p.val < 32 := p.isLt
  have hq : q.val < 32 := q.isLt
  have hval := congrArg BitVec.toNat h
  rw [BitVec.toNat_ofNat, BitVec.toNat_ofNat, Nat.mod_eq_of_lt (by omega), Nat.mod_eq_of_lt (by omega)] at hval
  exact Fin.ext hval

end MultiPandOS
