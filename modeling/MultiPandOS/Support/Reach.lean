import MultiPandOS.Support.Mirrored
import MultiPandOS.Support.PageIndex

/-! What an access can reach.

An entry of the TLB is blank, or it was copied from the page table of a U-proc and is one of
a page that `initSupportStructure` lays out; that holds in every run, whatever has become of
the page since (`Vm.TlbLaid`). So an access that does not miss is one to such a page
(`run_reach`), and any other is refilled for ever or makes the refill handler fault. -/
namespace MultiPandOS
open Runs

/-! ### Page numbers -/

/-- A mask that keeps the bits of the page number. -/
theorem vpn_and {mask : Word} (hmask : mask.toNat >>> 12 = 2 ^ 20 - 1) (w : Word) : vpn (w &&& mask) = vpn w := by
  have hlow : (w.toNat >>> 12) &&& (mask.toNat >>> 12) = w.toNat >>> 12 := by
    have hlt := w.isLt
    rw [hmask, Nat.and_two_pow_sub_one_eq_mod, Nat.shiftRight_eq_div_pow]
    omega
  refine BitVec.eq_of_toNat_eq ?_
  simp only [vpn, VPNSHIFT, BitVec.toNat_ushiftRight, BitVec.toNat_and, Nat.shiftRight_and_distrib]
  exact hlow

/-- Entries that match have one page number. -/
theorem vpn_tlbMatch {hi hi' : Word} (h : tlbMatch hi hi' = true) : vpn hi = vpn hi' := by
  have hmask : (0xFFFFFFC0 : Word).toNat >>> 12 = 2 ^ 20 - 1 := by
    decide
  rw [← vpn_and hmask hi, ← vpn_and hmask hi', tlbMatch_iff.mp h]

theorem vpn_accessHi {a : Word} (ha : isAsid a) (va : Addr) : vpn (accessHi a va) = vpn va := by
  have hasid : (a <<< ASIDSHIFT) >>> VPNSHIFT = 0#32 := by
    obtain ⟨i, rfl⟩ := ha.cases
    revert i
    decide
  have hpage : vpn (va &&& 0xFFFFF000) = vpn va := vpn_and (by decide) va
  unfold vpn at hpage
  unfold vpn accessHi
  rw [BitVec.ushiftRight_or_distrib, hasid, hpage, BitVec.or_zero]

theorem LaidOut.congr {hi hi' : Word} (h : LaidOut hi) (hvpn : vpn hi = vpn hi') : LaidOut hi' := by
  obtain ⟨i, hi⟩ := h
  exact ⟨i, hvpn ▸ hi⟩

/-- The pages are in the user space. -/
theorem LaidOut.user {va : Addr} (h : LaidOut va) : KUSEG ≤ va ∧ va < USERSTACKTOP := by
  obtain ⟨i, hi⟩ := h
  have hvpn : va.toNat / 4096 = (pageVpn i).toNat := by
    rw [← hi, vpn, BitVec.toNat_ushiftRight, Nat.shiftRight_eq_div_pow]
    rfl
  have hrange : ∀ i : PageNo, 0x80000 ≤ (pageVpn i).toNat ∧ (pageVpn i).toNat < 0xC0000 := by
    decide +kernel
  obtain ⟨hlow, hhigh⟩ := hrange i
  constructor
  · show 0x80000000 ≤ va.toNat
    omega
  · show va.toNat < 0xC0000000
    omega

/-- The refill handler finds the page by its number. -/
theorem findPageIndex_accessHi {a : Word} (ha : isAsid a) (va : Addr) :
    findPageIndex (accessHi a va) = findPageIndex va := by
  have hvpn := vpn_accessHi ha va
  unfold vpn at hvpn
  simp only [findPageIndex, hvpn]

/-! ### The TLB -/

/-- The entry is blank or one of a page that `initSupportStructure` lays out. -/
def PteEntry.ofPage (e : PteEntry) : Prop := tlbMatch e.entryHi 0 = true ∨ LaidOut e.entryHi

def Vm.TlbLaid (vm : Vm) : Prop := ∀ i, PteEntry.ofPage (vm.tlb i)

section Tlb
variable {L : PoolLayout} {hd : Handlers} {vm : Vm} {s s' : Sys} {e : SysEvent}

theorem Vm.TlbLaid.update {tlb : Fin TLBSIZE → PteEntry} {i : Fin TLBSIZE} {e : PteEntry}
    (h : ∀ i, PteEntry.ofPage (tlb i)) (he : PteEntry.ofPage e) (j : Fin TLBSIZE) : PteEntry.ofPage (Function.update tlb i e j) := by
  by_cases hj : j = i
  · subst hj
    rw [Function.update_self]
    exact he
  · rw [Function.update_of_ne hj]
    exact h j

theorem Vm.Laid.entry {u : SupPtr} (h : vm.Laid u) (p : PageNo) : LaidOut (vm.pte (u, p)).entryHi := ⟨p, h p⟩

/-- What is written is an entry that matches the old one. -/
theorem Vm.TlbLaid.invalidate (h : vm.TlbLaid) (k : PtePtr) : (invalidate k vm).TlbLaid := by
  simp only [MultiPandOS.invalidate]
  split
  · rename_i i hfound
    have hmatch : tlbMatch (vm.pte k).entryHi (vm.tlb i).entryHi = true := TLBP_some hfound
    have hentry : PteEntry.ofPage {vm.pte k with entryLo := (vm.pte k).entryLo &&& VALIDOFF} := by
      refine (h i).imp (fun hblank => ?_) fun hlaid => hlaid.congr (vpn_tlbMatch hmatch).symm
      exact tlbMatch_iff.mpr ((tlbMatch_iff.mp hmatch).trans (tlbMatch_iff.mp hblank))
    exact Vm.TlbLaid.update h hentry
  · exact h

theorem Vm.TlbLaid.pagerStep (h : vm.TlbLaid) {u : SupPtr} {a : Answer} {place place' : PagerAt} {vm' : Vm}
    (hlaid : vm.Laid u) (hstep : pagerStep L u a place vm = some (place', vm')) : vm'.TlbLaid := by
  cases pagerStep_effect hstep with
  | @evict p f k occupied record => exact h.invalidate k
  | @publish p f =>
    obtain ⟨i, htlb⟩ := publish_tlb L u p f a.slot vm
    have hentry : PteEntry.ofPage ((publish L u p f a.slot vm).pte (u, p)) := by
      rw [pte_publish_self]
      exact .inr (hlaid.entry p)
    unfold Vm.TlbLaid
    rw [htlb]
    exact Vm.TlbLaid.update h hentry
  | _ => exact h

theorem Vm.TlbLaid.step (h : s.vm.TlbLaid) (ht : Tables s) (hstep : sysStep L hd e s = some s') : s'.vm.TlbLaid := by
  cases sysStep_effect hstep with
  | calm old new inherits quiet =>
    unfold Vm.TlbLaid
    rw [quiet.tlb]
    exact h
  | @refill e q k va p slot code touched miss index =>
    exact Vm.TlbLaid.update h (.inr ((ht q (by simp [code])).entry p))
  | lock old pass locks mapped attached inherits =>
    obtain ⟨-, rfl⟩ := passeren_eq_some pass
    exact h
  | @pager q k inp place r old step =>
    obtain ⟨place', vm⟩ := r
    exact h.pagerStep (ht q (by simp [old])) step
  | die old =>
    rw [termprocess_vm]
    exact h
  | wake old pass =>
    obtain ⟨-, rfl⟩ := passeren_eq_some pass
    exact h
  | await old pass =>
    obtain ⟨-, rfl⟩ := passeren_eq_some pass
    exact h
  | _ => exact h

theorem run_tlbLaid {s₀ : Sys} {es : List SysEvent} (hstart : Sys.start hd vm = some s₀)
    (hrun : Run (sysStep L hd) (fun _ _ => True) s₀ es s) : s.vm.TlbLaid := by
  induction hrun with
  | nil =>
    obtain ⟨u, hu⟩ := start_started hstart
    rw [hu.vm]
    exact fun _ => .inl (tlbMatch_iff.mpr rfl)
  | snoc hrun _ hstep ih => exact ih.step (run_tables hstart hrun) hstep

/-- Such an entry matches accesses to pages that are laid out only. -/
theorem Vm.TlbLaid.reach (h : vm.TlbLaid) {a : Word} {va : Addr} (ha : isAsid a)
    (hfound : lookup (accessHi a va) vm ≠ .miss) : LaidOut va := by
  cases hlook : TLBP (accessHi a va) vm with
  | none => exact absurd (by simp only [lookup, hlook]) hfound
  | some i =>
    have hmatch := TLBP_some hlook
    obtain hblank | hlaid := h i
    · have hzero : tlbMatch (accessHi a va) 0 = true :=
        tlbMatch_iff.mpr ((tlbMatch_iff.mp hmatch).trans (tlbMatch_iff.mp hblank))
      rw [accessHi_not_blank ha] at hzero
      cases hzero
    · exact hlaid.congr ((vpn_tlbMatch hmatch).symm.trans (vpn_accessHi ha va))

/-- **What an access can reach**: in every run, one that does not miss is to a page that is
laid out. -/
theorem run_reach {s₀ : Sys} {es : List SysEvent} (hstart : Sys.start hd vm = some s₀)
    (hrun : Run (sysStep L hd) (fun _ _ => True) s₀ es s) {q : Nat} {va : Addr} (hpresent : (s.proc q).place ≠ .absent)
    (hfound : lookup (accessHi (s.proc q).asid va) s.vm ≠ .miss) : LaidOut va :=
  (run_tlbLaid hstart hrun).reach (run_asids hstart hrun q hpresent) hfound

end Tlb

end MultiPandOS
