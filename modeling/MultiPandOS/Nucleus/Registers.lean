import MultiPandOS.Nucleus.Waiting

/-! The numbers of the device registers.

`findDeviceIndex` numbers the registers by dividing offsets, `calcDevAddr` of the
interrupt handler by multiplying lines and devices. `SubDevice.registers` puts every
entry of `deviceSemaphore` but the pseudo-clock's at the address `calcDevAddr` gives it,
and the two agree on the whole address space except the eight bytes after the last
terminal, which are numbered 48. -/
namespace MultiPandOS

/-- The devices of lines 3 to 6 and the sub-devices of the terminals, receiver first, in
the order of `deviceSemaphore`. -/
abbrev SubDevice := Fin 48

namespace SubDevice

/-- The first of the registers. -/
def registers (i : SubDevice) : Addr :=
  if i.val < 32 then devRegAddr (3 + i.val / 8) (i.val % 8)
  else devRegAddr 7 ((i.val - 32) / 2) + BitVec.ofNat 32 (8 * ((i.val - 32) % 2))

/-- How many bytes they take. -/
def size (i : SubDevice) : Nat := if i.val < 32 then 0x10 else 0x8

/-- The second register. -/
def command (i : SubDevice) : Addr := i.registers + 0x4

/-- `a` is in one of the registers of `i`. -/
def Contains (i : SubDevice) (a : Addr) : Prop := (a - i.registers).toNat < i.size

/-- How far the registers are from the first one of all. -/
def offset (i : SubDevice) : Nat := if i.val < 32 then 0x10 * i.val else 32 * 0x10 + 0x8 * (i.val - 32)

theorem registers_eq (i : SubDevice) : i.registers = START_DEVREG + BitVec.ofNat 32 i.offset := by
  revert i
  decide +kernel

theorem offset_lt (i : SubDevice) : i.offset + i.size ≤ 640 := by
  have hi := i.isLt
  unfold offset size
  split <;> omega

theorem contains_iff (i : SubDevice) (a : Addr) :
    i.Contains a ↔ i.offset ≤ (a - START_DEVREG).toNat ∧ (a - START_DEVREG).toNat < i.offset + i.size := by
  have hoffset := i.offset_lt
  have hlt := (a - START_DEVREG).isLt
  rw [Contains, registers_eq, ← BitVec.sub_sub, BitVec.toNat_sub, BitVec.toNat_ofNat]
  omega

end SubDevice

/-- The registers of all devices. -/
def inDeviceArea (a : Addr) : Prop := START_DEVREG ≤ a ∧ a < START_DEVREG + 40 * 0x10

instance (a : Addr) : Decidable (inDeviceArea a) := inferInstanceAs (Decidable (_ ∧ _))

/-- The bytes after them that `findDeviceIndex` gives to the pseudo-clock. -/
def beyondTerminals (a : Addr) : Prop := START_DEVREG + 40 * 0x10 ≤ a ∧ a < START_DEVREG + 40 * 0x10 + 0x8

instance (a : Addr) : Decidable (beyondTerminals a) := inferInstanceAs (Decidable (_ ∧ _))

theorem inDeviceArea_iff (a : Addr) : inDeviceArea a ↔ (a - START_DEVREG).toNat < 640 := by
  unfold inDeviceArea START_DEVREG
  bv_omega

theorem beyondTerminals_iff (a : Addr) :
    beyondTerminals a ↔ 640 ≤ (a - START_DEVREG).toNat ∧ (a - START_DEVREG).toNat < 648 := by
  unfold beyondTerminals START_DEVREG
  bv_omega

/-- The areas of the (sub)devices cover the registers. -/
theorem inDeviceArea_iff_contains (a : Addr) : inDeviceArea a ↔ ∃ i : SubDevice, i.Contains a := by
  rw [inDeviceArea_iff]
  constructor
  · intro h
    by_cases hlow : (a - START_DEVREG).toNat < 512
    · let i : SubDevice := ⟨(a - START_DEVREG).toNat / 16, by omega⟩
      have hi : i.val < 32 := by show (a - START_DEVREG).toNat / 16 < 32; omega
      refine ⟨i, (i.contains_iff a).mpr ?_⟩
      simp only [SubDevice.offset, SubDevice.size, hi, if_true, i]
      omega
    · let i : SubDevice := ⟨32 + ((a - START_DEVREG).toNat - 512) / 8, by omega⟩
      have hi : ¬ i.val < 32 := by show ¬ 32 + ((a - START_DEVREG).toNat - 512) / 8 < 32; omega
      refine ⟨i, (i.contains_iff a).mpr ?_⟩
      simp only [SubDevice.offset, SubDevice.size, hi, if_false, i]
      omega
  · rintro ⟨i, hi⟩
    have hoffset := i.offset_lt
    have hcontains := (i.contains_iff a).mp hi
    omega

/-! ### findDeviceIndex -/

theorem findDeviceIndex_contains {i : SubDevice} {a : Addr} (h : i.Contains a) : findDeviceIndex a = i.val := by
  have hlt := i.isLt
  have hcontains := (i.contains_iff a).mp h
  unfold SubDevice.offset SubDevice.size at hcontains
  simp only [findDeviceIndex]
  by_cases hi : i.val < 32
  · simp only [hi, if_true] at hcontains
    rw [if_neg (show ¬ (a - START_DEVREG).toNat ≥ 32 * 0x10 by omega), if_neg (by omega)]
    omega
  · simp only [hi, if_false] at hcontains
    rw [if_pos (show (a - START_DEVREG).toNat ≥ 32 * 0x10 by omega), if_neg (by omega)]
    omega

theorem findDeviceIndex_outside {a : Addr} (h : ¬ inDeviceArea a) :
    findDeviceIndex a = if beyondTerminals a then PSEUDOINDEX else -1 := by
  rw [inDeviceArea_iff] at h
  simp only [beyondTerminals_iff, findDeviceIndex, PSEUDOINDEX]
  rw [if_pos (show (a - START_DEVREG).toNat ≥ 32 * 0x10 by omega)]
  split_ifs <;> omega

/-- What an interrupt finds done is a (sub)device of the interrupting one. -/
theorem served_subDevice {e : Trap} {line : Nat} (h3 : 3 ≤ line) (h7 : line ≤ 7) {status : Word}
    {command reg : Addr} (h : e.served line = some (status, command, reg)) :
    ∃ i : SubDevice, command = i.command ∧ reg = i.registers ∧ status = e.bus i.registers := by
  have hdevice : ∀ l n : Fin 8, 3 ≤ l.val → ∃ i : SubDevice, devRegAddr l n = i.registers := by decide +kernel
  have htransm : ∀ n : Fin 8, ∃ i : SubDevice, devRegAddr 7 n + 0x8 = i.registers := by decide +kernel
  obtain ⟨l, n, hl, rfl, ⟨rfl, rfl⟩ | ⟨rfl, rfl⟩⟩ := served_cases h3 h7 h
  · obtain ⟨i, hi⟩ := htransm n
    have hsub : devRegAddr 7 n + 0xC = devRegAddr 7 n + 0x8 + 0x4 := by bv_omega
    exact ⟨i, by rw [hsub, SubDevice.command, ← hi], hi, by rw [← hi]⟩
  · obtain ⟨i, hi⟩ := hdevice l n hl
    exact ⟨i, by rw [SubDevice.command, ← hi], hi, by rw [← hi]⟩

/-! ### Every address -/

/-- What `findDeviceIndex` owes for the address `a`. -/
structure Indexed (a : Addr) : Prop where
  inside : ∀ i : SubDevice, i.Contains a → findDeviceIndex a = i.val
  outside : ¬ inDeviceArea a → findDeviceIndex a = -1
  clock : findDeviceIndex a ≠ PSEUDOINDEX
  /-- An index belongs to one (sub)device. -/
  shared : ∀ b, findDeviceIndex a ≠ -1 →
    (findDeviceIndex a = findDeviceIndex b ↔ ∃ i : SubDevice, i.Contains a ∧ i.Contains b)
  /-- DOIO waits on the semaphore that the completion interrupt signals. -/
  completion : ∀ (e : Trap) (line : Nat) (status : Word) (reg : Addr), 3 ≤ line → line ≤ 7 →
    e.served line = some (status, a, reg) → findDeviceIndex a = findDeviceIndex reg

/-- **The numbers of the devices**: an address is numbered by the (sub)device whose
registers contain it, except in the eight bytes after the last terminal. -/
theorem findDeviceIndex_iff (a : Addr) : Indexed a ↔ ¬ beyondTerminals a := by
  constructor
  · intro h hbeyond
    have houtside : ¬ inDeviceArea a := by
      rw [inDeviceArea_iff]
      have := (beyondTerminals_iff a).mp hbeyond
      omega
    refine h.clock ?_
    rw [findDeviceIndex_outside houtside, if_pos hbeyond]
  · intro hbeyond
    have houtside : ¬ inDeviceArea a → findDeviceIndex a = -1 := by
      intro h
      rw [findDeviceIndex_outside h, if_neg hbeyond]
    have hinside : findDeviceIndex a ≠ -1 → ∃ i : SubDevice, i.Contains a := by
      intro h
      exact (inDeviceArea_iff_contains a).mp (not_not.mp fun hout => h (houtside hout))
    refine ⟨fun i => findDeviceIndex_contains, houtside, fun hclock => ?_, fun b h => ?_, ?_⟩
    · obtain ⟨i, hi⟩ := hinside (by rw [hclock]; decide)
      have hindex := (findDeviceIndex_contains hi).symm.trans hclock
      simp only [PSEUDOINDEX] at hindex
      omega
    · obtain ⟨i, hi⟩ := hinside h
      have hindex := findDeviceIndex_contains hi
      constructor
      · intro heq
        by_cases hb : inDeviceArea b
        · obtain ⟨j, hj⟩ := (inDeviceArea_iff_contains b).mp hb
          have hindexb := findDeviceIndex_contains hj
          obtain rfl : i = j := Fin.ext (by omega)
          exact ⟨i, hi, hj⟩
        · rw [findDeviceIndex_outside hb] at heq
          split at heq
          · simp only [PSEUDOINDEX] at heq
            omega
          · exact absurd heq h
      · rintro ⟨j, hj, hjb⟩
        rw [findDeviceIndex_contains hj, findDeviceIndex_contains hjb]
    · intro e line status reg h3 h7 hserved
      exact (served_command h3 h7 hserved).2.symm

/-- The first byte after the registers is numbered as the pseudo-clock. -/
theorem pseudoClock_address : ¬ ∀ a : Addr, (¬ inDeviceArea a → findDeviceIndex a = -1) ∧
    findDeviceIndex a ≠ PSEUDOINDEX := by
  intro h
  exact (h 0x100002D4).2 (by decide)

end MultiPandOS
