import MultiPandOS.Nucleus.Waiting

/-! The count of processes that wait for a device or for the clock.

`softBlockCount` is kept by hand next to the queues of `deviceSemaphore`. It is
right after every run in which no DOIO finds its semaphore positive and nobody is
killed while waiting for a device (`run_counts`): `killProcess` corrects the count
for the clock only. Where it is right, the scheduler tells an idle system from a
finished and from a deadlocked one. -/
namespace MultiPandOS
open Forest Runs

/-- Who waits for a device or for the clock. -/
def devWaiting (L : Layout) (semAdd : PcbPtr → Addr) : Finset PcbPtr :=
  Finset.univ.filter fun p => L.isDevSem (semAdd p)

def Counted (L : Layout) (v : View) : Prop := v.soft = BitVec.ofNat 32 (devWaiting L v.semAdd).card

/-- The acts that keep the count: a unit for each process that starts or stops
waiting for an entry of `deviceSemaphore`, and nobody killed who waits for a device. -/
def Act.counts (L : Layout) (v : View) : Act → Prop
  | .block k d => d = if L.isDevSem k then 1 else 0
  | .wake k d => d = if L.isDevSem k then 1 else 0
  | .kill ks _ => ∀ p ∈ ks, L.isDevSem (v.semAdd p) → v.semAdd p = L.clock
  | .drop _ => False
  | _ => True

/-! ### Counting -/

theorem not_isDevSem_null (L : Layout) : ¬ L.isDevSem NULL := by
  rintro ⟨i, hi, hnull⟩
  exact L.devSem_ne_null i hi hnull.symm

theorem mem_devWaiting {L : Layout} {f : PcbPtr → Addr} {p : PcbPtr} :
    p ∈ devWaiting L f ↔ L.isDevSem (f p) := by
  simp [devWaiting]

theorem devWaiting_block {L : Layout} {f : PcbPtr → Addr} {c : PcbPtr} (hc : f c = NULL) (k : Addr) :
    (devWaiting L (Function.update f c k)).card =
      (devWaiting L f).card + if L.isDevSem k then 1 else 0 := by
  have hnot : c ∉ devWaiting L f := by
    rw [mem_devWaiting, hc]
    exact not_isDevSem_null L
  by_cases hk : L.isDevSem k
  · have hins : devWaiting L (Function.update f c k) = insert c (devWaiting L f) := by
      ext p
      by_cases hp : p = c <;> simp [mem_devWaiting, hp, hk]
    rw [hins, Finset.card_insert_of_notMem hnot, if_pos hk]
  · have hsame : devWaiting L (Function.update f c k) = devWaiting L f := by
      ext p
      by_cases hp : p = c
      · simp [mem_devWaiting, hp, hk, hc, not_isDevSem_null]
      · simp [mem_devWaiting, hp]
    rw [hsame, if_neg hk, Nat.add_zero]

theorem devWaiting_wake {L : Layout} {f : PcbPtr → Addr} {p : PcbPtr} {k : Addr} (hp : f p = k) :
    (devWaiting L f).card =
      (devWaiting L (Function.update f p NULL)).card + if L.isDevSem k then 1 else 0 := by
  have hback := devWaiting_block (L := L) (f := Function.update f p NULL) (c := p) (by simp) k
  rw [Function.update_idem, ← hp, Function.update_eq_self] at hback
  rw [hback, hp]

theorem devWaiting_kill {L : Layout} {f : PcbPtr → Addr} {ks : List PcbPtr} (hnd : ks.Nodup)
    (hks : ∀ p ∈ ks, L.isDevSem (f p) → f p = L.clock) :
    (devWaiting L f).card =
      (devWaiting L fun p => if p ∈ ks then NULL else f p).card + ks.countP (f · = L.clock) := by
  have hclock : L.isDevSem L.clock := ⟨48, by decide, rfl⟩
  have hsdiff : (devWaiting L fun p => if p ∈ ks then NULL else f p) = devWaiting L f \ ks.toFinset := by
    ext p
    by_cases hp : p ∈ ks <;> simp [mem_devWaiting, hp, not_isDevSem_null]
  have hgone : devWaiting L f ∩ ks.toFinset = (ks.filter (f · = L.clock)).toFinset := by
    ext p
    simp only [Finset.mem_inter, mem_devWaiting, List.mem_toFinset, List.mem_filter, decide_eq_true_eq]
    exact ⟨fun h => ⟨h.2, hks p h.2 h.1⟩, fun h => ⟨h.2 ▸ hclock, h.1⟩⟩
  rw [hsdiff, List.countP_eq_length_filter, ← List.toFinset_card_of_nodup (hnd.filter _), ← hgone,
    Finset.card_sdiff_add_card_inter]

theorem ofNat_sub_of_eq {a b n : Nat} (h : n = a + b) :
    BitVec.ofNat 32 n - BitVec.ofNat 32 b = BitVec.ofNat 32 a := by
  rw [h, BitVec.ofNat_add, BitVec.add_sub_cancel]

/-- Acts that count right keep the count right. -/
theorem Does.counted {L : Layout} {a : Act} {v v' : View} (h : Does L.clock a v v') (hok : v.Ok)
    (hcur : v.CurrentOk) (hv : Counted L v) (ha : a.counts L v) : Counted L v' := by
  unfold Counted at hv ⊢
  cases h with
  | create | take | give | requeue => exact hv
  | drop => exact ha.elim
  | @kill _ ks caller hnd _ _ _ =>
    show v.soft - BitVec.ofNat 32 (ks.countP (v.semAdd · = L.clock)) = _
    rw [hv]
    exact ofNat_sub_of_eq (devWaiting_kill hnd ha)
  | @block _ c k d hc _ =>
    show v.soft + d = BitVec.ofNat 32 (devWaiting L (Function.update v.semAdd c k)).card
    rw [devWaiting_block (hcur c hc).unblocked, BitVec.ofNat_add, hv, show d = _ from ha]
    split_ifs <;> rfl
  | @wake _ k p rest q d hq _ =>
    have hp : v.semAdd p = k := ((hok.mem_waiting k p).mp (by simp [hq])).1
    show v.soft - d = BitVec.ofNat 32 (devWaiting L (Function.update v.semAdd p NULL)).card
    rw [hv, ← ofNat_sub_of_eq (devWaiting_wake hp), show d = _ from ha]
    split_ifs <;> rfl

/-! ### The rule -/

def Kind.passes : Kind → Bool
  | .passUp _ _ => true
  | _ => false

/-- `r` is what the handler kills: the target of TERMPROCESS, or the caller of a
pass-up without a support structure. -/
def Kills (s : Nucleus) (e : Trap) (r : PcbPtr) : Prop :=
  ∃ c, s.currentProcess = some c ∧
    ((e.kind.service? = some .termProcess ∧ termTarget e c s = some (some r)) ∨
      (e.kind.passes ∧ (s.pcb c).pSupportStruct = NULL ∧ r = c))

/-- Nobody who waits for a device is in a subtree that is killed. -/
def SparesDevices (L : Layout) (s : Nucleus) (e : Trap) : Prop :=
  ∀ r q, Kills s e r → Below s.links r q → ∀ i < 48, (s.pcb q).pSemAdd ≠ L.devSem (i : Nat)

def CountRule (L : Layout) (s : Nucleus) (e : Trap) : Prop := WaitRule L s e ∧ SparesDevices L s e

section Step
variable {L : Layout} {s s' : Nucleus} {e : Trap}

theorem clock_of_isDevSem {a : Addr} (h : L.isDevSem a) (hne : ∀ i < 48, a ≠ L.devSem (i : Nat)) :
    a = L.clock := by
  obtain ⟨i, hi, rfl⟩ := h
  have h48 : ¬ i < 48 := fun hlt => hne i hlt rfl
  have hi : i < 49 := hi
  obtain rfl : i = 48 := by omega
  rfl

/-- Within the rule every act counts right. -/
theorem acts_count (hs : Sound s) (hclock : (s.mem L.clock).toInt ≤ 0) (hrule : CountRule L s e)
    {as : List Act} {v : View} (hacted : Acted L e s as) (hacts : Acts L.clock as s.view v)
    (hv : Counted L s.view) : Counted L v := by
  obtain ⟨⟨hadm, hdoio⟩, hspares⟩ := hrule
  -- every act but a kill counts right in every state
  have hall : (∀ a ∈ as, ∀ w, a.counts L w) → Counted L v := by
    intro hcounts
    exact (hacts.invariant (fun w => w.Ok ∧ w.CurrentOk ∧ Counted L w) ⟨hs.ok, hs.current, hv⟩
      fun a ha w w' hd hw => ⟨(hd.ok hw.1 hw.2.1).1, (hd.ok hw.1 hw.2.1).2,
        hd.counted hw.1 hw.2.1 hw.2.2 (hcounts a ha w)⟩).2.2
  have hkill : ∀ r ks caller, as = [.kill ks caller] → Kills s e r → (∀ q, q ∈ ks ↔ Below s.links r q) →
      Counted L v := by
    rintro r ks caller rfl hr hks
    refine hacts.single.counted hs.ok hs.current hv fun q hq hdev => ?_
    exact clock_of_isDevSem hdev fun i hi => hspares r q hr ((hks q).mp hq) i hi
  have hdev : ∀ {k}, L.isDevSem k → (1 : Word) = if L.isDevSem k then 1 else 0 := fun hk => (if_pos hk).symm
  have hnot : ∀ {sv}, e.kind = .service sv → sv = .passeren ∨ sv = .verhogen →
      (0 : Word) = if L.isDevSem e.state.regA1 then 1 else 0 := by
    intro sv hk hsv
    simp only [Admissible, hk, KindOk] at hadm
    rcases hsv with rfl | rfl <;> exact (if_neg hadm.2.1.2).symm
  cases hacted with
  | preempt | yield | create | none => exact hall (by simp [Act.counts])
  | tick =>
    refine hall fun a ha w => ?_
    obtain rfl := List.eq_of_mem_replicate ha
    exact hdev ⟨48, by decide, rfl⟩
  | @complete line status command reg hk h1 h2 hserved =>
    obtain ⟨hlo, hhi⟩ := calcIntLineNo_range (Trap.kind_interrupt hk)
    obtain ⟨i, hi, hidx⟩ := findDeviceIndex_served (by omega) hhi hserved
    have hidx : findDeviceIndex reg = i := hidx
    exact hall (forall_either (fun _ => trivial) fun _ => hdev ⟨i, by simp only [SEMDEVLEN]; omega, by rw [hidx]⟩)
  | terminate hk hc htarget hks =>
    exact hkill _ _ _ rfl ⟨_, hc, .inl ⟨by rw [hk]; rfl, htarget⟩⟩ hks
  | die hk hc hsup hks =>
    exact hkill _ _ _ rfl ⟨_, hc, .inr ⟨by rw [hk]; rfl, hsup, rfl⟩⟩ hks
  | passeren hk => exact hall (forall_either (fun _ => hnot hk (.inl rfl)) fun _ => trivial)
  | verhogen hk => exact hall (forall_either (fun _ => trivial) fun _ => hnot hk (.inr rfl))
  | @waitDevSem k hk =>
    refine hall fun a ha w => ?_
    rw [List.mem_singleton] at ha
    subst ha
    rcases hk with ⟨hk, rfl⟩ | ⟨hk, rfl⟩
    · have hdevice : e.state.regA1 ∈ commandRegs := by
        simp only [Admissible, hk, KindOk] at hadm
        exact hadm.2.1
      obtain ⟨i, hi, hidx⟩ := findDeviceIndex_command hdevice
      have hle : (s.mem (L.devSem (findDeviceIndex e.state.regA1))).toInt ≤ 0 := hdoio (by rw [hk]; rfl)
      rw [if_pos hle]
      exact hdev ⟨i, by simp only [SEMDEVLEN]; omega, by rw [hidx]⟩
    · rw [if_pos hclock]
      exact hdev ⟨48, by decide, rfl⟩

theorem Leaves.counted {v : View} (h : Leaves v s') (hv : Counted L v) : Counted L s'.view := by
  cases h with
  | resume _ hview => exact hview ▸ hv
  | dispatch _ hview =>
    rw [View.dispatch_eq] at hview
    rw [hview]
    exact hv

/-- Where nobody runs, the scheduler has found nobody ready. -/
def Idled (s : Nucleus) : Prop :=
  s.control.running = false → s.readyQueue = [] ∧ s.control = idle s.processCount s.softBlockCount

theorem Leaves.idled {v : View} (h : Leaves v s') : Idled s' := by
  intro hrun
  cases h with
  | resume _ _ h => exact absurd h (by simp [hrun])
  | dispatch _ hview hidle hready =>
    cases hr : v.ready with
    | nil =>
      have hsame : v.dispatch = v := by simp only [View.dispatch, hr]
      rw [hsame] at hview
      refine ⟨(congrArg View.ready hview).trans hr, ?_⟩
      rw [hidle hr, show s'.processCount = v.count from congrArg View.count hview,
        show s'.softBlockCount = v.soft from congrArg View.soft hview]
    | cons p rest =>
      rw [hready p rest hr] at hrun
      cases hrun

end Step

/-! ### Every run -/

/-- The count is right, and an idle system is what the scheduler takes it for. -/
structure Counts (L : Layout) (s : Nucleus) : Prop where
  soft : s.softBlockCount.toNat =
    (Finset.univ.filter fun p => p ∉ s.pcbFreeH ∧ L.isDevSem (s.pcb p).pSemAdd).card
  idle : s.control.running = false → s.readyQueue = []
  halt : s.control.running = false → (s.control = .halt ↔ ∀ p, p ∈ s.pcbFreeH)
  wait : s.control.running = false →
    (s.control = .wait ↔ ∃ p, p ∉ s.pcbFreeH ∧ L.isDevSem (s.pcb p).pSemAdd)
  panic : s.control.running = false →
    (s.control = .panic ↔ (∃ p, p ∉ s.pcbFreeH) ∧ ∀ p, p ∉ s.pcbFreeH → ¬ L.isDevSem (s.pcb p).pSemAdd)

theorem main_counted (L : Layout) (b : Boot) : Counted L (main L b).view := by
  obtain ⟨rest, -, hmain⟩ := main_eq L b
  have hnone : devWaiting L (main L b).view.semAdd = ∅ := by
    apply Finset.eq_empty_of_forall_notMem
    intro p hp
    rw [mem_devWaiting] at hp
    have hnull : ((main L b).pcb p).pSemAdd = NULL := by
      rw [hmain]
      by_cases hp : p = firstProcess
      · simp [hp, Pcb.fresh]
      · simp [hp, Pcb.zero]
    rw [show (main L b).view.semAdd p = NULL from hnull] at hp
    exact not_isDevSem_null L hp
  have hsoft : (main L b).softBlockCount = 0 := by
    rw [hmain]
    rfl
  have hview : ∀ s : Nucleus, s.view.soft = s.softBlockCount := fun _ => rfl
  unfold Counted
  rw [hnone, Finset.card_empty, hview, hsoft]
  rfl

theorem idle_eq {count soft : Word} {n m : Nat} (hn : count = BitVec.ofNat 32 n) (hm : soft = BitVec.ofNat 32 m)
    (hn' : n < 2 ^ 32) (hm' : m < 2 ^ 32) :
    idle count soft = if n = 0 then .halt else if 0 < m then .wait else .panic := by
  have hcount : count.toNat = n := by rw [hn, BitVec.toNat_ofNat, Nat.mod_eq_of_lt hn']
  have hsoft : soft.toNat = m := by rw [hm, BitVec.toNat_ofNat, Nat.mod_eq_of_lt hm']
  have hzero : count = 0 ↔ n = 0 := by
    rw [← hcount]
    exact ⟨fun h => by rw [h]; rfl, fun h => BitVec.eq_of_toNat_eq h⟩
  have hcpos : count > 0 ↔ 0 < n := by
    rw [← hcount]
    exact BitVec.lt_def
  have hspos : soft > 0 ↔ 0 < m := by
    rw [← hsoft]
    exact BitVec.lt_def
  unfold idle
  simp only [hzero, hcpos, hspos]
  split_ifs <;> first | rfl | omega

theorem Sound.counts {L : Layout} {s : Nucleus} (hs : Sound s) (hv : Counted L s.view) (hidle : Idled s) :
    Counts L s := by
  have hcard : ∀ f : PcbPtr → Addr, (devWaiting L f).card ≤ MAXPROC := fun f => by
    simpa using Finset.card_le_univ (devWaiting L f)
  have hsame : (Finset.univ.filter fun p => p ∉ s.pcbFreeH ∧ L.isDevSem (s.pcb p).pSemAdd) =
      devWaiting L s.view.semAdd := by
    ext p
    simp only [Finset.mem_filter, Finset.mem_univ, true_and, mem_devWaiting]
    refine ⟨fun h => h.2, fun h => ⟨fun hf => ?_, h⟩⟩
    rw [hs.ok.free_semAdd p hf] at h
    exact not_isDevSem_null L h
  have hlen : s.pcbFreeH.length ≤ MAXPROC := by
    have hnd : s.pcbFreeH.Nodup := hs.ok.free_nodup
    simpa using hnd.length_le_card
  have hall : MAXPROC - s.pcbFreeH.length = 0 ↔ ∀ p, p ∈ s.pcbFreeH := by
    have hnd : s.pcbFreeH.Nodup := hs.ok.free_nodup
    rw [Nat.sub_eq_zero_iff_le]
    constructor
    · intro hle p
      have huniv : s.pcbFreeH.toFinset = Finset.univ := by
        apply Finset.eq_univ_of_card
        rw [List.toFinset_card_of_nodup hnd, Fintype.card_fin]
        omega
      exact List.mem_toFinset.mp (huniv ▸ Finset.mem_univ p)
    · intro hall
      have hle := Finset.card_le_card (show Finset.univ ⊆ s.pcbFreeH.toFinset from
        fun p _ => List.mem_toFinset.mpr (hall p))
      simpa [List.toFinset_card_of_nodup hnd] using hle
  have hsome : 0 < (devWaiting L s.view.semAdd).card ↔
      ∃ p, p ∉ s.pcbFreeH ∧ L.isDevSem (s.pcb p).pSemAdd := by
    rw [← hsame, Finset.card_pos]
    simp [Finset.Nonempty]
  have hcontrol : s.control.running = false → s.control =
      if MAXPROC - s.pcbFreeH.length = 0 then .halt
      else if 0 < (devWaiting L s.view.semAdd).card then .wait else .panic := by
    intro hrun
    have hle := hcard s.view.semAdd
    have hmax : MAXPROC = 20 := rfl
    rw [(hidle hrun).2]
    exact idle_eq hs.ok.count hv (by omega) (by omega)
  have hempty : (∀ p, p ∈ s.pcbFreeH) → ¬ 0 < (devWaiting L s.view.semAdd).card := by
    rw [hsome]
    rintro hall ⟨p, hp, -⟩
    exact hp (hall p)
  refine ⟨?_, fun h => (hidle h).1, fun h => ?_, fun h => ?_, fun h => ?_⟩
  · rw [hsame, show s.softBlockCount = _ from hv, BitVec.toNat_ofNat]
    apply Nat.mod_eq_of_lt
    have hle := hcard s.view.semAdd
    have hmax : MAXPROC = 20 := rfl
    omega
  · rw [hcontrol h, ← hall]
    split_ifs <;> simp_all
  · rw [hcontrol h, ← hsome]
    split_ifs with hzero hpos
    · simp [hempty (hall.mp hzero)]
    · simp [hpos]
    · simp [hpos]
  · have hlive : (∃ p, p ∉ s.pcbFreeH) ↔ ¬ MAXPROC - s.pcbFreeH.length = 0 := by
      rw [hall, not_forall]
    have hnone : (∀ p, p ∉ s.pcbFreeH → ¬ L.isDevSem (s.pcb p).pSemAdd) ↔
        ¬ 0 < (devWaiting L s.view.semAdd).card := by
      rw [hsome, not_exists]
      exact forall_congr' fun p => not_and.symm
    rw [hcontrol h, hlive, hnone]
    split_ifs with hzero hpos
    · simp [hzero]
    · simp [hpos]
    · simp [hzero, hpos]

/-- **`softBlockCount` is right** in every run in which no DOIO finds its semaphore
positive and nobody is killed while waiting for a device. -/
theorem run_counts {L : Layout} {b : Boot} {es : List Trap} {s : Nucleus}
    (h : Run (exceptionHandler L) (CountRule L) (main L b) es s) : Counts L s := by
  obtain ⟨hs, -, hv, hidle⟩ := h.invariant
    (fun s => Sound s ∧ Unlost L s.view ∧ Counted L s.view ∧ Idled s)
    ⟨main_sound L b, main_unlost L b, main_counted L b, fun hrun => by
      obtain ⟨rest, -, hmain⟩ := main_eq L b
      rw [hmain] at hrun
      cases hrun⟩
    fun s e s' ⟨hs, hunlost, hv, _⟩ hrule hstep => by
      obtain ⟨s₁, as, v, hres, -, hacted, hacts, hleaves⟩ := handler_acts hs hrule.1.1.allowed fun _ => id
      obtain rfl : s' = s₁ := Option.some.inj (hstep.symm.trans hres)
      exact ⟨hs.step hrule.1.1.allowed (fun _ => id) hstep, unlost_step hs hunlost hrule.1 hstep,
        hleaves.counted (acts_count hs hunlost.clock hrule hacted hacts hv), hleaves.idled⟩
  exact hs.counts hv hidle

/-- A rule that is easy to check: nobody at all waits for a device when something is
killed. -/
theorem sparesDevices_of {L : Layout} {s : Nucleus} {e : Trap}
    (h : e.kind.service? = some .termProcess ∨ e.kind.passes →
      ∀ q, ∀ i : Fin 48, (s.pcb q).pSemAdd ≠ L.devSem (i : Nat)) : SparesDevices L s e := by
  rintro r q ⟨c, -, hkills⟩ - i hi
  refine h ?_ q ⟨i, hi⟩
  rcases hkills with ⟨hk, -⟩ | ⟨hk, -⟩
  · exact .inl hk
  · exact .inr hk

open Sample in
theorem run_counts_sample :
    ∃ s, exec (exceptionHandler layout) events (main layout boot) = some s ∧ Counts layout s := by
  have hfollows : Follows (exceptionHandler layout)
      (fun s e => Admissible layout SelfOnly s e ∧ DoioWaits layout s e ∧
        (e.kind.service? = some .termProcess ∨ e.kind.passes →
          ∀ q, ∀ i : Fin 48, (s.pcb q).pSemAdd ≠ layout.devSem (i : Nat))) events (main layout boot) := by
    decide +kernel
  obtain ⟨s, hexec, hrun⟩ := hfollows.run
  exact ⟨s, hexec, run_counts (hrun.mono fun s e h =>
    ⟨⟨h.1.mono fun _ => SelfOnly.termOk, h.2.1⟩, sparesDevices_of h.2.2⟩)⟩

namespace Sample

/-- A process dies while its child waits for the printer; the first process then
waits on a semaphore that nobody signals. -/
def deadlock : List Trap :=
  [ecall (-1) 0 0, ecall (-10) 0 0, ecall (-1) 0 0, ecall (-10) 0 0, ecall (-10) 0 0, ecall (-5) printer 2,
    ecall (-2) 0 0, ecall (-3) 0x20030000 0]

end Sample

open Sample in
/-- The processor waits, although no process alive waits for a device or the clock. -/
theorem soft_count_stays : ∃ s,
    Run (exceptionHandler layout) (Admissible layout SelfOnly) (main layout boot) deadlock s ∧
    s.softBlockCount = 1 ∧ (∀ p, p ∉ s.pcbFreeH → ¬ layout.isDevSem (s.pcb p).pSemAdd) ∧
    firstProcess ∉ s.pcbFreeH ∧ s.readyQueue = [] ∧ s.control = .wait := by
  have hfollows : Follows (exceptionHandler layout) (Admissible layout SelfOnly) deadlock
      (main layout boot) := by decide +kernel
  obtain ⟨s, hexec, hrun⟩ := hfollows.run
  have hstays : (exec (exceptionHandler layout) deadlock (main layout boot)).all (fun s =>
      s.softBlockCount = 1 ∧ (∀ p, p ∉ s.pcbFreeH → ¬ layout.isDevSem (s.pcb p).pSemAdd) ∧
      firstProcess ∉ s.pcbFreeH ∧ s.readyQueue = [] ∧
      s.control.running = false ∧ s.control.interruptible = true) = true := by decide +kernel
  rw [hexec] at hstays
  obtain ⟨hsoft, hnone, hlive, hready, hrun', hint⟩ : _ ∧ _ ∧ _ ∧ _ ∧ _ ∧ _ := by simpa using hstays
  refine ⟨s, hrun, hsoft, hnone, hlive, hready, ?_⟩
  cases hc : s.control with
  | wait => rfl
  | ldst st => simp [hc, Control.running] at hrun'
  | ldcxt cx => simp [hc, Control.running] at hrun'
  | halt => simp [hc, Control.interruptible] at hint
  | panic => simp [hc, Control.interruptible] at hint

end MultiPandOS
