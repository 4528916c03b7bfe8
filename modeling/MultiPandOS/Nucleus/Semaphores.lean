import MultiPandOS.Library.Semaphore
import MultiPandOS.Nucleus.Runs

/-! PASSEREN and VERHOGEN.

`semEvents` is what happens to one semaphore at a trap: who takes a unit, who
blocks, who signals and whom that wakes, and which of the waiting processes are
freed. What a run of the nucleus writes down in this way is a history that a
first-in first-out counting semaphore takes (`run_exec`), so it obeys the law of
such semaphores (`semaphore_law`). The value is an `int`: it counts as long as the
initial value and the number of signals stay within its range. -/
namespace MultiPandOS
open Forest Runs

/-- What happens to the semaphore at `k`. -/
def semEvents (k : Addr) (s : Nucleus) (e : Trap) (s' : Nucleus) : List (Semaphore.Event PcbPtr) :=
  match e.kind, s.currentProcess with
  | .service .passeren, some c =>
    if e.state.regA1 = k then if (s.mem k).toInt ≤ 0 then [.block c] else [.acquire c] else []
  | .service .verhogen, some c => if e.state.regA1 = k then [.signal c (headBlocked k s)] else []
  | _, _ => [.remove ((waiting k s).filter (· ∈ s'.pcbFreeH))]

/-- The semaphore at `k`, as a counting semaphore. -/
def Nucleus.sem (k : Addr) (s : Nucleus) : Semaphore.Sem PcbPtr := ⟨(s.mem k).toInt, waiting k s⟩

/-! ### What an act does to a semaphore -/

/-- The semaphore an act works on. -/
def Act.key : Act → Option Addr
  | .block k _ => some k
  | .wake k _ => some k
  | .take k => some k
  | .give k => some k
  | .drop k => some k
  | _ => none

def Act.kills : Act → Bool
  | .kill _ _ => true
  | _ => false

theorem Does.frame {clock : Addr} {a : Act} {v v' : View} (h : Does clock a v v') {k : Addr}
    (hkey : a.key ≠ some k) (hkill : a.kills = false) : v'.waiting k = v.waiting k ∧ v'.mem k = v.mem k := by
  have hne : ∀ {k'}, some k' ≠ some k → k ≠ k' := fun h hk => h (congrArg some hk.symm)
  cases h with
  | create => exact ⟨rfl, rfl⟩
  | kill => cases hkill
  | block => exact ⟨Function.update_of_ne (hne hkey) _ _, rfl⟩
  | wake => exact ⟨Function.update_of_ne (hne hkey) _ _, rfl⟩
  | take => exact ⟨rfl, Function.update_of_ne (hne hkey) _ _⟩
  | give => exact ⟨rfl, Function.update_of_ne (hne hkey) _ _⟩
  | drop => exact ⟨rfl, Function.update_of_ne (hne hkey) _ _⟩
  | requeue => exact ⟨rfl, rfl⟩

theorem Acts.frame {clock : Addr} {as : List Act} {v v' : View} (h : Acts clock as v v') {k : Addr}
    (hkey : ∀ a ∈ as, a.key ≠ some k) (hkill : ∀ a ∈ as, a.kills = false) :
    v'.waiting k = v.waiting k ∧ v'.mem k = v.mem k := by
  induction h with
  | nil => exact ⟨rfl, rfl⟩
  | cons hd _ ih =>
    obtain ⟨hw, hm⟩ := hd.frame (hkey _ (by simp)) (hkill _ (by simp))
    obtain ⟨hw', hm'⟩ := ih (fun a ha => hkey a (by simp [ha])) fun a ha => hkill a (by simp [ha])
    exact ⟨hw'.trans hw, hm'.trans hm⟩

theorem Acts.single {clock : Addr} {a : Act} {v v' : View} (h : Acts clock [a] v v') : Does clock a v v' := by
  cases h with
  | cons hd hnil =>
    cases hnil
    exact hd

/-- A handler with one act or the other. -/
theorem forall_either {P : Act → Prop} {c : Prop} [Decidable c] {a b : Act} (ha : P a) (hb : P b) :
    ∀ x ∈ [if c then a else b], P x := by
  intro x hx
  rw [List.mem_singleton.mp hx]
  split
  · exact ha
  · exact hb

theorem View.dispatch_eq (v : View) : v.dispatch = {v with
    ready := v.dispatch.ready
    current := v.dispatch.current} := by
  unfold View.dispatch
  cases v.ready <;> rfl

/-- Leaving moves nobody into or out of a queue of a semaphore or the free list. -/
theorem Leaves.frame {v : View} {s' : Nucleus} (h : Leaves v s') :
    s'.pcbFreeH = v.free ∧ (∀ k, waiting k s' = v.waiting k) ∧ s'.mem = v.mem := by
  have hview : s'.view = v ∨ s'.view = v.dispatch := by
    cases h with
    | resume _ hview => exact Or.inl hview
    | dispatch _ hview => exact Or.inr hview
  rcases hview with hview | hview
  · exact ⟨congrArg View.free hview, congrFun (congrArg View.waiting hview), congrArg View.mem hview⟩
  · rw [View.dispatch_eq] at hview
    exact ⟨congrArg View.free hview, congrFun (congrArg View.waiting hview), congrArg View.mem hview⟩

/-! ### One trap -/

section Step
variable {L : Layout} {Term : Nucleus → Trap → PcbPtr → Prop} {s s' : Nucleus} {e : Trap} {k : Addr}

/-- A trap that is neither P nor V removes from the queue whom it frees. -/
theorem remove_step (hs' : Sound s') (hmem : (s'.mem k) = s.mem k) {ks : List PcbPtr}
    (hfree : ∀ p ∈ ks, p ∈ s'.pcbFreeH) (hwait : waiting k s' = (waiting k s).filter (· ∉ ks)) :
    exec Semaphore.step [.remove ((waiting k s).filter (· ∈ s'.pcbFreeH))] (s.sem k) = some (s'.sem k) := by
  have hq : (waiting k s).filter (· ∉ (waiting k s).filter (· ∈ s'.pcbFreeH)) = waiting k s' := by
    rw [hwait]
    apply List.filter_congr
    intro p hp
    have hiff : p ∈ ks ↔ p ∈ s'.pcbFreeH := by
      refine ⟨hfree p, fun hf => ?_⟩
      by_contra hk
      exact hs'.ok.waiting_live (hwait ▸ List.mem_filter.mpr ⟨hp, by simpa using hk⟩ : p ∈ waiting k s') hf
    simp [hp, hiff]
  simp only [exec, Semaphore.step, Nucleus.sem, Option.bind_some, hq, hmem]

/-- Acts on other semaphores leave this one alone. -/
theorem sem_frame {as : List Act} {v : View} (hacts : Acts L.clock as s.view v) (hleaves : Leaves v s')
    (hkey : ∀ a ∈ as, a.key ≠ some k) (hkill : ∀ a ∈ as, a.kills = false) :
    waiting k s' = waiting k s ∧ s'.mem k = s.mem k := by
  obtain ⟨hw, hm⟩ := hacts.frame hkey hkill
  obtain ⟨-, hw', hm'⟩ := hleaves.frame
  exact ⟨(hw' k).trans hw, (congrFun hm' k).trans hm⟩

theorem devSem_ne (hdev : ¬ L.isDevSem k) {i : Nat} (hi : i < SEMDEVLEN) {j : Int} (hj : j = i) :
    some (L.devSem j) ≠ some k := by
  rintro ⟨⟩
  exact hdev ⟨i, hi, by rw [hj]⟩

theorem toInt_add_one {w : Word} (h : w.toInt + 1 < 2 ^ 31) : (w + 1).toInt = w.toInt + 1 := by
  have hlt := w.isLt
  have hone : (1 : Word).toNat = 1 := rfl
  simp only [BitVec.toInt_eq_toNat_cond, BitVec.toNat_add, hone] at h ⊢
  split_ifs at h ⊢ <;> omega

theorem toInt_sub_one {w : Word} (h : 0 < w.toInt) : (w - 1).toInt = w.toInt - 1 := by
  have hlt := w.isLt
  have hone : (1 : Word).toNat = 1 := rfl
  simp only [BitVec.toInt_eq_toNat_cond, BitVec.toNat_sub, hone] at h ⊢
  split_ifs at h ⊢ <;> omega

theorem passeren_step {v : View} (hleaves : Leaves v s') {c : PcbPtr} (hc : s.currentProcess = some c)
    (hdoes : Does L.clock (if (s.mem k).toInt ≤ 0 then .block k 0 else .take k) s.view v) :
    exec Semaphore.step (if (s.mem k).toInt ≤ 0 then [.block c] else [.acquire c]) (s.sem k) =
      some (s'.sem k) := by
  obtain ⟨-, hwait, hmem⟩ := hleaves.frame
  by_cases hv : (s.mem k).toInt ≤ 0
  · rw [if_pos hv] at hdoes
    have hnot : ¬ 0 < (s.sem k).value := not_lt.mpr hv
    simp only [if_pos hv, exec, Semaphore.step, hnot, if_false, Option.bind_some, Option.some.injEq]
    cases hdoes with
    | @block _ c' _ _ hc' =>
      obtain rfl : c = c' := Option.some.inj (hc.symm.trans hc')
      have hw : waiting k s' = waiting k s ++ [c] := (hwait k).trans (by simp [View.block, Nucleus.view])
      have hm : s'.mem k = s.mem k := congrFun hmem k
      simp only [Nucleus.sem, hw, hm]
  · rw [if_neg hv] at hdoes
    have hpos : 0 < (s.mem k).toInt := not_le.mp hv
    have hpos' : 0 < (s.sem k).value := hpos
    simp only [if_neg hv, exec, Semaphore.step, hpos', if_true, Option.bind_some, Option.some.injEq]
    cases hdoes with
    | take =>
      have hw : waiting k s' = waiting k s := hwait k
      have hm : s'.mem k = s.mem k - 1 := (congrFun hmem k).trans (by simp [Nucleus.view])
      simp only [Nucleus.sem, hw, hm, toInt_sub_one hpos]

theorem verhogen_step {v : View} (hleaves : Leaves v s') (c : PcbPtr)
    (hdoes : Does L.clock (if waiting k s = [] then .give k else .wake k 0) s.view v)
    (hroom : (s.mem k).toInt + 1 < 2 ^ 31) :
    exec Semaphore.step [.signal c (headBlocked k s)] (s.sem k) = some (s'.sem k) := by
  obtain ⟨-, hwait, hmem⟩ := hleaves.frame
  rw [headBlocked_eq]
  cases hq : waiting k s with
  | nil =>
    rw [if_pos hq] at hdoes
    have hempty : (s.sem k).queue = [] := hq
    simp only [List.head?_nil, exec, Semaphore.step, hempty, if_true, Option.bind_some, Option.some.injEq]
    cases hdoes with
    | give =>
      have hw : waiting k s' = waiting k s := hwait k
      have hm : s'.mem k = s.mem k + 1 := (congrFun hmem k).trans (by simp [Nucleus.view])
      simp only [Nucleus.sem, hw, hq, hm, toInt_add_one hroom]
  | cons p rest =>
    rw [if_neg (by simp [hq])] at hdoes
    have hhead : (s.sem k).queue = p :: rest := hq
    simp only [List.head?_cons, exec, Semaphore.step, hhead, if_true, Option.bind_some, Option.some.injEq,
      List.tail_cons]
    cases hdoes with
    | @wake _ _ p' rest' _ _ hq' =>
      obtain ⟨rfl, rfl⟩ := List.cons.inj (hq.symm.trans hq')
      have hw : waiting k s' = rest := (hwait k).trans (by simp [View.wake])
      have hm : s'.mem k = s.mem k := congrFun hmem k
      simp only [Nucleus.sem, hw, hm]

theorem semEvents_remove (hP : e.kind ≠ .service .passeren) (hV : e.kind ≠ .service .verhogen) :
    semEvents k s e s' = [.remove ((waiting k s).filter (· ∈ s'.pcbFreeH))] := by
  unfold semEvents
  split
  · next c hk hc => exact absurd hk hP
  · next c hk hc => exact absurd hk hV
  · rfl

/-- What neither P nor V nor a kill does, on other semaphores. -/
theorem quiet_step {as : List Act} {v : View} (hs' : Sound s') (hacts : Acts L.clock as s.view v) (hleaves : Leaves v s')
    (hP : e.kind ≠ .service .passeren) (hV : e.kind ≠ .service .verhogen) (hkey : ∀ a ∈ as, a.key ≠ some k)
    (hkill : ∀ a ∈ as, a.kills = false) : exec Semaphore.step (semEvents k s e s') (s.sem k) = some (s'.sem k) := by
  obtain ⟨hwait, hmem⟩ := sem_frame hacts hleaves hkey hkill
  rw [semEvents_remove hP hV]
  exact @remove_step s s' k hs' hmem [] (fun _ hp => (List.not_mem_nil hp).elim) (by simpa using hwait)

theorem kill_step {ks : List PcbPtr} {caller : Bool} {v : View} (hs' : Sound s')
    (hacts : Acts L.clock [.kill ks caller] s.view v) (hleaves : Leaves v s')
    (hP : e.kind ≠ .service .passeren) (hV : e.kind ≠ .service .verhogen) :
    exec Semaphore.step (semEvents k s e s') (s.sem k) = some (s'.sem k) := by
  obtain ⟨hfree, hwait, hmem⟩ := hleaves.frame
  rw [semEvents_remove hP hV]
  cases hacts.single with
  | kill => exact remove_step hs' (congrFun hmem k) (fun p hp => by rw [hfree]; simp [View.kill, hp]) (hwait k)

/-- P and V on another semaphore. -/
theorem skip_step {as : List Act} {v : View} (hacts : Acts L.clock as s.view v) (hleaves : Leaves v s')
    (hev : semEvents k s e s' = []) (hkey : ∀ a ∈ as, a.key ≠ some k) (hkill : ∀ a ∈ as, a.kills = false) :
    exec Semaphore.step (semEvents k s e s') (s.sem k) = some (s'.sem k) := by
  obtain ⟨hwait, hmem⟩ := sem_frame hacts hleaves hkey hkill
  simp only [hev, exec, Nucleus.sem, hwait, hmem]

/-- **One trap is one event of the semaphore**, or none. -/
theorem semEvents_step (hs : Sound s) (hadm : Admissible L Term s e) (hterm : ∀ c, Term s e c → TermOk s e c)
    (hstep : exceptionHandler L e s = some s') (hdev : ¬ L.isDevSem k)
    (hroom : (s.mem k).toInt + Semaphore.signals (semEvents k s e s') < 2 ^ 31) :
    exec Semaphore.step (semEvents k s e s') (s.sem k) = some (s'.sem k) := by
  have hs' : Sound s' := hs.step hadm.allowed hterm hstep
  have hcaller : ∀ {sv}, e.kind = .service sv → ∃ c, s.currentProcess = some c := by
    intro sv hk
    simp only [Admissible, hk, KindOk] at hadm
    exact Option.isSome_iff_exists.mp (hs.control ▸ hadm.1)
  have hserve : ∀ {sv}, e.kind = .service sv → ServiceOk L s e sv := by
    intro sv hk
    simp only [Admissible, hk, KindOk] at hadm
    exact hadm.2.1
  obtain ⟨s₁, as, v, hres, -, hacted, hacts, hleaves⟩ := handler_acts hs hadm.allowed hterm
  obtain rfl : s' = s₁ := Option.some.inj (hstep.symm.trans hres)
  cases hacted with
  | preempt hk => exact quiet_step hs' hacts hleaves (by simp [hk]) (by simp [hk]) (by simp [Act.key]) (by simp [Act.kills])
  | tick hk =>
    refine quiet_step hs' hacts hleaves (by simp [hk]) (by simp [hk]) (fun a ha => ?_) (fun a ha => ?_) <;>
      obtain rfl := List.eq_of_mem_replicate ha
    · exact devSem_ne (j := 48) hdev (i := 48) (by decide) rfl
    · rfl
  | @complete line status command reg hk h1 h2 hserved =>
    obtain ⟨hlo, hhi⟩ := calcIntLineNo_range (Trap.kind_interrupt hk)
    obtain ⟨i, hi, hidx⟩ := findDeviceIndex_served (by omega) hhi hserved
    have hkey := devSem_ne (L := L) hdev (i := i) (by simp only [SEMDEVLEN]; omega) hidx
    exact quiet_step hs' hacts hleaves (by simp [hk]) (by simp [hk]) (forall_either hkey hkey) (forall_either rfl rfl)
  | create hk => exact quiet_step hs' hacts hleaves (by simp [hk]) (by simp [hk]) (by simp [Act.key]) (by simp [Act.kills])
  | terminate hk => exact kill_step hs' hacts hleaves (by simp [hk]) (by simp [hk])
  | die hk => exact kill_step hs' hacts hleaves (by simp [hk]) (by simp [hk])
  | yield hk => exact quiet_step hs' hacts hleaves (by simp [hk]) (by simp [hk]) (by simp [Act.key]) (by simp [Act.kills])
  | none hk =>
    exact quiet_step hs' hacts hleaves (fun hP => by simp [hP, Kind.quiet] at hk)
      (fun hV => by simp [hV, Kind.quiet] at hk) (by simp) (by simp)
  | @waitDevSem k' hk =>
    have hkey : some k' ≠ some k := by
      rcases hk with ⟨hk, rfl⟩ | ⟨hk, rfl⟩
      · obtain ⟨i, hi, hidx⟩ := findDeviceIndex_command (hserve hk)
        exact devSem_ne hdev (i := i) (by simp only [SEMDEVLEN]; omega) hidx
      · exact devSem_ne (j := 48) hdev (i := 48) (by decide) rfl
    have hkind : e.kind ≠ .service .passeren ∧ e.kind ≠ .service .verhogen := by
      rcases hk with ⟨hk, -⟩ | ⟨hk, -⟩
      · simp [hk]
      · simp [hk]
    exact quiet_step hs' hacts hleaves hkind.1 hkind.2 (forall_either hkey hkey) (forall_either rfl rfl)
  | passeren hk =>
    obtain ⟨c, hc⟩ := hcaller hk
    by_cases ha1 : e.state.regA1 = k
    · subst ha1
      simp only [semEvents, hk, hc, if_true]
      exact passeren_step hleaves hc hacts.single
    · have hkey : some e.state.regA1 ≠ some k := fun h => ha1 (Option.some.inj h)
      exact skip_step hacts hleaves (by simp [semEvents, hk, hc, ha1]) (forall_either hkey hkey) (forall_either rfl rfl)
  | verhogen hk =>
    obtain ⟨c, hc⟩ := hcaller hk
    by_cases ha1 : e.state.regA1 = k
    · subst ha1
      simp only [semEvents, hk, hc, if_true] at hroom ⊢
      exact verhogen_step hleaves c hacts.single hroom
    · have hkey : some e.state.regA1 ≠ some k := fun h => ha1 (Option.some.inj h)
      exact skip_step hacts hleaves (by simp [semEvents, hk, hc, ha1]) (forall_either hkey hkey) (forall_either rfl rfl)

end Step

/-! ### Every run -/

theorem signals_append (tr tr' : List (Semaphore.Event PcbPtr)) :
    Semaphore.signals (tr ++ tr') = Semaphore.signals tr + Semaphore.signals tr' := by
  simp [Semaphore.signals, List.countP_append]

section Run
variable {L : Layout} {b : Boot} {es : List Trap} {s : Nucleus} {k : Addr}

/-- The value and the queue of a semaphore after a run are those of a counting
semaphore that takes the events of the run. -/
theorem run_exec (hdev : ¬ L.isDevSem k) (hv : 0 ≤ (b.mem k).toInt)
    (h : Run (exceptionHandler L) (Admissible L SelfOnly) (main L b) es s)
    (hroom : (b.mem k).toInt + Semaphore.signals (trace (exceptionHandler L) (semEvents k) (main L b) es) <
      2 ^ 31) :
    exec Semaphore.step (trace (exceptionHandler L) (semEvents k) (main L b) es) ⟨(b.mem k).toInt, []⟩ =
      some (s.sem k) := by
  induction h with
  | nil =>
    have hmem : (main L b).mem k = b.mem k := by
      obtain ⟨rest, -, hmain⟩ := main_eq L b
      rw [hmain]
      refine (clearDevSem_mem L b.globals k).trans (if_neg ?_)
      rintro ⟨i, hi, rfl⟩
      exact hdev ⟨i, List.mem_range.mp hi, rfl⟩
    have hwait : waiting k (main L b) = [] := by
      obtain ⟨rest, -, hmain⟩ := main_eq L b
      exact waiting_of_forall_ne (by rw [hmain]; exact fun j hj => (List.not_mem_nil hj).elim)
    simp only [trace, exec, Nucleus.sem, hmem, hwait]
  | @snoc es s e s' hrun hadm hstep ih =>
    rw [hrun.trace_snoc hstep, signals_append] at hroom
    rw [hrun.trace_snoc hstep, exec_append, ih (by push_cast at hroom; omega), Option.bind_some]
    have hlaw := Semaphore.law hv _ _ (ih (by push_cast at hroom; omega))
    refine semEvents_step (run_sound (fun _ _ _ => SelfOnly.termOk) (hrun.mono fun _ _ h => h.allowed)) hadm (fun _ => SelfOnly.termOk) hstep
      hdev ?_
    have hb : (s.mem k).toInt = _ := hlaw.balance
    rw [hb]
    push_cast at hroom
    omega

/-- **The semaphore law** for the nucleus. -/
theorem semaphore_law (hdev : ¬ L.isDevSem k) (hv : 0 ≤ (b.mem k).toInt)
    (h : Run (exceptionHandler L) (Admissible L SelfOnly) (main L b) es s)
    (hroom : (b.mem k).toInt + Semaphore.signals (trace (exceptionHandler L) (semEvents k) (main L b) es) <
      2 ^ 31) :
    let tr := trace (exceptionHandler L) (semEvents k) (main L b) es
    Semaphore.Law (b.mem k).toInt tr (s.sem k) ∧
      ((b.mem k).toInt = 1 → Semaphore.Paired tr → (Semaphore.holders tr).length ≤ 1) := by
  have hexec := run_exec hdev hv h hroom
  refine ⟨Semaphore.law hv _ _ hexec, fun hone hpaired => ?_⟩
  rw [hone] at hexec
  exact Semaphore.holders_length_le hpaired hexec

end Run

open Sample in
theorem semaphore_law_sample :
    let tr := trace (exceptionHandler layout) (semEvents 0x20030000) (main layout boot) events
    ∃ s, exec (exceptionHandler layout) events (main layout boot) = some s ∧
      Semaphore.Law 0 tr (s.sem 0x20030000) ∧ Semaphore.signals tr = 1 := by
  have hfollows : Follows (exceptionHandler layout) (Admissible layout SelfOnly) events (main layout boot) := by
    decide +kernel
  obtain ⟨s, hexec, hrun⟩ := hfollows.run
  have hsignals : Semaphore.signals (trace (exceptionHandler layout) (semEvents 0x20030000)
      (main layout boot) events) = 1 := by decide +kernel
  have hlaw := semaphore_law (k := 0x20030000) (by decide) (by decide) hrun (by rw [hsignals]; decide)
  exact ⟨s, hexec, hlaw.1, hsignals⟩

namespace Sample

/-- All integers of the machine start at the largest value. -/
def fullBoot : Boot := {boot with mem := fun _ => 0x7FFFFFFF}

end Sample

open Sample in
/-- One signal too many for an `int`. -/
theorem verhogen_overflow : ∃ s,
    Run (exceptionHandler layout) (Admissible layout SelfOnly) (main layout fullBoot)
      [ecall (-4) 0x20030000 0] s ∧
    0 ≤ (fullBoot.mem 0x20030000).toInt ∧ ¬ layout.isDevSem 0x20030000 ∧
    Semaphore.signals (trace (exceptionHandler layout) (semEvents 0x20030000) (main layout fullBoot)
      [ecall (-4) 0x20030000 0]) = 1 ∧
    (s.mem 0x20030000).toInt < 0 := by
  have hfollows : Follows (exceptionHandler layout) (Admissible layout SelfOnly) [ecall (-4) 0x20030000 0]
      (main layout fullBoot) := by decide +kernel
  obtain ⟨s, hexec, hrun⟩ := hfollows.run
  have hneg : (exec (exceptionHandler layout) [ecall (-4) 0x20030000 0] (main layout fullBoot)).all
      (fun s => (s.mem 0x20030000).toInt < 0) = true := by decide +kernel
  rw [hexec] at hneg
  exact ⟨s, hrun, by decide, by decide, by decide +kernel, by simpa using hneg⟩

end MultiPandOS
