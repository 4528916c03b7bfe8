import MultiPandOS.Nucleus.Lookup
import MultiPandOS.Nucleus.Times

/-! GETTIME.

The service looks up the process whose id is the number of the processor, 0, where its
caller is meant; ids start at 1. Even for a caller with the id 0 the clock is read against
`startTime`, which stays 0, so the answer is right only if the caller was dispatched when
the clock was at 0. -/
namespace MultiPandOS
open Runs

/-- The process `c` calls GETTIME. -/
structure GetsTime (e : Trap) (x : Nucleus × Meter) (c : PcbPtr) : Prop where
  kind : e.kind = .service .getTime
  caller : x.1.currentProcess = some c
  late : x.2.now ≤ e.clock.toNat

/-- The `p_time` of `c` and what it has used of the processor since it was dispatched. -/
def timeUsed (e : Trap) (x : Nucleus × Meter) (c : PcbPtr) : Word :=
  (x.1.pcb c).pTime + BitVec.ofNat 32 (e.clock.toNat - x.2.since)

/-- What GETTIME owes `c`. -/
structure Answers (L : Layout) (e : Trap) (x : Nucleus × Meter) (c : PcbPtr) : Prop where
  lookup : findProcess (BitVec.ofNat 32 getPRID.val) x.1 = some (some c)
  result : exceptionHandler L e x.1 = some (x.1.ldst (e.state.setA0 (timeUsed e x c)).advance)

/-- Whoever is found has the id. -/
theorem findProcess_pid {pid : Word} {s : Nucleus} {p : PcbPtr} (h : findProcess pid s = some (some p)) :
    (s.pcb p).pPid = pid := by
  by_cases hawake : ∃ p, (s.currentProcess = some p ∨ p ∈ s.readyQueue) ∧ (s.pcb p).pPid = pid
  · obtain ⟨q, hres, -, hpid⟩ := findProcess_awake hawake
    obtain rfl : q = p := Option.some.inj (Option.some.inj (hres.symm.trans h))
    exact hpid
  · rw [findProcess_blocked hawake, findBlockedPcb_eq] at h
    cases hhead : s.semdH.head? with
    | none =>
      rw [hhead] at h
      cases h
    | some j =>
      rw [hhead] at h
      obtain ⟨q, hfind, hq⟩ := Option.map_eq_some_iff.mp h
      obtain rfl : q = p := Option.some.inj hq
      exact (named_of_find hfind).2

theorem findProcess_current {pid : Word} {s : Nucleus} {c : PcbPtr} (hc : s.currentProcess = some c)
    (hpid : (s.pcb c).pPid = pid) : findProcess pid s = some (some c) := by
  simp only [findProcess, hc, hpid, if_true]

/-- What the code answers. -/
theorem getTime_handler {L : Layout} {e : Trap} {x : Nucleus × Meter} {c : PcbPtr} (h : GetsTime e x c)
    (hstart : x.1.startTime getPRID = 0)
    (hfind : findProcess (BitVec.ofNat 32 getPRID.val) x.1 = some (some c)) :
    exceptionHandler L e x.1 = some (x.1.ldst (e.state.setA0 ((x.1.pcb c).pTime + e.clock)).advance) := by
  have hclock : updateTime e getPRID x.1 = e.clock := by simp [updateTime, hstart]
  rw [exceptionHandler_kind, h.kind]
  simp only [h.caller, Option.bind_some, serve, getTime, hfind, hclock]

/-- The two readings of the clock are the same only from 0. -/
theorem elapsed_eq_clock {clock : Word} {since : Nat} (h : since ≤ clock.toNat) :
    BitVec.ofNat 32 (clock.toNat - since) = clock ↔ since = 0 := by
  have hlt := clock.isLt
  rw [← BitVec.toNat_inj, BitVec.toNat_ofNat]
  omega

/-- The clock of a run. -/
theorem run_now {L : Layout} {x x' : Nucleus × Meter} {es : List Trap}
    (h : Run (meteredStep L) Forward x es x') : ∀ e ∈ es, e.clock.toNat ≤ x'.2.now := by
  induction h with
  | nil => simp
  | @snoc es y e y' _ hlate hstep ih =>
    obtain ⟨_, -, rfl⟩ := Option.map_eq_some_iff.mp hstep
    intro e' he'
    rcases List.mem_append.mp he' with he' | he'
    · exact (ih e' he').trans hlate
    · rw [List.mem_singleton.mp he']

/-- **GETTIME** answers its caller exactly if the caller has the id 0 and has had the
processor since the clock was at 0; between two such answers no more time is told than has
elapsed. -/
theorem getTime_iff {L : Layout} {b : Boot} {boot : Nat} {es : List Trap} {x : Nucleus × Meter}
    (hrun : Run (meteredStep L) Forward (main L b, .start boot) es x) {e : Trap} {c : PcbPtr} (h : GetsTime e x c) :
    (Answers L e x c ↔ (x.1.pcb c).pPid = 0 ∧ x.2.since = 0) ∧
    ∀ es' x' e', Run (meteredStep L) Forward x (e :: es') x' → GetsTime e' x' c →
      Answers L e x c → Answers L e' x' c →
      (timeUsed e x c).toNat ≤ (timeUsed e' x' c).toNat ∧
        (timeUsed e' x' c).toNat - (timeUsed e x c).toNat ≤ e'.clock.toNat - e.clock.toNat := by
  have hright : ∀ {x e}, Clocked x → GetsTime e x c →
      (Answers L e x c ↔ (x.1.pcb c).pPid = 0 ∧ x.2.since = 0) := by
    intro x e hclocked h
    have hsince : x.2.since ≤ e.clock.toNat := hclocked.since.trans h.late
    have hcode : ∀ hfind, exceptionHandler L e x.1 = _ := getTime_handler h hclocked.startTime
    constructor
    · rintro ⟨hfind, hres⟩
      refine ⟨findProcess_pid hfind, ?_⟩
      rw [hcode hfind] at hres
      have hstate := Control.ldst.inj (congrArg Nucleus.control (Option.some.inj hres))
      have ha0 := congrFun (congrArg State.gpr hstate) 10
      simp only [State.advance, State.setA0, Function.update_self, timeUsed] at ha0
      exact (elapsed_eq_clock hsince).mp ((BitVec.add_right_inj _).mp ha0).symm
    · rintro ⟨hpid, hzero⟩
      have hfind : findProcess (BitVec.ofNat 32 getPRID.val) x.1 = some (some c) :=
        findProcess_current h.caller hpid
      refine ⟨hfind, ?_⟩
      rw [hcode hfind, timeUsed, (elapsed_eq_clock hsince).mpr hzero]
  have hused : ∀ {x e}, Clocked x → x.2.since = 0 → timeUsed e x c = e.clock := by
    intro x e hclocked hzero
    simp [timeUsed, hclocked.uncharged hzero c, hzero]
  have hclocked := run_clocked hrun
  refine ⟨hright hclocked h, fun es' x' e' hlater h' hans hans' => ?_⟩
  have hclocked' := run_clocked (hrun.append hlater)
  rw [hused hclocked ((hright hclocked h).mp hans).2, hused hclocked' ((hright hclocked' h').mp hans').2]
  have hclock : e.clock.toNat ≤ e'.clock.toNat := (run_now hlater e (List.mem_cons_self ..)).trans h'.late
  exact ⟨hclock, Nat.le_refl _⟩

namespace Sample

/-- The first process, dispatched at the boot, calls GETTIME at 5. -/
def gets : Trap := {ecall (-6) 0 0 with clock := 5}

theorem gets_time : GetsTime gets (main layout boot, .start 0) firstProcess := by
  have hcaller : (main layout boot).currentProcess = some firstProcess := by decide +kernel
  have hkind : gets.kind = .service .getTime := by rfl
  exact ⟨hkind, hcaller, by decide⟩

end Sample

open Sample in
theorem getTime_iff_sample : Answers layout gets (main layout boot, .start 0) firstProcess ↔
    ((main layout boot).pcb firstProcess).pPid = 0 ∧ (Meter.start 0).since = 0 :=
  (getTime_iff .nil gets_time).1

open Sample in
/-- No process has the id 0: the service goes through a NULL pointer. -/
theorem getTime_faults : GetsTime gets (main layout boot, .start 0) firstProcess ∧
    findProcess (BitVec.ofNat 32 getPRID.val) (main layout boot) = some none ∧
    (exceptionHandler layout gets (main layout boot)).isNone = true ∧
    ¬ Answers layout gets (main layout boot, .start 0) firstProcess := by
  have hfind : findProcess (BitVec.ofNat 32 getPRID.val) (main layout boot) = some none := by decide +kernel
  refine ⟨gets_time, hfind, by decide +kernel, fun hans => ?_⟩
  cases hans.lookup.symm.trans hfind

end MultiPandOS
