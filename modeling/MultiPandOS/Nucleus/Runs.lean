import MultiPandOS.Library.Runs
import MultiPandOS.Nucleus.Steps

/-! Runs of the nucleus.

Boot leaves a sound state (`main_sound`) and every trap within the rule keeps it
sound, so every state in which the nucleus gives up the processor is sound
(`run_sound`). `Consistent` spells out what that means for the queues and counters
of the code. -/
namespace MultiPandOS
open Forest Runs

/-! ### Boot -/

theorem clearDevSem_eq (L : Layout) (s : Nucleus) : L.clearDevSem s = {s with mem := (L.clearDevSem s).mem} := by
  have hfold : ∀ (is : List Nat) (s : Nucleus),
      is.foldl (fun s (c : Nat) => s.setMem (L.devSem c) 0) s =
        {s with mem := (is.foldl (fun s (c : Nat) => s.setMem (L.devSem c) 0) s).mem} := by
    intro is
    induction is with
    | nil => exact fun _ => rfl
    | cons i rest ih =>
      intro s
      rw [List.foldl_cons, ih]
      rfl
  unfold Layout.clearDevSem
  exact hfold (List.range SEMDEVLEN) s

theorem clearDevSem_mem (L : Layout) (s : Nucleus) (a : Addr) :
    (L.clearDevSem s).mem a = if ∃ i ∈ List.range SEMDEVLEN, a = L.devSem (i : Nat) then 0 else s.mem a := by
  have hfold : ∀ (is : List Nat) (s : Nucleus),
      (is.foldl (fun s (c : Nat) => s.setMem (L.devSem c) 0) s).mem a =
        if ∃ i ∈ is, a = L.devSem (i : Nat) then 0 else s.mem a := by
    intro is
    induction is with
    | nil => simp
    | cons i rest ih =>
      intro s
      rw [List.foldl_cons, ih]
      by_cases hrest : ∃ i ∈ rest, a = L.devSem (i : Nat)
      · simp [hrest]
      · by_cases hi : a = L.devSem (i : Nat) <;> simp [hrest, hi, Nucleus.setMem]
  unfold Layout.clearDevSem
  exact hfold (List.range SEMDEVLEN) s

/-- The first process: the pcb freed last. -/
def firstProcess : PcbPtr := ⟨19, by decide⟩

/-- The state at the first dispatch. -/
theorem main_eq (L : Layout) (b : Boot) :
    ∃ rest, (List.finRange MAXPROC).foldl (fun q c => c :: q) [] = firstProcess :: rest ∧ main L b =
      { b.globals with
        pcb := Function.update (fun _ => Pcb.zero) firstProcess
          {Pcb.fresh 1 with pS := b.firstState State.zero}
        pcbFreeH := rest
        nextPid := 2
        semdFreeH := firstProcess :: rest
        currentProcess := some firstProcess
        processCount := 1
        mem := (L.clearDevSem b.globals).mem
        control := .ldst (b.firstState State.zero) } := by
  obtain ⟨rest, hrest⟩ : ∃ rest, (List.finRange MAXPROC).foldl (fun q c => c :: q) [] = firstProcess :: rest :=
    ⟨_, rfl⟩
  refine ⟨rest, hrest, ?_⟩
  have hinit : {(initASL (initPcbs b.globals)) with readyQueue := [], startTime := fun _ => 0} =
      {b.globals with pcbFreeH := firstProcess :: rest, semdFreeH := firstProcess :: rest} := by
    simp only [initASL, initPcbs, hrest]
    rfl
  have hmem : (L.clearDevSem
      {b.globals with pcbFreeH := firstProcess :: rest, semdFreeH := firstProcess :: rest}).mem =
      (L.clearDevSem b.globals).mem := by
    funext a
    rw [clearDevSem_mem, clearDevSem_mem]
  simp only [main, hinit]
  rw [clearDevSem_eq, hmem]
  simp only [allocPcb]
  rw [@scheduler_cons _ firstProcess [] rfl]
  simp only [Nucleus.setPcb, Function.update_idem, Function.update_self]
  rfl

theorem main_pcb (L : Layout) (b : Boot) (p : PcbPtr) : (main L b).pcb p =
    if p = firstProcess then {Pcb.fresh 1 with pS := b.firstState State.zero} else Pcb.zero := by
  obtain ⟨rest, -, hmain⟩ := main_eq L b
  rw [hmain]
  exact Function.update_apply (fun _ => Pcb.zero) firstProcess _ p

/-- Boot leaves one process, in no queue, and everything else free. -/
theorem main_sound (L : Layout) (b : Boot) : Sound (main L b) := by
  obtain ⟨rest, hrest, hmain⟩ := main_eq L b
  have hnd : (firstProcess :: rest).Nodup := by
    rw [← hrest]
    decide
  have hcover : ∀ j, j ∈ firstProcess :: rest := by
    rw [← hrest]
    decide
  have hlen : rest.length = 19 := by
    have hlen : (firstProcess :: rest).length = 20 := by
      rw [← hrest]
      rfl
    simpa using hlen
  have hpcb : ∀ p, ((main L b).pcb p).pParent = none ∧ ((main L b).pcb p).pChild = [] ∧
      ((main L b).pcb p).pSemAdd = NULL := by
    intro p
    rw [main_pcb]
    split
    · exact ⟨rfl, rfl, rfl⟩
    · exact ⟨rfl, rfl, rfl⟩
  have hasl : Asl (main L b) := by
    rw [hmain]
    exact ⟨hnd, fun j => Or.inr (hcover j), fun i hi => (List.not_mem_nil hi).elim,
      fun j hj => (List.not_mem_nil hj).elim, fun j hj => (List.not_mem_nil hj).elim, fun j _ => rfl⟩
  have hwait : ∀ k, waiting k (main L b) = [] := fun k =>
    waiting_of_forall_ne (by rw [hmain]; exact fun j hj => (List.not_mem_nil hj).elim)
  have hready : (main L b).readyQueue = [] := by rw [hmain]; rfl
  have hfree : (main L b).pcbFreeH = rest := by rw [hmain]
  have hcur : (main L b).currentProcess = some firstProcess := by rw [hmain]
  refine ⟨hasl, ?_, fun c hc => ?_, ?_⟩
  · refine ⟨?_, ?_, fun k => ?_, fun p hp => ?_, fun k p => ?_,
      fun p _ => (hpcb p).2.2, fun p _ => (hpcb p).2.2, ⟨fun p q => ?_, fun p => ?_, ⟨fun _ => 0, fun p q h => ?_⟩⟩,
      fun p _ => (hpcb p).1, fun p _ => (hpcb p).2.1, ?_⟩
    · show (main L b).pcbFreeH.Nodup
      rw [hfree]
      exact (List.nodup_cons.mp hnd).2
    · show (main L b).readyQueue.Nodup
      rw [hready]
      exact List.nodup_nil
    · show (waiting k (main L b)).Nodup
      rw [hwait]
      exact List.nodup_nil
    · have hp : p ∈ (main L b).readyQueue := hp
      rw [hready] at hp
      cases hp
    · show p ∈ waiting k (main L b) ↔ ((main L b).pcb p).pSemAdd = k ∧ k ≠ NULL
      rw [hwait, (hpcb p).2.2]
      simp only [List.not_mem_nil, false_iff, not_and, not_not]
      exact fun h => h.symm
    · show q ∈ ((main L b).pcb p).pChild ↔ ((main L b).pcb q).pParent = some p
      rw [(hpcb p).2.1, (hpcb q).1]
      simp
    · show ((main L b).pcb p).pChild.Nodup
      rw [(hpcb p).2.1]
      exact List.nodup_nil
    · have h : ((main L b).pcb q).pParent = some p := h
      rw [(hpcb q).1] at h
      cases h
    · show (main L b).processCount = BitVec.ofNat 32 (MAXPROC - (main L b).pcbFreeH.length)
      rw [hfree, hlen, hmain]
      rfl
  · obtain rfl : firstProcess = c := Option.some.inj (hcur.symm.trans hc)
    refine ⟨?_, ?_, (hpcb firstProcess).2.2⟩
    · show firstProcess ∉ (main L b).pcbFreeH
      rw [hfree]
      exact (List.nodup_cons.mp hnd).1
    · show firstProcess ∉ (main L b).readyQueue
      rw [hready]
      exact List.not_mem_nil
  · rw [hmain]
    rfl

/-! ### Every run -/

theorem run_sound {L : Layout} {Term : Nucleus → Trap → PcbPtr → Prop}
    (hterm : ∀ s e c, Term s e c → TermOk s e c) {b : Boot} {es : List Trap} {s : Nucleus}
    (h : Run (exceptionHandler L) (Allowed L Term) (main L b) es s) : Sound s :=
  h.invariant Sound (main_sound L b) fun _ _ _ hs hadm hstep => hs.step hadm (hterm _ _) hstep

/-- The queues and counters agree on where every process is. -/
structure Consistent (s : Nucleus) : Prop where
  once : (s.pcbFreeH ++ s.readyQueue ++ (List.finRange MAXPROC).flatMap (fun j => (s.semd j).sProcq) ++
    s.currentProcess.toList).Nodup
  current_live : ∀ c, s.currentProcess = some c → c ∉ s.pcbFreeH
  blocked : ∀ k ≠ NULL, ∀ p, (∃ j, (s.semd j).sKey = k ∧ p ∈ (s.semd j).sProcq) ↔ (s.pcb p).pSemAdd = k
  unblocked : ∀ p, p ∈ s.pcbFreeH ∨ p ∈ s.readyQueue ∨ s.currentProcess = some p → (s.pcb p).pSemAdd = NULL
  count : s.processCount.toNat = (Finset.univ.filter (· ∉ s.pcbFreeH)).card

theorem Sound.mem_sProcq {s : Nucleus} (hs : Sound s) {j : SemdPtr} {p : PcbPtr} (h : p ∈ (s.semd j).sProcq) :
    j ∈ s.semdH ∧ (s.semd j).sKey = (s.pcb p).pSemAdd ∧ (s.pcb p).pSemAdd ≠ NULL := by
  obtain ⟨hj, hw⟩ := MultiPandOS.mem_sProcq hs.asl h
  obtain ⟨hk, hnull⟩ := (hs.ok.mem_waiting _ p).mp hw
  exact ⟨hj, hk.symm, fun hn => hnull (hk.symm.trans hn)⟩

theorem Sound.sProcq_nodup {s : Nucleus} (hs : Sound s) (j : SemdPtr) : (s.semd j).sProcq.Nodup := by
  rcases hs.asl.cover j with hj | hj
  · rw [← waiting_of_mem hs.asl hj rfl]
    exact hs.ok.waiting_nodup _
  · rw [hs.asl.idle j hj]
    exact List.nodup_nil

theorem Sound.blocked_nodup {s : Nucleus} (hs : Sound s) :
    ((List.finRange MAXPROC).flatMap fun j => (s.semd j).sProcq).Nodup := by
  rw [List.nodup_flatMap]
  refine ⟨fun j _ => hs.sProcq_nodup j, (List.nodup_finRange MAXPROC).imp fun {i j} hij p hi hj => ?_⟩
  have hi := hs.mem_sProcq hi
  have hj := hs.mem_sProcq hj
  exact hij (hs.asl.keys i hi.1 j hj.1 (hi.2.1.trans hj.2.1.symm))

theorem Sound.consistent {s : Nucleus} (hs : Sound s) : Consistent s := by
  have hsem : ∀ p, p ∈ s.pcbFreeH ∨ p ∈ s.readyQueue ∨ s.currentProcess = some p → (s.pcb p).pSemAdd = NULL := by
    rintro p (hp | hp | hp)
    · exact hs.ok.free_semAdd p hp
    · exact hs.ok.ready_semAdd p hp
    · exact (hs.current p hp).unblocked
  refine ⟨?_, fun c hc => (hs.current c hc).live, fun k hk p => ⟨?_, fun hp => ?_⟩, hsem, ?_⟩
  · have hblocked : ∀ {p}, p ∈ (List.finRange MAXPROC).flatMap (fun j => (s.semd j).sProcq) →
        (s.pcb p).pSemAdd ≠ NULL := by
      intro p hp
      obtain ⟨j, -, hj⟩ := List.mem_flatMap.mp hp
      exact (hs.mem_sProcq hj).2.2
    refine List.nodup_append.mpr ⟨List.nodup_append.mpr ⟨List.nodup_append.mpr ⟨hs.ok.free_nodup,
      hs.ok.ready_nodup, ?_⟩, hs.blocked_nodup, ?_⟩, ?_, ?_⟩
    · rintro p hf _ hr rfl
      exact hs.ok.ready_live p hr hf
    · rintro p hp _ hb rfl
      rcases List.mem_append.mp hp with hf | hr
      · exact hblocked hb (hsem p (.inl hf))
      · exact hblocked hb (hsem p (.inr (.inl hr)))
    · cases s.currentProcess <;> simp
    · rintro p hp _ hc rfl
      have hc : s.currentProcess = some p := by simpa using hc
      have hloose := hs.current p hc
      rcases List.mem_append.mp hp with hp | hb
      · rcases List.mem_append.mp hp with hf | hr
        · exact hloose.live hf
        · exact hloose.unready hr
      · exact hblocked hb hloose.unblocked
  · rintro ⟨j, rfl, hj⟩
    exact (hs.mem_sProcq hj).2.1.symm
  · obtain ⟨j, hj, hkey, hpj⟩ := (mem_waiting hs.asl).mp ((hs.ok.mem_waiting k p).mpr ⟨hp, hk⟩)
    exact ⟨j, hkey, hpj⟩
  · have hnd : s.pcbFreeH.Nodup := hs.ok.free_nodup
    have hcard : (Finset.univ.filter (· ∉ s.pcbFreeH)).card = MAXPROC - s.pcbFreeH.length := by
      have hcompl : Finset.univ.filter (· ∉ s.pcbFreeH) = s.pcbFreeH.toFinsetᶜ := by
        ext p
        simp
      rw [hcompl, Finset.card_compl, Fintype.card_fin, List.toFinset_card_of_nodup hnd]
    rw [hcard, show s.processCount = _ from hs.ok.count, BitVec.toNat_ofNat]
    apply Nat.mod_eq_of_lt
    simp only [MAXPROC, Nucleus.view]
    omega

/-- TERMPROCESS as `test` and `TerminateSys` issue it. -/
def SelfOnly (_ : Nucleus) (e : Trap) (_ : PcbPtr) : Prop := e.state.regA1 = 0

instance (s : Nucleus) (e : Trap) (c : PcbPtr) : Decidable (SelfOnly s e c) :=
  inferInstanceAs (Decidable (_ = _))

theorem SelfOnly.termOk {s : Nucleus} {e : Trap} {c : PcbPtr} (h : SelfOnly s e c) : TermOk s e c := by
  refine ⟨some c, if_pos h, fun r hr _ => ?_⟩
  exact (Option.some.inj hr).symm

/-- **One place for every process**: whenever the nucleus gives up the processor its
queues and counters are consistent, and it handles whatever comes next. -/
theorem run_consistent {L : Layout} {b : Boot} {es : List Trap} {s : Nucleus}
    (h : Run (exceptionHandler L) (Admissible L SelfOnly) (main L b) es s) :
    Consistent s ∧ ∀ e, Admissible L SelfOnly s e → (exceptionHandler L e s).isSome := by
  have hs : Sound s := run_sound (fun _ _ _ => SelfOnly.termOk) (h.mono fun _ _ h => h.allowed)
  refine ⟨hs.consistent, fun e he => ?_⟩
  obtain ⟨s', -, -, hres, -⟩ := handler_acts hs he.allowed fun _ => SelfOnly.termOk
  rw [hres]
  rfl

/-! ### Runs on a machine -/

namespace Sample

/-- A nucleus whose `deviceSemaphore` is at 0x20001000. -/
def layout : Layout := ⟨0x20001000, by decide, by decide⟩

def support : Support :=
  ⟨0, fun _ => State.zero, fun _ => ⟨0, 0, 0⟩, fun _ => ⟨0, 0⟩⟩

def boot : Boot := ⟨fun _ => 0, fun _ => support, 0x20040000, 0x20020000⟩

/-- A system call from machine mode. -/
def ecall (a0 : Int) (a1 a2 : Word) : Trap :=
  { state := {State.zero with
      cause := 11
      status := MSTATUS_MPP_M
      gpr := fun r =>
        if r.val = 10 then BitVec.ofInt 32 a0 else if r.val = 11 then a1 else if r.val = 12 then a2 else 0}
    argState := State.zero
    bus := fun _ => 0
    clock := 0 }

/-- The command register of printer 0. -/
def printer : Addr := devRegAddr 6 0 + 0x4

/-- Printer 0 has finished. -/
def printerDone : Trap :=
  { state := {State.zero with cause := CAUSE_INTERRUPT_BIT ||| IL_PRINTER}
    argState := State.zero
    bus := fun a => if a = 0x1000004C then 1 else 0
    clock := 0 }

def clockDone : Trap :=
  { state := {State.zero with cause := CAUSE_INTERRUPT_BIT ||| IL_TIMER}
    argState := State.zero
    bus := fun _ => 0
    clock := 0 }

/-- The second process. -/
def child : PcbPtr := ⟨18, by decide⟩

/-- Two processes that meet on a semaphore, use the printer and wait for the clock;
the first terminates, and the second with it. -/
def events : List Trap :=
  [ecall (-1) 0 0, ecall (-10) 0 0, ecall (-3) 0x20030000 0, ecall (-5) printer 2, printerDone,
    ecall (-4) 0x20030000 0, ecall (-7) 0 0, clockDone, ecall (-2) 0 0]

end Sample

open Sample in
theorem run_consistent_sample :
    ∃ s, exec (exceptionHandler layout) events (main layout boot) = some s ∧ Consistent s := by
  have hfollows : Follows (exceptionHandler layout) (Admissible layout SelfOnly) events (main layout boot) := by
    decide +kernel
  obtain ⟨s, hexec, hrun⟩ := hfollows.run
  exact ⟨s, hexec, (run_consistent hrun).1⟩

end MultiPandOS
