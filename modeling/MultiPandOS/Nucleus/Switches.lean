import MultiPandOS.Nucleus.Table

/-! Context switches.

`switches` is what can be seen of the processes at a trap: who is created or killed, who
is suspended and with which state, who is woken by a device and with which status, and
whom the scheduler loads with what. In every run a process is loaded with the state it
was suspended with, past its system call, and with the status in `a0` if a device woke it
(`run_switches`). -/
namespace MultiPandOS
open Runs Forest

deriving instance DecidableEq for State

inductive Switch where
  | created (p : PcbPtr)
  | suspended (p : PcbPtr) (st : State) (call : Bool)
  | woken (p : PcbPtr) (status : Word)
  | killed (p : PcbPtr)
  | dispatched (p : PcbPtr) (st : State)
deriving DecidableEq

/-! ### What is seen of a trap -/

def Trap.isCall (e : Trap) : Bool :=
  match e.kind with
  | .service _ => true
  | _ => false

/-- The PLT and the services that suspend their caller. -/
def Trap.suspends (e : Trap) (s : Nucleus) : Bool :=
  match e.kind with
  | .interrupt (some line) => line = 1
  | .service .passeren => (s.mem e.state.regA1).toInt ≤ 0
  | .service .doio => true
  | .service .clockWait => true
  | .service .yield => true
  | _ => false

/-- The pcbs taken from the free list. -/
def creations (s s' : Nucleus) : List Switch := (s.pcbFreeH.filter (· ∉ s'.pcbFreeH)).map .created

def suspensions (s : Nucleus) (e : Trap) : List Switch :=
  if e.suspends s then s.currentProcess.toList.map (.suspended · e.state e.isCall) else []

/-- Who waits for the device that interrupts. -/
def deviceWakes (L : Layout) (s : Nucleus) (e : Trap) : List Switch :=
  match e.kind with
  | .interrupt (some line) =>
    if line = 1 ∨ line = 2 then []
    else
      match e.served line with
      | some (status, _, reg) =>
        (waiting (L.devSem (findDeviceIndex reg)) s).head?.toList.map (.woken · status)
      | none => []
  | _ => []

/-- The pcbs put on the free list. -/
def kills (s s' : Nucleus) : List Switch := (s'.pcbFreeH.filter (· ∉ s.pcbFreeH)).map .killed

/-- Whom the scheduler loads, if nobody keeps the processor. -/
def dispatches (s : Nucleus) (e : Trap) (s' : Nucleus) : List Switch :=
  if s.currentProcess.all fun c => e.suspends s || c ∈ s'.pcbFreeH then
    match s'.currentProcess, s'.control with
    | some p, .ldst st => [.dispatched p st]
    | _, _ => []
  else []

def switches (L : Layout) (s : Nucleus) (e : Trap) (s' : Nucleus) : List Switch :=
  creations s s' ++ suspensions s e ++ deviceWakes L s e ++ kills s s' ++ dispatches s e s'

/-! ### The moves of a trap -/

/-- What is seen of a move. -/
def Move.switches (e : Trap) (t : ProcTable) : Move → List Switch
  | .create p _ _ => [.created p]
  | .save c _ _ => [.suspended c e.state e.isCall]
  | .complete p w => [.woken p w]
  | .remove ks => ks.reverse.map .killed
  | .dispatch => t.ready.head?.toList.map fun p => .dispatched p (t.pS p)
  | _ => []

def ProcTable.switches (e : Trap) : ProcTable → List Move → List Switch
  | _, [] => []
  | t, m :: ms => m.switches e t ++ ProcTable.switches e (t.apply m) ms

theorem ProcTable.switches_append (e : Trap) (t : ProcTable) (ms ns : List Move) :
    t.switches e (ms ++ ns) = t.switches e ms ++ (t.moves ms).switches e ns := by
  induction ms generalizing t with
  | nil => rfl
  | cons m rest ih =>
    simp only [List.cons_append, ProcTable.switches, ih, List.append_assoc]
    rfl

theorem switches_inserts (e : Trap) (t : ProcTable) (ps : List PcbPtr) : t.switches e (ps.map .insert) = [] := by
  induction ps generalizing t with
  | nil => rfl
  | cons p rest ih => exact ih (t.apply (.insert p))

section Seen
variable {L : Layout} {e : Trap} {s s' : Nucleus}

/-- The free list is left alone. -/
theorem free_same (h : s'.pcbFreeH = s.pcbFreeH) : creations s s' = [] ∧ kills s s' = [] := by
  have hnone : s.pcbFreeH.filter (· ∉ s.pcbFreeH) = [] := by simp
  simp only [creations, kills, h, hnone, List.map_nil, and_self]

/-- `killProcess`. -/
theorem free_removed {ks : List PcbPtr} (h : s'.pcbFreeH = ks.reverse ++ s.pcbFreeH)
    (hlive : ∀ q ∈ ks, q ∉ s.pcbFreeH) : creations s s' = [] ∧ kills s s' = ks.reverse.map .killed := by
  have hcreated : s.pcbFreeH.filter (· ∉ ks.reverse ++ s.pcbFreeH) = [] := by
    apply List.filter_eq_nil_iff.mpr
    intro p hp
    simp [hp]
  have hkilled : (ks.reverse ++ s.pcbFreeH).filter (· ∉ s.pcbFreeH) = ks.reverse := by
    have hks : ks.reverse.filter (· ∉ s.pcbFreeH) = ks.reverse := by
      apply List.filter_eq_self.mpr
      intro p hp
      simpa using hlive p (List.mem_reverse.mp hp)
    have hnone : s.pcbFreeH.filter (· ∉ s.pcbFreeH) = [] := by simp
    rw [List.filter_append, hks, hnone, List.append_nil]
  simp only [creations, kills, h, hcreated, hkilled, List.map_nil, and_self]

/-- `allocPcb`. -/
theorem free_taken {p : PcbPtr} (hnd : s.pcbFreeH.Nodup) (h : s.pcbFreeH = p :: s'.pcbFreeH) :
    creations s s' = [.created p] ∧ kills s s' = [] := by
  obtain ⟨hp, -⟩ := List.nodup_cons.mp (h ▸ hnd)
  have hcreated : (p :: s'.pcbFreeH).filter (· ∉ s'.pcbFreeH) = [p] := by
    have hnone : s'.pcbFreeH.filter (· ∉ s'.pcbFreeH) = [] := by simp
    rw [List.filter_cons_of_pos (by simpa using hp), hnone]
  have hkilled : s'.pcbFreeH.filter (· ∉ p :: s'.pcbFreeH) = [] := by
    apply List.filter_eq_nil_iff.mpr
    intro x hx
    simp [hx]
  simp only [creations, kills, h, hcreated, hkilled, List.map_cons, List.map_nil, and_self]

/-- Nobody loses the processor. -/
theorem dispatches_running {c : PcbPtr} (hc : s.currentProcess = some c) (hsus : e.suspends s = false)
    (hlive : c ∉ s'.pcbFreeH) : dispatches s e s' = [] := by
  simp only [dispatches, hc, Option.all_some, hsus, hlive, decide_false, Bool.or_self, Bool.false_eq_true, if_false]

/-- The scheduler at the end of a handler. -/
theorem dispatches_eq {t : ProcTable} (hs' : s'.table = t.apply .dispatch)
    (hlost : (s.currentProcess.all fun c => e.suspends s || c ∈ s'.pcbFreeH) = true)
    (hidle : t.current = none ∨ t.ready ≠ [])
    (hldst : ∀ p, s'.currentProcess = some p → s'.control = .ldst (s'.pcb p).pS) :
    dispatches s e s' = Move.dispatch.switches e t := by
  simp only [dispatches, hlost, if_true, Move.switches]
  cases hready : t.ready with
  | nil =>
    have hcur : s'.currentProcess = none := by
      have hcurrent := congrArg ProcTable.current hs'
      simp only [ProcTable.apply, hready] at hcurrent
      exact hcurrent.trans (hidle.resolve_right (absurd hready))
    simp only [hcur, List.head?_nil, Option.toList_none, List.map_nil]
  | cons p rest =>
    have hcur : s'.currentProcess = some p := by
      have hcurrent := congrArg ProcTable.current hs'
      simp only [ProcTable.apply, hready] at hcurrent
      exact hcurrent
    have hpS : (s'.pcb p).pS = t.pS p := congrFun ((congrArg ProcTable.pS hs').trans t.dispatch_pS) p
    simp only [hcur, hldst p hcur, hpS, List.head?_cons, Option.toList_some, List.map_cons, List.map_nil]

/-- The end of an interrupt handler. -/
theorem dispatches_resume {t : ProcTable} (hs' : s'.table = t.moves (resumeMoves s)) (hsus : e.suspends s = false)
    (hfree : t.free = s.pcbFreeH) (hcur : t.current = s.currentProcess)
    (hlive : ∀ c, s.currentProcess = some c → c ∉ s.pcbFreeH)
    (hldst : .dispatch ∈ resumeMoves s → ∀ p, s'.currentProcess = some p → s'.control = .ldst (s'.pcb p).pS) :
    s'.pcbFreeH = s.pcbFreeH ∧ dispatches s e s' = t.switches e (resumeMoves s) := by
  cases hc : s.currentProcess with
  | none =>
    have hmoves : resumeMoves s = [.dispatch] := by simp only [resumeMoves, hc, if_true]
    rw [hmoves] at hs' hldst ⊢
    have hfree' : s'.pcbFreeH = s.pcbFreeH :=
      ((congrArg ProcTable.free hs').trans t.dispatch_free).trans hfree
    refine ⟨hfree', ?_⟩
    rw [dispatches_eq hs' (by rw [hc]; rfl) (.inl (hcur.trans hc)) (hldst (List.mem_singleton_self _))]
    simp only [ProcTable.switches, List.append_nil]
  | some c =>
    have hmoves : resumeMoves s = [] := by simp only [resumeMoves, hc, reduceCtorEq, if_false]
    rw [hmoves] at hs' ⊢
    have hfree' : s'.pcbFreeH = s.pcbFreeH := (congrArg ProcTable.free hs').trans hfree
    exact ⟨hfree', dispatches_running hc hsus (hfree' ▸ hlive c hc)⟩

/-- Exceptions come from a running process. -/
theorem Allowed.running {Term : Nucleus → Trap → PcbPtr → Prop} (hs : Sound s) (h : Allowed L Term s e)
    (hk : ∀ line, e.kind ≠ .interrupt line) : ∃ c, s.currentProcess = some c := by
  apply Option.isSome_iff_exists.mp
  rw [← hs.control]
  unfold Allowed at h
  cases hkind : e.kind with
  | interrupt line => exact absurd hkind (hk line)
  | service sv =>
    simp only [hkind, KindSafe] at h
    exact h.1
  | passUp index st => simpa only [hkind, KindSafe, KindOk] using h
  | ignored => simp only [hkind, KindSafe, KindOk] at h

theorem deviceWakes_call (hk : ∀ line, e.kind ≠ .interrupt line) : deviceWakes L s e = [] := by
  unfold deviceWakes
  cases hkind : e.kind with
  | interrupt line => exact absurd hkind (hk line)
  | _ => rfl

/-- A handler that only wakes processes, or none. -/
theorem switches_stay {c : PcbPtr} (hc : s.currentProcess = some c) (hlive : c ∉ s.pcbFreeH)
    (hsus : e.suspends s = false) (hwake : deviceWakes L s e = []) (hfree : s'.pcbFreeH = s.pcbFreeH) :
    switches L s e s' = [] := by
  obtain ⟨hcreated, hkilled⟩ := free_same hfree
  have hdisp : dispatches s e s' = [] := dispatches_running hc hsus (hfree ▸ hlive)
  simp only [switches, suspensions, hcreated, hkilled, hdisp, hsus, hwake, Bool.false_eq_true, if_false,
    List.append_nil]

/-- A handler that suspends its caller and leaves through the scheduler. -/
theorem switches_suspend {c : PcbPtr} (hc : s.currentProcess = some c) (hsus : e.suspends s = true)
    (hwake : deviceWakes L s e = []) {t : ProcTable} (hs' : s'.table = t.apply .dispatch)
    (hfree : t.free = s.pcbFreeH) (hidle : t.current = none ∨ t.ready ≠ [])
    (hldst : ∀ p, s'.currentProcess = some p → s'.control = .ldst (s'.pcb p).pS) :
    switches L s e s' = .suspended c e.state e.isCall :: Move.dispatch.switches e t := by
  have hfree' : s'.pcbFreeH = s.pcbFreeH := ((congrArg ProcTable.free hs').trans t.dispatch_free).trans hfree
  obtain ⟨hcreated, hkilled⟩ := free_same hfree'
  have hlost : (s.currentProcess.all fun c => e.suspends s || c ∈ s'.pcbFreeH) = true := by
    rw [hc, Option.all_some, hsus, Bool.true_or]
  simp only [switches, suspensions, hcreated, hkilled, hsus, hwake, if_true, hc, dispatches_eq hs' hlost hidle hldst]
  rfl

/-- A service that suspends its caller. -/
theorem switches_call (ms : List Move) {c : PcbPtr} (hc : s.currentProcess = some c) (hsus : e.suspends s = true)
    (hcall : ∀ line, e.kind ≠ .interrupt line)
    (htable : s'.table = s.table.moves (suspendMoves e c s ++ ms ++ [.dispatch]))
    (hseen : (s.table.moves (suspendMoves e c s)).switches e ms = [])
    (hfree : (s.table.moves (suspendMoves e c s ++ ms)).free = s.pcbFreeH)
    (hcur : (s.table.moves (suspendMoves e c s ++ ms)).current = none)
    (hldst : ∀ p, s'.currentProcess = some p → s'.control = .ldst (s'.pcb p).pS) :
    switches L s e s' = s.table.switches e (suspendMoves e c s ++ ms ++ [.dispatch]) := by
  rw [ProcTable.moves_append] at htable
  rw [switches_suspend hc hsus (deviceWakes_call hcall) htable hfree (.inl hcur) hldst, ProcTable.switches_append,
    ProcTable.switches_append, hseen, List.append_nil]
  simp only [suspendMoves, ProcTable.switches, Move.switches, List.append_nil, List.singleton_append]

/-- CREATEPROCESS. -/
theorem switches_create {c p : PcbPtr} (hnd : s.pcbFreeH.Nodup) (hc : s.currentProcess = some c) (hlive : c ∉ s.pcbFreeH)
    (hsus : e.suspends s = false) (hwake : deviceWakes L s e = []) (hfree : s.pcbFreeH = p :: s'.pcbFreeH) :
    switches L s e s' = [.created p] := by
  obtain ⟨hcreated, hkilled⟩ := free_taken hnd hfree
  have hlive' : c ∉ s'.pcbFreeH := by
    intro hmem
    rw [hfree] at hlive
    exact hlive (List.mem_cons_of_mem p hmem)
  simp only [switches, suspensions, hcreated, hkilled, hsus, hwake, dispatches_running hc hsus hlive',
    Bool.false_eq_true, if_false, List.append_nil]

/-- A handler that kills processes, but not its caller. -/
theorem switches_kill {c : PcbPtr} {ks : List PcbPtr} (hc : s.currentProcess = some c) (hlive : c ∉ s.pcbFreeH)
    (hck : c ∉ ks) (hkslive : ∀ q ∈ ks, q ∉ s.pcbFreeH) (hsus : e.suspends s = false) (hwake : deviceWakes L s e = [])
    (hfree : s'.pcbFreeH = ks.reverse ++ s.pcbFreeH) : switches L s e s' = ks.reverse.map .killed := by
  obtain ⟨hcreated, hkilled⟩ := free_removed hfree hkslive
  have hlive' : c ∉ s'.pcbFreeH := by
    rw [hfree]
    simp [hck, hlive]
  simp only [switches, suspensions, hcreated, hkilled, hsus, hwake, dispatches_running hc hsus hlive',
    Bool.false_eq_true, if_false, List.append_nil, List.nil_append]

/-- A handler that kills its caller and leaves through the scheduler. -/
theorem switches_die {c : PcbPtr} {ks : List PcbPtr} (hc : s.currentProcess = some c) (hck : c ∈ ks)
    (hkslive : ∀ q ∈ ks, q ∉ s.pcbFreeH) (hsus : e.suspends s = false) (hwake : deviceWakes L s e = [])
    {t : ProcTable} (hs' : s'.table = t.apply .dispatch) (hfree : t.free = ks.reverse ++ s.pcbFreeH)
    (hcur : t.current = none) (hldst : ∀ p, s'.currentProcess = some p → s'.control = .ldst (s'.pcb p).pS) :
    switches L s e s' = ks.reverse.map .killed ++ Move.dispatch.switches e t := by
  have hfree' : s'.pcbFreeH = ks.reverse ++ s.pcbFreeH := ((congrArg ProcTable.free hs').trans t.dispatch_free).trans hfree
  obtain ⟨hcreated, hkilled⟩ := free_removed hfree' hkslive
  have hlost : (s.currentProcess.all fun c => e.suspends s || c ∈ s'.pcbFreeH) = true := by
    rw [hc, Option.all_some, hfree']
    simp [hck]
  simp only [switches, suspensions, hcreated, hkilled, hsus, hwake, Bool.false_eq_true, if_false, List.nil_append,
    dispatches_eq hs' hlost (.inl hcur) hldst]

/-- An interrupt handler. -/
theorem switches_resume {t : ProcTable} (hs' : s'.table = t.moves (resumeMoves s)) (hsus : e.suspends s = false)
    (hfree : t.free = s.pcbFreeH) (hcur : t.current = s.currentProcess)
    (hlive : ∀ c, s.currentProcess = some c → c ∉ s.pcbFreeH)
    (hldst : .dispatch ∈ resumeMoves s → ∀ p, s'.currentProcess = some p → s'.control = .ldst (s'.pcb p).pS) :
    switches L s e s' = deviceWakes L s e ++ t.switches e (resumeMoves s) := by
  obtain ⟨hfree', hdisp⟩ := dispatches_resume hs' hsus hfree hcur hlive hldst
  obtain ⟨hcreated, hkilled⟩ := free_same hfree'
  simp only [switches, suspensions, hcreated, hkilled, hdisp, hsus, Bool.false_eq_true, if_false, List.nil_append,
    List.append_nil]

end Seen

theorem suspends_quiet {e : Trap} {s : Nucleus} (hk : e.kind.quiet) : e.suspends s = false := by
  unfold Trap.suspends
  cases hkind : e.kind with
  | interrupt line =>
    rw [hkind] at hk
    cases hk
  | service sv =>
    rw [hkind] at hk
    cases sv <;> first | rfl | cases hk
  | _ => rfl

/-- **What is seen of a trap is what its moves show.** -/
theorem Turned.switches {L : Layout} {Term : Nucleus → Trap → PcbPtr → Prop} {s s' : Nucleus} {e : Trap}
    {ms : List Move} (hs : Sound s) (hallowed : Allowed L Term s e) (h : Turned L e s ms)
    (htable : s'.table = s.table.moves ms)
    (hldst : .dispatch ∈ ms → ∀ p, s'.currentProcess = some p → s'.control = .ldst (s'.pcb p).pS) :
    MultiPandOS.switches L s e s' = s.table.switches e ms := by
  have hlive : ∀ c, s.currentProcess = some c → c ∉ s.pcbFreeH := fun c hc => (hs.current c hc).live
  cases h with
  | @preempt c hk hc =>
    have hsus : e.suspends s = true := by simp [Trap.suspends, hk]
    have hwake : deviceWakes L s e = [] := by simp [deviceWakes, hk]
    rw [switches_suspend hc hsus hwake htable rfl (.inr (insertProcQ_ne_nil _ c _)) (hldst (by simp))]
    simp only [ProcTable.switches, Move.switches, List.append_nil, List.nil_append, List.singleton_append]
  | tick hk =>
    have hsus : e.suspends s = false := by simp [Trap.suspends, hk]
    have hwake : deviceWakes L s e = [] := by simp [deviceWakes, hk]
    have hfree : (s.table.moves ((waiting L.clock s).map .insert)).free = s.table.free := by
      rw [ProcTable.moves_inserts]
    have hcur : (s.table.moves ((waiting L.clock s).map .insert)).current = s.table.current := by
      rw [ProcTable.moves_inserts]
    rw [ProcTable.moves_append] at htable
    rw [switches_resume htable hsus hfree hcur hlive fun hd => hldst (List.mem_append_right _ hd), hwake,
      ProcTable.switches_append, switches_inserts]
  | @complete line status command reg p rest hk h1 h2 hserved hq =>
    have hsus : e.suspends s = false := by simp [Trap.suspends, hk, h1]
    have hwake : deviceWakes L s e = [.woken p status] := by simp [deviceWakes, hk, h1, h2, hserved, hq]
    rw [@switches_resume L e s s' (s.table.apply (.complete p status)) htable hsus rfl rfl hlive fun hd =>
      hldst (List.mem_cons_of_mem _ hd), hwake]
    rfl
  | nobody hk h1 h2 hserved hq =>
    have hsus : e.suspends s = false := by simp [Trap.suspends, hk, h1]
    have hwake : deviceWakes L s e = [] := by simp [deviceWakes, hk, h1, h2, hserved, hq]
    rw [switches_resume htable hsus rfl rfl hlive hldst, hwake, List.nil_append]
  | @create p rest hk hf =>
    obtain ⟨c, hc⟩ := hallowed.running hs (by simp [hk])
    have hsus : e.suspends s = false := by simp [Trap.suspends, hk]
    have hfree : s.pcbFreeH = p :: s'.pcbFreeH := by
      have htail : s'.pcbFreeH = s.pcbFreeH.tail := congrArg ProcTable.free htable
      rw [htail, hf, List.tail_cons]
    exact switches_create hs.ok.free_nodup hc (hlive c hc) hsus (deviceWakes_call (by simp [hk])) hfree
  | @kill c r ks hk htarget hrc hc hks hck hkslive =>
    have hsus : e.suspends s = false := by simp [Trap.suspends, hk]
    rw [switches_kill hc (hlive c hc) hck hkslive hsus (deviceWakes_call (by simp [hk])) (congrArg ProcTable.free htable)]
    simp only [ProcTable.switches, Move.switches, List.append_nil]
  | @die c ks hk hc hks hkslive =>
    have hcall : ∀ line, e.kind ≠ .interrupt line := by
      rcases hk with ⟨hk, -⟩ | ⟨index, st, hk⟩
      · simp [hk]
      · simp [hk]
    have hsus : e.suspends s = false := by
      rcases hk with ⟨hk, -⟩ | ⟨index, st, hk⟩
      · simp [Trap.suspends, hk]
      · simp [Trap.suspends, hk]
    rw [switches_die hc ((hks c).mpr .refl) hkslive hsus (deviceWakes_call hcall) htable rfl rfl (hldst (by simp))]
    simp only [ProcTable.switches, Move.switches, List.append_nil, List.nil_append]
  | block hk hv hc =>
    have hsus : e.suspends s = true := by simp [Trap.suspends, hk, hv]
    exact switches_call [] hc hsus (by simp [hk]) htable rfl rfl rfl (hldst (by simp))
  | wait hk hc =>
    have hsus : e.suspends s = true := by
      rcases hk with hk | hk
      · simp [Trap.suspends, hk]
      · simp [Trap.suspends, hk]
    have hcall : ∀ line, e.kind ≠ .interrupt line := by
      rcases hk with hk | hk
      · simp [hk]
      · simp [hk]
    exact switches_call [] hc hsus hcall htable rfl rfl rfl (hldst (by simp))
  | @yield c hk hc =>
    have hsus : e.suspends s = true := by simp [Trap.suspends, hk]
    have hldst := hldst (by simp)
    by_cases hready : s.readyQueue = []
    · simp only [if_pos hready] at htable ⊢
      exact switches_call [.insert c] hc hsus (by simp [hk]) htable rfl rfl rfl hldst
    · simp only [if_neg hready] at htable ⊢
      exact switches_call [.tail c] hc hsus (by simp [hk]) htable rfl rfl rfl hldst
  | wake hk hq =>
    obtain ⟨c, hc⟩ := hallowed.running hs (by simp [hk])
    have hsus : e.suspends s = false := by simp [Trap.suspends, hk]
    exact switches_stay hc (hlive c hc) hsus (deviceWakes_call (by simp [hk])) (congrArg ProcTable.free htable)
  | none hk =>
    have hcall : ∀ line, e.kind ≠ .interrupt line := by
      intro line hline
      rcases hk with hk | ⟨hk, -⟩ | ⟨hk, -⟩
      · rw [hline] at hk
        cases hk
      · cases hline.symm.trans hk
      · cases hline.symm.trans hk
    have hsus : e.suspends s = false := by
      rcases hk with hk | ⟨hk, hv⟩ | ⟨hk, -⟩
      · exact suspends_quiet hk
      · simpa [Trap.suspends, hk] using hv
      · simp [Trap.suspends, hk]
    obtain ⟨c, hc⟩ := hallowed.running hs hcall
    exact switches_stay hc (hlive c hc) hsus (deviceWakes_call hcall) (congrArg ProcTable.free htable)

/-! ### A suspended process -/

/-- What a suspended process is to be loaded with: the state it was suspended with, past
its system call, and the status a device has woken it with since. -/
abbrev Parked := Option (State × Option Word)

def continued (st : State) (call : Bool) : State := if call then st.advance else st

/-- The state of a suspended process once it is woken. -/
def wokenWith (st : State) (status : Option Word) : State := status.elim st st.setA0

namespace Switch

/-- The suspension, the end or the dispatch of `p`. -/
def about (p : PcbPtr) : Switch → Prop
  | .suspended c _ _ => c = p
  | .killed c => c = p
  | .dispatched c _ => c = p
  | _ => False

def park (p : PcbPtr) (m : Parked) : Switch → Parked
  | .suspended c st call => if c = p then some (continued st call, none) else m
  | .woken c w => if c = p then m.map fun parked => (parked.1, some w) else m
  | .killed c => if c = p then none else m
  | .dispatched c _ => if c = p then none else m
  | .created _ => m

/-- A suspended process is woken by a device at most once, and loaded with what it is to
be loaded with. -/
def Legal (p : PcbPtr) (m : Parked) : Switch → Prop
  | .woken c _ => c = p → ∀ st status, m = some (st, status) → status = none
  | .dispatched c st' => c = p → ∀ st status, m = some (st, status) → st' = wokenWith st status
  | _ => True

end Switch

def Legal (p : PcbPtr) : Parked → List Switch → Prop
  | _, [] => True
  | m, x :: xs => x.Legal p m ∧ Legal p (x.park p m) xs

theorem Legal.append {p : PcbPtr} {m : Parked} {xs ys : List Switch} :
    Legal p m (xs ++ ys) ↔ Legal p m xs ∧ Legal p (xs.foldl (Switch.park p) m) ys := by
  induction xs generalizing m with
  | nil => simp [Legal]
  | cons x rest ih =>
    simp only [List.cons_append, Legal, List.foldl_cons, ih]
    exact (and_assoc).symm

/-- The table holds what `p` is to be loaded with. -/
structure Holds (p : PcbPtr) (t : ProcTable) (m : Parked) : Prop where
  live : ∀ st status, m = some (st, status) → p ∉ t.free
  saved : ∀ st status, m = some (st, status) → t.pS p = wokenWith st status
  ready : ∀ st w, m = some (st, some w) → p ∈ t.ready

namespace Holds
variable {p : PcbPtr} {t t' : ProcTable} {m : Parked} {e : Trap}

theorem unparked (p : PcbPtr) (t : ProcTable) : Holds p t none :=
  ⟨fun _ _ h => (by cases h), fun _ _ h => (by cases h), fun _ _ h => (by cases h)⟩

/-- Steps that do not touch `p`. -/
theorem keep (h : Holds p t m) (hfree : p ∉ t.free → p ∉ t'.free) (hpS : t'.pS p = t.pS p)
    (hready : p ∈ t.ready → p ∈ t'.ready) : Holds p t' m :=
  ⟨fun st status hm => hfree (h.live st status hm), fun st status hm => hpS.trans (h.saved st status hm),
    fun st w hm => hready (h.ready st w hm)⟩

theorem create (h : Holds p t m) {q : PcbPtr} {st : State} {prio : Word} (hq : ∃ rest, t.free = q :: rest) :
    Holds p (t.apply (.create q st prio)) m := by
  obtain ⟨rest, hq⟩ := hq
  have hpq : ∀ st status, m = some (st, status) → p ≠ q := by
    intro st status hm hpq
    apply h.live st status hm
    rw [hq, hpq]
    exact List.mem_cons_self ..
  refine ⟨fun st status hm hmem => h.live st status hm (List.mem_of_mem_tail hmem), fun st status hm => ?_, h.ready⟩
  show Function.update t.pS q _ p = _
  rw [Function.update_of_ne (hpq st status hm)]
  exact h.saved st status hm

theorem save (h : Holds p t m) {c : PcbPtr} {charge : Word} (hc : c ∉ t.free) :
    Holds p (t.apply (.save c (continued e.state e.isCall) charge))
      ((Switch.suspended c e.state e.isCall).park p m) := by
  by_cases hcp : c = p
  · subst hcp
    have hpark : (Switch.suspended c e.state e.isCall).park c m = some (continued e.state e.isCall, none) :=
      if_pos rfl
    rw [hpark]
    refine ⟨fun _ _ _ => hc, fun st status hm => ?_, fun st w hm => by cases hm⟩
    cases hm
    exact Function.update_self ..
  · have hpark : (Switch.suspended c e.state e.isCall).park p m = m := if_neg hcp
    rw [hpark]
    exact h.keep id (Function.update_of_ne (Ne.symm hcp) _ _) id

theorem complete (h : Holds p t m) {q : PcbPtr} {w : Word} (hq : q ∉ t.ready) :
    (Switch.woken q w).Legal p m ∧ Holds p (t.apply (.complete q w)) ((Switch.woken q w).park p m) := by
  by_cases hqp : q = p
  · subst hqp
    have hpark : (Switch.woken q w).park q m = m.map fun parked => (parked.1, some w) := if_pos rfl
    have hasleep : ∀ st status, m = some (st, status) → status = none := by
      intro st status hm
      cases status with
      | none => rfl
      | some w' => exact absurd (h.ready st w' hm) hq
    rw [hpark]
    refine ⟨fun _ => hasleep, fun st status hm => ?_, fun st status hm => ?_, fun _ _ _ =>
      (mem_insertProcQ t.prio q q t.ready).mpr (.inl rfl)⟩
    · obtain ⟨⟨st₀, status₀⟩, hm₀, -⟩ := Option.map_eq_some_iff.mp hm
      exact h.live st₀ status₀ hm₀
    · obtain ⟨⟨st₀, status₀⟩, hm₀, heq⟩ := Option.map_eq_some_iff.mp hm
      cases heq
      have hnone := hasleep st₀ status₀ hm₀
      subst hnone
      show Function.update t.pS q ((t.pS q).setA0 w) q = st₀.setA0 w
      rw [Function.update_self, h.saved st₀ none hm₀]
      rfl
  · have hpark : (Switch.woken q w).park p m = m := if_neg hqp
    rw [hpark]
    exact ⟨fun h => absurd h hqp, h.keep id (Function.update_of_ne (Ne.symm hqp) _ _)
      fun hp => (mem_insertProcQ t.prio q p t.ready).mpr (.inr hp)⟩

theorem remove (h : Holds p t m) (ks : List PcbPtr) :
    Legal p m (ks.reverse.map .killed) ∧
      Holds p (t.apply (.remove ks)) ((ks.reverse.map Switch.killed).foldl (Switch.park p) m) := by
  have hks : ∀ (qs : List PcbPtr) (m : Parked), Legal p m (qs.map .killed) ∧
      (qs.map Switch.killed).foldl (Switch.park p) m = if p ∈ qs then none else m := by
    intro qs
    induction qs with
    | nil => simp [Legal]
    | cons q rest ih =>
      intro m
      by_cases hqp : q = p
      · subst hqp
        simp [Legal, Switch.Legal, Switch.park, ih]
      · simp [Legal, Switch.Legal, Switch.park, ih, hqp, Ne.symm hqp]
  obtain ⟨hlegal, hfold⟩ := hks ks.reverse m
  refine ⟨hlegal, ?_⟩
  rw [hfold]
  by_cases hp : p ∈ ks
  · rw [if_pos (List.mem_reverse.mpr hp)]
    exact unparked p _
  · rw [if_neg (by simpa using hp)]
    refine h.keep (fun hfree hmem => ?_) rfl fun hready => ?_
    · rcases List.mem_append.mp hmem with hmem | hmem
      · exact hp (List.mem_reverse.mp hmem)
      · exact hfree hmem
    · exact List.mem_filter.mpr ⟨hready, by simpa using hp⟩

theorem dispatch (h : Holds p t m) :
    Legal p m (Move.dispatch.switches e t) ∧
      Holds p (t.apply .dispatch) ((Move.dispatch.switches e t).foldl (Switch.park p) m) := by
  cases hready : t.ready with
  | nil =>
    have happly : t.apply .dispatch = t := by simp only [ProcTable.apply, hready]
    have hseen : Move.dispatch.switches e t = [] := by
      simp only [Move.switches, hready, List.head?_nil, Option.toList_none, List.map_nil]
    rw [happly, hseen]
    exact ⟨trivial, h⟩
  | cons q rest =>
    have hseen : Move.dispatch.switches e t = [.dispatched q (t.pS q)] := by
      simp only [Move.switches, hready, List.head?_cons, Option.toList_some, List.map_cons, List.map_nil]
    rw [hseen]
    refine ⟨⟨fun hqp => hqp ▸ h.saved, trivial⟩, ?_⟩
    show Holds p (t.apply .dispatch) (if q = p then none else m)
    by_cases hqp : q = p
    · rw [if_pos hqp]
      exact unparked p _
    · rw [if_neg hqp]
      refine h.keep (fun hfree => t.dispatch_free.symm ▸ hfree) (congrFun t.dispatch_pS p) fun hp => ?_
      rw [t.dispatch_ready, hready, List.tail_cons]
      rw [hready] at hp
      exact (List.mem_cons.mp hp).resolve_left (Ne.symm hqp)

end Holds

/-- What is saved is what the trap is to be continued with. -/
def Move.Saves (e : Trap) : Move → Prop
  | .save _ st _ => st = continued e.state e.isCall
  | _ => True

theorem Turned.saves {L : Layout} {e : Trap} {s : Nucleus} {ms : List Move} (h : Turned L e s ms) :
    ∀ m ∈ ms, m.Saves e := by
  have hresume : ∀ m ∈ resumeMoves s, m.Saves e := by
    unfold resumeMoves
    split <;> simp [Move.Saves]
  have hinserts : ∀ ps : List PcbPtr, ∀ m ∈ ps.map Move.insert, m.Saves e := by
    simp [Move.Saves]
  have hcall : ∀ sv, e.kind = .service sv → ∀ c, ∀ m ∈ suspendMoves e c s, m.Saves e := by
    intro sv hk c
    simp [suspendMoves, Move.Saves, continued, Trap.isCall, hk]
  cases h with
  | preempt hk => simp [Move.Saves, continued, Trap.isCall, hk]
  | tick => exact List.forall_mem_append.mpr ⟨hinserts _, hresume⟩
  | complete => exact List.forall_mem_cons.mpr ⟨trivial, hresume⟩
  | nobody => exact hresume
  | create => simp [Move.Saves]
  | kill => simp [Move.Saves]
  | die => simp [Move.Saves]
  | block hk => exact List.forall_mem_append.mpr ⟨hcall _ hk _, by simp [Move.Saves]⟩
  | wait hk =>
    rcases hk with hk | hk
    · exact List.forall_mem_append.mpr ⟨hcall _ hk _, by simp [Move.Saves]⟩
    · exact List.forall_mem_append.mpr ⟨hcall _ hk _, by simp [Move.Saves]⟩
  | wake => simp [Move.Saves]
  | yield hk =>
    refine List.forall_mem_append.mpr ⟨hcall _ hk _, ?_⟩
    split <;> simp [Move.Saves]
  | none => simp

theorem Holds.apply {p : PcbPtr} {t : ProcTable} {w : Parked} {e : Trap} (h : Holds p t w) {m : Move}
    (hfits : m.Fits t) (hsaves : m.Saves e) :
    Legal p w (m.switches e t) ∧ Holds p (t.apply m) ((m.switches e t).foldl (Switch.park p) w) := by
  cases m with
  | create q st prio => exact ⟨⟨trivial, trivial⟩, h.create hfits.1⟩
  | save c st charge =>
    obtain rfl := hsaves
    exact ⟨⟨trivial, trivial⟩, h.save hfits.2⟩
  | complete q w =>
    obtain ⟨hlegal, hholds⟩ := @Holds.complete p t _ h q w hfits.1
    exact ⟨⟨hlegal, trivial⟩, hholds⟩
  | insert q =>
    exact ⟨trivial, h.keep id rfl fun hp => (mem_insertProcQ t.prio q p t.ready).mpr (.inr hp)⟩
  | tail q => exact ⟨trivial, h.keep id rfl fun hp => List.mem_append_left _ hp⟩
  | remove ks => exact h.remove ks
  | leave => exact ⟨trivial, h.keep id rfl id⟩
  | dispatch => exact h.dispatch

theorem Holds.moves {p : PcbPtr} {t : ProcTable} {w : Parked} {e : Trap} (h : Holds p t w) {ms : List Move}
    (hfits : t.Fits ms) (hsaves : ∀ m ∈ ms, m.Saves e) :
    Legal p w (t.switches e ms) ∧ Holds p (t.moves ms) ((t.switches e ms).foldl (Switch.park p) w) := by
  induction ms generalizing t w with
  | nil => exact ⟨trivial, h⟩
  | cons m rest ih =>
    obtain ⟨hlegal, hnext⟩ := h.apply hfits.1 (hsaves m (List.mem_cons_self ..))
    obtain ⟨hrest, hlast⟩ := ih hnext hfits.2 fun m hm => hsaves m (List.mem_cons_of_mem _ hm)
    refine ⟨Legal.append.mpr ⟨hlegal, hrest⟩, ?_⟩
    simp only [ProcTable.switches, List.foldl_append]
    exact hlast

/-! ### Every run -/

theorem run_holds {L : Layout} {Term : Nucleus → Trap → PcbPtr → Prop}
    (hterm : ∀ s e c, Term s e c → TermOk s e c) {b : Boot} {es : List Trap} {s : Nucleus} (p : PcbPtr)
    (h : Run (exceptionHandler L) (Allowed L Term) (main L b) es s) :
    Legal p none (trace (exceptionHandler L) (switches L) (main L b) es) ∧
      Holds p s.table ((trace (exceptionHandler L) (switches L) (main L b) es).foldl (Switch.park p) none) := by
  induction h with
  | nil => exact ⟨trivial, Holds.unparked p _⟩
  | @snoc es s e s' hrun hallowed hstep ih =>
    have hs : Sound s := run_sound hterm hrun
    obtain ⟨s₁, ms, hres, hturned, htable, -, hldst⟩ := handler_turns hs hallowed (hterm s e)
    obtain rfl : s' = s₁ := Option.some.inj (hstep.symm.trans hres)
    obtain ⟨hlegal, hholds⟩ := ih.2.moves (hturned.fits hs) hturned.saves
    rw [hrun.trace_snoc hstep, hturned.switches hs hallowed htable hldst, List.foldl_append, htable]
    exact ⟨Legal.append.mpr ⟨ih.1, hlegal⟩, hholds⟩

/-- The statuses devices have woken `p` with. -/
def wakes (p : PcbPtr) (xs : List Switch) : List Word :=
  xs.filterMap fun x =>
    match x with
    | .woken c w => if c = p then some w else none
    | _ => none

/-- While `p` is neither suspended again nor killed nor dispatched. -/
theorem Legal.between {p : PcbPtr} {st : State} {status : Option Word} {xs : List Switch}
    (h : Legal p (some (st, status)) xs) (hxs : ∀ x ∈ xs, ¬ x.about p) :
    ∃ status', xs.foldl (Switch.park p) (some (st, status)) = some (st, status') ∧
      status'.toList = status.toList ++ wakes p xs := by
  induction xs generalizing status with
  | nil => exact ⟨status, rfl, (List.append_nil _).symm⟩
  | cons x rest ih =>
    have hx : ¬ x.about p := hxs x (List.mem_cons_self ..)
    have hrest : ∀ y ∈ rest, ¬ y.about p := fun y hy => hxs y (List.mem_cons_of_mem x hy)
    have hkeep : x.park p (some (st, status)) = some (st, status) → wakes p (x :: rest) = wakes p rest →
        ∃ status', (x :: rest).foldl (Switch.park p) (some (st, status)) = some (st, status') ∧
          status'.toList = status.toList ++ wakes p (x :: rest) := by
      intro hpark hwakes
      rw [List.foldl_cons, hpark, hwakes]
      exact ih (hpark ▸ h.2) hrest
    cases x with
    | created c => exact hkeep rfl rfl
    | suspended c st' call => exact hkeep (if_neg hx) rfl
    | killed c => exact hkeep (if_neg hx) rfl
    | dispatched c st' => exact hkeep (if_neg hx) rfl
    | woken c w =>
      by_cases hcp : c = p
      · subst hcp
        obtain rfl : status = none := h.1 rfl st status rfl
        have hpark : (Switch.woken c w).park c (some (st, none)) = some (st, some w) := if_pos rfl
        obtain ⟨status', hfold, hstatus⟩ := ih (hpark ▸ h.2) hrest
        refine ⟨status', by rw [List.foldl_cons, hpark, hfold], ?_⟩
        rw [hstatus]
        simp [wakes]
      · exact hkeep (if_neg hcp) (by simp [wakes, hcp])

/-- Whoever is suspended is next loaded with what it was suspended with. -/
theorem Legal.dispatched {p : PcbPtr} {m : Parked} {st st' : State} {call : Bool} {before between after : List Switch}
    (h : Legal p m (before ++ .suspended p st call :: between ++ .dispatched p st' :: after))
    (hbetween : ∀ x ∈ between, ¬ x.about p) :
    ∃ status : Option Word, wakes p between = status.toList ∧ st' = wokenWith (continued st call) status := by
  rw [Legal.append, Legal.append] at h
  obtain ⟨⟨-, -, hbet⟩, hlast⟩ := h
  have hpark : ∀ m : Parked, (Switch.suspended p st call).park p m = some (continued st call, none) :=
    fun m => if_pos rfl
  rw [hpark] at hbet
  obtain ⟨status, hfold, hstatus⟩ := hbet.between hbetween
  refine ⟨status, hstatus.symm, ?_⟩
  rw [List.foldl_append, List.foldl_cons, hpark, hfold] at hlast
  exact hlast.1 rfl _ _ rfl

/-- **Context-switch transparency**: in every run, a process that is suspended is next
loaded with the state it was suspended with, past its system call if it made one, and
with the status of the device in `a0` exactly when a device has woken it in between. -/
theorem run_switches {L : Layout} {b : Boot} {es : List Trap} {s : Nucleus}
    (h : Run (exceptionHandler L) (Allowed L SelfOnly) (main L b) es s) {p : PcbPtr} {st st' : State} {call : Bool}
    {before between after : List Switch}
    (htrace : trace (exceptionHandler L) (switches L) (main L b) es =
      before ++ .suspended p st call :: between ++ .dispatched p st' :: after)
    (hbetween : ∀ x ∈ between, ¬ x.about p) :
    ∃ status : Option Word, wakes p between = status.toList ∧ st' = wokenWith (continued st call) status := by
  obtain ⟨hlegal, -⟩ := run_holds (fun _ _ _ => SelfOnly.termOk) p h
  rw [htrace] at hlegal
  exact hlegal.dispatched hbetween

namespace Sample

/-- What is seen of `events`. -/
def seen : List Switch := trace (exceptionHandler layout) (switches layout) (main layout boot) events

/-- What the first process is loaded with once the printer is done. -/
def printed : State := (ecall (-5) printer 2).state.advance.setA0 0

end Sample

open Sample in
theorem run_switches_sample : seen = seen.take 5 ++ .suspended firstProcess (ecall (-5) printer 2).state true ::
      [.woken firstProcess 0] ++ .dispatched firstProcess printed :: seen.drop 8 ∧
    ∃ status : Option Word, wakes firstProcess [.woken firstProcess 0] = status.toList ∧
      printed = wokenWith (continued (ecall (-5) printer 2).state true) status := by
  have hfollows : Follows (exceptionHandler layout) (Allowed layout SelfOnly) events (main layout boot) := by
    decide +kernel
  obtain ⟨s, -, hrun⟩ := hfollows.run
  have htrace : seen = seen.take 5 ++ .suspended firstProcess (ecall (-5) printer 2).state true ::
      [.woken firstProcess 0] ++ .dispatched firstProcess printed :: seen.drop 8 := by decide +kernel
  exact ⟨htrace, run_switches hrun htrace (by simp [Switch.about])⟩

end MultiPandOS
