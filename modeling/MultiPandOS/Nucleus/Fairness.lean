import MultiPandOS.Library.Line
import MultiPandOS.Nucleus.Scheduling

/-! Everybody's turn.

Where all processes have the same priority, `insertProcQ` puts everybody at the end: the
ready queue is a line (`Turned.line`), from which the scheduler serves the first. -/
namespace MultiPandOS
open Forest Line

/-- All live processes have the priority `w`. -/
def ProcTable.Even (w : Word) (t : ProcTable) : Prop := ∀ p, p ∉ t.free → t.pPrio p = w

section Moves
variable {w : Word} {t : ProcTable} {ms : List Move} {m : Move}

theorem insertProcQ_last {prio : PcbPtr → Int} {p : PcbPtr} {q : List PcbPtr} (h : ∀ x ∈ q, prio p ≤ prio x) :
    insertProcQ prio p q = q ++ [p] := by
  rw [insertProcQ_eq]
  simpa [PriorityQueue.insert] using PriorityQueue.insert_append h []

theorem ProcTable.Even.apply (h : t.Even w) (hm : m.Fits t) (hprio : ∀ p st prio, m = .create p st prio → prio = w) :
    (t.apply m).Even w := by
  intro x hx
  cases m with
  | create p st prio =>
    obtain ⟨⟨rest, hfree⟩, -⟩ := hm
    simp only [ProcTable.apply, hfree, List.tail_cons] at hx ⊢
    by_cases hxp : x = p
    · rw [hxp, Function.update_self]
      exact hprio p st prio rfl
    · rw [Function.update_of_ne hxp]
      exact h x (by simp [hfree, hxp, hx])
  | remove ks => exact h x fun hfree => hx (List.mem_append_right _ hfree)
  | dispatch =>
    rw [ProcTable.dispatch_eq] at hx ⊢
    exact h x hx
  | _ => exact h x hx

theorem ProcTable.Even.moves (h : t.Even w) (hfits : t.Fits ms)
    (hprio : ∀ p st prio, .create p st prio ∈ ms → prio = w) : (t.moves ms).Even w := by
  induction ms generalizing t with
  | nil => exact h
  | cons m rest ih =>
    have hm := h.apply hfits.1 fun p st prio he => hprio p st prio (he ▸ List.mem_cons_self)
    exact ih hm hfits.2 fun p st prio hmem => hprio p st prio (List.mem_cons_of_mem m hmem)

end Moves

section Handlers
variable {L : Layout} {e : Trap} {s : Nucleus} {ms : List Move} {w : Word}

/-- What a trap makes of the ready queue, and of who runs. -/
def Advances (s : Nucleus) (t : ProcTable) (d : Nat) : Prop :=
  Moves d s.readyQueue t.ready ∧ d ≤ 1 ∧ (d = 0 → t.current = s.currentProcess)

theorem advances_of {t : ProcTable} {kept come : List PcbPtr} {d : Nat} (stay : kept.Sublist s.readyQueue)
    (new : ∀ x ∈ come, x ∉ s.readyQueue) (hready : t.ready = (kept ++ come).drop d) (hd : d ≤ 1)
    (hcurrent : d = 0 → t.current = s.currentProcess) : Advances s t d := by
  refine ⟨?_, hd, hcurrent⟩
  rw [hready]
  exact .mk kept come stay new

/-- The scheduler serves the first. -/
theorem advances_dispatch {kept come : List PcbPtr} (stay : kept.Sublist s.readyQueue)
    (new : ∀ x ∈ come, x ∉ s.readyQueue) (hready : (s.table.moves ms).ready = kept ++ come) :
    Advances s (s.table.moves (ms ++ [.dispatch])) 1 := by
  refine advances_of stay new ?_ (Nat.le_refl 1) (by simp)
  rw [ProcTable.moves_append, List.drop_one, ← hready]
  exact ProcTable.dispatch_ready _

/-- At the end of an interrupt handler. -/
theorem advances_resume {kept come : List PcbPtr} (stay : kept.Sublist s.readyQueue)
    (new : ∀ x ∈ come, x ∉ s.readyQueue) (hready : (s.table.moves ms).ready = kept ++ come)
    (hcurrent : (s.table.moves ms).current = s.currentProcess) :
    ∃ d, Advances s (s.table.moves (ms ++ resumeMoves s)) d := by
  unfold resumeMoves
  split
  · exact ⟨1, advances_dispatch stay new hready⟩
  · exact ⟨0, by simpa using advances_of stay new hready (Nat.zero_le 1) fun _ => hcurrent⟩

/-- The process that is made has the priority in `a2`. -/
theorem Turned.created (h : Turned L e s ms) {p : PcbPtr} {st : State} {prio : Word} (hmem : .create p st prio ∈ ms) :
    e.kind = .service .createProcess ∧ prio = e.state.regA2 := by
  cases h with
  | create kind =>
    simp only [List.mem_cons, Move.create.injEq, reduceCtorEq, List.not_mem_nil, or_false] at hmem
    exact ⟨kind, hmem.2.2⟩
  | yield =>
    simp only [suspendMoves, List.mem_append, List.mem_cons, reduceCtorEq, List.not_mem_nil, or_false, false_or] at hmem
    split at hmem <;> cases hmem
  | _ => simp [suspendMoves, resumeMoves] at hmem

/-- **The ready queue is a line** for every handler, and PLT always serves the first. -/
theorem Turned.line (hs : Sound s) (heven : s.table.Even w)
    (hprio : e.kind = .service .createProcess → e.state.regA2 = w) (h : Turned L e s ms) :
    ∃ d, Advances s (s.table.moves ms) d ∧ (e.kind = .interrupt (some 1) → d = 1) := by
  have hrefl : s.readyQueue.Sublist s.readyQueue := List.Sublist.refl _
  have hnone : ∀ x ∈ ([] : List PcbPtr), x ∉ s.readyQueue := by simp
  have hone : ∀ {c}, c ∉ s.readyQueue → ∀ x ∈ [c], x ∉ s.readyQueue := by
    rintro c hc x hx
    rwa [List.mem_singleton.mp hx]
  have hlevel : ∀ {x}, x ∉ s.pcbFreeH → s.table.prio x = w.toInt := fun hx => congrArg BitVec.toInt (heven _ hx)
  have hready : ∀ {x}, x ∈ s.readyQueue → s.table.prio x = w.toInt := fun hx => hlevel (hs.ok.ready_live _ hx)
  have hcur : ∀ {c}, s.currentProcess = some c → c ∉ s.readyQueue ∧ c ∉ s.pcbFreeH :=
    fun hc => ⟨(hs.current _ hc).unready, (hs.current _ hc).live⟩
  have hwaits : ∀ {k p}, p ∈ waiting k s → p ∉ s.readyQueue ∧ p ∉ s.pcbFreeH :=
    fun hp => ⟨hs.ok.unready hp, hs.ok.waiting_live hp⟩
  have hlast : ∀ {c}, c ∉ s.pcbFreeH → insertProcQ s.table.prio c s.readyQueue = s.readyQueue ++ [c] := by
    intro c hc
    refine insertProcQ_last fun x hx => ?_
    rw [hlevel hc, hready hx]
  have hother : ∀ {k : Kind}, e.kind = k → k ≠ .interrupt (some 1) → ∀ {d}, e.kind = .interrupt (some 1) → d = 1 :=
    fun hk hne _ hplt => absurd (hk.symm.trans hplt) hne
  cases h with
  | @preempt c kind hc =>
    have hturn : Advances s (s.table.moves ([.save c e.state 0, .insert c] ++ [.dispatch])) 1 :=
      advances_dispatch hrefl (hone (hcur hc).1) (hlast (hcur hc).2)
    exact ⟨1, hturn, fun _ => rfl⟩
  | tick kind =>
    have hall : (s.table.moves ((waiting L.clock s).map .insert)).ready = s.readyQueue ++ waiting L.clock s := by
      rw [ProcTable.moves_inserts]
      refine PriorityQueue.insertAll_last fun x hx y hy => le_of_eq ?_
      rw [hlevel (hwaits hx).2]
      rcases List.mem_append.mp hy with hy | hy
      · exact (hready hy).symm
      · exact (hlevel (hwaits hy).2).symm
    obtain ⟨d, hd⟩ := advances_resume hrefl (fun x hx => (hwaits hx).1) hall (by rw [ProcTable.moves_inserts]; rfl)
    exact ⟨d, hd, hother kind (by simp)⟩
  | @complete line status command reg p rest kind plt clock served hq =>
    have hp : p ∈ waiting (L.devSem (findDeviceIndex reg)) s := by simp [hq]
    have hturn : ∃ d, Advances s (s.table.moves ([.complete p status] ++ resumeMoves s)) d :=
      advances_resume hrefl (hone (hwaits hp).1) (hlast (hwaits hp).2) rfl
    obtain ⟨d, hd⟩ := hturn
    exact ⟨d, hd, hother kind (by simpa using plt)⟩
  | @nobody line status command reg kind plt clock served hq =>
    have hturn : ∃ d, Advances s (s.table.moves ([] ++ resumeMoves s)) d :=
      advances_resume hrefl hnone (List.append_nil _).symm rfl
    obtain ⟨d, hd⟩ := hturn
    exact ⟨d, hd, hother kind (by simpa using plt)⟩
  | @create p rest kind hf =>
    have hfree : p ∈ s.pcbFreeH := by simp [hf]
    have hp : p ∉ s.readyQueue := fun hp => hs.ok.ready_live p hp hfree
    have hnew : (s.table.moves [.create p e.argState e.state.regA2, .insert p]).ready = s.readyQueue ++ [p] := by
      refine insertProcQ_last fun x hx => le_of_eq ?_
      have hxp : x ≠ p := by
        rintro rfl
        exact hp hx
      show (Function.update s.table.pPrio p e.state.regA2 p).toInt = (Function.update s.table.pPrio p e.state.regA2 x).toInt
      rw [Function.update_self, Function.update_of_ne hxp, hprio kind]
      exact (hready hx).symm
    exact ⟨0, advances_of hrefl (hone hp) hnew (Nat.zero_le 1) fun _ => rfl, hother kind (by simp)⟩
  | kill kind =>
    exact ⟨0, advances_of List.filter_sublist hnone (List.append_nil _).symm (Nat.zero_le 1) fun _ => rfl, hother kind (by simp)⟩
  | @die c ks kind hc =>
    have hturn : Advances s (s.table.moves ([.remove ks, .leave] ++ [.dispatch])) 1 :=
      advances_dispatch List.filter_sublist hnone (List.append_nil _).symm
    exact ⟨1, hturn, fun _ => rfl⟩
  | block kind =>
    exact ⟨1, advances_dispatch hrefl hnone (List.append_nil _).symm, fun _ => rfl⟩
  | wait kind =>
    exact ⟨1, advances_dispatch hrefl hnone (List.append_nil _).symm, fun _ => rfl⟩
  | @wake p rest kind hq =>
    have hp : p ∈ waiting e.state.regA1 s := by simp [hq]
    exact ⟨0, advances_of hrefl (hone (hwaits hp).1) (hlast (hwaits hp).2) (Nat.zero_le 1) fun _ => rfl, hother kind (by simp)⟩
  | @yield c kind hc =>
    have hturn : Advances s (s.table.moves
        ((suspendMoves e c s ++ [if s.readyQueue = [] then .insert c else .tail c]) ++ [.dispatch])) 1 := by
      refine advances_dispatch hrefl (hone (hcur hc).1) ?_
      split
      · exact hlast (hcur hc).2
      · rfl
    exact ⟨1, by simpa using hturn, fun _ => rfl⟩
  | none kind =>
    refine ⟨0, advances_of hrefl hnone (List.append_nil _).symm (Nat.zero_le 1) fun _ => rfl, fun hplt => ?_⟩
    rcases kind with kind | ⟨kind, -⟩ | ⟨kind, -⟩
    · simp [hplt, Kind.quiet] at kind
    · rw [kind] at hplt
      cases hplt
    · rw [kind] at hplt
      cases hplt

end Handlers

end MultiPandOS
