import MultiPandOS.Nucleus.Semaphores
import MultiPandOS.Nucleus.Table

/-! Support structures, as the nucleus sees them.

CREATEPROCESS gives a process its support structure and a passed-up exception writes to
it; no other trap changes a `p_supportStruct` or what it points to (`handler_homes`). -/
namespace MultiPandOS
open Forest

/-- The support structures, and who has which. -/
def Nucleus.homes (s : Nucleus) : (PcbPtr → Addr) × (Addr → Support) :=
  (fun p => (s.pcb p).pSupportStruct, s.support)

section Pieces
variable {L : Layout} {e : Trap} {s s₁ s' : Nucleus} {c : PcbPtr}

theorem homes_of_rest (h : s'.rest = s.rest) : s'.homes = s.homes :=
  Prod.ext (congrArg Rest.pSupportStruct h) (congrArg Rest.support h)

theorem homes_setPcb {p : PcbPtr} {b : Pcb} (h : b.pSupportStruct = (s.pcb p).pSupportStruct) :
    (s.setPcb p b).homes = s.homes :=
  Prod.ext (field_setPcb Pcb.pSupportStruct h) rfl

theorem suspend_homes (e : Trap) (c : PcbPtr) (s : Nucleus) : (suspend e c s).homes = s.homes := by
  have hsaved : (s.setPcb c {s.pcb c with pS := copyState e.state.advance}).homes = s.homes := homes_setPcb rfl
  refine Eq.trans ?_ hsaved
  exact homes_setPcb rfl

theorem scheduler_homes (s : Nucleus) : (scheduler s).homes = s.homes := by
  unfold scheduler
  split
  · split_ifs <;> rfl
  · rfl

theorem resume_homes (st : State) (s : Nucleus) : (resume st s).homes = s.homes := by
  unfold resume
  split
  · rfl
  · exact scheduler_homes s

/-! ### The handlers, one by one -/

theorem createProcess_homes (hs : Sound s) (hc : s.currentProcess = some c) {p : PcbPtr} {rest : List PcbPtr}
    (hf : s.pcbFreeH = p :: rest) :
    (createProcess e c s).homes = (Function.update s.homes.1 p e.state.regA3, s.support) := by
  have hcp : c ≠ p := fun hcp => (hs.current c hc).live (by rw [hcp]; simp [Nucleus.view, hf])
  let s₁ : Nucleus := {(s.setPcb p (Pcb.fresh s.nextPid)) with pcbFreeH := rest, nextPid := s.nextPid + 1}
  let s₂ := s₁.setPcb p {s₁.pcb p with
    pS := copyState e.argState, pPrio := e.state.regA2, pSupportStruct := e.state.regA3}
  have hres : createProcess e c s = Nucleus.ldst (e.state.setA0 (s₁.pcb p).pPid).advance
      {((insertChild c p s₂).enqueue p) with processCount := s.processCount + 1} := by
    simp only [createProcess, allocPcb, hf]
    rfl
  rw [hres]
  refine Prod.ext ?_ rfl
  funext x
  by_cases hxp : x = p
  · subst hxp
    simp [Nucleus.homes, Nucleus.ldst, Nucleus.enqueue, s₂, s₁, insertChild, Nucleus.setPcb, hcp.symm]
  · by_cases hxc : x = c <;>
      simp [Nucleus.homes, Nucleus.ldst, Nucleus.enqueue, s₂, s₁, insertChild, Nucleus.setPcb, hxp, hxc, hcp]

/-- The free pcb that was first becomes a child of the caller. -/
theorem createProcess_leaves (L : Layout) (hs : Sound s) (hc : s.currentProcess = some c) (hk : e.kind = .service .createProcess)
    {p : PcbPtr} {rest : List PcbPtr} (hf : s.pcbFreeH = p :: rest) :
    ∃ ready, Leaves (s.view.create c p rest ready) (createProcess e c s) ∧ (createProcess e c s).mem = s.mem := by
  have hcreated : (createProcess e c s).pcbFreeH = rest ∧ (createProcess e c s).mem = s.mem := by
    simp only [createProcess, allocPcb, hf]
    exact ⟨rfl, rfl⟩
  obtain ⟨s', as, v, hres, -, hacted, hacts, hleaves⟩ := createProcess_outcome (L := L) hs hc hk hf
  obtain rfl := Option.some.inj hres
  cases hacted with
  | create =>
    cases hacts with
    | cons hdoes hnil =>
      cases hnil
      cases hdoes with
      | @create _ c' p' rest' ready hc' hf' =>
        obtain rfl := Option.some.inj (hc.symm.trans hc')
        obtain ⟨rfl, rfl⟩ := List.cons.inj (hf.symm.trans hf')
        exact ⟨ready, hleaves, hcreated.2⟩
  | none =>
    -- then nobody would have been taken off the free list
    cases hacts
    have hfree : (createProcess e c s).pcbFreeH = s.pcbFreeH := hleaves.frame.1
    rw [hcreated.1, hf] at hfree
    exact absurd (congrArg List.length hfree) (by simp)
  | waitDevSem kind => simp [hk] at kind
  | _ kind => simp [hk] at kind

theorem passeren_homes (hs : Sound s) (hc : s.currentProcess = some c) (hnull : e.state.regA1 ≠ NULL) :
    (passeren e c s).homes = s.homes := by
  simp only [passeren]
  split
  · exact (scheduler_homes _).trans ((suspend_homes e c _).trans (homes_of_rest (hs.blocked hc hnull).rest))
  · rfl

theorem verhogen_homes (hs : Sound s) : (verhogen e s).homes = s.homes := by
  cases hq : waiting e.state.regA1 s with
  | nil =>
    simp only [verhogen, removeBlocked_nil hs.asl hq]
    rfl
  | cons p rest =>
    obtain ⟨s₁, hrem, -, -, hrest, -⟩ := wake_view hs.asl hq
    simp only [verhogen, hrem]
    have hhomes : s₁.homes = s.homes := homes_of_rest hrest
    exact hhomes

theorem waitDevSem_homes (hs : Sound s) (hc : s.currentProcess = some c) {k : Addr} (hnull : k ≠ NULL)
    (writes : List (Addr × Word)) :
    (scheduler (waitDevSem e c k {s with devWrites := writes})).homes = s.homes := by
  have hs' : Sound {s with devWrites := writes} := ⟨hs.asl.congr rfl rfl rfl, hs.ok, hs.current, hs.control⟩
  let s₁ : Nucleus := if (s.mem k).toInt ≤ 0 then (insertBlocked k c {s with devWrites := writes}).1
    else Nucleus.setMem {s with devWrites := writes} k (s.mem k - 1)
  have h₁ : s₁.homes = s.homes := by
    simp only [s₁]
    split
    · exact homes_of_rest (s := {s with devWrites := writes}) (hs'.blocked hc hnull).rest
    · rfl
  refine (scheduler_homes _).trans (Eq.trans ?_ h₁)
  exact suspend_homes e c s₁

theorem yield_homes (e : Trap) (c : PcbPtr) (s : Nucleus) : (yield e c s).homes = s.homes := by
  unfold yield
  refine (scheduler_homes _).trans (Eq.trans ?_ (suspend_homes e c s))
  split <;> rfl

theorem handlePLT_homes (hc : s.currentProcess = some c) (h : handlePLT e s = some s') : s'.homes = s.homes := by
  simp only [handlePLT, hc, Option.some.injEq] at h
  subst h
  refine (scheduler_homes _).trans ?_
  exact homes_setPcb (p := c) (b := {s.pcb c with pS := copyState e.state}) rfl

theorem killed_homes (hs : Sound s) {r : PcbPtr} (hr : r ∉ s.pcbFreeH) (h : killProcess L killFuel r s = some s') :
    s'.homes = s.homes := by
  obtain ⟨ks, s₁, hkill, hk, -⟩ := killProcess_killed L hs.asl hs.ok hr
  obtain rfl := Option.some.inj (h.symm.trans hkill)
  exact homes_of_rest hk.rest

theorem termProcess_homes (hs : Sound s) (hc : s.currentProcess = some c) {r : PcbPtr}
    (htarget : termTarget e c s = some (some r)) (h : termProcess L e c s = some s') : s'.homes = s.homes := by
  simp only [termProcess, htarget, Option.bind_some, terminate] at h
  obtain ⟨s₁, hkill, rfl⟩ := Option.map_eq_some_iff.mp h
  have hkilled := killed_homes hs (termTarget_live hs hc htarget) hkill
  split
  · exact (scheduler_homes _).trans hkilled
  · exact hkilled

theorem completeDevice_homes (hasl : Asl s) (k : Addr) (status : Word) : (completeDevice k status s).homes = s.homes := by
  cases hq : waiting k s with
  | nil =>
    simp only [completeDevice, removeBlocked_nil hasl hq]
    rfl
  | cons p rest =>
    obtain ⟨s₁, hrem, -, -, hrest, -⟩ := wake_view hasl hq
    simp only [completeDevice, hrem]
    have hhomes : s₁.homes = s.homes := homes_of_rest hrest
    refine Eq.trans ?_ hhomes
    exact homes_setPcb (p := p) (b := {s₁.pcb p with pS := (s₁.pcb p).pS.setA0 status}) rfl

theorem handleIntervalClock_homes (hs : Sound s) (h : handleIntervalClock L e s = some s') : s'.homes = s.homes := by
  obtain ⟨s₁, htick, hd⟩ := clockTick_ends (L := L) hs.asl (hs.ok.waiting_nodup L.clock)
  simp only [handleIntervalClock, htick, Option.map_some, Option.some.injEq] at h
  subst h
  refine (resume_homes _ _).trans ?_
  rw [hd.frame]
  refine Prod.ext ?_ rfl
  funext p
  by_cases hp : p ∈ MultiPandOS.waiting L.clock s <;> simp [Nucleus.homes, hp]

end Pieces

/-! ### The step -/

/-- Only CREATEPROCESS and passing up touch a support structure. -/
theorem handler_homes {L : Layout} {Term : Nucleus → Trap → PcbPtr → Prop} {s s' : Nucleus} {e : Trap}
    (hs : Sound s) (h : Allowed L Term s e) (hterm : ∀ c, Term s e c → TermOk s e c)
    (hcreate : e.kind = .service .createProcess → s.pcbFreeH = []) (hpass : ∀ index st, e.kind ≠ .passUp index st)
    (hstep : exceptionHandler L e s = some s') : s'.homes = s.homes := by
  have hreached := h.reached hs.control hterm
  rw [hstep] at hreached
  generalize hresult : some s' = result at hreached
  cases hreached with
  | preempt kind caller => exact handlePLT_homes caller hresult.symm
  | tick kind => exact handleIntervalClock_homes hs hresult.symm
  | complete kind plt clock served index =>
    rw [handleDevice_eq served index] at hresult
    obtain rfl := Option.some.inj hresult
    refine (resume_homes _ _).trans ?_
    exact completeDevice_homes (s := s.writeDev _ ACK) (hs.asl.congr rfl rfl rfl) _ _
  | passUp kind caller => exact absurd kind (hpass _ _)
  | create kind caller free =>
    rw [hcreate kind] at free
    cases free
  | terminate kind caller target rule => exact termProcess_homes hs caller target hresult.symm
  | passeren kind caller null =>
    obtain rfl := Option.some.inj hresult
    exact passeren_homes hs caller null
  | verhogen kind caller =>
    obtain rfl := Option.some.inj hresult
    exact verhogen_homes hs
  | wait writes caller null kind =>
    obtain rfl := Option.some.inj hresult
    exact waitDevSem_homes hs caller null writes
  | yield kind caller =>
    obtain rfl := Option.some.inj hresult
    exact yield_homes _ _ _
  | answer st kind caller =>
    obtain rfl := Option.some.inj hresult
    rfl

end MultiPandOS
