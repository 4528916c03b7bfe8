import MultiPandOS.Phase1.Asl

/-! The active semaphore list as a map from keys to queues.

`Asl` says how the descriptors are kept: each is on exactly one of the two lists,
active ones have distinct non-NULL keys and somebody blocked. Under it the list is
the map `waiting`, and each operation changes the queue of one key and the
`p_semAdd` of one process and nothing else (`Requeued`). With fewer than `MAXPROC`
processes blocked a descriptor is always left (`insertBlocked_requeued`). -/
namespace MultiPandOS

structure Asl (s : Nucleus) : Prop where
  nodup : (s.semdH ++ s.semdFreeH).Nodup
  cover : ∀ j, j ∈ s.semdH ∨ j ∈ s.semdFreeH
  keys : ∀ i ∈ s.semdH, ∀ j ∈ s.semdH, (s.semd i).sKey = (s.semd j).sKey → i = j
  nonempty : ∀ j ∈ s.semdH, (s.semd j).sProcq ≠ []
  nonNull : ∀ j ∈ s.semdH, (s.semd j).sKey ≠ NULL
  idle : ∀ j ∈ s.semdFreeH, (s.semd j).sProcq = []

/-- Who is blocked on `k`, head first. -/
def waiting (k : Addr) (s : Nucleus) : List PcbPtr :=
  match findSemd k s with
  | none => []
  | some j => (s.semd j).sProcq

theorem findSemd_eq_some {s : Nucleus} (h : Asl s) {k : Addr} {j : SemdPtr} :
    findSemd k s = some j ↔ j ∈ s.semdH ∧ (s.semd j).sKey = k := by
  constructor
  · intro hf
    exact ⟨List.mem_of_find?_eq_some hf, by simpa using List.find?_some hf⟩
  · rintro ⟨hj, hk⟩
    cases hf : findSemd k s with
    | none =>
      have := List.find?_eq_none.mp hf j hj
      simp [hk] at this
    | some i =>
      have hi := List.mem_of_find?_eq_some hf
      have hki : (s.semd i).sKey = k := by simpa using List.find?_some hf
      rw [h.keys i hi j hj (hki.trans hk.symm)]

theorem findSemd_eq_none {s : Nucleus} {k : Addr} :
    findSemd k s = none ↔ ∀ j ∈ s.semdH, (s.semd j).sKey ≠ k := by
  simp [findSemd, List.find?_eq_none]

theorem waiting_of_mem {s : Nucleus} (h : Asl s) {j : SemdPtr} (hj : j ∈ s.semdH) {k : Addr}
    (hk : (s.semd j).sKey = k) : waiting k s = (s.semd j).sProcq := by
  unfold waiting
  rw [(findSemd_eq_some h).mpr ⟨hj, hk⟩]

theorem waiting_of_forall_ne {s : Nucleus} {k : Addr} (hk : ∀ j ∈ s.semdH, (s.semd j).sKey ≠ k) :
    waiting k s = [] := by
  unfold waiting
  rw [findSemd_eq_none.mpr hk]

/-- A pcb in the queue of any descriptor waits for the descriptor's key. -/
theorem mem_sProcq {s : Nucleus} (h : Asl s) {j : SemdPtr} {p : PcbPtr} (hp : p ∈ (s.semd j).sProcq) :
    j ∈ s.semdH ∧ p ∈ waiting (s.semd j).sKey s := by
  rcases h.cover j with hj | hj
  · exact ⟨hj, by rw [waiting_of_mem h hj rfl]; exact hp⟩
  · rw [h.idle j hj] at hp
    cases hp

theorem mem_waiting {s : Nucleus} (h : Asl s) {k : Addr} {p : PcbPtr} :
    p ∈ waiting k s ↔ ∃ j ∈ s.semdH, (s.semd j).sKey = k ∧ p ∈ (s.semd j).sProcq := by
  constructor
  · intro hp
    cases hf : findSemd k s with
    | none => simp [waiting, hf] at hp
    | some j =>
      obtain ⟨hj, hk⟩ := (findSemd_eq_some h).mp hf
      exact ⟨j, hj, hk, by simpa [waiting, hf] using hp⟩
  · rintro ⟨j, hj, hk, hp⟩
    rw [waiting_of_mem h hj hk]
    exact hp

theorem headBlocked_eq (k : Addr) (s : Nucleus) : headBlocked k s = (waiting k s).head? := by
  unfold headBlocked waiting
  cases findSemd k s <;> rfl

/-- Two states with the same descriptors have the same queues. -/
theorem waiting_congr {s s' : Nucleus} (hsemd : s'.semd = s.semd) (hH : s'.semdH = s.semdH) (k : Addr) :
    waiting k s' = waiting k s := by
  simp only [waiting, findSemd, hsemd, hH]

theorem Asl.congr {s s' : Nucleus} (h : Asl s) (hsemd : s'.semd = s.semd) (hH : s'.semdH = s.semdH)
    (hF : s'.semdFreeH = s.semdFreeH) : Asl s' := by
  constructor <;> simp only [hsemd, hH, hF]
  · exact h.nodup
  · exact h.cover
  · exact h.keys
  · exact h.nonempty
  · exact h.nonNull
  · exact h.idle

/-- A queue that is neither in the descriptor `j` nor put there. -/
theorem waiting_other {s t : Nucleus} (h : Asl s) (ht : Asl t) {j : SemdPtr} {k : Addr}
    (hold : ∀ i, i ≠ j → t.semd i = s.semd i) (hactive : ∀ i, i ≠ j → (i ∈ t.semdH ↔ i ∈ s.semdH))
    (hs : j ∈ s.semdH → (s.semd j).sKey ≠ k) (hnew : j ∈ t.semdH → (t.semd j).sKey ≠ k) :
    waiting k t = waiting k s := by
  by_cases hex : ∃ i ∈ s.semdH, (s.semd i).sKey = k
  · obtain ⟨i, hi, hik⟩ := hex
    have hij : i ≠ j := by
      rintro rfl
      exact hs hi hik
    rw [waiting_of_mem h hi hik, waiting_of_mem ht ((hactive i hij).mpr hi) (by rw [hold i hij]; exact hik), hold i hij]
  · rw [waiting_of_forall_ne fun i hi hik => hex ⟨i, hi, hik⟩, waiting_of_forall_ne]
    intro i hi hik
    by_cases hij : i = j
    · subst hij
      exact hnew hi hik
    · rw [hold i hij] at hik
      exact hex ⟨i, (hactive i hij).mp hi, hik⟩

/-! ### What the operations do -/

/-- The queue of `k` becomes `q`, the `p_semAdd` of `p` becomes `w`, and nothing
else changes but how the descriptors are kept. -/
structure Requeued (k : Addr) (q : List PcbPtr) (p : PcbPtr) (w : Addr) (s s' : Nucleus) : Prop where
  asl : Asl s'
  waiting : ∀ k', waiting k' s' = if k' = k then q else waiting k' s
  frame : s' = {s with
    semd := s'.semd
    semdH := s'.semdH
    semdFreeH := s'.semdFreeH
    pcb := Function.update s.pcb p {s.pcb p with pSemAdd := w}}

/-- The last step of the three operations: the queue of an active descriptor
replaced, the descriptor reclaimed if that leaves it empty. -/
theorem reclaim_requeued {s : Nucleus} (h : Asl s) {j : SemdPtr} (hj : j ∈ s.semdH) (q : List PcbPtr) :
    let s' := reclaim j (s.setSemd j {s.semd j with sProcq := q})
    Asl s' ∧ (∀ k', waiting k' s' = if k' = (s.semd j).sKey then q else waiting k' s) ∧
      s' = {s with semd := s'.semd, semdH := s'.semdH, semdFreeH := s'.semdFreeH} := by
  have hnd := List.nodup_append.mp h.nodup
  have hkey : ∀ i, (Function.update s.semd j {s.semd j with sProcq := q} i).sKey = (s.semd i).sKey := by
    intro i
    by_cases hi : i = j
    · subst hi
      simp
    · simp [hi]
  cases q with
  | cons p rest =>
    have hre : reclaim j (s.setSemd j {s.semd j with sProcq := p :: rest}) =
        s.setSemd j {s.semd j with sProcq := p :: rest} := by
      simp [reclaim, Nucleus.setSemd]
    intro s'
    have hs' : s' = s.setSemd j {s.semd j with sProcq := p :: rest} := hre
    have hasl : Asl s' := by
      rw [hs']
      refine ⟨h.nodup, h.cover, fun a ha b hb hab => ?_, fun i hi => ?_, fun i hi => ?_, fun i hi => ?_⟩
      · simp only [Nucleus.setSemd, hkey] at hab
        exact h.keys a ha b hb hab
      · by_cases hij : i = j
        · subst hij
          simp [Nucleus.setSemd]
        · simpa [Nucleus.setSemd, hij] using h.nonempty i hi
      · simp only [Nucleus.setSemd, hkey]
        exact h.nonNull i hi
      · have hij : i ≠ j := fun he => hnd.2.2 j hj i hi he.symm
        simpa [Nucleus.setSemd, hij] using h.idle i hi
    refine ⟨hasl, fun k' => ?_, by rw [hs']; rfl⟩
    by_cases hk : k' = (s.semd j).sKey
    · have := waiting_of_mem hasl (j := j) (by rw [hs']; exact hj) (k := k')
        (by rw [hs']; simpa [Nucleus.setSemd] using hk.symm)
      rw [this, if_pos hk, hs']
      simp [Nucleus.setSemd]
    · rw [if_neg hk]
      have hold : ∀ i, i ≠ j → s'.semd i = s.semd i := fun i hij => by simp [hs', Nucleus.setSemd, hij]
      exact waiting_other h hasl hold (fun i _ => by rw [hs']; rfl) (fun _ => Ne.symm hk)
        fun _ => by simpa [hs', Nucleus.setSemd] using Ne.symm hk
  | nil =>
    intro s'
    have hs' : s' = {(s.setSemd j {s.semd j with sProcq := []}) with
        semdH := s.semdH.erase j, semdFreeH := j :: s.semdFreeH} := by
      simp [s', reclaim, Nucleus.setSemd]
    have hjF : j ∉ s.semdFreeH := fun hf => hnd.2.2 j hj j hf rfl
    have herase : ∀ i, i ∈ s.semdH.erase j ↔ i ≠ j ∧ i ∈ s.semdH := fun i => hnd.1.mem_erase_iff
    have hasl : Asl s' := by
      rw [hs']
      refine ⟨?_, fun i => ?_, fun a ha b hb hab => ?_, fun i hi => ?_, fun i hi => ?_, fun i hi => ?_⟩
      · refine List.nodup_append.mpr ⟨hnd.1.erase j, List.nodup_cons.mpr ⟨hjF, hnd.2.1⟩, ?_⟩
        intro a ha b hb
        obtain ⟨haj, haH⟩ := (herase a).mp ha
        rcases List.mem_cons.mp hb with rfl | hb
        · exact haj
        · exact hnd.2.2 a haH b hb
      · by_cases hi : i = j
        · subst hi
          exact Or.inr (List.mem_cons_self ..)
        · rcases h.cover i with hH | hF
          · exact Or.inl ((herase i).mpr ⟨hi, hH⟩)
          · exact Or.inr (List.mem_cons_of_mem _ hF)
      · simp only [Nucleus.setSemd, hkey] at hab
        exact h.keys a ((herase a).mp ha).2 b ((herase b).mp hb).2 hab
      · obtain ⟨hij, hH⟩ := (herase i).mp hi
        simpa [Nucleus.setSemd, hij] using h.nonempty i hH
      · simp only [Nucleus.setSemd, hkey]
        exact h.nonNull i ((herase i).mp hi).2
      · rcases List.mem_cons.mp hi with rfl | hF
        · simp [Nucleus.setSemd]
        · have hij : i ≠ j := fun he => hjF (he ▸ hF)
          simpa [Nucleus.setSemd, hij] using h.idle i hF
    refine ⟨hasl, fun k' => ?_, by rw [hs']; rfl⟩
    by_cases hk : k' = (s.semd j).sKey
    · rw [if_pos hk]
      apply waiting_of_forall_ne
      intro i hi hik
      rw [hs'] at hi hik
      obtain ⟨hij, hH⟩ := (herase i).mp hi
      simp only [Nucleus.setSemd, hkey] at hik
      exact hij (h.keys i hH j hj (hik.trans hk))
    · rw [if_neg hk]
      have hold : ∀ i, i ≠ j → s'.semd i = s.semd i := fun i hij => by simp [hs', Nucleus.setSemd, hij]
      have hactive : ∀ i, i ≠ j → (i ∈ s'.semdH ↔ i ∈ s.semdH) := by
        intro i hij
        rw [hs']
        exact (herase i).trans (and_iff_right hij)
      exact waiting_other h hasl hold hactive (fun _ => Ne.symm hk) fun _ => by
        simpa [hs', Nucleus.setSemd] using Ne.symm hk

/-- What the pcb table holds does not matter to the queues. -/
theorem requeued_setPcb {s t : Nucleus} {k : Addr} {q : List PcbPtr} (hasl : Asl t)
    (hw : ∀ k', waiting k' t = if k' = k then q else waiting k' s)
    (hframe : t = {s with semd := t.semd, semdH := t.semdH, semdFreeH := t.semdFreeH}) (p : PcbPtr)
    (w : Addr) : Requeued k q p w s (t.setPcb p {t.pcb p with pSemAdd := w}) := by
  refine ⟨hasl.congr rfl rfl rfl, fun k' => (waiting_congr rfl rfl k').trans (hw k'), ?_⟩
  rw [hframe]
  rfl

/-- The head of a queue is the only process that leaves it. -/
theorem removeBlocked_requeued {s : Nucleus} (h : Asl s) {k : Addr} {p : PcbPtr} {rest : List PcbPtr}
    (hq : waiting k s = p :: rest) :
    (removeBlocked k s).2 = some p ∧ Requeued k rest p NULL s (removeBlocked k s).1 := by
  cases hf : findSemd k s with
  | none => simp [waiting, hf] at hq
  | some j =>
    obtain ⟨hj, hk⟩ := (findSemd_eq_some h).mp hf
    have hprocq : (s.semd j).sProcq = p :: rest := by rw [← hq, waiting_of_mem h hj hk]
    obtain ⟨hasl, hw, hframe⟩ := reclaim_requeued h hj rest
    have hres : removeBlocked k s =
        ((reclaim j (s.setSemd j {s.semd j with sProcq := rest})).setPcb p
          {(reclaim j (s.setSemd j {s.semd j with sProcq := rest})).pcb p with pSemAdd := NULL}, some p) := by
      simp only [removeBlocked, hf, removeProcQ, hprocq, List.tail_cons, List.head?_cons]
    rw [hres]
    exact ⟨rfl, requeued_setPcb hasl (fun k' => by rw [hw k', hk]) hframe p NULL⟩

theorem removeBlocked_nil {s : Nucleus} (h : Asl s) {k : Addr} (hq : waiting k s = []) :
    removeBlocked k s = (s, none) := by
  cases hf : findSemd k s with
  | none => simp only [removeBlocked, hf]
  | some j =>
    obtain ⟨hj, hk⟩ := (findSemd_eq_some h).mp hf
    rw [waiting_of_mem h hj hk] at hq
    exact absurd hq (h.nonempty j hj)

theorem reclaim_setPcb (j : SemdPtr) (s : Nucleus) (p : PcbPtr) (b : Pcb) :
    reclaim j (s.setPcb p b) = (reclaim j s).setPcb p b := by
  unfold reclaim
  cases hq : (s.semd j).sProcq.isEmpty
  · rw [if_neg (by simpa [Nucleus.setPcb] using hq), if_neg (by simp)]
  · rw [if_pos (by simpa [Nucleus.setPcb] using hq), if_pos rfl]
    rfl

theorem reclaim_pcb (j : SemdPtr) (s : Nucleus) : (reclaim j s).pcb = s.pcb := by
  unfold reclaim
  cases (s.semd j).sProcq.isEmpty <;> rfl

/-- A process blocked on its `p_semAdd` leaves the queue from wherever it is. -/
theorem outBlocked_requeued {s : Nucleus} (h : Asl s) {p : PcbPtr}
    (hp : p ∈ waiting (s.pcb p).pSemAdd s) :
    ∃ s', outBlocked p s = some (s', some p) ∧
      Requeued (s.pcb p).pSemAdd ((waiting (s.pcb p).pSemAdd s).erase p) p NULL s s' := by
  obtain ⟨j, hj, hk, hpj⟩ := (mem_waiting h).mp hp
  have hf := (findSemd_eq_some h).mpr ⟨hj, hk⟩
  obtain ⟨hasl, hw, hframe⟩ := reclaim_requeued h hj ((s.semd j).sProcq.erase p)
  have hres : outBlocked p s = some
      ((reclaim j (s.setSemd j {s.semd j with sProcq := (s.semd j).sProcq.erase p})).setPcb p
        {(reclaim j (s.setSemd j {s.semd j with sProcq := (s.semd j).sProcq.erase p})).pcb p with
          pSemAdd := NULL}, some p) := by
    simp only [outBlocked, hf, outProcQ, if_pos hpj, Option.some.injEq, Prod.mk.injEq, and_true]
    rw [reclaim_pcb, ← reclaim_setPcb]
    rfl
  refine ⟨_, hres, requeued_setPcb hasl (fun k' => ?_) hframe p NULL⟩
  rw [hw k', hk, waiting_of_mem h hj hk]

/-- A process that waits for nothing is not found: `outBlocked` leaves all as it is. -/
theorem outBlocked_null {s : Nucleus} (h : Asl s) {p : PcbPtr} (hp : (s.pcb p).pSemAdd = NULL) :
    outBlocked p s = some (s, none) := by
  have hf : findSemd (s.pcb p).pSemAdd s = none := findSemd_eq_none.mpr (by rw [hp]; exact h.nonNull)
  simp only [outBlocked, hf]

/-! ### A descriptor is always left -/

/-- Every descriptor is on a list, those on `semd_h` have somebody in their queue, nobody
is in two queues and `p` is in none. -/
structure Spread (s : Nucleus) (p : PcbPtr) : Prop where
  cover : ∀ j, j ∈ s.semdH ∨ j ∈ s.semdFreeH
  nonempty : ∀ j ∈ s.semdH, (s.semd j).sProcq ≠ []
  once : ∀ i ∈ s.semdH, ∀ j ∈ s.semdH, ∀ x, x ∈ (s.semd i).sProcq → x ∈ (s.semd j).sProcq → i = j
  out : ∀ j ∈ s.semdH, p ∉ (s.semd j).sProcq

/-- With every descriptor active there would be a process blocked on each. -/
theorem Spread.semdFreeH_ne_nil {s : Nucleus} {p : PcbPtr} (h : Spread s p) : s.semdFreeH ≠ [] := by
  intro hnil
  have hactive : ∀ j, j ∈ s.semdH := by
    intro j
    rcases h.cover j with hj | hj
    · exact hj
    · rw [hnil] at hj
      cases hj
  -- the heads of the queues are as many processes as there are descriptors
  let first : SemdPtr → PcbPtr := fun j => (s.semd j).sProcq.head (h.nonempty j (hactive j))
  have hfirst : ∀ j, first j ∈ (s.semd j).sProcq := fun j => List.head_mem (h.nonempty j (hactive j))
  have hinj : Function.Injective first := fun i j hij =>
    h.once i (hactive i) j (hactive j) (first i) (hfirst i) (hij ▸ hfirst j)
  obtain ⟨j, hj⟩ := (Finite.injective_iff_surjective.mp hinj) p
  exact h.out j (hactive j) (hj ▸ hfirst j)

theorem waiting_of_find {s : Nucleus} {k : Addr} {j : SemdPtr} (h : findSemd k s = some j) :
    waiting k s = (s.semd j).sProcq := by
  rw [waiting, h]

/-- `insertBlocked` where `k` has a descriptor. -/
theorem insertBlocked_of_find {s : Nucleus} {k : Addr} {j : SemdPtr} (hf : findSemd k s = some j) (p : PcbPtr) :
    let t := s.setSemd j {s.semd j with sProcq := (s.semd j).sProcq ++ [p]}
    insertBlocked k p s = (t.setPcb p {t.pcb p with pSemAdd := k}, false) := by
  simp only [insertBlocked, hf]

/-- The free descriptor `j` put into use for `k`, with `p` in its queue. -/
def Nucleus.openSemd (s : Nucleus) (j : SemdPtr) (rest : List SemdPtr) (k : Addr) (p : PcbPtr) : Nucleus :=
  {(s.setSemd j ⟨k, [p]⟩) with semdFreeH := rest, semdH := j :: s.semdH}

/-- `insertBlocked` where `k` has none. -/
theorem insertBlocked_of_free {s : Nucleus} {k : Addr} {j : SemdPtr} {rest : List SemdPtr}
    (hf : findSemd k s = none) (hfl : s.semdFreeH = j :: rest) (p : PcbPtr) :
    let t := s.openSemd j rest k p
    insertBlocked k p s = (t.setPcb p {t.pcb p with pSemAdd := k}, false) := by
  simp only [insertBlocked, hf, hfl, Nucleus.openSemd]

section Open
variable {s : Nucleus} {k : Addr} {j : SemdPtr} {rest : List SemdPtr} {p : PcbPtr}

@[simp] theorem openSemd_self : (s.openSemd j rest k p).semd j = ⟨k, [p]⟩ := by
  simp [Nucleus.openSemd, Nucleus.setSemd]

theorem openSemd_of_ne {i : SemdPtr} (h : i ≠ j) : (s.openSemd j rest k p).semd i = s.semd i := by
  simp [Nucleus.openSemd, Nucleus.setSemd, h]

@[simp] theorem findSemd_openSemd : findSemd k (s.openSemd j rest k p) = some j := by
  simp [findSemd, Nucleus.openSemd, Nucleus.setSemd]

/-- A descriptor that comes from `semdFree_h` is not active. -/
theorem Asl.head_inactive (h : Asl s) (hfl : s.semdFreeH = j :: rest) : j ∉ s.semdH := by
  intro hj
  have hnd := List.nodup_append.mp h.nodup
  rw [hfl] at hnd
  exact hnd.2.2 j hj j (List.mem_cons_self ..) rfl

theorem Asl.openSemd (h : Asl s) (hfl : s.semdFreeH = j :: rest) (hk : k ≠ NULL)
    (hnone : ∀ i ∈ s.semdH, (s.semd i).sKey ≠ k) (p : PcbPtr) : Asl (s.openSemd j rest k p) := by
  have hjH := h.head_inactive hfl
  have hnd := List.nodup_append.mp h.nodup
  rw [hfl] at hnd
  have hjr := List.nodup_cons.mp hnd.2.1
  have hold : ∀ i ∈ s.semdH, (s.openSemd j rest k p).semd i = s.semd i := by
    intro i hi
    exact openSemd_of_ne fun he => hjH (he ▸ hi)
  refine ⟨?_, fun i => ?_, fun a ha b hb hab => ?_, fun i hi => ?_, fun i hi => ?_, fun i hi => ?_⟩
  · refine List.nodup_append.mpr ⟨List.nodup_cons.mpr ⟨hjH, hnd.1⟩, hjr.2, fun a ha b hb => ?_⟩
    rcases List.mem_cons.mp ha with rfl | ha
    · exact fun he => hjr.1 (he ▸ hb)
    · exact hnd.2.2 a ha b (List.mem_cons_of_mem _ hb)
  · rcases h.cover i with hi | hi
    · exact Or.inl (List.mem_cons_of_mem _ hi)
    · rw [hfl] at hi
      rcases List.mem_cons.mp hi with rfl | hi
      · exact Or.inl (List.mem_cons_self ..)
      · exact Or.inr hi
  · -- no active descriptor had the key `k`
    rcases List.mem_cons.mp ha with rfl | haH <;> rcases List.mem_cons.mp hb with rfl | hbH
    · rfl
    · rw [openSemd_self, hold b hbH] at hab
      exact absurd hab.symm (hnone b hbH)
    · rw [openSemd_self, hold a haH] at hab
      exact absurd hab (hnone a haH)
    · rw [hold a haH, hold b hbH] at hab
      exact h.keys a haH b hbH hab
  · rcases List.mem_cons.mp hi with rfl | hiH
    · simp
    · rw [hold i hiH]
      exact h.nonempty i hiH
  · rcases List.mem_cons.mp hi with rfl | hiH
    · rw [openSemd_self]
      exact hk
    · rw [hold i hiH]
      exact h.nonNull i hiH
  · have hij : i ≠ j := fun he => hjr.1 (he ▸ hi)
    rw [openSemd_of_ne hij]
    exact h.idle i (by rw [hfl]; exact List.mem_cons_of_mem _ hi)

end Open

/-- Whatever the keys, `p` ends up at the end of the queue of `k`. -/
theorem insertBlocked_waiting {s : Nucleus} (hfree : s.semdFreeH ≠ []) (k : Addr) (p : PcbPtr) :
    (insertBlocked k p s).2 = false ∧ waiting k (insertBlocked k p s).1 = waiting k s ++ [p] ∧
      ((insertBlocked k p s).1.pcb p).pSemAdd = k := by
  cases hf : findSemd k s with
  | some j =>
    let t := s.setSemd j {s.semd j with sProcq := (s.semd j).sProcq ++ [p]}
    have hkey : ∀ i, (t.semd i).sKey = (s.semd i).sKey := by
      intro i
      by_cases hi : i = j
      · subst hi
        simp [t, Nucleus.setSemd]
      · simp [t, Nucleus.setSemd, hi]
    have hfind : findSemd k t = some j := by
      rw [← hf]
      simp only [findSemd, hkey]
      rfl
    rw [insertBlocked_of_find hf]
    refine ⟨rfl, ?_, by simp [Nucleus.setPcb]⟩
    refine (waiting_congr (s := t) rfl rfl k).trans ?_
    rw [waiting_of_find hfind, waiting_of_find hf]
    simp [t, Nucleus.setSemd]
  | none =>
    cases hfl : s.semdFreeH with
    | nil => exact absurd hfl hfree
    | cons j rest =>
      rw [insertBlocked_of_free hf hfl]
      refine ⟨rfl, ?_, by simp [Nucleus.setPcb]⟩
      refine (waiting_congr (s := s.openSemd j rest k p) rfl rfl k).trans ?_
      rw [waiting_of_find findSemd_openSemd, waiting_of_forall_ne (findSemd_eq_none.mp hf), openSemd_self]
      rfl

theorem insertBlocked_requeued {s : Nucleus} (h : Asl s) {k : Addr} (hk : k ≠ NULL) {p : PcbPtr}
    (hfree : s.semdFreeH ≠ []) :
    (insertBlocked k p s).2 = false ∧
      Requeued k (waiting k s ++ [p]) p k s (insertBlocked k p s).1 := by
  cases hf : findSemd k s with
  | some j =>
    obtain ⟨hj, hkey⟩ := (findSemd_eq_some h).mp hf
    obtain ⟨hasl, hw, hframe⟩ := reclaim_requeued h hj ((s.semd j).sProcq ++ [p])
    have hre : reclaim j (s.setSemd j {s.semd j with sProcq := (s.semd j).sProcq ++ [p]}) =
        s.setSemd j {s.semd j with sProcq := (s.semd j).sProcq ++ [p]} := by
      simp [reclaim, Nucleus.setSemd]
    rw [hre] at hasl hw hframe
    rw [insertBlocked_of_find hf]
    refine ⟨rfl, requeued_setPcb hasl (fun k' => ?_) hframe p k⟩
    rw [hw k', hkey, waiting_of_mem h hj hkey]
  | none =>
    have hnone := findSemd_eq_none.mp hf
    cases hfl : s.semdFreeH with
    | nil => exact absurd hfl hfree
    | cons j rest =>
      have hasl := h.openSemd hfl hk hnone p
      have hw : ∀ k', waiting k' (s.openSemd j rest k p) = if k' = k then waiting k s ++ [p] else waiting k' s := by
        intro k'
        by_cases hkk : k' = k
        · subst hkk
          rw [if_pos rfl, waiting_of_find findSemd_openSemd, waiting_of_forall_ne hnone, openSemd_self]
          rfl
        · rw [if_neg hkk]
          have hactive : ∀ i, i ≠ j → (i ∈ (s.openSemd j rest k p).semdH ↔ i ∈ s.semdH) := by
            intro i hij
            simp [Nucleus.openSemd, hij]
          exact waiting_other h hasl (fun i => openSemd_of_ne) hactive
            (fun hj => absurd hj (h.head_inactive hfl)) fun _ => by
              rw [openSemd_self]
              exact Ne.symm hkk
      rw [insertBlocked_of_free hf hfl]
      exact ⟨rfl, requeued_setPcb hasl hw rfl p k⟩

end MultiPandOS
