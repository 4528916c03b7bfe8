import MultiPandOS.Library.Forest
import MultiPandOS.Phase1.AslProofs
import MultiPandOS.Phase2.Initial

/-! Where every process is.

`View` is what the nucleus comes to without its descriptors, saved states and
registers: the free list, the ready queue, who waits for which semaphore, the
process tree, the two counters and the values of the semaphores. What the handlers
do to it are the nine acts of `Act`. `View.Ok` says that every pcb is in one place
and that the encodings of that place agree; each act keeps it (`Does.ok`), and so
does dispatching. The claims about the nucleus are proved here and carried to the
code by `Nucleus/Steps.lean`. -/
namespace MultiPandOS
open Forest

@[ext] structure View where
  free : List PcbPtr
  ready : List PcbPtr
  waiting : Addr → List PcbPtr
  semAdd : PcbPtr → Addr
  links : Links PcbPtr
  current : Option PcbPtr
  count : Word
  soft : Word
  mem : Addr → Word

def Nucleus.links (s : Nucleus) : Links PcbPtr :=
  { parent := fun p => (s.pcb p).pParent, child := fun p => (s.pcb p).pChild }

def Nucleus.view (s : Nucleus) : View :=
  { free := s.pcbFreeH
    ready := s.readyQueue
    waiting := fun k => MultiPandOS.waiting k s
    semAdd := fun p => (s.pcb p).pSemAdd
    links := s.links
    current := s.currentProcess
    count := s.processCount
    soft := s.softBlockCount
    mem := s.mem }

namespace View

/-- Every pcb is in one place: on the free list without links in the tree, ready, in
the queue that its `p_semAdd` names, or in none of them. -/
structure Ok (v : View) : Prop where
  free_nodup : v.free.Nodup
  ready_nodup : v.ready.Nodup
  waiting_nodup : ∀ k, (v.waiting k).Nodup
  ready_live : ∀ p ∈ v.ready, p ∉ v.free
  mem_waiting : ∀ k p, p ∈ v.waiting k ↔ v.semAdd p = k ∧ k ≠ NULL
  ready_semAdd : ∀ p ∈ v.ready, v.semAdd p = NULL
  free_semAdd : ∀ p ∈ v.free, v.semAdd p = NULL
  wf : Wf v.links
  free_parent : ∀ p ∈ v.free, v.links.parent p = none
  free_child : ∀ p ∈ v.free, v.links.child p = []
  count : v.count = BitVec.ofNat 32 (MAXPROC - v.free.length)

/-- A process that is in none of the queues and not free. -/
structure Loose (v : View) (p : PcbPtr) : Prop where
  live : p ∉ v.free
  unready : p ∉ v.ready
  unblocked : v.semAdd p = NULL

def CurrentOk (v : View) : Prop := ∀ c, v.current = some c → v.Loose c

/-! ### Acts -/

/-- Subtract what `killProcess` subtracts for the processes `ks`; `clock` is the
address of the pseudo-clock semaphore. -/
def kill (clock : Addr) (ks : List PcbPtr) (v : View) : View :=
  {v with
    free := ks.reverse ++ v.free
    ready := v.ready.filter (· ∉ ks)
    waiting := fun k => (v.waiting k).filter (· ∉ ks)
    semAdd := fun p => if p ∈ ks then NULL else v.semAdd p
    links := prune ks v.links
    count := v.count - BitVec.ofNat 32 ks.length
    soft := v.soft - BitVec.ofNat 32 (ks.countP (v.semAdd · = clock))}

def wake (k : Addr) (p : PcbPtr) (rest ready : List PcbPtr) (d : Word) (v : View) : View :=
  {v with
    waiting := Function.update v.waiting k rest
    semAdd := Function.update v.semAdd p NULL
    ready := ready
    soft := v.soft - d}

def block (k : Addr) (c : PcbPtr) (d : Word) (v : View) : View :=
  {v with
    waiting := Function.update v.waiting k (v.waiting k ++ [c])
    semAdd := Function.update v.semAdd c k
    current := none
    soft := v.soft + d}

def create (c p : PcbPtr) (rest ready : List PcbPtr) (v : View) : View :=
  {v with free := rest, links := attach c p v.links, ready := ready, count := v.count + 1}

/-- The highest process of the ready queue, if there is one, becomes current. -/
def dispatch (v : View) : View :=
  match v.ready with
  | [] => v
  | p :: rest => {v with ready := rest, current := some p}

end View

/-- What a handler does to the view. A number is what is added to `softBlockCount`
by `block` and taken off by `wake`. -/
inductive Act where
  | create
  | kill (ks : List PcbPtr) (caller : Bool)
  | block (k : Addr) (d : Word)
  | wake (k : Addr) (d : Word)
  | take (k : Addr)
  | give (k : Addr)
  | drop (k : Addr)
  | requeue

/-- What is inserted in the ready queue ends up somewhere in it. `drop` takes a unit
of a device semaphore and forgets the caller. -/
inductive Does (clock : Addr) : Act → View → View → Prop where
  | create {v : View} {c p rest q} : v.current = some c → v.free = p :: rest → q.Perm (p :: v.ready) →
      Does clock .create v (v.create c p rest q)
  | kill {v : View} {ks} {caller : Bool} : ks.Nodup → (∀ p ∈ ks, p ∉ v.free) → Closed v.links ks →
      (∀ c, v.current = some c → (c ∈ ks ↔ caller = true)) →
      Does clock (.kill ks caller) v
        {(v.kill clock ks) with current := if caller then none else v.current}
  | block {v : View} {c k d} : v.current = some c → k ≠ NULL → Does clock (.block k d) v (v.block k c d)
  | wake {v : View} {k p rest q d} : v.waiting k = p :: rest → q.Perm (p :: v.ready) →
      Does clock (.wake k d) v (v.wake k p rest q d)
  | take {v : View} {k} : Does clock (.take k) v {v with mem := Function.update v.mem k (v.mem k - 1)}
  | give {v : View} {k} : Does clock (.give k) v {v with mem := Function.update v.mem k (v.mem k + 1)}
  | drop {v : View} {k} : Does clock (.drop k) v {v with
      mem := Function.update v.mem k (v.mem k - 1)
      current := none
      soft := v.soft + 1}
  | requeue {v : View} {c q} : v.current = some c → q.Perm (c :: v.ready) →
      Does clock .requeue v {v with ready := q, current := none}

/-- Acts one after the other. -/
inductive Acts (clock : Addr) : List Act → View → View → Prop where
  | nil {v} : Acts clock [] v v
  | cons {a as v v₁ v'} : Does clock a v v₁ → Acts clock as v₁ v' → Acts clock (a :: as) v v'

namespace View

/-! ### Every act keeps every pcb in one place -/

theorem Ok.unready {v : View} (h : v.Ok) {k : Addr} {p : PcbPtr} (hp : p ∈ v.waiting k) : p ∉ v.ready := by
  intro hr
  obtain ⟨hs, hk⟩ := (h.mem_waiting k p).mp hp
  exact hk (hs.symm.trans (h.ready_semAdd p hr))

theorem Ok.waiting_live {v : View} (h : v.Ok) {k : Addr} {p : PcbPtr} (hp : p ∈ v.waiting k) : p ∉ v.free := by
  intro hf
  obtain ⟨hs, hk⟩ := (h.mem_waiting k p).mp hp
  exact hk (hs.symm.trans (h.free_semAdd p hf))

theorem Ok.waiting_null {v : View} (h : v.Ok) : v.waiting NULL = [] := by
  apply List.eq_nil_iff_forall_not_mem.mpr
  intro p hp
  exact ((h.mem_waiting NULL p).mp hp).2 rfl

/-- What does not say where a process is. -/
theorem Ok.withCurrent {v : View} (h : v.Ok) (c : Option PcbPtr) (soft : Word) (mem : Addr → Word) :
    Ok {v with current := c, soft := soft, mem := mem} :=
  ⟨h.free_nodup, h.ready_nodup, h.waiting_nodup, h.ready_live, h.mem_waiting, h.ready_semAdd,
    h.free_semAdd, h.wf, h.free_parent, h.free_child, h.count⟩

theorem Ok.enqueue {v : View} (h : v.Ok) {p : PcbPtr} (hp : v.Loose p) {q : List PcbPtr}
    (hq : q.Perm (p :: v.ready)) : Ok {v with ready := q} := by
  have hmem : ∀ x, x ∈ q ↔ x = p ∨ x ∈ v.ready := fun x => by rw [hq.mem_iff, List.mem_cons]
  refine ⟨h.free_nodup, ?_, h.waiting_nodup, fun x hx => ?_, h.mem_waiting, fun x hx => ?_,
    h.free_semAdd, h.wf, h.free_parent, h.free_child, h.count⟩
  · exact hq.nodup_iff.mpr (List.nodup_cons.mpr ⟨hp.unready, h.ready_nodup⟩)
  · rcases (hmem x).mp hx with rfl | hx
    · exact hp.live
    · exact h.ready_live x hx
  · rcases (hmem x).mp hx with rfl | hx
    · exact hp.unblocked
    · exact h.ready_semAdd x hx

theorem Ok.unqueue {v : View} (h : v.Ok) {k : Addr} {p : PcbPtr} {rest : List PcbPtr}
    (hq : v.waiting k = p :: rest) :
    Ok {v with waiting := Function.update v.waiting k rest, semAdd := Function.update v.semAdd p NULL} := by
  have hp : p ∈ v.waiting k := by simp [hq]
  obtain ⟨hpk, hk⟩ := (h.mem_waiting k p).mp hp
  have hnd : (p :: rest).Nodup := hq ▸ h.waiting_nodup k
  obtain ⟨hpr, hrest⟩ := List.nodup_cons.mp hnd
  have hsemAdd : ∀ x, v.semAdd x = NULL → Function.update v.semAdd p NULL x = NULL := by
    intro x hx
    by_cases hxp : x = p <;> simp [hxp, hx]
  refine ⟨h.free_nodup, h.ready_nodup, fun k' => ?_, h.ready_live, fun k' x => ?_,
    fun x hx => hsemAdd x (h.ready_semAdd x hx), fun x hx => hsemAdd x (h.free_semAdd x hx), h.wf,
    h.free_parent, h.free_child, h.count⟩
  · by_cases hk' : k' = k
    · subst hk'
      simpa using hrest
    · simpa [hk'] using h.waiting_nodup k'
  · by_cases hxp : x = p
    · subst hxp
      by_cases hk' : k' = k
      · subst hk'
        simp [hpr, eq_comm]
      · have hx : x ∉ v.waiting k' := fun hx => hk' (((h.mem_waiting k' x).mp hx).1.symm.trans hpk)
        simp [hk', hx, eq_comm]
    · by_cases hk' : k' = k
      · subst hk'
        have := h.mem_waiting k' x
        rw [hq, List.mem_cons] at this
        simpa [hxp] using this
      · simpa [hxp, hk'] using h.mem_waiting k' x

theorem Ok.enqueueBlocked {v : View} (h : v.Ok) {k : Addr} (hk : k ≠ NULL) {c : PcbPtr} (hc : v.Loose c) :
    Ok {v with
      waiting := Function.update v.waiting k (v.waiting k ++ [c])
      semAdd := Function.update v.semAdd c k} := by
  have hnot : ∀ k', c ∉ v.waiting k' := by
    intro k' hck
    obtain ⟨hs, hk'⟩ := (h.mem_waiting k' c).mp hck
    exact hk' (hs.symm.trans hc.unblocked)
  refine ⟨h.free_nodup, h.ready_nodup, fun k' => ?_, h.ready_live, fun k' x => ?_, fun x hx => ?_,
    fun x hx => ?_, h.wf, h.free_parent, h.free_child, h.count⟩
  · by_cases hk' : k' = k
    · subst hk'
      show (Function.update v.waiting k' (v.waiting k' ++ [c]) k').Nodup
      rw [Function.update_self]
      refine List.nodup_append.mpr ⟨h.waiting_nodup k', List.nodup_singleton c, fun x hx y hy => ?_⟩
      rw [List.mem_singleton] at hy
      rintro rfl
      exact hnot k' (hy ▸ hx)
    · simpa [hk'] using h.waiting_nodup k'
  · by_cases hxc : x = c
    · subst hxc
      by_cases hk' : k' = k
      · subst hk'
        simp [hk]
      · simp [hk', hnot k', Ne.symm hk']
    · by_cases hk' : k' = k
      · subst hk'
        simpa [hxc] using h.mem_waiting k' x
      · simpa [hxc, hk'] using h.mem_waiting k' x
  · have hxc : x ≠ c := by
      rintro rfl
      exact hc.unready hx
    simpa [hxc] using h.ready_semAdd x hx
  · have hxc : x ≠ c := by
      rintro rfl
      exact hc.live hx
    simpa [hxc] using h.free_semAdd x hx

theorem Ok.create {v : View} (h : v.Ok) {c p : PcbPtr} (hc : c ∉ v.free) {rest q : List PcbPtr}
    (hf : v.free = p :: rest) (hq : q.Perm (p :: v.ready)) : (v.create c p rest q).Ok := by
  have hp : p ∈ v.free := by simp [hf]
  have hnd : (p :: rest).Nodup := hf ▸ h.free_nodup
  obtain ⟨hpr, hrest⟩ := List.nodup_cons.mp hnd
  have hsub : ∀ x ∈ rest, x ∈ v.free := fun x hx => by simp [hf, hx]
  have hcp : c ≠ p := fun hcp => hc (hcp ▸ hp)
  have hpready : p ∉ v.ready := fun hx => h.ready_live p hx hp
  have hmem : ∀ x, x ∈ q ↔ x = p ∨ x ∈ v.ready := fun x => by rw [hq.mem_iff, List.mem_cons]
  have hlen : v.free.length = rest.length + 1 := by simp [hf]
  have hle : v.free.length ≤ MAXPROC := by simpa using List.Nodup.length_le_card h.free_nodup
  refine ⟨hrest, ?_, h.waiting_nodup, fun x hx => ?_, h.mem_waiting, fun x hx => ?_,
    fun x hx => h.free_semAdd x (hsub x hx),
    h.wf.attach hcp (h.free_parent p hp) (h.free_child p hp), fun x hx => ?_, fun x hx => ?_, ?_⟩
  · exact hq.nodup_iff.mpr (List.nodup_cons.mpr ⟨hpready, h.ready_nodup⟩)
  · rcases (hmem x).mp hx with rfl | hx
    · exact hpr
    · exact fun hxr => h.ready_live x hx (hsub x hxr)
  · rcases (hmem x).mp hx with rfl | hx
    · exact h.free_semAdd x hp
    · exact h.ready_semAdd x hx
  · have hxp : x ≠ p := fun hxp => hpr (hxp ▸ hx)
    simpa [View.create, attach, hxp] using h.free_parent x (hsub x hx)
  · have hxc : x ≠ c := fun hxc => hc (hxc ▸ hsub x hx)
    simpa [View.create, attach, hxc] using h.free_child x (hsub x hx)
  · show v.count + 1 = BitVec.ofNat 32 (MAXPROC - rest.length)
    rw [h.count, hlen, show MAXPROC - rest.length = MAXPROC - (rest.length + 1) + 1 by omega]
    exact (BitVec.ofNat_add _ _).symm

theorem Ok.kill {v : View} (h : v.Ok) (clock : Addr) {ks : List PcbPtr} (hnd : ks.Nodup)
    (hlive : ∀ p ∈ ks, p ∉ v.free) (hc : Closed v.links ks) : (v.kill clock ks).Ok := by
  have hfree : (ks.reverse ++ v.free).Nodup := by
    refine List.nodup_append.mpr ⟨List.nodup_reverse.mpr hnd, h.free_nodup, fun x hx y hy => ?_⟩
    rintro rfl
    exact hlive x (List.mem_reverse.mp hx) hy
  have hle : (ks.reverse ++ v.free).length ≤ MAXPROC := by simpa using List.Nodup.length_le_card hfree
  have hsemAdd : ∀ x, v.semAdd x = NULL → (if x ∈ ks then NULL else v.semAdd x) = NULL := by
    intro x hx
    simp [hx]
  refine ⟨hfree, h.ready_nodup.filter _, fun k => (h.waiting_nodup k).filter _, fun x hx => ?_,
    fun k x => ?_, fun x hx => ?_, fun x hx => ?_, h.wf.prune hc, fun x hx => ?_, fun x hx => ?_, ?_⟩
  · obtain ⟨hxr, hxk⟩ := List.mem_filter.mp hx
    simpa [View.kill] using ⟨by simpa using hxk, h.ready_live x hxr⟩
  · by_cases hxk : x ∈ ks
    · simp [View.kill, hxk, eq_comm]
    · simp [View.kill, hxk, h.mem_waiting k x]
  · exact hsemAdd x (h.ready_semAdd x (List.mem_filter.mp hx).1)
  · by_cases hxk : x ∈ ks
    · simp [View.kill, hxk]
    · simpa [View.kill, hxk] using h.free_semAdd x (by simpa [View.kill, hxk] using hx)
  · by_cases hxk : x ∈ ks
    · simp [View.kill, prune, hxk]
    · simpa [View.kill, prune, hxk] using h.free_parent x (by simpa [View.kill, hxk] using hx)
  · by_cases hxk : x ∈ ks
    · simp [View.kill, prune, hxk]
    · simp [View.kill, prune, hxk, h.free_child x (by simpa [View.kill, hxk] using hx)]
  · simp only [List.length_append, List.length_reverse] at hle
    simp only [View.kill, h.count, List.length_append, List.length_reverse]
    apply BitVec.eq_of_toNat_eq
    simp only [BitVec.toNat_sub, BitVec.toNat_ofNat]
    simp only [MAXPROC] at hle ⊢
    omega

/-! ### Nobody is current and somewhere else -/

theorem Loose.withCurrent {v : View} {p : PcbPtr} (h : v.Loose p) (c : Option PcbPtr) (soft : Word)
    (mem : Addr → Word) : Loose {v with current := c, soft := soft, mem := mem} p :=
  ⟨h.live, h.unready, h.unblocked⟩

/-- A process woken or dispatched is in no other place. -/
theorem Ok.loose_of_unqueue {v : View} (h : v.Ok) {k : Addr} {p : PcbPtr} {rest : List PcbPtr}
    (hq : v.waiting k = p :: rest) :
    Loose {v with waiting := Function.update v.waiting k rest, semAdd := Function.update v.semAdd p NULL} p := by
  have hp : p ∈ v.waiting k := by simp [hq]
  exact ⟨h.waiting_live hp, h.unready hp, by simp⟩

end View

open View

theorem Does.ok {clock : Addr} {a : Act} {v v' : View} (hd : Does clock a v v') (h : v.Ok)
    (hc : v.CurrentOk) : v'.Ok ∧ v'.CurrentOk := by
  cases hd with
  | @create _ c p rest q hcur hf hq =>
    have hcl := hc c hcur
    refine ⟨h.create hcl.live hf hq, fun c' hc' => ?_⟩
    obtain rfl : c = c' := by simpa [View.create, hcur] using hc'
    have hcp : c ≠ p := fun hcp => hcl.live (by simp [hcp, hf])
    refine ⟨fun hx => hcl.live (by simp [hf, show c ∈ rest from hx]), fun hx => ?_, hcl.unblocked⟩
    rcases List.mem_cons.mp (hq.mem_iff.mp hx) with hx | hx
    · exact hcp hx
    · exact hcl.unready hx
  | @kill _ ks caller hnd hlive hclosed hcaller =>
    refine ⟨(h.kill clock hnd hlive hclosed).withCurrent _ _ _, fun c hcur => ?_⟩
    cases caller with
    | true => cases hcur
    | false =>
      have hcl := hc c hcur
      have hck : c ∉ ks := fun hck => Bool.false_ne_true ((hcaller c hcur).mp hck)
      exact ⟨by simp [View.kill, hck, hcl.live], fun hx => hcl.unready (List.mem_filter.mp hx).1,
        by simp [View.kill, hck, hcl.unblocked]⟩
  | @block _ c k d hcur hk =>
    exact ⟨(h.enqueueBlocked hk (hc c hcur)).withCurrent _ _ _, fun c' hc' => by cases hc'⟩
  | @wake _ k p rest q d hq hperm =>
    have hp : p ∈ v.waiting k := by simp [hq]
    have hloose := h.loose_of_unqueue hq
    refine ⟨((h.unqueue hq).enqueue hloose hperm).withCurrent _ _ _, fun c hcur => ?_⟩
    have hcl := hc c hcur
    have hcp : c ≠ p := by
      rintro rfl
      obtain ⟨hs, hk⟩ := (h.mem_waiting k c).mp hp
      exact hk (hs.symm.trans hcl.unblocked)
    refine ⟨hcl.live, fun hx => ?_, by simp [View.wake, hcp, hcl.unblocked]⟩
    rcases List.mem_cons.mp (hperm.mem_iff.mp hx) with hx | hx
    · exact hcp hx
    · exact hcl.unready hx
  | take => exact ⟨h.withCurrent _ _ _, fun c hcur => (hc c hcur).withCurrent _ _ _⟩
  | give => exact ⟨h.withCurrent _ _ _, fun c hcur => (hc c hcur).withCurrent _ _ _⟩
  | drop => exact ⟨h.withCurrent _ _ _, fun c hcur => by cases hcur⟩
  | @requeue _ c q hcur hq =>
    exact ⟨(h.enqueue (hc c hcur) hq).withCurrent none v.soft v.mem, fun c' hc' => by cases hc'⟩

theorem Acts.ok {clock : Addr} {as : List Act} {v v' : View} (ha : Acts clock as v v') (h : v.Ok)
    (hc : v.CurrentOk) : v'.Ok ∧ v'.CurrentOk := by
  induction ha with
  | nil => exact ⟨h, hc⟩
  | cons hd _ ih => exact ih (hd.ok h hc).1 (hd.ok h hc).2

theorem View.Ok.dispatch {v : View} (h : v.Ok) : v.dispatch.Ok := by
  unfold View.dispatch
  cases hr : v.ready with
  | nil => exact h
  | cons p rest =>
    have hnd : (p :: rest).Nodup := hr ▸ h.ready_nodup
    have hsub : ∀ x ∈ rest, x ∈ v.ready := fun x hx => by simp [hr, hx]
    exact ⟨h.free_nodup, (List.nodup_cons.mp hnd).2, h.waiting_nodup,
      fun x hx => h.ready_live x (hsub x hx), h.mem_waiting, fun x hx => h.ready_semAdd x (hsub x hx),
      h.free_semAdd, h.wf, h.free_parent, h.free_child, h.count⟩

theorem View.Ok.dispatch_current {v : View} (h : v.Ok) (hc : v.CurrentOk) : v.dispatch.CurrentOk := by
  unfold View.dispatch
  cases hr : v.ready with
  | nil => exact hc
  | cons p rest =>
    intro c hcur
    obtain rfl : p = c := by simpa using hcur
    have hnd : (p :: rest).Nodup := hr ▸ h.ready_nodup
    have hp : p ∈ v.ready := by simp [hr]
    exact ⟨h.ready_live p hp, (List.nodup_cons.mp hnd).1, h.ready_semAdd p hp⟩

end MultiPandOS
