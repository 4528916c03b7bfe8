import MultiPandOS.Support.Handshake

/-! Who owns a support structure, between any two statements.

`Sys` takes `ExecuteSys` and the end of `TerminateSys` in one step each. The time slice
can end inside them, so `slicedStep` takes their statements one at a time, and what
`test` does with the structure of the shell as well. The insertion into `supportFree_h`
and the removal are one statement each; nobody else is at one of them meanwhile.

Every structure is free, or held by the call that has allocated it, or belongs to a
U-proc (`Tenure`). But `TerminateSys` frees the structure of a U-proc that goes on to
signal its end and to call TERMPROCESS, with the structure as its `p_supportStruct` and
its stack. As long as somebody lingers there, the structure has an owner too many, and
once the shell is awake it gives the structure to its next program (`shared_support`). -/
namespace MultiPandOS
open Runs

/-! ### The statements -/

/-- How far `ExecuteSys` is with the structure that it has allocated, or, at the end,
`TerminateSys` with its own. -/
inductive Stage where
  | idle
  | allocated (newAsid : Word) (newSup : SupPtr)
  | initialised (newAsid : Word) (newSup : SupPtr)
  | refused (newSup : SupPtr)
  | cleared (newSup : SupPtr)
  | freed
  | released
deriving DecidableEq

/-- The structure that a call of `allocateSupport` has returned and that nobody else
knows of. -/
def Stage.held : Stage → Option SupPtr
  | .allocated _ newSup => some newSup
  | .initialised _ newSup => some newSup
  | .refused newSup => some newSup
  | .cleared newSup => some newSup
  | _ => none

/-- What follows CREATEPROCESS in `test`. -/
def Sys.shell (u : SupPtr) (supportFree : List SupPtr) (vm : Vm) : Sys :=
  { vm := vm
    supportFree := supportFree
    sem := fun x =>
      match x with
      | .swapPoolSemaphore => 1
      | .terminalWriteSem => 1
      | .terminalReadSem => 1
      | _ => 0
    proc := fun q => if q = shellNo then ⟨u, SHELL_ASID, .code .user⟩ else ⟨u, 0, .absent⟩
    next := 1
    test := .waiting }

/-- `ExecuteSys` up to `allocateSupport`. -/
def executeFirst (q : Nat) (asid : Word) (s : Sys) : Sys × Stage :=
  let newAsid := (s.state q).regA1
  if badExecute asid newAsid then (s.goto q (.terminate .lock asid), .idle)
  else
    match allocateSupport s.supportFree with
    | none => ((s.setA0 q (-1)).ldst q, .idle)
    | some (newSup, supportFree) => ({s with supportFree := supportFree}, .allocated newAsid newSup)

/-- The next statement of `q`, outside of these. -/
def sliceIdle (L : PoolLayout) (h : Handlers) (q : Nat) (inp : Input) (s : Sys) : Option (Sys × Stage) :=
  match (s.proc q).place with
  | .executing asid => some (executeFirst q asid s)
  | .terminate .dealloc _ => some (s.setVm (s.vm.setAsid (s.proc q).sup 0), .released)
  | _ => (sysStep L h (.go q inp) s).map fun s => (s, .idle)

/-- The next statement of `q`. -/
def sliceGo (L : PoolLayout) (h : Handlers) (q : Nat) (inp : Input) (s : Sys) : Stage → Option (Sys × Stage)
  | .idle => sliceIdle L h q inp s
  | .allocated newAsid newSup => some (s.setVm (s.vm.initSupport h newSup newAsid), .initialised newAsid newSup)
  | .initialised newAsid newSup =>
    if inp.status = -1 then some (s, .refused newSup)
    else some ((s.create newSup newAsid).goto q .waitShell, .idle)
  | .refused newSup => some (s.setVm (s.vm.setAsid newSup 0), .cleared newSup)
  | .cleared newSup => some ({s with supportFree := deallocateSupport newSup s.supportFree}, .freed)
  | .freed => some ((s.setA0 q (-1)).ldst q, .idle)
  | .released =>
    match (s.proc q).place with
    | .terminate .dealloc asid =>
      let s := {s with supportFree := deallocateSupport (s.proc q).sup s.supportFree}
      some (s.goto q (.terminate .signal asid), .idle)
    | _ => none

/-- `test` with the structure that it has allocated for the shell, initialised or not, or
the support level with the stage of every U-proc. -/
inductive Sliced where
  | boot (shellSup : SupPtr) (supportFree : List SupPtr) (vm : Vm) (initialised : Bool)
  | up (s : Sys) (stage : Nat → Stage)

def slicedStep (L : PoolLayout) (h : Handlers) (e : SysEvent) : Sliced → Option Sliced
  | .boot shellSup supportFree vm initialised =>
    match e with
    | .test =>
      if initialised then some (.up (Sys.shell shellSup supportFree vm) fun _ => .idle)
      else some (.boot shellSup supportFree (vm.initSupport h shellSup SHELL_ASID) true)
    | _ => none
  | .up s stage =>
    match e with
    | .go q inp => (sliceGo L h q inp s (stage q)).map fun r => .up r.1 (Function.update stage q r.2)
    | _ => (sysStep L h e s).map fun s => .up s stage

/-- `test` up to its `allocateSupport`. -/
def Sliced.start (vm : Vm) : Option Sliced :=
  (allocateSupport ((List.finRange UPROCMAX).foldl (fun q u => deallocateSupport u q) [])).map
    fun (shellSup, supportFree) =>
      .boot shellSup supportFree (initSwapStructs {vm with frameIndex := 0, tlb := fun _ => ⟨0, 0⟩}) false

section Slices
variable {L : PoolLayout} {h : Handlers} {q : Nat} {s : Sys} {stage : Nat → Stage}

/-- What `test` starts. -/
theorem sliced_start {vm : Vm} {f : Sliced} (hf : Sliced.start vm = some f) :
    ∃ s, Sys.start h vm = some s ∧ exec (slicedStep L h) [.test, .test] f = some (.up s fun _ => .idle) := by
  obtain ⟨⟨u, supportFree⟩, hpop, rfl⟩ := Option.map_eq_some_iff.mp hf
  refine ⟨_, ?_, rfl⟩
  unfold Sys.start
  rw [hpop]
  rfl

theorem slicedStep_go (q : Nat) (inp : Input) (s : Sys) (stage : Nat → Stage) :
    slicedStep L h (.go q inp) (.up s stage) =
      (sliceGo L h q inp s (stage q)).map fun r => .up r.1 (Function.update stage q r.2) := rfl

theorem slicedStep_next {inp : Input} {s' : Sys} {at' at'' : Stage} (hat : stage q = at')
    (hgo : sliceGo L h q inp s at' = some (s', at'')) :
    slicedStep L h (.go q inp) (.up s stage) = some (.up s' (Function.update stage q at'')) := by
  rw [slicedStep_go, hat, hgo]
  rfl

/-- Where nothing is taken apart. -/
theorem sliceIdle_eq {inp : Input} (hexecuting : ∀ asid, (s.proc q).place ≠ .executing asid)
    (hdealloc : ∀ asid, (s.proc q).place ≠ .terminate .dealloc asid) :
    sliceIdle L h q inp s = (sysStep L h (.go q inp) s).map fun s => (s, .idle) := by
  unfold sliceIdle
  split
  · rename_i asid hplace
    exact absurd hplace (hexecuting asid)
  · rename_i asid hplace
    exact absurd hplace (hdealloc asid)
  · rfl

/-- Without an interrupt, the statements of `q` are a step of the support level. -/
theorem sliced_refines (inp : Input) (hidle : stage q = .idle) :
    ∃ n, exec (slicedStep L h) (List.replicate n (.go q inp)) (.up s stage) =
      (sysStep L h (.go q inp) s).map fun s' => .up s' stage := by
  have hstage : Function.update stage q .idle = stage := by
    rw [← hidle]
    exact Function.update_eq_self q stage
  by_cases hexecuting : ∃ asid, (s.proc q).place = .executing asid
  · obtain ⟨asid, hplace⟩ := hexecuting
    have hcoarse : sysStep L h (.go q inp) s = some (executeSys h q asid inp.status s) := by
      simp only [sysStep, proceed, hplace]
    have hfirst : sliceGo L h q inp s .idle = some (executeFirst q asid s) := by
      simp only [sliceGo, sliceIdle, hplace]
    rw [hcoarse]
    unfold executeSys
    unfold executeFirst at hfirst
    by_cases hbad : badExecute asid (s.state q).regA1
    · simp only [if_pos hbad] at hfirst ⊢
      refine ⟨1, ?_⟩
      simp only [List.replicate, exec, slicedStep_next hidle hfirst, Option.bind_some, Option.map_some, hstage]
    · simp only [if_neg hbad] at hfirst ⊢
      cases hpop : allocateSupport s.supportFree with
      | none =>
        simp only [hpop] at hfirst
        refine ⟨1, ?_⟩
        simp only [List.replicate, exec, slicedStep_next hidle hfirst, Option.bind_some, Option.map_some, hstage]
      | some r =>
        obtain ⟨u, supportFree⟩ := r
        simp only [hpop] at hfirst
        by_cases hfail : inp.status = -1
        · refine ⟨6, ?_⟩
          simp only [List.replicate, exec, slicedStep_next hidle hfirst, Option.bind_some]
          simp only [slicedStep_go, Function.update_self, sliceGo, if_pos hfail, Option.map_some, Option.bind_some,
            Function.update_idem, hstage]
          rfl
        · refine ⟨3, ?_⟩
          simp only [List.replicate, exec, slicedStep_next hidle hfirst, Option.bind_some]
          simp only [slicedStep_go, Function.update_self, sliceGo, if_neg hfail, Option.map_some, Option.bind_some,
            Function.update_idem, hstage]
          rfl
  · by_cases hdealloc : ∃ asid, (s.proc q).place = .terminate .dealloc asid
    · obtain ⟨asid, hplace⟩ := hdealloc
      have hcoarse : sysStep L h (.go q inp) s = terminateSys q asid s .dealloc := by
        simp only [sysStep, proceed, hplace]
      have hfirst : sliceGo L h q inp s .idle = some (s.setVm (s.vm.setAsid (s.proc q).sup 0), .released) := by
        simp only [sliceGo, sliceIdle, hplace]
      have hplace' : ((s.setVm (s.vm.setAsid (s.proc q).sup 0)).proc q).place = .terminate .dealloc asid := hplace
      refine ⟨2, ?_⟩
      rw [hcoarse]
      simp only [List.replicate, exec, slicedStep_next hidle hfirst, Option.bind_some]
      simp only [slicedStep_go, Function.update_self, sliceGo, hplace', Option.map_some, Option.bind_some,
        Function.update_idem, hstage]
      rfl
    · refine ⟨1, ?_⟩
      have hone : sliceIdle L h q inp s = (sysStep L h (.go q inp) s).map fun s => (s, .idle) :=
        sliceIdle_eq (not_exists.mp hexecuting) (not_exists.mp hdealloc)
      simp only [List.replicate, exec, slicedStep_go, hidle, sliceGo, hone, Option.map_map]
      cases sysStep L h (.go q inp) s with
      | none => rfl
      | some s' => simp [hstage]

end Slices

/-! ### Ownership -/

namespace Sliced

/-- `supportFree_h`. -/
def supportFree : Sliced → List SupPtr
  | .boot _ supportFree _ _ => supportFree
  | .up s _ => s.supportFree

/-- `q` is live and `u` is its `p_supportStruct`. -/
def refers : Sliced → Nat → SupPtr → Prop
  | .boot _ _ _ _, _, _ => False
  | .up s _, q, u => (s.proc q).place ≠ .absent ∧ (s.proc q).sup = u

/-- `u` is held by the call that has allocated it: in `test`, or in the `ExecuteSys` of `q`. -/
def holds : Sliced → Option Nat → SupPtr → Prop
  | .boot shellSup _ _ _, none, u => shellSup = u
  | .boot _ _ _ _, some _, _ => False
  | .up _ _, none, _ => False
  | .up _ stage, some q, u => (stage q).held = some u

/-- `u` has one owner: the list, a U-proc or the call that has allocated it. -/
def Owned (f : Sliced) (u : SupPtr) : Prop :=
  (f.supportFree.count u = 1 ∧ (∀ q, ¬ f.refers q u) ∧ ∀ c, ¬ f.holds c u) ∨
    (u ∉ f.supportFree ∧ (∃! q, f.refers q u) ∧ ∀ c, ¬ f.holds c u) ∨
    (u ∉ f.supportFree ∧ (∀ q, ¬ f.refers q u) ∧ ∃! c, f.holds c u)

/-- `q` is live, between the `deallocateSupport` of its `TerminateSys` and the end of its
TERMPROCESS. -/
def lingers : Sliced → Nat → Prop
  | .boot _ _ _ _, _ => False
  | .up s _, q => (s.proc q).place ≠ .absent ∧ (s.proc q).place.owns = false

/-- `test` has called TERMPROCESS: nobody is left, and the machine halts. -/
def halted : Sliced → Bool
  | .boot _ _ _ _ => false
  | .up s _ => decide (s.test = .gone)

end Sliced

/-- `ExecuteSys` is between its `allocateSupport` and the end. -/
def Stage.executes : Stage → Bool
  | .idle => false
  | .released => false
  | _ => true

/-- The ASID that is yet to be written to the new structure. -/
def Stage.newAsid : Stage → Option Word
  | .allocated newAsid _ => some newAsid
  | .initialised newAsid _ => some newAsid
  | _ => none

/-- What the stage of `q` says. -/
structure StageOk (s : Sys) (q : Nat) (at' : Stage) : Prop where
  executing : at'.executes = true → q = shellNo ∧ ∃ asid, (s.proc q).place = .executing asid
  accepted : ∀ newAsid, at'.newAsid = some newAsid → newAsid ≠ SHELL_ASID
  written : ∀ newAsid newSup, at' = .initialised newAsid newSup → s.vm.asid newSup = newAsid
  released : at' = .released → ∃ asid, (s.proc q).place = .terminate .dealloc asid
  held : ∀ u, at'.held = some u → u ∉ s.supportFree ∧ u ∉ s.owned

/-- What holds between any two statements. -/
structure Tenure (s : Sys) (stage : Nat → Stage) : Prop where
  orderly : Orderly s
  stages : ∀ q, StageOk s q (stage q)
  covered : s.test ≠ .gone → ∀ u, u ∈ s.supportFree ∨ u ∈ s.owned ∨ ∃ q, (stage q).held = some u

section Tenure
variable {L : PoolLayout} {hd : Handlers} {q : Nat} {u : SupPtr} {s s' : Sys} {stage : Nat → Stage} {inp : Input}

/-- **One owner each, unless somebody lingers.** -/
theorem Tenure.owned_iff (h : Tenure s stage) (hgone : s.test ≠ .gone) :
    (∀ u, (Sliced.up s stage).Owned u) ↔ ∀ q, ¬ (Sliced.up s stage).lingers q := by
  constructor
  · intro howned q ⟨hlive, hnot⟩
    have hrefers : (Sliced.up s stage).refers q (s.proc q).sup := ⟨hlive, rfl⟩
    obtain ⟨-, hnone, -⟩ | ⟨hfree, ⟨t, -, hunique⟩, hheld⟩ | ⟨-, hnone, -⟩ := howned (s.proc q).sup
    · exact hnone q hrefers
    · -- somebody owns it, and that is not `q`
      obtain hmem | ⟨r, hr, hsup⟩ | ⟨c, hc⟩ := h.covered hgone (s.proc q).sup
      · exact hfree hmem
      · have hrq : r = q := (hunique r ⟨Place.present hr, hsup⟩).trans (hunique q hrefers).symm
        rw [hrq, hnot] at hr
        cases hr
      · exact hheld (some c) hc
    · exact hnone q hrefers
  · intro hlingers u
    have howns : ∀ q, (Sliced.up s stage).refers q u → (s.proc q).place.owns = true := by
      intro q hq
      by_contra hnot
      exact hlingers q ⟨hq.1, Bool.eq_false_iff.mpr hnot⟩
    by_cases hfree : u ∈ s.supportFree
    · refine .inl ⟨List.count_eq_one_of_mem h.orderly.owners.nodup hfree, fun q hq => ?_, fun c hc => ?_⟩
      · have := h.orderly.owners.taken q (howns q hq)
        rw [hq.2] at this
        exact this hfree
      · cases c with
        | none => exact hc
        | some c => exact ((h.stages c).held u hc).1 hfree
    · by_cases howner : u ∈ s.owned
      · obtain ⟨r, hr, hsup⟩ := howner
        refine .inr (.inl ⟨hfree, ⟨r, ⟨Place.present hr, hsup⟩, fun t ht => ?_⟩, fun c hc => ?_⟩)
        · exact h.orderly.owners.inj t r (howns t ht) hr (ht.2.trans hsup.symm)
        · cases c with
          | none => exact hc
          | some c => exact ((h.stages c).held u hc).2 ⟨r, hr, hsup⟩
      · obtain hmem | hmem | ⟨c, hc⟩ := h.covered hgone u
        · exact absurd hmem hfree
        · exact absurd hmem howner
        · refine .inr (.inr ⟨hfree, fun q hq => howner ⟨q, howns q hq, hq.2⟩, some c, hc, fun d hd => ?_⟩)
          cases d with
          | none => exact hd.elim
          | some d =>
            have hexec : ∀ r, (stage r).held = some u → r = shellNo := by
              intro r hr
              refine ((h.stages r).executing ?_).1
              cases hst : stage r <;> simp_all [Stage.held, Stage.executes]
            rw [hexec c hc, hexec d hd]

end Tenure

/-! ### Steps of the support level -/

section Delegated
variable {L : PoolLayout} {hd : Handlers} {q : Nat} {s s' : Sys} {e : SysEvent} {stage : Nat → Stage} {at' : Stage}

theorem StageOk.idle (s : Sys) (q : Nat) : StageOk s q .idle :=
  ⟨nofun, nofun, nofun, nofun, nofun⟩

/-- Who is in the middle of something has not signalled its end. -/
theorem StageOk.active (h : StageOk s q at') (hbusy : at' ≠ .idle) :
    (s.proc q).place.pending = true ∧ (s.proc q).place ≠ .waitShell := by
  by_cases hexecutes : at'.executes = true
  · obtain ⟨-, asid, hplace⟩ := h.executing hexecutes
    rw [hplace]
    exact ⟨rfl, by simp⟩
  · have hreleased : at' = .released := by
      cases at' <;> simp_all [Stage.executes]
    obtain ⟨asid, hplace⟩ := h.released hreleased
    rw [hplace]
    exact ⟨rfl, by simp⟩

/-- Nobody else is in the middle of anything. -/
theorem Tenure.alone (h : Tenure s stage) (hpending : (s.proc q).place.pending = true)
    (hawake : (s.proc q).place ≠ .waitShell) {r : Nat} (hr : r ≠ q) : stage r = .idle := by
  by_contra hbusy
  obtain ⟨hp, hw⟩ := (h.stages r).active hbusy
  exact hr (h.orderly.handshake.only hp hw hpending hawake)

theorem StageOk.kept (h : StageOk s q at') (hplace : (s'.proc q).place = (s.proc q).place) (hvm : s'.vm = s.vm)
    (hfree : s'.supportFree = s.supportFree) (howned : s'.owned ⊆ s.owned) : StageOk s' q at' := by
  refine ⟨fun hx => ?_, h.accepted, fun a u hx => ?_, fun hx => ?_, fun u hu => ?_⟩
  · rw [hplace]
    exact h.executing hx
  · rw [hvm]
    exact h.written a u hx
  · rw [hplace]
    exact h.released hx
  · obtain ⟨h1, h2⟩ := h.held u hu
    rw [hfree]
    exact ⟨h1, fun hu' => h2 (howned hu')⟩

/-- While `r` has something to do, nobody else does anything but die. -/
theorem Orderly.still (h : Orderly s) (hstep : Stepped L hd s e s') {r : Nat}
    (hpending : (s.proc r).place.pending = true) (hawake : (s.proc r).place ≠ .waitShell) (hr : e.actor ≠ some r) :
    (s'.proc r).place = (s.proc r).place ∧ s'.vm = s.vm := by
  cases hstep with
  | @flow e q d st place s' actor flow allowed goes =>
    have hrq : r ≠ q := fun he => hr (he ▸ actor)
    by_cases hwait : (s.proc q).place = .waitShell
    · -- the shell is not woken before `r` has signalled its end
      obtain rfl := h.handshake.waits q hwait
      obtain ⟨-, hd⟩ | ⟨a, hplace, -⟩ | ⟨hnot, -⟩ := flow.signals
      · subst hd
        have hpos : 0 < s.sem .shellSemaphore := allowed
        rw [(h.handshake.waiting r hrq hpending).2] at hpos
        exact absurd hpos (by decide)
      · rw [hwait] at hplace
        cases hplace
      · exact absurd hwait hnot
    · exact absurd (h.handshake.only hpending hawake flow.pending hwait) hrq
  | @die q inp asid old =>
    have hrq : r ≠ q := fun he => hr (by rw [he]; rfl)
    by_cases hq : q = shellNo
    · subst hq
      rw [h.handshake.nobody old r] at hpending
      cases hpending
    · exact ⟨(termprocess_moved hq).other hrq, termprocess_vm q s⟩
  | @create q inp asid newAsid u supportFree old arg accepted popped created =>
    have hrq : r ≠ q := fun he => hr (by rw [he]; rfl)
    exact absurd (h.handshake.only hpending hawake (r := q) (by rw [old]; rfl) (by simp [old])) hrq
  | await old pass =>
    obtain ⟨-, rfl⟩ := passeren_eq_some pass
    exact ⟨rfl, rfl⟩
  | kill old => exact absurd (.inr (by simp [old])) (h.handshake.running hpending hawake)

/-- A step of the support level that is none of the statements above. -/
structure Plain (s : Sys) (e : SysEvent) : Prop where
  executing : ∀ q asid, e.actor = some q → (s.proc q).place = .executing asid →
    badExecute asid (s.state q).regA1 ∨ allocateSupport s.supportFree = none
  dealloc : ∀ q asid, e.actor = some q → (s.proc q).place ≠ .terminate .dealloc asid

theorem Plain.allocates (h : Plain s e) {asid newAsid : Word} {r : SupPtr × List SupPtr} (actor : e.actor = some q)
    (hplace : (s.proc q).place = .executing asid) (harg : newAsid = (s.state q).regA1)
    (haccepted : ¬ badExecute asid newAsid) (hpopped : allocateSupport s.supportFree = some r) : False := by
  obtain hbad | hnone := h.executing q asid actor hplace
  · exact haccepted (harg ▸ hbad)
  · rw [hnone] at hpopped
    cases hpopped

theorem Plain.supportFree (h : Plain s e) (hstep : sysStep L hd e s = some s') : s'.supportFree = s.supportFree := by
  cases sysStep_effect hstep with
  | calm old new inherits quiet => exact quiet.supportFree
  | lock old pass locks mapped attached inherits =>
    obtain ⟨-, rfl⟩ := passeren_eq_some pass
    rfl
  | @dealloc q inp asid old => exact absurd old (h.dealloc q asid rfl)
  | die old => exact termprocess_supportFree _ s
  | @create q inp asid newAsid u supportFree old arg accepted popped created =>
    exact (h.allocates rfl old arg accepted popped).elim
  | wake old pass =>
    obtain ⟨-, rfl⟩ := passeren_eq_some pass
    rfl
  | await old pass =>
    obtain ⟨-, rfl⟩ := passeren_eq_some pass
    rfl
  | _ => rfl

theorem Flow.owns {loads : Addr → Word → Prop} {asid : Word} {st st' : State} {place place' : Place} {d : Doing}
    (h : Flow loads asid st place d st' place') (hdealloc : ∀ a, place ≠ .terminate .dealloc a) :
    place'.owns = place.owns := by
  cases h with
  | @dealloc a => exact absurd rfl (hdealloc a)
  | _ => rfl

theorem Moved.owned {place : Place} (h : Moved q place s s') (howns : place.owns = (s.proc q).place.owns) :
    s'.owned = s.owned := by
  have hiff : ∀ r, (s'.proc r).place.owns = (s.proc r).place.owns := by
    intro r
    by_cases hrq : r = q
    · rw [hrq, h.self, howns]
    · rw [h.other hrq]
  unfold Sys.owned
  simp only [hiff, h.sup]

theorem Place.owns_pending {place : Place} (h : place.owns = true) : place.pending = true := by
  cases place with
  | terminate step a => cases step <;> first | rfl | cases h
  | _ => first | rfl | cases h

/-- Nobody gets a structure or loses one. -/
theorem Plain.owned (h : Plain s e) (ho : Orderly s) (hstep : Stepped L hd s e s') :
    s'.owned ⊆ s.owned ∧ (s'.test ≠ .gone → s'.owned = s.owned) := by
  have hsame : s'.owned = s.owned → s'.owned ⊆ s.owned ∧ (s'.test ≠ .gone → s'.owned = s.owned) :=
    fun heq => ⟨heq.subset, fun _ => heq⟩
  cases hstep with
  | @flow e q d st place s' actor flow allowed goes =>
    exact hsame (goes.toMoved.owned (flow.owns fun a => h.dealloc q a actor))
  | @die q inp asid old =>
    refine hsame ?_
    by_cases hq : q = shellNo
    · subst hq
      -- the programs are at their TERMPROCESS or gone
      refine Set.ext fun u => ⟨fun ⟨r, hr, _⟩ => (by cases hr), fun ⟨r, hr, _⟩ => ?_⟩
      have hpending := Place.owns_pending hr
      rw [ho.handshake.nobody old r] at hpending
      cases hpending
    · exact (termprocess_moved hq).owned (by rw [old]; rfl)
  | @create q inp asid newAsid u supportFree old arg accepted popped created =>
    exact (h.allocates rfl old arg accepted popped).elim
  | await old pass =>
    obtain ⟨-, rfl⟩ := passeren_eq_some pass
    exact hsame rfl
  | kill old => exact ⟨fun u ⟨r, hr, _⟩ => (by cases hr), fun hgone => absurd rfl hgone⟩

/-- Who takes the step is not in the middle of anything. -/
theorem Tenure.plain (h : Tenure s stage) (hplain : Plain s e) (hidle : ∀ q, e.actor = some q → stage q = .idle)
    (hstep : sysStep L hd e s = some s') : Tenure s' stage := by
  have hstepped := sysStep_stepped hstep
  obtain ⟨hsubset, howned⟩ := hplain.owned h.orderly hstepped
  have hfree := hplain.supportFree hstep
  have htest : s'.test ≠ .gone → s.test ≠ .gone := by
    intro hgone
    cases hstepped with
    | flow actor flow allowed goes => exact goes.test ▸ hgone
    | die old => exact termprocess_test _ s ▸ hgone
    | create => exact hgone
    | await old pass => simp [old]
    | kill old => simp [old]
  refine ⟨h.orderly.step hstep, fun q => ?_, fun hgone u => ?_⟩
  · by_cases hbusy : stage q = .idle
    · rw [hbusy]
      exact .idle s' q
    · obtain ⟨hpending, hawake⟩ := (h.stages q).active hbusy
      obtain ⟨hplace, hvm⟩ := h.orderly.still hstepped hpending hawake fun ha => hbusy (hidle q ha)
      exact (h.stages q).kept hplace hvm hfree hsubset
  · rw [hfree, howned hgone]
    exact h.covered (htest hgone) u

end Delegated

/-! ### The statements keep it -/

section Statements
variable {L : PoolLayout} {hd : Handlers} {q : Nat} {u : SupPtr} {a asid : Word} {s s' : Sys} {stage : Nat → Stage}
  {at' : Stage}

/-- Only the free list and the structures that nobody has change. -/
theorem Orderly.refree (h : Orderly s) (hproc : s'.proc = s.proc) (hnext : s'.next = s.next) (htest : s'.test = s.test)
    (hsem : s'.sem = s.sem) (hnodup : s'.supportFree.Nodup)
    (htaken : ∀ r, (s.proc r).place.owns = true → (s.proc r).sup ∉ s'.supportFree)
    (hasid : ∀ r, (s.proc r).place.working = true → s'.vm.asid (s.proc r).sup = s.vm.asid (s.proc r).sup) :
    Orderly s' := by
  refine ⟨⟨?_, ?_, hnodup, ?_, ?_⟩, ⟨?_, fun r hr => ?_, ?_⟩, ⟨?_, ?_, ?_, ?_, ?_⟩⟩
  · exact hnext ▸ h.owners.next
  · rw [hnext, hproc]
    exact h.owners.fresh
  · rw [hproc]
    exact htaken
  · rw [hproc]
    exact h.owners.inj
  · rw [hproc]
    exact h.named.shell
  · rw [hproc] at hr ⊢
    rw [hasid r hr]
    exact h.named.sup r hr
  · rw [hproc]
    exact h.named.executing
  · rw [hproc]
    exact h.handshake.waits
  · rw [hproc, hsem]
    exact h.handshake.waiting
  · rw [hproc]
    exact h.handshake.single
  · rw [hproc, hsem]
    exact h.handshake.signal
  · rw [hproc, hsem, htest]
    exact h.handshake.ending

theorem Tenure.covered_self (h : Tenure s stage) (hothers : ∀ r, r ≠ q → stage r = .idle) (hgone : s.test ≠ .gone)
    (u : SupPtr) : u ∈ s.supportFree ∨ u ∈ s.owned ∨ (stage q).held = some u := by
  obtain hfree | howned | ⟨r, hr⟩ := h.covered hgone u
  · exact .inl hfree
  · exact .inr (.inl howned)
  · by_cases hrq : r = q
    · exact .inr (.inr (hrq ▸ hr))
    · rw [hothers r hrq] at hr
      cases hr

theorem Tenure.next (ho : Orderly s') (hothers : ∀ r, r ≠ q → stage r = .idle) (hself : StageOk s' q at')
    (hcovered : s'.test ≠ .gone → ∀ u, u ∈ s'.supportFree ∨ u ∈ s'.owned ∨ at'.held = some u) :
    Tenure s' (Function.update stage q at') := by
  refine ⟨ho, fun r => ?_, fun hgone u => ?_⟩
  · by_cases hrq : r = q
    · subst hrq
      rw [Function.update_self]
      exact hself
    · rw [Function.update_of_ne hrq, hothers r hrq]
      exact .idle s' r
  · refine (hcovered hgone u).imp_right fun hu => hu.imp_right fun hheld => ⟨q, ?_⟩
    rw [Function.update_self]
    exact hheld

/-- The shell is in its `ExecuteSys`. -/
theorem Tenure.executing (h : Tenure s stage) (hexecutes : (stage q).executes = true) :
    q = shellNo ∧ (∃ asid, (s.proc q).place = .executing asid) ∧ ∀ r, r ≠ q → stage r = .idle := by
  obtain ⟨hq, asid, hplace⟩ := (h.stages q).executing hexecutes
  refine ⟨hq, ⟨asid, hplace⟩, fun r hr => h.alone ?_ ?_ hr⟩
  · rw [hplace]
    rfl
  · simp [hplace]

theorem asid_setAsid_ne (vm : Vm) (a : Word) {v : SupPtr} (hv : v ≠ u) : (vm.setAsid u a).asid v = vm.asid v := by
  simp [Vm.asid, Vm.setAsid, hv]

theorem asid_initSupport_ne (vm : Vm) (a : Word) {v : SupPtr} (hv : v ≠ u) :
    (vm.initSupport hd u a).asid v = vm.asid v := by
  simp [Vm.asid, Vm.initSupport, hv]

/-- `allocateSupport`. -/
theorem Tenure.allocate (h : Tenure s stage) (hidle : stage q = .idle) {supportFree : List SupPtr}
    (hplace : (s.proc q).place = .executing asid) (haccepted : ¬ badExecute asid a)
    (hpopped : allocateSupport s.supportFree = some (u, supportFree)) :
    Tenure {s with supportFree := supportFree} (Function.update stage q (.allocated a u)) := by
  have hcons := allocateSupport_eq_some hpopped
  have hnodup := h.orderly.owners.nodup
  rw [hcons, List.nodup_cons] at hnodup
  have htaken : ∀ r, (s.proc r).place.owns = true → (s.proc r).sup ≠ u ∧ (s.proc r).sup ∉ supportFree := by
    intro r hr
    have := h.orderly.owners.taken r hr
    rwa [hcons, List.mem_cons, not_or] at this
  have hothers : ∀ r, r ≠ q → stage r = .idle := fun r => h.alone (by rw [hplace]; rfl) (by simp [hplace])
  obtain ⟨hq, hnew⟩ := h.orderly.named.accepted hplace haccepted
  refine .next ?_ hothers ⟨fun _ => ⟨hq, asid, hplace⟩, fun b hb => ?_, nofun, nofun, fun v hv => ?_⟩ fun hgone v => ?_
  · exact h.orderly.refree rfl rfl rfl rfl hnodup.2 (fun r hr => (htaken r hr).2) fun _ _ => rfl
  · obtain rfl : a = b := Option.some.inj hb
    exact hnew
  · obtain rfl : u = v := Option.some.inj hv
    exact ⟨hnodup.1, fun ⟨r, hr, hsup⟩ => (htaken r hr).1 hsup⟩
  · obtain hfree | howned | hheld := h.covered_self hothers hgone v
    · rw [hcons] at hfree
      obtain rfl | hfree := List.mem_cons.mp hfree
      · exact .inr (.inr rfl)
      · exact .inl hfree
    · exact .inr (.inl howned)
    · rw [hidle] at hheld
      cases hheld

/-- `ExecuteSys` writes to the structure that it holds. -/
theorem Tenure.write (h : Tenure s stage) {vm : Vm} (hheld : (stage q).held = some u) (hheld' : at'.held = some u)
    (hexecutes : at'.executes = true) (haccepted : ∀ b, at'.newAsid = some b → b ≠ SHELL_ASID)
    (hwritten : ∀ b v, at' = .initialised b v → vm.asid v = b) (hasid : ∀ v, v ≠ u → vm.asid v = s.vm.asid v) :
    Tenure (s.setVm vm) (Function.update stage q at') := by
  have hnow : (stage q).executes = true := by
    cases hst : stage q <;> simp_all [Stage.held, Stage.executes]
  obtain ⟨hq, hplace, hothers⟩ := h.executing hnow
  have hnot := (h.stages q).held u hheld
  have hne : ∀ r, (s.proc r).place.owns = true → (s.proc r).sup ≠ u := fun r hr he => hnot.2 ⟨r, hr, he⟩
  refine .next ?_ hothers ⟨fun _ => ⟨hq, hplace⟩, haccepted, hwritten, fun he => ?_, fun v hv => ?_⟩ fun hgone v => ?_
  · exact h.orderly.refree rfl rfl rfl rfl h.orderly.owners.nodup h.orderly.owners.taken
      fun r hr => hasid _ (hne r (Place.working_owns hr))
  · rw [he] at hexecutes
    cases hexecutes
  · obtain rfl : u = v := Option.some.inj (hheld'.symm.trans hv)
    exact hnot
  · rw [hheld', ← hheld]
    exact h.covered_self hothers hgone v

/-- CREATEPROCESS. -/
theorem Tenure.create (h : Tenure s stage) (hstage : stage q = .initialised a u) :
    Tenure ((s.create u a).goto q .waitShell) (Function.update stage q .idle) := by
  obtain ⟨hq, ⟨asid, hplace⟩, hothers⟩ := h.executing (q := q) (by rw [hstage]; rfl)
  obtain ⟨hfree, howned⟩ := (h.stages q).held u (by rw [hstage]; rfl)
  have hne : ∀ r, (s.proc r).place.owns = true → (s.proc r).sup ≠ u := fun r hr he => howned ⟨r, hr, he⟩
  have hnext := h.orderly.owners.next
  have hc : Created q u a s ((s.create u a).goto q .waitShell) :=
    h.orderly.owners.created hplace s.vm u s.supportFree a
  -- as if the structure had been on the list until now
  have howners : Owners {s with supportFree := u :: s.supportFree} :=
    ⟨hnext, h.orderly.owners.fresh, List.nodup_cons.mpr ⟨hfree, h.orderly.owners.nodup⟩,
      fun r hr => by
        rw [List.mem_cons, not_or]
        exact ⟨hne r hr, h.orderly.owners.taken r hr⟩,
      h.orderly.owners.inj⟩
  have hc' : Created q u a {s with supportFree := u :: s.supportFree} ((s.create u a).goto q .waitShell) :=
    ⟨hc.shell, hc.program, hc.other⟩
  have hnew : a ≠ SHELL_ASID := (h.stages q).accepted a (by rw [hstage]; rfl)
  refine .next ⟨?_, ?_, ?_⟩ hothers (.idle _ q) fun hgone v => ?_
  · exact howners.create hc' (by rw [hplace]; rfl) rfl rfl
  · exact h.orderly.named.create hc (by rw [hplace]; rfl) hnew hnext ((h.stages q).written a u hstage)
      fun _ _ => rfl
  · subst hq
    exact h.orderly.handshake.created hc (by rw [hplace]; rfl) (by simp [hplace]) rfl rfl
  · have howns : ∀ r, r ≠ s.next → (((s.create u a).goto q .waitShell).proc r).place.owns = (s.proc r).place.owns :=
      fun r hr => hc.attr Place.owns (by rw [hplace]; rfl) hr
    obtain hfree' | ⟨r, hr, hsup⟩ | hheld := h.covered_self hothers hgone v
    · exact .inl hfree'
    · have hrn : r ≠ s.next := by
        rintro rfl
        exact Place.present hr (h.orderly.owners.fresh _ (Nat.le_refl _))
      exact .inr (.inl ⟨r, (howns r hrn).trans hr, (hc.sup hrn).trans hsup⟩)
    · rw [hstage] at hheld
      obtain rfl : u = v := Option.some.inj hheld
      exact .inr (.inl ⟨s.next, by rw [hc.program]; rfl, by rw [hc.program]⟩)

/-- `deallocateSupport` in `ExecuteSys`. -/
theorem Tenure.giveBack (h : Tenure s stage) (hstage : stage q = .cleared u) :
    Tenure {s with supportFree := deallocateSupport u s.supportFree} (Function.update stage q .freed) := by
  obtain ⟨hq, hplace, hothers⟩ := h.executing (q := q) (by rw [hstage]; rfl)
  obtain ⟨hfree, howned⟩ := (h.stages q).held u (by rw [hstage]; rfl)
  refine .next ?_ hothers ⟨fun _ => ⟨hq, hplace⟩, nofun, nofun, nofun, nofun⟩ fun hgone v => ?_
  · refine h.orderly.refree rfl rfl rfl rfl (List.nodup_cons.mpr ⟨hfree, h.orderly.owners.nodup⟩) (fun r hr => ?_)
      fun _ _ => rfl
    show _ ∉ u :: s.supportFree
    rw [List.mem_cons, not_or]
    exact ⟨fun he => howned ⟨r, hr, he⟩, h.orderly.owners.taken r hr⟩
  · obtain hfree' | howned' | hheld := h.covered_self hothers hgone v
    · exact .inl (List.mem_cons_of_mem u hfree')
    · exact .inr (.inl howned')
    · rw [hstage] at hheld
      obtain rfl : u = v := Option.some.inj hheld
      exact .inl List.mem_cons_self

theorem asid_setState (q : Nat) (i : Fin 2) (st : State) (s : Sys) (v : SupPtr) :
    (s.setState q i st).vm.asid v = s.vm.asid v := by
  by_cases hv : v = (s.proc q).sup
  · simp [Vm.asid, Sys.setState, hv]
  · simp [Vm.asid, Sys.setState, hv]

/-- The end of an `ExecuteSys` that has failed. -/
theorem Tenure.resume (h : Tenure s stage) (hstage : stage q = .freed) :
    Tenure ((s.setA0 q (-1)).ldst q) (Function.update stage q .idle) := by
  obtain ⟨hq, ⟨asid, hplace⟩, hothers⟩ := h.executing (q := q) (by rw [hstage]; rfl)
  have hm : Moved q (.code .user) s ((s.setA0 q (-1)).ldst q) := ((Goes.refl q s).setA0 (-1)).ldst.toMoved
  have hasid : ∀ v, ((s.setA0 q (-1)).ldst q).vm.asid v = s.vm.asid v :=
    fun v => (asid_setState q _ _ _ v).trans (asid_setState q _ _ s v)
  have howns : (s.proc q).place.owns = true := by
    rw [hplace]
    rfl
  refine .next ⟨?_, ?_, ?_⟩ hothers (.idle _ q) fun hgone v => ?_
  · exact h.orderly.owners.move hm rfl (Place.present howns) fun _ => howns
  · exact h.orderly.named.move hm (Place.present howns) (fun r _ => hasid _) (fun _ => by rw [hplace]; rfl) (by simp)
  · exact h.orderly.handshake.move hm rfl rfl (fun _ => by rw [hplace]; rfl) (by simp [hplace]) (by simp)
  · rw [hm.owned howns.symm]
    obtain hfree | howned | hheld := h.covered_self hothers hgone v
    · exact .inl hfree
    · exact .inr (.inl howned)
    · rw [hstage] at hheld
      cases hheld

/-- `sup->sup_asid = 0` in `TerminateSys`. -/
theorem Tenure.clear (h : Tenure s stage) (hidle : stage q = .idle) (hplace : (s.proc q).place = .terminate .dealloc asid) :
    Tenure (s.setVm (s.vm.setAsid (s.proc q).sup 0)) (Function.update stage q .released) := by
  have hothers : ∀ r, r ≠ q → stage r = .idle := fun r => h.alone (by rw [hplace]; rfl) (by simp [hplace])
  refine .next ?_ hothers ⟨nofun, nofun, nofun, fun _ => ⟨asid, hplace⟩, nofun⟩ fun hgone v => ?_
  · refine h.orderly.refree rfl rfl rfl rfl h.orderly.owners.nodup h.orderly.owners.taken fun r hr => ?_
    refine asid_setAsid_ne _ _ fun hsup => ?_
    have hrq := h.orderly.owners.inj r q (Place.working_owns hr) (by rw [hplace]; rfl) hsup
    rw [hrq, hplace] at hr
    cases hr
  · have := h.covered_self hothers hgone v
    rwa [hidle] at this

/-- `deallocateSupport` in `TerminateSys`. -/
theorem Tenure.release (h : Tenure s stage) (hstage : stage q = .released)
    (hplace : (s.proc q).place = .terminate .dealloc asid) :
    Tenure ({s with supportFree := deallocateSupport (s.proc q).sup s.supportFree}.goto q (.terminate .signal asid))
      (Function.update stage q .idle) := by
  have hothers : ∀ r, r ≠ q → stage r = .idle := fun r => h.alone (by rw [hplace]; rfl) (by simp [hplace])
  have howns : (s.proc q).place.owns = true := by
    rw [hplace]
    rfl
  generalize hs' : ({s with supportFree := deallocateSupport (s.proc q).sup s.supportFree} : Sys).goto q
    (.terminate .signal asid) = s'
  have hm : Moved q (.terminate .signal asid) s s' := by
    subst hs'
    exact ⟨rfl, rfl, rfl⟩
  have hfree : s'.supportFree = (s.proc q).sup :: s.supportFree := by
    subst hs'
    rfl
  have hvm : s'.vm = s.vm := by
    subst hs'
    rfl
  have hsem : s'.sem = s.sem := by
    subst hs'
    rfl
  refine .next ⟨?_, ?_, ?_⟩ hothers (.idle s' q) fun hgone v => ?_
  · exact h.orderly.owners.dealloc hm howns rfl hfree
  · exact h.orderly.named.move hm (Place.present howns) (fun _ _ => by rw [hvm]) nofun nofun
  · exact h.orderly.handshake.move hm (by rw [hsem]) (by rw [hsem]) (fun _ => by rw [hplace]; rfl) (by simp [hplace]) nofun
  · rw [hm.test] at hgone
    rw [hfree]
    obtain hfree' | ⟨r, hr, hsup⟩ | hheld := h.covered_self hothers hgone v
    · exact .inl (List.mem_cons_of_mem _ hfree')
    · by_cases hrq : r = q
      · rw [← hsup, hrq]
        exact .inl List.mem_cons_self
      · exact .inr (.inl ⟨r, by rw [hm.other hrq]; exact hr, (hm.sup r).trans hsup⟩)
    · rw [hstage] at hheld
      cases hheld

end Statements

/-! ### Runs -/

section Runs
variable {L : PoolLayout} {hd : Handlers} {q : Nat} {s s' : Sys} {stage : Nat → Stage} {at' : Stage} {inp : Input}
  {e : SysEvent}

theorem Tenure.sliceIdle (h : Tenure s stage) (hidle : stage q = .idle) (hstep : sliceIdle L hd q inp s = some (s', at')) :
    Tenure s' (Function.update stage q at') := by
  have hstage : Function.update stage q .idle = stage := by
    rw [← hidle]
    exact Function.update_eq_self q stage
  have hplain : Plain s (.go q inp) → sysStep L hd (.go q inp) s = some s' → Tenure s' stage := by
    intro hplain hsys
    refine h.plain hplain (fun r hr => ?_) hsys
    obtain rfl : q = r := Option.some.inj hr
    exact hidle
  by_cases hexecuting : ∃ asid, (s.proc q).place = .executing asid
  · obtain ⟨asid, hplace⟩ := hexecuting
    have hcoarse : sysStep L hd (.go q inp) s = some (executeSys hd q asid inp.status s) := by
      simp only [sysStep, proceed, hplace]
    have hsame : badExecute asid (s.state q).regA1 ∨ allocateSupport s.supportFree = none → Plain s (.go q inp) := by
      refine fun hnot => ⟨fun r b hr hb => ?_, fun r b hr hb => ?_⟩
      · obtain rfl : q = r := Option.some.inj hr
        obtain rfl : asid = b := by simpa [hplace] using hb
        exact hnot
      · obtain rfl : q = r := Option.some.inj hr
        rw [hplace] at hb
        cases hb
    have hfirst : executeFirst q asid s = (s', at') := by
      simpa only [MultiPandOS.sliceIdle, hplace, Option.some.injEq] using hstep
    unfold executeFirst at hfirst
    unfold executeSys at hcoarse
    by_cases hbad : badExecute asid (s.state q).regA1
    · simp only [if_pos hbad] at hfirst hcoarse
      obtain ⟨rfl, rfl⟩ := Prod.mk.inj hfirst
      rw [hstage]
      exact hplain (hsame (.inl hbad)) hcoarse
    · simp only [if_neg hbad] at hfirst hcoarse
      cases hpop : allocateSupport s.supportFree with
      | none =>
        simp only [hpop] at hfirst hcoarse
        obtain ⟨rfl, rfl⟩ := Prod.mk.inj hfirst
        rw [hstage]
        exact hplain (hsame (.inr hpop)) hcoarse
      | some r =>
        simp only [hpop] at hfirst
        obtain ⟨rfl, rfl⟩ := Prod.mk.inj hfirst
        exact h.allocate hidle hplace hbad hpop
  · by_cases hdealloc : ∃ asid, (s.proc q).place = .terminate .dealloc asid
    · obtain ⟨asid, hplace⟩ := hdealloc
      simp only [MultiPandOS.sliceIdle, hplace] at hstep
      obtain ⟨rfl, rfl⟩ := Prod.mk.inj (Option.some.inj hstep)
      exact h.clear hidle hplace
    · rw [sliceIdle_eq (not_exists.mp hexecuting) (not_exists.mp hdealloc)] at hstep
      obtain ⟨s₁, hsys, heq⟩ := Option.map_eq_some_iff.mp hstep
      obtain ⟨rfl, rfl⟩ := Prod.mk.inj heq
      rw [hstage]
      refine hplain ⟨fun r b hr hb => ?_, fun r b hr hb => ?_⟩ hsys
      · obtain rfl : q = r := Option.some.inj hr
        exact absurd ⟨b, hb⟩ hexecuting
      · obtain rfl : q = r := Option.some.inj hr
        exact absurd ⟨b, hb⟩ hdealloc

/-- One statement of `q`. -/
theorem Tenure.sliceGo (h : Tenure s stage) (hstep : sliceGo L hd q inp s (stage q) = some (s', at')) :
    Tenure s' (Function.update stage q at') := by
  cases hst : stage q with
  | idle =>
    rw [hst] at hstep
    exact h.sliceIdle hst hstep
  | allocated a u =>
    rw [hst] at hstep
    obtain ⟨rfl, rfl⟩ := Prod.mk.inj (Option.some.inj hstep)
    refine h.write (by rw [hst]; rfl) rfl rfl (fun b hb => ?_) (fun b v hb => ?_) fun v hv => asid_initSupport_ne s.vm a hv
    · exact (h.stages q).accepted b (by rw [hst]; exact hb)
    · obtain ⟨rfl, rfl⟩ := Stage.initialised.inj hb
      simp [Vm.asid, Vm.initSupport, initSupportStructure]
  | initialised a u =>
    rw [hst] at hstep
    unfold MultiPandOS.sliceGo at hstep
    by_cases hfail : inp.status = -1
    · simp only [if_pos hfail] at hstep
      obtain ⟨rfl, rfl⟩ := Prod.mk.inj (Option.some.inj hstep)
      have hsame : Tenure (s.setVm s.vm) (Function.update stage q (.refused u)) :=
        h.write (by rw [hst]; rfl) rfl rfl (fun _ hb => by cases hb) (fun _ _ hb => by cases hb) fun _ _ => rfl
      exact hsame
    · simp only [if_neg hfail] at hstep
      obtain ⟨rfl, rfl⟩ := Prod.mk.inj (Option.some.inj hstep)
      exact h.create hst
  | refused u =>
    rw [hst] at hstep
    obtain ⟨rfl, rfl⟩ := Prod.mk.inj (Option.some.inj hstep)
    exact h.write (by rw [hst]; rfl) rfl rfl (fun _ hb => by cases hb) (fun _ _ hb => by cases hb)
      fun v hv => asid_setAsid_ne s.vm 0 hv
  | cleared u =>
    rw [hst] at hstep
    obtain ⟨rfl, rfl⟩ := Prod.mk.inj (Option.some.inj hstep)
    exact h.giveBack hst
  | freed =>
    rw [hst] at hstep
    obtain ⟨rfl, rfl⟩ := Prod.mk.inj (Option.some.inj hstep)
    exact h.resume hst
  | released =>
    rw [hst] at hstep
    obtain ⟨asid, hplace⟩ := (h.stages q).released hst
    simp only [MultiPandOS.sliceGo, hplace] at hstep
    obtain ⟨rfl, rfl⟩ := Prod.mk.inj (Option.some.inj hstep)
    exact h.release hst hplace

/-- The code of a U-proc goes on. -/
theorem Tenure.user (h : Tenure s stage) (hactor : e.actor = some q) (hplace : (s.proc q).place = .code .user)
    (hstep : sysStep L hd e s = some s') : Tenure s' stage := by
  have hself : ∀ r, e.actor = some r → (s.proc r).place = .code .user := by
    intro r hr
    obtain rfl : q = r := Option.some.inj (hactor.symm.trans hr)
    exact hplace
  refine h.plain ⟨fun r asid hr hb => ?_, fun r asid hr hb => ?_⟩ (fun r hr => ?_) hstep
  · rw [hself r hr] at hb
    cases hb
  · rw [hself r hr] at hb
    cases hb
  · have hok := h.stages r
    cases hst : stage r with
    | idle => rfl
    | released =>
      obtain ⟨asid, hb⟩ := hok.released hst
      rw [hself r hr] at hb
      cases hb
    | _ =>
      obtain ⟨-, asid, hb⟩ := hok.executing (by rw [hst]; rfl)
      rw [hself r hr] at hb
      cases hb

/-- The machine is booting with one structure taken off the list, or it is up. -/
def Sliced.Ok (hd : Handlers) (vm₀ : Vm) : Sliced → Prop
  | .boot u supportFree vm initialised =>
    (u :: supportFree).Nodup ∧ (∀ v, v ∈ u :: supportFree) ∧
      vm = if initialised then (initSwapStructs {vm₀ with frameIndex := 0, tlb := fun _ => ⟨0, 0⟩}).initSupport hd u SHELL_ASID
        else initSwapStructs {vm₀ with frameIndex := 0, tlb := fun _ => ⟨0, 0⟩}
  | .up s stage => Tenure s stage

theorem Started.tenure {vm₀ : Vm} {u : SupPtr} (h : Started hd vm₀ u s) (hall : ∀ v, v ∈ u :: s.supportFree) :
    Tenure s fun _ => .idle := by
  refine ⟨h.orderly, fun r => .idle s r, fun _ v => ?_⟩
  obtain rfl | hfree := List.mem_cons.mp (hall v)
  · exact .inr (.inl ⟨shellNo, by rw [h.shell]; rfl, by rw [h.shell]⟩)
  · exact .inl hfree

theorem Sliced.Ok.step {vm₀ : Vm} {f f' : Sliced} (h : f.Ok hd vm₀) (hstep : slicedStep L hd e f = some f') :
    f'.Ok hd vm₀ := by
  cases f with
  | boot u supportFree vm initialised =>
    obtain ⟨hnodup, hall, hvm⟩ := h
    cases e with
    | test =>
      cases initialised with
      | false =>
        obtain rfl := Option.some.inj hstep
        exact ⟨hnodup, hall, by rw [hvm]; rfl⟩
      | true =>
        obtain rfl := Option.some.inj hstep
        have hstarted : Started hd vm₀ u (Sys.shell u supportFree vm) :=
          ⟨hvm, hnodup, rfl, ⟨rfl, rfl⟩, rfl, fun r hr => by simp only [Sys.shell, if_neg hr], rfl,
            rfl⟩
        exact hstarted.tenure hall
    | _ => cases hstep
  | up s stage =>
    cases e with
    | go q inp =>
      obtain ⟨⟨s', at'⟩, hgo, rfl⟩ := Option.map_eq_some_iff.mp hstep
      exact Tenure.sliceGo h hgo
    | access r va value inp =>
      obtain ⟨s', hsys, rfl⟩ := Option.map_eq_some_iff.mp hstep
      by_cases hplace : (s.proc r).place = .code .user
      · exact Tenure.user h rfl hplace hsys
      · rw [sysStep, if_neg hplace] at hsys
        cases hsys
    | trap r st =>
      obtain ⟨s', hsys, rfl⟩ := Option.map_eq_some_iff.mp hstep
      by_cases hplace : (s.proc r).place = .code .user
      · exact Tenure.user h rfl hplace hsys
      · rw [sysStep, if_neg fun hk => hplace hk.1] at hsys
        cases hsys
    | test =>
      obtain ⟨s', hsys, rfl⟩ := Option.map_eq_some_iff.mp hstep
      exact Tenure.plain h ⟨fun _ _ ha => (by cases ha), fun _ _ ha => (by cases ha)⟩ (fun _ ha => by cases ha) hsys

theorem sliced_start_ok {vm₀ : Vm} {f : Sliced} (hstart : Sliced.start vm₀ = some f) : f.Ok hd vm₀ := by
  obtain ⟨⟨u, supportFree⟩, hpop, rfl⟩ := Option.map_eq_some_iff.mp hstart
  have hcons := allocateSupport_eq_some hpop
  refine ⟨?_, fun v => ?_, rfl⟩
  · rw [← hcons]
    decide
  · rw [← hcons]
    revert v
    decide

theorem Sliced.Ok.owned_iff {vm₀ : Vm} {f : Sliced} (h : f.Ok hd vm₀) (hup : f.halted = false) :
    (∀ u, f.Owned u) ↔ ∀ q, ¬ f.lingers q := by
  cases f with
  | up s stage => exact Tenure.owned_iff h (of_decide_eq_false hup)
  | boot u supportFree vm initialised =>
    obtain ⟨hnodup, hall, -⟩ := h
    obtain ⟨hnot, hnodup⟩ := List.nodup_cons.mp hnodup
    refine ⟨fun _ _ => id, fun _ v => ?_⟩
    obtain rfl | hfree := List.mem_cons.mp (hall v)
    · refine .inr (.inr ⟨hnot, fun _ => id, none, rfl, fun c hc => ?_⟩)
      cases c with
      | none => rfl
      | some c => exact hc.elim
    · refine .inl ⟨List.count_eq_one_of_mem hnodup hfree, fun _ => id, fun c hc => ?_⟩
      cases c with
      | none =>
        obtain rfl : u = v := hc
        exact hnot hfree
      | some c => exact hc

/-- **Exclusive ownership**, between any two statements of every run until the machine
halts: every support structure has one owner if and only if no live U-proc is between
its `deallocateSupport` and the end of its TERMPROCESS. -/
theorem run_ownership {L : PoolLayout} {hd : Handlers} {vm : Vm} {f₀ f : Sliced} {es : List SysEvent}
    (hstart : Sliced.start vm = some f₀) (hrun : Run (slicedStep L hd) (fun _ _ => True) f₀ es f) (hup : f.halted = false) :
    (∀ u, f.Owned u) ↔ ∀ q, ¬ f.lingers q := by
  have hok : f.Ok hd vm := hrun.invariant (Sliced.Ok hd vm) (sliced_start_ok hstart) fun _ _ _ h _ hstep => h.step hstep
  exact hok.owned_iff hup

end Runs

namespace SysSample

/-- `test` with the structure of the shell. -/
def sliced : Sliced := (Sliced.start vm).get rfl

theorem sliced_eq : Sliced.start vm = some sliced := (Option.some_get _).symm

/-- `p` holds of the support level. -/
def meets (p : Sys → Bool) : Sliced → Bool
  | .boot _ _ _ _ => false
  | .up s _ => p s

/-- `test` starts the shell, and the shell launches program 2. -/
def launched : List SysEvent := [.test, .test] ++ call 0 6 2 ++ goes 0 3 0

/-- The program terminates up to its TERMPROCESS, and the shell launches another one. -/
def relaunched : List SysEvent := launched ++ call 1 2 0 ++ goes 1 6 0 ++ goes 0 1 0 ++ call 0 6 3 ++ goes 0 3 0

end SysSample

open SysSample in
theorem run_ownership_sample :
    ∃ f, exec (slicedStep layout handlers) launched sliced = some f ∧ f.halted = false ∧
      ((∀ u, f.Owned u) ↔ ∀ q, ¬ f.lingers q) := by
  have hfollows : Follows (slicedStep layout handlers) (fun _ _ => True) launched sliced := by
    decide +kernel
  obtain ⟨f, hexec, hrun⟩ := hfollows.run
  have hup : (exec (slicedStep layout handlers) launched sliced).all (fun f => f.halted = false) = true := by
    decide +kernel
  rw [hexec] at hup
  exact ⟨f, hexec, of_decide_eq_true hup, run_ownership sliced_eq hrun (of_decide_eq_true hup)⟩

open SysSample in
/-- The program that terminates and the one launched after it share a structure. -/
theorem shared_support :
    Sliced.start vm = some sliced ∧
      ∃ s stage, Run (slicedStep layout handlers) (fun _ _ => True) sliced relaunched (.up s stage) ∧
        (s.proc 1).place = .terminate .die 2 ∧ (s.proc 2).place = .code .user ∧ (s.proc 1).sup = (s.proc 2).sup ∧
        ¬ ∀ u, (Sliced.up s stage).Owned u := by
  have hfollows : Follows (slicedStep layout handlers) (fun _ _ => True) relaunched sliced := by
    decide +kernel
  obtain ⟨f, hexec, hrun⟩ := hfollows.run
  have hboth : (exec (slicedStep layout handlers) relaunched sliced).all (meets fun s =>
      (s.proc 1).place = .terminate .die 2 ∧ (s.proc 2).place = .code .user ∧ (s.proc 1).sup = (s.proc 2).sup) = true := by
    decide +kernel
  rw [hexec] at hboth
  cases f with
  | boot u supportFree vm initialised => cases hboth
  | up s stage =>
    obtain ⟨hone, htwo, hsup⟩ := of_decide_eq_true hboth
    refine ⟨sliced_eq, s, stage, hrun, hone, htwo, hsup, fun howned => ?_⟩
    have hrefers1 : (Sliced.up s stage).refers 1 (s.proc 2).sup := ⟨by simp [hone], hsup⟩
    have hrefers2 : (Sliced.up s stage).refers 2 (s.proc 2).sup := ⟨by simp [htwo], rfl⟩
    obtain ⟨-, hnone, -⟩ | ⟨-, hunique, -⟩ | ⟨-, hnone, -⟩ := howned (s.proc 2).sup
    · exact hnone 1 hrefers1
    · exact absurd (hunique.unique hrefers1 hrefers2) (by decide)
    · exact hnone 1 hrefers1

end MultiPandOS
