import MultiPandOS.Support.Owners

/-! The control flow of the support level.

`Flow` lists the ways of a U-proc from one place to the next: what it does to a
semaphore, and what becomes of the state that the general exception handler works on.
`sysStep_stepped` shows that a step is one of them, unless a program is created, somebody
is terminated or `test` goes on. Everything about who waits, who holds a semaphore and
with which state a system call returns is read off this list. -/
namespace MultiPandOS

/-- What a step does to the semaphores. -/
inductive Doing where
  | nothing
  | passeren (x : Sem)
  | verhogen (x : Sem)

namespace Doing

def Allowed (sem : Sem → Int) : Doing → Prop
  | .passeren x => 0 < sem x
  | _ => True

def apply (sem : Sem → Int) : Doing → Sem → Int
  | .nothing => sem
  | .passeren x => Function.update sem x (sem x - 1)
  | .verhogen x => Function.update sem x (sem x + 1)

end Doing

/-- The way of a U-proc with `sup_asid` `asid` and the saved state `st`, one that finds
`c` where `loads va c`. -/
inductive Flow (loads : Addr → Word → Prop) (asid : Word) (st : State) :
    Place → Doing → State → Place → Prop where
  | stay {k} : Flow loads asid st (.code k) .nothing st (.code k)
  | fault {k} : Flow loads asid st (.code k) .nothing st (.fault k)
  | trap {st'} : Flow loads asid st (.code .user) .nothing st' .general
  | stray {k} {st' : State} : st'.cause = LOADFAULT → Flow loads asid st (.code k) .nothing st' .general
  | modified {k} : Flow loads asid st (.fault k) .nothing st (.terminate .lock asid)
  | enter {k} : Flow loads asid st (.fault k) (.passeren .swapPoolSemaphore) st (.pager .locked k)
  | work {p p' k} : Flow loads asid st (.pager p k) .nothing st (.pager p' k)
  | resume {k} : Flow loads asid st (.pager .published k) (.verhogen .swapPoolSemaphore) st (.code k)
  | fail {a k} : Flow loads asid st (.pager (.failed a) k) (.verhogen .swapPoolSemaphore) st (.terminate .lock a)
  | refuse : Flow loads asid st .general .nothing st (.terminate .lock asid)
  | write : st.asksFor WRITETERMINAL → ¬ badWrite st → Flow loads asid st .general .nothing st .writeLock
  | read : st.asksFor READTERMINAL → Flow loads asid st .general .nothing st (.readLock asid)
  | execute : st.asksFor EXECUTE → Flow loads asid st .general .nothing st (.executing asid)
  | writeEnter : Flow loads asid st .writeLock (.passeren .terminalWriteSem) st (.code (.writing 0))
  | send {i : Nat} {c} : (i : Int) < st.regA2.toInt → loads (st.regA1 + BitVec.ofNat 32 i) c →
      Flow loads asid st (.code (.writing i)) .nothing st (.writeIo i ((c <<< 8) ||| TRANSMITCHAR))
  | writeEnd {i : Nat} : ¬ (i : Int) < st.regA2.toInt →
      Flow loads asid st (.code (.writing i)) .nothing (st.setA0 st.regA2) .writeDone
  | writeError {i c w} : Flow loads asid st (.writeIo i c) .nothing (st.setA0 w) .writeDone
  | writeNext {i c} : Flow loads asid st (.writeIo i c) .nothing st (.code (.writing (i + 1)))
  | writeLeave : Flow loads asid st .writeDone (.verhogen .terminalWriteSem) st.advance (.code .user)
  | readEnter {a} : Flow loads asid st (.readLock a) (.passeren .terminalReadSem) st (.readLoop a 0)
  | receive {a n} : Flow loads asid st (.readLoop a n) .nothing st (.readIo a n)
  | overrun {a n} : Flow loads asid st (.readLoop a n) .nothing st (.readAbort a)
  | readError {a n w} : Flow loads asid st (.readIo a n) .nothing (st.setA0 w) .readDone
  | readByte {a n c} : Flow loads asid st (.readIo a n) .nothing st (.code (.reading a n c))
  | readNext {a n c} : Flow loads asid st (.code (.reading a n c)) .nothing st (.readLoop a (n + 1))
  | readEnd {a n c w} : Flow loads asid st (.code (.reading a n c)) .nothing (st.setA0 w) .readDone
  | readLeave : Flow loads asid st .readDone (.verhogen .terminalReadSem) st.advance (.code .user)
  | abort {a} : Flow loads asid st (.readAbort a) (.verhogen .terminalReadSem) st (.terminate .lock a)
  | executeRefused {a} : Flow loads asid st (.executing a) .nothing st (.terminate .lock a)
  | executeFailed {a} : Flow loads asid st (.executing a) .nothing (st.setA0 (-1)).advance (.code .user)
  | wake : Flow loads asid st .waitShell (.passeren .shellSemaphore) st.advance (.code .user)
  | lock {a} : Flow loads asid st (.terminate .lock a) (.passeren .swapPoolSemaphore) st (.terminate .free a)
  | free {a} : Flow loads asid st (.terminate .free a) .nothing st (.terminate .unlock a)
  | unlock {a} : Flow loads asid st (.terminate .unlock a) (.verhogen .swapPoolSemaphore) st (.terminate .dealloc a)
  | dealloc {a} : Flow loads asid st (.terminate .dealloc a) .nothing st (.terminate .signal a)
  | signal {a} : Flow loads asid st (.terminate .signal a)
      (.verhogen (if a = SHELL_ASID then .masterSemaphore else .shellSemaphore)) st (.terminate .die a)

/-- The state that the general exception handler of `u` works on. -/
def Vm.general (vm : Vm) (u : SupPtr) : State := (vm.supportPool u).supExceptState GENERALEXCEPT

/-- A load of `q` at `va` finds `c`. -/
def Sys.loads (L : PoolLayout) (s : Sys) (q : Nat) (va : Addr) (c : Word) : Prop :=
  ∃ lo, lookup (accessHi (s.proc q).asid va) s.vm = .hit lo ∧ c = loadByte L lo va s.vm

/-- `q` has gone to `place`, has done `d` and has `st` saved; nobody else has anything
else saved. -/
structure Goes (q : Nat) (d : Doing) (st : State) (place : Place) (s s' : Sys) : Prop extends Moved q place s s' where
  sem : s'.sem = d.apply s.sem
  general : s'.vm.general = Function.update s.vm.general (s.proc q).sup st

/-- What each event can be. -/
inductive Stepped (L : PoolLayout) (h : Handlers) (s : Sys) : SysEvent → Sys → Prop where
  | flow {e q d st place s'} (actor : e.actor = some q)
      (flow : Flow (s.loads L q) (s.vm.asid (s.proc q).sup) (s.state q) (s.proc q).place d st place)
      (allowed : d.Allowed s.sem) (goes : Goes q d st place s s') : Stepped L h s e s'
  | die {q inp asid} (old : (s.proc q).place = .terminate .die asid) : Stepped L h s (.go q inp) (termprocess q s)
  | create {q inp asid newAsid u supportFree} (old : (s.proc q).place = .executing asid)
      (arg : newAsid = (s.state q).regA1) (accepted : ¬ badExecute asid newAsid)
      (popped : allocateSupport s.supportFree = some (u, supportFree)) (created : inp.status ≠ -1) :
      Stepped L h s (.go q inp)
        (({s.setVm (s.vm.initSupport h u newAsid) with supportFree := supportFree}.create u newAsid).goto q .waitShell)
  | await {s₁} (old : s.test = .waiting) (pass : s.passeren .masterSemaphore = some s₁) :
      Stepped L h s .test {s₁ with test := .dying}
  | kill (old : s.test = .dying) :
      Stepped L h s .test {s with proc := fun r => {s.proc r with place := .absent}, test := .gone}

/-! ### The pieces of a step -/

section Pieces
variable {q : Nat} {d : Doing} {st : State} {place : Place} {s s' s'' : Sys}

theorem Goes.refl (q : Nat) (s : Sys) : Goes q .nothing (s.state q) (s.proc q).place s s :=
  ⟨(Quiet.refl q s).toMoved, rfl, (Function.update_eq_self _ _).symm⟩

theorem Goes.goto (h : Goes q d st place s s') (place' : Place) : Goes q d st place' s (s'.goto q place') :=
  ⟨h.toMoved.goto place', h.sem, h.general⟩

/-- Nothing that is saved changes. -/
theorem Goes.setVm (h : Goes q d st place s s') {vm : Vm} (hvm : vm.general = s'.vm.general) :
    Goes q d st place s (s'.setVm vm) :=
  ⟨⟨h.proc, h.next, h.test⟩, h.sem, hvm.trans h.general⟩

theorem Goes.setFree (h : Goes q d st place s s') (supportFree : List SupPtr) :
    Goes q d st place s {s' with supportFree := supportFree} :=
  ⟨⟨h.proc, h.next, h.test⟩, h.sem, h.general⟩

theorem general_setState (q : Nat) (i : Fin 2) (st : State) (s : Sys) : (s.setState q i st).vm.general =
    if i = GENERALEXCEPT then Function.update s.vm.general (s.proc q).sup st else s.vm.general := by
  funext u
  by_cases hu : u = (s.proc q).sup
  · subst hu
    by_cases hi : i = GENERALEXCEPT
    · simp [Vm.general, Sys.setState, hi]
    · simp [Vm.general, Sys.setState, hi, Ne.symm hi]
  · by_cases hi : i = GENERALEXCEPT
    · simp [Vm.general, Sys.setState, hi, hu]
    · simp [Vm.general, Sys.setState, hi, hu]

theorem Goes.sup (h : Goes q d st place s s') : (s'.proc q).sup = (s.proc q).sup := h.toMoved.sup q

theorem Goes.state (h : Goes q d st place s s') : s'.state q = st := by
  show s'.vm.general (s'.proc q).sup = st
  rw [h.sup, h.general, Function.update_self]

theorem Goes.setState (h : Goes q d st place s s') (st' : State) :
    Goes q d st' place s (s'.setState q GENERALEXCEPT st') := by
  refine ⟨⟨h.proc, h.next, h.test⟩, h.sem, ?_⟩
  rw [general_setState, if_pos rfl, h.sup, h.general, Function.update_idem]

/-- The state that a page fault saves. -/
theorem Goes.setFault (h : Goes q d st place s s') (st' : State) :
    Goes q d st place s (s'.setState q PGFAULTEXCEPT st') := by
  refine ⟨⟨h.proc, h.next, h.test⟩, h.sem, ?_⟩
  rw [general_setState, if_neg (by decide), h.general]

theorem Goes.setA0 (h : Goes q d st place s s') (w : Word) : Goes q d (st.setA0 w) place s (s'.setA0 q w) := by
  show Goes q d (st.setA0 w) place s (s'.setState q GENERALEXCEPT ((s'.state q).setA0 w))
  rw [h.state]
  exact h.setState _

theorem Goes.ldst (h : Goes q d st place s s') : Goes q d st.advance (.code .user) s (s'.ldst q) := by
  show Goes q d st.advance (.code .user) s ((s'.setState q GENERALEXCEPT (s'.state q).advance).goto q (.code .user))
  rw [h.state]
  exact (h.setState _).goto _

theorem Goes.passeren (h : Goes q .nothing st place s s') {x : Sem} (hpass : s'.passeren x = some s'') :
    0 < s.sem x ∧ Goes q (.passeren x) st place s s'' := by
  obtain ⟨hpos, rfl⟩ := passeren_eq_some hpass
  rw [h.sem] at hpos
  exact ⟨hpos, ⟨h.proc, h.next, h.test⟩, by rw [h.sem]; rfl, h.general⟩

theorem Goes.verhogen (h : Goes q .nothing st place s s') (x : Sem) :
    Goes q (.verhogen x) st place s (s'.verhogen x) := by
  refine ⟨⟨h.proc, h.next, h.test⟩, ?_, h.general⟩
  show Function.update s'.sem x (s'.sem x + 1) = Function.update s.sem x (s.sem x + 1)
  rw [h.sem]
  rfl

end Pieces

namespace Vm

theorem general_setPte (k : PtePtr) (e : PteEntry) (vm : Vm) : (vm.setPte k e).general = vm.general := by
  funext u
  by_cases hu : u = k.1
  · simp [general, setPte, hu]
  · simp [general, setPte, hu]

theorem general_setAsid (u : SupPtr) (asid : Word) (vm : Vm) : (vm.setAsid u asid).general = vm.general := by
  funext v
  by_cases hv : v = u
  · simp [general, setAsid, hv]
  · simp [general, setAsid, hv]

theorem general_initSupport (h : Handlers) (u : SupPtr) (asid : Word) (vm : Vm) :
    (vm.initSupport h u asid).general = vm.general := by
  funext v
  by_cases hv : v = u
  · simp [general, initSupport, initSupportStructure, hv]
  · simp [general, initSupport, hv]

end Vm

theorem general_storeWord (L : PoolLayout) (lo : Word) (w : Fin 1024) (v : Word) (vm : Vm) :
    (storeWord L lo w v vm).general = vm.general := by
  unfold storeWord
  split <;> rfl

theorem general_storeByte (L : PoolLayout) (lo : Word) (va : Addr) (c : Word) (vm : Vm) :
    (storeByte L lo va c vm).general = vm.general := by
  unfold storeByte
  split
  · exact general_storeWord L lo _ _ vm
  · rfl

theorem Goes.storeByte {q : Nat} {d : Doing} {st : State} {place : Place} {s s' : Sys} (h : Goes q d st place s s')
    (L : PoolLayout) (lo : Word) (va : Addr) (c : Word) :
    Goes q d st place s (s'.setVm (storeByte L lo va c s'.vm)) :=
  h.setVm (general_storeByte L lo va c s'.vm)

/-- The pager leaves the saved states and the ASIDs alone. -/
theorem pagerStep_support {L : PoolLayout} {u : SupPtr} {a : Answer} {place place' : PagerAt} {vm vm' : Vm}
    (hstep : pagerStep L u a place vm = some (place', vm')) :
    vm'.general = vm.general ∧ ∀ v, vm'.asid v = vm.asid v := by
  cases pagerStep_effect hstep with
  | @evict p f k occupied record =>
    refine ⟨?_, asid_invalidate k vm⟩
    obtain ⟨tlb, htlb⟩ := invalidate_eq k vm
    rw [htlb]
    exact Vm.general_setPte k _ vm
  | @publish p f =>
    refine ⟨?_, asid_publish u p f a.slot⟩
    obtain ⟨tlb, htlb⟩ := publish_eq L u p f a.slot vm
    rw [htlb]
    exact Vm.general_setPte (u, p) _ (vm.setSwap f _)
  | _ => exact ⟨rfl, fun _ => rfl⟩

/-! ### Every step -/

section Inversion
variable {L : PoolLayout} {h : Handlers} {q : Nat} {s s' : Sys} {e : SysEvent} {inp : Input}

/-- The ways of `q` from here. -/
def Sys.Way (L : PoolLayout) (s : Sys) (q : Nat) (place : Place) : Doing → State → Place → Prop :=
  Flow (s.loads L q) (s.vm.asid (s.proc q).sup) (s.state q) place

theorem Stepped.way {place : Place} {d : Doing} {st : State} {place' : Place} (actor : e.actor = some q)
    (hplace : (s.proc q).place = place) (hway : s.Way L q place d st place') (hd : d.Allowed s.sem)
    (hgoes : Goes q d st place' s s') : Stepped L h s e s' := by
  subst hplace
  exact .flow actor hway hd hgoes

theorem touch_stepped {k : Code} {va : Addr} {done : Word → Sys} (actor : e.actor = some q)
    (hk : (s.proc q).place = .code k)
    (hdone : ∀ lo, lookup (accessHi (s.proc q).asid va) s.vm = .hit lo → Stepped L h s e (done lo))
    (hstep : touch q k va inp done s = some s') : Stepped L h s e s' := by
  have hstay : Goes q .nothing (s.state q) (.code k) s s := hk ▸ Goes.refl q s
  obtain ⟨p, -, -, rfl⟩ | ⟨-, -, rfl⟩ | ⟨-, rfl⟩ | ⟨lo, hlook, rfl⟩ := touch_cases hstep
  · exact .way actor hk .stay trivial (hstay.setVm rfl)
  · obtain ⟨-, hs⟩ | ⟨-, hs⟩ := strayRefill_cases q inp s
    · rw [hs]
      exact .way actor hk (.stray rfl) trivial ((hstay.setState _).goto .general)
    · rw [hs]
      exact .way actor hk .stay trivial hstay
  · exact .way actor hk .fault trivial ((hstay.setFault _).goto _)
  · exact hdone lo hlook

theorem writeChar_stepped {i : Nat} (hk : (s.proc q).place = .code (.writing i))
    (hstep : writeChar L q i inp s = some s') : Stepped L h s (.go q inp) s' := by
  have hrefl := Goes.refl q s
  unfold writeChar at hstep
  by_cases hi : (i : Int) < ((s.state q).regA2).toInt
  · rw [if_pos hi] at hstep
    refine touch_stepped rfl hk (fun lo hlook => ?_) hstep
    exact .way rfl hk (.send hi ⟨lo, hlook, rfl⟩) trivial (hrefl.goto _)
  · rw [if_neg hi] at hstep
    obtain rfl := Option.some.inj hstep
    exact .way rfl hk (.writeEnd hi) trivial ((hrefl.setA0 _).goto _)

theorem readChar_stepped {asid : Word} {len : Nat} {character : Word}
    (hk : (s.proc q).place = .code (.reading asid len character))
    (hstep : readChar L q asid len character inp s = some s') : Stepped L h s (.go q inp) s' := by
  have hstored : ∀ lo, Goes q .nothing (s.state q) (s.proc q).place s
      (s.setVm (storeByte L lo (bufferAddr q len s) character s.vm)) :=
    fun lo => (Goes.refl q s).storeByte L lo _ _
  unfold readChar at hstep
  by_cases hend : character = 10
  · simp only [if_pos hend] at hstep
    refine touch_stepped rfl hk (fun lo _ => ?_) hstep
    exact .way rfl hk .readEnd trivial (((hstored lo).setA0 _).goto _)
  · simp only [if_neg hend] at hstep
    refine touch_stepped rfl hk (fun lo _ => ?_) hstep
    exact .way rfl hk .readNext trivial ((hstored lo).goto _)

theorem handleException_stepped (hk : (s.proc q).place = .general) :
    Stepped L h s (.go q inp) (handleException q s) := by
  have hrefl := Goes.refl q s
  obtain hs | ⟨ha, hbad, hs⟩ | ⟨ha, hs⟩ | ⟨ha, hs⟩ := handleException_cases q s
  · rw [hs]
    exact .way rfl hk .refuse trivial (hrefl.goto _)
  · rw [hs]
    exact .way rfl hk (.write ha hbad) trivial (hrefl.goto _)
  · rw [hs]
    exact .way rfl hk (.read ha) trivial (hrefl.goto _)
  · rw [hs]
    exact .way rfl hk (.execute ha) trivial (hrefl.goto _)

theorem enterPager_stepped {k : Code} (hk : (s.proc q).place = .fault k) (hstep : enterPager q k s = some s') :
    Stepped L h s (.go q inp) s' := by
  have hrefl := Goes.refl q s
  obtain rfl | ⟨s₁, hpass, rfl⟩ := enterPager_cases hstep
  · exact .way rfl hk .modified trivial (hrefl.goto _)
  · obtain ⟨hpos, hgoes⟩ := hrefl.passeren hpass
    exact .way rfl hk .enter hpos (hgoes.goto _)

theorem runPager_stepped {k : Code} {place : PagerAt} (hk : (s.proc q).place = .pager place k)
    (hstep : runPager L q k inp.toAnswer s place = some s') : Stepped L h s (.go q inp) s' := by
  have hrefl := Goes.refl q s
  cases place with
  | published =>
    obtain rfl := Option.some.inj hstep
    exact .way rfl hk .resume trivial ((hrefl.verhogen _).goto _)
  | failed asid =>
    obtain rfl := Option.some.inj hstep
    exact .way rfl hk .fail trivial ((hrefl.verhogen _).goto _)
  | _ =>
    simp only [runPager] at hstep
    obtain ⟨⟨place', vm⟩, hr, rfl⟩ := Option.map_eq_some_iff.mp hstep
    exact .way rfl hk .work trivial ((hrefl.setVm (pagerStep_support hr).1).goto _)

theorem terminateSys_stepped {asid : Word} {step : TermAt} (hk : (s.proc q).place = .terminate step asid)
    (hstep : terminateSys q asid s step = some s') : Stepped L h s (.go q inp) s' := by
  have hrefl := Goes.refl q s
  cases step with
  | lock =>
    obtain ⟨s₁, hpass, rfl⟩ := Option.map_eq_some_iff.mp hstep
    obtain ⟨hpos, hgoes⟩ := hrefl.passeren hpass
    exact .way rfl hk .lock hpos (hgoes.goto _)
  | free =>
    obtain rfl := Option.some.inj hstep
    have hfreed : (freeSwapFrames asid s.vm).general = s.vm.general := rfl
    exact .way rfl hk .free trivial ((hrefl.setVm hfreed).goto _)
  | unlock =>
    obtain rfl := Option.some.inj hstep
    exact .way rfl hk .unlock trivial ((hrefl.verhogen _).goto _)
  | dealloc =>
    obtain rfl := Option.some.inj hstep
    exact .way rfl hk .dealloc trivial (((hrefl.setVm (Vm.general_setAsid _ 0 _)).setFree _).goto _)
  | signal =>
    obtain rfl := Option.some.inj hstep
    exact .way rfl hk .signal trivial ((hrefl.verhogen _).goto _)
  | die =>
    obtain rfl := Option.some.inj hstep
    exact .die hk

theorem executeSys_stepped {asid : Word} (hk : (s.proc q).place = .executing asid) :
    Stepped L h s (.go q inp) (executeSys h q asid inp.status s) := by
  have hrefl := Goes.refl q s
  obtain ⟨-, hs⟩ | ⟨-, -, hs⟩ | ⟨u, supportFree, -, -, -, hs⟩ | ⟨u, supportFree, hgood, hfree, hok, hs⟩ :=
    executeSys_cases h q asid inp.status s
  · rw [hs]
    exact .way rfl hk .executeRefused trivial (hrefl.goto _)
  · rw [hs]
    exact .way rfl hk .executeFailed trivial (hrefl.setA0 _).ldst
  · have hinit : ((s.vm.initSupport h u (s.state q).regA1).setAsid u 0).general = s.vm.general :=
      (Vm.general_setAsid u 0 _).trans (Vm.general_initSupport h u _ s.vm)
    rw [hs]
    exact .way rfl hk .executeFailed trivial
      (((hrefl.setVm hinit).setFree (deallocateSupport u supportFree)).setA0 (-1)).ldst
  · rw [hs]
    exact .create hk rfl hgood (by rw [hfree]; rfl) hok

theorem proceed_stepped (hstep : proceed L h q inp s = some s') : Stepped L h s (.go q inp) s' := by
  have hrefl := Goes.refl q s
  unfold proceed at hstep
  cases hplace : (s.proc q).place with
  | absent => simp [hplace] at hstep
  | code k =>
    cases k with
    | user => simp [hplace] at hstep
    | writing i => exact writeChar_stepped hplace (by simpa only [hplace] using hstep)
    | reading asid len character => exact readChar_stepped hplace (by simpa only [hplace] using hstep)
  | fault k => exact enterPager_stepped hplace (by simpa only [hplace] using hstep)
  | pager place k => exact runPager_stepped hplace (by simpa only [hplace] using hstep)
  | general =>
    simp only [hplace] at hstep
    obtain rfl := Option.some.inj hstep
    exact handleException_stepped hplace
  | writeLock =>
    simp only [hplace] at hstep
    obtain ⟨s₁, hpass, rfl⟩ := Option.map_eq_some_iff.mp hstep
    obtain ⟨hpos, hgoes⟩ := hrefl.passeren hpass
    exact .way rfl hplace .writeEnter hpos (hgoes.goto _)
  | writeIo i command =>
    simp only [hplace] at hstep
    obtain rfl := Option.some.inj hstep
    unfold writeStatus
    split
    · exact .way rfl hplace .writeError trivial ((hrefl.setA0 _).goto _)
    · exact .way rfl hplace .writeNext trivial (hrefl.goto _)
  | writeDone =>
    simp only [hplace] at hstep
    obtain rfl := Option.some.inj hstep
    exact .way rfl hplace .writeLeave trivial (hrefl.verhogen _).ldst
  | readLock asid =>
    simp only [hplace] at hstep
    obtain ⟨s₁, hpass, rfl⟩ := Option.map_eq_some_iff.mp hstep
    obtain ⟨hpos, hgoes⟩ := hrefl.passeren hpass
    exact .way rfl hplace .readEnter hpos (hgoes.goto _)
  | readLoop asid len =>
    simp only [hplace] at hstep
    obtain rfl := Option.some.inj hstep
    unfold readLoop
    split
    · exact .way rfl hplace .overrun trivial (hrefl.goto _)
    · exact .way rfl hplace .receive trivial (hrefl.goto _)
  | readIo asid len =>
    simp only [hplace] at hstep
    obtain rfl := Option.some.inj hstep
    unfold readStatus
    split
    · exact .way rfl hplace .readError trivial ((hrefl.setA0 _).goto _)
    · exact .way rfl hplace .readByte trivial (hrefl.goto _)
  | readDone =>
    simp only [hplace] at hstep
    obtain rfl := Option.some.inj hstep
    exact .way rfl hplace .readLeave trivial (hrefl.verhogen _).ldst
  | readAbort asid =>
    simp only [hplace] at hstep
    obtain rfl := Option.some.inj hstep
    exact .way rfl hplace .abort trivial ((hrefl.verhogen _).goto _)
  | executing asid =>
    simp only [hplace] at hstep
    obtain rfl := Option.some.inj hstep
    exact executeSys_stepped hplace
  | waitShell =>
    simp only [hplace] at hstep
    obtain ⟨s₁, hpass, rfl⟩ := Option.map_eq_some_iff.mp hstep
    obtain ⟨hpos, hgoes⟩ := hrefl.passeren hpass
    exact .way rfl hplace .wake hpos hgoes.ldst
  | terminate step asid => exact terminateSys_stepped hplace (by simpa only [hplace] using hstep)

/-- Every step of the support level is one of these. -/
theorem sysStep_stepped (hstep : sysStep L h e s = some s') : Stepped L h s e s' := by
  cases e with
  | access q va value inp =>
    simp only [sysStep] at hstep
    split at hstep
    · rename_i hk
      refine touch_stepped rfl hk (fun lo _ => ?_) hstep
      have hstay : Goes q .nothing (s.state q) (.code .user) s s := hk ▸ Goes.refl q s
      cases value with
      | none => exact .way rfl hk .stay trivial hstay
      | some v => exact .way rfl hk .stay trivial (hstay.setVm (general_storeWord L lo _ v s.vm))
    · cases hstep
  | trap q st =>
    simp only [sysStep] at hstep
    split at hstep
    · rename_i hk
      obtain rfl := Option.some.inj hstep
      exact .way rfl hk.1 .trap trivial (((Goes.refl q s).setState st).goto .general)
    · cases hstep
  | go q inp => exact proceed_stepped hstep
  | test =>
    simp only [sysStep] at hstep
    cases htest : s.test with
    | waiting =>
      simp only [htest] at hstep
      obtain ⟨s₁, hpass, rfl⟩ := Option.map_eq_some_iff.mp hstep
      exact .await htest hpass
    | dying =>
      simp only [htest] at hstep
      obtain rfl := Option.some.inj hstep
      exact .kill htest
    | gone => simp [htest] at hstep

end Inversion

end MultiPandOS
