import MultiPandOS.Support.Causes
import MultiPandOS.Support.Reach
import MultiPandOS.Support.Terminal

/-! The terminal system calls, as the support level runs them.

A call gives up the processor at every call of the nucleus and at every access to its
buffer that faults. What is left of it then is determined by the place of its U-proc and
the state that it has saved (`Place.rest`). A step of the U-proc takes off what it does,
nobody else changes it, and so a call does in every run what `writeTerminalSys` and
`readTerminalSys` say (`run_rest`). -/
namespace MultiPandOS
open Runs

/-! ### What is left of a call -/

section Rest
variable (pg : Paging) (status : Nat → Word) (st : State)

/-- `character` is about to be stored after `len` others. -/
def readOn (len : Nat) (character : Word) : Course :=
  let next :=
    if character = 10 then leaveRead (st.setA0 (BitVec.ofNat 32 (len + 1))) else readFrom pg status st (len + 1)
  pg.before len (st.charAddr len) (next.after [.store (st.charAddr len) character])

def Code.rest : Code → Course
  | .user => ⟨[], .returned st⟩
  | .writing i => writeLoop pg status st (st.regA2.toInt.toNat - i) i
  | .reading _ len character => readOn pg status st len character

def Place.rest : Place → Course
  | .code k => k.rest pg status st
  | .fault k => k.rest pg status st
  | .pager _ k => k.rest pg status st
  | .writeLock => (writeLoop pg status st st.regA2.toInt.toNat 0).after [.passeren .terminalWriteSem]
  | .writeIo i command =>
    let next :=
      if succeeded (status i) then writeLoop pg status st (st.regA2.toInt.toNat - (i + 1)) (i + 1)
      else leaveWrite (st.setA0 (-status i))
    next.after [.transmit command (status i)]
  | .writeDone => leaveWrite st
  | .readLock _ => (readFrom pg status st 0).after [.passeren .terminalReadSem]
  | .readLoop _ len => readFrom pg status st len
  | .readIo _ len =>
    let next :=
      if succeeded (status len) then readOn pg status st len (received (status len))
      else leaveRead (st.setA0 (-status len))
    next.after [.receive (status len)]
  | .readDone => leaveRead st
  | .readAbort _ => ⟨[.verhogen .terminalReadSem], .terminated⟩
  | _ => ⟨[], .terminated⟩

variable {pg status st}

/-- The access that is due, and what follows it. -/
theorem Code.rest_access {k : Code} {i : Nat} (h : i ∈ k.access st) :
    ∃ next, k.rest pg status st = pg.before i (st.charAddr i) next := by
  cases k with
  | user => cases h
  | writing j =>
    simp only [Code.access] at h
    split at h
    · rename_i hj
      obtain rfl := Option.some.inj h
      have hleft : st.regA2.toInt.toNat - j = st.regA2.toInt.toNat - (j + 1) + 1 := by omega
      exact ⟨_, by rw [Code.rest, hleft, writeLoop]⟩
    · cases h
  | reading asid len character =>
    obtain rfl := Option.some.inj h
    exact ⟨_, rfl⟩

/-- An access that is not done is the end of the call. -/
theorem Code.rest_lost {k : Code} {i : Nat} (h : i ∈ k.access st) (hlost : pg.access i (st.charAddr i) = .lost) :
    k.rest pg status st = ⟨[], .terminated⟩ := by
  obtain ⟨next, hrest⟩ : ∃ next, k.rest pg status st = pg.before i (st.charAddr i) next := Code.rest_access h
  rw [hrest, before_lost hlost]

theorem Code.rest_endless {k : Code} {i : Nat} (h : i ∈ k.access st)
    (hendless : pg.access i (st.charAddr i) = .endless) : k.rest pg status st = ⟨[], .stuck⟩ := by
  obtain ⟨next, hrest⟩ : ∃ next, k.rest pg status st = pg.before i (st.charAddr i) next := Code.rest_access h
  rw [hrest, before_endless hendless]

end Rest

def Code.serving : Code → Bool
  | .user => false
  | _ => true

/-- In the middle of a terminal system call. -/
def Place.serving : Place → Bool
  | .code k => k.serving
  | .fault k => k.serving
  | .pager _ k => k.serving
  | .writeLock => true
  | .writeIo _ _ => true
  | .writeDone => true
  | .readLock _ => true
  | .readLoop _ _ => true
  | .readIo _ _ => true
  | .readDone => true
  | .readAbort _ => true
  | _ => false

/-! ### What a step does -/

/-- An access to the buffer that does not fault. -/
def Sys.hit (s : Sys) (q i : Nat) (act : Word → CallAct) : List CallAct :=
  match lookup (accessHi (s.proc q).asid (bufferAddr q i s)) s.vm with
  | .hit lo => [act lo]
  | _ => []

/-- The next access of `q` to its buffer. -/
def Code.acts (L : PoolLayout) (s : Sys) (q : Nat) : Code → List CallAct
  | .user => []
  | .writing i =>
    if (i : Int) < ((s.state q).regA2).toInt then
      s.hit q i fun lo => .load (bufferAddr q i s) (loadByte L lo (bufferAddr q i s) s.vm)
    else []
  | .reading _ len character => s.hit q len fun _ => .store (bufferAddr q len s) character

/-- What `q` does at its place when it goes on. -/
def Place.acts (L : PoolLayout) (s : Sys) (q : Nat) (status : Word) : Place → List CallAct
  | .code k => k.acts L s q
  | .writeLock => [.passeren .terminalWriteSem]
  | .writeIo _ command => [.transmit command status]
  | .writeDone => [.verhogen .terminalWriteSem]
  | .readLock _ => [.passeren .terminalReadSem]
  | .readIo _ _ => [.receive status]
  | .readDone => [.verhogen .terminalReadSem]
  | .readAbort _ => [.verhogen .terminalReadSem]
  | _ => []

/-- What `q` does in a step. -/
def callActs (L : PoolLayout) (q : Nat) (s : Sys) (e : SysEvent) (_ : Sys) : List CallAct :=
  match e with
  | .go r inp => if r = q then (s.proc q).place.acts L s q inp.status else []
  | _ => []

/-- The next access to the buffer is as `pg` says. -/
def Paging.Fits (pg : Paging) (L : PoolLayout) (s : Sys) (q : Nat) (k : Code) (inp : Input) : Prop :=
  ∀ i ∈ k.access (s.state q), inp.busError = pg.busError (bufferAddr q i s) ∧
    ∀ lo, lookup (accessHi (s.proc q).asid (bufferAddr q i s)) s.vm = .hit lo →
      pg.comes i = true ∧ (k = .writing i → loadByte L lo (bufferAddr q i s) s.vm = pg.mem (bufferAddr q i s))

/-- The terminal answers with `status`, and the accesses to the buffer are as in `pg`. -/
def Answered (L : PoolLayout) (pg : Paging) (status : Nat → Word) (q : Nat) (s : Sys) : SysEvent → Prop
  | .go r inp =>
    r = q →
      match (s.proc q).place with
      | .code k => pg.Fits L s q k inp
      | .writeIo i _ => inp.status = status i
      | .readIo _ len => inp.status = status len
      | .pager (.failed _) k => ∀ i ∈ k.access (s.state q), pg.comes i = false
      | _ => True
  | _ => True

/-! ### Faults -/

/-- What is paged in for a terminal system call is a page that is laid out. -/
def Sys.Faulted (s : Sys) (q : Nat) : Prop :=
  ∀ k, (s.proc q).place = .fault k ∨ (∃ p, (s.proc q).place = .pager p k) → k ≠ .user →
    ∃ i ∈ k.access (s.state q), LaidOut (bufferAddr q i s)

section Faults
variable {L : PoolLayout} {hd : Handlers} {q : Nat} {k : Code} {vm : Vm} {s₀ s s' : Sys} {e : SysEvent}
  {es : List SysEvent}

theorem Flow.faulted {loads : Addr → Word → Prop} {asid : Word} {st st' : State} {place place' : Place} {d : Doing}
    (h : Flow loads asid st place d st' place') (hk : place' = .fault k ∨ ∃ p, place' = .pager p k) :
    st' = st ∧ ((place = .code k ∧ place' = .fault k) ∨ place = .fault k ∨ ∃ p, place = .pager p k) := by
  cases h with
  | fault =>
    obtain hk | ⟨p, hk⟩ := hk
    · cases hk
      exact ⟨rfl, .inl ⟨rfl, rfl⟩⟩
    · cases hk
  | enter =>
    obtain hk | ⟨p, hk⟩ := hk
    · cases hk
    · cases hk
      exact ⟨rfl, .inr (.inl rfl)⟩
  | work =>
    obtain hk | ⟨p, hk⟩ := hk
    · cases hk
    · cases hk
      exact ⟨rfl, .inr (.inr ⟨_, rfl⟩)⟩
  | _ => simp at hk

/-- Nobody else brings `q` to a fault. -/
theorem Orderly.fault_kept (ho : Orderly s) (hstep : Stepped L hd s e s') (hactor : e.actor ≠ some q)
    (hk : (s'.proc q).place = .fault k ∨ ∃ p, (s'.proc q).place = .pager p k) :
    (s'.proc q).place = (s.proc q).place := by
  have hnew : (s'.proc q).place ≠ .absent ∧ (s'.proc q).place ≠ .code .user := by
    obtain hk | ⟨p, hk⟩ := hk <;> simp [hk]
  cases hstep with
  | flow actor flow allowed goes => exact goes.toMoved.other fun he => hactor (he ▸ actor)
  | @die r inp asid old =>
    by_cases hr : r = shellNo
    · subst hr
      exact absurd (termprocess_shell s q) hnew.1
    · exact (termprocess_moved hr).other fun he => hactor (congrArg some he.symm)
  | @create r inp asid newAsid u supportFree old arg accepted popped created =>
    have hc := ho.owners.created old (s.vm.initSupport hd u newAsid) u supportFree newAsid
    have hnext : q ≠ s.next := by
      rintro rfl
      exact hnew.2 (congrArg Proc.place hc.program)
    exact congrArg Proc.place (hc.other q (fun he => hactor (congrArg some he.symm)) hnext)
  | await old pass =>
    obtain ⟨-, rfl⟩ := passeren_eq_some pass
    rfl
  | kill old => exact absurd rfl hnew.1

theorem Faulted.step (h : s.Faulted q) (ho : Orderly s)
    (hreach : ∀ {va}, (s.proc q).place ≠ .absent → lookup (accessHi (s.proc q).asid va) s.vm ≠ .miss → LaidOut va)
    (hstep : sysStep L hd e s = some s') : s'.Faulted q := by
  intro k hk huser
  have hstepped := sysStep_stepped hstep
  have hsame : ∀ i, s'.state q = s.state q → bufferAddr q i s' = bufferAddr q i s := by
    intro i hstate
    rw [bufferAddr, bufferAddr, hstate]
  have hkept : s'.state q = s.state q → (s.proc q).place = .fault k ∨ (∃ p, (s.proc q).place = .pager p k) →
      ∃ i ∈ k.access (s'.state q), LaidOut (bufferAddr q i s') := by
    intro hstate hold
    obtain ⟨i, hi, hlaid⟩ := h k hold huser
    exact ⟨i, hstate ▸ hi, hsame i hstate ▸ hlaid⟩
  by_cases hactor : e.actor = some q
  · cases hstepped with
    | @flow e r d st place s' actor flow allowed goes =>
      obtain rfl : r = q := Option.some.inj (actor.symm.trans hactor)
      rw [goes.toMoved.self] at hk
      obtain ⟨hst, ⟨hcode, hfault⟩ | hold⟩ := flow.faulted hk
      · have hstate : s'.state r = s.state r := goes.state.trans hst
        have hgo : ∃ inp, e = .go r inp := by
          cases e with
          | go r' inp => exact ⟨inp, by rw [Option.some.inj hactor]⟩
          | access r' va value inp =>
            obtain rfl : r' = r := Option.some.inj hactor
            rw [sysStep, if_neg (by simpa [hcode] using huser)] at hstep
            cases hstep
          | trap r' st' =>
            obtain rfl : r' = r := Option.some.inj hactor
            rw [sysStep, if_neg (by simp [hcode, huser])] at hstep
            cases hstep
          | test => cases hactor
        obtain ⟨inp, rfl⟩ := hgo
        obtain ⟨i, hi, hinvalid⟩ := go_faults hcode hstep (goes.toMoved.self.trans hfault)
        have hlaid : LaidOut (bufferAddr r i s) := hreach (by simp [hcode]) (by simp [hinvalid])
        exact ⟨i, hstate ▸ hi, hsame i hstate ▸ hlaid⟩
      · exact hkept (goes.state.trans hst) hold
    | @die r inp asid old =>
      obtain rfl : r = q := Option.some.inj hactor
      rw [termprocess_self] at hk
      simp at hk
    | @create r inp asid newAsid u supportFree old arg accepted popped created =>
      obtain rfl : r = q := Option.some.inj hactor
      rw [goto_place] at hk
      simp at hk
    | await => cases hactor
    | kill => cases hactor
  · have hplace := ho.fault_kept hstepped hactor hk
    rw [hplace] at hk
    have howns : (s.proc q).place.owns = true := by
      obtain hk | ⟨p, hk⟩ := hk <;> rw [hk] <;> rfl
    exact hkept (ho.state_kept hstepped howns hactor) hk

theorem run_faulted (hstart : Sys.start hd vm = some s₀) (hrun : Run (sysStep L hd) (fun _ _ => True) s₀ es s)
    (q : Nat) : s.Faulted q := by
  induction hrun with
  | nil =>
    obtain ⟨u, hu⟩ := start_started hstart
    intro k hk huser
    by_cases hq : q = shellNo
    · rw [hq, hu.shell] at hk
      simp at hk
    · have habsent : (s₀.proc q).place = .absent := by
        by_contra hpresent
        exact hq (hu.present hpresent)
      simp [habsent] at hk
  | snoc hrun _ hstep ih =>
    exact Faulted.step ih (run_orderly hstart hrun) (fun hpresent => run_reach hstart hrun hpresent) hstep

/-- What holds of `q` in every run, while it is there. -/
structure Sys.Grounded (s : Sys) (q : Nat) : Prop where
  asid : isAsid (s.proc q).asid
  reach : ∀ {va}, lookup (accessHi (s.proc q).asid va) s.vm ≠ .miss → LaidOut va
  faulted : s.Faulted q

theorem run_grounded (hstart : Sys.start hd vm = some s₀) (hrun : Run (sysStep L hd) (fun _ _ => True) s₀ es s)
    (hpresent : (s.proc q).place ≠ .absent) : s.Grounded q :=
  ⟨run_asids hstart hrun q hpresent, fun hfound => run_reach hstart hrun hpresent hfound, run_faulted hstart hrun q⟩

end Faults

/-! ### Steps of a call -/

section Steps
variable {L : PoolLayout} {hd : Handlers} {pg : Paging} {status : Nat → Word} {q : Nat} {s s' : Sys}
  {e : SysEvent} {inp : Input}

/-- `q` has gone from `old` to `place` and has done `acts`. -/
theorem Goes.rest {d : Doing} {st : State} {place old : Place} {acts : List CallAct} (h : Goes q d st place s s')
    (hold : (s.proc q).place = old)
    (hrest : (place.rest pg status st).after acts = old.rest pg status (s.state q)) :
    ((s'.proc q).place.rest pg status (s'.state q)).after acts = (s.proc q).place.rest pg status (s.state q) := by
  rw [h.toMoved.self, h.state, hold, hrest]

/-- An access to the buffer: `done` goes on after a hit. -/
theorem touch_rest {k : Code} {i : Nat} {next : Course} {done : Word → Sys} {act : Word → CallAct}
    (hk : (s.proc q).place = .code k) (hg : s.Grounded q)
    (hrest : k.rest pg status (s.state q) = pg.before i (bufferAddr q i s) next)
    (herror : inp.busError = pg.busError (bufferAddr q i s))
    (hdone : ∀ lo, lookup (accessHi (s.proc q).asid (bufferAddr q i s)) s.vm = .hit lo →
      pg.comes i = true ∧ (((done lo).proc q).place.rest pg status ((done lo).state q)).after [act lo] = next)
    (hstep : touch q k (bufferAddr q i s) inp done s = some s') :
    ((s'.proc q).place.rest pg status (s'.state q)).after (s.hit q i act) =
      (s.proc q).place.rest pg status (s.state q) := by
  have hstay : Goes q .nothing (s.state q) (.code k) s s := hk ▸ Goes.refl q s
  unfold Sys.hit
  obtain ⟨p, hlook, -, rfl⟩ | ⟨hlook, hindex, rfl⟩ | ⟨hlook, rfl⟩ | ⟨lo, hlook, rfl⟩ := touch_cases hstep
  · have hgoes : Goes q .nothing (s.state q) (.code k) s
        (s.setVm (s.vm.setTlb inp.slot (s.vm.pte ((s.proc q).sup, p)))) := hstay.setVm rfl
    rw [hlook]
    exact hgoes.rest hk (Course.after_nil _)
  · rw [hlook]
    rw [findPageIndex_accessHi hg.asid] at hindex
    obtain ⟨hbus, hs⟩ | ⟨-, hs⟩ := strayRefill_cases q inp s
    · -- the handler of the trap terminates the U-proc
      have hgoes := (hstay.setState {inp.saved with cause := LOADFAULT}).goto .general
      rw [hs, hgoes.toMoved.self, hgoes.state, hk]
      refine (Course.after_nil _).trans (Eq.symm (hrest.trans ?_))
      exact before_lost (access_past hindex (herror ▸ hbus)) next
    · rw [hs]
      exact Course.after_nil _
  · rw [hlook]
    exact ((hstay.setFault _).goto (.fault k)).rest hk (Course.after_nil _)
  · obtain ⟨hcomes, hnext⟩ := hdone lo hlook
    have hlaid : LaidOut (bufferAddr q i s) := hg.reach (by simp [hlook])
    have haccess := access_done hlaid hcomes
    simp only [hlook]
    rw [hnext, hk]
    exact (hrest.trans (before_done haccess next)).symm

theorem writeChar_rest {i : Nat} (hk : (s.proc q).place = .code (.writing i)) (hg : s.Grounded q)
    (hfits : pg.Fits L s q (.writing i) inp) (hstep : writeChar L q i inp s = some s') :
    ((s'.proc q).place.rest pg status (s'.state q)).after (Code.acts L s q (.writing i)) =
      (s.proc q).place.rest pg status (s.state q) := by
  unfold writeChar at hstep
  simp only [Code.acts]
  by_cases hi : (i : Int) < ((s.state q).regA2).toInt
  · rw [if_pos hi] at hstep ⊢
    obtain ⟨herror, hhit⟩ := hfits i (by simp [Code.access, hi])
    have hleft : (s.state q).regA2.toInt.toNat - i = (s.state q).regA2.toInt.toNat - (i + 1) + 1 := by omega
    have hrest : (Code.writing i).rest pg status (s.state q) = pg.before i (bufferAddr q i s)
        ((if succeeded (status i) then
          writeLoop pg status (s.state q) ((s.state q).regA2.toInt.toNat - (i + 1)) (i + 1)
          else leaveWrite ((s.state q).setA0 (-status i))).after
          [.load (bufferAddr q i s) (pg.mem (bufferAddr q i s)),
            .transmit (cmdValue pg.mem (bufferAddr q i s)) (status i)]) := by
      rw [Code.rest, hleft, writeLoop]
      rfl
    refine touch_rest hk hg hrest herror (fun lo hlook => ?_) hstep
    obtain ⟨hcomes, hload⟩ := hhit lo hlook
    refine ⟨hcomes, ?_⟩
    have hgoes := (Goes.refl q s).goto (.writeIo i ((loadByte L lo (bufferAddr q i s) s.vm <<< 8) ||| TRANSMITCHAR))
    rw [hgoes.toMoved.self, hgoes.state, hload rfl]
    exact Course.after_after _ _ _
  · rw [if_neg hi] at hstep ⊢
    obtain rfl := Option.some.inj hstep
    have hleft : (s.state q).regA2.toInt.toNat - i = 0 := by omega
    refine (((Goes.refl q s).setA0 _).goto .writeDone).rest hk ?_
    show _ = writeLoop pg status (s.state q) ((s.state q).regA2.toInt.toNat - i) i
    rw [hleft]
    exact Course.after_nil _

theorem readChar_rest {asid : Word} {len : Nat} {character : Word}
    (hk : (s.proc q).place = .code (.reading asid len character)) (hg : s.Grounded q)
    (hfits : pg.Fits L s q (.reading asid len character) inp)
    (hstep : readChar L q asid len character inp s = some s') :
    ((s'.proc q).place.rest pg status (s'.state q)).after (Code.acts L s q (.reading asid len character)) =
      (s.proc q).place.rest pg status (s.state q) := by
  have hstored : ∀ lo, Goes q .nothing (s.state q) (s.proc q).place s
      (s.setVm (storeByte L lo (bufferAddr q len s) character s.vm)) :=
    fun lo => (Goes.refl q s).storeByte L lo _ _
  obtain ⟨herror, hhit⟩ := hfits len rfl
  unfold readChar at hstep
  by_cases hend : character = 10
  · simp only [if_pos hend] at hstep
    have hrest : (Code.reading asid len character).rest pg status (s.state q) = pg.before len (bufferAddr q len s)
        ((leaveRead ((s.state q).setA0 (BitVec.ofNat 32 (len + 1)))).after
          [.store (bufferAddr q len s) character]) := by
      rw [Code.rest, readOn, if_pos hend]
      rfl
    refine touch_rest hk hg hrest herror (fun lo hlook => ⟨(hhit lo hlook).1, ?_⟩) hstep
    have hgoes := ((hstored lo).setA0 (BitVec.ofNat 32 (len + 1))).goto .readDone
    rw [hgoes.toMoved.self, hgoes.state]
    rfl
  · simp only [if_neg hend] at hstep
    have hrest : (Code.reading asid len character).rest pg status (s.state q) = pg.before len (bufferAddr q len s)
        ((readFrom pg status (s.state q) (len + 1)).after [.store (bufferAddr q len s) character]) := by
      rw [Code.rest, readOn, if_neg hend]
      rfl
    refine touch_rest hk hg hrest herror (fun lo hlook => ⟨(hhit lo hlook).1, ?_⟩) hstep
    have hgoes := (hstored lo).goto (.readLoop asid (len + 1))
    rw [hgoes.toMoved.self, hgoes.state]
    rfl

theorem writeStatus_rest {i : Nat} {command : Word} (hk : (s.proc q).place = .writeIo i command)
    (hstatus : inp.status = status i) :
    (((writeStatus q i inp.status s).proc q).place.rest pg status ((writeStatus q i inp.status s).state q)).after
        [.transmit command inp.status] = (s.proc q).place.rest pg status (s.state q) := by
  rw [hstatus]
  unfold writeStatus
  have hrest : ∀ next, next = (if succeeded (status i) then
      writeLoop pg status (s.state q) ((s.state q).regA2.toInt.toNat - (i + 1)) (i + 1)
      else leaveWrite ((s.state q).setA0 (-status i))) → next.after [.transmit command (status i)] =
        Place.rest pg status (s.state q) (.writeIo i command) := by
    rintro next rfl
    rfl
  by_cases hok : succeeded (status i)
  · rw [if_neg (show ¬ status i &&& 0xff ≠ OKCHARTRANS from not_not.mpr hok)]
    have hgoes := (Goes.refl q s).goto (.code (.writing (i + 1)))
    exact hgoes.rest hk (hrest _ (if_pos hok).symm)
  · rw [if_pos (show status i &&& 0xff ≠ OKCHARTRANS from hok)]
    have hgoes := ((Goes.refl q s).setA0 (-status i)).goto .writeDone
    exact hgoes.rest hk (hrest _ (if_neg hok).symm)

theorem readStatus_rest {asid : Word} {len : Nat} (hk : (s.proc q).place = .readIo asid len)
    (hstatus : inp.status = status len) :
    (((readStatus q asid len inp.status s).proc q).place.rest pg status
        ((readStatus q asid len inp.status s).state q)).after [.receive inp.status] =
      (s.proc q).place.rest pg status (s.state q) := by
  rw [hstatus]
  unfold readStatus
  have hrest : ∀ next, next = (if succeeded (status len) then
      readOn pg status (s.state q) len (received (status len)) else leaveRead ((s.state q).setA0 (-status len))) →
        next.after [.receive (status len)] = Place.rest pg status (s.state q) (.readIo asid len) := by
    rintro next rfl
    rfl
  by_cases hok : succeeded (status len)
  · rw [if_neg (show ¬ status len &&& 0xff ≠ OKCHARTRANS from not_not.mpr hok)]
    have hgoes := (Goes.refl q s).goto (.code (.reading asid len ((status len >>> 8) &&& 0xff)))
    exact hgoes.rest hk (hrest _ (if_pos hok).symm)
  · rw [if_pos (show status len &&& 0xff ≠ OKCHARTRANS from hok)]
    have hgoes := ((Goes.refl q s).setA0 (-status len)).goto .readDone
    exact hgoes.rest hk (hrest _ (if_neg hok).symm)

/-- The loop of `ReadTerminalSys` at the check of the address. -/
theorem readFrom_eq (st : State) (len : Nat) : readFrom pg status st len =
    if st.charAddr len ≥ USERSTACKTOP then ⟨[.verhogen .terminalReadSem], .terminated⟩
    else
      (if succeeded (status len) then readOn pg status st len (received (status len))
        else leaveRead (st.setA0 (-status len))).after [.receive (status len)] := by
  rw [readFrom]
  by_cases hinside : st.charAddr len < USERSTACKTOP
  · have hcond : ¬ st.charAddr len ≥ USERSTACKTOP := BitVec.not_le.mpr hinside
    rw [if_pos hinside, if_neg hcond]
    by_cases hok : succeeded (status len)
    · rw [if_pos hok, if_pos hok]
      simp only [readOn]
    · rw [if_neg hok, if_neg hok]
  · have hcond : st.charAddr len ≥ USERSTACKTOP := BitVec.not_lt.mp hinside
    rw [if_neg hinside, if_pos hcond]

theorem readLoop_rest {asid : Word} {len : Nat} (hk : (s.proc q).place = .readLoop asid len) :
    ((readLoop q asid len s).proc q).place.rest pg status ((readLoop q asid len s).state q) =
      (s.proc q).place.rest pg status (s.state q) := by
  have hold : (s.proc q).place.rest pg status (s.state q) = readFrom pg status (s.state q) len := by
    rw [hk]
    rfl
  rw [hold, readFrom_eq]
  unfold readLoop
  by_cases hout : bufferAddr q len s ≥ USERSTACKTOP
  · have hgoes := (Goes.refl q s).goto (.readAbort asid)
    rw [if_pos hout, if_pos (show (s.state q).charAddr len ≥ USERSTACKTOP from hout), hgoes.toMoved.self, hgoes.state]
    rfl
  · have hgoes := (Goes.refl q s).goto (.readIo asid len)
    rw [if_neg hout, if_neg (show ¬ (s.state q).charAddr len ≥ USERSTACKTOP from hout), hgoes.toMoved.self, hgoes.state]
    rfl

/-- What the U-proc does is taken off what is left. -/
theorem proceed_rest (hg : s.Grounded q) (hserving : (s.proc q).place.serving = true)
    (hanswered : Answered L pg status q s (.go q inp))
    (hstep : proceed L hd q inp s = some s') :
    ((s'.proc q).place.rest pg status (s'.state q)).after ((s.proc q).place.acts L s q inp.status) =
      (s.proc q).place.rest pg status (s.state q) := by
  have hrefl := Goes.refl q s
  have hanswer := hanswered rfl
  unfold proceed at hstep
  cases hplace : (s.proc q).place with
  | code k =>
    cases k with
    | user =>
      rw [hplace] at hserving
      cases hserving
    | writing i =>
      simp only [hplace] at hstep hanswer
      exact (writeChar_rest hplace hg hanswer hstep).trans (by rw [hplace])
    | reading asid len character =>
      simp only [hplace] at hstep hanswer
      exact (readChar_rest hplace hg hanswer hstep).trans (by rw [hplace])
  | fault k =>
    simp only [hplace, enterPager] at hstep
    rw [if_neg (modification_masked _)] at hstep
    obtain ⟨s₁, hpass, rfl⟩ := Option.map_eq_some_iff.mp hstep
    have hgoes := (hrefl.passeren hpass).2.goto (.pager .locked k)
    exact (hgoes.rest hplace (Course.after_nil _)).trans (by rw [hplace])
  | pager place k =>
    simp only [hplace] at hstep hanswer
    cases place with
    | failed a =>
      obtain rfl := Option.some.inj hstep
      have huser : k ≠ .user := by
        rintro rfl
        rw [hplace] at hserving
        cases hserving
      obtain ⟨i, hi, hlaid⟩ := hg.faulted k (.inr ⟨_, hplace⟩) huser
      have hlost : k.rest pg status (s.state q) = ⟨[], .terminated⟩ :=
        Code.rest_lost hi (access_failed hlaid (hanswer i hi))
      have hgoes := (hrefl.verhogen .swapPoolSemaphore).goto (.terminate .lock a)
      exact (hgoes.rest hplace ((Course.after_nil _).trans hlost.symm)).trans (by rw [hplace])
    | published =>
      obtain rfl := Option.some.inj hstep
      have hgoes := (hrefl.verhogen .swapPoolSemaphore).goto (.code k)
      exact (hgoes.rest hplace (Course.after_nil _)).trans (by rw [hplace])
    | _ =>
      simp only [runPager] at hstep
      obtain ⟨⟨place', vm⟩, hr, rfl⟩ := Option.map_eq_some_iff.mp hstep
      have hgoes := (hrefl.setVm (pagerStep_support hr).1).goto (.pager place' k)
      exact (hgoes.rest hplace (Course.after_nil _)).trans (by rw [hplace])
  | writeLock =>
    simp only [hplace] at hstep
    obtain ⟨s₁, hpass, rfl⟩ := Option.map_eq_some_iff.mp hstep
    have hgoes := (hrefl.passeren hpass).2.goto (.code (.writing 0))
    exact (hgoes.rest hplace rfl).trans (by rw [hplace])
  | writeIo i command =>
    simp only [hplace] at hstep hanswer
    obtain rfl := Option.some.inj hstep
    exact (writeStatus_rest hplace hanswer).trans (by rw [hplace])
  | writeDone =>
    simp only [hplace] at hstep
    obtain rfl := Option.some.inj hstep
    exact ((hrefl.verhogen .terminalWriteSem).ldst.rest hplace rfl).trans (by rw [hplace])
  | readLock asid =>
    simp only [hplace] at hstep
    obtain ⟨s₁, hpass, rfl⟩ := Option.map_eq_some_iff.mp hstep
    have hgoes := (hrefl.passeren hpass).2.goto (.readLoop asid 0)
    exact (hgoes.rest hplace rfl).trans (by rw [hplace])
  | readLoop asid len =>
    simp only [hplace] at hstep
    obtain rfl := Option.some.inj hstep
    exact (readLoop_rest hplace).trans (by rw [hplace])
  | readIo asid len =>
    simp only [hplace] at hstep hanswer
    obtain rfl := Option.some.inj hstep
    exact (readStatus_rest hplace hanswer).trans (by rw [hplace])
  | readDone =>
    simp only [hplace] at hstep
    obtain rfl := Option.some.inj hstep
    exact ((hrefl.verhogen .terminalReadSem).ldst.rest hplace rfl).trans (by rw [hplace])
  | readAbort asid =>
    simp only [hplace] at hstep
    obtain rfl := Option.some.inj hstep
    have hgoes := (hrefl.verhogen .terminalReadSem).goto (.terminate .lock asid)
    exact (hgoes.rest hplace rfl).trans (by rw [hplace])
  | _ =>
    rw [hplace] at hserving
    cases hserving

theorem Place.serving_owns {place : Place} (h : place.serving = true) :
    place.owns = true ∧ place.pending = true ∧ place ≠ .waitShell := by
  cases place with
  | absent => cases h
  | general => cases h
  | executing => cases h
  | waitShell => cases h
  | terminate => cases h
  | _ => exact ⟨rfl, rfl, by simp⟩

/-- One step of anybody during a call of `q`. -/
theorem rest_step (ho : Orderly s) (hg : s.Grounded q) (hserving : (s.proc q).place.serving = true)
    (hanswered : Answered L pg status q s e) (hstep : sysStep L hd e s = some s') :
    ((s'.proc q).place.rest pg status (s'.state q)).after (callActs L q s e s') =
      (s.proc q).place.rest pg status (s.state q) := by
  by_cases hactor : e.actor = some q
  · have huser : (s.proc q).place ≠ .code .user := by
      intro he
      rw [he] at hserving
      cases hserving
    cases e with
    | go r inp =>
      obtain rfl := Option.some.inj hactor
      simp only [callActs, if_true]
      exact proceed_rest hg hserving hanswered hstep
    | access r va value inp =>
      obtain rfl := Option.some.inj hactor
      simp [sysStep, huser] at hstep
    | trap r st =>
      obtain rfl := Option.some.inj hactor
      simp [sysStep, huser] at hstep
    | test => cases hactor
  · obtain ⟨howns, hpending, hawake⟩ := Place.serving_owns hserving
    have hstepped := sysStep_stepped hstep
    have hnone : callActs L q s e s' = [] := by
      cases e with
      | go r inp => exact if_neg fun he => hactor (congrArg some he)
      | _ => rfl
    rw [hnone, Course.after_nil, ho.place_running hstepped hpending hawake hactor, ho.state_kept hstepped howns hactor]

theorem run_rest {vm : Vm} {s₀ : Sys} {es₀ es : List SysEvent} (hstart : Sys.start hd vm = some s₀)
    (hrun : Run (sysStep L hd) (fun _ _ => True) s₀ es₀ s)
    (hserved : Run (sysStep L hd) (fun s e => (s.proc q).place.serving = true ∧ Answered L pg status q s e) s es s') :
    ((s'.proc q).place.rest pg status (s'.state q)).after (trace (sysStep L hd) (callActs L q) s es) =
      (s.proc q).place.rest pg status (s.state q) := by
  induction hserved with
  | nil => exact Course.after_nil _
  | snoc hserved hok hstep ih =>
    have hall := hrun.append (hserved.mono fun _ _ _ => trivial)
    have hpresent := Place.pending_present (Place.serving_owns hok.1).2.1
    rw [hserved.trace_snoc hstep, ← Course.after_after,
      rest_step (run_orderly hstart hall) (run_grounded hstart hall hpresent) hok.1 hok.2 hstep, ih]

/-! ### Whole calls -/

/-- How the call of `q` has ended; or it is at an access that never ends. -/
inductive Sys.Ends (pg : Paging) (s : Sys) (q : Nat) : Ending → Prop where
  | returned (user : (s.proc q).place = .code .user) : Ends pg s q (.returned (s.state q))
  | terminated {a} (terminate : (s.proc q).place = .terminate .lock a) : Ends pg s q .terminated
  | trapped (general : (s.proc q).place = .general) : Ends pg s q .terminated
  | stuck {i} (access : i ∈ s.access q) (endless : pg.access i (bufferAddr q i s) = .endless) : Ends pg s q .stuck

theorem rest_ending {ending : Ending} (h : s.Ends pg q ending) :
    (s.proc q).place.rest pg status (s.state q) = ⟨[], ending⟩ := by
  cases h with
  | returned user =>
    rw [user]
    rfl
  | terminated terminate =>
    rw [terminate]
    rfl
  | trapped general =>
    rw [general]
    rfl
  | stuck access endless =>
    unfold Sys.access at access
    split at access
    · rename_i k hk
      rw [hk]
      exact Code.rest_endless access endless
    · cases access

/-- What the handler starts. -/
theorem handleException_rest {a : Word} :
    (generalExceptionHandler (s.vm.supportPool (s.proc q).sup) = .writeTerminalSys a →
      ((handleException q s).proc q).place.rest pg status ((handleException q s).state q) =
        writeTerminalSys pg status (s.state q)) ∧
    (generalExceptionHandler (s.vm.supportPool (s.proc q).sup) = .readTerminalSys a →
      ((handleException q s).proc q).place.rest pg status ((handleException q s).state q) =
        readTerminalSys pg status (s.state q)) := by
  have hgoto : ∀ place : Place, ((s.goto q place).proc q).place = place ∧ (s.goto q place).state q = s.state q :=
    fun place => ⟨((Goes.refl q s).goto place).toMoved.self, ((Goes.refl q s).goto place).state⟩
  constructor
  · intro hcall
    simp only [handleException, hcall, writeTerminalSys]
    by_cases hbad : badWrite (s.state q)
    · rw [if_pos hbad, if_pos hbad, (hgoto _).1]
      rfl
    · rw [if_neg hbad, if_neg hbad, (hgoto _).1, (hgoto _).2]
      rfl
  · intro hcall
    simp only [handleException, hcall, readTerminalSys]
    by_cases hbad : badRead (s.state q)
    · rw [if_pos hbad, if_pos hbad, (hgoto _).1]
      rfl
    · rw [if_neg hbad, if_neg hbad, (hgoto _).1, (hgoto _).2]
      rfl

/-- **The calls in every run**: whatever happens in between, a terminal system call does
what `writeTerminalSys` or `readTerminalSys` says, and ends so. -/
theorem call_course {vm : Vm} {s₀ s₁ : Sys} {es₀ es : List SysEvent} {a : Word} {ending : Ending}
    (hstart : Sys.start hd vm = some s₀) (hrun : Run (sysStep L hd) (fun _ _ => True) s₀ es₀ s)
    (hplace : (s.proc q).place = .general) (hstep : sysStep L hd (.go q inp) s = some s₁)
    (hserved : Run (sysStep L hd) (fun s e => (s.proc q).place.serving = true ∧ Answered L pg status q s e) s₁ es s')
    (hend : s'.Ends pg q ending) :
    (generalExceptionHandler (s.vm.supportPool (s.proc q).sup) = .writeTerminalSys a →
      writeTerminalSys pg status (s.state q) = ⟨trace (sysStep L hd) (callActs L q) s₁ es, ending⟩) ∧
    (generalExceptionHandler (s.vm.supportPool (s.proc q).sup) = .readTerminalSys a →
      readTerminalSys pg status (s.state q) = ⟨trace (sysStep L hd) (callActs L q) s₁ es, ending⟩) := by
  have hrest := run_rest hstart (hrun.snoc trivial hstep) hserved
  simp only [sysStep, proceed, hplace] at hstep
  obtain rfl := Option.some.inj hstep
  rw [rest_ending hend, Course.after, List.append_nil] at hrest
  exact ⟨fun hcall => ((handleException_rest (a := a)).1 hcall).symm.trans hrest.symm,
    fun hcall => ((handleException_rest (a := a)).2 hcall).symm.trans hrest.symm⟩

end Steps

end MultiPandOS
