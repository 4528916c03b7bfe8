import MultiPandOS.Support.Mutexes

/-! The devices that the U-procs share.

DOIO gives a command to a device and waits for the device's semaphore; nothing keeps
a second U-proc from doing the same before the first command is completed. The mutexes
do: one U-proc at a time waits for the transmitter of terminal 0, for its receiver and
for the flash devices, so that the first in the queue of a device, to whom the nucleus
hands the status, is always the one that has given the command (`Exclusive.queue`). And
what the transmitter is given is one system call after the other, of each a prefix of its
buffer (`Exclusive.calls`). -/
namespace MultiPandOS
open Runs
open Semaphore (Guarded Event Serial InOrder pending)

/-- What a U-proc can wait for; the flash devices count as one. -/
inductive Device where
  | transmitter
  | receiver
  | flash
deriving DecidableEq

/-- The mutex that brackets the commands to a device. -/
def Device.mutex : Device → Sem
  | .transmitter => .terminalWriteSem
  | .receiver => .terminalReadSem
  | .flash => .swapPoolSemaphore

/-- The device whose DOIO is outstanding. -/
def Place.device : Place → Option Device
  | .writeIo _ _ => some .transmitter
  | .readIo _ _ => some .receiver
  | .pager (.evicted _ _ _) _ => some .flash
  | .pager (.reading _ _) _ => some .flash
  | _ => none

/-- `q` waits for `dev`. -/
def Sys.waits (s : Sys) (dev : Device) (q : Nat) : Bool := decide ((s.proc q).place.device = some dev)

/-- The history of the semaphore of `dev`: a DOIO blocks who calls it, and who goes on
has been handed the status. -/
def Sys.ios (dev : Device) (s : Sys) (e : SysEvent) (s' : Sys) : List (Event Nat) :=
  match e.actor with
  | none => []
  | some q =>
    (if s.waits dev q then [.signal q (some q)] else []) ++ (if s'.waits dev q then [.block q] else [])

/-! ### The transmitter -/

/-- What happens at the transmitter: a WRITETERMINAL of `q` gets hold of the terminal, or
the character at `va` is sent by a command. -/
inductive Print where
  | call (q : Nat) (virtAddr len : Word)
  | sent (q : Nat) (va : Addr) (command : Word)
deriving DecidableEq

/-- A WRITETERMINAL, with the commands it has given so far. -/
structure WriteCall where
  q : Nat
  virtAddr : Word
  len : Word
  commands : List Word

/-- The address of `virtAddr[i]`. -/
def WriteCall.addr (c : WriteCall) (i : Nat) : Addr := c.virtAddr + BitVec.ofNat 32 i

/-- The call and the characters at `virtAddr[0]`, `virtAddr[1]` and so on. -/
def WriteCall.prints (c : WriteCall) : List Print :=
  .call c.q c.virtAddr c.len :: c.commands.mapIdx fun i w => .sent c.q (c.addr i) w

/-- What a way of `q` means for the transmitter. -/
def wayPrints (q : Nat) (st : State) : Place → Place → List Print
  | .writeLock, .code (.writing _) => [.call q st.regA1 st.regA2]
  | .code (.writing i), .writeIo _ command => [.sent q (st.regA1 + BitVec.ofNat 32 i) command]
  | _, _ => []

def Sys.prints (s : Sys) (e : SysEvent) (s' : Sys) : List Print :=
  match e.actor with
  | none => []
  | some q => wayPrints q (s.state q) (s.proc q).place (s'.proc q).place

/-- How many characters a WRITETERMINAL has sent. -/
def Code.written : Code → Option Nat
  | .writing i => some i
  | _ => none

def Place.written : Place → Option Nat
  | .code k => k.written
  | .fault k => k.written
  | .pager _ k => k.written
  | .writeIo i _ => some (i + 1)
  | _ => none

/-- The devices are used by one U-proc at a time, in the steps `es` from `s₀` to `s` and
in the one that comes next. -/
structure Exclusive (L : PoolLayout) (hd : Handlers) (s₀ : Sys) (es : List SysEvent) (s : Sys) : Prop where
  one : ∀ dev q r, s.waits dev q = true → s.waits dev r = true → q = r
  order : ∀ dev, InOrder (trace (sysStep L hd) (Sys.ios dev) s₀ es)
  queue : ∀ dev q, s.waits dev q = true → pending (trace (sysStep L hd) (Sys.ios dev) s₀ es) = [q]
  calls : ∃ calls : List WriteCall, trace (sysStep L hd) Sys.prints s₀ es = calls.flatMap WriteCall.prints ∧
    ∀ c ∈ calls, c.commands.length ≤ c.len.toInt.toNat
  loaded : ∀ e s', sysStep L hd e s = some s' → ∀ q va w, .sent q va w ∈ s.prints e s' →
    ∃ c, s.loads L q va c ∧ w = (c <<< 8) ||| TRANSMITCHAR

/-! ### The queues of the devices -/

section Queues
variable {L : PoolLayout} {hd : Handlers} {dev : Device} {q : Nat} {s s' : Sys} {e : SysEvent} {tr : List (Event Nat)}

theorem Place.device_held {place : Place} (h : place.device = some dev) : dev.mutex.held place = true := by
  cases place with
  | writeIo i c =>
    obtain rfl := Option.some.inj h
    rfl
  | readIo a n =>
    obtain rfl := Option.some.inj h
    rfl
  | pager p k =>
    cases p with
    | evicted | reading =>
      obtain rfl := Option.some.inj h
      rfl
    | _ => cases h
  | _ => cases h

theorem Device.mutex_mutex (dev : Device) : dev.mutex.mutex = true := by
  cases dev <;> rfl

theorem Sys.waits_holds (h : s.waits dev q = true) : s.holds dev.mutex q = true :=
  Place.device_held (of_decide_eq_true h)

theorem Sys.waits_one (h : Guarded (s.sem dev.mutex) (s.holds dev.mutex)) {r : Nat} (hq : s.waits dev q = true)
    (hr : s.waits dev r = true) : q = r :=
  h.one q r (Sys.waits_holds hq) (Sys.waits_holds hr)

/-- A step in which only `q` comes or goes. -/
theorem Sys.serial_step (h : Serial (s.waits dev) tr) (hactor : e.actor = some q)
    (hother : ∀ r, r ≠ q → s'.waits dev r = s.waits dev r)
    (hone : ∀ r, s'.waits dev q = true → s'.waits dev r = true → r = q) :
    Serial (s'.waits dev) (tr ++ s.ios dev e s') := by
  have hios : s.ios dev e s' =
      (if s.waits dev q then [.signal q (some q)] else []) ++ (if s'.waits dev q then [.block q] else []) := by
    simp only [Sys.ios, hactor]
  rw [hios, ← List.append_assoc]
  -- between the two, `q` does not wait
  have hmid : Serial (fun r => decide (r ≠ q) && s.waits dev r)
      (tr ++ if s.waits dev q then [.signal q (some q)] else []) := by
    by_cases hq : s.waits dev q = true
    · rw [if_pos hq]
      exact h.leave hq fun r hr => by simpa using hr
    · rw [if_neg hq, List.append_nil]
      refine h.congr fun r => ?_
      by_cases hr : r = q
      · rw [hr, Bool.eq_false_iff.mpr hq, Bool.and_false]
      · simp [hr]
  by_cases hq : s'.waits dev q = true
  · rw [if_pos hq]
    refine hmid.come (fun r => ?_) fun r => ⟨hone r hq, fun hr => hr ▸ hq⟩
    by_cases hr : r = q
    · simp [hr]
    · refine Bool.eq_false_iff.mpr fun hw => hr (hone r hq ?_)
      rw [hother r hr]
      simpa [hr] using hw
  · rw [if_neg hq, List.append_nil]
    refine hmid.congr fun r => ?_
    by_cases hr : r = q
    · rw [hr, Bool.eq_false_iff.mpr hq]
      simp
    · rw [hother r hr]
      simp [hr]

/-- Nobody is stopped who waits for a device. -/
theorem Orderly.serial_step (h : Orderly s) (hstep : Stepped L hd s e s')
    (hone : ∀ q r, s'.waits dev q = true → s'.waits dev r = true → q = r) (hserial : Serial (s.waits dev) tr) :
    Serial (s'.waits dev) (tr ++ s.ios dev e s') := by
  have hone' : ∀ q r, s'.waits dev q = true → s'.waits dev r = true → r = q := fun q r hq hr => hone r q hr hq
  have hsilent : s.ios dev e s' = [] → (∀ r, s'.waits dev r = s.waits dev r) →
      Serial (s'.waits dev) (tr ++ s.ios dev e s') := by
    intro hios hsame
    rw [hios, List.append_nil]
    exact hserial.congr hsame
  cases hstep with
  | @flow e q d st place s' actor flow allowed goes =>
    refine Sys.serial_step hserial actor (fun r hr => ?_) (hone' q)
    unfold Sys.waits
    rw [goes.toMoved.other hr]
  | @die q inp asid old =>
    refine Sys.serial_step hserial (q := q) rfl (fun r hr => ?_) (hone' q)
    by_cases hq : q = shellNo
    · subst hq
      have hw : s.waits dev r = false := by
        refine Bool.eq_false_iff.mpr fun hw => ?_
        exact Bool.eq_false_iff.mp (unheld dev.mutex (h.handshake.nobody old r)) (Sys.waits_holds hw)
      rw [hw]
      rfl
    · unfold Sys.waits
      rw [(termprocess_moved hq).other hr]
  | @create q inp asid newAsid u supportFree old arg accepted popped created =>
    have habsent := h.owners.fresh s.next (Nat.le_refl _)
    have hc := h.owners.created old (s.vm.initSupport hd u newAsid) u supportFree newAsid
    refine Sys.serial_step hserial (q := q) rfl (fun r hr => ?_) (hone' q)
    unfold Sys.waits
    by_cases hrn : r = s.next
    · rw [hrn, hc.program, habsent]
      rfl
    · rw [hc.other r hr hrn]
  | await old pass =>
    obtain ⟨-, rfl⟩ := passeren_eq_some pass
    exact hsilent rfl fun _ => rfl
  | kill old =>
    refine hsilent rfl fun r => Eq.symm (Bool.eq_false_iff.mpr fun hw => ?_)
    obtain ⟨hpending, hawake⟩ := held_pending (Sys.waits_holds hw)
    exact h.handshake.running hpending hawake (.inr (by simp [old]))

end Queues

/-! ### What the transmitter is given -/

/-- The calls that are behind `tr`; whoever is in its loop has made the last one. -/
structure Transcript (tr : List Print) (calls : List WriteCall) (s : Sys) : Prop where
  prints : tr = calls.flatMap WriteCall.prints
  bound : ∀ c ∈ calls, c.commands.length ≤ c.len.toInt.toNat
  current : ∀ q n, (s.proc q).place.written = some n → ∃ cs c, calls = cs ++ [c] ∧ c.q = q ∧
    c.virtAddr = (s.state q).regA1 ∧ c.len = (s.state q).regA2 ∧ c.commands.length = n

section Prints
variable {L : PoolLayout} {hd : Handlers} {q : Nat} {s s' : Sys} {e : SysEvent} {tr : List Print} {calls : List WriteCall}
  {loads : Addr → Word → Prop} {asid : Word} {st st' : State} {place place' : Place} {d : Doing}

theorem WriteCall.prints_snoc (c : WriteCall) (w : Word) :
    ({c with commands := c.commands ++ [w]} : WriteCall).prints =
      c.prints ++ [.sent c.q (c.addr c.commands.length) w] := by
  unfold WriteCall.prints
  rw [List.mapIdx_concat]
  rfl

/-- A WRITETERMINAL begins or sends a character, or the transmitter notices nothing. -/
theorem Flow.writes (h : Flow loads asid st place d st' place') (q : Nat) :
    (place = .writeLock ∧ place' = .code (.writing 0) ∧ st' = st) ∨
      (∃ (i : Nat) (c : Word), place = .code (.writing i) ∧ place' = .writeIo i ((c <<< 8) ||| TRANSMITCHAR) ∧ st' = st ∧
        (i : Int) < st.regA2.toInt ∧ loads (st.regA1 + BitVec.ofNat 32 i) c) ∨
      (wayPrints q st place place' = [] ∧ ∀ n, place'.written = some n → place.written = some n ∧ st' = st) := by
  cases h with
  | writeEnter => exact .inl ⟨rfl, rfl, rfl⟩
  | @send i c hi hload => exact .inr (.inl ⟨i, c, rfl, rfl, rfl, hi, hload⟩)
  | @stay k => exact .inr (.inr ⟨by cases k <;> rfl, fun n hn => ⟨hn, rfl⟩⟩)
  | @fault k => exact .inr (.inr ⟨by cases k <;> rfl, fun n hn => ⟨hn, rfl⟩⟩)
  | @stray k => exact .inr (.inr ⟨by cases k <;> rfl, fun n hn => by cases hn⟩)
  | writeNext => exact .inr (.inr ⟨rfl, fun n hn => ⟨hn, rfl⟩⟩)
  | enter => exact .inr (.inr ⟨rfl, fun n hn => ⟨hn, rfl⟩⟩)
  | work => exact .inr (.inr ⟨rfl, fun n hn => ⟨hn, rfl⟩⟩)
  | resume => exact .inr (.inr ⟨rfl, fun n hn => ⟨hn, rfl⟩⟩)
  | _ => exact .inr (.inr ⟨rfl, fun n hn => by cases hn⟩)

theorem Place.written_held {n : Nat} (h : place.written = some n) : Sem.terminalWriteSem.held place = true := by
  have hcode : ∀ k : Code, k.written = some n → k.outer = some .terminalWriteSem := by
    intro k hk
    cases k with
    | writing i => rfl
    | user => cases hk
    | reading a len c => cases hk
  cases place with
  | code k => exact decide_eq_true (hcode k h)
  | fault k => exact decide_eq_true (hcode k h)
  | pager p k =>
    rw [held_pager (by simp)]
    exact decide_eq_true (hcode k h)
  | writeIo i c => rfl
  | _ => cases h

theorem Place.written_owns {n : Nat} (h : place.written = some n) : place.owns = true := by
  cases place with
  | code k => rfl
  | fault k => rfl
  | pager p k => rfl
  | writeIo i c => rfl
  | _ => cases h

/-- The transmitter notices nothing. -/
theorem Transcript.silent (h : Transcript tr calls s)
    (hkept : ∀ r n, (s'.proc r).place.written = some n → (s.proc r).place.written = some n ∧ s'.state r = s.state r) :
    Transcript tr calls s' := by
  refine ⟨h.prints, h.bound, fun r n hr => ?_⟩
  obtain ⟨hold, hstate⟩ := hkept r n hr
  rw [hstate]
  exact h.current r n hold

theorem Transcript.flow (h : Transcript tr calls s) (ho : Orderly s) (hstep : Stepped L hd s e s')
    (hone : ∀ q r, s'.holds .terminalWriteSem q = true → s'.holds .terminalWriteSem r = true → q = r)
    (actor : e.actor = some q) (flow : Flow loads asid (s.state q) (s.proc q).place d st place)
    (goes : Goes q d st place s s') : ∃ calls, Transcript (tr ++ s.prints e s') calls s' := by
  have hprints : s.prints e s' = wayPrints q (s.state q) (s.proc q).place place := by
    simp only [Sys.prints, actor, goes.toMoved.self]
  -- whoever is in the loop is `q`
  have hself : ∀ n, place.written = some n → ∀ r m, (s'.proc r).place.written = some m → r = q := by
    intro n hn r m hr
    refine hone r q (Place.written_held hr) ?_
    unfold Sys.holds
    rw [goes.toMoved.self]
    exact Place.written_held hn
  obtain ⟨hold, hnew, rfl⟩ | ⟨i, c, hold, hnew, rfl, hi, -⟩ | ⟨hnil, hkept⟩ := flow.writes q
  · subst hnew
    refine ⟨calls ++ [⟨q, (s.state q).regA1, (s.state q).regA2, []⟩], ?_, fun c hc => ?_, fun r n hr => ?_⟩
    · rw [hprints, hold, h.prints, List.flatMap_append]
      rfl
    · obtain hc | hc := List.mem_append.mp hc
      · exact h.bound c hc
      · rw [List.mem_singleton.mp hc]
        exact Nat.zero_le _
    · obtain rfl := hself 0 rfl r n hr
      rw [goes.toMoved.self] at hr
      obtain rfl : 0 = n := Option.some.inj hr
      exact ⟨calls, _, rfl, rfl, by rw [goes.state], by rw [goes.state], rfl⟩
  · subst hnew
    obtain ⟨cs, call, hcalls, hq, haddr, hlen, hcount⟩ := h.current q i (by rw [hold]; rfl)
    generalize hw : (c <<< 8) ||| TRANSMITCHAR = w at hprints goes hself
    refine ⟨cs ++ [{call with commands := call.commands ++ [w]}], ?_, fun c' hc' => ?_, fun r n hr => ?_⟩
    · rw [hprints, hold, h.prints, hcalls, List.flatMap_append, List.flatMap_append]
      simp only [List.flatMap_singleton, WriteCall.prints_snoc, List.append_assoc]
      rw [WriteCall.addr, hcount, haddr, hq]
      rfl
    · obtain hc' | hc' := List.mem_append.mp hc'
      · exact h.bound c' (by rw [hcalls]; exact List.mem_append_left _ hc')
      · rw [List.mem_singleton.mp hc', List.length_append, hcount, hlen]
        simp only [List.length_singleton]
        omega
    · obtain rfl := hself (i + 1) rfl r n hr
      rw [goes.toMoved.self] at hr
      obtain rfl : i + 1 = n := Option.some.inj hr
      refine ⟨cs, _, rfl, hq, by rw [goes.state, haddr], by rw [goes.state, hlen], ?_⟩
      rw [List.length_append, hcount]
      rfl
  · refine ⟨calls, ?_⟩
    rw [hprints, hnil, List.append_nil]
    refine h.silent fun r n hr => ?_
    by_cases hrq : r = q
    · subst hrq
      rw [goes.toMoved.self] at hr
      obtain ⟨hn, hst⟩ := hkept n hr
      exact ⟨hn, by rw [goes.state, hst]⟩
    · rw [goes.toMoved.other hrq] at hr
      refine ⟨hr, ho.state_kept hstep (Place.written_owns hr) fun ha => hrq ?_⟩
      exact Option.some.inj (ha.symm.trans actor)

theorem Orderly.transcript_step (ho : Orderly s) (hstep : Stepped L hd s e s')
    (hone : ∀ q r, s'.holds .terminalWriteSem q = true → s'.holds .terminalWriteSem r = true → q = r)
    (h : Transcript tr calls s) : ∃ calls, Transcript (tr ++ s.prints e s') calls s' := by
  have hsilent : s.prints e s' = [] → (∀ r n, (s'.proc r).place.written = some n → e.actor ≠ some r ∧
      (s.proc r).place.written = some n) → ∃ calls, Transcript (tr ++ s.prints e s') calls s' := by
    intro hnil hkept
    refine ⟨calls, ?_⟩
    rw [hnil, List.append_nil]
    refine h.silent fun r n hr => ?_
    obtain ⟨hactor, hr⟩ := hkept r n hr
    exact ⟨hr, ho.state_kept hstep (Place.written_owns hr) hactor⟩
  have hstep' := hstep
  cases hstep with
  | flow actor flow allowed goes => exact h.flow ho hstep' hone actor flow goes
  | @die q inp asid old =>
    refine hsilent (by simp [Sys.prints, SysEvent.actor, old, wayPrints]) fun r n hr => ?_
    by_cases hq : q = shellNo
    · subst hq
      cases hr
    · have hm := termprocess_moved (s := s) hq
      by_cases hrq : r = q
      · rw [hrq, hm.self] at hr
        cases hr
      · rw [hm.other hrq] at hr
        exact ⟨fun ha => hrq (Option.some.inj ha).symm, hr⟩
  | @create q inp asid newAsid u supportFree old arg accepted popped created =>
    have hc := ho.owners.created old (s.vm.initSupport hd u newAsid) u supportFree newAsid
    refine hsilent (by simp [Sys.prints, SysEvent.actor, old, wayPrints]) fun r n hr => ?_
    by_cases hrn : r = s.next
    · rw [hrn, hc.program] at hr
      cases hr
    · by_cases hrq : r = q
      · rw [hrq, hc.shell] at hr
        cases hr
      · rw [hc.other r hrq hrn] at hr
        exact ⟨fun ha => hrq (Option.some.inj ha).symm, hr⟩
  | await old pass =>
    obtain ⟨-, rfl⟩ := passeren_eq_some pass
    exact hsilent rfl fun r n hr => ⟨by simp [SysEvent.actor], hr⟩
  | kill old => exact hsilent rfl fun r n hr => by cases hr

/-- What is sent has been loaded. -/
theorem Stepped.loaded (hstep : Stepped L hd s e s') {va : Addr} {w : Word} (h : .sent q va w ∈ s.prints e s') :
    ∃ c, s.loads L q va c ∧ w = (c <<< 8) ||| TRANSMITCHAR := by
  cases hstep with
  | @flow e r d st place s' actor flow allowed goes =>
    simp only [Sys.prints, actor, goes.toMoved.self] at h
    obtain ⟨hold, hnew, -⟩ | ⟨i, c, hold, hnew, -, hi, hload⟩ | ⟨hnil, -⟩ := flow.writes r
    · subst hnew
      rw [hold] at h
      simp [wayPrints] at h
    · subst hnew
      rw [hold] at h
      obtain ⟨rfl, rfl, rfl⟩ : q = r ∧ va = (s.state r).regA1 + BitVec.ofNat 32 i ∧ w = (c <<< 8) ||| TRANSMITCHAR := by
        simpa [wayPrints] using h
      exact ⟨c, hload, rfl⟩
    · rw [hnil] at h
      cases h
  | die old => simp [Sys.prints, SysEvent.actor, old, wayPrints] at h
  | create old arg accepted popped created => simp [Sys.prints, SysEvent.actor, old, wayPrints] at h
  | await old pass => cases h
  | kill old => cases h

end Prints

/-! ### Runs -/

section Runs
variable {L : PoolLayout} {hd : Handlers} {vm : Vm} {s₀ s : Sys} {es : List SysEvent}

theorem run_serial (hstart : Sys.start hd vm = some s₀) (hrun : Run (sysStep L hd) (fun _ _ => True) s₀ es s)
    (dev : Device) : Serial (s.waits dev) (trace (sysStep L hd) (Sys.ios dev) s₀ es) := by
  induction hrun with
  | nil =>
    refine ⟨fun pre a w post he => ?_, .inl ⟨rfl, fun q => Bool.eq_false_iff.mpr fun hq => ?_⟩⟩
    · simp [trace] at he
    · have := Sys.waits_holds hq
      rw [start_holds hstart] at this
      cases this
  | @snoc es s e s' hrun hok hstep ih =>
    have hguarded := run_guarded hstart (hrun.snoc hok hstep) dev.mutex_mutex
    rw [hrun.trace_snoc hstep]
    exact (run_orderly hstart hrun).serial_step (sysStep_stepped hstep) (fun q r => Sys.waits_one hguarded) ih

theorem run_transcript (hstart : Sys.start hd vm = some s₀) (hrun : Run (sysStep L hd) (fun _ _ => True) s₀ es s) :
    ∃ calls, Transcript (trace (sysStep L hd) Sys.prints s₀ es) calls s := by
  induction hrun with
  | nil =>
    refine ⟨[], rfl, (fun c hc => by cases hc), fun q n hq => ?_⟩
    have := Place.written_held hq
    rw [show Sem.terminalWriteSem.held (s₀.proc q).place = false from start_holds hstart q] at this
    cases this
  | @snoc es s e s' hrun hok hstep ih =>
    obtain ⟨calls, ih⟩ := ih
    have hguarded := run_guarded (x := .terminalWriteSem) hstart (hrun.snoc hok hstep) rfl
    rw [hrun.trace_snoc hstep]
    exact (run_orderly hstart hrun).transcript_step (sysStep_stepped hstep) hguarded.one ih

/-- **The devices are used by one U-proc at a time**, in every run: every status reaches
the U-proc that has given the command, and the characters of one WRITETERMINAL follow
each other. -/
theorem run_exclusive {L : PoolLayout} {hd : Handlers} {vm : Vm} {s₀ s : Sys} {es : List SysEvent}
    (hstart : Sys.start hd vm = some s₀) (hrun : Run (sysStep L hd) (fun _ _ => True) s₀ es s) :
    Exclusive L hd s₀ es s := by
  obtain ⟨calls, hcalls⟩ := run_transcript hstart hrun
  refine ⟨fun dev q r => ?_, fun dev => (run_serial hstart hrun dev).order, fun dev q hq => ?_,
    ⟨calls, hcalls.prints, hcalls.bound⟩, fun e s' hstep q va w h => (sysStep_stepped (h := hd) hstep).loaded h⟩
  · exact Sys.waits_one (run_guarded hstart hrun dev.mutex_mutex)
  · exact ((run_serial hstart hrun dev).waiting hq).1

end Runs

open SysSample in
theorem run_exclusive_sample :
    ∃ s, exec (sysStep layout handlers) sending start = some s ∧ s.waits .transmitter 0 = true ∧
      Exclusive layout handlers start sending s := by
  have hfollows : Follows (sysStep layout handlers) (fun _ _ => True) sending start := by
    decide +kernel
  obtain ⟨s, hexec, hrun⟩ := hfollows.run
  have hwaits : (exec (sysStep layout handlers) sending start).all (fun s => s.waits .transmitter 0) = true := by
    decide +kernel
  rw [hexec] at hwaits
  exact ⟨s, hexec, hwaits, run_exclusive start_eq hrun⟩

end MultiPandOS
