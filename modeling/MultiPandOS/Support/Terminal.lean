import MultiPandOS.Support.PageIndex

/-! The terminal system calls, each from its entry to its end.

`writeTerminalSys` and `readTerminalSys` run a whole call on the saved state, the memory of
the U-proc, what becomes of its accesses (`Paging`) and the statuses that the terminal
answers with, and answer what the call does (`Course`). READTERMINAL has no length: its
loop ends because the address advances to USERSTACKTOP. Both calls leave the handler in
the middle when a page of the buffer is not in the page table or does not come in; they
keep what they owe exactly if that does not happen (`terminal_calls_iff`). -/
namespace MultiPandOS

/-! ### The calls -/

/-- What a call does for others to see; `load` and `store` are the accesses to the
buffer, and a command of DOIO comes with the status it returns. -/
inductive CallAct where
  | passeren (x : Sem)
  | verhogen (x : Sem)
  | load (va : Addr) (c : Word)
  | store (va : Addr) (c : Word)
  | transmit (command status : Word)
  | receive (status : Word)
deriving DecidableEq

/-- `TerminateSys`, LDST of the state, or a page that is refilled for ever. -/
inductive Ending where
  | terminated
  | returned (st : State)
  | stuck

/-- What a call does, and how it ends. -/
structure Course where
  acts : List CallAct
  ending : Ending

namespace Course

def after (acts : List CallAct) (c : Course) : Course := ⟨acts ++ c.acts, c.ending⟩

@[simp] theorem after_acts (acts : List CallAct) (c : Course) : (c.after acts).acts = acts ++ c.acts := rfl
@[simp] theorem after_ending (acts : List CallAct) (c : Course) : (c.after acts).ending = c.ending := rfl
@[simp] theorem after_nil (c : Course) : c.after [] = c := rfl

@[simp] theorem after_after (acts acts' : List CallAct) (c : Course) :
    (c.after acts).after acts' = c.after (acts' ++ acts) := by
  simp only [after, List.append_assoc]

/-- The addresses that are read. -/
def loads (c : Course) : List Addr :=
  c.acts.filterMap fun
    | .load va _ => some va
    | _ => none

/-- The bytes that are written. -/
def stores (c : Course) : List (Addr × Word) :=
  c.acts.filterMap fun
    | .store va ch => some (va, ch)
    | _ => none

def commands (c : Course) : List Word :=
  c.acts.filterMap fun
    | .transmit command _ => some command
    | _ => none

def receipts (c : Course) : List Word :=
  c.acts.filterMap fun
    | .receive status => some status
    | _ => none

end Course

/-- `virtAddr[i]`. -/
def State.charAddr (st : State) (i : Nat) : Addr := st.regA1 + BitVec.ofNat 32 i

/-- The character in a status. -/
def received (status : Word) : Word := (status >>> 8) &&& 0xff

def succeeded (status : Word) : Prop := status &&& 0xff = OKCHARTRANS

instance (status : Word) : Decidable (succeeded status) := inferInstanceAs (Decidable (_ = _))

/-- The command that transmits the byte at `va`. -/
def cmdValue (mem : Addr → Word) (va : Addr) : Word := (mem va <<< 8) ||| TRANSMITCHAR

def leaveWrite (st : State) : Course := ⟨[.verhogen .terminalWriteSem], .returned st.advance⟩
def leaveRead (st : State) : Course := ⟨[.verhogen .terminalReadSem], .returned st.advance⟩

/-! #### Accesses to the buffer -/

/-- What becomes of an access: it is done, its U-proc is terminated, or it never ends. -/
inductive Attempt where
  | done
  | lost
  | endless
deriving DecidableEq

/-- The bytes of the buffer, whether the page of access number `i` comes in, and whether a
read past the end of the page table at an address is one past the end of memory too. -/
structure Paging where
  mem : Addr → Word
  comes : Nat → Bool
  busError : Addr → Bool

namespace Paging

/-- Access number `i`, at `va`. Page 0x8001F has the entry of the stack, which does not match. -/
def access (m : Paging) (i : Nat) (va : Addr) : Attempt :=
  if LaidOut va then if m.comes i then .done else .lost
  else if arrayIndex USERPGTBLSIZE (findPageIndex va) = none ∧ m.busError va = true then .lost
  else .endless

/-- Access number `i`, and `next` if it is done. -/
def before (m : Paging) (i : Nat) (va : Addr) (next : Course) : Course :=
  match m.access i va with
  | .done => next
  | .lost => ⟨[], .terminated⟩
  | .endless => ⟨[], .stuck⟩

end Paging

/-! #### The functions -/

/-- The loop of `WriteTerminalSys` at `i` with `n` characters to go, and what follows it;
`status i` is what its DOIO number `i` returns. -/
def writeLoop (m : Paging) (status : Nat → Word) (st : State) : Nat → Nat → Course
  | 0, _ => leaveWrite (st.setA0 st.regA2)
  | n + 1, i =>
    let va := st.charAddr i
    let next :=
      if succeeded (status i) then writeLoop m status st n (i + 1) else leaveWrite (st.setA0 (-status i))
    m.before i va (next.after [.load va (m.mem va), .transmit (cmdValue m.mem va) (status i)])

def writeTerminalSys (m : Paging) (status : Nat → Word) (st : State) : Course :=
  if badWrite st then ⟨[], .terminated⟩
  else (writeLoop m status st st.regA2.toInt.toNat 0).after [.passeren .terminalWriteSem]

theorem charAddr_succ {st : State} {len : Nat} (h : st.charAddr len < USERSTACKTOP) :
    (st.charAddr (len + 1)).toNat = (st.charAddr len).toNat + 1 := by
  have hnext : st.charAddr (len + 1) = st.charAddr len + 1 := by
    rw [State.charAddr, State.charAddr, BitVec.ofNat_add, BitVec.add_assoc]
    rfl
  have hlt : (st.charAddr len).toNat < 0xC0000000 := h
  rw [hnext, BitVec.toNat_add]
  show ((st.charAddr len).toNat + 1) % 2 ^ 32 = _
  omega

/-- The loop of `ReadTerminalSys` after `len` characters, and what follows it. -/
def readFrom (m : Paging) (status : Nat → Word) (st : State) (len : Nat) : Course :=
  if st.charAddr len < USERSTACKTOP then
    if succeeded (status len) then
      let character := received (status len)
      let next :=
        if character = 10 then leaveRead (st.setA0 (BitVec.ofNat 32 (len + 1))) else readFrom m status st (len + 1)
      (m.before len (st.charAddr len) (next.after [.store (st.charAddr len) character])).after [.receive (status len)]
    else (leaveRead (st.setA0 (-status len))).after [.receive (status len)]
  else ⟨[.verhogen .terminalReadSem], .terminated⟩
termination_by USERSTACKTOP.toNat - (st.charAddr len).toNat
decreasing_by
  rename_i hinside _ _
  have hlt : (st.charAddr len).toNat < USERSTACKTOP.toNat := hinside
  rw [charAddr_succ hinside]
  omega

def readTerminalSys (m : Paging) (status : Nat → Word) (st : State) : Course :=
  if badRead st then ⟨[], .terminated⟩
  else (readFrom m status st 0).after [.passeren .terminalReadSem]

/-! ### What the loops do -/

section Paging
variable {pg : Paging} {i : Nat} {va : Addr}

theorem access_done (hlaid : LaidOut va) (hcomes : pg.comes i = true) : pg.access i va = .done := by
  rw [Paging.access, if_pos hlaid, if_pos hcomes]

theorem access_failed (hlaid : LaidOut va) (hfails : pg.comes i = false) : pg.access i va = .lost := by
  rw [Paging.access, if_pos hlaid, if_neg (by simp [hfails])]

/-- No page that is laid out is past the end of the page table. -/
theorem not_laidOut (hindex : arrayIndex USERPGTBLSIZE (findPageIndex va) = none) : ¬ LaidOut va := by
  rintro ⟨p, hp⟩
  rw [findPageIndex_pageVpn hp] at hindex
  cases hindex

theorem access_past (hindex : arrayIndex USERPGTBLSIZE (findPageIndex va) = none) (herror : pg.busError va = true) :
    pg.access i va = .lost := by
  rw [Paging.access, if_neg (not_laidOut hindex), if_pos ⟨hindex, herror⟩]

theorem before_done (h : pg.access i va = .done) (next : Course) : pg.before i va next = next := by
  unfold Paging.before
  rw [h]

theorem before_lost (h : pg.access i va = .lost) (next : Course) : pg.before i va next = ⟨[], .terminated⟩ := by
  unfold Paging.before
  rw [h]

theorem before_endless (h : pg.access i va = .endless) (next : Course) : pg.before i va next = ⟨[], .stuck⟩ := by
  unfold Paging.before
  rw [h]

theorem before_left (h : pg.access i va ≠ .done) (next : Course) : (pg.before i va next).acts = [] := by
  cases hacc : pg.access i va with
  | done => exact absurd hacc h
  | lost => rw [before_lost hacc]
  | endless => rw [before_endless hacc]

end Paging

section Loops
variable (pg : Paging) (status : Nat → Word) (st : State)

/-- Access number `i` to the buffer is done. -/
def Done (i : Nat) : Prop := pg.access i (st.charAddr i) = .done

/-- One round of the loop of `WriteTerminalSys`. -/
def sendRound (i : Nat) : List CallAct :=
  [.load (st.charAddr i) (pg.mem (st.charAddr i)), .transmit (cmdValue pg.mem (st.charAddr i)) (status i)]

/-- One round of the loop of `ReadTerminalSys`. -/
def readRound (i : Nat) : List CallAct := [.receive (status i), .store (st.charAddr i) (received (status i))]

/-- How the loop of `WriteTerminalSys` ends that starts at `i` with `n` characters to go
and takes a number of rounds, and what it does after them. -/
inductive WriteEnds (n i : Nat) : Nat → List CallAct → Ending → Prop where
  | whole (ok : ∀ j, i ≤ j → j < i + n → succeeded (status j)) :
      WriteEnds n i n [.verhogen .terminalWriteSem] (.returned (st.setA0 st.regA2).advance)
  | failed {k} (early : k < n) (ok : ∀ j, i ≤ j → j < i + k → succeeded (status j))
      (failure : ¬ succeeded (status (i + k))) :
      WriteEnds n i (k + 1) [.verhogen .terminalWriteSem] (.returned (st.setA0 (-status (i + k))).advance)
  | left {k ending} (early : k < n) (ok : ∀ j, i ≤ j → j < i + k → succeeded (status j))
      (broken : ¬ Done pg st (i + k)) : WriteEnds n i k [] ending

theorem writeLoop_rounds (n i : Nat) : ∃ k tail, WriteEnds pg status st n i k tail (writeLoop pg status st n i).ending ∧
    (writeLoop pg status st n i).acts = (List.range' i k).flatMap (sendRound pg status st) ++ tail ∧
    ∀ j, i ≤ j → j < i + k → Done pg st j := by
  induction n generalizing i with
  | zero => exact ⟨0, _, .whole fun j hij hj => absurd hj (by omega), rfl, fun j hij hj => absurd hj (by omega)⟩
  | succ n ih =>
    by_cases hdone : Done pg st i
    · have hnext := before_done hdone
      by_cases hok : succeeded (status i)
      · obtain ⟨k, tail, hends, hacts, hall⟩ := ih (i + 1)
        have hfirst : ∀ k {p : Nat → Prop}, p i → (∀ j, i + 1 ≤ j → j < i + 1 + k → p j) →
            ∀ j, i ≤ j → j < i + (k + 1) → p j := by
          intro k p hp hk j hij hj
          rcases Nat.eq_or_lt_of_le hij with rfl | hlt
          · exact hp
          · exact hk j hlt (by omega)
        refine ⟨k + 1, tail, ?_, ?_, hfirst k hdone hall⟩
        · simp only [writeLoop, hnext, if_pos hok, Course.after_ending]
          generalize (writeLoop pg status st n (i + 1)).ending = ending at hends
          cases hends with
          | whole ok => exact .whole (hfirst n hok ok)
          | @failed k early ok failure =>
            rw [show i + 1 + k = i + (k + 1) by omega] at failure ⊢
            exact .failed (by omega) (hfirst k hok ok) failure
          | left early ok broken =>
            rw [show i + 1 + k = i + (k + 1) by omega] at broken
            exact .left (by omega) (hfirst k hok ok) broken
        · simp only [writeLoop, hnext, if_pos hok, Course.after_acts, hacts, List.range'_succ, List.flatMap_cons,
            List.append_assoc]
          rfl
      · refine ⟨1, [.verhogen .terminalWriteSem], ?_, ?_, fun j hij hj => ?_⟩
        · simp only [writeLoop, hnext, if_neg hok, Course.after_ending]
          exact .failed (k := 0) (by omega) (fun j hij hj => absurd hj (by omega)) hok
        · simp only [writeLoop, hnext, if_neg hok, Course.after_acts]
          rfl
        · obtain rfl : j = i := by omega
          exact hdone
    · refine ⟨0, [], .left (k := 0) (by omega) (fun j hij hj => absurd hj (by omega)) hdone, ?_,
        fun j hij hj => absurd hj (by omega)⟩
      exact before_left hdone _

/-- A character that does not end the line, at an address that may be written. -/
def Inside (i : Nat) : Prop := st.charAddr i < USERSTACKTOP ∧ succeeded (status i) ∧ received (status i) ≠ 10

/-- How the loop of `ReadTerminalSys` ends that starts at `len` and takes a number of
rounds, and what it does after them. -/
inductive ReadEnds (len : Nat) : Nat → List CallAct → Ending → Prop where
  | limit {n} (inside : ∀ j, len ≤ j → j < len + n → Inside status st j)
      (outside : ¬ st.charAddr (len + n) < USERSTACKTOP) : ReadEnds len n [.verhogen .terminalReadSem] .terminated
  | failed {n} (inside : ∀ j, len ≤ j → j < len + n → Inside status st j) (failure : ¬ succeeded (status (len + n))) :
      ReadEnds len n [.receive (status (len + n)), .verhogen .terminalReadSem]
        (.returned (st.setA0 (-status (len + n))).advance)
  | line {n} (inside : ∀ j, len ≤ j → j < len + n → Inside status st j)
      (last : st.charAddr (len + n) < USERSTACKTOP) (ok : succeeded (status (len + n)))
      (newline : received (status (len + n)) = 10) :
      ReadEnds len (n + 1) [.verhogen .terminalReadSem] (.returned (st.setA0 (BitVec.ofNat 32 (len + n + 1))).advance)
  | left {n ending} (inside : ∀ j, len ≤ j → j < len + n → Inside status st j)
      (last : st.charAddr (len + n) < USERSTACKTOP) (ok : succeeded (status (len + n)))
      (broken : ¬ Done pg st (len + n)) : ReadEnds len n [.receive (status (len + n))] ending

/-- One more round at the start. -/
theorem ReadEnds.succ {len n : Nat} {tail : List CallAct} {ending : Ending} (hfirst : Inside status st len)
    (h : ReadEnds pg status st (len + 1) n tail ending) : ReadEnds pg status st len (n + 1) tail ending := by
  have hall : ∀ k, (∀ j, len + 1 ≤ j → j < len + 1 + k → Inside status st j) →
      ∀ j, len ≤ j → j < len + (k + 1) → Inside status st j := by
    intro k hk j hij hj
    rcases Nat.eq_or_lt_of_le hij with rfl | hlt
    · exact hfirst
    · exact hk j hlt (by omega)
  have hshift : ∀ k, len + 1 + k = len + (k + 1) := by
    intro k
    omega
  cases h with
  | limit inside outside => exact .limit (hall n inside) (hshift n ▸ outside)
  | failed inside failure =>
    rw [hshift n] at failure ⊢
    exact .failed (hall n inside) failure
  | @line k inside last ok newline =>
    rw [hshift k] at last ok newline ⊢
    exact .line (hall k inside) last ok newline
  | left inside last ok broken =>
    rw [hshift n] at last ok broken ⊢
    exact .left (hall n inside) last ok broken

theorem readFrom_rounds (len : Nat) : ∃ n tail, ReadEnds pg status st len n tail (readFrom pg status st len).ending ∧
    (readFrom pg status st len).acts = (List.range' len n).flatMap (readRound status st) ++ tail ∧
    ∀ j, len ≤ j → j < len + n → Done pg st j := by
  have hnone : ∀ {len j : Nat}, len ≤ j → j < len + 0 → Inside status st j ∧ Done pg st j := by
    intro len j hij hj
    omega
  fun_induction readFrom pg status st len with
  | case1 len hinside hok character next ih =>
    by_cases hdone : Done pg st len
    · have hnext := before_done hdone
      have hone : ∀ j, len ≤ j → j < len + 1 → Done pg st j := by
        intro j hij hj
        obtain rfl : j = len := by omega
        exact hdone
      by_cases hline : received (status len) = 10
      · refine ⟨1, [.verhogen .terminalReadSem], ?_, ?_, hone⟩
        · simp only [hnext, next, character, dif_pos hline, Course.after_ending]
          exact .line (n := 0) (fun j hij hj => (hnone hij hj).1) hinside hok hline
        · simp only [hnext, next, character, dif_pos hline, Course.after_acts]
          rfl
      · obtain ⟨n, tail, hends, hacts, hall⟩ := ih
        refine ⟨n + 1, tail, ?_, ?_, fun j hij hj => ?_⟩
        · simp only [hnext, next, character, dif_neg hline, Course.after_ending]
          exact hends.succ _ _ _ ⟨hinside, hok, hline⟩
        · simp only [hnext, next, character, dif_neg hline, Course.after_acts, hacts, List.range'_succ,
            List.flatMap_cons, List.append_assoc]
          rfl
        · rcases Nat.eq_or_lt_of_le hij with rfl | hlt
          · exact hdone
          · exact hall j hlt (by omega)
    · refine ⟨0, [.receive (status len)], .left (n := 0) (fun j hij hj => (hnone hij hj).1) hinside hok hdone, ?_,
        fun j hij hj => (hnone hij hj).2⟩
      rw [Course.after_acts, before_left hdone]
      rfl
  | case2 len hinside hfailed =>
    exact ⟨0, _, .failed (n := 0) (fun j hij hj => (hnone hij hj).1) hfailed, rfl, fun j hij hj => (hnone hij hj).2⟩
  | case3 len houtside =>
    exact ⟨0, _, .limit (n := 0) (fun j hij hj => (hnone hij hj).1) houtside, rfl, fun j hij hj => (hnone hij hj).2⟩

end Loops

/-! ### READTERMINAL -/

section Read
variable (status : Nat → Word) (st : State)

/-- How READTERMINAL ends that has stored `n` characters and received `m` statuses. -/
inductive ReadResult : Nat → Nat → Ending → Prop where
  | refused (bad : badRead st) : ReadResult 0 0 .terminated
  /-- The write position reaches the end of the user space. -/
  | limit {n} (characters : ∀ i, i < n → succeeded (status i) ∧ received (status i) ≠ 10)
      (full : st.regA1.toNat + n = USERSTACKTOP.toNat) : ReadResult n n .terminated
  | failed {n} (characters : ∀ i, i < n → succeeded (status i) ∧ received (status i) ≠ 10)
      (failure : ¬ succeeded (status n)) : ReadResult n (n + 1) (.returned (st.setA0 (-status n)).advance)
  | line {n} (characters : ∀ i, i < n → succeeded (status i) ∧ received (status i) ≠ 10)
      (ok : succeeded (status n)) (newline : received (status n) = 10) :
      ReadResult (n + 1) (n + 1) (.returned (st.setA0 (BitVec.ofNat 32 (n + 1))).advance)

/-- What READTERMINAL owes. -/
structure ReadsLine (c : Course) : Prop where
  result : ∃ n m, ReadResult status st n m c.ending ∧
    c.stores = (List.range n).map (fun i => (st.charAddr i, received (status i))) ∧
    c.receipts = (List.range m).map status
  inside : ∀ x ∈ c.stores, KUSEG ≤ x.1 ∧ x.1 < USERSTACKTOP
  once : c.acts.count (.passeren .terminalReadSem) ≤ 1
  released : c.acts.count (.verhogen .terminalReadSem) = c.acts.count (.passeren .terminalReadSem)

variable {pg : Paging} {status st}

theorem charAddr_toNat {n : Nat} (h : ∀ i, i < n → st.charAddr i < USERSTACKTOP) :
    (st.charAddr n).toNat = st.regA1.toNat + n := by
  induction n with
  | zero =>
    show (st.regA1 + 0#32).toNat = _
    rw [BitVec.add_zero]
    rfl
  | succ n ih =>
    rw [charAddr_succ (h n (Nat.lt_succ_self n)), ih fun i hi => h i (Nat.lt_succ_of_lt hi)]
    omega

/-- The addresses of a buffer that starts and stays below USERSTACKTOP. -/
theorem charAddr_inside {n i : Nat} (hbad : ¬ badRead st) (h : ∀ i, i < n → st.charAddr i < USERSTACKTOP) (hi : i < n) :
    KUSEG ≤ st.charAddr i ∧ st.charAddr i < USERSTACKTOP := by
  have hlow : ¬ st.regA1.toNat < KUSEG.toNat := fun hlt => hbad (.inl hlt)
  have haddr := charAddr_toNat fun j (hj : j < i) => h j (hj.trans hi)
  refine ⟨?_, h i hi⟩
  show KUSEG.toNat ≤ (st.charAddr i).toNat
  omega

/-- At the end of the user space. -/
theorem charAddr_full {n : Nat} (hbad : ¬ badRead st) (h : ∀ i, i < n → st.charAddr i < USERSTACKTOP)
    (houtside : ¬ st.charAddr n < USERSTACKTOP) : st.regA1.toNat + n = USERSTACKTOP.toNat := by
  have haddr := charAddr_toNat h
  have hout : ¬ (st.charAddr n).toNat < USERSTACKTOP.toNat := houtside
  cases n with
  | zero =>
    have hhigh : ¬ USERSTACKTOP.toNat ≤ st.regA1.toNat := fun hle => hbad (.inr hle)
    omega
  | succ n =>
    have hlast : (st.charAddr n).toNat < USERSTACKTOP.toNat := h n (Nat.lt_succ_self n)
    rw [charAddr_toNat fun i hi => h i (Nat.lt_succ_of_lt hi)] at hlast
    omega

/-- The accesses that READTERMINAL makes, as long as those before are done. -/
structure ReadTouches (status : Nat → Word) (st : State) (i : Nat) : Prop where
  accepted : ¬ badRead st
  received : ∀ j, j ≤ i → st.charAddr j < USERSTACKTOP ∧ succeeded (status j)
  line : ∀ j, j < i → MultiPandOS.received (status j) ≠ 10

/-- A call that is not left in the middle. -/
theorem ReadEnds.result {n : Nat} {tail : List CallAct} {ending : Ending} (hbad : ¬ badRead st)
    (h : ReadEnds pg status st 0 n tail ending) :
    (∃ i, ReadTouches status st i ∧ ¬ Done pg st i ∧ tail = [.receive (status i)]) ∨
      (∀ i, i < n → st.charAddr i < USERSTACKTOP) ∧ (∀ i, ReadTouches status st i → i < n) ∧
      ∃ m, ReadResult status st n m ending ∧ ((tail = [.verhogen .terminalReadSem] ∧ m = n) ∨
        tail = [.receive (status n), .verhogen .terminalReadSem] ∧ m = n + 1) := by
  cases h with
  | limit inside outside =>
    rw [Nat.zero_add] at inside outside
    have haddr : ∀ i, i < n → st.charAddr i < USERSTACKTOP := fun i hi => (inside i (Nat.zero_le i) hi).1
    refine .inr ⟨haddr, fun i hi => ?_, n, .limit (fun i hi => (inside i (Nat.zero_le i) hi).2)
      (charAddr_full hbad haddr outside), .inl ⟨rfl, rfl⟩⟩
    exact Nat.lt_of_not_le fun hle => outside (hi.received n hle).1
  | failed inside failure =>
    rw [Nat.zero_add] at inside failure ⊢
    refine .inr ⟨fun i hi => (inside i (Nat.zero_le i) hi).1, fun i hi => ?_, n + 1,
      .failed (fun i hi => (inside i (Nat.zero_le i) hi).2) failure, .inr ⟨rfl, rfl⟩⟩
    exact Nat.lt_of_not_le fun hle => failure (hi.received n hle).2
  | @line k inside last ok newline =>
    rw [Nat.zero_add] at inside last ok newline ⊢
    refine .inr ⟨fun i hi => ?_, fun i hi => ?_, k + 1,
      .line (fun i hi => (inside i (Nat.zero_le i) hi).2) ok newline, .inl ⟨rfl, rfl⟩⟩
    · rcases Nat.eq_or_lt_of_le (Nat.le_of_lt_succ hi) with rfl | hlt
      · exact last
      · exact (inside i (Nat.zero_le i) hlt).1
    · exact Nat.lt_of_not_le fun hle => hi.line k hle newline
  | left inside last ok broken =>
    rw [Nat.zero_add] at inside last ok broken ⊢
    refine .inl ⟨n, ⟨hbad, fun j hj => ?_, fun j hj => (inside j (Nat.zero_le j) hj).2.2⟩, broken, rfl⟩
    rcases Nat.eq_or_lt_of_le hj with rfl | hlt
    · exact ⟨last, ok⟩
    · exact ⟨(inside j (Nat.zero_le j) hlt).1, (inside j (Nat.zero_le j) hlt).2.1⟩

/-- The rounds take and give nothing. -/
theorem readRounds_count (n : Nat) (x : Sem) {act : CallAct} (hact : act = .passeren x ∨ act = .verhogen x) :
    ((List.range n).flatMap (readRound status st)).count act = 0 := by
  rw [List.count_eq_zero]
  obtain rfl | rfl := hact <;> simp [readRound]

theorem readTerminalSys_reads_iff (pg : Paging) (status : Nat → Word) (st : State) :
    ReadsLine status st (readTerminalSys pg status st) ↔ ∀ i, ReadTouches status st i → Done pg st i := by
  by_cases hbad : badRead st
  · have hcourse : readTerminalSys pg status st = ⟨[], .terminated⟩ := if_pos hbad
    rw [hcourse]
    refine iff_of_true ?_ fun i hi => absurd hbad hi.accepted
    exact ⟨⟨0, 0, .refused hbad, rfl, rfl⟩, by simp [Course.stores], by simp, rfl⟩
  · have hcourse : readTerminalSys pg status st = (readFrom pg status st 0).after [.passeren .terminalReadSem] :=
      if_neg hbad
    obtain ⟨n, tail, hends, hacts, hdone⟩ := readFrom_rounds pg status st 0
    rw [← List.range_eq_range'] at hacts
    have hcount : ∀ act, act = .passeren .terminalReadSem ∨ act = .verhogen .terminalReadSem →
        (readTerminalSys pg status st).acts.count act = [.passeren .terminalReadSem].count act + tail.count act := by
      intro act hact
      rw [hcourse, Course.after_acts, hacts, List.count_append, List.count_append, readRounds_count n _ hact, Nat.zero_add]
    obtain ⟨i, htouches, hbroken, rfl⟩ | ⟨haddr, htouched, m, hresult, htail⟩ := hends.result hbad
    · -- the P is done and the V is not
      refine iff_of_false (fun hreads => ?_) fun hall => hbroken (hall i htouches)
      have hreleased := hreads.released
      rw [hcount _ (.inl rfl), hcount _ (.inr rfl)] at hreleased
      cases hreleased
    · refine iff_of_true ?_ fun i hi => hdone i (Nat.zero_le i) (by rw [Nat.zero_add]; exact htouched i hi)
      have hstores : (readTerminalSys pg status st).stores =
          (List.range n).map fun i => (st.charAddr i, received (status i)) := by
        rw [hcourse, Course.stores, Course.after_acts, hacts, List.map_eq_flatMap]
        obtain ⟨rfl, -⟩ | ⟨rfl, -⟩ := htail <;> simp [List.filterMap_flatMap, readRound]
      have hreceipts : (readTerminalSys pg status st).receipts = (List.range m).map status := by
        rw [hcourse, Course.receipts, Course.after_acts, hacts, List.map_eq_flatMap]
        obtain ⟨rfl, rfl⟩ | ⟨rfl, rfl⟩ := htail
        · simp [List.filterMap_flatMap, readRound]
        · simp [List.filterMap_flatMap, readRound, List.range_succ]
      have hpasseren : (readTerminalSys pg status st).acts.count (.passeren .terminalReadSem) = 1 := by
        rw [hcount _ (.inl rfl)]
        obtain ⟨rfl, -⟩ | ⟨rfl, -⟩ := htail <;> rfl
      have hverhogen : (readTerminalSys pg status st).acts.count (.verhogen .terminalReadSem) = 1 := by
        rw [hcount _ (.inr rfl)]
        obtain ⟨rfl, -⟩ | ⟨rfl, -⟩ := htail <;> rfl
      refine ⟨⟨n, m, ?_, hstores, hreceipts⟩, ?_, hpasseren.le, hverhogen.trans hpasseren.symm⟩
      · rw [hcourse]
        exact hresult
      · intro x hx
        rw [hstores] at hx
        obtain ⟨i, hi, rfl⟩ := List.mem_map.mp hx
        exact charAddr_inside hbad haddr (List.mem_range.mp hi)

end Read

/-! ### WRITETERMINAL -/

section Write
variable (mem : Addr → Word) (status : Nat → Word) (st : State)

/-- How an accepted WRITETERMINAL ends that has sent `m` commands. -/
inductive WriteResult : Nat → Ending → Prop where
  | whole (ok : ∀ i, i < st.regA2.toNat → succeeded (status i)) :
      WriteResult st.regA2.toNat (.returned (st.setA0 st.regA2).advance)
  | failed {n} (early : n < st.regA2.toNat) (ok : ∀ i, i < n → succeeded (status i))
      (failure : ¬ succeeded (status n)) : WriteResult (n + 1) (.returned (st.setA0 (-status n)).advance)

/-- What an accepted WRITETERMINAL owes. -/
structure Transmits (c : Course) : Prop where
  result : ∃ m, WriteResult status st m c.ending ∧
    c.commands = (List.range m).map (fun i => cmdValue mem (st.charAddr i)) ∧
    ∀ i, i < m → (st.charAddr i).toNat = st.regA1.toNat + i
  once : c.acts.count (.passeren .terminalWriteSem) = 1
  released : c.acts.count (.verhogen .terminalWriteSem) = 1

/-- The accesses that an accepted WRITETERMINAL makes, as long as those before are done. -/
structure WriteTouches (i : Nat) : Prop where
  early : i < st.regA2.toNat
  sent : ∀ j, j < i → succeeded (status j)

variable {mem status st} {pg : Paging}

theorem accepted_write (h : ¬ badWrite st) : 0 ≤ st.regA2.toInt ∧ st.regA2.toInt ≤ 128 ∧
    KUSEG.toNat ≤ st.regA1.toNat ∧ (st.regA1 + st.regA2).toNat ≤ USERSTACKTOP.toNat := by
  unfold badWrite at h
  simp only [not_or] at h
  obtain ⟨hlow, hhigh, hstart, hend⟩ := h
  exact ⟨by omega, by omega, Nat.le_of_not_lt hstart, Nat.le_of_not_lt hend⟩

/-- A buffer that does not wrap. -/
theorem charAddr_unwrapped {i : Nat} (h : st.regA1.toNat + i < 2 ^ 32) :
    (st.charAddr i).toNat = st.regA1.toNat + i := by
  rw [State.charAddr, BitVec.toNat_add, BitVec.toNat_ofNat, Nat.mod_eq_of_lt (show i < 2 ^ 32 by omega),
    Nat.mod_eq_of_lt h]

/-- A call that is not left in the middle. -/
theorem WriteEnds.result {k : Nat} {tail : List CallAct} {ending : Ending}
    (h : WriteEnds pg status st st.regA2.toNat 0 k tail ending) :
    (∃ i, WriteTouches status st i ∧ ¬ Done pg st i ∧ tail = []) ∨
      (∀ i, WriteTouches status st i → i < k) ∧ k ≤ st.regA2.toNat ∧ WriteResult status st k ending ∧
        tail = [.verhogen .terminalWriteSem] := by
  cases h with
  | whole ok =>
    rw [Nat.zero_add] at ok
    exact .inr ⟨fun i hi => hi.early, Nat.le_refl _, .whole fun i hi => ok i (Nat.zero_le i) hi, rfl⟩
  | @failed k early ok failure =>
    rw [Nat.zero_add] at ok failure ⊢
    refine .inr ⟨fun i hi => ?_, early, .failed early (fun i hi => ok i (Nat.zero_le i) hi) failure, rfl⟩
    exact Nat.lt_of_not_le fun hle => failure (hi.sent k hle)
  | left early ok broken =>
    rw [Nat.zero_add] at ok broken
    exact .inl ⟨k, ⟨early, fun j hj => ok j (Nat.zero_le j) hj⟩, broken, rfl⟩

/-- The rounds take and give nothing. -/
theorem sendRounds_count (k : Nat) (x : Sem) {act : CallAct} (hact : act = .passeren x ∨ act = .verhogen x) :
    ((List.range k).flatMap (sendRound pg status st)).count act = 0 := by
  rw [List.count_eq_zero]
  obtain rfl | rfl := hact <;> simp [sendRound]

theorem writeTerminalSys_transmits_iff (hbad : ¬ badWrite st) (hwrap : st.regA1.toNat + st.regA2.toNat < 2 ^ 32) :
    Transmits pg.mem status st (writeTerminalSys pg status st) ↔ ∀ i, WriteTouches status st i → Done pg st i := by
  have hlen : st.regA2.toInt.toNat = st.regA2.toNat := by
    rw [toInt_toNat (accepted_write hbad).1, Int.toNat_natCast]
  have hcourse : writeTerminalSys pg status st =
      (writeLoop pg status st st.regA2.toNat 0).after [.passeren .terminalWriteSem] := by
    rw [writeTerminalSys, if_neg hbad, hlen]
  obtain ⟨k, tail, hends, hacts, hdone⟩ := writeLoop_rounds pg status st st.regA2.toNat 0
  rw [← List.range_eq_range'] at hacts
  have hcount : ∀ act, act = .passeren .terminalWriteSem ∨ act = .verhogen .terminalWriteSem →
      (writeTerminalSys pg status st).acts.count act = [.passeren .terminalWriteSem].count act + tail.count act := by
    intro act hact
    rw [hcourse, Course.after_acts, hacts, List.count_append, List.count_append, sendRounds_count k _ hact, Nat.zero_add]
  obtain ⟨i, htouches, hbroken, rfl⟩ | ⟨htouched, hk, hresult, rfl⟩ := hends.result
  · -- the P is done and the V is not
    refine iff_of_false (fun htransmits => ?_) fun hall => hbroken (hall i htouches)
    have hreleased := htransmits.released
    rw [hcount _ (.inr rfl)] at hreleased
    cases hreleased
  · refine iff_of_true ⟨⟨k, ?_, ?_, fun i hi => charAddr_unwrapped (by omega)⟩, ?_, ?_⟩
      fun i hi => hdone i (Nat.zero_le i) (by rw [Nat.zero_add]; exact htouched i hi)
    · rw [hcourse]
      exact hresult
    · rw [hcourse, Course.commands, Course.after_acts, hacts, List.map_eq_flatMap]
      simp [List.filterMap_flatMap, sendRound]
    · exact hcount _ (.inl rfl)
    · exact hcount _ (.inr rfl)

end Write

/-- **The terminal system calls**: READTERMINAL stores what it receives up to the end of the
line or of the user space or the first failure, an accepted WRITETERMINAL that does not wrap
sends its buffer up to the first failure, and both release the terminal, exactly if every
page they touch is in the page table and comes in. -/
theorem terminal_calls_iff (pg : Paging) (status : Nat → Word) (st : State) :
    (ReadsLine status st (readTerminalSys pg status st) ↔ ∀ i, ReadTouches status st i → Done pg st i) ∧
      (¬ badWrite st → st.regA1.toNat + st.regA2.toNat < 2 ^ 32 →
        (Transmits pg.mem status st (writeTerminalSys pg status st) ↔ ∀ i, WriteTouches status st i → Done pg st i)) :=
  ⟨readTerminalSys_reads_iff pg status st, writeTerminalSys_transmits_iff⟩

namespace TerminalSample

/-- One byte at the start of the user space. -/
def st : State :=
  let gpr : Fin 32 → Word := fun r => if r.val = 11 then KUSEG else if r.val = 12 then 1 else 0
  {State.zero with gpr := gpr}

/-- Every page that there is comes in. -/
def pages : Paging := ⟨fun _ => 65, fun _ => true, fun _ => true⟩

/-- The terminal sends or receives a newline. -/
def newline (_ : Nat) : Word := 0xA05

end TerminalSample

open TerminalSample in
theorem terminal_calls_iff_sample :
    ReadsLine newline st (readTerminalSys pages newline st) ∧
      Transmits pages.mem newline st (writeTerminalSys pages newline st) := by
  have hlaid : LaidOut (st.charAddr 0) := by
    decide +kernel
  have hdone : Done pages st 0 := access_done hlaid rfl
  obtain ⟨hread, hwrite⟩ := terminal_calls_iff pages newline st
  refine ⟨hread.mpr fun i hi => ?_, (hwrite (by decide) (by decide)).mpr fun i hi => ?_⟩
  · cases i with
    | zero => exact hdone
    | succ i => exact absurd rfl (hi.line 0 (Nat.succ_pos i))
  · obtain rfl : i = 0 := Nat.lt_one_iff.mp hi.early
    exact hdone

end MultiPandOS
