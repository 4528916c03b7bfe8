import MultiPandOS.Support.Handshake

/-! The flash transfers of the pager.

A pager pass goes from the entry of the critical section to its end: it writes the page
of its victim back, reads its own, marks it valid and resumes the process, or releases
the swap pool and terminates. Nobody else moves a process out of its pager
(`Orderly.pager_kept`), so what a pass has done is known from where it is (`Trail`).
`writeToDevice` takes the status 4 for a failure and `readFromDevice` the status 5; after
any other failure the pass goes on as if the device were ready. -/
namespace MultiPandOS
open Runs

/-! ### What a pass does -/

inductive Deed where
  | write (status : Word)
  | read (status : Word)
  | mark (k : PtePtr)
  | release
deriving DecidableEq

/-- A transfer that has succeeded, or no transfer. -/
def Deed.Ready : Deed → Prop
  | .write status => status &&& 0xff = 1
  | .read status => status &&& 0xff = 1
  | _ => True

instance : DecidablePred Deed.Ready
  | .write _ => inferInstanceAs (Decidable (_ = _))
  | .read _ => inferInstanceAs (Decidable (_ = _))
  | .mark _ => isTrue trivial
  | .release => isTrue trivial

/-- The entries that become valid, or change and are valid. -/
def marked (vm vm' : Vm) : List PtePtr :=
  ((List.finRange UPROCMAX).product (List.finRange USERPGTBLSIZE)).filter fun k =>
    (vm'.pte k).valid ∧ vm'.pte k ≠ vm.pte k

/-- The transfer that DOIO ends at `place`. -/
def PagerAt.transfer (status : Word) : PagerAt → List Deed
  | .evicted _ _ _ => [.write status]
  | .reading _ _ => [.read status]
  | _ => []

/-- What the pager of `q` does in a step. -/
def deeds (q : Nat) (s : Sys) (e : SysEvent) (s' : Sys) : List Deed :=
  match e with
  | .go r inp =>
    if r = q then
      match (s.proc q).place with
      | .pager place _ =>
        place.transfer inp.status ++ (marked s.vm s'.vm).map .mark ++
          if s'.sem .swapPoolSemaphore = s.sem .swapPoolSemaphore + 1 then [.release] else []
      | _ => []
    else []
  | _ => []

/-- In its critical section. -/
def Place.paging : Place → Bool
  | .pager _ _ => true
  | _ => false

/-- What a pass owes that has done `ds` and has gone to `place`; `k` is what it had
interrupted. -/
structure Handled (ds : List Deed) (k : Code) (place : Place) : Prop where
  /-- No page is marked valid and the process does not go on unless the device was ready. -/
  success : (∃ x, .mark x ∈ ds) ∨ place = .code k → ∀ d ∈ ds, d.Ready
  failure : (∃ d ∈ ds, ¬ d.Ready) → ds.count .release = 1 ∧ (∃ a, place = .terminate .lock a) ∧ ∀ x, .mark x ∉ ds

/-- Every transfer has succeeded, or one of them has failed with the status that its
function tests. -/
def Noticed (ds : List Deed) : Prop :=
  (∀ d ∈ ds, d.Ready) ∨ (∃ status, .write status ∈ ds ∧ status &&& 0xff = 4) ∨
    ∃ status, .read status ∈ ds ∧ status &&& 0xff = 5

/-! ### Where a pass is -/

/-- What has been done before the read. -/
def Evicted (ws : List Deed) : Prop := ws = [] ∨ ∃ status, ws = [.write status] ∧ status &&& 0xff ≠ 4

inductive Trail : PagerAt → List Deed → Prop where
  | locked : Trail .locked []
  | chosen {p f} : Trail (.chosen p f) []
  | evicted {p f a} : Trail (.evicted p f a) []
  | wrote {p f a status} : Trail (.wrote p f a status) [.write status]
  | reading {p f ws} (before : Evicted ws) : Trail (.reading p f) ws
  | got {p f a ws status} (before : Evicted ws) : Trail (.got p f a status) (ws ++ [.read status])
  | loaded {p f ws status} (before : Evicted ws) (ok : status &&& 0xff ≠ 5) :
      Trail (.loaded p f) (ws ++ [.read status])
  | published {ws status} {ks : List PtePtr} (before : Evicted ws) (ok : status &&& 0xff ≠ 5) :
      Trail .published (ws ++ [.read status] ++ ks.map .mark)
  | writeFailed {a status} (error : status &&& 0xff = 4) : Trail (.failed a) [.write status]
  | readFailed {a ws status} (before : Evicted ws) (error : status &&& 0xff = 5) :
      Trail (.failed a) (ws ++ [.read status])

section Steps
variable {L : PoolLayout} {hd : Handlers} {q : Nat} {k : Code} {place place' : PagerAt} {s s' : Sys} {e : SysEvent}
  {ds : List Deed}

theorem marked_nil {vm vm' : Vm} (h : ∀ k, (vm'.pte k).valid → vm'.pte k = vm.pte k) : marked vm vm' = [] := by
  rw [marked, List.filter_eq_nil_iff]
  intro k _ hk
  obtain ⟨hvalid, hne⟩ := of_decide_eq_true hk
  exact hne (h k hvalid)

/-- Only the last step of a pass marks a page. -/
theorem marked_pagerStep {u : SupPtr} {a : Answer} {vm vm' : Vm} (hloaded : ∀ p f, place ≠ .loaded p f)
    (hstep : pagerStep L u a place vm = some (place', vm')) : marked vm vm' = [] := by
  cases pagerStep_effect hstep with
  | @evict p f k' occupied record =>
    refine marked_nil fun k hvalid => ?_
    by_cases hk : k = k'
    · subst hk
      exact absurd hvalid (pte_invalidate_not_valid k vm)
    · exact pte_invalidate_of_ne hk vm
  | @publish p f => exact absurd rfl (hloaded p f)
  | _ => exact marked_nil fun _ _ => rfl

/-- A step of the pager within its critical section. -/
theorem Trail.step {u : SupPtr} {a : Answer} {vm vm' : Vm} (h : Trail place ds)
    (hstep : pagerStep L u a place vm = some (place', vm')) :
    Trail place' (ds ++ (place.transfer a.status ++ (marked vm vm').map .mark)) := by
  by_cases hloaded : ∃ p f, place = .loaded p f
  · obtain ⟨p, f, rfl⟩ := hloaded
    cases pagerStep_effect hstep with
    | publish =>
      cases h with
      | loaded before ok => exact .published before ok
  · have hnone := marked_pagerStep (fun p f hp => hloaded ⟨p, f, hp⟩) hstep
    rw [hnone, List.map_nil, List.append_nil]
    cases pagerStep_effect hstep with
    | choose index victim =>
      cases h
      exact .chosen
    | vacant free =>
      cases h
      exact .reading (.inl rfl)
    | evict occupied record =>
      cases h
      exact .evicted
    | write device =>
      cases h
      exact .wrote
    | writeError error =>
      cases h
      exact .writeFailed error
    | written ok =>
      cases h
      exact .reading (.inr ⟨_, rfl, ok⟩)
    | read device =>
      cases h with
      | reading before => exact .got before
    | readError error =>
      show Trail _ (ds ++ [])
      rw [List.append_nil]
      cases h with
      | got before => exact .readFailed before error
    | filled ok =>
      show Trail _ (ds ++ [])
      rw [List.append_nil]
      cases h with
      | got before => exact .loaded before ok
    | publish => exact absurd ⟨_, _, rfl⟩ hloaded

/-- Nobody else moves a U-proc out of its pager. -/
theorem Orderly.pager_kept (h : Orderly s) (hstep : Stepped L hd s e s') (hq : (s.proc q).place.paging = true)
    (hactor : e.actor ≠ some q) : (s'.proc q).place = (s.proc q).place := by
  obtain ⟨place, k, hplace⟩ : ∃ place k, (s.proc q).place = .pager place k := by
    cases hplace : (s.proc q).place with
    | pager place k => exact ⟨place, k, rfl⟩
    | _ =>
      rw [hplace] at hq
      cases hq
  exact h.place_running hstep (by rw [hplace]; rfl) (by simp [hplace]) hactor

theorem deeds_other (hactor : e.actor ≠ some q) : deeds q s e s' = [] := by
  cases e with
  | go r inp => exact if_neg fun he => hactor (congrArg some he)
  | _ => rfl

/-- Where a pass can be, and where it ends. -/
def Passing (k : Code) (ds : List Deed) : Place → Prop
  | .pager place k' => k' = k ∧ Trail place ds
  | .code k' => k' = k ∧ ∃ ds', ds = ds' ++ [.release] ∧ Trail .published ds'
  | .terminate .lock a => ∃ ds', ds = ds' ++ [.release] ∧ Trail (.failed a) ds'
  | _ => False

theorem runPager_passing {inp : Input} (hplace : (s.proc q).place = .pager place k) (h : Trail place ds)
    (hstep : runPager L q k inp.toAnswer s place = some s') :
    Passing k (ds ++ deeds q s (.go q inp) s') (s'.proc q).place := by
  have hdeeds : deeds q s (.go q inp) s' = place.transfer inp.status ++ (marked s.vm s'.vm).map .mark ++
      if s'.sem .swapPoolSemaphore = s.sem .swapPoolSemaphore + 1 then [.release] else [] := by
    simp only [deeds, if_true, hplace]
  have hself : ∀ (s : Sys) (place : Place), ((s.goto q place).proc q).place = place := by
    intro s place
    simp [Sys.goto]
  rw [hdeeds]
  cases place with
  | published =>
    obtain rfl := Option.some.inj hstep
    have hnone : marked s.vm ((s.verhogen .swapPoolSemaphore).goto q (.code k)).vm = [] := marked_nil fun _ _ => rfl
    rw [hself, hnone, if_pos (by simp [Sys.goto, Sys.verhogen])]
    exact ⟨rfl, ds, rfl, h⟩
  | failed a =>
    obtain rfl := Option.some.inj hstep
    have hnone : marked s.vm ((s.verhogen .swapPoolSemaphore).goto q (.terminate .lock a)).vm = [] :=
      marked_nil fun _ _ => rfl
    rw [hself, hnone, if_pos (by simp [Sys.goto, Sys.verhogen])]
    exact ⟨ds, rfl, h⟩
  | _ =>
    simp only [runPager] at hstep
    obtain ⟨r, hr, rfl⟩ := Option.map_eq_some_iff.mp hstep
    rw [hself, if_neg (by simp [Sys.goto, Sys.setVm]), List.append_nil]
    exact ⟨rfl, h.step hr⟩

/-- One step of anybody during a pass. -/
theorem Passing.step (ho : Orderly s) (h : Passing k ds (s.proc q).place) (hq : (s.proc q).place.paging = true)
    (hstep : sysStep L hd e s = some s') : Passing k (ds ++ deeds q s e s') (s'.proc q).place := by
  by_cases hactor : e.actor = some q
  · cases hplace : (s.proc q).place with
    | pager place k' =>
      rw [hplace] at h
      obtain ⟨rfl, htrail⟩ := h
      cases e with
      | go r inp =>
        obtain rfl := Option.some.inj hactor
        simp only [sysStep, proceed, hplace] at hstep
        exact runPager_passing hplace htrail hstep
      | access r va value inp =>
        obtain rfl := Option.some.inj hactor
        simp [sysStep, hplace] at hstep
      | trap r st =>
        obtain rfl := Option.some.inj hactor
        simp [sysStep, hplace] at hstep
      | test => cases hactor
    | _ =>
      rw [hplace] at hq
      cases hq
  · rw [ho.pager_kept (sysStep_stepped hstep) hq hactor, deeds_other hactor, List.append_nil]
    exact h

end Steps

/-! ### The end of a pass -/

section Ends
variable {k : Code} {ws ds : List Deed} {status : Word}

theorem Evicted.count (h : Evicted ws) : ws.count .release = 0 := by
  obtain rfl | ⟨status, rfl, -⟩ := h
  · rfl
  · rfl

theorem Evicted.unmarked (h : Evicted ws) (x : PtePtr) : .mark x ∉ ws := by
  obtain rfl | ⟨status, rfl, -⟩ := h
  · simp
  · simp

/-- A pass that fails owes nothing more. -/
theorem Handled.of_failed (hcount : ds.count .release = 1) (hmarks : ∀ x, .mark x ∉ ds) (a : Word) :
    Handled ds k (.terminate .lock a) := by
  refine ⟨fun hor => ?_, fun _ => ⟨hcount, ⟨a, rfl⟩, hmarks⟩⟩
  obtain ⟨x, hx⟩ | he := hor
  · exact absurd hx (hmarks x)
  · cases he

/-- A pass that gets to its end has noticed no failure. -/
theorem noticed_published {ks : List PtePtr} (hbefore : Evicted ws) (hok : status &&& 0xff ≠ 5)
    (h : Noticed (ws ++ [.read status] ++ ks.map .mark ++ [.release])) :
    ∀ d ∈ ws ++ [.read status] ++ ks.map .mark ++ [.release], d.Ready := by
  obtain hready | ⟨status', hmem, herror⟩ | ⟨status', hmem, herror⟩ := h
  · exact hready
  · have hws : .write status' ∈ ws := by simpa using hmem
    obtain rfl | ⟨status'', rfl, hne⟩ := hbefore
    · cases hws
    · obtain rfl : status' = status'' := by simpa using hws
      exact absurd herror hne
  · have hread : .read status' ∈ ws ∨ status' = status := by simpa using hmem
    obtain hws | rfl := hread
    · obtain rfl | ⟨status'', rfl, -⟩ := hbefore
      · cases hws
      · simp at hws
    · exact absurd herror hok

theorem Passing.ends {place : Place} (h : Passing k ds place) (hout : place.paging = false) :
    Handled ds k place ↔ Noticed ds := by
  cases place with
  | pager => cases hout
  | code k' =>
    obtain ⟨rfl, ds', rfl, htrail⟩ := h
    cases htrail with
    | published before ok =>
      constructor
      · exact fun hh => .inl (hh.success (.inr rfl))
      · intro hnoticed
        have hready := noticed_published before ok hnoticed
        exact ⟨fun _ => hready, fun ⟨d, hd, hnot⟩ => absurd (hready d hd) hnot⟩
  | terminate step a =>
    cases step with
    | lock =>
      obtain ⟨ds', rfl, htrail⟩ := h
      cases htrail with
      | @writeFailed _ status error =>
        refine iff_of_true (Handled.of_failed rfl (by simp) a) (.inr (.inl ⟨status, by simp, error⟩))
      | @readFailed _ ws status before error =>
        refine iff_of_true (Handled.of_failed ?_ (fun x => ?_) a) (.inr (.inr ⟨status, by simp, error⟩))
        · simp [List.count_append, before.count]
        · simpa using before.unmarked x
    | _ => cases h
  | _ => cases h

end Ends

/-- **The transfers of the pager**: a pass does what it owes exactly if every transfer has
succeeded, or the write-back has ended with the status 4, or the read with the status 5. -/
theorem handled_iff {L : PoolLayout} {hd : Handlers} {vm : Vm} {s₀ s s' : Sys} {es₀ es : List SysEvent} {q : Nat}
    {k : Code} (hstart : Sys.start hd vm = some s₀) (hrun : Run (sysStep L hd) (fun _ _ => True) s₀ es₀ s)
    (hlocked : (s.proc q).place = .pager .locked k)
    (hpass : Run (sysStep L hd) (fun s _ => (s.proc q).place.paging = true) s es s')
    (hout : (s'.proc q).place.paging = false) :
    Handled (trace (sysStep L hd) (deeds q) s es) k (s'.proc q).place ↔
      Noticed (trace (sysStep L hd) (deeds q) s es) := by
  have hpassing : Orderly s' ∧ Passing k (trace (sysStep L hd) (deeds q) s es) (s'.proc q).place := by
    clear hout
    induction hpass with
    | nil =>
      refine ⟨run_orderly hstart hrun, ?_⟩
      rw [hlocked]
      exact ⟨rfl, .locked⟩
    | snoc hpass hpaging hstep ih =>
      rw [hpass.trace_snoc hstep]
      exact ⟨ih.1.step hstep, ih.2.step ih.1 hpaging hstep⟩
  exact hpassing.2.ends hout

namespace SysSample

/-- The shell faults on its first page and enters the pager. -/
def faulted : List SysEvent := [.access 0 KUSEG none (answer 1 0), .access 0 KUSEG none (answer 1 0)] ++ goes 0 1 0

/-- A pager pass to its end; the flash device answers `status`. -/
def passed (status : Word) : List SysEvent := List.replicate 6 (.go 0 (answer status 0))

/-- The pass with the status `status`, from where the shell has entered the pager. -/
theorem pass (status : Word) (ds : List Deed)
    (hpass : ((exec (sysStep layout handlers) faulted start).all fun s => decide
      (Follows (sysStep layout handlers) (fun s _ => (s.proc 0).place.paging = true) (passed status) s ∧
        (s.proc 0).place = .pager .locked .user ∧
        (exec (sysStep layout handlers) (passed status) s).all (fun s' => (s'.proc 0).place = .code .user) = true ∧
        trace (sysStep layout handlers) (deeds 0) s (passed status) = ds)) = true) :
    ∃ s s', Run (sysStep layout handlers) (fun _ _ => True) start faulted s ∧
      (s.proc 0).place = .pager .locked .user ∧
      Run (sysStep layout handlers) (fun s _ => (s.proc 0).place.paging = true) s (passed status) s' ∧
      (s'.proc 0).place = .code .user ∧ trace (sysStep layout handlers) (deeds 0) s (passed status) = ds := by
  have hfollows : Follows (sysStep layout handlers) (fun _ _ => True) faulted start := by decide +kernel
  obtain ⟨s, hexec, hrun⟩ := hfollows.run
  rw [hexec] at hpass
  obtain ⟨hfollows', hlocked, hplace, htrace⟩ := of_decide_eq_true hpass
  obtain ⟨s', hexec', hrun'⟩ := hfollows'.run
  rw [hexec'] at hplace
  exact ⟨s, s', hrun, hlocked, hrun', of_decide_eq_true hplace, htrace⟩

end SysSample

open SysSample in
theorem handled_iff_sample : ∃ s s',
    Run (sysStep layout handlers) (fun s _ => (s.proc 0).place.paging = true) s (passed 1) s' ∧
    Handled (trace (sysStep layout handlers) (deeds 0) s (passed 1)) .user (s'.proc 0).place := by
  obtain ⟨s, s', hrun, hlocked, hpass, hplace, htrace⟩ :=
    pass 1 [.read 1, .mark ((start.proc 0).sup, ⟨0, by decide⟩), .release] (by decide +kernel)
  refine ⟨s, s', hpass, (handled_iff start_eq hrun hlocked hpass (by rw [hplace]; rfl)).mpr (.inl ?_)⟩
  rw [htrace]
  decide

open SysSample in
/-- The read ends with a read error, and the page is marked valid all the same. -/
theorem read_error_mapped : ∃ s s',
    Run (sysStep layout handlers) (fun _ _ => True) start faulted s ∧ (s.proc 0).place = .pager .locked .user ∧
    Run (sysStep layout handlers) (fun s _ => (s.proc 0).place.paging = true) s (passed 4) s' ∧
    (s'.proc 0).place = .code .user ∧
    trace (sysStep layout handlers) (deeds 0) s (passed 4) =
      [.read 4, .mark ((start.proc 0).sup, ⟨0, by decide⟩), .release] ∧
    ¬ Handled (trace (sysStep layout handlers) (deeds 0) s (passed 4)) .user (s'.proc 0).place := by
  obtain ⟨s, s', hrun, hlocked, hpass, hplace, htrace⟩ :=
    pass 4 [.read 4, .mark ((start.proc 0).sup, ⟨0, by decide⟩), .release] (by decide +kernel)
  refine ⟨s, s', hrun, hlocked, hpass, hplace, htrace, fun hh => ?_⟩
  have hready := hh.success (.inr hplace) (.read 4) (by rw [htrace]; simp)
  exact absurd hready (by decide)

end MultiPandOS
