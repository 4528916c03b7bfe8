import MultiPandOS.Kernel.Hosted

/-! Runs of the kernel.

What is proved of every run of the support level holds of every run of the kernel: such a run is
one of the support level (`run_hosted`). -/
namespace MultiPandOS
open Forest Runs

section Start
variable {A : Image} {b : Boot} {vm : Vm} {t : Trap} {k : Kernel}

theorem shellProcess_lt : 18 < MAXPROC := by decide

/-- The process that CREATEPROCESS takes first. -/
def shellProcess : PcbPtr := ⟨18, shellProcess_lt⟩

theorem main_free (L : Layout) (b : Boot) :
    ∃ rest, (main L b).pcbFreeH = shellProcess :: rest ∧ ∀ p, p ∉ rest ↔ p = firstProcess ∨ p = shellProcess := by
  obtain ⟨rest, hrest, hmain⟩ := main_eq L b
  have hcons : ∃ rest', rest = shellProcess :: rest' ∧ ∀ p, p ∉ rest' ↔ p = firstProcess ∨ p = shellProcess := by
    obtain rfl : rest = ((List.finRange MAXPROC).foldl (fun q c => c :: q) []).tail := by
      rw [hrest]
      rfl
    exact ⟨((List.finRange MAXPROC).foldl (fun q c => c :: q) []).tail.tail, by decide, by decide⟩
  obtain ⟨rest', rfl, hmem⟩ := hcons
  exact ⟨rest', by rw [hmain], hmem⟩

/-- Boot changes only the semaphores of the devices. -/
theorem main_mem {L : Layout} {a : Addr} (ha : ¬ L.isDevSem a) (b : Boot) : (main L b).mem a = b.mem a := by
  obtain ⟨rest, -, hmain⟩ := main_eq L b
  rw [hmain]
  refine (clearDevSem_mem L b.globals a).trans (if_neg ?_)
  rintro ⟨i, hi, rfl⟩
  exact ha ⟨i, List.mem_range.mp hi, rfl⟩

theorem main_idle (L : Layout) (b : Boot) :
    (main L b).currentProcess = some firstProcess ∧ (∀ p, ((main L b).pcb p).pParent = none) ∧
      ∀ k, waiting k (main L b) = [] := by
  obtain ⟨rest, -, hmain⟩ := main_eq L b
  refine ⟨by rw [hmain], fun p => ?_, fun k => ?_⟩
  · rw [main_pcb]
    split <;> rfl
  · exact waiting_of_forall_ne (by rw [hmain]; exact fun j hj => (List.not_mem_nil hj).elim)

/-- The semaphores are as they have been loaded. -/
theorem start_level (hload : A.Loaded b) {s : Sys} (hs : Sys.start A.handlers vm = some s) {n : Nucleus}
    (hmem : n.mem = (main A.layout b).mem) (task : PcbPtr → Task) :
    Kernel.sys A ⟨{n with support := A.store s.vm.supportPool n.support}, s, task⟩ = s := by
  obtain ⟨⟨u, supportFree⟩, -, rfl⟩ := Option.map_eq_some_iff.mp hs
  have hsem : ∀ x, (n.mem (A.sem x)).toInt = x.initial.toInt := by
    intro x
    rw [hmem, main_mem (A.sem_device x), hload x]
  simp only [Kernel.sys, hsem, A.store_sup]
  congr 1
  funext x
  cases x <;> rfl

/-- There are `test`, and the shell below it. -/
theorem start_hosts {s : Sys} {u : SupPtr} (hu : Started A.handlers vm u s) {rest ready : List PcbPtr}
    (hrest : ∀ p, p ∉ rest ↔ p = firstProcess ∨ p = shellProcess) {home : PcbPtr → Addr}
    (hhome : home shellProcess = A.sup (s.proc shellNo).sup) :
    Hosts A ((main A.layout b).view.create firstProcess shellProcess rest ready) home
      (fun p => if p = firstProcess then .test else .uproc shellNo) s := by
  have hne : shellProcess ≠ firstProcess := by decide
  obtain ⟨-, hparent, hwait⟩ := main_idle A.layout b
  refine ⟨fun t => ?_, fun p q hp hq => ?_, fun p hp => ?_, fun p q hp hq => ?_, fun k p hp => ?_⟩
  · constructor
    · cases t with
      | test => exact fun _ => ⟨firstProcess, (hrest _).mpr (.inl rfl), if_pos rfl⟩
      | uproc q =>
        intro hq
        have hq : q = shellNo := by
          by_contra hne
          exact hq (hu.other q hne)
        exact ⟨shellProcess, (hrest _).mpr (.inr rfl), by rw [if_neg hne, hq]⟩
    · rintro ⟨p, hp, rfl⟩
      rcases (hrest p).mp hp with rfl | rfl
      · rw [if_pos rfl]
        simp [Sys.alive, hu.test]
      · rw [if_neg hne]
        simp [Sys.alive, hu.shell]
  · rcases (hrest p).mp hp with rfl | rfl <;> rcases (hrest q).mp hq with rfl | rfl <;> simp [hne]
  · have hnone : (main A.layout b).links.parent firstProcess = none := hparent firstProcess
    rcases (hrest p).mp hp with rfl | rfl
    · simp [View.create, attach, Nucleus.view, hne.symm, hnone, Task.parent]
    · simp [View.create, attach, hne, Task.parent, shellNo]
  · rcases (hrest p).mp hp with rfl | rfl
    · simp at hq
    · rw [if_neg hne] at hq
      obtain rfl := Task.uproc.inj hq
      exact hhome
  · have hp : p ∈ waiting k (main A.layout b) := hp
    rw [hwait] at hp
    cases hp

theorem create_admissible (hk : t.kind = .service .createProcess) : Admissible A.layout SelfOnly (main A.layout b) t := by
  have hc := (main_idle A.layout b).1
  unfold Admissible
  rw [hk]
  exact ⟨by rw [(main_sound A.layout b).control, hc]; rfl, trivial, nofun⟩

theorem start_cases (hstart : Kernel.start A b vm t = some k) :
    ∃ s n, Sys.start A.handlers {vm with supportPool := fun u => b.support (A.sup u)} = some s ∧
      t.kind = .service .createProcess ∧ t.state.regA3 = A.sup (s.proc shellNo).sup ∧
        exceptionHandler A.layout t (main A.layout b) = some n ∧
          k = ⟨{n with support := A.store s.vm.supportPool n.support}, s,
            fun p => if p = firstProcess then .test else .uproc shellNo⟩ := by
  obtain ⟨s, hs, hrest⟩ := Option.bind_eq_some_iff.mp hstart
  split at hrest
  · rename_i hmade
    obtain ⟨n, hn, rfl⟩ := Option.map_eq_some_iff.mp hrest
    obtain ⟨hk, -, -, hsup⟩ := hmade
    exact ⟨s, n, hs, hk, hsup, hn, rfl⟩
  · cases hrest

/-- `test` has created the shell. -/
theorem start_hosted (hload : A.Loaded b) (hstart : Kernel.start A b vm t = some k) :
    Sys.start A.handlers {vm with supportPool := fun u => b.support (A.sup u)} = some (k.sys A) ∧
      Hosted A k (k.sys A) := by
  obtain ⟨s, n, hs, hk, hsup, hn, rfl⟩ := start_cases hstart
  obtain ⟨u, hu⟩ := start_started hs
  have hsound := main_sound A.layout b
  obtain ⟨rest, hfree, hmem⟩ := main_free A.layout b
  have hc := (main_idle A.layout b).1
  have hsound' : Sound n := hsound.step (create_admissible hk).allowed (fun _ => SelfOnly.termOk) hn
  have hcreate : n = MultiPandOS.createProcess t firstProcess (main A.layout b) := by
    rw [exceptionHandler_kind, hk] at hn
    simp only [hc, Option.bind_some, serve, Option.some.injEq] at hn
    exact hn.symm
  have hhomes := createProcess_homes (e := t) hsound hc hfree
  obtain ⟨ready, hleaves, hmem'⟩ := createProcess_leaves A.layout hsound hc hk hfree
  rw [← hcreate] at hhomes hleaves hmem'
  have hlevel := start_level hload hs hmem' fun p => if p = firstProcess then .test else .uproc shellNo
  have hhome : (fun p => (n.pcb p).pSupportStruct) shellProcess = A.sup (s.proc shellNo).sup := by
    have hstruct : (fun p => (n.pcb p).pSupportStruct) =
        Function.update (fun p => ((main A.layout b).pcb p).pSupportStruct) shellProcess t.state.regA3 :=
      congrArg Prod.fst hhomes
    rw [hstruct, Function.update_self, hsup]
  rw [hlevel]
  have hhosts : Hosts A n.view (fun p => (n.pcb p).pSupportStruct)
      (fun p => if p = firstProcess then .test else .uproc shellNo) s :=
    (start_hosts hu hmem hhome).leaves hleaves
  exact ⟨hs, hsound'.withSupport _, by rw [hlevel], start_tame hs, hhosts⟩

end Start

/-- A run is hosted to its end. -/
theorem hosted {A : Image} {b : Boot} {vm : Vm} {t : Trap} {k₀ k : Kernel} {is : List KernelEvent} (hload : A.Loaded b)
    (hstart : Kernel.start A b vm t = some k₀) (hrun : Run (kernelStep A) (KernelOk A) k₀ is k) :
    exec (sysStep A.pool A.handlers) (trace (kernelStep A) (Kernel.did A) k₀ is) (k₀.sys A) = some (k.sys A) ∧
      Hosted A k (k.sys A) := by
  have hobserved : ∃ m, exec (sysStep A.pool A.handlers) (trace (kernelStep A) (Kernel.did A) k₀ is) (k₀.sys A) = some m ∧
      m = k.sys A ∧ Hosted A k m := by
    refine hrun.observed (R := fun k m => m = k.sys A ∧ Hosted A k m) ⟨rfl, (start_hosted hload hstart).2⟩ ?_
    rintro k i k' m ⟨rfl, h⟩ hok hstep
    obtain ⟨hexec, h'⟩ := h.kernelStep hok hstep
    exact ⟨_, hexec, rfl, h'⟩
  obtain ⟨m, hexec, rfl, hm⟩ := hobserved
  exact ⟨hexec, hm⟩

/-- **The kernel refines the support level**: the steps that the events of a run come to are a
run of the support level and end in what is then in memory, and the processes are the tasks
that have not ended, below those that have created them. -/
theorem run_hosted {A : Image} {b : Boot} {vm : Vm} {t : Trap} {k₀ k : Kernel} {is : List KernelEvent}
    (hload : A.Loaded b) (hstart : Kernel.start A b vm t = some k₀)
    (hrun : Run (kernelStep A) (KernelOk A) k₀ is k) :
    ∃ s₀, Sys.start A.handlers {vm with supportPool := fun u => b.support (A.sup u)} = some s₀ ∧
      exec (sysStep A.pool A.handlers) (trace (kernelStep A) (Kernel.did A) k₀ is) s₀ = some (k.sys A) ∧
        Hosts A k.nucleus.view (fun p => (k.nucleus.pcb p).pSupportStruct) k.task (k.sys A) := by
  obtain ⟨hexec, hm⟩ := hosted hload hstart hrun
  exact ⟨k₀.sys A, (start_hosted hload hstart).1, hexec, hm.hosts⟩

namespace KernelSample

/-- The globals of `initProc.c` are between 0x20030000 and 0x20040000. -/
def image : Image where
  layout := Sample.layout
  pool := SysSample.layout
  handlers := SysSample.handlers
  sem := fun x =>
    match x with
    | .swapPoolSemaphore => 0x20030000
    | .masterSemaphore => 0x20030004
    | .shellSemaphore => 0x20030008
    | .terminalWriteSem => 0x2003000C
    | .terminalReadSem => 0x20030010
  sup := fun u => 0x20034000 + BitVec.ofNat 32 (0x400 * u.val)
  sem_inj := by
    intro x y h
    cases x <;> cases y <;> first | rfl | exact absurd h (by decide)
  sup_inj := by decide
  sem_null := by
    intro x
    cases x <;> decide
  sup_null := by decide
  sem_device := by
    intro x
    cases x <;> decide

def boot : Boot :=
  {Sample.boot with mem := fun a => if a = 0x20030000 ∨ a = 0x2003000C ∨ a = 0x20030010 then 1 else 0}

theorem boot_loaded : image.Loaded boot := by
  intro x
  cases x <;> decide

/-- CREATEPROCESS for the U-proc `asid`. -/
def create (asid : Word) (u : SupPtr) : Trap :=
  { state := {(Sample.ecall (-1) 0 0).state with
      gpr := fun r => if r.val = 10 then BitVec.ofInt 32 (-1) else if r.val = 13 then image.sup u else 0}
    argState := initUProcState asid State.zero
    bus := fun _ => 0
    clock := 0 }

def kernel : Kernel := (Kernel.start image boot SysSample.vm (create SHELL_ASID (Fin.last 7))).get rfl

theorem kernel_eq : Kernel.start image boot SysSample.vm (create SHELL_ASID (Fin.last 7)) = some kernel :=
  (Option.some_get _).symm

def answer : Input := SysSample.answer 1 0

def call (a0 : Int) (a1 : Word) : KernelEvent := .trap (Sample.ecall a0 a1 0) answer

/-- A system call of `q` for the support level, up to the function that serves it. -/
def serve (q : Nat) (a0 a1 : Word) : List KernelEvent :=
  let state := {State.zero with cause := 8, gpr := fun r => if r.val = 10 then a0 else if r.val = 11 then a1 else 0}
  [.passUp ⟨state, State.zero, fun _ => 0, 0⟩ (.trap q state.advance), call (-8) 0, .code (.go q answer)]

theorem launched_lt : 6 < UPROCMAX := by decide

/-- `test` waits, the shell launches a program and waits for it, and the program terminates. -/
def launching : List KernelEvent :=
  [call (-3) (image.sem .masterSemaphore)] ++ serve 0 6 2 ++
    [.trap (create 2 ⟨6, launched_lt⟩) answer, call (-3) (image.sem .shellSemaphore)] ++ serve 1 2 0 ++
    [call (-8) 0, call (-3) (image.sem .swapPoolSemaphore), .code (.go 1 answer),
      call (-4) (image.sem .swapPoolSemaphore), .code (.go 1 answer), call (-4) (image.sem .shellSemaphore), call (-2) 0]

end KernelSample

open KernelSample in
theorem run_hosted_sample :
    ∃ k, exec (kernelStep image) launching kernel = some k ∧ k.nucleus.processCount = 2 ∧
      (trace (kernelStep image) (Kernel.did image) kernel launching).length = 12 ∧
      ∃ s₀, Sys.start image.handlers {SysSample.vm with supportPool := fun u => boot.support (image.sup u)} = some s₀ ∧
        exec (sysStep image.pool image.handlers) (trace (kernelStep image) (Kernel.did image) kernel launching) s₀ =
          some (k.sys image) ∧
        Hosts image k.nucleus.view (fun p => (k.nucleus.pcb p).pSupportStruct) k.task (k.sys image) := by
  have hfollows : Follows (kernelStep image) (KernelOk image) launching kernel := by
    decide +kernel
  obtain ⟨k, hexec, hrun⟩ := hfollows.run
  have hcount : (exec (kernelStep image) launching kernel).all (fun k => k.nucleus.processCount = 2) = true := by
    decide +kernel
  have hlength : (trace (kernelStep image) (Kernel.did image) kernel launching).length = 12 := by
    decide +kernel
  rw [hexec] at hcount
  exact ⟨k, hexec, by simpa using hcount, hlength, run_hosted boot_loaded kernel_eq hrun⟩

end MultiPandOS
