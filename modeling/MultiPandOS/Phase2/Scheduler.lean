import MultiPandOS.Phase2.Functions

/-! The scheduler (`phase2/scheduler.c`). -/
namespace MultiPandOS

/-- The last alternative of the source, neither count condition true, does not
exist for unsigned counters. -/
def scheduler (s : Nucleus) : Nucleus :=
  match removeProcQ s.readyQueue with
  | (_, none) =>
    if s.processCount = 0 then {s with control := .halt}
    else if s.processCount > 0 ∧ s.softBlockCount > 0 then {s with control := .wait}
    else {s with control := .panic}
  | (rest, some p) =>
    {s with readyQueue := rest, currentProcess := some p, control := .ldst (s.pcb p).pS}

end MultiPandOS
