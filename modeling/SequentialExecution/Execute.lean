import SequentialExecution.NodeLoop

namespace SequentialExecution.Execute

open SequentialExecution.Common SequentialExecution.Session SequentialExecution.Fence
open SequentialExecution.NodeLoop

variable {σ O : Type}

/-- What one call of Execute leaves behind: its outcome, the calls it issued, the run registry,
the run_id written back, the frame it ran on and the fetched outputs. -/
structure Invocation (σ O : Type) where
  outcome : Outcome
  trace : List Event
  runs : GraphRuns σ
  runId : BitVec 64
  frame : Option (ExecutionFrame σ)
  fetches : Option O

/-- The scan of lines 174-179, at program_counter_end = e over the plan entries from e on.
It dereferences GetKernel's result unchecked: none stands for a null dereference. -/
def scanWindowEnd (ss : SessionState) (pc : Nat) : List NodeExecutionPlan → Nat → Option Nat
  | [], e => some e
  | entry :: rest, e =>
    match ss.getKernel entry.nodeIndex with
    | none => none
    | some kernel =>
      if kernel.opName != "YieldOp" || e == pc then scanWindowEnd ss pc rest (e + 1) else some e

def programCounterEnd (ss : SessionState) (pc : Nat) : Option Nat :=
  scanWindowEnd ss pc (ss.plan.executionPlan.drop pc) pc

/-- Lines 184-228: the Before fence calls of the entry at the window's end, without Compute, on
the fences the frame holds once the window's node loop is done. -/
def waitWindowEnd (ss : SessionState) (env : Env σ O) (e : Nat) (values : σ) :
    Except Status (List Event) :=
  match ss.plan.executionPlan[e]? with
  | none => .ok []
  | some entry =>
    match ss.getKernel entry.nodeIndex with
    | none => .error (nullKernelStatus (ss.getNode entry.nodeIndex).name)
    | some kernel =>
      .ok (if ss.plan.nodeHasFence entry.nodeIndex then
        syncBeforeCompute kernel (env.kernelContext entry.nodeIndex values) else [])

/-- The full run, lines 135-141, on a local frame; innerExecute is the Execute of lines 252-616
it calls, from the frame's values over [programCounterStart, programCounterEnd). -/
def executeFullRun (innerExecute : σ → Nat → Nat → Progress σ) (ss : SessionState)
    (env : Env σ O) (runs : GraphRuns σ) (runId : BitVec 64) : Invocation σ O :=
  let p := innerExecute env.newFrame 0 ss.plan.executionPlan.length
  match p.halt with
  | some o => ⟨o, p.trace, runs, runId, some ⟨0, p.values⟩, none⟩
  | none =>
    match env.getOutputs ss.transferIntermidiateTensorOwnership p.values with
    | (.error s, values) => ⟨.error s, p.trace, runs, runId, some ⟨0, values⟩, none⟩
    | (.ok out, values) => ⟨.ok, p.trace, runs, runId, some ⟨0, values⟩, some out⟩

/-- Lines 144-166. A new partial run inserts a fresh frame under graph_runs_counter_; a
resume finds its frame. Either the frame comes back, stored in the registry under its key,
which is also the run_id written back, or the call ends here. -/
def acquireFrame (ids : RunIds) (env : Env σ O) (runs : GraphRuns σ) (runId : BitVec 64) :
    Invocation σ O ⊕ (GraphRuns σ × BitVec 64 × ExecutionFrame σ) :=
  if runId = ids.defaultPartialRunId then
    let key := runs.graphRunsCounter
    let frame : ExecutionFrame σ := ⟨0, env.newFrame⟩
    -- std::map::insert keeps an entry already under key, and the new frame is then destroyed
    let inserted := (runs.graphRuns key).isNone
    let runs := if inserted then runs.store key frame else runs
    if runId.slt int64Max then
      let runs := { runs with graphRunsCounter := key + 1 }
      if inserted then .inr (runs, key, frame) else .inl ⟨.undefined, [], runs, key, none, none⟩
    else .inl ⟨.enforceFailed "run_id < INT64_MAX", [], runs, runId, none, none⟩
  else if runId.slt 0 then .inl ⟨.enforceFailed "run_id >= 0", [], runs, runId, none, none⟩
  else
    match runs.graphRuns runId with
    | none => .inl ⟨.enforceFailed "it != session_state.graph_runs_.end()", [], runs, runId, none, none⟩
    | some frame =>
      let frame := { frame with values := env.updateFeedAndFetches frame.values }
      .inr (runs.store runId frame, runId, frame)

/-- Lines 173-246 on the frame stored under key: the window, the fence-only pass, the outputs,
the new program counter, and the erase once it equals the plan size. -/
def executeWindow (innerExecute : σ → Nat → Nat → Progress σ) (ss : SessionState)
    (env : Env σ O) (runs : GraphRuns σ) (key : BitVec 64) (frame : ExecutionFrame σ) :
    Invocation σ O :=
  match programCounterEnd ss frame.programCounter with
  | none => ⟨.undefined, [], runs, key, some frame, none⟩
  | some e =>
    let p := innerExecute frame.values frame.programCounter e
    let frame := { frame with values := p.values }
    match p.halt with
    | some o => ⟨o, p.trace, runs.store key frame, key, some frame, none⟩
    | none =>
      match waitWindowEnd ss env e frame.values with
      | .error s => ⟨.error s, p.trace, runs.store key frame, key, some frame, none⟩
      | .ok fences =>
        match env.getOutputs ss.transferIntermidiateTensorOwnership frame.values with
        | (.error s, values) =>
          ⟨.error s, p.trace ++ fences, runs.store key { frame with values }, key,
            some { frame with values }, none⟩
        | (.ok out, values) =>
          let frame : ExecutionFrame σ :=
            ⟨if ss.transferIntermidiateTensorOwnership then e + 1 else e, values⟩
          ⟨.ok, p.trace ++ fences,
            if frame.programCounter = ss.plan.executionPlan.length then runs.erase key
            else runs.store key frame, key, some frame, some out⟩

/-- SequentialExecutor::Execute(run_id), lines 126-250, over the inner Execute innerExecute. -/
def executeWith (innerExecute : σ → Nat → Nat → Progress σ) (ids : RunIds) (ss : SessionState)
    (env : Env σ O) (runs : GraphRuns σ) (runId : BitVec 64) : Invocation σ O :=
  if runId = ids.defaultRunId then executeFullRun innerExecute ss env runs runId
  else
    match acquireFrame ids env runs runId with
    | .inl inv => inv
    | .inr (runs, key, frame) => executeWindow innerExecute ss env runs key frame

/-- SequentialExecutor::Execute(run_id) over the node loop of the inner Execute. -/
def execute (ids : RunIds) (ss : SessionState) (ex : SequentialExecutor) (env : Env σ O)
    (runs : GraphRuns σ) (runId : BitVec 64) : Invocation σ O :=
  executeWith (executeRange ss ex env) ids ss env runs runId

section FullRun

variable (innerExecute : σ → Nat → Nat → Progress σ) (ss : SessionState) (env : Env σ O)
  (runs : GraphRuns σ) (runId : BitVec 64)

theorem executeFullRun_runs : (executeFullRun innerExecute ss env runs runId).runs = runs := by
  simp only [executeFullRun]
  split
  · rfl
  · split <;> rfl

theorem executeFullRun_runId :
    (executeFullRun innerExecute ss env runs runId).runId = runId := by
  simp only [executeFullRun]
  split
  · rfl
  · split <;> rfl

end FullRun

theorem int64Max_toInt : int64Max.toInt = 9223372036854775807 := rfl

theorem slt_int64Max {x : BitVec 64} (h : x.toInt < 9223372036854775807) : x.slt int64Max = true := by
  rw [BitVec.slt, int64Max_toInt]
  exact decide_eq_true h

theorem toInt_add_one {x : BitVec 64} (h0 : 0 ≤ x.toInt) (h : x.toInt < 9223372036854775807) :
    (x + 1).toInt = x.toInt + 1 := by
  rw [BitVec.toInt_add, show (1 : BitVec 64).toInt = 1 from rfl, Int.bmod_pos,
    Int.emod_eq_of_lt] <;> omega

theorem acquireFrame_new (ids : RunIds) (env : Env σ O) (runs : GraphRuns σ)
    (hfree : runs.graphRuns runs.graphRunsCounter = none) :
    acquireFrame ids env runs ids.defaultPartialRunId =
      .inr ({ runs.store runs.graphRunsCounter ⟨0, env.newFrame⟩ with
          graphRunsCounter := runs.graphRunsCounter + 1 },
        runs.graphRunsCounter, ⟨0, env.newFrame⟩) := by
  have := slt_int64Max (x := ids.defaultPartialRunId) (by have := ids.defaultPartialRunId_neg; omega)
  simp [acquireFrame, hfree, this]

theorem acquireFrame_resume (ids : RunIds) (env : Env σ O) (runs : GraphRuns σ)
    {runId : BitVec 64} (hne : runId ≠ ids.defaultPartialRunId) (hnn : 0 ≤ runId.toInt)
    {frame : ExecutionFrame σ} (hf : runs.graphRuns runId = some frame) :
    acquireFrame ids env runs runId =
      .inr (runs.store runId { frame with values := env.updateFeedAndFetches frame.values }, runId,
        { frame with values := env.updateFeedAndFetches frame.values }) := by
  simp [acquireFrame, hne, hf, BitVec.slt, Int.not_lt.mpr hnn]

theorem acquireFrame_refused (ids : RunIds) (env : Env σ O) (runs : GraphRuns σ)
    {runId : BitVec 64} (hne : runId ≠ ids.defaultPartialRunId) (hneg : runId.toInt < 0) :
    acquireFrame ids env runs runId = .inl ⟨.enforceFailed "run_id >= 0", [], runs, runId, none, none⟩ := by
  have h0 : (0 : BitVec 64).toInt = 0 := rfl
  simp [acquireFrame, hne, BitVec.slt, h0, hneg]

theorem acquireFrame_missing (ids : RunIds) (env : Env σ O) (runs : GraphRuns σ)
    {runId : BitVec 64} (hne : runId ≠ ids.defaultPartialRunId) (hnn : 0 ≤ runId.toInt)
    (hf : runs.graphRuns runId = none) :
    acquireFrame ids env runs runId =
      .inl ⟨.enforceFailed "it != session_state.graph_runs_.end()", [], runs, runId, none, none⟩ := by
  simp [acquireFrame, hne, hf, BitVec.slt, Int.not_lt.mpr hnn]

theorem acquireFrame_inl {ids : RunIds} {env : Env σ O} {runs : GraphRuns σ} {runId : BitVec 64}
    {inv : Invocation σ O} (h : acquireFrame ids env runs runId = .inl inv) :
    (inv.outcome = .undefined ∨ ∃ c, inv.outcome = .enforceFailed c) ∧ inv.trace = [] := by
  simp only [acquireFrame] at h
  split_ifs at h <;> (try split at h) <;> cases h <;> simp

theorem acquireFrame_inr {ids : RunIds} {env : Env σ O} {runs runs' : GraphRuns σ}
    {runId key : BitVec 64} {frame : ExecutionFrame σ}
    (h : acquireFrame ids env runs runId = .inr (runs', key, frame)) :
    (runId = ids.defaultPartialRunId → key = runs.graphRunsCounter ∧ frame = ⟨0, env.newFrame⟩ ∧
      runs.graphRuns key = none ∧
      runs' = { runs.store key frame with graphRunsCounter := runs.graphRunsCounter + 1 }) ∧
    (runId ≠ ids.defaultPartialRunId → key = runId ∧ 0 ≤ runId.toInt ∧ ∃ registered,
      runs.graphRuns runId = some registered ∧
      frame = { registered with values := env.updateFeedAndFetches registered.values } ∧
      runs' = runs.store runId frame) := by
  simp only [acquireFrame] at h
  split_ifs at h with hp hs hi hn
  · cases h
    exact ⟨fun _ => ⟨rfl, rfl, Option.isNone_iff_eq_none.mp hi, by simp [hi]⟩, fun h => absurd hp h⟩
  · split at h
    · cases h
    · cases h
      refine ⟨fun h => absurd h hp, fun _ => ⟨rfl, ?_, _, ‹_›, rfl, rfl⟩⟩
      have h0 : (0 : BitVec 64).toInt = 0 := rfl
      simp only [BitVec.slt, h0, decide_eq_true_eq] at hn
      omega

theorem acquireFrame_inl_fresh {ids : RunIds} {env : Env σ O} {R : GraphRuns σ}
    {runId : BitVec 64} {inv : Invocation σ O} (hfree : R.graphRuns R.graphRunsCounter = none)
    (h : acquireFrame ids env R runId = .inl inv) : inv.runs = R ∧ inv.runId = runId := by
  by_cases hp : runId = ids.defaultPartialRunId
  · rw [hp, acquireFrame_new ids env R hfree] at h
    cases h
  by_cases hneg : runId.toInt < 0
  · rw [acquireFrame_refused ids env R hp hneg] at h
    cases h
    exact ⟨rfl, rfl⟩
  have hnn := Int.not_lt.mp hneg
  cases hv : R.graphRuns runId
  · rw [acquireFrame_missing ids env R hp hnn hv] at h
    cases h
    exact ⟨rfl, rfl⟩
  · rw [acquireFrame_resume ids env R hp hnn hv] at h
    cases h

theorem execute_of_ne_default (ids : RunIds) (ss : SessionState) (ex : SequentialExecutor)
    (env : Env σ O) (runs : GraphRuns σ) {runId : BitVec 64} (h : runId ≠ ids.defaultRunId) :
    execute ids ss ex env runs runId =
      match acquireFrame ids env runs runId with
      | .inl inv => inv
      | .inr (runs, key, frame) => executeWindow (executeRange ss ex env) ss env runs key frame := by
  simp [execute, executeWith, h]

theorem execute_of_default (ids : RunIds) (ss : SessionState) (ex : SequentialExecutor)
    (env : Env σ O) (runs : GraphRuns σ) :
    execute ids ss ex env runs ids.defaultRunId =
      executeFullRun (executeRange ss ex env) ss env runs ids.defaultRunId := if_pos rfl

end SequentialExecution.Execute
