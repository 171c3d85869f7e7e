import Mathlib.Data.List.Infix
import SequentialExecution.Instrumented

namespace SequentialExecution.Profiler

open SequentialExecution.Common SequentialExecution.Session SequentialExecution.Fence
open SequentialExecution.NodeLoop SequentialExecution.Window SequentialExecution.Instrumented

variable {σ O : Type}

section Visit

variable (build : Build) (ss : SessionState) (env : Env σ O) (benv : BuildEnv) (k : Nat) (v : σ)
  (r : Ranges)

/-- What one instrumented iteration at plan entry k can do from the frame's values v and the NVTX
flags r: stop or go on without a step, or take the node's NVTX step and then stop at a null
kernel, at the contiguity check or at Compute, or compute and release; the profiler's events are
named after the node of entry k. -/
inductive Visit : IProgress σ → Prop
  | quiet (o : Option Outcome) : Visit ⟨o, [], (v, r)⟩
  | nullKernel (d : String) (s : Status) :
    Visit ⟨some (.error s), (nvtxNode build d r).2, (v, (nvtxNode build d r).1)⟩
  | checkFailed (d : String) {entry : NodeExecutionPlan} (he : ss.plan.executionPlan[k]? = some entry)
      (kernel : OpKernel) (ctx : OpKernelContext) {name : String}
      (hname : name = nodeNameForProfiling build.profiler (ss.getNode entry.nodeIndex) entry.nodeIndex)
      (rangeName : String) (s : Status) :
    Visit ⟨some (.error s), (nvtxNode build d r).2 ++ syncBeforeSteps build ss entry kernel ctx name ++
      (if build.nvtx then [.nvtxBegin (.node rangeName)] else []), (v, (nvtxNode build d r).1)⟩
  | computeFailed (d : String) {entry : NodeExecutionPlan}
      (he : ss.plan.executionPlan[k]? = some entry) (kernel : OpKernel) (ctx : OpKernelContext)
      {name : String}
      (hname : name = nodeNameForProfiling build.profiler (ss.getNode entry.nodeIndex) entry.nodeIndex)
      (rangeName : String) (s : Status) :
    Visit ⟨some (.error s), (nvtxNode build d r).2 ++ syncBeforeSteps build ss entry kernel ctx name ++
      (if build.nvtx then [.nvtxBegin (.node rangeName)] else []) ++
      .call (.compute k) :: (if build.nvtx then [.nvtxEnd (.node rangeName)] else []),
      (env.computeEffect k v, (nvtxNode build d r).1)⟩
  | computed (d : String) {entry : NodeExecutionPlan} (he : ss.plan.executionPlan[k]? = some entry)
      (kernel : OpKernel) (ctx ctx' : OpKernelContext) {name : String}
      (hname : name = nodeNameForProfiling build.profiler (ss.getNode entry.nodeIndex) entry.nodeIndex)
      (rangeName : String) (p : Progress σ) :
    Visit ⟨p.halt, ((nvtxNode build d r).2 ++ syncBeforeSteps build ss entry kernel ctx name ++
      (if build.nvtx then [.nvtxBegin (.node rangeName)] else []) ++
      .call (.compute k) :: (if build.nvtx then [.nvtxEnd (.node rangeName)] else [])) ++
      syncAfterSteps build benv k ss entry kernel ctx' name ++ p.trace.map .call,
      (p.values, (nvtxNode build d r).1)⟩

theorem executeNodeInstrumented_visit (ex : SequentialExecutor) :
    Visit build ss env benv k v r (executeNodeInstrumented build ss ex env benv k (v, r)) := by
  unfold executeNodeInstrumented
  rcases he : ss.plan.executionPlan[k]? with _ | entry
  · exact .quiet _
  dsimp only
  by_cases ht : env.terminateFlag k = true
  · rw [if_pos ht]; exact .quiet _
  rw [if_neg ht]
  by_cases hs : skipsNode ex env entry.nodeIndex = true
  · rw [if_pos hs]; exact .quiet _
  rw [if_neg hs]
  rcases ss.getKernel entry.nodeIndex with _ | kernel
  · exact .nullKernel ..
  dsimp only
  by_cases hc : (build.training && benv.allocateInputsContiguously entry.nodeIndex &&
      !(benv.contiguityStatus k).isOK) = true
  · rw [if_pos hc]; exact .checkFailed _ he _ _ rfl _ _
  rw [if_neg hc]
  by_cases hok : (computeStatus (env.computeResult k)).isOK = true
  · rw [if_pos hok]; exact .computed _ he _ _ _ rfl _ (releaseNodeMLValues ss.plan env k _ _)
  · rw [if_neg hok]; exact .computeFailed _ he _ _ rfl _ _

end Visit

theorem filter_map_call {f : Step → Bool} (hf : ∀ e, f (.call e) = false) (es : List Event) :
    (es.map .call).filter f = [] := by
  induction es with
  | nil => rfl
  | cons e es ih => simp [List.filter_cons, hf, ih]

theorem mem_andThen_steps {p : IProgress σ} {f : σ × Ranges → IProgress σ} {x : Step}
    (h : x ∈ (p.andThen f).steps) : x ∈ p.steps ∨ x ∈ (f p.state).steps := by
  rcases p with ⟨_ | o, steps, state⟩
  · exact List.mem_append.mp h
  · exact .inl h

/-! ### Thread-pool profiling -/

/-- Whether a step is StartProfiling or StopProfiling of the thread pool. -/
def isThreadPoolCall : Step → Bool
  | .profile .threadPoolStart => true
  | .profile .threadPoolStop => true
  | _ => false

@[simp] theorem threadPool_map_call (es : List Event) :
    (es.map .call).filter isThreadPoolCall = [] := filter_map_call (fun _ => rfl) es

/-- n profiling sessions of the thread pool, each started and then stopped. -/
def startStopPairs (n : Nat) : List Step :=
  (List.replicate n [.profile .threadPoolStart, .profile .threadPoolStop]).flatten

theorem startStopPairs_add (n m : Nat) :
    startStopPairs (n + m) = startStopPairs n ++ startStopPairs m := by
  simp only [startStopPairs, List.replicate_add, List.flatten_append]

/-- The thread-pool calls of a piece of a run: n sessions started and stopped, and one more
start left open only where the piece stops the run. -/
def StartsStops (steps : List Step) (halt : Option Outcome) : Prop :=
  ∃ n, steps.filter isThreadPoolCall = startStopPairs n ∨
    steps.filter isThreadPoolCall = startStopPairs n ++ [.profile .threadPoolStart] ∧ halt ≠ none

theorem StartsStops.of_nil (steps : List Step) (halt : Option Outcome)
    (h : steps.filter isThreadPoolCall = []) : StartsStops steps halt := ⟨0, .inl h⟩

theorem StartsStops.andThen {p : IProgress σ} {f : σ × Ranges → IProgress σ}
    (hp : StartsStops p.steps p.halt)
    (hf : p.halt = none → StartsStops (f p.state).steps (f p.state).halt) :
    StartsStops (p.andThen f).steps (p.andThen f).halt := by
  rcases p with ⟨_ | o, steps, state⟩
  · obtain ⟨n, hn | ⟨-, hne⟩⟩ := hp
    · obtain ⟨m, hm⟩ := hf rfl
      refine ⟨n + m, ?_⟩
      simp only [IProgress.andThen_none, List.filter_append, hn, startStopPairs_add,
        List.append_assoc]
      rcases hm with hm | ⟨hm, hne⟩
      · exact .inl (by rw [hm])
      · exact .inr ⟨by rw [hm], hne⟩
    · exact absurd rfl hne
  · exact hp

section Visit

variable {build : Build} {ss : SessionState} {env : Env σ O} {benv : BuildEnv} {k : Nat} {v : σ}
  {r : Ranges}

@[simp] theorem threadPool_nvtxNode (d : String) :
    (nvtxNode build d r).2.filter isThreadPoolCall = [] := by
  unfold nvtxNode nvtxVisit
  split_ifs <;> rfl

@[simp] theorem threadPool_syncBeforeSteps (entry : NodeExecutionPlan) (kernel : OpKernel)
    (ctx : OpKernelContext) (name : String) :
    (syncBeforeSteps build ss entry kernel ctx name).filter isThreadPoolCall =
      if build.profiler then [.profile .threadPoolStart] else [] := by
  unfold syncBeforeSteps
  cases build.profiler <;> cases ss.plan.nodeHasFence entry.nodeIndex <;>
    simp [List.filter_cons, isThreadPoolCall]

@[simp] theorem threadPool_syncAfterSteps (entry : NodeExecutionPlan) (kernel : OpKernel)
    (ctx : OpKernelContext) (name : String) :
    (syncAfterSteps build benv k ss entry kernel ctx name).filter isThreadPoolCall =
      if build.profiler then [.profile .threadPoolStop] else [] := by
  unfold syncAfterSteps
  cases build.profiler <;> cases ss.plan.nodeHasFence entry.nodeIndex <;>
    simp [List.filter_cons, isThreadPoolCall]

theorem Visit.startsStops {p : IProgress σ} (h : Visit build ss env benv k v r p) :
    StartsStops p.steps p.halt := by
  cases h with
  | quiet o => exact .of_nil _ _ rfl
  | nullKernel d s => exact .of_nil _ _ (threadPool_nvtxNode d)
  | checkFailed | computeFailed =>
    refine ⟨0, ?_⟩
    cases hprof : build.profiler <;> cases build.nvtx <;>
      simp [hprof, startStopPairs, List.filter_cons, isThreadPoolCall]
  | computed =>
    refine ⟨if build.profiler then 1 else 0, .inl ?_⟩
    cases hprof : build.profiler <;> cases build.nvtx <;>
      simp [hprof, startStopPairs, List.filter_cons, isThreadPoolCall]

end Visit

section Runs

variable (build : Build) (ss : SessionState) (ex : SequentialExecutor) (env : Env σ O)
  (benv : BuildEnv)

theorem executeNodesInstrumented_startsStops :
    ∀ (ks : List Nat) (state : σ × Ranges),
      StartsStops (executeNodesInstrumented build ss ex env benv ks state).steps
        (executeNodesInstrumented build ss ex env benv ks state).halt
  | [], _ => .of_nil _ _ rfl
  | k :: ks, state => .andThen
    (executeNodeInstrumented_visit build ss env benv k state.1 state.2 ex).startsStops
    fun _ => executeNodesInstrumented_startsStops ks _

theorem finishInstrumented_startsStops (state : σ × Ranges) :
    StartsStops (finishInstrumented build env state).steps
      (finishInstrumented build env state).halt := by
  refine .andThen (.of_nil _ _ ?_) fun _ => .of_nil _ _ ?_
  · cases build.nvtx
    · rfl
    · simp [nvtxClose, List.filter_append, isThreadPoolCall]
  · split
    · rfl
    · cases build.profiler <;> rfl

/-- In every run of the instrumented SequentialExecutor::Execute, the thread pool's
StartProfiling and StopProfiling calls alternate, starting with a Start; a Start is left without
its Stop only in a run that returns an error. -/
theorem thread_pool_profiling_alternates (values : σ)
    (programCounterStart programCounterEnd : Nat) :
    let run := executeRangeInstrumented build ss ex env benv values programCounterStart
      programCounterEnd
    ∃ n, run.steps.filter isThreadPoolCall = startStopPairs n ∨
      run.steps.filter isThreadPoolCall = startStopPairs n ++ [.profile .threadPoolStart] ∧
        run.halt ≠ none :=
  StartsStops.andThen (.andThen (.of_nil _ _ (by cases build.profiler <;> rfl))
    fun _ => executeNodesInstrumented_startsStops build ss ex env benv _ _)
    fun _ => finishInstrumented_startsStops build env _

/-- With the profiler enabled, a run that reaches a node whose Compute fails returns an error with
the thread pool's profiling left started: that node's StartProfiling has no StopProfiling. -/
theorem failed_compute_leaves_profiling_started (hprof : build.profiler = true)
    (hcheck : ChecksPass build benv) (values : σ) {a k b : Nat} (hak : a ≤ k) (hkb : k < b)
    (hreach : (executeNodesInstrumented build ss ex env benv (List.range' a (k - a))
      (values, .init)).halt = none)
    {entry : NodeExecutionPlan} {kernel : OpKernel} (hk : ss.plan.executionPlan[k]? = some entry)
    (hterm : env.terminateFlag k = false) (hskip : skipsNode ex env entry.nodeIndex = false)
    (hker : ss.getKernel entry.nodeIndex = some kernel)
    (hfail : (computeStatus (env.computeResult k)).isOK = false) :
    let run := executeRangeInstrumented build ss ex env benv values a b
    run.halt ≠ none ∧
      ∃ n, run.steps.filter isThreadPoolCall = startStopPairs n ++ [.profile .threadPoolStart] := by
  have hsplit : List.range' a (b - a) =
      List.range' a (k - a) ++ k :: List.range' (k + 1) (b - (k + 1)) := by
    have h := List.range'_append_1 a (k - a) (b - k)
    rw [Nat.add_sub_cancel' hak, show b - k + (k - a) = b - a by omega,
      show b - k = b - (k + 1) + 1 by omega, List.range'_succ] at h
    exact h.symm
  have hnode : ∀ st, ∃ steps st', executeNodeInstrumented build ss ex env benv k st =
      ⟨some (.error (computeFailureStatus (ss.getNode entry.nodeIndex).opType
        (ss.getNode entry.nodeIndex).name (computeStatus (env.computeResult k)))), steps, st'⟩ ∧
      steps.filter isThreadPoolCall = [.profile .threadPoolStart] := by
    intro st
    simp only [executeNodeInstrumented, hk, hterm, hskip, hker, hcheck.check_false, hfail,
      Bool.false_eq_true, ↓reduceIte]
    exact ⟨_, _, rfl, by cases build.nvtx <;> simp [hprof, List.filter_cons, isThreadPoolCall]⟩
  obtain ⟨n, hn | ⟨-, hne⟩⟩ := executeNodesInstrumented_startsStops build ss ex env benv
    (List.range' a (k - a)) (values, .init)
  swap; · exact absurd hreach hne
  obtain ⟨steps, st', hrun, hsteps⟩ := hnode
    (executeNodesInstrumented build ss ex env benv (List.range' a (k - a)) (values, .init)).state
  simp only [executeRangeInstrumented, IProgress.andThen_none, hsplit,
    executeNodesInstrumented_append, IProgress.andThen_of_halt_none _ hreach,
    executeNodesInstrumented, hrun, IProgress.andThen_some]
  refine ⟨Option.some_ne_none _, n, ?_⟩
  simp only [List.filter_append, hn, hsteps]
  cases build.profiler <;> rfl

end Runs

theorem yield_throw_leaves_profiling_started :
    (executeRangeInstrumented ⟨true, false, false⟩ yieldSession ⟨false⟩ throwingEnv
        sampleBuildEnv () 0 5).halt ≠ none ∧
      ∃ n, (executeRangeInstrumented ⟨true, false, false⟩ yieldSession ⟨false⟩ throwingEnv
        sampleBuildEnv () 0 5).steps.filter isThreadPoolCall =
          startStopPairs n ++ [.profile .threadPoolStart] :=
  failed_compute_leaves_profiling_started _ _ _ _ _ rfl (fun h => absurd h Bool.false_ne_true) ()
    (Nat.le_refl 0) (by decide) rfl rfl rfl rfl rfl rfl

/-! ### The NVTX forward and backward ranges -/

/-- Whether a step is Begin or End of forward_range or of backward_range. -/
def isPassRangeCall : Step → Bool
  | .nvtxBegin .forward => true
  | .nvtxEnd .forward => true
  | .nvtxBegin .backward => true
  | .nvtxEnd .backward => true
  | _ => false

/-- Begin and End of the forward range, then Begin and End of the backward range. -/
def passRangeCalls : List Step :=
  [.nvtxBegin .forward, .nvtxEnd .forward, .nvtxBegin .backward, .nvtxEnd .backward]

/-- The Begin and End calls the flags record, in the order of passRangeCalls. -/
def recordedCalls (r : Ranges) : List Step :=
  (if r.forwardBegun then [.nvtxBegin .forward] else []) ++
    (if r.forwardEnded then [.nvtxEnd .forward] else []) ++
    (if r.backwardBegun then [.nvtxBegin .backward] else []) ++
    (if r.backwardEnded then [.nvtxEnd .backward] else [])

/-- The flags the node loop can leave: nothing begun, the forward range begun, or the forward
range ended and the backward one begun. -/
def ReachedFlags (r : Ranges) : Prop :=
  r = .init ∨ r = ⟨true, false, false, false⟩ ∨ r = ⟨true, true, true, false⟩

theorem ReachedFlags.nvtxVisit {r : Ranges} (hr : ReachedFlags r) (d : String) :
    ReachedFlags (nvtxVisit d r).1 ∧
      recordedCalls r ++ (nvtxVisit d r).2.filter isPassRangeCall =
        recordedCalls (nvtxVisit d r).1 := by
  rcases hr with rfl | rfl | rfl <;> by_cases hd : d = "Backward pass" <;>
    simp [Instrumented.nvtxVisit, hd, recordedCalls, ReachedFlags, Ranges.init,
      List.filter_cons, isPassRangeCall]

theorem ReachedFlags.recorded_prefix {r : Ranges} (hr : ReachedFlags r) :
    recordedCalls r <+: passRangeCalls := by
  rcases hr with rfl | rfl | rfl <;> decide

theorem ReachedFlags.recorded_close {r : Ranges} (hr : ReachedFlags r) :
    recordedCalls r ++ (nvtxClose r).filter isPassRangeCall = passRangeCalls := by
  rcases hr with rfl | rfl | rfl <;> rfl

/-- The flags after a piece of a run are reachable and record the pass-range calls made from
the flags r before it. -/
def RecordsRanges (r : Ranges) (p : IProgress σ) : Prop :=
  ReachedFlags p.state.2 ∧
    recordedCalls r ++ p.steps.filter isPassRangeCall = recordedCalls p.state.2

theorem RecordsRanges.andThen {r : Ranges} {p : IProgress σ} {f : σ × Ranges → IProgress σ}
    (hp : RecordsRanges r p) (hf : p.halt = none → RecordsRanges p.state.2 (f p.state)) :
    RecordsRanges r (p.andThen f) := by
  rcases p with ⟨_ | o, steps, state⟩
  · obtain ⟨hreached, hrec⟩ := hf rfl
    refine ⟨hreached, ?_⟩
    simp only [IProgress.andThen_none, List.filter_append, ← List.append_assoc, hp.2, hrec]
  · exact hp

section Visit

variable {build : Build} {ss : SessionState} {env : Env σ O} {benv : BuildEnv} {k : Nat} {v : σ}
  {r : Ranges}

@[simp] theorem passRange_map_call (es : List Event) :
    (es.map .call).filter isPassRangeCall = [] := filter_map_call (fun _ => rfl) es

@[simp] theorem passRange_syncBeforeSteps (entry : NodeExecutionPlan) (kernel : OpKernel)
    (ctx : OpKernelContext) (name : String) :
    (syncBeforeSteps build ss entry kernel ctx name).filter isPassRangeCall = [] := by
  unfold syncBeforeSteps
  cases build.profiler <;> cases ss.plan.nodeHasFence entry.nodeIndex <;>
    simp [List.filter_cons, isPassRangeCall]

@[simp] theorem passRange_syncAfterSteps (entry : NodeExecutionPlan) (kernel : OpKernel)
    (ctx : OpKernelContext) (name : String) :
    (syncAfterSteps build benv k ss entry kernel ctx name).filter isPassRangeCall = [] := by
  unfold syncAfterSteps
  cases build.profiler <;> cases ss.plan.nodeHasFence entry.nodeIndex <;>
    simp [List.filter_cons, isPassRangeCall]

theorem Visit.recordsRanges (hn : build.nvtx = true) (hr : ReachedFlags r) {p : IProgress σ}
    (h : Visit build ss env benv k v r p) : RecordsRanges r p := by
  cases h with
  | quiet o => exact ⟨hr, List.append_nil _⟩
  | nullKernel d | checkFailed d | computeFailed d | computed d =>
    simpa [RecordsRanges, nvtxNode, hn, List.filter_cons, isPassRangeCall] using hr.nvtxVisit d

end Visit

section Runs

variable (build : Build) (ss : SessionState) (ex : SequentialExecutor) (env : Env σ O)
  (benv : BuildEnv)

theorem executeNodesInstrumented_recordsRanges (hn : build.nvtx = true) :
    ∀ (ks : List Nat) (v : σ) (r : Ranges), ReachedFlags r →
      RecordsRanges r (executeNodesInstrumented build ss ex env benv ks (v, r))
  | [], _, _, hr => ⟨hr, List.append_nil _⟩
  | k :: ks, v, r, hr =>
    have hk := (executeNodeInstrumented_visit build ss env benv k v r ex).recordsRanges hn hr
    hk.andThen fun _ => executeNodesInstrumented_recordsRanges hn ks _ _ hk.1

/-- In a build with ENABLE_NVTX_PROFILE, every call of SequentialExecutor::Execute begins and
ends the forward range and then the backward range at most once each, in this order; a call that
returns OK makes all four calls. -/
theorem nvtx_pass_ranges_in_order (hn : build.nvtx = true) (values : σ)
    (programCounterStart programCounterEnd : Nat) :
    let run := executeRangeInstrumented build ss ex env benv values programCounterStart
      programCounterEnd
    run.steps.filter isPassRangeCall <+: passRangeCalls ∧
      (run.halt = none → run.steps.filter isPassRangeCall = passRangeCalls) := by
  obtain ⟨hreached, hrec⟩ := executeNodesInstrumented_recordsRanges build ss ex env benv hn
    (List.range' programCounterStart (programCounterEnd - programCounterStart)) values _
    (.inl rfl)
  simp only [executeRangeInstrumented, IProgress.andThen_none]
  generalize executeNodesInstrumented build ss ex env benv _ _ = q at hreached hrec
  have hstart : (if build.profiler then [Step.profile (.startTime .session)] else []).filter
      isPassRangeCall = [] := by cases build.profiler <;> rfl
  have hnodes : q.steps.filter isPassRangeCall = recordedCalls q.state.2 := hrec
  rcases q with ⟨_ | o, steps, state⟩
  · have hfull : (finishInstrumented build env state).steps.filter isPassRangeCall =
        (nvtxClose state.2).filter isPassRangeCall := by
      simp only [finishInstrumented, IProgress.andThen_none, hn, if_true, List.filter_append]
      split <;> cases build.profiler <;> simp [List.filter_cons, isPassRangeCall]
    have hall : ((if build.profiler then [Step.profile (.startTime .session)] else []) ++ steps ++
        (finishInstrumented build env state).steps).filter isPassRangeCall = passRangeCalls := by
      rw [List.filter_append, List.filter_append, hstart, hnodes, hfull, List.nil_append,
        hreached.recorded_close]
    exact ⟨by simpa only [IProgress.andThen_none, hall] using List.prefix_refl _,
      fun _ => by simpa only [IProgress.andThen_none] using hall⟩
  · simp only [IProgress.andThen_some, List.filter_append, hstart, hnodes, List.nil_append]
    exact ⟨hreached.recorded_prefix, fun h => absurd h (Option.some_ne_none o)⟩

end Runs

theorem yield_nvtx_pass_ranges :
    (⟨false, false, true⟩ : Build).nvtx = true ∧
      (executeRangeInstrumented ⟨false, false, true⟩ yieldSession ⟨false⟩ quietEnv sampleBuildEnv ()
        0 5).steps.filter isPassRangeCall <+: passRangeCalls ∧
      ((executeRangeInstrumented ⟨false, false, true⟩ yieldSession ⟨false⟩ quietEnv sampleBuildEnv
          () 0 5).halt = none →
        (executeRangeInstrumented ⟨false, false, true⟩ yieldSession ⟨false⟩ quietEnv sampleBuildEnv
          () 0 5).steps.filter isPassRangeCall = passRangeCalls) :=
  ⟨rfl, nvtx_pass_ranges_in_order _ yieldSession ⟨false⟩ quietEnv sampleBuildEnv rfl () 0 5⟩

/-! ### What each profiler event measures -/

/-- An observer of the profiler's TimePoints: the calls made since each was last set, and each
event recorded so far with the calls in the interval of the TimePoint it is measured from. -/
structure Watch where
  since : Timer → List Event
  events : List (ProfileRecord × List Event)

def Watch.step (w : Watch) : Step → Watch
  | .call e => ⟨fun t => w.since t ++ [e], w.events⟩
  | .profile (.startTime t) => ⟨Function.update w.since t [], w.events⟩
  | .profile (.nodeEvent name t args) => ⟨w.since, w.events ++ [(.nodeEvent name t args, w.since t)]⟩
  | .profile (.sessionEvent name t) => ⟨w.since, w.events ++ [(.sessionEvent name t, w.since t)]⟩
  | _ => w

def Watch.run (w : Watch) (steps : List Step) : Watch := steps.foldl Watch.step w

/-- What a node event's interval holds when the event means what its name says: the kernel_time
event named and indexed after the node of plan entry k holds exactly k's Compute; the
fence_before and fence_after events of a node hold fence calls only. -/
def Measures (ss : SessionState) : ProfileRecord → List Event → Prop
  | .nodeEvent name .kernel args, calls => ∃ (k : Nat) (entry : NodeExecutionPlan),
    ss.plan.executionPlan[k]? = some entry ∧
    name = nodeNameForProfiling true (ss.getNode entry.nodeIndex) entry.nodeIndex ++ "_kernel_time" ∧
    ("exec_plan_index", toString entry.nodeIndex) ∈ args ∧ calls = [.compute k]
  | .nodeEvent name .sync _, calls => (∃ (k : Nat) (entry : NodeExecutionPlan),
    ss.plan.executionPlan[k]? = some entry ∧
    (name = nodeNameForProfiling true (ss.getNode entry.nodeIndex) entry.nodeIndex ++ "_fence_before" ∨
      name = nodeNameForProfiling true (ss.getNode entry.nodeIndex) entry.nodeIndex ++ "_fence_after")) ∧
    ∀ e ∈ calls, isFenceEvent e = true
  | _, _ => False

/-- Whatever the TimePoints held before, the steps record only node events that measure what
they say. -/
def Sound (ss : SessionState) (steps : List Step) : Prop :=
  ∀ w : Watch, ∃ new, (w.run steps).events = w.events ++ new ∧ ∀ x ∈ new, Measures ss x.1 x.2

@[simp] theorem Watch.run_nil (w : Watch) : w.run [] = w := rfl

@[simp] theorem Watch.run_cons (w : Watch) (x : Step) (s : List Step) :
    w.run (x :: s) = (w.step x).run s := rfl

theorem Watch.run_append (w : Watch) (s t : List Step) : w.run (s ++ t) = (w.run s).run t :=
  List.foldl_append _ _ _ _

theorem Watch.run_map_call (w : Watch) (es : List Event) :
    w.run (es.map .call) = ⟨fun t => w.since t ++ es, w.events⟩ := by
  induction es generalizing w with
  | nil => cases w; simp
  | cons e es ih => simp [ih, Watch.step]

theorem Watch.since_run {t : Timer} :
    ∀ {steps : List Step} (w : Watch), Step.profile (.startTime t) ∉ steps →
      (w.run steps).since t = w.since t ++ callsOf steps
  | [], w, _ => (List.append_nil _).symm
  | x :: steps, w, h => by
    rw [List.mem_cons, not_or] at h
    show ((w.step x).run steps).since t = _
    rw [Watch.since_run _ h.2]
    cases x with
    | call e => simp [Watch.step]
    | profile record =>
      cases record <;> simp_all [Watch.step, Function.update_noteq, Ne.symm]
    | nvtxBegin | nvtxEnd => rfl

theorem Sound.append {ss : SessionState} {s t : List Step} (hs : Sound ss s) (ht : Sound ss t) :
    Sound ss (s ++ t) := by
  intro w
  obtain ⟨n₁, h₁, m₁⟩ := hs w
  obtain ⟨n₂, h₂, m₂⟩ := ht (w.run s)
  refine ⟨n₁ ++ n₂, by rw [Watch.run_append, h₂, h₁, List.append_assoc], ?_⟩
  intro x hx
  exact (List.mem_append.mp hx).elim (m₁ x) (m₂ x)

theorem Sound.andThen {ss : SessionState} {p : IProgress σ} {f : σ × Ranges → IProgress σ}
    (hp : Sound ss p.steps) (hf : p.halt = none → Sound ss (f p.state).steps) :
    Sound ss (p.andThen f).steps := by
  rcases p with ⟨_ | o, steps, state⟩
  · exact hp.append (hf rfl)
  · exact hp

theorem Sound.of_events {ss : SessionState} {s : List Step}
    (h : ∀ w : Watch, (w.run s).events = w.events) : Sound ss s :=
  fun w => ⟨[], by rw [h, List.append_nil], by simp⟩

section Visit

variable {build : Build} {ss : SessionState} {env : Env σ O} {benv : BuildEnv} {k : Nat} {v : σ}
  {r : Ranges}

@[simp] theorem Watch.run_nvtxNode (w : Watch) (d : String) : w.run (nvtxNode build d r).2 = w := by
  unfold nvtxNode nvtxVisit
  split_ifs <;> rfl

@[simp] theorem Watch.run_nvtxClose (w : Watch) : w.run (nvtxClose r) = w := by
  simp only [nvtxClose, Watch.run_append]
  split_ifs <;> rfl

@[simp] theorem Watch.run_nvtxCloseIf (w : Watch) :
    w.run (if build.nvtx then nvtxClose r else []) = w := by
  cases build.nvtx <;> simp

@[simp] theorem Watch.run_nvtxIf (w : Watch) (step : Step) (hstep : w.step step = w) :
    w.run (if build.nvtx then [step] else []) = w := by
  cases build.nvtx
  · rfl
  · exact hstep

theorem Watch.run_syncBeforeSteps (w : Watch) (entry : NodeExecutionPlan) (kernel : OpKernel)
    (ctx : OpKernelContext) (name : String) :
    (w.run (syncBeforeSteps build ss entry kernel ctx name)).events = w.events ++
        (if build.profiler then [(.nodeEvent (name ++ "_fence_before") .sync [("op_name", kernel.opName)],
          if ss.plan.nodeHasFence entry.nodeIndex then syncBeforeCompute kernel ctx else [])]
        else []) ∧
      (build.profiler = true →
        (w.run (syncBeforeSteps build ss entry kernel ctx name)).since .kernel = []) := by
  unfold syncBeforeSteps
  cases build.profiler <;> cases ss.plan.nodeHasFence entry.nodeIndex <;>
    simp [Watch.run_append, Watch.run_map_call, Watch.step, Function.update_apply]

theorem Watch.run_syncAfterSteps (w : Watch) (entry : NodeExecutionPlan) (kernel : OpKernel)
    (ctx : OpKernelContext) (name : String) :
    (w.run (syncAfterSteps build benv k ss entry kernel ctx name)).events = w.events ++
      (if build.profiler then
        [(.nodeEvent (name ++ "_kernel_time") .kernel (kernelTimeArgs benv k entry.nodeIndex kernel),
          w.since .kernel),
         (.nodeEvent (name ++ "_fence_after") .sync [("op_name", kernel.opName)],
          if ss.plan.nodeHasFence entry.nodeIndex then syncAfterCompute kernel.execQueueId ctx
          else [])]
      else []) := by
  unfold syncAfterSteps
  cases build.profiler <;> cases ss.plan.nodeHasFence entry.nodeIndex <;>
    simp [Watch.run_append, Watch.run_map_call, Watch.step, Function.update_apply]

@[simp] theorem profile_not_mem_nvtxNode (d : String) (record : ProfileRecord) :
    Step.profile record ∉ (nvtxNode build d r).2 := by
  unfold nvtxNode nvtxVisit
  split_ifs <;> simp

theorem fence_of_mem_syncBefore {c : Bool} {kernel : OpKernel} {ctx : OpKernelContext} :
    ∀ e ∈ (if c = true then syncBeforeCompute kernel ctx else []), isFenceEvent e = true := by
  cases c
  · simp
  · exact syncBeforeCompute_fence kernel ctx

theorem fence_of_mem_syncAfter {c : Bool} {q : Int} {ctx : OpKernelContext} :
    ∀ e ∈ (if c = true then syncAfterCompute q ctx else []), isFenceEvent e = true := by
  cases c
  · simp
  · exact syncAfterCompute_fence q ctx

theorem Visit.sessionTimer_not_mem {p : IProgress σ} (h : Visit build ss env benv k v r p) :
    Step.profile (.startTime .session) ∉ p.steps := by
  cases h <;> simp [syncBeforeSteps, syncAfterSteps]

theorem Visit.sound {p : IProgress σ} (h : Visit build ss env benv k v r p) : Sound ss p.steps := by
  intro w
  cases h with
  | quiet o => exact ⟨[], by simp, by simp⟩
  | nullKernel d s => exact ⟨[], by simp, by simp⟩
  | checkFailed d he kernel ctx hname rangeName s | computeFailed d he kernel ctx hname rangeName s =>
    refine ⟨_, by simp [Watch.run_append, (Watch.run_syncBeforeSteps w _ kernel ctx _).1,
      Watch.step]; rfl, ?_⟩
    cases hprof : build.profiler
    · simp
    · simp only [hprof, hname, if_true, List.mem_singleton, forall_eq, Measures]
      exact ⟨⟨k, _, he, .inl rfl⟩, fence_of_mem_syncBefore⟩
  | @computed d entry he kernel ctx ctx' name hname rangeName p =>
    obtain ⟨hev, hkernel⟩ := @Watch.run_syncBeforeSteps build ss w entry kernel ctx name
    refine ⟨_, by simp [Watch.run_append, hev, Watch.run_syncAfterSteps, Watch.run_map_call,
      Watch.step]; rfl, ?_⟩
    cases hprof : build.profiler
    · simp
    · have hk := hkernel hprof
      subst hname
      simp only [hprof] at hk
      simp only [hprof, hk, if_true, List.singleton_append, List.cons_append, List.nil_append,
        List.mem_cons, List.mem_singleton, List.not_mem_nil, or_false, forall_eq_or_imp, forall_eq,
        Measures]
      refine ⟨⟨⟨k, _, he, .inl rfl⟩, fence_of_mem_syncBefore⟩,
        ⟨k, _, he, rfl, by simp [kernelTimeArgs], ?_⟩, ⟨k, _, he, .inr rfl⟩, fence_of_mem_syncAfter⟩
      cases build.nvtx <;> rfl

end Visit

section Runs

variable (build : Build) (ss : SessionState) (ex : SequentialExecutor) (env : Env σ O)
  (benv : BuildEnv)

theorem executeNodesInstrumented_not_mem {x : Step}
    (hx : ∀ {k v r} {p : IProgress σ}, Visit build ss env benv k v r p → x ∉ p.steps) :
    ∀ (ks : List Nat) (state : σ × Ranges),
      x ∉ (executeNodesInstrumented build ss ex env benv ks state).steps
  | [], _ => List.not_mem_nil _
  | k :: ks, state => fun h => (mem_andThen_steps h).elim
    (hx (executeNodeInstrumented_visit build ss env benv k state.1 state.2 ex))
    (executeNodesInstrumented_not_mem hx ks _)

theorem executeNodesInstrumented_sound :
    ∀ (ks : List Nat) (state : σ × Ranges),
      Sound ss (executeNodesInstrumented build ss ex env benv ks state).steps
  | [], _ => Sound.of_events fun _ => rfl
  | k :: ks, state => .andThen
    (executeNodeInstrumented_visit build ss env benv k state.1 state.2 ex).sound
    fun _ => executeNodesInstrumented_sound ks _

/-- Each profiler event of a run measures what its name says: every kernel_time interval holds
exactly one call, the Compute of the plan entry whose node the event is named and indexed after;
every fence_before and fence_after interval, named after a node of the plan, holds fence calls
only; and the session event's interval holds every call the run makes. -/
theorem profiler_events_measure_their_calls (values : σ)
    (programCounterStart programCounterEnd : Nat) :
    let run := executeRangeInstrumented build ss ex env benv values programCounterStart
      programCounterEnd
    ∀ x ∈ (Watch.run ⟨fun _ => [], []⟩ run.steps).events, Measures ss x.1 x.2 ∨
      x.1 = .sessionEvent "SequentialExecutor::Execute" .session ∧ x.2 = callsOf run.steps := by
  have hsound := executeNodesInstrumented_sound build ss ex env benv
    (List.range' programCounterStart (programCounterEnd - programCounterStart)) (values, .init)
  have hfree := executeNodesInstrumented_not_mem build ss ex env benv
    (fun h => h.sessionTimer_not_mem)
    (List.range' programCounterStart (programCounterEnd - programCounterStart)) (values, .init)
  simp only [executeRangeInstrumented, IProgress.andThen_none]
  generalize executeNodesInstrumented build ss ex env benv _ _ = q at hsound hfree
  -- before the loop, tp is set and nothing is recorded
  obtain ⟨w, hw, hevents, hsince⟩ : ∃ w : Watch, Watch.run ⟨fun _ => [], []⟩
      (if build.profiler then [Step.profile (.startTime .session)] else []) = w ∧
      w.events = [] ∧ w.since .session = [] :=
    ⟨_, rfl, by cases build.profiler <;> rfl, by cases build.profiler <;> simp [Watch.step]⟩
  obtain ⟨new, hnew, hmeasures⟩ := hsound w
  rcases q with ⟨_ | o, steps, state⟩
  · have hcalls := Watch.since_run w hfree
    simp only [IProgress.andThen_none, finishInstrumented, Watch.run_append, hw,
      Watch.run_nvtxCloseIf]
    rcases generateMemoryPatterns env state.1 with _ | o'
    · cases hprof : build.profiler
      · simp only [hprof, Bool.false_eq_true, ↓reduceIte, Watch.run_nil, hnew, hevents,
          List.nil_append]
        exact fun x hx => .inl (hmeasures x hx)
      · simp only [hprof, ↓reduceIte, Watch.run_cons, Watch.run_nil, Watch.step, hnew, hcalls,
          hsince, hevents, List.nil_append, List.mem_append, List.mem_singleton, callsOf_append,
          callsOf_profile, callsOf_nil, callsOf_nvtxClose, callsOf_ite, ite_self, List.append_nil]
        rintro x (hx | rfl)
        exacts [.inl (hmeasures x hx), .inr ⟨rfl, rfl⟩]
    · simp only [Watch.run_nil, hnew, hevents, List.nil_append]
      exact fun x hx => .inl (hmeasures x hx)
  · simp only [IProgress.andThen_some, Watch.run_append, hw, hnew, hevents, List.nil_append]
    exact fun x hx => .inl (hmeasures x hx)

end Runs

end SequentialExecution.Profiler
