import SequentialExecution.Window

namespace SequentialExecution.Instrumented

open SequentialExecution.Common SequentialExecution.Session SequentialExecution.Fence
open SequentialExecution.NodeLoop SequentialExecution.Execute SequentialExecution.Window

variable {σ O : Type}

/-- How the executor is built and run: whether the session's profiler is enabled
(session_state.Profiler().IsEnabled()), and whether ENABLE_TRAINING and ENABLE_NVTX_PROFILE are
defined. -/
structure Build where
  profiler : Bool
  training : Bool
  nvtx : Bool
  deriving DecidableEq, Repr

/-- What the instrumented branches read besides Env: the node's Description(), the kernel's
KernelDef().Provider(), Node().Index() and AllocateInputsContiguously(), the constant
initializers of OpKernelInfo::TryGetConstantInput, and, at plan entry k, the SizeInBytes of the
kernel context's inputs and outputs (none for a null or non-tensor value), the contiguity
check's status and the report of ThreadPool::StopProfiling. -/
structure BuildEnv where
  description : Nat → String
  kernelProvider : Nat → String
  kernelGraphIndex : Nat → Nat
  allocateInputsContiguously : Nat → Bool
  constantInput : Nat → Nat → Option (BitVec 64)
  inputSizes : Nat → List (Option (BitVec 64))
  outputSizes : Nat → List (Option (BitVec 64))
  contiguityStatus : Nat → Status
  schedulingStats : Nat → String

/-- The TimePoint a profiler event is measured from: tp, sync_time_begin or kernel_begin_time. -/
inductive Timer
  | session | sync | kernel
  deriving DecidableEq, Repr

/-- A call on the session's profiler, or on the thread pool's profiling. -/
inductive ProfileRecord
  | startTime (timer : Timer)
  | nodeEvent (name : String) (timer : Timer) (args : List (String × String))
  | sessionEvent (name : String) (timer : Timer)
  | threadPoolStart
  | threadPoolStop
  deriving DecidableEq, Repr

inductive NvtxRange
  | forward | backward | node (name : String)
  deriving DecidableEq, Repr

/-- One step of the instrumented loop: a call on a collaborator, a profiler call, or Begin or
End of an NVTX range. -/
inductive Step
  | call (e : Event)
  | profile (r : ProfileRecord)
  | nvtxBegin (range : NvtxRange)
  | nvtxEnd (range : NvtxRange)
  deriving DecidableEq, Repr

/-- IsBeginCalled and IsEndCalled of forward_range and of backward_range. -/
structure Ranges where
  forwardBegun : Bool
  forwardEnded : Bool
  backwardBegun : Bool
  backwardEnded : Bool
  deriving DecidableEq, Repr

def Ranges.init : Ranges := ⟨false, false, false, false⟩

/-- node_name_for_profiling, lines 407-411: empty with the profiler off. -/
def nodeNameForProfiling (profiler : Bool) (node : Node) (nodeIndex : Nat) : String :=
  if !profiler then ""
  else if node.name.isEmpty then node.opType ++ "_" ++ toString nodeIndex else node.name

/-- CalculateTotalInputSizes, lines 82-119, from input index i: input_activation_sizes and
input_parameter_sizes, size_t sums; a constant initializer is counted with its own size. -/
def calculateTotalInputSizes (constantInput : Nat → Option (BitVec 64)) :
    Nat → List (Option (BitVec 64)) → BitVec 64 × BitVec 64 → BitVec 64 × BitVec 64
  | _, [], sizes => sizes
  | i, none :: inputs, sizes => calculateTotalInputSizes constantInput (i + 1) inputs sizes
  | i, some size :: inputs, sizes =>
    match constantInput i with
    | some constant =>
      calculateTotalInputSizes constantInput (i + 1) inputs (sizes.1, sizes.2 + constant)
    | none => calculateTotalInputSizes constantInput (i + 1) inputs (sizes.1 + size, sizes.2)

/-- CalculateTotalOutputSizes, lines 59-80. -/
def calculateTotalOutputSizes (outputs : List (Option (BitVec 64))) : BitVec 64 :=
  outputs.foldl (fun total output => match output with
    | some size => total + size
    | none => total) 0

/-- The args of the kernel_time event, lines 491-503. -/
def kernelTimeArgs (benv : BuildEnv) (k nodeIndex : Nat) (kernel : OpKernel) :
    List (String × String) :=
  let sizes := calculateTotalInputSizes (benv.constantInput nodeIndex) 0 (benv.inputSizes k) (0, 0)
  [("op_name", kernel.opName), ("provider", benv.kernelProvider nodeIndex),
    ("graph_index", toString (benv.kernelGraphIndex nodeIndex)),
    ("exec_plan_index", toString nodeIndex), ("activation_size", toString sizes.1.toNat),
    ("parameter_size", toString sizes.2.toNat),
    ("output_size", toString (calculateTotalOutputSizes (benv.outputSizes k)).toNat),
    ("thread_scheduling_stats", benv.schedulingStats k)]

/-- Lines 367-427 up to Compute: the sync timer, the Before calls, the fence_before event,
StartProfiling of the thread pool and the kernel timer. -/
def syncBeforeSteps (build : Build) (ss : SessionState) (entry : NodeExecutionPlan)
    (kernel : OpKernel) (ctx : OpKernelContext) (name : String) : List Step :=
  (if build.profiler then [.profile (.startTime .sync)] else []) ++
    (if ss.plan.nodeHasFence entry.nodeIndex then (syncBeforeCompute kernel ctx).map .call else []) ++
    (if build.profiler then [.profile (.nodeEvent (name ++ "_fence_before") .sync
      [("op_name", kernel.opName)]), .profile .threadPoolStart, .profile (.startTime .kernel)]
    else [])

/-- Lines 473-548 after a successful Compute: StopProfiling and the kernel_time event, the sync
timer, the After calls and the fence_after event. -/
def syncAfterSteps (build : Build) (benv : BuildEnv) (k : Nat) (ss : SessionState)
    (entry : NodeExecutionPlan) (kernel : OpKernel) (ctx : OpKernelContext) (name : String) :
    List Step :=
  (if build.profiler then [.profile .threadPoolStop, .profile (.nodeEvent (name ++ "_kernel_time")
      .kernel (kernelTimeArgs benv k entry.nodeIndex kernel)), .profile (.startTime .sync)]
    else []) ++
    (if ss.plan.nodeHasFence entry.nodeIndex then
      (syncAfterCompute kernel.execQueueId ctx).map .call else []) ++
    (if build.profiler then
      [.profile (.nodeEvent (name ++ "_fence_after") .sync [("op_name", kernel.opName)])] else [])

/-- Lines 341-349: the forward range begins at the first node not described as a backward pass;
the first backward-pass node after it ends the forward range and begins the backward one. -/
def nvtxVisit (description : String) (r : Ranges) : Ranges × List Step :=
  if description != "Backward pass" && !r.forwardBegun then
    ({ r with forwardBegun := true }, [.nvtxBegin .forward])
  else if description == "Backward pass" && !r.backwardBegun && r.forwardBegun then
    ({ r with forwardEnded := true, backwardBegun := true },
      [.nvtxEnd .forward, .nvtxBegin .backward])
  else (r, [])

/-- The NVTX part of lines 340-350, in a build with or without ENABLE_NVTX_PROFILE. -/
def nvtxNode (build : Build) (description : String) (r : Ranges) : Ranges × List Step :=
  if build.nvtx then nvtxVisit description r else (r, [])

/-- Lines 559-573 after the loop: each range not yet begun is begun, and each not yet ended is
ended. -/
def nvtxClose (r : Ranges) : List Step :=
  (if !r.forwardBegun then [.nvtxBegin .forward] else []) ++
    (if !r.forwardEnded then [.nvtxEnd .forward] else []) ++
    (if !r.backwardBegun then [.nvtxBegin .backward] else []) ++
    (if !r.backwardEnded then [.nvtxEnd .backward] else [])

/-- Where the instrumented loop stands: its steps so far, the frame's values with the NVTX
ranges' flags, and the outcome that ended the loop early, if one did. -/
structure IProgress (σ : Type) where
  halt : Option Outcome
  steps : List Step
  state : σ × Ranges

def IProgress.andThen (p : IProgress σ) (f : σ × Ranges → IProgress σ) : IProgress σ :=
  match p.halt with
  | some _ => p
  | none =>
    let q := f p.state
    ⟨q.halt, p.steps ++ q.steps, q.state⟩

def liftProgress (p : Progress σ) (r : Ranges) : IProgress σ :=
  ⟨p.halt, p.trace.map .call, (p.values, r)⟩

/-- One iteration of the node loop, lines 321-556, with every branch the build enables. -/
def executeNodeInstrumented (build : Build) (ss : SessionState) (ex : SequentialExecutor)
    (env : Env σ O) (benv : BuildEnv) (k : Nat) (state : σ × Ranges) : IProgress σ :=
  match ss.plan.executionPlan[k]? with
  | none => ⟨some .undefined, [], state⟩
  | some entry =>
    if env.terminateFlag k then ⟨some (.error terminateStatus), [], state⟩
    else if skipsNode ex env entry.nodeIndex then ⟨none, [], state⟩
    else
      let node := ss.getNode entry.nodeIndex
      let visit := nvtxNode build (benv.description entry.nodeIndex) state.2
      match ss.getKernel entry.nodeIndex with
      | none => ⟨some (.error (nullKernelStatus node.name)), visit.2, (state.1, visit.1)⟩
      | some kernel =>
        let name := nodeNameForProfiling build.profiler node entry.nodeIndex
        let range := NvtxRange.node
          (node.opType ++ "." ++ toString entry.nodeIndex ++ "(" ++ node.name ++ ")")
        let before := visit.2 ++
          syncBeforeSteps build ss entry kernel (env.kernelContext entry.nodeIndex state.1) name ++
          (if build.nvtx then [.nvtxBegin range] else [])
        if build.training && benv.allocateInputsContiguously entry.nodeIndex &&
            !(benv.contiguityStatus k).isOK then
          ⟨some (.error (benv.contiguityStatus k)), before, (state.1, visit.1)⟩
        else
          let s := computeStatus (env.computeResult k)
          let values := env.computeEffect k state.1
          let computed := before ++ .call (.compute k) ::
            (if build.nvtx then [.nvtxEnd range] else [])
          if s.isOK then
            (⟨none, computed ++ syncAfterSteps build benv k ss entry kernel
                (env.kernelContext entry.nodeIndex values) name,
              (values, visit.1)⟩ : IProgress σ).andThen
              fun st => liftProgress (releaseNodeMLValues ss.plan env k entry st.1) st.2
          else
            ⟨some (.error (computeFailureStatus node.opType node.name s)), computed,
              (values, visit.1)⟩

def executeNodesInstrumented (build : Build) (ss : SessionState) (ex : SequentialExecutor)
    (env : Env σ O) (benv : BuildEnv) : List Nat → σ × Ranges → IProgress σ
  | [], state => ⟨none, [], state⟩
  | k :: ks, state => (executeNodeInstrumented build ss ex env benv k state).andThen
    (executeNodesInstrumented build ss ex env benv ks)

/-- The end of SequentialExecutor::Execute after the loop, lines 559-603: the NVTX ranges are
closed, the memory patterns generated, and the session event recorded. -/
def finishInstrumented (build : Build) (env : Env σ O) (state : σ × Ranges) : IProgress σ :=
  (⟨none, if build.nvtx then nvtxClose state.2 else [], state⟩ : IProgress σ).andThen
    fun state =>
      match generateMemoryPatterns env state.1 with
      | some o => ⟨some o, [], state⟩
      | none => ⟨none, if build.profiler then
          [.profile (.sessionEvent "SequentialExecutor::Execute" .session)] else [], state⟩

/-- SequentialExecutor::Execute over the plan entries [programCounterStart, programCounterEnd),
lines 252-616, with every branch the build enables; the NVTX ranges start unbegun. -/
def executeRangeInstrumented (build : Build) (ss : SessionState) (ex : SequentialExecutor)
    (env : Env σ O) (benv : BuildEnv) (values : σ) (programCounterStart programCounterEnd : Nat) :
    IProgress σ :=
  ((⟨none, if build.profiler then [.profile (.startTime .session)] else [], (values, Ranges.init)⟩ :
    IProgress σ).andThen (executeNodesInstrumented build ss ex env benv
      (List.range' programCounterStart (programCounterEnd - programCounterStart)))).andThen
    (finishInstrumented build env)

def callsOf (steps : List Step) : List Event :=
  steps.filterMap fun
    | .call e => some e
    | _ => none

def IProgress.calls (p : IProgress σ) : Progress σ :=
  ⟨p.halt, callsOf p.steps, p.state.1⟩

/-- The contiguity check of lines 440-444 never fails: the build is not a training build, or the
check passes wherever a kernel asks for contiguous inputs. -/
def ChecksPass (build : Build) (benv : BuildEnv) : Prop :=
  build.training = true →
    ∀ k n, benv.allocateInputsContiguously n = true → (benv.contiguityStatus k).isOK = true

theorem ChecksPass.check_false {build : Build} {benv : BuildEnv} (h : ChecksPass build benv)
    (k n : Nat) : (build.training && benv.allocateInputsContiguously n &&
      !(benv.contiguityStatus k).isOK) = false := by
  cases ht : build.training
  · rfl
  cases ha : benv.allocateInputsContiguously n
  · rfl
  simp [h ht k n ha]

@[simp] theorem callsOf_nil : callsOf [] = [] := rfl

@[simp] theorem callsOf_call (e : Event) (s : List Step) :
    callsOf (.call e :: s) = e :: callsOf s := rfl

@[simp] theorem callsOf_profile (r : ProfileRecord) (s : List Step) :
    callsOf (.profile r :: s) = callsOf s := rfl

@[simp] theorem callsOf_nvtxBegin (r : NvtxRange) (s : List Step) :
    callsOf (.nvtxBegin r :: s) = callsOf s := rfl

@[simp] theorem callsOf_nvtxEnd (r : NvtxRange) (s : List Step) :
    callsOf (.nvtxEnd r :: s) = callsOf s := rfl

@[simp] theorem callsOf_append (s t : List Step) : callsOf (s ++ t) = callsOf s ++ callsOf t :=
  List.filterMap_append _ _ _

@[simp] theorem callsOf_ite (c : Prop) [Decidable c] (s t : List Step) :
    callsOf (if c then s else t) = if c then callsOf s else callsOf t := apply_ite ..

@[simp] theorem callsOf_map_call (es : List Event) : callsOf (es.map .call) = es := by
  induction es with
  | nil => rfl
  | cons e es ih => simp only [List.map_cons, callsOf_call, ih]

@[simp] theorem callsOf_syncBeforeSteps (build : Build) (ss : SessionState)
    (entry : NodeExecutionPlan) (kernel : OpKernel) (ctx : OpKernelContext) (name : String) :
    callsOf (syncBeforeSteps build ss entry kernel ctx name) =
      if ss.plan.nodeHasFence entry.nodeIndex then syncBeforeCompute kernel ctx else [] := by
  simp [syncBeforeSteps]

@[simp] theorem callsOf_syncAfterSteps (build : Build) (benv : BuildEnv) (k : Nat)
    (ss : SessionState) (entry : NodeExecutionPlan) (kernel : OpKernel) (ctx : OpKernelContext)
    (name : String) :
    callsOf (syncAfterSteps build benv k ss entry kernel ctx name) =
      if ss.plan.nodeHasFence entry.nodeIndex then syncAfterCompute kernel.execQueueId ctx
      else [] := by
  simp [syncAfterSteps]

@[simp] theorem callsOf_nvtxNode (build : Build) (description : String) (r : Ranges) :
    callsOf (nvtxNode build description r).2 = [] := by
  unfold nvtxNode nvtxVisit
  split_ifs <;> rfl

@[simp] theorem callsOf_nvtxClose (r : Ranges) : callsOf (nvtxClose r) = [] := by
  simp [nvtxClose]

namespace IProgress

@[simp] theorem andThen_none (steps : List Step) (state : σ × Ranges)
    (f : σ × Ranges → IProgress σ) : (⟨none, steps, state⟩ : IProgress σ).andThen f =
      ⟨(f state).halt, steps ++ (f state).steps, (f state).state⟩ := rfl

@[simp] theorem andThen_some (o : Outcome) (steps : List Step) (state : σ × Ranges)
    (f : σ × Ranges → IProgress σ) :
    (⟨some o, steps, state⟩ : IProgress σ).andThen f = ⟨some o, steps, state⟩ := rfl

theorem calls_andThen (p : IProgress σ) {f : σ × Ranges → IProgress σ} {g : σ → Progress σ}
    (hf : ∀ v r, (f (v, r)).calls = g v) : (p.andThen f).calls = p.calls.andThen g := by
  rcases p with ⟨_ | o, steps, v, r⟩
  · simp only [andThen_none, calls, Progress.andThen_none, callsOf_append, ← hf v r]
  · rfl

theorem andThen_of_halt_none {p : IProgress σ} (f : σ × Ranges → IProgress σ) (h : p.halt = none) :
    p.andThen f = ⟨(f p.state).halt, p.steps ++ (f p.state).steps, (f p.state).state⟩ := by
  rcases p with ⟨_ | o, steps, state⟩
  · rfl
  · cases h

theorem andThen_assoc (p : IProgress σ) (f g : σ × Ranges → IProgress σ) :
    (p.andThen f).andThen g = p.andThen fun st => (f st).andThen g := by
  rcases p with ⟨_ | o, steps, state⟩
  · simp only [andThen_none]
    cases f state with
    | mk h steps' state' => cases h <;> simp
  · rfl

end IProgress

theorem executeNodesInstrumented_append (build : Build) (ss : SessionState)
    (ex : SequentialExecutor) (env : Env σ O) (benv : BuildEnv) (ks ks' : List Nat)
    (state : σ × Ranges) :
    executeNodesInstrumented build ss ex env benv (ks ++ ks') state =
      (executeNodesInstrumented build ss ex env benv ks state).andThen
        (executeNodesInstrumented build ss ex env benv ks') := by
  induction ks generalizing state with
  | nil => simp [executeNodesInstrumented]
  | cons k ks ih =>
    show (executeNodeInstrumented build ss ex env benv k state).andThen
      (executeNodesInstrumented build ss ex env benv (ks ++ ks')) = _
    rw [funext ih, executeNodesInstrumented, IProgress.andThen_assoc]

@[simp] theorem liftProgress_calls (p : Progress σ) (r : Ranges) : (liftProgress p r).calls = p :=
  by simp [liftProgress, IProgress.calls]

section Refinement

variable (build : Build) (ss : SessionState) (ex : SequentialExecutor) (env : Env σ O)
  (benv : BuildEnv)

theorem executeNodeInstrumented_calls (hcheck : ChecksPass build benv) (k : Nat)
    (state : σ × Ranges) :
    (executeNodeInstrumented build ss ex env benv k state).calls =
      executeNode ss ex env k state.1 := by
  rcases hk : ss.plan.executionPlan[k]? with _ | entry
  · simp only [executeNodeInstrumented, executeNode, hk]; rfl
  simp only [executeNodeInstrumented, executeNode, hk]
  by_cases ht : env.terminateFlag k = true
  · rw [if_pos ht, if_pos ht]; rfl
  rw [if_neg ht, if_neg ht]
  by_cases hs : skipsNode ex env entry.nodeIndex = true
  · rw [if_pos hs, if_pos hs]; rfl
  rw [if_neg hs, if_neg hs]
  rcases ss.getKernel entry.nodeIndex with _ | kernel
  · simp [IProgress.calls]
  simp only [hcheck.check_false, Bool.false_eq_true, if_false]
  by_cases hok : (computeStatus (env.computeResult k)).isOK = true
  · rw [if_pos hok, if_pos hok, IProgress.calls_andThen _ fun v r => liftProgress_calls _ r]
    simp [IProgress.calls]
  · rw [if_neg hok, if_neg hok]
    simp [IProgress.calls]

theorem executeNodesInstrumented_calls (hcheck : ChecksPass build benv) :
    ∀ (ks : List Nat) (state : σ × Ranges),
      (executeNodesInstrumented build ss ex env benv ks state).calls =
        executeNodes ss ex env ks state.1
  | [], _ => rfl
  | k :: ks, state => by
    rw [executeNodesInstrumented, executeNodes, IProgress.calls_andThen _
      fun v r => executeNodesInstrumented_calls hcheck ks (v, r),
      executeNodeInstrumented_calls build ss ex env benv hcheck]

theorem finishInstrumented_calls (v : σ) (r : Ranges) :
    (finishInstrumented build env (v, r)).calls = ⟨generateMemoryPatterns env v, [], v⟩ := by
  simp only [finishInstrumented, IProgress.andThen_none]
  split <;> simp_all [IProgress.calls]

/-- With the contiguity check passing, the instrumented SequentialExecutor::Execute makes the
plain one's calls in the same order, returns its outcome and leaves the frame's values as it
does: the profiler and the NVTX ranges never change what the executor does. -/
theorem instrumented_execute_refines (hcheck : ChecksPass build benv) (values : σ)
    (programCounterStart programCounterEnd : Nat) :
    (executeRangeInstrumented build ss ex env benv values programCounterStart
        programCounterEnd).calls =
      executeRange ss ex env values programCounterStart programCounterEnd := by
  rw [executeRangeInstrumented, IProgress.calls_andThen _ (finishInstrumented_calls build env),
    IProgress.calls_andThen _
      fun v r => executeNodesInstrumented_calls build ss ex env benv hcheck _ (v, r)]
  simp [IProgress.calls, executeRange]

end Refinement

/-- A build environment where every contiguity check passes and node 3 is the backward pass. -/
def sampleBuildEnv : BuildEnv :=
  ⟨fun n => if n = 3 then "Backward pass" else "", fun _ => kCpuExecutionProvider, id,
    fun _ => true, fun _ _ => none, fun _ => [some 4], fun _ => [some 4], fun _ => Status.ok,
    fun _ => ""⟩

/-- Collaborators that all succeed, except that every kernel throws. -/
def throwingEnv : Env Unit Unit :=
  { quietEnv with computeResult := fun _ => .exception "bad allocation" }

theorem instrumented_yield_refines :
    ChecksPass ⟨true, true, true⟩ sampleBuildEnv ∧
      (executeRangeInstrumented ⟨true, true, true⟩ yieldSession ⟨false⟩ quietEnv sampleBuildEnv ()
        0 5).calls = executeRange yieldSession ⟨false⟩ quietEnv () 0 5 :=
  ⟨fun _ _ _ _ => rfl,
    instrumented_execute_refines _ _ _ _ sampleBuildEnv (fun _ _ _ _ => rfl) () 0 5⟩

/-- SequentialExecutor::Execute(run_id), lines 126-250, over the inner Execute of the build. -/
def executeInstrumented (build : Build) (benv : BuildEnv) (ids : RunIds) (ss : SessionState)
    (ex : SequentialExecutor) (env : Env σ O) (runs : GraphRuns σ) (runId : BitVec 64) :
    Invocation σ O :=
  executeWith (fun values a b => (executeRangeInstrumented build ss ex env benv values a b).calls)
    ids ss env runs runId

/-- Every call of SequentialExecutor::Execute(run_id), full run, new partial run or resume, in a
build whose contiguity check passes, is the plain model's: the same outcome, calls, registry,
run_id, frame and fetches. -/
theorem instrumented_build_execute_eq (build : Build) (benv : BuildEnv)
    (hcheck : ChecksPass build benv) (ids : RunIds) (ss : SessionState) (ex : SequentialExecutor)
    (env : Env σ O) (runs : GraphRuns σ) (runId : BitVec 64) :
    executeInstrumented build benv ids ss ex env runs runId = execute ids ss ex env runs runId := by
  have hinner : (fun values a b => (executeRangeInstrumented build ss ex env benv values a b).calls) =
      executeRange ss ex env :=
    funext fun values => funext fun a => funext fun b =>
      instrumented_execute_refines build ss ex env benv hcheck values a b
  rw [executeInstrumented, hinner]
  rfl

theorem instrumented_yield_execute_eq :
    ChecksPass ⟨true, true, true⟩ sampleBuildEnv ∧
      executeInstrumented ⟨true, true, true⟩ sampleBuildEnv sampleRunIds yieldSession ⟨false⟩
        quietEnv ⟨fun _ => none, 0⟩ sampleRunIds.defaultPartialRunId =
      execute sampleRunIds yieldSession ⟨false⟩ quietEnv ⟨fun _ => none, 0⟩
        sampleRunIds.defaultPartialRunId :=
  ⟨fun _ _ _ _ => rfl,
    instrumented_build_execute_eq _ sampleBuildEnv (fun _ _ _ _ => rfl) _ _ _ _ _ _⟩

end SequentialExecution.Instrumented
