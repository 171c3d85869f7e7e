import SequentialExecution.Common
import Mathlib.Logic.Function.Basic

namespace SequentialExecution.Session

open SequentialExecution.Common

structure NodeExecutionPlan where
  nodeIndex : Nat
  freeFromIndex : Nat
  freeToIndex : Nat
  deriving DecidableEq, Repr

/-- The SequentialExecutionPlan the executor reads. The planner lays every nonempty free
range inside to_be_freed, so ReleaseNodeMLValues never reads past its end. -/
structure SequentialExecutionPlan where
  executionPlan : List NodeExecutionPlan
  toBeFreed : List Int
  nodeHasFence : Nat → Bool
  free_range_lt : ∀ e ∈ executionPlan,
    e.freeFromIndex ≤ e.freeToIndex → e.freeToIndex < toBeFreed.length

inductive OrtMemType
  | cpuInput | cpuOutput | default
  deriving DecidableEq, Repr

/-- The parts of an OpKernel the executor reads: its KernelDef and its node's provider. -/
structure OpKernel where
  opName : String
  execQueueId : Int
  executionProviderType : String
  inputMemoryType : Nat → OrtMemType

structure Node where
  name : String
  opType : String
  deriving DecidableEq, Repr

/-- The fences an OpKernelContextInternal exposes, one per input, implicit input and output
slot; none where the slot carries no fence. -/
structure OpKernelContext where
  inputFences : List (Option Nat)
  implicitInputFences : List (Option Nat)
  outputFences : List (Option Nat)
  deriving DecidableEq, Repr

/-- The read-only part of SessionState: GetKernel returns none for a nullptr. -/
structure SessionState where
  plan : SequentialExecutionPlan
  getKernel : Nat → Option OpKernel
  getNode : Nat → Node
  transferIntermidiateTensorOwnership : Bool

def kCpuExecutionProvider : String := "CPUExecutionProvider"

inductive Event
  | beforeUsingAsInput (fence : Nat) (provider : String) (queue : Int)
  | beforeUsingAsOutput (fence : Nat) (provider : String) (queue : Int)
  | compute (k : Nat)
  | afterUsedAsInput (fence : Nat) (queue : Int)
  | afterUsedAsOutput (fence : Nat) (queue : Int)
  | release (value : Int)
  deriving DecidableEq, Repr

structure SequentialExecutor where
  onlyExecutePathToFetches : Bool
  deriving DecidableEq, Repr

/-- What the collaborators of one call of Execute answer: the terminate flag as read at plan
entry k, the fences an OpKernelContextInternal for node n finds in the frame, the kernel of entry
k, ReleaseMLValue of to_be_freed[i] after entry k, the memory pattern calls and the frame's feeds
and fetches. The frame's values have type σ. -/
structure Env (σ O : Type) where
  terminateFlag : Nat → Bool
  toBeExecutedNodes : Option (List Nat)
  kernelContext : Nat → σ → OpKernelContext
  computeResult : Nat → ComputeResult
  computeEffect : Nat → σ → σ
  releaseStatus : Nat → Nat → Status
  releaseEffect : Int → σ → σ
  hasMemoryPatternPlanner : σ → Bool
  feedIsTensor : List Bool
  generatePatterns : σ → Status
  updateMemoryPatternGroupCache : Status
  newFrame : σ
  updateFeedAndFetches : σ → σ
  getOutputs : Bool → σ → Except Status O × σ

structure ExecutionFrame (σ : Type) where
  programCounter : Nat
  values : σ

/-- The shared part of SessionState that partial runs mutate. -/
structure GraphRuns (σ : Type) where
  graphRuns : BitVec 64 → Option (ExecutionFrame σ)
  graphRunsCounter : BitVec 64

/-- Modelled from the spec: DEFAULT_RUN_ID and DEFAULT_PARTIAL_RUN_ID are declared outside
src/. They are reserved sentinels, distinct, and below every id a resume accepts. -/
structure RunIds where
  defaultRunId : BitVec 64
  defaultPartialRunId : BitVec 64
  distinct : defaultRunId ≠ defaultPartialRunId
  defaultRunId_neg : defaultRunId.toInt < 0
  defaultPartialRunId_neg : defaultPartialRunId.toInt < 0

def int64Max : BitVec 64 := BitVec.ofInt 64 (9223372036854775807)

theorem RunIds.ne_of_nonneg (ids : RunIds) {x : BitVec 64} (h : 0 ≤ x.toInt) :
    x ≠ ids.defaultRunId ∧ x ≠ ids.defaultPartialRunId := by
  constructor <;> rintro rfl
  · exact absurd ids.defaultRunId_neg (by omega)
  · exact absurd ids.defaultPartialRunId_neg (by omega)

variable {σ : Type}

namespace GraphRuns

def store (runs : GraphRuns σ) (key : BitVec 64) (frame : ExecutionFrame σ) : GraphRuns σ :=
  { runs with graphRuns := Function.update runs.graphRuns key (some frame) }

def erase (runs : GraphRuns σ) (key : BitVec 64) : GraphRuns σ :=
  { runs with graphRuns := Function.update runs.graphRuns key none }

@[simp] theorem store_same (runs : GraphRuns σ) (key : BitVec 64) (frame : ExecutionFrame σ) :
    (runs.store key frame).graphRuns key = some frame := by simp [store]

@[simp] theorem store_other (runs : GraphRuns σ) {key other : BitVec 64}
    (frame : ExecutionFrame σ) (h : other ≠ key) :
    (runs.store key frame).graphRuns other = runs.graphRuns other := by simp [store, h]

@[simp] theorem store_counter (runs : GraphRuns σ) (key : BitVec 64) (frame : ExecutionFrame σ) :
    (runs.store key frame).graphRunsCounter = runs.graphRunsCounter := rfl

@[simp] theorem erase_same (runs : GraphRuns σ) (key : BitVec 64) :
    (runs.erase key).graphRuns key = none := by simp [erase]

@[simp] theorem erase_other (runs : GraphRuns σ) {key other : BitVec 64} (h : other ≠ key) :
    (runs.erase key).graphRuns other = runs.graphRuns other := by simp [erase, h]

@[simp] theorem erase_counter (runs : GraphRuns σ) (key : BitVec 64) :
    (runs.erase key).graphRunsCounter = runs.graphRunsCounter := rfl

end GraphRuns

end SequentialExecution.Session
