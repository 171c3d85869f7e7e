import SequentialExecution.Session

namespace SequentialExecution.Fence

open SequentialExecution.Session

/-- The provider an input's fence is waited for with: the kernel's, or the CPU provider when
the kernel reads that input from host memory (lines 377-380). -/
def inputProvider (kernel : OpKernel) (i : Nat) : String :=
  if kernel.inputMemoryType i = .cpuInput then kCpuExecutionProvider
  else kernel.executionProviderType

/-- The loop of lines 374-383 from input index i; lines 385-394 run it on the implicit inputs. -/
def beforeUsingAsInputLoop (kernel : OpKernel) (queue : Int) :
    Nat → List (Option Nat) → List Event
  | _, [] => []
  | i, none :: fences => beforeUsingAsInputLoop kernel queue (i + 1) fences
  | i, some f :: fences =>
    .beforeUsingAsInput f (inputProvider kernel i) queue ::
      beforeUsingAsInputLoop kernel queue (i + 1) fences

def beforeUsingAsOutputLoop (provider : String) (queue : Int) (fences : List (Option Nat)) :
    List Event :=
  fences.filterMap (Option.map fun f => .beforeUsingAsOutput f provider queue)

def afterUsedAsInputLoop (queue : Int) (fences : List (Option Nat)) : List Event :=
  fences.filterMap (Option.map fun f => .afterUsedAsInput f queue)

def afterUsedAsOutputLoop (queue : Int) (fences : List (Option Nat)) : List Event :=
  fences.filterMap (Option.map fun f => .afterUsedAsOutput f queue)

/-- The fence pass before Compute, lines 373-402. The fence-only pass at the end of a partial
window, lines 198-227, is the same code. -/
def syncBeforeCompute (kernel : OpKernel) (ctx : OpKernelContext) : List Event :=
  beforeUsingAsInputLoop kernel kernel.execQueueId 0 ctx.inputFences ++
    beforeUsingAsInputLoop kernel kernel.execQueueId 0 ctx.implicitInputFences ++
    beforeUsingAsOutputLoop kernel.executionProviderType kernel.execQueueId ctx.outputFences

/-- The fence pass after Compute, lines 508-529. -/
def syncAfterCompute (queue : Int) (ctx : OpKernelContext) : List Event :=
  afterUsedAsInputLoop queue ctx.inputFences ++ afterUsedAsInputLoop queue ctx.implicitInputFences ++
    afterUsedAsOutputLoop queue ctx.outputFences

def isFenceEvent : Event → Bool
  | .compute _ | .release _ => false
  | _ => true

/-- The After call that closes a Before call: the same fence, on the same queue. -/
def afterOf : Event → Event
  | .beforeUsingAsInput f _ q => .afterUsedAsInput f q
  | .beforeUsingAsOutput f _ q => .afterUsedAsOutput f q
  | e => e

theorem beforeUsingAsInputLoop_eq (kernel : OpKernel) (queue : Int) (i : Nat)
    (fences : List (Option Nat)) :
    beforeUsingAsInputLoop kernel queue i fences = (fences.enumFrom i).filterMap
      fun p => p.2.map fun f => .beforeUsingAsInput f (inputProvider kernel p.1) queue := by
  induction fences generalizing i with
  | nil => rfl
  | cons f fences ih => cases f <;> simp [beforeUsingAsInputLoop, ih]

theorem afterUsedAsInputLoop_eq_map (kernel : OpKernel) (queue : Int) (i : Nat)
    (fences : List (Option Nat)) :
    afterUsedAsInputLoop queue fences = (beforeUsingAsInputLoop kernel queue i fences).map afterOf := by
  induction fences generalizing i with
  | nil => rfl
  | cons f fences ih =>
    cases f <;> simp [afterUsedAsInputLoop, beforeUsingAsInputLoop, afterOf] at ih ⊢ <;> exact ih _

theorem afterUsedAsOutputLoop_eq_map (provider : String) (queue : Int)
    (fences : List (Option Nat)) :
    afterUsedAsOutputLoop queue fences =
      (beforeUsingAsOutputLoop provider queue fences).map afterOf := by
  simp only [afterUsedAsOutputLoop, beforeUsingAsOutputLoop, List.map_filterMap]
  congr 1
  funext f
  cases f <;> rfl

theorem syncAfterCompute_eq_map (kernel : OpKernel) (ctx : OpKernelContext) :
    syncAfterCompute kernel.execQueueId ctx = (syncBeforeCompute kernel ctx).map afterOf := by
  simp only [syncAfterCompute, syncBeforeCompute, List.map_append,
    ← afterUsedAsInputLoop_eq_map kernel, ← afterUsedAsOutputLoop_eq_map]

theorem syncBeforeCompute_fence (kernel : OpKernel) (ctx : OpKernelContext) :
    ∀ e ∈ syncBeforeCompute kernel ctx, isFenceEvent e := by
  simp only [syncBeforeCompute, beforeUsingAsInputLoop_eq, beforeUsingAsOutputLoop,
    List.mem_append, List.mem_filterMap, Option.map_eq_some']
  rintro e ((⟨_, _, _, _, rfl⟩ | ⟨_, _, _, _, rfl⟩) | ⟨_, _, _, _, rfl⟩) <;> rfl

theorem syncAfterCompute_fence (queue : Int) (ctx : OpKernelContext) :
    ∀ e ∈ syncAfterCompute queue ctx, isFenceEvent e := by
  simp only [syncAfterCompute, afterUsedAsInputLoop, afterUsedAsOutputLoop, List.mem_append,
    List.mem_filterMap, Option.map_eq_some']
  rintro e ((⟨_, _, _, _, rfl⟩ | ⟨_, _, _, _, rfl⟩) | ⟨_, _, _, _, rfl⟩) <;> rfl

end SequentialExecution.Fence
