import SequentialExecution.Window

namespace SequentialExecution.Trace

open SequentialExecution.Common SequentialExecution.Session SequentialExecution.Fence
open SequentialExecution.NodeLoop SequentialExecution.Execute SequentialExecution.Window

variable {σ O : Type}

/-- ReleaseMLValue on to_be_freed[free_from_index .. last], in index order. -/
def releasesThrough (plan : SequentialExecutionPlan) (entry : NodeExecutionPlan) (last : Nat) :
    List Event :=
  ((plan.toBeFreed.drop entry.freeFromIndex).take (last + 1 - entry.freeFromIndex)).map .release

/-- The fence calls before Compute: BeforeUsingAsInput on each present input fence in increasing
index, then on each present implicit-input fence, then BeforeUsingAsOutput on each present
output fence, all on the kernel's ExecQueueId. -/
def beforeCalls (kernel : OpKernel) (ctx : OpKernelContext) : List Event :=
  (ctx.inputFences.enumFrom 0).filterMap (fun p => p.2.map fun f =>
      .beforeUsingAsInput f (inputProvider kernel p.1) kernel.execQueueId) ++
    (ctx.implicitInputFences.enumFrom 0).filterMap (fun p => p.2.map fun f =>
      .beforeUsingAsInput f (inputProvider kernel p.1) kernel.execQueueId) ++
    ctx.outputFences.filterMap (Option.map fun f =>
      .beforeUsingAsOutput f kernel.executionProviderType kernel.execQueueId)

/-- The fence calls before the Compute of plan entry entry, on the fences the frame holds at
values; none when its node has no fence. -/
def fencesBefore (ss : SessionState) (env : Env σ O) (entry : NodeExecutionPlan)
    (kernel : OpKernel) (values : σ) : List Event :=
  if ss.plan.nodeHasFence entry.nodeIndex then
    beforeCalls kernel (env.kernelContext entry.nodeIndex values)
  else []

/-- The fence calls after the Compute of plan entry entry, on the fences the frame holds at
values once Compute has run; none when its node has no fence. -/
def fencesAfter (ss : SessionState) (env : Env σ O) (entry : NodeExecutionPlan)
    (kernel : OpKernel) (values : σ) : List Event :=
  if ss.plan.nodeHasFence entry.nodeIndex then
    syncAfterCompute kernel.execQueueId (env.kernelContext entry.nodeIndex values)
  else []

theorem syncBeforeCompute_eq_beforeCalls (kernel : OpKernel) (ctx : OpKernelContext) :
    syncBeforeCompute kernel ctx = beforeCalls kernel ctx := by
  simp only [syncBeforeCompute, beforeCalls, beforeUsingAsInputLoop_eq, beforeUsingAsOutputLoop]

theorem fencesBefore_eq (ss : SessionState) (env : Env σ O) (entry : NodeExecutionPlan)
    (kernel : OpKernel) (values : σ) :
    (if ss.plan.nodeHasFence entry.nodeIndex then
      syncBeforeCompute kernel (env.kernelContext entry.nodeIndex values) else []) =
      fencesBefore ss env entry kernel values := by
  rw [fencesBefore, syncBeforeCompute_eq_beforeCalls]

/-- Where Compute leaves the node's fences as they were, the After calls close exactly the
fences the Before calls opened, in the same order. -/
theorem fencesAfter_of_unchanged (ss : SessionState) (env : Env σ O) (entry : NodeExecutionPlan)
    (kernel : OpKernel) {values values' : σ}
    (h : env.kernelContext entry.nodeIndex values' = env.kernelContext entry.nodeIndex values) :
    fencesAfter ss env entry kernel values' =
      (fencesBefore ss env entry kernel values).map afterOf := by
  rw [fencesAfter, ← fencesBefore_eq, h, syncAfterCompute_eq_map]
  split <;> rfl

theorem waitWindowEnd_ok {ss : SessionState} {env : Env σ O} {e : Nat} {values : σ}
    {fences : List Event} (h : waitWindowEnd ss env e values = .ok fences) :
    fences = [] ∨ ∃ entry kernel, ss.plan.executionPlan[e]? = some entry ∧
      ss.getKernel entry.nodeIndex = some kernel ∧
      fences = fencesBefore ss env entry kernel values := by
  unfold waitWindowEnd at h
  split at h
  · cases h
    exact .inl rfl
  · split at h
    · cases h
    · cases h
      exact .inr ⟨_, _, ‹_›, ‹_›, fencesBefore_eq _ _ _ _ _⟩

end SequentialExecution.Trace
