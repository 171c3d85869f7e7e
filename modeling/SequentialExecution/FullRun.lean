import SequentialExecution.Trace

namespace SequentialExecution.FullRun

open SequentialExecution.Common SequentialExecution.Session SequentialExecution.Fence
open SequentialExecution.NodeLoop SequentialExecution.Execute SequentialExecution.Window
open SequentialExecution.Trace

variable {σ O : Type}

/-- The Compute and ReleaseMLValue calls of a trace, in order. -/
def computeReleaseView (trace : List Event) : List Event :=
  trace.filter fun e => !isFenceEvent e

@[simp] theorem computeReleaseView_append (t t' : List Event) :
    computeReleaseView (t ++ t') = computeReleaseView t ++ computeReleaseView t' :=
  List.filter_append t t'

@[simp] theorem computeReleaseView_fencesAfter (ss : SessionState) (env : Env σ O)
    (entry : NodeExecutionPlan) (kernel : OpKernel) (values : σ) :
    computeReleaseView (fencesAfter ss env entry kernel values) = [] := by
  refine List.filter_eq_nil_iff.mpr fun e he => ?_
  have : isFenceEvent e := by
    unfold fencesAfter at he
    split at he
    · exact syncAfterCompute_fence _ _ e he
    · cases he
  simp [this]

@[simp] theorem computeReleaseView_compute (k : Nat) (t : List Event) :
    computeReleaseView (.compute k :: t) = .compute k :: computeReleaseView t := rfl

@[simp] theorem computeReleaseView_releases (values : List Int) :
    computeReleaseView (values.map .release) = values.map .release :=
  List.filter_eq_self.mpr fun e he => by obtain ⟨v, -, rfl⟩ := List.mem_map.mp he; rfl

@[simp] theorem computeReleaseView_releasesThrough (plan : SequentialExecutionPlan)
    (entry : NodeExecutionPlan) (last : Nat) :
    computeReleaseView (releasesThrough plan entry last) = releasesThrough plan entry last :=
  computeReleaseView_releases _

/-- Compute of entry k followed by the release of its whole to_be_freed range. -/
def computeBlock (ss : SessionState) (k : Nat) : List Event :=
  match ss.plan.executionPlan[k]? with
  | some entry => .compute k :: releasesThrough ss.plan entry entry.freeToIndex
  | none => []

/-- The collaborators of a call that goes through: the terminate flag is never set, no node is
pruned, and every Compute, ReleaseMLValue, memory pattern call and GetOutputs succeeds. -/
structure Succeeds (ex : SequentialExecutor) (env : Env σ O) : Prop where
  terminate : ∀ k, env.terminateFlag k = false
  unpruned : ∀ n, ex.onlyExecutePathToFetches = true →
    ∀ nodes, env.toBeExecutedNodes = some nodes → n ∈ nodes
  compute : ∀ k, ∃ s, env.computeResult k = .status s ∧ s.isOK = true
  release : ∀ k i, (env.releaseStatus k i).isOK = true
  patterns : ∀ values, (env.generatePatterns values).isOK = true
  cache : env.updateMemoryPatternGroupCache.isOK = true
  outputs : ∀ transfer values, ∃ out values', env.getOutputs transfer values = (.ok out, values')

theorem Succeeds.computed {ex : SequentialExecutor} {env : Env σ O} (hs : Succeeds ex env)
    {k : Nat} {s : Status} (hc : env.computeResult k = .status s) : s.isOK = true := by
  obtain ⟨s', hc', hok⟩ := hs.compute k
  rw [hc] at hc'
  cases hc'
  exact hok

end SequentialExecution.FullRun
