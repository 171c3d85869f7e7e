import SequentialExecution.Instrumented

namespace SequentialExecution.Erasure

open SequentialExecution.Common SequentialExecution.Session SequentialExecution.NodeLoop
open SequentialExecution.Window SequentialExecution.Instrumented

variable {σ O : Type}

/-- The steps a build makes of its own: every collaborator call, the profiler calls when the
profiler is enabled, and the NVTX calls in a build with ENABLE_NVTX_PROFILE. -/
def keeps (build : Build) : Step → Bool
  | .call _ => true
  | .profile _ => build.profiler
  | .nvtxBegin _ | .nvtxEnd _ => build.nvtx

/-- build' switches off some of build's instrumentation: it enables the profiler or the NVTX
ranges only where build does, and is a training build exactly when build is. -/
structure Within (build' build : Build) : Prop where
  profiler : build'.profiler = true → build.profiler = true
  nvtx : build'.nvtx = true → build.nvtx = true
  training : build'.training = build.training

/-- p' is p with the steps that build' does not make removed: the same outcome and frame
values, and the same NVTX flags where build' keeps the NVTX ranges. -/
structure Erases (build' : Build) (p p' : IProgress σ) : Prop where
  halt : p.halt = p'.halt
  steps : p.steps.filter (keeps build') = p'.steps
  values : p.state.1 = p'.state.1
  ranges : build'.nvtx = true → p.state.2 = p'.state.2

variable {build build' : Build}

theorem Erases.andThen {p p' : IProgress σ} {f f' : σ × Ranges → IProgress σ}
    (h : Erases build' p p')
    (hf : ∀ v r r', (build'.nvtx = true → r = r') → Erases build' (f (v, r)) (f' (v, r'))) :
    Erases build' (p.andThen f) (p'.andThen f') := by
  rcases p with ⟨_ | o, steps, v, r⟩ <;> rcases p' with ⟨halt', steps', v', r'⟩ <;>
    obtain ⟨rfl, rfl, rfl, hr⟩ := h
  · obtain ⟨hh, hs, hv, hr'⟩ := hf v r r' hr
    exact ⟨hh, by rw [IProgress.andThen_none, List.filter_append, hs]; rfl, hv, hr'⟩
  · exact ⟨rfl, rfl, rfl, hr⟩

theorem filter_keeps_uniform {c : Bool} {s : List Step} (h : ∀ x ∈ s, keeps build' x = c) :
    s.filter (keeps build') = if c then s else [] := by
  cases c
  · exact List.filter_eq_nil_iff.mpr fun x hx => by simp [h x hx]
  · exact List.filter_eq_self.mpr h

@[simp] theorem keeps_map_call (es : List Event) :
    (es.map .call).filter (keeps build') = es.map .call :=
  List.filter_eq_self.mpr fun x hx => by obtain ⟨e, -, rfl⟩ := List.mem_map.mp hx; rfl

section Pieces

variable (hb : Within build' build)
include hb

theorem keeps_nvtxIf (step : Step) (hstep : keeps build' step = build'.nvtx) :
    (if build.nvtx then [step] else []).filter (keeps build') =
      if build'.nvtx then [step] else [] := by
  cases hn : build'.nvtx
  · cases build.nvtx <;> simp [hstep, hn]
  · simp [hb.nvtx hn, hstep, hn]

theorem keeps_nvtxNode (d : String) {r r' : Ranges} (hr : build'.nvtx = true → r = r') :
    (nvtxNode build d r).2.filter (keeps build') = (nvtxNode build' d r').2 ∧
      (build'.nvtx = true → (nvtxNode build d r).1 = (nvtxNode build' d r').1) := by
  have hnvtx : ∀ x ∈ (nvtxNode build d r).2, keeps build' x = build'.nvtx := by
    unfold nvtxNode nvtxVisit
    split_ifs <;> simp [keeps]
  rw [filter_keeps_uniform hnvtx]
  cases hn : build'.nvtx
  · exact ⟨by simp [nvtxNode, hn], nofun⟩
  · simp [nvtxNode, hn, hb.nvtx hn, hr hn]

theorem keeps_nvtxClose {r r' : Ranges} (hr : build'.nvtx = true → r = r') :
    (if build.nvtx then nvtxClose r else []).filter (keeps build') =
      if build'.nvtx then nvtxClose r' else [] := by
  have hnvtx : ∀ x ∈ nvtxClose r, keeps build' x = build'.nvtx := by
    unfold nvtxClose
    simp only [List.mem_append, List.mem_ite_nil_right, List.mem_singleton]
    rintro x (((⟨-, rfl⟩ | ⟨-, rfl⟩) | ⟨-, rfl⟩) | ⟨-, rfl⟩) <;> rfl
  cases hn : build'.nvtx
  · cases build.nvtx
    · rfl
    · simpa [hn] using filter_keeps_uniform hnvtx
  · obtain rfl := hr hn
    simp [hb.nvtx hn, filter_keeps_uniform hnvtx, hn]

theorem keeps_profilerIf (s : List Step) (hs : ∀ x ∈ s, keeps build' x = build'.profiler) :
    (if build.profiler then s else []).filter (keeps build') =
      if build'.profiler then s else [] := by
  cases hp : build'.profiler
  · cases build.profiler
    · rfl
    · simpa [hp] using filter_keeps_uniform hs
  · simp [hb.profiler hp, filter_keeps_uniform hs, hp]

theorem keeps_syncBeforeSteps (ss : SessionState) (entry : NodeExecutionPlan) (kernel : OpKernel)
    (ctx : OpKernelContext) {name name' : String} (hname : build'.profiler = true → name = name') :
    (syncBeforeSteps build ss entry kernel ctx name).filter (keeps build') =
      syncBeforeSteps build' ss entry kernel ctx name' := by
  unfold syncBeforeSteps
  rw [List.filter_append, List.filter_append, keeps_profilerIf hb _ (by simp [keeps]),
    keeps_profilerIf hb _ (by simp [keeps])]
  cases hp : build'.profiler
  · cases ss.plan.nodeHasFence entry.nodeIndex <;> simp
  · cases ss.plan.nodeHasFence entry.nodeIndex <;> simp [hname hp]

theorem keeps_syncAfterSteps (benv : BuildEnv) (k : Nat) (ss : SessionState)
    (entry : NodeExecutionPlan) (kernel : OpKernel) (ctx : OpKernelContext) {name name' : String}
    (hname : build'.profiler = true → name = name') :
    (syncAfterSteps build benv k ss entry kernel ctx name).filter (keeps build') =
      syncAfterSteps build' benv k ss entry kernel ctx name' := by
  unfold syncAfterSteps
  rw [List.filter_append, List.filter_append, keeps_profilerIf hb _ (by simp [keeps]),
    keeps_profilerIf hb _ (by simp [keeps])]
  cases hp : build'.profiler
  · cases ss.plan.nodeHasFence entry.nodeIndex <;> simp
  · cases ss.plan.nodeHasFence entry.nodeIndex <;> simp [hname hp]

end Pieces

section Runs

variable (ss : SessionState) (ex : SequentialExecutor) (env : Env σ O) (benv : BuildEnv)

theorem executeNodeInstrumented_erases (hb : Within build' build) (k : Nat) (v : σ)
    {r r' : Ranges} (hr : build'.nvtx = true → r = r') :
    Erases build' (executeNodeInstrumented build ss ex env benv k (v, r))
      (executeNodeInstrumented build' ss ex env benv k (v, r')) := by
  rcases hk : ss.plan.executionPlan[k]? with _ | entry
  · simp only [executeNodeInstrumented, hk]; exact ⟨rfl, rfl, rfl, hr⟩
  simp only [executeNodeInstrumented, hk]
  by_cases ht : env.terminateFlag k = true
  · rw [if_pos ht, if_pos ht]; exact ⟨rfl, rfl, rfl, hr⟩
  rw [if_neg ht, if_neg ht]
  by_cases hs : skipsNode ex env entry.nodeIndex = true
  · rw [if_pos hs, if_pos hs]; exact ⟨rfl, rfl, rfl, hr⟩
  rw [if_neg hs, if_neg hs]
  obtain ⟨hvisit, hranges⟩ := keeps_nvtxNode hb (benv.description entry.nodeIndex) hr
  rcases ss.getKernel entry.nodeIndex with _ | kernel
  · exact ⟨rfl, hvisit, rfl, hranges⟩
  have hname : build'.profiler = true →
      nodeNameForProfiling build.profiler (ss.getNode entry.nodeIndex) entry.nodeIndex =
        nodeNameForProfiling build'.profiler (ss.getNode entry.nodeIndex) entry.nodeIndex :=
    fun hp => by rw [hp, hb.profiler hp]
  have hbefore := keeps_syncBeforeSteps hb ss entry kernel (env.kernelContext entry.nodeIndex v) hname
  have hafter := keeps_syncAfterSteps hb benv k ss entry kernel
    (env.kernelContext entry.nodeIndex (env.computeEffect k v)) hname
  dsimp only
  rw [hb.training]
  by_cases hc : (build.training && benv.allocateInputsContiguously entry.nodeIndex &&
      !(benv.contiguityStatus k).isOK) = true
  · rw [if_pos hc, if_pos hc]
    exact ⟨rfl, by simp only [List.filter_append, hvisit, hbefore, keeps_nvtxIf hb, keeps], rfl,
      hranges⟩
  rw [if_neg hc, if_neg hc]
  by_cases hok : (computeStatus (env.computeResult k)).isOK = true
  · rw [if_pos hok, if_pos hok]
    refine Erases.andThen ⟨rfl, ?_, rfl, hranges⟩ fun v r r' hr =>
      ⟨rfl, keeps_map_call _, rfl, hr⟩
    simp only [List.filter_append, List.filter_cons, hvisit, hbefore, keeps_nvtxIf hb, hafter,
      keeps, if_true, List.append_assoc]
  · rw [if_neg hok, if_neg hok]
    exact ⟨rfl, by simp only [List.filter_append, List.filter_cons, hvisit, hbefore,
      keeps_nvtxIf hb, keeps, if_true], rfl, hranges⟩

theorem executeNodesInstrumented_erases (hb : Within build' build) :
    ∀ (ks : List Nat) (v : σ) {r r' : Ranges}, (build'.nvtx = true → r = r') →
      Erases build' (executeNodesInstrumented build ss ex env benv ks (v, r))
        (executeNodesInstrumented build' ss ex env benv ks (v, r'))
  | [], _, _, _, hr => ⟨rfl, rfl, rfl, hr⟩
  | k :: ks, v, _, _, hr => (executeNodeInstrumented_erases ss ex env benv hb k v hr).andThen
    fun v _ _ hr => executeNodesInstrumented_erases hb ks v hr

theorem finishInstrumented_erases (hb : Within build' build) (v : σ) {r r' : Ranges}
    (hr : build'.nvtx = true → r = r') :
    Erases build' (finishInstrumented build env (v, r)) (finishInstrumented build' env (v, r')) := by
  refine Erases.andThen ⟨rfl, keeps_nvtxClose hb hr, rfl, hr⟩ fun v r r' hr => ?_
  rcases generateMemoryPatterns env v with _ | o
  · exact ⟨rfl, keeps_profilerIf hb _ (by simp [keeps]), rfl, hr⟩
  · exact ⟨rfl, rfl, rfl, hr⟩

/-- Switching the profiler or the NVTX ranges off, or both, on the same training build, changes
nothing but the steps switched off: SequentialExecutor::Execute returns the same outcome, leaves
the same frame values and makes every other step as before, in the same order. -/
theorem switching_off_instrumentation_erases_its_steps (hb : Within build' build) (values : σ)
    (programCounterStart programCounterEnd : Nat) :
    Erases build' (executeRangeInstrumented build ss ex env benv values programCounterStart
        programCounterEnd)
      (executeRangeInstrumented build' ss ex env benv values programCounterStart
        programCounterEnd) := by
  exact Erases.andThen (Erases.andThen ⟨rfl, keeps_profilerIf hb _ (by simp [keeps]), rfl,
    fun _ => rfl⟩ fun v r r' hr => executeNodesInstrumented_erases ss ex env benv hb _ v hr)
    fun v r r' hr => finishInstrumented_erases env hb v hr

theorem nvtx_off_keeps_yield_profile :
    Within ⟨true, true, false⟩ ⟨true, true, true⟩ ∧
      Erases ⟨true, true, false⟩
        (executeRangeInstrumented ⟨true, true, true⟩ yieldSession ⟨false⟩ quietEnv sampleBuildEnv
          () 0 5)
        (executeRangeInstrumented ⟨true, true, false⟩ yieldSession ⟨false⟩ quietEnv sampleBuildEnv
          () 0 5) :=
  have hb : Within ⟨true, true, false⟩ ⟨true, true, true⟩ := ⟨fun _ => rfl, fun _ => rfl, rfl⟩
  ⟨hb, switching_off_instrumentation_erases_its_steps _ _ _ sampleBuildEnv hb () 0 5⟩

end Runs

end SequentialExecution.Erasure
