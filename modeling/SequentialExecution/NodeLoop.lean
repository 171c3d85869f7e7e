import SequentialExecution.Fence

namespace SequentialExecution.NodeLoop

open SequentialExecution.Common SequentialExecution.Session SequentialExecution.Fence

variable {σ O : Type}

/-- Where the node loop stands: the calls issued so far, the frame's values, and the outcome
that ended the loop early, if one did. -/
structure Progress (σ : Type) where
  halt : Option Outcome
  trace : List Event
  values : σ

/-- Run f after p unless p has already ended the loop. -/
def Progress.andThen (p : Progress σ) (f : σ → Progress σ) : Progress σ :=
  match p.halt with
  | some _ => p
  | none =>
    let q := f p.values
    ⟨q.halt, p.trace ++ q.trace, q.values⟩

/-- The to_be_freed positions free_from_index to free_to_index, both included. -/
def freeIndices (entry : NodeExecutionPlan) : List Nat :=
  List.range' entry.freeFromIndex (entry.freeToIndex + 1 - entry.freeFromIndex)

def releaseLoop (plan : SequentialExecutionPlan) (env : Env σ O) (k : Nat) :
    List Nat → σ → Progress σ
  | [], values => ⟨none, [], values⟩
  | i :: rest, values =>
    match plan.toBeFreed[i]? with
    | none => ⟨some .undefined, [], values⟩
    | some idx =>
      let s := env.releaseStatus k i
      (⟨if s.isOK then none else some (.error s), [.release idx], env.releaseEffect idx values⟩ :
        Progress σ).andThen (releaseLoop plan env k rest)

/-- ReleaseNodeMLValues, lines 618-629, after plan entry k. -/
def releaseNodeMLValues (plan : SequentialExecutionPlan) (env : Env σ O) (k : Nat)
    (entry : NodeExecutionPlan) (values : σ) : Progress σ :=
  releaseLoop plan env k (freeIndices entry) values

/-- Whether lines 330-332 skip the node: only the path to the fetches is run, and the node is
not on it. -/
def skipsNode (ex : SequentialExecutor) (env : Env σ O) (nodeIndex : Nat) : Bool :=
  match env.toBeExecutedNodes with
  | some nodes => ex.onlyExecutePathToFetches && !nodes.contains nodeIndex
  | none => false

/-- One iteration of the node loop, lines 321-556, at plan entry k, with the profiler off and
neither ENABLE_TRAINING nor ENABLE_NVTX_PROFILE defined; executeNodeInstrumented has every
build's branches. -/
def executeNode (ss : SessionState) (ex : SequentialExecutor) (env : Env σ O) (k : Nat)
    (values : σ) : Progress σ :=
  match ss.plan.executionPlan[k]? with
  | none => ⟨some .undefined, [], values⟩
  | some entry =>
    if env.terminateFlag k then ⟨some (.error terminateStatus), [], values⟩
    else if skipsNode ex env entry.nodeIndex then ⟨none, [], values⟩
    else
      let node := ss.getNode entry.nodeIndex
      match ss.getKernel entry.nodeIndex with
      | none => ⟨some (.error (nullKernelStatus node.name)), [], values⟩
      | some kernel =>
        let fenced := ss.plan.nodeHasFence entry.nodeIndex
        let before := if fenced then
          syncBeforeCompute kernel (env.kernelContext entry.nodeIndex values) else []
        let s := computeStatus (env.computeResult k)
        let values := env.computeEffect k values
        if s.isOK then
          -- the After calls read the fences again, from the frame Compute left
          let after := if fenced then
            syncAfterCompute kernel.execQueueId (env.kernelContext entry.nodeIndex values) else []
          (⟨none, before ++ .compute k :: after, values⟩ : Progress σ).andThen
            (releaseNodeMLValues ss.plan env k entry)
        else
          ⟨some (.error (computeFailureStatus node.opType node.name s)),
            before ++ [.compute k], values⟩

def executeNodes (ss : SessionState) (ex : SequentialExecutor) (env : Env σ O) :
    List Nat → σ → Progress σ
  | [], values => ⟨none, [], values⟩
  | k :: ks, values => (executeNode ss ex env k values).andThen (executeNodes ss ex env ks)

/-- The memory pattern step after the loop, lines 582-599. -/
def generateMemoryPatterns (env : Env σ O) (values : σ) : Option Outcome :=
  if env.hasMemoryPatternPlanner values && env.feedIsTensor.all id then
    let s := env.generatePatterns values
    if !s.isOK then some (.error s)
    else if !env.updateMemoryPatternGroupCache.isOK then
      some (.error env.updateMemoryPatternGroupCache)
    else none
  else none

/-- SequentialExecutor::Execute over the plan entries [programCounterStart, programCounterEnd),
lines 252-616. -/
def executeRange (ss : SessionState) (ex : SequentialExecutor) (env : Env σ O) (values : σ)
    (programCounterStart programCounterEnd : Nat) : Progress σ :=
  (executeNodes ss ex env (List.range' programCounterStart
    (programCounterEnd - programCounterStart)) values).andThen
    fun values => ⟨generateMemoryPatterns env values, [], values⟩

namespace Progress

@[simp] theorem andThen_none (tr : List Event) (values : σ) (f : σ → Progress σ) :
    (⟨none, tr, values⟩ : Progress σ).andThen f =
      ⟨(f values).halt, tr ++ (f values).trace, (f values).values⟩ := rfl

@[simp] theorem andThen_some (o : Outcome) (tr : List Event) (values : σ)
    (f : σ → Progress σ) : (⟨some o, tr, values⟩ : Progress σ).andThen f = ⟨some o, tr, values⟩ :=
  rfl

theorem andThen_of_halt_none {p : Progress σ} (f : σ → Progress σ) (h : p.halt = none) :
    p.andThen f = ⟨(f p.values).halt, p.trace ++ (f p.values).trace, (f p.values).values⟩ := by
  rcases p with ⟨_ | o, tr, v⟩
  · rfl
  · cases h

theorem andThen_halt_eq_some {p : Progress σ} {f : σ → Progress σ} {o : Outcome}
    (h : (p.andThen f).halt = some o) :
    p.halt = some o ∨ p.halt = none ∧ (f p.values).halt = some o := by
  rcases p with ⟨_ | o', tr, v⟩
  · exact .inr ⟨rfl, h⟩
  · exact .inl h

theorem andThen_assoc (p : Progress σ) (f g : σ → Progress σ) :
    (p.andThen f).andThen g = p.andThen fun v => (f v).andThen g := by
  rcases p with ⟨_ | o, tr, v⟩
  · simp only [andThen_none]
    cases f v with
    | mk h tr' v' => cases h <;> simp
  · rfl

end Progress

theorem executeNodes_append (ss : SessionState) (ex : SequentialExecutor) (env : Env σ O)
    (ks ks' : List Nat) (values : σ) :
    executeNodes ss ex env (ks ++ ks') values =
      (executeNodes ss ex env ks values).andThen (executeNodes ss ex env ks') := by
  induction ks generalizing values with
  | nil => simp [executeNodes]
  | cons k ks ih =>
    show (executeNode ss ex env k values).andThen (executeNodes ss ex env (ks ++ ks')) = _
    rw [funext ih, executeNodes, Progress.andThen_assoc]

theorem freeIndices_lt {plan : SequentialExecutionPlan} {entry : NodeExecutionPlan}
    (he : entry ∈ plan.executionPlan) : ∀ i ∈ freeIndices entry, i < plan.toBeFreed.length := by
  intro i hi
  simp only [freeIndices, List.mem_range'_1] at hi
  have := plan.free_range_lt entry he
  omega

/-- The loop stopped, if it did, with a status: not with undefined behaviour. -/
def StopsWithStatus (halt : Option Outcome) : Prop :=
  ∀ o, halt = some o → ∃ s, o = .error s

theorem StopsWithStatus.ne_undefined {halt : Option Outcome} (h : StopsWithStatus halt) :
    halt ≠ some .undefined := fun hu => by
  obtain ⟨s, hs⟩ := h _ hu
  cases hs

theorem stopsWithStatus_error (s : Status) : StopsWithStatus (some (.error s)) :=
  fun _ h => ⟨s, (Option.some.inj h).symm⟩

theorem Progress.andThen_stops {p : Progress σ} {f : σ → Progress σ}
    (hp : StopsWithStatus p.halt) (hf : StopsWithStatus (f p.values).halt) :
    StopsWithStatus (p.andThen f).halt := fun o ho => by
  rcases Progress.andThen_halt_eq_some ho with h | ⟨-, h⟩
  exacts [hp o h, hf o h]

theorem releaseLoop_stops (plan : SequentialExecutionPlan) (env : Env σ O) (k : Nat)
    (is : List Nat) (h : ∀ i ∈ is, i < plan.toBeFreed.length) (values : σ) :
    StopsWithStatus (releaseLoop plan env k is values).halt := by
  induction is generalizing values with
  | nil => exact fun _ h => nomatch h
  | cons i is ih =>
    simp only [releaseLoop, List.getElem?_eq_getElem (h i (List.mem_cons_self i is))]
    refine Progress.andThen_stops ?_ (ih (fun j hj => h j (List.mem_cons_of_mem i hj)) _)
    dsimp only
    split
    · exact fun _ h => nomatch h
    · exact stopsWithStatus_error _

theorem executeNode_stops (ss : SessionState) (ex : SequentialExecutor) (env : Env σ O) {k : Nat}
    (hk : k < ss.plan.executionPlan.length) (values : σ) :
    StopsWithStatus (executeNode ss ex env k values).halt := by
  simp only [executeNode, List.getElem?_eq_getElem hk]
  split
  · exact stopsWithStatus_error _
  split
  · exact fun _ h => nomatch h
  split
  · exact stopsWithStatus_error _
  split
  · exact Progress.andThen_stops (fun _ h => nomatch h)
      (releaseLoop_stops ss.plan env k _ (freeIndices_lt (List.getElem_mem hk)) _)
  · exact stopsWithStatus_error _

theorem executeNodes_stops (ss : SessionState) (ex : SequentialExecutor) (env : Env σ O)
    (ks : List Nat) (h : ∀ k ∈ ks, k < ss.plan.executionPlan.length) (values : σ) :
    StopsWithStatus (executeNodes ss ex env ks values).halt := by
  induction ks generalizing values with
  | nil => exact fun _ h => nomatch h
  | cons k ks ih =>
    exact Progress.andThen_stops (executeNode_stops ss ex env (h k (List.mem_cons_self k ks)) _)
      (ih (fun j hj => h j (List.mem_cons_of_mem k hj)) _)

theorem generateMemoryPatterns_stops (env : Env σ O) (values : σ) :
    StopsWithStatus (generateMemoryPatterns env values) := by
  simp only [generateMemoryPatterns]
  split_ifs
  · exact stopsWithStatus_error _
  · exact stopsWithStatus_error _
  · exact fun _ h => nomatch h
  · exact fun _ h => nomatch h

theorem executeRange_stops (ss : SessionState) (ex : SequentialExecutor) (env : Env σ O)
    (values : σ) {start stop : Nat}
    (h : ∀ k, start ≤ k → k < stop → k < ss.plan.executionPlan.length) :
    StopsWithStatus (executeRange ss ex env values start stop).halt :=
  Progress.andThen_stops (executeNodes_stops ss ex env _ (fun k hk => by
      rw [List.mem_range'_1] at hk
      exact h k hk.1 (by omega)) values)
    (generateMemoryPatterns_stops env _)

end SequentialExecution.NodeLoop
