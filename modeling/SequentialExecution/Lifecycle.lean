import SequentialExecution.Window

namespace SequentialExecution.Lifecycle

open SequentialExecution.Common SequentialExecution.Session SequentialExecution.NodeLoop
open SequentialExecution.Execute SequentialExecution.Window

variable {σ O : Type}

theorem executeWindow_error (ss : SessionState) (ex : SequentialExecutor) (env : Env σ O)
    (runs : GraphRuns σ) (key : BitVec 64) (frame : ExecutionFrame σ) {s : Status}
    (h : (executeWindow (executeRange ss ex env) ss env runs key frame).outcome = .error s) :
    (executeWindow (executeRange ss ex env) ss env runs key frame).runId = key ∧
    ∃ values, (executeWindow (executeRange ss ex env) ss env runs key frame).runs =
      runs.store key ⟨frame.programCounter, values⟩ := by
  revert h
  simp only [executeWindow]
  split
  · intro h; cases h
  split
  · exact fun _ => ⟨rfl, _, rfl⟩
  split
  · exact fun _ => ⟨rfl, _, rfl⟩
  split
  · exact fun _ => ⟨rfl, _, rfl⟩
  · intro h; cases h

/-- A partial call that returns a status leaves its run registered with the cursor it had: a
resumed run under its own id, a new run under the id written back, at cursor 0, with the
counter advanced by one. The next resume starts from that cursor. -/
theorem partial_run_error_keeps_cursor (ids : RunIds) (ss : SessionState)
    (ex : SequentialExecutor) (env : Env σ O) (runs : GraphRuns σ) {runId : BitVec 64}
    {s : Status} (hnd : runId ≠ ids.defaultRunId)
    (herr : (execute ids ss ex env runs runId).outcome = .error s) :
    (runId = ids.defaultPartialRunId →
      (execute ids ss ex env runs runId).runId = runs.graphRunsCounter ∧
      (execute ids ss ex env runs runId).runs.graphRunsCounter = runs.graphRunsCounter + 1 ∧
      ∃ values, (execute ids ss ex env runs runId).runs.graphRuns runs.graphRunsCounter =
        some ⟨0, values⟩) ∧
    (runId ≠ ids.defaultPartialRunId →
      (execute ids ss ex env runs runId).runId = runId ∧
      (execute ids ss ex env runs runId).runs.graphRunsCounter = runs.graphRunsCounter ∧
      ∃ frame values, runs.graphRuns runId = some frame ∧
        (execute ids ss ex env runs runId).runs.graphRuns runId =
          some ⟨frame.programCounter, values⟩) := by
  rw [execute_of_ne_default ids ss ex env runs hnd] at herr ⊢
  rcases hacq : acquireFrame ids env runs runId with inv | ⟨runs₁, key, frame₁⟩
  · simp only [hacq] at herr
    rcases (acquireFrame_inl hacq).1 with h | ⟨c, h⟩ <;> rw [h] at herr <;> cases herr
  · simp only [hacq] at herr ⊢
    obtain ⟨hid, values, hruns⟩ := executeWindow_error ss ex env runs₁ key frame₁ herr
    obtain ⟨hnew, hres⟩ := acquireFrame_inr hacq
    rw [hid, hruns]
    constructor
    · intro hp
      obtain ⟨rfl, rfl, -, rfl⟩ := hnew hp
      exact ⟨rfl, rfl, values, by simp⟩
    · intro hp
      obtain ⟨rfl, -, registered, hreg, rfl, rfl⟩ := hres hp
      exact ⟨rfl, rfl, registered, values, hreg, by simp⟩

theorem terminated_new_run_stays_registered :
    ∃ values, (execute sampleRunIds yieldSession ⟨false⟩
      { quietEnv with terminateFlag := fun _ => true } ⟨fun _ => none, 0⟩
      sampleRunIds.defaultPartialRunId).runs.graphRuns 0 = some ⟨0, values⟩ :=
  ((partial_run_error_keeps_cursor sampleRunIds yieldSession ⟨false⟩
    { quietEnv with terminateFlag := fun _ => true } ⟨fun _ => none, 0⟩ (s := terminateStatus)
    (by decide) (by rfl)).1 rfl).2.2

theorem executeWindow_ok (ss : SessionState) (ex : SequentialExecutor) (env : Env σ O)
    (runs : GraphRuns σ) (key : BitVec 64) (frame : ExecutionFrame σ)
    (h : (executeWindow (executeRange ss ex env) ss env runs key frame).outcome = .ok) :
    ∃ e values, programCounterEnd ss frame.programCounter = some e ∧
      (executeWindow (executeRange ss ex env) ss env runs key frame).runId = key ∧
      (executeWindow (executeRange ss ex env) ss env runs key frame).frame =
        some ⟨if ss.transferIntermidiateTensorOwnership then e + 1 else e, values⟩ ∧
      (executeWindow (executeRange ss ex env) ss env runs key frame).runs =
        if (if ss.transferIntermidiateTensorOwnership then e + 1 else e) =
          ss.plan.executionPlan.length then runs.erase key
        else runs.store key ⟨if ss.transferIntermidiateTensorOwnership then e + 1 else e, values⟩ := by
  revert h
  simp only [executeWindow]
  split
  · intro h; cases h
  rename_i e he
  split
  · rename_i o ho
    obtain ⟨s, rfl⟩ := executeRange_stops ss ex env frame.values (programCounterEnd_lt ss he) o ho
    intro h; cases h
  split
  · intro h; cases h
  split
  · intro h; cases h
  · exact fun _ => ⟨e, _, he, rfl, rfl, rfl⟩

theorem executeWindow_frame (ss : SessionState) (ex : SequentialExecutor) (env : Env σ O)
    (runs : GraphRuns σ) (key : BitVec 64) (frame : ExecutionFrame σ) :
    (executeWindow (executeRange ss ex env) ss env runs key frame).runs.graphRunsCounter = runs.graphRunsCounter ∧
    ∀ k, k ≠ key → (executeWindow (executeRange ss ex env) ss env runs key frame).runs.graphRuns k = runs.graphRuns k := by
  simp only [executeWindow]
  split
  · exact ⟨rfl, fun _ _ => rfl⟩
  split
  · exact ⟨rfl, fun _ h => GraphRuns.store_other _ _ h⟩
  split
  · exact ⟨rfl, fun _ h => GraphRuns.store_other _ _ h⟩
  split
  · exact ⟨rfl, fun _ h => GraphRuns.store_other _ _ h⟩
  · exact ⟨by split_ifs <;> rfl, fun k h => by split_ifs <;> simp [h]⟩

/-- Every frame in the registry has its cursor below the plan size. -/
def CursorsBelowEnd (ss : SessionState) (runs : GraphRuns σ) : Prop :=
  ∀ k frame, runs.graphRuns k = some frame → frame.programCounter < ss.plan.executionPlan.length

theorem CursorsBelowEnd.store {ss : SessionState} {runs : GraphRuns σ}
    (h : CursorsBelowEnd ss runs) (key : BitVec 64) {frame : ExecutionFrame σ}
    (hf : frame.programCounter < ss.plan.executionPlan.length) :
    CursorsBelowEnd ss (runs.store key frame) := fun k f hk => by
  by_cases hkey : k = key
  · subst hkey
    rw [GraphRuns.store_same] at hk
    exact Option.some.inj hk ▸ hf
  · exact h k f (by rwa [GraphRuns.store_other _ _ hkey] at hk)

theorem CursorsBelowEnd.erase {ss : SessionState} {runs : GraphRuns σ}
    (h : CursorsBelowEnd ss runs) (key : BitVec 64) : CursorsBelowEnd ss (runs.erase key) :=
  fun k f hk => by
  by_cases hkey : k = key
  · subst hkey
    rw [GraphRuns.erase_same] at hk
    cases hk
  · exact h k f (by rwa [GraphRuns.erase_other _ hkey] at hk)

theorem executeWindow_cursorsBelowEnd (ss : SessionState) (ex : SequentialExecutor)
    (env : Env σ O) {runs : GraphRuns σ} (key : BitVec 64) {frame : ExecutionFrame σ}
    (ht : ss.transferIntermidiateTensorOwnership = false) (h : CursorsBelowEnd ss runs)
    (hc : frame.programCounter < ss.plan.executionPlan.length) :
    CursorsBelowEnd ss (executeWindow (executeRange ss ex env) ss env runs key frame).runs := by
  simp only [executeWindow]
  split
  · exact h
  rename_i e he
  split
  · exact h.store key hc
  split
  · exact h.store key hc
  split
  · exact h.store key hc
  · simp only [ht, Bool.false_eq_true, ite_false]
    split
    · exact h.erase key
    · exact h.store key (Nat.lt_of_le_of_ne (programCounterEnd_le ss he (Nat.le_of_lt hc)) ‹_›)

theorem execute_cursorsBelowEnd (ids : RunIds) (ss : SessionState) (ex : SequentialExecutor)
    (env : Env σ O) {runs : GraphRuns σ} (runId : BitVec 64)
    (ht : ss.transferIntermidiateTensorOwnership = false)
    (hsize : 0 < ss.plan.executionPlan.length) (h : CursorsBelowEnd ss runs) :
    CursorsBelowEnd ss (execute ids ss ex env runs runId).runs := by
  by_cases hd : runId = ids.defaultRunId
  · rw [hd, execute_of_default, executeFullRun_runs]
    exact h
  rw [execute_of_ne_default ids ss ex env runs hd]
  rcases hacq : acquireFrame ids env runs runId with inv | ⟨runs₁, key, frame⟩
  · simp only [acquireFrame] at hacq
    split_ifs at hacq <;> (try split at hacq) <;> cases hacq
    all_goals first
      | exact h
      | exact h.store _ (by exact hsize)
  · obtain ⟨hnew, hres⟩ := acquireFrame_inr hacq
    by_cases hp : runId = ids.defaultPartialRunId
    · obtain ⟨-, rfl, -, rfl⟩ := hnew hp
      exact executeWindow_cursorsBelowEnd ss ex env key ht (h.store key hsize) hsize
    · obtain ⟨rfl, -, registered, hreg, rfl, rfl⟩ := hres hp
      have hc : registered.programCounter < ss.plan.executionPlan.length := h _ _ hreg
      refine executeWindow_cursorsBelowEnd ss ex env _ ht (h.store _ ?_) ?_ <;> exact hc

/-- Execute called once per entry of calls, in order, each with its environment and run_id. -/
def executeAll (ids : RunIds) (ss : SessionState) (ex : SequentialExecutor) :
    List (Env σ O × BitVec 64) → GraphRuns σ → GraphRuns σ
  | [], runs => runs
  | (env, runId) :: calls, runs =>
    executeAll ids ss ex calls (execute ids ss ex env runs runId).runs

/-- Without ownership transfer, on a nonempty plan, every registered frame keeps its cursor below
the plan size over any sequence of calls: full runs, new partial runs and resumes of any ids,
whatever they return. -/
theorem cursors_below_end_without_transfer (ids : RunIds) (ss : SessionState)
    (ex : SequentialExecutor) (ht : ss.transferIntermidiateTensorOwnership = false)
    (hsize : 0 < ss.plan.executionPlan.length) :
    ∀ (calls : List (Env σ O × BitVec 64)) (runs : GraphRuns σ), CursorsBelowEnd ss runs →
      CursorsBelowEnd ss (executeAll ids ss ex calls runs)
  | [], _, h => h
  | (env, runId) :: calls, _, h =>
    cursors_below_end_without_transfer ids ss ex ht hsize calls _
      (execute_cursorsBelowEnd ids ss ex env runId ht hsize h)

theorem yield_calls_cursors_below_end :
    CursorsBelowEnd yieldSession (executeAll sampleRunIds yieldSession ⟨false⟩
      [(quietEnv, sampleRunIds.defaultPartialRunId), (quietEnv, 0)] ⟨fun _ => none, 0⟩) :=
  cursors_below_end_without_transfer sampleRunIds yieldSession ⟨false⟩ rfl (by decide) _ _
    fun _ _ h => Option.noConfusion h

/-- The keys of the registry lie below graph_runs_counter_, which is non-negative: every key from
the counter on is free. -/
structure KeysBelow (runs : GraphRuns σ) : Prop where
  counter_nonneg : 0 ≤ runs.graphRunsCounter.toInt
  above_free : ∀ k : BitVec 64, runs.graphRunsCounter.toInt ≤ k.toInt → runs.graphRuns k = none

theorem KeysBelow.key_lt {runs : GraphRuns σ} (h : KeysBelow runs) {k : BitVec 64}
    {frame : ExecutionFrame σ} (hk : runs.graphRuns k = some frame) :
    k.toInt < runs.graphRunsCounter.toInt :=
  Int.not_le.mp fun hle => by rw [h.above_free k hle] at hk; cases hk

theorem KeysBelow.mono {runs runs' : GraphRuns σ} (h : KeysBelow runs)
    (hle : runs.graphRunsCounter.toInt ≤ runs'.graphRunsCounter.toInt)
    (hsame : ∀ k : BitVec 64, runs'.graphRunsCounter.toInt ≤ k.toInt →
      runs'.graphRuns k = runs.graphRuns k) : KeysBelow runs' :=
  ⟨Int.le_trans h.counter_nonneg hle,
    fun k hk => (hsame k hk).trans (h.above_free k (Int.le_trans hle hk))⟩

theorem acquireFrame_keysBelow {ids : RunIds} {env : Env σ O} {runs runs' : GraphRuns σ}
    {runId key : BitVec 64} {frame : ExecutionFrame σ} (h : KeysBelow runs)
    (hroom : runs.graphRunsCounter.toInt < 9223372036854775807)
    (hacq : acquireFrame ids env runs runId = .inr (runs', key, frame)) :
    KeysBelow runs' ∧ key.toInt < runs'.graphRunsCounter.toInt ∧
      runs.graphRunsCounter.toInt ≤ runs'.graphRunsCounter.toInt ∧
      runs'.graphRunsCounter.toInt ≤ runs.graphRunsCounter.toInt + 1 := by
  obtain ⟨hnew, hres⟩ := acquireFrame_inr hacq
  by_cases hp : runId = ids.defaultPartialRunId
  · obtain ⟨rfl, -, -, rfl⟩ := hnew hp
    have hc := toInt_add_one h.counter_nonneg hroom
    refine ⟨h.mono (by dsimp only; omega) fun k hk => GraphRuns.store_other _ _ ?_,
      by dsimp only; omega, by dsimp only; omega, by dsimp only; omega⟩
    rintro rfl
    dsimp only at hk
    omega
  · obtain ⟨rfl, -, registered, hreg, -, rfl⟩ := hres hp
    have hlt := h.key_lt hreg
    have hcount : (runs.store key frame).graphRunsCounter.toInt = runs.graphRunsCounter.toInt := rfl
    refine ⟨h.mono (Int.le_refl _) fun k hk => GraphRuns.store_other _ _ ?_, hlt, by omega,
      by omega⟩
    rintro rfl
    rw [GraphRuns.store_counter] at hk
    omega

theorem executeWindow_keysBelow (ss : SessionState) (ex : SequentialExecutor) (env : Env σ O)
    {runs : GraphRuns σ} {key : BitVec 64} (frame : ExecutionFrame σ) (h : KeysBelow runs)
    (hkey : key.toInt < runs.graphRunsCounter.toInt) :
    KeysBelow (executeWindow (executeRange ss ex env) ss env runs key frame).runs ∧
      (executeWindow (executeRange ss ex env) ss env runs key frame).runs.graphRunsCounter =
        runs.graphRunsCounter := by
  obtain ⟨hcount, hother⟩ := executeWindow_frame ss ex env runs key frame
  refine ⟨h.mono (hcount ▸ Int.le_refl _) fun k hk => hother k ?_, hcount⟩
  rintro rfl
  rw [hcount] at hk
  omega

theorem execute_keysBelow (ids : RunIds) (ss : SessionState) (ex : SequentialExecutor)
    (env : Env σ O) {runs : GraphRuns σ} (runId : BitVec 64) (h : KeysBelow runs)
    (hroom : runs.graphRunsCounter.toInt < 9223372036854775807) :
    KeysBelow (execute ids ss ex env runs runId).runs ∧
      runs.graphRunsCounter.toInt ≤ (execute ids ss ex env runs runId).runs.graphRunsCounter.toInt ∧
      (execute ids ss ex env runs runId).runs.graphRunsCounter.toInt ≤
        runs.graphRunsCounter.toInt + 1 := by
  by_cases hd : runId = ids.defaultRunId
  · rw [hd, execute_of_default, executeFullRun_runs]
    exact ⟨h, Int.le_refl _, by omega⟩
  rw [execute_of_ne_default ids ss ex env runs hd]
  rcases hacq : acquireFrame ids env runs runId with inv | ⟨runs₁, key, frame⟩
  · rw [(acquireFrame_inl_fresh (h.above_free _ (Int.le_refl _)) hacq).1]
    exact ⟨h, Int.le_refl _, by omega⟩
  obtain ⟨h₁, hkey, hge, hle⟩ := acquireFrame_keysBelow h hroom hacq
  obtain ⟨h₂, hcount⟩ := executeWindow_keysBelow ss ex env frame h₁ hkey
  dsimp only
  rw [hcount]
  exact ⟨h₂, hge, hle⟩

theorem keys_below_counter (ids : RunIds) (ss : SessionState) (ex : SequentialExecutor) :
    ∀ (calls : List (Env σ O × BitVec 64)) (runs : GraphRuns σ), KeysBelow runs →
      runs.graphRunsCounter.toInt + calls.length < 9223372036854775807 →
      KeysBelow (executeAll ids ss ex calls runs) ∧
        (executeAll ids ss ex calls runs).graphRunsCounter.toInt ≤
          runs.graphRunsCounter.toInt + calls.length
  | [], _, h, _ => ⟨h, by simp [executeAll]⟩
  | (env, runId) :: calls, runs, h, hroom => by
    simp only [List.length_cons] at hroom ⊢
    obtain ⟨h', -, hle⟩ := execute_keysBelow ids ss ex env runId h (by omega)
    obtain ⟨h'', hle'⟩ := keys_below_counter ids ss ex calls _ h' (by omega)
    exact ⟨h'', by simp only [executeAll]; omega⟩

/-- From an empty registry, over any sequence of fewer than INT64_MAX calls (full runs, new
partial runs and resumes of any ids, whatever they return), every registered run's key lies below
graph_runs_counter_, so the insert of a new partial run, whose result the code does not check,
always finds its key free: the run is registered at cursor 0 under the counter, which is the id
written back, and the counter advances. -/
theorem new_run_key_free (ids : RunIds) (ss : SessionState) (ex : SequentialExecutor)
    (calls : List (Env σ O × BitVec 64)) (hroom : calls.length < 9223372036854775807)
    (env : Env σ O) :
    let runs := executeAll ids ss ex calls ⟨fun _ => none, 0⟩
    (∀ k frame, runs.graphRuns k = some frame → k.toInt < runs.graphRunsCounter.toInt) ∧
    acquireFrame ids env runs ids.defaultPartialRunId =
      .inr ({ runs.store runs.graphRunsCounter ⟨0, env.newFrame⟩ with
          graphRunsCounter := runs.graphRunsCounter + 1 }, runs.graphRunsCounter, ⟨0, env.newFrame⟩) := by
  intro runs
  have h0 : (0 : BitVec 64).toInt = 0 := rfl
  have h : KeysBelow runs := (keys_below_counter ids ss ex calls _
    ⟨by dsimp only; omega, fun _ _ => rfl⟩ (by dsimp only; omega)).1
  exact ⟨fun k frame hk => h.key_lt hk, acquireFrame_new ids env runs (h.above_free _ (Int.le_refl _))⟩

theorem yield_calls_new_run_key_free :
    let runs := executeAll sampleRunIds yieldSession ⟨false⟩
      [(quietEnv, sampleRunIds.defaultPartialRunId), (quietEnv, 0)] ⟨fun _ => none, 0⟩
    (∀ k frame, runs.graphRuns k = some frame → k.toInt < runs.graphRunsCounter.toInt) ∧
    acquireFrame sampleRunIds quietEnv runs sampleRunIds.defaultPartialRunId =
      .inr ({ runs.store runs.graphRunsCounter ⟨0, ()⟩ with
          graphRunsCounter := runs.graphRunsCounter + 1 }, runs.graphRunsCounter, ⟨0, ()⟩) :=
  new_run_key_free sampleRunIds yieldSession ⟨false⟩ _ (by decide) quietEnv

/-- Without ownership transfer, a partial call that returns OK with the cursor at the plan end
has erased its run: the id it wrote back is non-negative, below the counter and unregistered. -/
theorem completed_run_erased (ids : RunIds) (ss : SessionState) (ex : SequentialExecutor)
    (env : Env σ O) {runs : GraphRuns σ} {runId : BitVec 64}
    (ht : ss.transferIntermidiateTensorOwnership = false) (hd : runId ≠ ids.defaultRunId)
    (h : KeysBelow runs) (hroom : runs.graphRunsCounter.toInt < 9223372036854775807)
    (hok : (execute ids ss ex env runs runId).outcome = .ok)
    (hend : (execute ids ss ex env runs runId).frame.map (·.programCounter) =
      some ss.plan.executionPlan.length) :
    (execute ids ss ex env runs runId).runs.graphRuns (execute ids ss ex env runs runId).runId =
      none ∧ 0 ≤ (execute ids ss ex env runs runId).runId.toInt ∧
    (execute ids ss ex env runs runId).runId.toInt <
      (execute ids ss ex env runs runId).runs.graphRunsCounter.toInt := by
  rw [execute_of_ne_default ids ss ex env runs hd] at hok hend ⊢
  rcases hacq : acquireFrame ids env runs runId with inv | ⟨runs₁, key, frame⟩
  · simp only [hacq] at hok
    rcases (acquireFrame_inl hacq).1 with h | ⟨c, h⟩ <;> rw [h] at hok <;> cases hok
  simp only [hacq] at hok hend ⊢
  obtain ⟨e, values, -, hid, hframe, hruns⟩ := executeWindow_ok ss ex env runs₁ key frame hok
  rw [hframe] at hend
  simp only [ht, Bool.false_eq_true, ite_false, Option.map_some', Option.some.injEq] at hend
  have hkey : 0 ≤ key.toInt := by
    obtain ⟨hnew, hres⟩ := acquireFrame_inr hacq
    by_cases hp : runId = ids.defaultPartialRunId
    · exact (hnew hp).1 ▸ h.counter_nonneg
    · exact (hres hp).1 ▸ (hres hp).2.1
  obtain ⟨-, hlt, -⟩ := acquireFrame_keysBelow h hroom hacq
  have hcount := (executeWindow_frame ss ex env runs₁ key frame).1
  rw [hid, hcount]
  exact ⟨by rw [hruns, ht]; simp [hend], hkey, hlt⟩

/-- A call never registers a key below the counter that is unregistered: a new run takes the
counter's key, and a resume writes back only the key it found. -/
theorem execute_keeps_erased (ids : RunIds) (ss : SessionState) (ex : SequentialExecutor)
    (env : Env σ O) {runs : GraphRuns σ} (runId : BitVec 64) {key : BitVec 64}
    (h : KeysBelow runs) (hkey : key.toInt < runs.graphRunsCounter.toInt)
    (hnone : runs.graphRuns key = none) :
    (execute ids ss ex env runs runId).runs.graphRuns key = none := by
  by_cases hd : runId = ids.defaultRunId
  · rw [hd, execute_of_default, executeFullRun_runs]
    exact hnone
  rw [execute_of_ne_default ids ss ex env runs hd]
  rcases hacq : acquireFrame ids env runs runId with inv | ⟨runs₁, key₁, frame⟩
  · rw [(acquireFrame_inl_fresh (h.above_free _ (Int.le_refl _)) hacq).1]
    exact hnone
  obtain ⟨hnew, hres⟩ := acquireFrame_inr hacq
  have hne : key ≠ key₁ ∧ runs₁.graphRuns key = none := by
    by_cases hp : runId = ids.defaultPartialRunId
    · obtain ⟨rfl, -, -, rfl⟩ := hnew hp
      have hne : key ≠ runs.graphRunsCounter := fun he => by rw [he] at hkey; omega
      exact ⟨hne, by rw [GraphRuns.store_other _ _ hne]; exact hnone⟩
    · obtain ⟨rfl, -, registered, hreg, -, rfl⟩ := hres hp
      have hne : key ≠ key₁ := fun he => by rw [he, hreg] at hnone; cases hnone
      exact ⟨hne, by rw [GraphRuns.store_other _ _ hne]; exact hnone⟩
  exact ((executeWindow_frame ss ex env runs₁ key₁ frame).2 key hne.1).trans hne.2

theorem executeAll_keeps_erased (ids : RunIds) (ss : SessionState) (ex : SequentialExecutor)
    {key : BitVec 64} :
    ∀ (calls : List (Env σ O × BitVec 64)) (runs : GraphRuns σ), KeysBelow runs →
      runs.graphRunsCounter.toInt + calls.length < 9223372036854775807 →
      key.toInt < runs.graphRunsCounter.toInt → runs.graphRuns key = none →
      (executeAll ids ss ex calls runs).graphRuns key = none
  | [], _, _, _, _, hnone => hnone
  | (env, runId) :: calls, runs, h, hroom, hkey, hnone => by
    simp only [List.length_cons] at hroom
    obtain ⟨h', hge, hle⟩ := execute_keysBelow ids ss ex env runId h (by omega)
    exact executeAll_keeps_erased ids ss ex calls _ h' (by omega) (by omega)
      (execute_keeps_erased ids ss ex env runId h hkey hnone)

/-- From an empty registry, without ownership transfer, once a partial call returns OK with the
cursor at the plan end, the run_id it wrote back stays unregistered over any later calls (full
runs, new partial runs and resumes of any ids, whatever they return, within the counter's room),
and a resume of it then fails at ORT_ENFORCE(it != graph_runs_.end()). -/
theorem completed_run_stays_erased (ids : RunIds) (ss : SessionState) (ex : SequentialExecutor)
    (ht : ss.transferIntermidiateTensorOwnership = false) (before after : List (Env σ O × BitVec 64))
    (env env' : Env σ O) {runId : BitVec 64} (hd : runId ≠ ids.defaultRunId)
    (hroom : before.length + after.length < 9223372036854775806)
    (hok : (execute ids ss ex env (executeAll ids ss ex before ⟨fun _ => none, 0⟩) runId).outcome =
      .ok)
    (hend : (execute ids ss ex env (executeAll ids ss ex before ⟨fun _ => none, 0⟩)
      runId).frame.map (·.programCounter) = some ss.plan.executionPlan.length) :
    let call := execute ids ss ex env (executeAll ids ss ex before ⟨fun _ => none, 0⟩) runId
    (executeAll ids ss ex after call.runs).graphRuns call.runId = none ∧
      (execute ids ss ex env' (executeAll ids ss ex after call.runs) call.runId).outcome =
        .enforceFailed "it != session_state.graph_runs_.end()" := by
  dsimp only
  have h0 : (0 : BitVec 64).toInt = 0 := rfl
  obtain ⟨hb, hbc⟩ := keys_below_counter ids ss ex before ⟨fun _ => none, 0⟩
    ⟨by dsimp only; omega, fun _ _ => rfl⟩ (by dsimp only; omega)
  rw [h0] at hbc
  obtain ⟨hc, -, hcc⟩ := execute_keysBelow ids ss ex env runId hb (by omega)
  obtain ⟨hnone, hnn, hlt⟩ := completed_run_erased ids ss ex env ht hd hb (by omega) hok hend
  have hgone := executeAll_keeps_erased ids ss ex after _ hc (by omega) hlt hnone
  obtain ⟨hkd, hkp⟩ := ids.ne_of_nonneg hnn
  exact ⟨hgone, by rw [execute_of_ne_default ids ss ex env' _ hkd,
    acquireFrame_missing ids env' _ hkp hnn hgone]⟩

theorem yield_run_stays_erased :
    let call := execute sampleRunIds yieldSession ⟨false⟩ quietEnv (executeAll sampleRunIds
      yieldSession ⟨false⟩ [(quietEnv, sampleRunIds.defaultPartialRunId)] ⟨fun _ => none, 0⟩) 0
    let later := [(quietEnv, sampleRunIds.defaultPartialRunId), (quietEnv, 0)]
    (executeAll sampleRunIds yieldSession ⟨false⟩ later call.runs).graphRuns call.runId = none ∧
      (execute sampleRunIds yieldSession ⟨false⟩ quietEnv
        (executeAll sampleRunIds yieldSession ⟨false⟩ later call.runs) call.runId).outcome =
        .enforceFailed "it != session_state.graph_runs_.end()" :=
  completed_run_stays_erased sampleRunIds yieldSession ⟨false⟩ rfl _ _ quietEnv quietEnv
    (by decide) (by decide) (by decide) (by decide)

/-- One plan entry, with intermediate tensor ownership transferred to the caller. -/
def transferSession : SessionState :=
  ⟨⟨[⟨0, 1, 0⟩], [], fun _ => false, by decide⟩,
    fun _ => some ⟨"Relu", 0, kCpuExecutionProvider, fun _ => .default⟩, fun _ => ⟨"n0", "Relu"⟩,
    true⟩

/-- With ownership transferred, a window that reaches the plan end sets the cursor one past it,
so the erase, which tests for equality with the plan size, never fires: the run stays
registered and a further resume of it succeeds. -/
theorem transfer_run_never_erased (ids : RunIds) (ex : SequentialExecutor) :
    (execute ids transferSession ex quietEnv ⟨fun _ => none, 0⟩
      ids.defaultPartialRunId).outcome = .ok ∧
    (execute ids transferSession ex quietEnv ⟨fun _ => none, 0⟩ ids.defaultPartialRunId).runId = 0 ∧
    ((execute ids transferSession ex quietEnv ⟨fun _ => none, 0⟩
      ids.defaultPartialRunId).runs.graphRuns 0).map (·.programCounter) = some 2 ∧
    (execute ids transferSession ex quietEnv (execute ids transferSession ex quietEnv
      ⟨fun _ => none, 0⟩ ids.defaultPartialRunId).runs 0).outcome = .ok := by
  have hd := ids.distinct.symm
  have hs := slt_int64Max (x := ids.defaultPartialRunId) (by have := ids.defaultPartialRunId_neg; omega)
  obtain ⟨h0, h0'⟩ := ids.ne_of_nonneg (x := BitVec.ofNat 64 0) (Int.le_refl 0)
  have hz : (BitVec.ofNat 64 0).slt (BitVec.ofNat 64 0) = false := by decide
  simp [execute, executeWith, acquireFrame, hd, hs, h0, h0', hz, executeWindow, programCounterEnd,
    scanWindowEnd, transferSession, executeRange, executeNodes, executeNode, quietEnv, skipsNode,
    releaseNodeMLValues, freeIndices, waitWindowEnd, generateMemoryPatterns, releaseLoop,
    computeStatus, Status.isOK, Status.ok]

theorem yieldSession_new_run (ids : RunIds) (ex : SequentialExecutor) (runs : GraphRuns Unit)
    (hfree : runs.graphRuns runs.graphRunsCounter = none) :
    (execute ids yieldSession ex quietEnv runs ids.defaultPartialRunId).outcome = .ok ∧
    (execute ids yieldSession ex quietEnv runs ids.defaultPartialRunId).runId =
      runs.graphRunsCounter ∧
    (execute ids yieldSession ex quietEnv runs ids.defaultPartialRunId).runs.graphRunsCounter =
      runs.graphRunsCounter + 1 ∧
    ∀ k, k ≠ runs.graphRunsCounter →
      (execute ids yieldSession ex quietEnv runs ids.defaultPartialRunId).runs.graphRuns k =
        runs.graphRuns k := by
  rw [execute_of_ne_default ids _ _ _ _ ids.distinct.symm, acquireFrame_new ids _ _ hfree]
  simp [executeWindow, programCounterEnd, scanWindowEnd, yieldSession, executeRange,
    executeNodes, executeNode, quietEnv, skipsNode, releaseNodeMLValues, freeIndices,
    waitWindowEnd, generateMemoryPatterns, releaseLoop, computeStatus, Status.isOK, Status.ok]
  intro k hk
  simp [GraphRuns.store, hk]

/-- At graph_runs_counter_ = INT64_MAX the guard of line 153 tests run_id, which holds the
sentinel, not the counter: the new run succeeds, the counter wraps to INT64_MIN, and the next
new run is handed a negative id. -/
theorem run_id_counter_wraps (ids : RunIds) (ex : SequentialExecutor) :
    let first := execute ids yieldSession ex quietEnv ⟨fun _ => none, int64Max⟩
      ids.defaultPartialRunId
    let second := execute ids yieldSession ex quietEnv first.runs ids.defaultPartialRunId
    first.outcome = .ok ∧ first.runId = int64Max ∧ first.runs.graphRunsCounter.toInt = -9223372036854775808 ∧
      second.outcome = .ok ∧ second.runId.toInt = -9223372036854775808 := by
  intro first second
  obtain ⟨h1, h2, h3, h4⟩ := yieldSession_new_run ids ex ⟨fun _ => none, int64Max⟩ rfl
  have hw : (int64Max + 1).toInt = -9223372036854775808 := by decide
  obtain ⟨h5, h6, -⟩ := yieldSession_new_run ids ex first.runs
    (by rw [h3, h4 _ (by decide)])
  exact ⟨h1, h2, by rw [h3, hw], h5, by rw [h6, h3, hw]⟩

end SequentialExecution.Lifecycle
