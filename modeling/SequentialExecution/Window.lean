import SequentialExecution.Execute

namespace SequentialExecution.Window

open SequentialExecution.Common SequentialExecution.Session SequentialExecution.NodeLoop
open SequentialExecution.Execute

variable {σ O : Type}

/-- The OpName of the kernel bound to plan entry k, where the entry and its kernel exist. -/
def opNameAt (ss : SessionState) (k : Nat) : Option String :=
  ss.plan.executionPlan[k]?.bind fun entry => (ss.getKernel entry.nodeIndex).map (·.opName)

def KernelsBound (ss : SessionState) : Prop :=
  ∀ entry ∈ ss.plan.executionPlan, (ss.getKernel entry.nodeIndex).isSome

instance (ss : SessionState) : Decidable (KernelsBound ss) :=
  inferInstanceAs (Decidable (∀ entry ∈ ss.plan.executionPlan, _))

theorem programCounterEnd_of_le (ss : SessionState) {pc : Nat}
    (h : ss.plan.executionPlan.length ≤ pc) : programCounterEnd ss pc = some pc := by
  simp [programCounterEnd, List.drop_eq_nil_of_le h, scanWindowEnd]

theorem scanWindowEnd_le (ss : SessionState) (pc : Nat) :
    ∀ (l : List NodeExecutionPlan) (e₀ e : Nat), scanWindowEnd ss pc l e₀ = some e →
      e₀ ≤ e ∧ e ≤ e₀ + l.length
  | [], e₀, e, h => by simp only [scanWindowEnd, Option.some.injEq] at h; omega
  | entry :: rest, e₀, e, h => by
    simp only [scanWindowEnd] at h
    split at h
    · cases h
    · split at h
      · have := scanWindowEnd_le ss pc rest (e₀ + 1) e h
        simp only [List.length_cons]
        omega
      · cases h
        simp only [List.length_cons]
        omega

theorem programCounterEnd_ge (ss : SessionState) {c e : Nat} (he : programCounterEnd ss c = some e) :
    c ≤ e :=
  (scanWindowEnd_le ss c _ c e he).1

theorem programCounterEnd_lt (ss : SessionState) {c e : Nat} (he : programCounterEnd ss c = some e) :
    ∀ k, c ≤ k → k < e → k < ss.plan.executionPlan.length := by
  have := scanWindowEnd_le ss c _ c e he
  simp only [List.length_drop] at this
  intro k _ _
  omega

theorem programCounterEnd_le (ss : SessionState) {c e : Nat} (he : programCounterEnd ss c = some e)
    (hc : c ≤ ss.plan.executionPlan.length) : e ≤ ss.plan.executionPlan.length := by
  have := scanWindowEnd_le ss c _ c e he
  simp only [List.length_drop] at this
  omega

/-- From e on, the scan stops at the first YieldOp entry other than pc, or at the plan end. -/
theorem scanWindowEnd_spec (ss : SessionState) (hk : KernelsBound ss) (pc : Nat) :
    ∀ n e, e + n = ss.plan.executionPlan.length →
      ∃ e', scanWindowEnd ss pc (ss.plan.executionPlan.drop e) e = some e' ∧ e ≤ e' ∧
        e' ≤ ss.plan.executionPlan.length ∧
        (∀ j, e ≤ j → j < e' → j = pc ∨ opNameAt ss j ≠ some "YieldOp") ∧
        (e' = ss.plan.executionPlan.length ∨ opNameAt ss e' = some "YieldOp" ∧ e' ≠ pc)
  | 0, e, h => ⟨e, by
      simp [List.drop_eq_nil_of_le (show ss.plan.executionPlan.length ≤ e by omega), scanWindowEnd],
      Nat.le_refl e, by omega, fun j h1 h2 => by omega, .inl (by omega)⟩
  | n + 1, e, h => by
    have he : e < ss.plan.executionPlan.length := by omega
    obtain ⟨kernel, hkern⟩ := Option.isSome_iff_exists.mp (hk _ (List.getElem_mem he))
    have hop : opNameAt ss e = some kernel.opName := by
      simp [opNameAt, List.getElem?_eq_getElem he, hkern]
    rw [List.drop_eq_getElem_cons he]
    simp only [scanWindowEnd, hkern]
    by_cases hgo : kernel.opName = "YieldOp" ∧ e ≠ pc
    · refine ⟨e, by simp [hgo], Nat.le_refl e, Nat.le_of_lt he, fun j h1 h2 => by omega,
        .inr ⟨by rw [hop, hgo.1], hgo.2⟩⟩
    · obtain ⟨e', hs, h1, h2, h3, h4⟩ := scanWindowEnd_spec ss hk pc n (e + 1) (by omega)
      have hcont : (kernel.opName != "YieldOp" || e == pc) = true := by
        by_cases hy : kernel.opName = "YieldOp" <;> simp_all
      refine ⟨e', by rw [if_pos hcont, hs], by omega, h2, fun j hj1 hj2 => ?_, h4⟩
      rcases Nat.eq_or_lt_of_le hj1 with rfl | hlt
      · by_cases hy : kernel.opName = "YieldOp"
        · exact .inl (by simpa [hy] using hgo)
        · exact .inr (by rw [hop]; simpa using hy)
      · exact h3 j hlt hj2

/-- The window end from cursor c: c itself from the plan end on; otherwise after c, at the first
YieldOp after c or at the plan end. -/
theorem programCounterEnd_spec (ss : SessionState) (hk : KernelsBound ss) (c : Nat) :
    ∃ e, programCounterEnd ss c = some e ∧
      (ss.plan.executionPlan.length ≤ c → e = c) ∧
      (c < ss.plan.executionPlan.length → c < e ∧ e ≤ ss.plan.executionPlan.length ∧
        (∀ j, c < j → j < e → opNameAt ss j ≠ some "YieldOp") ∧
        (e = ss.plan.executionPlan.length ∨ opNameAt ss e = some "YieldOp")) := by
  by_cases hc : ss.plan.executionPlan.length ≤ c
  · exact ⟨c, programCounterEnd_of_le ss hc, fun _ => rfl, fun h => absurd h (by omega)⟩
  · obtain ⟨e, hs, h1, h2, h3, h4⟩ :=
      scanWindowEnd_spec ss hk c (ss.plan.executionPlan.length - c) c (by omega)
    have hce : c < e := by
      rcases h4 with h4 | ⟨-, h4⟩ <;> omega
    exact ⟨e, hs, fun h => absurd h hc, fun _ => ⟨hce, h2,
      fun j hj1 hj2 => (h3 j (by omega) hj2).resolve_left (by omega), h4.imp_right And.left⟩⟩

theorem programCounterEnd_bounds (ss : SessionState) (hk : KernelsBound ss) {c e : Nat}
    (he : programCounterEnd ss c = some e) :
    (ss.plan.executionPlan.length ≤ c → e = c) ∧
    (c < ss.plan.executionPlan.length → c < e ∧ e ≤ ss.plan.executionPlan.length ∧
      (e = ss.plan.executionPlan.length ∨ opNameAt ss e = some "YieldOp")) := by
  obtain ⟨e', he', hpast, hbefore⟩ := programCounterEnd_spec ss hk c
  obtain rfl : e' = e := Option.some.inj (he'.symm.trans he)
  exact ⟨hpast, fun h => ⟨(hbefore h).1, (hbefore h).2.1, (hbefore h).2.2.2⟩⟩

/-- The window of a partial run. From a cursor c at or past the plan end it is empty;
otherwise it ends at the first YieldOp after c, or at the plan end, so it holds at least the
entry at c. Neither the scan, nor the node loop over [c, e), nor the fence-only pass at e reads
past the plan. -/
theorem window_end_spec (ss : SessionState) (hk : KernelsBound ss) (c : Nat) :
    ∃ e, programCounterEnd ss c = some e ∧
      (ss.plan.executionPlan.length ≤ c → e = c) ∧
      (c < ss.plan.executionPlan.length → c < e ∧ e ≤ ss.plan.executionPlan.length ∧
        (∀ j, c < j → j < e → opNameAt ss j ≠ some "YieldOp") ∧
        (e = ss.plan.executionPlan.length ∨ opNameAt ss e = some "YieldOp")) ∧
      (∀ (ex : SequentialExecutor) (env : Env σ O) (values : σ),
        (executeRange ss ex env values c e).halt ≠ some .undefined) ∧
      (e < ss.plan.executionPlan.length ∨
        ∀ (env : Env σ O) (values : σ), waitWindowEnd ss env e values = .ok []) := by
  obtain ⟨e, he, hpast, hbefore⟩ := programCounterEnd_spec ss hk c
  refine ⟨e, he, hpast, hbefore, fun ex env values =>
    (executeRange_stops ss ex env values (programCounterEnd_lt ss he)).ne_undefined, ?_⟩
  rcases Nat.lt_or_ge e ss.plan.executionPlan.length with he | he
  · exact .inl he
  · exact .inr fun _ _ => by simp [waitWindowEnd, List.getElem?_eq_none he]

/-- Five entries, the one at index 2 bound to a YieldOp kernel. -/
def yieldSession : SessionState :=
  ⟨⟨[⟨0, 1, 0⟩, ⟨1, 1, 0⟩, ⟨2, 1, 0⟩, ⟨3, 1, 0⟩, ⟨4, 1, 0⟩], [], fun _ => false, by decide⟩,
    fun n => some ⟨if n = 2 then "YieldOp" else "Relu", 0, kCpuExecutionProvider, fun _ => .default⟩,
    fun _ => ⟨"", "Relu"⟩, false⟩

theorem window_end_spec_yield : ∃ e, programCounterEnd yieldSession 0 = some e ∧ 0 < e := by
  obtain ⟨e, he, -, h, -⟩ := window_end_spec (σ := Unit) (O := Unit) yieldSession (by decide) 0
  exact ⟨e, he, (h (by decide)).1⟩

/-- The scan dereferences the kernel at the cursor before it tests anything else. -/
theorem programCounterEnd_null (ss : SessionState) {pc : Nat}
    (hc : pc < ss.plan.executionPlan.length)
    (hnull : ss.getKernel ss.plan.executionPlan[pc].nodeIndex = none) :
    programCounterEnd ss pc = none := by
  rw [programCounterEnd, List.drop_eq_getElem_cons hc]
  simp [scanWindowEnd, hnull]

/-- One plan entry whose node has no kernel. -/
def unboundSession : SessionState :=
  ⟨⟨[⟨0, 1, 0⟩], [], fun _ => false, by decide⟩, fun _ => none, fun _ => ⟨"n0", "Relu"⟩, false⟩

/-- Collaborators that all succeed, with the terminate flag never set. -/
def quietEnv : Env Unit Unit :=
  ⟨fun _ => false, none, fun _ _ => ⟨[], [], []⟩, fun _ => .status .ok, fun _ v => v,
    fun _ _ => .ok, fun _ v => v,
    fun _ => false, [], fun _ => .ok, .ok, (), id, fun _ v => (.ok (), v)⟩

/-- Sentinels with the values -1 and -2. -/
def sampleRunIds : RunIds :=
  ⟨BitVec.ofInt 64 (-1), BitVec.ofInt 64 (-2), by decide, by decide, by decide⟩

/-- On a plan whose only node has no kernel, a new partial run dereferences the null kernel in
its scan, where the full run returns the FAIL status of the node loop's check. -/
theorem unbound_kernel_partial_run_undefined (ids : RunIds) (ex : SequentialExecutor) :
    (execute ids unboundSession ex quietEnv ⟨fun _ => none, 0⟩ ids.defaultPartialRunId).outcome =
      .undefined ∧
    (execute ids unboundSession ex quietEnv ⟨fun _ => none, 0⟩ ids.defaultRunId).outcome =
      .error (nullKernelStatus "n0") := by
  constructor
  · rw [execute_of_ne_default ids _ _ _ _ ids.distinct.symm, acquireFrame_new ids _ _ rfl]
    simp [executeWindow, programCounterEnd_null unboundSession (show 0 < 1 by decide) rfl]
  · simp [execute_of_default, executeFullRun, executeRange, executeNodes, executeNode, unboundSession,
      quietEnv, skipsNode]

end SequentialExecution.Window
