import Mathlib.Data.List.Chain
import SequentialExecution.FullRun
import SequentialExecution.Lifecycle

namespace SequentialExecution.PartialRun

open SequentialExecution.Common SequentialExecution.Session SequentialExecution.NodeLoop
open SequentialExecution.Execute SequentialExecution.Window SequentialExecution.Lifecycle
open SequentialExecution.Fence SequentialExecution.Trace SequentialExecution.FullRun

variable {σ O : Type} {ss : SessionState} {ex : SequentialExecutor} {env : Env σ O}

/-- The cursor each call leaves its frame at. -/
def cursorsOf (invs : List (Invocation σ O)) : List Nat :=
  invs.filterMap fun inv => inv.frame.map (·.programCounter)

/-- The plan entries from c on, less, when ownership is transferred, each entry one below a
cursor: the YieldOp entries a window stopped at and stepped over. -/
def keptEntries (ss : SessionState) (c : Nat) (cursors : List Nat) : List Nat :=
  (List.range' c (ss.plan.executionPlan.length - c)).filter fun k =>
    !(ss.transferIntermidiateTensorOwnership && cursors.contains (k + 1))

/-- What the calls of a partial run from cursor c do when each succeeds: every call moves a
cursor below the plan size forward, the last one leaves it at or past the plan end, and the
calls together make the Compute and release blocks of the kept entries. -/
structure WindowsCover (ss : SessionState) (c : Nat) (invs : List (Invocation σ O)) : Prop where
  ok : ∀ inv ∈ invs, inv.outcome = .ok
  framed : (cursorsOf invs).length = invs.length
  advances : List.Chain (fun c c' => c < ss.plan.executionPlan.length → c < c') c (cursorsOf invs)
  above : c < ss.plan.executionPlan.length → ∀ c' ∈ cursorsOf invs, c < c'
  length_le : invs.length ≤ ss.plan.executionPlan.length - c + 1
  finishes : ss.plan.executionPlan.length ≤ (cursorsOf invs).getLast?.getD c
  calls : computeReleaseView (invs.flatMap (·.trace)) =
    (keptEntries ss c (cursorsOf invs)).flatMap (computeBlock ss)
  yields : ss.transferIntermidiateTensorOwnership = true → ∀ c' ∈ cursorsOf invs,
    c' ≤ ss.plan.executionPlan.length → opNameAt ss (c' - 1) = some "YieldOp"

theorem keptEntries_of_le {c : Nat} (h : ss.plan.executionPlan.length ≤ c) (cursors : List Nat) :
    keptEntries ss c cursors = [] := by
  simp [keptEntries, Nat.sub_eq_zero_of_le h]

theorem keptEntries_window {c e pc : Nat} {cursors : List Nat} (hce : c ≤ e)
    (hen : e ≤ ss.plan.executionPlan.length ∨ e = c)
    (hpc : pc = if ss.transferIntermidiateTensorOwnership then e + 1 else e)
    (habove : ∀ c' ∈ cursors, pc < c') :
    keptEntries ss c (pc :: cursors) = List.range' c (e - c) ++ keptEntries ss pc cursors := by
  have hsplit : List.range' c (ss.plan.executionPlan.length - c) =
      List.range' c (e - c) ++ List.range' e (ss.plan.executionPlan.length - e) := by
    rcases hen with hen | rfl
    · have h := List.range'_append_1 c (e - c) (ss.plan.executionPlan.length - e)
      rw [Nat.add_sub_cancel' hce,
        show ss.plan.executionPlan.length - e + (e - c) = ss.plan.executionPlan.length - c by omega] at h
      exact h.symm
    · simp
  rw [keptEntries, hsplit, List.filter_append]
  congr 1
  · refine List.filter_eq_self.mpr fun k hk => ?_
    rw [List.mem_range'_1] at hk
    cases ht : ss.transferIntermidiateTensorOwnership
    · rfl
    · rw [ht, if_pos rfl] at hpc
      have hnot : k + 1 ∉ pc :: cursors := by
        simp only [List.mem_cons, not_or]
        exact ⟨by omega, fun h => by have := habove _ h; omega⟩
      simp [hnot]
  · cases ht : ss.transferIntermidiateTensorOwnership
    · rw [ht, if_neg Bool.false_ne_true] at hpc
      simp [keptEntries, hpc, ht]
    · rw [ht, if_pos rfl] at hpc
      subst hpc
      rcases Nat.lt_or_ge e ss.plan.executionPlan.length with hlt | hge
      · rw [show ss.plan.executionPlan.length - e = ss.plan.executionPlan.length - (e + 1) + 1 by
          omega, List.range'_succ, List.filter_cons]
        simp only [keptEntries, ht, Bool.true_and, List.contains_cons, beq_self_eq_true,
          Bool.true_or, Bool.not_true, Bool.false_eq_true, ite_false]
        refine List.filter_congr fun k hk => ?_
        rw [List.mem_range'_1] at hk
        have hne : (k + 1 == e + 1) = false := by simp only [beq_eq_false_iff_ne]; omega
        simp only [List.contains_cons, hne, Bool.false_or]
      · rw [keptEntries_of_le (by omega), Nat.sub_eq_zero_of_le hge]
        rfl

theorem WindowsCover.nil {c : Nat} (h : ss.plan.executionPlan.length ≤ c) :
    WindowsCover (σ := σ) (O := O) ss c [] :=
  ⟨(fun _ h => nomatch h), rfl, .nil, (fun h' => absurd h (by omega)), by simp, h,
    by rw [keptEntries_of_le h]; rfl, (fun _ _ h => nomatch h)⟩

theorem WindowsCover.step (hk : KernelsBound ss) {c e pc : Nat} {inv : Invocation σ O}
    {rest : List (Invocation σ O)} {values : σ} (he : programCounterEnd ss c = some e)
    (hpc : pc = if ss.transferIntermidiateTensorOwnership then e + 1 else e)
    (hok : inv.outcome = .ok) (hframe : inv.frame = some ⟨pc, values⟩)
    (hview : computeReleaseView inv.trace = (List.range' c (e - c)).flatMap (computeBlock ss))
    (hrest : WindowsCover ss pc rest) (hstop : ss.plan.executionPlan.length ≤ pc → rest = []) :
    WindowsCover ss c (inv :: rest) := by
  obtain ⟨hpast, hbefore⟩ := programCounterEnd_bounds ss hk he
  have hcur : cursorsOf (inv :: rest) = pc :: cursorsOf rest := by simp [cursorsOf, hframe]
  have hepc : e ≤ pc := by split at hpc <;> omega
  have hce : c ≤ e := programCounterEnd_ge ss he
  have hcpc : c < ss.plan.executionPlan.length → c < pc := fun h =>
    Nat.lt_of_lt_of_le (hbefore h).1 hepc
  have habove : ∀ c' ∈ cursorsOf rest, pc < c' := fun c' h' => by
    by_cases hp : pc < ss.plan.executionPlan.length
    · exact hrest.above hp c' h'
    · simp [hstop (by omega), cursorsOf] at h'
  have hlen : rest.length ≤ ss.plan.executionPlan.length - c := by
    by_cases hp : pc < ss.plan.executionPlan.length
    · have := hrest.length_le
      have := hcpc (by omega)
      omega
    · simp [hstop (by omega)]
  refine ⟨?_, ?_, ?_, ?_, ?_, ?_, ?_, ?_⟩
  · intro i hi
    rcases List.mem_cons.mp hi with rfl | hi
    exacts [hok, hrest.ok i hi]
  · simp [hcur, hrest.framed]
  · rw [hcur]
    exact .cons hcpc hrest.advances
  · intro hc c' hc'
    rw [hcur] at hc'
    rcases List.mem_cons.mp hc' with rfl | h
    exacts [hcpc hc, Nat.lt_trans (hcpc hc) (habove c' h)]
  · simp only [List.length_cons]
    omega
  · rw [hcur, List.getLast?_cons, Option.getD_some]
    exact hrest.finishes
  · rw [List.flatMap_cons, computeReleaseView_append, hview, hrest.calls, hcur,
      keptEntries_window hce ?_ hpc habove, List.flatMap_append]
    by_cases hc : c < ss.plan.executionPlan.length
    · exact .inl (hbefore hc).2.1
    · exact .inr (hpast (by omega))
  · intro ht c' hc' hle
    rw [hcur] at hc'
    rcases List.mem_cons.mp hc' with rfl | h
    · rw [ht, if_pos rfl] at hpc
      subst hpc
      have hc : c < ss.plan.executionPlan.length := by
        by_contra hc
        have := hpast (by omega)
        omega
      rcases (hbefore hc).2.2 with h | h
      · omega
      · simpa using h
    · exact hrest.yields ht c' h hle

end SequentialExecution.PartialRun
