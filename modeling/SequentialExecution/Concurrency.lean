import SequentialExecution.Lifecycle

namespace SequentialExecution.Concurrency

open SequentialExecution.Common SequentialExecution.Session SequentialExecution.NodeLoop
open SequentialExecution.Execute SequentialExecution.Window SequentialExecution.Lifecycle

variable {σ O : Type}

/-- What a call hands back to its caller, the run_id and the registry aside. -/
structure Returned (σ O : Type) where
  outcome : Outcome
  trace : List Event
  frame : Option (ExecutionFrame σ)
  fetches : Option O

def returnedOf (inv : Invocation σ O) : Returned σ O :=
  ⟨inv.outcome, inv.trace, inv.frame, inv.fetches⟩

/-- A thread calling Execute: the environments of the calls it has still to make, its run_id
variable, the frame the partial call in progress obtained, and what its finished calls
returned. -/
structure Client (σ O : Type) where
  envs : List (Env σ O)
  runId : BitVec 64
  acquired : Option (ExecutionFrame σ)
  returned : List (Returned σ O)

/-- One atomic step of a client on the shared registry: a whole full run, on its local frame;
the locked insert or the find that starts a partial call; or the window of the call in
progress on the frame it obtained, with the locked erase at its end. -/
def clientStep (ids : RunIds) (ss : SessionState) (ex : SequentialExecutor) (runs : GraphRuns σ)
    (c : Client σ O) : GraphRuns σ × Client σ O :=
  match c.envs, c.acquired with
  | [], _ => (runs, c)
  | env :: envs, none =>
    if c.runId = ids.defaultRunId then
      (runs, { c with
        envs := envs
        returned := c.returned ++ [returnedOf (executeFullRun (executeRange ss ex env) ss env runs c.runId)] })
    else
      match acquireFrame ids env runs c.runId with
      | .inl inv =>
        (inv.runs, { c with
          envs := envs
          runId := inv.runId
          returned := c.returned ++ [returnedOf inv] })
      | .inr (runs, key, frame) => (runs, { c with runId := key, acquired := some frame })
  | env :: envs, some frame =>
    let inv := executeWindow (executeRange ss ex env) ss env runs c.runId frame
    (inv.runs, { c with
      envs := envs
      runId := inv.runId
      acquired := none
      returned := c.returned ++ [returnedOf inv] })

structure System (σ O : Type) where
  runs : GraphRuns σ
  clients : Nat → Client σ O

def System.step (ids : RunIds) (ss : SessionState) (ex : SequentialExecutor) (s : System σ O)
    (i : Nat) : System σ O :=
  ⟨(clientStep ids ss ex s.runs (s.clients i)).1,
    Function.update s.clients i (clientStep ids ss ex s.runs (s.clients i)).2⟩

/-- The steps of the clients in the order a schedule of client indices gives. -/
def System.run (ids : RunIds) (ss : SessionState) (ex : SequentialExecutor) (s : System σ O)
    (schedule : List Nat) : System σ O :=
  schedule.foldl (System.step ids ss ex) s

/-- n steps of one client alone on a registry. -/
def soloRun (ids : RunIds) (ss : SessionState) (ex : SequentialExecutor) :
    Nat → GraphRuns σ × Client σ O → GraphRuns σ × Client σ O
  | 0, rc => rc
  | n + 1, rc => soloRun ids ss ex n (clientStep ids ss ex rc.1 rc.2)

theorem executeFullRun_returned (ss : SessionState) (ex : SequentialExecutor) (env : Env σ O)
    (runs runs' : GraphRuns σ) (runId runId' : BitVec 64) :
    returnedOf (executeFullRun (executeRange ss ex env) ss env runs runId) =
      returnedOf (executeFullRun (executeRange ss ex env) ss env runs' runId') := by
  simp only [executeFullRun]
  split
  · rfl
  · split <;> rfl

theorem executeWindow_local (ss : SessionState) (ex : SequentialExecutor) (env : Env σ O)
    (runs runs' : GraphRuns σ) (key key' : BitVec 64) (frame : ExecutionFrame σ) :
    returnedOf (executeWindow (executeRange ss ex env) ss env runs key frame) =
      returnedOf (executeWindow (executeRange ss ex env) ss env runs' key' frame) ∧
    (executeWindow (executeRange ss ex env) ss env runs key frame).runId = key ∧
    (runs.graphRuns key = runs'.graphRuns key' →
      (executeWindow (executeRange ss ex env) ss env runs key frame).runs.graphRuns key =
        (executeWindow (executeRange ss ex env) ss env runs' key' frame).runs.graphRuns key') := by
  simp only [executeWindow]
  split
  · exact ⟨rfl, rfl, id⟩
  split
  · exact ⟨rfl, rfl, by simp⟩
  split
  · exact ⟨rfl, rfl, by simp⟩
  split
  · exact ⟨rfl, rfl, by simp⟩
  · exact ⟨rfl, rfl, fun _ => by split_ifs <;> simp⟩

/-- The registry as one client sees it: the counter is non-negative, every key from the counter
on is free, and the client's run_id lies below the counter. -/
structure Fresh (R : GraphRuns σ) (c : Client σ O) : Prop where
  counter_nonneg : 0 ≤ R.graphRunsCounter.toInt
  above_free : ∀ k : BitVec 64, R.graphRunsCounter.toInt ≤ k.toInt → R.graphRuns k = none
  runId_below : c.runId.toInt < R.graphRunsCounter.toInt

theorem Fresh.of_runId {R : GraphRuns σ} {g g' : Client σ O} (hF : Fresh R g)
    (h : g'.runId = g.runId) : Fresh R g' :=
  ⟨hF.counter_nonneg, hF.above_free, h ▸ hF.runId_below⟩

theorem Fresh.keysBelow {R : GraphRuns σ} {g : Client σ O} (hF : Fresh R g) : KeysBelow R :=
  ⟨hF.counter_nonneg, hF.above_free⟩

theorem Fresh.runId_ne_counter {R : GraphRuns σ} {g : Client σ O} (hF : Fresh R g) :
    g.runId ≠ R.graphRunsCounter := fun he => Int.lt_irrefl _ (he ▸ hF.runId_below)

theorem clientStep_fresh (ids : RunIds) (ss : SessionState) (ex : SequentialExecutor)
    {R : GraphRuns σ} {g : Client σ O} (hF : Fresh R g)
    (hroom : R.graphRunsCounter.toInt < 9223372036854775807) :
    Fresh (clientStep ids ss ex R g).1 (clientStep ids ss ex R g).2 ∧
    (∀ k, k ≠ g.runId → k ≠ R.graphRunsCounter →
      (clientStep ids ss ex R g).1.graphRuns k = R.graphRuns k) ∧
    ((clientStep ids ss ex R g).1.graphRunsCounter = R.graphRunsCounter ∧
        (clientStep ids ss ex R g).2.runId = g.runId ∨
      (clientStep ids ss ex R g).1.graphRunsCounter.toInt = R.graphRunsCounter.toInt + 1 ∧
        (clientStep ids ss ex R g).2.runId = R.graphRunsCounter) := by
  have hK : KeysBelow R := hF.keysBelow
  rcases g with ⟨_ | ⟨env, envs⟩, runId, _ | frame, returned⟩
  · exact ⟨hF, fun _ _ _ => rfl, .inl ⟨rfl, rfl⟩⟩
  · exact ⟨hF, fun _ _ _ => rfl, .inl ⟨rfl, rfl⟩⟩
  · simp only [clientStep]
    split
    · exact ⟨hF.of_runId rfl, fun _ _ _ => rfl, .inl ⟨rfl, rfl⟩⟩
    split
    · rename_i inv hacq
      obtain ⟨hruns, hid⟩ := acquireFrame_inl_fresh (hF.above_free _ (Int.le_refl _)) hacq
      rw [hruns]
      exact ⟨hF.of_runId hid, fun _ _ _ => rfl, .inl ⟨rfl, hid⟩⟩
    · rename_i runs₁ key frame hacq
      obtain ⟨hK₁, hkey, -⟩ := acquireFrame_keysBelow hK hroom hacq
      refine ⟨⟨hK₁.counter_nonneg, hK₁.above_free, hkey⟩, ?_⟩
      obtain ⟨hnew, hres⟩ := acquireFrame_inr hacq
      by_cases hp : runId = ids.defaultPartialRunId
      · obtain ⟨rfl, rfl, -, rfl⟩ := hnew hp
        exact ⟨fun k _ hk => GraphRuns.store_other _ _ hk,
          .inr ⟨toInt_add_one hF.counter_nonneg hroom, rfl⟩⟩
      · obtain ⟨rfl, -, registered, -, rfl, rfl⟩ := hres hp
        exact ⟨fun k hk _ => GraphRuns.store_other _ _ hk, .inl ⟨rfl, rfl⟩⟩
  · obtain ⟨-, hid, -⟩ := executeWindow_local ss ex env R R runId runId frame
    obtain ⟨-, hother⟩ := executeWindow_frame ss ex env R runId frame
    obtain ⟨hK₁, hcount⟩ := executeWindow_keysBelow ss ex env frame hK hF.runId_below
    simp only [clientStep]
    exact ⟨⟨hK₁.counter_nonneg, hK₁.above_free, by rw [hid, hcount]; exact hF.runId_below⟩,
      fun k hk _ => hother k hk, .inl ⟨hcount, hid⟩⟩

/-- A client in the shared registry mirrors the same client in its own registry: the same calls
left, the same frame in hand and the same results; its run_id is the same negative value, or
both run_ids are keys whose slots hold the same frame. -/
structure Mirrors (R : GraphRuns σ) (g : Client σ O) (r : GraphRuns σ) (c : Client σ O) :
    Prop where
  envs : g.envs = c.envs
  acquired : g.acquired = c.acquired
  returned : g.returned = c.returned
  runId : g.runId = c.runId ∧ c.runId.toInt < 0 ∨
    0 ≤ g.runId.toInt ∧ 0 ≤ c.runId.toInt ∧ R.graphRuns g.runId = r.graphRuns c.runId

theorem clientStep_mirrors (ids : RunIds) (ss : SessionState) (ex : SequentialExecutor)
    {R r : GraphRuns σ} {g c : Client σ O} (hm : Mirrors R g r c) (hF : Fresh R g)
    (hf : Fresh r c) :
    Mirrors (clientStep ids ss ex R g).1 (clientStep ids ss ex R g).2
      (clientStep ids ss ex r c).1 (clientStep ids ss ex r c).2 := by
  obtain ⟨henvs, hacq, hret, hid⟩ := hm
  rcases g with ⟨envs, gid, acq, ret⟩
  rcases c with ⟨envs', cid, acq', ret'⟩
  dsimp only at henvs hacq hret hid
  subst henvs hacq hret
  rcases envs with _ | ⟨env, envs⟩
  · exact ⟨rfl, rfl, rfl, hid⟩
  rcases acq with _ | frame
  · simp only [clientStep]
    rcases hid with ⟨rfl, hneg⟩ | ⟨hg, hc, hslot⟩
    · by_cases hfull : gid = ids.defaultRunId
      · simp only [if_pos hfull]
        exact ⟨rfl, rfl, by rw [executeFullRun_returned ss ex env R r gid gid], .inl ⟨rfl, hneg⟩⟩
      simp only [if_neg hfull]
      by_cases hp : gid = ids.defaultPartialRunId
      · rw [hp, acquireFrame_new ids env R (hF.above_free _ (Int.le_refl _)),
          acquireFrame_new ids env r (hf.above_free _ (Int.le_refl _))]
        exact ⟨rfl, rfl, rfl, .inr ⟨hF.counter_nonneg, hf.counter_nonneg, by simp⟩⟩
      · rw [acquireFrame_refused ids env R hp hneg, acquireFrame_refused ids env r hp hneg]
        exact ⟨rfl, rfl, rfl, .inl ⟨rfl, hneg⟩⟩
    · obtain ⟨hgd, hgp⟩ := ids.ne_of_nonneg hg
      obtain ⟨hcd, hcp⟩ := ids.ne_of_nonneg hc
      simp only [if_neg hgd, if_neg hcd]
      cases hv : r.graphRuns cid with
      | none =>
        rw [acquireFrame_missing ids env R hgp hg (hslot.trans hv),
          acquireFrame_missing ids env r hcp hc hv]
        exact ⟨rfl, rfl, rfl, .inr ⟨hg, hc, hslot⟩⟩
      | some registered =>
        rw [acquireFrame_resume ids env R hgp hg (hslot.trans hv),
          acquireFrame_resume ids env r hcp hc hv]
        exact ⟨rfl, rfl, rfl, .inr ⟨hg, hc, by simp⟩⟩
  · obtain ⟨hret, hgid, hgslot⟩ := executeWindow_local ss ex env R r gid cid frame
    obtain ⟨-, hcid, -⟩ := executeWindow_local ss ex env r r cid cid frame
    simp only [clientStep]
    refine ⟨rfl, rfl, by rw [hret], ?_⟩
    rw [hgid, hcid]
    rcases hid with h | ⟨hg, hc, hslot⟩
    · exact .inl h
    · exact .inr ⟨hg, hc, hgslot hslot⟩

/-- A call whose two steps follow each other with no other client in between is one Execute. -/
theorem clientStep_call (ids : RunIds) (ss : SessionState) (ex : SequentialExecutor)
    (runs : GraphRuns σ) (c : Client σ O) {env : Env σ O} {envs : List (Env σ O)}
    (henvs : c.envs = env :: envs) (hacq : c.acquired = none) :
    (if (clientStep ids ss ex runs c).2.acquired.isSome then
        clientStep ids ss ex (clientStep ids ss ex runs c).1 (clientStep ids ss ex runs c).2
      else clientStep ids ss ex runs c) =
      ((execute ids ss ex env runs c.runId).runs, { c with
        envs := envs
        runId := (execute ids ss ex env runs c.runId).runId
        returned := c.returned ++ [returnedOf (execute ids ss ex env runs c.runId)] }) := by
  rcases c with ⟨envs', runId, acq, returned⟩
  dsimp only at henvs hacq
  subst henvs hacq
  simp only [clientStep]
  by_cases hd : runId = ids.defaultRunId
  · have hfull : execute ids ss ex env runs runId = executeFullRun (executeRange ss ex env) ss env runs runId := if_pos hd
    simp only [if_pos hd, hfull, executeFullRun_runs, executeFullRun_runId]
    rfl
  · simp only [if_neg hd, execute_of_ne_default ids ss ex env runs hd]
    rcases acquireFrame ids env runs runId with inv | ⟨runs₁, key, frame⟩
    · rfl
    · rfl

/-- The shared registry against each client's own registry: every client mirrors its solo run
and is fresh in both registries, and no two clients hold the same key. -/
structure Isolated (s : System σ O) (solo : Nat → GraphRuns σ × Client σ O) : Prop where
  mirrors : ∀ i, Mirrors s.runs (s.clients i) (solo i).1 (solo i).2
  fresh : ∀ i, Fresh s.runs (s.clients i)
  soloFresh : ∀ i, Fresh (solo i).1 (solo i).2
  distinct : ∀ i j, i ≠ j → 0 ≤ (s.clients i).runId.toInt →
    (s.clients i).runId ≠ (s.clients j).runId

theorem counter_le_of_step {R R' : GraphRuns σ} {g g' : Client σ O}
    (h : R'.graphRunsCounter = R.graphRunsCounter ∧ g'.runId = g.runId ∨
      R'.graphRunsCounter.toInt = R.graphRunsCounter.toInt + 1 ∧ g'.runId = R.graphRunsCounter) :
    R.graphRunsCounter.toInt ≤ R'.graphRunsCounter.toInt ∧
      R'.graphRunsCounter.toInt ≤ R.graphRunsCounter.toInt + 1 := by
  rcases h with ⟨h, -⟩ | ⟨h, -⟩ <;> rw [h] <;> omega

theorem Isolated.step (ids : RunIds) (ss : SessionState) (ex : SequentialExecutor)
    {s : System σ O} {solo : Nat → GraphRuns σ × Client σ O} (h : Isolated s solo) (j : Nat)
    (hroom : s.runs.graphRunsCounter.toInt < 9223372036854775807)
    (hsroom : (solo j).1.graphRunsCounter.toInt < 9223372036854775807) :
    Isolated (s.step ids ss ex j)
      (Function.update solo j (clientStep ids ss ex (solo j).1 (solo j).2)) := by
  obtain ⟨hF, hframe, hcount⟩ := clientStep_fresh ids ss ex (h.fresh j) hroom
  have hle := (counter_le_of_step hcount).1
  have hm := clientStep_mirrors ids ss ex (h.mirrors j) (h.fresh j) (h.soloFresh j)
  have hsF := (clientStep_fresh ids ss ex (h.soloFresh j) hsroom).1
  have hkey : ∀ i, i ≠ j → 0 ≤ (s.clients i).runId.toInt →
      (s.step ids ss ex j).runs.graphRuns (s.clients i).runId =
        s.runs.graphRuns (s.clients i).runId := fun i hij hnn =>
    hframe _ (h.distinct i j hij hnn) (h.fresh i).runId_ne_counter
  have hdiff : ∀ i, i ≠ j → (0 ≤ (s.clients i).runId.toInt ∨
      0 ≤ (clientStep ids ss ex s.runs (s.clients j)).2.runId.toInt) →
      (s.clients i).runId ≠ (clientStep ids ss ex s.runs (s.clients j)).2.runId := by
    intro i hij hnn
    rcases hcount with ⟨-, hid⟩ | ⟨-, hid⟩ <;> rw [hid] at hnn ⊢
    · exact hnn.elim (h.distinct i j hij) fun hnn => (h.distinct j i (Ne.symm hij) hnn).symm
    · exact (h.fresh i).runId_ne_counter
  refine ⟨fun i => ?_, fun i => ?_, fun i => ?_, fun i i' hii' hnn => ?_⟩
  · by_cases hij : i = j
    · subst hij
      simpa [System.step] using hm
    · obtain ⟨he, ha, hr, hid⟩ := h.mirrors i
      simp only [System.step, Function.update_noteq hij]
      exact ⟨he, ha, hr, hid.imp_right fun ⟨hg, hc, hslot⟩ => ⟨hg, hc, (hkey i hij hg).trans hslot⟩⟩
  · by_cases hij : i = j
    · subst hij
      simpa [System.step] using hF
    · simp only [System.step, Function.update_noteq hij]
      exact ⟨hF.counter_nonneg, hF.above_free, by have := (h.fresh i).runId_below; omega⟩
  · by_cases hij : i = j
    · subst hij
      simpa using hsF
    · simpa [Function.update_noteq hij] using h.soloFresh i
  · by_cases hij : i = j
    · subst hij
      simp only [System.step, Function.update_same, Function.update_noteq (Ne.symm hii')] at hnn ⊢
      exact (hdiff i' (Ne.symm hii') (.inr hnn)).symm
    · by_cases hi'j : i' = j
      · subst hi'j
        simp only [System.step, Function.update_same, Function.update_noteq hij] at hnn ⊢
        exact hdiff i hij (.inl hnn)
      · simp only [System.step, Function.update_noteq hij, Function.update_noteq hi'j] at hnn ⊢
        exact h.distinct i i' hii' hnn

/-- Over a schedule that leaves room in every counter, the shared registry and the clients'
solo runs, each advanced by that client's share of the schedule, stay isolated. -/
theorem Isolated.run (ids : RunIds) (ss : SessionState) (ex : SequentialExecutor) :
    ∀ (schedule : List Nat) (s : System σ O) (solo : Nat → GraphRuns σ × Client σ O),
      Isolated s solo →
      s.runs.graphRunsCounter.toInt + schedule.length < 9223372036854775807 →
      (∀ i, (solo i).1.graphRunsCounter.toInt + schedule.length < 9223372036854775807) →
      Isolated (s.run ids ss ex schedule) fun i => soloRun ids ss ex (schedule.count i) (solo i)
  | [], _, _, h, _, _ => h
  | j :: rest, s, solo, h, hroom, hsroom => by
    simp only [List.length_cons] at hroom hsroom
    have hsj := hsroom j
    have hle := counter_le_of_step (clientStep_fresh ids ss ex (h.fresh j) (by omega)).2.2
    have hsle := counter_le_of_step (clientStep_fresh ids ss ex (h.soloFresh j) (by omega)).2.2
    have ih := Isolated.run ids ss ex rest _ _ (h.step ids ss ex j (by omega) (by omega))
      (by simp only [System.step]; omega) fun i => by
        by_cases hij : i = j
        · subst hij
          simp only [Function.update_same]
          omega
        · rw [Function.update_noteq hij]
          have := hsroom i
          omega
    have hsolo : (fun i => soloRun ids ss ex (rest.count i)
        (Function.update solo j (clientStep ids ss ex (solo j).1 (solo j).2) i)) =
        fun i => soloRun ids ss ex ((j :: rest).count i) (solo i) := by
      funext i
      by_cases hij : i = j
      · subst hij
        simp [soloRun]
      · simp [Function.update_noteq hij, List.count_cons_of_ne hij]
    rw [← hsolo]
    exact ih

/-- Clients calling Execute on one session, their steps interleaved in any order. Each client's
calls left, frame in hand and results (outcome, Compute, release and fence calls, frame with
its cursor, fetches) are those it has after its own steps alone on the registry it started
from; the interleaving changes at most which key a new run receives. It takes run_ids below a
non-negative counter, distinct where they are keys, every key from the counter on free, and no
counter overflow. -/
theorem interleaved_runs_isolated (ids : RunIds) (ss : SessionState) (ex : SequentialExecutor)
    (s : System σ O) (schedule : List Nat)
    (hnn : 0 ≤ s.runs.graphRunsCounter.toInt)
    (hroom : s.runs.graphRunsCounter.toInt + schedule.length < 9223372036854775807)
    (hfree : ∀ k : BitVec 64, s.runs.graphRunsCounter.toInt ≤ k.toInt → s.runs.graphRuns k = none)
    (hbelow : ∀ i, (s.clients i).runId.toInt < s.runs.graphRunsCounter.toInt)
    (hdistinct : ∀ i j, i ≠ j → 0 ≤ (s.clients i).runId.toInt →
      (s.clients i).runId ≠ (s.clients j).runId) (i : Nat) :
    let g := (s.run ids ss ex schedule).clients i
    let c := (soloRun ids ss ex (schedule.count i) (s.runs, s.clients i)).2
    g.envs = c.envs ∧ g.acquired = c.acquired ∧ g.returned = c.returned ∧
      (g.runId = c.runId ∨ 0 ≤ g.runId.toInt ∧ 0 ≤ c.runId.toInt) := by
  have hstart : Isolated s fun i => (s.runs, s.clients i) := by
    refine ⟨fun i => ⟨rfl, rfl, rfl, ?_⟩, fun i => ⟨hnn, hfree, hbelow i⟩,
      fun i => ⟨hnn, hfree, hbelow i⟩, hdistinct⟩
    by_cases hneg : (s.clients i).runId.toInt < 0
    · exact .inl ⟨rfl, hneg⟩
    · exact .inr ⟨Int.not_lt.mp hneg, Int.not_lt.mp hneg, rfl⟩
  obtain ⟨he, ha, hr, hid⟩ :=
    (hstart.run ids ss ex schedule s _ hroom fun _ => hroom).mirrors i
  exact ⟨he, ha, hr, hid.imp And.left fun h => ⟨h.1, h.2.1⟩⟩

/-- Every client makes the same partial run of two calls. -/
def twoClients : System Unit Unit :=
  ⟨⟨fun _ => none, 0⟩, fun _ => ⟨[quietEnv, quietEnv], sampleRunIds.defaultPartialRunId, none, []⟩⟩

theorem two_clients_isolated :
    ((twoClients.run sampleRunIds yieldSession ⟨false⟩ [0, 1, 1, 0]).clients 0).returned =
      (soloRun sampleRunIds yieldSession ⟨false⟩ 2 (twoClients.runs, twoClients.clients 0)).2.returned :=
  (interleaved_runs_isolated sampleRunIds yieldSession ⟨false⟩ twoClients [0, 1, 1, 0]
    (by decide) (by decide) (fun _ _ => rfl)
    (fun _ => (by decide : sampleRunIds.defaultPartialRunId.toInt < (0 : BitVec 64).toInt))
    (fun _ _ _ h => absurd h (by decide : ¬0 ≤ sampleRunIds.defaultPartialRunId.toInt)) 0).2.2.1

end SequentialExecution.Concurrency
