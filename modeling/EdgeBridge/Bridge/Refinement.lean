import EdgeBridge.Bridge.Runs

/-!
# The threads refine the atomic transactions

Seen through its database and the batch in the hands of the worker, every run of
the threads is a run of atomic transactions, with the same completions.
-/

namespace EdgeBridge

open Foundation

/-- The claimed records that the worker has neither settled nor dropped. -/
def WorkerState.held : WorkerState → List Nat
  | .idle => []
  | .claiming => []
  | .batch records => records.map MessageRecord.id
  | .processing _ _ (.publishing _) rest => rest.map MessageRecord.id
  | .processing record _ _ rest => record.id :: rest.map MessageRecord.id

def Bridge.ledger (s : Bridge) : Ledger := ⟨s.wal.data, s.worker.held⟩

/-! ## Resuming -/

@[simp] theorem resume_wal (s : Bridge) (thread : Thread)
    (result : Except PyError Answer) : (s.resume thread result).wal = s.wal := by
  cases thread <;> cases result <;> rfl

@[simp] theorem resume_config (s : Bridge) (thread : Thread)
    (result : Except PyError Answer) : (s.resume thread result).config = s.config := by
  cases thread <;> cases result <;> rfl

@[simp] theorem resume_stopping (s : Bridge) (thread : Thread)
    (result : Except PyError Answer) : (s.resume thread result).stopping = s.stopping := by
  cases thread <;> cases result <;> rfl

theorem resume_worker_of_ne (s : Bridge) {thread : Thread}
    (result : Except PyError Answer) (h : thread ≠ .worker) :
    (s.resume thread result).worker = s.worker := by
  cases thread with
  | worker => exact absurd rfl h
  | watchdog | mqtt | lifecycle | api => cases result <;> rfl

theorem resume_mqtt_of_ne (s : Bridge) {thread : Thread}
    (result : Except PyError Answer) (h : thread ≠ .mqtt) :
    (s.resume thread result).mqtt = s.mqtt := by
  cases thread with
  | mqtt => exact absurd rfl h
  | worker | watchdog | lifecycle | api => cases result <;> rfl

/-- The three transactions of the worker, with the state they run in. -/
inductive WorkerJob (s : Bridge) : Job → Prop
  | claiming : s.worker = .claiming →
      WorkerJob s (.claim s.config.batchSize s.config.maxRetries)
  | failing (record : MessageRecord) (lastAttemptAt : Text) (failure : Failure)
      (rest : List MessageRecord) :
      s.worker = .processing record lastAttemptAt (.failing failure) rest →
      WorkerJob s (.fail record.id failure)
  | completing (record : MessageRecord) (lastAttemptAt : Text)
      (acknowledged : Acknowledged) (completedAt : Text) (rest : List MessageRecord) :
      s.worker = .processing record lastAttemptAt
        (.completing acknowledged completedAt) rest →
      WorkerJob s (.complete record.id (acknowledged.arguments s.config completedAt))

theorem workerJob_of_job {s : Bridge} {job : Job} (h : s.job .worker = some job) :
    WorkerJob s job := by
  simp only [Bridge.job] at h
  split at h
  · next hworker =>
    cases h
    exact .claiming hworker
  · next record lastAttemptAt stage rest hworker =>
    unfold RecordStage.job at h
    split at h
    · next failure =>
      cases h
      exact .failing record lastAttemptAt failure rest hworker
    · next acknowledged completedAt =>
      cases h
      exact .completing record lastAttemptAt acknowledged completedAt rest hworker
    · cases h
  · cases h

/-- The jobs that only the worker runs. -/
def Job.ofWorker : Job → Bool
  | .claim _ _ => true
  | .complete _ _ => true
  | .fail _ _ => true
  | _ => false

theorem Job.spares_of_other {job : Job} (h : job.ofWorker = false) :
    (∀ held, Ledger.allowed held job = true) ∧
      (∀ held answer, Ledger.heldAfter held job answer = held) ∧
      (∀ id arguments, job ≠ .complete id arguments) ∧
      (∀ id failure, job ≠ .fail id failure) ∧
      ∀ batchSize maxRetries, job ≠ .claim batchSize maxRetries := by
  cases job with
  | claim batchSize maxRetries => cases h
  | complete id arguments => cases h
  | fail id failure => cases h
  | _ =>
      refine ⟨fun _ => rfl, fun _ _ => rfl, ?_, ?_, ?_⟩
      · intro _ _ hjob
        cases hjob
      · intro _ _ hjob
        cases hjob
      · intro _ _ hjob
        cases hjob

/-- The jobs of the other threads leave the batch of the worker alone. -/
theorem job_of_ne_worker {s : Bridge} {thread : Thread} {job : Job}
    (hthread : thread ≠ .worker) (h : s.job thread = some job) :
    (∀ held, Ledger.allowed held job = true) ∧
      (∀ held answer, Ledger.heldAfter held job answer = held) ∧
      (∀ id arguments, job ≠ .complete id arguments) ∧
      (∀ id failure, job ≠ .fail id failure) ∧
      ∀ batchSize maxRetries, job ≠ .claim batchSize maxRetries := by
  apply Job.spares_of_other
  cases thread with
  | worker => exact absurd rfl hthread
  | watchdog =>
      simp only [Bridge.job] at h
      split at h
      · cases h
        rfl
      · cases h
  | mqtt =>
      simp only [Bridge.job] at h
      split at h
      · cases h
        rfl
      · cases h
        rfl
      · cases h
  | lifecycle =>
      simp only [Bridge.job] at h
      split at h
      · cases h
        rfl
      · cases h
        rfl
      · cases h
  | api =>
      simp only [Bridge.job, Option.map_eq_some_iff] at h
      rcases h with ⟨write, -, rfl⟩
      rfl

/-! ## One writer at a time -/

theorem walConsistent_step {platform : Platform} {s t : Bridge} {label : Label}
    (h : s.wal.Consistent) (hstep : s.step platform label = some t) : t.wal.Consistent := by
  cases Bridge.step_move hstep with
  | began thread now job hjob hidle hearly hreads => exact h.read hidle
  | answered thread now job result hjob hidle hearly =>
      rw [resume_wal]
      exact h
  | locked thread job wal hjob hreads hgranted => exact h.lock hgranted
  | refused thread job version snapshot hjob hreading hrefused =>
      rw [resume_wal]
      exact h.close thread
  | gaveUp thread job hjob hidle hreads =>
      rw [resume_wal]
      exact h
  | committed thread now job answer db hjob hwriting hrun =>
      rw [resume_wal]
      cases answer.wrote with
      | true => exact h.commit db hwriting
      | false => exact h.close thread
  | failed thread now job error hjob hwriting hrun =>
      rw [resume_wal]
      exact h.close thread
  | restarted config => exact Wal.consistent_start s.wal.data
  | _ => exact h

theorem bridge_walConsistent {platform : Platform} {config : Config} {s : Bridge}
    (h : (bridgeSystem platform config).Reachable s) : s.wal.Consistent :=
  (bridgeSystem platform config).reachable_invariant (Wal.consistent_start Database.empty)
    (fun _ _ _ hm hstep => walConsistent_step hm hstep) h

/-! ## The simulation -/

def BridgeEvent.completion : BridgeEvent → Option Completed
  | .completed event => some event
  | _ => none

/-- The atomic steps that match a step of the threads. -/
def Bridge.ledgerOps (platform : Platform) (s : Bridge) : Label → List LedgerOp
  | .commit thread now =>
      match s.job thread with
      | none => []
      | some job =>
          match job.run platform now s.wal.data with
          | .ok (answer, _) => if answer.wrote then [.run job now] else []
          | .error _ => if thread = .worker then [.drop] else []
  | label =>
      match s.step platform label with
      | none => []
      | some t => if t.worker.held = s.worker.held then [] else [.drop]

theorem workerMove_held {config : Config} {stopping : Bool} {w w' : WorkerState}
    {label : Label} (h : WorkerMove config stopping w label w') :
    w'.held = w.held ∨ w'.held = [] := by
  cases h with
  | cycle _ => exact .inl rfl
  | batchEnded _ _ => exact .inr rfl
  | entered _ _ _ _ _ => exact .inl rfl
  | rejected _ _ _ _ _ _ => exact .inl rfl
  | spawned _ _ _ _ => exact .inl rfl
  | spawnFailed _ _ _ _ => exact .inr rfl
  | childMoved _ _ _ _ _ _ _ _ _ _ _ => exact .inl rfl
  | stopKilled _ _ _ _ _ _ _ => exact .inl rfl
  | timedOut _ _ _ _ _ => exact .inl rfl
  | collected record lastAttemptAt _ rest exitcode file =>
      cases file with
      | absent => exact .inl rfl
      | truncated => exact .inr rfl
      | complete result =>
          cases result with
          | response response => exact .inl rfl
          | error error => exact .inl rfl
  | classified record lastAttemptAt rest response now =>
      unfold classify
      split
      · exact .inr rfl
      · split
        · exact .inl rfl
        · split
          · exact .inl rfl
          · exact .inl rfl
  | published _ _ _ _ => exact .inl rfl

/-- Only a commit completes a message. -/
theorem completion_of_commit {platform : Platform} {s : Bridge} {label : Label}
    (hcommit : ∀ thread now, label ≠ .commit thread now) :
    (s.observe platform label).filterMap BridgeEvent.completion = [] := by
  refine List.filterMap_eq_nil_iff.mpr fun event hevent => ?_
  cases Bridge.observe_shown hevent with
  | claimed thread now => exact absurd rfl (hcommit thread now)
  | recovered thread now => exact absurd rfl (hcommit thread now)
  | completed thread now => exact absurd rfl (hcommit thread now)
  | submitted | rejected | timedOut | stopped | accepted | published | replayed => rfl

/-- A transaction of the worker that ends before its first write settles nothing. -/
theorem earlyAnswer_held {platform : Platform} {now : Datetime} {s : Bridge} {job : Job}
    {result : Except PyError Answer} (hjob : WorkerJob s job)
    (h : job.earlyAnswer platform now s.wal.data = some result) :
    (s.resume .worker result).worker.held = [] := by
  cases hjob with
  | claiming hworker =>
      simp only [Job.earlyAnswer, Option.ite_none_right_eq_some, Option.some.injEq] at h
      rw [← h.2]
      simp [Bridge.resume, hworker, WorkerState.answered, WorkerState.held]
  | failing => cases h
  | completing =>
      simp only [Job.earlyAnswer, Option.ite_none_right_eq_some, Option.some.injEq] at h
      rw [← h.2]
      rfl

/-- A step that is no commit keeps the data, and keeps or drops the batch. -/
theorem Move.quiet {platform : Platform} {s t : Bridge} {label : Label}
    (h : Move platform s label t) (hcommit : ∀ thread now, label ≠ .commit thread now) :
    t.wal.data = s.wal.data ∧ (t.worker.held = s.worker.held ∨ t.worker.held = []) := by
  cases h with
  | began thread now job hjob hidle hearly hreads => exact ⟨rfl, .inl rfl⟩
  | answered thread now job result hjob hidle hearly =>
      refine ⟨by rw [resume_wal], ?_⟩
      by_cases hthread : thread = .worker
      · subst hthread
        exact .inr (earlyAnswer_held (workerJob_of_job hjob) hearly)
      · rw [resume_worker_of_ne s result hthread]
        exact .inl rfl
  | locked thread job wal hjob hfirst hgranted =>
      exact ⟨(Wal.lock_granted hgranted).1, .inl rfl⟩
  | refused thread job version snapshot hjob hreading hrefused =>
      refine ⟨by rw [resume_wal]; rfl, ?_⟩
      by_cases hthread : thread = .worker
      · subst hthread
        exact .inr rfl
      · rw [resume_worker_of_ne _ _ hthread]
        exact .inl rfl
  | gaveUp thread job hjob hidle hfirst =>
      refine ⟨by rw [resume_wal], ?_⟩
      by_cases hthread : thread = .worker
      · subst hthread
        exact .inr rfl
      · rw [resume_worker_of_ne _ _ hthread]
        exact .inl rfl
  | committed thread now => exact absurd rfl (hcommit thread now)
  | failed thread now => exact absurd rfl (hcommit thread now)
  | worker label worker hlabel hstep =>
      exact ⟨rfl, workerMove_held (workerStep_move hstep)⟩
  | watch => exact ⟨rfl, .inl rfl⟩
  | mqtt => exact ⟨rfl, .inl rfl⟩
  | lifecycle => exact ⟨rfl, .inl rfl⟩
  | audit => exact ⟨rfl, .inl rfl⟩
  | stopped => exact ⟨rfl, .inl rfl⟩
  | startedAgain => exact ⟨rfl, .inl rfl⟩
  | restarted => exact ⟨rfl, .inr rfl⟩

/-- A written transaction is the same step of the ledger. -/
theorem Move.ledger_commit {platform : Platform} {s : Bridge} {thread : Thread}
    {now : Datetime} {job : Job} {answer : Answer} {db : Database}
    (hjob : s.job thread = some job)
    (hrun : job.run platform now s.wal.data = .ok (answer, db)) :
    Ledger.allowed s.worker.held job = true ∧
      (s.resume thread (.ok answer)).worker.held =
        Ledger.heldAfter s.worker.held job answer := by
  by_cases hthread : thread = .worker
  · subst hthread
    have hworkerJob := workerJob_of_job hjob
    cases hworkerJob with
    | claiming hworker =>
        rcases map_eq_ok.mp hrun with ⟨⟨records, after⟩, -, heq⟩
        cases heq
        simp [Bridge.resume, hworker, WorkerState.answered, WorkerState.held,
          Ledger.allowed, Ledger.heldAfter]
    | failing record lastAttemptAt failure rest hworker =>
        simp [Bridge.resume, hworker, WorkerState.answered, WorkerState.held,
          Ledger.allowed, Ledger.heldAfter]
    | completing record lastAttemptAt acknowledged completedAt rest hworker =>
        rcases extractAck_eq_some.mp acknowledged.extracted with ⟨entries, -, -, hstored⟩
        have hack : truthy (some acknowledged.ack) = some acknowledged.ack :=
          truthy_eq_some.mpr ⟨rfl, extractStoredAck_ne_nil hstored⟩
        simp [Bridge.resume, hworker, WorkerState.answered, WorkerState.held,
          Ledger.allowed, Ledger.heldAfter, Acknowledged.arguments, hack]
  · rcases job_of_ne_worker hthread hjob with ⟨hallowed, hheld, -⟩
    rw [resume_worker_of_ne _ _ hthread, hheld]
    exact ⟨hallowed _, rfl⟩

/-- A transaction that wrote nothing settles nothing. -/
theorem held_of_not_wrote {platform : Platform} {s : Bridge} {thread : Thread}
    {now : Datetime} {job : Job} {answer : Answer} {db : Database}
    (hjob : s.job thread = some job)
    (hrun : job.run platform now s.wal.data = .ok (answer, db))
    (hwrote : answer.wrote = false) :
    (s.resume thread (.ok answer)).worker.held = s.worker.held := by
  rw [(Move.ledger_commit hjob hrun).2]
  by_cases hthread : thread = .worker
  · subst hthread
    cases workerJob_of_job hjob with
    | claiming hworker =>
        rcases map_eq_ok.mp hrun with ⟨⟨records, after⟩, -, heq⟩
        cases heq
        simp only [Answer.wrote, Bool.not_eq_false', List.isEmpty_iff] at hwrote
        simp [Ledger.heldAfter, hwrote, hworker, WorkerState.held]
    | failing =>
        rcases map_eq_ok.mp hrun with ⟨after, -, heq⟩
        cases heq
        cases hwrote
    | completing =>
        rcases map_eq_ok.mp hrun with ⟨after, -, heq⟩
        cases heq
        cases hwrote
  · exact (job_of_ne_worker hthread hjob).2.1 _ _

theorem commitEvents {platform : Platform} {now : Datetime} {job : Job}
    {db after : Database} {answer : Answer}
    (hrun : job.run platform now db = .ok (answer, after)) :
    (job.events platform db now answer).filterMap BridgeEvent.completion =
      Ledger.completions platform db now job := by
  cases job with
  | complete id arguments =>
      rcases map_eq_ok.mp hrun with ⟨final, -, heq⟩
      cases heq
      simp only [Job.events, List.filterMap_map]
      exact List.filterMap_some
  | fail id failure =>
      rcases map_eq_ok.mp hrun with ⟨final, -, heq⟩
      cases heq
      rfl
  | audit write =>
      rcases map_eq_ok.mp hrun with ⟨final, -, heq⟩
      cases heq
      rfl
  | recover staleBefore excludeIds =>
      rcases map_eq_ok.mp hrun with ⟨final, -, heq⟩
      cases heq
      simp only [Job.events, List.filterMap_map]
      exact List.filterMap_none _
  | save | claim | replay | reconcile | cleanup =>
      rcases map_eq_ok.mp hrun with ⟨final, -, heq⟩
      cases heq
      rfl

/-- One step of the threads is matched by its atomic steps. -/
theorem Bridge.ledger_step {platform : Platform} {s t : Bridge} {label : Label}
    (hstep : s.step platform label = some t) :
    (ledgerSystem platform).exec s.ledger (s.ledgerOps platform label) = some t.ledger ∧
      (ledgerSystem platform).trace s.ledger (s.ledgerOps platform label) =
        (s.observe platform label).filterMap BridgeEvent.completion := by
  have hmove := Bridge.step_move hstep
  by_cases hcommit : ∃ thread now, label = .commit thread now
  · rcases hcommit with ⟨thread, now, rfl⟩
    cases hmove with
    | committed _ _ job answer db hjob hwriting hrun =>
        simp only [Bridge.ledgerOps, Bridge.observe, hjob, hrun]
        rw [commitEvents hrun]
        cases hwrote : answer.wrote with
        | true =>
            rcases Move.ledger_commit hjob hrun with ⟨hallowed, hheld⟩
            have hledger : Ledger.step platform s.ledger (.run job now) =
                some ⟨db, Ledger.heldAfter s.worker.held job answer⟩ := by
              simp [Ledger.step, Bridge.ledger, hallowed, hrun]
            refine ⟨?_, ?_⟩
            · simp only [if_true, System.exec, ledgerSystem, hledger, Option.bind_some]
              rw [← hheld, Bridge.ledger, resume_wal]
              cases thread <;> rfl
            · simp only [if_true, System.trace, ledgerSystem, hledger, List.append_nil]
              rfl
        | false =>
            have hheld := held_of_not_wrote hjob hrun hwrote
            have hnone : Ledger.completions platform s.wal.data now job = [] := by
              cases job with
              | complete id arguments =>
                  rcases map_eq_ok.mp hrun with ⟨after, -, heq⟩
                  cases heq
                  cases hwrote
              | _ => rfl
            rw [hnone]
            refine ⟨?_, rfl⟩
            simp only [Bool.false_eq_true, if_false, System.exec_nil, Option.some.injEq,
              Bridge.ledger, resume_wal, Wal.data_close, Ledger.mk.injEq, true_and]
            rw [← hheld]
            cases thread <;> rfl
    | failed _ _ job error hjob hwriting hrun =>
        simp only [Bridge.ledgerOps, Bridge.observe, hjob, hrun]
        by_cases hthread : thread = .worker
        · subst hthread
          exact ⟨rfl, rfl⟩
        · rw [if_neg hthread]
          refine ⟨?_, rfl⟩
          rw [System.exec_nil, Bridge.ledger, Bridge.ledger, resume_wal,
            resume_worker_of_ne _ _ hthread]
          rfl
    | worker _ _ hlabel _ => cases hlabel
    | mqtt _ _ hlabel _ => cases hlabel
    | lifecycle _ _ hlabel _ => cases hlabel
  · have hne : ∀ thread now, label ≠ .commit thread now := by
      intro thread now hlabel
      exact hcommit ⟨thread, now, hlabel⟩
    rw [completion_of_commit hne]
    rcases hmove.quiet hne with ⟨hdata, hheld⟩
    have hops : s.ledgerOps platform label =
        if t.worker.held = s.worker.held then [] else [.drop] := by
      unfold Bridge.ledgerOps
      split
      · exact absurd rfl (hne _ _)
      · rw [hstep]
    rw [hops]
    split
    · next hsame =>
      refine ⟨?_, rfl⟩
      rw [System.exec_nil, Bridge.ledger, Bridge.ledger, hdata, hsame]
    · next hdiff =>
      have hempty : t.worker.held = [] := hheld.resolve_left hdiff
      refine ⟨?_, rfl⟩
      simp only [System.exec, ledgerSystem, Ledger.step, Option.bind_some,
        Bridge.ledger, hdata, hempty]

/-- Every run of the threads is a run of atomic transactions. -/
def ledgerSimulation (platform : Platform) (config : Config) :
    Simulation (bridgeSystem platform config) (ledgerSystem platform) where
  abs := Bridge.ledger
  ops := Bridge.ledgerOps platform
  view := BridgeEvent.completion
  init := rfl
  step := fun _ _ _ _ hstep => (Bridge.ledger_step hstep).1
  observe := fun _ _ _ _ hstep => (Bridge.ledger_step hstep).2

def completedEvents (trace : List BridgeEvent) : List Completed :=
  trace.filterMap BridgeEvent.completion

/-- The accounting invariant holds of the tables under every interleaving. -/
theorem bridge_accounted {platform : Platform} {config : Config}
    {past : List BridgeEvent} {s : Bridge}
    (ran : (bridgeSystem platform config).Ran (bridgeSystem platform config).init past s) :
    Accounted (completedEvents past) s.ledger :=
  (ledgerSimulation platform config).run_invariant
    (fun _ _ hran => ledger_accounted platform hran) ran

end EdgeBridge
