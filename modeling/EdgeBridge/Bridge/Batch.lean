import EdgeBridge.Bridge.Completion

/-!
# One batch of the worker

`run_once` claims a batch and processes it record by record, without a handler in
the loop.  The model runs it to the end for given outcomes of the records; the other
threads may run their transactions before each record is settled.
-/

namespace EdgeBridge

open Foundation

/-! ## `WorkerState` -/

/-- The fields of `WorkerState`, from which the health report is made. -/
structure WorkerHealth where
  lastLoopAt : Option Datetime
  currentRecordId : Option Nat
  currentRecordStartedAt : Option Datetime
  lastSuccessAt : Option Datetime
  lastFailureAt : Option Datetime
  pendingQueueCount : Nat

namespace WorkerHealth

def heartbeat (health : WorkerHealth) (now : Datetime) : WorkerHealth :=
  { health with lastLoopAt := some now }

def beginRecord (health : WorkerHealth) (recordId : Nat) (now : Datetime) : WorkerHealth :=
  { health with
    lastLoopAt := some now
    currentRecordId := some recordId
    currentRecordStartedAt := some now }

def finishRecord (health : WorkerHealth) (succeeded : Bool) (now : Datetime) :
    WorkerHealth :=
  { health with
    lastLoopAt := some now
    lastSuccessAt := if succeeded then some now else health.lastSuccessAt
    lastFailureAt := if succeeded then health.lastFailureAt else some now
    currentRecordId := none
    currentRecordStartedAt := none }

def setPendingQueueCount (health : WorkerHealth) (count : Nat) : WorkerHealth :=
  { health with pendingQueueCount := count }

end WorkerHealth

/-! ## What can happen to a record -/

/-- The transactions that the worker leaves to the other threads. -/
def Job.byOthers : Job → Bool
  | .claim _ _ | .complete _ _ | .fail _ _ => false
  | _ => true

/-- How `_submit_with_hard_timeout` ends: it raises, because the child cannot be started
or its files cannot be handled, it kills the child, or the child has exited. -/
inductive Submission where
  | raises (error : PyError)
  | timedOut
  | exited (exitcode : Int) (file : ResultFile)

/-- The clock readings and the outside world while one record is processed. -/
structure RecordOutcome where
  attemptAt : Datetime
  completedAt : Datetime
  committedAt : Datetime
  finishedAt : Datetime
  meanwhile : List (Job × Datetime)
  byOthers : ∀ entry ∈ meanwhile, entry.1.byOthers = true
  submission : Submission
  /-- The transaction that settles the record fails by itself, on a locked database. -/
  storage : Option PyError
  publisher : Option PyError

/-- Transactions of the other threads; one that raises changes nothing. -/
def runOthers (platform : Platform) : List (Job × Datetime) → Database → Database
  | [], db => db
  | (job, now) :: rest, db =>
      match job.run platform now db with
      | .ok (_, after) => runOthers platform rest after
      | .error _ => runOthers platform rest db

def RecordOutcome.transact (platform : Platform) (outcome : RecordOutcome) (job : Job)
    (db : Database) : Database × Option PyError :=
  let db := runOthers platform outcome.meanwhile db
  match outcome.storage with
  | some error => (db, some error)
  | none =>
      match job.run platform outcome.committedAt db with
      | .ok (_, after) => (after, none)
      | .error error => (db, some error)

/-! ## `run_once` -/

/-- A running `run_once`: the records it has attempted, and the exception that ended it. -/
structure Pass where
  health : WorkerHealth
  db : Database
  attempted : List Nat
  raised : Option PyError

namespace Pass

def raise (s : Pass) (error : PyError) : Pass := { s with raised := some error }

/-- `_mark_record_failed` and `finish_record`. -/
def failRecord (platform : Platform) (outcome : RecordOutcome) (record : MessageRecord)
    (failure : Failure) (s : Pass) : Pass :=
  match outcome.transact platform (.fail record.id failure) s.db with
  | (db, some error) => { s with db := db }.raise error
  | (db, none) =>
      { s with db := db, health := s.health.finishRecord false outcome.finishedAt }

/-- `mark_completed`, `_publish_ack` and `finish_record`. -/
def completeRecord (platform : Platform) (config : Config) (outcome : RecordOutcome)
    (record : MessageRecord) (acknowledged : Acknowledged) (s : Pass) : Pass :=
  match outcome.transact platform (.complete record.id
      (acknowledged.arguments config (formatTimestamp outcome.completedAt))) s.db with
  | (db, some error) => { s with db := db }.raise error
  | (db, none) =>
      match outcome.publisher with
      | some error => { s with db := db }.raise error
      | none =>
          { s with db := db, health := s.health.finishRecord true outcome.finishedAt }

/-- `_process_record` from the response on. -/
def settleResponse (platform : Platform) (config : Config) (outcome : RecordOutcome)
    (record : MessageRecord) (response : OdooResponse) (s : Pass) : Pass :=
  let lastAttemptAt := formatTimestamp outcome.attemptAt
  match hdump : dumpResponse response with
  | .error error => s.raise error
  | .ok responseText =>
      match getOdooBusinessError response.value with
      | some error =>
          s.failRecord platform outcome record (config.failure error lastAttemptAt
            (some responseText) (!isNonRetryableBusinessError error))
      | none =>
          match hack : extractAck response.value with
          | none =>
              s.failRecord platform outcome record (config.failure missingAckError
                lastAttemptAt (some responseText) false)
          | some ack =>
              s.completeRecord platform config outcome record
                ⟨response, responseText, ack, hdump, hack⟩

/-- `_process_record`. -/
def processRecord (platform : Platform) (config : Config) (outcome : RecordOutcome)
    (record : MessageRecord) (s : Pass) : Pass :=
  let lastAttemptAt := formatTimestamp outcome.attemptAt
  let begun := { s with health := s.health.beginRecord record.id outcome.attemptAt }
  match payloadFromRecord record with
  | .error error =>
      match valueErrorText error with
      | some message =>
          begun.failRecord platform outcome record
            (config.failure message lastAttemptAt none true)
      | none => begun.raise error
  | .ok _ =>
      match outcome.submission with
      | .raises error => begun.raise error
      | .timedOut =>
          begun.failRecord platform outcome record
            (config.failure timeoutError lastAttemptAt none false)
      | .exited exitcode .absent =>
          begun.failRecord platform outcome record
            (config.failure (childExitError exitcode) lastAttemptAt none true)
      | .exited _ .truncated => begun.raise .endOfFile
      | .exited _ (.complete (.error error)) =>
          begun.failRecord platform outcome record
            (config.failure (submissionFailed error) lastAttemptAt none true)
      | .exited _ (.complete (.response response)) =>
          begun.settleResponse platform config outcome record response

/-- The loop of `run_once`. -/
def processBatch (platform : Platform) (config : Config) (stopping : Bool)
    (outcome : Nat → RecordOutcome) : List MessageRecord → Pass → Pass
  | [], s => s
  | record :: rest, s =>
      if stopping then s
      else
        let after := processRecord platform config (outcome record.id) record
          { s with attempted := s.attempted ++ [record.id] }
        match after.raised with
        | some _ => after
        | none => processBatch platform config stopping outcome rest after

end Pass

/-- `is_authenticated` and `authenticate` before the claim. -/
inductive Login where
  | authenticated
  | succeeds
  | refused
  | raises (error : PyError)

def newCount (db : Database) : Nat :=
  (db.mqttMessages.select fun row => row.status == .new).length

/-- `run_once`, which returns the number of the records attempted. -/
def runOnce (platform : Platform) (config : Config) (stopping : Bool) (login : Login)
    (now : Datetime) (outcome : Nat → RecordOutcome) (health : WorkerHealth)
    (db : Database) : Pass :=
  let begun := (health.heartbeat now).setPendingQueueCount (newCount db)
  match login with
  | .refused => ⟨begun, db, [], none⟩
  | .raises error => ⟨begun, db, [], some error⟩
  | .authenticated | .succeeds =>
      match claimPendingMessages platform config.batchSize config.maxRetries now db with
      | .error error => ⟨begun, db, [], some error⟩
      | .ok (records, claimed) =>
          Pass.processBatch platform config stopping outcome records
            ⟨begun.setPendingQueueCount (newCount claimed), claimed, [], none⟩

/-- The batch that `run_once` claims. -/
def claimedBatch (platform : Platform) (config : Config) (login : Login) (now : Datetime)
    (db : Database) : List MessageRecord :=
  match login with
  | .refused | .raises _ => []
  | .authenticated | .succeeds =>
      match claimPendingMessages platform config.batchSize config.maxRetries now db with
      | .error _ => []
      | .ok (records, _) => records

/-- Every record was processed, none is left in PROCESSING, and there is no current one. -/
structure Isolated (batch : List MessageRecord) (s : Pass) : Prop where
  attempted : s.attempted = batch.map MessageRecord.id
  settled : ∀ record ∈ batch, ∀ row, s.db.message record.id = some row →
    row.status ≠ .processing
  current : s.health.currentRecordId = none

/-! ## What may go wrong -/

/-- Nothing that happens to the record raises: its payload is readable or refused in
words that can be stored, the child is started and leaves no torn file, its words can be
stored, and a response can be dumped, stored and published. -/
def harmless (config : Config) (outcome : RecordOutcome) (record : MessageRecord) : Bool :=
  outcome.storage.isNone &&
    match payloadFromRecord record with
    | .error error => (valueErrorText error).any Text.encodable
    | .ok _ =>
        match outcome.submission with
        | .raises _ => false
        | .timedOut => true
        | .exited _ .absent => true
        | .exited _ .truncated => false
        | .exited _ (.complete (.error error)) => error.encodable
        | .exited _ (.complete (.response response)) =>
            (dumpResponse response).isOk &&
              ((extractAck response.value).isNone ||
                storable config response && outcome.publisher.isNone)

/-! ## The rows under the transactions -/

/-- The row that a transaction of the worker settles. -/
def Job.target : Job → Option Nat
  | .complete id _ | .fail id _ => some id
  | _ => none

/-- The rows stay encodable, and all but one keep waiting or stay settled. -/
structure Kept (target : Option Nat) (db after : Database) : Prop where
  stored : (∀ id row, db.message id = some row → row.bindable = true) →
    ∀ id row, after.message id = some row → row.bindable = true
  waiting : ∀ id, target ≠ some id → (∃ row, db.message id = some row ∧ row.Open) →
    ∃ row, after.message id = some row ∧ row.Open
  settled : ∀ id, target ≠ some id →
    (∀ row, db.message id = some row → row.status ≠ .processing) →
    ∀ row, after.message id = some row → row.status ≠ .processing

theorem Kept.refl (target : Option Nat) (db : Database) : Kept target db db where
  stored := fun h => h
  waiting := fun _ _ h => h
  settled := fun _ _ h => h

theorem Kept.trans {target : Option Nat} {first second third : Database}
    (h : Kept none first second) (hnext : Kept target second third) :
    Kept target first third where
  stored := fun hstored => hnext.stored (h.stored hstored)
  waiting := fun id hid hopen => hnext.waiting id hid (h.waiting id nofun hopen)
  settled := fun id hid hsettled => hnext.settled id hid (h.settled id nofun hsettled)

/-- Only a claim puts a row into PROCESSING. -/
theorem RowChange.processing {now : Datetime} {seq id : Nat} {job : Job} {answer : Answer}
    {before : Option MessageRecord} {next : MessageRecord}
    (h : RowChange now seq id job answer before (some next))
    (hclaim : ∀ batchSize maxRetries, job ≠ .claim batchSize maxRetries)
    (hstatus : next.status = .processing) :
    ∃ row, before = some row ∧ row.status = .processing := by
  cases h with
  | kept => exact ⟨next, rfl, hstatus⟩
  | created _ _ _ _ => cases hstatus
  | claimed _ _ _ => exact absurd rfl (hclaim _ _)
  | completed _ _ => cases hstatus
  | failed _ => cases hstatus
  | recovered _ _ => cases hstatus
  | replayed row _ => exact ⟨row, rfl, hstatus⟩

section

variable {platform : Platform} {now : Datetime} {db after : Database} {answer : Answer}

theorem Job.kept {job : Job} (hclaim : ∀ batchSize maxRetries, job ≠ .claim batchSize maxRetries)
    (hrun : job.run platform now db = .ok (answer, after)) : Kept job.target db after where
  stored := by
    intro hstored id row hrow
    have hchange := Job.rowChange hrun id
    rw [hrow] at hchange
    exact hchange.bindable (hstored id)
  waiting := by
    rintro id hid ⟨row, hrow, hopen⟩
    have hchange := Job.rowChange hrun id
    rw [hrow] at hchange
    refine hchange.of_open hopen ?_
    rintro arguments rfl
    exact hid rfl
  settled := by
    intro id _ hsettled row hrow hstatus
    have hchange := Job.rowChange hrun id
    rw [hrow] at hchange
    rcases hchange.processing hclaim hstatus with ⟨old, hold, holdStatus⟩
    exact hsettled old hold holdStatus

theorem runOthers_kept (platform : Platform) {jobs : List (Job × Datetime)}
    (hothers : ∀ entry ∈ jobs, entry.1.byOthers = true) (db : Database) :
    Kept none db (runOthers platform jobs db) := by
  induction jobs generalizing db with
  | nil => exact .refl none db
  | cons entry rest ih =>
      have hrest := fun db => ih (fun other hother => hothers other
        (List.mem_cons_of_mem entry hother)) db
      have hjob := hothers entry List.mem_cons_self
      rcases entry with ⟨job, now⟩
      simp only [runOthers]
      cases hrun : job.run platform now db with
      | error error => exact hrest db
      | ok result =>
          have hkept : Kept job.target db result.2 := by
            refine Job.kept ?_ hrun
            rintro batchSize maxRetries rfl
            cases hjob
          have hnone : job.target = none := by
            cases job with
            | complete id arguments => cases hjob
            | fail id failure => cases hjob
            | _ => rfl
          rw [hnone] at hkept
          exact hkept.trans (hrest result.2)

theorem Job.settles {job : Job} {id : Nat} (htarget : job.target = some id)
    (hrun : job.run platform now db = .ok (answer, after)) :
    ∀ row, after.message id = some row → row.status ≠ .processing := by
  have hupdated : ∀ {change : Table.Update MessageRecord},
      (∀ row, (change row).status ≠ .processing) →
      after.mqttMessages = db.mqttMessages.update (fun row => row.id == id) change →
      ∀ row, after.message id = some row → row.status ≠ .processing := by
    intro change hchange hmessages row hrow
    rw [message_updated hmessages] at hrow
    obtain ⟨old, -, rfl⟩ := Option.map_eq_some_iff.mp hrow
    exact hchange old
  cases job with
  | complete other arguments =>
      cases htarget
      rcases map_eq_ok.mp hrun with ⟨result, hcomplete, heq⟩
      cases heq
      rcases markCompleted_mqttMessages hcomplete with ⟨metadata, hmessages⟩
      exact hupdated (by intro row hstatus; cases hstatus) hmessages
  | fail other failure =>
      cases htarget
      rcases map_eq_ok.mp hrun with ⟨result, hfail, heq⟩
      cases heq
      exact hupdated (by intro row hstatus; cases hstatus)
        (congrArg Database.mqttMessages (markFailed_eq_ok hfail).2)
  | _ => cases htarget

end

/-! ## One record -/

/-- The record is settled, and the loop goes on. -/
structure Settles (id : Nat) (s t : Pass) : Prop where
  raised : t.raised = none
  current : t.health.currentRecordId = none
  attempted : t.attempted = s.attempted
  settled : ∀ row, t.db.message id = some row → row.status ≠ .processing
  kept : Kept (some id) s.db t.db

/-- An exception leaves the loop, and the record stays the current one. -/
structure Escapes (id : Nat) (t : Pass) : Prop where
  raised : t.raised ≠ none
  current : t.health.currentRecordId = some id

section

variable {platform : Platform} {config : Config} {outcome : RecordOutcome}
  {record : MessageRecord} {s : Pass}

theorem transact_settles {job : Job} {id : Nat} (htarget : job.target = some id)
    (hstorage : outcome.storage = none) {db after : Database} {answer : Answer}
    (hrun : job.run platform outcome.committedAt
      (runOthers platform outcome.meanwhile db) = .ok (answer, after)) :
    outcome.transact platform job db = (after, none) ∧ Kept (some id) db after ∧
      ∀ row, after.message id = some row → row.status ≠ .processing := by
  have hclaim : ∀ batchSize maxRetries, job ≠ .claim batchSize maxRetries := by
    rintro _ _ rfl
    cases htarget
  have hkept := Job.kept hclaim hrun
  rw [htarget] at hkept
  refine ⟨?_, (runOthers_kept platform outcome.byOthers db).trans hkept,
    Job.settles htarget hrun⟩
  simp only [RecordOutcome.transact, hstorage, hrun]

theorem transact_raises {job : Job} {db : Database}
    (h : outcome.storage.isSome = true ∨ ∃ error, job.run platform outcome.committedAt
      (runOthers platform outcome.meanwhile db) = .error error) :
    ∃ after error, outcome.transact platform job db = (after, some error) := by
  unfold RecordOutcome.transact
  cases hstorage : outcome.storage with
  | some error => exact ⟨_, error, rfl⟩
  | none =>
      rcases h with hsome | ⟨error, hrun⟩
      · rw [hstorage] at hsome
        cases hsome
      · simp only [hrun]
        exact ⟨_, error, rfl⟩

theorem markFailed_isOk {config : Config} (hmax : bindableInt config.maxRetries = true)
    {error : Text} {attemptAt now : Datetime} {odooResponse : Option Text} {retryable : Bool}
    (hresponse : odooResponse.all Text.encodable = true) {id : Nat} {db : Database}
    (hrow : ∃ row, db.message id = some row) :
    (∃ answer after, (Job.fail id (config.failure error (formatTimestamp attemptAt)
      odooResponse retryable)).run platform now db = .ok (answer, after)) ↔
        error.encodable = true := by
  rcases hrow with ⟨row, hrow⟩
  have hattempt := encodable_formatTimestamp attemptAt
  simp only [Job.run, Config.failure, markFailed, Option.getD_some, hmax, Bool.or_true,
    Bool.not_true, Bool.false_eq_true, if_false, hattempt, bindableOptText, hresponse,
    Bool.and_true, hrow, Option.isNone_some]
  cases error.encodable with
  | true => simp [Except.map]
  | false => simp [Except.map]

theorem failRecord_settles (hmax : bindableInt config.maxRetries = true)
    (hopen : ∃ row, s.db.message record.id = some row ∧ row.Open) (hraised : s.raised = none)
    {error : Text} {attemptAt : Datetime} {odooResponse : Option Text} {retryable : Bool}
    (hresponse : odooResponse.all Text.encodable = true)
    (hstorage : outcome.storage = none) (herror : error.encodable = true) :
    Settles record.id s (s.failRecord platform outcome record
      (config.failure error (formatTimestamp attemptAt) odooResponse retryable)) := by
  rcases (runOthers_kept platform outcome.byOthers s.db).waiting record.id nofun hopen with
    ⟨row, hrow, -⟩
  have hfails : ∃ answer after, (Job.fail record.id (config.failure error
      (formatTimestamp attemptAt) odooResponse retryable)).run platform outcome.committedAt
        (runOthers platform outcome.meanwhile s.db) = .ok (answer, after) :=
    (markFailed_isOk hmax hresponse ⟨row, hrow⟩).mpr herror
  rcases hfails with ⟨answer, after, hrun⟩
  rcases transact_settles rfl hstorage hrun with ⟨htransact, hkept, hsettled⟩
  unfold Pass.failRecord
  rw [htransact]
  exact ⟨hraised, rfl, rfl, hsettled, hkept⟩

theorem failRecord_escapes (hmax : bindableInt config.maxRetries = true)
    (hopen : ∃ row, s.db.message record.id = some row ∧ row.Open)
    (hcurrent : s.health.currentRecordId = some record.id)
    {error : Text} {attemptAt : Datetime} {odooResponse : Option Text} {retryable : Bool}
    (hresponse : odooResponse.all Text.encodable = true)
    (hcause : outcome.storage.isSome = true ∨ error.encodable = false) :
    Escapes record.id (s.failRecord platform outcome record
      (config.failure error (formatTimestamp attemptAt) odooResponse retryable)) := by
  rcases (runOthers_kept platform outcome.byOthers s.db).waiting record.id nofun hopen with
    ⟨row, hrow, -⟩
  have hraises : outcome.storage.isSome = true ∨ ∃ refusal,
      (Job.fail record.id (config.failure error (formatTimestamp attemptAt) odooResponse
        retryable)).run platform outcome.committedAt
          (runOthers platform outcome.meanwhile s.db) = .error refusal := by
    refine hcause.imp_right fun herror => ?_
    cases hrun : (Job.fail record.id (config.failure error (formatTimestamp attemptAt)
        odooResponse retryable)).run platform outcome.committedAt
          (runOthers platform outcome.meanwhile s.db) with
    | error refusal => exact ⟨refusal, rfl⟩
    | ok result =>
        have hok := (markFailed_isOk hmax hresponse ⟨row, hrow⟩).mp ⟨result.1, result.2, hrun⟩
        rw [herror] at hok
        cases hok
  rcases transact_raises hraises with ⟨after, refusal, htransact⟩
  unfold Pass.failRecord
  rw [htransact]
  exact ⟨nofun, hcurrent⟩

/-- Nothing but the integers and the name of the machine can refuse to be stored. -/
theorem storable_of_markCompleted {id : Nat} {acknowledged : Acknowledged}
    {completed now : Datetime} {db after : Database}
    (h : markCompleted platform id
      (acknowledged.arguments config (formatTimestamp completed)) now db = .ok after) :
    storable config acknowledged.response = true := by
  rcases markCompleted_upsert (truthy_acknowledged acknowledged) h with
    ⟨source, metadata, applied, -, hmetadata, hupsert⟩
  rw [completionMetadata_acknowledged, Except.ok.injEq] at hmetadata
  subst hmetadata
  unfold upsertProductionRecordAndSummary at hupsert
  rcases bind_eq_ok.mp hupsert with ⟨date, -, hbody⟩
  rcases bind_eq_ok.mp hbody with ⟨_, hbound, -⟩
  have hint : ∀ {value : Option Int}, .int value ∈ productionBindings source
      ((acknowledged.arguments config (formatTimestamp completed)).completion
        acknowledged.ack (extractDashboardMetadata acknowledged.response.value)) date →
      bindableOptInt value = true :=
    fun hmem => Binding.defect_int.mp (defect_of_bindAll hbound hmem)
  have hname : .text (some ((truthy (some config.machineId)).getD defaultMachineId)) ∈
      productionBindings source
        ((acknowledged.arguments config (formatTimestamp completed)).completion
          acknowledged.ack (extractDashboardMetadata acknowledged.response.value)) date := by
    simp [productionBindings, CompletionArguments.completion, Acknowledged.arguments]
  have hmachine : config.machineId.encodable = true := by
    by_cases hempty : config.machineId = []
    · rw [hempty]
      rfl
    · rw [truthy_eq_some.mpr ⟨rfl, hempty⟩, Option.getD_some] at hname
      exact Binding.defect_text.mp (defect_of_bindAll hbound hname)
  simp only [storable, Bool.and_eq_true]
  refine ⟨⟨⟨hint ?_, hint ?_⟩, hint ?_⟩, hmachine⟩
  · simp [productionBindings, CompletionArguments.completion]
  · simp [productionBindings, CompletionArguments.completion]
  · simp [productionBindings, CompletionArguments.completion]

theorem completeRecord_settles {acknowledged : Acknowledged}
    (hstored : ∀ id row, s.db.message id = some row → row.bindable = true)
    (hopen : ∃ row, s.db.message record.id = some row ∧ row.Open) (hraised : s.raised = none)
    (hstorage : outcome.storage = none)
    (hstorable : storable config acknowledged.response = true)
    (hpublisher : outcome.publisher = none) :
    Settles record.id s (s.completeRecord platform config outcome record acknowledged) := by
  have hothers := runOthers_kept platform outcome.byOthers s.db
  rcases hothers.waiting record.id nofun hopen with ⟨row, hrow, -⟩
  rcases markCompleted_isOk platform outcome.completedAt outcome.committedAt hrow
    (hothers.stored hstored record.id row hrow) hstorable with ⟨after, hcomplete⟩
  have hrun : (Job.complete record.id (acknowledged.arguments config
      (formatTimestamp outcome.completedAt))).run platform outcome.committedAt
        (runOthers platform outcome.meanwhile s.db) = .ok (.done, after) :=
    map_eq_ok.mpr ⟨after, hcomplete, rfl⟩
  rcases transact_settles rfl hstorage hrun with ⟨htransact, hkept, hsettled⟩
  simp only [Pass.completeRecord, htransact, hpublisher]
  exact ⟨hraised, rfl, rfl, hsettled, hkept⟩

theorem completeRecord_escapes {acknowledged : Acknowledged}
    (hcurrent : s.health.currentRecordId = some record.id)
    (hcause : outcome.storage.isSome = true ∨
      storable config acknowledged.response = false ∨ outcome.publisher.isSome = true) :
    Escapes record.id (s.completeRecord platform config outcome record acknowledged) := by
  unfold Pass.completeRecord
  cases htransact : outcome.transact platform (.complete record.id
      (acknowledged.arguments config (formatTimestamp outcome.completedAt))) s.db with
  | mk db refusal =>
      cases refusal with
      | some error => exact ⟨nofun, hcurrent⟩
      | none =>
          cases hpublisher : outcome.publisher with
          | some error => exact ⟨nofun, hcurrent⟩
          | none =>
              have hraises : outcome.storage.isSome = true ∨ ∃ error,
                  (Job.complete record.id (acknowledged.arguments config
                    (formatTimestamp outcome.completedAt))).run platform outcome.committedAt
                      (runOthers platform outcome.meanwhile s.db) = .error error := by
                rcases hcause with hstorage | hstorable | hsome
                · exact .inl hstorage
                · right
                  cases hrun : (Job.complete record.id (acknowledged.arguments config
                      (formatTimestamp outcome.completedAt))).run platform
                        outcome.committedAt
                        (runOthers platform outcome.meanwhile s.db) with
                  | error error => exact ⟨error, rfl⟩
                  | ok result =>
                      rcases map_eq_ok.mp hrun with ⟨after, hcomplete, -⟩
                      rw [storable_of_markCompleted hcomplete] at hstorable
                      cases hstorable
                · rw [hpublisher] at hsome
                  cases hsome
              rcases transact_raises hraises with ⟨after, error, hraise⟩
              rw [htransact] at hraise
              cases hraise

theorem encodable_submissionFailed (error : Text) :
    (submissionFailed error).encodable = error.encodable := by
  cases error with
  | nil => rfl
  | cons c rest => rfl

theorem encodable_businessError {response : OdooResponse} {error : Text}
    (h : getOdooBusinessError response.value = some error) : error.encodable = true := by
  have hflag : missingSuccessFlag.encodable = true := by decide
  rcases response with ⟨value, hvalue⟩
  cases value with
  | dict entries =>
      simp only [getOdooBusinessError] at h
      split at h
      · cases h
      · cases h
        have htext := encodable_nonemptyText (unmarshalled_get hvalue (str "error"))
        cases hgiven : nonemptyText (PyValue.get entries (str "error")) with
        | none => rfl
        | some text =>
            rw [hgiven] at htext
            exact htext
      · cases h
        exact hflag
  | _ =>
      cases h
      exact hflag

/-! ## The whole of `_process_record` -/

/-- The condition decides between the two ends. -/
def Decides (condition : Bool) (id : Nat) (s t : Pass) : Prop :=
  (condition = true → Settles id s t) ∧ (condition = false → Escapes id t)

theorem failRecord_decides (hmax : bindableInt config.maxRetries = true)
    (hopen : ∃ row, s.db.message record.id = some row ∧ row.Open) (hraised : s.raised = none)
    (hcurrent : s.health.currentRecordId = some record.id) {error : Text}
    {attemptAt : Datetime} {odooResponse : Option Text} {retryable : Bool}
    (hresponse : odooResponse.all Text.encodable = true) :
    Decides (outcome.storage.isNone && error.encodable) record.id s
      (s.failRecord platform outcome record
        (config.failure error (formatTimestamp attemptAt) odooResponse retryable)) := by
  constructor
  · intro h
    rw [Bool.and_eq_true, Option.isNone_iff_eq_none] at h
    exact failRecord_settles hmax hopen hraised hresponse h.1 h.2
  · intro h
    refine failRecord_escapes hmax hopen hcurrent hresponse ?_
    rw [Bool.and_eq_false_iff, Option.isNone_eq_false_iff] at h
    exact h

theorem settleResponse_decides (hmax : bindableInt config.maxRetries = true)
    (hstored : ∀ id row, s.db.message id = some row → row.bindable = true)
    (hopen : ∃ row, s.db.message record.id = some row ∧ row.Open) (hraised : s.raised = none)
    (hcurrent : s.health.currentRecordId = some record.id) (response : OdooResponse) :
    Decides (outcome.storage.isNone && ((dumpResponse response).isOk &&
        ((extractAck response.value).isNone ||
          storable config response && outcome.publisher.isNone))) record.id s
      (s.settleResponse platform config outcome record response) := by
  unfold Pass.settleResponse
  simp only
  split
  · next error hdump =>
    constructor
    · intro h
      rw [hdump] at h
      simp [Except.isOk, Except.toBool] at h
    · exact fun _ => ⟨Option.some_ne_none _, hcurrent⟩
  · next responseText hdump =>
    have htext : (some responseText).all Text.encodable = true :=
      encodable_of_dumpResponse hdump
    have hok : (dumpResponse response).isOk = true := by
      rw [hdump]
      rfl
    rw [hok, Bool.true_and]
    split
    · next error hbusiness =>
      have hnone : (extractAck response.value).isNone = true := by
        cases hack : extractAck response.value with
        | none => rfl
        | some ack =>
            rw [businessError_of_extractAck hack] at hbusiness
            cases hbusiness
      have hdecides : Decides (outcome.storage.isNone && error.encodable) record.id s
          (s.failRecord platform outcome record
            (config.failure error (formatTimestamp outcome.attemptAt) (some responseText)
              (!isNonRetryableBusinessError error))) :=
        failRecord_decides hmax hopen hraised hcurrent htext
      rw [encodable_businessError hbusiness] at hdecides
      rw [hnone, Bool.true_or]
      exact hdecides
    · split
      · next hack =>
        have hnone : (extractAck response.value).isNone = true := by
          rw [hack]
          rfl
        have hdecides : Decides (outcome.storage.isNone && missingAckError.encodable) record.id
            s (s.failRecord platform outcome record (config.failure missingAckError
              (formatTimestamp outcome.attemptAt) (some responseText) false)) :=
          failRecord_decides hmax hopen hraised hcurrent htext
        rw [show missingAckError.encodable = true by decide] at hdecides
        rw [hnone, Bool.true_or]
        exact hdecides
      · next ack hack =>
        have hsome : (extractAck response.value).isNone = false := by
          rw [hack]
          rfl
        rw [hsome, Bool.false_or]
        constructor
        · intro h
          simp only [Bool.and_eq_true, Option.isNone_iff_eq_none] at h
          exact completeRecord_settles hstored hopen hraised h.1 h.2.1 h.2.2
        · intro h
          refine completeRecord_escapes hcurrent ?_
          simp only [Bool.and_eq_false_iff, Option.isNone_eq_false_iff] at h
          exact h

/-- A record is settled exactly when nothing that happens to it raises. -/
theorem processRecord_decides (hmax : bindableInt config.maxRetries = true)
    (hstored : ∀ id row, s.db.message id = some row → row.bindable = true)
    (hopen : ∃ row, s.db.message record.id = some row ∧ row.Open)
    (hraised : s.raised = none) :
    Decides (harmless config outcome record) record.id s
      (s.processRecord platform config outcome record) := by
  let begun := { s with health := s.health.beginRecord record.id outcome.attemptAt }
  have hfail : ∀ (error : Text) (retryable : Bool),
      Decides (outcome.storage.isNone && error.encodable) record.id begun
        (begun.failRecord platform outcome record
          (config.failure error (formatTimestamp outcome.attemptAt) none retryable)) :=
    fun error retryable => failRecord_decides (s := begun) hmax hopen hraised rfl rfl
  have hraise : ∀ (storage : Bool) (error : PyError),
      Decides (storage && false) record.id s (begun.raise error) := by
    intro storage error
    constructor
    · intro h
      rw [Bool.and_false] at h
      cases h
    · exact fun _ => ⟨nofun, rfl⟩
  have hbegun : ∀ {condition : Bool} {t : Pass}, Decides condition record.id begun t →
      Decides condition record.id s t := by
    intro condition t h
    refine ⟨fun hcondition => ?_, h.2⟩
    have hsettles := h.1 hcondition
    exact ⟨hsettles.raised, hsettles.current, hsettles.attempted, hsettles.settled,
      hsettles.kept⟩
  unfold harmless Pass.processRecord
  cases payloadFromRecord record with
  | error error =>
      dsimp only
      cases valueErrorText error with
      | none => exact hraise _ error
      | some message => exact hbegun (hfail message true)
  | ok payload =>
      cases outcome.submission with
      | raises error => exact hraise _ error
      | timedOut =>
          have htimeout := hfail timeoutError false
          rw [show timeoutError.encodable = true by decide] at htimeout
          exact hbegun htimeout
      | exited exitcode file =>
          cases file with
          | absent =>
              have hexit := hfail (childExitError exitcode) true
              rw [show (childExitError exitcode).encodable = true from
                Text.encodable_append (Text.encodable_append (by decide)
                    (Text.encodable_decimalInt exitcode))
                  (by decide)] at hexit
              exact hbegun hexit
          | truncated => exact hraise _ .endOfFile
          | complete result =>
              cases result with
              | error error =>
                  have herror := hfail (submissionFailed error) true
                  rw [encodable_submissionFailed] at herror
                  exact hbegun herror
              | response response =>
                  exact hbegun (settleResponse_decides (s := begun) hmax hstored hopen hraised rfl
                    response)

end

/-! ## The batch -/

section

variable {platform : Platform} {config : Config} {outcome : Nat → RecordOutcome}

/-- What the loop has reached: the records before are settled, those to come wait. -/
structure Underway (done todo : List MessageRecord) (s : Pass) : Prop where
  raised : s.raised = none
  stored : ∀ id row, s.db.message id = some row → row.bindable = true
  attempted : s.attempted = done.map MessageRecord.id
  settled : ∀ record ∈ done, ∀ row, s.db.message record.id = some row →
    row.status ≠ .processing
  waiting : ∀ record ∈ todo, ∃ row, s.db.message record.id = some row ∧ row.Open

theorem Underway.next {done todo : List MessageRecord} {record : MessageRecord} {s t : Pass}
    (h : Underway done (record :: todo) s)
    (hdistinct : ∀ other ∈ done ++ todo, other.id ≠ record.id)
    (hsettles : Settles record.id { s with attempted := s.attempted ++ [record.id] } t) :
    Underway (done ++ [record]) todo t := by
  have hother : ∀ other ∈ done ++ todo, some record.id ≠ some other.id :=
    fun other hmem heq => hdistinct other hmem (Option.some.inj heq).symm
  refine ⟨hsettles.raised, hsettles.kept.stored h.stored, ?_, ?_, ?_⟩
  · rw [hsettles.attempted, h.attempted, List.map_append]
    rfl
  · intro other hmem
    rcases List.mem_append.mp hmem with hold | hnew
    · exact hsettles.kept.settled other.id (hother other (List.mem_append_left _ hold))
        (h.settled other hold)
    · rw [List.mem_singleton.mp hnew]
      exact hsettles.settled
  · intro other hmem
    exact hsettles.kept.waiting other.id (hother other (List.mem_append_right _ hmem))
      (h.waiting other (List.mem_cons_of_mem record hmem))

/-- The loop settles its records one after the other, or ends at the first that raises. -/
theorem processBatch_isolated_iff (hmax : bindableInt config.maxRetries = true)
    {done todo : List MessageRecord} {s : Pass}
    (hdistinct : ((done ++ todo).map MessageRecord.id).Nodup) (h : Underway done todo s) :
    Isolated (done ++ todo)
        (Pass.processBatch platform config false outcome todo s) ↔
      (∀ record ∈ todo, harmless config (outcome record.id) record = true) ∧
        (todo = [] → s.health.currentRecordId = none) := by
  induction todo generalizing done s with
  | nil =>
      rw [List.append_nil]
      constructor
      · exact fun hisolated => ⟨by simp, fun _ => hisolated.current⟩
      · rintro ⟨-, hcurrent⟩
        exact ⟨h.attempted, h.settled, hcurrent rfl⟩
  | cons record todo ih =>
      have hothers : ∀ other ∈ done ++ todo, other.id ≠ record.id := by
        intro other hother heq
        rw [List.map_append, List.map_cons, List.nodup_append] at hdistinct
        rcases List.mem_append.mp hother with hmem | hmem
        · exact hdistinct.2.2 _ (List.mem_map_of_mem hmem) _ List.mem_cons_self heq
        · exact (List.nodup_cons.mp hdistinct.2.1).1 (heq ▸ List.mem_map_of_mem hmem)
      let begun := { s with attempted := s.attempted ++ [record.id] }
      have hdecides : Decides (harmless config (outcome record.id) record) record.id begun
          (begun.processRecord platform config (outcome record.id) record) :=
        processRecord_decides hmax h.stored (h.waiting record List.mem_cons_self) h.raised
      have hloop : Pass.processBatch platform config false outcome (record :: todo) s =
          match (begun.processRecord platform config (outcome record.id) record).raised with
          | some _ => begun.processRecord platform config (outcome record.id) record
          | none => Pass.processBatch platform config false outcome todo
              (begun.processRecord platform config (outcome record.id) record) := rfl
      rw [hloop]
      cases hharmless : harmless config (outcome record.id) record with
      | true =>
          have hsettles := hdecides.1 hharmless
          have hnext := h.next hothers hsettles
          rw [hsettles.raised]
          rw [List.append_cons] at hdistinct ⊢
          rw [ih hdistinct hnext, List.forall_mem_cons]
          constructor
          · exact fun hrest => ⟨⟨hharmless, hrest.1⟩, nofun⟩
          · exact fun hall => ⟨hall.1.2, fun _ => hsettles.current⟩
      | false =>
          have hescapes := hdecides.2 hharmless
          constructor
          · intro hisolated
            have hcurrent := hisolated.current
            cases hraised : (begun.processRecord platform config (outcome record.id)
                record).raised with
            | none => exact absurd hraised hescapes.raised
            | some error =>
                rw [hraised] at hcurrent
                cases hescapes.current.symm.trans hcurrent
          · intro hall
            rw [hall.1 record List.mem_cons_self] at hharmless
            cases hharmless

/-- A batch that is not empty was claimed with bindable settings. -/
theorem claim_bindable {batchSize maxRetries : Int} {now : Datetime} {db after : Database}
    {records : List MessageRecord}
    (h : claimPendingMessages platform batchSize maxRetries now db = .ok (records, after))
    (hnonempty : records ≠ []) : bindableInt maxRetries = true := by
  unfold claimPendingMessages at h
  split at h
  · cases h
    exact absurd rfl hnonempty
  · split at h
    · cases h
    · next hbound =>
      simp only [Bool.not_eq_true', Bool.not_eq_false, Bool.and_eq_true] at hbound
      exact hbound.1

/--
Batch isolation.  For every claimed batch, every outcome of its records and all
transactions of the other threads in between: `run_once` without a stop processes every
record, leaves none in PROCESSING and has no current record exactly when nothing that
happens to a record of the batch raises.  An empty batch leaves the current record that
an exception of an earlier `run_once` has left.
-/
theorem batch_isolated_iff (platform : Platform) (config : Config) (login : Login)
    (now : Datetime) (outcome : Nat → RecordOutcome) (health : WorkerHealth) {db : Database}
    (hstored : ∀ id row, db.message id = some row → row.bindable = true) :
    Isolated (claimedBatch platform config login now db)
        (runOnce platform config false login now outcome health db) ↔
      (∀ record ∈ claimedBatch platform config login now db,
        harmless config (outcome record.id) record = true) ∧
      (claimedBatch platform config login now db = [] →
        health.currentRecordId = none) := by
  have hempty : ∀ {s : Pass}, s.attempted = [] →
      s.health.currentRecordId = health.currentRecordId →
      (Isolated [] s ↔ (∀ record ∈ ([] : List MessageRecord),
        harmless config (outcome record.id) record = true) ∧
          (([] : List MessageRecord) = [] → health.currentRecordId = none)) := by
    intro s hattempted hcurrent
    constructor
    · exact fun hisolated => ⟨by simp, fun _ => hcurrent.symm.trans hisolated.current⟩
    · exact fun hnone => ⟨hattempted, by simp, hcurrent.trans (hnone.2 rfl)⟩
  have hbatch : ∀ {records : List MessageRecord} {claimed : Database}
      {begun : WorkerHealth}, begun.currentRecordId = health.currentRecordId →
      claimPendingMessages platform config.batchSize config.maxRetries now db =
        .ok (records, claimed) →
      (Isolated records (Pass.processBatch platform config false outcome records
          ⟨begun, claimed, [], none⟩) ↔
        (∀ record ∈ records, harmless config (outcome record.id) record = true) ∧
          (records = [] → health.currentRecordId = none)) := by
    intro records claimed begun hcurrent hclaim
    by_cases hnil : records = []
    · subst hnil
      exact hempty rfl hcurrent
    · rcases claimPendingMessages_eq_ok hclaim with ⟨-, -, hdistinct, hin, hout⟩
      have hunderway : Underway [] records ⟨begun, claimed, [], none⟩ := by
        refine ⟨rfl, ?_, rfl, by simp, ?_⟩
        · intro id row hrow
          have hrun : (Job.claim config.batchSize config.maxRetries).run platform now db =
              .ok (.claimed records, claimed) := map_eq_ok.mpr ⟨_, hclaim, rfl⟩
          have hchange := Job.rowChange hrun id
          rw [show claimed.message id = some row from hrow] at hchange
          exact hchange.bindable (hstored id)
        · intro record hrecord
          rcases hin record hrecord with ⟨row, -, -, heq, hnow⟩
          refine ⟨record, hnow, .inl ?_⟩
          rw [heq]
          rfl
      rw [← hcurrent]
      exact processBatch_isolated_iff (claim_bindable hclaim hnil)
        (show (([] ++ records).map MessageRecord.id).Nodup from hdistinct) hunderway
  cases login with
  | refused => exact hempty rfl rfl
  | raises error => exact hempty rfl rfl
  | authenticated | succeeds =>
      simp only [claimedBatch, runOnce]
      cases hclaim : claimPendingMessages platform config.batchSize config.maxRetries now db with
      | error error => exact hempty rfl rfl
      | ok result => exact hbatch rfl hclaim

end

/-! ## A batch of two -/

def quietOutcome (response : OdooResponse) : RecordOutcome where
  attemptAt := noon
  completedAt := noon
  committedAt := noon
  finishedAt := noon
  meanwhile := []
  byOthers := by simp
  submission := .exited 0 (.complete (.response response))
  storage := none
  publisher := none

def noHealth : WorkerHealth := ⟨none, none, none, none, none, 0⟩

/-- A success whose result holds a `DateTime` of `xmlrpc.client`. -/
def dateTimeResponse : OdooResponse where
  value := .dict [(str "success", .bool true),
    (str "result", .dict [(str "ACK", .text (str "A1")), (str "printed_at", .object)])]
  unmarshalled := by decide

def twoReceived : List Label := receives compactPayload ++ receives nextPayload

def sampleRunOnce (response : OdooResponse) (db : Database) : Pass :=
  runOnce samplePlatform sampleConfig false .authenticated noon
    (fun _ => quietOutcome response) noHealth db

def sampleBatch (db : Database) : List MessageRecord :=
  claimedBatch samplePlatform sampleConfig .authenticated noon db

theorem batch_isolated_iff_sample :
    ∃ s, (bridgeSystem samplePlatform sampleConfig).exec
        (bridgeSystem samplePlatform sampleConfig).init twoReceived = some s ∧
      (sampleBatch s.wal.data).map MessageRecord.id = [1, 2] ∧
      Isolated (sampleBatch s.wal.data) (sampleRunOnce sampleOdooResponse s.wal.data) := by
  have hrun : ((bridgeSystem samplePlatform sampleConfig).exec
      (bridgeSystem samplePlatform sampleConfig).init twoReceived).map (fun s =>
        ((sampleBatch s.wal.data).map MessageRecord.id,
          (sampleBatch s.wal.data).all fun record =>
            harmless sampleConfig (quietOutcome sampleOdooResponse) record)) =
      some ([1, 2], true) := by decide +kernel
  rcases Option.map_eq_some_iff.mp hrun with ⟨s, hs, hvalues⟩
  simp only [Prod.mk.injEq, List.all_eq_true] at hvalues
  refine ⟨s, hs, hvalues.1, ?_⟩
  exact (batch_isolated_iff samplePlatform sampleConfig .authenticated noon _ noHealth
    (bridge_bindable ⟨twoReceived, hs, rfl⟩)).mpr ⟨hvalues.2, fun _ => rfl⟩

/-- A response that `json.dumps` rejects ends the batch: the second record is never
processed and stays in PROCESSING, and the first stays the current one. -/
theorem raising_record_strands_batch :
    ∃ s, (bridgeSystem samplePlatform sampleConfig).exec
        (bridgeSystem samplePlatform sampleConfig).init twoReceived = some s ∧
      (sampleBatch s.wal.data).map MessageRecord.id = [1, 2] ∧
      (sampleRunOnce dateTimeResponse s.wal.data).attempted = [1] ∧
      ((sampleRunOnce dateTimeResponse s.wal.data).db.message 2).map MessageRecord.status =
        some .processing ∧
      (sampleRunOnce dateTimeResponse s.wal.data).health.currentRecordId = some 1 ∧
      ¬ Isolated (sampleBatch s.wal.data) (sampleRunOnce dateTimeResponse s.wal.data) := by
  have hrun : ((bridgeSystem samplePlatform sampleConfig).exec
      (bridgeSystem samplePlatform sampleConfig).init twoReceived).map (fun s =>
        ((sampleBatch s.wal.data).map MessageRecord.id,
          (sampleRunOnce dateTimeResponse s.wal.data).attempted,
          ((sampleRunOnce dateTimeResponse s.wal.data).db.message 2).map MessageRecord.status,
          (sampleRunOnce dateTimeResponse s.wal.data).health.currentRecordId)) =
      some ([1, 2], [1], some .processing, some 1) := by decide +kernel
  rcases Option.map_eq_some_iff.mp hrun with ⟨s, hs, hvalues⟩
  simp only [Prod.mk.injEq] at hvalues
  rcases hvalues with ⟨hbatch, hattempted, hstatus, hcurrent⟩
  refine ⟨s, hs, hbatch, hattempted, hstatus, hcurrent, ?_⟩
  intro hisolated
  cases hcurrent.symm.trans hisolated.current

end EdgeBridge
