import EdgeBridge.Foundation.Wal
import EdgeBridge.Ledger

/-!
# The threads of the bridge

The worker, its watchdog, the MQTT callback, the API and the lifecycle thread,
each with its program counter and its connection, interleaved statement by
statement.  Labels carry the clock readings and the outcomes of the outside
world: the submission child, the messages, the settings after a restart.
-/

namespace EdgeBridge

open Foundation

inductive Thread where
  | worker
  | watchdog
  | mqtt
  | lifecycle
  | api
  deriving DecidableEq

structure Config where
  batchSize : Int
  maxRetries : Int
  staleProcessingTimeout : Int
  submissionTimeout : Int
  machineId : Text

/-! ## Program counters -/

/-- What the child wrote: `{"ok": True, ...}` or the error of an exception. -/
inductive ChildResult where
  | response (response : OdooResponse)
  | error (error : Text)

/-- The result file of the child; opening it for writing truncates it. -/
inductive ResultFile where
  | absent
  | truncated
  | complete (result : ChildResult)

/-- A response that is going to be acknowledged, and its text. -/
structure Acknowledged where
  response : OdooResponse
  responseText : Text
  ack : Text
  dumped : dumpResponse response = .ok responseText
  extracted : extractAck response.value = some ack

def Acknowledged.arguments (acknowledged : Acknowledged) (config : Config)
    (completedAt : Text) : CompletionArguments where
  odooResponse := acknowledged.responseText
  completedAt := completedAt
  ack := some acknowledged.ack
  metadata := extractDashboardMetadata acknowledged.response.value
  machineId := some config.machineId

/-- Where `_process_record` stands. -/
inductive RecordStage where
  /-- The child is registered as active, but not started. -/
  | starting (startedAt : Datetime)
  /-- `exitcode` is `none` as long as the child is alive. -/
  | submitting (startedAt : Datetime) (exitcode : Option Int) (file : ResultFile)
  | responded (response : OdooResponse)
  | failing (failure : Failure)
  | completing (acknowledged : Acknowledged) (completedAt : Text)
  | publishing (ack : Text)

inductive WorkerState where
  | idle
  | claiming
  | batch (records : List MessageRecord)
  | processing (record : MessageRecord) (lastAttemptAt : Text) (stage : RecordStage)
      (rest : List MessageRecord)

inductive WatchdogState where
  | idle
  | recovering (staleBefore : Text) (excludeIds : List Nat)

inductive MqttState where
  | idle
  | saving (message : IncomingMessage)
  /-- The row was found or added; what is left of `_on_message` changes nothing. -/
  | handled (messageHash : Text)
  | duplicate (saved : SavedMessage)
  | duplicateByHash (messageHash : Text)
  | replaying (id : Nat) (messageHash ack : Text)
  | publishing (id : Nat) (messageHash ack : Text)

inductive LifecycleState where
  | idle
  | cleaning (retentionDays batchSize : Int)
  | reconciling (limit : Int)

structure Bridge where
  config : Config
  wal : Wal Database Thread
  worker : WorkerState
  watchdog : WatchdogState
  mqtt : MqttState
  lifecycle : LifecycleState
  api : Option AuditWrite
  stopping : Bool

def Bridge.start (config : Config) (db : Database) : Bridge :=
  ⟨config, .start db, .idle, .idle, .idle, .idle, none, false⟩

/-! ## Transactions -/

def RecordStage.job (config : Config) (id : Nat) : RecordStage → Option Job
  | .failing failure => some (.fail id failure)
  | .completing acknowledged completedAt =>
      some (.complete id (acknowledged.arguments config completedAt))
  | _ => none

/-- The transaction that a thread is in or about to begin. -/
def Bridge.job (s : Bridge) : Thread → Option Job
  | .worker =>
      match s.worker with
      | .claiming => some (.claim s.config.batchSize s.config.maxRetries)
      | .processing record _ stage _ => stage.job s.config record.id
      | _ => none
  | .watchdog =>
      match s.watchdog with
      | .recovering staleBefore excludeIds => some (.recover staleBefore excludeIds)
      | .idle => none
  | .mqtt =>
      match s.mqtt with
      | .saving message => some (.save message)
      | .replaying _ messageHash _ => some (.replay messageHash)
      | _ => none
  | .lifecycle =>
      match s.lifecycle with
      | .cleaning retentionDays batchSize => some (.cleanup retentionDays batchSize)
      | .reconciling limit => some (.reconcile s.config.machineId limit)
      | .idle => none
  | .api => s.api.map .audit

/-- The transactions whose first statement is a `SELECT` under a deferred `BEGIN`. -/
def Job.readsFirst : Job → Bool
  | .save _ | .complete _ _ | .reconcile _ _ | .cleanup _ _ => true
  | _ => false

/-- The answer of a function that returns or raises before its first write. -/
def Job.earlyAnswer (platform : Platform) (now : Datetime) (db : Database) :
    Job → Option (Except PyError Answer)
  | .save message =>
      match generateMessageHash platform message.topic message.rawPayload with
      | .error error => some (.error error)
      | .ok messageHash =>
          (getSavedMessageByHash db messageHash).map fun existing => .ok (.saved existing)
  | .claim batchSize _ => if batchSize ≤ 0 then some (.ok (.claimed [])) else none
  | .complete id _ =>
      if (db.message id).isNone then
        some (.error (.valueError (str "Message id not found")))
      else none
  | .reconcile _ limit =>
      if limit ≤ 0 || (reconciliationRows limit db).isEmpty then
        some (.ok (.reconciled ⟨0, 0, 0, 0⟩))
      else none
  | .cleanup retentionDays batchSize =>
      if retentionDays < 0 then
        some (.error (.valueError (str "retention_days must be >= 0")))
      else if batchSize ≤ 0 then some (.ok (.cleaned ⟨0, 0, 0, none⟩))
      else
        match cleanupCutoff retentionDays now with
        | .error error => some (.error error)
        | .ok _ => none
  | _ => none

/-- A transaction that changed no row leaves nothing in the log to conflict with. -/
def Answer.wrote : Answer → Bool
  | .saved message => message.inserted
  | .claimed records => !records.isEmpty
  | .recovered count => 0 < count
  | .replayed attempt => attempt.allowed
  | .reconciled result => result.skippedRows < result.scannedRows
  | .cleaned result => 0 < result.deletedMqttMessages + result.deletedApiCommands +
      result.deletedProductionRecords
  | .done => true

def databaseIsLocked : PyError := .operationalError (str "database is locked")

/-- Where the worker goes on after a transaction. -/
def WorkerState.answered : WorkerState → Answer → WorkerState
  | .claiming, .claimed records => .batch records
  | .processing _ _ (.failing _) rest, _ => .batch rest
  | .processing record lastAttemptAt (.completing acknowledged _) rest, _ =>
      .processing record lastAttemptAt (.publishing acknowledged.ack) rest
  | _, _ => .idle

/-- Where the MQTT callback goes on after a transaction. -/
def MqttState.answered : MqttState → Answer → MqttState
  | .saving _, .saved saved =>
      if saved.inserted then .handled saved.messageHash else .duplicate saved
  | .replaying id messageHash ack, .replayed attempt =>
      if attempt.allowed then .publishing id messageHash ack else .handled messageHash
  | _, _ => .idle

/-- An exception ends the worker's `run_once`, the watchdog's pass, the callback. -/
def Bridge.resume (s : Bridge) : Thread → Except PyError Answer → Bridge
  | .worker, .ok answer => { s with worker := s.worker.answered answer }
  | .worker, .error _ => { s with worker := .idle }
  | .watchdog, _ => { s with watchdog := .idle }
  | .mqtt, .ok answer => { s with mqtt := s.mqtt.answered answer }
  | .mqtt, .error _ => { s with mqtt := .idle }
  | .lifecycle, _ => { s with lifecycle := .idle }
  | .api, _ => { s with api := none }

/-! ## Labels -/

inductive Label where
  /-- The first read of a transaction, or an answer without one. -/
  | begin (thread : Thread) (now : Datetime)
  /-- `BEGIN IMMEDIATE`, or the first write of a transaction. -/
  | lock (thread : Thread)
  /-- The 30 seconds of waiting for the lock are over. -/
  | giveUp (thread : Thread)
  /-- The writes of a transaction and its commit. -/
  | commit (thread : Thread) (now : Datetime)
  | cycle
  | next (now : Datetime)
  | spawn (started : Bool)
  | childOpens
  | childWrites (result : ChildResult)
  | childExits (exitcode : Int)
  | hardTimeout
  | stopKill (exitcode : Int)
  | collect
  | respond (now : Datetime)
  | publishAck
  | watch (now : Datetime)
  | deliver (topic : Text) (payload : Bytes)
  | lookup
  | publishReplay
  | finishMessage
  | cleanUp (retentionDays batchSize : Int)
  | reconcileOnce (limit : Int)
  | audit (write : AuditWrite)
  | stop
  | startAgain
  | restart (config : Config)

/-! ## The worker -/

def timeoutError : Text :=
  str "Odoo timeout; server-side completion unknown; manual verification required"

def missingAckError : Text := str "Odoo response success=true but missing or invalid ACK"

def childExitError (exitcode : Int) : Text :=
  str "Odoo submission child exited without a result (exitcode=" ++
    Text.decimalInt exitcode ++ str ")"

def submissionFailed (error : Text) : Text :=
  if error.isEmpty then str "Odoo submission failed" else error

def Config.failure (config : Config) (error lastAttemptAt : Text)
    (odooResponse : Option Text) (retryable : Bool) : Failure :=
  ⟨error, lastAttemptAt, odooResponse, retryable, config.maxRetries⟩

/-- The text of a `ValueError`, which `_process_record` stores as the failure. -/
def valueErrorText : PyError → Option Text
  | .valueError message => some message
  | .jsonDecodeError msg => some msg
  | _ => none

/-- The loop of `run_once`: stop, or take the next record and validate it. -/
def nextRecord (config : Config) (stopping : Bool) (now : Datetime) :
    List MessageRecord → WorkerState
  | [] => .idle
  | record :: rest =>
      if stopping then .idle
      else
        let lastAttemptAt := formatTimestamp now
        match payloadFromRecord record with
        | .ok _ => .processing record lastAttemptAt (.starting now) rest
        | .error error =>
            match valueErrorText error with
            | some message =>
                .processing record lastAttemptAt
                  (.failing (config.failure message lastAttemptAt none true)) rest
            | none => .idle

/-- What the parent makes of a child that is no longer alive. -/
def collectResult (config : Config) (lastAttemptAt : Text) (exitcode : Int) :
    ResultFile → Option RecordStage
  | .absent => some (.failing (config.failure (childExitError exitcode) lastAttemptAt
      none true))
  | .truncated => none
  | .complete (.error error) => some (.failing (config.failure (submissionFailed error)
      lastAttemptAt none true))
  | .complete (.response response) => some (.responded response)

/-- From the response to the transaction that records it. -/
def classify (config : Config) (lastAttemptAt : Text) (response : OdooResponse)
    (now : Datetime) : Option RecordStage :=
  match hdump : dumpResponse response with
  | .error _ => none
  | .ok responseText =>
      match getOdooBusinessError response.value with
      | some error => some (.failing (config.failure error lastAttemptAt
          (some responseText) (!isNonRetryableBusinessError error)))
      | none =>
          match hack : extractAck response.value with
          | none => some (.failing (config.failure missingAckError lastAttemptAt
              (some responseText) false))
          | some ack => some (.completing ⟨response, responseText, ack, hdump, hack⟩
              (formatTimestamp now))

/-- A failing step of `_process_record` ends `run_once`. -/
def WorkerState.ofStage (record : MessageRecord) (lastAttemptAt : Text)
    (rest : List MessageRecord) : Option RecordStage → WorkerState
  | some stage => .processing record lastAttemptAt stage rest
  | none => .idle

def workerStep (config : Config) (stopping : Bool) :
    WorkerState → Label → Option WorkerState
  | .idle, .cycle => if stopping then none else some .claiming
  | .batch records, .next now => some (nextRecord config stopping now records)
  | .processing record lastAttemptAt (.starting startedAt) rest, .spawn started =>
      some (.ofStage record lastAttemptAt rest
        (if started then some (.submitting startedAt none .absent) else none))
  | .processing record lastAttemptAt (.submitting startedAt none .absent) rest,
      .childOpens =>
      some (.processing record lastAttemptAt (.submitting startedAt none .truncated) rest)
  | .processing record lastAttemptAt (.submitting startedAt none .truncated) rest,
      .childWrites result =>
      some (.processing record lastAttemptAt
        (.submitting startedAt none (.complete result)) rest)
  | .processing record lastAttemptAt (.submitting startedAt none file) rest,
      .childExits exitcode =>
      some (.processing record lastAttemptAt
        (.submitting startedAt (some exitcode) file) rest)
  | .processing record lastAttemptAt (.submitting startedAt none file) rest,
      .stopKill exitcode =>
      if stopping then
        some (.processing record lastAttemptAt
          (.submitting startedAt (some exitcode) file) rest)
      else none
  | .processing record lastAttemptAt (.submitting _ none _) rest, .hardTimeout =>
      some (.processing record lastAttemptAt
        (.failing (config.failure timeoutError lastAttemptAt none false)) rest)
  | .processing record lastAttemptAt (.submitting _ (some exitcode) file) rest,
      .collect =>
      some (.ofStage record lastAttemptAt rest
        (collectResult config lastAttemptAt exitcode file))
  | .processing record lastAttemptAt (.responded response) rest, .respond now =>
      some (.ofStage record lastAttemptAt rest (classify config lastAttemptAt response now))
  | .processing _ _ (.publishing _) rest, .publishAck => some (.batch rest)
  | _, _ => none

/-! ## The watchdog -/

/-- `_active_record_ids_protected_from_watchdog`. -/
def protectedIds (config : Config) (now : Datetime) : WorkerState → List Nat
  | .processing record _ (.submitting startedAt none _) _ =>
      if config.submissionTimeout * 1000000 < (now.micro : Int) - startedAt.micro then []
      else [record.id]
  | _ => []

/-- The part of `recover_stale_processing` before the transaction. -/
def watchState (config : Config) (worker : WorkerState) (now : Datetime) :
    WatchdogState :=
  match now.shift (-config.staleProcessingTimeout) with
  | .ok staleBefore =>
      .recovering (formatTimestamp staleBefore) (protectedIds config now worker)
  | .error _ => .idle

/-! ## The MQTT callback -/

/-- The checks of `_handle_duplicate_message` on the row it found. -/
def replayState (platform : Platform) (record : MessageRecord) : MqttState :=
  if record.status ≠ .completed then .handled record.messageHash
  else
    match parseStoredOdooResponse platform record.odooResponse with
    | .error _ => .idle
    | .ok none => .handled record.messageHash
    | .ok (some response) =>
        if isSuccess response then
          match extractStoredAck response with
          | none => .handled record.messageHash
          | some ack => .replaying record.id record.messageHash ack
        else .handled record.messageHash

def mqttStep (platform : Platform) (db : Database) :
    MqttState → Label → Option MqttState
  | .idle, .deliver topic payload =>
      match acceptedMessage topic payload with
      | .ok message => some (.saving message)
      | .error _ => some .idle
  | .duplicate saved, .lookup =>
      match db.message saved.id with
      | some record => some (replayState platform record)
      | none => some (.duplicateByHash saved.messageHash)
  | .duplicateByHash messageHash, .lookup =>
      match db.mqttMessages.find? fun record => record.messageHash == messageHash with
      | some record => some (replayState platform record)
      | none => some (.handled messageHash)
  | .publishing _ messageHash _, .publishReplay => some (.handled messageHash)
  | .handled _, .finishMessage => some .idle
  | _, _ => none

/-! ## One step -/

/-- The steps of a thread's current transaction. -/
def Bridge.transactionStep (platform : Platform) (s : Bridge) (job : Job) :
    Label → Option Bridge
  | .begin thread now =>
      match s.wal.transaction thread with
      | .idle =>
          match job.earlyAnswer platform now s.wal.data with
          | some result => some (s.resume thread result)
          | none =>
              if job.readsFirst then some { s with wal := s.wal.read thread } else none
      | _ => none
  | .lock thread =>
      match s.wal.transaction thread with
      | .writing => none
      | .idle =>
          if job.readsFirst then none
          else
            match s.wal.lock thread with
            | .granted wal => some { s with wal := wal }
            | _ => none
      | .reading _ _ =>
          match s.wal.lock thread with
          | .granted wal => some { s with wal := wal }
          | _ => some ({ s with wal := s.wal.close thread }.resume thread
              (.error databaseIsLocked))
  | .giveUp thread =>
      match s.wal.transaction thread, s.wal.lock thread with
      | .idle, .blocked =>
          if job.readsFirst then none
          else some (s.resume thread (.error databaseIsLocked))
      | _, _ => none
  | .commit thread now =>
      match s.wal.transaction thread with
      | .writing =>
          match job.run platform now s.wal.data with
          | .ok (answer, db) =>
              some ({ s with
                wal := if answer.wrote then s.wal.commit thread db
                  else s.wal.close thread }.resume thread (.ok answer))
          | .error error =>
              some ({ s with wal := s.wal.close thread }.resume thread (.error error))
      | _ => none
  | _ => none

def Label.thread : Label → Option Thread
  | .begin thread _ | .lock thread | .giveUp thread | .commit thread _ => some thread
  | _ => none

/-- The steps outside of transactions. -/
def Bridge.localStep (platform : Platform) (s : Bridge) : Label → Option Bridge
  | .watch now =>
      match s.watchdog with
      | .idle =>
          if s.stopping then none
          else some { s with watchdog := watchState s.config s.worker now }
      | .recovering _ _ => none
  | .cleanUp retentionDays batchSize =>
      match s.lifecycle with
      | .idle => some { s with lifecycle := .cleaning retentionDays batchSize }
      | _ => none
  | .reconcileOnce limit =>
      match s.lifecycle with
      | .idle => some { s with lifecycle := .reconciling limit }
      | _ => none
  | .audit write => if s.api.isNone then some { s with api := some write } else none
  | .stop => some { s with stopping := true }
  | .startAgain =>
      match s.worker, s.watchdog with
      | .idle, .idle => some { s with stopping := false }
      | _, _ => none
  | .restart config => some (.start config s.wal.data)
  | .deliver topic payload =>
      (mqttStep platform s.wal.data s.mqtt (.deliver topic payload)).map
        fun mqtt => { s with mqtt := mqtt }
  | .lookup =>
      (mqttStep platform s.wal.data s.mqtt .lookup).map fun mqtt => { s with mqtt := mqtt }
  | .publishReplay =>
      (mqttStep platform s.wal.data s.mqtt .publishReplay).map
        fun mqtt => { s with mqtt := mqtt }
  | .finishMessage =>
      (mqttStep platform s.wal.data s.mqtt .finishMessage).map
        fun mqtt => { s with mqtt := mqtt }
  | label =>
      (workerStep s.config s.stopping s.worker label).map
        fun worker => { s with worker := worker }

def Bridge.step (platform : Platform) (s : Bridge) (label : Label) : Option Bridge :=
  match label.thread with
  | some thread =>
      match s.job thread with
      | some job => s.transactionStep platform job label
      | none => none
  | none => s.localStep platform label

end EdgeBridge
