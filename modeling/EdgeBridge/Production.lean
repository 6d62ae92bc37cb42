import EdgeBridge.OdooResponse
import EdgeBridge.Queue

/-!
# Production records and the daily summary

`mark_completed`, `reconcile_completed_production_records` and
`cleanup_raw_operational_data`, each as the effect of its whole transaction.
-/

namespace EdgeBridge

open Foundation

/-! ## Parameter binding -/

inductive Binding where
  | int (value : Option Int)
  | text (value : Option Text)

def Binding.defect : Binding → Option PyError
  | .int value => if bindableOptInt value then none else some .overflowError
  | .text value => if bindableOptText value then none else some .unicodeEncodeError

/-- The parameters of a statement are bound in order. -/
def bindAll (bindings : List Binding) : Except PyError Unit :=
  match bindings.findSome? Binding.defect with
  | some error => .error error
  | none => .ok ()

@[simp] theorem Binding.defect_int {value : Option Int} :
    (Binding.int value).defect = none ↔ bindableOptInt value = true := by
  simp [Binding.defect]

@[simp] theorem Binding.defect_text {value : Option Text} :
    (Binding.text value).defect = none ↔ bindableOptText value = true := by
  simp [Binding.defect]

theorem bindAll_eq_ok {bindings : List Binding}
    (h : ∀ binding ∈ bindings, binding.defect = none) : bindAll bindings = .ok () := by
  unfold bindAll
  rw [List.findSome?_eq_none_iff.mpr h]

theorem defect_of_bindAll {bindings : List Binding} {done : Unit}
    (h : bindAll bindings = .ok done) {binding : Binding} (hmem : binding ∈ bindings) :
    binding.defect = none := by
  unfold bindAll at h
  split at h
  · cases h
  · next hnone => exact List.findSome?_eq_none_iff.mp hnone binding hmem

theorem encodable_formatTimestamp (time : Datetime) :
    (formatTimestamp time).encodable = true :=
  time.isAscii_isoformat.encodable

/-! ## `_upsert_production_record_and_summary` -/

/-- What is written about a completed message besides its own columns. -/
structure Completion where
  completedAt : Text
  machineId : Text
  ack : Text
  metadata : ProductionMetadata
  rawOdooResponse : Text

/-- `_production_date`. -/
def productionDate (platform : Platform) : Text → Except PyError Text
  | [] => .error (.valueError (str "completed_at is required"))
  | completedAt => do
      let parsed ← parseTimestamp platform completedAt
      .ok (Calendar.dateText (parsed.second / 86400))

theorem formatTimestamp_ne_nil (time : Datetime) : formatTimestamp time ≠ [] := by
  intro hnil
  have hcons : ∃ c rest, formatTimestamp time = c :: rest := ⟨_, _, rfl⟩
  obtain ⟨c, rest, hcons⟩ := hcons
  rw [hcons] at hnil
  cases hnil

theorem productionDate_formatTimestamp (platform : Platform) (time : Datetime) :
    productionDate platform (formatTimestamp time) =
      .ok (Calendar.dateText (time.second / 86400)) := by
  have hparse : parseTimestamp platform (formatTimestamp time) = .ok time.truncate := by
    simp [parseTimestamp, fromIsoformat_formatTimestamp]
  cases htext : formatTimestamp time with
  | nil => exact absurd htext (formatTimestamp_ne_nil time)
  | cons c rest =>
      rw [htext] at hparse
      simp [productionDate, hparse, bind, Except.bind]

def newProductionRecord (source : MessageRecord) (completion : Completion)
    (productionDate createdAt : Text) (summaryApplied : Bool) : ProductionRecord where
  id := 0
  mqttMessageId := source.id
  completedAt := completion.completedAt
  productionDate := productionDate
  messageType := source.messageType
  machineId := completion.machineId
  tableNo := source.tableNo
  model := source.model
  serial := source.serial
  ack := completion.ack
  customerId := completion.metadata.customerId
  customerName := completion.metadata.customerName
  operatorId := completion.metadata.operatorId
  operatorName := completion.metadata.operatorName
  numberOfOperators := completion.metadata.numberOfOperators
  batchNumber := completion.metadata.batchNumber
  status := .completed
  rawOdooResponse := completion.rawOdooResponse
  createdAt := createdAt
  summaryApplied := summaryApplied

def ProductionRecord.metadata (record : ProductionRecord) : ProductionMetadata :=
  ⟨record.customerId, record.customerName, record.operatorId, record.operatorName,
    record.numberOfOperators, record.batchNumber⟩

def productionBindings (source : MessageRecord) (completion : Completion)
    (productionDate : Text) : List Binding :=
  [.text completion.completedAt, .text productionDate, .text source.messageType,
    .text completion.machineId, .text source.tableNo, .text source.model,
    .text source.serial, .text completion.ack, .int completion.metadata.customerId,
    .text completion.metadata.customerName, .int completion.metadata.operatorId,
    .text completion.metadata.operatorName, .int completion.metadata.numberOfOperators,
    .text completion.metadata.batchNumber, .text completion.rawOdooResponse]

/-- The columns of the message that are bound again. -/
def MessageRecord.bindable (source : MessageRecord) : Bool :=
  source.messageType.encodable && source.tableNo.encodable &&
    source.model.encodable && source.serial.encodable

/-- `ON CONFLICT(mqtt_message_id) DO UPDATE SET ...`. -/
def overwriteRecord (record : ProductionRecord) : Table.Update ProductionRecord where
  apply existing :=
    { record with
      id := existing.id
      mqttMessageId := existing.mqttMessageId
      createdAt := existing.createdAt
      summaryApplied := existing.summaryApplied }

/-- `INSERT ... ON CONFLICT(mqtt_message_id) DO UPDATE`, which uses up an id either way. -/
def writeProductionRecord (record : ProductionRecord) (db : Database) : Database :=
  match db.productionRecords.insert record with
  | some table => { db with productionRecords := table }
  | none =>
      { db with
        productionRecords := (db.productionRecords.update
          (fun existing => existing.mqttMessageId == record.mqttMessageId)
          (overwriteRecord record)).skipId }

def firstSummary (record : ProductionRecord) (nowText : Text) : DailySummary where
  id := 0
  productionDate := record.productionDate
  machineId := record.machineId
  tableNo := record.tableNo
  model := record.model
  customerId := record.customerId
  customerName := record.customerName
  batchNumber := record.batchNumber
  operatorId := record.operatorId
  operatorName := record.operatorName
  numberOfOperators := record.numberOfOperators
  productionCount := 1
  firstAck := record.ack
  lastAck := record.ack
  firstCompletedAt := record.completedAt
  lastCompletedAt := record.completedAt
  createdAt := nowText
  updatedAt := nowText

def addToSummary (record : ProductionRecord) (nowText : Text) :
    Table.Update DailySummary where
  apply row :=
    { row with
      productionCount := row.productionCount + 1
      firstAck := if record.completedAt < row.firstCompletedAt then record.ack
        else row.firstAck
      lastAck := if row.lastCompletedAt ≤ record.completedAt then record.ack
        else row.lastAck
      firstCompletedAt := if record.completedAt < row.firstCompletedAt then
        record.completedAt else row.firstCompletedAt
      lastCompletedAt := if row.lastCompletedAt ≤ record.completedAt then
        record.completedAt else row.lastCompletedAt
      customerName := record.customerName.or row.customerName
      operatorName := record.operatorName.or row.operatorName
      numberOfOperators := record.numberOfOperators.or row.numberOfOperators
      updatedAt := nowText }

/-- `_increment_daily_summary` for the values of a production record. -/
def incrementDailySummary (record : ProductionRecord) (nowText : Text)
    (db : Database) : Except PyError Database :=
  match db.dailySummary.find? fun row => row.key == record.key with
  | some row =>
      .ok { db with
        dailySummary := db.dailySummary.update (fun other => other.id == row.id)
          (addToSummary record nowText) }
  | none =>
      match db.dailySummary.insert (firstSummary record nowText) with
      | some table => .ok { db with dailySummary := table }
      | none => .error .integrityError

def markApplied : Table.Update ProductionRecord where
  apply record := { record with summaryApplied := true }

def setSummaryApplied (messageId : Nat) (db : Database) : Database :=
  { db with
    productionRecords := db.productionRecords.update
      (fun record => record.mqttMessageId == messageId) markApplied }

def Database.productionRecord (db : Database) (messageId : Nat) :
    Option ProductionRecord :=
  db.productionRecords.find? fun record => record.mqttMessageId == messageId

/-- `_production_summary_applied`. -/
def summaryApplied (db : Database) (messageId : Nat) : Bool :=
  (db.productionRecord messageId).any ProductionRecord.summaryApplied

def upsertProductionRecordAndSummary (platform : Platform) (source : MessageRecord)
    (completion : Completion) (now : Datetime) (db : Database) :
    Except PyError (Bool × Database) := do
  let date ← productionDate platform completion.completedAt
  bindAll (productionBindings source completion date)
  let alreadyApplied := summaryApplied db source.id
  let record := newProductionRecord source completion date (formatTimestamp now)
    alreadyApplied
  let written := writeProductionRecord record db
  if alreadyApplied then .ok (false, written)
  else do
    let counted ← incrementDailySummary record (formatTimestamp now) written
    .ok (true, setSummaryApplied source.id counted)

/-! ## `mark_completed` -/

def defaultMachineId : Text := str "BEB"

/-- The arguments of `mark_completed`. -/
structure CompletionArguments where
  odooResponse : Text
  completedAt : Text
  ack : Option Text
  metadata : ProductionMetadata
  machineId : Option Text

/-- The ACK when it is there and not empty. -/
def truthy (ack : Option Text) : Option Text := ack.filter fun text => !text.isEmpty

def completeMessage (arguments : CompletionArguments)
    (metadata : ProductionMetadata) : Table.Update MessageRecord where
  apply record :=
    { record with
      status := .completed
      processedAt := some arguments.completedAt
      completedAt := some arguments.completedAt
      lastError := none
      odooResponse := some arguments.odooResponse
      ack := arguments.ack
      customerId := metadata.customerId
      customerName := metadata.customerName
      operatorId := metadata.operatorId
      operatorName := metadata.operatorName
      batchNumber := metadata.batchNumber }

def completionBindings (arguments : CompletionArguments)
    (metadata : ProductionMetadata) : List Binding :=
  [.text arguments.completedAt, .text arguments.odooResponse, .text arguments.ack,
    .int metadata.customerId, .text metadata.customerName, .int metadata.operatorId,
    .text metadata.operatorName, .text metadata.batchNumber]

/-- The metadata arguments, completed from the response text if there is an ACK. -/
def completionMetadata (arguments : CompletionArguments) :
    Except PyError ProductionMetadata :=
  match truthy arguments.ack with
  | none => .ok (arguments.metadata.orElse .none)
  | some _ =>
      (productionMetadataFromResponse arguments.odooResponse).map arguments.metadata.orElse

def CompletionArguments.completion (arguments : CompletionArguments) (ack : Text)
    (metadata : ProductionMetadata) : Completion where
  completedAt := arguments.completedAt
  machineId := (truthy arguments.machineId).getD defaultMachineId
  ack := ack
  metadata := metadata
  rawOdooResponse := arguments.odooResponse

def writeCompletion (messageId : Nat) (arguments : CompletionArguments)
    (metadata : ProductionMetadata) (db : Database) : Database :=
  { db with
    mqttMessages := db.mqttMessages.update (fun record => record.id == messageId)
      (completeMessage arguments metadata) }

def markCompleted (platform : Platform) (messageId : Nat)
    (arguments : CompletionArguments) (now : Datetime) (db : Database) :
    Except PyError Database :=
  match db.message messageId with
  | none => .error (.valueError (str "Message id not found"))
  | some source => do
      let metadata ← completionMetadata arguments
      bindAll (completionBindings arguments metadata)
      let marked := writeCompletion messageId arguments metadata db
      match truthy arguments.ack with
      | none => .ok marked
      | some ack => do
          let (_, counted) ← upsertProductionRecordAndSummary platform source
            (arguments.completion ack metadata) now marked
          .ok counted

/-! ## `reconcile_completed_production_records` -/

structure ReconciliationResult where
  scannedRows : Nat
  recoveredRecords : Nat
  recoveredSummaries : Nat
  skippedRows : Nat
  deriving DecidableEq

/-- `p.id IS NULL OR p.summary_applied = 0` after the left join. -/
def needsReconciliation (db : Database) (record : MessageRecord) : Bool :=
  record.status == .completed && record.completedAt.isSome &&
    record.odooResponse.isSome && record.ack.isSome && !summaryApplied db record.id

def reconciliationRows (limit : Int) (db : Database) : List MessageRecord :=
  (db.mqttMessages.select (needsReconciliation db)).take limit.toNat

def reconcileRecord (platform : Platform) (machineId : Text) (now : Datetime)
    (record : MessageRecord) (db : Database) : Except PyError (Bool × Database) := do
  let odooResponse := record.odooResponse.getD []
  let metadata ← productionMetadataFromResponse odooResponse
  upsertProductionRecordAndSummary platform record
    ⟨record.completedAt.getD [], machineId, record.ack.getD [], metadata, odooResponse⟩
    now db

/-- One round of the loop; an exception skips the row and the loop goes on. -/
def reconcileRow (platform : Platform) (machineId : Text) (now : Datetime)
    (state : ReconciliationResult × Database) (record : MessageRecord) :
    ReconciliationResult × Database :=
  let result := { state.1 with scannedRows := state.1.scannedRows + 1 }
  match reconcileRecord platform machineId now record state.2 with
  | .error _ => ({ result with skippedRows := result.skippedRows + 1 }, state.2)
  | .ok (applied, db) =>
      ({ result with
        recoveredSummaries := result.recoveredSummaries + if applied then 1 else 0
        recoveredRecords := result.recoveredRecords +
          if summaryApplied state.2 record.id then 0 else 1 }, db)

def reconcileCompletedProductionRecords (platform : Platform) (machineId : Text)
    (limit : Int) (now : Datetime) (db : Database) :
    Except PyError (ReconciliationResult × Database) :=
  if limit ≤ 0 then .ok (⟨0, 0, 0, 0⟩, db)
  else do
    bindAll [.int limit]
    .ok ((reconciliationRows limit db).foldl (reconcileRow platform machineId now)
      (⟨0, 0, 0, 0⟩, db))

/-! ## `cleanup_raw_operational_data` -/

structure CleanupResult where
  deletedMqttMessages : Nat
  deletedApiCommands : Nat
  deletedProductionRecords : Nat
  error : Option PyError
  deriving DecidableEq

def cleanupCutoff (retentionDays : Int) (now : Datetime) : Except PyError Text :=
  (now.shift (-(retentionDays * 86400))).map formatTimestamp

def isCleanableMessage (cutoff : Text) (db : Database) (record : MessageRecord) : Bool :=
  record.status == .completed &&
    record.completedAt.any (fun completedAt => decide (completedAt < cutoff)) &&
    summaryApplied db record.id

/-- A completed row that a cleanup with this retention is allowed to delete. -/
def isExpired (retentionDays : Int) (now : Datetime) (record : MessageRecord) : Bool :=
  match cleanupCutoff retentionDays now with
  | .ok cutoff => record.status == .completed &&
      record.completedAt.any fun completedAt => decide (completedAt < cutoff)
  | .error _ => false

/-- `PUBLISHED`, `FAILED`, `REJECTED` and `DUPLICATE`. -/
def ApiCommandStatus.isTerminal : ApiCommandStatus → Bool
  | .received => false
  | _ => true

def isCleanableCommand (cutoff : Text) (record : ApiCommandRecord) : Bool :=
  record.status.isTerminal && decide (record.receivedAt < cutoff)

def isCleanableProduction (cutoff : Text) (record : ProductionRecord) : Bool :=
  record.summaryApplied && decide (record.completedAt < cutoff)

/-- `DELETE ... WHERE id IN (SELECT id ... ORDER BY id ASC LIMIT ?)`. -/
def cleanableIds {α : Type} [Row α] (table : Table α) (which : α → Bool)
    (limit : Nat) : List Nat :=
  ((table.select which).take limit).map rowId

def deleteIds {α : Type} [Row α] (table : Table α) (ids : List Nat) : Table α :=
  table.delete fun row => ids.contains (rowId row)

def deleteBatch (cutoff : Text) (batchSize : Nat) (db : Database) :
    CleanupResult × Database :=
  let messageIds := cleanableIds db.mqttMessages (isCleanableMessage cutoff db) batchSize
  let commandIds := cleanableIds db.apiCommands (isCleanableCommand cutoff)
    (batchSize - messageIds.length)
  let recordIds := cleanableIds db.productionRecords (isCleanableProduction cutoff)
    (batchSize - messageIds.length - commandIds.length)
  (⟨messageIds.length, commandIds.length, recordIds.length, none⟩,
    { db with
      mqttMessages := deleteIds db.mqttMessages messageIds
      apiCommands := deleteIds db.apiCommands commandIds
      productionRecords := deleteIds db.productionRecords recordIds })

/-- An exception of the deletions is caught, and rolls them all back. -/
def cleanupRawOperationalData (platform : Platform) (retentionDays batchSize : Int)
    (now : Datetime) (db : Database) : Except PyError (CleanupResult × Database) :=
  if retentionDays < 0 then .error (.valueError (str "retention_days must be >= 0"))
  else if batchSize ≤ 0 then .ok (⟨0, 0, 0, none⟩, db)
  else do
    let cutoff ← cleanupCutoff retentionDays now
    let messageIds := cleanableIds db.mqttMessages (isCleanableMessage cutoff db)
      batchSize.toNat
    if !bindableInt batchSize then .ok (⟨0, 0, 0, some .overflowError⟩, db)
    else if platform.maxVariables < messageIds.length then
      .ok (⟨0, 0, 0, some (.operationalError (str "too many SQL variables"))⟩, db)
    else .ok (deleteBatch cutoff batchSize.toNat db)

end EdgeBridge
