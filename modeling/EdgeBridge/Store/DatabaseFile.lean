import EdgeBridge.Store.LegacyRows

/-!
# The file of a database

The four tables as rows of SQLite values, with the columns and the indexes that the two
initializations make.  On such a file they find nothing to do, so an operation that starts
with `initialize_database` is its own transaction only.
-/

namespace EdgeBridge

open Foundation
open Foundation.Ddl

namespace SqlValue

def ofNat (value : Nat) : SqlValue := .integer value

def ofOptionalText : Option Text → SqlValue
  | none => .null
  | some value => .text value

def ofOptionalInt : Option Int → SqlValue
  | none => .null
  | some value => .integer value

end SqlValue

open SqlValue (ofNat ofOptionalText ofOptionalInt)

def MessageRecord.values (record : MessageRecord) : List SqlValue :=
  [ofNat record.id, .text record.receivedAt, .text record.topic, .text record.messageType,
    .text record.tableNo, .text record.model, .text record.serial, .text record.rawPayload,
    .text record.messageHash, .text record.status.text, ofNat record.retryCount,
    ofOptionalText record.processedAt, ofOptionalText record.lastError,
    ofOptionalText record.odooResponse, ofOptionalText record.lastAttemptAt,
    ofOptionalText record.completedAt, ofOptionalText record.ack,
    ofOptionalInt record.customerId, ofOptionalText record.customerName,
    ofOptionalInt record.operatorId, ofOptionalText record.operatorName,
    ofOptionalText record.batchNumber, ofNat record.ackReplayCount,
    ofOptionalText record.lastAckReplayedAt]

def ApiCommandStatus.text : ApiCommandStatus → Text
  | .received => str "RECEIVED"
  | .published => str "PUBLISHED"
  | .failed => str "FAILED"
  | .duplicate => str "DUPLICATE"
  | .rejected => str "REJECTED"

def ApiCommandRecord.values (record : ApiCommandRecord) : List SqlValue :=
  [ofNat record.id, .text record.requestId, ofOptionalText record.idempotencyKey,
    .text record.receivedAt, ofOptionalText record.username,
    ofOptionalText record.remoteAddress, .text record.payload, .text record.payloadHash,
    .text record.mqttTopic, .text record.status.text, ofOptionalInt record.mqttRc,
    ofOptionalInt record.mqttMid, ofOptionalText record.publishedAt,
    ofOptionalInt record.responseCode, ofOptionalText record.responseBody,
    ofOptionalText record.lastError]

def ProductionRecord.values (record : ProductionRecord) : List SqlValue :=
  [ofNat record.id, ofNat record.mqttMessageId, .text record.completedAt,
    .text record.productionDate, .text record.messageType, .text record.machineId,
    .text record.tableNo, .text record.model, .text record.serial, .text record.ack,
    ofOptionalInt record.customerId, ofOptionalText record.customerName,
    ofOptionalInt record.operatorId, ofOptionalText record.operatorName,
    ofOptionalInt record.numberOfOperators, ofOptionalText record.batchNumber,
    .text record.status.text, .text record.rawOdooResponse, .text record.createdAt,
    ofNat record.summaryApplied.toNat]

def DailySummary.values (summary : DailySummary) : List SqlValue :=
  [ofNat summary.id, .text summary.productionDate, .text summary.machineId,
    .text summary.tableNo, .text summary.model, ofOptionalInt summary.customerId,
    ofOptionalText summary.customerName, ofOptionalText summary.batchNumber,
    ofOptionalInt summary.operatorId, ofOptionalText summary.operatorName,
    ofOptionalInt summary.numberOfOperators, ofNat summary.productionCount,
    .text summary.firstAck, .text summary.lastAck, .text summary.firstCompletedAt,
    .text summary.lastCompletedAt, .text summary.createdAt, .text summary.updatedAt]

/-- A table whose rows are those of a table of the database. -/
def relationOf {α : Type} [Row α] (columns : List (Column SqlValue))
    (values : α → List SqlValue) (hsized : ∀ row, (values row).length = columns.length)
    (table : Table α) : Relation SqlValue where
  columns := columns
  rows := table.rows.map values
  sized := by
    intro row hrow
    obtain ⟨record, -, rfl⟩ := List.mem_map.mp hrow
    exact hsized record

theorem MessageRecord.length_values (record : MessageRecord) :
    record.values.length = recordColumns.length := rfl

theorem ApiCommandRecord.length_values (record : ApiCommandRecord) :
    record.values.length = apiCommandColumns.length := rfl

theorem ProductionRecord.length_values (record : ProductionRecord) :
    record.values.length = productionRecordColumns.length := rfl

theorem DailySummary.length_values (summary : DailySummary) :
    summary.values.length = dailySummaryColumns.length := rfl

/-- The indexes of a list of steps. -/
def indexesOf (steps : List (Step SqlValue)) : List (Text × Index SqlValue) :=
  steps.filterMap fun step =>
    match step with
    | .execute (.createIndex name index) => some (name, index)
    | _ => none

def Database.file (db : Database) : File where
  tables :=
    [(str "mqtt_messages",
        relationOf recordColumns MessageRecord.values MessageRecord.length_values
          db.mqttMessages),
      (str "production_records",
        relationOf productionRecordColumns ProductionRecord.values
          ProductionRecord.length_values db.productionRecords),
      (str "daily_production_summary",
        relationOf dailySummaryColumns DailySummary.values DailySummary.length_values
          db.dailySummary),
      (str "api_commands",
        relationOf apiCommandColumns ApiCommandRecord.values ApiCommandRecord.length_values
          db.apiCommands)]
  indexes := indexesOf schemaSteps

/-! ## Reading back -/

theorem toNat?_ofNat (value : Nat) : (value : Int).toNat? = some value := rfl

theorem MessageStatus.ofText_text (status : MessageStatus) :
    MessageStatus.ofText status.text = some status := by
  cases status with
  | new | processing | completed | failed => decide +kernel

theorem asOptionalText_ofOptionalText (value : Option Text) :
    (ofOptionalText value).asOptionalText = some value := by
  cases value with
  | none | some => rfl

theorem asOptionalInt_ofOptionalInt (value : Option Int) :
    (ofOptionalInt value).asOptionalInt = some value := by
  cases value with
  | none | some => rfl

theorem recordFromRow_eq {row : Text → Option SqlValue} {record : MessageRecord}
    (h : recordColumns.map (fun column => row column.name) = record.values.map some) :
    recordFromRow row = some record := by
  simp only [recordColumns, baseColumns, migrationColumns, idColumn, column, required, distinct,
    withDefault, List.cons_append, List.nil_append, List.map_cons, List.map_nil,
    MessageRecord.values, List.cons.injEq, and_true] at h
  simp [recordFromRow, h, SqlValue.asNat, SqlValue.asText, SqlValue.asCount,
    SqlValue.ofNat, toNat?_ofNat, MessageStatus.ofText_text, asOptionalText_ofOptionalText,
    asOptionalInt_ofOptionalInt]

theorem recordColumns_pairwise :
    recordColumns.Pairwise fun a b => sameName b.name a.name = false := by decide +kernel

theorem recordFromRow_values (record : MessageRecord) :
    recordFromRow (fun name => valueOf recordColumns name record.values) = some record :=
  recordFromRow_eq (map_valueOf recordColumns_pairwise record.length_values)

theorem readMessages_file (db : Database) :
    readMessages db.file = db.mqttMessages.rows.map some := by
  have hfind : db.file.findTable (str "mqtt_messages") = some (relationOf recordColumns
      MessageRecord.values MessageRecord.length_values db.mqttMessages) := rfl
  rw [readMessages, hfind]
  simp only [relationOf, List.map_map, Function.comp_def, recordFromRow_values]

/-! ## Nothing to initialize -/

theorem bare_file (db : Database) : db.file.bare = Database.empty.file := rfl

theorem emptyFile_upToDate : ∀ step ∈ schemaSteps, UpToDate Database.empty.file step := by
  decide +kernel

theorem file_upToDate (db : Database) : ∀ step ∈ schemaSteps, UpToDate db.file step := by
  intro step hstep
  apply upToDate_bare
  rw [bare_file]
  exact emptyFile_upToDate step hstep

theorem emptyFile_initialized :
    (initializeApiCommandsTable .none (initializeDatabase .none ⟨[], []⟩).2).2 =
      Database.empty.file := by
  rfl

/--
The two initializations make the file of the empty database out of a new one.  On the file
of any database their calls write nothing and leave it as it is, and its rows are read back
as the records.
-/
theorem database_initialized (db : Database) (initializer : Initializer) :
    (initializeApiCommandsTable .none (initializeDatabase .none ⟨[], []⟩).2).2 =
        Database.empty.file ∧
      initializer.run .none db.file = (.ok false, db.file) ∧
      readMessages db.file = db.mqttMessages.rows.map some := by
  have horderly := initializer_orderly initializer
  rw [initializer_run]
  refine ⟨emptyFile_initialized, runScript_again horderly fun step hstep => ?_,
    readMessages_file db⟩
  exact file_upToDate db step (horderly.among step hstep)

end EdgeBridge
