import EdgeBridge.Foundation.Migration
import EdgeBridge.Foundation.System
import EdgeBridge.Schema

/-!
# The schema of `bridge.db`

`initialize_database` and `initialize_api_commands_table` create what is missing in the
file, whichever version of the program has made it, and add to `mqtt_messages` the columns
that came later.  Every operation of the queue calls the first of them before its own
transaction.
-/

namespace EdgeBridge

open Foundation
open Foundation.Ddl

/-- The values that the columns of the four tables hold. -/
inductive SqlValue where
  | null
  | integer (value : Int)
  | text (value : Text)
  deriving DecidableEq, Repr

/-- A file as SQLite shows it. -/
abbrev File : Type := Catalog SqlValue

def column (name : String) (type : ColumnType) : Column SqlValue :=
  ⟨str name, type, false, false, false, .null⟩

/-- `NOT NULL`. -/
def required (column : Column SqlValue) : Column SqlValue := { column with notNull := true }

/-- `UNIQUE`. -/
def distinct (column : Column SqlValue) : Column SqlValue := { column with unique := true }

def withDefault (value : Int) (column : Column SqlValue) : Column SqlValue :=
  { column with default := .integer value }

/-- `id INTEGER PRIMARY KEY AUTOINCREMENT`. -/
def idColumn : Column SqlValue := { column "id" .integer with primaryKey := true }

/-! ## `initialize_database` -/

/-- `BASE_COLUMNS`. -/
def baseColumns : List (Column SqlValue) :=
  [idColumn, required (column "received_at" .text), required (column "topic" .text),
    required (column "message_type" .text), required (column "table_no" .text),
    required (column "model" .text), required (column "serial" .text),
    required (column "raw_payload" .text), distinct (required (column "message_hash" .text)),
    required (column "status" .text), withDefault 0 (column "retry_count" .integer),
    column "processed_at" .text]

/-- `MIGRATION_COLUMNS`. -/
def migrationColumns : List (Column SqlValue) :=
  [column "last_error" .text, column "odoo_response" .text, column "last_attempt_at" .text,
    column "completed_at" .text, column "ack" .text, column "customer_id" .integer,
    column "customer_name" .text, column "operator_id" .integer,
    column "operator_name" .text, column "batch_number" .text,
    withDefault 0 (column "ack_replay_count" .integer), column "last_ack_replayed_at" .text]

def productionRecordColumns : List (Column SqlValue) :=
  [idColumn, distinct (required (column "mqtt_message_id" .integer)),
    required (column "completed_at" .text), required (column "production_date" .text),
    required (column "message_type" .text), required (column "machine_id" .text),
    required (column "table_no" .text), required (column "model" .text),
    required (column "serial" .text), required (column "ack" .text),
    column "customer_id" .integer, column "customer_name" .text,
    column "operator_id" .integer, column "operator_name" .text,
    column "number_of_operators" .integer, column "batch_number" .text,
    required (column "status" .text), required (column "raw_odoo_response" .text),
    required (column "created_at" .text),
    withDefault 0 (required (column "summary_applied" .integer))]

def dailySummaryColumns : List (Column SqlValue) :=
  [idColumn, required (column "production_date" .text), required (column "machine_id" .text),
    required (column "table_no" .text), required (column "model" .text),
    column "customer_id" .integer, column "customer_name" .text, column "batch_number" .text,
    column "operator_id" .integer, column "operator_name" .text,
    column "number_of_operators" .integer,
    withDefault 0 (required (column "production_count" .integer)), column "first_ack" .text,
    column "last_ack" .text, column "first_completed_at" .text,
    column "last_completed_at" .text, required (column "created_at" .text),
    required (column "updated_at" .text)]

/-- `CREATE INDEX IF NOT EXISTS`. -/
def createIndex (name table : String) (columns : List String) : Step SqlValue :=
  .execute (.createIndex (str name)
    ⟨str table, false, columns.map fun column => .column (str column)⟩)

/-- `CREATE UNIQUE INDEX IF NOT EXISTS`. -/
def createUniqueIndex (name table : String) (terms : List (Term SqlValue)) : Step SqlValue :=
  .execute (.createIndex (str name) ⟨str table, true, terms⟩)

/-- `_migrate_mqtt_messages`. -/
def migrateMqttMessages : Step SqlValue :=
  .ensureColumns (str "mqtt_messages") migrationColumns

/-- `_initialize_production_tables`. -/
def initializeProductionTables : List (Step SqlValue) :=
  [.execute (.createTable (str "production_records") productionRecordColumns),
    .execute (.createTable (str "daily_production_summary") dailySummaryColumns),
    createUniqueIndex "idx_production_records_mqtt_message_id" "production_records"
      [.column (str "mqtt_message_id")]] ++
  [("idx_production_records_completed_at", "completed_at"),
    ("idx_production_records_production_date", "production_date"),
    ("idx_production_records_table_no", "table_no"),
    ("idx_production_records_model", "model"),
    ("idx_production_records_customer_id", "customer_id"),
    ("idx_production_records_batch_number", "batch_number"),
    ("idx_production_records_operator_id", "operator_id")].map
      (fun entry => createIndex entry.1 "production_records" [entry.2]) ++
  [createUniqueIndex "idx_daily_summary_unique_key" "daily_production_summary"
    [.column (str "production_date"), .column (str "machine_id"), .column (str "table_no"),
      .column (str "model"), .coalesce (str "customer_id") (.integer summaryIntSentinel),
      .coalesce (str "batch_number") (.text summaryTextSentinel),
      .coalesce (str "operator_id") (.integer summaryIntSentinel)]] ++
  [("idx_daily_summary_production_date", "production_date"),
    ("idx_daily_summary_table_no", "table_no"),
    ("idx_daily_summary_model", "model"),
    ("idx_daily_summary_customer_id", "customer_id"),
    ("idx_daily_summary_batch_number", "batch_number"),
    ("idx_daily_summary_operator_id", "operator_id")].map
      (fun entry => createIndex entry.1 "daily_production_summary" [entry.2])

def initializeDatabaseSteps : List (Step SqlValue) :=
  [.execute (.createTable (str "mqtt_messages") baseColumns),
    migrateMqttMessages,
    createIndex "idx_mqtt_messages_status_id" "mqtt_messages" ["status", "id"],
    createIndex "idx_mqtt_messages_status_retry_id" "mqtt_messages"
      ["status", "retry_count", "id"],
    createIndex "idx_mqtt_messages_status_completed_at" "mqtt_messages"
      ["status", "completed_at"]] ++
  initializeProductionTables

def initializeDatabase (faults : Faults) : Foundation.Effect File SqlError Bool :=
  runScript .null faults initializeDatabaseSteps

/-! ## `initialize_api_commands_table` -/

def apiCommandColumns : List (Column SqlValue) :=
  [idColumn, distinct (required (column "request_id" .text)),
    distinct (column "idempotency_key" .text), required (column "received_at" .text),
    column "username" .text, column "remote_address" .text,
    required (column "payload" .text), required (column "payload_hash" .text),
    required (column "mqtt_topic" .text), required (column "status" .text),
    column "mqtt_rc" .integer, column "mqtt_mid" .integer, column "published_at" .text,
    column "response_code" .integer, column "response_body" .text,
    column "last_error" .text]

def initializeApiCommandsSteps : List (Step SqlValue) :=
  [.execute (.createTable (str "api_commands") apiCommandColumns),
    createIndex "idx_api_commands_idempotency_key" "api_commands" ["idempotency_key"],
    createIndex "idx_api_commands_request_id" "api_commands" ["request_id"]]

def initializeApiCommandsTable (faults : Faults) : Foundation.Effect File SqlError Bool :=
  runScript .null faults initializeApiCommandsSteps

/-! ## Every order of calls -/

/-- A call of one of the two functions. -/
inductive Initializer where
  | database
  | apiCommands
  deriving DecidableEq

def Initializer.steps : Initializer → List (Step SqlValue)
  | .database => initializeDatabaseSteps
  | .apiCommands => initializeApiCommandsSteps

def Initializer.run (initializer : Initializer) (faults : Faults) :
    Foundation.Effect File SqlError Bool :=
  match initializer with
  | .database => initializeDatabase faults
  | .apiCommands => initializeApiCommandsTable faults

def schemaSteps : List (Step SqlValue) := initializeDatabaseSteps ++ initializeApiCommandsSteps

theorem schemaSteps_apart :
    ∀ a ∈ schemaSteps, ∀ b ∈ schemaSteps, Step.apart a b = true := by decide +kernel

def Step.isAddition : Step SqlValue → Bool
  | .execute (.addColumn _ _) => true
  | _ => false

theorem schemaSteps_only : ∀ step ∈ schemaSteps, ∀ table column,
    step ≠ .execute (.addColumn table column) := by
  have hnone : ∀ step ∈ schemaSteps, Step.isAddition step = false := by decide +kernel
  rintro step hstep table column rfl
  cases hnone _ hstep

theorem initializer_orderly (initializer : Initializer) :
    Orderly .null schemaSteps initializer.steps where
  among step hstep := by
    cases initializer with
    | database => exact List.mem_append_left _ hstep
    | apiCommands => exact List.mem_append_right _ hstep
  apart := schemaSteps_apart
  only := schemaSteps_only
  order := by
    cases initializer with
    | database => decide +kernel
    | apiCommands => decide +kernel

theorem initializer_run (initializer : Initializer) (faults : Faults) :
    initializer.run faults = runScript .null faults initializer.steps := by
  cases initializer with
  | database => rfl
  | apiCommands => rfl

/-- What the calls so far have left. -/
structure Initialized (start : File) (past : List (Initializer × Except SqlError Bool))
    (file : File) : Prop where
  grown : Grown start file
  fits : Fits .null schemaSteps file
  upToDate : ∀ initializer wrote, (initializer, .ok wrote) ∈ past →
    ∀ step ∈ initializer.steps, UpToDate file step

theorem Initialized.call {start file : File}
    {past : List (Initializer × Except SqlError Bool)} (h : Initialized start past file)
    (initializer : Initializer) (faults : Faults) :
    Initialized start (past ++ [(initializer, (initializer.run faults file).1)])
      (initializer.run faults file).2 := by
  rw [initializer_run]
  have horderly := initializer_orderly initializer
  refine ⟨h.grown.trans runScript_grown, ?_, ?_⟩
  · refine runScript_induction (P := Fits .null schemaSteps) ?_ h.fits
    intro step hstep statement hstatement db after wrote hfits hdone
    exact hfits.executed horderly.apart horderly.only (horderly.among step hstep) hstatement
      hdone
  · intro other wrote hmem step hstep
    rcases List.mem_append.mp hmem with hold | hnew
    · exact runScript_induction (P := fun db => UpToDate db step)
        (fun _ _ _ _ _ _ _ hkept hdone => hkept.executed hdone)
        (h.upToDate other wrote hold step hstep)
    · obtain ⟨rfl, hok⟩ := Prod.mk.inj (List.mem_singleton.mp hnew)
      exact runScript_upToDate (Prod.ext hok.symm rfl) step hstep

end EdgeBridge
