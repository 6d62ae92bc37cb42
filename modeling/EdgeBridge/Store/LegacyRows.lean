import EdgeBridge.Store.Initialize

/-!
# Rows that an earlier version has stored

`_record_from_row` reads the columns of a row by their names.  A row of an earlier version
lacks some of them until `initialize_database` has added them.
-/

namespace EdgeBridge

open Foundation
open Foundation.Ddl

/-! ## Reading a row -/

namespace SqlValue

def asNat : SqlValue → Option Nat
  | .integer value => value.toNat?
  | _ => none

def asText : SqlValue → Option Text
  | .text value => some value
  | _ => none

def asOptionalText : SqlValue → Option (Option Text)
  | .null => some none
  | .text value => some (some value)
  | .integer _ => none

def asOptionalInt : SqlValue → Option (Option Int)
  | .null => some none
  | .integer value => some (some value)
  | .text _ => none

/-- `int(value or 0)`. -/
def asCount : SqlValue → Option Nat
  | .null => some 0
  | value => value.asNat

end SqlValue

def MessageStatus.text : MessageStatus → Text
  | .new => str "NEW"
  | .processing => str "PROCESSING"
  | .completed => str "COMPLETED"
  | .failed => str "FAILED"

def MessageStatus.ofText (text : Text) : Option MessageStatus :=
  [new, processing, completed, failed].find? fun status => status.text == text

/-- `_record_from_row`, for rows whose values have the declared types. -/
def recordFromRow (row : Text → Option SqlValue) : Option MessageRecord := do
  let id ← (row (str "id")).bind SqlValue.asNat
  let receivedAt ← (row (str "received_at")).bind SqlValue.asText
  let topic ← (row (str "topic")).bind SqlValue.asText
  let messageType ← (row (str "message_type")).bind SqlValue.asText
  let tableNo ← (row (str "table_no")).bind SqlValue.asText
  let model ← (row (str "model")).bind SqlValue.asText
  let serial ← (row (str "serial")).bind SqlValue.asText
  let rawPayload ← (row (str "raw_payload")).bind SqlValue.asText
  let messageHash ← (row (str "message_hash")).bind SqlValue.asText
  let status ← ((row (str "status")).bind SqlValue.asText).bind MessageStatus.ofText
  let retryCount ← (row (str "retry_count")).bind SqlValue.asNat
  let processedAt ← (row (str "processed_at")).bind SqlValue.asOptionalText
  let lastError ← (row (str "last_error")).bind SqlValue.asOptionalText
  let odooResponse ← (row (str "odoo_response")).bind SqlValue.asOptionalText
  let lastAttemptAt ← (row (str "last_attempt_at")).bind SqlValue.asOptionalText
  let completedAt ← (row (str "completed_at")).bind SqlValue.asOptionalText
  let ack ← (row (str "ack")).bind SqlValue.asOptionalText
  let customerId ← (row (str "customer_id")).bind SqlValue.asOptionalInt
  let customerName ← (row (str "customer_name")).bind SqlValue.asOptionalText
  let operatorId ← (row (str "operator_id")).bind SqlValue.asOptionalInt
  let operatorName ← (row (str "operator_name")).bind SqlValue.asOptionalText
  let batchNumber ← (row (str "batch_number")).bind SqlValue.asOptionalText
  let ackReplayCount ← (row (str "ack_replay_count")).bind SqlValue.asCount
  let lastAckReplayedAt ← (row (str "last_ack_replayed_at")).bind SqlValue.asOptionalText
  some ⟨id, receivedAt, topic, messageType, tableNo, model, serial, rawPayload, messageHash,
    status, retryCount, processedAt, lastError, odooResponse, lastAttemptAt, completedAt, ack,
    customerId, customerName, operatorId, operatorName, batchNumber, ackReplayCount,
    lastAckReplayedAt⟩

/-- The columns of `_record_columns_sql`. -/
def recordColumns : List (Column SqlValue) := baseColumns ++ migrationColumns

/-- `SELECT` of the columns of `_record_columns_sql`, row by row. -/
def readMessages (file : File) : List (Option MessageRecord) :=
  match file.findTable (str "mqtt_messages") with
  | some relation => relation.rows.map fun row =>
      recordFromRow fun name => valueOf relation.columns name row
  | none => []

end EdgeBridge
