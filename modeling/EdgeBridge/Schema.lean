import EdgeBridge.Foundation.Table
import EdgeBridge.Foundation.Datetime

/-!
# The tables of `bridge.db`

The four tables that `initialize_database` and `initialize_api_commands_table`
create, with their unique constraints.  Timestamps are stored as ISO texts.
-/

namespace EdgeBridge

open Foundation

inductive MessageStatus where
  | new
  | processing
  | completed
  | failed
  deriving DecidableEq, Repr

inductive ApiCommandStatus where
  | received
  | published
  | failed
  | duplicate
  | rejected
  deriving DecidableEq, Repr

structure MessageRecord where
  id : Nat
  receivedAt : Text
  topic : Text
  messageType : Text
  tableNo : Text
  model : Text
  serial : Text
  rawPayload : Text
  messageHash : Text
  status : MessageStatus
  retryCount : Nat
  processedAt : Option Text
  lastError : Option Text
  odooResponse : Option Text
  lastAttemptAt : Option Text
  completedAt : Option Text
  ack : Option Text
  customerId : Option Int
  customerName : Option Text
  operatorId : Option Int
  operatorName : Option Text
  batchNumber : Option Text
  ackReplayCount : Nat
  lastAckReplayedAt : Option Text
  deriving DecidableEq

structure ApiCommandRecord where
  id : Nat
  requestId : Text
  idempotencyKey : Option Text
  receivedAt : Text
  username : Option Text
  remoteAddress : Option Text
  payload : Text
  payloadHash : Text
  mqttTopic : Text
  status : ApiCommandStatus
  mqttRc : Option Int
  mqttMid : Option Int
  publishedAt : Option Text
  responseCode : Option Int
  responseBody : Option Text
  lastError : Option Text
  deriving DecidableEq

structure ProductionRecord where
  id : Nat
  mqttMessageId : Nat
  completedAt : Text
  productionDate : Text
  messageType : Text
  machineId : Text
  tableNo : Text
  model : Text
  serial : Text
  ack : Text
  customerId : Option Int
  customerName : Option Text
  operatorId : Option Int
  operatorName : Option Text
  numberOfOperators : Option Int
  batchNumber : Option Text
  status : MessageStatus
  rawOdooResponse : Text
  createdAt : Text
  summaryApplied : Bool
  deriving DecidableEq

structure DailySummary where
  id : Nat
  productionDate : Text
  machineId : Text
  tableNo : Text
  model : Text
  customerId : Option Int
  customerName : Option Text
  batchNumber : Option Text
  operatorId : Option Int
  operatorName : Option Text
  numberOfOperators : Option Int
  productionCount : Nat
  firstAck : Text
  lastAck : Text
  firstCompletedAt : Text
  lastCompletedAt : Text
  createdAt : Text
  updatedAt : Text
  deriving DecidableEq

def summaryTextSentinel : Text := []

def summaryIntSentinel : Int := -1

/-- The expressions of `idx_daily_summary_unique_key`. -/
structure SummaryKey where
  productionDate : Text
  machineId : Text
  tableNo : Text
  model : Text
  customerId : Int
  batchNumber : Text
  operatorId : Int
  deriving DecidableEq

def summaryKey (productionDate machineId tableNo model : Text)
    (customerId : Option Int) (batchNumber : Option Text)
    (operatorId : Option Int) : SummaryKey :=
  ⟨productionDate, machineId, tableNo, model, customerId.getD summaryIntSentinel,
    batchNumber.getD summaryTextSentinel, operatorId.getD summaryIntSentinel⟩

def ProductionRecord.key (record : ProductionRecord) : SummaryKey :=
  summaryKey record.productionDate record.machineId record.tableNo record.model
    record.customerId record.batchNumber record.operatorId

def DailySummary.key (summary : DailySummary) : SummaryKey :=
  summaryKey summary.productionDate summary.machineId summary.tableNo summary.model
    summary.customerId summary.batchNumber summary.operatorId

instance : Row MessageRecord where
  Key := Text
  rowId := MessageRecord.id
  withId n record := { record with id := n }
  key := MessageRecord.messageHash
  clash a b := a == b
  rowId_withId _ _ := rfl
  key_withId _ _ := rfl

/-- `request_id` and `idempotency_key` are unique; `NULL` keys are distinct. -/
instance : Row ApiCommandRecord where
  Key := Text × Option Text
  rowId := ApiCommandRecord.id
  withId n record := { record with id := n }
  key record := (record.requestId, record.idempotencyKey)
  clash a b := a.1 == b.1 || (a.2.isSome && a.2 == b.2)
  rowId_withId _ _ := rfl
  key_withId _ _ := rfl

instance : Row ProductionRecord where
  Key := Nat
  rowId := ProductionRecord.id
  withId n record := { record with id := n }
  key := ProductionRecord.mqttMessageId
  clash a b := a == b
  rowId_withId _ _ := rfl
  key_withId _ _ := rfl

instance : Row DailySummary where
  Key := SummaryKey
  rowId := DailySummary.id
  withId n summary := { summary with id := n }
  key := DailySummary.key
  clash a b := a == b
  rowId_withId _ _ := rfl
  key_withId _ _ := rfl

structure Database where
  mqttMessages : Table MessageRecord
  apiCommands : Table ApiCommandRecord
  productionRecords : Table ProductionRecord
  dailySummary : Table DailySummary

def Database.empty : Database := ⟨.empty, .empty, .empty, .empty⟩

def Database.message (db : Database) (id : Nat) : Option MessageRecord :=
  db.mqttMessages.byId id

/-- What the program takes from its platform: the digest of `hashlib.sha256`,
`datetime.fromisoformat` on layouts other than `isoformat`'s own,
`ast.literal_eval` (`none` is an exception), and the bound on the variables of
one SQL statement. -/
structure Platform where
  sha256 : Text → Text
  otherIsoLayout : Text → Option Datetime
  literalEval : Text → Option PyValue
  maxVariables : Nat

/-- A Python `int` that SQLite can store. -/
def bindableInt (value : Int) : Bool := -2 ^ 63 ≤ value && value < 2 ^ 63

def bindableOptInt (value : Option Int) : Bool := value.all bindableInt

def bindableOptText (value : Option Text) : Bool := value.all Text.encodable

/-- `_format_timestamp` and `queue_worker._timestamp` of an aware datetime. -/
def formatTimestamp (value : Datetime) : Text := value.isoformat

/-- `datetime.fromisoformat`. -/
def fromIsoformat (platform : Platform) (value : Text) : Option Datetime :=
  (Datetime.ofIsoText value).or (platform.otherIsoLayout value)

/-- `_parse_timestamp` of a nonempty text. -/
def parseTimestamp (platform : Platform) (value : Text) : Except PyError Datetime :=
  match fromIsoformat platform value with
  | some time => .ok time
  | none => .error (.valueError (str "Invalid isoformat string"))

theorem fromIsoformat_formatTimestamp (platform : Platform) (value : Datetime) :
    fromIsoformat platform (formatTimestamp value) = some value.truncate := by
  simp [fromIsoformat, formatTimestamp, Datetime.ofIsoText_isoformat]

end EdgeBridge
