import EdgeBridge.Schema

/-!
# Queue operations

The functions of `database.py` on `mqtt_messages`, each as the effect of its
whole transaction.  An exception rolls the transaction back, so it carries no
database.
-/

namespace EdgeBridge

open Foundation

/-! ## `save_message` -/

structure SavedMessage where
  id : Nat
  messageHash : Text
  status : MessageStatus
  inserted : Bool

/-- The arguments of `save_message`. -/
structure IncomingMessage where
  topic : Text
  rawPayload : Text
  messageType : Text
  tableNo : Text
  model : Text
  serial : Text

def generateMessageHash (platform : Platform) (topic rawPayload : Text) :
    Except PyError Text :=
  if Text.encodable (topic ++ rawPayload) then
    .ok (platform.sha256 (topic ++ rawPayload))
  else .error .unicodeEncodeError

def getSavedMessageByHash (db : Database) (messageHash : Text) : Option SavedMessage :=
  (db.mqttMessages.find? fun record => record.messageHash == messageHash).map
    fun record => ⟨record.id, record.messageHash, record.status, false⟩

def newMessage (message : IncomingMessage) (messageHash receivedAt : Text) :
    MessageRecord where
  id := 0
  receivedAt := receivedAt
  topic := message.topic
  messageType := message.messageType
  tableNo := message.tableNo
  model := message.model
  serial := message.serial
  rawPayload := message.rawPayload
  messageHash := messageHash
  status := .new
  retryCount := 0
  processedAt := none
  lastError := none
  odooResponse := none
  lastAttemptAt := none
  completedAt := none
  ack := none
  customerId := none
  customerName := none
  operatorId := none
  operatorName := none
  batchNumber := none
  ackReplayCount := 0
  lastAckReplayedAt := none

/-- SQLite accepts no text with a lone surrogate. -/
def IncomingMessage.bindable (message : IncomingMessage) : Bool :=
  message.topic.encodable && message.messageType.encodable &&
    message.tableNo.encodable && message.model.encodable &&
    message.serial.encodable && message.rawPayload.encodable

/-- The `INSERT` of `save_message` and its `IntegrityError` fallback. -/
def insertMessage (message : IncomingMessage) (messageHash receivedAt : Text)
    (db : Database) : Except PyError (SavedMessage × Database) :=
  if message.bindable then
    match db.mqttMessages.insert (newMessage message messageHash receivedAt) with
    | some table =>
        .ok (⟨table.seq, messageHash, .new, true⟩, { db with mqttMessages := table })
    | none =>
        match getSavedMessageByHash db messageHash with
        | some duplicate => .ok (duplicate, db)
        | none => .error .integrityError
  else .error .unicodeEncodeError

def saveMessage (platform : Platform) (message : IncomingMessage) (now : Datetime)
    (db : Database) : Except PyError (SavedMessage × Database) := do
  let messageHash ← generateMessageHash platform message.topic message.rawPayload
  match getSavedMessageByHash db messageHash with
  | some existing => .ok (existing, db)
  | none => insertMessage message messageHash (formatTimestamp now) db

/-! ## `claim_pending_messages` -/

def isPending (maxRetries : Int) (record : MessageRecord) : Bool :=
  record.status == .new ||
    (record.status == .failed && decide ((record.retryCount : Int) < maxRetries))

def pendingIds (batchSize maxRetries : Int) (db : Database) : List Nat :=
  ((db.mqttMessages.select (isPending maxRetries)).take batchSize.toNat).map
    MessageRecord.id

def markProcessing (lastAttemptAt : Text) : Table.Update MessageRecord where
  apply record :=
    { record with status := .processing, lastAttemptAt := some lastAttemptAt }

def claimPendingMessages (platform : Platform) (batchSize maxRetries : Int)
    (now : Datetime) (db : Database) :
    Except PyError (List MessageRecord × Database) :=
  if batchSize ≤ 0 then .ok ([], db)
  else if !(bindableInt maxRetries && bindableInt batchSize) then
    .error .overflowError
  else
    let ids := pendingIds batchSize maxRetries db
    if ids.isEmpty then .ok ([], db)
    else if platform.maxVariables < ids.length + 2 then
      .error (.operationalError (str "too many SQL variables"))
    else
      let table := db.mqttMessages.update (fun record => ids.contains record.id)
        (markProcessing (formatTimestamp now))
      .ok (table.select fun record => ids.contains record.id,
        { db with mqttMessages := table })

/-! ## `mark_failed` and `reset_stale_processing` -/

/-- `retry_count + 1`, or `MAX(retry_count + 1, ?)` for a final failure. -/
def failedRetryCount (retryable : Bool) (maxRetries : Option Int)
    (retryCount : Nat) : Nat :=
  if retryable then retryCount + 1
  else max (retryCount + 1) (maxRetries.getD 10).toNat

def failMessage (error lastAttemptAt : Text) (odooResponse : Option Text)
    (retryable : Bool) (maxRetries : Option Int) : Table.Update MessageRecord where
  apply record :=
    { record with
      status := .failed
      retryCount := failedRetryCount retryable maxRetries record.retryCount
      lastError := some error
      lastAttemptAt := some lastAttemptAt
      odooResponse := odooResponse.or record.odooResponse }

def markFailed (messageId : Nat) (error lastAttemptAt : Text)
    (odooResponse : Option Text) (retryable : Bool) (maxRetries : Option Int)
    (db : Database) : Except PyError Database :=
  if !(retryable || bindableInt (maxRetries.getD 10)) then .error .overflowError
  else if !(error.encodable && lastAttemptAt.encodable &&
      bindableOptText odooResponse) then .error .unicodeEncodeError
  else if (db.message messageId).isNone then
    .error (.valueError (str "Message id not found"))
  else
    .ok { db with
      mqttMessages := db.mqttMessages.update (fun record => record.id == messageId)
        (failMessage error lastAttemptAt odooResponse retryable maxRetries) }

def isStale (staleBefore : Text) (excludeIds : List Nat) (record : MessageRecord) :
    Bool :=
  record.status == .processing &&
    record.lastAttemptAt.all (fun lastAttemptAt => decide (lastAttemptAt < staleBefore)) &&
    !excludeIds.contains record.id

def staleError : Text := str "Recovered stale PROCESSING message after timeout"

def recoverMessage (recoveredAt : Text) : Table.Update MessageRecord where
  apply record :=
    { record with
      status := .failed
      retryCount := record.retryCount + 1
      lastError := some staleError
      lastAttemptAt := some recoveredAt }

def resetStaleProcessing (platform : Platform) (staleBefore : Text)
    (excludeIds : List Nat) (now : Datetime) (db : Database) :
    Except PyError (Nat × Database) :=
  if platform.maxVariables < excludeIds.length + 5 then
    .error (.operationalError (str "too many SQL variables"))
  else
    .ok ((db.mqttMessages.select (isStale staleBefore excludeIds)).length,
      { db with
        mqttMessages := db.mqttMessages.update (isStale staleBefore excludeIds)
          (recoverMessage (formatTimestamp now)) })

/-! ## `record_ack_replay_attempt` -/

def ackReplayMaxCount : Nat := 3

/-- `ACK_REPLAY_MIN_INTERVAL` in microseconds. -/
def ackReplayMinInterval : Nat := 2 * 1000000

/-- `ACK_REPLAY_WINDOW` in microseconds. -/
def ackReplayWindow : Nat := 30 * 1000000

inductive AckReplayReason where
  | replayed
  | minimumInterval
  | replayLimitReached
  deriving DecidableEq

structure AckReplayAttempt where
  allowed : Bool
  reason : AckReplayReason
  replayCount : Nat
  lastAckReplayedAt : Option Text

/-- The count and time that are still inside the replay window. -/
def replayWindow (now : Datetime) (replayCount : Nat) :
    Option Datetime → Nat × Option Datetime
  | none => (0, none)
  | some last =>
      if last.micro + ackReplayWindow ≤ now.micro then (0, none)
      else (replayCount, some last)

def replayUpdate (replayCount : Nat) (replayedAt : Text) :
    Table.Update MessageRecord where
  apply record :=
    { record with
      ackReplayCount := replayCount
      lastAckReplayedAt := some replayedAt }

/-- `_parse_timestamp`, with `None` for an absent or empty text. -/
def parseOptionalTimestamp (platform : Platform) :
    Option Text → Except PyError (Option Datetime)
  | none => .ok none
  | some [] => .ok none
  | some text => (parseTimestamp platform text).map some

def recordAckReplayAttempt (platform : Platform) (messageHash : Text)
    (now : Datetime) (db : Database) :
    Except PyError (AckReplayAttempt × Database) :=
  match db.mqttMessages.find? fun record => record.messageHash == messageHash with
  | none => .error (.valueError (str "Message hash not found"))
  | some row => do
      let last ← parseOptionalTimestamp platform row.lastAckReplayedAt
      let window := replayWindow now row.ackReplayCount last
      if ackReplayMaxCount ≤ window.1 then
        .ok (⟨false, .replayLimitReached, window.1, row.lastAckReplayedAt⟩, db)
      else if window.2.any fun last =>
          decide (now.micro < last.micro + ackReplayMinInterval) then
        .ok (⟨false, .minimumInterval, window.1, row.lastAckReplayedAt⟩, db)
      else
        .ok (⟨true, .replayed, window.1 + 1, some (formatTimestamp now)⟩,
          { db with
            mqttMessages := db.mqttMessages.update
              (fun record => record.messageHash == messageHash)
              (replayUpdate (window.1 + 1) (formatTimestamp now)) })

/-! ## Effects on single rows -/

theorem message_update (db : Database) (which : MessageRecord → Bool)
    (change : Table.Update MessageRecord) (id : Nat) :
    ({ db with mqttMessages := db.mqttMessages.update which change } : Database).message id =
      (db.message id).map fun row => if which row then change row else row :=
  Table.byId_update db.mqttMessages which change id

theorem id_of_message {db : Database} {id : Nat} {row : MessageRecord}
    (h : db.message id = some row) : row.id = id :=
  Table.rowId_of_byId h

/-- The row that an update names by its id. -/
theorem message_updated {db after : Database} {id : Nat} {change : Table.Update MessageRecord}
    (h : after.mqttMessages = db.mqttMessages.update (fun row => row.id == id) change) :
    after.message id = (db.message id).map fun row => change row := by
  rw [Database.message, h, Table.byId_update]
  cases hrow : db.mqttMessages.byId id with
  | none => simp [Database.message, hrow]
  | some row =>
      have hid : row.id = id := Table.rowId_of_byId hrow
      simp [Database.message, hrow, hid]

theorem message_not_updated {db after : Database} {id : Nat}
    {change : Table.Update MessageRecord}
    (h : after.mqttMessages = db.mqttMessages.update (fun row => row.id == id) change)
    {other : Nat} (hne : other ≠ id) : after.message other = db.message other := by
  rw [Database.message, h, Table.byId_update]
  cases hrow : db.mqttMessages.byId other with
  | none => simp [Database.message, hrow]
  | some row =>
      have hid : row.id = other := Table.rowId_of_byId hrow
      simp [Database.message, hrow, hid, hne]

theorem message_of_mem {db : Database} {row : MessageRecord}
    (h : row ∈ db.mqttMessages.rows) : db.message row.id = some row :=
  Table.byId_rowId h

theorem message_le_seq {db : Database} {id : Nat} {row : MessageRecord}
    (h : db.message id = some row) : id ≤ db.mqttMessages.seq := by
  have hid := id_of_message h
  have hbound := db.mqttMessages.bounded row (Table.mem_of_byId h)
  rw [← hid]
  exact hbound

/-- A message is either known by its hash or becomes the next row. -/
theorem saveMessage_cases {platform : Platform} {message : IncomingMessage}
    {now : Datetime} {db after : Database} {saved : SavedMessage}
    (h : saveMessage platform message now db = .ok (saved, after)) :
    saved.messageHash = platform.sha256 (message.topic ++ message.rawPayload) ∧
      ((after = db ∧ saved.inserted = false ∧
        ∃ record ∈ db.mqttMessages.rows, record.id = saved.id ∧
          record.messageHash = saved.messageHash) ∨
      (message.bindable = true ∧ saved.inserted = true ∧
        saved.id = db.mqttMessages.seq + 1 ∧
        db.mqttMessages.insert (newMessage message saved.messageHash
            (formatTimestamp now)) = some after.mqttMessages ∧
        after = { db with mqttMessages := after.mqttMessages })) := by
  unfold saveMessage at h
  rcases bind_eq_ok.mp h with ⟨messageHash, hhash, hbody⟩
  have hdigest : platform.sha256 (message.topic ++ message.rawPayload) = messageHash := by
    unfold generateMessageHash at hhash
    split at hhash
    · cases hhash
      rfl
    · cases hhash
  rw [hdigest]
  split at hbody
  · next existing hexisting =>
    cases hbody
    unfold getSavedMessageByHash at hexisting
    rcases Option.map_eq_some_iff.mp hexisting with ⟨record, hfound, rfl⟩
    have hrecord := Table.find?_eq_some hfound
    have hsame : record.messageHash = messageHash := by simpa using hrecord.2
    exact ⟨hsame, .inl ⟨rfl, rfl, record, hrecord.1, rfl, rfl⟩⟩
  · next hfresh =>
    unfold insertMessage at hbody
    split at hbody
    · next hbindable =>
      split at hbody
      · next table htable =>
        cases hbody
        exact ⟨rfl, .inr ⟨hbindable, rfl, Table.seq_insert htable, htable, rfl⟩⟩
      · rw [hfresh] at hbody
        cases hbody
    · cases hbody

/-- A message that was saved is in the queue, under the id that was returned. -/
theorem saved_row {platform : Platform} {message : IncomingMessage} {now : Datetime}
    {db after : Database} {saved : SavedMessage}
    (h : saveMessage platform message now db = .ok (saved, after)) :
    ∃ row, after.message saved.id = some row ∧ row.messageHash = saved.messageHash := by
  obtain ⟨rfl, -, record, hrecord, hid, hsame⟩ | ⟨-, -, hid, hinsert, -⟩ :=
    (saveMessage_cases h).2
  · exact ⟨record, hid ▸ message_of_mem hrecord, hsame⟩
  · have hview := Table.byId_insert hinsert saved.id
    rw [if_pos hid] at hview
    exact ⟨_, hview, rfl⟩

theorem pendingIds_pending {batchSize maxRetries : Int} {db : Database} {id : Nat}
    (h : id ∈ pendingIds batchSize maxRetries db) :
    ∃ row, db.message id = some row ∧ isPending maxRetries row = true := by
  unfold pendingIds at h
  obtain ⟨row, hrow, rfl⟩ := List.mem_map.mp h
  have hselect := List.mem_filter.mp (List.mem_of_mem_take hrow)
  exact ⟨row, message_of_mem hselect.1, hselect.2⟩

theorem claimPendingMessages_eq_ok {platform : Platform} {batchSize maxRetries : Int}
    {now : Datetime} {db after : Database} {records : List MessageRecord}
    (h : claimPendingMessages platform batchSize maxRetries now db =
      .ok (records, after)) :
    after = { db with mqttMessages := after.mqttMessages } ∧
      after.mqttMessages.seq = db.mqttMessages.seq ∧
      (records.map MessageRecord.id).Nodup ∧
      (∀ record ∈ records, ∃ row, db.message record.id = some row ∧
        isPending maxRetries row = true ∧
        record = markProcessing (formatTimestamp now) row ∧
        after.message record.id = some record) ∧
      ∀ id, id ∉ records.map MessageRecord.id → after.message id = db.message id := by
  unfold claimPendingMessages at h
  split at h
  · cases h
    exact ⟨rfl, rfl, List.nodup_nil, by simp, fun _ _ => rfl⟩
  · split at h
    · cases h
    · simp only at h
      split at h
      · cases h
        exact ⟨rfl, rfl, List.nodup_nil, by simp, fun _ _ => rfl⟩
      · split at h
        · cases h
        · cases h
          let ids := pendingIds batchSize maxRetries db
          let table := db.mqttMessages.update (fun record => ids.contains record.id)
            (markProcessing (formatTimestamp now))
          have hview : ∀ id, table.byId id = (db.message id).map fun row =>
              if ids.contains row.id then markProcessing (formatTimestamp now) row
              else row := db.mqttMessages.byId_update _ _
          refine ⟨rfl, rfl, ?_, ?_, ?_⟩
          · have hascending := table.ascending.filter (fun row => ids.contains row.id)
            exact List.pairwise_map.mpr (hascending.imp fun hlt => Nat.ne_of_lt hlt)
          · intro record hrecord
            have hselect := List.mem_filter.mp hrecord
            have hin : ids.contains record.id = true := hselect.2
            obtain ⟨row, hrow, hpending⟩ := pendingIds_pending (List.contains_iff_mem.mp hin)
            have hafter := hview record.id
            have hnow : table.byId record.id = some record := Table.byId_rowId hselect.1
            rw [hnow, hrow, Option.map_some, id_of_message hrow, if_pos hin,
              Option.some.injEq] at hafter
            exact ⟨row, hrow, hpending, hafter, hnow⟩
          · intro id hid
            have hafter := hview id
            cases hrow : db.message id with
            | none =>
                rw [hrow] at hafter
                exact hafter
            | some row =>
                have hrowId := id_of_message hrow
                cases hin : ids.contains row.id with
                | false =>
                    rw [hrow, Option.map_some, hin] at hafter
                    exact hafter
                | true =>
                    rw [hrow, Option.map_some, hin, if_pos rfl] at hafter
                    refine absurd (List.mem_map.mpr ⟨_, List.mem_filter.mpr
                      ⟨Table.mem_of_byId hafter, ?_⟩, hrowId⟩) hid
                    exact hin

theorem markFailed_eq_ok {messageId : Nat} {error lastAttemptAt : Text}
    {odooResponse : Option Text} {retryable : Bool} {maxRetries : Option Int}
    {db after : Database}
    (h : markFailed messageId error lastAttemptAt odooResponse retryable maxRetries db =
      .ok after) :
    (∃ row, db.message messageId = some row) ∧
      after = { db with
        mqttMessages := db.mqttMessages.update (fun record => record.id == messageId)
          (failMessage error lastAttemptAt odooResponse retryable maxRetries) } := by
  unfold markFailed at h
  split at h
  · cases h
  · split at h
    · cases h
    · split at h
      · cases h
      · next hsome =>
        cases h
        refine ⟨Option.ne_none_iff_exists'.mp ?_, rfl⟩
        simpa using hsome

theorem resetStaleProcessing_eq_ok {platform : Platform} {staleBefore : Text}
    {excludeIds : List Nat} {now : Datetime} {db after : Database} {count : Nat}
    (h : resetStaleProcessing platform staleBefore excludeIds now db =
      .ok (count, after)) :
    after = { db with
      mqttMessages := db.mqttMessages.update (isStale staleBefore excludeIds)
        (recoverMessage (formatTimestamp now)) } := by
  unfold resetStaleProcessing at h
  split at h
  · cases h
  · cases h
    rfl

theorem recordAckReplayAttempt_eq_ok {platform : Platform} {messageHash : Text}
    {now : Datetime} {db after : Database} {attempt : AckReplayAttempt}
    (h : recordAckReplayAttempt platform messageHash now db = .ok (attempt, after)) :
    after = db ∨ ∃ count, after = { db with
      mqttMessages := db.mqttMessages.update
        (fun record => record.messageHash == messageHash)
        (replayUpdate count (formatTimestamp now)) } := by
  unfold recordAckReplayAttempt at h
  split at h
  · cases h
  · next row _ =>
    cases hlast : parseOptionalTimestamp platform row.lastAckReplayedAt with
    | error error =>
        rw [hlast] at h
        cases h
    | ok last =>
        rw [hlast] at h
        simp only [bind, Except.bind] at h
        split at h
        · cases h
          exact .inl rfl
        · split at h
          · cases h
            exact .inl rfl
          · cases h
            exact .inr ⟨_, rfl⟩

end EdgeBridge
