import EdgeBridge.Foundation.JsonFuel
import EdgeBridge.Payload
import EdgeBridge.Store.Identity
import EdgeBridge.Store.Replays

/-!
# The MQTT callback

`_on_message` from the bytes of a payload to the row in SQLite, or the replay of a
stored ACK.  It handles one exception, `PLCMessageParseError`.
-/

namespace EdgeBridge

open Foundation

/-! ## `_on_message` -/

/-- The ACK that `_handle_duplicate_message` finds in a row. -/
def duplicateAck (platform : Platform) (record : MessageRecord) :
    Except PyError (Option Text) :=
  if record.status ≠ .completed then .ok none
  else do
    let response ← parseStoredOdooResponse platform record.odooResponse
    match response with
    | none => .ok none
    | some response => .ok (if isSuccess response then extractStoredAck response else none)

/-- The row that `_handle_duplicate_message` looks up by its id, or else by its hash. -/
def recordOfSaved (saved : SavedMessage) (db : Database) : Option MessageRecord :=
  (db.message saved.id).or
    (db.mqttMessages.find? fun record => record.messageHash == saved.messageHash)

/-- The ACK that is published again, if one is; `publish_ack` raises nothing. -/
def handleDuplicateMessage (platform : Platform) (saved : SavedMessage) (now : Datetime)
    (db : Database) : Except PyError (Option Text × Database) :=
  match recordOfSaved saved db with
  | none => .ok (none, db)
  | some record => do
      let ack ← duplicateAck platform record
      match ack with
      | none => .ok (none, db)
      | some ack => do
          let (attempt, after) ← recordAckReplayAttempt platform record.messageHash now db
          .ok (if attempt.allowed then some ack else none, after)

/-- How the callback ends: the log line of a rejection, a new row, or a duplicate. -/
inductive Received where
  | rejected (message : Text)
  | stored (saved : SavedMessage)
  | duplicate (ack : Option Text)

/-- `_on_message`, with the clock readings of `save_message` and of the replay attempt. -/
def onMessage (platform : Platform) (topic : Text) (payload : Bytes)
    (receivedAt replayedAt : Datetime) (db : Database) :
    Except PyError (Received × Database) :=
  match acceptedMessage topic payload with
  | .error (.rejected message) => .ok (.rejected message, db)
  | .error (.raised error) => .error error
  | .ok message => do
      let (saved, after) ← saveMessage platform message receivedAt db
      if saved.inserted then .ok (.stored saved, after)
      else do
        let (ack, final) ← handleDuplicateMessage platform saved replayedAt after
        .ok (.duplicate ack, final)

/-! ## Working databases -/

/-- The rows have their digests, and what a duplicate reads of them can be read. -/
structure Working (platform : Platform) (db : Database) : Prop where
  hashed : Hashed platform db
  readable : ∀ row ∈ db.mqttMessages.rows, row.status = .completed →
    ∃ response, parseStoredOdooResponse platform row.odooResponse = .ok response
  replayed : ∀ row ∈ db.mqttMessages.rows,
    ∃ last, parseOptionalTimestamp platform row.lastAckReplayedAt = .ok last

/-- The worker stores what `json.dumps` made of a response. -/
def StoresResponses (platform : Platform) (job : Job) : Prop :=
  ∀ id arguments, job = .complete id arguments →
    ∃ response, parseStoredOdooResponse platform (some arguments.odooResponse) = .ok response

section

variable {platform : Platform} {db : Database} {row : MessageRecord} {now : Datetime}

theorem Working.empty : Working platform .empty where
  hashed := .empty
  readable := by
    intro row hrow
    cases hrow
  replayed := by
    intro row hrow
    cases hrow

/-- What a duplicate reads of one row. -/
def Readable (platform : Platform) (row : MessageRecord) : Prop :=
  (row.status = .completed →
    ∃ response, parseStoredOdooResponse platform row.odooResponse = .ok response) ∧
  ∃ last, parseOptionalTimestamp platform row.lastAckReplayedAt = .ok last

theorem RowChange.readable {seq id : Nat} {job : Job} {answer : Answer}
    {before : Option MessageRecord}
    (h : RowChange now seq id job answer before (some row))
    (hstores : StoresResponses platform job)
    (hbefore : ∀ old, before = some old → Readable platform old) : Readable platform row := by
  generalize hnext : some row = next at h
  cases h with
  | kept => exact hbefore row hnext.symm
  | created _ _ _ =>
      cases hnext
      exact ⟨nofun, none, rfl⟩
  | claimed old _ _ =>
      cases hnext
      exact ⟨nofun, (hbefore old rfl).2⟩
  | completed old _ =>
      cases hnext
      exact ⟨fun _ => hstores _ _ rfl, (hbefore old rfl).2⟩
  | failed old =>
      cases hnext
      exact ⟨nofun, (hbefore old rfl).2⟩
  | recovered old _ =>
      cases hnext
      exact ⟨nofun, (hbefore old rfl).2⟩
  | replayed old _ =>
      cases hnext
      exact ⟨(hbefore old rfl).1, _, parseOptionalTimestamp_formatTimestamp platform now⟩
  | deleted => cases hnext

theorem Working.after (h : Working platform db) (op : Job × Datetime)
    (hstores : StoresResponses platform op.1) : Working platform (db.after platform op) := by
  obtain ⟨job, now⟩ := op
  obtain hsame | ⟨answer, hrun⟩ := db.after_cases platform job now
  · rw [hsame]
    exact h
  · have hreadable : ∀ row ∈ (db.after platform (job, now)).mqttMessages.rows,
        Readable platform row := by
      intro row hrow
      have hchange := Job.rowChange hrun row.id
      rw [message_of_mem hrow] at hchange
      refine hchange.readable hstores fun old hold => ?_
      have hmem := Table.mem_of_byId hold
      exact ⟨h.readable old hmem, h.replayed old hmem⟩
    exact ⟨h.hashed.after platform (job, now), fun row hrow => (hreadable row hrow).1,
      fun row hrow => (hreadable row hrow).2⟩

/-- Every database that the program's transactions reach is a working one. -/
theorem working_along {ε : Type} {observe : Database → Job × Datetime → List ε} {t : Database}
    {ops : List (Job × Datetime)} (h : Working platform db)
    (hstores : ∀ op ∈ ops, StoresResponses platform op.1)
    (run : (transactions platform observe).exec db ops = some t) : Working platform t := by
  induction ops generalizing db with
  | nil =>
      cases run
      exact h
  | cons op ops ih =>
      exact ih (h.after op (hstores op List.mem_cons_self))
        (fun other hother => hstores other (List.mem_cons_of_mem _ hother)) run

/-! ## Rows with a topic and a text -/

def HasRow (topic text : Text) (db : Database) : Prop :=
  ∃ row ∈ db.mqttMessages.rows, row.topic = topic ∧ row.rawPayload = text

/-- Exactly one `mqtt_messages` row has this topic and this text. -/
def KeptOnce (topic text : Text) (db : Database) : Prop :=
  ∃! row : MessageRecord, row ∈ db.mqttMessages.rows ∧ row.topic = topic ∧
    row.rawPayload = text

theorem Hashed.keptOnce_iff (h : Hashed platform db) {topic text : Text} :
    KeptOnce topic text db ↔ HasRow topic text db := by
  constructor
  · rintro ⟨row, ⟨hrow, htopic, htext⟩, -⟩
    exact ⟨row, hrow, htopic, htext⟩
  · rintro ⟨row, hrow, htopic, htext⟩
    refine ⟨row, ⟨hrow, htopic, htext⟩, ?_⟩
    rintro other ⟨hother, hothertopic, hothertext⟩
    exact h.eq_of_same hrow hother (hothertopic.trans htopic.symm) (hothertext.trans htext.symm)

theorem kept_update {which : MessageRecord → Bool} {change : Table.Update MessageRecord}
    (hchange : ∀ row, (change row).topic = row.topic ∧ (change row).rawPayload = row.rawPayload)
    {topic text : Text} :
    HasRow topic text { db with mqttMessages := db.mqttMessages.update which change } ↔
      HasRow topic text db := by
  have hrow : ∀ row : MessageRecord, (if which row then change row else row).topic = row.topic ∧
      (if which row then change row else row).rawPayload = row.rawPayload := by
    intro row
    split
    · exact hchange row
    · exact ⟨rfl, rfl⟩
  simp only [HasRow, Table.update, List.mem_map]
  constructor
  · rintro ⟨_, ⟨row, hmem, rfl⟩, htopic, htext⟩
    exact ⟨row, hmem, (hrow row).1.symm.trans htopic, (hrow row).2.symm.trans htext⟩
  · rintro ⟨row, hmem, htopic, htext⟩
    exact ⟨_, ⟨row, hmem, rfl⟩, (hrow row).1.trans htopic, (hrow row).2.trans htext⟩

/-! ## Duplicates -/

/-- A duplicate of a working database raises nothing, and keeps the rows. -/
theorem handleDuplicateMessage_ok (h : Working platform db) (saved : SavedMessage)
    (now : Datetime) : ∃ ack after,
      handleDuplicateMessage platform saved now db = .ok (ack, after) ∧
        Hashed platform after ∧ ∀ topic text, HasRow topic text after ↔ HasRow topic text db := by
  unfold handleDuplicateMessage
  cases hrecord : recordOfSaved saved db with
  | none => exact ⟨none, db, rfl, h.hashed, fun _ _ => Iff.rfl⟩
  | some record =>
      have hmem : record ∈ db.mqttMessages.rows := by
        obtain hid | ⟨-, hhash⟩ := Option.or_eq_some_iff.mp hrecord
        · exact Table.mem_of_byId hid
        · exact (Table.find?_eq_some hhash).1
      obtain ⟨ack, hack⟩ : ∃ ack, duplicateAck platform record = .ok ack := by
        unfold duplicateAck
        by_cases hstatus : record.status = .completed
        · obtain ⟨response, hresponse⟩ := h.readable record hmem hstatus
          rw [if_neg (by simpa using hstatus), hresponse]
          cases response with
          | none => exact ⟨none, rfl⟩
          | some response => exact ⟨_, rfl⟩
        · rw [if_pos hstatus]
          exact ⟨none, rfl⟩
      simp only [bind, Except.bind, hack]
      cases ack with
      | none => exact ⟨none, db, rfl, h.hashed, fun _ _ => Iff.rfl⟩
      | some ack =>
          obtain ⟨last, hlast⟩ := h.replayed record hmem
          obtain ⟨attempt, -, hattempt⟩ :=
            recordAckReplayAttempt_limiter now (messageByHash_of_mem hmem) hlast
          have hafter := h.hashed.after platform (.replay record.messageHash, now)
          simp only [Database.after, Job.run, hattempt, Except.map] at hafter
          refine ⟨if attempt.allowed then some ack else none, _, by simp only [hattempt],
            hafter, ?_⟩
          intro topic text
          split
          · exact kept_update fun _ => ⟨rfl, rfl⟩
          · exact Iff.rfl

/-! ## Saving -/

/-- The digest of a topic and a text stands for no stored row. -/
def Unclaimed (platform : Platform) (topic text : Text) (db : Database) : Prop :=
  ∀ row ∈ db.mqttMessages.rows, row.messageHash ≠ platform.sha256 (topic ++ text)

theorem unclaimed_iff {topic text : Text} :
    Unclaimed platform topic text db ↔
      getSavedMessageByHash db (platform.sha256 (topic ++ text)) = none := by
  simp [Unclaimed, getSavedMessageByHash, Table.find?]

variable {message : IncomingMessage}

variable (now) in
/-- A message that is stored already is a duplicate of its own row. -/
theorem saveMessage_kept (h : Hashed platform db)
    (hencodable : Text.encodable (message.topic ++ message.rawPayload) = true)
    (hkept : HasRow message.topic message.rawPayload db) :
    ∃ saved, saveMessage platform message now db = .ok (saved, db) ∧
      saved.inserted = false := by
  obtain ⟨row, hrow, htopic, htext⟩ := hkept
  have hfound := h.find_eq hrow
  rw [htopic, htext] at hfound
  refine ⟨⟨row.id, row.messageHash, row.status, false⟩, ?_, rfl⟩
  simp [saveMessage, generateMessageHash, hencodable, bind, Except.bind,
    getSavedMessageByHash, hfound]

variable (now) in
/-- A message with an unclaimed digest is inserted. -/
theorem saveMessage_unclaimed
    (hencodable : Text.encodable (message.topic ++ message.rawPayload) = true)
    (hbindable : message.bindable = true)
    (hfree : Unclaimed platform message.topic message.rawPayload db) :
    ∃ saved after, saveMessage platform message now db = .ok (saved, after) ∧
      saved.inserted = true ∧ HasRow message.topic message.rawPayload after := by
  have hconflicts : db.mqttMessages.conflicts (newMessage message
      (platform.sha256 (message.topic ++ message.rawPayload)) (formatTimestamp now)) =
      false := by
    rw [Table.conflicts, List.any_eq_false]
    intro row hrow hclash
    exact hfree row hrow (beq_iff_eq.mp hclash)
  cases hinsert : db.mqttMessages.insert (newMessage message
      (platform.sha256 (message.topic ++ message.rawPayload)) (formatTimestamp now)) with
  | none =>
      rw [Table.insert_eq_none_iff, hconflicts] at hinsert
      cases hinsert
  | some table =>
      refine ⟨⟨table.seq, platform.sha256 (message.topic ++ message.rawPayload), .new, true⟩,
        { db with mqttMessages := table }, ?_, rfl, ?_⟩
      · simp [saveMessage, generateMessageHash, hencodable, bind, Except.bind,
          unclaimed_iff.mp hfree, insertMessage, hbindable, hinsert]
      · have hrows := (Table.insert_eq_some_iff.mp hinsert).2.1
        refine ⟨Row.withId (db.mqttMessages.seq + 1) (newMessage message
          (platform.sha256 (message.topic ++ message.rawPayload)) (formatTimestamp now)), ?_,
          rfl, rfl⟩
        rw [hrows]
        exact List.mem_append_right _ List.mem_cons_self

/-- A message that is saved can be encoded, and an inserted one was unclaimed. -/
theorem saveMessage_ok {saved : SavedMessage} {after : Database}
    (h : saveMessage platform message now db = .ok (saved, after)) :
    Text.encodable (message.topic ++ message.rawPayload) = true ∧
      (saved.inserted = false ∧ after = db ∨
        saved.inserted = true ∧ message.bindable = true ∧
          Unclaimed platform message.topic message.rawPayload db) := by
  have hencodable : Text.encodable (message.topic ++ message.rawPayload) = true := by
    obtain ⟨hash, hhash, -⟩ := bind_eq_ok.mp h
    unfold generateMessageHash at hhash
    split at hhash
    · next hencodable => exact hencodable
    · cases hhash
  refine ⟨hencodable, ?_⟩
  obtain ⟨hhash, ⟨hafter, hinserted, -⟩ | ⟨hbindable, hinserted, -, hinsert, -⟩⟩ :=
    saveMessage_cases h
  · exact .inl ⟨hinserted, hafter⟩
  · refine .inr ⟨hinserted, hbindable, fun row hrow hclash => ?_⟩
    have hconflicts := (Table.insert_eq_some_iff.mp hinsert).1
    rw [Table.conflicts, List.any_eq_false] at hconflicts
    exact hconflicts row hrow (beq_iff_eq.mpr (hclash.trans hhash.symm))

end

/-! ## What the parser raises -/

theorem splitMessageValue_not_raised (value : Text) (error : PyError) :
    splitMessageValue value ≠ .error (.raised error) := by
  have hpayload : ∀ text, splitPayload text ≠ .error (.raised error) := by
    intro text
    unfold splitPayload splitCompactPayload
    split
    · nofun
    · split <;> nofun
  intro h
  unfold splitMessageValue at h
  simp only at h
  split at h
  · cases h
  · cases hparts : splitPayload (Text.dropLast 3 (Text.strip value)) with
    | error failure =>
        rw [hparts] at h
        simp only [bind, Except.bind, Except.error.injEq] at h
        exact hpayload _ (h ▸ hparts)
    | ok parts =>
        rw [hparts] at h
        simp only [bind, Except.bind] at h
        split at h
        · cases h
        · split at h <;> cases h

theorem parseFields_not_raised (data : List (Text × PyValue)) (error : PyError) :
    parseFields data ≠ .error (.raised error) := by
  intro h
  unfold parseFields at h
  split at h
  · split at h
    · cases h
    · split at h
      · next value =>
        cases hsplit : splitMessageValue value with
        | error failure =>
            rw [hsplit] at h
            cases h
            exact splitMessageValue_not_raised value error hsplit
        | ok parts =>
            rw [hsplit] at h
            cases h
      · cases h
  · cases h

/-- Only `json.loads` raises anything but a `PLCMessageParseError`. -/
theorem parsePlcMessage_raised_iff {payload : Bytes} {error : PyError} :
    parsePlcMessage payload = .error (.raised error) ↔
      ∃ text, Utf8.decode payload = some text ∧ Json.loads text = .error error ∧
        ∀ msg, error ≠ .jsonDecodeError msg := by
  unfold parsePlcMessage decodePayload
  cases Utf8.decode payload with
  | none => simp [reject, bind, Except.bind]
  | some text =>
      simp only [bind, Except.bind, Option.some.injEq, exists_eq_left']
      unfold loadJsonObject
      cases hloads : Json.loads text with
      | ok value =>
          cases value with
          | dict entries => simp [parseFields_not_raised]
          | none | bool | int | float | text | list | object => simp [reject]
      | error found =>
          cases found with
          | jsonDecodeError msg =>
              simp only [reject, Except.error.injEq, reduceCtorEq, false_iff, not_and]
              rintro rfl hother
              exact hother msg rfl
          | valueError | typeError | overflowError | recursionError | unicodeEncodeError
            | integrityError | operationalError | endOfFile | raised =>
              simp only [Except.error.injEq, ParseFailure.raised.injEq]
              constructor
              · rintro rfl
                exact ⟨rfl, nofun⟩
              · exact fun h => h.1

theorem acceptedMessage_raised_iff {topic : Text} {payload : Bytes} {error : PyError} :
    acceptedMessage topic payload = .error (.raised error) ↔
      parsePlcMessage payload = .error (.raised error) := by
  unfold acceptedMessage
  cases parsePlcMessage payload with
  | error failure => simp [bind, Except.bind]
  | ok parsed => simp [bind, Except.bind]

theorem acceptedMessage_rejected_iff {topic : Text} {payload : Bytes} {message : Text} :
    acceptedMessage topic payload = .error (.rejected message) ↔
      parsePlcMessage payload = .error (.rejected message) := by
  unfold acceptedMessage
  cases parsePlcMessage payload with
  | error failure => simp [bind, Except.bind]
  | ok parsed => simp [bind, Except.bind]

/-- A digit is no surrogate. -/
theorem isScalar_of_isDigit {c : Nat} (h : Text.isDigit c = true) : Text.isScalar c = true := by
  have hdecimals : ∀ first ∈ Text.decimalZeros,
      first + 10 ≤ 0xd800 ∨ (0xe000 ≤ first ∧ first + 10 ≤ 0x110000) := by
    decide
  have hothers : ∀ range ∈ Text.otherDigits,
      range.2 < 0xd800 ∨ (0xe000 ≤ range.1 ∧ range.2 < 0x110000) := by
    decide
  rw [Text.isScalar_iff]
  obtain hdecimal | hother := Bool.or_eq_true_iff.mp h
  · obtain ⟨first, hfirst, hrange⟩ := List.any_eq_true.mp hdecimal
    simp only [Bool.and_eq_true, decide_eq_true_eq] at hrange
    have hbounds := hdecimals first hfirst
    omega
  · obtain ⟨range, hmem, hrange⟩ := List.any_eq_true.mp hother
    simp only [Bool.and_eq_true, decide_eq_true_eq] at hrange
    have hbounds := hothers range hmem
    omega

theorem acceptedMessage_serial {topic : Text} {payload : Bytes} {message : IncomingMessage}
    (h : acceptedMessage topic payload = .ok message) :
    message.topic = topic ∧ message.serial.encodable = true := by
  obtain ⟨parsed, hparsed, heq⟩ := bind_eq_ok.mp h
  cases heq
  obtain ⟨_, _, -, -, -, hsplit⟩ := parsePlcMessage_eq_ok hparsed
  refine ⟨rfl, ?_⟩
  have hdigits := (splitMessageValue_eq_ok hsplit).2.2.2.2
  rw [List.all_eq_true] at hdigits
  exact List.all_eq_true.mpr fun c hc => isScalar_of_isDigit (hdigits c hc)

/-! ## The callback keeps its promise -/

/-- The message is rejected, and the database is as before; or it is in exactly one row.
No exception leaves the callback. -/
def CallbackKeeps (platform : Platform) (topic : Text) (payload : Bytes)
    (receivedAt replayedAt : Datetime) (db : Database) : Prop :=
  (∃ message, parsePlcMessage payload = .error (.rejected message) ∧
    onMessage platform topic payload receivedAt replayedAt db = .ok (.rejected message, db)) ∨
  ∃ message received after, acceptedMessage topic payload = .ok message ∧
    onMessage platform topic payload receivedAt replayedAt db = .ok (received, after) ∧
    KeptOnce topic message.rawPayload after

/-- `json.loads` raises nothing but `JSONDecodeError` on the text of the payload, and the
text of an accepted message is stored already or can be stored under its digest. -/
structure Storable (platform : Platform) (topic : Text) (payload : Bytes) (db : Database) :
    Prop where
  decodes : ∀ text error, Utf8.decode payload = some text → Json.loads text = .error error →
    ∃ msg, error = .jsonDecodeError msg
  encodes : ∀ message, acceptedMessage topic payload = .ok message → topic.encodable = true
  row : ∀ message, acceptedMessage topic payload = .ok message →
    HasRow topic message.rawPayload db ∨
      message.model.encodable = true ∧ Unclaimed platform topic message.rawPayload db

theorem encodable_accepted_iff {topic : Text} {payload : Bytes} {message : IncomingMessage}
    (h : acceptedMessage topic payload = .ok message) :
    Text.encodable (topic ++ message.rawPayload) = true ↔ topic.encodable = true := by
  obtain ⟨_, hdecode, -⟩ := acceptedMessage_eq_ok h
  have hraw := Utf8.decode_encodable hdecode
  constructor
  · intro hboth
    rw [Text.encodable, List.all_append, Bool.and_eq_true] at hboth
    exact hboth.1
  · exact fun htopic => Text.encodable_append htopic hraw

section

variable {platform : Platform} {db : Database} {topic : Text} {payload : Bytes}
  {message : IncomingMessage}

/-- What the callback makes of an accepted message. -/
theorem onMessage_accepted (haccepted : acceptedMessage topic payload = .ok message)
    (receivedAt replayedAt : Datetime) :
    onMessage platform topic payload receivedAt replayedAt db = (do
      let (saved, after) ← saveMessage platform message receivedAt db
      if saved.inserted then .ok (.stored saved, after)
      else do
        let (ack, final) ← handleDuplicateMessage platform saved replayedAt after
        .ok (.duplicate ack, final)) := by
  rw [onMessage, haccepted]

theorem onMessage_storable (working : Working platform db)
    (haccepted : acceptedMessage topic payload = .ok message)
    (h : Storable platform topic payload db) (receivedAt replayedAt : Datetime) :
    ∃ received after,
      onMessage platform topic payload receivedAt replayedAt db = .ok (received, after) ∧
        KeptOnce topic message.rawPayload after := by
  obtain ⟨rfl, hserial⟩ := acceptedMessage_serial haccepted
  have htopic := h.encodes message haccepted
  have hencodable := (encodable_accepted_iff haccepted).mpr htopic
  rw [onMessage_accepted haccepted]
  obtain hkept | ⟨hmodel, hfree⟩ := h.row message haccepted
  · obtain ⟨saved, hsave, hinserted⟩ :=
      saveMessage_kept receivedAt working.hashed hencodable hkept
    obtain ⟨ack, after, hduplicate, hashed, hsame⟩ :=
      handleDuplicateMessage_ok working saved replayedAt
    refine ⟨.duplicate ack, after, ?_, hashed.keptOnce_iff.mpr ((hsame _ _).mpr hkept)⟩
    simp [hsave, bind, Except.bind, hinserted, hduplicate]
  · have hbindable := (acceptedMessage_bindable haccepted).mpr ⟨htopic, hmodel, hserial⟩
    obtain ⟨saved, after, hsave, hinserted, hkept⟩ :=
      saveMessage_unclaimed receivedAt hencodable hbindable hfree
    refine ⟨.stored saved, after, ?_, (working.hashed.save hsave).keptOnce_iff.mpr hkept⟩
    simp [hsave, bind, Except.bind, hinserted]

theorem storable_of_onMessage (working : Working platform db)
    (haccepted : acceptedMessage topic payload = .ok message) {receivedAt replayedAt : Datetime}
    {received : Received} {after : Database}
    (hrun : onMessage platform topic payload receivedAt replayedAt db = .ok (received, after))
    (hkept : KeptOnce topic message.rawPayload after) : Storable platform topic payload db := by
  obtain ⟨rfl, -⟩ := acceptedMessage_serial haccepted
  rw [onMessage_accepted haccepted] at hrun
  obtain ⟨⟨saved, stored⟩, hsave, hbody⟩ := bind_eq_ok.mp hrun
  obtain ⟨hencodable, hcases⟩ := saveMessage_ok hsave
  have hrow : HasRow message.topic message.rawPayload db ∨
      message.model.encodable = true ∧
        Unclaimed platform message.topic message.rawPayload db := by
    obtain ⟨hinserted, rfl⟩ | ⟨-, hbindable, hfree⟩ := hcases
    · obtain ⟨ack, final, hduplicate, -, hsame⟩ :=
        handleDuplicateMessage_ok working saved replayedAt
      simp only [hinserted, Bool.false_eq_true, if_false, hduplicate, bind, Except.bind,
        Except.ok.injEq, Prod.mk.injEq] at hbody
      obtain ⟨-, rfl⟩ := hbody
      obtain ⟨row, ⟨hmem, hsametopic, hsametext⟩, -⟩ := hkept
      exact .inl ((hsame _ _).mp ⟨row, hmem, hsametopic, hsametext⟩)
    · exact .inr ⟨((acceptedMessage_bindable haccepted).mp hbindable).2.1, hfree⟩
  refine ⟨?_, fun other hother => ?_, fun other hother => ?_⟩
  · intro text error hdecode hloads
    obtain ⟨_, hraw, htext, -⟩ := acceptedMessage_eq_ok haccepted
    rw [hdecode, Option.some.injEq] at hraw
    rw [← hraw, hloads] at htext
    cases htext
  · exact (encodable_accepted_iff haccepted).mp hencodable
  · rw [haccepted, Except.ok.injEq] at hother
    rw [← hother]
    exact hrow

end

theorem callbackKeeps_iff_storable {platform : Platform} {db : Database}
    (working : Working platform db) (topic : Text) (payload : Bytes)
    (receivedAt replayedAt : Datetime) :
    CallbackKeeps platform topic payload receivedAt replayedAt db ↔
      Storable platform topic payload db := by
  cases haccepted : acceptedMessage topic payload with
  | error failure =>
      cases failure with
      | rejected message =>
          have hparse := acceptedMessage_rejected_iff.mp haccepted
          refine iff_of_true (.inl ⟨message, hparse, by simp [onMessage, haccepted]⟩)
            ⟨?_, by simp [haccepted], by simp [haccepted]⟩
          intro text error hdecode hloads
          by_contra hother
          have hraised := parsePlcMessage_raised_iff.mpr
            ⟨text, hdecode, hloads, fun msg heq => hother ⟨msg, heq⟩⟩
          rw [hparse] at hraised
          cases hraised
      | raised error =>
          have hparse := acceptedMessage_raised_iff.mp haccepted
          obtain ⟨text, hdecode, hloads, hother⟩ := parsePlcMessage_raised_iff.mp hparse
          refine iff_of_false ?_ fun h => ?_
          · rintro (⟨message, hrejected, -⟩ | ⟨message, -, -, hmessage, -⟩)
            · rw [hparse] at hrejected
              cases hrejected
            · rw [haccepted] at hmessage
              cases hmessage
          · obtain ⟨msg, heq⟩ := h.decodes text error hdecode hloads
            exact hother msg heq
  | ok message =>
      constructor
      · rintro (⟨message', hrejected, -⟩ | ⟨other, received, after, hother, hrun, hkept⟩)
        · rw [acceptedMessage_rejected_iff.mpr hrejected] at haccepted
          cases haccepted
        · rw [haccepted, Except.ok.injEq] at hother
          rw [← hother] at hkept
          exact storable_of_onMessage working haccepted hrun hkept
      · intro h
        obtain ⟨received, after, hrun, hkept⟩ :=
          onMessage_storable working haccepted h receivedAt replayedAt
        exact .inr ⟨message, received, after, haccepted, hrun, hkept⟩

/-! ## Exceptions that leave the callback -/

theorem not_keeps_of_error {platform : Platform} {topic : Text} {payload : Bytes}
    {receivedAt replayedAt : Datetime} {db : Database} {error : PyError}
    (hraised : onMessage platform topic payload receivedAt replayedAt db = .error error) :
    ¬ CallbackKeeps platform topic payload receivedAt replayedAt db := by
  rintro (⟨message, -, hrun⟩ | ⟨message, received, after, -, hrun, -⟩)
  · rw [hraised] at hrun
    cases hrun
  · rw [hraised] at hrun
    cases hrun

/-- The `RecursionError` of a payload that is nested too deep leaves the callback. -/
theorem onMessage_nested (platform : Platform) (topic : Text) {payload : Bytes} {count : Nat}
    {rest : Text} (hcount : Json.maxNesting < count)
    (hdecode : Utf8.decode payload = some (List.replicate count 91 ++ rest))
    (receivedAt replayedAt : Datetime) (db : Database) :
    onMessage platform topic payload receivedAt replayedAt db = .error .recursionError := by
  have hparse : parsePlcMessage payload = .error (.raised .recursionError) :=
    parsePlcMessage_raised_iff.mpr ⟨_, hdecode, Json.loads_nested hcount rest, nofun⟩
  rw [onMessage, acceptedMessage_raised_iff.mpr hparse]

/--
The callback: on a working database an input is rejected or kept in exactly one row, and
nothing is raised, exactly when it is storable.  A payload that opens more arrays than
`json.loads` goes into is not: its `RecursionError` leaves the callback.
-/
theorem callback_keeps_iff {platform : Platform} {db : Database}
    (working : Working platform db) (topic : Text) (payload : Bytes)
    (receivedAt replayedAt : Datetime) :
    (CallbackKeeps platform topic payload receivedAt replayedAt db ↔
      Storable platform topic payload db) ∧
    ∀ {count rest}, Json.maxNesting < count →
      Utf8.decode payload = some (List.replicate count 91 ++ rest) →
      onMessage platform topic payload receivedAt replayedAt db = .error .recursionError ∧
        ¬ Storable platform topic payload db := by
  have hkeeps := callbackKeeps_iff_storable working topic payload receivedAt replayedAt
  refine ⟨hkeeps, fun hcount hdecode => ?_⟩
  have hraised := onMessage_nested platform topic hcount hdecode receivedAt replayedAt db
  exact ⟨hraised, hkeeps.not.mp (not_keeps_of_error hraised)⟩

/-- The model number begins with the escape of a lone surrogate. -/
def surrogatePayload : Text := str "\x7b\"MN\":\"\\ud800P001123T01\"\x7d"

/-- SQLite refuses the model, and the `UnicodeEncodeError` leaves the callback. -/
theorem surrogate_escapes :
    onMessage samplePlatform plcToOdooTopic (surrogatePayload.map UInt8.ofNat) noon noon
        .empty = .error .unicodeEncodeError ∧
      ¬ CallbackKeeps samplePlatform plcToOdooTopic (surrogatePayload.map UInt8.ofNat) noon
        noon .empty := by
  have hraised : onMessage samplePlatform plcToOdooTopic (surrogatePayload.map UInt8.ofNat)
      noon noon .empty = .error .unicodeEncodeError := by
    have hanswer : (onMessage samplePlatform plcToOdooTopic
        (surrogatePayload.map UInt8.ofNat) noon noon .empty).map (fun _ => ()) =
        .error .unicodeEncodeError := by
      decide +kernel
    cases hrun : onMessage samplePlatform plcToOdooTopic (surrogatePayload.map UInt8.ofNat)
        noon noon .empty with
    | ok result =>
        rw [hrun] at hanswer
        cases hanswer
    | error error =>
        rw [hrun] at hanswer
        cases hanswer
        rfl
  exact ⟨hraised, not_keeps_of_error hraised⟩

theorem callback_keeps_iff_sample :
    ∃ db : Database, db.mqttMessages.rows.length = 1 ∧
      (CallbackKeeps samplePlatform plcToOdooTopic (compactPayload.map UInt8.ofNat) noon noon
          db ↔
        Storable samplePlatform plcToOdooTopic (compactPayload.map UInt8.ofNat) db) := by
  obtain ⟨db, hrun⟩ := exec_transactions samplePlatform
    (allowedReplays samplePlatform sampleHash) .empty [(.save sampleMessage, noon)]
  have hworking : Working samplePlatform db := by
    refine working_along .empty ?_ hrun
    intro op hop id arguments hjob
    rw [List.mem_singleton.mp hop] at hjob
    cases hjob
  have hrows : db.mqttMessages.rows.length = 1 := by
    have hlength : ((replaySystem samplePlatform sampleHash).exec .empty
        [(.save sampleMessage, noon)]).map (fun db => db.mqttMessages.rows.length) =
        some 1 := by
      decide +kernel
    rw [replaySystem, hrun, Option.map_some, Option.some.injEq] at hlength
    exact hlength
  exact ⟨db, hrows, (callback_keeps_iff hworking _ _ _ _).1⟩

end EdgeBridge
