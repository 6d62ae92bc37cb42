import EdgeBridge.MessageParser
import EdgeBridge.Queue

/-!
# From the MQTT payload to the payload for Odoo

`_on_message` validates a payload and stores its text; before the submission
`payload_from_record` validates the stored text again, on its own terms.
-/

namespace EdgeBridge

open Foundation

/-! ## The submit validator -/

/-- The one field of the stored object. -/
def payloadFields : List (Text × PyValue) → Except PyError (List (Text × PyValue))
  | [(messageType, value)] =>
      if !supportedMessageTypes.contains messageType then
        .error (.valueError
          (str "Unsupported message type for Odoo submission: " ++ messageType))
      else
        match value with
        | .text value =>
            if supportedTables.contains (Text.takeLast 3 value) then
              .ok [(messageType, .text value)]
            else .error (.valueError (str "Payload value must end in T01, T02, or T03"))
        | _ => .error (.valueError
            (str "Payload value for " ++ messageType ++ str " must be a string"))
  | _ => .error (.valueError
      (str "Raw payload must contain exactly one top-level key"))

/-- `payload_from_record`: the object that is submitted to Odoo. -/
def payloadFromRecord (record : MessageRecord) :
    Except PyError (List (Text × PyValue)) :=
  match Json.loads record.rawPayload with
  | .ok (.dict payload) => payloadFields payload
  | .ok _ => .error (.valueError (str "Raw payload must be a JSON object"))
  | .error (.jsonDecodeError msg) =>
      .error (.valueError (str "Malformed raw JSON: " ++ msg))
  | .error error => .error error

/-! ## Storing an accepted message -/

/-- The arguments that `_on_message` passes to `save_message`. -/
def incomingMessage (topic rawPayload : Text) (parsed : ParsedPLCMessage) :
    IncomingMessage where
  topic := topic
  rawPayload := rawPayload
  messageType := parsed.messageType
  tableNo := parsed.tableNumber
  model := parsed.modelNumber
  serial := parsed.serialNumber

/-- The text that `_decode_payload_for_log` keeps of a payload that the parser
accepts; a payload that is not UTF-8 is rejected before it is stored. -/
def acceptedMessage (topic : Text) (payload : Bytes) :
    Except ParseFailure IncomingMessage := do
  let parsed ← parsePlcMessage payload
  .ok (incomingMessage topic ((Utf8.decode payload).getD []) parsed)

theorem acceptedMessage_eq_ok {topic : Text} {payload : Bytes}
    {message : IncomingMessage} (h : acceptedMessage topic payload = .ok message) :
    ∃ value, Utf8.decode payload = some message.rawPayload ∧
      Json.loads message.rawPayload = .ok (.dict [(message.messageType, .text value)]) ∧
      message.messageType ∈ supportedMessageTypes ∧
      Text.takeLast 3 (Text.strip value) ∈ supportedTables := by
  unfold acceptedMessage at h
  cases hparsed : parsePlcMessage payload with
  | error failure =>
      rw [hparsed] at h
      cases h
  | ok parsed =>
      rw [hparsed] at h
      cases h
      have haccepted := parsePlcMessage_eq_ok hparsed
      rcases haccepted with ⟨text, value, htext, hloads, htype, hsplit⟩
      have htable := splitMessageValue_eq_ok hsplit
      refine ⟨value, ?_, ?_, htype, htable.1 ▸ htable.2.1⟩
      · simp [incomingMessage, htext]
      · simpa [incomingMessage, htext] using hloads

/-- Of an accepted message only the topic, the model and the serial can be refused by
SQLite. -/
theorem acceptedMessage_bindable {topic : Text} {payload : Bytes}
    {message : IncomingMessage} (h : acceptedMessage topic payload = .ok message) :
    message.bindable = true ↔ message.topic.encodable = true ∧
      message.model.encodable = true ∧ message.serial.encodable = true := by
  have htypes : ∀ text ∈ supportedMessageTypes, Text.encodable text = true := by decide
  have htables : ∀ text ∈ supportedTables, Text.encodable text = true := by decide
  rcases acceptedMessage_eq_ok h with ⟨_, hdecoded, -, htype, -⟩
  have htable : message.tableNo ∈ supportedTables := by
    unfold acceptedMessage at h
    rcases bind_eq_ok.mp h with ⟨parsed, hparsed, hmessage⟩
    cases hmessage
    rcases parsePlcMessage_eq_ok hparsed with ⟨_, _, -, -, -, hsplit⟩
    exact (splitMessageValue_eq_ok hsplit).2.1
  simp [IncomingMessage.bindable, Utf8.decode_encodable hdecoded, htypes _ htype,
    htables _ htable, and_assoc]

/-! ## Agreement of the two validators -/

/-- A table suffix has three characters and ends in no white space. -/
theorem supportedTable_shape {table : Text} (h : table ∈ supportedTables) :
    table.length = 3 ∧ ∀ c, table.getLast? = some c → Text.isSpace c = false := by
  simp only [supportedTables, List.mem_cons, List.not_mem_nil, or_false] at h
  rcases h with rfl | rfl | rfl <;>
    refine ⟨rfl, ?_⟩ <;> intro c hc <;> cases hc <;> decide

theorem payloadFields_supported {messageType value : Text}
    (htype : messageType ∈ supportedMessageTypes) :
    payloadFields [(messageType, .text value)] = .ok [(messageType, .text value)] ↔
      Text.takeLast 3 value ∈ supportedTables := by
  have hcontains : supportedMessageTypes.contains messageType = true := by
    simpa using htype
  simp only [payloadFields, hcontains, Bool.not_true, Bool.false_eq_true, if_false]
  split
  · next htable => simpa using htable
  · next htable =>
    constructor
    · intro h
      cases h
    · intro hmem
      exact absurd (by simpa using hmem) htable

/--
A value that ends in a table suffix once stripped ends in one as it stands
exactly when there was nothing to strip on the right.
-/
theorem takeLast_supported_iff {value : Text}
    (hstrip : Text.takeLast 3 (Text.strip value) ∈ supportedTables) :
    Text.takeLast 3 value ∈ supportedTables ↔ Text.rstrip value = value := by
  constructor
  · intro hraw
    rw [Text.rstrip_eq_self_iff]
    intro hne
    have hlast := Text.getLast?_takeLast (n := 3) (by omega) value
    rw [List.getLast?_eq_some_getLast hne] at hlast
    exact (supportedTable_shape hraw).2 _ hlast
  · intro hsame
    have hlength := (supportedTable_shape hstrip).1
    rw [Text.length_takeLast] at hlength
    have hsuffix : Text.strip value <:+ value := by
      rw [Text.strip, hsame]
      exact Text.lstrip_suffix value
    have heq := Text.takeLast_of_suffix hsuffix (n := 3) (by omega)
    rw [heq]
    exact hstrip

/--
The stored row of an accepted message passes the submit validator, with the
value it came with, exactly when that value has no trailing white space.
-/
theorem payloadFromRecord_stored_iff {platform : Platform} {topic : Text}
    {payload : Bytes} {message : IncomingMessage} {now : Datetime}
    {db after : Database} {saved : SavedMessage} {record : MessageRecord}
    (accepted : acceptedMessage topic payload = .ok message)
    (stored : saveMessage platform message now db = .ok (saved, after))
    (inserted : saved.inserted = true)
    (row : after.message saved.id = some record) :
    ∃ value, Json.loads ((Utf8.decode payload).getD []) =
        .ok (.dict [(message.messageType, .text value)]) ∧
      (payloadFromRecord record = .ok [(message.messageType, .text value)] ↔
        Text.rstrip value = value) := by
  obtain ⟨value, hdecode, hloads, htype, htable⟩ := acceptedMessage_eq_ok accepted
  have hraw : record.rawPayload = message.rawPayload := by
    rcases (saveMessage_cases stored).2 with ⟨-, hold, -⟩ | ⟨-, -, hid, hinsert, -⟩
    · rw [hold] at inserted
      cases inserted
    have hbyId := Table.byId_insert hinsert saved.id
    rw [if_pos hid] at hbyId
    rw [Database.message, hbyId] at row
    cases row
    rfl
  refine ⟨value, ?_, ?_⟩
  · simpa [hdecode] using hloads
  · rw [← takeLast_supported_iff htable, ← payloadFields_supported htype]
    simp [payloadFromRecord, hraw, hloads]

/-! ## A trailing space -/

def plcToOdooTopic : Text := str "MQTT/PLC_TO_ODOO/topic"

/-- A platform that knows the digests of the texts at hand. -/
def Platform.ofDigests (digests : List (Text × Text)) : Platform where
  sha256 text := (digests.lookup text).getD []
  otherIsoLayout _ := none
  literalEval _ := none
  maxVariables := 250000

def spacedPayload : Text := str "\x7b\"MN\": \"TESTP00112345T01 \"\x7d"

def compactPayload : Text := str "\x7b\"MN\":\"TESTP00112345T01\"\x7d"

def nextPayload : Text := str "\x7b\"MN\":\"TESTP00112346T01\"\x7d"

def samplePlatform : Platform := .ofDigests
  [(plcToOdooTopic ++ spacedPayload,
    str "353f2da6f1fd57b9e4360258593a5c4c694d276a5c394ae45c796d4f54861d5a"),
   (plcToOdooTopic ++ compactPayload,
    str "bc13f1447415c475bc62c52d2edb8808e9f1c88b2ccbf2041472e1919d2a0c15"),
   (plcToOdooTopic ++ nextPayload,
    str "502fbc1312b4ea2f9dbe3eedd50f451e82b35f9a606739d6814fb07f2b920832")]

def noon : Datetime := .ofSecond 63892929600 (by decide)

/-- A clock reading, in seconds after noon. -/
def atNoon (second : UInt8) : Datetime :=
  .ofSecond (63892929600 + second.toNat) (by
    have hsecond := second.toNat_lt
    unfold maxSecond
    omega)

/-- What a payload leaves in an empty database: its message and its row. -/
def storedInEmpty (payload : Text) : Option (IncomingMessage × SavedMessage × Database) :=
  match acceptedMessage plcToOdooTopic (payload.map UInt8.ofNat) with
  | .error _ => none
  | .ok message =>
      match saveMessage samplePlatform message noon .empty with
      | .error _ => none
      | .ok (saved, after) => some (message, saved, after)

theorem storedInEmpty_eq_some {payload : Text} {message : IncomingMessage}
    {saved : SavedMessage} {after : Database}
    (h : storedInEmpty payload = some (message, saved, after)) :
    acceptedMessage plcToOdooTopic (payload.map UInt8.ofNat) = .ok message ∧
      saveMessage samplePlatform message noon .empty = .ok (saved, after) := by
  unfold storedInEmpty at h
  split at h
  · cases h
  · next message' haccepted =>
    split at h
    · cases h
    · next saved' after' hstored =>
      cases h
      exact ⟨haccepted, hstored⟩

/-- The row of a stored payload, and the answer of the submit validator. -/
def resubmitted (payload : Text) : Option (Bool × Bool) := do
  let (_, saved, after) ← storedInEmpty payload
  let record ← after.message saved.id
  some (saved.inserted, (payloadFromRecord record).isOk)

theorem resubmitted_eq_some {payload : Text} {inserted valid : Bool}
    (h : resubmitted payload = some (inserted, valid)) :
    ∃ message saved after record,
      acceptedMessage plcToOdooTopic (payload.map UInt8.ofNat) = .ok message ∧
      saveMessage samplePlatform message noon .empty = .ok (saved, after) ∧
      saved.inserted = inserted ∧ after.message saved.id = some record ∧
      (payloadFromRecord record).isOk = valid := by
  unfold resubmitted at h
  simp only [Option.bind_eq_bind, Option.bind_eq_some_iff, Option.some.injEq,
    Prod.mk.injEq] at h
  obtain ⟨⟨message, saved, after⟩, hstored, record, hrecord, hinserted, hvalid⟩ := h
  obtain ⟨haccepted, hsaved⟩ := storedInEmpty_eq_some hstored
  exact ⟨message, saved, after, record, haccepted, hsaved, hinserted, hrecord, hvalid⟩

/-- A space after the table suffix passes the parser and fails the worker. -/
theorem trailing_space_fails_submission :
    ∃ message saved after record,
      acceptedMessage plcToOdooTopic (spacedPayload.map UInt8.ofNat) = .ok message ∧
      saveMessage samplePlatform message noon .empty = .ok (saved, after) ∧
      saved.inserted = true ∧ after.message saved.id = some record ∧
      ∀ value, payloadFromRecord record ≠ .ok [(message.messageType, .text value)] := by
  have hrun : resubmitted spacedPayload = some (true, false) := by decide +kernel
  obtain ⟨message, saved, after, record, haccepted, hsaved, hinserted, hrecord,
    hvalid⟩ := resubmitted_eq_some hrun
  refine ⟨message, saved, after, record, haccepted, hsaved, hinserted, hrecord, ?_⟩
  intro value hok
  rw [hok] at hvalid
  cases hvalid

/-- The general theorem at a payload in the compact layout. -/
theorem payloadFromRecord_stored_compact :
    ∃ message saved after record,
      acceptedMessage plcToOdooTopic (compactPayload.map UInt8.ofNat) = .ok message ∧
      saveMessage samplePlatform message noon .empty = .ok (saved, after) ∧
      saved.inserted = true ∧ after.message saved.id = some record ∧
      ∃ value, payloadFromRecord record = .ok [(message.messageType, .text value)] ↔
        Text.rstrip value = value := by
  have hrun : resubmitted compactPayload = some (true, true) := by decide +kernel
  obtain ⟨message, saved, after, record, haccepted, hsaved, hinserted, hrecord,
    -⟩ := resubmitted_eq_some hrun
  obtain ⟨value, -, hiff⟩ :=
    payloadFromRecord_stored_iff haccepted hsaved hinserted hrecord
  exact ⟨message, saved, after, record, haccepted, hsaved, hinserted, hrecord, value,
    hiff⟩

end EdgeBridge
