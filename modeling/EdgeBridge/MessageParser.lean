import EdgeBridge.Foundation.Json
import EdgeBridge.Foundation.Utf8

/-!
# PLC messages

The parser of `message_parser.py`.  A payload is one JSON object with one field,
`MN` or `MP`, whose text holds a model, a serial and a table.
-/

namespace EdgeBridge

open Foundation

structure ParsedPLCMessage where
  messageType : Text
  modelNumber : Text
  serialNumber : Text
  tableNumber : Text
  deriving DecidableEq

/-- `rejected` is a `PLCMessageParseError`; every other exception passes through. -/
inductive ParseFailure where
  | rejected (message : Text)
  | raised (error : PyError)
  deriving DecidableEq

def reject {α : Type} (message : Text) : Except ParseFailure α :=
  .error (.rejected message)

def supportedMessageTypes : List Text := [str "MN", str "MP"]

def supportedTables : List Text := [str "T01", str "T02", str "T03"]

def decodePayload (payload : Bytes) : Except ParseFailure Text :=
  match Utf8.decode payload with
  | some text => .ok text
  | none => reject (str "PLC payload must be valid UTF-8")

def loadJsonObject (text : Text) : Except ParseFailure (List (Text × PyValue)) :=
  match Json.loads text with
  | .ok (.dict entries) => .ok entries
  | .ok _ => reject (str "PLC message must be a JSON object")
  | .error (.jsonDecodeError msg) => reject (str "Malformed JSON: " ++ msg)
  | .error error => .error (.raised error)

/-- `rsplit(" ", maxsplit=1)` of a text with a space: the parts around the last one. -/
def splitSpacedPayload (payloadWithoutTable : Text) : Text × Text :=
  let serial := payloadWithoutTable.rtakeWhile (· ≠ 32)
  (Text.strip (Text.dropLast (serial.length + 1) payloadWithoutTable),
    Text.strip serial)

/-- The group `.+P\d{3}`; the dot does not match a line feed. -/
def isCompactModel (model : Text) : Bool :=
  match Text.takeLast 4 model with
  | [p, a, b, c] =>
      p == 80 && Text.isDecimal a && Text.isDecimal b && Text.isDecimal c &&
        !(Text.dropLast 4 model).isEmpty && !(Text.dropLast 4 model).contains 10
  | _ => false

/-- `COMPACT_VALUE_PATTERN.fullmatch`; `.+` is greedy, so the longest model wins. -/
def compactMatch (text : Text) : Option (Text × Text) :=
  ((List.range text.length).reverse.find? fun n =>
    isCompactModel (text.take n) && (text.drop n).all Text.isDecimal).map
      fun n => (text.take n, text.drop n)

def splitCompactPayload (payloadWithoutTable : Text) :
    Except ParseFailure (Text × Text) :=
  match compactMatch payloadWithoutTable with
  | some parts => .ok parts
  | none => reject (str
      "Compact PLC payload must contain a model ending like P001 followed by a numeric serial")

def splitPayload (payloadWithoutTable : Text) : Except ParseFailure (Text × Text) :=
  if payloadWithoutTable.contains 32 then .ok (splitSpacedPayload payloadWithoutTable)
  else splitCompactPayload payloadWithoutTable

/-- The model, the serial and the table of a message value. -/
def splitMessageValue (value : Text) : Except ParseFailure (Text × Text × Text) := do
  let tableNumber := Text.takeLast 3 (Text.strip value)
  if !supportedTables.contains tableNumber then
    reject (str "PLC message is missing a supported table suffix")
  else
    let (modelNumber, serialNumber) ← splitPayload (Text.dropLast 3 (Text.strip value))
    if modelNumber.isEmpty then reject (str "PLC model number is missing")
    else if serialNumber.isEmpty || !serialNumber.all Text.isDigit then
      reject (str "PLC serial must contain only numeric characters")
    else .ok (modelNumber, serialNumber, tableNumber)

/-- The one field of the decoded object. -/
def parseFields : List (Text × PyValue) → Except ParseFailure ParsedPLCMessage
  | [(messageType, value)] =>
      if !supportedMessageTypes.contains messageType then
        reject (str "Unsupported PLC message type: " ++ messageType)
      else
        match value with
        | .text value => do
            let (modelNumber, serialNumber, tableNumber) ← splitMessageValue value
            .ok ⟨messageType, modelNumber, serialNumber, tableNumber⟩
        | _ => reject (str "PLC message value for " ++ messageType ++
            str " must be a string")
  | _ => reject (str "PLC message must contain exactly one field")

def parsePlcMessage (payload : Bytes) : Except ParseFailure ParsedPLCMessage := do
  let text ← decodePayload payload
  let data ← loadJsonObject text
  parseFields data

/-! ## What an accepted message looks like -/

theorem splitMessageValue_eq_ok {value model serial table : Text}
    (h : splitMessageValue value = .ok (model, serial, table)) :
    table = Text.takeLast 3 (Text.strip value) ∧ table ∈ supportedTables ∧
      model ≠ [] ∧ serial ≠ [] ∧ serial.all Text.isDigit = true := by
  unfold splitMessageValue at h
  simp only at h
  split at h
  · cases h
  · next htable =>
    rcases hparts : splitPayload (Text.dropLast 3 (Text.strip value)) with
      failure | ⟨modelNumber, serialNumber⟩
    · rw [hparts] at h
      cases h
    · rw [hparts] at h
      simp only [bind, Except.bind] at h
      split at h
      · cases h
      · next hmodel =>
        split at h
        · cases h
        · next hserial =>
          cases h
          simp only [Bool.or_eq_true, not_or, Bool.not_eq_true, List.isEmpty_eq_false_iff,
            Bool.not_eq_eq_eq_not] at hmodel hserial
          refine ⟨rfl, by simpa using htable, hmodel, hserial.1, ?_⟩
          simpa using hserial.2

theorem parseFields_eq_ok {data : List (Text × PyValue)} {parsed : ParsedPLCMessage}
    (h : parseFields data = .ok parsed) :
    ∃ value, data = [(parsed.messageType, .text value)] ∧
      parsed.messageType ∈ supportedMessageTypes ∧
      splitMessageValue value =
        .ok (parsed.modelNumber, parsed.serialNumber, parsed.tableNumber) := by
  unfold parseFields at h
  split at h
  · next messageType fieldValue =>
    split at h
    · cases h
    · next htype =>
      split at h
      · next value =>
        cases hsplit : splitMessageValue value with
        | error failure =>
            rw [hsplit] at h
            cases h
        | ok parts =>
            rw [hsplit] at h
            cases h
            exact ⟨value, rfl, by simpa using htype, hsplit⟩
      · cases h
  · cases h

theorem loadJsonObject_eq_ok {text : Text} {entries : List (Text × PyValue)} :
    loadJsonObject text = .ok entries ↔ Json.loads text = .ok (.dict entries) := by
  constructor
  · intro h
    unfold loadJsonObject at h
    split at h
    · next hloads =>
      cases h
      exact hloads
    · cases h
    · cases h
    · cases h
  · intro h
    simp [loadJsonObject, h]

/-- An accepted payload is UTF-8 text of an object with the one supported field. -/
theorem parsePlcMessage_eq_ok {payload : Bytes} {parsed : ParsedPLCMessage}
    (h : parsePlcMessage payload = .ok parsed) :
    ∃ text value, Utf8.decode payload = some text ∧
      Json.loads text = .ok (.dict [(parsed.messageType, .text value)]) ∧
      parsed.messageType ∈ supportedMessageTypes ∧
      splitMessageValue value =
        .ok (parsed.modelNumber, parsed.serialNumber, parsed.tableNumber) := by
  unfold parsePlcMessage decodePayload at h
  cases htext : Utf8.decode payload with
  | none =>
      rw [htext] at h
      cases h
  | some text =>
      rw [htext] at h
      cases hdata : loadJsonObject text with
      | error failure =>
          simp only [bind, Except.bind, hdata] at h
          cases h
      | ok data =>
          simp only [bind, Except.bind, hdata] at h
          have hfields := parseFields_eq_ok h
          rcases hfields with ⟨value, hvalue, htype, hsplit⟩
          have hloads := loadJsonObject_eq_ok.mp hdata
          exact ⟨text, value, rfl, hvalue ▸ hloads, htype, hsplit⟩

end EdgeBridge
