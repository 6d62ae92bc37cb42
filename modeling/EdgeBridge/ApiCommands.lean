import EdgeBridge.Production

/-!
# The audit rows of the command API

The functions of `database.py` on `api_commands`, each as the effect of its
whole transaction.
-/

namespace EdgeBridge

open Foundation

/-- The arguments of `create_api_command_record`; every caller leaves the status
at `RECEIVED`. -/
structure CommandArguments where
  requestId : Text
  idempotencyKey : Option Text
  username : Option Text
  remoteAddress : Option Text
  payload : Text
  mqttTopic : Text

def newCommand (platform : Platform) (arguments : CommandArguments)
    (receivedAt : Text) : ApiCommandRecord where
  id := 0
  requestId := arguments.requestId
  idempotencyKey := arguments.idempotencyKey
  receivedAt := receivedAt
  username := arguments.username
  remoteAddress := arguments.remoteAddress
  payload := arguments.payload
  payloadHash := platform.sha256 arguments.payload
  mqttTopic := arguments.mqttTopic
  status := .received
  mqttRc := none
  mqttMid := none
  publishedAt := none
  responseCode := none
  responseBody := none
  lastError := none

def commandBindings (arguments : CommandArguments) : List Binding :=
  [.text arguments.requestId, .text arguments.idempotencyKey, .text arguments.username,
    .text arguments.remoteAddress, .text arguments.mqttTopic]

def createApiCommandRecord (platform : Platform) (arguments : CommandArguments)
    (receivedAt : Datetime) (db : Database) : Except PyError Database :=
  if !Text.encodable arguments.payload then .error .unicodeEncodeError
  else do
    bindAll (commandBindings arguments)
    match db.apiCommands.insert
        (newCommand platform arguments (formatTimestamp receivedAt)) with
    | some table => .ok { db with apiCommands := table }
    | none => .error .integrityError

def getApiCommandByIdempotencyKey (idempotencyKey : Text) (db : Database) :
    Except PyError (Option ApiCommandRecord) := do
  bindAll [.text idempotencyKey]
  .ok (db.apiCommands.find? fun record => record.idempotencyKey == some idempotencyKey)

/-- The columns that `_update_api_command_result` sets. -/
structure CommandResult where
  status : ApiCommandStatus
  mqttRc : Option Int
  mqttMid : Option Int
  publishedAt : Option Text
  lastError : Option Text

/-- `mark_api_command_published`. -/
def CommandResult.published (mqttRc : Int) (mqttMid : Option Int)
    (publishedAt : Datetime) : CommandResult :=
  ⟨.published, some mqttRc, mqttMid, some (formatTimestamp publishedAt), none⟩

/-- `mark_api_command_failed`. -/
def CommandResult.failed (error : Text) (mqttRc mqttMid : Option Int) : CommandResult :=
  ⟨.failed, mqttRc, mqttMid, none, some error⟩

/-- `mark_api_command_rejected`. -/
def CommandResult.rejected (error : Text) : CommandResult :=
  ⟨.rejected, none, none, none, some error⟩

def setResult (result : CommandResult) : Table.Update ApiCommandRecord where
  apply record :=
    { record with
      status := result.status
      mqttRc := result.mqttRc
      mqttMid := result.mqttMid
      publishedAt := result.publishedAt
      lastError := result.lastError }

def setResponse (code : Int) (body : Text) : Table.Update ApiCommandRecord where
  apply record := { record with responseCode := some code, responseBody := some body }

/-- An `UPDATE ... WHERE request_id = ?` that must find its row. -/
def updateCommand (requestId : Text) (bindings : List Binding)
    (change : Table.Update ApiCommandRecord) (db : Database) :
    Except PyError Database := do
  bindAll bindings
  match db.apiCommands.find? fun record => record.requestId == requestId with
  | none => .error (.valueError (str "API command request_id not found"))
  | some _ =>
      .ok { db with
        apiCommands := db.apiCommands.update
          (fun record => record.requestId == requestId) change }

def updateApiCommandResult (requestId : Text) (result : CommandResult)
    (db : Database) : Except PyError Database :=
  updateCommand requestId
    [.int result.mqttRc, .int result.mqttMid, .text result.publishedAt,
      .text result.lastError, .text requestId] (setResult result) db

def saveApiResponse (requestId : Text) (code : Int) (body : Text) (db : Database) :
    Except PyError Database :=
  updateCommand requestId [.int code, .text body, .text requestId]
    (setResponse code body) db

/-- The three writes of the API thread. -/
inductive AuditWrite where
  | create (arguments : CommandArguments) (receivedAt : Datetime)
  | result (requestId : Text) (outcome : CommandResult)
  | response (requestId : Text) (code : Int) (body : Text)

def AuditWrite.run (platform : Platform) (db : Database) :
    AuditWrite → Except PyError Database
  | .create arguments receivedAt =>
      createApiCommandRecord platform arguments receivedAt db
  | .result requestId outcome => updateApiCommandResult requestId outcome db
  | .response requestId code body => saveApiResponse requestId code body db

/-! ## What they do to the rows -/

theorem createApiCommandRecord_eq_ok {platform : Platform} {arguments : CommandArguments}
    {receivedAt : Datetime} {db after : Database}
    (h : createApiCommandRecord platform arguments receivedAt db = .ok after) :
    db.apiCommands.insert (newCommand platform arguments (formatTimestamp receivedAt)) =
        some after.apiCommands ∧
      after = { db with apiCommands := after.apiCommands } ∧
      bindableOptText arguments.idempotencyKey = true := by
  unfold createApiCommandRecord at h
  split at h
  · cases h
  · rcases bind_eq_ok.mp h with ⟨_, hbound, hbody⟩
    have hkey := defect_of_bindAll hbound
      (List.mem_cons_of_mem _ List.mem_cons_self)
    split at hbody
    · next table htable =>
      cases hbody
      refine ⟨htable, rfl, ?_⟩
      simpa [Binding.defect] using hkey
    · cases hbody

/-- A key that is taken keeps every other row with it out. -/
theorem createApiCommandRecord_of_taken (platform : Platform) {arguments : CommandArguments}
    {key : Text} (hkey : arguments.idempotencyKey = some key) (receivedAt : Datetime)
    {db : Database} {row : ApiCommandRecord}
    (hrow : row ∈ db.apiCommands.rows) (hsame : row.idempotencyKey = some key) :
    ∃ error, createApiCommandRecord platform arguments receivedAt db = .error error := by
  cases hresult : createApiCommandRecord platform arguments receivedAt db with
  | error error => exact ⟨error, rfl⟩
  | ok after =>
      have hinsert := (createApiCommandRecord_eq_ok hresult).1
      have hfree := (Table.insert_eq_some_iff.mp hinsert).1
      have hrowFree := List.any_eq_false.mp hfree row hrow
      simp [Row.clash, Row.key, newCommand, hkey, hsame] at hrowFree

theorem updateCommand_eq_ok {requestId : Text} {bindings : List Binding}
    {change : Table.Update ApiCommandRecord} {db after : Database}
    (h : updateCommand requestId bindings change db = .ok after) :
    after = { db with
      apiCommands := db.apiCommands.update
        (fun record => record.requestId == requestId) change } := by
  unfold updateCommand at h
  rcases bind_eq_ok.mp h with ⟨_, -, hbody⟩
  split at hbody
  · cases hbody
  · cases hbody
    rfl

theorem command_unique_of_key {db : Database} {first second : ApiCommandRecord}
    (hfirst : first ∈ db.apiCommands.rows) (hsecond : second ∈ db.apiCommands.rows)
    {key : Text} (hkey : first.idempotencyKey = some key)
    (h : second.idempotencyKey = some key) : first = second := by
  apply Table.eq_of_clash hfirst hsecond
  · simp [Row.clash, Row.key, hkey, h]
  · simp [Row.clash, Row.key, hkey, h]

end EdgeBridge
