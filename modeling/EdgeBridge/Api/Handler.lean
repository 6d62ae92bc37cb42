import EdgeBridge.Commands
import EdgeBridge.Foundation.JsonRoundTrip
import EdgeBridge.Foundation.Utf8
import EdgeBridge.Job

/-!
# The command API

`plc_command` of `api.py`, cut at its transactions and its publishes.  Any number
of requests are under way at once, next to the transactions of the other threads.
-/

namespace EdgeBridge

open Foundation

structure ApiConfig where
  maxBodyBytes : Int
  idempotencyTtlSeconds : Int
  odooToPlcTopic : Text
  readyTopic : Text
  deriving DecidableEq

/-- An authenticated request; `requestId` is the `uuid4` that it is given. -/
structure PlcRequest where
  requestId : Text
  idempotencyKey : Option Text
  username : Text
  remoteAddress : Option Text
  body : Bytes

/-- `JSONResponse` renders its content to UTF-8 when it is built. -/
structure JsonResponse where
  statusCode : Int
  content : PyValue
  renders : Json.plain content = true

def jsonResponse (statusCode : Int) (content : PyValue) : Except PyError JsonResponse :=
  if h : Json.plain content = true then .ok ⟨statusCode, content, h⟩
  else .error .unicodeEncodeError

/-! ## Before the first transaction -/

/-- The arguments of `_reject_request`. -/
structure Rejection where
  payload : Text
  error : Text
  statusCode : Int

inductive Admission where
  | rejected (rejection : Rejection)
  | command (command : PlcCommand)

/-- The size limit, `json.loads` and the validator. -/
def admission (config : ApiConfig) (request : PlcRequest) : Except PyError Admission :=
  if config.maxBodyBytes < request.body.length then
    .ok (.rejected ⟨str "[body too large]",
      str "Request body exceeds configured maximum size", 413⟩)
  else
    let rawPayload := Utf8.decodeReplace request.body
    match Json.loads rawPayload with
    | .error (.jsonDecodeError msg) =>
        .ok (.rejected ⟨rawPayload, str "Malformed JSON: " ++ msg, 422⟩)
    | .error error => .error error
    | .ok parsed =>
        match validatePlcCommand parsed with
        | .error message => .ok (.rejected ⟨rawPayload, message, 422⟩)
        | .ok command => .ok (.command command)

/-! ## The duplicate check -/

def recordWithinTtl (platform : Platform) (record : ApiCommandRecord) (ttlSeconds : Int)
    (now : Datetime) : Except PyError Bool :=
  if ttlSeconds ≤ 0 then .ok false
  else do
    let receivedAt ← parseTimestamp platform record.receivedAt
    let oldest ← now.shift (-ttlSeconds)
    .ok (decide (oldest.micro ≤ receivedAt.micro))

def pendingContent (requestId : Text) : PyValue :=
  .dict [(str "success", .bool false), (str "status", .text (str "duplicate_pending")),
    (str "request_id", .text requestId),
    (str "error", .text (str "Original request is still being processed"))]

/-- The answer to a request whose key was found inside the TTL. -/
def duplicateResponse (record : ApiCommandRecord) : Except PyError JsonResponse :=
  match record.responseCode, record.responseBody with
  | some code, some body => do
      let content ← Json.loads body
      jsonResponse code content
  | _, _ => jsonResponse 409 (pendingContent record.requestId)

/-- The record with this key, if it is inside the TTL. -/
def duplicateRecord (platform : Platform) (idempotencyKey : Option Text) (ttlSeconds : Int)
    (now : Datetime) (db : Database) : Except PyError (Option ApiCommandRecord) :=
  match truthy idempotencyKey with
  | none => .ok none
  | some key => do
      match ← getApiCommandByIdempotencyKey key db with
      | none => .ok none
      | some record =>
          let within ← recordWithinTtl platform record ttlSeconds now
          .ok (if within then some record else none)

def getDuplicateResponse (platform : Platform) (idempotencyKey : Option Text)
    (ttlSeconds : Int) (now : Datetime) (db : Database) :
    Except PyError (Option JsonResponse) := do
  match ← duplicateRecord platform idempotencyKey ttlSeconds now db with
  | none => .ok none
  | some record => (duplicateResponse record).map some

/-! ## Outcomes -/

/-- How a request with an audit row ended. -/
inductive Outcome where
  | published (command : PlcCommand) (result : PublishResult)
  | failed (result : PublishResult)
  | rejected (rejection : Rejection)

def publishError (result : PublishResult) : Text :=
  (truthy result.error).getD brokerUnavailable

/-- `mark_api_command_published`, `mark_api_command_failed` or
`mark_api_command_rejected`. -/
def Outcome.commandResult (now : Datetime) : Outcome → CommandResult
  | .published _ result => .published result.rc result.mid now
  | .failed result => .failed (publishError result) (some result.rc) result.mid
  | .rejected rejection => .rejected rejection.error

def Outcome.statusCode : Outcome → Int
  | .published _ _ => 200
  | .failed _ => 503
  | .rejected rejection => rejection.statusCode

def optionalText : Option Text → PyValue
  | some text => .text text
  | none => .none

def optionalMid : Option Int → PyValue
  | some mid => .int mid
  | none => .none

def failureContent (status requestId error : Text) : PyValue :=
  .dict [(str "success", .bool false), (str "status", .text status),
    (str "request_id", .text requestId), (str "error", .text error)]

/-- `response_body`. -/
def Outcome.content (request : PlcRequest) : Outcome → PyValue
  | .published command result =>
      .dict [(str "success", .bool true), (str "status", .text (str "published")),
        (str "request_id", .text request.requestId),
        (str "idempotency_key", optionalText request.idempotencyKey),
        (str "topic", .text result.topic), (str "payload", command.content),
        (str "mqtt_mid", optionalMid result.mid)]
  | .failed result =>
      failureContent (str "failed") request.requestId (publishError result)
  | .rejected rejection =>
      failureContent (str "rejected") request.requestId rejection.error

/-- An answer is nested far less deep than `json` goes. -/
theorem Outcome.nesting_content (outcome : Outcome) (request : PlcRequest) :
    Json.nesting (outcome.content request) ≤ Json.maxNesting := by
  have hkey : Json.nesting (optionalText request.idempotencyKey) = 0 := by
    cases request.idempotencyKey <;> rfl
  have hmid : ∀ mid, Json.nesting (optionalMid mid) = 0 := by
    intro mid
    cases mid <;> rfl
  cases outcome with
  | published command result =>
      simp [content, PlcCommand.content, Json.nesting, Json.nestingEntries, hkey, hmid,
        Json.maxNesting]
  | failed result =>
      simp [content, failureContent, Json.nesting, Json.nestingEntries, Json.maxNesting]
  | rejected rejection =>
      simp [content, failureContent, Json.nesting, Json.nestingEntries, Json.maxNesting]

/-! ## The stages of a request -/

inductive Stage where
  | rejecting (rejection : Rejection)
  | checking (command : PlcCommand)
  | creating (command : PlcCommand)
  /-- After the `IntegrityError` of the `INSERT`. -/
  | rechecking (command : PlcCommand)
  | refreshing (command : PlcCommand)
  | publishing (command : PlcCommand)
  | marking (outcome : Outcome)
  | storing (outcome : Outcome)
  | answered (response : JsonResponse)
  | raised (error : PyError)
  /-- The process ended before the answer. -/
  | dropped

def Stage.finished : Stage → Bool
  | .answered _ => true
  | .raised _ => true
  | .dropped => true
  | _ => false

def Stage.ofAdmission : Except PyError Admission → Stage
  | .ok (.rejected rejection) => .rejecting rejection
  | .ok (.command command) => .checking command
  | .error error => .raised error

def PlcRequest.arguments (request : PlcRequest) (config : ApiConfig) (payload : Text) :
    CommandArguments where
  requestId := request.requestId
  idempotencyKey := request.idempotencyKey
  username := some request.username
  remoteAddress := request.remoteAddress
  payload := payload
  mqttTopic := config.odooToPlcTopic

/-- `_stored_json_response`. -/
def storedJsonResponse (request : PlcRequest) (outcome : Outcome) (db : Database) :
    Stage × Database :=
  match Json.dumps Json.compactSeparators (outcome.content request) with
  | .error error => (.raised error, db)
  | .ok body =>
      match saveApiResponse request.requestId outcome.statusCode body db with
      | .error error => (.raised error, db)
      | .ok after =>
          match jsonResponse outcome.statusCode (outcome.content request) with
          | .error error => (.raised error, after)
          | .ok response => (.answered response, after)

/-- The next transaction of a request. -/
def transact (platform : Platform) (config : ApiConfig) (request : PlcRequest)
    (now : Datetime) (db : Database) : Stage → Option (Stage × Database)
  | .rejecting rejection =>
      match createApiCommandRecord platform
          (request.arguments config rejection.payload) now db with
      | .ok after => some (.marking (.rejected rejection), after)
      | .error error => some (.raised error, db)
  | .checking command =>
      match getDuplicateResponse platform request.idempotencyKey
          config.idempotencyTtlSeconds now db with
      | .ok (some response) => some (.answered response, db)
      | .ok none => some (.creating command, db)
      | .error error => some (.raised error, db)
  | .creating command =>
      match createApiCommandRecord platform (request.arguments config command.payload)
          now db with
      | .ok after => some (.refreshing command, after)
      | .error .integrityError => some (.rechecking command, db)
      | .error error => some (.raised error, db)
  | .rechecking _ =>
      match getDuplicateResponse platform request.idempotencyKey
          config.idempotencyTtlSeconds now db with
      | .ok (some response) => some (.answered response, db)
      | .ok none => some (.raised .integrityError, db)
      | .error error => some (.raised error, db)
  | .marking outcome =>
      match updateApiCommandResult request.requestId (outcome.commandResult now) db with
      | .ok after => some (.storing outcome, after)
      | .error error => some (.raised error, db)
  | .storing outcome => some (storedJsonResponse request outcome db)
  | _ => none

/-- After `_refresh_ready_before_print_job_start`. -/
def afterRefresh (command : PlcCommand) : Option PublishResult → Stage
  | some result => if result.success then .publishing command else .marking (.failed result)
  | none => .publishing command

/-- After `publish_plc_command`. -/
def afterPublish (command : PlcCommand) (result : PublishResult) : Stage :=
  if result.success then .marking (.published command result)
  else .marking (.failed result)

/-! ## The system -/

/-- What a request does next, with what it meets. -/
inductive Action where
  | transact (now : Datetime)
  | refresh (readinessState : Text) (connected : Bool) (answer : ClientPublish)
  | publish (connected : Bool) (answer : ClientPublish)
  /-- An exception that the model does not compute, such as a locked database. -/
  | interrupt (error : PyError)

def act (platform : Platform) (config : ApiConfig) (request : PlcRequest) (db : Database)
    (stage : Stage) : Action → Option (Stage × Database)
  | .transact now => transact platform config request now db stage
  | .refresh readinessState connected answer =>
      match stage with
      | .refreshing command => some (afterRefresh command
          (refreshReadyBeforePrintJobStart config.readyTopic command readinessState
            connected answer), db)
      | _ => none
  | .publish connected answer =>
      match stage with
      | .publishing command => some (afterPublish command
          (publishPlcCommand config.odooToPlcTopic command connected answer), db)
      | _ => none
  | .interrupt error => if stage.finished then none else some (.raised error, db)

structure Handling where
  request : PlcRequest
  stage : Stage

structure Api where
  config : ApiConfig
  db : Database
  requests : List Handling

inductive ApiLabel where
  | receive (request : PlcRequest)
  | act (index : Nat) (action : Action)
  /-- A transaction of another thread. -/
  | other (job : Job) (now : Datetime)
  | restart (config : ApiConfig)

def Api.moved (s : Api) (index : Nat) (request : PlcRequest) (next : Stage × Database) :
    Api :=
  { s with db := next.2, requests := s.requests.set index ⟨request, next.1⟩ }

/-- A request that is under way does not survive a restart. -/
def Handling.restart (handling : Handling) : Handling :=
  if handling.stage.finished then handling
  else { handling with stage := .dropped }

def Job.isAudit : Job → Bool
  | .audit _ => true
  | _ => false

def Api.step (platform : Platform) (s : Api) : ApiLabel → Option Api
  | .receive request =>
      if s.requests.any fun handling => handling.request.requestId == request.requestId then
        none
      else some { s with
        requests := s.requests ++ [⟨request, .ofAdmission (admission s.config request)⟩] }
  | .act index action =>
      match s.requests[index]? with
      | none => none
      | some handling =>
          (act platform s.config handling.request s.db handling.stage action).map
            (s.moved index handling.request)
  | .other job now =>
      if job.isAudit then none
      else
        match job.run platform now s.db with
        | .ok (_, after) => some { s with db := after }
        | .error _ => some s
  | .restart config => some { s with
      config := config
      requests := s.requests.map Handling.restart }

end EdgeBridge
