import EdgeBridge.Api.Replay
import EdgeBridge.Foundation.JsonAscii
import Mathlib.Data.List.ReduceOption

/-!
# A fresh command

Whether a command is fresh is decided by the key and the TTL in the lookup, and by the
`UNIQUE` constraint in the `INSERT`.  The two disagree about a key that an old record
still holds.
-/

namespace EdgeBridge

open Foundation

/-! ## The steps of one request -/

/-- How many more steps a request can take. -/
def Stage.remaining : Stage → Nat
  | .rejecting _ => 3
  | .checking _ => 6
  | .creating _ => 5
  | .rechecking _ => 1
  | .refreshing _ => 4
  | .publishing _ => 3
  | .marking _ => 2
  | .storing _ => 1
  | .answered _ => 0
  | .raised _ => 0
  | .dropped => 0

theorem Stage.remaining_pos {stage : Stage} (h : stage.finished = false) :
    0 < stage.remaining := by
  cases stage with
  | answered _ => cases h
  | raised _ => cases h
  | dropped => cases h
  | _ => simp [Stage.remaining]

theorem StageMove.remaining {platform : Platform} {config : ApiConfig}
    {request : PlcRequest} {index : Nat} {db after : Database} {before next : Stage}
    {events : List ApiEvent}
    (h : StageMove platform config request index db before next after events) :
    next.remaining < before.remaining := by
  cases h with
  | duplicate before response hearly =>
      cases before with
      | rejecting _ => simp [Stage.remaining]
      | checking _ => simp [Stage.remaining]
      | creating _ => simp [Stage.remaining]
      | rechecking _ => simp [Stage.remaining]
      | _ => cases hearly
  | raised before error events hgoing _ => exact Stage.remaining_pos hgoing
  | refreshed command after hafter =>
      rcases hafter with rfl | ⟨result, rfl⟩
      · simp [Stage.remaining]
      · simp [Stage.remaining]
  | stored outcome body after next _ _ hnext =>
      rcases hnext with ⟨response, -, rfl⟩ | ⟨error, rfl⟩
      · simp [Stage.remaining]
      · simp [Stage.remaining]
  | _ => simp [Stage.remaining]

/-- A step of the request brings it nearer to its end. -/
theorem remaining_step {platform : Platform} {s t : Api} {index : Nat} {action : Action}
    (hstep : s.step platform (.act index action) = some t) {handling : Handling}
    (h : s.requests[index]? = some handling) :
    ∃ next, t.requests[index]? = some next ∧
      next.stage.remaining < handling.stage.remaining := by
  rcases handling_acted hstep h with ⟨stage, hnext, hstage⟩
  exact ⟨_, hnext, hstage.remaining⟩

/-- The publish that a step of the request makes, with its result. -/
def Api.attempt (s : Api) (index : Nat) : Action → Option PublishResult
  | .refresh readinessState connected answer =>
      match s.stage index with
      | some (.refreshing command) => refreshReadyBeforePrintJobStart s.config.readyTopic
          command readinessState connected answer
      | _ => none
  | .publish connected answer =>
      match s.stage index with
      | some (.publishing command) =>
          some (publishPlcCommand s.config.odooToPlcTopic command connected answer)
      | _ => none
  | _ => none

/-- The system as one request sees it: an event for each step of the request, with the
publish that it makes. -/
def requestSystem (platform : Platform) (config : ApiConfig) (index : Nat) :
    System Api ApiLabel (Option PublishResult) where
  init := ⟨config, .empty, []⟩
  step := Api.step platform
  observe s label :=
    match label with
    | .act acting action => if acting = index then [s.attempt index action] else []
    | _ => []

/-! ## Freshness and acceptance -/

/-- The record is older than the TTL. -/
def OutsideTtl (ttlSeconds : Int) (now : Datetime) (row : ApiCommandRecord) : Prop :=
  ttlSeconds ≤ 0 ∨ ∃ received : Datetime, row.receivedAt = formatTimestamp received ∧
    received.truncate.micro + ttlSeconds * 1000000 < (now.micro : Int)

/-- The key is absent or empty, or its record is older than the TTL. -/
def Api.Fresh (s : Api) (request : PlcRequest) (now : Datetime) : Prop :=
  ∀ key, request.idempotencyKey = some key → key ≠ [] →
    ∀ row ∈ s.db.apiCommands.rows, row.idempotencyKey = some key →
      OutsideTtl s.config.idempotencyTtlSeconds now row

/-- No audit row has the key of the request. -/
def Database.KeyFree (db : Database) (request : PlcRequest) : Prop :=
  ∀ key, request.idempotencyKey = some key →
    ∀ row ∈ db.apiCommands.rows, row.idempotencyKey ≠ some key

/-- What the broker library answers can be stored. -/
def ClientPublish.storable : ClientPublish → Bool
  | .raised text => text.encodable
  | .answered rc mid => bindableInt rc && bindableOptInt mid

/-- The request is not interrupted, its clock does not go back, and the broker library
gives it answers that can be stored. -/
def ApiLabel.lets (index : Nat) (now : Datetime) : ApiLabel → Bool
  | .act acting (.transact time) => acting != index || decide (now.micro ≤ time.micro)
  | .act acting (.refresh _ _ answer) => acting != index || answer.storable
  | .act acting (.publish _ answer) => acting != index || answer.storable
  | .act acting (.interrupt _) => acting != index
  | .restart _ => false
  | _ => true

/-- Nothing outside the request keeps it from its answer: besides `lets`, no other request
takes its key, and no cleanup deletes its row. -/
structure Unhindered (platform : Platform) (request : PlcRequest) (index : Nat)
    (now : Datetime) (_past : List (Option PublishResult)) (s : Api) (label : ApiLabel) :
    Prop where
  lets : label.lets index now = true
  key : ∀ other handling, .inserted other ∈ s.observe platform label → other ≠ index →
    s.requests[other]? = some handling → ∀ key, request.idempotencyKey = some key →
      handling.request.idempotencyKey ≠ some key
  row : ¬ CleanedIn (s.observe platform label) request.requestId

/-- The request has its audit row, its last publish has a result, and the client the
status for it; a publish that succeeded is that of the command. -/
def Api.Answered (s : Api) (request : PlcRequest) (command : PlcCommand) (index : Nat)
    (attempts : List PublishResult) : Prop :=
  ∃ response result, s.stage index = some (.answered response) ∧
    attempts.getLast? = some result ∧
    response.statusCode = (if result.success then 200 else 503) ∧
    (result.success = true →
      result.topic = s.config.odooToPlcTopic ∧ result.payload = command.payload) ∧
    ∃ row ∈ s.db.apiCommands.rows, row.requestId = request.requestId ∧
      row.idempotencyKey = request.idempotencyKey ∧
      row.responseCode = some response.statusCode

def Action.isInterrupt : Action → Bool
  | .interrupt _ => true
  | _ => false

/-- At every point of every unhindered run the request has been answered, or it has taken
fewer than six steps and can take its next. -/
def Accepted (platform : Platform) (config : ApiConfig) (t : Api) (request : PlcRequest)
    (command : PlcCommand) (index : Nat) (now : Datetime) : Prop :=
  ∀ labels u, (requestSystem platform config index).Along
      (Unhindered platform request index now) [] t labels →
    (requestSystem platform config index).exec t labels = some u →
    u.Answered request command index
        ((requestSystem platform config index).trace t labels).reduceOption ∨
      ((requestSystem platform config index).trace t labels).length < 6 ∧
        ∃ action v, action.isInterrupt = false ∧
          u.step platform (.act index action) = some v

/-- Every text of the request that is stored, or sent back. -/
def PlcRequest.texts (request : PlcRequest) (config : ApiConfig) (command : PlcCommand) :
    List Text :=
  [request.requestId, request.username, config.odooToPlcTopic, command.key,
    command.value] ++ request.idempotencyKey.toList ++ request.remoteAddress.toList

/-! ## What the transactions need -/

section

variable {request : PlcRequest} {config : ApiConfig} {command : PlcCommand}

theorem bindableOptText_iff {value : Option Text} :
    bindableOptText value = true ↔ ∀ text ∈ value.toList, text.encodable = true := by
  cases value with
  | none => simp [bindableOptText]
  | some text => simp [bindableOptText]

theorem commandBindings_eq_ok_iff {payload : Text} :
    bindAll (commandBindings (request.arguments config payload)) = .ok () ↔
      request.requestId.encodable = true ∧ bindableOptText request.idempotencyKey = true ∧
        request.username.encodable = true ∧ bindableOptText request.remoteAddress = true ∧
        config.odooToPlcTopic.encodable = true := by
  constructor
  · intro h
    have hbound : ∀ value, Binding.text value ∈
        commandBindings (request.arguments config payload) →
          bindableOptText value = true := by
      intro value hmem
      exact Binding.defect_text.mp (defect_of_bindAll h hmem)
    simp only [commandBindings, PlcRequest.arguments, List.mem_cons, List.not_mem_nil,
      or_false, Binding.text.injEq] at hbound
    exact ⟨hbound (some request.requestId) (by simp),
      hbound request.idempotencyKey (by simp), hbound (some request.username) (by simp),
      hbound request.remoteAddress (by simp), hbound (some config.odooToPlcTopic) (by simp)⟩
  · rintro ⟨hid, hkey, husername, haddress, htopic⟩
    apply bindAll_eq_ok
    simp only [commandBindings, PlcRequest.arguments, List.forall_mem_cons,
      Binding.defect_text]
    exact ⟨hid, hkey, husername, haddress, htopic, List.forall_mem_nil _⟩

theorem plain_command :
    Json.plain command.content = true ↔
      command.key.encodable = true ∧ command.value.encodable = true := by
  simp [PlcCommand.content, Json.plain, Json.plainEntries]

/-- The texts of a request can be encoded exactly if they can be bound, and the command
can be sent back. -/
theorem texts_encodable_iff (payload : Text) :
    (∀ text ∈ request.texts config command, text.encodable = true) ↔
      bindAll (commandBindings (request.arguments config payload)) = .ok () ∧
        Json.plain command.content = true := by
  rw [commandBindings_eq_ok_iff, plain_command, bindableOptText_iff, bindableOptText_iff]
  simp only [PlcRequest.texts, List.forall_mem_append, List.forall_mem_cons,
    List.not_mem_nil, false_imp_iff, implies_true, and_true]
  constructor
  · rintro ⟨⟨⟨hid, husername, htopic, hcommand⟩, hkey⟩, haddress⟩
    exact ⟨⟨hid, hkey, husername, haddress, htopic⟩, hcommand⟩
  · rintro ⟨⟨hid, hkey, husername, haddress, htopic⟩, hcommand⟩
    exact ⟨⟨⟨hid, husername, htopic, hcommand⟩, hkey⟩, haddress⟩

theorem getDuplicateResponse_of_keyFree (platform : Platform) {db : Database}
    (hfree : db.KeyFree request) (hkey : bindableOptText request.idempotencyKey = true)
    (ttlSeconds : Int) (now : Datetime) :
    getDuplicateResponse platform request.idempotencyKey ttlSeconds now db = .ok none := by
  unfold getDuplicateResponse duplicateRecord
  cases htruthy : truthy request.idempotencyKey with
  | none => rfl
  | some key =>
      have hgiven := (truthy_eq_some.mp htruthy).1
      have hnone : getApiCommandByIdempotencyKey key db = .ok none := by
        unfold getApiCommandByIdempotencyKey
        rw [hgiven] at hkey
        have hbound : bindAll [.text (some key)] = .ok () := by
          simp [bindAll, Binding.defect, hkey]
        rw [hbound]
        simp only [bind, Except.bind, Except.ok.injEq]
        apply List.find?_eq_none.mpr
        intro row hrow
        simpa using hfree key hgiven row hrow
      simp [hnone, bind, Except.bind]

/-- The `INSERT` of a new request succeeds exactly if its key is free and every text can
be encoded. -/
theorem createApiCommandRecord_ok_iff (platform : Platform) {payload : Text} {db : Database}
    (hid : ∀ row ∈ db.apiCommands.rows, row.requestId ≠ request.requestId) (now : Datetime) :
    (∃ after, createApiCommandRecord platform (request.arguments config payload) now db =
        .ok after) ↔
      payload.encodable = true ∧ db.KeyFree request ∧
        bindAll (commandBindings (request.arguments config payload)) = .ok () := by
  unfold createApiCommandRecord
  constructor
  · rintro ⟨after, h⟩
    split at h
    · cases h
    · next hpayload =>
      rcases bind_eq_ok.mp h with ⟨_, hbound, hbody⟩
      refine ⟨by simpa [PlcRequest.arguments] using hpayload, ?_, hbound⟩
      split at hbody
      · next table htable =>
        have hconflicts := (Table.insert_eq_some_iff.mp htable).1
        intro key hkey row hrow hsame
        have hclash := List.any_eq_false.mp hconflicts row hrow
        simp [Row.clash, Row.key, newCommand, PlcRequest.arguments, hkey, hsame] at hclash
      · cases hbody
  · rintro ⟨hpayload, hfree, hbound⟩
    rw [if_neg (by simpa [PlcRequest.arguments] using hpayload)]
    have hconflicts : db.apiCommands.conflicts (newCommand platform
        (request.arguments config payload) (formatTimestamp now)) = false := by
      apply List.any_eq_false.mpr
      intro row hrow
      cases hkey : row.idempotencyKey with
      | none => simp [Row.clash, Row.key, newCommand, PlcRequest.arguments, hid row hrow, hkey]
      | some key =>
          have hother : request.idempotencyKey ≠ some key :=
            fun hsame => hfree key hsame row hrow hkey
          simp [Row.clash, Row.key, newCommand, PlcRequest.arguments, hid row hrow, hkey,
            hother.symm]
    rw [hbound]
    simp only [bind, Except.bind]
    cases hinsert : db.apiCommands.insert (newCommand platform
        (request.arguments config payload) (formatTimestamp now)) with
    | some table => exact ⟨_, rfl⟩
    | none =>
        have hclash := Table.insert_eq_none_iff.mp hinsert
        rw [hconflicts] at hclash
        cases hclash

theorem updateCommand_ok {requestId : Text} {bindings : List Binding}
    (hbound : bindAll bindings = .ok ()) (change : Table.Update ApiCommandRecord)
    {db : Database} (hrow : ∃ row ∈ db.apiCommands.rows, row.requestId = requestId) :
    ∃ after, updateCommand requestId bindings change db = .ok after := by
  unfold updateCommand
  rw [hbound]
  simp only [bind, Except.bind]
  split
  · next hnone =>
    rcases hrow with ⟨row, hrow, hid⟩
    have hmiss := Table.find?_eq_none hnone hrow
    simp [hid] at hmiss
  · exact ⟨_, rfl⟩

end

/-! ## What a publish leaves to be stored -/

/-- The columns of a result can be bound. -/
structure PublishResult.Storable (result : PublishResult) : Prop where
  rc : bindableInt result.rc = true
  mid : bindableOptInt result.mid = true
  error : bindableOptText result.error = true

theorem ClientPublish.result_storable {answer : ClientPublish}
    (h : answer.storable = true) (topic payload : Text) :
    (answer.result topic payload).Storable := by
  cases answer with
  | raised text => exact ⟨by simp only [ClientPublish.result]; decide, rfl, h⟩
  | answered rc mid =>
      simp only [ClientPublish.storable, Bool.and_eq_true] at h
      refine ⟨h.1, h.2, ?_⟩
      simp only [ClientPublish.result]
      split
      · rfl
      · exact Text.encodable_append (by decide) (Text.encodable_decimalInt rc)

theorem publishPlcCommand_storable {answer : ClientPublish} (h : answer.storable = true)
    (topic : Text) (command : PlcCommand) (connected : Bool) :
    (publishPlcCommand topic command connected answer).Storable := by
  unfold publishPlcCommand
  split
  · exact ClientPublish.result_storable h topic command.payload
  · refine ⟨?_, rfl, ?_⟩
    · exact (by decide : bindableInt mqttErrNoConn = true)
    · exact (by decide : bindableOptText (some brokerUnavailable) = true)

theorem refreshReady_storable {answer : ClientPublish} (h : answer.storable = true)
    {topic : Text} {command : PlcCommand} {readinessState : Text} {connected : Bool}
    {result : PublishResult}
    (hresult : refreshReadyBeforePrintJobStart topic command readinessState connected
      answer = some result) : result.Storable := by
  unfold refreshReadyBeforePrintJobStart at hresult
  split at hresult
  · cases hresult
  · split at hresult
    · cases hresult
    · split at hresult
      · cases hresult
      · cases hresult
        exact ClientPublish.result_storable h _ _

theorem PublishResult.Storable.publishError {result : PublishResult}
    (h : result.Storable) : (publishError result).encodable = true := by
  unfold EdgeBridge.publishError
  cases htruthy : truthy result.error with
  | none => decide
  | some text =>
      have herror := h.error
      rw [(truthy_eq_some.mp htruthy).1] at herror
      exact herror

/-- What the last publish of the request makes of it. -/
def Outcome.Reports (config : ApiConfig) (command : PlcCommand)
    (attempts : List PublishResult) : Outcome → Prop
  | .published sent result => sent = command ∧ result.success = true ∧
      attempts.getLast? = some result ∧ result.Storable ∧
      result.topic = config.odooToPlcTopic ∧ result.payload = command.payload
  | .failed result => result.success = false ∧ attempts.getLast? = some result ∧
      result.Storable
  | .rejected _ => False

section

variable {request : PlcRequest} {config : ApiConfig} {command : PlcCommand}
  {attempts : List PublishResult} {outcome : Outcome}

theorem bindAll_result (htext : request.requestId.encodable = true)
    (h : outcome.Reports config command attempts) (now : Datetime) :
    bindAll [.int (outcome.commandResult now).mqttRc, .int (outcome.commandResult now).mqttMid,
      .text (outcome.commandResult now).publishedAt,
      .text (outcome.commandResult now).lastError, .text request.requestId] = .ok () := by
  apply bindAll_eq_ok
  simp only [List.forall_mem_cons, Binding.defect_text, Binding.defect_int]
  cases outcome with
  | published sent result =>
      rcases h with ⟨-, -, -, hstorable, -⟩
      exact ⟨hstorable.rc, hstorable.mid, encodable_formatTimestamp now, rfl, htext,
        List.forall_mem_nil _⟩
  | failed result =>
      rcases h with ⟨-, -, hstorable⟩
      exact ⟨hstorable.rc, hstorable.mid, rfl, hstorable.publishError, htext,
        List.forall_mem_nil _⟩
  | rejected rejection => exact h.elim

/-- A number that SQLite can store has few enough digits for `json`. -/
theorem plain_int {value : Int} (h : bindableInt value = true) :
    Json.plain (.int value) = true := by
  have hdecimal : ∀ n < 10 ^ 19, (Text.decimal n).length ≤ 19 := by
    intro n hn
    unfold Text.decimal
    split
    · decide
    · rw [List.length_map, List.length_reverse]
      exact (Nat.digits_length_le_iff (by decide) n).mpr hn
  have hsign : ∀ text, (Json.signPart text).2.length ≤ text.length := by
    intro text
    unfold Json.signPart
    split
    · simp
    · exact Nat.le_refl _
  simp only [bindableInt, Bool.and_eq_true, decide_eq_true_eq] at h
  have hlength : (Text.decimalInt value).length ≤ 20 := by
    cases value with
    | ofNat n =>
        have hrange : n < 10 ^ 19 := by
          have := h.2
          simp only [Int.ofNat_eq_natCast] at this
          omega
        have hn := hdecimal n hrange
        exact Nat.le_succ_of_le hn
    | negSucc n =>
        have hn := hdecimal (n + 1) (by omega)
        simp only [Text.decimalInt, List.length_cons]
        omega
  have hcount := hsign (Text.decimalInt value)
  apply decide_eq_true
  unfold Json.digitCount Json.maxStrDigits
  omega

theorem plain_failureContent {status requestId error : Text}
    (hstatus : status.encodable = true) (hid : requestId.encodable = true)
    (herror : error.encodable = true) :
    Json.plain (failureContent status requestId error) = true := by
  have hkeys : (str "success").encodable = true ∧ (str "status").encodable = true ∧
      (str "request_id").encodable = true ∧ (str "error").encodable = true := by
    decide
  have hdistinct : [str "success", str "status", str "request_id", str "error"].Nodup := by
    decide
  simp [failureContent, Json.plain, Json.plainEntries, hkeys, hstatus, hid, herror,
    -List.nodup_cons, hdistinct]

theorem plain_publishedContent_iff {result : PublishResult} :
    Json.plain ((Outcome.published command result).content request) = true ↔
      request.requestId.encodable = true ∧ bindableOptText request.idempotencyKey = true ∧
        result.topic.encodable = true ∧ Json.plain command.content = true ∧
        Json.plain (optionalMid result.mid) = true := by
  have hkeys : (str "success").encodable = true ∧ (str "status").encodable = true ∧
      (str "request_id").encodable = true ∧ (str "idempotency_key").encodable = true ∧
      (str "topic").encodable = true ∧ (str "payload").encodable = true ∧
      (str "mqtt_mid").encodable = true ∧ (str "published").encodable = true := by
    decide
  have hdistinct : [str "success", str "status", str "request_id", str "idempotency_key",
      str "topic", str "payload", str "mqtt_mid"].Nodup := by
    decide
  have hkey : Json.plain (optionalText request.idempotencyKey) =
      bindableOptText request.idempotencyKey := by
    cases request.idempotencyKey with
    | none => rfl
    | some key => rfl
  have hbool : Json.plain (.bool true) = true := rfl
  have htext : ∀ text, Json.plain (.text text) = text.encodable := fun _ => rfl
  rw [Outcome.content, Json.plain]
  simp only [List.map_cons, List.map_nil, hdistinct, decide_true, Bool.true_and,
    Json.plainEntries, hkeys, hkey, hbool, htext, Bool.and_true, Bool.and_eq_true]

theorem Outcome.Reports.plain (h : outcome.Reports config command attempts)
    (htexts : ∀ text ∈ request.texts config command, text.encodable = true) :
    Json.plain (outcome.content request) = true := by
  rcases (texts_encodable_iff []).mp htexts with ⟨hbound, hcommand⟩
  rcases commandBindings_eq_ok_iff.mp hbound with ⟨hid, hkey, -, -, htopic⟩
  cases outcome with
  | published sent result =>
      rcases h with ⟨rfl, -, -, hstorable, hsent, -⟩
      refine plain_publishedContent_iff.mpr ⟨hid, hkey, hsent ▸ htopic, hcommand, ?_⟩
      have hmid := hstorable.mid
      cases hvalue : result.mid with
      | none => rfl
      | some mid =>
          rw [hvalue] at hmid
          exact plain_int hmid
  | failed result =>
      exact plain_failureContent (by decide) hid h.2.2.publishError
  | rejected rejection => exact h.elim

theorem storedJsonResponse_answered (h : outcome.Reports config command attempts)
    (htexts : ∀ text ∈ request.texts config command, text.encodable = true)
    {db : Database} (hrow : ∃ row ∈ db.apiCommands.rows, row.requestId = request.requestId) :
    ∃ response after, storedJsonResponse request outcome db =
      (.answered response, after) ∧ response.statusCode = outcome.statusCode := by
  have hplain := h.plain htexts
  have hid : request.requestId.encodable = true := htexts _ (by simp [PlcRequest.texts])
  have hcode : bindableInt outcome.statusCode = true := by
    cases outcome with
    | published sent result => exact (by decide : bindableInt 200 = true)
    | failed result => exact (by decide : bindableInt 503 = true)
    | rejected rejection => exact h.elim
  have hbound : bindAll [.int outcome.statusCode,
      .text (Json.render Json.compactSeparators (outcome.content request)),
      .text request.requestId] = .ok () := by
    apply bindAll_eq_ok
    simp only [List.forall_mem_cons, Binding.defect_text, Binding.defect_int]
    exact ⟨hcode, Json.encodable_render _ hplain, hid, List.forall_mem_nil _⟩
  rcases updateCommand_ok hbound (setResponse outcome.statusCode
    (Json.render Json.compactSeparators (outcome.content request))) hrow with
    ⟨after, hafter⟩
  unfold storedJsonResponse saveApiResponse jsonResponse
  rw [(Json.loads_dumps Json.compactSeparators hplain (outcome.nesting_content request)).1]
  simp only [hafter]
  rw [dif_pos hplain]
  exact ⟨_, _, rfl, rfl⟩

end

/-! ## The rows around a request -/

section

variable {platform : Platform} {s t : Api} {label : ApiLabel}

/-- The key of a row was there before the step, or a request inserted it. -/
theorem added_step (hstep : s.step platform label = some t) {row : ApiCommandRecord}
    (hrow : row ∈ t.db.apiCommands.rows) :
    (∃ old ∈ s.db.apiCommands.rows, old.idempotencyKey = row.idempotencyKey) ∨
      ∃ other action handling, label = .act other action ∧
        s.requests[other]? = some handling ∧ .inserted other ∈ s.observe platform label ∧
        row.idempotencyKey = handling.request.idempotencyKey := by
  generalize hevents : s.observe platform label = events
  have hmove := Api.step_move hstep
  rw [hevents] at hmove
  have hupdate : ∀ {requestId : Text} {bindings : List Binding}
      {change : Table.Update ApiCommandRecord} {after : Database},
      updateCommand requestId bindings change s.db = .ok after →
      row ∈ after.apiCommands.rows →
      ∃ old ∈ s.db.apiCommands.rows, old.idempotencyKey = row.idempotencyKey := by
    intro requestId bindings change after hok hmem
    rw [updateCommand_eq_ok hok] at hmem
    rcases List.mem_map.mp hmem with ⟨old, hold, hsame⟩
    refine ⟨old, hold, ?_⟩
    rw [← hsame]
    split
    · exact (congrArg Prod.snd (change.key_apply old)).symm
    · rfl
  have hinsert : ∀ {request : PlcRequest} {payload : Text} {now : Datetime}
      {after : Database},
      createApiCommandRecord platform (request.arguments s.config payload) now s.db =
        .ok after → row ∈ after.apiCommands.rows →
      row ∈ s.db.apiCommands.rows ∨ row.idempotencyKey = request.idempotencyKey := by
    intro request payload now after hok hmem
    have hadded := (Table.insert_eq_some_iff.mp (createApiCommandRecord_eq_ok hok).1).2.1
    rw [hadded] at hmem
    rcases List.mem_append.mp hmem with hold | hnew
    · exact .inl hold
    · right
      rw [List.mem_singleton.mp hnew]
      rfl
  cases hmove with
  | acted index action acting stage after events hacting hstage =>
      generalize acting.stage = before at hstage
      cases hstage with
      | rejectionInserted rejection now after hok =>
          rcases hinsert hok hrow with hold | hnew
          · exact .inl ⟨row, hold, rfl⟩
          · exact .inr ⟨index, action, acting, rfl, hacting, List.mem_singleton_self _, hnew⟩
      | commandInserted command now after hok =>
          rcases hinsert hok hrow with hold | hnew
          · exact .inl ⟨row, hold, rfl⟩
          · exact .inr ⟨index, action, acting, rfl, hacting, List.mem_singleton_self _, hnew⟩
      | marked outcome now after hok => exact .inl (hupdate hok hrow)
      | stored outcome body after next hdumps hok hnext => exact .inl (hupdate hok hrow)
      | _ => exact .inl ⟨row, hrow, rfl⟩
  | others job now after hsame =>
      left
      exact ⟨row, by rw [← hsame]; exact hrow, rfl⟩
  | cleaned retentionDays batchSize now after hsub hkept => exact .inl ⟨row, hsub row hrow, rfl⟩
  | _ => exact .inl ⟨row, hrow, rfl⟩

variable {request : PlcRequest} {index : Nat} {now : Datetime}
  {past : List (Option PublishResult)}

theorem Unhindered.row_kept (h : Unhindered platform request index now past s label)
    (hrows : RowsSound s) (hstep : s.step platform label = some t)
    (hrow : ∃ row ∈ s.db.apiCommands.rows, row.requestId = request.requestId) :
    ∃ row ∈ t.db.apiCommands.rows, row.requestId = request.requestId := by
  rcases hrow with ⟨row, hrow, hid⟩
  rcases row_step hrows hstep hrow with ⟨next, hnext, hsame⟩ | ⟨-, hcleaned⟩
  · exact ⟨next, hnext, hsame.requestId.trans hid⟩
  · rw [hid] at hcleaned
    exact absurd hcleaned h.row

theorem Unhindered.keyFree (h : Unhindered platform request index now past s label)
    (hstep : s.step platform label = some t) (hother : ∀ action, label ≠ .act index action)
    (hfree : s.db.KeyFree request) : t.db.KeyFree request := by
  intro key hkey row hrow hsame
  rcases added_step hstep hrow with
    ⟨old, hold, holdKey⟩ | ⟨other, action, handling, hlabel, hhandling, hinserted, hnew⟩
  · exact hfree key hkey old hold (holdKey.trans hsame)
  · have hne : other ≠ index := by
      rintro rfl
      exact hother action hlabel
    exact h.key other handling hinserted hne hhandling key hkey (hnew.symm.trans hsame)

end

/-! ## The invariant of a fresh command -/

/-- The stage of a fresh command, after these publishes. -/
def Stage.Proceeds (config : ApiConfig) (command : PlcCommand)
    (attempts : List PublishResult) : Stage → Prop
  | .checking given => given = command
  | .creating given => given = command
  | .refreshing given => given = command
  | .publishing given => given = command
  | .marking outcome => outcome.Reports config command attempts
  | .storing outcome => outcome.Reports config command attempts
  | .answered response => ∃ result, attempts.getLast? = some result ∧
      response.statusCode = (if result.success then 200 else 503) ∧
      (result.success = true →
        result.topic = config.odooToPlcTopic ∧ result.payload = command.payload)
  | _ => False

structure Accepting (config : ApiConfig) (request : PlcRequest) (command : PlcCommand)
    (index : Nat) (past : List (Option PublishResult)) (s : Api) (stage : Stage) : Prop where
  rows : RowsSound s
  configured : s.config = config
  handled : s.requests[index]? = some ⟨request, stage⟩
  proceeds : stage.Proceeds config command past.reduceOption
  bounded : past.length + stage.remaining ≤ 6
  free : stage.early = true → s.db.KeyFree request
  row : stage.early = false →
    ∃ row ∈ s.db.apiCommands.rows, row.requestId = request.requestId

theorem Stage.Proceeds.failed {config : ApiConfig} {command : PlcCommand}
    {attempts : List PublishResult} {result : PublishResult} (hstorable : result.Storable)
    (hfailed : result.success = false) :
    (Stage.marking (.failed result)).Proceeds config command (attempts ++ [result]) :=
  ⟨hfailed, List.getLast?_concat .., hstorable⟩

/-- Between two stages that are no longer early nothing is asked of an early one. -/
theorem Stage.late {stage next : Stage} {kept held : Prop} (hnext : next.early = false)
    (hstage : stage.early = false) :
    (next.early = true → kept) ∧ (stage.early = true → held) := by
  constructor
  · intro hearly
    rw [hnext] at hearly
    cases hearly
  · intro hearly
    rw [hstage] at hearly
    cases hearly

section

variable {platform : Platform} {config : ApiConfig} {request : PlcRequest}
  {command : PlcCommand} {index : Nat} {now : Datetime}
  {past : List (Option PublishResult)} {s t : Api} {stage next : Stage} {after : Database}

theorem Accepting.transact_proceeds
    (h : Accepting config request command index past s stage)
    (htexts : ∀ text ∈ request.texts config command, text.encodable = true)
    (hact : transact platform s.config request now s.db stage = some (next, after)) :
    next.Proceeds config command past.reduceOption ∧
      (next.early = true → stage.early = true ∧ after = s.db) ∧
      (stage.early = true → next.early = true ∨ next.holding = true) := by
  have hproceeds := h.proceeds
  have hconfig := h.configured
  rcases (texts_encodable_iff command.payload).mp htexts with ⟨hbound, hplain⟩
  cases stage with
  | checking given =>
      have hlookup := getDuplicateResponse_of_keyFree platform (h.free rfl)
        (commandBindings_eq_ok_iff.mp hbound).2.1 s.config.idempotencyTtlSeconds now
      simp only [transact, hlookup, Option.some.injEq, Prod.mk.injEq] at hact
      rcases hact with ⟨rfl, rfl⟩
      exact ⟨hproceeds, fun _ => ⟨rfl, rfl⟩, fun _ => .inl rfl⟩
  | creating given =>
      have hgiven : given = command := hproceeds
      subst hgiven
      have hid : ∀ row ∈ s.db.apiCommands.rows, row.requestId ≠ request.requestId := by
        intro row hrow hown
        exact Stage.not_fits_of_early rfl row (h.rows.fits index _ h.handled row hrow hown).2
      rcases (createApiCommandRecord_ok_iff platform hid now).mpr
        ⟨Json.encodable_render _ hplain, h.free rfl, hbound⟩ with ⟨inserted, hinserted⟩
      rw [← hconfig] at hinserted
      simp only [transact, PlcCommand.payload, hinserted, Option.some.injEq,
        Prod.mk.injEq] at hact
      rcases hact with ⟨rfl, rfl⟩
      exact ⟨rfl, fun hearly => Bool.noConfusion hearly, fun _ => .inr rfl⟩
  | marking outcome =>
      have hid : request.requestId.encodable = true := htexts _ (by simp [PlcRequest.texts])
      rcases updateCommand_ok (bindAll_result hid hproceeds now)
        (setResult (outcome.commandResult now)) (h.row rfl) with ⟨marked, hmarked⟩
      simp only [transact, updateApiCommandResult, hmarked, Option.some.injEq,
        Prod.mk.injEq] at hact
      rcases hact with ⟨rfl, rfl⟩
      exact ⟨hproceeds, Stage.late rfl rfl⟩
  | storing outcome =>
      rcases storedJsonResponse_answered hproceeds htexts (h.row rfl) with
        ⟨response, stored, hstored, hstatus⟩
      simp only [transact, hstored, Option.some.injEq, Prod.mk.injEq] at hact
      rcases hact with ⟨rfl, rfl⟩
      refine ⟨?_, Stage.late rfl rfl⟩
      cases outcome with
      | published sent result =>
          rcases hproceeds with ⟨-, hsuccess, hlast, -, hsent⟩
          refine ⟨result, hlast, ?_, fun _ => hsent⟩
          rw [hstatus, hsuccess]
          rfl
      | failed result =>
          rcases hproceeds with ⟨hfailed, hlast, -⟩
          refine ⟨result, hlast, ?_, ?_⟩
          · rw [hstatus, hfailed]
            rfl
          · intro hsuccess
            rw [hfailed] at hsuccess
            cases hsuccess
      | rejected rejection => exact hproceeds.elim
  | rejecting rejection => exact hproceeds.elim
  | rechecking given => exact hproceeds.elim
  | _ => simp [transact] at hact

theorem Accepting.act_proceeds (h : Accepting config request command index past s stage)
    (htexts : ∀ text ∈ request.texts config command, text.encodable = true)
    {action : Action} (hlets : (ApiLabel.act index action).lets index now = true)
    (hact : act platform s.config request s.db stage action = some (next, after)) :
    next.Proceeds config command (past ++ [s.attempt index action]).reduceOption ∧
      (next.early = true → stage.early = true ∧ after = s.db) ∧
      (stage.early = true → next.early = true ∨ next.holding = true) := by
  have hstage := stage_of_requests h.handled
  cases action with
  | transact time =>
      have hnone : (past ++ [s.attempt index (.transact time)]).reduceOption =
          past.reduceOption := by
        rw [List.reduceOption_append]
        simp [Api.attempt]
      rw [hnone]
      exact h.transact_proceeds htexts hact
  | refresh readinessState connected answer =>
      cases stage with
      | refreshing given =>
          have hgiven : given = command := h.proceeds
          subst hgiven
          have hstorable : answer.storable = true := by
            simpa [ApiLabel.lets] using hlets
          simp only [act, Option.some.injEq, Prod.mk.injEq] at hact
          rcases hact with ⟨rfl, -⟩
          have hattempt : s.attempt index (.refresh readinessState connected answer) =
              refreshReadyBeforePrintJobStart s.config.readyTopic given readinessState
                connected answer := by
            simp only [Api.attempt, hstage]
          rw [hattempt, List.reduceOption_append]
          cases hresult : refreshReadyBeforePrintJobStart s.config.readyTopic given
              readinessState connected answer with
          | none => exact ⟨rfl, Stage.late rfl rfl⟩
          | some result =>
              simp only [afterRefresh]
              split
              · exact ⟨rfl, Stage.late rfl rfl⟩
              · next hfailed =>
                exact ⟨.failed (refreshReady_storable hstorable hresult)
                  (by simpa using hfailed), Stage.late rfl rfl⟩
      | _ => simp [act] at hact
  | publish connected answer =>
      cases stage with
      | publishing given =>
          have hgiven : given = command := h.proceeds
          subst hgiven
          have hstorable : answer.storable = true := by
            simpa [ApiLabel.lets] using hlets
          simp only [act, Option.some.injEq, Prod.mk.injEq] at hact
          rcases hact with ⟨rfl, -⟩
          have hattempt : s.attempt index (.publish connected answer) =
              some (publishPlcCommand s.config.odooToPlcTopic given connected answer) := by
            simp only [Api.attempt, hstage]
          have hresult := publishPlcCommand_storable hstorable s.config.odooToPlcTopic given
            connected
          have hsent := publishPlcCommand_texts s.config.odooToPlcTopic given connected answer
          rw [hattempt, List.reduceOption_append]
          unfold afterPublish
          split
          · next hsuccess =>
            rw [h.configured] at hsent hresult hsuccess ⊢
            exact ⟨⟨rfl, hsuccess, List.getLast?_concat .., hresult, hsent⟩, Stage.late rfl rfl⟩
          · next hfailed => exact ⟨.failed hresult (by simpa using hfailed), Stage.late rfl rfl⟩
      | _ => simp [act] at hact
  | interrupt error => simp [ApiLabel.lets] at hlets

theorem Accepting.own_step (h : Accepting config request command index past s stage)
    (htexts : ∀ text ∈ request.texts config command, text.encodable = true)
    {action : Action}
    (hunhindered : Unhindered platform request index now past s (.act index action))
    (hstep : s.step platform (.act index action) = some t) :
    ∃ next, Accepting config request command index (past ++ [s.attempt index action]) t
      next := by
  have hrows : RowsSound t := h.rows.step hstep
  have hkept := hunhindered.row_kept h.rows hstep
  have hbounded := remaining_step hstep h.handled
  simp only [Api.step, h.handled, Option.map_eq_some_iff] at hstep
  rcases hstep with ⟨⟨next, after⟩, hact, rfl⟩
  have hnext : (s.moved index request (next, after)).requests[index]? =
      some ⟨request, next⟩ := (moved_requests h.handled _ index).trans (if_pos rfl)
  rcases h.act_proceeds htexts hunhindered.lets hact with ⟨hproceeds, hearly, hholding⟩
  refine ⟨next, hrows, h.configured, hnext, hproceeds, ?_, ?_, ?_⟩
  · rcases hbounded with ⟨later, hlater, hless⟩
    rw [hnext] at hlater
    cases hlater
    have hbefore := h.bounded
    simp only at hless
    rw [List.length_append, List.length_singleton]
    omega
  · intro hnextEarly
    rcases hearly hnextEarly with ⟨hstageEarly, rfl⟩
    exact h.free hstageEarly
  · intro hlate
    cases hstageEarly : stage.early with
    | false => exact hkept (h.row hstageEarly)
    | true =>
        rcases hholding hstageEarly with hnextEarly | hheld
        · rw [hlate] at hnextEarly
          cases hnextEarly
        · exact hrows.kept index _ hnext hheld

theorem Accepting.other_step (h : Accepting config request command index past s stage)
    {label : ApiLabel} (hunhindered : Unhindered platform request index now past s label)
    (hother : ∀ action, label ≠ .act index action)
    (hstep : s.step platform label = some t) :
    Accepting config request command index past t stage := by
  have hrestart : ∀ config, label ≠ .restart config := by
    rintro config rfl
    have hlets := hunhindered.lets
    cases hlets
  exact ⟨h.rows.step hstep, (config_step hstep hrestart).trans h.configured,
    unmoved_step hstep h.handled hother hrestart, h.proceeds, h.bounded,
    fun hearly => hunhindered.keyFree hstep hother (h.free hearly),
    fun hlate => hunhindered.row_kept h.rows hstep (h.row hlate)⟩

theorem Accepting.step (platform : Platform) (s₀ : ApiConfig)
    (h : Accepting config request command index past s stage)
    (htexts : ∀ text ∈ request.texts config command, text.encodable = true)
    {label : ApiLabel} (hunhindered : Unhindered platform request index now past s label)
    (hstep : s.step platform label = some t) :
    ∃ next, Accepting config request command index
      (past ++ (requestSystem platform s₀ index).observe s label) t next := by
  by_cases hown : ∃ action, label = .act index action
  · rcases hown with ⟨action, rfl⟩
    have hobserve : (requestSystem platform s₀ index).observe s (.act index action) =
        [s.attempt index action] := if_pos rfl
    rw [hobserve]
    exact h.own_step htexts hunhindered hstep
  · have hother : ∀ action, label ≠ .act index action :=
      fun action hlabel => hown ⟨action, hlabel⟩
    have hobserve : (requestSystem platform s₀ index).observe s label = [] := by
      cases label with
      | act acting action =>
          have hne : acting ≠ index := by
            rintro rfl
            exact hother action rfl
          exact if_neg hne
      | _ => rfl
    rw [hobserve, List.append_nil]
    exact ⟨stage, h.other_step hunhindered hother hstep⟩

theorem step_enabled (platform : Platform) {handling : Handling}
    (h : s.requests[index]? = some handling) (hgoing : handling.stage.finished = false) :
    ∃ action t, action.isInterrupt = false ∧
      s.step platform (.act index action) = some t := by
  obtain ⟨request, stage⟩ := handling
  have hact : ∃ action next, action.isInterrupt = false ∧
      act platform s.config request s.db stage action = some next := by
    cases stage with
    | refreshing command => exact ⟨.refresh [] false (.raised []), _, rfl, rfl⟩
    | publishing command => exact ⟨.publish false (.raised []), _, rfl, rfl⟩
    | answered response => cases hgoing
    | raised error => cases hgoing
    | dropped => cases hgoing
    | storing outcome => exact ⟨.transact noon, _, rfl, rfl⟩
    | _ =>
        refine ⟨.transact noon, ?_⟩
        simp only [act, transact]
        split <;> exact ⟨_, rfl, rfl⟩
  rcases hact with ⟨action, next, hnot, hact⟩
  refine ⟨action, s.moved index request next, hnot, ?_⟩
  simp only [Api.step, h, hact, Option.map_some]

theorem accepted_of_keyFree (platform : Platform) (s₀ : ApiConfig) (hrows : RowsSound t)
    (hconfig : t.config = config)
    (hhandled : t.requests[index]? = some ⟨request, .checking command⟩)
    (hfree : t.db.KeyFree request)
    (htexts : ∀ text ∈ request.texts config command, text.encodable = true)
    (now : Datetime) : Accepted platform s₀ t request command index now := by
  intro labels u along run
  have hstart : Accepting config request command index [] t (.checking command) :=
    ⟨hrows, hconfig, hhandled, rfl, Nat.le_refl _, fun _ => hfree, nofun⟩
  have hend := (requestSystem platform s₀ index).run_invariant
    (I := fun past s => ∃ stage, Accepting config request command index past s stage)
    ⟨_, hstart⟩
    (fun _ _ _ _ _ h hunhindered hstep => h.elim fun _ h =>
      h.step platform s₀ htexts hunhindered hstep) along run
  rcases hend with ⟨stage, hend⟩
  cases hfinished : stage.finished with
  | false =>
      right
      have hbounded := hend.bounded
      have hpos := Stage.remaining_pos hfinished
      exact ⟨by omega, step_enabled platform hend.handled hfinished⟩
  | true =>
      left
      have hproceeds := hend.proceeds
      cases stage with
      | answered response =>
          rcases hproceeds with ⟨result, hlast, hstatus, hsent⟩
          rcases hend.row rfl with ⟨row, hrow, hid⟩
          have hfits := hend.rows.fits index _ hend.handled row hrow hid
          refine ⟨response, result, stage_of_requests hend.handled, hlast, hstatus, ?_, row,
            hrow, hid, hfits.1, hfits.2.1⟩
          rw [hend.configured]
          exact hsent
      | raised error => exact hproceeds.elim
      | dropped => exact hproceeds.elim
      | _ => cases hfinished

end

/-! ## What acceptance demands -/

theorem StageMove.spares_rows {platform : Platform} {config : ApiConfig}
    {request : PlcRequest} {index : Nat} {db after : Database} {before next : Stage}
    {events : List ApiEvent}
    (h : StageMove platform config request index db before next after events)
    (requestId : Text) : ¬ CleanedIn events requestId := by
  rintro ⟨retentionDays, now, deleted, hmem, -⟩
  cases h with
  | raised _ _ _ _ hevents =>
      rcases hevents with rfl | ⟨-, rfl | rfl⟩
      · cases hmem
      · simp at hmem
      · simp at hmem
  | _ => simp at hmem

section

variable {platform : Platform} {s₀ : ApiConfig} {request : PlcRequest}
  {command : PlcCommand} {index : Nat} {now : Datetime} {s t u : Api} {stage next : Stage}
  {after : Database} {action : Action}

/-- A step of the request does not hinder it. -/
theorem unhindered_of_lets (hlets : (ApiLabel.act index action).lets index now = true)
    (hstep : s.step platform (.act index action) = some t)
    (past : List (Option PublishResult)) :
    Unhindered platform request index now past s (.act index action) := by
  have hmove : ∃ (handling : Handling) (next : Stage), StageMove platform s.config
      handling.request index s.db handling.stage next t.db
      (s.observe platform (.act index action)) := by
    generalize hevents : s.observe platform (.act index action) = events
    have hmove := Api.act_move hstep
    rw [hevents] at hmove
    cases hmove with
    | acted _ _ handling next after _ hacting hstage => exact ⟨handling, next, hstage⟩
  rcases hmove with ⟨handling, next, hmove⟩
  refine ⟨hlets, ?_, hmove.spares_rows request.requestId⟩
  intro other _ hinserted hne
  exact absurd (hmove.inserted_event hinserted).1 hne

/-- An unhindered run leads from one state to the other. -/
def Leads (platform : Platform) (s₀ : ApiConfig) (request : PlcRequest) (index : Nat)
    (now : Datetime) (t u : Api) : Prop :=
  ∃ labels, (requestSystem platform s₀ index).Along
      (Unhindered platform request index now) [] t labels ∧
    (requestSystem platform s₀ index).exec t labels = some u

theorem Leads.act (h : Leads platform s₀ request index now t u)
    (hlets : (ApiLabel.act index action).lets index now = true) {v : Api}
    (hstep : u.step platform (.act index action) = some v) :
    Leads platform s₀ request index now t v := by
  rcases h with ⟨labels, along, run⟩
  refine ⟨labels ++ [.act index action], ?_, ?_⟩
  · exact ((requestSystem platform s₀ index).along_snoc run).mpr
      ⟨along, unhindered_of_lets hlets hstep _⟩
  · exact (requestSystem platform s₀ index).exec_snoc_eq_some.mpr ⟨u, run, hstep⟩

theorem Leads.acts {actions : List Action} (h : Leads platform s₀ request index now t s)
    (hlets : ∀ action ∈ actions, (ApiLabel.act index action).lets index now = true)
    (run : (requestSystem platform s₀ index).exec s (actions.map (.act index)) = some u) :
    Leads platform s₀ request index now t u := by
  induction actions generalizing s with
  | nil =>
      cases run
      exact h
  | cons action actions ih =>
      rcases (requestSystem platform s₀ index).exec_cons_eq_some.mp run with
        ⟨m, hstep, hrest⟩
      exact ih (h.act (hlets action List.mem_cons_self) hstep)
        (fun other hother => hlets other (List.mem_cons_of_mem action hother)) hrest

theorem Accepted.not_raised (h : Accepted platform s₀ t request command index now)
    (hleads : Leads platform s₀ request index now t u) {error : PyError} :
    u.stage index ≠ some (.raised error) := by
  intro hraised
  rcases hleads with ⟨labels, along, run⟩
  rcases h labels u along run with
    ⟨response, result, hanswered, -⟩ | ⟨-, action, v, hnot, hstep⟩
  · rw [hraised] at hanswered
    cases hanswered
  · rcases Option.map_eq_some_iff.mp hraised with ⟨⟨request, stage⟩, hhandled, rfl⟩
    simp only [Api.step, hhandled] at hstep
    cases action with
    | interrupt error => cases hnot
    | _ => simp [EdgeBridge.act, transact] at hstep

theorem Accepted.goes (h : Accepted platform s₀ t request command index now)
    (hleads : Leads platform s₀ request index now t u)
    (hhandled : u.requests[index]? = some ⟨request, stage⟩)
    (hlets : (ApiLabel.act index action).lets index now = true)
    (hact : act platform u.config request u.db stage action = some (next, after)) :
    Leads platform s₀ request index now t (u.moved index request (next, after)) ∧
      (u.moved index request (next, after)).requests[index]? = some ⟨request, next⟩ ∧
      ∀ error, next ≠ .raised error := by
  have hstep : u.step platform (.act index action) =
      some (u.moved index request (next, after)) := by
    simp only [Api.step, hhandled, hact, Option.map_some]
  have hnext : (u.moved index request (next, after)).requests[index]? =
      some ⟨request, next⟩ := (moved_requests hhandled _ index).trans (if_pos rfl)
  have hmoved := hleads.act hlets hstep
  refine ⟨hmoved, hnext, ?_⟩
  rintro error rfl
  exact h.not_raised hmoved (stage_of_requests hnext)

theorem recordWithinTtl_of_outside (platform : Platform) {ttlSeconds : Int}
    {row : ApiCommandRecord} (h : OutsideTtl ttlSeconds now row) :
    recordWithinTtl platform row ttlSeconds now = .ok false := by
  unfold recordWithinTtl
  rcases h with hdisabled | ⟨received, hreceived, holder⟩
  · rw [if_pos hdisabled]
  · split
    · rfl
    · next henabled =>
      have hparse : parseTimestamp platform row.receivedAt = .ok received.truncate := by
        rw [hreceived]
        simp [parseTimestamp, fromIsoformat_formatTimestamp]
      have hnow := now.2
      have hshift : ∃ oldest, now.shift (-ttlSeconds) = .ok oldest := by
        unfold Datetime.shift
        rw [dif_pos (by omega)]
        exact ⟨_, rfl⟩
      rcases hshift with ⟨oldest, hshift⟩
      have hmicro := Datetime.shift_micro hshift
      have houtside : ¬ oldest.micro ≤ received.truncate.micro := by omega
      rw [hparse]
      simp only [bind, Except.bind, hshift, houtside, decide_false]

theorem not_found_of_fresh (platform : Platform) (hfresh : s.Fresh request now)
    (response : JsonResponse) :
    getDuplicateResponse platform request.idempotencyKey s.config.idempotencyTtlSeconds now
      s.db ≠ .ok (some response) := by
  intro hfound
  unfold getDuplicateResponse duplicateRecord at hfound
  cases htruthy : truthy request.idempotencyKey with
  | none => simp [htruthy, bind, Except.bind] at hfound
  | some key =>
      rcases truthy_eq_some.mp htruthy with ⟨hkey, hne⟩
      rw [htruthy] at hfound
      cases hlookup : getApiCommandByIdempotencyKey key s.db with
      | error error => simp [hlookup, bind, Except.bind] at hfound
      | ok found =>
          cases found with
          | none => simp [hlookup, bind, Except.bind] at hfound
          | some record =>
              have hrecord : record ∈ s.db.apiCommands.rows ∧
                  record.idempotencyKey = some key := by
                unfold getApiCommandByIdempotencyKey at hlookup
                rcases bind_eq_ok.mp hlookup with ⟨_, -, hfind⟩
                have hsome := Table.find?_eq_some (Except.ok.inj hfind)
                exact ⟨hsome.1, beq_iff_eq.mp hsome.2⟩
              have houtside := recordWithinTtl_of_outside platform
                (hfresh key hkey hne record hrecord.1 hrecord.2)
              simp [hlookup, houtside, bind, Except.bind] at hfound

/-- The lookup of a fresh command goes on to the `INSERT`. -/
theorem Accepted.checked (h : Accepted platform s₀ t request command index now)
    (hfresh : t.Fresh request now)
    (hhandled : t.requests[index]? = some ⟨request, .checking command⟩) :
    ∃ u, Leads platform s₀ request index now t u ∧ u.db = t.db ∧ u.config = t.config ∧
      u.requests[index]? = some ⟨request, .creating command⟩ := by
  have hstart : Leads platform s₀ request index now t t := ⟨[], True.intro, rfl⟩
  have hlets : (ApiLabel.act index (.transact now)).lets index now = true := by
    simp [ApiLabel.lets]
  cases hlookup : getDuplicateResponse platform request.idempotencyKey
      t.config.idempotencyTtlSeconds now t.db with
  | error error =>
      have hact : act platform t.config request t.db (.checking command) (.transact now) =
          some (.raised error, t.db) := by
        simp only [act, transact, hlookup]
      exact absurd rfl ((h.goes hstart hhandled hlets hact).2.2 error)
  | ok found =>
      cases found with
      | some response => exact absurd hlookup (not_found_of_fresh platform hfresh response)
      | none =>
          have hact : act platform t.config request t.db (.checking command)
              (.transact now) = some (.creating command, t.db) := by
            simp only [act, transact, hlookup]
          rcases h.goes hstart hhandled hlets hact with ⟨hleads, hnext, -⟩
          exact ⟨_, hleads, rfl, rfl, hnext⟩

/-- The `INSERT` of an accepted command succeeds. -/
theorem Accepted.created (h : Accepted platform s₀ t request command index now)
    (hfresh : t.Fresh request now) (hleads : Leads platform s₀ request index now t u)
    (hdb : u.db = t.db) (hconfig : u.config = t.config)
    (hhandled : u.requests[index]? = some ⟨request, .creating command⟩) :
    ∃ after, createApiCommandRecord platform (request.arguments t.config command.payload)
        now t.db = .ok after ∧
      ∃ v, Leads platform s₀ request index now t v ∧ v.config = t.config ∧
        v.requests[index]? = some ⟨request, .refreshing command⟩ := by
  have hlets : (ApiLabel.act index (.transact now)).lets index now = true := by
    simp [ApiLabel.lets]
  cases hinsert : createApiCommandRecord platform
      (request.arguments t.config command.payload) now t.db with
  | ok after =>
      have hact : act platform u.config request u.db (.creating command) (.transact now) =
          some (.refreshing command, after) := by
        simp only [act, transact, hdb, hconfig, hinsert]
      rcases h.goes hleads hhandled hlets hact with ⟨hmoved, hnext, -⟩
      exact ⟨after, rfl, _, hmoved, hconfig, hnext⟩
  | error error =>
      exfalso
      by_cases hintegrity : error = .integrityError
      · subst hintegrity
        have hact : act platform u.config request u.db (.creating command)
            (.transact now) = some (.rechecking command, u.db) := by
          simp only [act, transact, hdb, hconfig, hinsert]
        rcases h.goes hleads hhandled hlets hact with ⟨hmoved, hnext, -⟩
        have hrecheck : ∃ error, act platform u.config request u.db (.rechecking command)
            (.transact now) = some (.raised error, u.db) := by
          simp only [act, transact, hdb, hconfig]
          cases hlookup : getDuplicateResponse platform request.idempotencyKey
              t.config.idempotencyTtlSeconds now t.db with
          | error error => exact ⟨error, rfl⟩
          | ok found =>
              cases found with
              | none => exact ⟨_, rfl⟩
              | some response =>
                  exact absurd hlookup (not_found_of_fresh platform hfresh response)
        rcases hrecheck with ⟨error, hraises⟩
        exact absurd rfl ((h.goes hmoved hnext hlets hraises).2.2 error)
      · have hact : act platform u.config request u.db (.creating command)
            (.transact now) = some (.raised error, u.db) := by
          simp only [act, transact, hdb, hconfig, hinsert]
        exact absurd rfl ((h.goes hleads hhandled hlets hact).2.2 error)

/-- After a successful publish the command of an accepted request can be sent back. -/
theorem Accepted.sent (h : Accepted platform s₀ t request command index now)
    (hleads : Leads platform s₀ request index now t u)
    (hhandled : u.requests[index]? = some ⟨request, .refreshing command⟩) :
    Json.plain command.content = true := by
  have hlets : (ApiLabel.act index (.transact now)).lets index now = true := by
    simp [ApiLabel.lets]
  have hanswer : (ClientPublish.answered 0 none).storable = true := by decide
  -- the readiness refresh is skipped, then the broker takes the command
  have hrefresh : act platform u.config request u.db (.refreshing command)
      (.refresh [] false (.answered 0 none)) = some (.publishing command, u.db) := by
    have hskipped : refreshReadyBeforePrintJobStart u.config.readyTopic command [] false
        (.answered 0 none) = none := by
      unfold refreshReadyBeforePrintJobStart
      simp
    simp only [act, hskipped, afterRefresh]
  rcases h.goes hleads hhandled (by simp [ApiLabel.lets, hanswer]) hrefresh with
    ⟨hleads, hhandled, -⟩
  let result := publishPlcCommand u.config.odooToPlcTopic command true (.answered 0 none)
  have hpublish : act platform u.config request u.db (.publishing command)
      (.publish true (.answered 0 none)) =
        some (.marking (.published command result), u.db) := rfl
  rcases h.goes hleads hhandled (by simp [ApiLabel.lets, hanswer]) hpublish with
    ⟨hleads, hhandled, -⟩
  cases hmark : updateApiCommandResult request.requestId
      ((Outcome.published command result).commandResult now) u.db with
  | error error =>
      have hact : act platform u.config request u.db
          (.marking (.published command result)) (.transact now) =
            some (.raised error, u.db) := by
        simp only [act, transact, hmark]
      exact absurd rfl ((h.goes hleads hhandled hlets hact).2.2 error)
  | ok marked =>
      have hact : act platform u.config request u.db
          (.marking (.published command result)) (.transact now) =
            some (.storing (.published command result), marked) := by
        simp only [act, transact, hmark]
      rcases h.goes hleads hhandled hlets hact with ⟨hleads, hhandled, -⟩
      have hstore : act platform u.config request marked
          (.storing (.published command result)) (.transact now) =
            some (storedJsonResponse request (.published command result) marked) := rfl
      have hlast := (h.goes hleads hhandled hlets hstore).2.2
      have hcontent : Json.plain
          ((Outcome.published command result).content request) = true := by
        by_contra hnot
        split at hlast
        · next error _ => exact hlast error rfl
        · split at hlast
          · next error _ => exact hlast error rfl
          · unfold jsonResponse at hlast
            rw [dif_neg hnot] at hlast
            exact hlast _ rfl
      exact (plain_publishedContent_iff.mp hcontent).2.2.2.1

end

/-! ## When a fresh command is accepted -/

/--
A fresh command is accepted exactly if no audit row has its key and all its texts can be
encoded.
-/
theorem fresh_accepted_iff {platform : Platform} {config : ApiConfig}
    {past : List ApiEvent} {s t : Api}
    (ran : (apiSystem platform config).Ran (apiSystem platform config).init past s)
    {request : PlcRequest} {command : PlcCommand} {now : Datetime}
    (hfresh : s.Fresh request now)
    (hcommand : admission s.config request = .ok (.command command))
    (hstep : s.step platform (.receive request) = some t) :
    Accepted platform config t request command s.requests.length now ↔
      s.db.KeyFree request ∧
        ∀ text ∈ request.texts s.config command, text.encodable = true := by
  have hrows : RowsSound t := (api_rowsSound ran).step hstep
  rcases receive_step hstep with ⟨hconfig, hdb, hhandled⟩
  rw [hcommand] at hhandled
  have hfresh' : t.Fresh request now := by
    unfold Api.Fresh
    rw [hdb, hconfig]
    exact hfresh
  rw [← hdb, ← hconfig]
  constructor
  · intro h
    rcases h.checked hfresh' hhandled with ⟨u, hleads, hsame, hsameConfig, hcreating⟩
    rcases h.created hfresh' hleads hsame hsameConfig hcreating with
      ⟨after, hcreated, v, hmoved, -, hrefreshing⟩
    have hid : ∀ row ∈ t.db.apiCommands.rows, row.requestId ≠ request.requestId := by
      intro row hrow hown
      exact Stage.not_fits_of_early rfl row (hrows.fits _ _ hhandled row hrow hown).2
    rcases (createApiCommandRecord_ok_iff platform hid now).mp ⟨after, hcreated⟩ with
      ⟨-, hfree, hbound⟩
    exact ⟨hfree, (texts_encodable_iff command.payload).mpr
      ⟨hbound, h.sent hmoved hrefreshing⟩⟩
  · rintro ⟨hfree, htexts⟩
    exact accepted_of_keyFree platform config hrows rfl hhandled hfree htexts now

/-! ## A key that is used again after the TTL -/

theorem raised_of_ending {s : Api} {i : Nat} {error : PyError}
    (h : s.endings[i]? = some (some (.exception error))) :
    s.stage i = some (.raised error) := by
  simp only [Api.endings, Api.snapshot, List.map_map, List.getElem?_map,
    Option.map_eq_some_iff] at h
  rcases h with ⟨⟨request, stage⟩, hhandling, hstage⟩
  rw [Api.stage, hhandling, Option.map_some, Option.some.injEq]
  cases stage with
  | answered response => simp [Stage.ending] at hstage
  | raised other => simpa [Stage.ending] using hstage
  | _ => cases hstage

def Admission.parsed : Admission → Option PlcCommand
  | .command given => some given
  | .rejected _ => none

theorem admitted_command {admitted : Except PyError Admission} {command : PlcCommand}
    (h : admitted.toOption.bind Admission.parsed = some command) :
    admitted = .ok (.command command) := by
  cases admitted with
  | error error => cases h
  | ok admission =>
      cases admission with
      | rejected rejection => cases h
      | command other =>
          cases h
          rfl

def unkeyedRequest : PlcRequest :=
  { sampleRequest (str "R2") tableCommand with idempotencyKey := none }

/-- The TTL is five seconds. -/
def shortTtl : System Api ApiLabel ApiEvent := apiSystem samplePlatform (sampleApiConfig 5)

/-- Ten seconds after the first command its key is fresh, and the `INSERT` refuses it. -/
theorem expired_key_not_accepted :
    ∃ s t u, shortTtl.exec shortTtl.init firstPublished = some s ∧
      s.Fresh (sampleRequest (str "R2") tableCommand) (atNoon 10) ∧
      admission s.config (sampleRequest (str "R2") tableCommand) =
        .ok (.command ⟨str "T01", str "P"⟩) ∧
      s.step samplePlatform (.receive (sampleRequest (str "R2") tableCommand)) = some t ∧
      shortTtl.exec t (List.replicate 3 (.act 1 (.transact (atNoon 10)))) = some u ∧
      u.stage 1 = some (.raised .integrityError) ∧
      ¬ Accepted samplePlatform (sampleApiConfig 5) t
        (sampleRequest (str "R2") tableCommand) ⟨str "T01", str "P"⟩ 1 (atNoon 10) := by
  have hfirst : (shortTtl.exec shortTtl.init firstPublished).map Api.snapshot =
      some ⟨sampleApiConfig 5,
        [(str "R1", some (str "PRINTJOB-2960-T01"), some (.status 200))],
        [(str "R1", formatTimestamp noon)]⟩ := by
    decide +kernel
  have hthen : ((shortTtl.exec shortTtl.init firstPublished).bind fun s =>
      (s.step samplePlatform (.receive (sampleRequest (str "R2") tableCommand))).bind
        fun t => shortTtl.exec t
          (List.replicate 3 (.act 1 (.transact (atNoon 10))))).map Api.endings =
      some [some (.status 200), some (.exception .integrityError)] := by
    decide +kernel
  rcases Option.map_eq_some_iff.mp hfirst with ⟨s, hs, hsnapshot⟩
  rcases Option.map_eq_some_iff.mp hthen with ⟨u, hu, hendings⟩
  rw [hs, Option.bind_some] at hu
  rcases Option.bind_eq_some_iff.mp hu with ⟨t, ht, hu⟩
  simp only [Api.snapshot, Api.Snapshot.mk.injEq] at hsnapshot
  rcases hsnapshot with ⟨hconfig, -, hrows⟩
  have hcommand : admission s.config (sampleRequest (str "R2") tableCommand) =
      .ok (.command ⟨str "T01", str "P"⟩) := by
    rw [hconfig]
    apply admitted_command
    decide +kernel
  have hfresh : s.Fresh (sampleRequest (str "R2") tableCommand) (atNoon 10) := by
    intro key _ _ row hrow _
    right
    have hreceived : (row.requestId, row.receivedAt) ∈
        [(str "R1", formatTimestamp noon)] := by
      rw [← hrows]
      exact List.mem_map.mpr ⟨row, hrow, rfl⟩
    rw [List.mem_singleton, Prod.mk.injEq] at hreceived
    refine ⟨noon, hreceived.2, ?_⟩
    rw [hconfig]
    decide +kernel
  have hraised : u.stage 1 = some (.raised .integrityError) := by
    apply raised_of_ending
    rw [hendings]
    rfl
  refine ⟨s, t, u, hs, hfresh, hcommand, ht, hu, hraised, ?_⟩
  intro haccepted
  have hstart : Leads samplePlatform (sampleApiConfig 5)
      (sampleRequest (str "R2") tableCommand) 1 (atNoon 10) t t := ⟨[], True.intro, rfl⟩
  have hacts : ∀ action ∈ List.replicate 3 (Action.transact (atNoon 10)),
      (ApiLabel.act 1 action).lets 1 (atNoon 10) = true := by
    intro action haction
    rw [List.eq_of_mem_replicate haction]
    decide
  exact haccepted.not_raised (hstart.acts hacts hu) hraised

/-- The same command without a key is accepted there. -/
theorem fresh_accepted_iff_sample :
    ∃ s t, shortTtl.exec shortTtl.init firstPublished = some s ∧
      s.step samplePlatform (.receive unkeyedRequest) = some t ∧
      Accepted samplePlatform (sampleApiConfig 5) t unkeyedRequest
        ⟨str "T01", str "P"⟩ s.requests.length (atNoon 10) := by
  have hrun : ((shortTtl.exec shortTtl.init firstPublished).bind fun s =>
      (s.step samplePlatform (.receive unkeyedRequest)).map fun t =>
        (s.config, t.endings)) = some (sampleApiConfig 5, [some (.status 200), none]) := by
    decide +kernel
  rcases Option.bind_eq_some_iff.mp hrun with ⟨s, hs, hreceived⟩
  rcases Option.map_eq_some_iff.mp hreceived with ⟨t, ht, hvalues⟩
  rw [Prod.mk.injEq] at hvalues
  have hcommand : admission s.config unkeyedRequest =
      .ok (.command ⟨str "T01", str "P"⟩) := by
    rw [hvalues.1]
    apply admitted_command
    decide +kernel
  have hunkeyed : ∀ key, unkeyedRequest.idempotencyKey ≠ some key := nofun
  refine ⟨s, t, hs, ht, ?_⟩
  refine (fresh_accepted_iff ⟨_, hs, rfl⟩ ?_ hcommand ht).mpr ⟨?_, ?_⟩
  · exact fun key hkey => absurd hkey (hunkeyed key)
  · exact fun key hkey => absurd hkey (hunkeyed key)
  · rw [hvalues.1]
    decide

end EdgeBridge
