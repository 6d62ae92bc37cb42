import EdgeBridge.Api.Handler
import EdgeBridge.Foundation.System

/-!
# Runs of the command API

The events of a run and the inversion of one step of a request.
-/

namespace EdgeBridge

open Foundation

inductive ApiEvent where
  | inserted (index : Nat)
  /-- A lookup found the key of the request inside the TTL. -/
  | found (index : Nat)
  /-- The `INSERT` of the request raised an `IntegrityError`. -/
  | conflicted (index : Nat)
  /-- The request reached `publish_plc_command`. -/
  | published (index : Nat)
  | cleaned (retentionDays : Int) (now : Datetime) (deleted : List ApiCommandRecord)
  deriving DecidableEq

/-- The audit rows that are gone after a transaction. -/
def deletedCommands (before after : Database) : List ApiCommandRecord :=
  before.apiCommands.rows.filter fun row => (after.apiCommands.byId row.id).isNone

def insertEvents (index : Nat) : Except PyError Database → List ApiEvent
  | .ok _ => [.inserted index]
  | .error .integrityError => [.conflicted index]
  | .error _ => []

def lookupEvents (index : Nat) : Except PyError (Option ApiCommandRecord) → List ApiEvent
  | .ok (some _) => [.found index]
  | _ => []

/-- The events of the next transaction of a request. -/
def transactEvents (platform : Platform) (config : ApiConfig) (request : PlcRequest)
    (index : Nat) (now : Datetime) (db : Database) : Stage → List ApiEvent
  | .rejecting rejection => insertEvents index (createApiCommandRecord platform
      (request.arguments config rejection.payload) now db)
  | .creating command => insertEvents index (createApiCommandRecord platform
      (request.arguments config command.payload) now db)
  | .checking _ => lookupEvents index (duplicateRecord platform request.idempotencyKey
      config.idempotencyTtlSeconds now db)
  | .rechecking _ => lookupEvents index (duplicateRecord platform request.idempotencyKey
      config.idempotencyTtlSeconds now db)
  | _ => []

def Api.observe (platform : Platform) (s : Api) : ApiLabel → List ApiEvent
  | .act index (.transact now) =>
      match s.requests[index]? with
      | none => []
      | some handling => transactEvents platform s.config handling.request index now s.db
          handling.stage
  | .act index (.publish _ _) =>
      match s.requests[index]? with
      | some ⟨_, .publishing _⟩ => [.published index]
      | _ => []
  | .other (.cleanup retentionDays batchSize) now =>
      match Job.run platform now s.db (.cleanup retentionDays batchSize) with
      | .ok (_, after) => [.cleaned retentionDays now (deletedCommands s.db after)]
      | .error _ => []
  | _ => []

def apiSystem (platform : Platform) (config : ApiConfig) :
    System Api ApiLabel ApiEvent where
  init := ⟨config, .empty, []⟩
  step := Api.step platform
  observe := Api.observe platform

/-! ## The inversion of a step -/

/-- The stages before the `INSERT`. -/
def Stage.early : Stage → Bool
  | .rejecting _ => true
  | .checking _ => true
  | .creating _ => true
  | .rechecking _ => true
  | _ => false

/-- Everything that a request can do in one step, with the events it shows. -/
inductive StageMove (platform : Platform) (config : ApiConfig) (request : PlcRequest)
    (index : Nat) (db : Database) : Stage → Stage → Database → List ApiEvent → Prop
  | rejectionInserted (rejection : Rejection) (now : Datetime) (after : Database) :
      createApiCommandRecord platform (request.arguments config rejection.payload) now db =
        .ok after →
      StageMove platform config request index db (.rejecting rejection)
        (.marking (.rejected rejection)) after [.inserted index]
  | commandInserted (command : PlcCommand) (now : Datetime) (after : Database) :
      createApiCommandRecord platform (request.arguments config command.payload) now db =
        .ok after →
      StageMove platform config request index db (.creating command) (.refreshing command)
        after [.inserted index]
  | notFound (command : PlcCommand) :
      StageMove platform config request index db (.checking command) (.creating command)
        db []
  | conflicted (command : PlcCommand) :
      StageMove platform config request index db (.creating command) (.rechecking command)
        db [.conflicted index]
  | duplicate (before : Stage) (response : JsonResponse) :
      before.early = true →
      StageMove platform config request index db before (.answered response) db
        [.found index]
  | raised (before : Stage) (error : PyError) (events : List ApiEvent) :
      before.finished = false →
      (events = [] ∨
        before.early = true ∧ (events = [.found index] ∨ events = [.conflicted index])) →
      StageMove platform config request index db before (.raised error) db events
  | refreshed (command : PlcCommand) (after : Stage) :
      (after = .publishing command ∨ ∃ result, after = .marking (.failed result)) →
      StageMove platform config request index db (.refreshing command) after db []
  | published (command : PlcCommand) (outcome : Outcome) :
      StageMove platform config request index db (.publishing command) (.marking outcome)
        db [.published index]
  | marked (outcome : Outcome) (now : Datetime) (after : Database) :
      updateApiCommandResult request.requestId (outcome.commandResult now) db = .ok after →
      StageMove platform config request index db (.marking outcome) (.storing outcome)
        after []
  | stored (outcome : Outcome) (body : Text) (after : Database) (next : Stage) :
      Json.dumps Json.compactSeparators (outcome.content request) = .ok body →
      saveApiResponse request.requestId outcome.statusCode body db = .ok after →
      ((∃ response, jsonResponse outcome.statusCode (outcome.content request) =
          .ok response ∧ next = .answered response) ∨ ∃ error, next = .raised error) →
      StageMove platform config request index db (.storing outcome) next after []

section

variable {platform : Platform} {config : ApiConfig} {request : PlcRequest} {index : Nat}
  {db after : Database} {stage next : Stage} {now : Datetime}

theorem lookup_move (hstage : stage.early = true) (hfinished : stage.finished = false)
    {missing : Stage}
    (hmissing : StageMove platform config request index db stage missing db [])
    (h : (match getDuplicateResponse platform request.idempotencyKey
          config.idempotencyTtlSeconds now db with
        | .ok (some response) => some (Stage.answered response, db)
        | .ok none => some (missing, db)
        | .error error => some (Stage.raised error, db)) = some (next, after)) :
    StageMove platform config request index db stage next after
      (lookupEvents index (duplicateRecord platform request.idempotencyKey
        config.idempotencyTtlSeconds now db)) := by
  unfold getDuplicateResponse at h
  cases hfound : duplicateRecord platform request.idempotencyKey
      config.idempotencyTtlSeconds now db with
  | error error =>
      rw [hfound] at h
      cases h
      exact .raised _ _ _ hfinished (.inl rfl)
  | ok found =>
      rw [hfound] at h
      cases found with
      | none =>
          cases h
          exact hmissing
      | some record =>
          cases hresponse : duplicateResponse record with
          | error error =>
              simp only [bind, Except.bind, hresponse, Except.map] at h
              cases h
              exact .raised _ _ _ hfinished (.inr ⟨hstage, .inl rfl⟩)
          | ok response =>
              simp only [bind, Except.bind, hresponse, Except.map] at h
              cases h
              exact .duplicate _ _ hstage

theorem storedJsonResponse_move (platform : Platform) (config : ApiConfig)
    (request : PlcRequest) (index : Nat) (db : Database) (outcome : Outcome) :
    StageMove platform config request index db (.storing outcome)
      (storedJsonResponse request outcome db).1 (storedJsonResponse request outcome db).2
      [] := by
  unfold storedJsonResponse
  split
  · exact .raised _ _ _ rfl (.inl rfl)
  · next body hbody =>
    split
    · exact .raised _ _ _ rfl (.inl rfl)
    · next after hafter =>
      split
      · exact .stored _ body after _ hbody hafter (.inr ⟨_, rfl⟩)
      · next response hresponse =>
        exact .stored _ body after _ hbody hafter (.inl ⟨response, hresponse, rfl⟩)

theorem transact_move
    (h : transact platform config request now db stage = some (next, after)) :
    StageMove platform config request index db stage next after
      (transactEvents platform config request index now db stage) := by
  cases stage with
  | rejecting rejection =>
      simp only [transact] at h
      split at h
      · next inserted hinserted =>
        cases h
        simp only [transactEvents, hinserted, insertEvents]
        exact .rejectionInserted rejection now _ hinserted
      · next error hinserted =>
        cases h
        simp only [transactEvents, hinserted]
        refine .raised _ _ _ rfl ?_
        cases error with
        | integrityError => exact .inr ⟨rfl, .inr rfl⟩
        | _ => exact .inl rfl
  | checking command => exact lookup_move rfl rfl (.notFound command) h
  | creating command =>
      simp only [transact] at h
      split at h
      · next inserted hinserted =>
        cases h
        simp only [transactEvents, hinserted, insertEvents]
        exact .commandInserted command now _ hinserted
      · next hconflict =>
        cases h
        simp only [transactEvents, hconflict, insertEvents]
        exact .conflicted command
      · next error hother hinserted =>
        cases h
        simp only [transactEvents, hinserted]
        refine .raised _ _ _ rfl (.inl ?_)
        cases error with
        | integrityError => exact absurd rfl hother
        | _ => rfl
  | rechecking command =>
      exact lookup_move rfl rfl (.raised _ .integrityError _ rfl (.inl rfl)) h
  | marking outcome =>
      simp only [transact] at h
      split at h
      · next marked hmarked =>
        cases h
        exact .marked outcome now _ hmarked
      · cases h
        exact .raised _ _ _ rfl (.inl rfl)
  | storing outcome =>
      simp only [transact, Option.some.injEq] at h
      have hmove := storedJsonResponse_move platform config request index db outcome
      rw [h] at hmove
      exact hmove
  | _ => cases h

end

/-- The rows that a cleanup is allowed to delete. -/
def ApiCommandRecord.Deletable (retentionDays : Int) (now : Datetime)
    (row : ApiCommandRecord) : Prop :=
  row.status.isTerminal = true ∧ ∃ cutoff, now.shift (-(retentionDays * 86400)) =
    .ok cutoff ∧ row.receivedAt < formatTimestamp cutoff

/-- Everything that a step of the system can do. -/
inductive ApiMove (platform : Platform) (s : Api) :
    ApiLabel → Api → List ApiEvent → Prop
  | received (request : PlcRequest) :
      (∀ handling ∈ s.requests, handling.request.requestId ≠ request.requestId) →
      ApiMove platform s (.receive request)
        { s with requests := s.requests ++
          [⟨request, .ofAdmission (admission s.config request)⟩] } []
  | acted (index : Nat) (action : Action) (handling : Handling) (stage : Stage)
      (after : Database) (events : List ApiEvent) :
      s.requests[index]? = some handling →
      StageMove platform s.config handling.request index s.db handling.stage stage after
        events →
      ApiMove platform s (.act index action) (s.moved index handling.request (stage, after))
        events
  | others (job : Job) (now : Datetime) (after : Database) :
      after.apiCommands = s.db.apiCommands →
      ApiMove platform s (.other job now) { s with db := after } []
  | cleaned (retentionDays batchSize : Int) (now : Datetime) (after : Database) :
      (∀ row ∈ after.apiCommands.rows, row ∈ s.db.apiCommands.rows) →
      (∀ row ∈ s.db.apiCommands.rows,
        row ∈ after.apiCommands.rows ∨ row.Deletable retentionDays now) →
      ApiMove platform s (.other (.cleanup retentionDays batchSize) now)
        { s with db := after }
        [.cleaned retentionDays now (deletedCommands s.db after)]
  | restarted (config : ApiConfig) :
      ApiMove platform s (.restart config)
        { s with config := config, requests := s.requests.map Handling.restart } []

section

variable {platform : Platform} {now : Datetime} {db after : Database} {answer : Answer}

/-- Only a cleanup and the API itself change audit rows. -/
theorem Job.apiCommands {job : Job} (haudit : job.isAudit = false)
    (hcleanup : ∀ retentionDays batchSize, job ≠ .cleanup retentionDays batchSize)
    (h : job.run platform now db = .ok (answer, after)) :
    after.apiCommands = db.apiCommands := by
  cases job with
  | save message =>
      rcases map_eq_ok.mp h with ⟨⟨saved, result⟩, hsave, heq⟩
      cases heq
      rcases (saveMessage_cases hsave).2 with ⟨rfl, -, -⟩ | ⟨-, -, -, -, hafter⟩
      · rfl
      · rw [hafter]
  | claim batchSize maxRetries =>
      rcases map_eq_ok.mp h with ⟨⟨records, result⟩, hclaim, heq⟩
      cases heq
      rw [(claimPendingMessages_eq_ok hclaim).1]
  | complete id arguments =>
      rcases map_eq_ok.mp h with ⟨result, hcomplete, heq⟩
      cases heq
      exact markCompleted_apiCommands hcomplete
  | fail id failure =>
      rcases map_eq_ok.mp h with ⟨result, hfail, heq⟩
      cases heq
      rw [(markFailed_eq_ok hfail).2]
  | recover staleBefore excludeIds =>
      rcases map_eq_ok.mp h with ⟨⟨count, result⟩, hreset, heq⟩
      cases heq
      rw [resetStaleProcessing_eq_ok hreset]
  | replay messageHash =>
      rcases map_eq_ok.mp h with ⟨⟨attempt, result⟩, hreplay, heq⟩
      cases heq
      rcases recordAckReplayAttempt_eq_ok hreplay with rfl | ⟨count, hafter⟩
      · rfl
      · rw [hafter]
  | reconcile machineId limit =>
      rcases map_eq_ok.mp h with ⟨⟨result, reconciled⟩, hreconcile, heq⟩
      cases heq
      exact reconcile_apiCommands hreconcile
  | cleanup retentionDays batchSize => exact absurd rfl (hcleanup _ _)
  | audit write => cases haudit

theorem Job.cleanup_commands {retentionDays batchSize : Int}
    (h : (Job.cleanup retentionDays batchSize).run platform now db = .ok (answer, after)) :
    (∀ row ∈ after.apiCommands.rows, row ∈ db.apiCommands.rows) ∧
      ∀ row ∈ db.apiCommands.rows,
        row ∈ after.apiCommands.rows ∨ row.Deletable retentionDays now := by
  rcases map_eq_ok.mp h with ⟨⟨result, cleaned⟩, hcleanup, heq⟩
  cases heq
  rcases cleanup_eq_ok hcleanup with rfl | ⟨cutoffText, hcutoff, rfl⟩
  · exact ⟨fun row hrow => hrow, fun row hrow => .inl hrow⟩
  · constructor
    · intro row hrow
      exact (List.mem_filter.mp hrow).1
    · intro row hrow
      let ids := cleanableIds db.apiCommands (isCleanableCommand cutoffText)
        (batchSize.toNat -
          (cleanableIds db.mqttMessages (isCleanableMessage cutoffText db)
            batchSize.toNat).length)
      by_cases hid : row.id ∈ ids
      · right
        rcases mem_cleanableIds hid with ⟨other, hother, hcleanable⟩
        have hsame : other = row := by
          have hfound := Table.byId_rowId hrow
          rw [show rowId row = row.id from rfl, hother] at hfound
          exact Option.some.inj hfound
        subst hsame
        simp only [isCleanableCommand, Bool.and_eq_true, decide_eq_true_eq] at hcleanable
        rcases map_eq_ok.mp hcutoff with ⟨cutoff, hshift, rfl⟩
        exact ⟨hcleanable.1, cutoff, hshift, hcleanable.2⟩
      · left
        refine List.mem_filter.mpr ⟨hrow, ?_⟩
        simpa [Row.rowId, rowId] using hid

end

theorem Api.act_move {platform : Platform} {s t : Api} {index : Nat} {action : Action}
    (h : s.step platform (.act index action) = some t) :
    ApiMove platform s (.act index action) t (s.observe platform (.act index action)) := by
  simp only [Api.step] at h
  split at h
  · cases h
  · next handling hhandling =>
    rcases Option.map_eq_some_iff.mp h with ⟨⟨stage, after⟩, hact, rfl⟩
    apply ApiMove.acted index action handling stage after _ hhandling
    cases action with
    | transact now =>
        simp only [Api.observe, hhandling]
        exact transact_move hact
    | refresh readinessState connected answer =>
        simp only [act] at hact
        split at hact
        · next command hstage =>
          rw [hstage]
          cases hact
          apply StageMove.refreshed
          unfold afterRefresh
          split
          · split
            · exact .inl rfl
            · exact .inr ⟨_, rfl⟩
          · exact .inl rfl
        · cases hact
    | publish connected answer =>
        simp only [act] at hact
        split at hact
        · next command hstage =>
          obtain ⟨request, before⟩ := handling
          simp only at hstage
          subst hstage
          simp only [Api.observe, hhandling]
          cases hact
          unfold afterPublish
          split
          · exact .published command _
          · exact .published command _
        · cases hact
    | interrupt error =>
        simp only [act] at hact
        split at hact
        · cases hact
        · next hgoing =>
          cases hact
          exact .raised _ _ _ (by simpa using hgoing) (.inl rfl)

theorem Api.step_move {platform : Platform} {s t : Api} {label : ApiLabel}
    (h : s.step platform label = some t) :
    ApiMove platform s label t (s.observe platform label) := by
  cases label with
  | receive request =>
      simp only [Api.step] at h
      split at h
      · cases h
      · next hfresh =>
        cases h
        apply ApiMove.received
        intro handling hmem hsame
        apply hfresh
        exact List.any_eq_true.mpr ⟨handling, hmem, by simp [hsame]⟩
  | act index action => exact Api.act_move h
  | restart config =>
      cases h
      exact .restarted config
  | other job now =>
      simp only [Api.step] at h
      split at h
      · cases h
      · next haudit =>
        split at h
        · next answer after hrun =>
          cases h
          cases job with
          | cleanup retentionDays batchSize =>
              simp only [Api.observe, hrun]
              have hrows := Job.cleanup_commands hrun
              exact .cleaned retentionDays batchSize now after hrows.1 hrows.2
          | audit write => exact absurd rfl haudit
          | _ =>
              refine .others _ now after (Job.apiCommands rfl ?_ hrun)
              intro retentionDays batchSize hjob
              cases hjob
        · next error hrun =>
          cases h
          cases job with
          | cleanup retentionDays batchSize =>
              simp only [Api.observe, hrun]
              exact .others _ now s.db rfl
          | _ => exact .others _ now s.db rfl

end EdgeBridge
