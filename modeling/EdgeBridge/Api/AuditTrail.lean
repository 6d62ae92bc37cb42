import EdgeBridge.Api.Replay

/-!
# What the audit rows say

A row tells what happened to its request: a command that was sent is stored before it is
sent, and the result that is stored is the one that the MQTT client gave.
-/

namespace EdgeBridge

open Foundation

/-! ## What is sent -/

/-- The two publications of a request: the `BR` value that failed, and the command. -/
inductive AuditEvent where
  | refused (index : Nat) (result : PublishResult)
  | sent (index : Nat) (command : PlcCommand) (result : PublishResult)

def AuditEvent.index : AuditEvent → Nat
  | .refused index _ => index
  | .sent index _ _ => index

def AuditEvent.isSent (index : Nat) : AuditEvent → Bool
  | .refused _ _ => false
  | .sent other _ _ => other == index

/-- The publications of one action of a request. -/
def Stage.publications (config : ApiConfig) (index : Nat) : Stage → Action → List AuditEvent
  | .refreshing command, .refresh readinessState connected answer =>
      match refreshReadyBeforePrintJobStart config.readyTopic command readinessState connected
          answer with
      | some result => if result.success then [] else [.refused index result]
      | none => []
  | .publishing command, .publish connected answer =>
      [.sent index command
        (publishPlcCommand config.odooToPlcTopic command connected answer)]
  | _, _ => []

def Api.publications (s : Api) : ApiLabel → List AuditEvent
  | .act index action =>
      match s.requests[index]? with
      | some handling => handling.stage.publications s.config index action
      | none => []
  | _ => []

def Unsent (past : List AuditEvent) (index : Nat) : Prop :=
  ∀ command result, .sent index command result ∉ past

/-- The row as it was inserted. -/
structure ApiCommandRecord.Unmarked (row : ApiCommandRecord) : Prop where
  status : row.status = .received
  mqttRc : row.mqttRc = none
  mqttMid : row.mqttMid = none
  publishedAt : row.publishedAt = none
  lastError : row.lastError = none
  responseCode : row.responseCode = none
  responseBody : row.responseBody = none

structure ApiCommandRecord.Bears (row : ApiCommandRecord) (result : CommandResult) :
    Prop where
  status : row.status = result.status
  mqttRc : row.mqttRc = result.mqttRc
  mqttMid : row.mqttMid = result.mqttMid
  publishedAt : row.publishedAt = result.publishedAt
  lastError : row.lastError = result.lastError

/-- The outcome is what happened to the payload of the row. -/
def Earned (past : List AuditEvent) (index : Nat) (row : ApiCommandRecord) : Outcome → Prop
  | .published command result =>
      .sent index command result ∈ past ∧ result.success = true ∧
        result.topic = row.mqttTopic ∧ result.payload = row.payload
  | .failed result => result.success = false ∧
      ((.refused index result ∈ past ∧ Unsent past index) ∨
        ∃ command, .sent index command result ∈ past ∧ result.topic = row.mqttTopic ∧
          result.payload = row.payload)
  | .rejected rejection => Unsent past index ∧ row.payload = rejection.payload

/-- The stored response is missing, or that of the outcome. -/
def Replied (request : PlcRequest) (row : ApiCommandRecord) (outcome : Outcome) : Prop :=
  (row.responseCode = none ∧ row.responseBody = none) ∨
    ∃ body, Json.dumps Json.compactSeparators (outcome.content request) = .ok body ∧
      row.responseCode = some outcome.statusCode ∧ row.responseBody = some body

inductive Truthful (past : List AuditEvent) (index : Nat) (request : PlcRequest)
    (row : ApiCommandRecord) : Prop
  | received : row.Unmarked → Truthful past index request row
  | marked (outcome : Outcome) (now : Datetime) : Earned past index row outcome →
      row.Bears (outcome.commandResult now) → Replied request row outcome →
      Truthful past index request row

/-- What the stage of a request knows about its row; before the `INSERT` there is none. -/
def Stage.Knows (past : List AuditEvent) (index : Nat) (request : PlcRequest)
    (config : ApiConfig) (row : ApiCommandRecord) : Stage → Prop
  | .rejecting _ | .checking _ | .creating _ | .rechecking _ => False
  | .refreshing command | .publishing command => row.Unmarked ∧
      row.payload = command.payload ∧ row.mqttTopic = config.odooToPlcTopic
  | .marking outcome => row.Unmarked ∧ Earned past index row outcome
  | .storing outcome => row.responseCode = none ∧ row.responseBody = none ∧
      Earned past index row outcome ∧ ∃ now, row.Bears (outcome.commandResult now)
  | .answered response => ∃ outcome now, Earned past index row outcome ∧
      row.Bears (outcome.commandResult now) ∧ response.statusCode = outcome.statusCode ∧
      response.content = outcome.content request
  | .raised _ | .dropped => True

/-- The stages before the command is sent. -/
def Stage.before : Stage → Bool
  | .rejecting _ | .checking _ | .creating _ | .rechecking _ | .refreshing _
  | .publishing _ => true
  | _ => false

theorem Stage.before_of_early {stage : Stage} (h : stage.early = true) :
    stage.before = true ∧ ∀ command, stage ≠ .publishing command := by
  cases stage with
  | rejecting _ | checking _ | creating _ | rechecking _ =>
      exact ⟨rfl, fun _ hsame => Stage.noConfusion hsame⟩
  | _ => cases h

theorem Handling.restart_request (handling : Handling) :
    handling.restart.request = handling.request := by
  unfold Handling.restart
  split
  · rfl
  · rfl

theorem Handling.restart_before (handling : Handling) :
    handling.restart.stage.before = false := by
  unfold Handling.restart
  split
  · next hfinished =>
    cases hstage : handling.stage with
    | answered _ | raised _ | dropped => rfl
    | _ =>
        rw [hstage] at hfinished
        cases hfinished
  · rfl

theorem Stage.Knows.restart {handling : Handling} {past : List AuditEvent} {index : Nat}
    {config : ApiConfig} {row : ApiCommandRecord}
    (h : handling.stage.Knows past index handling.request config row) (config' : ApiConfig) :
    handling.restart.stage.Knows past index handling.request config' row := by
  unfold Handling.restart
  split
  · next hfinished =>
    cases hstage : handling.stage with
    | answered response =>
        rw [hstage] at h
        exact h
    | raised error => exact True.intro
    | dropped => exact True.intro
    | _ =>
        rw [hstage] at hfinished
        cases hfinished
  · exact True.intro

theorem Stage.not_knows_of_early {stage : Stage} (h : stage.early = true)
    {past : List AuditEvent} {index : Nat} {request : PlcRequest} {config : ApiConfig}
    {row : ApiCommandRecord} : ¬ stage.Knows past index request config row := by
  cases stage with
  | rejecting _ | checking _ | creating _ | rechecking _ => exact id
  | _ => cases h

structure AuditTrue (platform : Platform) (past : List AuditEvent) (s : Api) : Prop where
  sound : RowsSound s
  rows : ∀ index handling, s.requests[index]? = some handling →
    ∀ row ∈ s.db.apiCommands.rows, row.requestId = handling.request.requestId →
      Truthful past index handling.request row ∧
        handling.stage.Knows past index handling.request s.config row
  hashed : ∀ row ∈ s.db.apiCommands.rows, row.payloadHash = platform.sha256 row.payload
  unsent : ∀ index handling, s.requests[index]? = some handling →
    handling.stage.before = true → Unsent past index
  future : ∀ index, s.requests.length ≤ index → Unsent past index
  once : ∀ index, (past.filter (AuditEvent.isSent index)).length ≤ 1

/-! ## Later publications -/

section

variable {past events : List AuditEvent} {index : Nat} {row : ApiCommandRecord}
  {request : PlcRequest} {outcome : Outcome} {config : ApiConfig} {stage : Stage}

theorem Unsent.extend (h : Unsent past index)
    (hevents : ∀ event ∈ events, event.index ≠ index) : Unsent (past ++ events) index := by
  intro command result hmem
  rcases List.mem_append.mp hmem with hold | hnew
  · exact h command result hold
  · exact hevents _ hnew rfl

theorem Earned.extend (h : Earned past index row outcome)
    (hevents : ∀ event ∈ events, event.index ≠ index) :
    Earned (past ++ events) index row outcome := by
  cases outcome with
  | published command result => exact ⟨List.mem_append_left _ h.1, h.2⟩
  | rejected rejection => exact ⟨h.1.extend hevents, h.2⟩
  | failed result =>
      obtain ⟨hfailed, ⟨hrefused, hunsent⟩ | ⟨command, hsent, hsame⟩⟩ := h
      · exact ⟨hfailed, .inl ⟨List.mem_append_left _ hrefused, hunsent.extend hevents⟩⟩
      · exact ⟨hfailed, .inr ⟨command, List.mem_append_left _ hsent, hsame⟩⟩

theorem Truthful.extend (h : Truthful past index request row)
    (hevents : ∀ event ∈ events, event.index ≠ index) :
    Truthful (past ++ events) index request row := by
  cases h with
  | received hunmarked => exact .received hunmarked
  | marked outcome now hearned hbears hreplied =>
      exact .marked outcome now (hearned.extend hevents) hbears hreplied

theorem Stage.Knows.extend (h : stage.Knows past index request config row)
    (hevents : ∀ event ∈ events, event.index ≠ index) :
    stage.Knows (past ++ events) index request config row := by
  cases stage with
  | marking outcome => exact ⟨h.1, h.2.extend hevents⟩
  | answered response =>
      obtain ⟨outcome, now, hearned, hbears⟩ := h
      exact ⟨outcome, now, hearned.extend hevents, hbears⟩
  | storing outcome => exact ⟨h.1, h.2.1, h.2.2.1.extend hevents, h.2.2.2⟩
  | _ => exact h

theorem Stage.publications_index (stage : Stage) (config : ApiConfig) (index : Nat)
    (action : Action) : ∀ event ∈ stage.publications config index action,
      event.index = index := by
  intro event hevent
  unfold Stage.publications at hevent
  split at hevent
  · split at hevent
    · split at hevent
      · cases hevent
      · obtain rfl := List.mem_singleton.mp hevent
        rfl
    · cases hevent
  · obtain rfl := List.mem_singleton.mp hevent
    rfl
  · cases hevent

/-- Only the stage that publishes sends, and it sends once. -/
theorem Stage.publications_sent {action : Action} {other : Nat} {command : PlcCommand}
    {result : PublishResult}
    (h : .sent other command result ∈ stage.publications config index action) :
    other = index ∧ stage = .publishing command ∧
      stage.publications config index action = [.sent other command result] := by
  unfold Stage.publications at h ⊢
  split at h
  · split at h
    · split at h
      · cases h
      · cases List.mem_singleton.mp h
    · cases h
  · cases List.mem_singleton.mp h
    exact ⟨rfl, rfl, rfl⟩
  · cases h

theorem Stage.publications_transact (stage : Stage) (config : ApiConfig) (index : Nat)
    (now : Datetime) : stage.publications config index (.transact now) = [] := by
  cases stage with
  | _ => rfl

theorem Stage.publications_interrupt (stage : Stage) (config : ApiConfig) (index : Nat)
    (error : PyError) : stage.publications config index (.interrupt error) = [] := by
  cases stage with
  | _ => rfl

theorem jsonResponse_eq_ok {statusCode : Int} {content : PyValue} {response : JsonResponse}
    (h : jsonResponse statusCode content = .ok response) :
    response.statusCode = statusCode ∧ response.content = content := by
  unfold jsonResponse at h
  split at h
  · cases h
    exact ⟨rfl, rfl⟩
  · cases h

theorem Unsent.filter (h : Unsent past index) :
    past.filter (AuditEvent.isSent index) = [] := by
  rw [List.filter_eq_nil_iff]
  intro event hevent hsent
  cases event with
  | refused other result => cases hsent
  | sent other command result =>
      obtain rfl := beq_iff_eq.mp hsent
      exact h command result hevent

end

/-! ## One step -/

section

variable {platform : Platform} {past : List AuditEvent} {s t : Api} {index : Nat}
  {handling : Handling} {action : Action}

/-- Of the rows that a step of a request leaves, those of the others are as they were. -/
theorem AuditTrue.moved {next : Stage} {after : Database} (h : AuditTrue platform past s)
    (hstep : s.step platform (.act index action) = some
      (s.moved index handling.request (next, after)))
    (hhandling : s.requests[index]? = some handling)
    (hothers : ∀ row ∈ after.apiCommands.rows, row.requestId ≠ handling.request.requestId →
      row ∈ s.db.apiCommands.rows)
    (hown : ∀ row ∈ after.apiCommands.rows, row.requestId = handling.request.requestId →
      row.payloadHash = platform.sha256 row.payload ∧
        Truthful (past ++ handling.stage.publications s.config index action) index
          handling.request row ∧
        next.Knows (past ++ handling.stage.publications s.config index action) index
          handling.request s.config row)
    (hbefore : next.before = true → handling.stage.before = true ∧
      ∀ command, handling.stage ≠ .publishing command) :
    AuditTrue platform (past ++ s.publications (.act index action))
      (s.moved index handling.request (next, after)) := by
  have hindexes := handling.stage.publications_index s.config index action
  simp only [Api.publications, hhandling]
  refine ⟨h.sound.step hstep, ?_, ?_, ?_, ?_, ?_⟩
  · intro i other hother row hrow hid
    obtain ⟨rfl, rfl⟩ | ⟨hi, hold⟩ := moved_handling hhandling hother
    · exact (hown row hrow hid).2
    · have hne : row.requestId ≠ handling.request.requestId := fun hsame =>
        hi (h.sound.distinct i index other handling hold hhandling (hid.symm.trans hsame))
      have hrows := h.rows i other hold row (hothers row hrow hne) hid
      have hforeign : ∀ event ∈ handling.stage.publications s.config index action,
          event.index ≠ i := fun event hevent heq => hi (heq.symm.trans (hindexes event hevent))
      exact ⟨hrows.1.extend hforeign, hrows.2.extend hforeign⟩
  · intro row hrow
    by_cases hid : row.requestId = handling.request.requestId
    · exact (hown row hrow hid).1
    · exact h.hashed row (hothers row hrow hid)
  · intro i other hother hstage command result hmem
    obtain ⟨rfl, rfl⟩ | ⟨hi, hold⟩ := moved_handling hhandling hother
    · obtain ⟨hbefore, hunpublished⟩ := hbefore hstage
      rcases List.mem_append.mp hmem with hpast | hnew
      · exact h.unsent i handling hhandling hbefore command result hpast
      · exact hunpublished command (Stage.publications_sent hnew).2.1
    · rcases List.mem_append.mp hmem with hpast | hnew
      · exact h.unsent i other hold hstage command result hpast
      · exact hi (Stage.publications_sent hnew).1
  · intro i hi command result hmem
    have hlength := (List.getElem?_eq_some_iff.mp hhandling).1
    simp only [Api.moved, List.length_set] at hi
    rcases List.mem_append.mp hmem with hpast | hnew
    · exact h.future i hi command result hpast
    · have hindex := (Stage.publications_sent hnew).1
      omega
  · intro i
    rw [List.filter_append, List.length_append]
    by_cases hnew : ∃ command result,
        .sent i command result ∈ handling.stage.publications s.config index action
    · obtain ⟨command, result, hmem⟩ := hnew
      obtain ⟨rfl, hstage, hpublications⟩ := Stage.publications_sent hmem
      have hunsent := h.unsent i handling hhandling (by rw [hstage]; rfl)
      rw [hunsent.filter, hpublications]
      simp [AuditEvent.isSent]
    · have hnone : Unsent (handling.stage.publications s.config index action) i :=
        fun command result hmem => hnew ⟨command, result, hmem⟩
      rw [hnone.filter]
      simpa using h.once i

/-- A step that leaves the rows as they are. -/
theorem AuditTrue.quiet {next : Stage} (h : AuditTrue platform past s)
    (hstep : s.step platform (.act index action) = some
      (s.moved index handling.request (next, s.db)))
    (hhandling : s.requests[index]? = some handling)
    (hnone : handling.stage.publications s.config index action = [])
    (hknows : ∀ row, handling.stage.Knows past index handling.request s.config row →
      next.Knows past index handling.request s.config row)
    (hbefore : next.before = false ∨ handling.stage.early = true) :
    AuditTrue platform (past ++ s.publications (.act index action))
      (s.moved index handling.request (next, s.db)) := by
  refine h.moved hstep hhandling (fun row hrow _ => hrow) ?_ ?_
  · intro row hrow hid
    obtain ⟨htruthful, hknown⟩ := h.rows index handling hhandling row hrow hid
    rw [hnone, List.append_nil]
    exact ⟨h.hashed row hrow, htruthful, hknows row hknown⟩
  · intro hnext
    rcases hbefore with hlate | hearly
    · rw [hlate] at hnext
      cases hnext
    · exact Stage.before_of_early hearly

theorem AuditTrue.inserted {next : Stage} {after : Database} {payload : Text} {now : Datetime}
    (h : AuditTrue platform past s)
    (hstep : s.step platform (.act index action) = some
      (s.moved index handling.request (next, after)))
    (hhandling : s.requests[index]? = some handling)
    (hnone : handling.stage.publications s.config index action = [])
    (hearly : handling.stage.early = true)
    (hinsert : createApiCommandRecord platform
      (handling.request.arguments s.config payload) now s.db = .ok after)
    (hknows : ∀ row : ApiCommandRecord, row.Unmarked → row.payload = payload →
      row.mqttTopic = s.config.odooToPlcTopic →
        next.Knows past index handling.request s.config row) :
    AuditTrue platform (past ++ s.publications (.act index action))
      (s.moved index handling.request (next, after)) := by
  have hrows := (Table.insert_eq_some_iff.mp
    (createApiCommandRecord_eq_ok hinsert).1).2.1
  refine h.moved hstep hhandling ?_ ?_ (fun _ => Stage.before_of_early hearly)
  · intro row hrow hne
    rw [hrows] at hrow
    rcases List.mem_append.mp hrow with hold | hnew
    · exact hold
    · rw [List.mem_singleton.mp hnew] at hne
      exact absurd rfl hne
  · intro row hrow hid
    rw [hnone, List.append_nil]
    rw [hrows] at hrow
    rcases List.mem_append.mp hrow with hold | hnew
    · have hfits := (h.sound.fits index handling hhandling row hold hid).2
      exact absurd hfits (Stage.not_fits_of_early hearly row)
    · have hunmarked : row.Unmarked := by
        rw [List.mem_singleton.mp hnew]
        exact ⟨rfl, rfl, rfl, rfl, rfl, rfl, rfl⟩
      refine ⟨?_, .received hunmarked, hknows row hunmarked ?_ ?_⟩
      all_goals
        rw [List.mem_singleton.mp hnew]
        rfl

theorem AuditTrue.updated {next : Stage} {after : Database}
    {change : Table.Update ApiCommandRecord} (h : AuditTrue platform past s)
    (hstep : s.step platform (.act index action) = some
      (s.moved index handling.request (next, after)))
    (hhandling : s.requests[index]? = some handling)
    (hnone : handling.stage.publications s.config index action = [])
    (hafter : after = { s.db with
      apiCommands := s.db.apiCommands.update
        (fun row => row.requestId == handling.request.requestId) change })
    (hsame : ∀ row, (change row).payload = row.payload ∧
      (change row).payloadHash = row.payloadHash)
    (hown : ∀ row, handling.stage.Knows past index handling.request s.config row →
      Truthful past index handling.request (change row) ∧
        next.Knows past index handling.request s.config (change row))
    (hbefore : next.before = false) :
    AuditTrue platform (past ++ s.publications (.act index action))
      (s.moved index handling.request (next, after)) := by
  have hsplit : ∀ row ∈ after.apiCommands.rows, ∃ old ∈ s.db.apiCommands.rows,
      (old.requestId = handling.request.requestId ∧ row = change old) ∨
        (old.requestId ≠ handling.request.requestId ∧ row = old) := by
    intro row hrow
    rw [hafter] at hrow
    obtain ⟨old, hold, rfl⟩ := List.mem_map.mp hrow
    refine ⟨old, hold, ?_⟩
    split
    · next hmine => exact .inl ⟨beq_iff_eq.mp hmine, rfl⟩
    · next hother => exact .inr ⟨by simpa using hother, rfl⟩
  have hrequestId : ∀ row, (change row).requestId = row.requestId :=
    fun row => congrArg Prod.fst (change.key_apply row)
  refine h.moved hstep hhandling ?_ ?_ ?_
  · intro row hrow hne
    obtain ⟨old, hold, ⟨hmine, rfl⟩ | ⟨-, rfl⟩⟩ := hsplit row hrow
    · exact absurd ((hrequestId old).trans hmine) hne
    · exact hold
  · intro row hrow hid
    rw [hnone, List.append_nil]
    obtain ⟨old, hold, ⟨hmine, rfl⟩ | ⟨hne, rfl⟩⟩ := hsplit row hrow
    · obtain ⟨-, hknown⟩ := h.rows index handling hhandling old hold hmine
      refine ⟨?_, hown old hknown⟩
      rw [(hsame old).1, (hsame old).2]
      exact h.hashed old hold
    · exact absurd hid hne
  · intro hnext
    rw [hbefore] at hnext
    cases hnext

theorem AuditTrue.transacted {next : Stage} {after : Database} {now : Datetime}
    (h : AuditTrue platform past s)
    (hhandling : s.requests[index]? = some handling)
    (htransact : transact platform s.config handling.request now s.db handling.stage =
      some (next, after)) :
    AuditTrue platform (past ++ s.publications (.act index (.transact now)))
      (s.moved index handling.request (next, after)) := by
  have hstep : s.step platform (.act index (.transact now)) = some
      (s.moved index handling.request (next, after)) := by
    simp [Api.step, hhandling, act, htransact]
  have hnone := handling.stage.publications_transact s.config index now
  have hraised : ∀ error : PyError, next = .raised error → after = s.db →
      AuditTrue platform (past ++ s.publications (.act index (.transact now)))
        (s.moved index handling.request (next, after)) := by
    rintro error rfl rfl
    exact h.quiet hstep hhandling hnone (fun _ _ => True.intro) (.inl rfl)
  -- Before the `INSERT` there is no row.
  have hearly : handling.stage.early = true → ∀ (next : Stage) (row : ApiCommandRecord),
      handling.stage.Knows past index handling.request s.config row →
        next.Knows past index handling.request s.config row :=
    fun hearly _ _ hknown => absurd hknown (Stage.not_knows_of_early hearly)
  cases hstage : handling.stage with
  | rejecting rejection =>
      rw [hstage] at htransact
      simp only [transact] at htransact
      split at htransact
      · next hinsert =>
        cases htransact
        refine h.inserted hstep hhandling hnone (by rw [hstage]; rfl) hinsert ?_
        intro row hunmarked hpayload _
        refine ⟨hunmarked, h.unsent index handling hhandling (by rw [hstage]; rfl), hpayload⟩
      · cases htransact
        exact hraised _ rfl rfl
  | checking command =>
      rw [hstage] at htransact
      simp only [transact] at htransact
      split at htransact
      · cases htransact
        exact h.quiet hstep hhandling hnone (hearly (by rw [hstage]; rfl) _) (.inl rfl)
      · cases htransact
        exact h.quiet hstep hhandling hnone (hearly (by rw [hstage]; rfl) _)
          (.inr (by rw [hstage]; rfl))
      · cases htransact
        exact hraised _ rfl rfl
  | creating command =>
      rw [hstage] at htransact
      simp only [transact] at htransact
      split at htransact
      · next hinsert =>
        cases htransact
        refine h.inserted hstep hhandling hnone (by rw [hstage]; rfl) hinsert ?_
        exact fun row hunmarked hpayload htopic => ⟨hunmarked, hpayload, htopic⟩
      · cases htransact
        exact h.quiet hstep hhandling hnone (hearly (by rw [hstage]; rfl) _)
          (.inr (by rw [hstage]; rfl))
      · cases htransact
        exact hraised _ rfl rfl
  | rechecking command =>
      rw [hstage] at htransact
      simp only [transact] at htransact
      split at htransact
      · cases htransact
        exact h.quiet hstep hhandling hnone (hearly (by rw [hstage]; rfl) _) (.inl rfl)
      · cases htransact
        exact hraised _ rfl rfl
      · cases htransact
        exact hraised _ rfl rfl
  | marking outcome =>
      rw [hstage] at htransact
      simp only [transact] at htransact
      split at htransact
      · next hmarked =>
        cases htransact
        refine h.updated hstep hhandling hnone (updateCommand_eq_ok hmarked)
          (fun _ => ⟨rfl, rfl⟩) ?_ rfl
        intro row hknown
        rw [hstage] at hknown
        obtain ⟨hunmarked, hearned⟩ := hknown
        have hearned : Earned past index (setResult (outcome.commandResult now) row) outcome :=
          hearned
        have hbears : (setResult (outcome.commandResult now) row).Bears
            (outcome.commandResult now) := ⟨rfl, rfl, rfl, rfl, rfl⟩
        refine ⟨.marked outcome now hearned hbears ?_, ?_⟩
        · exact .inl ⟨hunmarked.responseCode, hunmarked.responseBody⟩
        · exact ⟨hunmarked.responseCode, hunmarked.responseBody, hearned, now, hbears⟩
      · cases htransact
        exact hraised _ rfl rfl
  | storing outcome =>
      rw [hstage] at htransact
      simp only [transact, Option.some.injEq] at htransact
      have hmove := storedJsonResponse_move platform s.config handling.request index s.db
        outcome
      rw [htransact] at hmove
      cases hmove with
      | raised _ error _ _ _ => exact hraised error rfl rfl
      | stored _ body _ _ hdumps hstored hnext =>
          have hbefore : next.before = false := by
            obtain ⟨response, -, rfl⟩ | ⟨error, rfl⟩ := hnext
            · rfl
            · rfl
          refine h.updated hstep hhandling hnone (updateCommand_eq_ok hstored)
            (fun _ => ⟨rfl, rfl⟩) ?_ hbefore
          intro row hknown
          rw [hstage] at hknown
          obtain ⟨-, -, hearned, marked, hbears⟩ := hknown
          have hkept : (setResponse outcome.statusCode body row).Bears
              (outcome.commandResult marked) :=
            ⟨hbears.status, hbears.mqttRc, hbears.mqttMid, hbears.publishedAt,
              hbears.lastError⟩
          refine ⟨.marked outcome marked hearned hkept (.inr ⟨body, hdumps, rfl, rfl⟩), ?_⟩
          obtain ⟨response, hresponse, rfl⟩ | ⟨error, rfl⟩ := hnext
          · obtain ⟨hcode, hcontent⟩ := jsonResponse_eq_ok hresponse
            exact ⟨outcome, marked, hearned, hkept, hcode, hcontent⟩
          · exact True.intro
  | _ =>
      rw [hstage] at htransact
      cases htransact

/-- The `BR` value is sent again, or the request goes on to its command. -/
theorem AuditTrue.refreshed {command : PlcCommand} {readinessState : Text} {connected : Bool}
    {answer : ClientPublish} (h : AuditTrue platform past s)
    (hhandling : s.requests[index]? = some handling)
    (hstage : handling.stage = .refreshing command)
    (hstep : s.step platform (.act index (.refresh readinessState connected answer)) = some
      (s.moved index handling.request (afterRefresh command
        (refreshReadyBeforePrintJobStart s.config.readyTopic command readinessState connected
          answer), s.db))) :
    AuditTrue platform
      (past ++ s.publications (.act index (.refresh readinessState connected answer)))
      (s.moved index handling.request (afterRefresh command
        (refreshReadyBeforePrintJobStart s.config.readyTopic command readinessState connected
          answer), s.db)) := by
  have hunsent := h.unsent index handling hhandling (by rw [hstage]; rfl)
  refine h.moved hstep hhandling (fun row hrow _ => hrow) ?_ ?_
  · intro row hrow hid
    have hknown := (h.rows index handling hhandling row hrow hid).2
    rw [hstage] at hknown ⊢
    refine ⟨h.hashed row hrow, .received hknown.1, ?_⟩
    simp only [Stage.publications]
    cases hresult : refreshReadyBeforePrintJobStart s.config.readyTopic command readinessState
        connected answer with
    | none => exact hknown
    | some result =>
        simp only [afterRefresh]
        cases hsuccess : result.success with
        | true => exact hknown
        | false =>
            refine ⟨hknown.1, hsuccess, .inl ⟨List.mem_append_right _ List.mem_cons_self, ?_⟩⟩
            intro sent sentResult hmem
            rcases List.mem_append.mp hmem with hpast | hnew
            · exact hunsent sent sentResult hpast
            · cases List.mem_singleton.mp hnew
  · intro _
    rw [hstage]
    exact ⟨rfl, fun _ hsame => Stage.noConfusion hsame⟩

theorem AuditTrue.published {command : PlcCommand} {connected : Bool} {answer : ClientPublish}
    (h : AuditTrue platform past s) (hhandling : s.requests[index]? = some handling)
    (hstage : handling.stage = .publishing command)
    (hstep : s.step platform (.act index (.publish connected answer)) = some
      (s.moved index handling.request (afterPublish command
        (publishPlcCommand s.config.odooToPlcTopic command connected answer), s.db))) :
    AuditTrue platform (past ++ s.publications (.act index (.publish connected answer)))
      (s.moved index handling.request (afterPublish command
        (publishPlcCommand s.config.odooToPlcTopic command connected answer), s.db)) := by
  refine h.moved hstep hhandling (fun row hrow _ => hrow) ?_ ?_
  · intro row hrow hid
    have hknown := (h.rows index handling hhandling row hrow hid).2
    rw [hstage] at hknown ⊢
    refine ⟨h.hashed row hrow, .received hknown.1, ?_⟩
    obtain ⟨htopic, hpayload⟩ :=
      publishPlcCommand_texts s.config.odooToPlcTopic command connected answer
    simp only [Stage.publications]
    generalize publishPlcCommand s.config.odooToPlcTopic command connected answer = result
      at htopic hpayload
    have hsent : AuditEvent.sent index command result ∈
        past ++ [.sent index command result] :=
      List.mem_append_right _ List.mem_cons_self
    have hsame : result.topic = row.mqttTopic ∧ result.payload = row.payload :=
      ⟨htopic.trans hknown.2.2.symm, hpayload.trans hknown.2.1.symm⟩
    unfold afterPublish
    cases hsuccess : result.success with
    | true => exact ⟨hknown.1, hsent, hsuccess, hsame⟩
    | false => exact ⟨hknown.1, hsuccess, .inr ⟨command, hsent, hsame⟩⟩
  · intro hbefore
    unfold afterPublish at hbefore
    split at hbefore
    · cases hbefore
    · cases hbefore

theorem AuditTrue.acted {next : Stage} {after : Database} (h : AuditTrue platform past s)
    (hhandling : s.requests[index]? = some handling)
    (hact : act platform s.config handling.request s.db handling.stage action =
      some (next, after)) :
    AuditTrue platform (past ++ s.publications (.act index action))
      (s.moved index handling.request (next, after)) := by
  have hstep : s.step platform (.act index action) = some
      (s.moved index handling.request (next, after)) := by
    simp [Api.step, hhandling, hact]
  cases action with
  | transact now => exact h.transacted hhandling hact
  | refresh readinessState connected answer =>
      simp only [act] at hact
      split at hact
      · next command hstage =>
        cases hact
        exact h.refreshed hhandling hstage hstep
      · cases hact
  | publish connected answer =>
      simp only [act] at hact
      split at hact
      · next command hstage =>
        cases hact
        exact h.published hhandling hstage hstep
      · cases hact
  | interrupt error =>
      simp only [act] at hact
      split at hact
      · cases hact
      · cases hact
        exact h.quiet hstep hhandling (handling.stage.publications_interrupt s.config index error)
          (fun _ _ => True.intro) (.inl rfl)

theorem AuditTrue.received {request : PlcRequest} (h : AuditTrue platform past s)
    (hstep : s.step platform (.receive request) = some { s with
      requests := s.requests ++ [⟨request, .ofAdmission (admission s.config request)⟩] }) :
    AuditTrue platform past { s with
      requests := s.requests ++ [⟨request, .ofAdmission (admission s.config request)⟩] } := by
  have hsound := h.sound.step hstep
  have hsplit : ∀ {i : Nat} {other : Handling}, (s.requests ++
      [⟨request, .ofAdmission (admission s.config request)⟩])[i]? = some other →
      s.requests[i]? = some other ∨ (i = s.requests.length ∧
        other.stage = .ofAdmission (admission s.config request)) := by
    intro i other hother
    rw [List.getElem?_append] at hother
    split at hother
    · exact .inl hother
    · next hi =>
      right
      rw [List.getElem?_singleton] at hother
      split at hother
      · next hzero =>
        cases hother
        exact ⟨by omega, rfl⟩
      · cases hother
  refine ⟨hsound, ?_, h.hashed, ?_, ?_, h.once⟩
  · intro i other hother row hrow hid
    rcases hsplit hother with hold | ⟨rfl, hstage⟩
    · exact h.rows i other hold row hrow hid
    · -- The `uuid4` of the request is on no row.
      obtain ⟨j, owner, howner, hown⟩ := h.sound.owned row hrow
      have hj := (List.getElem?_eq_some_iff.mp howner).1
      have hsame := hsound.distinct j s.requests.length owner other
        ((List.getElem?_append_left hj).trans howner) hother (hown.symm.trans hid)
      omega
  · intro i other hother hbefore
    rcases hsplit hother with hold | ⟨rfl, -⟩
    · exact h.unsent i other hold hbefore
    · exact h.future _ (Nat.le_refl _)
  · intro i hi
    refine h.future i ?_
    simp only [List.length_append, List.length_singleton] at hi
    omega

theorem AuditTrue.cleaned {after : Database} (h : AuditTrue platform past s)
    (hsound : RowsSound { s with db := after })
    (hsub : ∀ row ∈ after.apiCommands.rows, row ∈ s.db.apiCommands.rows) :
    AuditTrue platform past { s with db := after } where
  sound := hsound
  rows := fun i other hother row hrow => h.rows i other hother row (hsub row hrow)
  hashed := fun row hrow => h.hashed row (hsub row hrow)
  unsent := h.unsent
  future := h.future
  once := h.once

theorem AuditTrue.restarted (h : AuditTrue platform past s) (config : ApiConfig) :
    AuditTrue platform past { s with
      config := config, requests := s.requests.map Handling.restart } := by
  have hsplit : ∀ {i : Nat} {other : Handling},
      (s.requests.map Handling.restart)[i]? = some other →
      ∃ handling, s.requests[i]? = some handling ∧ handling.restart = other := by
    intro i other hother
    rw [List.getElem?_map] at hother
    exact Option.map_eq_some_iff.mp hother
  refine ⟨h.sound.restarted config, ?_, h.hashed, ?_, ?_, h.once⟩
  · intro i other hother row hrow hid
    obtain ⟨handling, hhandling, rfl⟩ := hsplit hother
    rw [Handling.restart_request] at hid ⊢
    obtain ⟨htruthful, hknown⟩ := h.rows i handling hhandling row hrow hid
    exact ⟨htruthful, hknown.restart config⟩
  · intro i other hother hbefore
    obtain ⟨handling, -, rfl⟩ := hsplit hother
    rw [Handling.restart_before] at hbefore
    cases hbefore
  · intro i hi
    exact h.future i (by simpa using hi)

theorem AuditTrue.step {label : ApiLabel} (h : AuditTrue platform past s)
    (hstep : s.step platform label = some t) :
    AuditTrue platform (past ++ s.publications label) t := by
  cases label with
  | act index action =>
      simp only [Api.step] at hstep
      split at hstep
      · cases hstep
      · next handling hhandling =>
        obtain ⟨⟨next, after⟩, hact, rfl⟩ := Option.map_eq_some_iff.mp hstep
        exact h.acted hhandling hact
  | receive request =>
      have hreceived := hstep
      simp only [Api.step] at hstep
      split at hstep
      · cases hstep
      · cases hstep
        simpa [Api.publications] using h.received hreceived
  | other job now =>
      have hsound := h.sound.step hstep
      generalize hevents : s.observe platform (.other job now) = events
      have hmove := Api.step_move hstep
      rw [hevents] at hmove
      simp only [Api.publications, List.append_nil]
      cases hmove with
      | others _ _ after hsame => exact h.cleaned hsound fun row hrow => hsame ▸ hrow
      | cleaned _ _ _ after hsub _ => exact h.cleaned hsound hsub
  | restart config =>
      cases hstep
      simpa [Api.publications] using h.restarted config

end

end EdgeBridge
