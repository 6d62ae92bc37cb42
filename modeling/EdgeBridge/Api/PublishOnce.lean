import EdgeBridge.Api.AuditRows
import EdgeBridge.Payload

/-!
# One publish for each key

A key is held by the audit row that was inserted for it.  Two requests with one key
publish both only if a cleanup has deleted the row of the first in between.
-/

namespace EdgeBridge

open Foundation

/-! ## What the stages allow -/

/-- Past `publish_plc_command`, or finished. -/
def Stage.settled : Stage → Bool
  | .marking _ => true
  | .storing _ => true
  | .answered _ => true
  | .raised _ => true
  | .dropped => true
  | _ => false

/-- After a duplicate was found, or the `INSERT` failed. -/
def Stage.barred : Stage → Bool
  | .rechecking _ => true
  | .answered _ => true
  | .raised _ => true
  | .dropped => true
  | _ => false

/-- After the `INSERT` of a command and before its publish. -/
def Stage.reserved : Stage → Bool
  | .refreshing _ => true
  | .publishing _ => true
  | _ => false

section

variable {platform : Platform} {config : ApiConfig} {request : PlcRequest} {index : Nat}
  {db after : Database} {before next : Stage} {events : List ApiEvent}

theorem StageMove.settled
    (h : StageMove platform config request index db before next after events)
    (hsettled : before.settled = true) : next.settled = true := by
  cases h with
  | duplicate _ _ _ => rfl
  | raised _ _ _ _ _ => rfl
  | marked _ _ _ _ => rfl
  | stored outcome body after next _ _ hnext =>
      rcases hnext with ⟨response, -, rfl⟩ | ⟨error, rfl⟩
      · rfl
      · rfl
  | _ => cases hsettled

theorem StageMove.barred
    (h : StageMove platform config request index db before next after events)
    (hbarred : before.barred = true) : next.barred = true := by
  cases h with
  | duplicate _ _ _ => rfl
  | raised _ _ _ _ _ => rfl
  | _ => cases hbarred

theorem StageMove.reserved
    (h : StageMove platform config request index db before next after events)
    (hreserved : next.reserved = true) :
    before.reserved = true ∨ events = [.inserted index] := by
  cases h with
  | commandInserted _ _ _ _ => exact .inr rfl
  | refreshed _ _ _ => exact .inl rfl
  | stored outcome body after next _ _ hnext =>
      rcases hnext with ⟨response, -, rfl⟩ | ⟨error, rfl⟩
      · cases hreserved
      · cases hreserved
  | _ => cases hreserved

theorem StageMove.published_event
    (h : StageMove platform config request index db before next after events) {j : Nat}
    (hmem : .published j ∈ events) :
    j = index ∧ before.reserved = true ∧ next.settled = true ∧
      events = [.published index] := by
  cases h with
  | published command outcome =>
      simp only [List.mem_singleton, ApiEvent.published.injEq] at hmem
      exact ⟨hmem, rfl, rfl, rfl⟩
  | raised _ _ _ _ hevents =>
      rcases hevents with rfl | ⟨-, rfl | rfl⟩
      · cases hmem
      · simp at hmem
      · simp at hmem
  | _ => simp at hmem

theorem StageMove.barred_event
    (h : StageMove platform config request index db before next after events) {j : Nat}
    (hmem : .found j ∈ events ∨ .conflicted j ∈ events) :
    j = index ∧ before.early = true ∧ next.barred = true := by
  cases h with
  | conflicted command =>
      simp only [List.mem_singleton, ApiEvent.conflicted.injEq, reduceCtorEq,
        false_or] at hmem
      exact ⟨hmem, rfl, rfl⟩
  | duplicate _ response hearly =>
      simp only [List.mem_singleton, ApiEvent.found.injEq, reduceCtorEq,
        or_false] at hmem
      exact ⟨hmem, hearly, rfl⟩
  | raised _ error _ _ hevents =>
      rcases hevents with rfl | ⟨hearly, rfl | rfl⟩
      · simp at hmem
      · simp only [List.mem_singleton, ApiEvent.found.injEq, reduceCtorEq,
          or_false] at hmem
        exact ⟨hmem, hearly, rfl⟩
      · simp only [List.mem_singleton, ApiEvent.conflicted.injEq, reduceCtorEq,
          false_or] at hmem
        exact ⟨hmem, hearly, rfl⟩
  | _ => simp at hmem

theorem StageMove.inserted_event
    (h : StageMove platform config request index db before next after events) {j : Nat}
    (hmem : .inserted j ∈ events) :
    j = index ∧ events = [.inserted index] ∧
      ∀ key, request.idempotencyKey = some key →
        ∀ row ∈ db.apiCommands.rows, row.idempotencyKey ≠ some key := by
  have hfree : ∀ {payload : Text} {now : Datetime} {after : Database},
      createApiCommandRecord platform (request.arguments config payload) now db =
        .ok after →
      ∀ key, request.idempotencyKey = some key →
        ∀ row ∈ db.apiCommands.rows, row.idempotencyKey ≠ some key := by
    intro payload now after hinsert key hkey row hrow hsame
    have harguments : (request.arguments config payload).idempotencyKey = some key := hkey
    rcases createApiCommandRecord_of_taken platform harguments now hrow hsame with
      ⟨error, herror⟩
    rw [herror] at hinsert
    cases hinsert
  cases h with
  | rejectionInserted rejection now after hinsert =>
      simp only [List.mem_singleton, ApiEvent.inserted.injEq] at hmem
      exact ⟨hmem, rfl, hfree hinsert⟩
  | commandInserted command now after hinsert =>
      simp only [List.mem_singleton, ApiEvent.inserted.injEq] at hmem
      exact ⟨hmem, rfl, hfree hinsert⟩
  | raised _ _ _ _ hevents =>
      rcases hevents with rfl | ⟨-, rfl | rfl⟩
      · cases hmem
      · simp at hmem
      · simp at hmem
  | _ => simp at hmem

end

/-! ## One step of the system -/

def ApiEvent.isCleanup : ApiEvent → Bool
  | .cleaned _ _ _ => true
  | _ => false

/-- The row has a terminal status, and was received before the retention began. -/
def ApiCommandRecord.Expired (retentionDays : Int) (now : Datetime)
    (row : ApiCommandRecord) : Prop :=
  row.status.isTerminal = true ∧ ∃ received cutoff : Datetime,
    row.receivedAt = formatTimestamp received ∧
    now.shift (-(retentionDays * 86400)) = .ok cutoff ∧
    received.truncate.micro < cutoff.micro

/-- A stored time that is before a cutoff as text is before it as an instant. -/
theorem ApiCommandRecord.Deletable.expired {retentionDays : Int} {now : Datetime}
    {row : ApiCommandRecord} (h : row.Deletable retentionDays now) {received : Datetime}
    (hreceived : row.receivedAt = formatTimestamp received) :
    row.Expired retentionDays now := by
  rcases h with ⟨hterminal, cutoff, hshift, hlt⟩
  refine ⟨hterminal, received, cutoff, hreceived, hshift, ?_⟩
  rw [hreceived] at hlt
  have hsecond : received.second < cutoff.second := Datetime.isoformat_lt_iff.mp hlt
  simp only [Datetime.truncate, Datetime.ofSecond]
  simp only [Datetime.second] at hsecond ⊢
  omega

/-- A cleanup among the events deleted the row of a request. -/
def CleanedIn (events : List ApiEvent) (requestId : Text) : Prop :=
  ∃ retentionDays now deleted, .cleaned retentionDays now deleted ∈ events ∧
    ∃ row ∈ deleted, row.requestId = requestId ∧ row.Expired retentionDays now

theorem CleanedIn.mono {events more : List ApiEvent} {requestId : Text}
    (h : CleanedIn events requestId) (hmem : ∀ e ∈ events, e ∈ more) :
    CleanedIn more requestId := by
  rcases h with ⟨retentionDays, now, deleted, hcleaned, hrow⟩
  exact ⟨retentionDays, now, deleted, hmem _ hcleaned, hrow⟩

section

variable {platform : Platform} {s t : Api} {label : ApiLabel}

/-- A request keeps its data, and does not come back to a publish. -/
theorem request_step (hstep : s.step platform label = some t) {j : Nat}
    {handling : Handling} (h : s.requests[j]? = some handling) :
    ∃ next, t.requests[j]? = some next ∧ next.request = handling.request ∧
      (handling.stage.settled = true → next.stage.settled = true) ∧
      (handling.stage.barred = true → next.stage.barred = true) := by
  rcases handling_after hstep h with
    hsame | ⟨action, stage, -, hnext, hstage⟩ | ⟨config, -, hnext⟩
  · exact ⟨handling, hsame, rfl, id, id⟩
  · exact ⟨⟨handling.request, stage⟩, hnext, rfl, hstage.settled, hstage.barred⟩
  · refine ⟨handling.restart, hnext, ?_, ?_, ?_⟩
    · unfold Handling.restart
      split
      · rfl
      · rfl
    · intro hsettled
      unfold Handling.restart
      split
      · exact hsettled
      · rfl
    · intro hbarred
      unfold Handling.restart
      split
      · exact hbarred
      · rfl

/-- A command is reserved before the step, or by an `INSERT` in it. -/
theorem reserved_step (hstep : s.step platform label = some t) {j : Nat} {next : Handling}
    (h : t.requests[j]? = some next) (hreserved : next.stage.reserved = true) :
    ∃ handling, s.requests[j]? = some handling ∧ handling.request = next.request ∧
      (handling.stage.reserved = true ∨ s.observe platform label = [.inserted j]) := by
  rcases handling_before hstep h with hsame | ⟨request, -, rfl⟩ |
    ⟨action, acting, -, hacting, hrequest, hstage⟩ | ⟨config, handling, -, hhandling, rfl⟩
  · exact ⟨next, hsame, rfl, .inl hreserved⟩
  · unfold Stage.ofAdmission at hreserved
    split at hreserved
    · cases hreserved
    · cases hreserved
    · cases hreserved
  · exact ⟨acting, hacting, hrequest.symm, hstage.reserved hreserved⟩
  · unfold Handling.restart at hreserved ⊢
    split at hreserved
    · next hfinished =>
      rw [if_pos hfinished]
      exact ⟨handling, hhandling, rfl, .inl hreserved⟩
    · cases hreserved

/-- A row as long as it stays. -/
structure SameRow (row next : ApiCommandRecord) : Prop where
  id : next.id = row.id
  requestId : next.requestId = row.requestId
  receivedAt : next.receivedAt = row.receivedAt

/-- A row stays, or a cleanup that is allowed to delete it is shown. -/
theorem row_step (hrows : RowsSound s) (hstep : s.step platform label = some t)
    {row : ApiCommandRecord} (hrow : row ∈ s.db.apiCommands.rows) :
    (∃ next ∈ t.db.apiCommands.rows, SameRow row next) ∨
      t.db.apiCommands.byId row.id = none ∧
        CleanedIn (s.observe platform label) row.requestId := by
  generalize hevents : s.observe platform label = events
  have hmove := Api.step_move hstep
  rw [hevents] at hmove
  have hupdate : ∀ {requestId : Text} {bindings : List Binding}
      {change : Table.Update ApiCommandRecord} {after : Database},
      (∀ row, (change row).receivedAt = row.receivedAt) →
      updateCommand requestId bindings change s.db = .ok after →
      ∃ next ∈ after.apiCommands.rows, SameRow row next := by
    intro requestId bindings change after htime hok
    rw [updateCommand_eq_ok hok]
    refine ⟨_, List.mem_map.mpr ⟨row, hrow, rfl⟩, ?_⟩
    split
    · exact ⟨change.rowId_apply row, congrArg Prod.fst (change.key_apply row), htime row⟩
    · exact ⟨rfl, rfl, rfl⟩
  have hinsert : ∀ {arguments : CommandArguments} {now : Datetime} {after : Database},
      createApiCommandRecord platform arguments now s.db = .ok after →
      ∃ next ∈ after.apiCommands.rows, SameRow row next := by
    intro arguments now after hok
    have hadded := (Table.insert_eq_some_iff.mp (createApiCommandRecord_eq_ok hok).1).2.1
    exact ⟨row, hadded ▸ List.mem_append_left _ hrow, rfl, rfl, rfl⟩
  cases hmove with
  | acted index action acting stage after events hacting hstage =>
      left
      generalize acting.stage = before at hstage
      cases hstage with
      | rejectionInserted rejection now after hok => exact hinsert hok
      | commandInserted command now after hok => exact hinsert hok
      | marked outcome now after hok => exact hupdate (fun _ => rfl) hok
      | stored outcome body after next hdumps hok hnext => exact hupdate (fun _ => rfl) hok
      | _ => exact ⟨row, hrow, rfl, rfl, rfl⟩
  | others job now after hsame =>
      left
      exact ⟨row, by rw [hsame]; exact hrow, rfl, rfl, rfl⟩
  | cleaned retentionDays batchSize now after hsub hkept =>
      cases hfound : after.apiCommands.byId row.id with
      | some other =>
          left
          have hother := Table.mem_of_byId hfound
          have hid : other.id = row.id := Table.rowId_of_byId hfound
          have hsame : other = row := Table.eq_of_rowId_eq (hsub other hother) hrow hid
          subst hsame
          exact ⟨other, hother, rfl, rfl, rfl⟩
      | none =>
          right
          refine ⟨rfl, retentionDays, now, _, List.mem_singleton_self _, row, ?_, rfl, ?_⟩
          · exact List.mem_filter.mpr ⟨hrow, by rw [hfound]; rfl⟩
          · rcases hkept row hrow with hstays | hdeletable
            · have hthere : after.apiCommands.byId row.id = some row :=
                Table.byId_rowId hstays
              rw [hfound] at hthere
              cases hthere
            · rcases hrows.timed row hrow with ⟨received, hreceived⟩
              exact hdeletable.expired hreceived
  | _ => exact .inl ⟨row, hrow, rfl, rfl, rfl⟩

theorem stageMove_of_event (hstep : s.step platform label = some t) {e : ApiEvent}
    (hmem : e ∈ s.observe platform label) (hown : e.isCleanup = false) :
    ∃ index handling next, s.requests[index]? = some handling ∧
      t.requests[index]? = some next ∧
      StageMove platform s.config handling.request index s.db handling.stage next.stage
        t.db (s.observe platform label) := by
  generalize hevents : s.observe platform label = events at hmem ⊢
  have hmove := Api.step_move hstep
  rw [hevents] at hmove
  cases hmove with
  | acted index action acting stage after events hacting hstage =>
      exact ⟨index, acting, ⟨acting.request, stage⟩, hacting,
        by rw [moved_requests hacting, if_pos rfl], hstage⟩
  | cleaned retentionDays batchSize now after hsub hkept =>
      rw [List.mem_singleton.mp hmem] at hown
      cases hown
  | _ => cases hmem

end

/-! ## The invariant -/

/-- After its publish, the row of a request was deleted by a cleanup. -/
def DeletedAfter (past : List ApiEvent) (i : Nat) (requestId : Text) : Prop :=
  ∃ before after, past = before ++ .published i :: after ∧ CleanedIn after requestId

/-- Between the publish of the first request and the `INSERT` of the second, a cleanup
deleted the row of the first. -/
def Fenced (past : List ApiEvent) (i j : Nat) (requestId : Text) : Prop :=
  ∃ before between after,
    past = before ++ .published i :: between ++ .inserted j :: after ∧
      CleanedIn between requestId

theorem DeletedAfter.append {past : List ApiEvent} {i : Nat} {requestId : Text}
    (h : DeletedAfter past i requestId) (events : List ApiEvent) :
    DeletedAfter (past ++ events) i requestId := by
  rcases h with ⟨before, after, rfl, hcleaned⟩
  refine ⟨before, after ++ events, by simp, ?_⟩
  exact hcleaned.mono fun e he => List.mem_append_left _ he

theorem Fenced.append {past : List ApiEvent} {i j : Nat} {requestId : Text}
    (h : Fenced past i j requestId) (events : List ApiEvent) :
    Fenced (past ++ events) i j requestId := by
  rcases h with ⟨before, between, after, rfl, hcleaned⟩
  exact ⟨before, between, after ++ events, by simp, hcleaned⟩

theorem DeletedAfter.fenced {past : List ApiEvent} {i : Nat} {requestId : Text}
    (h : DeletedAfter past i requestId) (j : Nat) :
    Fenced (past ++ [.inserted j]) i j requestId := by
  rcases h with ⟨before, after, rfl, hcleaned⟩
  exact ⟨before, after, [], rfl, hcleaned⟩

structure PublishedOnce (past : List ApiEvent) (s : Api) : Prop where
  settled : ∀ i, .published i ∈ past →
    ∃ handling, s.requests[i]? = some handling ∧ handling.stage.settled = true
  barred : ∀ i, .found i ∈ past ∨ .conflicted i ∈ past →
    (∃ handling, s.requests[i]? = some handling ∧ handling.stage.barred = true) ∧
      .published i ∉ past
  alive : ∀ i handling, .published i ∈ past → s.requests[i]? = some handling →
    (∃ row ∈ s.db.apiCommands.rows, row.requestId = handling.request.requestId) ∨
      DeletedAfter past i handling.request.requestId
  fenced : ∀ i j first second key, .published i ∈ past → i ≠ j →
    s.requests[i]? = some first → s.requests[j]? = some second →
    second.stage.reserved = true → first.request.idempotencyKey = some key →
    second.request.idempotencyKey = some key → Fenced past i j first.request.requestId
  once : ∀ before after i j first second key, past = before ++ .published j :: after →
    .published i ∈ before → i ≠ j →
    s.requests[i]? = some first → s.requests[j]? = some second →
    first.request.idempotencyKey = some key → second.request.idempotencyKey = some key →
    Fenced before i j first.request.requestId

theorem publishedOnce_init (config : ApiConfig) :
    PublishedOnce [] ⟨config, .empty, []⟩ where
  settled := by
    intro i hmem
    cases hmem
  barred := by
    intro i hmem
    rcases hmem with hmem | hmem
    · cases hmem
    · cases hmem
  alive := by
    intro i handling hmem
    cases hmem
  fenced := by
    intro i j first second key hmem
    cases hmem
  once := by
    intro before after i j first second key hpast
    simp at hpast

theorem Stage.not_reserved_of_early {stage : Stage} (h : stage.early = true) :
    stage.reserved = false := by
  cases stage with
  | refreshing _ => cases h
  | publishing _ => cases h
  | _ => rfl

theorem Stage.not_reserved_of_barred {stage : Stage} (h : stage.barred = true) :
    stage.reserved = false := by
  cases stage with
  | refreshing _ => cases h
  | publishing _ => cases h
  | _ => rfl

theorem Stage.not_early_of_settled {stage : Stage} (h : stage.settled = true) :
    stage.early = false := by
  cases stage with
  | marking _ => rfl
  | storing _ => rfl
  | answered _ => rfl
  | raised _ => rfl
  | dropped => rfl
  | _ => cases h

theorem Stage.holding_of_reserved {stage : Stage} (h : stage.reserved = true) :
    stage.holding = true := by
  cases stage with
  | refreshing _ => rfl
  | publishing _ => rfl
  | _ => cases h

/-- Two requests with one key do not hold rows at once. -/
theorem RowsSound.exclusive {s : Api} (h : RowsSound s) {i j : Nat}
    {first second : Handling} {key : Text} (hi : s.requests[i]? = some first)
    (hj : s.requests[j]? = some second) (hfirst : first.stage.holding = true)
    (hsecond : second.stage.holding = true)
    (hfirstKey : first.request.idempotencyKey = some key)
    (hsecondKey : second.request.idempotencyKey = some key) : i = j := by
  rcases h.kept i first hi hfirst with ⟨row, hrow, hid⟩
  rcases h.kept j second hj hsecond with ⟨other, hother, hotherId⟩
  have hrowKey := (h.fits i first hi row hrow hid).1.trans hfirstKey
  have hotherKey := (h.fits j second hj other hother hotherId).1.trans hsecondKey
  have hsame := command_unique_of_key hrow hother hrowKey hotherKey
  apply h.distinct i j first second hi hj
  rw [← hid, ← hotherId, hsame]

theorem published_step {platform : Platform} {s t : Api} {label : ApiLabel}
    (hstep : s.step platform label = some t) {j : Nat}
    (hmem : .published j ∈ s.observe platform label) :
    s.observe platform label = [.published j] ∧
      ∃ handling next, s.requests[j]? = some handling ∧ t.requests[j]? = some next ∧
        handling.stage.reserved = true ∧ next.stage.settled = true := by
  rcases stageMove_of_event hstep hmem rfl with
    ⟨index, handling, next, hhandling, hnext, hmove⟩
  rcases hmove.published_event hmem with ⟨rfl, hreserved, hsettled, hevents⟩
  exact ⟨hevents, handling, next, hhandling, hnext, hreserved, hsettled⟩

theorem barred_step {platform : Platform} {s t : Api} {label : ApiLabel}
    (hstep : s.step platform label = some t) {j : Nat}
    (hmem : .found j ∈ s.observe platform label ∨
      .conflicted j ∈ s.observe platform label) :
    ∃ handling next, s.requests[j]? = some handling ∧ t.requests[j]? = some next ∧
      handling.stage.early = true ∧ next.stage.barred = true := by
  have hmove : ∃ index handling next, s.requests[index]? = some handling ∧
      t.requests[index]? = some next ∧
      StageMove platform s.config handling.request index s.db handling.stage next.stage
        t.db (s.observe platform label) := by
    rcases hmem with hfound | hconflicted
    · exact stageMove_of_event hstep hfound rfl
    · exact stageMove_of_event hstep hconflicted rfl
  rcases hmove with ⟨index, handling, next, hhandling, hnext, hmove⟩
  rcases hmove.barred_event hmem with ⟨rfl, hearly, hbarred⟩
  exact ⟨handling, next, hhandling, hnext, hearly, hbarred⟩

theorem inserted_step {platform : Platform} {s t : Api} {label : ApiLabel}
    (hstep : s.step platform label = some t) {j : Nat}
    (hmem : .inserted j ∈ s.observe platform label) {handling : Handling}
    (hhandling : s.requests[j]? = some handling) {key : Text}
    (hkey : handling.request.idempotencyKey = some key) :
    ∀ row ∈ s.db.apiCommands.rows, row.idempotencyKey ≠ some key := by
  rcases stageMove_of_event hstep hmem rfl with ⟨index, acting, next, hacting, -, hmove⟩
  rcases hmove.inserted_event hmem with ⟨rfl, -, hfree⟩
  rw [hhandling] at hacting
  cases hacting
  exact hfree key hkey

/-! ## Every step keeps it -/

section

variable {platform : Platform} {past : List ApiEvent} {s t : Api} {label : ApiLabel}

theorem PublishedOnce.before (h : PublishedOnce past s)
    (hstep : s.step platform label = some t) {i : Nat} {next : Handling}
    (hmem : .published i ∈ past) (hnext : t.requests[i]? = some next) :
    ∃ handling, s.requests[i]? = some handling ∧ next.request = handling.request := by
  rcases h.settled i hmem with ⟨handling, hhandling, -⟩
  rcases request_step hstep hhandling with ⟨other, hother, hrequest, -⟩
  rw [hnext] at hother
  cases hother
  exact ⟨handling, hhandling, hrequest⟩

theorem PublishedOnce.settled_step (h : PublishedOnce past s)
    (hstep : s.step platform label = some t) (i : Nat)
    (hmem : .published i ∈ past ++ s.observe platform label) :
    ∃ handling, t.requests[i]? = some handling ∧ handling.stage.settled = true := by
  rcases List.mem_append.mp hmem with hold | hnew
  · rcases h.settled i hold with ⟨handling, hhandling, hsettled⟩
    rcases request_step hstep hhandling with ⟨next, hnext, -, hkeeps, -⟩
    exact ⟨next, hnext, hkeeps hsettled⟩
  · rcases published_step hstep hnew with ⟨-, handling, next, -, hnext, -, hsettled⟩
    exact ⟨next, hnext, hsettled⟩

theorem PublishedOnce.barred_step (h : PublishedOnce past s)
    (hstep : s.step platform label = some t) (i : Nat)
    (hmem : .found i ∈ past ++ s.observe platform label ∨
      .conflicted i ∈ past ++ s.observe platform label) :
    (∃ handling, t.requests[i]? = some handling ∧ handling.stage.barred = true) ∧
      .published i ∉ past ++ s.observe platform label := by
  have hsplit : (.found i ∈ past ∨ .conflicted i ∈ past) ∨
      (.found i ∈ s.observe platform label ∨
        .conflicted i ∈ s.observe platform label) := by
    rcases hmem with hfound | hconflicted
    · exact (List.mem_append.mp hfound).imp .inl .inl
    · exact (List.mem_append.mp hconflicted).imp .inr .inr
  rcases hsplit with hold | hnew
  · rcases h.barred i hold with ⟨⟨handling, hhandling, hbarred⟩, hnever⟩
    rcases request_step hstep hhandling with ⟨next, hnext, -, -, hkeeps⟩
    refine ⟨⟨next, hnext, hkeeps hbarred⟩, ?_⟩
    intro hpublished
    rcases List.mem_append.mp hpublished with hbefore | hnow
    · exact hnever hbefore
    · rcases published_step hstep hnow with ⟨-, other, -, hother, -, hreserved, -⟩
      rw [hhandling] at hother
      cases hother
      rw [Stage.not_reserved_of_barred hbarred] at hreserved
      cases hreserved
  · rcases EdgeBridge.barred_step hstep hnew with
      ⟨handling, next, hhandling, hnext, hearly, hbarred⟩
    refine ⟨⟨next, hnext, hbarred⟩, ?_⟩
    intro hpublished
    rcases List.mem_append.mp hpublished with hbefore | hnow
    · rcases h.settled i hbefore with ⟨other, hother, hsettled⟩
      rw [hhandling] at hother
      cases hother
      rw [Stage.not_early_of_settled hsettled] at hearly
      cases hearly
    · rcases published_step hstep hnow with ⟨-, other, -, hother, -, hreserved, -⟩
      rw [hhandling] at hother
      cases hother
      rw [Stage.not_reserved_of_early hearly] at hreserved
      cases hreserved

theorem PublishedOnce.alive_step (h : PublishedOnce past s) (hrows : RowsSound s)
    (hstep : s.step platform label = some t) (i : Nat) (next : Handling)
    (hmem : .published i ∈ past ++ s.observe platform label)
    (hnext : t.requests[i]? = some next) :
    (∃ row ∈ t.db.apiCommands.rows, row.requestId = next.request.requestId) ∨
      DeletedAfter (past ++ s.observe platform label) i next.request.requestId := by
  rcases List.mem_append.mp hmem with hold | hnew
  · rcases h.before hstep hold hnext with ⟨handling, hhandling, hrequest⟩
    rw [hrequest]
    rcases h.alive i handling hold hhandling with ⟨row, hrow, hid⟩ | hdeleted
    · rw [← hid]
      rcases row_step hrows hstep hrow with ⟨kept, hkept, hsame⟩ | ⟨-, hcleaned⟩
      · exact .inl ⟨kept, hkept, hsame.requestId⟩
      · right
        rcases List.append_of_mem hold with ⟨before, after, rfl⟩
        refine ⟨before, after ++ s.observe platform label, by simp, ?_⟩
        exact hcleaned.mono fun e he => List.mem_append_right _ he
    · exact .inr (hdeleted.append _)
  · left
    rcases published_step hstep hnew with
      ⟨hevents, handling, other, hhandling, hother, hreserved, -⟩
    rw [hnext] at hother
    cases hother
    rcases request_step hstep hhandling with ⟨other, hother, hrequest, -⟩
    rw [hnext] at hother
    cases hother
    rcases hrows.kept i handling hhandling (Stage.holding_of_reserved hreserved) with
      ⟨row, hrow, hid⟩
    rcases row_step hrows hstep hrow with ⟨kept, hkept, hsame⟩ | ⟨-, hcleaned⟩
    · exact ⟨kept, hkept, by rw [hsame.requestId, hid, hrequest]⟩
    · rcases hcleaned with ⟨retentionDays, now, deleted, hcleaned, -⟩
      rw [hevents] at hcleaned
      simp at hcleaned

theorem PublishedOnce.fenced_step (h : PublishedOnce past s) (hrows : RowsSound s)
    (hstep : s.step platform label = some t) (i j : Nat) (first second : Handling)
    (key : Text) (hmem : .published i ∈ past ++ s.observe platform label) (hne : i ≠ j)
    (hfirst : t.requests[i]? = some first) (hsecond : t.requests[j]? = some second)
    (hreserved : second.stage.reserved = true)
    (hfirstKey : first.request.idempotencyKey = some key)
    (hsecondKey : second.request.idempotencyKey = some key) :
    Fenced (past ++ s.observe platform label) i j first.request.requestId := by
  rcases reserved_step hstep hsecond hreserved with
    ⟨before, hbefore, hrequest, hwas⟩
  rw [← hrequest] at hsecondKey
  rcases List.mem_append.mp hmem with hold | hnew
  · rcases h.before hstep hold hfirst with ⟨handling, hhandling, hsame⟩
    rw [hsame] at hfirstKey ⊢
    rcases hwas with hreservedBefore | hinserted
    · exact (h.fenced i j handling before key hold hne hhandling hbefore hreservedBefore
        hfirstKey hsecondKey).append _
    · rcases h.alive i handling hold hhandling with ⟨row, hrow, hid⟩ | hdeleted
      · have hkey := (hrows.fits i handling hhandling row hrow hid).1.trans hfirstKey
        have hfree := inserted_step hstep (by rw [hinserted]; exact List.mem_cons_self)
          hbefore hsecondKey
        exact absurd hkey (hfree row hrow)
      · rw [hinserted]
        exact hdeleted.fenced j
  · exfalso
    rcases published_step hstep hnew with
      ⟨hevents, handling, -, hhandling, -, hpublishing, -⟩
    rcases request_step hstep hhandling with ⟨next, hnext, hsame, -⟩
    rw [hfirst] at hnext
    cases hnext
    rw [hsame] at hfirstKey
    rcases hwas with hreservedBefore | hinserted
    · exact hne (hrows.exclusive hhandling hbefore
        (Stage.holding_of_reserved hpublishing) (Stage.holding_of_reserved hreservedBefore)
        hfirstKey hsecondKey)
    · rw [hevents] at hinserted
      simp at hinserted

theorem PublishedOnce.once_step (h : PublishedOnce past s)
    (hstep : s.step platform label = some t) (before after : List ApiEvent) (i j : Nat)
    (first second : Handling) (key : Text)
    (hpast : past ++ s.observe platform label = before ++ .published j :: after)
    (hmem : .published i ∈ before) (hne : i ≠ j) (hfirst : t.requests[i]? = some first)
    (hsecond : t.requests[j]? = some second)
    (hfirstKey : first.request.idempotencyKey = some key)
    (hsecondKey : second.request.idempotencyKey = some key) :
    Fenced before i j first.request.requestId := by
  have hold : ∀ front : List ApiEvent, before = past ++ front →
      s.observe platform label = front ++ .published j :: after →
      Fenced before i j first.request.requestId := by
    intro front hfront hevents
    have hnew : .published j ∈ s.observe platform label := by simp [hevents]
    rcases published_step hstep hnew with
      ⟨hsingle, handling, -, hhandling, -, hreserved, -⟩
    rw [hsingle] at hevents
    have hempty : front = [] := by
      cases front with
      | nil => rfl
      | cons e front => simp at hevents
    rw [hempty, List.append_nil] at hfront
    rw [hfront] at hmem ⊢
    rcases h.before hstep hmem hfirst with ⟨publisher, hpublisher, hsame⟩
    rcases request_step hstep hhandling with ⟨next, hnext, hrequest, -⟩
    rw [hsecond] at hnext
    cases hnext
    rw [hsame] at hfirstKey ⊢
    rw [hrequest] at hsecondKey
    exact h.fenced i j publisher handling key hmem hne hpublisher hhandling hreserved
      hfirstKey hsecondKey
  rcases List.append_eq_append_iff.mp hpast with
    ⟨front, hfront, hevents⟩ | ⟨rest, hrest, hevents⟩
  · exact hold front hfront hevents
  · cases rest with
    | nil => exact hold [] (by simpa using hrest.symm) (by simpa using hevents.symm)
    | cons e rest =>
        rw [List.cons_append, List.cons.injEq] at hevents
        rcases hevents with ⟨rfl, -⟩
        have hsecondMem : .published j ∈ past := by simp [hrest]
        have hfirstMem : .published i ∈ past := by simp [hrest, hmem]
        rcases h.before hstep hfirstMem hfirst with ⟨publisher, hpublisher, hsame⟩
        rcases h.before hstep hsecondMem hsecond with ⟨other, hother, hsame'⟩
        rw [hsame] at hfirstKey ⊢
        rw [hsame'] at hsecondKey
        exact h.once before rest i j publisher other key hrest hmem hne hpublisher hother
          hfirstKey hsecondKey

end

theorem api_publishedOnce {platform : Platform} {config : ApiConfig}
    {past : List ApiEvent} {s : Api}
    (ran : (apiSystem platform config).Ran (apiSystem platform config).init past s) :
    PublishedOnce past s := by
  refine (apiSystem platform config).trace_invariant ?_ ?_ ran
  · exact publishedOnce_init config
  · intro past m label t hran h hstep
    have hrows := api_rowsSound hran
    exact ⟨h.settled_step hstep, h.barred_step hstep, h.alive_step hrows hstep,
      h.fenced_step hrows hstep, h.once_step hstep⟩

/--
If two requests with one key both publish, a cleanup that was allowed to delete the row
of the first did so between this publish and the `INSERT` of the second.  A request that
finds its key inside the TTL, or cannot insert it, never publishes.
-/
theorem publish_once {platform : Platform} {config : ApiConfig} {past : List ApiEvent}
    {s : Api}
    (ran : (apiSystem platform config).Ran (apiSystem platform config).init past s) :
    (∀ before after i j first second key,
      past = before ++ .published j :: after → .published i ∈ before → i ≠ j →
      s.requests[i]? = some first → s.requests[j]? = some second →
      first.request.idempotencyKey = some key → second.request.idempotencyKey = some key →
      Fenced before i j first.request.requestId) ∧
    ∀ i, .found i ∈ past ∨ .conflicted i ∈ past → .published i ∉ past := by
  have h := api_publishedOnce ran
  exact ⟨h.once, fun i hmem => (h.barred i hmem).2⟩

/-! ## A key used again after a cleanup -/

def sampleApiConfig (ttlSeconds : Int) : ApiConfig where
  maxBodyBytes := 16384
  idempotencyTtlSeconds := ttlSeconds
  odooToPlcTopic := str "MQTT/ODOO_TO_PLC/topic"
  readyTopic := str "MQTT/ODOO_TO_PLC/topic"

def sampleRequest (requestId body : Text) : PlcRequest where
  requestId := requestId
  idempotencyKey := some (str "PRINTJOB-2960-T01")
  username := str "odoo"
  remoteAddress := none
  body := body.map UInt8.ofNat

def tableCommand : Text := str "\x7b\"T01\": \"P\"\x7d"

/-- A command is looked up, inserted and, after the refresh, ready to be published. -/
def prepares (index : Nat) (now : Datetime) : List ApiLabel :=
  [.act index (.transact now), .act index (.transact now),
    .act index (.refresh (str "READY") true (.answered 0 none))]

def publishes (index : Nat) : ApiLabel := .act index (.publish true (.answered 0 (some 12)))

/-- The publish is recorded and answered. -/
def answers (index : Nat) (now : Datetime) : List ApiLabel :=
  [.act index (.transact now), .act index (.transact now)]

/-- The row of the first request is cleaned up before the second uses the key. -/
def keyReused : List ApiLabel :=
  [.receive (sampleRequest (str "R1") tableCommand)] ++ prepares 0 noon ++ [publishes 0] ++
    answers 0 noon ++ [.other (.cleanup 0 100) (atNoon 10),
      .receive (sampleRequest (str "R2") tableCommand)] ++ prepares 1 (atNoon 20)

theorem publish_once_sample :
    ∃ s first, (apiSystem samplePlatform (sampleApiConfig 5)).exec
        (apiSystem samplePlatform (sampleApiConfig 5)).init (keyReused ++ [publishes 1]) =
          some s ∧ s.requests[0]? = some first ∧
      Fenced ((apiSystem samplePlatform (sampleApiConfig 5)).trace
        (apiSystem samplePlatform (sampleApiConfig 5)).init keyReused) 0 1
        first.request.requestId := by
  let system := apiSystem samplePlatform (sampleApiConfig 5)
  have hkeys : (system.exec system.init (keyReused ++ [publishes 1])).map
      (fun s => s.requests.map fun handling => handling.request.idempotencyKey) =
      some [some (str "PRINTJOB-2960-T01"), some (str "PRINTJOB-2960-T01")] := by
    decide +kernel
  have hlast : (system.exec system.init keyReused).map
      (fun m => m.observe samplePlatform (publishes 1)) = some [.published 1] := by
    decide +kernel
  have hfirst : .published 0 ∈ system.trace system.init keyReused := by decide +kernel
  rcases Option.map_eq_some_iff.mp hkeys with ⟨s, hs, hrequests⟩
  rcases system.exec_snoc_eq_some.mp hs with ⟨m, hm, hstep⟩
  rw [hm, Option.map_some, Option.some.injEq] at hlast
  have htrace := system.trace_snoc hm hstep
  rw [show system.observe m (publishes 1) = [.published 1] from hlast] at htrace
  rcases List.map_eq_cons_iff.mp hrequests with ⟨first, rest, hlist, hfirstKey, hrest⟩
  rcases List.map_eq_cons_iff.mp hrest with ⟨second, rest, rfl, hsecondKey, -⟩
  refine ⟨s, first, hs, by rw [hlist]; rfl, ?_⟩
  exact (publish_once ⟨_, hs, rfl⟩).1 _ [] 0 1 first second _ htrace hfirst (by decide)
    (by rw [hlist]; rfl) (by rw [hlist]; rfl) hfirstKey hsecondKey

end EdgeBridge
