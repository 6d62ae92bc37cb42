import EdgeBridge.Api.Runs

/-!
# Requests and their audit rows

Every audit row belongs to one request, and fits the stage of that request.  A row
stays at least until its request has marked it.
-/

namespace EdgeBridge

open Foundation

/-- After the `INSERT` and before the row is marked. -/
def Stage.holding : Stage → Bool
  | .refreshing _ => true
  | .publishing _ => true
  | .marking _ => true
  | _ => false

/-- What the row of a request looks like at each stage; before the `INSERT` there is
none, and a request that is answered as a duplicate has none. -/
def Stage.Fits (row : ApiCommandRecord) : Stage → Prop
  | .rejecting _ => False
  | .checking _ => False
  | .creating _ => False
  | .rechecking _ => False
  | .refreshing _ => row.status = .received
  | .publishing _ => row.status = .received
  | .marking _ => row.status = .received
  | .storing _ => True
  | .answered response => row.responseCode = some response.statusCode ∧
      ∃ body, row.responseBody = some body ∧ Json.loads body = .ok response.content
  | .raised _ => True
  | .dropped => True

theorem Stage.not_fits_of_early {stage : Stage} (h : stage.early = true)
    (row : ApiCommandRecord) : ¬ stage.Fits row := by
  cases stage with
  | rejecting _ => exact id
  | checking _ => exact id
  | creating _ => exact id
  | rechecking _ => exact id
  | _ => cases h

structure RowsSound (s : Api) : Prop where
  distinct : ∀ (i j : Nat) (first second : Handling), s.requests[i]? = some first →
    s.requests[j]? = some second →
    first.request.requestId = second.request.requestId → i = j
  owned : ∀ row ∈ s.db.apiCommands.rows, ∃ (i : Nat) (handling : Handling),
    s.requests[i]? = some handling ∧ row.requestId = handling.request.requestId
  fits : ∀ (i : Nat) (handling : Handling), s.requests[i]? = some handling →
    ∀ row ∈ s.db.apiCommands.rows, row.requestId = handling.request.requestId →
      row.idempotencyKey = handling.request.idempotencyKey ∧ handling.stage.Fits row
  kept : ∀ (i : Nat) (handling : Handling), s.requests[i]? = some handling →
    handling.stage.holding = true →
      ∃ row ∈ s.db.apiCommands.rows, row.requestId = handling.request.requestId
  timed : ∀ row ∈ s.db.apiCommands.rows, ∃ time, row.receivedAt = formatTimestamp time
  bound : ∀ row ∈ s.db.apiCommands.rows, bindableOptText row.idempotencyKey = true

theorem rowsSound_init (config : ApiConfig) : RowsSound ⟨config, .empty, []⟩ where
  distinct := by
    intro i j first second hfirst
    simp at hfirst
  owned := by
    intro row hrow
    cases hrow
  fits := by
    intro i handling hhandling
    simp at hhandling
  kept := by
    intro i handling hhandling
    simp at hhandling
  timed := by
    intro row hrow
    cases hrow
  bound := by
    intro row hrow
    cases hrow

/-! ## One request moves -/

/-- Only the request that acts changes its stage. -/
theorem moved_requests {s : Api} {index : Nat} {handling : Handling}
    (h : s.requests[index]? = some handling) (next : Stage × Database) (j : Nat) :
    (s.moved index handling.request next).requests[j]? =
      if j = index then some ⟨handling.request, next.1⟩ else s.requests[j]? := by
  have hlength := (List.getElem?_eq_some_iff.mp h).1
  simp only [Api.moved, List.getElem?_set]
  by_cases hj : j = index
  · subst hj
    simp [hlength]
  · simp [hj, Ne.symm hj]

theorem moved_handling {s : Api} {index : Nat} {handling : Handling}
    (h : s.requests[index]? = some handling) {next : Stage × Database} {j : Nat}
    {other : Handling}
    (hother : (s.moved index handling.request next).requests[j]? = some other) :
    (j = index ∧ other = ⟨handling.request, next.1⟩) ∨
      j ≠ index ∧ s.requests[j]? = some other := by
  rw [moved_requests h] at hother
  split at hother
  · next hj =>
    cases hother
    exact .inl ⟨hj, rfl⟩
  · next hj => exact .inr ⟨hj, hother⟩

theorem moved_same_request {s : Api} {index : Nat} {handling : Handling}
    (h : s.requests[index]? = some handling) {next : Stage × Database} {j : Nat}
    {other : Handling}
    (hother : (s.moved index handling.request next).requests[j]? = some other) :
    ∃ before, s.requests[j]? = some before ∧ before.request = other.request := by
  rcases moved_handling h hother with ⟨rfl, rfl⟩ | ⟨-, hold⟩
  · exact ⟨handling, h, rfl⟩
  · exact ⟨other, hold, rfl⟩

section

variable {platform : Platform} {s t : Api} {label : ApiLabel} {i : Nat}
  {handling next : Handling}

theorem handling_acted {action : Action} (hstep : s.step platform (.act i action) = some t)
    (h : s.requests[i]? = some handling) :
    ∃ stage, t.requests[i]? = some ⟨handling.request, stage⟩ ∧
      StageMove platform s.config handling.request i s.db handling.stage stage t.db
        (s.observe platform (.act i action)) := by
  generalize hevents : s.observe platform (.act i action) = events
  have hmove := Api.act_move hstep
  rw [hevents] at hmove
  cases hmove with
  | acted _ _ acting stage after _ hacting hstage =>
      rw [h] at hacting
      cases hacting
      exact ⟨stage, by rw [moved_requests h, if_pos rfl], hstage⟩

/-- A step leaves a request alone, is a step of the request, or restarts the process. -/
theorem handling_after (hstep : s.step platform label = some t)
    (h : s.requests[i]? = some handling) :
    t.requests[i]? = some handling ∨
      (∃ action stage, label = .act i action ∧
        t.requests[i]? = some ⟨handling.request, stage⟩ ∧
        StageMove platform s.config handling.request i s.db handling.stage stage t.db
          (s.observe platform label)) ∨
      ∃ config, label = .restart config ∧ t.requests[i]? = some handling.restart := by
  generalize hevents : s.observe platform label = events
  have hmove := Api.step_move hstep
  rw [hevents] at hmove
  cases hmove with
  | received request hfresh =>
      have hlength := (List.getElem?_eq_some_iff.mp h).1
      exact .inl ((List.getElem?_append_left hlength).trans h)
  | acted index action acting stage after events hacting hstage =>
      by_cases hi : i = index
      · subst hi
        rw [h] at hacting
        cases hacting
        exact .inr (.inl ⟨action, stage, rfl, by rw [moved_requests h, if_pos rfl], hstage⟩)
      · left
        rw [moved_requests hacting, if_neg hi]
        exact h
  | others job now after hsame => exact .inl h
  | cleaned retentionDays batchSize now after hsub hkept => exact .inl h
  | restarted config => exact .inr (.inr ⟨config, rfl, by simp [List.getElem?_map, h]⟩)

/-- A request that is there after a step was there before, or is received in it. -/
theorem handling_before (hstep : s.step platform label = some t)
    (h : t.requests[i]? = some next) :
    s.requests[i]? = some next ∨
      (∃ request, label = .receive request ∧
        next = ⟨request, .ofAdmission (admission s.config request)⟩) ∨
      (∃ action handling, label = .act i action ∧ s.requests[i]? = some handling ∧
        next.request = handling.request ∧
        StageMove platform s.config handling.request i s.db handling.stage next.stage t.db
          (s.observe platform label)) ∨
      ∃ config handling, label = .restart config ∧ s.requests[i]? = some handling ∧
        next = handling.restart := by
  generalize hevents : s.observe platform label = events
  have hmove := Api.step_move hstep
  rw [hevents] at hmove
  cases hmove with
  | received request hfresh =>
      simp only [List.getElem?_append] at h
      split at h
      · exact .inl h
      · rw [List.getElem?_singleton] at h
        split at h
        · cases h
          exact .inr (.inl ⟨request, rfl, rfl⟩)
        · cases h
  | acted index action acting stage after events hacting hstage =>
      rcases moved_handling hacting h with ⟨rfl, rfl⟩ | ⟨-, hold⟩
      · exact .inr (.inr (.inl ⟨action, acting, rfl, hacting, rfl, hstage⟩))
      · exact .inl hold
  | others job now after hsame => exact .inl h
  | cleaned retentionDays batchSize now after hsub hkept => exact .inl h
  | restarted config =>
      simp only [List.getElem?_map] at h
      rcases Option.map_eq_some_iff.mp h with ⟨handling, hhandling, rfl⟩
      exact .inr (.inr (.inr ⟨config, handling, rfl, hhandling, rfl⟩))

end

namespace RowsSound

variable {s : Api} {index : Nat} {handling : Handling}

theorem moved_distinct (h : RowsSound s) (hhandling : s.requests[index]? = some handling)
    (next : Stage × Database) (i j : Nat) (first second : Handling)
    (hi : (s.moved index handling.request next).requests[i]? = some first)
    (hj : (s.moved index handling.request next).requests[j]? = some second)
    (hsame : first.request.requestId = second.request.requestId) : i = j := by
  rcases moved_same_request hhandling hi with ⟨before, hbefore, hfirst⟩
  rcases moved_same_request hhandling hj with ⟨before', hbefore', hsecond⟩
  rw [← hfirst, ← hsecond] at hsame
  exact h.distinct i j before before' hbefore hbefore' hsame

theorem moved_owned (hhandling : s.requests[index]? = some handling)
    (next : Stage × Database) {row : ApiCommandRecord}
    (h : ∃ (i : Nat) (other : Handling), s.requests[i]? = some other ∧
      row.requestId = other.request.requestId) :
    ∃ (i : Nat) (other : Handling),
      (s.moved index handling.request next).requests[i]? = some other ∧
      row.requestId = other.request.requestId := by
  rcases h with ⟨i, other, hother, hid⟩
  by_cases hi : i = index
  · subst hi
    rw [hhandling] at hother
    cases hother
    exact ⟨i, ⟨handling.request, next.1⟩, by rw [moved_requests hhandling, if_pos rfl], hid⟩
  · exact ⟨i, other, by rw [moved_requests hhandling, if_neg hi, hother], hid⟩

/-- A step that writes nothing. -/
theorem quiet (h : RowsSound s) (hhandling : s.requests[index]? = some handling)
    {next : Stage}
    (hfits : ∀ row, handling.stage.Fits row → next.Fits row)
    (hholding : next.holding = true → handling.stage.holding = true) :
    RowsSound (s.moved index handling.request (next, s.db)) where
  distinct := h.moved_distinct hhandling _
  owned := fun row hrow => moved_owned hhandling _ (h.owned row hrow)
  fits := by
    intro j other hother row hrow hid
    rcases moved_handling hhandling hother with ⟨rfl, rfl⟩ | ⟨-, hold⟩
    · have hbefore := h.fits j handling hhandling row hrow hid
      exact ⟨hbefore.1, hfits row hbefore.2⟩
    · exact h.fits j other hold row hrow hid
  kept := by
    intro j other hother hheld
    rcases moved_handling hhandling hother with ⟨rfl, rfl⟩ | ⟨-, hold⟩
    · exact h.kept j handling hhandling (hholding hheld)
    · exact h.kept j other hold hheld
  timed := h.timed
  bound := h.bound

theorem inserted (h : RowsSound s) (hhandling : s.requests[index]? = some handling)
    (hearly : handling.stage.early = true) {platform : Platform} {payload : Text}
    {now : Datetime} {after : Database} {next : Stage}
    (hinsert : createApiCommandRecord platform
      (handling.request.arguments s.config payload) now s.db = .ok after)
    (hnext : ∀ row : ApiCommandRecord, row.status = .received → next.Fits row) :
    RowsSound (s.moved index handling.request (next, after)) := by
  have hrows := (Table.insert_eq_some_iff.mp
    (createApiCommandRecord_eq_ok hinsert).1).2.1
  have hsplit : ∀ {row : ApiCommandRecord}, row ∈ after.apiCommands.rows →
      row ∈ s.db.apiCommands.rows ∨ (row.requestId = handling.request.requestId ∧
        row.idempotencyKey = handling.request.idempotencyKey ∧ row.status = .received ∧
        row.receivedAt = formatTimestamp now) := by
    intro row hrow
    rw [hrows] at hrow
    rcases List.mem_append.mp hrow with hold | hnew
    · exact .inl hold
    · rw [List.mem_singleton.mp hnew]
      exact .inr ⟨rfl, rfl, rfl, rfl⟩
  have hnone : ∀ row ∈ s.db.apiCommands.rows,
      row.requestId ≠ handling.request.requestId := by
    intro row hrow hid
    exact Stage.not_fits_of_early hearly row (h.fits index handling hhandling row hrow hid).2
  refine ⟨h.moved_distinct hhandling _, ?_, ?_, ?_, ?_, ?_⟩
  · intro row hrow
    apply moved_owned hhandling
    rcases hsplit hrow with hold | ⟨hid, -⟩
    · exact h.owned row hold
    · exact ⟨index, handling, hhandling, hid⟩
  · intro j other hother row hrow hid
    rcases moved_handling hhandling hother with ⟨rfl, rfl⟩ | ⟨hj, hold⟩
    · rcases hsplit hrow with hrowOld | ⟨-, hkey, hstatus, -⟩
      · exact absurd hid (hnone row hrowOld)
      · exact ⟨hkey, hnext row hstatus⟩
    · rcases hsplit hrow with hrowOld | ⟨hown, -⟩
      · exact h.fits j other hold row hrowOld hid
      · exact absurd (h.distinct j index other handling hold hhandling
          (hid.symm.trans hown)) hj
  · intro j other hother hheld
    rcases moved_handling hhandling hother with ⟨rfl, rfl⟩ | ⟨-, hold⟩
    · refine ⟨_, hrows ▸ List.mem_append_right _ (List.mem_singleton_self _), rfl⟩
    · rcases h.kept j other hold hheld with ⟨row, hrow, hid⟩
      exact ⟨row, hrows ▸ List.mem_append_left _ hrow, hid⟩
  · intro row hrow
    rcases hsplit hrow with hold | ⟨-, -, -, htime⟩
    · exact h.timed row hold
    · exact ⟨now, htime⟩
  · intro row hrow
    rcases hsplit hrow with hold | ⟨-, hkey, -, -⟩
    · exact h.bound row hold
    · rw [hkey]
      exact (createApiCommandRecord_eq_ok hinsert).2.2

theorem updated (h : RowsSound s) (hhandling : s.requests[index]? = some handling)
    {change : Table.Update ApiCommandRecord}
    (htime : ∀ row, (change row).receivedAt = row.receivedAt) {after : Database}
    (hafter : after = { s.db with
      apiCommands := s.db.apiCommands.update
        (fun row => row.requestId == handling.request.requestId) change })
    {next : Stage} (hnext : ∀ row, next.Fits (change row))
    (hholding : next.holding = false) :
    RowsSound (s.moved index handling.request (next, after)) := by
  have hkey : ∀ row, (change row).requestId = row.requestId ∧
      (change row).idempotencyKey = row.idempotencyKey := by
    intro row
    have hsame := change.key_apply row
    exact ⟨congrArg Prod.fst hsame, congrArg Prod.snd hsame⟩
  have hsplit : ∀ {row : ApiCommandRecord}, row ∈ after.apiCommands.rows →
      ∃ old ∈ s.db.apiCommands.rows,
        (old.requestId = handling.request.requestId ∧ row = change old) ∨
        (old.requestId ≠ handling.request.requestId ∧ row = old) := by
    intro row hrow
    rw [hafter] at hrow
    rcases List.mem_map.mp hrow with ⟨old, hold, rfl⟩
    refine ⟨old, hold, ?_⟩
    split
    · next hown => exact .inl ⟨beq_iff_eq.mp hown, rfl⟩
    · next hother => exact .inr ⟨by simpa using hother, rfl⟩
  refine ⟨h.moved_distinct hhandling _, ?_, ?_, ?_, ?_, ?_⟩
  · intro row hrow
    apply moved_owned hhandling
    rcases hsplit hrow with ⟨old, hold, ⟨-, rfl⟩ | ⟨-, rfl⟩⟩
    · rw [(hkey old).1]
      exact h.owned old hold
    · exact h.owned row hold
  · intro j other hother row hrow hid
    rcases hsplit hrow with ⟨old, hold, ⟨hown, rfl⟩ | ⟨hne, rfl⟩⟩
    · rcases moved_handling hhandling hother with ⟨rfl, rfl⟩ | ⟨hj, hbefore⟩
      · rw [(hkey old).2]
        exact ⟨(h.fits j handling hhandling old hold hown).1, hnext old⟩
      · rw [(hkey old).1, hown] at hid
        exact absurd (h.distinct j index other handling hbefore hhandling hid.symm) hj
    · rcases moved_handling hhandling hother with ⟨rfl, rfl⟩ | ⟨-, hbefore⟩
      · exact absurd hid hne
      · exact h.fits j other hbefore row hold hid
  · intro j other hother hheld
    rcases moved_handling hhandling hother with ⟨rfl, rfl⟩ | ⟨-, hbefore⟩
    · rw [hholding] at hheld
      cases hheld
    · rcases h.kept j other hbefore hheld with ⟨row, hrow, hid⟩
      refine ⟨_, by rw [hafter]; exact List.mem_map.mpr ⟨row, hrow, rfl⟩, ?_⟩
      split
      · exact (hkey row).1.trans hid
      · exact hid
  · intro row hrow
    rcases hsplit hrow with ⟨old, hold, ⟨-, rfl⟩ | ⟨-, rfl⟩⟩
    · rw [htime]
      exact h.timed old hold
    · exact h.timed row hold
  · intro row hrow
    rcases hsplit hrow with ⟨old, hold, ⟨-, rfl⟩ | ⟨-, rfl⟩⟩
    · rw [(hkey old).2]
      exact h.bound old hold
    · exact h.bound row hold

theorem stored_fits {response : JsonResponse} {request : PlcRequest} {outcome : Outcome}
    {body : Text}
    (hdumps : Json.dumps Json.compactSeparators (outcome.content request) = .ok body)
    (hresponse : jsonResponse outcome.statusCode (outcome.content request) = .ok response)
    (row : ApiCommandRecord) :
    (Stage.answered response).Fits (setResponse outcome.statusCode body row) := by
  unfold jsonResponse at hresponse
  split at hresponse
  · next hplain =>
    cases hresponse
    have hround := Json.loads_dumps Json.compactSeparators hplain
      (outcome.nesting_content request)
    rw [hround.1] at hdumps
    cases hdumps
    exact ⟨rfl, _, rfl, hround.2⟩
  · cases hresponse

theorem stageMove (h : RowsSound s) (hhandling : s.requests[index]? = some handling)
    {platform : Platform} {next : Stage} {after : Database} {events : List ApiEvent}
    (hmove : StageMove platform s.config handling.request index s.db handling.stage next
      after events) : RowsSound (s.moved index handling.request (next, after)) := by
  generalize hstage : handling.stage = before at hmove
  cases hmove with
  | rejectionInserted rejection now after hinsert =>
      exact h.inserted hhandling (by rw [hstage]; rfl) hinsert fun _ hstatus => hstatus
  | commandInserted command now after hinsert =>
      exact h.inserted hhandling (by rw [hstage]; rfl) hinsert fun _ hstatus => hstatus
  | notFound command =>
      apply h.quiet hhandling
      · intro row hfits
        rw [hstage] at hfits
        exact hfits
      · nofun
  | conflicted command =>
      apply h.quiet hhandling
      · intro row hfits
        rw [hstage] at hfits
        exact hfits
      · nofun
  | duplicate before response hearly =>
      apply h.quiet hhandling
      · intro row hfits
        rw [hstage] at hfits
        exact absurd hfits (Stage.not_fits_of_early hearly row)
      · nofun
  | raised before error events _ _ =>
      apply h.quiet hhandling
      · intro row _
        exact True.intro
      · nofun
  | refreshed command after hafter =>
      apply h.quiet hhandling
      · intro row hfits
        rw [hstage] at hfits
        rcases hafter with rfl | ⟨result, rfl⟩
        · exact hfits
        · exact hfits
      · intro _
        rw [hstage]
        rfl
  | published command outcome =>
      apply h.quiet hhandling
      · intro row hfits
        rw [hstage] at hfits
        exact hfits
      · intro _
        rw [hstage]
        rfl
  | marked outcome now after hmarked =>
      exact h.updated hhandling (fun _ => rfl) (updateCommand_eq_ok hmarked)
        (fun _ => True.intro) rfl
  | stored outcome body after next hdumps hstored hnext =>
      rcases hnext with ⟨response, hresponse, rfl⟩ | ⟨error, rfl⟩
      · exact h.updated hhandling (fun _ => rfl) (updateCommand_eq_ok hstored)
          (stored_fits hdumps hresponse) rfl
      · exact h.updated hhandling (fun _ => rfl) (updateCommand_eq_ok hstored)
          (fun _ => True.intro) rfl

theorem received (h : RowsSound s) {request : PlcRequest} (stage : Stage)
    (hfresh : ∀ handling ∈ s.requests, handling.request.requestId ≠ request.requestId)
    (hholding : stage.holding = false) :
    RowsSound { s with requests := s.requests ++ [⟨request, stage⟩] } := by
  have hsplit : ∀ {j : Nat} {other : Handling},
      (s.requests ++ [⟨request, stage⟩])[j]? = some other →
      s.requests[j]? = some other ∨ (j = s.requests.length ∧ other = ⟨request, stage⟩) := by
    intro j other hother
    rw [List.getElem?_append] at hother
    split at hother
    · exact .inl hother
    · next hj =>
      right
      rw [List.getElem?_singleton] at hother
      split at hother
      · next hzero =>
        cases hother
        exact ⟨by omega, rfl⟩
      · cases hother
  have hne : ∀ {j : Nat} {other : Handling}, s.requests[j]? = some other →
      other.request.requestId ≠ request.requestId :=
    fun hother => hfresh _ (List.mem_of_getElem? hother)
  refine ⟨?_, ?_, ?_, ?_, h.timed, h.bound⟩
  · intro i j first second hi hj hsame
    rcases hsplit hi with hfirst | ⟨hlast, rfl⟩
    · rcases hsplit hj with hsecond | ⟨-, rfl⟩
      · exact h.distinct i j first second hfirst hsecond hsame
      · exact absurd hsame (hne hfirst)
    · rcases hsplit hj with hsecond | ⟨hlast', rfl⟩
      · exact absurd hsame.symm (hne hsecond)
      · exact hlast.trans hlast'.symm
  · intro row hrow
    rcases h.owned row hrow with ⟨i, handling, hhandling, hid⟩
    have hlength := (List.getElem?_eq_some_iff.mp hhandling).1
    exact ⟨i, handling, by rw [List.getElem?_append_left hlength, hhandling], hid⟩
  · intro j other hother row hrow hid
    rcases hsplit hother with hold | ⟨-, rfl⟩
    · exact h.fits j other hold row hrow hid
    · rcases h.owned row hrow with ⟨i, handling, hhandling, hown⟩
      exact absurd (hown.symm.trans hid) (hne hhandling)
  · intro j other hother hheld
    rcases hsplit hother with hold | ⟨-, rfl⟩
    · exact h.kept j other hold hheld
    · rw [hholding] at hheld
      cases hheld

/-- A cleanup spares the rows that are not marked yet. -/
theorem cleaned (h : RowsSound s) {retentionDays : Int} {now : Datetime} {after : Database}
    (hsub : ∀ row ∈ after.apiCommands.rows, row ∈ s.db.apiCommands.rows)
    (hkept : ∀ row ∈ s.db.apiCommands.rows,
      row ∈ after.apiCommands.rows ∨ row.Deletable retentionDays now) :
    RowsSound { s with db := after } where
  distinct := h.distinct
  owned := fun row hrow => h.owned row (hsub row hrow)
  fits := fun i handling hhandling row hrow => h.fits i handling hhandling row (hsub row hrow)
  kept := by
    intro i handling hhandling hheld
    rcases h.kept i handling hhandling hheld with ⟨row, hrow, hid⟩
    rcases hkept row hrow with hstays | ⟨hterminal, -⟩
    · exact ⟨row, hstays, hid⟩
    · have hfits := (h.fits i handling hhandling row hrow hid).2
      have hreceived : row.status = .received := by
        cases hstage : handling.stage with
        | refreshing _ =>
            rw [hstage] at hfits
            exact hfits
        | publishing _ =>
            rw [hstage] at hfits
            exact hfits
        | marking _ =>
            rw [hstage] at hfits
            exact hfits
        | _ =>
            rw [hstage] at hheld
            cases hheld
      rw [hreceived] at hterminal
      cases hterminal
  timed := fun row hrow => h.timed row (hsub row hrow)
  bound := fun row hrow => h.bound row (hsub row hrow)

theorem restarted (h : RowsSound s) (config : ApiConfig) :
    RowsSound { s with
      config := config
      requests := s.requests.map Handling.restart } := by
  have hrequest : ∀ handling : Handling, handling.restart.request = handling.request := by
    intro handling
    unfold Handling.restart
    split
    · rfl
    · rfl
  have hsplit : ∀ {j : Nat} {other : Handling},
      (s.requests.map Handling.restart)[j]? = some other →
      ∃ handling, s.requests[j]? = some handling ∧ handling.restart = other := by
    intro j other hother
    rw [List.getElem?_map] at hother
    exact Option.map_eq_some_iff.mp hother
  refine ⟨?_, ?_, ?_, ?_, h.timed, h.bound⟩
  · intro i j first second hi hj hsame
    rcases hsplit hi with ⟨before, hbefore, rfl⟩
    rcases hsplit hj with ⟨before', hbefore', rfl⟩
    rw [hrequest, hrequest] at hsame
    exact h.distinct i j before before' hbefore hbefore' hsame
  · intro row hrow
    rcases h.owned row hrow with ⟨i, handling, hhandling, hid⟩
    exact ⟨i, handling.restart, by rw [List.getElem?_map, hhandling, Option.map_some],
      by rw [hrequest]; exact hid⟩
  · intro j other hother row hrow hid
    rcases hsplit hother with ⟨handling, hhandling, rfl⟩
    rw [hrequest] at hid ⊢
    have hbefore := h.fits j handling hhandling row hrow hid
    refine ⟨hbefore.1, ?_⟩
    unfold Handling.restart
    split
    · exact hbefore.2
    · exact True.intro
  · intro j other hother hheld
    rcases hsplit hother with ⟨handling, hhandling, rfl⟩
    rw [hrequest]
    unfold Handling.restart at hheld
    split at hheld
    · exact h.kept j handling hhandling hheld
    · cases hheld

theorem step (h : RowsSound s) {platform : Platform} {label : ApiLabel} {t : Api}
    (hstep : s.step platform label = some t) : RowsSound t := by
  generalize hevents : s.observe platform label = events
  have hmove := Api.step_move hstep
  rw [hevents] at hmove
  cases hmove with
  | received request hfresh =>
      apply h.received _ hfresh
      unfold Stage.ofAdmission
      split
      · rfl
      · rfl
      · rfl
  | acted index action handling stage after events hhandling hstage =>
      exact h.stageMove hhandling hstage
  | others job now after hsame =>
      refine ⟨h.distinct, ?_, ?_, ?_, ?_, ?_⟩
      · rw [hsame]
        exact h.owned
      · rw [hsame]
        exact h.fits
      · rw [hsame]
        exact h.kept
      · rw [hsame]
        exact h.timed
      · rw [hsame]
        exact h.bound
  | cleaned retentionDays batchSize now after hsub hkept => exact h.cleaned hsub hkept
  | restarted config => exact h.restarted config

end RowsSound

theorem api_rowsSound {platform : Platform} {config : ApiConfig} {past : List ApiEvent}
    {s : Api}
    (ran : (apiSystem platform config).Ran (apiSystem platform config).init past s) :
    RowsSound s := by
  refine (apiSystem platform config).trace_invariant (I := fun _ s => RowsSound s) ?_ ?_ ran
  · exact rowsSound_init config
  · intro past m label t _ h hstep
    exact h.step hstep

end EdgeBridge
