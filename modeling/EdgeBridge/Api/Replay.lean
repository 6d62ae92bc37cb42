import EdgeBridge.Api.PublishOnce

/-!
# The answer to a repeated request

A repeat is answered from the audit row of the first request, but only on the one exit
path of the handler on which the duplicate check sits.
-/

namespace EdgeBridge

open Foundation

/-! ## The lookup -/

theorem truthy_some {text : Text} (h : text ≠ []) : truthy (some text) = some text := by
  rw [truthy_eq_some]
  exact ⟨rfl, h⟩

theorem getByKey_of_mem {db : Database} {row : ApiCommandRecord} {key : Text}
    (hrow : row ∈ db.apiCommands.rows) (hkey : row.idempotencyKey = some key)
    (hbound : bindableOptText row.idempotencyKey = true) :
    getApiCommandByIdempotencyKey key db = .ok (some row) := by
  have hbind : bindAll [.text (some key)] = .ok () := by
    rw [hkey] at hbound
    simp [bindAll, Binding.defect, hbound]
  unfold getApiCommandByIdempotencyKey
  rw [hbind]
  simp only [bind, Except.bind, Except.ok.injEq]
  cases hfound : db.apiCommands.find? fun record =>
      record.idempotencyKey == some key with
  | none =>
      have hnone := Table.find?_eq_none hfound hrow
      simp [hkey] at hnone
  | some other =>
      have hother := Table.find?_eq_some hfound
      have hotherKey : other.idempotencyKey = some key := beq_iff_eq.mp hother.2
      rw [command_unique_of_key hother.1 hrow hotherKey hkey]

theorem recordWithinTtl_eq_ok (platform : Platform) {row : ApiCommandRecord}
    {received : Datetime} (hreceived : row.receivedAt = formatTimestamp received)
    {ttlSeconds : Int} {now : Datetime}
    (hnow : (now.micro : Int) ≤ received.truncate.micro + ttlSeconds * 1000000) :
    recordWithinTtl platform row ttlSeconds now = .ok true ↔
      0 < ttlSeconds ∧ (now.shift (-ttlSeconds)).isOk = true := by
  have hparse : parseTimestamp platform row.receivedAt = .ok received.truncate := by
    rw [hreceived]
    simp [parseTimestamp, fromIsoformat_formatTimestamp]
  unfold recordWithinTtl
  split
  · next hdisabled =>
    constructor
    · intro h
      cases h
    · rintro ⟨hpositive, -⟩
      omega
  · next henabled =>
    rw [hparse]
    cases hshift : now.shift (-ttlSeconds) with
    | error error =>
        simp only [bind, Except.bind]
        constructor
        · intro h
          cases h
        · rintro ⟨-, hok⟩
          cases hok
    | ok oldest =>
        have hmicro := Datetime.shift_micro hshift
        have hwithin : oldest.micro ≤ received.truncate.micro := by omega
        simp only [bind, Except.bind, Except.ok.injEq, decide_eq_true_eq]
        constructor
        · intro _
          exact ⟨by omega, rfl⟩
        · intro _
          exact hwithin

theorem duplicateResponse_of_fits {row : ApiCommandRecord} {response : JsonResponse}
    (h : (Stage.answered response).Fits row) : duplicateResponse row = .ok response := by
  rcases h with ⟨hcode, body, hbody, hloads⟩
  unfold duplicateResponse
  rw [hcode, hbody]
  simp only [hloads, bind, Except.bind]
  unfold jsonResponse
  rw [dif_pos response.renders]

theorem duplicateRecord_eq_ok (platform : Platform) {db : Database}
    {row : ApiCommandRecord} {key : Text} (hne : key ≠ [])
    (hrow : row ∈ db.apiCommands.rows) (hkey : row.idempotencyKey = some key)
    (hbound : bindableOptText row.idempotencyKey = true) (ttlSeconds : Int) (now : Datetime) :
    duplicateRecord platform (some key) ttlSeconds now db =
      (recordWithinTtl platform row ttlSeconds now).map fun within =>
        if within then some row else none := by
  unfold duplicateRecord
  rw [truthy_some hne]
  simp only [getByKey_of_mem hrow hkey hbound, bind, Except.bind]
  cases recordWithinTtl platform row ttlSeconds now with
  | error error => rfl
  | ok within => rfl

/-! ## A repeat that is left alone -/

def Api.stage (s : Api) (index : Nat) : Option Stage :=
  s.requests[index]?.map Handling.stage

/-- The request is not interrupted, and reads this clock at its transactions. -/
def ApiLabel.undisturbed (index : Nat) (now : Datetime) : ApiLabel → Bool
  | .act acting (.transact time) => acting != index || decide (time = now)
  | .act acting (.interrupt _) => acting != index
  | .restart _ => false
  | _ => true

/-- The request is undisturbed, and the row with this id stays. -/
def LeavesAlone (platform : Platform) (id index : Nat) (now : Datetime)
    (_past : List ApiEvent) (s : Api) (label : ApiLabel) : Prop :=
  label.undisturbed index now = true ∧
    (s.step platform label).all (fun t => (t.db.apiCommands.byId id).isSome) = true

/-- At every point of every run that leaves the repeat and the row alone, the repeat
has been answered with the response or its next transaction answers it, and it has
neither inserted a row nor published. -/
def Replayed (platform : Platform) (config : ApiConfig) (t : Api) (id index : Nat)
    (now : Datetime) (response : JsonResponse) : Prop :=
  ∀ labels u, (apiSystem platform config).Along (LeavesAlone platform id index now) [] t
      labels →
    (apiSystem platform config).exec t labels = some u →
    (u.stage index = some (.answered response) ∨
      ∃ v, u.step platform (.act index (.transact now)) = some v ∧
        v.stage index = some (.answered response) ∧ v.db = u.db) ∧
    .inserted index ∉ (apiSystem platform config).trace t labels ∧
    .published index ∉ (apiSystem platform config).trace t labels

theorem finished_step {platform : Platform} {s t : Api} {label : ApiLabel}
    (hstep : s.step platform label = some t) {i : Nat} {handling : Handling}
    (h : s.requests[i]? = some handling) (hfinished : handling.stage.finished = true) :
    t.requests[i]? = some handling := by
  rcases handling_after hstep h with
    hsame | ⟨action, stage, -, -, hstage⟩ | ⟨config, -, hnext⟩
  · exact hsame
  · exfalso
    generalize handling.stage = before at hstage hfinished
    generalize t.db = after at hstage
    generalize s.observe platform label = events at hstage
    cases hstage with
    | duplicate _ _ hearly =>
        cases before with
        | answered _ => cases hearly
        | raised _ => cases hearly
        | dropped => cases hearly
        | _ => cases hfinished
    | raised _ _ _ hgoing _ =>
        rw [hgoing] at hfinished
        cases hfinished
    | _ => cases hfinished
  · rw [hnext, Handling.restart, if_pos hfinished]

theorem unmoved_step {platform : Platform} {s t : Api} {label : ApiLabel}
    (hstep : s.step platform label = some t) {i : Nat} {handling : Handling}
    (h : s.requests[i]? = some handling) (hother : ∀ action, label ≠ .act i action)
    (hrestart : ∀ config, label ≠ .restart config) : t.requests[i]? = some handling := by
  rcases handling_after hstep h with hsame | ⟨action, _, hact, -⟩ | ⟨config, hlabel, -⟩
  · exact hsame
  · exact absurd hact (hother action)
  · exact absurd hlabel (hrestart config)

theorem config_step {platform : Platform} {s t : Api} {label : ApiLabel}
    (hstep : s.step platform label = some t)
    (hrestart : ∀ config, label ≠ .restart config) : t.config = s.config := by
  generalize hevents : s.observe platform label = events
  have hmove := Api.step_move hstep
  rw [hevents] at hmove
  cases hmove with
  | restarted config => exact absurd rfl (hrestart config)
  | _ => rfl

/-- A request that is still checking, or that has been answered, inserts nothing. -/
theorem no_insert_step {platform : Platform} {s t : Api} {label : ApiLabel}
    (hstep : s.step platform label = some t) {j : Nat} {handling : Handling}
    (h : s.requests[j]? = some handling)
    (hstage : (∃ command, handling.stage = .checking command) ∨
      ∃ response, handling.stage = .answered response) :
    .inserted j ∉ s.observe platform label := by
  intro hmem
  rcases stageMove_of_event hstep hmem rfl with ⟨index, acting, next, hacting, -, hmove⟩
  rcases hmove.inserted_event hmem with ⟨rfl, hevents, -⟩
  rw [h] at hacting
  cases hacting
  rw [hevents] at hmove
  generalize next.stage = after at hmove
  generalize t.db = database at hmove
  rcases hstage with ⟨command, hstage⟩ | ⟨response, hstage⟩
  · rw [hstage] at hmove
    cases hmove with
    | raised _ _ _ _ hraised =>
        rcases hraised with hraised | ⟨-, hraised | hraised⟩
        · cases hraised
        · cases hraised
        · cases hraised
  · rw [hstage] at hmove
    cases hmove with
    | raised _ _ _ hgoing _ => cases hgoing

/-! ## The invariant of the repeat -/

/-- A request with the key of the first, handled no later than the TTL after the
recorded time of the first. -/
structure RepeatWithin (config : ApiConfig) (first again : PlcRequest)
    (row : ApiCommandRecord) (now : Datetime) : Prop where
  own : row.requestId = first.requestId
  key : ∃ key, key ≠ [] ∧ first.idempotencyKey = some key ∧ again.idempotencyKey = some key
  inTime : ∃ received : Datetime, row.receivedAt = formatTimestamp received ∧
    (now.micro : Int) ≤ received.truncate.micro + config.idempotencyTtlSeconds * 1000000

/-- The TTL is enabled, and reaches back to a time that there is. -/
def TtlOpen (config : ApiConfig) (now : Datetime) : Prop :=
  0 < config.idempotencyTtlSeconds ∧
    (now.shift (-config.idempotencyTtlSeconds)).isOk = true

/-- The first request is answered, its row is there, and the repeat is at its lookup or
has the same answer. -/
structure Repeating (i j : Nat) (first again : PlcRequest) (command : PlcCommand)
    (response : JsonResponse) (row : ApiCommandRecord) (config : ApiConfig)
    (past : List ApiEvent) (s : Api) : Prop where
  rows : RowsSound s
  config : s.config = config
  first : s.requests[i]? = some ⟨first, .answered response⟩
  row : ∃ next ∈ s.db.apiCommands.rows, SameRow row next
  again : s.requests[j]? = some ⟨again, .checking command⟩ ∨
    s.requests[j]? = some ⟨again, .answered response⟩
  quiet : .inserted j ∉ past ∧ .published j ∉ past

section

variable {platform : Platform} {i j : Nat} {first again : PlcRequest} {command : PlcCommand}
  {response : JsonResponse} {row : ApiCommandRecord} {config : ApiConfig}
  {past : List ApiEvent} {s t : Api} {now : Datetime}

/-- What a lookup of the repeat finds in a state with the row. -/
theorem duplicateRecord_repeat (platform : Platform) (hrows : RowsSound s)
    (hconfig : s.config = config) (hfirst : s.requests[i]? = some ⟨first, .answered response⟩)
    {next : ApiCommandRecord} (hnext : next ∈ s.db.apiCommands.rows)
    (hsame : SameRow row next) (hrepeat : RepeatWithin config first again row now) :
    (Stage.answered response).Fits next ∧
      (TtlOpen config now → duplicateRecord platform again.idempotencyKey
        s.config.idempotencyTtlSeconds now s.db = .ok (some next)) ∧
      ∀ record, duplicateRecord platform again.idempotencyKey
        s.config.idempotencyTtlSeconds now s.db = .ok (some record) → TtlOpen config now := by
  rcases hrepeat.key with ⟨key, hne, hfirstKey, hagainKey⟩
  rcases hrepeat.inTime with ⟨received, hreceived, hnow⟩
  have hfits := hrows.fits i _ hfirst next hnext (hsame.requestId.trans hrepeat.own)
  have hnextKey : next.idempotencyKey = some key := hfits.1.trans hfirstKey
  have hwithin := recordWithinTtl_eq_ok platform (hsame.receivedAt.trans hreceived) hnow
  have hfound := duplicateRecord_eq_ok platform hne hnext hnextKey
    (hrows.bound next hnext) config.idempotencyTtlSeconds now
  rw [hagainKey, hconfig, hfound]
  refine ⟨hfits.2, ?_, ?_⟩
  · intro hopen
    rw [hwithin.mpr hopen]
    rfl
  · intro record hok
    apply hwithin.mp
    rcases map_eq_ok.mp hok with ⟨within, hresult, hsome⟩
    rw [hresult]
    cases within with
    | true => rfl
    | false => cases hsome

theorem Repeating.answers
    (h : Repeating i j first again command response row config past s)
    (hrepeat : RepeatWithin config first again row now) (hopen : TtlOpen config now)
    (hchecking : s.requests[j]? = some ⟨again, .checking command⟩) :
    s.step platform (.act j (.transact now)) =
      some (s.moved j again (.answered response, s.db)) := by
  rcases h.row with ⟨next, hnext, hsame⟩
  have hfound := duplicateRecord_repeat platform h.rows h.config h.first hnext hsame hrepeat
  have hduplicate : getDuplicateResponse platform again.idempotencyKey
      s.config.idempotencyTtlSeconds now s.db = .ok (some response) := by
    unfold getDuplicateResponse
    rw [hfound.2.1 hopen]
    simp [Except.map, bind, Except.bind, duplicateResponse_of_fits hfound.1]
  simp only [Api.step, hchecking, act, transact, hduplicate, Option.map_some]

theorem Repeating.again_step
    (h : Repeating i j first again command response row config past s)
    (hrepeat : RepeatWithin config first again row now) (hopen : TtlOpen config now)
    {label : ApiLabel} (hundisturbed : label.undisturbed j now = true)
    (hstep : s.step platform label = some t) :
    t.requests[j]? = some ⟨again, .checking command⟩ ∨
      t.requests[j]? = some ⟨again, .answered response⟩ := by
  rcases h.again with hchecking | hanswered
  · by_cases hown : ∃ action, label = .act j action
    · rcases hown with ⟨action, rfl⟩
      cases action with
      | transact time =>
          have htime : time = now := by
            simpa [ApiLabel.undisturbed] using hundisturbed
          subst htime
          rw [h.answers hrepeat hopen hchecking] at hstep
          cases hstep
          right
          exact (moved_requests hchecking _ j).trans (if_pos rfl)
      | refresh readinessState connected answer =>
          simp [Api.step, hchecking, act] at hstep
      | publish connected answer => simp [Api.step, hchecking, act] at hstep
      | interrupt error => simp [ApiLabel.undisturbed] at hundisturbed
    · left
      apply unmoved_step hstep hchecking
      · intro action hlabel
        exact hown ⟨action, hlabel⟩
      · rintro config rfl
        cases hundisturbed
  · exact .inr (finished_step hstep hanswered rfl)

theorem Repeating.step
    (h : Repeating i j first again command response row config past s)
    (hrepeat : RepeatWithin config first again row now) (hopen : TtlOpen config now)
    {label : ApiLabel} (halone : LeavesAlone platform row.id j now past s label)
    (hstep : s.step platform label = some t) :
    Repeating i j first again command response row config
      (past ++ s.observe platform label) t where
  rows := h.rows.step hstep
  config := by
    rw [← h.config]
    apply config_step hstep
    rintro config rfl
    cases halone.1
  first := finished_step hstep h.first rfl
  row := by
    rcases h.row with ⟨next, hnext, hsame⟩
    rcases row_step h.rows hstep hnext with ⟨later, hlater, hkept⟩ | ⟨hgone, -⟩
    · exact ⟨later, hlater, hkept.id.trans hsame.id, hkept.requestId.trans hsame.requestId,
        hkept.receivedAt.trans hsame.receivedAt⟩
    · have hstays := halone.2
      rw [hstep, Option.all_some, ← hsame.id, hgone] at hstays
      cases hstays
  again := h.again_step hrepeat hopen halone.1 hstep
  quiet := by
    have hstage : ∃ handling, s.requests[j]? = some handling ∧
        ((∃ command, handling.stage = .checking command) ∨
          ∃ response, handling.stage = .answered response) := by
      rcases h.again with hchecking | hanswered
      · exact ⟨_, hchecking, .inl ⟨command, rfl⟩⟩
      · exact ⟨_, hanswered, .inr ⟨response, rfl⟩⟩
    rcases hstage with ⟨handling, hhandling, hstage⟩
    constructor
    · intro hmem
      rcases List.mem_append.mp hmem with hold | hnew
      · exact h.quiet.1 hold
      · exact no_insert_step hstep hhandling hstage hnew
    · intro hmem
      rcases List.mem_append.mp hmem with hold | hnew
      · exact h.quiet.2 hold
      · rcases published_step hstep hnew with ⟨-, other, -, hother, -, hreserved, -⟩
        rw [hhandling] at hother
        cases hother
        rcases hstage with ⟨command, hstage⟩ | ⟨response, hstage⟩
        · rw [hstage] at hreserved
          cases hreserved
        · rw [hstage] at hreserved
          cases hreserved

end

/-! ## When a repeat is answered from the audit row -/

theorem stage_of_requests {s : Api} {index : Nat} {handling : Handling}
    (h : s.requests[index]? = some handling) : s.stage index = some handling.stage := by
  rw [Api.stage, h, Option.map_some]

theorem receive_step {platform : Platform} {s t : Api} {request : PlcRequest}
    (hstep : s.step platform (.receive request) = some t) :
    t.config = s.config ∧ t.db = s.db ∧
      t.requests[s.requests.length]? =
        some ⟨request, .ofAdmission (admission s.config request)⟩ := by
  simp only [Api.step] at hstep
  split at hstep
  · cases hstep
  · cases hstep
    exact ⟨rfl, rfl, by simp⟩

/-- A repeat whose own body is rejected runs into the unique key. -/
theorem rejecting_raises (platform : Platform) {s : Api} (hrows : RowsSound s) {i j : Nat}
    {first again : PlcRequest} {stage : Stage} {row : ApiCommandRecord} {now : Datetime}
    {config : ApiConfig} {rejection : Rejection} (hrow : row ∈ s.db.apiCommands.rows)
    (hfirst : s.requests[i]? = some ⟨first, stage⟩)
    (hrepeat : RepeatWithin config first again row now)
    (hrejecting : s.requests[j]? = some ⟨again, .rejecting rejection⟩) :
    ∃ error, s.step platform (.act j (.transact now)) =
      some (s.moved j again (.raised error, s.db)) := by
  rcases hrepeat.key with ⟨key, -, hfirstKey, hagainKey⟩
  have hrowKey := (hrows.fits i _ hfirst row hrow hrepeat.own).1.trans hfirstKey
  have harguments : (again.arguments s.config rejection.payload).idempotencyKey =
      some key := hagainKey
  rcases createApiCommandRecord_of_taken platform harguments now hrow hrowKey with
    ⟨error, herror⟩
  refine ⟨error, ?_⟩
  simp only [Api.step, hrejecting, act, transact, herror, Option.map_some]

theorem found_of_answered {platform : Platform} {s v : Api} {j : Nat} {again : PlcRequest}
    {command : PlcCommand} {now : Datetime} {response : JsonResponse}
    (hchecking : s.requests[j]? = some ⟨again, .checking command⟩)
    (hstep : s.step platform (.act j (.transact now)) = some v)
    (hanswered : v.stage j = some (.answered response)) :
    ∃ record, duplicateRecord platform again.idempotencyKey
      s.config.idempotencyTtlSeconds now s.db = .ok (some record) := by
  simp only [Api.step, hchecking, act, Option.map_eq_some_iff] at hstep
  rcases hstep with ⟨⟨stage, after⟩, htransact, rfl⟩
  have hstage : stage = .answered response := by
    rw [stage_of_requests ((moved_requests hchecking _ j).trans (if_pos rfl))] at hanswered
    exact Option.some.inj hanswered
  subst hstage
  cases hfound : duplicateRecord platform again.idempotencyKey
      s.config.idempotencyTtlSeconds now s.db with
  | error error =>
      simp [transact, getDuplicateResponse, hfound, bind, Except.bind] at htransact
  | ok found =>
      cases found with
      | none => simp [transact, getDuplicateResponse, hfound, bind, Except.bind] at htransact
      | some record => exact ⟨record, rfl⟩

/--
A request with the key of an answered one, inside the TTL and before a cleanup of its
row, is answered with the stored response exactly if its own body is a valid command
within the size limit and the TTL is enabled and reaches back to a time that there is.
-/
theorem repeat_replayed_iff {platform : Platform} {config : ApiConfig}
    {past : List ApiEvent} {s t : Api}
    (ran : (apiSystem platform config).Ran (apiSystem platform config).init past s)
    {i : Nat} {first again : PlcRequest} {response : JsonResponse}
    (hfirst : s.requests[i]? = some ⟨first, .answered response⟩) {row : ApiCommandRecord}
    (hrow : row ∈ s.db.apiCommands.rows) {now : Datetime}
    (hrepeat : RepeatWithin s.config first again row now)
    (hstep : s.step platform (.receive again) = some t) :
    Replayed platform config t row.id s.requests.length now response ↔
      (∃ command, admission s.config again = .ok (.command command)) ∧
        TtlOpen s.config now := by
  have hrows : RowsSound t := (api_rowsSound ran).step hstep
  have hfirst' : t.requests[i]? = some ⟨first, .answered response⟩ :=
    finished_step hstep hfirst rfl
  rcases receive_step hstep with ⟨hconfig, hdb, hagain⟩
  rw [← hdb] at hrow
  constructor
  · intro hreplayed
    have hfree := (hreplayed [] t True.intro rfl).1
    cases hadmission : admission s.config again with
    | error error =>
        rw [hadmission] at hagain
        rcases hfree with hanswered | ⟨v, hv, -⟩
        · rw [stage_of_requests hagain] at hanswered
          cases hanswered
        · simp [Api.step, hagain, act, transact, Stage.ofAdmission] at hv
    | ok admitted =>
        rw [hadmission] at hagain
        cases admitted with
        | rejected rejection =>
            rcases hfree with hanswered | ⟨v, hv, hanswered, -⟩
            · rw [stage_of_requests hagain] at hanswered
              cases hanswered
            · rcases rejecting_raises platform hrows hrow hfirst' hrepeat hagain with
                ⟨error, hraised⟩
              rw [hraised] at hv
              cases hv
              rw [stage_of_requests ((moved_requests hagain _ _).trans (if_pos rfl))]
                at hanswered
              cases hanswered
        | command command =>
            refine ⟨⟨command, rfl⟩, ?_⟩
            rcases hfree with hanswered | ⟨v, hv, hanswered, -⟩
            · rw [stage_of_requests hagain] at hanswered
              cases hanswered
            · rcases found_of_answered hagain hv hanswered with ⟨record, hfound⟩
              exact (duplicateRecord_repeat platform hrows hconfig hfirst' hrow
                ⟨rfl, rfl, rfl⟩ hrepeat).2.2 record hfound
  · rintro ⟨⟨command, hadmission⟩, hopen⟩ labels u along run
    rw [hadmission] at hagain
    have hstart : Repeating i s.requests.length first again command response row s.config
        [] t :=
      ⟨hrows, hconfig, hfirst', ⟨row, hrow, rfl, rfl, rfl⟩, .inl hagain,
        List.not_mem_nil, List.not_mem_nil⟩
    have hend := (apiSystem platform config).run_invariant
      (I := Repeating i s.requests.length first again command response row s.config)
      hstart (fun _ _ _ _ _ h halone hnext => h.step hrepeat hopen halone hnext) along run
    refine ⟨?_, hend.quiet⟩
    rcases hend.again with hchecking | hanswered
    · right
      refine ⟨_, hend.answers hrepeat hopen hchecking, ?_, rfl⟩
      exact stage_of_requests ((moved_requests hchecking _ _).trans (if_pos rfl))
    · exact .inl (stage_of_requests hanswered)

/-! ## A repeat with another body -/

inductive Ending where
  | status (code : Int)
  | exception (error : PyError)
  deriving DecidableEq

def Stage.ending : Stage → Option Ending
  | .answered response => some (.status response.statusCode)
  | .raised error => some (.exception error)
  | _ => none

theorem answered_of_ending {stage : Stage} {code : Int}
    (h : stage.ending = some (.status code)) :
    ∃ response, stage = .answered response ∧ response.statusCode = code := by
  cases stage with
  | answered response =>
      refine ⟨response, rfl, ?_⟩
      simpa [Stage.ending] using h
  | raised error => simp [Stage.ending] at h
  | _ => cases h

def sampleSystem : System Api ApiLabel ApiEvent :=
  apiSystem samplePlatform (sampleApiConfig 86400)

/-- A command is published and answered. -/
def firstPublished : List ApiLabel :=
  [.receive (sampleRequest (str "R1") tableCommand)] ++ prepares 0 noon ++ [publishes 0] ++
    answers 0 noon

structure Api.Snapshot where
  config : ApiConfig
  requests : List (Text × Option Text × Option Ending)
  rows : List (Text × Text)
  deriving DecidableEq

def Api.snapshot (s : Api) : Api.Snapshot where
  config := s.config
  requests := s.requests.map fun handling =>
    (handling.request.requestId, handling.request.idempotencyKey, handling.stage.ending)
  rows := s.db.apiCommands.rows.map fun row => (row.requestId, row.receivedAt)

def Api.endings (s : Api) : List (Option Ending) :=
  s.snapshot.requests.map fun values => values.2.2

theorem endings_of_answered {s : Api} {i : Nat} {response : JsonResponse}
    (h : s.stage i = some (.answered response)) :
    s.endings[i]? = some (some (.status response.statusCode)) := by
  rcases Option.map_eq_some_iff.mp h with ⟨handling, hhandling, hstage⟩
  simp [Api.endings, Api.snapshot, hhandling, hstage, Stage.ending]

theorem firstPublished_state :
    ∃ s first response row, sampleSystem.exec sampleSystem.init firstPublished = some s ∧
      s.config = sampleApiConfig 86400 ∧ s.requests = [⟨first, .answered response⟩] ∧
      row ∈ s.db.apiCommands.rows ∧
      ∀ body, RepeatWithin s.config first (sampleRequest (str "R2") body) row
        (atNoon 1) := by
  have hrun : (sampleSystem.exec sampleSystem.init firstPublished).map Api.snapshot =
      some ⟨sampleApiConfig 86400,
        [(str "R1", some (str "PRINTJOB-2960-T01"), some (.status 200))],
        [(str "R1", formatTimestamp noon)]⟩ := by
    decide +kernel
  rcases Option.map_eq_some_iff.mp hrun with ⟨s, hs, hvalues⟩
  simp only [Api.snapshot, Api.Snapshot.mk.injEq, List.map_eq_cons_iff, List.map_eq_nil_iff,
    Prod.mk.injEq] at hvalues
  rcases hvalues with ⟨hconfig, ⟨⟨first, stage⟩, rest, hrequests, ⟨hrequestId, hkey, hstage⟩, rfl⟩,
    row, others, hrows, ⟨hrowId, hreceived⟩, -⟩
  rcases answered_of_ending hstage with ⟨response, rfl, -⟩
  refine ⟨s, first, response, row, hs, hconfig, hrequests, ?_, ?_⟩
  · rw [hrows]
    exact List.mem_cons_self
  · intro body
    refine ⟨hrowId.trans hrequestId.symm, ⟨_, ?_, hkey, rfl⟩, noon, hreceived, ?_⟩
    · decide
    · rw [hconfig]
      decide +kernel

def Admission.isCommand : Admission → Bool
  | .command _ => true
  | .rejected _ => false

theorem exists_command {admitted : Except PyError Admission}
    (h : admitted.toOption.any Admission.isCommand = true) :
    ∃ command, admitted = .ok (.command command) := by
  cases admitted with
  | error error => cases h
  | ok admission =>
      cases admission with
      | rejected rejection => cases h
      | command command => exact ⟨command, rfl⟩

/-- A repeat whose body is not JSON ends in an `IntegrityError`. -/
theorem malformed_repeat_not_replayed :
    ∃ s t first again response row,
      sampleSystem.exec sampleSystem.init firstPublished = some s ∧
      s.requests[0]? = some ⟨first, .answered response⟩ ∧ row ∈ s.db.apiCommands.rows ∧
      RepeatWithin s.config first again row (atNoon 1) ∧
      s.step samplePlatform (.receive again) = some t ∧
      ¬ Replayed samplePlatform (sampleApiConfig 86400) t row.id s.requests.length
        (atNoon 1) response := by
  rcases firstPublished_state with
    ⟨s, first, response, row, hs, -, hrequests, hrow, hrepeat⟩
  let again := sampleRequest (str "R2") (str "\x7b")
  have hreceived : (sampleSystem.exec sampleSystem.init
      (firstPublished ++ [.receive again])).map Api.endings =
        some [some (.status 200), none] := by
    decide +kernel
  have hraised : (sampleSystem.exec sampleSystem.init
      ((firstPublished ++ [.receive again]) ++ [.act 1 (.transact (atNoon 1))])).map
        Api.endings = some [some (.status 200), some (.exception .integrityError)] := by
    decide +kernel
  rcases Option.map_eq_some_iff.mp hreceived with ⟨t, ht, hbefore⟩
  rcases Option.map_eq_some_iff.mp hraised with ⟨v, hv, hafter⟩
  rcases sampleSystem.exec_snoc_eq_some.mp ht with ⟨m, hm, hstep⟩
  rw [hs, Option.some.injEq] at hm
  subst hm
  rcases sampleSystem.exec_snoc_eq_some.mp hv with ⟨m, hm, hlast⟩
  rw [ht, Option.some.injEq] at hm
  subst hm
  have hsecond : s.requests.length = 1 := by rw [hrequests]; rfl
  refine ⟨s, t, first, again, response, row, hs, by rw [hrequests]; rfl, hrow, hrepeat _,
    hstep, ?_⟩
  intro hreplayed
  rw [hsecond] at hreplayed
  rcases (hreplayed [] t True.intro rfl).1 with hanswered | ⟨w, hw, hanswered, -⟩
  · have hstatus := endings_of_answered hanswered
    rw [hbefore] at hstatus
    cases hstatus
  · have hsame : some w = some v := hw.symm.trans hlast
    cases hsame
    have hstatus := endings_of_answered hanswered
    rw [hafter] at hstatus
    cases hstatus

/-- The same command under the same key is answered with the stored response. -/
theorem repeat_replayed_iff_sample :
    ∃ s t first response row,
      sampleSystem.exec sampleSystem.init firstPublished = some s ∧
      s.requests[0]? = some ⟨first, .answered response⟩ ∧ row ∈ s.db.apiCommands.rows ∧
      s.step samplePlatform (.receive (sampleRequest (str "R2") tableCommand)) = some t ∧
      Replayed samplePlatform (sampleApiConfig 86400) t row.id s.requests.length
        (atNoon 1) response := by
  rcases firstPublished_state with
    ⟨s, first, response, row, hs, hconfig, hrequests, hrow, hrepeat⟩
  have hreceived : (sampleSystem.exec sampleSystem.init
      (firstPublished ++ [.receive (sampleRequest (str "R2") tableCommand)])).isSome =
        true := by
    decide +kernel
  rcases Option.isSome_iff_exists.mp hreceived with ⟨t, ht⟩
  rcases sampleSystem.exec_snoc_eq_some.mp ht with ⟨m, hm, hstep⟩
  rw [hs, Option.some.injEq] at hm
  subst hm
  have hfirst : s.requests[0]? = some ⟨first, .answered response⟩ := by rw [hrequests]; rfl
  refine ⟨s, t, first, response, row, hs, hfirst, hrow, hstep, ?_⟩
  refine (repeat_replayed_iff ⟨_, hs, rfl⟩ hfirst hrow (hrepeat _) hstep).mpr ⟨?_, ?_⟩
  · rw [hconfig]
    apply exists_command
    decide +kernel
  · rw [hconfig]
    constructor
    · decide
    · decide +kernel

end EdgeBridge
