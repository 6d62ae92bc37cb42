import EdgeBridge.Api.Fresh
import EdgeBridge.Foundation.JsonMembers

/-!
# What reaches the PLC

`plc_command` decodes the body with `errors="replace"`, and `json.loads` keeps the last
of the members with one name.  The command that is published is the one of the body as
it was sent exactly when neither has changed anything.
-/

namespace EdgeBridge

open Foundation

/-! ## Bodies -/

/-- The body is the UTF-8 encoding of an object with exactly this member. -/
def OneMember (body : Bytes) (key : Text) (value : PyValue) : Prop :=
  ∃ text, Utf8.decode body = some text ∧ Json.members text = some [(key, value)]

/-- The body is UTF-8, and an object in it gives every member its own name. -/
def Unaltered (body : Bytes) : Prop :=
  ∃ text, Utf8.decode body = some text ∧
    ∀ pairs, Json.members text = some pairs → (pairs.map Prod.fst).Nodup

/-- `validate_plc_command` after `json.loads`. -/
def commandOf (text : Text) : Option PlcCommand :=
  match Json.loads text with
  | .ok parsed => (validatePlcCommand parsed).toOption
  | .error _ => none

/-- The body is too large, or no command, or nothing in it is altered. -/
def Intact (config : ApiConfig) (request : PlcRequest) : Prop :=
  config.maxBodyBytes < request.body.length ∨
    commandOf (Utf8.decodeReplace request.body) = none ∨ Unaltered request.body

/-! ## The system, as Odoo and the PLC see it -/

inductive CommandEvent where
  | received (config : ApiConfig) (request : PlcRequest)
  /-- A call of `publish_plc_command`, with the text for the broker and the payload of the
  audit row at that time. -/
  | published (request : PlcRequest) (command : PlcCommand) (text : Text)
      (audit : Option Text)

/-- The `payload` of the audit row of a request. -/
def auditPayload (db : Database) (request : PlcRequest) : Option Text :=
  (db.apiCommands.find? fun row => row.requestId == request.requestId).map
    ApiCommandRecord.payload

def Api.exchange (s : Api) : ApiLabel → List CommandEvent
  | .receive request => [.received s.config request]
  | .act index (.publish connected answer) =>
      match s.requests[index]? with
      | some ⟨request, .publishing command⟩ =>
          [.published request command
            (publishPlcCommand s.config.odooToPlcTopic command connected answer).payload
            (auditPayload s.db request)]
      | _ => []
  | _ => []

def commandSystem (platform : Platform) (config : ApiConfig) :
    System Api ApiLabel CommandEvent where
  init := ⟨config, .empty, []⟩
  step := Api.step platform
  observe := Api.exchange

/-- The request is answered with a rejection, or ends with the exception of `json.loads`. -/
def Refused (admitted : Except PyError Admission) : Prop :=
  (∃ rejection, admitted = .ok (.rejected rejection)) ∨ ∃ error, admitted = .error error

/-- A body without exactly one member is refused.  A published command is the member of its
body; its text is the payload of the audit row, and decodes to it. -/
def CommandEvent.Faithful : CommandEvent → Prop
  | .received config request =>
      (¬ ∃ key value, OneMember request.body key value) → Refused (admission config request)
  | .published request command text audit =>
      OneMember request.body command.key (.text command.value) ∧ audit = some text ∧
        Json.loads text = .ok command.content

/-! ## Admission -/

section

variable {config : ApiConfig} {request : PlcRequest} {command : PlcCommand}

theorem validatePlcCommand_eq_ok {parsed : PyValue}
    (h : validatePlcCommand parsed = .ok command) : parsed = command.content := by
  unfold validatePlcCommand at h
  split at h
  · next key value =>
    repeat' split at h
    all_goals first
      | cases h
        done
      | cases h
        rfl
  · cases h
  · cases h
  · cases h

theorem admission_command_iff :
    admission config request = .ok (.command command) ↔
      ¬ config.maxBodyBytes < request.body.length ∧
        commandOf (Utf8.decodeReplace request.body) = some command := by
  unfold admission commandOf
  by_cases hlarge : config.maxBodyBytes < request.body.length
  · simp [hlarge]
  · simp only [hlarge, if_false, not_false_eq_true, true_and]
    cases hloads : Json.loads (Utf8.decodeReplace request.body) with
    | error error => cases error <;> simp
    | ok parsed =>
        cases hcommand : validatePlcCommand parsed with
        | error message => simp [hcommand, Except.toOption]
        | ok found => simp [hcommand, Except.toOption]

theorem refused_of_no_command (h : ∀ command, admission config request ≠ .ok (.command command)) :
    Refused (admission config request) := by
  cases hadmitted : admission config request with
  | error error => exact .inr ⟨error, rfl⟩
  | ok admitted =>
      cases admitted with
      | rejected rejection => exact .inl ⟨rejection, rfl⟩
      | command command => exact absurd hadmitted (h command)

theorem not_refused_of_command (h : admission config request = .ok (.command command)) :
    ¬ Refused (admission config request) := by
  rw [h]
  rintro (⟨rejection, hrejected⟩ | ⟨error, herror⟩)
  · cases hrejected
  · cases herror

/-- A pair that is merged from members of different names is the one member. -/
theorem members_of_loads {text key : Text} {value : PyValue}
    (h : Json.loads text = .ok (.dict [(key, value)]))
    (hnodup : ∀ pairs, Json.members text = some pairs → (pairs.map Prod.fst).Nodup) :
    Json.members text = some [(key, value)] := by
  obtain ⟨pairs, hpairs, hmerged⟩ := Json.loads_dict_iff.mp h
  rw [PyValue.ofPairs_of_nodup (hnodup pairs hpairs)] at hmerged
  rw [hpairs, hmerged]

/-- An admitted command of an unaltered body is its member, and its payload is read back. -/
theorem Intact.member (h : Intact config request)
    (hadmitted : admission config request = .ok (.command command)) :
    OneMember request.body command.key (.text command.value) ∧
      Json.loads command.payload = .ok command.content := by
  obtain ⟨hfits, hcommand⟩ := admission_command_iff.mp hadmitted
  obtain hlarge | hnone | ⟨text, hdecode, hnodup⟩ := h
  · exact absurd hlarge hfits
  · rw [hnone] at hcommand
    cases hcommand
  · rw [Utf8.decodeReplace_of_decode hdecode] at hcommand
    unfold commandOf at hcommand
    cases hloads : Json.loads text with
    | error error =>
        rw [hloads] at hcommand
        cases hcommand
    | ok parsed =>
        rw [hloads] at hcommand
        cases hvalid : validatePlcCommand parsed with
        | error message =>
            simp only [hvalid] at hcommand
            cases hcommand
        | ok found =>
            simp only [hvalid] at hcommand
            cases hcommand
            rw [validatePlcCommand_eq_ok hvalid] at hloads
            have hmember := members_of_loads hloads hnodup
            have hjoined := Json.joined_of_members (Utf8.decode_encodable hdecode) hmember
            exact ⟨⟨text, hdecode, hmember⟩,
              Json.loads_member plcJsonSeparators hjoined.1 hjoined.2⟩

/-- What is refused unless it has one member is intact. -/
theorem intact_of_faithful (h : (CommandEvent.received config request).Faithful) :
    Intact config request := by
  by_cases hlarge : config.maxBodyBytes < request.body.length
  · exact .inl hlarge
  · cases hcommand : commandOf (Utf8.decodeReplace request.body) with
    | none => exact .inr (.inl hcommand)
    | some command =>
        right
        right
        have hadmitted := admission_command_iff.mpr ⟨hlarge, hcommand⟩
        by_contra haltered
        refine not_refused_of_command hadmitted (h ?_)
        rintro ⟨key, value, text, hdecode, hmember⟩
        refine haltered ⟨text, hdecode, fun pairs hpairs => ?_⟩
        rw [hmember, Option.some.injEq] at hpairs
        rw [← hpairs]
        simp

end

/-! ## The command of a request -/

/-- The command that a request still has to publish. -/
def Stage.pending : Stage → Option PlcCommand
  | .checking command => some command
  | .creating command => some command
  | .rechecking command => some command
  | .refreshing command => some command
  | .publishing command => some command
  | _ => none

/-- The command of the audit row that a request has inserted. -/
def Stage.audited : Stage → Option PlcCommand
  | .refreshing command => some command
  | .publishing command => some command
  | _ => none

section

variable {platform : Platform} {config : ApiConfig} {request : PlcRequest} {index : Nat}
  {db after : Database} {before next : Stage} {events : List ApiEvent} {command : PlcCommand}

theorem Stage.pending_of_audited {stage : Stage} (h : stage.audited = some command) :
    stage.pending = some command := by
  cases stage with
  | refreshing found => exact h
  | publishing found => exact h
  | _ => cases h

theorem StageMove.pending
    (h : StageMove platform config request index db before next after events)
    (hnext : next.pending = some command) : before.pending = some command := by
  cases h with
  | commandInserted _ _ _ _ => exact hnext
  | notFound _ => exact hnext
  | conflicted _ => exact hnext
  | refreshed found after hafter =>
      obtain rfl | ⟨result, rfl⟩ := hafter
      · exact hnext
      · cases hnext
  | stored outcome body after next _ _ hend =>
      obtain ⟨response, -, rfl⟩ | ⟨error, rfl⟩ := hend
      · cases hnext
      · cases hnext
  | _ => cases hnext

/-- A request is audited before the step, or the step inserts its row. -/
theorem StageMove.audited
    (h : StageMove platform config request index db before next after events)
    (hnext : next.audited = some command) :
    (before.audited = some command ∧ after = db) ∨
      before.early = true ∧ ∃ now, createApiCommandRecord platform
        (request.arguments config command.payload) now db = .ok after := by
  cases h with
  | commandInserted found now after hinsert =>
      cases hnext
      exact .inr ⟨rfl, now, hinsert⟩
  | refreshed found after hafter =>
      obtain rfl | ⟨result, rfl⟩ := hafter
      · exact .inl ⟨hnext, rfl⟩
      · cases hnext
  | stored outcome body after next _ _ hend =>
      obtain ⟨response, -, rfl⟩ | ⟨error, rfl⟩ := hend
      · cases hnext
      · cases hnext
  | _ => cases hnext

theorem Stage.pending_ofAdmission {admitted : Except PyError Admission}
    (h : (Stage.ofAdmission admitted).pending = some command) :
    admitted = .ok (.command command) := by
  unfold Stage.ofAdmission at h
  split at h
  · cases h
  · cases h
    rfl
  · cases h

theorem Stage.audited_ofAdmission (admitted : Except PyError Admission) :
    (Stage.ofAdmission admitted).audited = none := by
  unfold Stage.ofAdmission
  split
  · rfl
  · rfl
  · rfl

theorem Handling.restart_pending (handling : Handling) : handling.restart.stage.pending = none := by
  unfold Handling.restart
  split
  · next hfinished =>
    cases hstage : handling.stage with
    | answered response => rfl
    | raised error => rfl
    | dropped => rfl
    | _ =>
        rw [hstage] at hfinished
        cases hfinished
  · rfl

/-- What a move of one request does to the payloads of the audit rows. -/
theorem StageMove.payload
    (h : StageMove platform config request index db before next after events)
    {row : ApiCommandRecord} (hrow : row ∈ after.apiCommands.rows) :
    (∃ old ∈ db.apiCommands.rows, old.requestId = row.requestId ∧ old.payload = row.payload) ∨
      row.requestId = request.requestId ∧ before.early = true := by
  have hinsert : ∀ {payload : Text} {now : Datetime},
      createApiCommandRecord platform (request.arguments config payload) now db = .ok after →
      row ∈ db.apiCommands.rows ∨ row.requestId = request.requestId := by
    intro payload now hok
    rw [(Table.insert_eq_some_iff.mp (createApiCommandRecord_eq_ok hok).1).2.1] at hrow
    obtain hold | hnew := List.mem_append.mp hrow
    · exact .inl hold
    · right
      rw [List.mem_singleton.mp hnew]
      rfl
  have hupdate : ∀ {requestId : Text} {bindings : List Binding}
      {change : Table.Update ApiCommandRecord},
      (∀ row, (change row).payload = row.payload) →
      updateCommand requestId bindings change db = .ok after →
      ∃ old ∈ db.apiCommands.rows, old.requestId = row.requestId ∧ old.payload = row.payload := by
    intro requestId bindings change hpayload hok
    rw [updateCommand_eq_ok hok] at hrow
    obtain ⟨old, hold, rfl⟩ := List.mem_map.mp hrow
    refine ⟨old, hold, ?_⟩
    split
    · exact ⟨(congrArg Prod.fst (change.key_apply old)).symm, (hpayload old).symm⟩
    · exact ⟨rfl, rfl⟩
  cases h with
  | rejectionInserted rejection now after hok =>
      obtain hold | hnew := hinsert hok
      · exact .inl ⟨row, hold, rfl, rfl⟩
      · exact .inr ⟨hnew, rfl⟩
  | commandInserted found now after hok =>
      obtain hold | hnew := hinsert hok
      · exact .inl ⟨row, hold, rfl, rfl⟩
      · exact .inr ⟨hnew, rfl⟩
  | marked outcome now after hok => exact .inl (hupdate (fun _ => rfl) hok)
  | stored outcome body after next _ hok _ => exact .inl (hupdate (fun _ => rfl) hok)
  | _ => exact .inl ⟨row, hrow, rfl, rfl⟩

end

/-! ## Along a run -/

/-- The request was received, and its body admitted as this command. -/
def Admits (past : List CommandEvent) (request : PlcRequest) (command : PlcCommand) : Prop :=
  ∃ config, .received config request ∈ past ∧
    admission config request = .ok (.command command)

theorem Admits.append {past : List CommandEvent} {request : PlcRequest} {command : PlcCommand}
    (h : Admits past request command) (more : List CommandEvent) :
    Admits (past ++ more) request command := by
  obtain ⟨config, hreceived, hadmitted⟩ := h
  exact ⟨config, List.mem_append_left _ hreceived, hadmitted⟩

structure Tracked (past : List CommandEvent) (s : Api) : Prop where
  rows : RowsSound s
  admitted : ∀ (i : Nat) (handling : Handling) (command : PlcCommand),
    s.requests[i]? = some handling → handling.stage.pending = some command →
      Admits past handling.request command
  audited : ∀ (i : Nat) (handling : Handling) (command : PlcCommand),
    s.requests[i]? = some handling → handling.stage.audited = some command →
      ∀ row ∈ s.db.apiCommands.rows, row.requestId = handling.request.requestId →
        row.payload = command.payload
  published : ∀ request command text audit, .published request command text audit ∈ past →
    Admits past request command ∧ text = command.payload ∧ audit = some command.payload

section

variable {platform : Platform} {s t : Api} {label : ApiLabel} {past : List CommandEvent}

theorem tracked_init (config : ApiConfig) : Tracked [] ⟨config, .empty, []⟩ where
  rows := rowsSound_init config
  admitted := by
    intro i handling command hhandling
    simp at hhandling
  audited := by
    intro i handling command hhandling
    simp at hhandling
  published := nofun

theorem Tracked.admitted_step (h : Tracked past s) (hstep : s.step platform label = some t)
    {i : Nat} {next : Handling} {command : PlcCommand} (hnext : t.requests[i]? = some next)
    (hpending : next.stage.pending = some command) :
    Admits (past ++ s.exchange label) next.request command := by
  obtain hold | ⟨request, rfl, rfl⟩ | ⟨action, handling, -, hhandling, hrequest, hstage⟩ |
    ⟨config, handling, -, -, rfl⟩ := handling_before hstep hnext
  · exact (h.admitted i next command hold hpending).append _
  · exact ⟨s.config, List.mem_append_right _ List.mem_cons_self,
      Stage.pending_ofAdmission hpending⟩
  · rw [hrequest]
    exact (h.admitted i handling command hhandling (hstage.pending hpending)).append _
  · rw [handling.restart_pending] at hpending
    cases hpending

theorem Tracked.audited_step (h : Tracked past s) (hstep : s.step platform label = some t)
    {i : Nat} {next : Handling} {command : PlcCommand} (hnext : t.requests[i]? = some next)
    (haudited : next.stage.audited = some command) {row : ApiCommandRecord}
    (hrow : row ∈ t.db.apiCommands.rows) (hid : row.requestId = next.request.requestId) :
    row.payload = command.payload := by
  have hmove := Api.step_move hstep
  generalize s.observe platform label = events at hmove
  cases hmove with
  | received request hfresh =>
      simp only [List.getElem?_append] at hnext
      split at hnext
      · exact h.audited i next command hnext haudited row hrow hid
      · rw [List.getElem?_singleton] at hnext
        split at hnext
        · cases hnext
          rw [Stage.audited_ofAdmission] at haudited
          cases haudited
        · cases hnext
  | acted index action handling stage after events hhandling hstage =>
      obtain ⟨rfl, rfl⟩ | ⟨hother, hold⟩ := moved_handling hhandling hnext
      · obtain ⟨hbefore, hsame⟩ | ⟨hearly, now, hinsert⟩ := hstage.audited haudited
        · simp only [Api.moved, hsame] at hrow
          exact h.audited i handling command hhandling hbefore row hrow hid
        · simp only [Api.moved] at hrow
          rw [(Table.insert_eq_some_iff.mp (createApiCommandRecord_eq_ok hinsert).1).2.1] at hrow
          obtain hold | hnew := List.mem_append.mp hrow
          · exact absurd (h.rows.fits i handling hhandling row hold hid).2
              (Stage.not_fits_of_early hearly row)
          · rw [List.mem_singleton.mp hnew]
            rfl
      · obtain ⟨old, hmem, hsame, hpayload⟩ | ⟨hown, -⟩ := hstage.payload hrow
        · rw [← hpayload]
          exact h.audited i next command hold haudited old hmem (hsame.trans hid)
        · exact absurd (h.rows.distinct i index next handling hold hhandling
            (hid.symm.trans hown)) hother
  | others job now after hsame =>
      simp only [hsame] at hrow
      exact h.audited i next command hnext haudited row hrow hid
  | cleaned retentionDays batchSize now after hsub hkept =>
      exact h.audited i next command hnext haudited row (hsub row hrow) hid
  | restarted config =>
      simp only [List.getElem?_map] at hnext
      obtain ⟨handling, -, rfl⟩ := Option.map_eq_some_iff.mp hnext
      have hpending := Stage.pending_of_audited haudited
      rw [handling.restart_pending] at hpending
      cases hpending

/-- At the publish the audit row is there, with the payload of the command. -/
theorem Tracked.auditPayload (h : Tracked past s) {i : Nat} {request : PlcRequest}
    {command : PlcCommand} (hhandling : s.requests[i]? = some ⟨request, .publishing command⟩) :
    auditPayload s.db request = some command.payload := by
  obtain ⟨row, hrow, hid⟩ := h.rows.kept i _ hhandling rfl
  unfold EdgeBridge.auditPayload
  cases hfound : s.db.apiCommands.find? fun row => row.requestId == request.requestId with
  | none =>
      have hne := Table.find?_eq_none hfound hrow
      simp [hid] at hne
  | some found =>
      have hfind := Table.find?_eq_some hfound
      rw [Option.map_some, h.audited i _ command hhandling rfl found hfind.1
        (beq_iff_eq.mp hfind.2)]

theorem Tracked.published_step (h : Tracked past s) {request : PlcRequest}
    {command : PlcCommand} {text : Text} {audit : Option Text}
    (hmem : .published request command text audit ∈ s.exchange label) :
    Admits past request command ∧ text = command.payload ∧ audit = some command.payload := by
  unfold Api.exchange at hmem
  split at hmem
  · simp at hmem
  · next index connected answer =>
    split at hmem
    · next hhandling =>
      rw [List.mem_singleton] at hmem
      cases hmem
      refine ⟨h.admitted index _ command hhandling rfl, ?_, h.auditPayload hhandling⟩
      unfold publishPlcCommand
      split
      · cases answer with
        | raised error => rfl
        | answered rc mid => rfl
      · rfl
    · cases hmem
  · cases hmem

theorem Tracked.step (h : Tracked past s) (hstep : s.step platform label = some t) :
    Tracked (past ++ s.exchange label) t where
  rows := h.rows.step hstep
  admitted _ _ _ hnext hpending := h.admitted_step hstep hnext hpending
  audited _ _ _ hnext haudited _ hrow hid := h.audited_step hstep hnext haudited hrow hid
  published := by
    intro request command text audit hmem
    obtain hpast | hnew := List.mem_append.mp hmem
    · obtain ⟨hadmits, htext⟩ := h.published request command text audit hpast
      exact ⟨hadmits.append _, htext⟩
    · obtain ⟨hadmits, htext⟩ := h.published_step hnew
      exact ⟨hadmits.append _, htext⟩

end

/--
In every run the bodies without exactly one member are refused, and what is published is
the one member of its body, as it is in the audit row, if and only if every body that was
received is intact.
-/
theorem commands_faithful_iff {platform : Platform} {config : ApiConfig}
    {past : List CommandEvent} {s : Api}
    (ran : (commandSystem platform config).Ran (commandSystem platform config).init past s) :
    (∀ event ∈ past, event.Faithful) ↔
      ∀ config request, .received config request ∈ past → Intact config request := by
  have htracked : Tracked past s := by
    refine (commandSystem platform config).trace_invariant (I := Tracked) (tracked_init config)
      ?_ ran
    intro past m label t _ h hstep
    exact h.step hstep
  constructor
  · intro h config request hreceived
    exact intact_of_faithful (h _ hreceived)
  · intro h event hevent
    cases event with
    | received config request =>
        intro hnone
        refine refused_of_no_command fun command hadmitted => hnone ?_
        exact ⟨_, _, ((h config request hevent).member hadmitted).1⟩
    | published request command text audit =>
        obtain ⟨⟨received, hreceived, hadmitted⟩, rfl, haudit⟩ :=
          htracked.published request command text audit hevent
        obtain ⟨hmember, hloads⟩ := (h received request hreceived).member hadmitted
        exact ⟨hmember, haudit, hloads⟩

/-! ## Altered bodies -/

structure Publication where
  body : Bytes
  command : PlcCommand
  text : Text
  audit : Option Text
  deriving DecidableEq

def CommandEvent.publication : CommandEvent → Option Publication
  | .received _ _ => none
  | .published request command text audit => some ⟨request.body, command, text, audit⟩

theorem member_of_publication {past : List CommandEvent} (h : ∀ event ∈ past, event.Faithful)
    {shown : Publication} (hmem : some shown ∈ past.map CommandEvent.publication) :
    OneMember shown.body shown.command.key (.text shown.command.value) := by
  obtain ⟨event, hevent, hpublication⟩ := List.mem_map.mp hmem
  cases event with
  | received config request => cases hpublication
  | published request found sent payload =>
      cases hpublication
      exact (h _ hevent).1

def sampleCommands : System Api ApiLabel CommandEvent :=
  commandSystem samplePlatform (sampleApiConfig 5)

def bodyRequest (body : Bytes) : PlcRequest := { sampleRequest (str "R1") [] with body := body }

/-- One request with this body, up to its publish. -/
def bodyRun (body : Bytes) : List ApiLabel :=
  .receive (bodyRequest body) :: prepares 0 noon ++ [publishes 0]

def publications (body : Bytes) : Option (List (Option Publication)) :=
  (sampleCommands.exec sampleCommands.init (bodyRun body)).map fun _ =>
    (sampleCommands.trace sampleCommands.init (bodyRun body)).map CommandEvent.publication

theorem publications_eq_some {body : Bytes} {shown : List (Option Publication)}
    (h : publications body = some shown) :
    ∃ past s, sampleCommands.Ran sampleCommands.init past s ∧
      past.map CommandEvent.publication = shown := by
  obtain ⟨s, hs, hshown⟩ := Option.map_eq_some_iff.mp h
  exact ⟨_, s, ⟨bodyRun body, hs, rfl⟩, hshown⟩

/-- The byte `ff` is no UTF-8. -/
def invalidBody : Bytes :=
  (str "\x7b\"messt01\": \"A").map UInt8.ofNat ++ [0xff] ++ (str "\"\x7d").map UInt8.ofNat

def repeatedText : Text := str "\x7b\"T01\": \"R\", \"T01\": \"P\"\x7d"

/-- The byte has become `U+FFFD`. -/
def replacedPublication : Publication where
  body := invalidBody
  command := ⟨str "messt01", [65, 0xfffd]⟩
  text := str "\x7b\"messt01\": \"A\\ufffd\"\x7d"
  audit := some (str "\x7b\"messt01\": \"A\\ufffd\"\x7d")

def tablePublication (body : Bytes) : Publication where
  body := body
  command := ⟨str "T01", str "P"⟩
  text := tableCommand
  audit := some tableCommand

/-- A replaced byte goes to the PLC, and so does the last of two members with one name. -/
theorem altered_bodies_published :
    (∃ past s, sampleCommands.Ran sampleCommands.init past s ∧
      past.map CommandEvent.publication = [none, some replacedPublication] ∧
      ¬ ∀ event ∈ past, event.Faithful) ∧
    ∃ past s, sampleCommands.Ran sampleCommands.init past s ∧
      past.map CommandEvent.publication =
        [none, some (tablePublication (repeatedText.map UInt8.ofNat))] ∧
      ¬ ∀ event ∈ past, event.Faithful := by
  constructor
  · have hrun : publications invalidBody = some [none, some replacedPublication] := by
      decide +kernel
    obtain ⟨past, s, ran, hshown⟩ := publications_eq_some hrun
    refine ⟨past, s, ran, hshown, fun hfaithful => ?_⟩
    have hmem : some replacedPublication ∈ past.map CommandEvent.publication := by simp [hshown]
    obtain ⟨text, hdecode, -⟩ := member_of_publication hfaithful hmem
    have hinvalid : Utf8.decode invalidBody = none := by decide +kernel
    rw [replacedPublication, hinvalid] at hdecode
    cases hdecode
  · have hrun : publications (repeatedText.map UInt8.ofNat) =
        some [none, some (tablePublication (repeatedText.map UInt8.ofNat))] := by
      decide +kernel
    obtain ⟨past, s, ran, hshown⟩ := publications_eq_some hrun
    refine ⟨past, s, ran, hshown, fun hfaithful => ?_⟩
    have hmem : some (tablePublication (repeatedText.map UInt8.ofNat)) ∈
        past.map CommandEvent.publication := by simp [hshown]
    obtain ⟨text, hdecode, hmember⟩ := member_of_publication hfaithful hmem
    have hnames : ((Utf8.decode (repeatedText.map UInt8.ofNat)).bind Json.members).map
        (fun pairs => pairs.map Prod.fst) = some [str "T01", str "T01"] := by
      decide +kernel
    rw [tablePublication] at hdecode
    rw [hdecode, Option.bind_some, hmember] at hnames
    simp at hnames

theorem commands_faithful_iff_sample :
    ∃ past s, sampleCommands.Ran sampleCommands.init past s ∧
      past.map CommandEvent.publication =
        [none, some (tablePublication (tableCommand.map UInt8.ofNat))] ∧
      ((∀ event ∈ past, event.Faithful) ↔
        ∀ config request, .received config request ∈ past → Intact config request) := by
  have hrun : publications (tableCommand.map UInt8.ofNat) =
      some [none, some (tablePublication (tableCommand.map UInt8.ofNat))] := by
    decide +kernel
  obtain ⟨past, s, ran, hshown⟩ := publications_eq_some hrun
  exact ⟨past, s, ran, hshown, commands_faithful_iff ran⟩

end EdgeBridge
