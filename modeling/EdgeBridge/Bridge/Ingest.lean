import EdgeBridge.Bridge.Completion

/-!
# From the delivery to the stored row

`save_message` reads before it writes.  A message that was accepted is in the queue
when its callback ends, unless somebody commits between the two.
-/

namespace EdgeBridge

open Foundation

/-- The hash of the message that the callback handles. -/
def MqttState.messageHash (platform : Platform) : MqttState → Option Text
  | .idle => none
  | .saving message => some (platform.sha256 (message.topic ++ message.rawPayload))
  | .handled messageHash => some messageHash
  | .duplicate saved => some saved.messageHash
  | .duplicateByHash messageHash => some messageHash
  | .replaying _ messageHash _ => some messageHash
  | .publishing _ messageHash _ => some messageHash

/-- The message is in the queue, as this row or as another with its hash. -/
def Stored (db : Database) (messageHash : Text) : Prop :=
  ∃ row ∈ db.mqttMessages.rows, row.messageHash = messageHash

/-! ## The condition -/

/-- The message can be bound by `sqlite3`; nobody writes between the first read and
the first write of `save_message`; and while the message is handled there is no crash
and no cleanup that deletes its row. -/
def keepsMessage (platform : Platform) (s : Bridge) : Label → Bool
  | .deliver topic payload =>
      match acceptedMessage topic payload with
      | .ok message => message.bindable
      | .error _ => true
  | .lock .mqtt =>
      match s.mqtt, s.wal.transaction .mqtt with
      | .saving _, .reading version _ =>
          s.wal.writer.isNone && version == s.wal.version
      | _, _ => true
  | .commit .lifecycle now =>
      match s.lifecycle, s.mqtt.messageHash platform with
      | .cleaning retentionDays _, some messageHash =>
          s.wal.data.mqttMessages.rows.all fun row =>
            row.messageHash != messageHash || !isExpired retentionDays now row
      | _, _ => true
  | .restart _ => (s.mqtt.messageHash platform).isNone
  | _ => true

def KeepsMessage (platform : Platform) (_past : List BridgeEvent) (s : Bridge)
    (label : Label) : Prop :=
  keepsMessage platform s label = true

instance (platform : Platform) (past : List BridgeEvent) (s : Bridge) (label : Label) :
    Decidable (KeepsMessage platform past s label) :=
  inferInstanceAs (Decidable (keepsMessage platform s label = true))

/-! ## Rows keep their hash -/

theorem RowChange.messageHash {now : Datetime} {seq id : Nat} {job : Job}
    {answer : Answer} {row next : MessageRecord}
    (h : RowChange now seq id job answer (some row) (some next)) :
    next.messageHash = row.messageHash := by
  cases h with
  | kept => rfl
  | claimed _ _ _ => rfl
  | completed _ _ => rfl
  | failed _ => rfl
  | recovered _ _ => rfl
  | replayed _ _ => rfl

theorem row_kept {platform : Platform} {past : List BridgeEvent} {s t : Bridge}
    {label : Label} (hcond : KeepsMessage platform past s label)
    (hstep : s.step platform label = some t) {messageHash : Text}
    (hhash : s.mqtt.messageHash platform = some messageHash) {id : Nat}
    {row : MessageRecord} (hrow : s.wal.data.message id = some row)
    (hsame : row.messageHash = messageHash) :
    ∃ next, t.wal.data.message id = some next ∧ next.messageHash = messageHash := by
  refine data_step_preserve (P := fun db => ∃ next, db.message id = some next ∧
    next.messageHash = messageHash) ⟨row, hrow, hsame⟩ hstep ?_
  intro thread now job answer hlabel hjob hrun
  have hchange := Job.rowChange hrun id
  rw [hrow] at hchange
  cases hnext : t.wal.data.message id with
  | some next =>
      rw [hnext] at hchange
      exact ⟨next, rfl, hchange.messageHash.trans hsame⟩
  | none =>
      rw [hnext] at hchange
      cases hchange with
      | deleted _ hexpired =>
          rcases lifecycle_of_cleanup hjob with ⟨rfl, hlifecycle⟩
          subst hlabel
          simp only [KeepsMessage, keepsMessage, hlifecycle, hhash,
            List.all_eq_true] at hcond
          have hkept := hcond row (Table.mem_of_byId hrow)
          simp [hsame, hexpired] at hkept

theorem stored_iff {db : Database} {messageHash : Text} :
    Stored db messageHash ↔
      ∃ id row, db.message id = some row ∧ row.messageHash = messageHash := by
  constructor
  · rintro ⟨row, hrow, hsame⟩
    exact ⟨row.id, row, message_of_mem hrow, hsame⟩
  · rintro ⟨id, row, hrow, hsame⟩
    exact ⟨row, Table.mem_of_byId hrow, hsame⟩

/-! ## What `save_message` can store -/

theorem generateMessageHash_of_bindable (platform : Platform) {message : IncomingMessage}
    (h : message.bindable = true) :
    generateMessageHash platform message.topic message.rawPayload =
      .ok (platform.sha256 (message.topic ++ message.rawPayload)) := by
  simp only [IncomingMessage.bindable, Bool.and_eq_true, Text.encodable] at h
  simp [generateMessageHash, Text.encodable, h]

theorem saveMessage_isOk (platform : Platform) {message : IncomingMessage}
    (h : message.bindable = true) (now : Datetime) (db : Database) :
    ∃ result, saveMessage platform message now db = .ok result := by
  unfold saveMessage
  simp only [generateMessageHash_of_bindable platform h, bind, Except.bind]
  cases hexisting : getSavedMessageByHash db
      (platform.sha256 (message.topic ++ message.rawPayload)) with
  | some existing => exact ⟨_, rfl⟩
  | none =>
      have hfree : db.mqttMessages.conflicts (newMessage message
          (platform.sha256 (message.topic ++ message.rawPayload))
          (formatTimestamp now)) = false := by
        unfold getSavedMessageByHash at hexisting
        rw [Option.map_eq_none_iff] at hexisting
        apply List.any_eq_false.mpr
        intro row hrow
        have hother := Table.find?_eq_none hexisting hrow
        simp only [Bool.not_eq_true]
        exact hother
      simp only [insertMessage, h, if_true]
      split
      · exact ⟨_, rfl⟩
      · next hconflict =>
        rw [Table.insert, dif_pos hfree] at hconflict
        cases hconflict

/-! ## The invariant -/

/-- What the callback relies on at each of its steps. -/
def MqttState.Kept (db : Database) : MqttState → Prop
  | .idle => True
  | .saving message => message.bindable = true
  | .duplicate saved =>
      ∃ row, db.message saved.id = some row ∧ row.messageHash = saved.messageHash
  | .handled messageHash => Stored db messageHash
  | .duplicateByHash messageHash => Stored db messageHash
  | .replaying _ messageHash _ => Stored db messageHash
  | .publishing _ messageHash _ => Stored db messageHash

theorem MqttState.Kept.stored {platform : Platform} {db : Database} {state : MqttState}
    (h : state.Kept db) (hsaved : ∀ message, state ≠ .saving message) {messageHash : Text}
    (hhash : state.messageHash platform = some messageHash) : Stored db messageHash := by
  cases state with
  | idle => cases hhash
  | saving message => exact absurd rfl (hsaved message)
  | duplicate saved =>
      cases hhash
      rcases h with ⟨row, hrow, hsame⟩
      exact stored_iff.mpr ⟨saved.id, row, hrow, hsame⟩
  | _ =>
      cases hhash
      exact h

/-- The state of the callback keeps what it relies on as long as rows stay. -/
theorem MqttState.Kept.of_rows {platform : Platform} {before after : Database}
    {state : MqttState} (h : state.Kept before)
    (hrows : ∀ {messageHash : Text}, state.messageHash platform = some messageHash →
      ∀ {id : Nat} {row : MessageRecord}, before.message id = some row →
        row.messageHash = messageHash →
        ∃ next, after.message id = some next ∧ next.messageHash = messageHash) :
    state.Kept after := by
  have hstored : ∀ {messageHash : Text}, state.messageHash platform = some messageHash →
      Stored before messageHash → Stored after messageHash := by
    intro messageHash hhash hbefore
    rcases stored_iff.mp hbefore with ⟨id, row, hrow, hsame⟩
    rcases hrows hhash hrow hsame with ⟨next, hnext, hkept⟩
    exact stored_iff.mpr ⟨id, next, hnext, hkept⟩
  cases state with
  | idle => exact True.intro
  | saving message => exact h
  | duplicate saved =>
      rcases h with ⟨row, hrow, hsame⟩
      exact hrows rfl hrow hsame
  | _ => exact hstored rfl h

theorem replayState_kept {platform : Platform} {db : Database} {record : MessageRecord}
    (hmem : record ∈ db.mqttMessages.rows) : (replayState platform record).Kept db := by
  have hstored : Stored db record.messageHash := ⟨record, hmem, rfl⟩
  unfold replayState
  split
  · exact hstored
  · split
    · exact True.intro
    · exact hstored
    · split
      · split
        · exact hstored
        · exact hstored
      · exact hstored

/-- The transactions of the MQTT callback. -/
inductive MqttJob (s : Bridge) : Job → Prop
  | saving (message : IncomingMessage) :
      s.mqtt = .saving message → MqttJob s (.save message)
  | replaying (id : Nat) (messageHash ack : Text) :
      s.mqtt = .replaying id messageHash ack → MqttJob s (.replay messageHash)

theorem mqttJob_of_job {s : Bridge} {job : Job} (h : s.job .mqtt = some job) :
    MqttJob s job := by
  simp only [Bridge.job] at h
  split at h
  · next message hsaving =>
    cases h
    exact .saving message hsaving
  · next id messageHash ack hreplaying =>
    cases h
    exact .replaying id messageHash ack hreplaying
  · cases h

theorem mqttStep_kept {platform : Platform} {past : List BridgeEvent} {s : Bridge}
    {label : Label} {next : MqttState} (hcond : KeepsMessage platform past s label)
    (h : s.mqtt.Kept s.wal.data)
    (hstep : mqttStep platform s.wal.data s.mqtt label = some next) :
    next.Kept s.wal.data := by
  generalize hstate : s.mqtt = state at h hstep
  unfold mqttStep at hstep
  split at hstep
  · split at hstep
    · next message haccepted =>
      cases hstep
      simp only [KeepsMessage, keepsMessage, haccepted] at hcond
      exact hcond
    · cases hstep
      exact True.intro
  · split at hstep
    · next record hrecord =>
      cases hstep
      exact replayState_kept (Table.mem_of_byId hrecord)
    · next saved hnone =>
      rcases h with ⟨row, hrow, -⟩
      rw [hnone] at hrow
      cases hrow
  · split at hstep
    · next record hrecord =>
      cases hstep
      exact replayState_kept (Table.find?_eq_some hrecord).1
    · cases hstep
      exact h
  · cases hstep
    exact h
  · cases hstep
    exact True.intro
  · cases hstep

/-- A step of the callback keeps the message in hand, or ends with the row in place. -/
theorem mqttStep_messageHash {platform : Platform} {db : Database} {state next : MqttState}
    {label : Label} (h : state.Kept db)
    (hstep : mqttStep platform db state label = some next) {messageHash : Text}
    (hhash : state.messageHash platform = some messageHash) :
    Stored db messageHash ∧ ∀ message, state ≠ .saving message := by
  have hsaving : ∀ message, state ≠ .saving message := by
    rintro message rfl
    simp [mqttStep] at hstep
  exact ⟨h.stored hsaving hhash, hsaving⟩

/-- Where the callback stands after a step: it goes on, or its message is stored. -/
structure MessageKept (platform : Platform) (s t : Bridge) : Prop where
  kept : t.mqtt.Kept t.wal.data
  saving : ∀ message, s.mqtt = .saving message → t.mqtt ≠ .idle
  stored : ∀ messageHash, s.mqtt.messageHash platform = some messageHash →
    t.mqtt.messageHash platform = some messageHash ∨ Stored t.wal.data messageHash

theorem messageKept_of_mqtt_eq {platform : Platform} {past : List BridgeEvent}
    {s t : Bridge} {label : Label} (hcond : KeepsMessage platform past s label)
    (hstep : s.step platform label = some t) (h : s.mqtt.Kept s.wal.data)
    (hmqtt : t.mqtt = s.mqtt) : MessageKept platform s t where
  kept := by
    rw [hmqtt]
    exact h.of_rows fun hhash _ _ hrow hsame => row_kept hcond hstep hhash hrow hsame
  saving := by
    intro message hsaving
    rw [hmqtt, hsaving]
    nofun
  stored := by
    intro messageHash hhash
    rw [hmqtt]
    exact .inl hhash

/-- The row of a saved message is in the queue that the answer leaves. -/
theorem messageKept_saved {platform : Platform} {s t : Bridge} {message : IncomingMessage}
    {now : Datetime} {before : Database} {saved : SavedMessage}
    (hsaving : s.mqtt = .saving message)
    (hrun : saveMessage platform message now before = .ok (saved, t.wal.data))
    (hmqtt : t.mqtt = s.mqtt.answered (.saved saved)) : MessageKept platform s t := by
  rcases saved_row hrun with ⟨row, hrow, hsame⟩
  have hstored : Stored t.wal.data saved.messageHash :=
    stored_iff.mpr ⟨saved.id, row, hrow, hsame⟩
  rw [hsaving] at hmqtt
  refine ⟨?_, ?_, ?_⟩
  · rw [hmqtt]
    simp only [MqttState.answered]
    split
    · exact hstored
    · exact ⟨row, hrow, hsame⟩
  · intro other hother
    rw [hmqtt]
    simp only [MqttState.answered]
    split
    · nofun
    · nofun
  · intro messageHash hhash
    rw [hsaving] at hhash
    cases hhash
    exact .inr ((saveMessage_cases hrun).1 ▸ hstored)

/-- After a replay, or a failure of it, nothing depends on the row any more. -/
theorem messageKept_replayed {platform : Platform} {past : List BridgeEvent} {s t : Bridge}
    {label : Label} (hcond : KeepsMessage platform past s label)
    (hstep : s.step platform label = some t) (h : s.mqtt.Kept s.wal.data) {id : Nat}
    {messageHash ack : Text} (hreplaying : s.mqtt = .replaying id messageHash ack)
    {wal : Wal Database Thread} {result : Except PyError Answer}
    (ht : t = ({ s with wal := wal } : Bridge).resume .mqtt result) :
    MessageKept platform s t := by
  have hhash : s.mqtt.messageHash platform = some messageHash := by
    rw [hreplaying]
    rfl
  have hstored : Stored t.wal.data messageHash := by
    rw [hreplaying] at h
    rcases stored_iff.mp h with ⟨row, record, hrow, hsame⟩
    rcases row_kept hcond hstep hhash hrow hsame with ⟨next, hnext, hkept⟩
    exact stored_iff.mpr ⟨row, next, hnext, hkept⟩
  refine ⟨?_, ?_, ?_⟩
  · cases result with
    | error error =>
        rw [ht]
        exact True.intro
    | ok answer =>
        have hmqtt : t.mqtt = s.mqtt.answered answer := by rw [ht]; rfl
        rw [hmqtt, hreplaying]
        cases answer with
        | replayed attempt =>
            simp only [MqttState.answered]
            split
            · exact hstored
            · exact hstored
        | _ => exact True.intro
  · intro message hsaving
    rw [hreplaying] at hsaving
    cases hsaving
  · intro other hother
    rw [hhash, Option.some.injEq] at hother
    exact .inr (hother ▸ hstored)

/-- A message with a known hash is answered before the first write. -/
theorem saveMessage_of_known (platform : Platform) {message : IncomingMessage}
    (hbindable : message.bindable = true) (now : Datetime) {db : Database}
    {saved : SavedMessage}
    (h : getSavedMessageByHash db
      (platform.sha256 (message.topic ++ message.rawPayload)) = some saved) :
    saveMessage platform message now db = .ok (saved, db) := by
  unfold saveMessage
  simp only [generateMessageHash_of_bindable platform hbindable, bind, Except.bind, h]

theorem messageKept_step {platform : Platform} {past : List BridgeEvent} {s t : Bridge}
    {label : Label} (hcond : KeepsMessage platform past s label) (h : s.mqtt.Kept s.wal.data)
    (hstep : s.step platform label = some t) : MessageKept platform s t := by
  have hbindable : ∀ {message : IncomingMessage}, s.mqtt = .saving message →
      message.bindable = true := by
    intro message hsaving
    rw [hsaving] at h
    exact h
  cases Bridge.step_move hstep with
  | answered thread now job result hjob hidle hearly =>
      by_cases hthread : thread = .mqtt
      · subst hthread
        cases mqttJob_of_job hjob with
        | saving message hsaving =>
            simp only [Job.earlyAnswer,
              generateMessageHash_of_bindable platform (hbindable hsaving),
              Option.map_eq_some_iff] at hearly
            rcases hearly with ⟨saved, hknown, rfl⟩
            exact messageKept_saved hsaving
              (saveMessage_of_known platform (hbindable hsaving) now hknown) rfl
        | replaying id messageHash ack hreplaying =>
            exact messageKept_replayed hcond hstep h hreplaying rfl
      · exact messageKept_of_mqtt_eq hcond hstep h (resume_mqtt_of_ne _ _ hthread)
  | refused thread job version snapshot hjob hreading hrefused =>
      by_cases hthread : thread = .mqtt
      · subst hthread
        cases mqttJob_of_job hjob with
        | saving message hsaving =>
            simp only [KeepsMessage, keepsMessage, hsaving, hreading] at hcond
            exact absurd (Wal.lock_of_current hreading hcond) (hrefused _)
        | replaying id messageHash ack hreplaying =>
            exact messageKept_replayed hcond hstep h hreplaying rfl
      · exact messageKept_of_mqtt_eq hcond hstep h (resume_mqtt_of_ne _ _ hthread)
  | gaveUp thread job hjob hidle hfirst =>
      by_cases hthread : thread = .mqtt
      · subst hthread
        cases mqttJob_of_job hjob with
        | saving message hsaving => cases hfirst
        | replaying id messageHash ack hreplaying =>
            exact messageKept_replayed hcond hstep h hreplaying rfl
      · exact messageKept_of_mqtt_eq hcond hstep h (resume_mqtt_of_ne _ _ hthread)
  | committed thread now job answer db hjob hwriting hrun =>
      by_cases hthread : thread = .mqtt
      · subst hthread
        cases mqttJob_of_job hjob with
        | saving message hsaving =>
            rcases map_eq_ok.mp hrun with ⟨⟨saved, after⟩, hsave, hanswer⟩
            cases hanswer
            refine messageKept_saved hsaving (hsave.trans ?_) rfl
            rcases (saveMessage_cases hsave).2 with ⟨rfl, hknown, -⟩ | ⟨-, hnew, -⟩
            · simp [Answer.wrote, hknown]
            · simp [Answer.wrote, hnew]
        | replaying id messageHash ack hreplaying =>
            exact messageKept_replayed hcond hstep h hreplaying rfl
      · exact messageKept_of_mqtt_eq hcond hstep h (resume_mqtt_of_ne _ _ hthread)
  | failed thread now job error hjob hwriting hrun =>
      by_cases hthread : thread = .mqtt
      · subst hthread
        cases mqttJob_of_job hjob with
        | saving message hsaving =>
            rcases saveMessage_isOk platform (hbindable hsaving) now s.wal.data with
              ⟨result, hok⟩
            simp [Job.run, hok, Except.map] at hrun
        | replaying id messageHash ack hreplaying =>
            exact messageKept_replayed hcond hstep h hreplaying rfl
      · exact messageKept_of_mqtt_eq hcond hstep h (resume_mqtt_of_ne _ _ hthread)
  | mqtt label mqtt hlabel hmqtt =>
      have hkept := mqttStep_kept hcond h hmqtt
      refine ⟨hkept, ?_, ?_⟩
      · intro message hsaving
        simp [mqttStep, hsaving] at hmqtt
      · intro messageHash hhash
        exact .inr (mqttStep_messageHash h hmqtt hhash).1
  | restarted config =>
      have hnone : s.mqtt.messageHash platform = none := by
        simpa [KeepsMessage, keepsMessage] using hcond
      refine ⟨True.intro, ?_, ?_⟩
      · intro message hsaving
        rw [hsaving] at hnone
        cases hnone
      · intro messageHash hhash
        rw [hnone] at hhash
        cases hhash
  | _ => exact messageKept_of_mqtt_eq hcond hstep h rfl

theorem messageKept_run {platform : Platform} {config : Config} {labels : List Label}
    {s : Bridge}
    (along : (bridgeSystem platform config).Along (KeepsMessage platform) []
      (bridgeSystem platform config).init labels)
    (run : (bridgeSystem platform config).exec (bridgeSystem platform config).init labels =
      some s) : s.mqtt.Kept s.wal.data := by
  refine (bridgeSystem platform config).run_invariant
    (I := fun _ s => s.mqtt.Kept s.wal.data) ?_ ?_ along run
  · exact True.intro
  · intro past m label t _ h hcond hstep
    exact (messageKept_step hcond h hstep).kept

/--
In every run that keeps its messages, an accepted message is taken up by its callback,
saving it does not fail, and when the callback ends a row with its hash is in the queue.
-/
theorem accepted_message_stored {platform : Platform} {config : Config}
    {labels : List Label} {s t : Bridge} {label : Label}
    (along : (bridgeSystem platform config).Along (KeepsMessage platform) []
      (bridgeSystem platform config).init (labels ++ [label]))
    (run : (bridgeSystem platform config).exec (bridgeSystem platform config).init labels =
      some s)
    (hstep : s.step platform label = some t) :
    (∀ topic payload message, label = .deliver topic payload →
      acceptedMessage topic payload = .ok message → t.mqtt = .saving message) ∧
    (∀ message, s.mqtt = .saving message → t.mqtt ≠ .idle) ∧
    ∀ messageHash, s.mqtt.messageHash platform = some messageHash →
      t.mqtt.messageHash platform ≠ some messageHash → Stored t.wal.data messageHash := by
  have hsplit := ((bridgeSystem platform config).along_snoc run).mp along
  have hkept := messageKept_step hsplit.2 (messageKept_run hsplit.1 run) hstep
  refine ⟨?_, hkept.saving, ?_⟩
  · rintro topic payload message rfl haccepted
    simp only [Bridge.step, Label.thread, Bridge.localStep, Option.map_eq_some_iff] at hstep
    rcases hstep with ⟨mqtt, hmqtt, rfl⟩
    unfold mqttStep at hmqtt
    split at hmqtt
    · next hlabel =>
      cases hlabel
      rw [haccepted] at hmqtt
      exact (Option.some.inj hmqtt).symm
    · next hlabel => cases hlabel
    · next hlabel => cases hlabel
    · next hlabel => cases hlabel
    · next hlabel => cases hlabel
    · cases hmqtt
  · intro messageHash hhash hended
    exact (hkept.stored messageHash hhash).resolve_left hended

/-! ## A claim in between -/

/-- After the first read for the second message the worker claims the first. -/
def claimedMeanwhile : List Label :=
  receives compactPayload ++
    [.deliver plcToOdooTopic (nextPayload.map UInt8.ofNat), .begin .mqtt noon] ++ claims

/-- The hashes of the callback before and after a step, and the hashes of the queue. -/
def hashesAround (labels : List Label) (label : Label) :
    Option (Option Text × Option Text × List Text) :=
  ((bridgeSystem samplePlatform sampleConfig).exec
    (bridgeSystem samplePlatform sampleConfig).init labels).bind fun s =>
      (s.step samplePlatform label).map fun t =>
        (s.mqtt.messageHash samplePlatform, t.mqtt.messageHash samplePlatform,
          t.wal.data.mqttMessages.rows.map MessageRecord.messageHash)

theorem hashesAround_eq_some {labels : List Label} {label : Label}
    {before after : Option Text} {hashes : List Text}
    (h : hashesAround labels label = some (before, after, hashes)) :
    ∃ s t, (bridgeSystem samplePlatform sampleConfig).exec
        (bridgeSystem samplePlatform sampleConfig).init labels = some s ∧
      s.step samplePlatform label = some t ∧
      s.mqtt.messageHash samplePlatform = before ∧
      t.mqtt.messageHash samplePlatform = after ∧
      ∀ messageHash, Stored t.wal.data messageHash ↔ messageHash ∈ hashes := by
  unfold hashesAround at h
  rcases Option.bind_eq_some_iff.mp h with ⟨s, hs, hmap⟩
  rcases Option.map_eq_some_iff.mp hmap with ⟨t, ht, hvalues⟩
  rw [Prod.mk.injEq, Prod.mk.injEq] at hvalues
  rcases hvalues with ⟨hbefore, hafter, rfl⟩
  refine ⟨s, t, hs, ht, hbefore, hafter, ?_⟩
  intro messageHash
  simp [Stored]

/-- The first write of `save_message` is refused, and the callback ends without a row
for its message. -/
theorem accepted_message_lost :
    ∃ s t, (bridgeSystem samplePlatform sampleConfig).exec
        (bridgeSystem samplePlatform sampleConfig).init claimedMeanwhile = some s ∧
      s.step samplePlatform (.lock .mqtt) = some t ∧
      s.mqtt.messageHash samplePlatform =
        some (samplePlatform.sha256 (plcToOdooTopic ++ nextPayload)) ∧
      t.mqtt.messageHash samplePlatform = none ∧
      ¬ Stored t.wal.data (samplePlatform.sha256 (plcToOdooTopic ++ nextPayload)) := by
  have hrun : hashesAround claimedMeanwhile (.lock .mqtt) =
      some (some (samplePlatform.sha256 (plcToOdooTopic ++ nextPayload)), none,
        [samplePlatform.sha256 (plcToOdooTopic ++ compactPayload)]) := by
    decide +kernel
  rcases hashesAround_eq_some hrun with ⟨s, t, hs, ht, hbefore, hafter, hstored⟩
  refine ⟨s, t, hs, ht, hbefore, hafter, ?_⟩
  rw [hstored]
  decide +kernel

/-- The worker claims before the callback reads. -/
def claimedBefore : List Label :=
  receives compactPayload ++ claims ++
    [.deliver plcToOdooTopic (nextPayload.map UInt8.ofNat), .begin .mqtt noon,
      .lock .mqtt, .commit .mqtt noon]

theorem accepted_message_stored_sample :
    ∃ s t, (bridgeSystem samplePlatform sampleConfig).exec
        (bridgeSystem samplePlatform sampleConfig).init claimedBefore = some s ∧
      s.step samplePlatform .finishMessage = some t ∧
      Stored t.wal.data (samplePlatform.sha256 (plcToOdooTopic ++ nextPayload)) := by
  have halong : (bridgeSystem samplePlatform sampleConfig).Along
      (KeepsMessage samplePlatform) [] (bridgeSystem samplePlatform sampleConfig).init
      (claimedBefore ++ [.finishMessage]) := by decide +kernel
  have hrun : hashesAround claimedBefore .finishMessage =
      some (some (samplePlatform.sha256 (plcToOdooTopic ++ nextPayload)), none,
        [samplePlatform.sha256 (plcToOdooTopic ++ compactPayload),
          samplePlatform.sha256 (plcToOdooTopic ++ nextPayload)]) := by
    decide +kernel
  rcases hashesAround_eq_some hrun with ⟨s, t, hs, ht, hbefore, hafter, -⟩
  refine ⟨s, t, hs, ht, (accepted_message_stored halong hs ht).2.2 _ hbefore ?_⟩
  rw [hafter]
  nofun

end EdgeBridge
