import EdgeBridge.Bridge.StatusDiagram

/-!
# The published ACKs

The worker publishes the ACK of the live response, the MQTT callback that of the
stored text.  Both belong to the one completion of their row.
-/

namespace EdgeBridge

open Foundation

/-- The text of a successful response with this ACK. -/
def StoresAck (platform : Platform) (odooResponse : Option Text) (ack : Text) : Prop :=
  ∃ response, parseStoredOdooResponse platform odooResponse = .ok (some response) ∧
    isSuccess response = true ∧ extractStoredAck response = some ack

theorem StoresAck.unique {platform : Platform} {odooResponse : Option Text}
    {ack : Text} (h : StoresAck platform odooResponse ack)
    {response : List (Text × PyValue)} {other : Text}
    (hparse : parseStoredOdooResponse platform odooResponse = .ok (some response))
    (hother : extractStoredAck response = some other) : other = ack := by
  rcases h with ⟨response', hparse', -, hack⟩
  rw [hparse, Except.ok.injEq, Option.some.injEq] at hparse'
  rw [hparse', hack, Option.some.injEq] at hother
  exact hother.symm

/-- A row whose completion has been committed with this ACK. -/
structure CarriesAck (platform : Platform) (row : MessageRecord) (ack : Text) : Prop where
  status : row.status = .completed
  column : row.ack = some ack
  response : StoresAck platform row.odooResponse ack

/-- The row has been completed with this ACK. -/
def Acked (past : List BridgeEvent) (id : Nat) (ack : Text) : Prop :=
  ∃ event ∈ completedEvents past, event.id = id ∧ event.arguments.ack = some ack

theorem completedEvents_append (past events : List BridgeEvent) :
    completedEvents (past ++ events) = completedEvents past ++ completedEvents events :=
  List.filterMap_append

theorem mem_completedEvents {past : List BridgeEvent} {event : Completed} :
    event ∈ completedEvents past ↔ .completed event ∈ past := by
  constructor
  · intro h
    rcases List.mem_filterMap.mp h with ⟨e, he, heq⟩
    cases e with
    | completed other =>
        cases heq
        exact he
    | _ => cases heq
  · intro h
    exact List.mem_filterMap.mpr ⟨_, h, rfl⟩

theorem Acked.append {past : List BridgeEvent} {id : Nat} {ack : Text}
    (h : Acked past id ack) (events : List BridgeEvent) : Acked (past ++ events) id ack := by
  rcases h with ⟨event, hevent, hid, hack⟩
  rw [Acked, completedEvents_append]
  exact ⟨event, List.mem_append_left _ hevent, hid, hack⟩

/-- A row has one completion, hence one ACK. -/
theorem Acked.unique {past : List BridgeEvent} {s : Bridge}
    (haccounted : Accounted (completedEvents past) s.ledger) {id : Nat} {ack other : Text}
    (h : Acked past id ack) (hother : Acked past id other) : ack = other := by
  rcases h with ⟨event, hevent, hid, hack⟩
  rcases hother with ⟨event', hevent', hid', hack'⟩
  have hsame := List.inj_on_of_nodup_map haccounted.once hevent hevent'
    (hid.trans hid'.symm)
  rw [hsame, hack', Option.some.injEq] at hack
  exact hack.symm

/-! ## The commit of a completion -/

theorem completed_commit {platform : Platform} {s t : Bridge} {label : Label}
    (hstep : s.step platform label = some t) {event : Completed}
    (h : .completed event ∈ s.observe platform label) :
    (∃ ack, event.arguments.ack = some ack ∧
      StoresAck platform (some event.arguments.odooResponse) ack) ∧
    ∃ row, t.wal.data.message event.id = some row ∧ row.status = .completed ∧
      row.ack = event.arguments.ack ∧
      row.odooResponse = some event.arguments.odooResponse := by
  have hcompletion : event ∈ (s.observe platform label).filterMap BridgeEvent.completion :=
    mem_completedEvents.mpr h
  by_cases hcommit : ∃ thread now, label = .commit thread now
  · rcases hcommit with ⟨thread, now, rfl⟩
    cases Bridge.step_move hstep with
    | committed _ _ job answer db hjob hwriting hrun =>
        simp only [Bridge.observe, hjob, hrun] at hcompletion
        rw [commitEvents hrun] at hcompletion
        cases job with
        | complete id arguments =>
            have hthread : thread = .worker := by
              by_contra hthread
              exact (job_of_ne_worker hthread hjob).2.2.1 _ _ rfl
            subst hthread
            rcases Job.complete_row hrun with ⟨row, metadata, -, hafter⟩
            rcases map_eq_ok.mp hrun with ⟨final, hcomplete, heq⟩
            cases heq
            simp only [Ledger.completions, hcomplete, Option.mem_toList,
              Option.map_eq_some_iff] at hcompletion
            rcases hcompletion with ⟨key, -, rfl⟩
            cases workerJob_of_job hjob with
            | completing record lastAttemptAt acknowledged completedAt rest hworker =>
                rcases parseStored_of_dumpResponse platform acknowledged.dumped
                  acknowledged.extracted with ⟨entries, -, hparse, hsuccess, hack⟩
                refine ⟨⟨acknowledged.ack, rfl, entries, hparse, hsuccess, hack⟩, ?_⟩
                rw [resume_wal]
                exact ⟨_, hafter, rfl, rfl, rfl⟩
        | _ => cases hcompletion
    | failed _ _ job error hjob hwriting hrun =>
        simp only [Bridge.observe, hjob, hrun] at hcompletion
        cases hcompletion
    | worker _ _ hlabel _ => cases hlabel
    | mqtt _ _ hlabel _ => cases hlabel
    | lifecycle _ _ hlabel _ => cases hlabel
  · rw [completion_of_commit fun thread now hlabel => hcommit ⟨thread, now, hlabel⟩]
      at hcompletion
    cases hcompletion

/-! ## The ACKs under way -/

/-- The ACK that the worker is about to publish. -/
def WorkerState.acking : WorkerState → Option (Nat × Text)
  | .processing record _ (.publishing ack) _ => some (record.id, ack)
  | _ => none

/-- The stored ACK that the callback is about to publish again. -/
def MqttState.acking : MqttState → Option (Nat × Text)
  | .replaying id _ ack => some (id, ack)
  | .publishing id _ ack => some (id, ack)
  | _ => none

theorem workerMove_acking {config : Config} {stopping : Bool} {w w' : WorkerState}
    {label : Label} (h : WorkerMove config stopping w label w') : w'.acking = none := by
  cases h with
  | collected record lastAttemptAt startedAt rest exitcode file =>
      cases file with
      | absent => rfl
      | truncated => rfl
      | complete result =>
          cases result with
          | response response => rfl
          | error error => rfl
  | classified record lastAttemptAt rest response now =>
      unfold classify
      split
      · rfl
      · split
        · rfl
        · split
          · rfl
          · rfl
  | _ => rfl

theorem answered_acking {w : WorkerState} {answer : Answer} {id : Nat} {ack : Text}
    (h : (w.answered answer).acking = some (id, ack)) :
    ∃ record lastAttemptAt acknowledged completedAt rest,
      w = .processing record lastAttemptAt (.completing acknowledged completedAt) rest ∧
        record.id = id ∧ acknowledged.ack = ack := by
  unfold WorkerState.answered at h
  split at h
  · cases h
  · cases h
  · next record lastAttemptAt acknowledged completedAt rest =>
    cases h
    exact ⟨record, lastAttemptAt, acknowledged, completedAt, rest, rfl, rfl, rfl⟩
  · cases h

theorem replayState_acking {platform : Platform} {record : MessageRecord} {id : Nat}
    {ack : Text} (h : (replayState platform record).acking = some (id, ack)) :
    record.id = id ∧ record.status = .completed ∧
      StoresAck platform record.odooResponse ack := by
  unfold replayState at h
  split at h
  · cases h
  · next hstatus =>
    split at h
    · cases h
    · cases h
    · next response hparse =>
      split at h
      · next hsuccess =>
        split at h
        · cases h
        · next other hother =>
          cases h
          exact ⟨rfl, not_not.mp hstatus, response, hparse, hsuccess, hother⟩
      · cases h

/-! ## The invariant -/

structure AcksSound (platform : Platform) (past : List BridgeEvent) (s : Bridge) :
    Prop where
  responses : ∀ event ∈ completedEvents past, ∃ ack, event.arguments.ack = some ack ∧
    StoresAck platform (some event.arguments.odooResponse) ack
  worker : ∀ id ack, s.worker.acking = some (id, ack) → Acked past id ack
  mqtt : ∀ id ack, s.mqtt.acking = some (id, ack) → Acked past id ack
  published : ∀ id ack, .published id ack ∈ past → Acked past id ack

theorem AcksSound.row {platform : Platform} {past : List BridgeEvent} {s : Bridge}
    (h : AcksSound platform past s)
    (haccounted : Accounted (completedEvents past) s.ledger) {id : Nat} {ack : Text}
    (hacked : Acked past id ack) {row : MessageRecord}
    (hrow : s.wal.data.message id = some row) : CarriesAck platform row ack := by
  rcases hacked with ⟨event, hevent, rfl, hack⟩
  have hsettled := haccounted.settled event hevent row hrow
  rcases h.responses event hevent with ⟨other, hother, hstores⟩
  rw [hack, Option.some.injEq] at hother
  subst hother
  exact ⟨hsettled.status, hsettled.ack.trans hack, hsettled.odooResponse ▸ hstores⟩

/-- A completed row with a readable ACK has been completed with it. -/
theorem AcksSound.acked {platform : Platform} {past : List BridgeEvent} {s : Bridge}
    (h : AcksSound platform past s)
    (haccounted : Accounted (completedEvents past) s.ledger) {id : Nat} {ack : Text}
    {row : MessageRecord} (hrow : s.wal.data.message id = some row)
    (hstatus : row.status = .completed)
    (hstores : StoresAck platform row.odooResponse ack) : Acked past id ack := by
  rcases haccounted.ofRow id row hrow hstatus with ⟨event, hevent, rfl⟩
  have hsettled := haccounted.settled event hevent row hrow
  rcases h.responses event hevent with ⟨other, hother, hevidence⟩
  rw [← hsettled.odooResponse] at hevidence
  rcases hstores with ⟨response, hparse, -, hack⟩
  exact ⟨event, hevent, rfl, hevidence.unique hparse hack ▸ hother⟩

/-- The worker comes to publish by the commit of a completion. -/
theorem worker_acking_step {platform : Platform} {s t : Bridge} {label : Label}
    (hstep : s.step platform label = some t) {id : Nat} {ack : Text}
    (hacking : t.worker.acking = some (id, ack)) :
    s.worker.acking = some (id, ack) ∨
      ∃ row, t.wal.data.message id = some row ∧ row.status = .completed ∧
        row.ack = some ack := by
  have hothers : ∀ (wal : Wal Database Thread) {thread : Thread}
      {result : Except PyError Answer}, thread ≠ .worker →
      (({ s with wal := wal } : Bridge).resume thread result).worker.acking =
        some (id, ack) → s.worker.acking = some (id, ack) := by
    intro wal thread result hthread h
    rw [resume_worker_of_ne _ _ hthread] at h
    exact h
  cases Bridge.step_move hstep with
  | answered thread now job result hjob hidle hearly =>
      by_cases hthread : thread = .worker
      · subst hthread
        cases workerJob_of_job hjob with
        | claiming hclaiming =>
            simp only [Job.earlyAnswer, Option.ite_none_right_eq_some,
              Option.some.injEq] at hearly
            rw [← hearly.2] at hacking
            rcases answered_acking hacking with ⟨_, _, _, _, _, hworker, -⟩
            rw [hclaiming] at hworker
            cases hworker
        | failing => cases hearly
        | completing =>
            simp only [Job.earlyAnswer, Option.ite_none_right_eq_some,
              Option.some.injEq] at hearly
            rw [← hearly.2] at hacking
            cases hacking
      · exact .inl (hothers _ hthread hacking)
  | refused thread job version snapshot hjob hreading hrefused =>
      by_cases hthread : thread = .worker
      · subst hthread
        cases hacking
      · exact .inl (hothers _ hthread hacking)
  | gaveUp thread job hjob hidle hfirst =>
      by_cases hthread : thread = .worker
      · subst hthread
        cases hacking
      · exact .inl (hothers _ hthread hacking)
  | committed thread now job answer db hjob hwriting hrun =>
      by_cases hthread : thread = .worker
      · subst hthread
        right
        rcases answered_acking hacking with
          ⟨record, lastAttemptAt, acknowledged, completedAt, rest, hworker, rfl, rfl⟩
        have hcompleting : s.worker = _ := hworker
        simp only [Bridge.job, hcompleting, RecordStage.job, Option.some.injEq] at hjob
        subst hjob
        rcases Job.complete_row hrun with ⟨row, metadata, -, hafter⟩
        rcases map_eq_ok.mp hrun with ⟨final, -, heq⟩
        cases heq
        rw [resume_wal]
        exact ⟨_, hafter, rfl, rfl⟩
      · exact .inl (hothers _ hthread hacking)
  | failed thread now job error hjob hwriting hrun =>
      by_cases hthread : thread = .worker
      · subst hthread
        cases hacking
      · exact .inl (hothers _ hthread hacking)
  | worker label worker hlabel hworker =>
      rw [workerMove_acking (workerStep_move hworker)] at hacking
      cases hacking
  | restarted config => cases hacking
  | _ => exact .inl hacking

/-- The callback comes to replay by looking up a completed row. -/
theorem mqtt_acking_step {platform : Platform} {s t : Bridge} {label : Label}
    (hstep : s.step platform label = some t) {id : Nat} {ack : Text}
    (hacking : t.mqtt.acking = some (id, ack)) :
    s.mqtt.acking = some (id, ack) ∨
      ∃ row, s.wal.data.message id = some row ∧ row.status = .completed ∧
        StoresAck platform row.odooResponse ack := by
  have hanswered : ∀ {answer : Answer}, (s.mqtt.answered answer).acking = some (id, ack) →
      s.mqtt.acking = some (id, ack) := by
    intro answer h
    unfold MqttState.answered at h
    split at h
    · split at h
      · cases h
      · cases h
    · next hreplaying =>
      split at h
      · rw [hreplaying]
        exact h
      · cases h
    · cases h
  have hresume : ∀ (wal : Wal Database Thread) {thread : Thread}
      {result : Except PyError Answer},
      (({ s with wal := wal } : Bridge).resume thread result).mqtt.acking =
        some (id, ack) → s.mqtt.acking = some (id, ack) := by
    intro wal thread result h
    by_cases hthread : thread = .mqtt
    · subst hthread
      cases result with
      | ok answer => exact hanswered h
      | error error => cases h
    · rw [resume_mqtt_of_ne _ _ hthread] at h
      exact h
  cases Bridge.step_move hstep with
  | answered thread now job result => exact .inl (hresume s.wal hacking)
  | refused thread => exact .inl (hresume _ hacking)
  | gaveUp thread => exact .inl (hresume s.wal hacking)
  | committed thread now job answer => exact .inl (hresume _ hacking)
  | failed thread now job error => exact .inl (hresume _ hacking)
  | mqtt label mqtt hlabel hmqtt =>
      unfold mqttStep at hmqtt
      split at hmqtt
      · split at hmqtt
        · cases hmqtt
          cases hacking
        · cases hmqtt
          cases hacking
      · split at hmqtt
        · next record hrecord =>
          cases hmqtt
          rcases replayState_acking hacking with ⟨rfl, hstatus, hstores⟩
          rw [← id_of_message hrecord] at hrecord
          exact .inr ⟨record, hrecord, hstatus, hstores⟩
        · cases hmqtt
          cases hacking
      · split at hmqtt
        · next record hrecord =>
          cases hmqtt
          rcases replayState_acking hacking with ⟨rfl, hstatus, hstores⟩
          have hmem := (Table.find?_eq_some hrecord).1
          exact .inr ⟨record, message_of_mem hmem, hstatus, hstores⟩
        · cases hmqtt
          cases hacking
      · cases hmqtt
        cases hacking
      · cases hmqtt
        cases hacking
      · cases hmqtt
  | restarted config => cases hacking
  | _ => exact .inl hacking

/-- An ACK is published by the thread that has it under way. -/
theorem published_acking {platform : Platform} {s : Bridge} {label : Label} {id : Nat}
    {ack : Text} (h : .published id ack ∈ s.observe platform label) :
    s.worker.acking = some (id, ack) ∨ s.mqtt.acking = some (id, ack) := by
  cases Bridge.observe_shown h with
  | published hpublishing =>
      rw [hpublishing]
      exact .inl rfl
  | replayed hpublishing =>
      rw [hpublishing]
      exact .inr rfl

theorem AcksSound.step {platform : Platform} {past : List BridgeEvent} {s t : Bridge}
    {label : Label} (h : AcksSound platform past s)
    (haccounted : Accounted (completedEvents past) s.ledger)
    (hnext : Accounted (completedEvents (past ++ s.observe platform label)) t.ledger)
    (hstep : s.step platform label = some t) :
    AcksSound platform (past ++ s.observe platform label) t := by
  refine ⟨?_, ?_, ?_, ?_⟩
  · intro event hevent
    rw [completedEvents_append, List.mem_append] at hevent
    rcases hevent with hold | hnew
    · exact h.responses event hold
    · exact (completed_commit hstep (mem_completedEvents.mp hnew)).1
  · intro id ack hacking
    rcases worker_acking_step hstep hacking with hbefore | ⟨row, hrow, hstatus, hack⟩
    · exact (h.worker id ack hbefore).append _
    · rcases hnext.ofRow id row hrow hstatus with ⟨event, hevent, rfl⟩
      have hsettled := hnext.settled event hevent row hrow
      exact ⟨event, hevent, rfl, hsettled.ack.symm.trans hack⟩
  · intro id ack hacking
    rcases mqtt_acking_step hstep hacking with hbefore | ⟨row, hrow, hstatus, hstores⟩
    · exact (h.mqtt id ack hbefore).append _
    · exact (h.acked haccounted hrow hstatus hstores).append _
  · intro id ack hpublished
    rcases List.mem_append.mp hpublished with hold | hnew
    · exact (h.published id ack hold).append _
    · rcases published_acking hnew with hworker | hmqtt
      · exact (h.worker id ack hworker).append _
      · exact (h.mqtt id ack hmqtt).append _

theorem acksSound_init (platform : Platform) (config : Config) :
    AcksSound platform [] (.start config .empty) where
  responses := by
    intro event hevent
    cases hevent
  worker := by
    intro id ack hacking
    cases hacking
  mqtt := by
    intro id ack hacking
    cases hacking
  published := by
    intro id ack hpublished
    cases hpublished

theorem bridge_acksSound {platform : Platform} {config : Config}
    {past : List BridgeEvent} {s : Bridge}
    (ran : (bridgeSystem platform config).Ran (bridgeSystem platform config).init past s) :
    AcksSound platform past s := by
  refine (bridgeSystem platform config).trace_invariant
    (I := AcksSound platform) (acksSound_init platform config) ?_ ran
  intro past m label t hran h hstep
  exact h.step (bridge_accounted hran) (bridge_accounted (hran.snoc hstep)) hstep

/--
Every ACK that is published belongs to a row whose completion was committed before,
as `COMPLETED` with this ACK and a stored response that says so; a row that is still
there says so now; and all ACKs of one row are the same.
-/
theorem published_ack_sound {platform : Platform} {config : Config}
    {labels : List Label} {s t : Bridge} {label : Label}
    (run : (bridgeSystem platform config).exec (bridgeSystem platform config).init labels =
      some s)
    (hstep : s.step platform label = some t) {id : Nat} {ack : Text}
    (hpublished : .published id ack ∈ s.observe platform label) :
    (∃ before after m row, labels = before ++ after ∧
      (bridgeSystem platform config).exec (bridgeSystem platform config).init before =
        some m ∧
      m.wal.data.message id = some row ∧ CarriesAck platform row ack) ∧
    (∀ row, s.wal.data.message id = some row → CarriesAck platform row ack) ∧
    ∀ other, .published id other ∈ (bridgeSystem platform config).trace
      (bridgeSystem platform config).init (labels ++ [label]) → other = ack := by
  have hran : (bridgeSystem platform config).Ran _ _ s := ⟨labels, run, rfl⟩
  have haccounted := bridge_accounted hran
  have hsound := bridge_acksSound hran
  have hacked : Acked ((bridgeSystem platform config).trace
      (bridgeSystem platform config).init labels) id ack := by
    rcases published_acking hpublished with hworker | hmqtt
    · exact hsound.worker id ack hworker
    · exact hsound.mqtt id ack hmqtt
  refine ⟨?_, fun row hrow => hsound.row haccounted hacked hrow, ?_⟩
  · rcases hacked with ⟨event, hevent, rfl, hack⟩
    rcases (bridgeSystem platform config).mem_trace run (mem_completedEvents.mp hevent) with
      ⟨before, last, after, m, m', rfl, hbefore, hlast, hshown⟩
    rcases completed_commit hlast hshown with
      ⟨⟨other, hother, hstores⟩, row, hrow, hstatus, hcolumn, hresponse⟩
    rw [hack, Option.some.injEq] at hother
    subst hother
    refine ⟨before ++ [last], after, m', row, by simp, ?_, hrow, hstatus,
      hcolumn.trans hack, hresponse ▸ hstores⟩
    exact (bridgeSystem platform config).exec_snoc_eq_some.mpr ⟨m, hbefore, hlast⟩
  · intro other hother
    have hnext := hran.snoc hstep
    rw [(bridgeSystem platform config).trace_snoc run hstep] at hother
    have hacked' := (bridge_acksSound hnext).published id other hother
    exact hacked'.unique (bridge_accounted hnext) (hacked.append _)

def publishedAcks (events : List BridgeEvent) : List (Nat × Text) :=
  events.filterMap fun
    | .published id ack => some (id, ack)
    | _ => none

theorem mem_publishedAcks {events : List BridgeEvent} {id : Nat} {ack : Text} :
    (id, ack) ∈ publishedAcks events ↔ .published id ack ∈ events := by
  constructor
  · intro h
    rcases List.mem_filterMap.mp h with ⟨e, he, heq⟩
    cases e with
    | published id' ack' =>
        cases heq
        exact he
    | _ => cases heq
  · intro h
    exact List.mem_filterMap.mpr ⟨_, h, rfl⟩

/-- A message is acknowledged, and delivered a second time. -/
def acknowledgedTwice : List Label :=
  receives compactPayload ++ claims ++ submits noon sampleOdooResponse ++
    [.begin .worker noon, .lock .worker, .commit .worker noon, .publishAck,
      .deliver plcToOdooTopic (compactPayload.map UInt8.ofNat), .begin .mqtt noon,
      .lookup, .lock .mqtt, .commit .mqtt noon]

theorem published_ack_sound_sample :
    ∃ s, (bridgeSystem samplePlatform sampleConfig).exec
        (bridgeSystem samplePlatform sampleConfig).init acknowledgedTwice = some s ∧
      ∀ other, .published 1 other ∈ (bridgeSystem samplePlatform sampleConfig).trace
        (bridgeSystem samplePlatform sampleConfig).init
        (acknowledgedTwice ++ [.publishReplay]) → other = str "A1" := by
  have hrun : (((bridgeSystem samplePlatform sampleConfig).exec
      (bridgeSystem samplePlatform sampleConfig).init acknowledgedTwice).bind fun s =>
        (s.step samplePlatform .publishReplay).map fun _ =>
          publishedAcks (s.observe samplePlatform .publishReplay)) =
      some [(1, str "A1")] := by decide +kernel
  rcases Option.bind_eq_some_iff.mp hrun with ⟨s, hs, hstep⟩
  rcases Option.map_eq_some_iff.mp hstep with ⟨t, ht, hshown⟩
  have hpublished := mem_publishedAcks.mp (hshown ▸ List.mem_singleton_self _)
  exact ⟨s, hs, (published_ack_sound hs ht hpublished).2.2⟩

end EdgeBridge
