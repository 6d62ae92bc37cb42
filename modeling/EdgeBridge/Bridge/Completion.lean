import EdgeBridge.Bridge.Acks
import EdgeBridge.Bridge.Hand
import EdgeBridge.Foundation.JsonAscii

/-!
# From the answer of Odoo to the completed row

Between a success with an ACK and the committed row lie `json.dumps`, the binding
of the metadata and a transaction that reads before it writes.  If none of them
fails, the row is `COMPLETED` when `_process_record` ends, and is never claimed
again.
-/

namespace EdgeBridge

open Foundation

/-! ## What `mark_completed` can store -/

/-- The integers of the response fit into SQLite's, and the machine has a name that
can be encoded. -/
def storable (config : Config) (response : OdooResponse) : Bool :=
  let metadata := extractDashboardMetadata response.value
  bindableOptInt metadata.customerId && bindableOptInt metadata.operatorId &&
    bindableOptInt metadata.numberOfOperators && config.machineId.encodable

theorem encodable_dateText (time : Datetime) :
    (Calendar.dateText (time.second / 86400)).encodable = true := by
  have hsecond := time.second_lt
  unfold maxSecond at hsecond
  exact (Calendar.isAscii_dateText (by omega)).encodable

theorem encodable_of_dumpResponse {response : OdooResponse} {responseText : Text}
    (h : dumpResponse response = .ok responseText) : responseText.encodable = true := by
  obtain ⟨hplain, rfl, -⟩ := loads_of_dumpResponse h
  exact Json.encodable_render _ hplain

/-- Only the binding of a value can fail. -/
theorem upsert_isOk {platform : Platform} {source : MessageRecord}
    {completion : Completion} (now : Datetime) (db : Database) {date : Text}
    (hdate : productionDate platform completion.completedAt = .ok date)
    (hbound : bindAll (productionBindings source completion date) = .ok ()) :
    ∃ result, upsertProductionRecordAndSummary platform source completion now db =
      .ok result := by
  unfold upsertProductionRecordAndSummary
  rw [hdate]
  simp only [bind, Except.bind, hbound]
  split
  · exact ⟨_, rfl⟩
  · rcases incrementDailySummary_spec
      (newProductionRecord source completion date (formatTimestamp now)
        (summaryApplied db source.id)) (formatTimestamp now)
      (writeProductionRecord (newProductionRecord source completion date
        (formatTimestamp now) (summaryApplied db source.id)) db) with ⟨table, hok, -⟩
    rw [hok]
    exact ⟨_, rfl⟩

theorem truthy_acknowledged (acknowledged : Acknowledged) :
    truthy (some acknowledged.ack) = some acknowledged.ack := by
  obtain ⟨entries, -, -, hstored⟩ := extractAck_eq_some.mp acknowledged.extracted
  exact truthy_eq_some.mpr ⟨rfl, extractStoredAck_ne_nil hstored⟩

/-- The worker's metadata is that of the stored text, which therefore adds nothing. -/
theorem completionMetadata_acknowledged (acknowledged : Acknowledged) (config : Config)
    (completedAt : Text) :
    completionMetadata (acknowledged.arguments config completedAt) =
      .ok (extractDashboardMetadata acknowledged.response.value) := by
  simp [completionMetadata, Acknowledged.arguments, truthy_acknowledged,
    metadata_of_dumpResponse acknowledged.dumped, Except.map, ProductionMetadata.orElse_self]

theorem markCompleted_isOk (platform : Platform) {config : Config} {id : Nat}
    {acknowledged : Acknowledged} (completed now : Datetime) {db : Database}
    {row : MessageRecord} (hrow : db.message id = some row) (hbindable : row.bindable = true)
    (hstorable : storable config acknowledged.response = true) :
    ∃ after, markCompleted platform id
      (acknowledged.arguments config (formatTimestamp completed)) now db = .ok after := by
  have hmetadata :=
    completionMetadata_acknowledged acknowledged config (formatTimestamp completed)
  have hresponseText := encodable_of_dumpResponse acknowledged.dumped
  rcases encodable_of_response acknowledged.response with
    ⟨hackText, hcustomer, hoperator, hbatch⟩
  rw [acknowledged.extracted] at hackText
  simp only [storable, Bool.and_eq_true] at hstorable
  rcases hstorable with ⟨⟨⟨hcustomerId, hoperatorId⟩, hnumber⟩, hmachine⟩
  simp only [MessageRecord.bindable, Bool.and_eq_true] at hbindable
  rcases hbindable with ⟨⟨⟨htype, htable⟩, hmodel⟩, hserial⟩
  have hmachineId : ((truthy (some config.machineId)).getD defaultMachineId).encodable =
      true := by
    cases hname : truthy (some config.machineId) with
    | none => rfl
    | some name =>
        have heq := (truthy_eq_some.mp hname).1
        cases heq
        exact hmachine
  have hcompletedAt := encodable_formatTimestamp completed
  have hdate := encodable_dateText completed
  have hcompletion : bindAll (completionBindings
      (acknowledged.arguments config (formatTimestamp completed))
      (extractDashboardMetadata acknowledged.response.value)) = .ok () := by
    apply bindAll_eq_ok
    simp only [completionBindings, List.forall_mem_cons, Binding.defect_text,
      Binding.defect_int]
    exact ⟨hcompletedAt, hresponseText, hackText, hcustomerId, hcustomer, hoperatorId,
      hoperator, hbatch, List.forall_mem_nil _⟩
  have hproduction : bindAll (productionBindings row
      ((acknowledged.arguments config (formatTimestamp completed)).completion
        acknowledged.ack (extractDashboardMetadata acknowledged.response.value))
      (Calendar.dateText (completed.second / 86400))) = .ok () := by
    apply bindAll_eq_ok
    simp only [productionBindings, List.forall_mem_cons, Binding.defect_text,
      Binding.defect_int]
    exact ⟨hcompletedAt, hdate, htype, hmachineId, htable, hmodel, hserial, hackText,
      hcustomerId, hcustomer, hoperatorId, hoperator, hnumber, hbatch, hresponseText,
      List.forall_mem_nil _⟩
  rcases upsert_isOk now (writeCompletion id
      (acknowledged.arguments config (formatTimestamp completed))
      (extractDashboardMetadata acknowledged.response.value) db)
    (productionDate_formatTimestamp platform completed) hproduction with ⟨result, hupsert⟩
  refine ⟨result.2, ?_⟩
  unfold markCompleted
  rw [hrow]
  have htruthy : truthy (acknowledged.arguments config (formatTimestamp completed)).ack =
      some acknowledged.ack := truthy_acknowledged acknowledged
  simp only [hmetadata, bind, Except.bind, hcompletion, htruthy, hupsert]

/-! ## The rows of the queue -/

/-- Only the lifecycle thread deletes rows. -/
theorem lifecycle_of_cleanup {s : Bridge} {thread : Thread}
    {retentionDays batchSize : Int}
    (h : s.job thread = some (.cleanup retentionDays batchSize)) :
    thread = .lifecycle ∧ s.lifecycle = .cleaning retentionDays batchSize := by
  cases thread with
  | lifecycle =>
      simp only [Bridge.job] at h
      split at h
      · next hlifecycle =>
        cases h
        exact ⟨rfl, hlifecycle⟩
      · cases h
      · cases h
  | worker => cases workerJob_of_job h
  | watchdog =>
      simp only [Bridge.job] at h
      split at h
      · cases h
      · cases h
  | mqtt =>
      simp only [Bridge.job] at h
      split at h
      · cases h
      · cases h
      · cases h
  | api =>
      simp only [Bridge.job, Option.map_eq_some_iff] at h
      rcases h with ⟨write, -, hwrite⟩
      cases hwrite

theorem bridge_bindable {platform : Platform} {config : Config}
    {past : List BridgeEvent} {s : Bridge}
    (ran : (bridgeSystem platform config).Ran (bridgeSystem platform config).init past s) :
    ∀ id row, s.wal.data.message id = some row → row.bindable = true := by
  refine (bridgeSystem platform config).trace_invariant
    (I := fun _ s => ∀ id row, s.wal.data.message id = some row → row.bindable = true)
    ?_ ?_ ran
  · intro id row hrow
    cases hrow
  intro past m label t _ h hstep
  refine data_step_preserve (P := fun db => ∀ id row, db.message id = some row →
    row.bindable = true) h hstep ?_
  intro thread now job answer _ _ hrun id row hrow
  have hchange := Job.rowChange hrun id
  rw [hrow] at hchange
  exact hchange.bindable (h id)

theorem bridge_wellFormed {platform : Platform} {config : Config}
    {past : List BridgeEvent} {s : Bridge}
    (ran : (bridgeSystem platform config).Ran (bridgeSystem platform config).init past s) :
    s.worker.WellFormed s.config := by
  refine (bridgeSystem platform config).trace_invariant
    (I := fun _ s => s.worker.WellFormed s.config) ?_ ?_ ran
  · exact True.intro
  · intro past m label t _ h hstep
    exact wellFormed_step h hstep

/-! ## The condition -/

/-- The submission has been accepted, and is not yet recorded. -/
def WorkerState.settling : WorkerState → Option (Nat × Text)
  | .processing record _ (.responded response) _ =>
      (extractAck response.value).map fun ack => (record.id, ack)
  | .processing record _ (.completing acknowledged _) _ =>
      some (record.id, acknowledged.ack)
  | _ => none

/-- The submission has been accepted, and `_process_record` has not ended. -/
def WorkerState.finishing (w : WorkerState) : Option (Nat × Text) :=
  w.settling.or w.acking

theorem finishing_of_acking {w : WorkerState} {p : Nat × Text}
    (h : w.acking = some p) : w.finishing = some p := by
  unfold WorkerState.finishing
  rw [h]
  unfold WorkerState.acking at h
  split at h
  · rfl
  · cases h

/-- No crash; an accepted response that `json.dumps` and SQLite can represent; nobody
writes between the first read and the first write of `mark_completed`; and no cleanup
deletes the row before its ACK is published. -/
def keepsAccepted (s : Bridge) : Label → Bool
  | .restart _ => false
  | .respond _ =>
      match s.worker with
      | .processing _ _ (.responded response) _ =>
          (extractAck response.value).isNone || (dumpResponse response).isOk
      | _ => true
  | .lock .worker =>
      match s.worker, s.wal.transaction .worker with
      | .processing _ _ (.completing _ _) _, .reading version _ =>
          s.wal.writer.isNone && version == s.wal.version
      | _, _ => true
  | .commit .worker _ =>
      match s.worker with
      | .processing _ _ (.completing acknowledged _) _ =>
          storable s.config acknowledged.response
      | _ => true
  | .commit .lifecycle now =>
      match s.lifecycle, s.worker with
      | .cleaning retentionDays _, .processing record _ (.publishing _) _ =>
          (s.wal.data.message record.id).all fun row => !isExpired retentionDays now row
      | _, _ => true
  | _ => true

def KeepsAccepted (_past : List BridgeEvent) (s : Bridge) (label : Label) : Prop :=
  keepsAccepted s label = true

instance (past : List BridgeEvent) (s : Bridge) (label : Label) :
    Decidable (KeepsAccepted past s label) :=
  inferInstanceAs (Decidable (keepsAccepted s label = true))

/-! ## The worker's way to the ACK -/

theorem settling_completing {w : WorkerState} {record : MessageRecord}
    {lastAttemptAt completedAt : Text} {acknowledged : Acknowledged}
    {rest : List MessageRecord} {p : Nat × Text}
    (h : w = .processing record lastAttemptAt (.completing acknowledged completedAt) rest)
    (hsettling : w.settling = some p) : p = (record.id, acknowledged.ack) := by
  rw [h] at hsettling
  exact (Option.some.inj hsettling).symm

/-- A transaction of a worker that settles an accepted submission is its completion. -/
theorem completing_of_settling {s : Bridge} {job : Job} {p : Nat × Text}
    (hjob : WorkerJob s job) (hsettling : s.worker.settling = some p) :
    ∃ record lastAttemptAt acknowledged completedAt rest,
      s.worker = .processing record lastAttemptAt
        (.completing acknowledged completedAt) rest ∧
      job = .complete record.id (acknowledged.arguments s.config completedAt) ∧
      p = (record.id, acknowledged.ack) := by
  cases hjob with
  | claiming hworker =>
      rw [hworker] at hsettling
      cases hsettling
  | failing record lastAttemptAt failure rest hworker =>
      rw [hworker] at hsettling
      cases hsettling
  | completing record lastAttemptAt acknowledged completedAt rest hworker =>
      exact ⟨record, lastAttemptAt, acknowledged, completedAt, rest, hworker, rfl,
        settling_completing hworker hsettling⟩

theorem workerMove_settling {s : Bridge} {past : List BridgeEvent} {w : WorkerState}
    {label : Label} (hcond : KeepsAccepted past s label)
    (h : WorkerMove s.config s.stopping s.worker label w) {p : Nat × Text}
    (hsettling : s.worker.settling = some p) : w.settling = some p := by
  generalize hworker : s.worker = before at h hsettling
  cases h with
  | classified record lastAttemptAt rest response now =>
      simp only [KeepsAccepted, keepsAccepted, hworker] at hcond
      simp only [WorkerState.settling, Option.map_eq_some_iff] at hsettling
      rcases hsettling with ⟨ack, hack, rfl⟩
      rw [hack] at hcond
      unfold classify
      split
      · next error hdump =>
        rw [hdump] at hcond
        cases hcond
      · rw [businessError_of_extractAck hack]
        simp only
        split
        · next hnone =>
          rw [hack] at hnone
          cases hnone
        · next other hother =>
          rw [hack, Option.some.injEq] at hother
          subst hother
          rfl
  | _ => cases hsettling

/-- Under the condition the worker takes an accepted submission to its ACK. -/
theorem settling_step {platform : Platform} {past : List BridgeEvent} {s t : Bridge}
    {label : Label} (haccounted : Accounted (completedEvents past) s.ledger)
    (hbindable : ∀ id row, s.wal.data.message id = some row → row.bindable = true)
    (hformed : s.worker.WellFormed s.config) (hcond : KeepsAccepted past s label)
    (hstep : s.step platform label = some t) {p : Nat × Text}
    (hsettling : s.worker.settling = some p) :
    t.worker.settling = some p ∨ t.worker.acking = some p := by
  have hothers : ∀ (wal : Wal Database Thread) {thread : Thread}
      {result : Except PyError Answer}, thread ≠ .worker →
      (({ s with wal := wal } : Bridge).resume thread result).worker.settling = some p := by
    intro wal thread result hthread
    rw [resume_worker_of_ne _ _ hthread]
    exact hsettling
  have hpresent : ∀ {record : MessageRecord} {lastAttemptAt completedAt : Text}
      {acknowledged : Acknowledged} {rest : List MessageRecord},
      s.worker = .processing record lastAttemptAt
        (.completing acknowledged completedAt) rest →
      ∃ row, s.wal.data.message record.id = some row := by
    intro record lastAttemptAt completedAt acknowledged rest hworker
    have hheld : record.id ∈ s.worker.held := by
      rw [hworker]
      exact List.mem_cons_self
    rcases haccounted.heldOpen record.id hheld with ⟨row, hrow, -⟩
    exact ⟨row, hrow⟩
  cases Bridge.step_move hstep with
  | answered thread now job result hjob hidle hearly =>
      left
      by_cases hthread : thread = .worker
      · subst hthread
        rcases completing_of_settling (workerJob_of_job hjob) hsettling with
          ⟨record, lastAttemptAt, acknowledged, completedAt, rest, hworker, rfl, rfl⟩
        rcases hpresent hworker with ⟨row, hrow⟩
        simp [Job.earlyAnswer, hrow] at hearly
      · exact hothers s.wal hthread
  | refused thread job version snapshot hjob hreading hrefused =>
      left
      by_cases hthread : thread = .worker
      · subst hthread
        rcases completing_of_settling (workerJob_of_job hjob) hsettling with
          ⟨record, lastAttemptAt, acknowledged, completedAt, rest, hworker, rfl, rfl⟩
        simp only [KeepsAccepted, keepsAccepted, hworker, hreading] at hcond
        exact absurd (Wal.lock_of_current hreading hcond) (hrefused _)
      · exact hothers _ hthread
  | gaveUp thread job hjob hidle hfirst =>
      left
      by_cases hthread : thread = .worker
      · subst hthread
        rcases completing_of_settling (workerJob_of_job hjob) hsettling with
          ⟨record, lastAttemptAt, acknowledged, completedAt, rest, hworker, rfl, rfl⟩
        cases hfirst
      · exact hothers s.wal hthread
  | committed thread now job answer db hjob hwriting hrun =>
      by_cases hthread : thread = .worker
      · subst hthread
        right
        rcases completing_of_settling (workerJob_of_job hjob) hsettling with
          ⟨record, lastAttemptAt, acknowledged, completedAt, rest, hworker, rfl, rfl⟩
        simp [Bridge.resume, hworker, WorkerState.answered, WorkerState.acking]
      · exact .inl (hothers _ hthread)
  | failed thread now job error hjob hwriting hrun =>
      left
      by_cases hthread : thread = .worker
      · subst hthread
        rcases completing_of_settling (workerJob_of_job hjob) hsettling with
          ⟨record, lastAttemptAt, acknowledged, completedAt, rest, hworker, rfl, rfl⟩
        rcases hpresent hworker with ⟨row, hrow⟩
        simp only [KeepsAccepted, keepsAccepted, hworker] at hcond
        rw [hworker] at hformed
        rcases hformed with ⟨completed, rfl⟩
        rcases markCompleted_isOk platform completed now hrow (hbindable _ _ hrow) hcond
          with ⟨after, hok⟩
        simp [Job.run, hok, Except.map] at hrun
      · exact hothers _ hthread
  | worker label worker hlabel hworker =>
      exact .inl (workerMove_settling hcond (workerStep_move hworker) hsettling)
  | restarted config => cases hcond
  | _ => exact .inl hsettling

theorem acking_present {platform : Platform} {past : List BridgeEvent} {s t : Bridge}
    {label : Label} (hcond : KeepsAccepted past s label)
    (hstep : s.step platform label = some t) {id : Nat} {ack : Text}
    (hacking : s.worker.acking = some (id, ack)) {row : MessageRecord}
    (hrow : s.wal.data.message id = some row) : ∃ next, t.wal.data.message id = some next := by
  refine data_step_preserve (P := fun db => ∃ next, db.message id = some next) ⟨row, hrow⟩
    hstep ?_
  intro thread now job answer hlabel hjob hrun
  have hchange := Job.rowChange hrun id
  rw [hrow] at hchange
  cases hnext : t.wal.data.message id with
  | some next => exact ⟨next, rfl⟩
  | none =>
      rw [hnext] at hchange
      cases hchange with
      | deleted _ hexpired =>
          rcases lifecycle_of_cleanup hjob with ⟨rfl, hlifecycle⟩
          unfold WorkerState.acking at hacking
          split at hacking
          · next record _ other _ hworker =>
            cases hacking
            subst hlabel
            simp only [KeepsAccepted, keepsAccepted, hlifecycle, hworker, hrow,
              Option.all_some, hexpired] at hcond
            cases hcond
          · cases hacking

def BridgeEvent.acceptedId : BridgeEvent → Option Nat
  | .accepted id _ => some id
  | _ => none

/-- An accepted response is shown when the worker receives it. -/
theorem accepted_settling {platform : Platform} {s t : Bridge} {label : Label}
    (hstep : s.step platform label = some t) {id : Nat} {ack : Text}
    (h : .accepted id ack ∈ s.observe platform label) :
    label = .collect ∧ t.worker.settling = some (id, ack) := by
  cases Bridge.observe_shown h with
  | accepted ack hsubmitting hack =>
      simp only [Bridge.step, Label.thread, Bridge.localStep, hsubmitting, workerStep,
        Option.map_some, Option.some.injEq] at hstep
      subst hstep
      simp [collectResult, WorkerState.ofStage, WorkerState.settling, hack]

/-! ## The invariant -/

structure AcceptedSettled (past : List BridgeEvent) (s : Bridge) : Prop where
  accepted : ∀ id ack, .accepted id ack ∈ past →
    s.worker.settling = some (id, ack) ∨ Acked past id ack
  present : ∀ id ack, s.worker.acking = some (id, ack) →
    ∃ row, s.wal.data.message id = some row
  claims : past.Pairwise (NotClaimedAfter BridgeEvent.acceptedId)

theorem acceptedSettled_init (config : Config) :
    AcceptedSettled [] (.start config .empty) where
  accepted := nofun
  present := nofun
  claims := .nil

/-- A claim takes no row that has been accepted. -/
theorem AcceptedSettled.not_claimed {platform : Platform} {past : List BridgeEvent}
    {s : Bridge} {label : Label} (h : AcceptedSettled past s)
    (haccounted : Accounted (completedEvents past) s.ledger) {id : Nat} {ack : Text}
    (haccepted : .accepted id ack ∈ past) {ids : List Nat}
    (hclaimed : .claimed ids ∈ s.observe platform label) : id ∉ ids := by
  intro hmem
  rcases pending_of_claimed hclaimed hmem with ⟨hclaiming, row, hrow, hpending⟩
  rcases h.accepted id ack haccepted with hsettling | ⟨event, hevent, rfl, -⟩
  · rw [hclaiming] at hsettling
    cases hsettling
  · have hstatus := (haccounted.settled event hevent row hrow).status
    simp [isPending, hstatus] at hpending

theorem AcceptedSettled.step {platform : Platform} {config : Config}
    {past : List BridgeEvent} {s t : Bridge} {label : Label} (h : AcceptedSettled past s)
    (ran : (bridgeSystem platform config).Ran (bridgeSystem platform config).init past s)
    (hcond : KeepsAccepted past s label) (hstep : s.step platform label = some t) :
    AcceptedSettled (past ++ s.observe platform label) t := by
  have haccounted := bridge_accounted ran
  have hnext := bridge_acksSound (ran.snoc hstep)
  refine ⟨?_, ?_, ?_⟩
  · intro id ack haccepted
    rcases List.mem_append.mp haccepted with hold | hnew
    · rcases h.accepted id ack hold with hsettling | hacked
      · rcases settling_step haccounted (bridge_bindable ran) (bridge_wellFormed ran) hcond
          hstep hsettling with hsettling' | hacking
        · exact .inl hsettling'
        · exact .inr (hnext.worker id ack hacking)
      · exact .inr (hacked.append _)
    · exact .inl (accepted_settling hstep hnew).2
  · intro id ack hacking
    rcases worker_acking_step hstep hacking with hbefore | ⟨row, hrow, -⟩
    · rcases h.present id ack hbefore with ⟨row, hrow⟩
      exact acking_present hcond hstep hbefore hrow
    · exact ⟨row, hrow⟩
  · apply notClaimedAfter_append h.claims
    · intro id hid ids hclaimed
      rcases List.mem_filterMap.mp hid with ⟨e, he, heq⟩
      cases e with
      | accepted other ack =>
          cases heq
          exact h.not_claimed haccounted he hclaimed
      | _ => cases heq
    · intro id hid ids hclaimed
      rcases List.mem_filterMap.mp hid with ⟨e, he, heq⟩
      cases e with
      | accepted other ack =>
          have hcollect := (accepted_settling hstep he).1
          rcases claimed_commit hclaimed with ⟨now, -, -, rfl, -⟩
          cases hcollect
      | _ => cases heq

theorem acceptedSettled_run {platform : Platform} {config : Config}
    {labels : List Label} {s : Bridge}
    (along : (bridgeSystem platform config).Along KeepsAccepted []
      (bridgeSystem platform config).init labels)
    (run : (bridgeSystem platform config).exec (bridgeSystem platform config).init labels =
      some s) :
    AcceptedSettled ((bridgeSystem platform config).trace
      (bridgeSystem platform config).init labels) s := by
  refine (bridgeSystem platform config).run_invariant (I := AcceptedSettled)
    (acceptedSettled_init config) ?_ along run
  intro past m label t hran h hcond hstep
  exact h.step hran hcond hstep

/--
In every run that keeps the accepted submissions, a submission that returns a success
with an ACK leaves its row `COMPLETED` with this ACK when `_process_record` ends, and
no later claim returns the row.
-/
theorem accepted_row_completed {platform : Platform} {config : Config}
    {labels : List Label} {s t : Bridge} {label : Label}
    (along : (bridgeSystem platform config).Along KeepsAccepted []
      (bridgeSystem platform config).init (labels ++ [label]))
    (run : (bridgeSystem platform config).exec (bridgeSystem platform config).init labels =
      some s)
    (hstep : s.step platform label = some t) :
    (∀ id ack, .accepted id ack ∈ s.observe platform label →
      t.worker.finishing = some (id, ack)) ∧
    (∀ id ack, s.worker.finishing = some (id, ack) →
      t.worker.finishing ≠ some (id, ack) →
      ∃ row, t.wal.data.message id = some row ∧ CarriesAck platform row ack) ∧
    ((bridgeSystem platform config).trace (bridgeSystem platform config).init
      (labels ++ [label])).Pairwise (NotClaimedAfter BridgeEvent.acceptedId) := by
  have hsplit := ((bridgeSystem platform config).along_snoc run).mp along
  have hran : (bridgeSystem platform config).Ran _ _ s := ⟨labels, run, rfl⟩
  have hsettled := acceptedSettled_run hsplit.1 run
  have hnext := hsettled.step hran hsplit.2 hstep
  refine ⟨?_, ?_, ?_⟩
  · intro id ack haccepted
    simp [WorkerState.finishing, (accepted_settling hstep haccepted).2]
  · intro id ack hfinishing hended
    rw [WorkerState.finishing, Option.or_eq_some_iff] at hfinishing
    rcases hfinishing with hsettling | ⟨-, hacking⟩
    · exfalso
      rcases settling_step (bridge_accounted hran) (bridge_bindable hran)
        (bridge_wellFormed hran) hsplit.2 hstep hsettling with hsettling' | hacking
      · exact hended (by simp [WorkerState.finishing, hsettling'])
      · exact hended (finishing_of_acking hacking)
    · rcases hsettled.present id ack hacking with ⟨row, hrow⟩
      rcases acking_present hsplit.2 hstep hacking hrow with ⟨next, hnow⟩
      have hacked := ((bridge_acksSound hran).worker id ack hacking).append
        (s.observe platform label)
      have hran' := hran.snoc hstep
      exact ⟨next, hnow, (bridge_acksSound hran').row (bridge_accounted hran') hacked hnow⟩
  · rw [(bridgeSystem platform config).trace_snoc run hstep]
    exact hnext.claims

/-! ## Another writer in between -/

/-- Between the first read and the first write of `mark_completed` the MQTT callback
stores another message. -/
def completionOvertaken : List Label :=
  receives compactPayload ++ claims ++ submits noon sampleOdooResponse ++
    [.begin .worker noon] ++ receives nextPayload ++ [.lock .worker]

/-- The watchdog makes the row retryable, and the worker claims. -/
def claimedAfterAcceptance : List Label :=
  completionOvertaken ++ watches (atNoon 70) ++ claims

def acceptedIds (past : List BridgeEvent) : List Nat :=
  past.filterMap BridgeEvent.acceptedId

/-- `mark_completed` fails, `_process_record` leaves an accepted row `PROCESSING`, and
a later claim returns it. -/
theorem accepted_row_claimed_again :
    (∃ s, (bridgeSystem samplePlatform sampleConfig).exec
        (bridgeSystem samplePlatform sampleConfig).init completionOvertaken = some s ∧
      s.worker.finishing = none ∧ rowStatus s 1 = some .processing) ∧
    acceptedIds ((bridgeSystem samplePlatform sampleConfig).trace
      (bridgeSystem samplePlatform sampleConfig).init completionOvertaken) = [1] ∧
    ((bridgeSystem samplePlatform sampleConfig).exec
      (bridgeSystem samplePlatform sampleConfig).init claimedAfterAcceptance).isSome ∧
    ¬ ((bridgeSystem samplePlatform sampleConfig).trace
      (bridgeSystem samplePlatform sampleConfig).init claimedAfterAcceptance).Pairwise
        (NotClaimedAfter BridgeEvent.acceptedId) := by
  refine ⟨?_, by decide +kernel, by decide +kernel, by decide +kernel⟩
  have hrun : ((bridgeSystem samplePlatform sampleConfig).exec
      (bridgeSystem samplePlatform sampleConfig).init completionOvertaken).map
        (fun s => (s.worker.finishing, rowStatus s 1)) = some (none, some .processing) := by
    decide +kernel
  rcases Option.map_eq_some_iff.mp hrun with ⟨s, hs, hvalues⟩
  rw [Prod.mk.injEq] at hvalues
  exact ⟨s, hs, hvalues⟩

/-- The ACK of a completed submission is published, and the worker claims again. -/
def completionRecorded : List Label :=
  receives compactPayload ++ claims ++ submits noon sampleOdooResponse ++
    [.begin .worker noon, .lock .worker, .commit .worker noon]

theorem accepted_row_completed_sample :
    ∃ s t, (bridgeSystem samplePlatform sampleConfig).exec
        (bridgeSystem samplePlatform sampleConfig).init completionRecorded = some s ∧
      s.step samplePlatform .publishAck = some t ∧
      ∃ row, t.wal.data.message 1 = some row ∧
        CarriesAck samplePlatform row (str "A1") := by
  have halong : (bridgeSystem samplePlatform sampleConfig).Along KeepsAccepted []
      (bridgeSystem samplePlatform sampleConfig).init
      (completionRecorded ++ [.publishAck]) := by decide +kernel
  have hrun : (((bridgeSystem samplePlatform sampleConfig).exec
      (bridgeSystem samplePlatform sampleConfig).init completionRecorded).bind fun s =>
        (s.step samplePlatform .publishAck).map fun t =>
          (s.worker.finishing, t.worker.finishing)) =
      some (some (1, str "A1"), none) := by decide +kernel
  rcases Option.bind_eq_some_iff.mp hrun with ⟨s, hs, hstep⟩
  rcases Option.map_eq_some_iff.mp hstep with ⟨t, ht, hvalues⟩
  rw [Prod.mk.injEq] at hvalues
  refine ⟨s, t, hs, ht, (accepted_row_completed halong hs ht).2.1 1 (str "A1") hvalues.1 ?_⟩
  rw [hvalues.2]
  nofun

end EdgeBridge
