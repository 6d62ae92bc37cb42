import EdgeBridge.Bridge.Refinement

/-!
# The status diagram

The documented diagram of the queue status under worker and watchdog.  It holds
as long as no watchdog pass finds a row of the worker's batch stale; the watchdog
protects only the one record whose child is alive.
-/

namespace EdgeBridge

open Foundation

/-- The arrows of the documented diagram, with the transactions that take them. -/
inductive DiagramMove : Job → MessageStatus → MessageStatus → Prop
  | claimNew (batchSize maxRetries : Int) :
      DiagramMove (.claim batchSize maxRetries) .new .processing
  | claimFailed (batchSize maxRetries : Int) :
      DiagramMove (.claim batchSize maxRetries) .failed .processing
  | completed (id : Nat) (arguments : CompletionArguments) :
      DiagramMove (.complete id arguments) .processing .completed
  | failed (id : Nat) (failure : Failure) :
      DiagramMove (.fail id failure) .processing .failed
  | recovered (staleBefore : Text) (excludeIds : List Nat) :
      DiagramMove (.recover staleBefore excludeIds) .processing .failed

/-- Every row that the worker holds is `PROCESSING`. -/
def HeldProcessing (s : Bridge) : Prop :=
  ∀ id ∈ s.worker.held, ∃ row, s.wal.data.message id = some row ∧
    row.status = .processing

/-- The `UPDATE` of a watchdog pass matches no row that the worker holds. -/
def sparesBatch (s : Bridge) : Label → Bool
  | .commit .watchdog _ =>
      match s.watchdog with
      | .recovering staleBefore excludeIds => s.worker.held.all fun id =>
          (s.wal.data.message id).all fun row => !isStale staleBefore excludeIds row
      | .idle => true
  | _ => true

def WatchdogSparesBatch (_past : List BridgeEvent) (s : Bridge) (label : Label) : Prop :=
  sparesBatch s label = true

instance (past : List BridgeEvent) (s : Bridge) (label : Label) :
    Decidable (WatchdogSparesBatch past s label) :=
  inferInstanceAs (Decidable (sparesBatch s label = true))

theorem WatchdogSparesBatch.fresh {past : List BridgeEvent} {s : Bridge} {now : Datetime}
    (h : WatchdogSparesBatch past s (.commit .watchdog now)) {staleBefore : Text}
    {excludeIds : List Nat} (hwatchdog : s.watchdog = .recovering staleBefore excludeIds)
    {id : Nat} (hid : id ∈ s.worker.held) {row : MessageRecord}
    (hrow : s.wal.data.message id = some row) :
    isStale staleBefore excludeIds row = false := by
  simp only [WatchdogSparesBatch, sparesBatch, hwatchdog, List.all_eq_true] at h
  have hall := h id hid
  rw [hrow] at hall
  simpa using hall

theorem RowChange.status {now : Datetime} {seq id : Nat} {job : Job} {answer : Answer}
    {row next : MessageRecord}
    (h : RowChange now seq id job answer (some row) (some next)) :
    next.status = row.status ∨ DiagramMove job row.status next.status ∨
      (∃ arguments, job = .complete id arguments ∧ next.status = .completed) ∨
      (∃ failure, job = .fail id failure ∧ next.status = .failed) := by
  cases h with
  | kept => exact .inl rfl
  | claimed _ hpending _ =>
      right
      left
      simp only [isPending, Bool.or_eq_true, Bool.and_eq_true, beq_iff_eq] at hpending
      rcases hpending with hnew | ⟨hfailed, -⟩
      · rw [hnew]
        exact .claimNew _ _
      · rw [hfailed]
        exact .claimFailed _ _
  | completed _ _ => exact .inr (.inr (.inl ⟨_, rfl, rfl⟩))
  | failed _ => exact .inr (.inr (.inr ⟨_, rfl, rfl⟩))
  | recovered _ hstale =>
      right
      left
      simp only [isStale, Bool.and_eq_true, beq_iff_eq] at hstale
      rw [hstale.1.1]
      exact .recovered _ _
  | replayed _ _ => exact .inl rfl

/-- The job of the watchdog is the `UPDATE` of its pass. -/
theorem watchdogJob {s : Bridge} {job : Job} (h : s.job .watchdog = some job) :
    ∃ staleBefore excludeIds, s.watchdog = .recovering staleBefore excludeIds ∧
      job = .recover staleBefore excludeIds := by
  simp only [Bridge.job] at h
  split at h
  · next staleBefore excludeIds hwatchdog =>
    cases h
    exact ⟨staleBefore, excludeIds, hwatchdog, rfl⟩
  · cases h

/-- Only the watchdog recovers rows. -/
theorem thread_of_recover {s : Bridge} {thread : Thread} {staleBefore : Text}
    {excludeIds : List Nat}
    (h : s.job thread = some (.recover staleBefore excludeIds)) : thread = .watchdog := by
  cases thread with
  | watchdog => rfl
  | worker => cases workerJob_of_job h
  | mqtt =>
      simp only [Bridge.job] at h
      split at h <;> cases h
  | lifecycle =>
      simp only [Bridge.job] at h
      split at h <;> cases h
  | api =>
      simp only [Bridge.job, Option.map_eq_some_iff] at h
      rcases h with ⟨write, -, hwrite⟩
      cases hwrite

theorem heldProcessing_commit {platform : Platform} {s : Bridge} {thread : Thread}
    {now : Datetime} {job : Job} {answer : Answer} {db : Database}
    {past : List BridgeEvent} (hnodup : s.worker.held.Nodup) (hheld : HeldProcessing s)
    (hspares : WatchdogSparesBatch past s (.commit thread now))
    (hjob : s.job thread = some job)
    (hrun : job.run platform now s.wal.data = .ok (answer, db)) :
    ∀ id ∈ Ledger.heldAfter s.worker.held job answer,
      ∃ row, db.message id = some row ∧ row.status = .processing := by
  have hkeep : ∀ id ∈ s.worker.held, (∀ arguments, job ≠ .complete id arguments) →
      (∀ failure, job ≠ .fail id failure) →
      ∃ row, db.message id = some row ∧ row.status = .processing := by
    intro id hid hcomplete hfail
    rcases hheld id hid with ⟨row, hrow, hstatus⟩
    have hchange := Job.rowChange hrun id
    rw [hrow] at hchange
    rcases hchange.of_open (.inl hstatus) hcomplete with ⟨next, hnext, -⟩
    refine ⟨next, hnext, ?_⟩
    rw [hnext] at hchange
    cases hchange with
    | kept => exact hstatus
    | claimed _ _ _ => rfl
    | completed _ _ => exact absurd rfl (hcomplete _)
    | failed _ => exact absurd rfl (hfail _)
    | recovered _ hstale =>
        have hthread := thread_of_recover hjob
        subst hthread
        rcases watchdogJob hjob with ⟨staleBefore, excludeIds, hwatchdog, heq⟩
        cases heq
        have hfresh := hspares.fresh hwatchdog hid hrow
        rw [hfresh] at hstale
        cases hstale
    | replayed _ _ => exact hstatus
  by_cases hthread : thread = .worker
  · subst hthread
    cases workerJob_of_job hjob with
    | claiming hworker =>
        rcases map_eq_ok.mp hrun with ⟨⟨records, result⟩, hclaim, heq⟩
        cases heq
        rcases claimPendingMessages_eq_ok hclaim with ⟨-, -, -, hin, -⟩
        intro id hid
        rcases List.mem_map.mp hid with ⟨record, hrecord, rfl⟩
        rcases hin record hrecord with ⟨row, -, -, heq, hnow⟩
        refine ⟨record, hnow, ?_⟩
        rw [heq]
        rfl
    | failing record lastAttemptAt failure rest hworker =>
        intro id hid
        have hmem : id ∈ s.worker.held := List.mem_of_mem_erase hid
        refine hkeep id hmem (fun _ hother => Job.noConfusion hother) ?_
        rintro other hother
        cases hother
        exact hnodup.not_mem_erase hid
    | completing record lastAttemptAt acknowledged completedAt rest hworker =>
        intro id hid
        refine hkeep id (List.mem_of_mem_erase hid) ?_ nofun
        rintro other hother
        cases hother
        exact hnodup.not_mem_erase hid
  · rcases job_of_ne_worker hthread hjob with ⟨-, hsame, hcomplete, hfail, -⟩
    rw [hsame]
    intro id hid
    exact hkeep id hid (hcomplete id) (hfail id)

theorem heldProcessing_step {platform : Platform} {past : List BridgeEvent}
    {s t : Bridge} {label : Label} (hnodup : s.worker.held.Nodup)
    (hheld : HeldProcessing s) (hspares : WatchdogSparesBatch past s label)
    (hstep : s.step platform label = some t) : HeldProcessing t := by
  have hmove := Bridge.step_move hstep
  by_cases hcommit : ∃ thread now, label = .commit thread now
  · rcases hcommit with ⟨thread, now, rfl⟩
    cases hmove with
    | committed _ _ job answer db hjob hwriting hrun =>
        have hworker : ∀ wal : Wal Database Thread,
            (({ s with wal := wal } : Bridge).resume thread (.ok answer)).worker =
              (s.resume thread (.ok answer)).worker := by
          intro wal
          cases thread <;> rfl
        intro id hid
        rw [hworker] at hid
        rw [resume_wal]
        cases hwrote : answer.wrote with
        | true =>
            rw [(Move.ledger_commit hjob hrun).2] at hid
            exact heldProcessing_commit hnodup hheld hspares hjob hrun id hid
        | false =>
            rw [held_of_not_wrote hjob hrun hwrote] at hid
            exact hheld id hid
    | failed _ _ job error hjob hwriting hrun =>
        intro id hid
        rw [resume_wal]
        by_cases hthread : thread = .worker
        · subst hthread
          cases hid
        · rw [resume_worker_of_ne _ _ hthread] at hid
          exact hheld id hid
    | worker _ _ hlabel _ => cases hlabel
    | mqtt _ _ hlabel _ => cases hlabel
    | lifecycle _ _ hlabel _ => cases hlabel
  · rcases hmove.quiet (fun thread now hlabel => hcommit ⟨thread, now, hlabel⟩) with
      ⟨hdata, hsame | hempty⟩
    · intro id hid
      rw [hdata]
      exact hheld id (hsame ▸ hid)
    · intro id hid
      rw [hempty] at hid
      cases hid

theorem heldProcessing_run {platform : Platform} {config : Config}
    {labels : List Label} {s : Bridge}
    (along : (bridgeSystem platform config).Along WatchdogSparesBatch []
      (bridgeSystem platform config).init labels)
    (run : (bridgeSystem platform config).exec (bridgeSystem platform config).init labels =
      some s) : HeldProcessing s := by
  refine (bridgeSystem platform config).run_invariant (I := fun _ s => HeldProcessing s)
    ?_ ?_ along run
  · intro id hid
    cases hid
  · intro past m label t hran hheld hspares hstep
    exact heldProcessing_step (bridge_accounted hran).heldNodup hheld hspares hstep

/-- The worker marks a row of its batch, so the row is `PROCESSING`. -/
theorem HeldProcessing.marked {s : Bridge} (h : HeldProcessing s) {id : Nat}
    (hjob : (∃ arguments, s.job .worker = some (.complete id arguments)) ∨
      ∃ failure, s.job .worker = some (.fail id failure)) :
    ∃ row, s.wal.data.message id = some row ∧ row.status = .processing := by
  apply h
  obtain ⟨arguments, hjob⟩ | ⟨failure, hjob⟩ := hjob
  · cases workerJob_of_job hjob with
    | completing record lastAttemptAt acknowledged completedAt rest hworker =>
        rw [hworker]
        exact List.mem_cons_self
  · cases workerJob_of_job hjob with
    | failing record lastAttemptAt failure rest hworker =>
        rw [hworker]
        exact List.mem_cons_self

/-- A transaction that changes the status of a row follows an arrow. -/
theorem HeldProcessing.diagramMove {platform : Platform} {s : Bridge} (h : HeldProcessing s)
    {thread : Thread} {now : Datetime} {job : Job} {answer : Answer} {db : Database}
    (hjob : s.job thread = some job)
    (hrun : job.run platform now s.wal.data = .ok (answer, db)) {id : Nat}
    {row next : MessageRecord} (hrow : s.wal.data.message id = some row)
    (hnext : db.message id = some next) (hne : row.status ≠ next.status) :
    DiagramMove job row.status next.status := by
  have hchange := Job.rowChange hrun id
  rw [hrow, hnext] at hchange
  obtain hsame | harrow | ⟨arguments, rfl, hstatus⟩ | ⟨failure, rfl, hstatus⟩ := hchange.status
  · exact absurd hsame.symm hne
  · exact harrow
  · have hthread : thread = .worker := by
      by_contra hthread
      exact (job_of_ne_worker hthread hjob).2.2.1 _ _ rfl
    subst hthread
    obtain ⟨row', hrow', hprocessing⟩ := h.marked (.inl ⟨arguments, hjob⟩)
    rw [hrow, Option.some.injEq] at hrow'
    rw [hrow', hprocessing, hstatus]
    exact .completed id arguments
  · have hthread : thread = .worker := by
      by_contra hthread
      exact (job_of_ne_worker hthread hjob).2.2.2.1 _ _ rfl
    subst hthread
    obtain ⟨row', hrow', hprocessing⟩ := h.marked (.inr ⟨failure, hjob⟩)
    rw [hrow, Option.some.injEq] at hrow'
    rw [hrow', hprocessing, hstatus]
    exact .failed id failure

/--
In every run whose watchdog passes spare the batch, the rows of the batch are
`PROCESSING` until the worker marks them, and every change of a status, in
particular by `mark_completed` and `mark_failed`, is an arrow of the diagram.
-/
theorem status_follows_diagram {platform : Platform} {config : Config}
    {labels : List Label} {s t : Bridge} {label : Label}
    (along : (bridgeSystem platform config).Along WatchdogSparesBatch []
      (bridgeSystem platform config).init (labels ++ [label]))
    (run : (bridgeSystem platform config).exec (bridgeSystem platform config).init labels =
      some s)
    (hstep : s.step platform label = some t) :
    HeldProcessing s ∧ HeldProcessing t ∧
      (∀ id row next, s.wal.data.message id = some row →
        t.wal.data.message id = some next → row.status ≠ next.status →
        ∃ thread now job, label = .commit thread now ∧ s.job thread = some job ∧
          DiagramMove job row.status next.status) ∧
      ∀ now id, label = .commit .worker now →
        ((∃ arguments, s.job .worker = some (.complete id arguments)) ∨
          ∃ failure, s.job .worker = some (.fail id failure)) →
        ∃ row, s.wal.data.message id = some row ∧ row.status = .processing := by
  have hsplit := ((bridgeSystem platform config).along_snoc run).mp along
  have hheld := heldProcessing_run hsplit.1 run
  have hnodup := (bridge_accounted ⟨labels, run, rfl⟩).heldNodup
  refine ⟨hheld, heldProcessing_step hnodup hheld hsplit.2 hstep, ?_, ?_⟩
  · intro id row next hrow hnext hne
    have hmove := Bridge.step_move hstep
    by_cases hcommit : ∃ thread now, label = .commit thread now
    · rcases hcommit with ⟨thread, now, rfl⟩
      cases hmove with
      | committed _ _ job answer db hjob hwriting hrun =>
          refine ⟨thread, now, job, rfl, hjob, ?_⟩
          rw [resume_wal] at hnext
          cases hwrote : answer.wrote with
          | false =>
              rw [hwrote] at hnext
              rw [show s.wal.data.message id = some next from hnext] at hrow
              cases hrow
              exact absurd rfl hne
          | true =>
              rw [hwrote] at hnext
              exact hheld.diagramMove hjob hrun hrow hnext hne
      | failed _ _ job error hjob hwriting hrun =>
          rw [resume_wal] at hnext
          rw [show s.wal.data.message id = some next from hnext] at hrow
          cases hrow
          exact absurd rfl hne
      | worker _ _ hlabel _ => cases hlabel
      | mqtt _ _ hlabel _ => cases hlabel
      | lifecycle _ _ hlabel _ => cases hlabel
    · rcases hmove.quiet (fun thread now hlabel => hcommit ⟨thread, now, hlabel⟩) with
        ⟨hdata, -⟩
      rw [hdata, hrow] at hnext
      cases hnext
      exact absurd rfl hne
  · intro now id _ hjob
    exact hheld.marked hjob

/-! ## A batch that outlives the stale timeout -/

def sampleConfig : Config where
  batchSize := 10
  maxRetries := 3
  staleProcessingTimeout := 60
  submissionTimeout := 90
  machineId := defaultMachineId

def sampleOdooResponse : OdooResponse where
  value := .dict [(str "success", .bool true),
    (str "result", .dict [(str "ACK", .text (str "A1"))])]
  unmarshalled := by decide

/-- A new message is delivered and stored. -/
def receives (payload : Text) : List Label :=
  [.deliver plcToOdooTopic (payload.map UInt8.ofNat), .begin .mqtt noon, .lock .mqtt,
    .commit .mqtt noon, .finishMessage]

def claims : List Label := [.cycle, .lock .worker, .commit .worker noon]

/-- A record is submitted and its child writes the response. -/
def submits (now : Datetime) (response : OdooResponse) : List Label :=
  [.next now, .spawn true, .childOpens, .childWrites (.response response),
    .childExits 0, .collect, .respond now]

/-- A pass of the watchdog. -/
def watches (now : Datetime) : List Label :=
  [.watch now, .lock .watchdog, .commit .watchdog now]

def rowStatus (s : Bridge) (id : Nat) : Option MessageStatus :=
  (s.wal.data.message id).map MessageRecord.status

/-- Two messages are claimed at once; while the first is in flight for seventy
seconds the watchdog recovers the second. -/
def recoveredInBatch : List Label :=
  receives compactPayload ++ receives nextPayload ++ claims ++
    [.next noon, .spawn true] ++ watches (atNoon 70) ++
    [.childOpens, .childWrites (.response sampleOdooResponse), .childExits 0, .collect,
      .respond (atNoon 80), .begin .worker (atNoon 80), .lock .worker,
      .commit .worker (atNoon 80), .publishAck] ++
    submits (atNoon 81) sampleOdooResponse ++ [.begin .worker (atNoon 82), .lock .worker]

/-- The watchdog moves a row of the batch, and `mark_completed` completes it from
`FAILED`. -/
theorem failed_row_completed :
    ∃ s t, (bridgeSystem samplePlatform sampleConfig).exec
        (bridgeSystem samplePlatform sampleConfig).init recoveredInBatch = some s ∧
      s.step samplePlatform (.commit .worker (atNoon 82)) = some t ∧
      2 ∈ s.worker.held ∧ rowStatus s 2 = some .failed ∧
      rowStatus t 2 = some .completed := by
  have hrun : (((bridgeSystem samplePlatform sampleConfig).exec
      (bridgeSystem samplePlatform sampleConfig).init recoveredInBatch).bind fun s =>
        (s.step samplePlatform (.commit .worker (atNoon 82))).map fun t =>
          (decide (2 ∈ s.worker.held), rowStatus s 2, rowStatus t 2)) =
      some (true, some .failed, some .completed) := by decide +kernel
  rcases Option.bind_eq_some_iff.mp hrun with ⟨s, hs, hstep⟩
  rcases Option.map_eq_some_iff.mp hstep with ⟨t, ht, hvalues⟩
  simp only [Prod.mk.injEq, decide_eq_true_eq] at hvalues
  exact ⟨s, t, hs, ht, hvalues⟩

/-- One record alone in its batch is protected while its child runs. -/
def protectedInFlight : List Label :=
  receives compactPayload ++ claims ++ [.next noon, .spawn true] ++
    [.watch (atNoon 70), .lock .watchdog]

theorem status_follows_diagram_sample :
    ∃ s t, (bridgeSystem samplePlatform sampleConfig).exec
        (bridgeSystem samplePlatform sampleConfig).init protectedInFlight = some s ∧
      s.step samplePlatform (.commit .watchdog (atNoon 70)) = some t ∧
      HeldProcessing s ∧ HeldProcessing t := by
  have halong : (bridgeSystem samplePlatform sampleConfig).Along WatchdogSparesBatch []
      (bridgeSystem samplePlatform sampleConfig).init
      (protectedInFlight ++ [.commit .watchdog (atNoon 70)]) := by decide +kernel
  have hrun : (((bridgeSystem samplePlatform sampleConfig).exec
      (bridgeSystem samplePlatform sampleConfig).init protectedInFlight).bind fun s =>
        s.step samplePlatform (.commit .watchdog (atNoon 70))).isSome = true := by
    decide +kernel
  rcases Option.isSome_iff_exists.mp hrun with ⟨t, hbind⟩
  rcases Option.bind_eq_some_iff.mp hbind with ⟨s, hs, ht⟩
  have hdiagram := status_follows_diagram halong hs ht
  exact ⟨s, t, hs, ht, hdiagram.1, hdiagram.2.1⟩

end EdgeBridge
