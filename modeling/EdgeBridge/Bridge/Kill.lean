import EdgeBridge.Bridge.Hand
import EdgeBridge.Bridge.StatusDiagram

/-!
# Killed submissions

A child that the parent kills leaves the outcome of its submission unknown.  Its
row is not claimed again as long as every failure it is charged with is its last,
and the worker does not lose it in the meantime.
-/

namespace EdgeBridge

open Foundation

def BridgeEvent.killedId : BridgeEvent → Option Nat
  | .killed id => some id
  | _ => none

def killedIds (past : List BridgeEvent) : List Nat :=
  past.filterMap BridgeEvent.killedId

/-! ## The condition -/

/-- The row is not one that `claim_pending_messages` takes for a retry. -/
def noRetryLeft (maxRetries : Int) (row : MessageRecord) : Bool :=
  row.status != .failed || decide (maxRetries ≤ (row.retryCount : Int))

/-- One more failure is the last. -/
def lastRetry (maxRetries : Int) (row : MessageRecord) : Bool :=
  decide (maxRetries ≤ (row.retryCount + 1 : Nat))

/-- A step does not make a killed row retryable: a retryable failure and a recovery
by the watchdog are its last, a restart does not raise `max_retries` above its
counter, and an exception does not leave it behind after the watchdog gave it back. -/
def suppressesRetry (platform : Platform) (s : Bridge) (label : Label)
    (row : MessageRecord) : Bool :=
  if s.raises platform label then
    s.worker.inHand != some row.id || noRetryLeft s.config.maxRetries row
  else
    match label with
    | .commit .worker _ =>
        match s.job .worker with
        | some (.fail id failure) =>
            id != row.id || !failure.retryable || lastRetry s.config.maxRetries row
        | _ => true
    | .commit .watchdog _ =>
        match s.watchdog with
        | .recovering staleBefore excludeIds =>
            s.worker.inHand == some row.id || !isStale staleBefore excludeIds row ||
              lastRetry s.config.maxRetries row
        | .idle => true
    | .restart config => noRetryLeft config.maxRetries row
    | _ => true

def KilledStayFailed (platform : Platform) (past : List BridgeEvent) (s : Bridge)
    (label : Label) : Prop :=
  ∀ id ∈ killedIds past, (s.wal.data.message id).all (suppressesRetry platform s label) = true

instance (platform : Platform) (past : List BridgeEvent) (s : Bridge) (label : Label) :
    Decidable (KilledStayFailed platform past s label) :=
  inferInstanceAs (Decidable (∀ id ∈ killedIds past, _))

theorem KilledStayFailed.row {platform : Platform} {past : List BridgeEvent} {s : Bridge}
    {label : Label} (h : KilledStayFailed platform past s label) {id : Nat}
    (hid : id ∈ killedIds past) {row : MessageRecord}
    (hrow : s.wal.data.message id = some row) :
    suppressesRetry platform s label row = true := by
  have hall := h id hid
  rw [hrow] at hall
  exact hall

theorem not_pending_of_noRetryLeft {maxRetries : Int} {row : MessageRecord}
    (hnew : row.status ≠ .new) (h : noRetryLeft maxRetries row = true) :
    isPending maxRetries row = false := by
  by_cases hfailed : row.status = .failed
  · have hspent : maxRetries ≤ (row.retryCount : Int) := by
      simpa [noRetryLeft, hfailed] using h
    simpa [isPending, hfailed] using hspent
  · simp [isPending, hnew, hfailed]

theorem not_new_of_not_pending {maxRetries : Int} {row : MessageRecord}
    (h : isPending maxRetries row = false) : row.status ≠ .new := by
  intro hnew
  simp [isPending, hnew] at h

theorem MessageRecord.Open.not_new {row : MessageRecord} (h : row.Open) :
    row.status ≠ .new := by
  rcases h with hstatus | hstatus
  · simp [hstatus]
  · simp [hstatus]

/-! ## The invariant -/

structure KillRecorded (past : List BridgeEvent) (s : Bridge) : Prop where
  bound : s.worker.WellFormed s.config
  known : ∀ id ∈ killedIds past, id ≤ s.wal.data.mqttMessages.seq
  settled : ∀ id ∈ killedIds past, ∀ row, s.wal.data.message id = some row →
    isPending s.config.maxRetries row = false ∨ (s.worker.inHand = some id ∧ row.Open)

theorem killRecorded_init (config : Config) :
    KillRecorded [] (.start config .empty) where
  bound := trivial
  known := nofun
  settled := nofun

theorem killedIds_append (past events : List BridgeEvent) :
    killedIds (past ++ events) = killedIds past ++ killedIds events :=
  List.filterMap_append

/-- The parent kills the child of the record in hand. -/
theorem killed_submitting {platform : Platform} {s : Bridge} {label : Label} {id : Nat}
    (hid : id ∈ killedIds (s.observe platform label)) :
    s.worker.inHand = some id ∧ (label = .hardTimeout ∨ ∃ code, label = .stopKill code) := by
  obtain ⟨event, hevent, hkilled⟩ := List.mem_filterMap.mp hid
  cases Bridge.observe_shown hevent with
  | timedOut hsubmitting =>
      cases hkilled
      rw [hsubmitting]
      exact ⟨rfl, .inl rfl⟩
  | stopped exitcode hsubmitting =>
      cases hkilled
      rw [hsubmitting]
      exact ⟨rfl, .inr ⟨exitcode, rfl⟩⟩
  | claimed | recovered | completed | submitted | rejected | accepted | published
  | replayed => cases hkilled

theorem killed_inHand {platform : Platform} {s t : Bridge} {label : Label}
    (hstep : s.step platform label = some t) {id : Nat}
    (hid : id ∈ killedIds (s.observe platform label)) :
    s.worker.inHand = some id ∧ t.worker.inHand = some id ∧ t.wal.data = s.wal.data := by
  rcases killed_submitting hid with ⟨hhand, hlabel⟩
  have hraises : s.raises platform label = false := by
    rcases hlabel with rfl | ⟨code, rfl⟩
    · rfl
    · rfl
  cases Bridge.step_effect hstep with
  | quiet hdata hconfig hkept =>
      have hkept' := (hkept id hhand).resolve_right (by simp [hraises])
      exact ⟨hhand, hkept', hdata⟩
  | wrote thread now job answer hcommit =>
      rcases hlabel with rfl | ⟨code, rfl⟩
      · cases hcommit
      · cases hcommit
  | restarted config hrestart =>
      rcases hlabel with rfl | ⟨code, rfl⟩
      · cases hrestart
      · cases hrestart

/-- A failure that is not to be repeated, or the last one, ends the retries. -/
theorem failed_not_pending {error lastAttemptAt : Text} {odooResponse : Option Text}
    {retryable : Bool} {maxRetries : Int} {row : MessageRecord}
    (h : retryable = true → lastRetry maxRetries row = true) :
    isPending maxRetries
      (failMessage error lastAttemptAt odooResponse retryable (some maxRetries) row) = false := by
  apply not_pending_of_noRetryLeft
  · nofun
  · cases hretryable : retryable with
    | true =>
        have hlast := h hretryable
        simp only [lastRetry, decide_eq_true_eq] at hlast
        have hcount : maxRetries ≤ (row.retryCount : Int) + 1 := by omega
        simp [noRetryLeft, failMessage, failedRetryCount, hcount]
    | false => simp [noRetryLeft, failMessage, failedRetryCount]

theorem settled_commit {platform : Platform} {past : List BridgeEvent} {s t : Bridge}
    (h : KillRecorded past s) {thread : Thread} {now : Datetime}
    (hcond : KilledStayFailed platform past s (.commit thread now)) {job : Job}
    {answer : Answer} (hjob : s.job thread = some job)
    (hrun : job.run platform now s.wal.data = .ok (answer, t.wal.data))
    (hworker : t.worker = (s.resume thread (.ok answer)).worker) {id : Nat}
    (hid : id ∈ killedIds past) {next : MessageRecord}
    (hnext : t.wal.data.message id = some next) :
    isPending s.config.maxRetries next = false ∨
      (t.worker.inHand = some id ∧ next.Open) := by
  have hchange := Job.rowChange hrun id
  rw [hnext] at hchange
  cases hrow : s.wal.data.message id with
  | none =>
      rw [hrow] at hchange
      have hnew := hchange.of_none.1
      have hknown := h.known id hid
      omega
  | some row =>
      rw [hrow] at hchange
      have hsettled := h.settled id hid row hrow
      have hsuppressed := hcond.row hid hrow
      have hrowId := id_of_message hrow
      by_cases hthread : thread = .worker
      · subst hthread
        have hraises : s.raises platform (.commit .worker now) = false := by
          simp [Bridge.raises, hjob, hrun, Except.isOk, Except.toBool]
        rw [suppressesRetry, hraises] at hsuppressed
        cases workerJob_of_job hjob with
        | claiming hclaiming =>
            have hpending := hsettled.resolve_right (by
              rw [inHand_of_claiming hclaiming]
              rintro ⟨hnone, -⟩
              cases hnone)
            left
            cases hchange with
            | kept => exact hpending
            | claimed _ htaken _ =>
                rw [htaken] at hpending
                cases hpending
        | failing record lastAttemptAt failure rest hfailing =>
            left
            by_cases hrecord : record.id = id
            · rcases Job.fail_row hrun with ⟨row', hrow', hafter⟩
              rw [hrecord] at hrow' hafter
              rw [hrow, Option.some.injEq] at hrow'
              subst hrow'
              rw [hnext, Option.some.injEq] at hafter
              have hbound := h.bound
              rw [hfailing] at hbound
              have hmax : failure.maxRetries = s.config.maxRetries := hbound
              rw [hafter, hmax]
              refine failed_not_pending fun hretryable => ?_
              simpa [hjob, hrecord, hrowId, hretryable] using hsuppressed
            · have hother := hsettled.resolve_right (by
                rw [hfailing]
                rintro ⟨hhand, -⟩
                exact hrecord (Option.some.inj hhand))
              cases hchange with
              | kept => exact hother
              | failed _ => exact absurd rfl hrecord
        | completing record lastAttemptAt acknowledged completedAt rest hcompleting =>
            left
            by_cases hrecord : record.id = id
            · rcases Job.complete_row hrun with ⟨row', metadata, -, hafter⟩
              rw [hrecord, hnext, Option.some.injEq] at hafter
              rw [hafter]
              rfl
            · have hother := hsettled.resolve_right (by
                rw [hcompleting]
                rintro ⟨hhand, -⟩
                exact hrecord (Option.some.inj hhand))
              cases hchange with
              | kept => exact hother
              | completed _ _ => exact absurd rfl hrecord
      · rw [hworker, resume_worker_of_ne _ _ hthread]
        rcases job_of_ne_worker hthread hjob with ⟨-, -, hcomplete, hfail, hclaim⟩
        cases hchange with
        | kept => exact hsettled
        | claimed _ _ _ => exact absurd rfl (hclaim _ _)
        | completed _ _ => exact absurd rfl (hcomplete _ _)
        | failed _ => exact absurd rfl (hfail _ _)
        | recovered _ hstale =>
            have hwatchdog := thread_of_recover hjob
            subst hwatchdog
            rcases watchdogJob hjob with ⟨staleBefore, excludeIds, hrecovering, heq⟩
            cases heq
            by_cases hhand : s.worker.inHand = some id
            · exact .inr ⟨hhand, .inr rfl⟩
            · left
              have hlast : s.config.maxRetries ≤ ((row.retryCount + 1 : Nat) : Int) := by
                simpa [suppressesRetry, Bridge.raises, hrecovering, hrowId, hhand,
                  hstale, lastRetry] using hsuppressed
              apply not_pending_of_noRetryLeft
              · rintro ⟨⟩
              · simpa [noRetryLeft, recoverMessage] using hlast
        | replayed _ _ => exact hsettled

theorem KillRecorded.step {platform : Platform} {past : List BridgeEvent}
    {s t : Bridge} {label : Label} (h : KillRecorded past s)
    (haccounted : Accounted (completedEvents past) s.ledger)
    (hcond : KilledStayFailed platform past s label)
    (hstep : s.step platform label = some t) :
    KillRecorded (past ++ s.observe platform label) t := by
  have hkilled : ∀ id ∈ killedIds (s.observe platform label),
      ∃ row, s.wal.data.message id = some row ∧ row.Open := by
    intro id hid
    exact haccounted.heldOpen id (held_of_inHand (killed_inHand hstep hid).1)
  refine ⟨wellFormed_step h.bound hstep, ?_, ?_⟩
  · intro id hid
    have hseq : s.wal.data.mqttMessages.seq ≤ t.wal.data.mqttMessages.seq := by
      exact data_step_preserve (P := fun db => s.wal.data.mqttMessages.seq ≤ db.mqttMessages.seq)
        (Nat.le_refl _) hstep fun _ _ hrun => (Job.tables hrun).1
    rw [killedIds_append, List.mem_append] at hid
    rcases hid with hold | hnew
    · exact Nat.le_trans (h.known id hold) hseq
    · rcases hkilled id hnew with ⟨row, hrow, -⟩
      exact Nat.le_trans (message_le_seq hrow) hseq
  · intro id hid next hnext
    rw [killedIds_append, List.mem_append] at hid
    rcases hid with hold | hnew
    · cases Bridge.step_effect hstep with
      | quiet hdata hconfig hkept =>
          rw [hdata] at hnext
          rw [hconfig]
          rcases h.settled id hold next hnext with hpending | ⟨hhand, hopen⟩
          · exact .inl hpending
          · rcases hkept id hhand with hkept' | hraises
            · exact .inr ⟨hkept', hopen⟩
            · left
              have hsuppressed := hcond.row hold hnext
              apply not_pending_of_noRetryLeft hopen.not_new
              simpa [suppressesRetry, hraises, hhand, id_of_message hnext]
                using hsuppressed
      | wrote thread now job answer hlabel hjob hrun hconfig hworker =>
          subst hlabel
          rw [hconfig]
          exact settled_commit h hcond hjob hrun hworker hold hnext
      | restarted config hlabel ht =>
          subst hlabel
          subst ht
          left
          have hrow : s.wal.data.message id = some next := hnext
          have hnotNew : next.status ≠ .new := by
            rcases h.settled id hold next hrow with hpending | ⟨-, hopen⟩
            · exact not_new_of_not_pending hpending
            · exact hopen.not_new
          exact not_pending_of_noRetryLeft hnotNew (hcond.row hold hrow)
    · rcases killed_inHand hstep hnew with ⟨-, hhand, hdata⟩
      rcases hkilled id hnew with ⟨row, hrow, hopen⟩
      rw [hdata, hrow, Option.some.injEq] at hnext
      subst hnext
      exact .inr ⟨hhand, hopen⟩

/-- The rows that were killed before are not pending at a claim. -/
theorem KillRecorded.not_claimed {platform : Platform} {past : List BridgeEvent}
    {s : Bridge} {label : Label} (h : KillRecorded past s) {id : Nat}
    (hid : id ∈ killedIds past) {ids : List Nat}
    (hclaimed : .claimed ids ∈ s.observe platform label) : id ∉ ids := by
  intro hmem
  rcases pending_of_claimed hclaimed hmem with ⟨hclaiming, row, hrow, hpending⟩
  rcases h.settled id hid row hrow with hsettled | ⟨hhand, -⟩
  · rw [hsettled] at hpending
    cases hpending
  · rw [inHand_of_claiming hclaiming] at hhand
    cases hhand

/--
In every run whose steps leave no killed row a retry, no claim after the kill of a
submission returns its row.
-/
theorem killed_row_never_claimed {platform : Platform} {config : Config}
    {labels : List Label} {s : Bridge}
    (along : (bridgeSystem platform config).Along (KilledStayFailed platform) []
      (bridgeSystem platform config).init labels)
    (run : (bridgeSystem platform config).exec (bridgeSystem platform config).init labels =
      some s) :
    ((bridgeSystem platform config).trace
      (bridgeSystem platform config).init labels).Pairwise
        (NotClaimedAfter BridgeEvent.killedId) := by
  have hinvariant := (bridgeSystem platform config).run_invariant
    (I := fun past s => KillRecorded past s ∧
      past.Pairwise (NotClaimedAfter BridgeEvent.killedId))
    ⟨killRecorded_init config, .nil⟩ ?_ along run
  · exact hinvariant.2
  · intro past m label t hran hm hcond hstep
    refine ⟨hm.1.step (bridge_accounted hran) hcond hstep, ?_⟩
    apply notClaimedAfter_append hm.2
    · intro id hid ids hclaimed
      exact hm.1.not_claimed hid hclaimed
    · intro id hid ids hclaimed
      have hkilled : id ∈ killedIds (m.observe platform label) := hid
      rcases claimed_commit hclaimed with ⟨now, -, -, rfl, -⟩
      rcases killed_submitting hkilled with ⟨-, hlabel | ⟨code, hlabel⟩⟩
      · cases hlabel
      · cases hlabel

/-! ## A worker that is stopped while it submits -/

/-- The child is killed by `stop` and leaves no result file. -/
def stoppedInFlight : List Label :=
  receives compactPayload ++ claims ++
    [.next noon, .spawn true, .stop, .stopKill (-15), .collect, .lock .worker,
      .commit .worker noon, .next noon, .restart sampleConfig] ++ claims

/-- The killed submission is claimed again after the restart. -/
theorem stopped_submission_claimed_again :
    ((bridgeSystem samplePlatform sampleConfig).exec
      (bridgeSystem samplePlatform sampleConfig).init stoppedInFlight).isSome = true ∧
    ¬ ((bridgeSystem samplePlatform sampleConfig).trace
      (bridgeSystem samplePlatform sampleConfig).init stoppedInFlight).Pairwise
        (NotClaimedAfter BridgeEvent.killedId) := by
  decide +kernel

/-- A submission that runs into the hard timeout. -/
def timedOutInFlight : List Label :=
  receives compactPayload ++ claims ++
    [.next noon, .spawn true, .hardTimeout, .lock .worker, .commit .worker (atNoon 90),
      .next (atNoon 90)] ++ claims

theorem killed_row_never_claimed_sample :
    1 ∈ killedIds ((bridgeSystem samplePlatform sampleConfig).trace
      (bridgeSystem samplePlatform sampleConfig).init timedOutInFlight) ∧
    ((bridgeSystem samplePlatform sampleConfig).trace
      (bridgeSystem samplePlatform sampleConfig).init timedOutInFlight).Pairwise
        (NotClaimedAfter BridgeEvent.killedId) := by
  have halong : (bridgeSystem samplePlatform sampleConfig).Along
      (KilledStayFailed samplePlatform) []
      (bridgeSystem samplePlatform sampleConfig).init timedOutInFlight := by
    decide +kernel
  have hrun : ((bridgeSystem samplePlatform sampleConfig).exec
      (bridgeSystem samplePlatform sampleConfig).init timedOutInFlight).isSome = true := by
    decide +kernel
  rcases Option.isSome_iff_exists.mp hrun with ⟨s, hs⟩
  exact ⟨by decide +kernel, killed_row_never_claimed halong hs⟩

end EdgeBridge
