import EdgeBridge.Bridge.StatusDiagram

/-!
# The retry counter and the attempts

The worker counts real attempts, the watchdog counts the rows it finds stale.  A
row that was never offered to Odoo owes its whole counter to the watchdog.
-/

namespace EdgeBridge

open Foundation

def BridgeEvent.isAttemptOf (id : Nat) : BridgeEvent → Bool
  | .submitted other => other == id
  | .rejected other => other == id
  | _ => false

def BridgeEvent.isRecoveryOf (id : Nat) : BridgeEvent → Bool
  | .recovered other => other == id
  | _ => false

/-- The payload was handed over for submission, or rejected by its validator. -/
def attempted (past : List BridgeEvent) (id : Nat) : Bool :=
  past.any (BridgeEvent.isAttemptOf id)

/-- How often the watchdog has recovered the row. -/
def recoveries (past : List BridgeEvent) (id : Nat) : Nat :=
  past.countP (BridgeEvent.isRecoveryOf id)

theorem attempted_append {past : List BridgeEvent} {id : Nat} (events : List BridgeEvent)
    (h : attempted past id = true) : attempted (past ++ events) id = true := by
  rw [attempted, List.any_append]
  exact Bool.or_eq_true_iff.mpr (.inl h)

theorem recoveries_append (past events : List BridgeEvent) (id : Nat) :
    recoveries (past ++ events) id = recoveries past id + recoveries events id :=
  List.countP_append

/-- The record whose processing has begun. -/
def WorkerState.current : WorkerState → Option Nat
  | .processing record _ _ _ => some record.id
  | _ => none

/-- Every failure that the row was charged with is a recovery by the watchdog. -/
structure ChargedByWatchdog (recovered : Nat) (row : MessageRecord) : Prop where
  counter : row.retryCount ≤ recovered
  reason : row.status = .failed → row.lastError = some staleError

theorem ChargedByWatchdog.mono {recovered more : Nat} {row : MessageRecord}
    (h : ChargedByWatchdog recovered row) (hle : recovered ≤ more) :
    ChargedByWatchdog more row :=
  ⟨Nat.le_trans h.counter hle, h.reason⟩

structure Charged (past : List BridgeEvent) (s : Bridge) : Prop where
  current : ∀ id, s.worker.current = some id → attempted past id = true
  counter : ∀ id row, s.wal.data.message id = some row → attempted past id = true ∨
    ChargedByWatchdog (recoveries past id) row

/-- A worker that has begun a record has shown the attempt. -/
theorem workerMove_current (platform : Platform) {s : Bridge} {w : WorkerState}
    {label : Label} (h : WorkerMove s.config s.stopping s.worker label w) {id : Nat}
    (hid : w.current = some id) :
    s.worker.current = some id ∨ attempted (s.observe platform label) id = true := by
  generalize hworker : s.worker = before at h
  cases h with
  | cycle _ => cases hid
  | batchEnded _ _ => cases hid
  | entered record rest now hstopping hpayload =>
      cases hid
      right
      simp [Bridge.observe, workerEvents, hworker, hstopping, hpayload, attempted,
        BridgeEvent.isAttemptOf]
  | rejected record rest now message hstopping hpayload =>
      cases hid
      right
      simp [Bridge.observe, workerEvents, hworker, hstopping, hpayload, attempted,
        BridgeEvent.isAttemptOf]
  | spawned _ _ _ _ => exact .inl hid
  | spawnFailed _ _ _ _ => cases hid
  | childMoved _ _ _ _ _ _ _ _ _ _ _ => exact .inl hid
  | stopKilled _ _ _ _ _ _ _ => exact .inl hid
  | timedOut _ _ _ _ _ => exact .inl hid
  | collected record lastAttemptAt _ rest exitcode file =>
      left
      cases hresult : collectResult s.config lastAttemptAt exitcode file with
      | none =>
          rw [hresult] at hid
          cases hid
      | some stage =>
          rw [hresult] at hid
          exact hid
  | classified record lastAttemptAt rest response now =>
      left
      cases hresult : classify s.config lastAttemptAt response now with
      | none =>
          rw [hresult] at hid
          cases hid
      | some stage =>
          rw [hresult] at hid
          exact hid
  | published _ _ _ _ => cases hid

/-- After a transaction the worker is still in the record it was in, if in any. -/
theorem resume_current {s : Bridge} (wal : Wal Database Thread) {thread : Thread}
    {result : Except PyError Answer} {id : Nat}
    (hid : (({ s with wal := wal } : Bridge).resume thread result).worker.current =
      some id) : s.worker.current = some id := by
  by_cases hthread : thread = .worker
  · subst hthread
    cases result with
    | error error => cases hid
    | ok answer =>
        simp only [Bridge.resume] at hid
        unfold WorkerState.answered at hid
        split at hid
        · cases hid
        · cases hid
        · next hworker =>
          rw [hworker]
          exact hid
        · cases hid
  · rw [resume_worker_of_ne _ result hthread] at hid
    exact hid

theorem counter_commit {platform : Platform} {past : List BridgeEvent} {s : Bridge}
    (h : Charged past s) {thread : Thread} {now : Datetime} {job : Job}
    {answer : Answer} {db : Database} (hjob : s.job thread = some job)
    (hrun : job.run platform now s.wal.data = .ok (answer, db)) {id : Nat}
    {next : MessageRecord} (hnext : db.message id = some next) :
    attempted past id = true ∨ ChargedByWatchdog (recoveries past id +
      recoveries (job.events platform s.wal.data now answer) id) next := by
  have hchange := Job.rowChange hrun id
  rw [hnext] at hchange
  cases hbefore : s.wal.data.message id with
  | none =>
      rw [hbefore] at hchange
      cases hchange with
      | created _ _ _ _ => exact .inr ⟨Nat.zero_le _, nofun⟩
  | some row =>
      rw [hbefore] at hchange
      rcases h.counter id row hbefore with hattempted | hcounter
      · exact .inl hattempted
      cases hchange with
      | kept => exact .inr (hcounter.mono (Nat.le_add_right _ _))
      | claimed _ _ _ =>
          exact .inr ⟨(hcounter.mono (Nat.le_add_right _ _)).counter, nofun⟩
      | completed _ _ =>
          exact .inr ⟨(hcounter.mono (Nat.le_add_right _ _)).counter, nofun⟩
      | failed _ =>
          left
          have hthread : thread = .worker := by
            by_contra hthread
            exact (job_of_ne_worker hthread hjob).2.2.2.1 _ _ rfl
          subst hthread
          cases workerJob_of_job hjob with
          | failing record lastAttemptAt failure rest hworker =>
              apply h.current
              rw [hworker]
              rfl
      | recovered _ hstale =>
          right
          have hselected := List.mem_filter.mpr ⟨Table.mem_of_byId hbefore, hstale⟩
          have hmem := List.mem_map_of_mem (f := fun row => BridgeEvent.recovered row.id)
            hselected
          have hevent : BridgeEvent.isRecoveryOf id (.recovered row.id) = true := by
            simp [BridgeEvent.isRecoveryOf, id_of_message hbefore]
          have hpositive := List.countP_pos_iff.mpr ⟨_, hmem, hevent⟩
          exact ⟨Nat.add_le_add hcounter.counter hpositive, fun _ => rfl⟩
      | replayed _ _ =>
          exact .inr ⟨(hcounter.mono (Nat.le_add_right _ _)).counter, hcounter.reason⟩

theorem Charged.step {platform : Platform} {past : List BridgeEvent} {s t : Bridge}
    (h : Charged past s) {label : Label} (hstep : s.step platform label = some t) :
    Charged (past ++ s.observe platform label) t := by
  have hmove := Bridge.step_move hstep
  have hsame : ∀ {data : Database}, data = s.wal.data → ∀ id row,
      data.message id = some row →
      attempted (past ++ s.observe platform label) id = true ∨
        ChargedByWatchdog (recoveries (past ++ s.observe platform label) id) row := by
    rintro data rfl id row hrow
    rcases h.counter id row hrow with hattempted | hcounter
    · exact .inl (attempted_append _ hattempted)
    · right
      rw [recoveries_append]
      exact hcounter.mono (Nat.le_add_right _ _)
  have hcurrent : ∀ {worker : WorkerState}, (∀ id, worker.current = some id →
      s.worker.current = some id) → ∀ id, worker.current = some id →
      attempted (past ++ s.observe platform label) id = true := by
    intro worker hold id hid
    exact attempted_append _ (h.current id (hold id hid))
  by_cases hcommit : ∃ thread now, label = .commit thread now
  · rcases hcommit with ⟨thread, now, rfl⟩
    cases hmove with
    | committed _ _ job answer db hjob hwriting hrun =>
        refine ⟨hcurrent fun _ hid => resume_current _ hid, ?_⟩
        intro id row hrow
        rw [resume_wal] at hrow
        cases hwrote : answer.wrote with
        | false =>
            rw [hwrote] at hrow
            exact hsame rfl id row hrow
        | true =>
            rw [hwrote] at hrow
            have hevents : s.observe platform (.commit thread now) =
                job.events platform s.wal.data now answer := by
              simp [Bridge.observe, hjob, hrun]
            rcases counter_commit h hjob hrun hrow with hattempted | hcounter
            · exact .inl (attempted_append _ hattempted)
            · right
              rw [recoveries_append, hevents]
              exact hcounter
    | failed _ _ job error hjob hwriting hrun =>
        refine ⟨hcurrent fun _ hid => resume_current _ hid, ?_⟩
        rw [resume_wal]
        exact hsame rfl
    | worker _ _ hlabel _ => cases hlabel
    | mqtt _ _ hlabel _ => cases hlabel
    | lifecycle _ _ hlabel _ => cases hlabel
  · have hne : ∀ thread now, label ≠ .commit thread now :=
      fun thread now hlabel => hcommit ⟨thread, now, hlabel⟩
    refine ⟨?_, hsame (hmove.quiet hne).1⟩
    cases hmove with
    | began => exact hcurrent fun _ hid => hid
    | answered => exact hcurrent fun _ hid => resume_current s.wal hid
    | locked => exact hcurrent fun _ hid => hid
    | refused => exact hcurrent fun _ hid => resume_current _ hid
    | gaveUp => exact hcurrent fun _ hid => resume_current s.wal hid
    | committed => exact absurd rfl (hne _ _)
    | failed => exact absurd rfl (hne _ _)
    | worker label worker hlabel hworker =>
        intro id hid
        rcases workerMove_current platform (workerStep_move hworker) hid with
          hold | hnew
        · exact attempted_append _ (h.current id hold)
        · rw [attempted, List.any_append]
          exact Bool.or_eq_true_iff.mpr (.inr hnew)
    | watch => exact hcurrent fun _ hid => hid
    | mqtt => exact hcurrent fun _ hid => hid
    | lifecycle => exact hcurrent fun _ hid => hid
    | audit => exact hcurrent fun _ hid => hid
    | stopped => exact hcurrent fun _ hid => hid
    | startedAgain => exact hcurrent fun _ hid => hid
    | restarted =>
        intro id hid
        cases hid

theorem bridge_charged {platform : Platform} {config : Config}
    {past : List BridgeEvent} {s : Bridge}
    (ran : (bridgeSystem platform config).Ran (bridgeSystem platform config).init past s) :
    Charged past s := by
  refine (bridgeSystem platform config).trace_invariant (I := Charged) ?_ ?_ ran
  · refine ⟨nofun, ?_⟩
    intro id row hrow
    cases hrow
  · intro past m label t _ hcharged hstep
    exact hcharged.step hstep

/--
A row that can never be claimed again was offered to Odoo or rejected by the
validator, or else the watchdog alone has charged it `max_retries` times.
-/
theorem exhausted_row_attempted_or_recovered {platform : Platform} {config : Config}
    {labels : List Label} {s : Bridge}
    (run : (bridgeSystem platform config).exec (bridgeSystem platform config).init labels =
      some s)
    {id : Nat} {row : MessageRecord} (hrow : s.wal.data.message id = some row)
    (hfailed : row.status = .failed)
    (hexhausted : s.config.maxRetries ≤ (row.retryCount : Int)) :
    attempted ((bridgeSystem platform config).trace
        (bridgeSystem platform config).init labels) id = true ∨
      (s.config.maxRetries ≤ (recoveries ((bridgeSystem platform config).trace
          (bridgeSystem platform config).init labels) id : Int) ∧
        row.lastError = some staleError) := by
  have hcharged := bridge_charged ⟨labels, run, rfl⟩
  rcases hcharged.counter id row hrow with hattempted | hwatchdog
  · exact .inl hattempted
  · right
    have hcounter := hwatchdog.counter
    exact ⟨by omega, hwatchdog.reason hfailed⟩

/-! ## A message that is claimed and stopped -/

/-- The worker is stopped between its claim and the first record. -/
def stoppedBeforeFirst : List Label :=
  receives compactPayload ++ claims ++ [.stop, .next noon, .startAgain] ++
    watches (atNoon 70)

def rowCharge (s : Bridge) (id : Nat) : Option (MessageStatus × Nat) :=
  (s.wal.data.message id).map fun row => (row.status, row.retryCount)

def oneTryConfig : Config := { sampleConfig with maxRetries := 1 }

/-- The message is exhausted, and nobody has ever tried it. -/
theorem exhausted_row_untried :
    ∃ s, (bridgeSystem samplePlatform oneTryConfig).exec
        (bridgeSystem samplePlatform oneTryConfig).init stoppedBeforeFirst = some s ∧
      s.config.maxRetries = 1 ∧ rowCharge s 1 = some (.failed, 1) ∧
      attempted ((bridgeSystem samplePlatform oneTryConfig).trace
        (bridgeSystem samplePlatform oneTryConfig).init stoppedBeforeFirst) 1 = false := by
  have hrun : (((bridgeSystem samplePlatform oneTryConfig).exec
      (bridgeSystem samplePlatform oneTryConfig).init stoppedBeforeFirst).map fun s =>
        (s.config.maxRetries, rowCharge s 1,
          attempted ((bridgeSystem samplePlatform oneTryConfig).trace
            (bridgeSystem samplePlatform oneTryConfig).init stoppedBeforeFirst) 1)) =
      some (1, some (.failed, 1), false) := by decide +kernel
  rcases Option.map_eq_some_iff.mp hrun with ⟨s, hs, hvalues⟩
  simp only [Prod.mk.injEq] at hvalues
  exact ⟨s, hs, hvalues⟩

theorem exhausted_row_attempted_or_recovered_sample :
    ∃ s row, (bridgeSystem samplePlatform oneTryConfig).exec
        (bridgeSystem samplePlatform oneTryConfig).init stoppedBeforeFirst = some s ∧
      s.wal.data.message 1 = some row ∧
      (attempted ((bridgeSystem samplePlatform oneTryConfig).trace
          (bridgeSystem samplePlatform oneTryConfig).init stoppedBeforeFirst) 1 = true ∨
        (s.config.maxRetries ≤ (recoveries ((bridgeSystem samplePlatform
            oneTryConfig).trace (bridgeSystem samplePlatform oneTryConfig).init
              stoppedBeforeFirst) 1 : Int) ∧
          row.lastError = some staleError)) := by
  have hrun : (((bridgeSystem samplePlatform oneTryConfig).exec
      (bridgeSystem samplePlatform oneTryConfig).init stoppedBeforeFirst).map fun s =>
        (s.config.maxRetries, rowCharge s 1)) = some (1, some (.failed, 1)) := by
    decide +kernel
  rcases Option.map_eq_some_iff.mp hrun with ⟨s, hs, hvalues⟩
  simp only [Prod.mk.injEq] at hvalues
  rcases Option.map_eq_some_iff.mp hvalues.2 with ⟨row, hrow, hcharge⟩
  simp only [Prod.mk.injEq] at hcharge
  refine ⟨s, row, hs, hrow, exhausted_row_attempted_or_recovered hs hrow hcharge.1 ?_⟩
  rw [hvalues.1, hcharge.2]
  decide

end EdgeBridge
