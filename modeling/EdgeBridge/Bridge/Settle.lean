import EdgeBridge.Bridge.Drain

/-!
# Every row is settled

A row that a crash or an exception has left in `PROCESSING` is out of reach of the worker.
Once its last attempt is older than the timeout, a pass of the watchdog gives it back, and
the worker can drain the queue to the last row.
-/

namespace EdgeBridge

open Foundation

section

variable {platform : Platform} {config : Config} {s t : Bridge} {now : Datetime}
  {maxRetries : Int} {db after : Database} {id : Nat}

/-! ## Rows that are still to be submitted -/

/-- The payload of the row will be submitted, if need be after the watchdog has given the
row back. -/
def Owed (maxRetries : Int) (db : Database) (id : Nat) : Prop :=
  ∃ row, db.message id = some row ∧ (payloadFromRecord row).isOk = true ∧
    (isPending maxRetries row = true ∨
      row.status = .processing ∧ (row.retryCount : Int) + 1 < maxRetries)

theorem lasting_owed (platform : Platform) (maxRetries : Int) :
    Lasting platform (Owed maxRetries) := by
  rintro job now db after answer id ⟨row, hrow, hreadable, howed⟩ hrun hclaim htarget
  have hchange := Job.rowChange hrun id
  rw [hrow] at hchange
  generalize hnext : after.message id = next at hchange
  cases hchange with
  | kept => exact ⟨row, hnext, hreadable, howed⟩
  | claimed => exact absurd rfl (hclaim _ _)
  | completed | failed => exact absurd rfl htarget
  | recovered _ hstale =>
      refine ⟨_, hnext, hreadable, .inl ?_⟩
      simp only [isStale, Bool.and_eq_true, beq_iff_eq] at hstale
      rcases howed with hpending | ⟨-, hless⟩
      · simp [isPending, hstale.1.1] at hpending
      · simp [isPending, recoverMessage, hless]
  | replayed => exact ⟨_, hnext, hreadable, howed⟩
  | deleted _ hexpired =>
      have hstatus := completed_of_isExpired hexpired
      simp [isPending, hstatus] at howed

theorem Passes.owed (h : Passes maxRetries before after)
    (howed : Owed maxRetries before id ∨ Served before id) :
    Owed maxRetries after id ∨ Served after id := by
  refine h.served (P := fun found => ∃ row, found = some row ∧
    (payloadFromRecord row).isOk = true ∧ (isPending maxRetries row = true ∨
      row.status = .processing ∧ (row.retryCount : Int) + 1 < maxRetries)) ?_ howed
  rintro row ⟨_, ⟨⟩, hreadable, -⟩
  exact hreadable

/-! ## Rows that are being processed -/

/-- Every row in `PROCESSING` was claimed before `bound`. -/
def StampedBefore (bound : Text) (db : Database) : Prop :=
  ∀ id row, db.message id = some row → row.status = .processing →
    row.lastAttemptAt.all (fun lastAttemptAt => decide (lastAttemptAt < bound)) = true

theorem StampedBefore.run {bound : Text} {job : Job} {answer : Answer}
    (h : StampedBefore bound db) (hnow : formatTimestamp now < bound)
    (hrun : job.run platform now db = .ok (answer, after)) : StampedBefore bound after := by
  intro id row hrow hprocessing
  have hchange := Job.rowChange hrun id
  rw [hrow] at hchange
  generalize hbefore : db.message id = before at hchange
  cases hchange with
  | kept => exact h id row hbefore hprocessing
  | claimed => simp [markProcessing, hnow]
  | replayed row => exact h id row hbefore hprocessing
  | created | completed | recovered => cases hprocessing
  | failed =>
      simp only [failMessage] at hprocessing
      cases hprocessing

theorem StampedBefore.leads {bound : Text} (h : StampedBefore bound s.wal.data)
    (hnow : formatTimestamp now < bound) (hleads : s.Leads platform now t) :
    StampedBefore bound t.wal.data := by
  refine System.Leads.invariant (I := fun m => StampedBefore bound m.wal.data) hleads h ?_
  intro m label u hm hat hstep
  refine data_step_preserve hm hstep fun hlabel _ hrun => ?_
  rw [hlabel] at hat
  exact hm.run (hat ▸ hnow) hrun

def Unprocessed (db : Database) : Prop :=
  ∀ id row, db.message id = some row → row.status ≠ .processing

theorem Passes.unprocessed (h : Passes maxRetries before after) (hnone : Unprocessed before) :
    Unprocessed after := by
  induction h with
  | refl => exact hnone
  | tail _ hpassed ih =>
      intro id row hrow
      rcases hpassed.rows id with hsame | ⟨_, next, -, -, hnext, hprocessed⟩
      · exact ih id row (hsame ▸ hrow)
      · obtain rfl := Option.some.inj (hrow.symm.trans hnext)
        unfold Processed at hprocessed
        split at hprocessed
        · rw [hprocessed]
          rintro ⟨⟩
        · rw [hprocessed.1]
          rintro ⟨⟩

/-! ## A pass of the watchdog -/

/-- What the watchdog leaves: nothing has changed, or stale rows are given back. -/
def Recovers (platform : Platform) (before after : Database) : Prop :=
  after = before ∨ ∃ staleBefore excludeIds now answer,
    (Job.recover staleBefore excludeIds).run platform now before = .ok (answer, after)

theorem Recovers.owed (h : Recovers platform before after)
    (howed : Owed maxRetries before id ∨ Served before id) :
    Owed maxRetries after id ∨ Served after id := by
  obtain rfl | ⟨staleBefore, excludeIds, now, answer, hrun⟩ := h
  · exact howed
  · rcases howed with howed | ⟨row, hrow, hstatus⟩
    · left
      refine lasting_owed platform maxRetries _ _ _ _ _ _ howed hrun ?_ ?_
      · rintro batchSize retries ⟨⟩
      · rintro ⟨⟩
    · right
      have hchange := Job.rowChange hrun id
      rw [hrow] at hchange
      generalize hnext : after.message id = next at hchange
      cases hchange with
      | kept => exact ⟨row, hnext, hstatus⟩
      | recovered _ hstale => simp [isStale, hstatus] at hstale

/-- The watchdog ends the pass that it is in the middle of. -/
theorem Ready.watchdog_leads {m : Bridge} (h : Ready platform s m) (now : Datetime) :
    ∃ t, m.Leads platform now t ∧ Ready platform s t ∧ t.watchdog = .idle ∧
      Recovers platform m.wal.data t.wal.data := by
  cases hwatchdog : m.watchdog with
  | idle => exact ⟨m, .refl m, h, hwatchdog, .inl rfl⟩
  | recovering staleBefore excludeIds =>
      have hjob : m.job .watchdog = some (.recover staleBefore excludeIds) := by
        simp [Bridge.job, hwatchdog]
      obtain ⟨t, result, hleads, hended, hfinished⟩ :=
        transact_leads h.reached hjob (.inl h.writer) now
      obtain ⟨wal, ht⟩ := hended.resumed
      refine ⟨t, hleads, ⟨h.reached.leads hleads, ?_, hended.writer, ?_, ?_⟩, ?_, ?_⟩
      · rw [ht, resume_worker_of_ne _ _ (by rintro ⟨⟩)]
        exact h.worker
      · rw [ht, resume_config]
        exact h.config
      · rw [ht, resume_stopping]
        exact h.stopping
      · rw [ht]
        cases result with
        | ok answer => rfl
        | error error => rfl
      · cases hfinished with
        | raised error hsame | early recoveredAt result hearly hsame => exact .inl hsame
        | ran recoveredAt answer hrun => exact .inr ⟨_, _, _, _, hrun⟩

/-- A pass of the watchdog after the timeout gives back every row in `PROCESSING`. -/
theorem Ready.watched {m : Bridge} (h : Ready platform s m) (hwatchdog : m.watchdog = .idle)
    (hrunning : s.stopping = false) (hvariables : 5 ≤ platform.maxVariables)
    {later stale : Datetime}
    (hstale : later.shift (-s.config.staleProcessingTimeout) = .ok stale)
    (hstamped : StampedBefore (formatTimestamp stale) m.wal.data) (now : Datetime) :
    ∃ t, (bridgeSystem platform m.config).Leads (fun label => label.goesOn = true) m t ∧
      Ready platform s t ∧ Unprocessed t.wal.data ∧
      Recovers platform m.wal.data t.wal.data := by
  have hwatch : m.Leads platform later { m with
      watchdog := .recovering (formatTimestamp stale) [] } := by
    refine .single (.watch later) ?_ rfl
    simp [Bridge.step, Label.thread, Bridge.localStep, hwatchdog, h.stopping.trans hrunning,
      watchState, h.config, hstale, h.worker, protectedIds]
  have hidle : m.wal.transaction .watchdog = .idle :=
    h.reached.idle (by simp [Bridge.job, hwatchdog])
  have hrun : ∃ answer after, (Job.recover (formatTimestamp stale) []).run platform now
      m.wal.data = .ok (answer, after) ∧ after = { m.wal.data with
        mqttMessages := m.wal.data.mqttMessages.update (isStale (formatTimestamp stale) [])
          (recoverMessage (formatTimestamp now)) } := by
    have hbound : ¬ platform.maxVariables < ([] : List Nat).length + 5 := by
      simpa using hvariables
    refine ⟨.recovered (m.wal.data.mqttMessages.select
      (isStale (formatTimestamp stale) [])).length, _, ?_, rfl⟩
    simp only [Job.run, resetStaleProcessing, if_neg hbound, Except.map]
  obtain ⟨answer, after, hrun, hafter⟩ := hrun
  obtain ⟨t, hrecover, hended⟩ := fresh_leads .watchdog
    (.recover (formatTimestamp stale) []) now (h.reached.leads hwatch) rfl hidle h.writer
    (by rintro ⟨⟩)
  simp only [Job.result, hrun, after_of_ok hrun, Except.map] at hended
  obtain ⟨hdata, hwriter, wal, ht⟩ := hended
  refine ⟨t, ?_, ⟨(h.reached.leads hwatch).leads hrecover, ?_, hwriter, ?_, ?_⟩, ?_, ?_⟩
  · refine System.Leads.trans (hwatch.weaken fun _ => Label.GoesOnAt.goesOn) ?_
    exact (leads_congr.mp hrecover).weaken fun _ => Label.GoesOnAt.goesOn
  · rw [ht, resume_worker_of_ne _ _ (by rintro ⟨⟩)]
    exact h.worker
  · rw [ht, resume_config]
    exact h.config
  · rw [ht, resume_stopping]
    exact h.stopping
  · intro id row hrow hprocessing
    rw [hdata, hafter, Database.message, Table.byId_update] at hrow
    obtain ⟨found, hfound, rfl⟩ := Option.map_eq_some_iff.mp hrow
    split at hprocessing
    · cases hprocessing
    · next hfresh =>
      have hbefore := hstamped id found hfound hprocessing
      simp [isStale, hprocessing, hbefore] at hfresh
  · rw [hdata]
    exact .inr ⟨_, _, _, _, hrun⟩

/-! ## The whole queue -/

/--
Every row is settled.  From every state that the threads reach, the running process can go
on until each row is completed or out of retries, the rows included that crashes and
exceptions have left in `PROCESSING`; every readable row outside of the worker's hands that
has an attempt left is then completed.  The clock has to move past the timeout of the rows in
`PROCESSING`.
-/
theorem queue_settleable (acknowledged : Acknowledged) {past : List BridgeEvent}
    (ran : (bridgeSystem platform config).Ran (.start config .empty) past s)
    (hrunning : s.stopping = false) (hworkable : s.config.Workable platform)
    (hvariables : 5 ≤ platform.maxVariables)
    (hstorable : storable s.config acknowledged.response = true) {later stale : Datetime}
    (hstale : later.shift (-s.config.staleProcessingTimeout) = .ok stale)
    (hnow : formatTimestamp now < formatTimestamp stale)
    (hstamped : StampedBefore (formatTimestamp stale) s.wal.data) :
    ∃ labels t, (∀ label ∈ labels, label.goesOn = true) ∧
      (bridgeSystem platform config).exec s labels = some t ∧ t.worker = .idle ∧
      (∀ row ∈ t.wal.data.mqttMessages.rows, row.status = .completed ∨
        row.status = .failed ∧ s.config.maxRetries ≤ row.retryCount) ∧
      ∀ id, Owed s.config.maxRetries s.wal.data id → id ∉ s.worker.held →
        Served t.wal.data id := by
  obtain ⟨m, u, hbegun, hkeeps, hu, hfirst⟩ :=
    ready_leads hrunning hworkable hstorable ⟨config, past, ran⟩ now
  obtain ⟨w, hended, hw, hidle, hrecovers⟩ := hu.watchdog_leads now
  have hstampedThen := hstamped.leads hnow (hbegun.trans hended)
  obtain ⟨v, hwatched, hv, hnone, hgiven⟩ :=
    hw.watched hidle hrunning hvariables hstale hstampedThen now
  obtain ⟨t, hdrained, ht, hpasses, hempty⟩ :=
    hv.drained hrunning hworkable hstorable now
  have hleads : (bridgeSystem platform config).Leads (fun label => label.goesOn = true) s t := by
    refine System.Leads.trans ((leads_congr.mp (hbegun.trans hended)).weaken
      fun _ => Label.GoesOnAt.goesOn) ?_
    refine System.Leads.trans (leads_congr.mp hwatched) ?_
    exact (leads_congr.mp hdrained).weaken fun _ => Label.GoesOnAt.goesOn
  obtain ⟨labels, hlabels, run⟩ := hleads
  have hsettled : ∀ row ∈ t.wal.data.mqttMessages.rows, row.status = .completed ∨
      row.status = .failed ∧ s.config.maxRetries ≤ row.retryCount := by
    intro row hrow
    have hprocessed := hpasses.unprocessed hnone _ row (Table.byId_rowId hrow)
    have hpending := hempty row hrow
    simp only [isPending, Bool.or_eq_false_iff, Bool.and_eq_false_iff, beq_eq_false_iff_ne,
      decide_eq_false_iff_not] at hpending
    cases hstatus : row.status with
    | completed => exact .inl rfl
    | failed => exact .inr ⟨rfl, by grind⟩
    | new => exact absurd hstatus hpending.1
    | processing => exact absurd hstatus hprocessed
  refine ⟨labels, t, hlabels, run, ht.worker, hsettled, fun id howed hout => ?_⟩
  have hthere := (hkeeps.lasting _ (lasting_owed platform _) id howed hout).1
  have hlast := hpasses.owed (hgiven.owed (hrecovers.owed (hfirst.owed (.inl hthere))))
  rcases hlast with ⟨row, hrow, -, hpending | ⟨hprocessing, -⟩⟩ | hserved
  · rw [hempty row (Table.mem_of_byId hrow)] at hpending
    cases hpending
  · exact absurd hprocessing (hpasses.unprocessed hnone id row hrow)
  · exact hserved

end

/-- The process dies while a row is in `PROCESSING`. -/
def crashedClaim : List Label := receives compactPayload ++ claims ++ [.restart sampleConfig]

theorem queue_settleable_sample :
    ∃ s labels t, (bridgeSystem samplePlatform sampleConfig).exec
        (.start sampleConfig .empty) crashedClaim = some s ∧
      rowStatus s 1 = some .processing ∧
      (bridgeSystem samplePlatform sampleConfig).exec s labels = some t ∧
      rowStatus t 1 = some .completed := by
  have hrun : ((bridgeSystem samplePlatform sampleConfig).exec
      (.start sampleConfig .empty) crashedClaim).map (fun s =>
        (decide (s.config.batchSize = 10) && decide (s.config.maxRetries = 3) &&
            decide (s.config.staleProcessingTimeout = 60) &&
            storable s.config sampleOdooResponse &&
            (s.wal.data.mqttMessages.rows.all fun row =>
              row.lastAttemptAt == some (formatTimestamp noon)) &&
            (s.wal.data.message 1).any fun row => row.status == .processing &&
              row.retryCount == 0 && (payloadFromRecord row).isOk,
          s.stopping, s.worker.held)) = some (true, false, []) := by decide +kernel
  obtain ⟨s, hs, hvalues⟩ := Option.map_eq_some_iff.mp hrun
  simp only [Prod.mk.injEq, Bool.and_eq_true, decide_eq_true_eq, List.all_eq_true,
    beq_iff_eq, Option.any_eq_true] at hvalues
  obtain ⟨⟨⟨⟨⟨⟨hbatch, hmax⟩, htimeout⟩, hstorable⟩, hrows⟩, row, hfound,
    ⟨hstatus, hretries⟩, hreadable⟩, hrunning, hheld⟩ := hvalues
  have hearlier : formatTimestamp noon < formatTimestamp (atNoon 1) := by decide +kernel
  have hstamped : StampedBefore (formatTimestamp (atNoon 1)) s.wal.data := by
    intro id other hother _
    simp [hrows other (Table.mem_of_byId hother), hearlier]
  have hworkable : s.config.Workable samplePlatform := by
    constructor
    · rw [hbatch]
      decide
    · rw [hbatch]
      decide
    · rw [hmax]
      decide
    · rw [hbatch]
      decide
  have hstale : (atNoon 61).shift (-s.config.staleProcessingTimeout) = .ok (atNoon 1) := by
    rw [htimeout]
    decide +kernel
  obtain ⟨labels, t, -, ht, -, -, hserved⟩ := queue_settleable sampleAcknowledged
    ⟨crashedClaim, hs, rfl⟩ hrunning hworkable (by decide) hstorable hstale hearlier hstamped
  obtain ⟨final, hfinal, hdone⟩ := hserved 1
    ⟨row, hfound, hreadable, .inr ⟨hstatus, by rw [hretries, hmax]; decide⟩⟩
    (by rw [hheld]; exact List.not_mem_nil)
  refine ⟨s, labels, t, hs, ?_, ht, ?_⟩
  · rw [rowStatus, hfound, Option.map_some, hstatus]
  · rw [rowStatus, hfinal, Option.map_some, hdone]

end EdgeBridge
