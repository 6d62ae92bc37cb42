import EdgeBridge.Bridge.Attempts
import EdgeBridge.Bridge.Completion

/-!
# A completed message is final

`mark_completed` and `mark_failed` update by id, without looking at the status.
What keeps them away from a completed row is the batch of the worker: everything
in it is open, under every interleaving.
-/

namespace EdgeBridge

open Foundation

/-! ## One transaction -/

/-- The same row but for the columns of the acknowledgement replays. -/
def MessageRecord.SameButReplays (row now : MessageRecord) : Prop :=
  ∃ count replayedAt, now = { row with
    ackReplayCount := count
    lastAckReplayedAt := replayedAt }

theorem MessageRecord.SameButReplays.refl (row : MessageRecord) :
    row.SameButReplays row :=
  ⟨row.ackReplayCount, row.lastAckReplayedAt, rfl⟩

theorem MessageRecord.SameButReplays.trans {first second third : MessageRecord}
    (h : first.SameButReplays second) (h' : second.SameButReplays third) :
    first.SameButReplays third := by
  rcases h with ⟨_, _, rfl⟩
  rcases h' with ⟨count, replayedAt, rfl⟩
  exact ⟨count, replayedAt, rfl⟩

theorem MessageRecord.SameButReplays.status {row now : MessageRecord}
    (h : row.SameButReplays now) : now.status = row.status := by
  rcases h with ⟨_, _, rfl⟩
  rfl

theorem RowChange.completed_final {now : Datetime} {seq id : Nat} {job : Job}
    {answer : Answer} {row : MessageRecord} {after : Option MessageRecord}
    (h : RowChange now seq id job answer (some row) after)
    (hstatus : row.status = .completed)
    (hcomplete : ∀ arguments, job ≠ .complete id arguments)
    (hfail : ∀ failure, job ≠ .fail id failure) :
    (after = none ∧ ∃ retentionDays batchSize, job = .cleanup retentionDays batchSize) ∨
      ∃ next, after = some next ∧ row.SameButReplays next := by
  cases h with
  | kept => exact .inr ⟨row, rfl, .refl row⟩
  | claimed _ hpending _ => simp [isPending, hstatus] at hpending
  | completed _ _ => exact absurd rfl (hcomplete _)
  | failed _ => exact absurd rfl (hfail _)
  | recovered _ hstale => simp [isStale, hstatus] at hstale
  | replayed _ _ => exact .inr ⟨_, rfl, _, _, rfl⟩
  | deleted _ _ => exact .inl ⟨rfl, _, _, rfl⟩

/-- What is left of a completed message and of its production record. -/
structure Final (row : MessageRecord) (record : ProductionRecord) (db : Database) :
    Prop where
  known : row.id ≤ db.mqttMessages.seq
  message : ∀ now, db.message row.id = some now → row.SameButReplays now
  kept : ∀ now, db.message row.id = some now → db.productionRecord row.id = some record
  record : ∀ now, db.productionRecord row.id = some now → now = record

section

variable {row : MessageRecord} {record : ProductionRecord} {past : List Completed}
  {s : Ledger}

/-- The worker never holds a completed row, nor one that was deleted. -/
theorem Final.not_held (h : Final row record s.db) (hstatus : row.status = .completed)
    (haccounted : Accounted past s) : row.id ∉ s.held := by
  intro hheld
  rcases haccounted.heldOpen row.id hheld with ⟨now, hnow, hopen⟩
  have hsame := (h.message now hnow).status.trans hstatus
  rcases hopen with hopen | hopen
  · cases hopen.symm.trans hsame
  · cases hopen.symm.trans hsame

theorem Final.of_completed (haccounted : Accounted past s) {id : Nat}
    (hrow : s.db.message id = some row) (hstatus : row.status = .completed) :
    ∃ record, s.db.productionRecord id = some record ∧ record.summaryApplied = true ∧
      Final row record s.db := by
  have hid := id_of_message hrow
  rcases haccounted.summaryApplied hrow hstatus with ⟨record, hrecord, -, happlied⟩
  refine ⟨record, hrecord, happlied, ?_, ?_, ?_, ?_⟩
  · rw [hid]
    exact message_le_seq hrow
  · intro now hnow
    rw [hid, hrow, Option.some.injEq] at hnow
    rw [← hnow]
    exact .refl row
  · intro now _
    rw [hid]
    exact hrecord
  · intro now hnow
    rw [hid, hrecord, Option.some.injEq] at hnow
    exact hnow.symm

/-- Without its message a record can only go. -/
theorem Final.gone {db after : Database} (h : Final row record db)
    (hseq : db.mqttMessages.seq ≤ after.mqttMessages.seq)
    (hgone : after.message row.id = none)
    (hrecord : ∀ found, after.productionRecord row.id = some found →
      db.productionRecord row.id = some found) : Final row record after where
  known := Nat.le_trans h.known hseq
  message := by
    intro found hfound
    rw [hgone] at hfound
    cases hfound
  kept := by
    intro found hfound
    rw [hgone] at hfound
    cases hfound
  record := fun found hfound => h.record found (hrecord found hfound)

/-- No transaction of the ledger touches a completed message but to delete it. -/
theorem Final.run {platform : Platform} {now : Datetime} {job : Job} {answer : Answer}
    {after : Database} (h : Final row record s.db) (hstatus : row.status = .completed)
    (haccounted : Accounted past s) (hallowed : Ledger.allowed s.held job = true)
    (hrun : job.run platform now s.db = .ok (answer, after)) :
    Final row record after ∧
      ((s.db.message row.id).isSome = true → after.message row.id = none →
        ∃ retentionDays batchSize, job = .cleanup retentionDays batchSize) := by
  have hheld := h.not_held hstatus haccounted
  have hcomplete : ∀ arguments, job ≠ .complete row.id arguments := by
    rintro arguments rfl
    simp only [Ledger.allowed, Bool.and_eq_true, List.contains_iff_mem] at hallowed
    exact hheld hallowed.1
  have hfail : ∀ failure, job ≠ .fail row.id failure := by
    rintro failure rfl
    exact hheld (List.contains_iff_mem.mp hallowed)
  have hseq := (Job.tables hrun).1
  have hchange := Job.rowChange hrun row.id
  -- The production records of other messages are none of this job's business.
  have hrecords : (∀ found, after.productionRecord row.id = some found →
        s.db.productionRecord row.id = some found) ∧
      ∀ found, after.message row.id = some found → found.status = .completed →
        after.productionRecord row.id = s.db.productionRecord row.id := by
    by_cases hjob : ∃ id arguments, job = .complete id arguments
    · rcases hjob with ⟨id, arguments, rfl⟩
      rcases map_eq_ok.mp hrun with ⟨final, hmark, heq⟩
      cases heq
      simp only [Ledger.allowed, Bool.and_eq_true] at hallowed
      rcases Option.isSome_iff_exists.mp hallowed.2 with ⟨ack, hack⟩
      rcases markCompleted_eq_ok hack hmark with ⟨_, _, _, -, -, -, -, hcounted⟩
      have hne : row.id ≠ id := by
        rintro rfl
        exact hcomplete arguments rfl
      rw [hcounted.others row.id hne]
      exact ⟨fun _ hfound => hfound, fun _ _ _ => rfl⟩
    · simp only [not_exists] at hjob
      have hquiet := haccounted.quiet hjob hrun
      exact ⟨hquiet.records row.id, hquiet.survivors row.id⟩
  cases hbefore : s.db.message row.id with
  | none =>
      rw [hbefore] at hchange
      have hgone : after.message row.id = none := by
        cases hafter : after.message row.id with
        | none => rfl
        | some found =>
            rw [hafter] at hchange
            have hnew := hchange.of_none.1
            have hknown := h.known
            omega
      exact ⟨h.gone hseq hgone hrecords.1, fun hsome => Bool.noConfusion hsome⟩
  | some old =>
      have hold := h.message old hbefore
      rw [hbefore] at hchange
      rcases hchange.completed_final (hold.status.trans hstatus) hcomplete hfail with
        ⟨hgone, hcleanup⟩ | ⟨next, hnext, hsame⟩
      · exact ⟨h.gone hseq hgone hrecords.1, fun _ _ => hcleanup⟩
      · refine ⟨⟨Nat.le_trans h.known hseq, ?_, ?_, ?_⟩, ?_⟩
        · intro found hfound
          rw [hnext, Option.some.injEq] at hfound
          exact hfound ▸ hold.trans hsame
        · intro found hfound
          have hcompleted : found.status = .completed := by
            rw [hnext, Option.some.injEq] at hfound
            rw [← hfound, (hold.trans hsame).status, hstatus]
          rw [hrecords.2 found hfound hcompleted]
          exact h.kept old hbefore
        · intro found hfound
          exact h.record found (hrecords.1 found hfound)
        · intro _ hnone
          rw [hnext] at hnone
          cases hnone

end

/-! ## The threads -/

/-- The row is returned by a claim, submitted, or rejected before its submission. -/
def BridgeEvent.takes (id : Nat) : BridgeEvent → Bool
  | .claimed ids => ids.contains id
  | event => event.isAttemptOf id

/-- Only a record of the batch is submitted or rejected. -/
theorem attempt_held {platform : Platform} {s : Bridge} {label : Label}
    {event : BridgeEvent} {id : Nat} (hevent : event ∈ s.observe platform label)
    (hattempt : event.isAttemptOf id = true) : id ∈ s.worker.held := by
  cases Bridge.observe_shown hevent with
  | submitted now record rest hbatch =>
      rw [hbatch]
      exact List.mem_cons.mpr (.inl (beq_iff_eq.mp hattempt).symm)
  | rejected now record rest hbatch =>
      rw [hbatch]
      exact List.mem_cons.mpr (.inl (beq_iff_eq.mp hattempt).symm)
  | claimed | recovered | completed | timedOut | stopped | accepted | published
  | replayed => cases hattempt

section

variable {platform : Platform} {row : MessageRecord} {record : ProductionRecord}
  {past : List Completed} {s t : Bridge} {label : Label}

theorem Final.not_taken (h : Final row record s.wal.data)
    (hstatus : row.status = .completed) (haccounted : Accounted past s.ledger)
    {event : BridgeEvent} (hevent : event ∈ s.observe platform label) :
    event.takes row.id = false := by
  have hnoAttempt : event.isAttemptOf row.id = false := by
    cases hattempt : event.isAttemptOf row.id with
    | false => rfl
    | true =>
        have hheld : row.id ∈ s.ledger.held := attempt_held hevent hattempt
        exact absurd hheld (Final.not_held h hstatus haccounted)
  cases event with
  | claimed ids =>
      cases htaken : ids.contains row.id with
      | false => exact htaken
      | true =>
          rcases (pending_of_claimed hevent (List.contains_iff_mem.mp htaken)).2 with
            ⟨now, hnow, hpending⟩
          have hcompleted := (h.message now hnow).status.trans hstatus
          simp [isPending, hcompleted] at hpending
  | _ => exact hnoAttempt

theorem Final.step (h : Final row record s.wal.data) (hstatus : row.status = .completed)
    (haccounted : Accounted past s.ledger) (hstep : s.step platform label = some t) :
    Final row record t.wal.data ∧
      ((s.wal.data.message row.id).isSome = true → t.wal.data.message row.id = none →
        ∃ thread now retentionDays batchSize, label = .commit thread now ∧
          s.job thread = some (.cleanup retentionDays batchSize)) := by
  refine data_step_preserve (P := fun db => Final row record db ∧
    ((s.wal.data.message row.id).isSome = true → db.message row.id = none →
      ∃ thread now retentionDays batchSize, label = .commit thread now ∧
        s.job thread = some (.cleanup retentionDays batchSize))) ⟨h, ?_⟩ hstep ?_
  · intro hsome hnone
    rw [hnone] at hsome
    cases hsome
  · intro thread now job answer hlabel hjob hrun
    rcases Move.ledger_commit hjob hrun with ⟨hallowed, -⟩
    rcases Final.run (s := s.ledger) h hstatus haccounted hallowed hrun with
      ⟨hfinal, hdeleted⟩
    refine ⟨hfinal, fun hsome hnone => ?_⟩
    rcases hdeleted hsome hnone with ⟨retentionDays, batchSize, rfl⟩
    exact ⟨thread, now, retentionDays, batchSize, hlabel, hjob⟩

end

theorem final_run {platform : Platform} {config : Config} {past : List BridgeEvent}
    {s t : Bridge} {row : MessageRecord} {record : ProductionRecord} {after : List Label}
    (ran : (bridgeSystem platform config).Ran (bridgeSystem platform config).init past s)
    (h : Final row record s.wal.data) (hstatus : row.status = .completed)
    (run : (bridgeSystem platform config).exec s after = some t) :
    (∃ all, (bridgeSystem platform config).Ran
        (bridgeSystem platform config).init all t) ∧
      Final row record t.wal.data ∧
      ∀ event ∈ (bridgeSystem platform config).trace s after,
        event.takes row.id = false := by
  refine (bridgeSystem platform config).trace_invariant (s := s)
    (I := fun later m => (∃ all, (bridgeSystem platform config).Ran
        (bridgeSystem platform config).init all m) ∧
      Final row record m.wal.data ∧ ∀ event ∈ later, event.takes row.id = false)
    ⟨⟨past, ran⟩, h, by simp⟩ ?_ ⟨after, run, rfl⟩
  rintro later m label u - ⟨⟨all, hall⟩, hfinal, hlater⟩ hstep
  have haccounted := bridge_accounted hall
  refine ⟨⟨_, hall.snoc hstep⟩, (hfinal.step hstatus haccounted hstep).1, ?_⟩
  intro event hevent
  rcases List.mem_append.mp hevent with hold | hnew
  · exact hlater event hold
  · exact hfinal.not_taken hstatus haccounted hnew

/--
A completed message is final: whatever the threads do next, its row keeps every
column but those of the acknowledgement replays until a cleanup deletes it, its
production record keeps its contents, and it is never claimed or submitted again.
-/
theorem completed_message_final {platform : Platform} {config : Config}
    {before after : List Label} {s t : Bridge} {id : Nat} {row : MessageRecord}
    (hbefore : (bridgeSystem platform config).exec (bridgeSystem platform config).init
      before = some s)
    (hrow : s.wal.data.message id = some row) (hstatus : row.status = .completed)
    (hafter : (bridgeSystem platform config).exec s after = some t) :
    (∀ now, t.wal.data.message id = some now → row.SameButReplays now) ∧
    (∃ record, s.wal.data.productionRecord id = some record ∧
      record.summaryApplied = true ∧
      (∀ now, t.wal.data.productionRecord id = some now → now = record) ∧
      ((t.wal.data.message id).isSome = true →
        t.wal.data.productionRecord id = some record)) ∧
    (∀ event ∈ (bridgeSystem platform config).trace s after, event.takes id = false) ∧
    ∀ label u, (t.wal.data.message id).isSome = true → t.step platform label = some u →
      u.wal.data.message id = none →
      ∃ thread now retentionDays batchSize, label = .commit thread now ∧
        t.job thread = some (.cleanup retentionDays batchSize) := by
  have ran : (bridgeSystem platform config).Ran (bridgeSystem platform config).init _ s :=
    ⟨before, hbefore, rfl⟩
  have hid := id_of_message hrow
  subst hid
  rcases Final.of_completed (bridge_accounted ran) hrow hstatus with
    ⟨record, hrecord, happlied, hfinal⟩
  rcases final_run ran hfinal hstatus hafter with ⟨⟨all, hall⟩, hthen, hevents⟩
  refine ⟨hthen.message, ⟨record, hrecord, happlied, hthen.record, ?_⟩, hevents, ?_⟩
  · intro hsome
    rcases Option.isSome_iff_exists.mp hsome with ⟨now, hnow⟩
    exact hthen.kept now hnow
  · intro label u hsome hstep hnone
    exact (hthen.step hstatus (bridge_accounted hall) hstep).2 hsome hnone

/-- The completed message is delivered again, and the worker claims again. -/
def deliveredAgain : List Label :=
  [.publishAck, .deliver plcToOdooTopic (compactPayload.map UInt8.ofNat),
    .begin .mqtt noon, .lookup, .lock .mqtt, .commit .mqtt noon, .publishReplay,
    .finishMessage, .next noon] ++ claims

theorem completed_message_final_sample :
    ∃ s t row now, (bridgeSystem samplePlatform sampleConfig).exec
        (bridgeSystem samplePlatform sampleConfig).init completionRecorded = some s ∧
      (bridgeSystem samplePlatform sampleConfig).exec s deliveredAgain = some t ∧
      s.wal.data.message 1 = some row ∧ t.wal.data.message 1 = some now ∧
      row.ackReplayCount = 0 ∧ now.ackReplayCount = 1 ∧ row.SameButReplays now ∧
      ∀ event ∈ (bridgeSystem samplePlatform sampleConfig).trace s deliveredAgain,
        event.takes 1 = false := by
  have hrun : (((bridgeSystem samplePlatform sampleConfig).exec
      (bridgeSystem samplePlatform sampleConfig).init completionRecorded).bind fun s =>
        ((bridgeSystem samplePlatform sampleConfig).exec s deliveredAgain).map fun t =>
          ((s.wal.data.message 1).map fun row => (row.status, row.ackReplayCount),
            (t.wal.data.message 1).map fun row => (row.status, row.ackReplayCount))) =
      some (some (.completed, 0), some (.completed, 1)) := by decide +kernel
  rcases Option.bind_eq_some_iff.mp hrun with ⟨s, hs, hthen⟩
  rcases Option.map_eq_some_iff.mp hthen with ⟨t, ht, hvalues⟩
  simp only [Prod.mk.injEq, Option.map_eq_some_iff] at hvalues
  rcases hvalues with ⟨⟨row, hrow, hstatus, hbefore⟩, now, hnow, -, hafter⟩
  have hfinal := completed_message_final hs hrow hstatus ht
  exact ⟨s, t, row, now, hs, ht, hrow, hnow, hbefore, hafter, hfinal.1 now hnow,
    hfinal.2.2.1⟩

end EdgeBridge
