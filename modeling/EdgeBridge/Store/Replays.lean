import EdgeBridge.Foundation.Limiter
import EdgeBridge.Ledger
import EdgeBridge.Store.Transactions

/-!
# How often an ACK is replayed

`record_ack_replay_attempt` is a limiter whose clock is cut to the second, because the
time of the last replay goes through its stored text.  The window law survives the
cut; the minimum interval does not.
-/

namespace EdgeBridge

open Foundation

def replayLimiter : Limiter where
  limit := ackReplayMaxCount
  gap := ackReplayMinInterval
  window := ackReplayWindow
  grain := 1000000
  coarse micro := micro / 1000000 * 1000000
  lt_coarse := by
    intro micro
    omega

theorem replayLimiter_fits : replayLimiter.Fits where
  limit := by decide
  gap := by decide
  window := by decide
  full := by decide

def replayMeter (row : MessageRecord) (last : Option Datetime) : Meter :=
  ⟨row.ackReplayCount, last.map Datetime.micro⟩

/-- The times at which a replay was allowed, for one message hash. -/
def allowedReplays (platform : Platform) (messageHash : Text) (db : Database)
    (op : Job × Datetime) : List Datetime :=
  match op.1 with
  | .replay other =>
      if other = messageHash then
        match recordAckReplayAttempt platform other op.2 db with
        | .ok (attempt, _) => if attempt.allowed then [op.2] else []
        | .error _ => []
      else []
  | _ => []

def replaySystem (platform : Platform) (messageHash : Text) :
    System Database (Job × Datetime) Datetime :=
  transactions platform (allowedReplays platform messageHash)

section

variable {platform : Platform} {messageHash : Text} {now : Datetime} {db : Database}
  {row : MessageRecord}

/-! ## One attempt -/

theorem replayWindow_eq (now : Datetime) (row : MessageRecord) (last : Option Datetime) :
    (replayWindow now row.ackReplayCount last).1 =
        (replayLimiter.expire now.micro (replayMeter row last)).count ∧
      (replayWindow now row.ackReplayCount last).2.map Datetime.micro =
        (replayLimiter.expire now.micro (replayMeter row last)).last := by
  cases last with
  | none => simp [replayWindow, Limiter.expire, replayMeter]
  | some last =>
      by_cases hexpired : last.micro + ackReplayWindow ≤ now.micro
      · simp [replayWindow, Limiter.expire, replayMeter, replayLimiter, hexpired]
      · simp [replayWindow, Limiter.expire, replayMeter, replayLimiter, hexpired]

variable (now) in
/-- The attempt is what the limiter makes of the row. -/
theorem recordAckReplayAttempt_limiter {last : Option Datetime}
    (hrow : (db.mqttMessages.find? fun record => record.messageHash == messageHash) = some row)
    (hlast : parseOptionalTimestamp platform row.lastAckReplayedAt = .ok last) :
    ∃ attempt, attempt.allowed = replayLimiter.grants now.micro (replayMeter row last) ∧
      recordAckReplayAttempt platform messageHash now db = .ok (attempt,
        if attempt.allowed then
          { db with
            mqttMessages := db.mqttMessages.update
              (fun record => record.messageHash == messageHash)
              (replayUpdate (replayLimiter.charge now.micro (replayMeter row last)).count
                (formatTimestamp now)) }
        else db) := by
  obtain ⟨hcount, htime⟩ := replayWindow_eq now row last
  unfold recordAckReplayAttempt Limiter.grants Limiter.charge
  rw [hrow, ← hcount, ← htime]
  simp only [bind, Except.bind, hlast, Option.all_map]
  split
  · next hfull =>
    refine ⟨_, ?_, rfl⟩
    have hlimit : ¬ (replayWindow now row.ackReplayCount last).1 < replayLimiter.limit :=
      Nat.not_lt.mpr hfull
    simp [hlimit]
  · next hroom =>
    have hlimit : (replayWindow now row.ackReplayCount last).1 < replayLimiter.limit :=
      Nat.lt_of_not_le hroom
    cases htime : (replayWindow now row.ackReplayCount last).2 with
    | none => exact ⟨_, by simp [hlimit], rfl⟩
    | some time =>
        have hgap : replayLimiter.gap = ackReplayMinInterval := rfl
        rw [Option.all_some, Option.any_some, hgap]
        split
        · next hearly =>
          have hrefused : ¬ time.micro + ackReplayMinInterval ≤ now.micro :=
            Nat.not_le.mpr (of_decide_eq_true hearly)
          exact ⟨_, by simp [hrefused], rfl⟩
        · next hlate =>
          have hallowed : time.micro + ackReplayMinInterval ≤ now.micro := by
            simpa using hlate
          exact ⟨_, by simp [hlimit, hallowed], rfl⟩

theorem parseOptionalTimestamp_formatTimestamp (platform : Platform) (time : Datetime) :
    parseOptionalTimestamp platform (some (formatTimestamp time)) =
      .ok (some time.truncate) := by
  have hparse : parseTimestamp platform (formatTimestamp time) = .ok time.truncate := by
    simp [parseTimestamp, fromIsoformat_formatTimestamp]
  cases htext : formatTimestamp time with
  | nil =>
      have hread := Datetime.ofIsoText_isoformat time
      rw [show time.isoformat = [] from htext] at hread
      simp [Datetime.ofIsoText] at hread
  | cons c rest =>
      rw [htext] at hparse
      simp [parseOptionalTimestamp, hparse, Except.map]

/-! ## The row between two attempts -/

theorem RowChange.replayFields {seq id : Nat} {job : Job} {answer : Answer}
    {next : MessageRecord} (h : RowChange now seq id job answer (some row) (some next))
    (hjob : ∀ other, job ≠ .replay other) :
    next.ackReplayCount = row.ackReplayCount ∧
      next.lastAckReplayedAt = row.lastAckReplayedAt := by
  cases h with
  | replayed _ _ => exact absurd rfl (hjob _)
  | _ => exact ⟨rfl, rfl⟩

variable (now) in
/-- A transaction that is no attempt for this hash leaves the counter and the time. -/
theorem replayFields_after (platform : Platform) {job : Job}
    (hrow : (db.mqttMessages.find? fun record => record.messageHash == messageHash) = some row)
    (hclean : job.isCleanup = false) (hjob : job ≠ .replay messageHash) :
    ∃ next, ((db.after platform (job, now)).mqttMessages.find? fun record =>
        record.messageHash == messageHash) = some next ∧
      next.ackReplayCount = row.ackReplayCount ∧
      next.lastAckReplayedAt = row.lastAckReplayedAt := by
  have hfound := Table.find?_eq_some hrow
  have hhash : row.messageHash = messageHash := beq_iff_eq.mp hfound.2
  obtain hsame | ⟨answer, hrun⟩ := db.after_cases platform job now
  · rw [hsame]
    exact ⟨row, hrow, rfl, rfl⟩
  by_cases hreplay : ∃ other, job = .replay other
  · obtain ⟨other, rfl⟩ := hreplay
    have hne : other ≠ messageHash := fun heq => hjob (heq ▸ rfl)
    obtain ⟨result, hresult, heq⟩ := map_eq_ok.mp hrun
    obtain hsame | ⟨count, hafter⟩ := recordAckReplayAttempt_eq_ok hresult
    · rw [(Prod.mk.inj heq).2] at hsame
      rw [hsame]
      exact ⟨row, hrow, rfl, rfl⟩
    · rw [(Prod.mk.inj heq).2] at hafter
      rw [hafter]
      have hupdate := db.mqttMessages.find?_update (fun record => record.messageHash == other)
        (replayUpdate count (formatTimestamp now))
        (p := fun record => record.messageHash == messageHash) fun _ => rfl
      refine ⟨row, ?_, rfl, rfl⟩
      rw [hupdate, hrow]
      simp [hhash, hne.symm]
  · have hchange := Job.rowChange hrun row.id
    rw [message_of_mem hfound.1] at hchange
    obtain ⟨next, hnext, hsame, -, -⟩ := hchange.identity hclean
    rw [hnext] at hchange
    have hmem := Table.mem_of_byId hnext
    refine ⟨next, ?_, hchange.replayFields fun other heq => hreplay ⟨other, heq⟩⟩
    rw [← hhash, ← hsame]
    exact messageByHash_of_mem hmem

/-! ## One step -/

/-- What the replays allowed so far have left in the row. -/
def ReplaysMetered (messageHash : Text) (past : List Datetime) (db : Database) : Prop :=
  ∀ last earlier, past.reverse = last :: earlier → ∃ row,
    (db.mqttMessages.find? fun record => record.messageHash == messageHash) = some row ∧
      row.lastAckReplayedAt = some (formatTimestamp last) ∧
      replayLimiter.Metered last.micro (earlier.map Datetime.micro)
        (replayMeter row (some last.truncate))

theorem allowedReplays_of_ne {job : Job} (hjob : job ≠ .replay messageHash) :
    allowedReplays platform messageHash db (job, now) = [] := by
  cases job with
  | replay other =>
      have hne : other ≠ messageHash := fun heq => hjob (heq ▸ rfl)
      simp [allowedReplays, hne]
  | _ => rfl

variable (now) in
/-- An attempt of a row with a readable time is the limiter's. -/
theorem attempt_after {last : Option Datetime}
    (hrow : (db.mqttMessages.find? fun record => record.messageHash == messageHash) = some row)
    (hlast : parseOptionalTimestamp platform row.lastAckReplayedAt = .ok last) :
    (replayLimiter.grants now.micro (replayMeter row last) = false →
        allowedReplays platform messageHash db (.replay messageHash, now) = [] ∧
        db.after platform (.replay messageHash, now) = db) ∧
      (replayLimiter.grants now.micro (replayMeter row last) = true →
        allowedReplays platform messageHash db (.replay messageHash, now) = [now] ∧
        ((db.after platform (.replay messageHash, now)).mqttMessages.find? fun record =>
          record.messageHash == messageHash) = some (replayUpdate
            (replayLimiter.charge now.micro (replayMeter row last)).count
            (formatTimestamp now) row)) := by
  obtain ⟨attempt, hallowed, hattempt⟩ :=
    recordAckReplayAttempt_limiter now hrow hlast
  constructor
  · intro hrefused
    rw [hrefused] at hallowed
    simp [allowedReplays, Database.after, Job.run, hattempt, hallowed, Except.map]
  · intro hgranted
    rw [hgranted] at hallowed
    have hupdate := db.mqttMessages.find?_update
      (fun record => record.messageHash == messageHash)
      (replayUpdate (replayLimiter.charge now.micro (replayMeter row last)).count
        (formatTimestamp now))
      (p := fun record => record.messageHash == messageHash) fun _ => rfl
    have hhash := (Table.find?_eq_some hrow).2
    rw [hrow, Option.map_some, if_pos hhash] at hupdate
    simp [allowedReplays, Database.after, Job.run, hattempt, hallowed, Except.map, hupdate]

variable (now) in
/-- An attempt that fails to read the row is rolled back. -/
theorem attempt_raises
    (h : ∀ row last, (db.mqttMessages.find? fun record =>
        record.messageHash == messageHash) = some row →
      parseOptionalTimestamp platform row.lastAckReplayedAt ≠ .ok last) :
    allowedReplays platform messageHash db (.replay messageHash, now) = [] ∧
      db.after platform (.replay messageHash, now) = db := by
  have herror : ∃ error, recordAckReplayAttempt platform messageHash now db = .error error := by
    unfold recordAckReplayAttempt
    cases hrow : db.mqttMessages.find? fun record => record.messageHash == messageHash with
    | none => exact ⟨_, rfl⟩
    | some row =>
        cases hlast : parseOptionalTimestamp platform row.lastAckReplayedAt with
        | error error => exact ⟨error, by simp [bind, Except.bind, hlast]⟩
        | ok last => exact absurd hlast (h row last hrow)
  obtain ⟨error, herror⟩ := herror
  simp [allowedReplays, Database.after, Job.run, herror, Except.map]

theorem ReplaysMetered.step {past : List Datetime} (h : ReplaysMetered messageHash past db)
    {job : Job} (hclean : job.isCleanup = false) :
    ReplaysMetered messageHash (past ++ allowedReplays platform messageHash db (job, now))
      (db.after platform (job, now)) := by
  by_cases hjob : job = .replay messageHash
  · subst hjob
    by_cases hreads : ∃ row last, (db.mqttMessages.find? fun record =>
        record.messageHash == messageHash) = some row ∧
      parseOptionalTimestamp platform row.lastAckReplayedAt = .ok last
    · obtain ⟨row, last, hrow, hlast⟩ := hreads
      obtain ⟨hrefused, hgranted⟩ := attempt_after now hrow hlast
      cases hgrants : replayLimiter.grants now.micro (replayMeter row last) with
      | false =>
          rw [(hrefused hgrants).1, (hrefused hgrants).2, List.append_nil]
          exact h
      | true =>
          intro newest earlier hreverse
          rw [(hgranted hgrants).1, List.reverse_append, List.reverse_singleton,
            List.singleton_append, List.cons.injEq] at hreverse
          obtain ⟨rfl, rfl⟩ := hreverse
          refine ⟨_, (hgranted hgrants).2, rfl, ?_⟩
          cases hpast : past.reverse with
          | nil => exact Limiter.metered_first hgrants
          | cons newest earlier =>
              obtain ⟨found, hfound, htime, hmetered⟩ := h newest earlier hpast
              obtain rfl : found = row := Option.some.inj (hfound.symm.trans hrow)
              rw [htime, parseOptionalTimestamp_formatTimestamp, Except.ok.injEq] at hlast
              subst hlast
              exact hmetered.next replayLimiter_fits hgrants
    · simp only [not_exists, not_and] at hreads
      obtain ⟨hnone, hsame⟩ := attempt_raises now hreads
      rw [hnone, hsame, List.append_nil]
      exact h
  · rw [allowedReplays_of_ne hjob, List.append_nil]
    intro last earlier hreverse
    obtain ⟨row, hrow, htime, hmetered⟩ := h last earlier hreverse
    obtain ⟨next, hnext, hcount, hlast⟩ :=
      replayFields_after now platform hrow hclean hjob
    refine ⟨next, hnext, hlast.trans htime, ?_⟩
    rw [replayMeter, hcount]
    exact hmetered

/-! ## Whole runs -/

theorem replays_metered {db t : Database} {ops : List (Job × Datetime)}
    (clean : ∀ op ∈ ops, op.1.isCleanup = false)
    (run : (replaySystem platform messageHash).exec db ops = some t) :
    ReplaysMetered messageHash ((replaySystem platform messageHash).trace db ops) t :=
  (replaySystem platform messageHash).run_invariant
    (P := fun _ _ op => op.1.isCleanup = false)
    (I := fun past db => ReplaysMetered messageHash past db) (by simp [ReplaysMetered])
    (fun _ _ _ _ _ hm hclean hstep => Option.some.inj hstep ▸ hm.step hclean)
    ((replaySystem platform messageHash).along_of_mem clean _ _) run

/--
The replay window: the allowed replays of one message hash come at strictly increasing
times, and every half-open interval of 30 seconds holds at most three of them, for
calls at any times and with any other transactions but a cleanup in between.
-/
theorem ack_replay_window {db t : Database} {ops : List (Job × Datetime)}
    (clean : ∀ op ∈ ops, op.1.isCleanup = false)
    (run : (replaySystem platform messageHash).exec db ops = some t) :
    ((replaySystem platform messageHash).trace db ops).Pairwise
        (fun first second => first.micro < second.micro) ∧
      ∀ start : Int, (((replaySystem platform messageHash).trace db ops).filter fun time =>
        decide (start ≤ time.micro ∧ (time.micro : Int) < start + ackReplayWindow)).length ≤
          ackReplayMaxCount := by
  have hmetered := replays_metered clean run
  generalize (replaySystem platform messageHash).trace db ops = past at hmetered ⊢
  cases hpast : past.reverse with
  | nil =>
      rw [List.reverse_eq_nil_iff.mp hpast]
      exact ⟨.nil, by simp⟩
  | cons last earlier =>
      obtain ⟨row, -, -, hmetered⟩ := hmetered last earlier hpast
      have hreverse : past = (last :: earlier).reverse := by
        rw [← hpast, List.reverse_reverse]
      constructor
      · have hdecreasing := hmetered.decreasing
        rw [← List.map_cons, List.pairwise_map] at hdecreasing
        rw [hreverse, List.pairwise_reverse]
        exact hdecreasing
      · intro start
        have hfew := hmetered.spread.length_filter_le replayLimiter_fits.limit start
        rw [← List.map_cons, List.filter_map, List.length_map] at hfew
        rw [hreverse, List.filter_reverse, List.length_reverse]
        exact hfew

/-! ## The minimum interval -/

/-- Two attempts are at least the minimum interval apart. -/
def SpacedApart (first second : Datetime) : Prop :=
  first.micro + ackReplayMinInterval ≤ second.micro ∨
    second.micro + ackReplayMinInterval ≤ first.micro

/-- The attempt does not come in the time between the minimum interval after the last
allowed replay cut to the second and the minimum interval after that replay itself, or
the row has no replay left. -/
def AvoidsCut (messageHash : Text) (past : List Datetime) (db : Database)
    (op : Job × Datetime) : Prop :=
  op.1 = .replay messageHash → ∀ row last,
    (db.mqttMessages.find? fun record => record.messageHash == messageHash) = some row →
    past.getLast? = some last → row.ackReplayCount < ackReplayMaxCount →
      op.2.micro < last.truncate.micro + ackReplayMinInterval ∨
        last.micro + ackReplayMinInterval ≤ op.2.micro

variable (platform now) in
/-- A replay comes too early exactly when it falls into the cut. -/
theorem ReplaysMetered.early_iff {past : List Datetime}
    (h : ReplaysMetered messageHash past db) {last : Datetime}
    (hlast : past.getLast? = some last) :
    (∃ time ∈ allowedReplays platform messageHash db (.replay messageHash, now),
        time.micro < last.micro + ackReplayMinInterval) ↔
      ¬ AvoidsCut messageHash past db (.replay messageHash, now) := by
  rw [← List.head?_reverse, List.head?_eq_some_iff] at hlast
  obtain ⟨earlier, hpast⟩ := hlast
  obtain ⟨row, hrow, htime, hmetered⟩ := h last earlier hpast
  have hearly := hmetered.early_iff now.micro replayLimiter_fits
  have hparse := parseOptionalTimestamp_formatTimestamp platform last
  rw [← htime] at hparse
  obtain ⟨hrefused, hgranted⟩ := attempt_after now hrow hparse
  have hshown : (∃ time ∈ allowedReplays platform messageHash db (.replay messageHash, now),
      time.micro < last.micro + ackReplayMinInterval) ↔
      replayLimiter.grants now.micro (replayMeter row (some last.truncate)) = true ∧
        now.micro < last.micro + replayLimiter.gap := by
    cases hgrants : replayLimiter.grants now.micro (replayMeter row (some last.truncate)) with
    | false => simp [(hrefused hgrants).1]
    | true => simp [(hgranted hgrants).1, replayLimiter]
  rw [hshown, hearly]
  have hgetLast : past.getLast? = some last := by
    rw [← List.head?_reverse, hpast, List.head?_cons]
  constructor
  · rintro ⟨hcount, hcut, hbefore⟩ havoids
    obtain hlate | hafter := havoids rfl row last hrow hgetLast hcount
    · exact absurd hcut (Nat.not_le.mpr hlate)
    · exact absurd hbefore (Nat.not_lt.mpr hafter)
  · intro hcut
    simp only [AvoidsCut, forall_true_left, not_forall] at hcut
    obtain ⟨found, newest, hfound, hnewest, hcount, hcut⟩ := hcut
    obtain rfl : found = row := Option.some.inj (hfound.symm.trans hrow)
    obtain rfl : newest = last := Option.some.inj (hnewest.symm.trans hgetLast)
    rw [not_or] at hcut
    exact ⟨hcount, Nat.not_lt.mp hcut.1, Nat.lt_of_not_le hcut.2⟩

theorem allowedReplays_cases (platform : Platform) (messageHash : Text) (db : Database)
    (op : Job × Datetime) : allowedReplays platform messageHash db op = [] ∨
      op.1 = .replay messageHash ∧ allowedReplays platform messageHash db op = [op.2] := by
  obtain ⟨job, now⟩ := op
  by_cases hjob : job = .replay messageHash
  · subst hjob
    simp only [allowedReplays, if_true]
    split
    · split <;> simp
    · simp
  · exact .inl (allowedReplays_of_ne hjob)

/-- A step keeps its replay apart from the earlier ones exactly when it avoids the cut. -/
theorem ReplaysMetered.spaced_step {past : List Datetime}
    (h : ReplaysMetered messageHash past db) (op : Job × Datetime)
    (hincreasing : (past ++ allowedReplays platform messageHash db op).Pairwise
      fun first second => first.micro < second.micro) :
    (∀ first ∈ past, ∀ second ∈ allowedReplays platform messageHash db op,
      SpacedApart first second) ↔ AvoidsCut messageHash past db op := by
  obtain ⟨job, now⟩ := op
  obtain ⟨hpast, -, hlater⟩ := List.pairwise_append.mp hincreasing
  by_cases hjob : job = .replay messageHash
  · subst hjob
    cases hlast : past.getLast? with
    | none =>
        -- the first replay has nothing to keep apart from
        have hempty := List.getLast?_eq_none_iff.mp hlast
        simp [hempty, AvoidsCut]
    | some last =>
        have hmem := List.mem_of_getLast? hlast
        rw [← not_iff_not, ← h.early_iff platform now hlast]
        constructor
        · intro hclose
          by_contra hspaced
          apply hclose
          intro first hfirst second hsecond
          have hfar : last.micro + ackReplayMinInterval ≤ second.micro := by
            by_contra hnear
            exact hspaced ⟨second, hsecond, Nat.lt_of_not_le hnear⟩
          have hbefore : first.micro ≤ last.micro := by
            obtain ⟨front, rfl⟩ := List.getLast?_eq_some_iff.mp hlast
            obtain hfront | hend := List.mem_append.mp hfirst
            · exact Nat.le_of_lt ((List.pairwise_append.mp hpast).2.2 first hfront last
                (List.mem_singleton_self last))
            · rw [List.mem_singleton.mp hend]
          left
          omega
        · rintro ⟨time, htime, hclose⟩ hspaced
          have hafter := hlater last hmem time htime
          obtain hfar | hback := hspaced last hmem time htime
          · omega
          · omega
  · have havoids : AvoidsCut messageHash past db (job, now) := fun heq => absurd heq hjob
    simp [allowedReplays_of_ne hjob, havoids]

/--
The minimum interval: the allowed replays of one message hash are at least two seconds
apart exactly when no attempt falls into the cut, for calls at any times and with any
other transactions but a cleanup in between.
-/
theorem ack_replays_spaced_iff {db t : Database} {ops : List (Job × Datetime)}
    (clean : ∀ op ∈ ops, op.1.isCleanup = false)
    (run : (replaySystem platform messageHash).exec db ops = some t) :
    ((replaySystem platform messageHash).trace db ops).Pairwise SpacedApart ↔
      (replaySystem platform messageHash).Along (AvoidsCut messageHash) [] db ops := by
  induction ops using List.reverseRecOn generalizing t with
  | nil => simp [System.trace, System.Along]
  | append_singleton ops op ih =>
      obtain ⟨m, hops, hstep⟩ := (System.exec_snoc_eq_some _).mp run
      have hcleanOps : ∀ op ∈ ops, op.1.isCleanup = false :=
        fun op hop => clean op (List.mem_append_left _ hop)
      have hmetered := replays_metered hcleanOps hops
      have hincreasing := (ack_replay_window clean run).1
      rw [System.trace_snoc _ hops hstep] at hincreasing ⊢
      have hsingle : ((replaySystem platform messageHash).observe m op).Pairwise
          SpacedApart := by
        change (allowedReplays platform messageHash m op).Pairwise SpacedApart
        obtain hnone | ⟨-, hshown⟩ := allowedReplays_cases platform messageHash m op
        · simp [hnone]
        · simp [hshown]
      have hspaced := hmetered.spaced_step op hincreasing
      rw [System.along_snoc _ hops, ← ih hcleanOps hops, List.nil_append,
        List.pairwise_append, ← hspaced]
      exact and_congr_right fun _ => and_iff_right hsingle

end

/-! ## Calls within a second -/

/-- A clock reading, in microseconds after noon. -/
def microAfterNoon (micro : Nat) (h : micro < 1000000000 := by decide) : Datetime :=
  ⟨63892929600000000 + micro, by unfold maxSecond; omega⟩

def sampleHash : Text :=
  str "bc13f1447415c475bc62c52d2edb8808e9f1c88b2ccbf2041472e1919d2a0c15"

/-- One message and five duplicates, the last one after a step back of the clock. -/
def sampleReplays : List (Job × Datetime) :=
  [(.save sampleMessage, noon), (.replay sampleHash, microAfterNoon 900000),
    (.replay sampleHash, microAfterNoon 2000000),
    (.replay sampleHash, microAfterNoon 5000000),
    (.replay sampleHash, microAfterNoon 40000000),
    (.replay sampleHash, microAfterNoon 1000000)]

theorem ack_replay_window_sample :
    ∃ t, (replaySystem samplePlatform sampleHash).exec .empty sampleReplays = some t ∧
      ((replaySystem samplePlatform sampleHash).trace .empty sampleReplays).map
          Datetime.micro = [900000, 2000000, 5000000, 40000000].map
            (63892929600000000 + ·) ∧
      ((replaySystem samplePlatform sampleHash).trace .empty sampleReplays).Pairwise
        fun first second => first.micro < second.micro := by
  have hclean : ∀ op ∈ sampleReplays, op.1.isCleanup = false := by
    simp [sampleReplays, Job.isCleanup]
  obtain ⟨t, hrun⟩ := exec_transactions samplePlatform (allowedReplays samplePlatform sampleHash)
    .empty sampleReplays
  exact ⟨t, hrun, by decide +kernel, (ack_replay_window hclean hrun).1⟩

/-- A replay 0.9 s after noon is stored as noon, and 2 s after noon is 2 s later. -/
theorem replays_too_close :
    ∃ t, (replaySystem samplePlatform sampleHash).exec .empty (sampleReplays.take 3) =
        some t ∧
      ¬ ((replaySystem samplePlatform sampleHash).trace .empty (sampleReplays.take 3)).Pairwise
        SpacedApart := by
  obtain ⟨t, hrun⟩ := exec_transactions samplePlatform (allowedReplays samplePlatform sampleHash)
    .empty (sampleReplays.take 3)
  refine ⟨t, hrun, ?_⟩
  have htrace : (replaySystem samplePlatform sampleHash).trace .empty (sampleReplays.take 3) =
      [microAfterNoon 900000, microAfterNoon 2000000] := by
    decide +kernel
  rw [htrace]
  simp [SpacedApart, microAfterNoon, ackReplayMinInterval]

theorem ack_replays_spaced_iff_sample :
    ∃ t, (replaySystem samplePlatform sampleHash).exec .empty (sampleReplays.eraseIdx 2) =
        some t ∧
      ((replaySystem samplePlatform sampleHash).trace .empty
          (sampleReplays.eraseIdx 2)).length = 3 ∧
      (((replaySystem samplePlatform sampleHash).trace .empty
          (sampleReplays.eraseIdx 2)).Pairwise SpacedApart ↔
        (replaySystem samplePlatform sampleHash).Along
          (AvoidsCut sampleHash) [] .empty (sampleReplays.eraseIdx 2)) := by
  have hclean : ∀ op ∈ sampleReplays.eraseIdx 2, op.1.isCleanup = false := by
    simp [sampleReplays, Job.isCleanup]
  obtain ⟨t, hrun⟩ := exec_transactions samplePlatform (allowedReplays samplePlatform sampleHash)
    .empty (sampleReplays.eraseIdx 2)
  exact ⟨t, hrun, by decide +kernel, ack_replays_spaced_iff hclean hrun⟩

end EdgeBridge
