import EdgeBridge.Bridge.Completion
import EdgeBridge.Bridge.Serial
import EdgeBridge.Store.Replays

/-!
# How often the threads replay an ACK

The MQTT callback asks for leave in one transaction and publishes later, while the other
threads commit.  Every ACK that it publishes has an attempt of its own, and the attempts
obey the window law of the limiter.
-/

namespace EdgeBridge

open Foundation

inductive ReplayEvent where
  | allowed (messageHash : Text) (now : Datetime)
  | published (messageHash : Text)

def Bridge.replayEvents (platform : Platform) (s : Bridge) : Label → List ReplayEvent
  | .commit thread now =>
      match s.job thread with
      | some (.replay messageHash) =>
          match recordAckReplayAttempt platform messageHash now s.wal.data with
          | .ok (attempt, _) => if attempt.allowed then [.allowed messageHash now] else []
          | .error _ => []
      | _ => []
  | .publishReplay =>
      match s.mqtt with
      | .publishing _ messageHash _ => [.published messageHash]
      | _ => []
  | _ => []

/-- The steps of `bridgeSystem`, observed at the replays. -/
def replayBridge (platform : Platform) (config : Config) :
    System Bridge Label ReplayEvent where
  init := .start config .empty
  step := Bridge.step platform
  observe := Bridge.replayEvents platform

def ReplayEvent.allowedAt (messageHash : Text) : ReplayEvent → Option Datetime
  | .allowed other now => if other = messageHash then some now else none
  | .published _ => none

/-- The times of the attempts that were allowed. -/
def allowedTimes (messageHash : Text) (past : List ReplayEvent) : List Datetime :=
  past.filterMap (ReplayEvent.allowedAt messageHash)

/-- A published ACK comes right after the attempt that was allowed for it. -/
def FollowsAttempt (before : List ReplayEvent) : ReplayEvent → Prop
  | .published messageHash => ∃ earlier now, before = earlier ++ [.allowed messageHash now]
  | .allowed _ _ => True

section

variable {platform : Platform} {past : List ReplayEvent} {s t : Bridge} {label : Label}
  {thread : Thread} {messageHash : Text} {now : Datetime} {job : Job}

/-! ## One step -/

theorem replaying_of_job (h : s.job thread = some (.replay messageHash)) :
    thread = .mqtt ∧ ∃ id ack, s.mqtt = .replaying id messageHash ack := by
  cases thread with
  | mqtt =>
      simp only [Bridge.job] at h
      split at h
      · cases h
      · next id other ack hreplaying =>
        cases h
        exact ⟨rfl, id, ack, hreplaying⟩
      · cases h
  | worker => cases workerJob_of_job h
  | watchdog =>
      simp only [Bridge.job] at h
      split at h
      · cases h
      · cases h
  | lifecycle =>
      simp only [Bridge.job] at h
      split at h
      · cases h
      · cases h
      · cases h
  | api =>
      obtain ⟨write, -, heq⟩ := Option.map_eq_some_iff.mp h
      cases heq

/-- The events of a commit are those of the transaction on the database. -/
theorem allowedTimes_commit (hjob : s.job thread = some job) :
    allowedTimes messageHash (s.replayEvents platform (.commit thread now)) =
      allowedReplays platform messageHash s.wal.data (job, now) := by
  simp only [Bridge.replayEvents, hjob]
  cases job with
  | replay other =>
      simp only [allowedReplays]
      cases recordAckReplayAttempt platform other now s.wal.data with
      | error error => simp [allowedTimes]
      | ok result =>
          obtain ⟨attempt, after⟩ := result
          cases hallowed : attempt.allowed with
          | false => simp [allowedTimes, hallowed]
          | true =>
              by_cases hother : other = messageHash <;>
                simp [allowedTimes, ReplayEvent.allowedAt, hallowed, hother]
  | _ => rfl

theorem allowedTimes_quiet (h : ∀ thread now, label ≠ .commit thread now) :
    allowedTimes messageHash (s.replayEvents platform label) = [] := by
  cases label with
  | commit thread now => exact absurd rfl (h thread now)
  | publishReplay =>
      simp only [Bridge.replayEvents]
      split <;> rfl
  | _ => rfl

theorem metered_step (hclean : ∀ retentionDays batchSize,
      s.lifecycle ≠ .cleaning retentionDays batchSize)
    (h : ReplaysMetered messageHash (allowedTimes messageHash past) s.wal.data)
    (hstep : s.step platform label = some t) :
    ReplaysMetered messageHash
      (allowedTimes messageHash (past ++ s.replayEvents platform label)) t.wal.data := by
  have hmove := Bridge.step_move hstep
  rw [allowedTimes, List.filterMap_append]
  change ReplaysMetered messageHash (allowedTimes messageHash past ++
    allowedTimes messageHash (s.replayEvents platform label)) t.wal.data
  by_cases hcommit : ∃ thread now, label = .commit thread now
  · obtain ⟨thread, now, rfl⟩ := hcommit
    have hafter : ∃ job, s.job thread = some job ∧
        s.wal.data.after platform (job, now) = t.wal.data := by
      cases hmove with
      | committed _ _ job answer db hjob hwriting hrun =>
          refine ⟨job, hjob, ?_⟩
          rw [resume_wal]
          simp only [Database.after, hrun]
          cases hwrote : answer.wrote with
          | true => rfl
          | false => exact Job.run_of_not_wrote hrun hwrote
      | failed _ _ job error hjob hwriting hrun =>
          refine ⟨job, hjob, ?_⟩
          rw [resume_wal]
          simp only [Database.after, hrun]
          rfl
      | worker _ _ hlabel | mqtt _ _ hlabel | lifecycle _ _ hlabel => cases hlabel
    obtain ⟨job, hjob, hafter⟩ := hafter
    rw [allowedTimes_commit hjob, ← hafter]
    apply h.step
    cases job with
    | cleanup retentionDays batchSize => exact absurd (lifecycle_of_cleanup hjob).2 (hclean _ _)
    | _ => rfl
  · have hne : ∀ thread now, label ≠ .commit thread now := by
      rintro thread now rfl
      exact hcommit ⟨thread, now, rfl⟩
    rw [allowedTimes_quiet hne, List.append_nil, (hmove.quiet hne).1]
    exact h

/-! ## The ACK that is about to be published -/

/-- The callback publishes right after its attempt. -/
def Granted (past : List ReplayEvent) (s : Bridge) : Prop :=
  ∀ id messageHash ack, s.mqtt = .publishing id messageHash ack →
    ∃ earlier now, past = earlier ++ [.allowed messageHash now]

theorem replayState_not_publishing {record : MessageRecord} {id : Nat} {ack : Text} :
    replayState platform record ≠ .publishing id messageHash ack := by
  unfold replayState
  split
  · rintro ⟨⟩
  · split
    · rintro ⟨⟩
    · rintro ⟨⟩
    · split
      · split <;> rintro ⟨⟩
      · rintro ⟨⟩

theorem mqttStep_not_publishing {db : Database} {m m' : MqttState}
    (h : mqttStep platform db m label = some m') {id : Nat} {ack : Text} :
    m' ≠ .publishing id messageHash ack := by
  unfold mqttStep at h
  split at h
  · split at h <;> cases h <;> rintro ⟨⟩
  · split at h
    · cases h
      exact replayState_not_publishing
    · cases h
      rintro ⟨⟩
  · split at h
    · cases h
      exact replayState_not_publishing
    · cases h
      rintro ⟨⟩
  · cases h
    rintro ⟨⟩
  · cases h
    rintro ⟨⟩
  · cases h

theorem replayEvents_of_ne_mqtt (hthread : thread ≠ .mqtt) :
    s.replayEvents platform (.commit thread now) = [] := by
  simp only [Bridge.replayEvents]
  split
  · next hjob => exact absurd (replaying_of_job hjob).1 hthread
  · rfl

/-- A transaction of the callback that is answered with leave to publish. -/
theorem answered_publishing {answer : Answer} {id : Nat} {ack : Text}
    (h : s.mqtt.answered answer = .publishing id messageHash ack) :
    s.mqtt = .replaying id messageHash ack ∧
      ∃ attempt, answer = .replayed attempt ∧ attempt.allowed = true := by
  unfold MqttState.answered at h
  split at h
  · split at h <;> cases h
  · next hreplaying =>
    split at h
    · next hallowed =>
      cases h
      exact ⟨hreplaying, _, rfl, hallowed⟩
    · cases h
  · cases h

theorem granted_step (h : Granted past s) (hstep : s.step platform label = some t) :
    Granted (past ++ s.replayEvents platform label) t := by
  intro id messageHash ack hpublishing
  have hkept : s.replayEvents platform label = [] → t.mqtt = s.mqtt →
      ∃ earlier now, past ++ s.replayEvents platform label =
        earlier ++ [.allowed messageHash now] := by
    intro hnone hsame
    rw [hnone, List.append_nil]
    exact h id messageHash ack (hsame.symm.trans hpublishing)
  by_cases hlabel : label = .publishReplay
  · subst hlabel
    obtain ⟨mqtt, hmqtt, rfl⟩ := Option.map_eq_some_iff.mp hstep
    exact absurd hpublishing (mqttStep_not_publishing hmqtt)
  have hquiet : (∀ thread now, label ≠ .commit thread now) →
      s.replayEvents platform label = [] := by
    intro hne
    cases label with
    | commit thread now => exact absurd rfl (hne thread now)
    | publishReplay => exact absurd rfl hlabel
    | _ => rfl
  have herror : ∀ (wal : Wal Database Thread) (thread : Thread) (error : PyError),
      (({ s with wal := wal } : Bridge).resume thread (.error error)).mqtt =
        .publishing id messageHash ack →
      thread ≠ .mqtt ∧
        (({ s with wal := wal } : Bridge).resume thread (.error error)).mqtt = s.mqtt := by
    intro wal thread error hmqtt
    have hthread : thread ≠ .mqtt := by
      rintro rfl
      cases hmqtt
    exact ⟨hthread, resume_mqtt_of_ne _ _ hthread⟩
  cases Bridge.step_move hstep with
  | began | locked | watch | audit | stopped | startedAgain =>
      exact hkept (hquiet fun _ _ heq => Label.noConfusion heq) rfl
  | worker _ _ hthread | lifecycle _ _ hthread =>
      refine hkept (hquiet ?_) rfl
      rintro _ _ rfl
      cases hthread
  | mqtt _ mqtt _ hmqtt => exact absurd hpublishing (mqttStep_not_publishing hmqtt)
  | restarted => cases hpublishing
  | answered thread now job result hjob hidle hearly =>
      refine hkept (hquiet fun _ _ heq => Label.noConfusion heq) ?_
      by_cases hthread : thread = .mqtt
      · subst hthread
        cases result with
        | error error => cases hpublishing
        | ok answer =>
            obtain ⟨hreplaying, -⟩ := answered_publishing hpublishing
            simp only [Bridge.job, hreplaying, Option.some.injEq] at hjob
            subst hjob
            cases hearly
      · exact resume_mqtt_of_ne s result hthread
  | refused thread =>
      exact hkept (hquiet fun _ _ heq => Label.noConfusion heq)
        (herror _ thread _ hpublishing).2
  | gaveUp thread =>
      exact hkept (hquiet fun _ _ heq => Label.noConfusion heq)
        (herror s.wal thread _ hpublishing).2
  | failed thread now job error hjob hwriting hrun =>
      obtain ⟨hthread, hsame⟩ := herror _ thread _ hpublishing
      exact hkept (replayEvents_of_ne_mqtt hthread) hsame
  | committed thread now job answer db hjob hwriting hrun =>
      by_cases hthread : thread = .mqtt
      · subst hthread
        obtain ⟨hreplaying, attempt, rfl, hallowed⟩ := answered_publishing hpublishing
        refine ⟨past, now, ?_⟩
        have hreplay : s.job .mqtt = some (.replay messageHash) := by
          simp [Bridge.job, show s.mqtt = .replaying id messageHash ack from hreplaying]
        obtain rfl := Option.some.inj (hjob.symm.trans hreplay)
        obtain ⟨⟨made, after⟩, hattempt, heq⟩ := map_eq_ok.mp hrun
        cases heq
        simp only [Bridge.replayEvents, hreplay, hattempt]
        rw [if_pos hallowed]
      · exact hkept (replayEvents_of_ne_mqtt hthread) (resume_mqtt_of_ne _ _ hthread)

theorem followsAttempt_step (h : Granted past s) (label : Label) :
    Justified (fun between event => FollowsAttempt (past ++ between) event)
      (s.replayEvents platform label) := by
  cases label with
  | commit thread now =>
      refine justified_of_mem fun event hevent before => ?_
      cases event with
      | allowed messageHash now => trivial
      | published messageHash =>
          simp only [Bridge.replayEvents] at hevent
          split at hevent
          · split at hevent
            · split at hevent <;> simp at hevent
            · cases hevent
          · cases hevent
  | publishReplay =>
      simp only [Bridge.replayEvents]
      split
      · next id messageHash ack hpublishing =>
        apply justified_singleton
        rw [List.append_nil]
        exact h id messageHash ack hpublishing
      · exact justified_nil
  | _ => exact justified_nil

/-! ## The window -/

/-- The allowed attempts come at increasing times, at most three in 30 seconds. -/
theorem ReplaysMetered.window {past : List Datetime} {db : Database}
    (h : ReplaysMetered messageHash past db) :
    past.Pairwise (fun first second => first.micro < second.micro) ∧
      ∀ start : Int, (past.filter fun time =>
        decide (start ≤ time.micro ∧ (time.micro : Int) < start + ackReplayWindow)).length ≤
          ackReplayMaxCount := by
  cases hpast : past.reverse with
  | nil =>
      rw [List.reverse_eq_nil_iff.mp hpast]
      exact ⟨.nil, by simp⟩
  | cons last earlier =>
      obtain ⟨row, -, -, hmetered⟩ := h last earlier hpast
      obtain rfl : past = (last :: earlier).reverse := by
        rw [← hpast, List.reverse_reverse]
      refine ⟨?_, fun start => ?_⟩
      · have hdecreasing := hmetered.decreasing
        rw [← List.map_cons, List.pairwise_map] at hdecreasing
        exact List.pairwise_reverse.mpr hdecreasing
      · have hfew := hmetered.spread.length_filter_le replayLimiter_fits.limit start
        rw [← List.map_cons, List.filter_map, List.length_map] at hfew
        rw [List.filter_reverse, List.length_reverse]
        exact hfew

def Label.isCleanUp : Label → Bool
  | .cleanUp _ _ => true
  | _ => false

structure ReplaysKept (past : List ReplayEvent) (s : Bridge) : Prop where
  metered : ∀ messageHash,
    ReplaysMetered messageHash (allowedTimes messageHash past) s.wal.data
  granted : Granted past s
  uncleaned : ∀ retentionDays batchSize, s.lifecycle ≠ .cleaning retentionDays batchSize

theorem ReplaysKept.step (h : ReplaysKept past s) (hlabel : label.isCleanUp = false)
    (hstep : s.step platform label = some t) :
    ReplaysKept (past ++ s.replayEvents platform label) t where
  metered _ := metered_step h.uncleaned (h.metered _) hstep
  granted := granted_step h.granted hstep
  uncleaned := by
    intro retentionDays batchSize hcleaning
    obtain hsame | hidle | ⟨limit, -, hreconciling⟩ | ⟨_, _, rfl, -⟩ := lifecycle_step hstep
    · exact h.uncleaned _ _ (hsame.symm.trans hcleaning)
    · cases hidle.symm.trans hcleaning
    · cases hreconciling.symm.trans hcleaning
    · cases hlabel

/--
Whatever the threads do between an attempt and its publication, crashes, restarts and
steps of the clock included: every replayed ACK has an allowed attempt of its own right
before it, and for each message at most three attempts are allowed in any 30 seconds.
-/
theorem bridge_replays_bounded {config : Config} {labels : List Label}
    (hclean : ∀ label ∈ labels, label.isCleanUp = false)
    (run : (replayBridge platform config).exec (.start config .empty) labels = some s) :
    Justified FollowsAttempt
        ((replayBridge platform config).trace (.start config .empty) labels) ∧
      ∀ messageHash, (allowedTimes messageHash
          ((replayBridge platform config).trace (.start config .empty) labels)).Pairwise
            (fun first second => first.micro < second.micro) ∧
        ∀ start : Int, ((allowedTimes messageHash
          ((replayBridge platform config).trace (.start config .empty) labels)).filter
            fun time => decide (start ≤ time.micro ∧
              (time.micro : Int) < start + ackReplayWindow)).length ≤ ackReplayMaxCount := by
  have hstart : ReplaysKept [] (.start config .empty) := by
    refine ⟨fun _ _ _ hreverse => ?_, ?_, ?_⟩
    · simp [allowedTimes] at hreverse
    · rintro _ _ _ ⟨⟩
    · rintro _ _ ⟨⟩
  obtain ⟨hkept, hfollows⟩ := System.justified_run (S := replayBridge platform config)
    (P := fun _ _ label => label.isCleanUp = false) hstart
    (fun _ _ label _ hm hlabel hstep =>
      ⟨hm.step hlabel hstep, followsAttempt_step hm.granted label⟩)
    ((replayBridge platform config).along_of_mem hclean _ _) run
  exact ⟨hfollows, fun messageHash => (hkept.metered messageHash).window⟩

end

def ReplayEvent.isPublished : ReplayEvent → Bool
  | .published _ => true
  | .allowed _ _ => false

theorem bridge_replays_bounded_sample :
    ∃ s, (replayBridge samplePlatform sampleConfig).exec (.start sampleConfig .empty)
        (acknowledgedTwice ++ [.publishReplay]) = some s ∧
      ((replayBridge samplePlatform sampleConfig).trace (.start sampleConfig .empty)
        (acknowledgedTwice ++ [.publishReplay])).map ReplayEvent.isPublished =
          [false, true] ∧
      Justified FollowsAttempt
        ((replayBridge samplePlatform sampleConfig).trace (.start sampleConfig .empty)
          (acknowledgedTwice ++ [.publishReplay])) := by
  have hrun : ((replayBridge samplePlatform sampleConfig).exec (.start sampleConfig .empty)
      (acknowledgedTwice ++ [.publishReplay])).isSome = true := by decide +kernel
  have hclean : ∀ label ∈ acknowledgedTwice ++ [.publishReplay],
      label.isCleanUp = false := by decide +kernel
  obtain ⟨s, hs⟩ := Option.isSome_iff_exists.mp hrun
  exact ⟨s, hs, by decide +kernel, (bridge_replays_bounded hclean hs).1⟩

end EdgeBridge
