import EdgeBridge.Foundation.JsonSuffix
import EdgeBridge.Mqtt.Callback

/-!
# Deliveries and their rows

A message is known by the digest of its topic followed by its text, with nothing between
them.  JSON text may begin with white space, so white space at the end of a topic and at
the front of a payload cannot be told apart.
-/

namespace EdgeBridge

open Foundation

/-- A delivery that `save_message` gave a row. -/
structure Delivery where
  topic : Text
  text : Text
  row : Nat
  deriving DecidableEq

namespace Delivery

/-- The text that `generate_message_hash` digests. -/
def hashed (delivery : Delivery) : Text := delivery.topic ++ delivery.text

/-- The topic of `b` is the topic of `a` and white space, with which the text of `a`
begins before the text of `b`. -/
def Shifted (a b : Delivery) : Prop :=
  ∃ space, space ≠ [] ∧ space.all Json.isJsonSpace = true ∧ b.topic = a.topic ++ space ∧
    a.text = space ++ b.text

/-- The text is that of an accepted payload. -/
def Accepted (delivery : Delivery) : Prop :=
  ∃ payload message, acceptedMessage delivery.topic payload = .ok message ∧
    message.rawPayload = delivery.text

end Delivery

def deliveriesOf (platform : Platform) (db : Database) (op : Job × Datetime) : List Delivery :=
  match op.1 with
  | .save message =>
      match saveMessage platform message op.2 db with
      | .ok (saved, _) => [⟨message.topic, message.rawPayload, saved.id⟩]
      | .error _ => []
  | _ => []

def deliverySystem (platform : Platform) : System Database (Job × Datetime) Delivery :=
  transactions platform (deliveriesOf platform)

/-- The callback saves accepted messages only, and no row is cleaned up. -/
def Delivers (job : Job) : Prop :=
  job.isCleanup = false ∧
    ∀ message, job = .save message →
      ∃ payload, acceptedMessage message.topic payload = .ok message

/-- Two deliveries have one row exactly when topic and text are equal. -/
def NeverMerged (deliveries : List Delivery) : Prop :=
  ∀ a ∈ deliveries, ∀ b ∈ deliveries, a.row = b.row ↔ a.topic = b.topic ∧ a.text = b.text

/-- No two of the texts that were digested have one digest. -/
def NoCollision (platform : Platform) (deliveries : List Delivery) : Prop :=
  ∀ a ∈ deliveries, ∀ b ∈ deliveries,
    platform.sha256 a.hashed = platform.sha256 b.hashed → a.hashed = b.hashed

section

variable {platform : Platform} {db : Database} {a b : Delivery}

/-- The callback saves an accepted payload, and calls it stored or a duplicate. -/
theorem onMessage_delivers {topic : Text} {payload : Bytes} {message : IncomingMessage}
    {receivedAt replayedAt : Datetime} {received : Received} {after : Database}
    (haccepted : acceptedMessage topic payload = .ok message)
    (hrun : onMessage platform topic payload receivedAt replayedAt db = .ok (received, after)) :
    ∃ saved stored, saveMessage platform message receivedAt db = .ok (saved, stored) ∧
      ((∃ ack, received = .duplicate ack) ↔ saved.inserted = false) := by
  rw [onMessage_accepted haccepted] at hrun
  obtain ⟨⟨saved, stored⟩, hsave, hbody⟩ := bind_eq_ok.mp hrun
  refine ⟨saved, stored, hsave, ?_⟩
  simp only at hbody
  split at hbody
  · next hinserted =>
    cases hbody
    simp [hinserted]
  · next hinserted =>
    obtain ⟨⟨ack, final⟩, -, hend⟩ := bind_eq_ok.mp hbody
    cases hend
    simp [hinserted]

/-! ## Accepted texts -/

/-- An accepted text that ends an accepted text has white space in front of it. -/
theorem Delivery.Accepted.space (ha : a.Accepted) (hb : b.Accepted) {front : Text}
    (htext : a.text = front ++ b.text) : front.all Json.isJsonSpace = true := by
  obtain ⟨payload, message, haccepted, hraw⟩ := ha
  obtain ⟨otherPayload, other, hother, hotherraw⟩ := hb
  obtain ⟨value, -, hloads, -, -⟩ := acceptedMessage_eq_ok haccepted
  obtain ⟨otherValue, -, hsuffix, htype, -⟩ := acceptedMessage_eq_ok hother
  rw [hraw, htext] at hloads
  rw [hotherraw] at hsuffix
  refine Json.front_of_loads hsuffix (List.cons_ne_nil _ _) (fun entry hentry => ?_) hloads
  have hkeys : ∀ key ∈ supportedMessageTypes, Json.isOpeningKey key = true := by decide
  rw [List.mem_singleton.mp hentry]
  exact hkeys _ htype

/-- What is digested tells deliveries apart unless one is the other, shifted. -/
theorem hashed_eq_iff (ha : a.Accepted) (hb : b.Accepted) :
    a.hashed = b.hashed ↔
      (a.topic = b.topic ∧ a.text = b.text) ∨ a.Shifted b ∨ b.Shifted a := by
  constructor
  · intro h
    obtain ⟨space, htopic, htext⟩ | ⟨space, htopic, htext⟩ := List.append_eq_append_iff.mp h
    · cases space with
      | nil => exact .inl ⟨by simpa using htopic.symm, htext⟩
      | cons c space =>
          exact .inr (.inl ⟨_, List.cons_ne_nil c space, ha.space hb htext, htopic, htext⟩)
    · cases space with
      | nil => exact .inl ⟨by simpa using htopic, htext.symm⟩
      | cons c space =>
          exact .inr (.inr ⟨_, List.cons_ne_nil c space, hb.space ha htext, htopic, htext⟩)
  · rintro (⟨htopic, htext⟩ | ⟨space, -, -, htopic, htext⟩ | ⟨space, -, -, htopic, htext⟩)
    · rw [Delivery.hashed, Delivery.hashed, htopic, htext]
    · rw [Delivery.hashed, Delivery.hashed, htopic, htext, List.append_assoc]
    · rw [Delivery.hashed, Delivery.hashed, htopic, htext, List.append_assoc]

theorem Delivery.Shifted.ne (h : a.Shifted b) : ¬ (a.topic = b.topic ∧ a.text = b.text) := by
  rintro ⟨htopic, -⟩
  obtain ⟨space, hspace, -, hshift, -⟩ := h
  rw [htopic] at hshift
  exact hspace (by simpa using hshift)

/-! ## Rows along a run -/

/-- The rows of the deliveries are there, under the digests of what was delivered, and no
others. -/
structure Recorded (platform : Platform) (past : List Delivery) (db : Database) : Prop where
  accepted : ∀ delivery ∈ past, delivery.Accepted
  row : ∀ delivery ∈ past, ∃ row, db.message delivery.row = some row ∧
    row.messageHash = platform.sha256 delivery.hashed
  delivered : ∀ row ∈ db.mqttMessages.rows, ∃ delivery ∈ past,
    row.messageHash = platform.sha256 delivery.hashed

/-- Deliveries have one row exactly when they have one digest. -/
theorem Recorded.row_eq_iff {past : List Delivery} (h : Recorded platform past db)
    (ha : a ∈ past) (hb : b ∈ past) :
    a.row = b.row ↔ platform.sha256 a.hashed = platform.sha256 b.hashed := by
  obtain ⟨row, hrow, hhash⟩ := h.row a ha
  obtain ⟨other, hother, hotherhash⟩ := h.row b hb
  constructor
  · intro hid
    rw [hid, hother, Option.some.injEq] at hrow
    rw [← hhash, ← hotherhash, hrow]
  · intro hdigest
    have hfound := messageByHash_of_mem (Table.mem_of_byId hrow)
    have hsame := messageByHash_of_mem (Table.mem_of_byId hother)
    rw [hhash, hdigest, ← hotherhash, hsame, Option.some.injEq] at hfound
    rw [← id_of_message hrow, ← id_of_message hother, hfound]

/-- A delivery is recorded. -/
theorem delivered_row {op : Job × Datetime} {delivery : Delivery}
    (h : delivery ∈ deliveriesOf platform db op) (hdelivers : Delivers op.1) :
    delivery.Accepted ∧ ∃ row, (db.after platform op).message delivery.row = some row ∧
      row.messageHash = platform.sha256 delivery.hashed := by
  obtain ⟨job, now⟩ := op
  unfold deliveriesOf at h
  split at h
  · next message hjob =>
    cases hjob
    split at h
    · next saved after hsave =>
      rw [List.mem_singleton.mp h]
      obtain ⟨payload, haccepted⟩ := hdelivers.2 message rfl
      refine ⟨⟨payload, message, haccepted, rfl⟩, ?_⟩
      obtain ⟨row, hrow, hhash⟩ := saved_row hsave
      have hafter : db.after platform (.save message, now) = after := by
        simp [Database.after, Job.run, hsave, Except.map]
      rw [hafter]
      exact ⟨row, hrow, hhash.trans (saveMessage_cases hsave).1⟩
    · cases h
  · cases h

/-- A row of the next database is an old one or that of the delivery. -/
theorem row_delivered {op : Job × Datetime} {row : MessageRecord}
    (hrow : row ∈ (db.after platform op).mqttMessages.rows) :
    (∃ old ∈ db.mqttMessages.rows, old.messageHash = row.messageHash) ∨
      ∃ delivery ∈ deliveriesOf platform db op,
        row.messageHash = platform.sha256 delivery.hashed := by
  obtain ⟨job, now⟩ := op
  obtain hsame | ⟨answer, hrun⟩ := db.after_cases platform job now
  · rw [hsame] at hrow
    exact .inl ⟨row, hrow, rfl⟩
  · have hchange := Job.rowChange hrun row.id
    rw [message_of_mem hrow] at hchange
    cases hold : db.message row.id with
    | some old =>
        left
        refine ⟨old, Table.mem_of_byId hold, ?_⟩
        rw [hold] at hchange
        cases hchange with
        | kept | claimed | completed | failed | recovered | replayed => rfl
    | none =>
        right
        rw [hold] at hchange
        obtain ⟨message, saved, rfl, rfl, hid⟩ := hchange.saved_of_none
        obtain ⟨⟨first, final⟩, hsave, heq⟩ := map_eq_ok.mp hrun
        obtain ⟨rfl, hfinal⟩ : first = saved ∧ final = db.after platform (.save message, now) := by
          simpa using heq
        refine ⟨⟨message.topic, message.rawPayload, first.id⟩, by simp [deliveriesOf, hsave], ?_⟩
        obtain ⟨stored, hstored, hhash⟩ := saved_row hsave
        rw [hid, hfinal, message_of_mem hrow, Option.some.injEq] at hstored
        rw [hstored, hhash]
        exact (saveMessage_cases hsave).1

theorem Recorded.next {past : List Delivery} (h : Recorded platform past db)
    (op : Job × Datetime) (hdelivers : Delivers op.1) :
    Recorded platform (past ++ deliveriesOf platform db op) (db.after platform op) where
  accepted := by
    intro delivery hdelivery
    obtain hpast | hnew := List.mem_append.mp hdelivery
    · exact h.accepted delivery hpast
    · exact (delivered_row hnew hdelivers).1
  row := by
    intro delivery hdelivery
    obtain hpast | hnew := List.mem_append.mp hdelivery
    · obtain ⟨row, hrow, hhash⟩ := h.row delivery hpast
      obtain ⟨job, now⟩ := op
      obtain hsame | ⟨answer, hrun⟩ := db.after_cases platform job now
      · rw [hsame]
        exact ⟨row, hrow, hhash⟩
      · have hchange := Job.rowChange hrun delivery.row
        rw [hrow] at hchange
        obtain ⟨next, hnext, hkept, -, -⟩ := hchange.identity hdelivers.1
        exact ⟨next, hnext, hkept.trans hhash⟩
    · exact (delivered_row hnew hdelivers).2
  delivered := by
    intro row hrow
    obtain ⟨old, hold, hsame⟩ | ⟨delivery, hdelivery, hhash⟩ := row_delivered hrow
    · obtain ⟨delivery, hdelivery, hhash⟩ := h.delivered old hold
      exact ⟨delivery, List.mem_append_left _ hdelivery, hsame ▸ hhash⟩
    · exact ⟨delivery, List.mem_append_right _ hdelivery, hhash⟩

/-- Deliveries with one row have one digest, and so are equal or shifted. -/
theorem Recorded.neverMerged_iff {past : List Delivery} (h : Recorded platform past db)
    (hdigests : NoCollision platform past) :
    NeverMerged past ↔ ∀ a ∈ past, ∀ b ∈ past, ¬ a.Shifted b := by
  have hrow : ∀ {a b}, a ∈ past → b ∈ past →
      (a.row = b.row ↔ (a.topic = b.topic ∧ a.text = b.text) ∨ a.Shifted b ∨ b.Shifted a) := by
    intro a b ha hb
    rw [h.row_eq_iff ha hb, ← hashed_eq_iff (h.accepted a ha) (h.accepted b hb)]
    exact ⟨hdigests a ha b hb, congrArg platform.sha256⟩
  constructor
  · intro hnever a ha b hb hshifted
    exact hshifted.ne ((hnever a ha b hb).mp ((hrow ha hb).mpr (.inr (.inl hshifted))))
  · intro hshifted a ha b hb
    rw [hrow ha hb]
    simp [hshifted a ha b hb, hshifted b hb a ha]

/-- The callback calls an accepted payload a duplicate exactly when an earlier delivery is
not told apart from it. -/
theorem Recorded.duplicate_iff {past : List Delivery} {topic : Text} {payload : Bytes}
    {message : IncomingMessage} {receivedAt replayedAt : Datetime} {received : Received}
    {after : Database} (h : Recorded platform past db)
    (haccepted : acceptedMessage topic payload = .ok message)
    (hrun : onMessage platform topic payload receivedAt replayedAt db = .ok (received, after)) :
    ∃ last : Delivery, last.topic = topic ∧ last.text = message.rawPayload ∧
      deliveriesOf platform db (.save message, receivedAt) = [last] ∧
      (NoCollision platform (past ++ [last]) →
        ((∃ ack, received = .duplicate ack) ↔ ∃ a ∈ past,
          (a.topic = last.topic ∧ a.text = last.text) ∨ a.Shifted last ∨ last.Shifted a)) := by
  have htopic := (acceptedMessage_serial haccepted).1
  obtain ⟨saved, stored, hsave, hduplicate⟩ := onMessage_delivers haccepted hrun
  refine ⟨⟨topic, message.rawPayload, saved.id⟩, rfl, rfl,
    by simp [deliveriesOf, hsave, htopic], fun hdigests => ?_⟩
  generalize hlast : (⟨topic, message.rawPayload, saved.id⟩ : Delivery) = last at hdigests ⊢
  have hhashed : message.topic ++ message.rawPayload = last.hashed := by
    rw [← hlast, htopic, Delivery.hashed]
  have hacceptedLast : last.Accepted := by
    rw [← hlast]
    exact ⟨payload, message, haccepted, rfl⟩
  have hsame : saved.inserted = false ↔ ∃ a ∈ past, a.hashed = last.hashed := by
    constructor
    · intro hinserted
      obtain ⟨hhash, ⟨-, -, record, hrecord, -, hrecordHash⟩ | ⟨-, htrue, -⟩⟩ :=
        saveMessage_cases hsave
      · obtain ⟨a, ha, hdigest⟩ := h.delivered record hrecord
        refine ⟨a, ha, hdigests a (List.mem_append_left _ ha) last (by simp) ?_⟩
        rw [← hdigest, hrecordHash, hhash, hhashed]
      · rw [hinserted] at htrue
        cases htrue
    · rintro ⟨a, ha, heq⟩
      obtain ⟨row, hrow, hrowHash⟩ := h.row a ha
      obtain ⟨-, ⟨hinserted, -⟩ | ⟨-, -, hfree⟩⟩ := saveMessage_ok hsave
      · exact hinserted
      · refine absurd ?_ (hfree row (Table.mem_of_byId hrow))
        rw [hrowHash, heq, hhashed]
  rw [hduplicate, hsame]
  exact exists_congr fun a => and_congr_right fun ha =>
    hashed_eq_iff (h.accepted a ha) hacceptedLast

theorem recorded_along {ops : List (Job × Datetime)} (hdelivers : ∀ op ∈ ops, Delivers op.1)
    (hrun : (deliverySystem platform).exec .empty ops = some db) :
    Recorded platform ((deliverySystem platform).trace .empty ops) db := by
  refine (deliverySystem platform).run_invariant (P := fun _ _ op => Delivers op.1)
    (I := Recorded platform) ⟨by simp, by simp, ?_⟩ ?_
    ((deliverySystem platform).along_of_mem hdelivers _ _) hrun
  · intro row hrow
    cases hrow
  · intro past m op t _ hm hop hstep
    cases hstep
    exact hm.next op hop

end

/--
Deliveries of accepted payloads, among any transactions that remove no row: two of them
have one row exactly when topic and text are equal, for all of them, if and only if no
delivery is another one, shifted.  And the callback calls the next accepted payload a
duplicate exactly when an earlier delivery has its topic and text, or is it, shifted.
-/
theorem never_merged_iff {platform : Platform} {ops : List (Job × Datetime)}
    (hdelivers : ∀ op ∈ ops, Delivers op.1)
    (hdigests : NoCollision platform ((deliverySystem platform).trace .empty ops)) :
    (NeverMerged ((deliverySystem platform).trace .empty ops) ↔
      ∀ a ∈ (deliverySystem platform).trace .empty ops,
        ∀ b ∈ (deliverySystem platform).trace .empty ops, ¬ a.Shifted b) ∧
    ∀ {topic payload message receivedAt replayedAt db received after},
      (deliverySystem platform).exec .empty ops = some db →
      acceptedMessage topic payload = .ok message →
      onMessage platform topic payload receivedAt replayedAt db = .ok (received, after) →
      ∃ last : Delivery, last.topic = topic ∧ last.text = message.rawPayload ∧
        (deliverySystem platform).trace .empty (ops ++ [(.save message, receivedAt)]) =
          (deliverySystem platform).trace .empty ops ++ [last] ∧
        (NoCollision platform ((deliverySystem platform).trace .empty ops ++ [last]) →
          ((∃ ack, received = .duplicate ack) ↔
            ∃ a ∈ (deliverySystem platform).trace .empty ops,
              (a.topic = last.topic ∧ a.text = last.text) ∨ a.Shifted last ∨
                last.Shifted a)) := by
  obtain ⟨db, hrun⟩ := exec_transactions platform (deliveriesOf platform) .empty ops
  refine ⟨(recorded_along hdelivers hrun).neverMerged_iff hdigests, ?_⟩
  intro topic payload message receivedAt replayedAt db received after hrun haccepted hanswer
  obtain ⟨last, htopic, htext, hdelivery, hduplicate⟩ :=
    (recorded_along hdelivers hrun).duplicate_iff haccepted hanswer
  refine ⟨last, htopic, htext, ?_, hduplicate⟩
  rw [(deliverySystem platform).trace_snoc hrun rfl]
  exact congrArg _ hdelivery

/-! ## Deliveries at hand -/

/-- The transaction of a payload that is accepted. -/
def sampleDelivery (topic payload : Text) : List (Job × Datetime) :=
  match acceptedMessage topic (payload.map UInt8.ofNat) with
  | .ok message => [(.save message, noon)]
  | .error _ => []

theorem delivers_sampleDelivery {topic payload : Text} {op : Job × Datetime}
    (h : op ∈ sampleDelivery topic payload) : Delivers op.1 := by
  unfold sampleDelivery at h
  split at h
  · next message haccepted =>
    rw [List.mem_singleton.mp h]
    refine ⟨rfl, fun other hother => ⟨payload.map UInt8.ofNat, ?_⟩⟩
    cases hother
    rw [(acceptedMessage_serial haccepted).1]
    exact haccepted
  · cases h

/-- Two layouts of one message, on one topic. -/
def layoutDeliveries : List (Job × Datetime) :=
  sampleDelivery plcToOdooTopic spacedPayload ++ sampleDelivery plcToOdooTopic compactPayload

theorem never_merged_layouts :
    (deliverySystem samplePlatform).trace .empty layoutDeliveries =
        [⟨plcToOdooTopic, spacedPayload, 1⟩, ⟨plcToOdooTopic, compactPayload, 2⟩] ∧
      (NeverMerged ((deliverySystem samplePlatform).trace .empty layoutDeliveries) ↔
        ∀ a ∈ (deliverySystem samplePlatform).trace .empty layoutDeliveries,
          ∀ b ∈ (deliverySystem samplePlatform).trace .empty layoutDeliveries,
            ¬ a.Shifted b) := by
  have htrace : (deliverySystem samplePlatform).trace .empty layoutDeliveries =
      [⟨plcToOdooTopic, spacedPayload, 1⟩, ⟨plcToOdooTopic, compactPayload, 2⟩] := by
    decide +kernel
  refine ⟨htrace, (never_merged_iff ?_ ?_).1⟩
  · intro op hop
    obtain hfirst | hsecond := List.mem_append.mp hop
    · exact delivers_sampleDelivery hfirst
    · exact delivers_sampleDelivery hsecond
  · rw [htrace, NoCollision]
    decide +kernel

/-- A space that ends the topic, or begins the payload. -/
def paddedDeliveries : List (Job × Datetime) :=
  sampleDelivery plcToOdooTopic (32 :: compactPayload) ++
    sampleDelivery (plcToOdooTopic ++ [32]) compactPayload

def paddedPlatform : Platform := .ofDigests
  [(plcToOdooTopic ++ 32 :: compactPayload,
    str "91394f49f8f8e8a13019b54b337b0dd25c173dde2bdadae9ba4ff9ed7e596b79")]

/-- The second of two messages with different topics and texts gets no row. -/
theorem padded_messages_merged :
    (∀ op ∈ paddedDeliveries, Delivers op.1) ∧
      NoCollision paddedPlatform ((deliverySystem paddedPlatform).trace .empty paddedDeliveries) ∧
      (deliverySystem paddedPlatform).trace .empty paddedDeliveries =
        [⟨plcToOdooTopic, 32 :: compactPayload, 1⟩,
          ⟨plcToOdooTopic ++ [32], compactPayload, 1⟩] ∧
      ¬ NeverMerged ((deliverySystem paddedPlatform).trace .empty paddedDeliveries) := by
  have htrace : (deliverySystem paddedPlatform).trace .empty paddedDeliveries =
      [⟨plcToOdooTopic, 32 :: compactPayload, 1⟩,
        ⟨plcToOdooTopic ++ [32], compactPayload, 1⟩] := by
    decide +kernel
  refine ⟨fun op hop => ?_, ?_, htrace, ?_⟩
  · obtain hfirst | hsecond := List.mem_append.mp hop
    · exact delivers_sampleDelivery hfirst
    · exact delivers_sampleDelivery hsecond
  · rw [htrace, NoCollision]
    decide +kernel
  · rw [htrace, NeverMerged]
    decide +kernel

end EdgeBridge
