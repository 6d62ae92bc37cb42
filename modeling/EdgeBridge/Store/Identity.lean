import EdgeBridge.Store.Transactions

/-!
# The identity of a message

A row is stored under the digest of its topic and its text, one after the other, and
keeps it.  Rows that the same digest stands for are one row.
-/

namespace EdgeBridge

open Foundation

/-- Every row has the digest of its own topic and text. -/
def Hashed (platform : Platform) (db : Database) : Prop :=
  ∀ row ∈ db.mqttMessages.rows,
    row.messageHash = platform.sha256 (row.topic ++ row.rawPayload)

section

variable {platform : Platform} {db final : Database} {row : MessageRecord}

theorem Hashed.empty : Hashed platform .empty := by
  intro row hrow
  cases hrow

/-- The row of a topic and a text is found by their digest. -/
theorem Hashed.find_eq (h : Hashed platform db) (hrow : row ∈ db.mqttMessages.rows) :
    (db.mqttMessages.find? fun record =>
      record.messageHash == platform.sha256 (row.topic ++ row.rawPayload)) = some row := by
  rw [← h row hrow]
  exact messageByHash_of_mem hrow

theorem mem_rows_insert {table : Table MessageRecord} {message : IncomingMessage}
    {messageHash receivedAt : Text}
    (h : db.mqttMessages.insert (newMessage message messageHash receivedAt) = some table)
    (hrow : row ∈ table.rows) : row ∈ db.mqttMessages.rows ∨
      row = Row.withId (db.mqttMessages.seq + 1) (newMessage message messageHash receivedAt) := by
  rw [(Table.insert_eq_some_iff.mp h).2.1, List.mem_append, List.mem_singleton] at hrow
  exact hrow

theorem Hashed.save {message : IncomingMessage} {now : Datetime} {saved : SavedMessage}
    (h : Hashed platform db)
    (hrun : saveMessage platform message now db = .ok (saved, final)) :
    Hashed platform final := by
  obtain ⟨hhash, ⟨rfl, -, -⟩ | ⟨-, -, -, hinsert, -⟩⟩ := saveMessage_cases hrun
  · exact h
  · intro row hrow
    obtain hold | rfl := mem_rows_insert hinsert hrow
    · exact h row hold
    · exact hhash

/-- A transaction keeps the rows, or removes them, or inserts one under its digest. -/
theorem Hashed.run {job : Job} {now : Datetime} {answer : Answer} (h : Hashed platform db)
    (hrun : job.run platform now db = .ok (answer, final)) : Hashed platform final := by
  by_cases hsave : ∃ message, job = .save message
  · obtain ⟨message, rfl⟩ := hsave
    obtain ⟨⟨saved, stored⟩, hsaved, heq⟩ := map_eq_ok.mp hrun
    cases heq
    exact h.save hsaved
  · intro row hrow
    have hchange := Job.rowChange hrun row.id
    rw [message_of_mem hrow] at hchange
    generalize hnext : some row = next at hchange
    cases hbefore : db.message row.id with
    | none =>
        rw [hbefore] at hchange
        cases hchange with
        | kept => cases hnext
        | created => exact absurd ⟨_, rfl⟩ hsave
    | some old =>
        rw [hbefore] at hchange
        have hold := h old (Table.mem_of_byId hbefore)
        cases hchange with
        | kept | claimed | completed | failed | recovered | replayed =>
            cases hnext
            exact hold
        | deleted => cases hnext

theorem Hashed.after (platform : Platform) {db : Database} (h : Hashed platform db)
    (op : Job × Datetime) : Hashed platform (db.after platform op) := by
  obtain ⟨job, now⟩ := op
  obtain hsame | ⟨answer, hrun⟩ := db.after_cases platform job now
  · rw [hsame]
    exact h
  · exact h.run hrun

/-- Two rows with one topic and one text are one row. -/
theorem Hashed.eq_of_same (h : Hashed platform db) {other : MessageRecord}
    (hrow : row ∈ db.mqttMessages.rows) (hother : other ∈ db.mqttMessages.rows)
    (htopic : other.topic = row.topic) (htext : other.rawPayload = row.rawPayload) :
    other = row := by
  have hfound := h.find_eq hother
  rw [htopic, htext, h.find_eq hrow] at hfound
  exact (Option.some.inj hfound).symm

end

end EdgeBridge
