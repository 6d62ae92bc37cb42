import EdgeBridge.Bridge.Completion
import EdgeBridge.Store.Timestamps

/-!
# Batched cleanup

One call deletes old rows of three tables out of one budget, messages before
commands before production records.  A message may go as long as its record says
that it was counted, so the order matters: a record goes only in a call that has
taken every message first.
-/

namespace EdgeBridge

open Foundation

/-! ## What is old -/

/-- A stored time lies before now minus the retention. -/
def isBefore (retentionDays : Int) (now : Datetime) (text : Text) : Bool :=
  match Datetime.ofIsoText text with
  | some time => decide ((time.micro : Int) + retentionDays * 86400000000 < now.micro)
  | none => false

/-- A stored time lies before now, cut to the second, minus the retention: the cutoff is
formatted like every stored time. -/
def isOld (retentionDays : Int) (now : Datetime) (text : Text) : Bool :=
  isBefore retentionDays now.truncate text

/-- An old completed message with a summarized production record. -/
def isOldMessage (retentionDays : Int) (now : Datetime) (db : Database)
    (row : MessageRecord) : Bool :=
  row.status == .completed && row.completedAt.any (isOld retentionDays now) &&
    summaryApplied db row.id

/-- An old terminal command. -/
def isOldCommand (retentionDays : Int) (now : Datetime) (row : ApiCommandRecord) : Bool :=
  row.status.isTerminal && isOld retentionDays now row.receivedAt

/-- An old summarized production record. -/
def isOldRecord (retentionDays : Int) (now : Datetime) (record : ProductionRecord) : Bool :=
  record.summaryApplied && isOld retentionDays now record.completedAt

/-- The ids of the selected rows. -/
def selectIds {α : Type} [Row α] (table : Table α) (which : α → Bool) : List Nat :=
  (table.select which).map rowId

def oldMessages (retentionDays : Int) (now : Datetime) (db : Database) : List Nat :=
  selectIds db.mqttMessages (isOldMessage retentionDays now db)

def oldCommands (retentionDays : Int) (now : Datetime) (db : Database) : List Nat :=
  selectIds db.apiCommands (isOldCommand retentionDays now)

def oldRecords (retentionDays : Int) (now : Datetime) (db : Database) : List Nat :=
  selectIds db.productionRecords (isOldRecord retentionDays now)

/-- How many rows a cleanup is to delete. -/
def oldRows (retentionDays : Int) (now : Datetime) (db : Database) : Nat :=
  (oldMessages retentionDays now db).length + (oldCommands retentionDays now db).length +
    (oldRecords retentionDays now db).length

def Database.without (db : Database) (messages commands records : List Nat) : Database :=
  { db with
    mqttMessages := deleteIds db.mqttMessages messages
    apiCommands := deleteIds db.apiCommands commands
    productionRecords := deleteIds db.productionRecords records }

section Deletion

variable {α : Type} [Row α]

theorem deleteIds_append (table : Table α) (first second : List Nat) :
    deleteIds (deleteIds table first) second = deleteIds table (first ++ second) := by
  apply Table.ext
  · simp only [deleteIds, Table.delete, List.filter_filter]
    apply List.filter_congr
    intro row _
    simp [Bool.and_comm, Bool.not_or]
  · rfl

theorem deleteIds_nil (table : Table α) : deleteIds table [] = table := by
  apply Table.ext
  · simp [deleteIds, Table.delete]
  · rfl

theorem deleteIds_congr (table : Table α) {first second : List Nat}
    (h : ∀ id, id ∈ first ↔ id ∈ second) : deleteIds table first = deleteIds table second := by
  apply Table.ext
  · simp only [deleteIds, Table.delete]
    apply List.filter_congr
    intro row _
    have hsame : first.contains (rowId row) = second.contains (rowId row) := by
      rw [Bool.eq_iff_iff, List.contains_iff_mem, List.contains_iff_mem]
      exact h (rowId row)
    rw [hsame]
  · rfl

theorem selectIds_nodup (table : Table α) (which : α → Bool) :
    (selectIds table which).Nodup :=
  List.pairwise_map.mpr ((table.ascending.filter which).imp fun hlt => Nat.ne_of_lt hlt)

theorem selectIds_deleteIds (table : Table α) (which : α → Bool) (ids : List Nat) :
    selectIds (deleteIds table ids) which =
      (selectIds table which).filter fun id => !ids.contains id := by
  simp only [selectIds, Table.select, deleteIds, Table.delete, List.filter_filter,
    List.filter_map]
  congr 1
  apply List.filter_congr
  intro row _
  simp [Bool.and_comm]

theorem cleanableIds_eq (table : Table α) (which : α → Bool) (limit : Nat) :
    cleanableIds table which limit = (selectIds table which).take limit :=
  List.map_take

end Deletion

theorem Database.without_append (db : Database)
    (messages commands records messages' commands' records' : List Nat) :
    (db.without messages commands records).without messages' commands' records' =
      db.without (messages ++ messages') (commands ++ commands') (records ++ records') := by
  simp only [Database.without, deleteIds_append]

theorem Stamped.without {db : Database} (h : Stamped db)
    (messages commands records : List Nat) : Stamped (db.without messages commands records) where
  messages := fun row hrow => h.messages row (List.mem_filter.mp hrow).1
  commands := fun row hrow => h.commands row (List.mem_filter.mp hrow).1
  records := fun record hrecord => h.records record (List.mem_filter.mp hrecord).1

/-! ## One call -/

/-- What a call leaves in the database; an exception leaves it as it was. -/
def cleanUp (platform : Platform) (retentionDays batchSize : Int) (now : Datetime)
    (db : Database) : Database :=
  match cleanupRawOperationalData platform retentionDays batchSize now db with
  | .ok (_, after) => after
  | .error _ => db

section

variable {platform : Platform} {retentionDays batchSize : Int} {now : Datetime}
  {db : Database}

/-- One budget for three lists, spent in order. -/
structure Spends (budget : Nat) (messages commands records : List Nat)
    (allMessages allCommands allRecords : List Nat) : Prop where
  first : messages = allMessages.take budget
  second : commands = allCommands.take (budget - messages.length)
  third : records = allRecords.take (budget - messages.length - commands.length)

section

variable {budget : Nat} {messages commands records allMessages allCommands allRecords :
  List Nat}

theorem Spends.length (h : Spends budget messages commands records allMessages allCommands
    allRecords) : messages.length + commands.length + records.length =
      min budget (allMessages.length + allCommands.length + allRecords.length) := by
  have hfirst := congrArg List.length h.first
  have hsecond := congrArg List.length h.second
  have hthird := congrArg List.length h.third
  rw [List.length_take] at hfirst hsecond hthird
  omega

theorem Spends.sublists (h : Spends budget messages commands records allMessages allCommands
    allRecords) : messages.Sublist allMessages ∧ commands.Sublist allCommands ∧
      records.Sublist allRecords := by
  refine ⟨?_, ?_, ?_⟩
  · rw [h.first]
    exact List.take_sublist _ _
  · rw [h.second]
    exact List.take_sublist _ _
  · rw [h.third]
    exact List.take_sublist _ _

/-- Records are taken only after all messages were. -/
theorem Spends.records_last (h : Spends budget messages commands records allMessages
    allCommands allRecords) : records = [] ∨ messages = allMessages := by
  rcases Nat.lt_or_ge messages.length budget with hroom | hfull
  · right
    rw [h.first, List.length_take] at hroom
    rw [h.first, List.take_of_length_le (by omega)]
  · left
    rw [h.third, show budget - messages.length - commands.length = 0 by omega, List.take_zero]

end

theorem summaryApplied_without {messages commands records : List Nat} {id : Nat}
    (h : summaryApplied (db.without messages commands records) id = true) :
    summaryApplied db id = true := by
  unfold summaryApplied at h ⊢
  cases hrecord : (db.without messages commands records).productionRecord id with
  | none =>
      rw [hrecord] at h
      cases h
  | some record =>
      rw [hrecord] at h
      have hfound := Table.find?_eq_some hrecord
      have hbefore := productionRecord_of_mem (List.mem_filter.mp hfound.1).1
      rw [beq_iff_eq.mp hfound.2] at hbefore
      rw [hbefore]
      exact h

/-- The messages that are left are still the old ones, as long as no record has gone
before them. -/
theorem oldMessages_without {messages commands records : List Nat}
    (horder : records = [] ∨ messages = oldMessages retentionDays now db) :
    oldMessages retentionDays now (db.without messages commands records) =
      (oldMessages retentionDays now db).filter fun id => !messages.contains id := by
  rcases horder with rfl | hall
  · have hsame : isOldMessage retentionDays now (db.without messages commands []) =
        isOldMessage retentionDays now db := by
      funext row
      simp only [isOldMessage, summaryApplied, Database.productionRecord, Database.without,
        deleteIds_nil]
    unfold oldMessages
    rw [hsame]
    exact selectIds_deleteIds db.mqttMessages _ messages
  · have hleft : oldMessages retentionDays now (db.without messages commands records) = [] := by
      unfold oldMessages selectIds Table.select
      rw [List.filter_eq_nil_iff.mpr, List.map_nil]
      intro row hrow hold
      rcases List.mem_filter.mp hrow with ⟨hmem, hkept⟩
      simp only [isOldMessage, Bool.and_eq_true] at hold
      have hbefore : isOldMessage retentionDays now db row = true := by
        simp only [isOldMessage, Bool.and_eq_true]
        exact ⟨hold.1, summaryApplied_without hold.2⟩
      have hin : row.id ∈ messages := by
        rw [hall]
        exact List.mem_map.mpr ⟨row, List.mem_filter.mpr ⟨hmem, hbefore⟩, rfl⟩
      have hout : rowId row ∉ messages := by simpa using hkept
      exact hout hin
    rw [hleft, hall, eq_comm, List.filter_eq_nil_iff]
    intro id hid
    simp [hid]

end

/-! ## Any number of calls -/

/-- What `calls` calls in a row leave. -/
def cleanUps (platform : Platform) (retentionDays batchSize : Int) (now : Datetime) :
    Nat → Database → Database
  | 0, db => db
  | calls + 1, db =>
      cleanUp platform retentionDays batchSize now
        (cleanUps platform retentionDays batchSize now calls db)

/-- Ids that were taken from a list, each once. -/
structure TakenFrom (all taken : List Nat) : Prop where
  nodup : taken.Nodup
  mem : ∀ id ∈ taken, id ∈ all

theorem TakenFrom.nil (all : List Nat) : TakenFrom all [] := ⟨List.nodup_nil, by simp⟩

theorem TakenFrom.append {all taken more : List Nat} (h : TakenFrom all taken)
    (hall : all.Nodup)
    (hmore : more.Sublist (all.filter fun id => !taken.contains id)) :
    TakenFrom all (taken ++ more) := by
  have hrest : ∀ id ∈ more, id ∈ all ∧ id ∉ taken := by
    intro id hid
    have hmem := List.mem_filter.mp (hmore.subset hid)
    exact ⟨hmem.1, by simpa using hmem.2⟩
  refine ⟨List.nodup_append.mpr ⟨h.nodup, hmore.nodup (hall.filter _), ?_⟩, ?_⟩
  · rintro first hfirst second hsecond rfl
    exact (hrest first hsecond).2 hfirst
  · intro id hid
    rcases List.mem_append.mp hid with hold | hnew
    · exact h.mem id hold
    · exact (hrest id hnew).1

theorem TakenFrom.perm {all taken : List Nat} (h : TakenFrom all taken) (hall : all.Nodup) :
    all.Perm (taken ++ all.filter fun id => !taken.contains id) := by
  refine (List.perm_ext_iff_of_nodup hall ?_).mpr fun id => ?_
  · refine List.nodup_append.mpr ⟨h.nodup, hall.filter _, ?_⟩
    rintro first hfirst second hsecond rfl
    have hout := (List.mem_filter.mp hsecond).2
    simp [hfirst] at hout
  · simp only [List.mem_append, List.mem_filter]
    constructor
    · intro hid
      by_cases htaken : id ∈ taken
      · exact .inl htaken
      · exact .inr ⟨hid, by simpa using htaken⟩
    · rintro (htaken | ⟨hid, -⟩)
      · exact h.mem id htaken
      · exact hid

theorem TakenFrom.length {all taken : List Nat} (h : TakenFrom all taken) (hall : all.Nodup) :
    taken.length + (all.filter fun id => !taken.contains id).length = all.length := by
  have hlength := (h.perm hall).length_eq
  rw [List.length_append] at hlength
  exact hlength.symm

theorem TakenFrom.mem_iff {all taken : List Nat} (h : TakenFrom all taken)
    (hall : all.Nodup) (hlength : all.length ≤ taken.length) {id : Nat} :
    id ∈ taken ↔ id ∈ all := by
  have hrest := h.length hall
  have hnone : (all.filter fun id => !taken.contains id) = [] :=
    List.length_eq_zero_iff.mp (by omega)
  rw [(h.perm hall).mem_iff, hnone, List.append_nil]

/-- What some calls have deleted so far, and what is left to delete. -/
structure Progress (retentionDays : Int) (now : Datetime) (db after : Database)
    (messages commands records : List Nat) : Prop where
  left : after = db.without messages commands records
  takenMessages : TakenFrom (oldMessages retentionDays now db) messages
  takenCommands : TakenFrom (oldCommands retentionDays now db) commands
  takenRecords : TakenFrom (oldRecords retentionDays now db) records
  restMessages : oldMessages retentionDays now after =
    (oldMessages retentionDays now db).filter fun id => !messages.contains id

section

variable {platform : Platform} {retentionDays batchSize : Int} {now : Datetime}
  {db after : Database} {messages commands records messages' commands' records' : List Nat}

theorem Progress.restCommands
    (h : Progress retentionDays now db after messages commands records) :
    oldCommands retentionDays now after =
      (oldCommands retentionDays now db).filter fun id => !commands.contains id := by
  rw [h.left]
  exact selectIds_deleteIds db.apiCommands _ commands

theorem Progress.restRecords
    (h : Progress retentionDays now db after messages commands records) :
    oldRecords retentionDays now after =
      (oldRecords retentionDays now db).filter fun id => !records.contains id := by
  rw [h.left]
  exact selectIds_deleteIds db.productionRecords _ records

theorem Progress.total
    (h : Progress retentionDays now db after messages commands records) :
    messages.length + commands.length + records.length + oldRows retentionDays now after =
      oldRows retentionDays now db := by
  have hmessages := h.takenMessages.length (selectIds_nodup _ _)
  have hcommands := h.takenCommands.length (selectIds_nodup _ _)
  have hrecords := h.takenRecords.length (selectIds_nodup _ _)
  rw [← h.restMessages] at hmessages
  rw [← h.restCommands] at hcommands
  rw [← h.restRecords] at hrecords
  unfold oldRows
  omega

theorem Progress.next (h : Progress retentionDays now db after messages commands records)
    {budget : Nat}
    (hspends : Spends budget messages' commands' records' (oldMessages retentionDays now after)
      (oldCommands retentionDays now after) (oldRecords retentionDays now after)) :
    Progress retentionDays now db (after.without messages' commands' records')
      (messages ++ messages') (commands ++ commands') (records ++ records') := by
  rcases hspends.sublists with ⟨hmessages, hcommands, hrecords⟩
  refine ⟨?_, ?_, ?_, ?_, ?_⟩
  · rw [h.left, Database.without_append]
  · exact h.takenMessages.append (selectIds_nodup _ _) (h.restMessages ▸ hmessages)
  · exact h.takenCommands.append (selectIds_nodup _ _) (h.restCommands ▸ hcommands)
  · exact h.takenRecords.append (selectIds_nodup _ _) (h.restRecords ▸ hrecords)
  · rw [oldMessages_without hspends.records_last, h.restMessages, List.filter_filter]
    apply List.filter_congr
    intro id _
    simp [Bool.and_comm, Bool.not_or]

/-- When all are deleted, exactly the old rows are gone. -/
theorem Progress.complete
    (h : Progress retentionDays now db after messages commands records)
    (hall : oldRows retentionDays now db ≤ messages.length + commands.length + records.length) :
    after = db.without (oldMessages retentionDays now db) (oldCommands retentionDays now db)
      (oldRecords retentionDays now db) := by
  have hmessages := h.takenMessages.length (selectIds_nodup _ _)
  have hcommands := h.takenCommands.length (selectIds_nodup _ _)
  have hrecords := h.takenRecords.length (selectIds_nodup _ _)
  unfold oldRows at hall
  rw [h.left]
  unfold Database.without
  rw [deleteIds_congr db.mqttMessages fun id =>
      h.takenMessages.mem_iff (selectIds_nodup _ _) (by omega),
    deleteIds_congr db.apiCommands fun id =>
      h.takenCommands.mem_iff (selectIds_nodup _ _) (by omega),
    deleteIds_congr db.productionRecords fun id =>
      h.takenRecords.mem_iff (selectIds_nodup _ _) (by omega)]

/-! ## Nothing is stranded -/

theorem Accounted.cleanUp {past : List Completed} {held : List Nat}
    (h : Accounted past ⟨db, held⟩) :
    Accounted past ⟨EdgeBridge.cleanUp platform retentionDays batchSize now db, held⟩ := by
  unfold EdgeBridge.cleanUp
  cases hrun : cleanupRawOperationalData platform retentionDays batchSize now db with
  | error error => exact h
  | ok result =>
      have hjob : (Job.cleanup retentionDays batchSize).run platform now db =
          .ok (.cleaned result.1, result.2) := map_eq_ok.mpr ⟨result, hrun, rfl⟩
      exact h.run_quiet (by intro _ _ heq; cases heq) rfl hjob

theorem Accounted.cleanUps {past : List Completed} {held : List Nat}
    (h : Accounted past ⟨db, held⟩) (calls : Nat) :
    Accounted past
      ⟨EdgeBridge.cleanUps platform retentionDays batchSize now calls db, held⟩ := by
  induction calls with
  | zero => exact h
  | succ calls ih => exact ih.cleanUp

theorem Accounted.recorded {past : List Completed} {held : List Nat} {row : MessageRecord}
    (h : Accounted past ⟨db, held⟩) (hrow : row ∈ db.mqttMessages.rows)
    (hstatus : row.status = .completed) :
    EdgeBridge.summaryApplied db row.id = true ∧ needsReconciliation db row = false ∧
      ∀ later, isOldMessage retentionDays later db row =
        row.completedAt.any (isOld retentionDays later) := by
  rcases h.summaryApplied (message_of_mem hrow) hstatus with ⟨stored, hstored, -, happlied⟩
  have hcounted : EdgeBridge.summaryApplied db row.id = true := by
    unfold EdgeBridge.summaryApplied
    rw [show db.productionRecord row.id = some stored from hstored]
    exact happlied
  refine ⟨hcounted, ?_, fun later => ?_⟩
  · simp only [needsReconciliation, hcounted, Bool.not_true, Bool.and_false]
  · simp only [isOldMessage, hstatus, hcounted, beq_self_eq_true, Bool.true_and, Bool.and_true]

/-! ## A statement that fails -/

/-- The statements of the deleting transaction. -/
inductive CleanupStatement
  | begin
  | selectMessages
  | deleteMessages
  | deleteCommands
  | deleteRecords
  | commit
  deriving DecidableEq

/-- A statement raises, or gives its result. -/
def execute {α : Type} (fault : CleanupStatement → Option PyError)
    (statement : CleanupStatement) (result : α) : Except PyError α :=
  match fault statement with
  | some error => .error error
  | none => .ok result

/-- What some statements give together: the error of the first that fails, or else the
result. -/
def attempt {α : Type} (fault : CleanupStatement → Option PyError)
    (statements : List CleanupStatement) (result : α) : Except PyError α :=
  match statements.findSome? fault with
  | some error => .error error
  | none => .ok result

section

variable {α β : Type} (fault : CleanupStatement → Option PyError)

end

end

/-! ## Whole runs -/

end EdgeBridge
