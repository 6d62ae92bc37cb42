import EdgeBridge.Foundation.Ddl

/-!
# Scripts that only add

Whatever a script does, the rows stay as they are but for the defaults of new columns, and
the indexes stay.  After a run nothing is left to do: a second run writes nothing.  A script
whose steps are in order runs to its end on every file that fits it.
-/

namespace EdgeBridge.Foundation.Ddl

variable {V : Type}

/-! ## Names -/

theorem sameName_iff {a b : Text} :
    sameName a b = true ↔ a.map lowerCase = b.map lowerCase := by
  simp [sameName]

theorem sameName_self (a : Text) : sameName a a = true := by
  simp [sameName]

theorem sameName_congr {a b : Text} (h : sameName a b = true) (c : Text) :
    sameName a c = sameName b c := by
  rw [sameName_iff] at h
  simp [sameName, h]

theorem sameName_symm {a b : Text} (h : sameName a b = true) : sameName b a = true :=
  sameName_iff.mpr (sameName_iff.mp h).symm

theorem findIndex_congr {db : Catalog V} {a b : Text} (h : sameName a b = true) :
    db.findIndex a = db.findIndex b := by
  simp only [Catalog.findIndex, sameName_congr h]

theorem Relation.ext {r s : Relation V} (hcolumns : r.columns = s.columns)
    (hrows : r.rows = s.rows) : r = s := by
  cases r
  cases s
  cases hcolumns
  cases hrows
  rfl

theorem Relation.add_nil (relation : Relation V) : relation.add [] = relation := by
  apply Relation.ext
  · simp [Relation.add]
  · simp [Relation.add]

theorem Relation.add_add (relation : Relation V) (first second : List (Column V)) :
    (relation.add first).add second = relation.add (first ++ second) := by
  apply Relation.ext
  · simp [Relation.add]
  · simp [Relation.add, Function.comp_def]

theorem Relation.has_add (relation : Relation V) (added : List (Column V)) (name : Text) :
    (relation.add added).has name =
      (relation.has name || added.any fun column => sameName name column.name) := by
  simp [Relation.has, Relation.add]

/-- Read by distinct names, a row is what it is. -/
theorem map_valueOf {columns : List (Column V)} {row : List V}
    (hdistinct : columns.Pairwise fun a b => sameName b.name a.name = false)
    (hsized : row.length = columns.length) :
    columns.map (fun column => valueOf columns column.name row) = row.map some := by
  induction columns generalizing row with
  | nil =>
      cases row with
      | nil => rfl
      | cons value row => cases hsized
  | cons column columns ih =>
      cases row with
      | nil => cases hsized
      | cons value row =>
          obtain ⟨hhead, htail⟩ := List.pairwise_cons.mp hdistinct
          rw [List.map_cons, List.map_cons, ← ih htail (by simpa using hsized)]
          congr 1
          · simp [valueOf, sameName_self]
          · refine List.map_congr_left fun other hother => ?_
            simp [valueOf, hhead other hother]

/-- The rows and the indexes of a file are kept; a table may have new columns. -/
structure Grown (db after : Catalog V) : Prop where
  tables : ∀ name relation, db.findTable name = some relation →
    ∃ added, after.findTable name = some (relation.add added)
  indexes : ∀ name index, db.findIndex name = some index → after.findIndex name = some index

theorem Grown.refl (db : Catalog V) : Grown db db where
  tables name relation h := ⟨[], by rw [relation.add_nil]; exact h⟩
  indexes _ _ h := h

theorem Grown.trans {db middle after : Catalog V} (first : Grown db middle)
    (second : Grown middle after) : Grown db after where
  tables name relation h := by
    obtain ⟨added, hmiddle⟩ := first.tables name relation h
    obtain ⟨more, hafter⟩ := second.tables name _ hmiddle
    exact ⟨added ++ more, by rw [hafter, relation.add_add]⟩
  indexes name index h := second.indexes name index (first.indexes name index h)

theorem Grown.tableInfo {db after : Catalog V} (h : Grown db after) {table name : Text}
    (hname : name ∈ db.tableInfo table) : name ∈ after.tableInfo table := by
  unfold Catalog.tableInfo at hname ⊢
  split at hname
  · next relation hrelation =>
    obtain ⟨added, hafter⟩ := h.tables table relation hrelation
    rw [hafter]
    simp only [Relation.add, List.map_append, List.mem_append]
    exact .inl hname
  · cases hname

theorem Grown.findTable_isSome {db after : Catalog V} (h : Grown db after) {name : Text}
    (hthere : (db.findTable name).isSome = true) : (after.findTable name).isSome = true := by
  obtain ⟨relation, hrelation⟩ := Option.isSome_iff_exists.mp hthere
  obtain ⟨added, hafter⟩ := h.tables name relation hrelation
  rw [hafter]
  rfl

theorem Grown.findIndex_isSome {db after : Catalog V} (h : Grown db after) {name : Text}
    (hthere : (db.findIndex name).isSome = true) : (after.findIndex name).isSome = true := by
  obtain ⟨index, hindex⟩ := Option.isSome_iff_exists.mp hthere
  rw [h.indexes name index hindex]
  rfl

/-! ## One statement -/

theorem findTable_created (db : Catalog V) (made : Text) (relation : Relation V)
    (name : Text) :
    ({ db with tables := db.tables ++ [(made, relation)] } : Catalog V).findTable name =
      (db.findTable name).or (if sameName name made then some relation else none) := by
  simp only [Catalog.findTable, List.find?_append, List.find?_singleton]
  cases db.tables.find? fun entry => sameName name entry.1 with
  | some entry => rfl
  | none =>
      rw [Option.none_or, Option.map_none, Option.none_or]
      split
      · rfl
      · rfl

theorem findIndex_created (db : Catalog V) (made : Text) (index : Index V) (name : Text) :
    ({ db with indexes := db.indexes ++ [(made, index)] } : Catalog V).findIndex name =
      (db.findIndex name).or (if sameName name made then some index else none) := by
  simp only [Catalog.findIndex, List.find?_append, List.find?_singleton]
  cases db.indexes.find? fun entry => sameName name entry.1 with
  | some entry => rfl
  | none =>
      rw [Option.none_or, Option.map_none, Option.none_or]
      split
      · rfl
      · rfl

theorem findTable_addColumn (db : Catalog V) (table : Text) (column : Column V)
    (name : Text) :
    (db.addColumn table column).findTable name =
      if sameName table name then (db.findTable name).map fun relation => relation.add [column]
      else db.findTable name := by
  simp only [Catalog.findTable, Catalog.addColumn]
  induction db.tables with
  | nil => simp
  | cons entry tables ih =>
      have hkept : (if sameName table entry.1 then (entry.1, entry.2.add [column])
          else entry).1 = entry.1 := by
        split
        · rfl
        · rfl
      rw [List.map_cons, List.find?_cons, List.find?_cons, hkept]
      cases hname : sameName name entry.1 with
      | true =>
          have htable : sameName table entry.1 = sameName table name := by
            simp only [sameName, sameName_iff.mp hname]
          rw [htable]
          cases sameName table name with
          | true => rfl
          | false => rfl
      | false => exact ih

/-- What a statement has done, when it returns. -/
inductive Executed [DecidableEq V] (null : V) (db : Catalog V) :
    Statement V → Catalog V × Bool → Prop
  | tableKept (name : Text) (columns : List (Column V)) :
      (db.findTable name).isSome = true →
      Executed null db (.createTable name columns) (db, false)
  | tableMade (name : Text) (columns : List (Column V)) :
      db.findTable name = none → db.findIndex name = none →
      Executed null db (.createTable name columns)
        ({ db with tables := db.tables ++ [(name, .empty columns)] }, true)
  | columnAdded (table : Text) (column : Column V) (relation : Relation V) :
      db.findTable table = some relation → relation.has column.name = false →
      Executed null db (.addColumn table column) (db.addColumn table column, true)
  | indexKept (name : Text) (index : Index V) (relation : Relation V) :
      db.findTable index.table = some relation → db.findTable name = none →
      (db.findIndex name).isSome = true →
      Executed null db (.createIndex name index) (db, false)
  | indexMade (name : Text) (index : Index V) (relation : Relation V) :
      db.findTable index.table = some relation → db.findTable name = none →
      db.findIndex name = none →
      (index.unique = true → relation.Distinct null index.terms) →
      Executed null db (.createIndex name index)
        ({ db with indexes := db.indexes ++ [(name, index)] }, true)

section

variable [DecidableEq V] {null : V} {db after : Catalog V} {statement : Statement V}
  {wrote : Bool}

theorem executed (h : execute null statement db = .ok (after, wrote)) :
    Executed null db statement (after, wrote) := by
  cases statement with
  | createTable name columns =>
      simp only [execute] at h
      split at h
      · next hthere =>
        cases h
        exact .tableKept name columns hthere
      · next hnone =>
        split at h
        · cases h
        · next hfree =>
          cases h
          exact .tableMade name columns (by simpa using hnone) (by simpa using hfree)
  | addColumn table column =>
      simp only [execute] at h
      split at h
      · cases h
      · next relation hrelation =>
        split at h
        · cases h
        · next hnew =>
          split at h
          · cases h
            exact .columnAdded table column relation hrelation (by simpa using hnew)
          · cases h
  | createIndex name index =>
      simp only [execute] at h
      split at h
      · cases h
      · next relation hrelation =>
        split at h
        · cases h
        · next hfree =>
          split at h
          · next hthere =>
            cases h
            exact .indexKept name index relation hrelation (by simpa using hfree) hthere
          · next hnone =>
            split at h
            · cases h
            · split at h
              · cases h
              · next hunique =>
                cases h
                refine .indexMade name index relation hrelation (by simpa using hfree)
                  (by simpa using hnone) fun hindex => ?_
                by_contra hdistinct
                exact hunique ⟨hindex, hdistinct⟩

theorem Executed.grown (h : Executed null db statement (after, wrote)) : Grown db after := by
  cases h with
  | tableKept | indexKept => exact .refl db
  | tableMade name columns hnone hfree =>
      refine ⟨fun other relation hother => ⟨[], ?_⟩, fun other index hother => hother⟩
      rw [findTable_created, hother, Option.some_or, relation.add_nil]
  | columnAdded table column relation hrelation hnew =>
      refine ⟨fun other old hother => ?_, fun other index hother => hother⟩
      rw [findTable_addColumn, hother]
      split
      · exact ⟨[column], rfl⟩
      · exact ⟨[], by rw [old.add_nil]⟩
  | indexMade name index relation hrelation hfree hnone hunique =>
      refine ⟨fun other old hother => ⟨[], by rw [old.add_nil]; exact hother⟩,
        fun other old hother => ?_⟩
      rw [findIndex_created, hother, Option.some_or]

end

/-! ## Steps that have been taken -/

/-- Nothing is left to do for the step. -/
def UpToDate (db : Catalog V) : Step V → Prop
  | .execute (.createTable name _) => (db.findTable name).isSome = true
  | .execute (.addColumn table column) => column.name ∈ db.tableInfo table
  | .execute (.createIndex name index) => (db.findTable index.table).isSome = true ∧
      db.findTable name = none ∧ (db.findIndex name).isSome = true
  | .ensureColumns table columns => ∀ column ∈ columns, column.name ∈ db.tableInfo table

instance (db : Catalog V) (step : Step V) : Decidable (UpToDate db step) :=
  match step with
  | .execute (.createTable _ _) => inferInstanceAs (Decidable (_ = true))
  | .execute (.addColumn table column) =>
      inferInstanceAs (Decidable (column.name ∈ db.tableInfo table))
  | .execute (.createIndex name index) =>
      inferInstanceAs (Decidable ((db.findTable index.table).isSome = true ∧
        db.findTable name = none ∧ (db.findIndex name).isSome = true))
  | .ensureColumns table columns =>
      inferInstanceAs (Decidable (∀ column ∈ columns, column.name ∈ db.tableInfo table))

/-- The file without its rows. -/
def Catalog.bare (db : Catalog V) : Catalog V where
  tables := db.tables.map fun entry => (entry.1, .empty entry.2.columns)
  indexes := db.indexes

theorem findTable_bare (db : Catalog V) (name : Text) :
    db.bare.findTable name =
      (db.findTable name).map fun relation => .empty relation.columns := by
  simp only [Catalog.findTable, Catalog.bare, List.find?_map, Option.map_map]
  rfl

/-- The rows do not matter. -/
theorem upToDate_bare {db : Catalog V} {step : Step V} (h : UpToDate db.bare step) :
    UpToDate db step := by
  have hinfo : ∀ table, db.bare.tableInfo table = db.tableInfo table := by
    intro table
    unfold Catalog.tableInfo
    rw [findTable_bare]
    cases db.findTable table with
    | none => rfl
    | some relation => rfl
  cases step with
  | ensureColumns table columns =>
      intro column hcolumn
      rw [← hinfo]
      exact h column hcolumn
  | execute statement =>
      cases statement with
      | createTable name columns => simpa [UpToDate, findTable_bare] using h
      | addColumn table column => simpa [UpToDate, hinfo] using h
      | createIndex name index =>
          obtain ⟨htable, hfree, hindex⟩ := h
          rw [findTable_bare, Option.isSome_map] at htable
          rw [findTable_bare, Option.map_eq_none_iff] at hfree
          exact ⟨htable, hfree, hindex⟩

section

variable [DecidableEq V] {null : V} {db after : Catalog V} {statement : Statement V}
  {wrote : Bool} {faults : Faults} {session final : Session V} {step : Step V}

/-- No table takes the name of an index. -/
theorem Executed.findTable_none (h : Executed null db statement (after, wrote)) {name : Text}
    (hindex : (db.findIndex name).isSome = true) (hnone : db.findTable name = none) :
    after.findTable name = none := by
  cases h with
  | tableKept | indexKept | indexMade => exact hnone
  | tableMade made columns hmade hfree =>
      rw [findTable_created, hnone, Option.none_or]
      split
      · next hsame =>
        rw [findIndex_congr hsame, hfree] at hindex
        cases hindex
      · rfl
  | columnAdded table column relation hrelation hnew =>
      rw [findTable_addColumn, hnone]
      split
      · rfl
      · rfl

theorem UpToDate.executed (h : UpToDate db step)
    (hrun : Executed null db statement (after, wrote)) : UpToDate after step := by
  have hgrown := hrun.grown
  cases step with
  | ensureColumns table columns => exact fun column hcolumn => hgrown.tableInfo (h column hcolumn)
  | execute other =>
      cases other with
      | createTable name columns => exact hgrown.findTable_isSome h
      | addColumn table column => exact hgrown.tableInfo h
      | createIndex name index =>
          exact ⟨hgrown.findTable_isSome h.1, hrun.findTable_none h.2.2 h.2.1,
            hgrown.findIndex_isSome h.2.2⟩

theorem Executed.upToDate (h : Executed null db statement (after, wrote)) :
    UpToDate after (.execute statement) := by
  cases h with
  | tableKept name columns hthere => exact hthere
  | tableMade name columns hnone hfree =>
      simp [UpToDate, findTable_created, hnone, sameName_self]
  | columnAdded table column relation hrelation hnew =>
      simp [UpToDate, Catalog.tableInfo, findTable_addColumn, sameName_self, hrelation,
        Relation.add]
  | indexKept name index relation hrelation hfree hthere =>
      exact ⟨by rw [hrelation]; rfl, hfree, hthere⟩
  | indexMade name index relation hrelation hfree hnone hunique =>
      refine ⟨?_, hfree, ?_⟩
      · exact Option.isSome_iff_exists.mpr ⟨relation, hrelation⟩
      · simp [findIndex_created, hnone, sameName_self]

end

/-! ## Runs -/

/-- The statements that a step may send. -/
def Step.statements : Step V → List (Statement V)
  | .execute statement => [statement]
  | .ensureColumns table columns => columns.map (.addColumn table)

section

variable [DecidableEq V] {null : V} {faults : Faults} {session final : Session V}
  {statement : Statement V} {step : Step V}

omit [DecidableEq V] in
theorem call_eq_ok (h : call faults session = .ok final) :
    final = { session with calls := session.calls + 1 } := by
  unfold call at h
  split at h
  · cases h
  · cases h
    rfl

theorem runStatement_eq_ok (h : runStatement null faults session statement = .ok final) :
    ∃ wrote, Executed null session.db statement (final.db, wrote) ∧
      final.wrote = (session.wrote || wrote) := by
  obtain ⟨middle, hcall, hrest⟩ := bind_eq_ok.mp h
  obtain ⟨⟨db, wrote⟩, hexecute, heq⟩ := bind_eq_ok.mp hrest
  cases heq
  obtain rfl := call_eq_ok hcall
  exact ⟨wrote, executed hexecute, rfl⟩

/-- What each statement of a run preserves, the run preserves. -/
theorem runAdditions_induction {P : Catalog V → Prop} {table : Text}
    {columns : List (Column V)}
    (keeps : ∀ column ∈ columns, ∀ db after wrote, P db →
      Executed null db (.addColumn table column) (after, wrote) → P after)
    (h : columns.foldlM (fun session column =>
      runStatement null faults session (.addColumn table column)) session = .ok final)
    (start : P session.db) : P final.db := by
  induction columns generalizing session with
  | nil =>
      cases h
      exact start
  | cons column columns ih =>
      rw [List.foldlM_cons] at h
      obtain ⟨middle, hfirst, hrest⟩ := bind_eq_ok.mp h
      obtain ⟨wrote, hexecuted, -⟩ := runStatement_eq_ok hfirst
      refine ih (fun other hother => keeps other (List.mem_cons_of_mem _ hother)) hrest ?_
      exact keeps column List.mem_cons_self _ _ _ start hexecuted

theorem runStep_induction {P : Catalog V → Prop}
    (keeps : ∀ statement ∈ step.statements, ∀ db after wrote, P db →
      Executed null db statement (after, wrote) → P after)
    (h : runStep null faults session step = .ok final) (start : P session.db) : P final.db := by
  cases step with
  | execute statement =>
      obtain ⟨wrote, hexecuted, -⟩ := runStatement_eq_ok h
      exact keeps statement (List.mem_singleton_self _) _ _ _ start hexecuted
  | ensureColumns table columns =>
      obtain ⟨middle, hcall, hrest⟩ := bind_eq_ok.mp h
      obtain rfl := call_eq_ok hcall
      refine runAdditions_induction (fun column hcolumn => ?_) hrest start
      exact keeps _ (List.mem_map_of_mem (List.mem_filter.mp hcolumn).1)

theorem runSteps_induction {P : Catalog V → Prop} {steps : List (Step V)}
    (keeps : ∀ step ∈ steps, ∀ statement ∈ step.statements, ∀ db after wrote, P db →
      Executed null db statement (after, wrote) → P after)
    (h : steps.foldlM (runStep null faults) session = .ok final) (start : P session.db) :
    P final.db := by
  induction steps generalizing session with
  | nil =>
      cases h
      exact start
  | cons step steps ih =>
      rw [List.foldlM_cons] at h
      obtain ⟨middle, hfirst, hrest⟩ := bind_eq_ok.mp h
      refine ih (fun other hother => keeps other (List.mem_cons_of_mem _ hother)) hrest ?_
      exact runStep_induction (keeps step List.mem_cons_self) hfirst start

theorem runAdditions_upToDate {table : Text} {columns : List (Column V)}
    (h : columns.foldlM (fun session column =>
      runStatement null faults session (.addColumn table column)) session = .ok final) :
    ∀ column ∈ columns, column.name ∈ final.db.tableInfo table := by
  induction columns generalizing session with
  | nil =>
      intro column hcolumn
      cases hcolumn
  | cons column columns ih =>
      rw [List.foldlM_cons] at h
      obtain ⟨middle, hfirst, hrest⟩ := bind_eq_ok.mp h
      obtain ⟨wrote, hexecuted, -⟩ := runStatement_eq_ok hfirst
      intro other hother
      rcases List.mem_cons.mp hother with rfl | hother
      · exact runAdditions_induction (P := fun db => other.name ∈ db.tableInfo table)
          (fun _ _ _ _ _ hthere hrun => hrun.grown.tableInfo hthere) hrest hexecuted.upToDate
      · exact ih hrest other hother

theorem runStep_upToDate (h : runStep null faults session step = .ok final) :
    UpToDate final.db step := by
  cases step with
  | execute statement =>
      obtain ⟨wrote, hexecuted, -⟩ := runStatement_eq_ok h
      exact hexecuted.upToDate
  | ensureColumns table columns =>
      obtain ⟨middle, hcall, hrest⟩ := bind_eq_ok.mp h
      intro column hcolumn
      by_cases hthere : column.name ∈ middle.db.tableInfo table
      · exact runAdditions_induction (P := fun db => column.name ∈ db.tableInfo table)
          (fun _ _ _ _ _ hkept hrun => hrun.grown.tableInfo hkept) hrest hthere
      · refine runAdditions_upToDate hrest column (List.mem_filter.mpr ⟨hcolumn, ?_⟩)
        simpa using hthere

theorem runSteps_upToDate {steps : List (Step V)}
    (h : steps.foldlM (runStep null faults) session = .ok final) :
    ∀ step ∈ steps, UpToDate final.db step := by
  induction steps generalizing session with
  | nil =>
      intro step hstep
      cases hstep
  | cons step steps ih =>
      rw [List.foldlM_cons] at h
      obtain ⟨middle, hfirst, hrest⟩ := bind_eq_ok.mp h
      intro other hother
      rcases List.mem_cons.mp hother with rfl | hother
      · exact runSteps_induction (P := fun db => UpToDate db other)
          (fun _ _ _ _ _ _ _ hkept hrun => hkept.executed hrun) hrest (runStep_upToDate hfirst)
      · exact ih hrest other hother

/-- A step that has been taken does nothing. -/
theorem runStep_again (h : UpToDate session.db step)
    (hstep : ∀ table column, step ≠ .execute (.addColumn table column)) :
    ∃ calls, runStep null .none session step = .ok { session with calls := calls } := by
  cases step with
  | ensureColumns table columns =>
      have hnone : (columns.filter fun column =>
          !(session.db.tableInfo table).contains column.name) = [] := by
        rw [List.filter_eq_nil_iff]
        intro column hcolumn
        simpa using h column hcolumn
      refine ⟨session.calls + 1, ?_⟩
      change List.foldlM _ _ (columns.filter fun column =>
        !(session.db.tableInfo table).contains column.name) = _
      rw [hnone]
      rfl
  | execute statement =>
      refine ⟨session.calls + 1, ?_⟩
      cases statement with
      | addColumn table column => exact absurd rfl (hstep table column)
      | createTable name columns =>
          have hthere : (session.db.findTable name).isSome = true := h
          simp [runStep, runStatement, call, Faults.none, bind, Except.bind, execute, hthere]
      | createIndex name index =>
          obtain ⟨htable, hfree, hindex⟩ := h
          obtain ⟨relation, hrelation⟩ := Option.isSome_iff_exists.mp htable
          simp [runStep, runStatement, call, Faults.none, bind, Except.bind, execute, hrelation,
            hfree, hindex]

theorem runSteps_again {steps : List (Step V)}
    (hupToDate : ∀ step ∈ steps, UpToDate session.db step)
    (hsteps : ∀ step ∈ steps, ∀ table column, step ≠ .execute (.addColumn table column)) :
    ∃ calls, steps.foldlM (runStep null .none) session =
      .ok { session with calls := calls } := by
  induction steps generalizing session with
  | nil => exact ⟨session.calls, rfl⟩
  | cons step steps ih =>
      obtain ⟨calls, hfirst⟩ : ∃ calls, runStep null .none session step =
          .ok { session with calls := calls } :=
        runStep_again (hupToDate step List.mem_cons_self) (hsteps step List.mem_cons_self)
      obtain ⟨final, hrest⟩ := @ih { session with calls := calls }
        (fun other hother => hupToDate other (List.mem_cons_of_mem _ hother))
        (fun other hother => hsteps other (List.mem_cons_of_mem _ hother))
      refine ⟨final, ?_⟩
      rw [List.foldlM_cons, hfirst]
      exact hrest

end

/-! ## Files that fit a script -/

/-- The columns that a step wants the table to have. -/
def Step.columnsOf (table : Text) : Step V → List (Column V)
  | .execute (.createTable name columns) => if sameName name table then columns else []
  | .execute (.addColumn name column) => if sameName name table then [column] else []
  | .execute (.createIndex _ _) => []
  | .ensureColumns name columns => if sameName name table then columns else []

def Step.creates (table : Text) : Step V → Bool
  | .execute (.createTable name _) => sameName name table
  | _ => false

section

variable [DecidableEq V] (null : V)

/-- Two steps of a script do not stand in each other's way. -/
def Step.apart : Step V → Step V → Bool
  | .execute (.createTable name columns), .execute (.createTable other others) =>
      !sameName name other || decide (columns = others)
  | .execute (.createTable name _), .execute (.createIndex index _) => !sameName index name
  | .ensureColumns table columns, other =>
      (other.columnsOf table).all fun wanted =>
        columns.all fun column =>
          !sameName column.name wanted.name || column.name == wanted.name
  | .execute (.createIndex _ index), .ensureColumns table _ =>
      !index.unique || !sameName index.table table
  | _, _ => true

/-- What a step needs has been made by the steps before it. -/
def Step.supported (past : List (Step V)) : Step V → Bool
  | .execute (.createTable _ _) => true
  | .execute (.addColumn _ _) => false
  | .execute (.createIndex _ index) =>
      past.any (Step.creates index.table) &&
        index.terms.all fun term =>
          (past.flatMap (Step.columnsOf index.table)).any fun column =>
            sameName term.name column.name
  | .ensureColumns table columns =>
      past.any (Step.creates table) && columns.all (Column.addable null) &&
        decide (columns.Pairwise fun a b => sameName b.name a.name = false)

def inOrder : List (Step V) → List (Step V) → Bool
  | _, [] => true
  | past, step :: rest => step.supported null past && inOrder (past ++ [step]) rest

/-- The file has nothing that would stop the step. -/
def Step.fits (db : Catalog V) : Step V → Bool
  | .execute (.createTable name columns) =>
      match db.findTable name with
      | some relation => columns.all fun column => relation.has column.name
      | none => (db.findIndex name).isNone
  | .execute (.addColumn _ _) => true
  | .execute (.createIndex name index) =>
      (db.findTable name).isNone &&
        (!index.unique || (db.findIndex name).isSome ||
          match db.findTable index.table with
          | some relation => decide (relation.Distinct null index.terms)
          | none => true)
  | .ensureColumns table columns =>
      match db.findTable table with
      | some relation => columns.all fun column =>
          !relation.has column.name ||
            (relation.columns.map Column.name).contains column.name
      | none => true

/-- The tables of the file have the columns that the script would create, its names are
free, and its unique indexes have been kept. -/
structure Fits (steps : List (Step V)) (db : Catalog V) : Prop where
  columns : ∀ name columns, .execute (.createTable name columns) ∈ steps →
    ∀ relation, db.findTable name = some relation →
      ∀ column ∈ columns, relation.has column.name = true
  spelled : ∀ table columns, .ensureColumns table columns ∈ steps →
    ∀ relation, db.findTable table = some relation →
      ∀ column ∈ columns, relation.has column.name = true →
        column.name ∈ relation.columns.map Column.name
  tableNames : ∀ name columns, .execute (.createTable name columns) ∈ steps →
    db.findTable name = none → db.findIndex name = none
  indexNames : ∀ name index, .execute (.createIndex name index) ∈ steps →
    db.findTable name = none
  unique : ∀ name index, .execute (.createIndex name index) ∈ steps → index.unique = true →
    db.findIndex name = none → ∀ relation, db.findTable index.table = some relation →
      relation.Distinct null index.terms

end

section

variable [DecidableEq V] {null : V} {steps : List (Step V)} {db after : Catalog V}
  {statement : Statement V} {step : Step V} {wrote : Bool}

theorem Fits.executed (h : Fits null steps db)
    (hapart : ∀ a ∈ steps, ∀ b ∈ steps, Step.apart a b = true)
    (honly : ∀ step ∈ steps, ∀ table column, step ≠ .execute (.addColumn table column))
    (hstep : step ∈ steps) (hstatement : statement ∈ step.statements)
    (hrun : Executed null db statement (after, wrote)) : Fits null steps after := by
  cases hrun with
  | tableKept | indexKept => exact h
  | tableMade made columns hnone hfree =>
      have hmade : step = .execute (.createTable made columns) := by
        cases step with
        | execute other => rw [List.mem_singleton.mp hstatement]
        | ensureColumns table added =>
            obtain ⟨_, _, heq⟩ := List.mem_map.mp hstatement
            cases heq
      subst hmade
      have hfind : ∀ name relation, (({ db with tables := db.tables ++
          [(made, .empty columns)] } : Catalog V).findTable name = some relation) →
          db.findTable name = some relation ∨
            (sameName name made = true ∧ relation = .empty columns) := by
        intro name relation hrelation
        rw [findTable_created] at hrelation
        cases hold : db.findTable name with
        | some old =>
            rw [hold, Option.some_or] at hrelation
            exact .inl hrelation
        | none =>
            rw [hold, Option.none_or] at hrelation
            split at hrelation
            · next hsame => exact .inr ⟨hsame, (Option.some.inj hrelation).symm⟩
            · cases hrelation
      refine ⟨?_, ?_, ?_, ?_, ?_⟩
      · intro name others hothers relation hrelation column hcolumn
        rcases hfind name relation hrelation with hold | ⟨hsame, rfl⟩
        · exact h.columns name others hothers relation hold column hcolumn
        · have htwo := hapart _ hothers _ hstep
          simp only [Step.apart, hsame, Bool.not_true, Bool.false_or, decide_eq_true_eq] at htwo
          subst htwo
          exact List.any_eq_true.mpr ⟨column, hcolumn, sameName_self _⟩
      · intro table others hothers relation hrelation column hcolumn hhas
        rcases hfind table relation hrelation with hold | ⟨hsame, rfl⟩
        · exact h.spelled table others hothers relation hold column hcolumn hhas
        · obtain ⟨wanted, hwanted, hnamed⟩ := List.any_eq_true.mp hhas
          have htwo := hapart _ hothers _ hstep
          simp only [Step.apart, Step.columnsOf, sameName_symm hsame, if_true, List.all_eq_true,
            Bool.or_eq_true, Bool.not_eq_true', beq_iff_eq] at htwo
          have hname := htwo wanted hwanted column hcolumn
          rw [hnamed] at hname
          rcases hname with hname | hname
          · cases hname
          · rw [hname]
            exact List.mem_map_of_mem hwanted
      · intro name others hothers hthen
        refine h.tableNames name others hothers ?_
        rw [findTable_created] at hthen
        exact (Option.or_eq_none_iff.mp hthen).1
      · intro name index hindex
        have htwo := hapart _ hstep _ hindex
        simp only [Step.apart, Bool.not_eq_true'] at htwo
        simp [findTable_created, h.indexNames name index hindex, htwo]
      · intro name index hindex hunique hthen relation hrelation
        rcases hfind index.table relation hrelation with hold | ⟨-, rfl⟩
        · exact h.unique name index hindex hunique hthen relation hold
        · exact List.Pairwise.nil
  | columnAdded table column relation hrelation hnew =>
      obtain ⟨columns, hmade, hcolumn⟩ : ∃ columns, step = .ensureColumns table columns ∧
          column ∈ columns := by
        cases step with
        | execute other =>
            exact absurd (congrArg Step.execute (List.mem_singleton.mp hstatement)).symm
              (honly _ hstep table column)
        | ensureColumns other columns =>
            obtain ⟨added, hadded, heq⟩ := List.mem_map.mp hstatement
            cases heq
            exact ⟨columns, rfl, hadded⟩
      subst hmade
      have hfind : ∀ name relation, (db.addColumn table column).findTable name = some relation →
          ∃ old, db.findTable name = some old ∧ (relation = old ∨
            (sameName table name = true ∧ relation = old.add [column])) := by
        intro name relation hthen
        rw [findTable_addColumn] at hthen
        split at hthen
        · next hsame =>
          obtain ⟨old, hold, rfl⟩ := Option.map_eq_some_iff.mp hthen
          exact ⟨old, hold, .inr ⟨hsame, rfl⟩⟩
        · exact ⟨relation, hthen, .inl rfl⟩
      have hnone : ∀ name, (db.addColumn table column).findTable name = none →
          db.findTable name = none := by
        intro name hthen
        rw [findTable_addColumn] at hthen
        split at hthen
        · exact Option.map_eq_none_iff.mp hthen
        · exact hthen
      refine ⟨?_, ?_, ?_, ?_, ?_⟩
      · intro name others hothers then_ hthen wanted hwanted
        obtain ⟨old, hold, rfl | ⟨-, rfl⟩⟩ := hfind name then_ hthen
        · exact h.columns name others hothers _ hold wanted hwanted
        · rw [Relation.has_add, h.columns name others hothers _ hold wanted hwanted,
            Bool.true_or]
      · intro other others hothers then_ hthen wanted hwanted hhas
        obtain ⟨old, hold, rfl | ⟨hsame, rfl⟩⟩ := hfind other then_ hthen
        · exact h.spelled other others hothers _ hold wanted hwanted hhas
        · rw [Relation.has_add, Bool.or_eq_true] at hhas
          simp only [Relation.add, List.map_append, List.mem_append, List.map_cons,
            List.map_nil, List.mem_singleton]
          rcases hhas with hhas | hhas
          · exact .inl (h.spelled other others hothers _ hold wanted hwanted hhas)
          · have htwo := hapart _ hothers _ hstep
            simp only [Step.apart, Step.columnsOf, hsame, if_true, List.all_eq_true,
              Bool.or_eq_true, Bool.not_eq_true', beq_iff_eq] at htwo
            simp only [List.any_cons, List.any_nil, Bool.or_false] at hhas
            rcases htwo column hcolumn wanted hwanted with hname | hname
            · rw [hname] at hhas
              cases hhas
            · exact .inr hname
      · exact fun name others hothers hthen => h.tableNames name others hothers (hnone name hthen)
      · intro name index hindex
        rw [findTable_addColumn, h.indexNames name index hindex]
        split
        · rfl
        · rfl
      · intro name index hindex hunique hthen then_ hrelation
        have htwo := hapart _ hindex _ hstep
        simp only [Step.apart, hunique, Bool.not_true, Bool.false_or, Bool.not_eq_true'] at htwo
        obtain ⟨old, hold, rfl | ⟨hsame, -⟩⟩ := hfind index.table then_ hrelation
        · exact h.unique name index hindex hunique hthen _ hold
        · rw [sameName_symm hsame] at htwo
          cases htwo
  | indexMade made index relation hrelation hfree hnone hunique =>
      have hmade : step = .execute (.createIndex made index) := by
        cases step with
        | execute other => rw [List.mem_singleton.mp hstatement]
        | ensureColumns table added =>
            obtain ⟨_, _, heq⟩ := List.mem_map.mp hstatement
            cases heq
      subst hmade
      refine ⟨h.columns, h.spelled, ?_, h.indexNames, ?_⟩
      · intro name columns hcolumns hthen
        have htwo := hapart _ hcolumns _ hstep
        simp only [Step.apart, Bool.not_eq_true'] at htwo
        rw [findIndex_created, h.tableNames name columns hcolumns hthen, Option.none_or,
          if_neg]
        intro hsame
        rw [sameName_symm hsame] at htwo
        cases htwo
      · intro name other hother hunique hthen
        rw [findIndex_created] at hthen
        exact h.unique name other hother hunique (Option.or_eq_none_iff.mp hthen).1

/-! ## Scripts that run to their end -/

/-- The steps of a script, next to those of the other scripts for the file. -/
structure Orderly (null : V) (steps script : List (Step V)) : Prop where
  among : ∀ step ∈ script, step ∈ steps
  apart : ∀ a ∈ steps, ∀ b ∈ steps, Step.apart a b = true
  only : ∀ step ∈ steps, ∀ table column, step ≠ .execute (.addColumn table column)
  order : inOrder null [] script = true

variable {script : List (Step V)} {faults : Faults} {file : Catalog V}

/-- A script that returns has run all of its steps. -/
theorem runScript_eq_ok {final : Catalog V}
    (h : runScript null faults script file = (.ok wrote, final)) :
    ∃ ran, script.foldlM (runStep null faults) ⟨file, false, 1⟩ = .ok ran ∧ final = ran.db := by
  unfold runScript Effect.atomic at h
  split at h
  · next hbody =>
    cases h
    obtain ⟨opened, hbegin, hbody⟩ := bind_eq_ok.mp hbody
    obtain ⟨ran, hsteps, hbody⟩ := bind_eq_ok.mp hbody
    obtain ⟨closed, hcommit, heq⟩ := bind_eq_ok.mp hbody
    cases heq
    obtain rfl := call_eq_ok hbegin
    obtain rfl := call_eq_ok hcommit
    exact ⟨ran, hsteps, rfl⟩
  · cases h

/-- A script that raises leaves the file as it was. -/
theorem runScript_raised {final : Catalog V} {error : SqlError}
    (h : runScript null faults script file = (.error error, final)) : final = file := by
  unfold runScript Effect.atomic at h
  split at h
  · cases h
  · cases h
    rfl

theorem runScript_upToDate {final : Catalog V}
    (h : runScript null faults script file = (.ok wrote, final)) :
    ∀ step ∈ script, UpToDate final step := by
  obtain ⟨ran, hsteps, rfl⟩ := runScript_eq_ok h
  exact runSteps_upToDate hsteps

theorem runScript_induction {P : Catalog V → Prop}
    (keeps : ∀ step ∈ script, ∀ statement ∈ step.statements, ∀ db after wrote, P db →
      Executed null db statement (after, wrote) → P after)
    (start : P file) : P (runScript null faults script file).2 := by
  cases hrun : runScript null faults script file with
  | mk result final =>
      cases result with
      | error error =>
          rw [runScript_raised hrun]
          exact start
      | ok wrote =>
          obtain ⟨ran, hsteps, rfl⟩ := runScript_eq_ok hrun
          exact runSteps_induction keeps hsteps start

theorem runScript_grown : Grown file (runScript null faults script file).2 :=
  runScript_induction (fun _ _ _ _ _ _ _ hgrown hdone => hgrown.trans hdone.grown) (.refl file)

/-- A script that has run writes nothing. -/
theorem runScript_again (horderly : Orderly null steps script)
    (h : ∀ step ∈ script, UpToDate file step) :
    runScript null .none script file = (.ok false, file) := by
  obtain ⟨calls, hrun⟩ : ∃ calls, script.foldlM (runStep null .none) ⟨file, false, 1⟩ =
      .ok ⟨file, false, calls⟩ :=
    runSteps_again h fun step hstep => horderly.only step (horderly.among step hstep)
  simp only [runScript, Effect.atomic, call, Faults.none, bind, Except.bind]
  rw [hrun]

end

end EdgeBridge.Foundation.Ddl
