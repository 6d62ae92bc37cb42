import EdgeBridge.Store.DaySummary

/-!
# Legacy responses

`parse_stored_odoo_response` reads JSON or the `repr` that earlier versions stored;
`_production_metadata_from_response` reads JSON only.  A legacy row is replayed with its
ACK and reconciled without its metadata.
-/

namespace EdgeBridge

open Foundation Json

def integerFields : List Text :=
  [str "customer_id", str "operator_id", str "number_of_operators"]

def textFields : List Text :=
  [str "customer_name", str "operator_name", str "batch_number"]

/-- No field of the result holds an integer, or a text, that would be read. -/
def NoMetadata (result : List (Text × PyValue)) : Prop :=
  (∀ field ∈ integerFields, optionalInt (PyValue.get result field) = none) ∧
    ∀ field ∈ textFields, optionalStr (PyValue.get result field) = none

theorem ofResult_eq_none_iff {result : List (Text × PyValue)} :
    ProductionMetadata.ofResult result = .none ↔ NoMetadata result := by
  simp only [ProductionMetadata.ofResult, ProductionMetadata.none,
    ProductionMetadata.mk.injEq, NoMetadata, integerFields, textFields, List.mem_cons,
    List.not_mem_nil, or_false, forall_eq_or_imp, forall_eq]
  constructor
  · rintro ⟨hcustomer, hname, hoperator, hoperatorName, hnumber, hbatch⟩
    exact ⟨⟨hcustomer, hoperator, hnumber⟩, hname, hoperatorName, hbatch⟩
  · rintro ⟨⟨hcustomer, hoperator, hnumber⟩, hname, hoperatorName, hbatch⟩
    exact ⟨hcustomer, hname, hoperator, hoperatorName, hnumber, hbatch⟩

/-- What the replay path reads: the dictionary of a JSON text, or of a literal that is
no JSON. -/
theorem parseStored_eq_some {platform : Platform} {responseText : Text}
    {entries : List (Text × PyValue)}
    (h : parseStoredOdooResponse platform (some responseText) = .ok (some entries)) :
    loads responseText = .ok (.dict entries) ∨
      ∃ msg, loads responseText = .error (.jsonDecodeError msg) ∧
        platform.literalEval responseText = some (.dict entries) := by
  have hdict : ∀ {value : PyValue}, dictOnly value = some entries → value = .dict entries := by
    intro value hvalue
    cases value with
    | dict found =>
        cases hvalue
        rfl
    | _ => cases hvalue
  cases responseText with
  | nil => cases h
  | cons c rest =>
      unfold parseStoredOdooResponse at h
      split at h
      · cases h
      · cases h
      · next heq =>
        cases heq
        split at h
        · next parsed hloads =>
          rw [Except.ok.injEq] at h
          rw [hloads, hdict h]
          exact .inl rfl
        · next msg hloads =>
          rw [Except.ok.injEq, Option.bind_eq_some_iff] at h
          obtain ⟨value, hvalue, hentries⟩ := h
          exact .inr ⟨msg, hloads, by rw [hvalue, hdict hentries]⟩
        · cases h

/-- A row is counted with the metadata that reconciliation reads. -/
theorem rowCounted_metadata {platform : Platform} {machineId : Text} {now : Datetime}
    {row : MessageRecord} {db : Database} {record : ProductionRecord}
    (h : record ∈ rowCounted platform machineId now row db) :
    productionMetadataFromResponse (row.odooResponse.getD []) = .ok record.metadata := by
  unfold rowCounted at h
  split at h
  · next metadata hmetadata =>
    unfold countedRecord at h
    split at h
    · obtain rfl := List.mem_singleton.mp h
      exact hmetadata
    · cases h
  · cases h

/--
The two readers: on a text that the replay path reads as a response with a result,
reconciliation reads the same metadata, and counts the row with it, exactly when the
text is JSON or the result has no metadata.
-/
theorem stored_readers_agree_iff {platform : Platform} {responseText : Text}
    {entries result : List (Text × PyValue)}
    (stored : parseStoredOdooResponse platform (some responseText) = .ok (some entries))
    (hresult : PyValue.get entries (str "result") = .dict result) :
    (productionMetadataFromResponse responseText = .ok (.ofResult result) ↔
      (∃ value, loads responseText = .ok value) ∨ NoMetadata result) ∧
    ∀ (machineId : Text) (now : Datetime) (row : MessageRecord) (db : Database)
      (record : ProductionRecord), row.odooResponse = some responseText →
      record ∈ rowCounted platform machineId now row db →
      (record.metadata = .ofResult result ↔
        (∃ value, loads responseText = .ok value) ∨ NoMetadata result) := by
  have hagree : productionMetadataFromResponse responseText = .ok (.ofResult result) ↔
      (∃ value, loads responseText = .ok value) ∨ NoMetadata result := by
    obtain hloads | ⟨msg, hloads, -⟩ := parseStored_eq_some stored
    · simp [productionMetadataFromResponse, hloads, storedMetadata_eq,
        extractDashboardMetadata, hresult]
    · rw [← ofResult_eq_none_iff]
      simp [productionMetadataFromResponse, hloads, eq_comm]
  refine ⟨hagree, ?_⟩
  intro machineId now row db record hresponse hcounted
  have hmetadata := rowCounted_metadata hcounted
  rw [hresponse, Option.getD_some] at hmetadata
  rw [← hagree, hmetadata, Except.ok.injEq]

/-! ## A response of an earlier version -/

/-- `{'success': True, 'result': {'ACK': 'A1', 'customer_id': 7}}` -/
def legacyResponse : Text :=
  str "\x7b'success': True, 'result': \x7b'ACK': 'A1', 'customer_id': 7\x7d\x7d"

def legacyResult : List (Text × PyValue) :=
  [(str "ACK", .text (str "A1")), (str "customer_id", .int 7)]

def legacyEntries : List (Text × PyValue) :=
  [(str "success", .bool true), (str "result", .dict legacyResult)]

/-- A platform whose `literal_eval` inverts this `repr`. -/
def legacyPlatform : Platform :=
  { samplePlatform with
    literalEval := fun text => if text = legacyResponse then some (.dict legacyEntries) else none }

theorem legacyResponse_not_json :
    ∃ msg, loads legacyResponse = .error (.jsonDecodeError msg) := ⟨_, rfl⟩

theorem parseStored_legacyResponse :
    parseStoredOdooResponse legacyPlatform (some legacyResponse) =
      .ok (some legacyEntries) := by
  obtain ⟨msg, hloads⟩ := legacyResponse_not_json
  have hliteral : legacyPlatform.literalEval legacyResponse = some (.dict legacyEntries) :=
    by simp [legacyPlatform]
  rw [parseStoredOdooResponse]
  · simp [hloads, hliteral, dictOnly]
  · intro hnil
    cases hnil

/-- The ACK is replayed, and the customer is lost. -/
theorem legacy_customer_lost :
    parseStoredOdooResponse legacyPlatform (some legacyResponse) = .ok (some legacyEntries) ∧
      PyValue.get legacyEntries (str "result") = .dict legacyResult ∧
      extractStoredAck legacyEntries = some (str "A1") ∧
      productionMetadataFromResponse legacyResponse ≠ .ok (.ofResult legacyResult) := by
  refine ⟨parseStored_legacyResponse, rfl, rfl, ?_⟩
  obtain ⟨msg, hloads⟩ := legacyResponse_not_json
  simp only [productionMetadataFromResponse, hloads, ne_eq, Except.ok.injEq]
  intro h
  have hcustomer := congrArg ProductionMetadata.customerId h
  cases hcustomer

theorem stored_readers_agree_iff_sample :
    productionMetadataFromResponse legacyResponse = .ok (.ofResult legacyResult) ↔
      (∃ value, loads legacyResponse = .ok value) ∨ NoMetadata legacyResult :=
  (stored_readers_agree_iff parseStored_legacyResponse rfl).1

end EdgeBridge
