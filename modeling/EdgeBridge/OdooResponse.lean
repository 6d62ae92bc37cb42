import EdgeBridge.Foundation.JsonRoundTrip
import EdgeBridge.Schema

/-!
# Odoo responses

What the program reads out of a response, once from the value that
`xmlrpc.client` built and once from the text that SQLite stores of it, and that
both readings agree.
-/

namespace EdgeBridge

open Foundation Json

/-! ## Values of an XML-RPC response -/

mutual

/-- The values that `xmlrpc.client` can unmarshal: structures with distinct
names, texts of XML characters, integers of any size, and objects of its own
classes. -/
def unmarshalled : PyValue → Bool
  | .none => true
  | .bool _ => true
  | .int _ => true
  | .float literal => isFloatLiteral literal
  | .text value => value.encodable
  | .list items => unmarshalledItems items
  | .dict entries =>
      decide (entries.map Prod.fst).Nodup && unmarshalledEntries entries
  | .object => true

def unmarshalledItems : List PyValue → Bool
  | [] => true
  | value :: rest => unmarshalled value && unmarshalledItems rest

def unmarshalledEntries : List (Text × PyValue) → Bool
  | [] => true
  | (key, value) :: rest =>
      key.encodable && unmarshalled value && unmarshalledEntries rest

end

structure OdooResponse where
  value : PyValue
  unmarshalled : unmarshalled value = true

mutual

/-- An unmarshalled value that `json.dumps` accepts comes back from its text. -/
theorem plain_of_unmarshalled : ∀ value depth, unmarshalled value = true →
    defect depth value = none → plain value = true
  | .none, _, _, _ => rfl
  | .bool _, _, _, _ => rfl
  | .int value, _, _, h => by
      simp only [defect] at h
      split at h
      · next hdigits => simpa [plain] using hdigits
      · cases h
  | .float _, _, h, _ => h
  | .text _, _, h, _ => h
  | .list items, depth, h, hdefect => by
      rw [defect] at hdefect
      split at hdefect
      · cases hdefect
      · exact plainItems_of_unmarshalled items (depth - 1) h hdefect
  | .dict entries, depth, h, hdefect => by
      simp only [unmarshalled, Bool.and_eq_true] at h
      simp only [plain, h.1, Bool.true_and]
      rw [defect] at hdefect
      split at hdefect
      · cases hdefect
      · exact plainEntries_of_unmarshalled entries (depth - 1) h.2 hdefect
  | .object, _, _, h => by simp [defect] at h

theorem plainItems_of_unmarshalled : ∀ items depth, unmarshalledItems items = true →
    defectItems depth items = none → plainItems items = true
  | [], _, _, _ => rfl
  | value :: rest, depth, h, hdefect => by
      simp only [unmarshalledItems, Bool.and_eq_true] at h
      simp only [defectItems, Option.or_eq_none_iff] at hdefect
      simp only [plainItems, Bool.and_eq_true]
      exact ⟨plain_of_unmarshalled value depth h.1 hdefect.1,
        plainItems_of_unmarshalled rest depth h.2 hdefect.2⟩

theorem plainEntries_of_unmarshalled : ∀ entries depth,
    unmarshalledEntries entries = true → defectEntries depth entries = none →
      plainEntries entries = true
  | [], _, _, _ => rfl
  | (key, value) :: rest, depth, h, hdefect => by
      simp only [unmarshalledEntries, Bool.and_eq_true] at h
      simp only [defectEntries, Option.or_eq_none_iff] at hdefect
      simp only [plainEntries, Bool.and_eq_true]
      exact ⟨⟨h.1.1, plain_of_unmarshalled value depth h.1.2 hdefect.1⟩,
        plainEntries_of_unmarshalled rest depth h.2 hdefect.2⟩

end

/-! ## The live response -/

/-- A nonempty string; anything else counts as absent. -/
def nonemptyText : PyValue → Option Text
  | .text [] => none
  | .text value => some value
  | _ => none

/-- `extract_stored_ack`: the ACK of a response, whatever its success flag. -/
def extractStoredAck (response : List (Text × PyValue)) : Option Text :=
  match PyValue.get response (str "result") with
  | .dict result => nonemptyText (PyValue.get result (str "ACK"))
  | _ => none

def isSuccess (response : List (Text × PyValue)) : Bool :=
  match PyValue.get response (str "success") with
  | .bool true => true
  | _ => false

/-- `extract_ack`: the ACK of a successful response. -/
def extractAck : PyValue → Option Text
  | .dict response => if isSuccess response then extractStoredAck response else none
  | _ => none

def missingSuccessFlag : Text := str "Invalid Odoo response: missing success flag"

/-- `get_odoo_business_error`: the error of a response that is no success. -/
def getOdooBusinessError : PyValue → Option Text
  | .dict response =>
      match PyValue.get response (str "success") with
      | .bool true => none
      | .bool false =>
          some ((nonemptyText (PyValue.get response (str "error"))).getD
            (str "Odoo business operation failed"))
      | _ => some missingSuccessFlag
  | _ => some missingSuccessFlag

def nonRetryableBusinessErrors : List Text :=
  [str "Nothing to check the availability for."]

def isNonRetryableBusinessError (error : Text) : Bool :=
  nonRetryableBusinessErrors.contains (Text.strip error)

/-- `_optional_int`: an `int` that is no `bool`. -/
def optionalInt : PyValue → Option Int
  | .int value => some value
  | _ => none

/-- `_optional_str`. -/
def optionalStr : PyValue → Option Text
  | .text value => if value.isEmpty then none else some value
  | _ => none

structure ProductionMetadata where
  customerId : Option Int
  customerName : Option Text
  operatorId : Option Int
  operatorName : Option Text
  numberOfOperators : Option Int
  batchNumber : Option Text
  deriving DecidableEq

namespace ProductionMetadata

def none : ProductionMetadata := ⟨.none, .none, .none, .none, .none, .none⟩

def ofResult (result : List (Text × PyValue)) : ProductionMetadata where
  customerId := optionalInt (PyValue.get result (str "customer_id"))
  customerName := optionalStr (PyValue.get result (str "customer_name"))
  operatorId := optionalInt (PyValue.get result (str "operator_id"))
  operatorName := optionalStr (PyValue.get result (str "operator_name"))
  numberOfOperators := optionalInt (PyValue.get result (str "number_of_operators"))
  batchNumber := optionalStr (PyValue.get result (str "batch_number"))

/-- The given fields, and for each absent one that of `fallback`. -/
def orElse (metadata fallback : ProductionMetadata) : ProductionMetadata where
  customerId := metadata.customerId.or fallback.customerId
  customerName := metadata.customerName.or fallback.customerName
  operatorId := metadata.operatorId.or fallback.operatorId
  operatorName := metadata.operatorName.or fallback.operatorName
  numberOfOperators := metadata.numberOfOperators.or fallback.numberOfOperators
  batchNumber := metadata.batchNumber.or fallback.batchNumber

theorem orElse_self (metadata : ProductionMetadata) :
    metadata.orElse metadata = metadata := by
  cases metadata
  simp [orElse]

end ProductionMetadata

/-- `extract_dashboard_metadata`. -/
def extractDashboardMetadata : PyValue → ProductionMetadata
  | .dict response =>
      match PyValue.get response (str "result") with
      | .dict result => .ofResult result
      | _ => .none
  | _ => .none

/-! ## The stored response -/

/-- `_metadata_int`. -/
def metadataInt : PyValue → Option Int
  | .none => none
  | .int value => some value
  | _ => none

/-- `_metadata_str`. -/
def metadataStr : PyValue → Option Text
  | .none => none
  | .text value => if value = [] then none else some value
  | _ => none

/-- What `_production_metadata_from_response` reads out of the parsed text. -/
def storedMetadata : PyValue → ProductionMetadata
  | .dict parsed =>
      match PyValue.get parsed (str "result") with
      | .dict result =>
          { customerId := metadataInt (PyValue.get result (str "customer_id"))
            customerName := metadataStr (PyValue.get result (str "customer_name"))
            operatorId := metadataInt (PyValue.get result (str "operator_id"))
            operatorName := metadataStr (PyValue.get result (str "operator_name"))
            numberOfOperators := metadataInt (PyValue.get result (str "number_of_operators"))
            batchNumber := metadataStr (PyValue.get result (str "batch_number")) }
      | _ => .none
  | _ => .none

/-- `_production_metadata_from_response`. -/
def productionMetadataFromResponse (odooResponse : Text) :
    Except PyError ProductionMetadata :=
  match loads odooResponse with
  | .ok parsed => .ok (storedMetadata parsed)
  | .error (.jsonDecodeError _) => .ok .none
  | .error error => .error error

def dictOnly : PyValue → Option (List (Text × PyValue))
  | .dict entries => some entries
  | _ => none

/-- `parse_stored_odoo_response`: JSON, or else a Python literal. -/
def parseStoredOdooResponse (platform : Platform) :
    Option Text → Except PyError (Option (List (Text × PyValue)))
  | none => .ok none
  | some [] => .ok none
  | some responseText =>
      match loads responseText with
      | .ok parsed => .ok (dictOnly parsed)
      | .error (.jsonDecodeError _) =>
          .ok ((platform.literalEval responseText).bind dictOnly)
      | .error error => .error error

/-- `json.dumps(response)`. -/
def dumpResponse (response : OdooResponse) : Except PyError Text :=
  dumps defaultSeparators response.value

/-! ## Agreement -/

theorem metadataInt_eq (value : PyValue) : metadataInt value = optionalInt value := by
  cases value <;> rfl

theorem metadataStr_eq (value : PyValue) : metadataStr value = optionalStr value := by
  cases value with
  | text value => cases value <;> rfl
  | _ => rfl

/-- The readers of the worker and of the database differ in their log lines only. -/
theorem storedMetadata_eq (parsed : PyValue) :
    storedMetadata parsed = extractDashboardMetadata parsed := by
  cases parsed with
  | dict parsed =>
      simp only [storedMetadata, extractDashboardMetadata]
      cases PyValue.get parsed (str "result") with
      | dict result =>
          simp only [ProductionMetadata.ofResult, metadataInt_eq, metadataStr_eq]
      | _ => rfl
  | _ => rfl

theorem nonemptyText_ne_nil {value : PyValue} {text : Text}
    (h : nonemptyText value = some text) : text ≠ [] := by
  unfold nonemptyText at h
  split at h
  · cases h
  · next hne =>
    cases h
    exact hne
  · cases h

theorem extractAck_eq_some {response : PyValue} {ack : Text} :
    extractAck response = some ack ↔
      ∃ entries, response = .dict entries ∧ isSuccess entries = true ∧
        extractStoredAck entries = some ack := by
  cases response with
  | dict entries =>
      simp only [extractAck, Option.ite_none_right_eq_some, PyValue.dict.injEq,
        exists_eq_left']
  | none | bool | int | float | text | list | object => simp [extractAck]

theorem extractStoredAck_ne_nil {entries : List (Text × PyValue)} {ack : Text}
    (h : extractStoredAck entries = some ack) : ack ≠ [] := by
  unfold extractStoredAck at h
  split at h
  · exact nonemptyText_ne_nil h
  · cases h

/-- An acknowledged response is no business error. -/
theorem businessError_of_extractAck {response : PyValue} {ack : Text}
    (h : extractAck response = some ack) : getOdooBusinessError response = none := by
  obtain ⟨entries, rfl, hsuccess, -⟩ := extractAck_eq_some.mp h
  unfold isSuccess at hsuccess
  unfold getOdooBusinessError
  split at hsuccess
  · next hflag => simp [hflag]
  · cases hsuccess

theorem unmarshalled_of_mem {key : Text} {value : PyValue} :
    ∀ {entries : List (Text × PyValue)}, unmarshalledEntries entries = true →
      (key, value) ∈ entries → unmarshalled value = true
  | [], _, hmem => by cases hmem
  | (other, first) :: rest, h, hmem => by
      rw [unmarshalledEntries, Bool.and_eq_true, Bool.and_eq_true] at h
      rcases List.mem_cons.mp hmem with heq | hrest
      · cases heq
        exact h.1.2
      · exact unmarshalled_of_mem h.2 hrest

theorem unmarshalled_get {entries : List (Text × PyValue)}
    (h : unmarshalled (.dict entries) = true) (key : Text) :
    unmarshalled (PyValue.get entries key) = true := by
  rw [unmarshalled, Bool.and_eq_true] at h
  unfold PyValue.get
  cases hlookup : entries.lookup key with
  | none => rfl
  | some value =>
      rcases List.lookup_eq_some_iff.mp hlookup with ⟨before, after, rfl, -⟩
      exact unmarshalled_of_mem h.2 (List.mem_append_right _ List.mem_cons_self)

theorem encodable_nonemptyText {value : PyValue} (h : unmarshalled value = true) :
    (nonemptyText value).all Text.encodable = true := by
  unfold nonemptyText
  split
  · rfl
  · exact h
  · rfl

theorem optionalStr_eq (value : PyValue) : optionalStr value = nonemptyText value := by
  cases value with
  | text value => cases value <;> rfl
  | _ => rfl

theorem encodable_optionalStr {value : PyValue} (h : unmarshalled value = true) :
    (optionalStr value).all Text.encodable = true := by
  rw [optionalStr_eq]
  exact encodable_nonemptyText h

/-- The texts that are read out of a response can be bound. -/
theorem encodable_of_response (response : OdooResponse) :
    (extractAck response.value).all Text.encodable = true ∧
      (extractDashboardMetadata response.value).customerName.all Text.encodable = true ∧
      (extractDashboardMetadata response.value).operatorName.all Text.encodable = true ∧
      (extractDashboardMetadata response.value).batchNumber.all Text.encodable = true := by
  rcases response with ⟨value, hvalue⟩
  cases value with
  | dict entries =>
      have hresult := unmarshalled_get hvalue (str "result")
      simp only [extractAck, extractDashboardMetadata, extractStoredAck]
      cases hget : PyValue.get entries (str "result") with
      | dict result =>
          rw [hget] at hresult
          refine ⟨?_, ?_, ?_, ?_⟩
          · split
            · exact encodable_nonemptyText (unmarshalled_get hresult _)
            · rfl
          · exact encodable_optionalStr (unmarshalled_get hresult _)
          · exact encodable_optionalStr (unmarshalled_get hresult _)
          · exact encodable_optionalStr (unmarshalled_get hresult _)
      | _ => simp [ProductionMetadata.none]
  | _ => exact ⟨rfl, rfl, rfl, rfl⟩

/-- The stored text of a response is its rendering, and reads back as the response. -/
theorem loads_of_dumpResponse {response : OdooResponse} {responseText : Text}
    (h : dumpResponse response = .ok responseText) :
    plain response.value = true ∧ responseText = render defaultSeparators response.value ∧
      loads responseText = .ok response.value := by
  unfold dumpResponse dumps at h
  split at h
  · cases h
  · next hdefect =>
    cases h
    have hplain := plain_of_unmarshalled _ _ response.unmarshalled hdefect
    exact ⟨hplain, rfl, (loads_dumps defaultSeparators hplain
      (nesting_le_of_defect _ _ hdefect)).2⟩

theorem parseStored_of_dumpResponse (platform : Platform) {response : OdooResponse}
    {responseText : Text} {ack : Text}
    (hdump : dumpResponse response = .ok responseText)
    (hack : extractAck response.value = some ack) :
    ∃ entries, response.value = .dict entries ∧
      parseStoredOdooResponse platform (some responseText) = .ok (some entries) ∧
      isSuccess entries = true ∧ extractStoredAck entries = some ack := by
  obtain ⟨entries, hvalue, hsuccess, hstored⟩ := extractAck_eq_some.mp hack
  have hloads := (loads_of_dumpResponse hdump).2.2
  rw [hvalue] at hloads
  refine ⟨entries, hvalue, ?_, hsuccess, hstored⟩
  cases responseText with
  | nil =>
      have : loads [] ≠ .ok (.dict entries) := by
        simp [loads, skipSpace, scanValue, fail, bind, Except.bind]
      exact absurd hloads this
  | cons c rest => simp [parseStoredOdooResponse, hloads, dictOnly]

/-- The worker's metadata and the one read from the stored text are the same. -/
theorem metadata_of_dumpResponse {response : OdooResponse} {responseText : Text}
    (h : dumpResponse response = .ok responseText) :
    productionMetadataFromResponse responseText =
      .ok (extractDashboardMetadata response.value) := by
  simp [productionMetadataFromResponse, (loads_of_dumpResponse h).2.2, storedMetadata_eq]

end EdgeBridge
