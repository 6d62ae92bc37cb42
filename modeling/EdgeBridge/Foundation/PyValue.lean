import EdgeBridge.Foundation.Text

/-!
# Python values and exceptions

The values that `json.loads` builds and that an XML-RPC response may hold.  A
float is kept as the literal that denotes it.  `object` stands for a value of a
class that JSON cannot represent, such as `xmlrpc.client.DateTime` or `Binary`.
A dictionary is the list of its entries in insertion order.
-/

namespace EdgeBridge.Foundation

inductive PyValue where
  | none
  | bool (value : Bool)
  | int (value : Int)
  | float (literal : Text)
  | text (value : Text)
  | list (items : List PyValue)
  | dict (entries : List (Text × PyValue))
  | object

inductive PyError where
  | jsonDecodeError (msg : Text)
  | valueError (message : Text)
  | typeError
  | overflowError
  | recursionError
  | unicodeEncodeError
  | integrityError
  | operationalError (message : Text)
  | endOfFile
  | raised (message : Text)
  deriving DecidableEq, Repr

/-- A computation that returns has passed through each of its parts. -/
theorem bind_eq_ok {ε α β : Type} {first : Except ε α} {next : α → Except ε β}
    {result : β} :
    (first >>= next) = .ok result ↔ ∃ a, first = .ok a ∧ next a = .ok result := by
  cases first with
  | error error => simp [bind, Except.bind]
  | ok a => simp [bind, Except.bind]

namespace PyValue

/-- `entries.get(key)`, with `None` for an absent key. -/
def get (entries : List (Text × PyValue)) (key : Text) : PyValue :=
  (entries.lookup key).getD .none

/-- `entries[key] = value`: a repeated key keeps its place and takes the value. -/
def setItem (key : Text) (value : PyValue) :
    List (Text × PyValue) → List (Text × PyValue)
  | [] => [(key, value)]
  | entry :: rest =>
      if entry.1 = key then (key, value) :: rest
      else entry :: setItem key value rest

def ofPairs (pairs : List (Text × PyValue)) : List (Text × PyValue) :=
  pairs.foldl (fun entries pair => setItem pair.1 pair.2 entries) []

theorem setItem_of_notMem {key : Text} {value : PyValue}
    {entries : List (Text × PyValue)} (h : key ∉ entries.map Prod.fst) :
    setItem key value entries = entries ++ [(key, value)] := by
  induction entries with
  | nil => rfl
  | cons entry rest ih =>
      simp only [List.map_cons, List.mem_cons, not_or] at h
      simp [setItem, Ne.symm h.1, ih h.2]

private theorem foldl_setItem_of_nodup (entries pairs : List (Text × PyValue))
    (h : ((entries ++ pairs).map Prod.fst).Nodup) :
    pairs.foldl (fun entries pair => setItem pair.1 pair.2 entries) entries =
      entries ++ pairs := by
  induction pairs generalizing entries with
  | nil => simp
  | cons pair pairs ih =>
      have hkey : pair.1 ∉ entries.map Prod.fst := by
        intro hmem
        rw [List.map_append, List.nodup_append] at h
        exact h.2.2 _ hmem _ (by simp) rfl
      rw [List.foldl_cons, setItem_of_notMem hkey, ih]
      · simp
      · simpa using h

/-- Distinct keys are kept as they come. -/
theorem ofPairs_of_nodup {pairs : List (Text × PyValue)}
    (h : (pairs.map Prod.fst).Nodup) : ofPairs pairs = pairs :=
  foldl_setItem_of_nodup [] pairs (by simpa using h)

theorem mem_keys_setItem {key other : Text} {value : PyValue}
    {entries : List (Text × PyValue)} :
    other ∈ (setItem key value entries).map Prod.fst ↔
      other = key ∨ other ∈ entries.map Prod.fst := by
  induction entries with
  | nil => simp [setItem]
  | cons entry rest ih =>
      rw [setItem]
      split
      · next hkey => simp [hkey]
      · rw [List.map_cons, List.mem_cons, ih, List.map_cons, List.mem_cons, or_left_comm]

private theorem mem_keys_foldl_setItem {key : Text} (entries pairs : List (Text × PyValue)) :
    key ∈ (pairs.foldl (fun entries pair => setItem pair.1 pair.2 entries) entries).map
        Prod.fst ↔ key ∈ entries.map Prod.fst ∨ key ∈ pairs.map Prod.fst := by
  induction pairs generalizing entries with
  | nil => simp
  | cons pair pairs ih =>
      rw [List.foldl_cons, ih, mem_keys_setItem, List.map_cons, List.mem_cons,
        @or_comm (key = pair.1), or_assoc]

/-- No key is lost, and none is new. -/
theorem mem_keys_ofPairs {key : Text} {pairs : List (Text × PyValue)} :
    key ∈ (ofPairs pairs).map Prod.fst ↔ key ∈ pairs.map Prod.fst := by
  rw [ofPairs, mem_keys_foldl_setItem]
  simp

end PyValue

end EdgeBridge.Foundation
