import EdgeBridge.Foundation.PyValue

/-!
# `json.loads` and `json.dumps`

The scanner of the standard library, with its error messages, and its encoder
with `ensure_ascii`.  Integers of more than `maxStrDigits` digits raise a plain
`ValueError` in both directions, and more than `maxNesting` containers inside each
other a `RecursionError`.
-/

namespace EdgeBridge.Foundation.Json

/-- `sys.get_int_max_str_digits()`. -/
def maxStrDigits : Nat := 4300

/-- The containers inside each other that CPython 3.12 scans or encodes before its C
recursion limit is reached. -/
def maxNesting : Nat := 9997

def isAsciiDigit (c : Nat) : Bool := 48 ≤ c && c ≤ 57

def isJsonSpace (c : Nat) : Bool := c == 32 || c == 9 || c == 10 || c == 13

def skipSpace (text : Text) : Text := text.dropWhile isJsonSpace

def fail {α : Type} (msg : String) : Except PyError α :=
  .error (.jsonDecodeError (str msg))

/-! ## Strings -/

def hexValue (c : Nat) : Option Nat :=
  if 48 ≤ c ∧ c ≤ 57 then some (c - 48)
  else if 97 ≤ c ∧ c ≤ 102 then some (c - 87)
  else if 65 ≤ c ∧ c ≤ 70 then some (c - 55)
  else none

def hex4 : Text → Option (Nat × Text)
  | a :: b :: c :: d :: rest => do
      let a ← hexValue a
      let b ← hexValue b
      let c ← hexValue c
      let d ← hexValue d
      some (a * 4096 + b * 256 + c * 16 + d, rest)
  | _ => none

def isHighSurrogate (code : Nat) : Bool := 0xd800 ≤ code && code < 0xdc00

def isLowSurrogate (code : Nat) : Bool := 0xdc00 ≤ code && code < 0xe000

def joinSurrogates (high low : Nat) : Nat :=
  0x10000 + (high - 0xd800) * 0x400 + (low - 0xdc00)

/-- The low half that may follow a high surrogate; the scanner does not look
for it in the last six characters of the text. -/
def scanLowSurrogate (high : Nat) (rest : Text) : Except PyError (Nat × Text) :=
  match rest with
  | 92 :: 117 :: low =>
      if low.length ≤ 4 then .ok (high, rest)
      else
        match hex4 low with
        | none => fail "Invalid \\uXXXX escape"
        | some (code, after) =>
            if isLowSurrogate code then .ok (joinSurrogates high code, after)
            else .ok (high, rest)
  | _ => .ok (high, rest)

/-- The part of an escape after `\u`. -/
def scanUnicode (text : Text) : Except PyError (Nat × Text) :=
  match hex4 text with
  | none => fail "Invalid \\uXXXX escape"
  | some (_, []) => fail "Invalid \\uXXXX escape"
  | some (code, rest) =>
      if isHighSurrogate code then scanLowSurrogate code rest
      else .ok (code, rest)

/-- The part of an escape after the backslash. -/
def scanEscape : Text → Except PyError (Nat × Text)
  | [] => fail "Unterminated string starting at"
  | 34 :: rest => .ok (34, rest)
  | 92 :: rest => .ok (92, rest)
  | 47 :: rest => .ok (47, rest)
  | 98 :: rest => .ok (8, rest)
  | 102 :: rest => .ok (12, rest)
  | 110 :: rest => .ok (10, rest)
  | 114 :: rest => .ok (13, rest)
  | 116 :: rest => .ok (9, rest)
  | 117 :: rest => scanUnicode rest
  | _ :: _ => fail "Invalid \\escape"

/-- A string after its opening quote; each round consumes a character. -/
def scanString : Nat → Text → Except PyError (Text × Text)
  | _, [] => fail "Unterminated string starting at"
  | 0, _ => fail "Unterminated string starting at"
  | fuel + 1, c :: rest =>
      if c = 34 then .ok ([], rest)
      else if c = 92 then do
        let (code, rest) ← scanEscape rest
        let (text, rest) ← scanString fuel rest
        .ok (code :: text, rest)
      else if c < 32 then fail "Invalid control character at"
      else do
        let (text, rest) ← scanString fuel rest
        .ok (c :: text, rest)

/-! ## Numbers -/

def signPart : Text → Text × Text
  | 45 :: rest => ([45], rest)
  | text => ([], text)

def intPart : Text → Option (Text × Text)
  | [] => none
  | c :: rest =>
      if c = 48 then some ([48], rest)
      else if isAsciiDigit c then
        some (c :: rest.takeWhile isAsciiDigit, rest.dropWhile isAsciiDigit)
      else none

/-- A nonempty run of digits, or nothing. -/
def digitRun (text : Text) : Option (Text × Text) :=
  match text with
  | [] => none
  | c :: _ =>
      if isAsciiDigit c then
        some (text.takeWhile isAsciiDigit, text.dropWhile isAsciiDigit)
      else none

def fracPart (text : Text) : Text × Text :=
  match text with
  | [] => ([], [])
  | c :: rest =>
      if c = 46 then
        match digitRun rest with
        | some (digits, rest) => (46 :: digits, rest)
        | none => ([], text)
      else ([], text)

def expSign : Text → Text × Text
  | [] => ([], [])
  | c :: rest => if c = 43 ∨ c = 45 then ([c], rest) else ([], c :: rest)

def expPart (text : Text) : Text × Text :=
  match text with
  | [] => ([], [])
  | c :: rest =>
      if c = 101 ∨ c = 69 then
        match digitRun (expSign rest).2 with
        | some (digits, after) => (c :: (expSign rest).1 ++ digits, after)
        | none => ([], text)
      else ([], text)

/-- The longest number literal at the front, and whether it denotes a float. -/
def numberToken (text : Text) : Option (Text × Text × Bool) :=
  (intPart (signPart text).2).map fun (digits, rest) =>
    let frac := fracPart rest
    let exp := expPart frac.2
    ((signPart text).1 ++ digits ++ frac.1 ++ exp.1, exp.2,
      !(frac.1.isEmpty && exp.1.isEmpty))

/-- `int(literal)` of an integer literal. -/
def intOfLiteral : Text → Int
  | 45 :: digits => -(Text.digitsValue digits : Int)
  | digits => Text.digitsValue digits

def digitCount (literal : Text) : Nat := (signPart literal).2.length

def scanNumber (text : Text) : Except PyError (PyValue × Text) :=
  match numberToken text with
  | none => fail "Expecting value"
  | some (token, rest, true) => .ok (.float token, rest)
  | some (token, rest, false) =>
      if digitCount token ≤ maxStrDigits then .ok (.int (intOfLiteral token), rest)
      else .error (.valueError (str "Exceeds the limit for integer string conversion"))

/-! ## Values -/

/-- The literals that are fixed words. -/
def keywords : List (Text × PyValue) :=
  [(str "null", .none), (str "true", .bool true), (str "false", .bool false),
   (str "NaN", .float (str "NaN")), (str "Infinity", .float (str "Infinity")),
   (str "-Infinity", .float (str "-Infinity"))]

def scanKeyword (text : Text) : Option (PyValue × Text) :=
  (keywords.find? fun word => word.1.isPrefixOf text).map fun word =>
    (word.2, text.drop word.1.length)

mutual

/-- One value.  `depth` is how many containers may still be opened inside each other; the
fuel goes down with each call, and two units for a character last to the end. -/
def scanValue (depth : Nat) : Nat → Text → Except PyError (PyValue × Text)
  | 0, _ => fail "Expecting value"
  | _, [] => fail "Expecting value"
  | fuel + 1, c :: rest =>
      if c = 34 then do
        let (text, rest) ← scanString rest.length rest
        .ok (.text text, rest)
      else if c = 123 then
        if depth = 0 then .error .recursionError
        else if (skipSpace rest).head? = some 125 then .ok (.dict [], (skipSpace rest).tail)
        else do
          let (pairs, rest) ← scanEntries (depth - 1) fuel (skipSpace rest)
          .ok (.dict (PyValue.ofPairs pairs), rest)
      else if c = 91 then
        if depth = 0 then .error .recursionError
        else if (skipSpace rest).head? = some 93 then .ok (.list [], (skipSpace rest).tail)
        else do
          let (items, rest) ← scanItems (depth - 1) fuel (skipSpace rest)
          .ok (.list items, rest)
      else
        match scanKeyword (c :: rest) with
        | some found => .ok found
        | none => scanNumber (c :: rest)

/-- The items of a list from the first one on. -/
def scanItems (depth : Nat) : Nat → Text → Except PyError (List PyValue × Text)
  | 0, _ => fail "Expecting value"
  | fuel + 1, text => do
      let (value, rest) ← scanValue depth fuel text
      match skipSpace rest with
      | 93 :: rest => .ok ([value], rest)
      | 44 :: rest =>
          let (values, rest) ← scanItems depth fuel (skipSpace rest)
          .ok (value :: values, rest)
      | _ => fail "Expecting ',' delimiter"

/-- The entries of an object from the first key on. -/
def scanEntries (depth : Nat) : Nat → Text → Except PyError (List (Text × PyValue) × Text)
  | 0, _ => fail "Expecting property name enclosed in double quotes"
  | fuel + 1, text =>
      match text with
      | 34 :: rest => do
          let (key, rest) ← scanString rest.length rest
          match skipSpace rest with
          | 58 :: rest =>
              let (value, rest) ← scanValue depth fuel (skipSpace rest)
              match skipSpace rest with
              | 125 :: rest => .ok ([(key, value)], rest)
              | 44 :: rest =>
                  let (pairs, rest) ← scanEntries depth fuel (skipSpace rest)
                  .ok ((key, value) :: pairs, rest)
              | _ => fail "Expecting ',' delimiter"
          | _ => fail "Expecting ':' delimiter"
      | _ => fail "Expecting property name enclosed in double quotes"

end

/-- `json.loads(text)` of a `str`. -/
def loads (text : Text) : Except PyError PyValue :=
  if text.head? = some 0xfeff then
    fail "Unexpected UTF-8 BOM (decode using utf-8-sig)"
  else do
    let (value, rest) ← scanValue maxNesting (2 * text.length + 2) (skipSpace text)
    if (skipSpace rest).isEmpty then .ok value else fail "Extra data"

/-! ## Encoding -/

def hexDigit (n : Nat) : Nat := if n < 10 then 48 + n else 87 + n

def unicodeEscape (code : Nat) : Text :=
  [92, 117, hexDigit (code / 4096 % 16), hexDigit (code / 256 % 16),
   hexDigit (code / 16 % 16), hexDigit (code % 16)]

def escapeChar (c : Nat) : Text :=
  if c = 34 then [92, 34]
  else if c = 92 then [92, 92]
  else if c = 10 then [92, 110]
  else if c = 13 then [92, 114]
  else if c = 9 then [92, 116]
  else if c = 12 then [92, 102]
  else if c = 8 then [92, 98]
  else if 32 ≤ c ∧ c ≤ 126 then [c]
  else if c < 0x10000 then unicodeEscape c
  else
    unicodeEscape (0xd800 + (c - 0x10000) / 0x400) ++
      unicodeEscape (0xdc00 + (c - 0x10000) % 0x400)

def quote (text : Text) : Text := 34 :: text.flatMap escapeChar ++ [34]

/-- `separators=("," + itemPad, ":" + keyPad)`; the pads are white space. -/
structure Separators where
  itemPad : Text
  keyPad : Text
  itemPad_space : itemPad.all isJsonSpace = true
  keyPad_space : keyPad.all isJsonSpace = true

namespace Separators

def item (sep : Separators) : Text := 44 :: sep.itemPad

def key (sep : Separators) : Text := 58 :: sep.keyPad

end Separators

def defaultSeparators : Separators := ⟨str " ", str " ", rfl, rfl⟩

def compactSeparators : Separators := ⟨[], [], rfl, rfl⟩

mutual

def render (sep : Separators) : PyValue → Text
  | .none => str "null"
  | .bool true => str "true"
  | .bool false => str "false"
  | .int value => Text.decimalInt value
  | .float literal => literal
  | .text value => quote value
  | .list items => 91 :: renderItems sep items
  | .dict entries => 123 :: renderEntries sep entries
  | .object => []

/-- The items with their closing bracket. -/
def renderItems (sep : Separators) : List PyValue → Text
  | [] => [93]
  | [value] => render sep value ++ [93]
  | value :: next :: rest =>
      render sep value ++ sep.item ++ renderItems sep (next :: rest)

/-- The entries with their closing brace. -/
def renderEntries (sep : Separators) : List (Text × PyValue) → Text
  | [] => [125]
  | [(key, value)] => quote key ++ sep.key ++ render sep value ++ [125]
  | (key, value) :: next :: rest =>
      quote key ++ sep.key ++ render sep value ++ sep.item ++
        renderEntries sep (next :: rest)

end

mutual

/-- The exception of the first part that cannot be encoded. -/
def defect (depth : Nat) : PyValue → Option PyError
  | .int value =>
      if digitCount (Text.decimalInt value) ≤ maxStrDigits then none
      else some (.valueError (str "Exceeds the limit for integer string conversion"))
  | .list items =>
      if depth = 0 then some .recursionError else defectItems (depth - 1) items
  | .dict entries =>
      if depth = 0 then some .recursionError else defectEntries (depth - 1) entries
  | .object => some .typeError
  | _ => none

def defectItems (depth : Nat) : List PyValue → Option PyError
  | [] => none
  | value :: rest => (defect depth value).or (defectItems depth rest)

def defectEntries (depth : Nat) : List (Text × PyValue) → Option PyError
  | [] => none
  | (_, value) :: rest => (defect depth value).or (defectEntries depth rest)

end

/-- `json.dumps(value, separators=...)`. -/
def dumps (sep : Separators) (value : PyValue) : Except PyError Text :=
  match defect maxNesting value with
  | some error => .error error
  | none => .ok (render sep value)

end EdgeBridge.Foundation.Json
