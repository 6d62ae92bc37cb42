import EdgeBridge.Foundation.Json

/-!
# `json.loads` inverts `json.dumps`

The scanner is followed over the rendered text of a value: first the tokens
(strings and numbers), then the values, by induction on their structure.  A
value is `plain` when JSON represents it exactly: no surrogates, distinct keys,
no foreign objects.
-/

namespace EdgeBridge.Foundation.Json

/-- A character that cannot lengthen a number literal, or the end. -/
def Stops (rest : Text) : Prop :=
  ∀ c, rest.head? = some c →
    isAsciiDigit c = false ∧ c ≠ 46 ∧ c ≠ 101 ∧ c ≠ 69

theorem Stops.cons {c : Nat} {rest : Text}
    (h : isAsciiDigit c = false ∧ c ≠ 46 ∧ c ≠ 101 ∧ c ≠ 69) :
    Stops (c :: rest) := by
  intro d hd
  simp only [List.head?_cons, Option.some.injEq] at hd
  exact hd ▸ h

theorem Stops.nil : Stops [] := by
  intro c hc
  simp at hc

/-! ## Strings -/

theorem hexValue_hexDigit {n : Nat} (h : n < 16) : hexValue (hexDigit n) = some n := by
  unfold hexDigit hexValue
  split
  · rw [if_pos (by omega)]
    simp
  · rw [if_neg (by omega), if_pos (by omega)]
    congr 1
    omega

theorem hex4_unicodeEscape {code : Nat} (h : code < 0x10000) (rest : Text) :
    hex4 ((unicodeEscape code).drop 2 ++ rest) = some (code, rest) := by
  have hmod : ∀ n : Nat, n % 16 < 16 := fun n => Nat.mod_lt n (by norm_num)
  simp only [unicodeEscape, List.drop_succ_cons, List.drop_zero,
    List.cons_append, List.nil_append, hex4, hexValue_hexDigit (hmod _),
    Option.bind_eq_bind, Option.bind_some, Option.some.injEq, Prod.mk.injEq,
    and_true]
  omega

theorem unicodeEscape_append (code : Nat) (rest : Text) :
    unicodeEscape code ++ rest =
      92 :: 117 :: ((unicodeEscape code).drop 2 ++ rest) := rfl

theorem scanUnicode_scalar {code : Nat} (h : code < 0x10000)
    (hscalar : Text.isScalar code = true) {rest : Text} (hrest : rest ≠ []) :
    scanUnicode ((unicodeEscape code).drop 2 ++ rest) = .ok (code, rest) := by
  rw [Text.isScalar_iff] at hscalar
  have hhigh : isHighSurrogate code = false := by
    simp [isHighSurrogate]
    omega
  cases rest with
  | nil => contradiction
  | cons c rest => simp [scanUnicode, hex4_unicodeEscape h, hhigh]

theorem scanUnicode_pair {code : Nat} (hlow : 0x10000 ≤ code)
    (hhigh : code < 0x110000) {rest : Text} (hrest : rest ≠ []) :
    scanUnicode ((unicodeEscape (0xd800 + (code - 0x10000) / 0x400)).drop 2 ++
        (unicodeEscape (0xdc00 + (code - 0x10000) % 0x400) ++ rest)) =
      .ok (code, rest) := by
  have hfirst : 0xd800 + (code - 0x10000) / 0x400 < 0xdc00 := by omega
  have hsecond : 0xdc00 + (code - 0x10000) % 0x400 < 0xe000 := by omega
  have hsurrogate :
      isHighSurrogate (0xd800 + (code - 0x10000) / 0x400) = true := by
    simp [isHighSurrogate]
    omega
  have hpartner :
      isLowSurrogate (0xdc00 + (code - 0x10000) % 0x400) = true := by
    simp [isLowSurrogate]
    omega
  have hlength : ¬ ((unicodeEscape (0xdc00 + (code - 0x10000) % 0x400)).drop 2 ++
      rest).length ≤ 4 := by
    have := List.length_pos_iff.mpr hrest
    simp [unicodeEscape]
    omega
  have hjoin : joinSurrogates (0xd800 + (code - 0x10000) / 0x400)
      (0xdc00 + (code - 0x10000) % 0x400) = code := by
    unfold joinSurrogates
    omega
  rw [unicodeEscape_append _ rest, scanUnicode, hex4_unicodeEscape (by omega)]
  simp only [hsurrogate, if_true, scanLowSurrogate, hlength, if_false,
    hex4_unicodeEscape (show 0xdc00 + (code - 0x10000) % 0x400 < 0x10000 by omega),
    hpartner, hjoin]

theorem scanEscape_unicode (text : Text) : scanEscape (117 :: text) = scanUnicode text := by
  rw [scanEscape]

/-- The ways in which a character is written. -/
inductive EscapeForm (c : Nat) : Text → Prop
  | short (d : Nat) (hc : c < 128) (hd : d < 128) (hletter : d ≠ 117)
      (hread : ∀ rest, scanEscape (d :: rest) = .ok (c, rest)) : EscapeForm c [92, d]
  | plain (hrange : 32 ≤ c ∧ c ≤ 126) (hquote : c ≠ 34) (hbackslash : c ≠ 92) :
      EscapeForm c [c]
  | unicode (hbmp : c < 0x10000) : EscapeForm c (unicodeEscape c)
  | pair (hbmp : 0x10000 ≤ c) :
      EscapeForm c (unicodeEscape (0xd800 + (c - 0x10000) / 0x400) ++
        unicodeEscape (0xdc00 + (c - 0x10000) % 0x400))

theorem escapeChar_form (c : Nat) : EscapeForm c (escapeChar c) := by
  have hshort : ∀ code d : Nat, code < 128 → d < 128 → d ≠ 117 →
      (∀ rest, scanEscape (d :: rest) = .ok (code, rest)) → c = code →
      EscapeForm c [92, d] := by
    rintro code d hcode hd hletter hread rfl
    exact .short d hcode hd hletter hread
  unfold escapeChar
  by_cases h34 : c = 34
  · rw [if_pos h34]
    exact hshort 34 34 (by decide) (by decide) (by decide) (fun _ => rfl) h34
  rw [if_neg h34]
  by_cases h92 : c = 92
  · rw [if_pos h92]
    exact hshort 92 92 (by decide) (by decide) (by decide) (fun _ => rfl) h92
  rw [if_neg h92]
  by_cases h10 : c = 10
  · rw [if_pos h10]
    exact hshort 10 110 (by decide) (by decide) (by decide) (fun _ => rfl) h10
  rw [if_neg h10]
  by_cases h13 : c = 13
  · rw [if_pos h13]
    exact hshort 13 114 (by decide) (by decide) (by decide) (fun _ => rfl) h13
  rw [if_neg h13]
  by_cases h9 : c = 9
  · rw [if_pos h9]
    exact hshort 9 116 (by decide) (by decide) (by decide) (fun _ => rfl) h9
  rw [if_neg h9]
  by_cases h12 : c = 12
  · rw [if_pos h12]
    exact hshort 12 102 (by decide) (by decide) (by decide) (fun _ => rfl) h12
  rw [if_neg h12]
  by_cases h8 : c = 8
  · rw [if_pos h8]
    exact hshort 8 98 (by decide) (by decide) (by decide) (fun _ => rfl) h8
  rw [if_neg h8]
  by_cases hrange : 32 ≤ c ∧ c ≤ 126
  · rw [if_pos hrange]
    exact .plain hrange h34 h92
  rw [if_neg hrange]
  by_cases hbmp : c < 0x10000
  · rw [if_pos hbmp]
    exact .unicode hbmp
  · rw [if_neg hbmp]
    exact .pair (by omega)

theorem bind_cons (c : Nat) (result : Except PyError (Text × Text)) :
    (result.bind fun found => .ok (c :: found.1, found.2)) =
      result.map fun found => (c :: found.1, found.2) := by
  cases result with
  | ok found => rfl
  | error error => rfl

theorem scanString_escape (fuel : Nat) {text rest : Text} {code : Nat}
    (h : scanEscape text = .ok (code, rest)) :
    scanString (fuel + 1) (92 :: text) =
      (scanString fuel rest).map fun found => (code :: found.1, found.2) := by
  rw [scanString, h]
  exact bind_cons code _

/-- One escaped character is read back, whatever follows it. -/
theorem scanString_escapeChar {c : Nat} (hc : Text.isScalar c = true)
    (fuel : Nat) {rest : Text} (hrest : rest ≠ []) :
    scanString (fuel + 1) (escapeChar c ++ rest) =
      (scanString fuel rest).map fun found => (c :: found.1, found.2) := by
  have hform := escapeChar_form c
  generalize escapeChar c = written at hform ⊢
  cases hform with
  | short d _ _ _ hread => exact scanString_escape fuel (hread rest)
  | plain hrange hquote hbackslash =>
      have hspace : ¬ c < 32 := by omega
      simp only [List.cons_append, List.nil_append, scanString, hquote, hbackslash, hspace,
        if_false]
      exact bind_cons c _
  | unicode hbmp =>
      have hread := scanUnicode_scalar hbmp hc hrest
      rw [unicodeEscape_append]
      exact scanString_escape fuel ((scanEscape_unicode _).trans hread)
  | pair hbmp =>
      have hrange : c < 0x110000 := by
        rw [Text.isScalar_iff] at hc
        omega
      have hread := scanUnicode_pair hbmp hrange hrest
      rw [List.append_assoc, unicodeEscape_append]
      exact scanString_escape fuel ((scanEscape_unicode _).trans hread)

theorem length_escapeChar_pos (c : Nat) : 0 < (escapeChar c).length := by
  have hform := escapeChar_form c
  generalize escapeChar c = written at hform ⊢
  cases hform with
  | short | plain | unicode | pair => exact Nat.succ_pos _

theorem length_le_flatMap_escapeChar (text : Text) :
    text.length ≤ (text.flatMap escapeChar).length := by
  induction text with
  | nil => simp
  | cons c text ih =>
      have hpos := length_escapeChar_pos c
      simp only [List.flatMap_cons, List.length_append, List.length_cons]
      omega

theorem scanString_flatMap {text : Text} (htext : text.encodable = true)
    (rest : Text) {fuel : Nat} (hfuel : text.length < fuel) :
    scanString fuel (text.flatMap escapeChar ++ 34 :: rest) = .ok (text, rest) := by
  induction text generalizing fuel with
  | nil =>
      obtain ⟨fuel, rfl⟩ := Nat.exists_eq_succ_of_ne_zero (Nat.ne_of_gt hfuel)
      simp [scanString]
  | cons c text ih =>
      obtain ⟨fuel, rfl⟩ := Nat.exists_eq_succ_of_ne_zero
        (Nat.ne_of_gt (Nat.lt_of_le_of_lt (Nat.zero_le _) hfuel))
      simp only [Text.encodable, List.all_cons, Bool.and_eq_true] at htext
      rw [List.flatMap_cons, List.append_assoc,
        scanString_escapeChar htext.1 fuel (by simp),
        ih htext.2 (by simpa using hfuel)]
      rfl

/-- A quoted string is read back from after its opening quote. -/
theorem scanString_quote {text : Text} (htext : text.encodable = true)
    (rest : Text) :
    scanString ((text.flatMap escapeChar ++ 34 :: rest).length)
      (text.flatMap escapeChar ++ 34 :: rest) = .ok (text, rest) := by
  apply scanString_flatMap htext
  have := length_le_flatMap_escapeChar text
  rw [List.length_append, List.length_cons]
  omega

/-! ## Numbers -/

private theorem takeWhile_append_of_stops (digits : Text) {rest : Text}
    (h : Stops rest) :
    (digits ++ rest).takeWhile isAsciiDigit = digits.takeWhile isAsciiDigit ∧
      (digits ++ rest).dropWhile isAsciiDigit =
        digits.dropWhile isAsciiDigit ++ rest := by
  induction digits with
  | nil =>
      cases rest with
      | nil => simp
      | cons c rest => simp [(h c rfl).1]
  | cons d digits ih =>
      cases hd : isAsciiDigit d <;> simp [hd, ih]

theorem intPart_append {text digits after rest : Text} (hrest : Stops rest)
    (h : intPart text = some (digits, after)) :
    intPart (text ++ rest) = some (digits, after ++ rest) := by
  cases text with
  | nil => simp [intPart] at h
  | cons c text =>
      simp only [intPart, List.cons_append] at h ⊢
      split at h
      · simp_all
      · split at h
        · obtain ⟨htake, hdrop⟩ := takeWhile_append_of_stops text hrest
          simp_all
        · simp at h

theorem digitRun_append {text : Text} {rest : Text} (hrest : Stops rest) :
    digitRun (text ++ rest) =
      (digitRun text).map fun run => (run.1, run.2 ++ rest) := by
  cases text with
  | nil =>
      cases rest with
      | nil => simp [digitRun]
      | cons c rest => simp [digitRun, (hrest c rfl).1]
  | cons c text =>
      simp only [List.cons_append, digitRun]
      split
      · obtain ⟨htake, hdrop⟩ := takeWhile_append_of_stops (c :: text) hrest
        simp only [List.cons_append] at htake hdrop
        simp [htake, hdrop]
      · rfl

theorem fracPart_append {text rest : Text} (hrest : Stops rest) :
    fracPart (text ++ rest) = ((fracPart text).1, (fracPart text).2 ++ rest) := by
  cases text with
  | nil =>
      cases rest with
      | nil => rfl
      | cons c rest => simp [fracPart, (hrest c rfl).2.1]
  | cons c text =>
      simp only [List.cons_append, fracPart]
      split
      · rw [digitRun_append hrest]
        cases digitRun text <;> simp
      · simp

theorem expSign_append {text rest : Text} (h : text ≠ []) :
    expSign (text ++ rest) = ((expSign text).1, (expSign text).2 ++ rest) := by
  cases text with
  | nil => contradiction
  | cons c text =>
      simp only [List.cons_append, expSign]
      split <;> simp

theorem expPart_append {text rest : Text} (hrest : Stops rest)
    (hdone : (expPart text).2 = []) :
    expPart (text ++ rest) = ((expPart text).1, rest) := by
  cases text with
  | nil =>
      cases rest with
      | nil => rfl
      | cons c rest => simp [expPart, (hrest c rfl).2.2]
  | cons c text =>
      simp only [expPart, List.cons_append] at hdone ⊢
      split at hdone
      · next he =>
        rw [if_pos he]
        cases text with
        | nil => simp [expSign, digitRun] at hdone
        | cons d text =>
            rw [expSign_append (by simp), digitRun_append hrest]
            cases hrun : digitRun (expSign (d :: text)).2 with
            | none => simp [hrun] at hdone
            | some run => simp_all
      · simp at hdone

/-- A complete literal is read back before any text that does not extend it. -/
theorem numberToken_append {token rest : Text} {isFloat : Bool}
    (hrest : Stops rest) (h : numberToken token = some (token, [], isFloat)) :
    numberToken (token ++ rest) = some (token, rest, isFloat) := by
  unfold numberToken at h ⊢
  have hsign : signPart (token ++ rest) =
      ((signPart token).1, (signPart token).2 ++ rest) := by
    cases token with
    | nil => simp [signPart, intPart] at h
    | cons c token =>
        by_cases hc : c = 45
        · subst hc
          rfl
        · simp [signPart, hc]
  obtain ⟨⟨digits, after⟩, hint, htoken⟩ := Option.map_eq_some_iff.mp h
  simp only [Prod.mk.injEq] at htoken
  rw [hsign]
  simp only [intPart_append hrest hint, Option.map_some, fracPart_append hrest,
    expPart_append hrest htoken.2.1, htoken.1, htoken.2.2]

/-- A literal begins with a digit, after a sign if there is one. -/
theorem numberToken_head {token : Text} {found : Text × Text × Bool}
    (h : numberToken token = some found) :
    ∃ c tail, isAsciiDigit c = true ∧ (token = c :: tail ∨ token = 45 :: c :: tail) := by
  have hdigit : ∀ text digits after, intPart text = some (digits, after) →
      ∃ c tail, isAsciiDigit c = true ∧ text = c :: tail := by
    intro text digits after hint
    cases text with
    | nil => simp [intPart] at hint
    | cons c text =>
        refine ⟨c, text, ?_, rfl⟩
        simp only [intPart] at hint
        split at hint
        · next hzero => simp [hzero, isAsciiDigit]
        · split at hint
          · assumption
          · simp at hint
  obtain ⟨⟨digits, after⟩, hint, -⟩ := Option.map_eq_some_iff.mp h
  obtain ⟨c, tail, hc, htext⟩ := hdigit _ _ _ hint
  refine ⟨c, tail, hc, ?_⟩
  cases token with
  | nil => simp [signPart] at htext
  | cons d token =>
      by_cases hd : d = 45
      · subst hd
        right
        simpa [signPart] using htext
      · left
        simpa [signPart, hd] using htext

private theorem takeWhile_digits (text : Text)
    (h : ∀ c ∈ text, isAsciiDigit c = true) :
    text.takeWhile isAsciiDigit = text ∧ text.dropWhile isAsciiDigit = [] := by
  constructor
  · exact List.takeWhile_eq_self_iff.mpr h
  · exact List.dropWhile_eq_nil_iff.mpr h

theorem intPart_decimal (n : Nat) :
    intPart (Text.decimal n) = some (Text.decimal n, []) := by
  by_cases hn : n = 0
  · subst hn
    rfl
  · have hhead := Text.decimal_head_ne_zero hn
    have hrange : ∀ c ∈ Text.decimal n, isAsciiDigit c = true := by
      intro c hc
      have := Text.decimal_range hc
      simp [isAsciiDigit]
      omega
    cases htext : Text.decimal n with
    | nil => exact absurd htext (Text.decimal_ne_nil n)
    | cons c rest =>
        simp only [htext, List.head_cons] at hhead
        rw [htext] at hrange
        obtain ⟨htake, hdrop⟩ := takeWhile_digits rest
          fun d hd => hrange d (by simp [hd])
        simp [intPart, hhead, hrange c (by simp), htake, hdrop]

theorem numberToken_decimalInt (value : Int) :
    numberToken (Text.decimalInt value) = some (Text.decimalInt value, [], false) := by
  cases value with
  | ofNat n =>
      have hsign : signPart (Text.decimal n) = ([], Text.decimal n) := by
        cases htext : Text.decimal n with
        | nil => rfl
        | cons c rest =>
            have := Text.decimal_range (n := n) (c := c) (by simp [htext])
            have hc : c ≠ 45 := by omega
            simp [signPart, hc]
      simp [Text.decimalInt, numberToken, hsign, intPart_decimal, fracPart, expPart]
  | negSucc n =>
      simp [Text.decimalInt, numberToken, signPart, intPart_decimal, fracPart, expPart]

theorem intOfLiteral_decimalInt (value : Int) :
    intOfLiteral (Text.decimalInt value) = value := by
  cases value with
  | ofNat n =>
      cases htext : Text.decimal n with
      | nil => exact absurd htext (Text.decimal_ne_nil n)
      | cons c rest =>
          have := Text.decimal_range (n := n) (c := c) (by simp [htext])
          have hc : c ≠ 45 := by omega
          have hvalue := Text.digitsValue_decimal n
          rw [htext] at hvalue
          simp [Text.decimalInt, htext, intOfLiteral, hc, hvalue]
  | negSucc n =>
      simp [Text.decimalInt, intOfLiteral, Int.negSucc_eq]

/-! ## Values -/

/-- The text of a float: a literal with a fraction or an exponent, or a word. -/
def isFloatLiteral (literal : Text) : Bool :=
  numberToken literal == some (literal, [], true) || literal == str "NaN" ||
    literal == str "Infinity" || literal == str "-Infinity"

mutual

def plain : PyValue → Bool
  | .none => true
  | .bool _ => true
  | .int value => digitCount (Text.decimalInt value) ≤ maxStrDigits
  | .float literal => isFloatLiteral literal
  | .text value => value.encodable
  | .list items => plainItems items
  | .dict entries => decide (entries.map Prod.fst).Nodup && plainEntries entries
  | .object => false

def plainItems : List PyValue → Bool
  | [] => true
  | value :: rest => plain value && plainItems rest

def plainEntries : List (Text × PyValue) → Bool
  | [] => true
  | (key, value) :: rest => key.encodable && plain value && plainEntries rest

end

mutual

/-- The most containers of a value that lie inside each other. -/
def nesting : PyValue → Nat
  | .list items => nestingItems items + 1
  | .dict entries => nestingEntries entries + 1
  | _ => 0

def nestingItems : List PyValue → Nat
  | [] => 0
  | value :: rest => max (nesting value) (nestingItems rest)

def nestingEntries : List (Text × PyValue) → Nat
  | [] => 0
  | (_, value) :: rest => max (nesting value) (nestingEntries rest)

end

mutual

theorem defect_of_plain : ∀ value depth, plain value = true → nesting value ≤ depth →
    defect depth value = none
  | .none, _, _, _ => rfl
  | .bool _, _, _, _ => rfl
  | .int value, _, h, _ => by
      simp only [plain, decide_eq_true_eq] at h
      simp [defect, h]
  | .float _, _, _, _ => rfl
  | .text _, _, _, _ => rfl
  | .list items, depth, h, hdepth => by
      rw [nesting] at hdepth
      rw [defect, if_neg (by omega)]
      exact defectItems_of_plain items (depth - 1) h (by omega)
  | .dict entries, depth, h, hdepth => by
      simp only [plain, Bool.and_eq_true] at h
      rw [nesting] at hdepth
      rw [defect, if_neg (by omega)]
      exact defectEntries_of_plain entries (depth - 1) h.2 (by omega)
  | .object, _, h, _ => by simp [plain] at h

theorem defectItems_of_plain : ∀ items depth, plainItems items = true →
    nestingItems items ≤ depth → defectItems depth items = none
  | [], _, _, _ => rfl
  | value :: rest, depth, h, hdepth => by
      simp only [plainItems, Bool.and_eq_true] at h
      rw [nestingItems, max_le_iff] at hdepth
      rw [defectItems, defect_of_plain value depth h.1 hdepth.1, Option.none_or]
      exact defectItems_of_plain rest depth h.2 hdepth.2

theorem defectEntries_of_plain : ∀ entries depth, plainEntries entries = true →
    nestingEntries entries ≤ depth → defectEntries depth entries = none
  | [], _, _, _ => rfl
  | (key, value) :: rest, depth, h, hdepth => by
      simp only [plainEntries, Bool.and_eq_true] at h
      rw [nestingEntries, max_le_iff] at hdepth
      rw [defectEntries, defect_of_plain value depth h.1.2 hdepth.1, Option.none_or]
      exact defectEntries_of_plain rest depth h.2 hdepth.2

end

mutual

/-- What the encoder accepts is nested no deeper than it goes. -/
theorem nesting_le_of_defect : ∀ value depth, defect depth value = none →
    nesting value ≤ depth
  | .none, _, _ => Nat.zero_le _
  | .bool _, _, _ => Nat.zero_le _
  | .int _, _, _ => Nat.zero_le _
  | .float _, _, _ => Nat.zero_le _
  | .text _, _, _ => Nat.zero_le _
  | .list items, depth, h => by
      rw [defect] at h
      split at h
      · cases h
      · have hitems := nestingItems_le_of_defect items (depth - 1) h
        rw [nesting]
        omega
  | .dict entries, depth, h => by
      rw [defect] at h
      split at h
      · cases h
      · have hentries := nestingEntries_le_of_defect entries (depth - 1) h
        rw [nesting]
        omega
  | .object, _, _ => Nat.zero_le _

theorem nestingItems_le_of_defect : ∀ items depth, defectItems depth items = none →
    nestingItems items ≤ depth
  | [], _, _ => Nat.zero_le _
  | value :: rest, depth, h => by
      rw [defectItems, Option.or_eq_none_iff] at h
      exact max_le (nesting_le_of_defect value depth h.1)
        (nestingItems_le_of_defect rest depth h.2)

theorem nestingEntries_le_of_defect : ∀ entries depth, defectEntries depth entries = none →
    nestingEntries entries ≤ depth
  | [], _, _ => Nat.zero_le _
  | (_, value) :: rest, depth, h => by
      rw [defectEntries, Option.or_eq_none_iff] at h
      exact max_le (nesting_le_of_defect value depth h.1)
        (nestingEntries_le_of_defect rest depth h.2)

end

/-- Scanning a number literal, as far as the dispatch on its first character. -/
theorem scanValue_number {token rest : Text} {isFloat : Bool} {depth fuel : Nat}
    (htoken : numberToken token = some (token, [], isFloat)) :
    scanValue depth (fuel + 1) (token ++ rest) = scanNumber (token ++ rest) := by
  obtain ⟨c, tail, hc, hshape⟩ := numberToken_head htoken
  have hrange : 48 ≤ c ∧ c ≤ 57 := by simpa [isAsciiDigit] using hc
  obtain rfl | rfl := hshape
  · have hkeyword : scanKeyword (c :: (tail ++ rest)) = none := by
      have : ∀ d : Nat, 57 < d ∨ d < 48 → d ≠ c := by omega
      simp [scanKeyword, keywords, str, List.isPrefixOf, this]
    have h34 : c ≠ 34 := by omega
    have h123 : c ≠ 123 := by omega
    have h91 : c ≠ 91 := by omega
    simp [scanValue, h34, h123, h91, hkeyword]
  · have hkeyword : scanKeyword (45 :: c :: (tail ++ rest)) = none := by
      have : 73 ≠ c := by omega
      simp [scanKeyword, keywords, str, List.isPrefixOf, this]
    simp [scanValue, hkeyword]

theorem scanValue_int {value : Int} {rest : Text} {depth fuel : Nat}
    (hlength : digitCount (Text.decimalInt value) ≤ maxStrDigits)
    (hrest : Stops rest) :
    scanValue depth (fuel + 1) (Text.decimalInt value ++ rest) = .ok (.int value, rest) := by
  have htoken := numberToken_decimalInt value
  rw [scanValue_number htoken, scanNumber, numberToken_append hrest htoken]
  simp [hlength, intOfLiteral_decimalInt]

theorem scanValue_float {literal rest : Text} {depth fuel : Nat}
    (hliteral : isFloatLiteral literal = true) (hrest : Stops rest) :
    scanValue depth (fuel + 1) (literal ++ rest) = .ok (.float literal, rest) := by
  simp only [isFloatLiteral, Bool.or_eq_true, beq_iff_eq] at hliteral
  obtain ((htoken | rfl) | rfl) | rfl := hliteral
  · rw [scanValue_number htoken, scanNumber, numberToken_append hrest htoken]
  · rfl
  · rfl
  · rfl

theorem skipSpace_append {pad rest : Text} (hpad : pad.all isJsonSpace = true)
    (hrest : ∀ c, rest.head? = some c → isJsonSpace c = false) :
    skipSpace (pad ++ rest) = rest := by
  induction pad with
  | nil =>
      cases rest with
      | nil => rfl
      | cons c rest => simp [skipSpace, hrest c rfl]
  | cons c pad ih =>
      simp only [List.all_cons, Bool.and_eq_true] at hpad
      simpa [skipSpace, hpad.1] using ih hpad.2

theorem skipSpace_cons {c : Nat} {rest : Text} (hc : isJsonSpace c = false) :
    skipSpace (c :: rest) = c :: rest := by
  simp [skipSpace, hc]

/-- A rendered value begins with a character that is neither white space nor
the end of a list. -/
theorem render_head (sep : Separators) {value : PyValue}
    (h : plain value = true) :
    ∃ c tail, render sep value = c :: tail ∧ isJsonSpace c = false ∧
      c ≠ 93 ∧ c < 128 := by
  have hnumber : ∀ {token : Text} {isFloat : Bool},
      numberToken token = some (token, [], isFloat) →
      ∃ c tail, token = c :: tail ∧ isJsonSpace c = false ∧ c ≠ 93 ∧ c < 128 := by
    intro token isFloat htoken
    obtain ⟨c, tail, hc, hshape⟩ := numberToken_head htoken
    have hrange : 48 ≤ c ∧ c ≤ 57 := by simpa [isAsciiDigit] using hc
    obtain rfl | rfl := hshape
    · refine ⟨c, tail, rfl, ?_, by omega, by omega⟩
      simp [isJsonSpace]
      omega
    · exact ⟨45, c :: tail, rfl, rfl, by decide, by decide⟩
  cases value with
  | none => exact ⟨110, _, rfl, rfl, by decide, by decide⟩
  | bool b => cases b <;> exact ⟨_, _, rfl, rfl, by decide, by decide⟩
  | int value => exact hnumber (numberToken_decimalInt value)
  | float literal =>
      simp only [plain, isFloatLiteral, Bool.or_eq_true, beq_iff_eq] at h
      obtain ((htoken | rfl) | rfl) | rfl := h
      · exact hnumber htoken
      · exact ⟨78, _, rfl, rfl, by decide, by decide⟩
      · exact ⟨73, _, rfl, rfl, by decide, by decide⟩
      · exact ⟨45, _, rfl, rfl, by decide, by decide⟩
  | text value => exact ⟨34, _, rfl, rfl, by decide, by decide⟩
  | list items => exact ⟨91, _, rfl, rfl, by decide, by decide⟩
  | dict entries => exact ⟨123, _, rfl, rfl, by decide, by decide⟩
  | object => simp [plain] at h

private theorem skipSpace_render (sep : Separators) {value : PyValue}
    (h : plain value = true) (pad rest : Text) (hpad : pad.all isJsonSpace = true) :
    skipSpace (pad ++ (render sep value ++ rest)) = render sep value ++ rest := by
  obtain ⟨c, tail, hrender, hspace, -, -⟩ := render_head sep h
  apply skipSpace_append hpad
  intro d hd
  simp only [hrender, List.cons_append, List.head?_cons, Option.some.injEq] at hd
  exact hd ▸ hspace

private theorem renderItems_head (sep : Separators) (value : PyValue)
    (values : List PyValue) (rest : Text) :
    ∃ after, renderItems sep (value :: values) ++ rest = render sep value ++ after := by
  cases values with
  | nil => exact ⟨93 :: rest, by simp [renderItems]⟩
  | cons next values =>
      exact ⟨sep.item ++ renderItems sep (next :: values) ++ rest, by
        simp [renderItems]⟩

private theorem renderEntries_head (sep : Separators) (key : Text)
    (value : PyValue) (entries : List (Text × PyValue)) (rest : Text) :
    ∃ after, renderEntries sep ((key, value) :: entries) ++ rest =
      34 :: (key.flatMap escapeChar ++ 34 :: after) := by
  cases entries with
  | nil =>
      exact ⟨sep.key ++ render sep value ++ 125 :: rest, by
        simp [renderEntries, quote]⟩
  | cons next entries =>
      exact ⟨sep.key ++ render sep value ++ sep.item ++
        renderEntries sep (next :: entries) ++ rest, by
        simp [renderEntries, quote]⟩

mutual

/-- A plain value is read back from its text, given one unit of fuel for each
character and the depth that it is nested. -/
theorem scanValue_render (sep : Separators) : ∀ (value : PyValue) (depth fuel : Nat)
    (rest : Text), plain value = true → nesting value ≤ depth →
    (render sep value).length ≤ fuel → Stops rest →
    scanValue depth fuel (render sep value ++ rest) = .ok (value, rest)
  | value, _, 0, rest, h, _, hfuel, _ => by
      obtain ⟨c, tail, hrender, -, -, -⟩ := render_head sep h
      simp [hrender] at hfuel
  | .none, _, fuel + 1, rest, _, _, _, _ => rfl
  | .bool true, _, fuel + 1, rest, _, _, _, _ => rfl
  | .bool false, _, fuel + 1, rest, _, _, _, _ => rfl
  | .int value, _, fuel + 1, rest, h, _, _, hrest =>
      scanValue_int (by simpa [plain] using h) hrest
  | .float literal, _, fuel + 1, rest, h, _, _, hrest => scanValue_float h hrest
  | .text value, _, fuel + 1, rest, h, _, _, _ => by
      have htext : value.encodable = true := h
      have hquote := scanString_quote htext rest
      simp only [render, quote, List.cons_append, List.append_assoc,
        List.nil_append, scanValue, if_true]
      rw [hquote]
      rfl
  | .list [], depth, fuel + 1, rest, _, hdepth, _, _ => by
      have hopen : depth ≠ 0 := Nat.ne_of_gt hdepth
      simp [render, renderItems, scanValue, hopen, skipSpace, isJsonSpace]
  | .list (value :: values), depth, fuel + 1, rest, h, hdepth, hfuel, _ => by
      rw [nesting] at hdepth
      have hopen : depth ≠ 0 := by omega
      have hvalue : plain value = true := by
        simp only [plain, plainItems, Bool.and_eq_true] at h
        exact h.1
      have hlength : (renderItems sep (value :: values)).length ≤ fuel := by
        simpa [render] using hfuel
      have hitems := scanItems_render sep value values (depth - 1) fuel rest h (by omega) hlength
      obtain ⟨after, hafter⟩ := renderItems_head sep value values rest
      obtain ⟨c, tail, hrender, -, hclose, -⟩ := render_head sep hvalue
      have hskip := skipSpace_render sep hvalue [] after rfl
      rw [List.nil_append, ← hafter] at hskip
      have hhead : (renderItems sep (value :: values) ++ rest).head? ≠ some 93 := by
        rw [hafter, hrender]
        simpa using hclose
      rw [render, List.cons_append, scanValue]
      simp only [hopen, hskip, hhead, hitems, if_false, if_true,
        show (91 : Nat) ≠ 34 by decide, show (91 : Nat) ≠ 123 by decide]
      rfl
  | .dict [], depth, fuel + 1, rest, _, hdepth, _, _ => by
      have hopen : depth ≠ 0 := Nat.ne_of_gt hdepth
      simp [render, renderEntries, scanValue, hopen, skipSpace, isJsonSpace]
  | .dict ((key, value) :: entries), depth, fuel + 1, rest, h, hdepth, hfuel, _ => by
      simp only [plain, Bool.and_eq_true, decide_eq_true_eq] at h
      rw [nesting] at hdepth
      have hopen : depth ≠ 0 := by omega
      have hlength : (renderEntries sep ((key, value) :: entries)).length ≤ fuel := by
        simpa [render] using hfuel
      have hentries := scanEntries_render sep key value entries (depth - 1) fuel rest h.2
        (by omega) hlength
      obtain ⟨after, hafter⟩ := renderEntries_head sep key value entries rest
      have hskip : skipSpace (renderEntries sep ((key, value) :: entries) ++ rest) =
          renderEntries sep ((key, value) :: entries) ++ rest := by
        rw [hafter]
        exact skipSpace_cons rfl
      have hhead : (renderEntries sep ((key, value) :: entries) ++ rest).head? ≠
          some 125 := by
        rw [hafter]
        simp
      rw [render, List.cons_append, scanValue]
      simp only [hopen, hskip, hhead, hentries, if_false, if_true,
        show (123 : Nat) ≠ 34 by decide]
      exact congrArg (fun found => Except.ok (PyValue.dict found, rest))
        (PyValue.ofPairs_of_nodup h.1)
  | .object, _, fuel + 1, rest, h, _, _, _ => by simp [plain] at h

theorem scanItems_render (sep : Separators) : ∀ (value : PyValue)
    (values : List PyValue) (depth fuel : Nat) (rest : Text),
    plainItems (value :: values) = true → nestingItems (value :: values) ≤ depth →
    (renderItems sep (value :: values)).length ≤ fuel →
    scanItems depth fuel (renderItems sep (value :: values) ++ rest) =
      .ok (value :: values, rest)
  | value, [], _, 0, rest, _, _, hfuel => by simp [renderItems] at hfuel
  | value, next :: values, _, 0, rest, _, _, hfuel => by
      simp [renderItems, Separators.item] at hfuel
  | value, [], depth, fuel + 1, rest, h, hdepth, hfuel => by
      simp only [plainItems, Bool.and_true] at h
      rw [nestingItems, max_le_iff] at hdepth
      have hlength : (render sep value).length ≤ fuel := by
        simpa [renderItems] using hfuel
      have hvalue := scanValue_render sep value depth fuel (93 :: rest) h hdepth.1 hlength
        (Stops.cons (by decide))
      rw [renderItems, List.append_assoc, List.cons_append, List.nil_append,
        scanItems, hvalue]
      rfl
  | value, next :: values, depth, fuel + 1, rest, h, hdepth, hfuel => by
      rw [nestingItems, max_le_iff] at hdepth
      have hparts : plain value = true ∧ plainItems (next :: values) = true := by
        simpa [plainItems] using h
      have hnext : plain next = true := by
        have := hparts.2
        simp only [plainItems, Bool.and_eq_true] at this
        exact this.1
      have hlength : (render sep value).length ≤ fuel ∧
          (renderItems sep (next :: values)).length ≤ fuel := by
        simp only [renderItems, Separators.item, List.length_append,
          List.length_cons] at hfuel
        omega
      have hvalue := scanValue_render sep value depth fuel
        (44 :: (sep.itemPad ++ (renderItems sep (next :: values) ++ rest)))
        hparts.1 hdepth.1 hlength.1 (Stops.cons (by decide))
      have hitems := scanItems_render sep next values depth fuel rest hparts.2 hdepth.2
        hlength.2
      obtain ⟨after, hafter⟩ := renderItems_head sep next values rest
      have hskip := skipSpace_render sep hnext sep.itemPad after sep.itemPad_space
      rw [← hafter] at hskip
      have hshape : renderItems sep (value :: next :: values) ++ rest =
          render sep value ++
            44 :: (sep.itemPad ++ (renderItems sep (next :: values) ++ rest)) := by
        simp [renderItems, Separators.item]
      rw [hshape, scanItems, hvalue]
      simp only [bind, Except.bind, skipSpace_cons (c := 44) rfl, hskip, hitems]

theorem scanEntries_render (sep : Separators) : ∀ (key : Text) (value : PyValue)
    (entries : List (Text × PyValue)) (depth fuel : Nat) (rest : Text),
    plainEntries ((key, value) :: entries) = true →
    nestingEntries ((key, value) :: entries) ≤ depth →
    (renderEntries sep ((key, value) :: entries)).length ≤ fuel →
    scanEntries depth fuel (renderEntries sep ((key, value) :: entries) ++ rest) =
      .ok ((key, value) :: entries, rest)
  | key, value, [], _, 0, rest, _, _, hfuel => by simp [renderEntries] at hfuel
  | key, value, (_, _) :: entries, _, 0, rest, _, _, hfuel => by
      simp [renderEntries, Separators.item] at hfuel
  | key, value, [], depth, fuel + 1, rest, h, hdepth, hfuel => by
      rw [nestingEntries, max_le_iff] at hdepth
      have hparts : key.encodable = true ∧ plain value = true := by
        simpa [plainEntries] using h
      have hlength : (render sep value).length ≤ fuel := by
        simp only [renderEntries, Separators.key, List.length_append,
          List.length_cons] at hfuel
        omega
      have hvalue := scanValue_render sep value depth fuel (125 :: rest) hparts.2 hdepth.1
        hlength (Stops.cons (by decide))
      have hkey := scanString_quote hparts.1
        (58 :: (sep.keyPad ++ (render sep value ++ 125 :: rest)))
      have hskip := skipSpace_render sep hparts.2 sep.keyPad (125 :: rest)
        sep.keyPad_space
      have hshape : renderEntries sep [(key, value)] ++ rest =
          34 :: (key.flatMap escapeChar ++
            34 :: 58 :: (sep.keyPad ++ (render sep value ++ 125 :: rest))) := by
        simp [renderEntries, quote, Separators.key]
      rw [hshape, scanEntries]
      simp only [bind, Except.bind, hkey, skipSpace_cons (c := 58) rfl, hskip,
        hvalue, skipSpace_cons (c := 125) rfl]
  | key, value, (key', value') :: entries, depth, fuel + 1, rest, h, hdepth, hfuel => by
      rw [nestingEntries, max_le_iff] at hdepth
      have hparts : (key.encodable = true ∧ plain value = true) ∧
          plainEntries ((key', value') :: entries) = true := by
        rw [plainEntries, Bool.and_eq_true, Bool.and_eq_true] at h
        exact h
      have hlength : (render sep value).length ≤ fuel ∧
          (renderEntries sep ((key', value') :: entries)).length ≤ fuel := by
        rw [renderEntries] at hfuel
        simp only [Separators.key, Separators.item, List.length_append,
          List.length_cons] at hfuel
        omega
      have hvalue := scanValue_render sep value depth fuel
        (44 :: (sep.itemPad ++
          (renderEntries sep ((key', value') :: entries) ++ rest)))
        hparts.1.2 hdepth.1 hlength.1 (Stops.cons (by decide))
      have hentries := scanEntries_render sep key' value' entries depth fuel rest
        hparts.2 hdepth.2 hlength.2
      have hkey := scanString_quote hparts.1.1
        (58 :: (sep.keyPad ++ (render sep value ++ 44 :: (sep.itemPad ++
          (renderEntries sep ((key', value') :: entries) ++ rest)))))
      have hskip := skipSpace_render sep hparts.1.2 sep.keyPad
        (44 :: (sep.itemPad ++
          (renderEntries sep ((key', value') :: entries) ++ rest)))
        sep.keyPad_space
      obtain ⟨after, hafter⟩ := renderEntries_head sep key' value' entries rest
      have hnext : skipSpace (sep.itemPad ++
          (renderEntries sep ((key', value') :: entries) ++ rest)) =
          renderEntries sep ((key', value') :: entries) ++ rest := by
        rw [hafter]
        apply skipSpace_append sep.itemPad_space
        intro c hc
        simp only [List.head?_cons, Option.some.injEq] at hc
        subst hc
        rfl
      have hshape : renderEntries sep ((key, value) :: (key', value') :: entries) ++
            rest =
          34 :: (key.flatMap escapeChar ++
            34 :: 58 :: (sep.keyPad ++ (render sep value ++ 44 :: (sep.itemPad ++
              (renderEntries sep ((key', value') :: entries) ++ rest))))) := by
        rw [renderEntries]
        simp [quote, Separators.key, Separators.item]
      rw [hshape, scanEntries]
      simp only [bind, Except.bind, hkey, skipSpace_cons (c := 58) rfl, hskip,
        hvalue, skipSpace_cons (c := 44) rfl, hnext, hentries]

end

/-- Encoding a plain value that is not nested too deep succeeds, and decoding its text
gives it back. -/
theorem loads_dumps (sep : Separators) {value : PyValue} (h : plain value = true)
    (hnesting : nesting value ≤ maxNesting) :
    dumps sep value = .ok (render sep value) ∧
      loads (render sep value) = .ok value := by
  constructor
  · simp [dumps, defect_of_plain value maxNesting h hnesting]
  · obtain ⟨c, tail, hrender, hspace, -, hascii⟩ := render_head sep h
    have hskip : skipSpace (render sep value) = render sep value := by
      rw [hrender]
      exact skipSpace_cons hspace
    have hscan := scanValue_render sep value maxNesting (2 * (render sep value).length + 2)
      [] h hnesting (by omega) Stops.nil
    rw [List.append_nil] at hscan
    have hbom : (render sep value).head? ≠ some 0xfeff := by
      have : c ≠ 0xfeff := by omega
      simpa [hrender] using this
    rw [loads, if_neg hbom, hskip, hscan]
    rfl

end EdgeBridge.Foundation.Json
