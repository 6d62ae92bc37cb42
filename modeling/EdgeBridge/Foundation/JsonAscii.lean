import EdgeBridge.Foundation.JsonRoundTrip
import Mathlib.Tactic.SplitIfs

/-!
# The encoder writes ASCII

With `ensure_ascii` the text of every value that the encoder accepts consists of
ASCII characters, whatever the strings in it.
-/

namespace EdgeBridge.Foundation

namespace Json

open Text

/-! ## Numbers -/

theorem isAscii_takeWhile (text : Text) : IsAscii (text.takeWhile isAsciiDigit) := by
  intro c hc
  have hdigit := List.mem_takeWhile_imp hc
  simp only [isAsciiDigit, Bool.and_eq_true, decide_eq_true_eq] at hdigit
  omega

theorem isAscii_signPart (text : Text) : IsAscii (signPart text).1 := by
  unfold signPart
  split
  · simp
  · simp

theorem isAscii_intPart {text digits rest : Text}
    (h : intPart text = some (digits, rest)) : IsAscii digits := by
  cases text with
  | nil => cases h
  | cons c text =>
      simp only [intPart] at h
      split at h
      · cases h
        simp
      · split at h
        · next hdigit =>
          cases h
          have hc : c < 128 := by
            simp only [isAsciiDigit, Bool.and_eq_true, decide_eq_true_eq] at hdigit
            omega
          exact isAscii_cons.mpr ⟨hc, isAscii_takeWhile text⟩
        · cases h

theorem isAscii_digitRun {text digits rest : Text}
    (h : digitRun text = some (digits, rest)) : IsAscii digits := by
  unfold digitRun at h
  split at h
  · cases h
  · split at h
    · cases h
      exact isAscii_takeWhile _
    · cases h

theorem isAscii_fracPart (text : Text) : IsAscii (fracPart text).1 := by
  unfold fracPart
  split
  · simp
  · split
    · split
      · next hrun => simp [isAscii_digitRun hrun]
      · simp
    · simp

theorem isAscii_expSign (text : Text) : IsAscii (expSign text).1 := by
  unfold expSign
  split
  · simp
  · split
    · next c rest hc =>
      rcases hc with rfl | rfl
      · simp
      · simp
    · simp

theorem isAscii_expPart (text : Text) : IsAscii (expPart text).1 := by
  unfold expPart
  split
  · simp
  · next c rest =>
    split
    · next hc =>
      split
      · next hrun =>
        have hletter : c < 128 := by omega
        simp [hletter, isAscii_expSign, isAscii_digitRun hrun]
      · simp
    · simp

theorem isAscii_numberToken {text token rest : Text} {isFloat : Bool}
    (h : numberToken text = some (token, rest, isFloat)) : IsAscii token := by
  unfold numberToken at h
  rcases Option.map_eq_some_iff.mp h with ⟨⟨digits, after⟩, hint, htoken⟩
  cases htoken
  simp [isAscii_signPart, isAscii_intPart hint, isAscii_fracPart, isAscii_expPart]

theorem isAscii_floatLiteral {literal : Text} (h : isFloatLiteral literal = true) :
    IsAscii literal := by
  simp only [isFloatLiteral, Bool.or_eq_true, beq_iff_eq] at h
  rcases h with ((htoken | rfl) | rfl) | rfl
  · exact isAscii_numberToken htoken
  · simp [str]
  · simp [str]
  · simp [str]

/-! ## Strings -/

theorem hexDigit_lt {n : Nat} (h : n < 16) : hexDigit n < 128 := by
  unfold hexDigit
  split
  · omega
  · omega

theorem isAscii_unicodeEscape (code : Nat) : IsAscii (unicodeEscape code) := by
  have hdigit : ∀ n, hexDigit (n % 16) < 128 := fun n => hexDigit_lt (Nat.mod_lt n (by decide))
  simp [unicodeEscape, hdigit]

theorem isAscii_escapeChar (c : Nat) : IsAscii (escapeChar c) := by
  have hform := escapeChar_form c
  generalize escapeChar c = written at hform ⊢
  cases hform with
  | short d _ hd => simp [hd]
  | plain hrange =>
      have hc : c < 128 := by omega
      simp [hc]
  | unicode => exact isAscii_unicodeEscape c
  | pair => simp [isAscii_unicodeEscape]

theorem isAscii_quote (text : Text) : IsAscii (quote text) := by
  have hescaped : IsAscii (text.flatMap escapeChar) := by
    intro c hc
    rcases List.mem_flatMap.mp hc with ⟨d, -, hd⟩
    exact isAscii_escapeChar d c hd
  simp [quote, hescaped]

/-! ## Values -/

theorem isAscii_of_spaces {pad : Text} (h : pad.all isJsonSpace = true) : IsAscii pad := by
  intro c hc
  have hspace := List.all_eq_true.mp h c hc
  simp only [isJsonSpace, Bool.or_eq_true, beq_iff_eq] at hspace
  omega

theorem isAscii_item (sep : Separators) : IsAscii sep.item := by
  simp [Separators.item, isAscii_of_spaces sep.itemPad_space]

theorem isAscii_key (sep : Separators) : IsAscii sep.key := by
  simp [Separators.key, isAscii_of_spaces sep.keyPad_space]

mutual

theorem isAscii_render (sep : Separators) : ∀ value, plain value = true →
    IsAscii (render sep value)
  | .none, _ => by simp [render, str]
  | .bool true, _ => by simp [render, str]
  | .bool false, _ => by simp [render, str]
  | .int value, _ => isAscii_numberToken (numberToken_decimalInt value)
  | .float literal, h => isAscii_floatLiteral h
  | .text value, _ => isAscii_quote value
  | .list items, h => isAscii_cons.mpr ⟨by decide, isAscii_renderItems sep items h⟩
  | .dict entries, h => by
      simp only [plain, Bool.and_eq_true] at h
      exact isAscii_cons.mpr ⟨by decide, isAscii_renderEntries sep entries h.2⟩
  | .object, h => by simp [plain] at h

theorem isAscii_renderItems (sep : Separators) : ∀ items, plainItems items = true →
    IsAscii (renderItems sep items)
  | [], _ => by simp [renderItems]
  | [value], h => by
      simp only [plainItems, Bool.and_eq_true] at h
      simp [renderItems, isAscii_render sep value h.1]
  | value :: next :: rest, h => by
      rw [plainItems, Bool.and_eq_true] at h
      have hrest := isAscii_renderItems sep (next :: rest) h.2
      simp [renderItems, isAscii_render sep value h.1, isAscii_item, hrest]

theorem isAscii_renderEntries (sep : Separators) : ∀ entries,
    plainEntries entries = true → IsAscii (renderEntries sep entries)
  | [], _ => by simp [renderEntries]
  | [(key, value)], h => by
      simp only [plainEntries, Bool.and_eq_true] at h
      simp [renderEntries, isAscii_quote, isAscii_key, isAscii_render sep value h.1.2]
  | (key, value) :: next :: rest, h => by
      rw [plainEntries, Bool.and_eq_true, Bool.and_eq_true] at h
      have hrest := isAscii_renderEntries sep (next :: rest) h.2
      simp [renderEntries, isAscii_quote, isAscii_key, isAscii_item,
        isAscii_render sep value h.1.2, hrest]

end

/-- What `json.dumps` returns can be bound by `sqlite3`. -/
theorem encodable_render (sep : Separators) {value : PyValue} (h : plain value = true) :
    (render sep value).encodable = true :=
  (isAscii_render sep value h).encodable

end Json

end EdgeBridge.Foundation
