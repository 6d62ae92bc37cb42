import Mathlib.Data.List.DropRight
import Mathlib.Data.Nat.Digits.Lemmas

/-!
# Python strings as lists of code points

A `str` may hold lone surrogates, which no UTF-8 text can, so a text is a list
of code points rather than a Lean string.  Order and equality are those of
Python and of SQLite's `BINARY` collation: code point by code point.
-/

namespace EdgeBridge.Foundation

abbrev Text := List Nat

/-- The text of a literal. -/
def str (literal : String) : Text := literal.toList.map Char.toNat

namespace Text

/-- `str.isspace` of one code point. -/
def isSpace (c : Nat) : Bool :=
  (0x9 ≤ c && c ≤ 0xd) || (0x1c ≤ c && c ≤ 0x20) || c == 0x85 || c == 0xa0 ||
    c == 0x1680 || (0x2000 ≤ c && c ≤ 0x200a) || c == 0x2028 || c == 0x2029 ||
    c == 0x202f || c == 0x205f || c == 0x3000

/-- The zero of every block of ten decimal digits (category Nd) of Unicode 15. -/
def decimalZeros : List Nat :=
  [0x30, 0x660, 0x6f0, 0x7c0, 0x966, 0x9e6, 0xa66, 0xae6, 0xb66, 0xbe6, 0xc66,
   0xce6, 0xd66, 0xde6, 0xe50, 0xed0, 0xf20, 0x1040, 0x1090, 0x17e0, 0x1810,
   0x1946, 0x19d0, 0x1a80, 0x1a90, 0x1b50, 0x1bb0, 0x1c40, 0x1c50, 0xa620,
   0xa8d0, 0xa900, 0xa9d0, 0xa9f0, 0xaa50, 0xabf0, 0xff10, 0x104a0, 0x10d30,
   0x11066, 0x110f0, 0x11136, 0x111d0, 0x112f0, 0x11450, 0x114d0, 0x11650,
   0x116c0, 0x11730, 0x118e0, 0x11950, 0x11c50, 0x11d50, 0x11da0, 0x11f50,
   0x16a60, 0x16ac0, 0x16b50, 0x1d7ce, 0x1d7d8, 0x1d7e2, 0x1d7ec, 0x1d7f6,
   0x1e140, 0x1e2f0, 0x1e4f0, 0x1e950, 0x1fbf0]

/-- The pattern `\d` of a text regular expression. -/
def isDecimal (c : Nat) : Bool :=
  decimalZeros.any fun first => first ≤ c && c < first + 10

/-- Digits outside Nd that `str.isdigit` also accepts. -/
def otherDigits : List (Nat × Nat) :=
  [(0xb2, 0xb3), (0xb9, 0xb9), (0x1369, 0x1371), (0x19da, 0x19da),
   (0x2070, 0x2070), (0x2074, 0x2079), (0x2080, 0x2089), (0x2460, 0x2468),
   (0x2474, 0x247c), (0x2488, 0x2490), (0x24ea, 0x24ea), (0x24f5, 0x24fd),
   (0x24ff, 0x24ff), (0x2776, 0x277e), (0x2780, 0x2788), (0x278a, 0x2792),
   (0x10a40, 0x10a43), (0x10e60, 0x10e68), (0x11052, 0x1105a),
   (0x1f100, 0x1f10a)]

/-- `str.isdigit` of one code point. -/
def isDigit (c : Nat) : Bool :=
  isDecimal c || otherDigits.any fun range => range.1 ≤ c && c ≤ range.2

/-- A code point that UTF-8 can encode: in range and no surrogate. -/
def isScalar (c : Nat) : Bool := c < 0xd800 || (0xe000 ≤ c && c < 0x110000)

/-- `text.encode("utf-8")` succeeds. -/
def encodable (text : Text) : Bool := text.all isScalar

theorem isScalar_iff {c : Nat} :
    isScalar c = true ↔ c < 0xd800 ∨ (0xe000 ≤ c ∧ c < 0x110000) := by
  simp [isScalar]

def rstrip (text : Text) : Text := text.rdropWhile isSpace

def lstrip (text : Text) : Text := text.dropWhile isSpace

def strip (text : Text) : Text := lstrip (rstrip text)

/-- `text[-n:]` for `n ≥ 1`. -/
def takeLast (n : Nat) (text : Text) : Text := text.drop (text.length - n)

/-- `text[:-n]` for `n ≥ 1`. -/
def dropLast (n : Nat) (text : Text) : Text := text.take (text.length - n)

/-- `str(n)` of a natural number. -/
def decimal (n : Nat) : Text :=
  if n = 0 then [48] else ((Nat.digits 10 n).reverse.map (48 + ·))

/-- `str(n)` of an integer. -/
def decimalInt : Int → Text
  | .ofNat n => decimal n
  | .negSucc n => 45 :: decimal (n + 1)

/-! ## Stripping -/

theorem rstrip_eq_self_iff (text : Text) :
    rstrip text = text ↔ ∀ h : text ≠ [], isSpace (text.getLast h) = false := by
  rw [rstrip, List.rdropWhile_eq_self_iff]
  simp

theorem lstrip_suffix (text : Text) : lstrip text <:+ text :=
  List.dropWhile_suffix _

/-- Nothing to strip at either end. -/
theorem strip_eq_self {text : Text} (hhead : ∀ c, text.head? = some c → isSpace c = false)
    (hlast : ∀ c, text.getLast? = some c → isSpace c = false) : strip text = text := by
  have hright : rstrip text = text := by
    rw [rstrip_eq_self_iff]
    intro hne
    exact hlast _ (List.getLast?_eq_some_getLast hne)
  rw [strip, hright, lstrip]
  cases text with
  | nil => rfl
  | cons c text =>
      have hspace := hhead c rfl
      simp [hspace]

/-- A decimal digit is no white space. -/
theorem isSpace_of_isDecimal {c : Nat} (h : isDecimal c = true) : isSpace c = false := by
  have hblocks : ∀ first ∈ decimalZeros, ∀ i < 10, isSpace (first + i) = false := by
    decide +kernel
  obtain ⟨first, hfirst, hrange⟩ := List.any_eq_true.mp h
  simp only [Bool.and_eq_true, decide_eq_true_eq] at hrange
  have hspace := hblocks first hfirst (c - first) (by omega)
  rw [Nat.add_sub_cancel' hrange.1] at hspace
  exact hspace

theorem dropLast_append_length (front back : Text) :
    dropLast back.length (front ++ back) = front := by
  simp [dropLast]

theorem takeLast_append_length (front back : Text) :
    takeLast back.length (front ++ back) = back := by
  simp [takeLast]

theorem dropLast_append_takeLast (n : Nat) (text : Text) :
    dropLast n text ++ takeLast n text = text :=
  List.take_append_drop _ _

theorem takeLast_append {n : Nat} (front back : Text) (h : n ≤ back.length) :
    takeLast n (front ++ back) = takeLast n back := by
  have hle : front.length ≤ (front ++ back).length - n := by
    simp
    omega
  rw [takeLast, takeLast, List.drop_append, List.drop_eq_nil_of_le hle]
  simp only [List.nil_append]
  congr 1
  simp
  omega

theorem takeLast_of_suffix {n : Nat} {back text : Text} (h : back <:+ text)
    (hn : n ≤ back.length) : takeLast n text = takeLast n back := by
  obtain ⟨front, rfl⟩ := h
  exact takeLast_append front back hn

theorem length_takeLast (n : Nat) (text : Text) :
    (takeLast n text).length = min n text.length := by
  simp [takeLast]
  omega

/-- The last code point of a nonempty tail slice is that of the whole text. -/
theorem getLast?_takeLast {n : Nat} (hn : 0 < n) (text : Text) :
    (takeLast n text).getLast? = text.getLast? := by
  rw [takeLast]
  by_cases h : text = []
  · simp [h]
  · have : text.length - n < text.length := by
      have := List.length_pos_iff.mpr h
      omega
    rw [List.getLast?_drop]
    simp
    omega

/-! ## Decimal texts -/

theorem decimal_ne_nil (n : Nat) : decimal n ≠ [] := by
  unfold decimal
  split
  · simp
  · next h => simpa using (Nat.digits_ne_nil_iff_ne_zero (b := 10)).mpr h

/-- A decimal text consists of ASCII digits. -/
theorem decimal_range {n c : Nat} (hc : c ∈ decimal n) : 48 ≤ c ∧ c < 58 := by
  unfold decimal at hc
  split at hc
  · simp at hc
    omega
  · simp only [List.mem_map, List.mem_reverse] at hc
    obtain ⟨d, hd, rfl⟩ := hc
    have := Nat.digits_lt_base (by norm_num : 1 < 10) hd
    omega

/-- The value of a run of ASCII digits. -/
def digitsValue (text : Text) : Nat :=
  Nat.ofDigits 10 (text.reverse.map (· - 48))

@[simp] theorem digitsValue_decimal (n : Nat) : digitsValue (decimal n) = n := by
  unfold digitsValue decimal
  split
  · next h => simp [h]
  · rw [← List.map_reverse, List.reverse_reverse, List.map_map]
    have : (Nat.digits 10 n).map ((· - 48) ∘ (48 + ·)) = Nat.digits 10 n := by
      simp [Function.comp_def]
    rw [this, Nat.ofDigits_digits]

theorem decimal_head_ne_zero {n : Nat} (h : n ≠ 0) :
    (decimal n).head (decimal_ne_nil n) ≠ 48 := by
  have hlast := Nat.getLast_digit_ne_zero 10 h
  simp only [decimal, h, if_false]
  rw [List.head_map]
  simpa using hlast

/-! ## ASCII -/

def IsAscii (text : Text) : Prop := ∀ c ∈ text, c < 128

@[simp] theorem isAscii_nil : IsAscii [] := by simp [IsAscii]

@[simp] theorem isAscii_cons {c : Nat} {text : Text} :
    IsAscii (c :: text) ↔ c < 128 ∧ IsAscii text := by
  simp [IsAscii]

@[simp] theorem isAscii_append {first second : Text} :
    IsAscii (first ++ second) ↔ IsAscii first ∧ IsAscii second := by
  simp [IsAscii, or_imp, forall_and]

theorem IsAscii.encodable {text : Text} (h : IsAscii text) : text.encodable = true := by
  unfold Text.encodable
  rw [List.all_eq_true]
  intro c hc
  have hascii := h c hc
  simp only [isScalar, Bool.or_eq_true, decide_eq_true_eq]
  left
  omega

theorem encodable_append {first second : Text} (hfirst : first.encodable = true)
    (hsecond : second.encodable = true) : Text.encodable (first ++ second) = true := by
  unfold Text.encodable at hfirst hsecond ⊢
  rw [List.all_append, hfirst, hsecond]
  rfl

theorem encodable_decimalInt (value : Int) : (decimalInt value).encodable = true := by
  have hdecimal : ∀ n, (decimal n).IsAscii := by
    intro n c hc
    have hrange := decimal_range hc
    omega
  cases value with
  | ofNat n => exact (hdecimal n).encodable
  | negSucc n => exact IsAscii.encodable (isAscii_cons.mpr ⟨by omega, hdecimal (n + 1)⟩)

/-! ## Texts of one length -/

/-- A text of the same length is only compared with the front. -/
theorem append_lt_iff {front text : Text} (h : front.length = text.length) (rest : Text) :
    front ++ rest < text ↔ front < text := by
  induction front generalizing text with
  | nil =>
      have hnil : text = [] := List.length_eq_zero_iff.mp h.symm
      subst hnil
      simp
  | cons c front ih =>
      cases text with
      | nil => cases h
      | cons d text =>
          rw [List.cons_append, List.cons_lt_cons_iff, List.cons_lt_cons_iff,
            ih (Nat.succ.inj h)]

theorem lt_append_iff {front text rest : Text} (h : text.length = front.length)
    (hrest : rest ≠ []) : text < front ++ rest ↔ text < front ∨ text = front := by
  induction front generalizing text with
  | nil =>
      have hnil : text = [] := List.length_eq_zero_iff.mp h
      subst hnil
      cases rest with
      | nil => exact absurd rfl hrest
      | cons c rest => simp
  | cons c front ih =>
      cases text with
      | nil => cases h
      | cons d text =>
          rw [List.cons_append, List.cons_lt_cons_iff, List.cons_lt_cons_iff,
            ih (Nat.succ.inj h), List.cons.injEq]
          tauto

end Text

end EdgeBridge.Foundation
