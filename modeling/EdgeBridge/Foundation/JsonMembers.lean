import EdgeBridge.Foundation.JsonFuel

/-!
# The members of an object as they are written

`json.loads` keeps one entry for each name.  The members are what the text says, with
repeated names.  A string that was scanned holds lone surrogates only, and the encoder
writes it so that it is scanned back.
-/

namespace EdgeBridge.Foundation.Json

open Text (isScalar isScalar_iff encodable)

/-! ## Joined texts -/

/-- Code points, and no two halves of a surrogate pair next to each other. -/
def Joined (text : Text) : Prop :=
  (∀ c ∈ text, c < 0x110000) ∧
    text.IsChain fun a b => isHighSurrogate a = true → isLowSurrogate b = false

theorem isHighSurrogate_iff {code : Nat} :
    isHighSurrogate code = true ↔ 0xd800 ≤ code ∧ code < 0xdc00 := by
  simp [isHighSurrogate]

theorem isLowSurrogate_iff {code : Nat} :
    isLowSurrogate code = true ↔ 0xdc00 ≤ code ∧ code < 0xe000 := by
  simp [isLowSurrogate]

theorem Joined.nil : Joined [] := ⟨by simp, .nil⟩

theorem joined_cons {c : Nat} {text : Text} :
    Joined (c :: text) ↔ c < 0x110000 ∧ (isHighSurrogate c = true →
      ∀ d, text.head? = some d → isLowSurrogate d = false) ∧ Joined text := by
  simp only [Joined, List.mem_cons, forall_eq_or_imp, List.isChain_cons, Option.mem_def]
  constructor
  · rintro ⟨⟨hc, hbound⟩, hnext, hchain⟩
    exact ⟨hc, fun hhigh d hd => hnext d hd hhigh, hbound, hchain⟩
  · rintro ⟨hc, hnext, hbound, hchain⟩
    exact ⟨⟨hc, hbound⟩, fun d hd hhigh => hnext hhigh d hd, hchain⟩

/-! ## What is scanned is joined -/

theorem hexValue_lt {c value : Nat} (h : hexValue c = some value) : value < 16 := by
  unfold hexValue at h
  split at h
  · cases h
    omega
  · split at h
    · cases h
      omega
    · split at h
      · cases h
        omega
      · cases h

theorem hex4_eq_some {text rest : Text} {code : Nat} (h : hex4 text = some (code, rest)) :
    code < 0x10000 ∧ text.length = rest.length + 4 := by
  unfold hex4 at h
  split at h
  · next a b c d tail =>
    simp only [bind, Option.bind_eq_some_iff, Option.some.injEq, Prod.mk.injEq] at h
    obtain ⟨a, ha, b, hb, c, hc, d, hd, rfl, rfl⟩ := h
    have ha := hexValue_lt ha
    have hb := hexValue_lt hb
    have hc := hexValue_lt hc
    have hd := hexValue_lt hd
    exact ⟨by omega, by simp⟩
  · cases h

/-- What an escape stands for, and what may follow a half of a pair. -/
structure Escape (text : Text) (code : Nat) (rest : Text) : Prop where
  bound : code < 0x110000
  low : isLowSurrogate code = true → LowAhead (92 :: text)
  high : isHighSurrogate code = true → ¬ LowAhead rest

theorem escape_of_scanUnicode {text rest : Text} {code : Nat}
    (h : scanUnicode text = .ok (code, rest)) : Escape (117 :: text) code rest := by
  unfold scanUnicode at h
  split at h
  · cases h
  · cases h
  · next first after hafter hhex =>
    obtain ⟨hbound, hlength⟩ := hex4_eq_some hhex
    split at h
    · next hhigh =>
      rw [isHighSurrogate_iff] at hhigh
      obtain ⟨hcode, hrest, hlone⟩ | ⟨low, _, -, -, hcode, hlow⟩ := scanLowSurrogate_eq_ok h
      · refine ⟨by omega, fun hlow => ?_, fun _ => hrest ▸ hlone⟩
        rw [isLowSurrogate_iff] at hlow
        omega
      · rw [isLowSurrogate_iff] at hlow
        unfold joinSurrogates at hcode
        refine ⟨by omega, fun hcodelow => ?_, fun hcodehigh => ?_⟩
        · rw [isLowSurrogate_iff] at hcodelow
          omega
        · rw [isHighSurrogate_iff] at hcodehigh
          omega
    · next hhigh =>
      cases h
      refine ⟨by omega, fun hlow => ?_, fun hcode => absurd hcode hhigh⟩
      have hpos : 0 < rest.length := by
        cases rest with
        | nil => exact absurd rfl hafter
        | cons c rest => simp
      exact ⟨text, code, rest, rfl, by omega, hhex, hlow⟩

theorem escape_of_scanEscape {text rest : Text} {code : Nat}
    (h : scanEscape text = .ok (code, rest)) : Escape text code rest := by
  have hsimple : ∀ {code : Nat} {text rest : Text}, code < 0xd800 → Escape text code rest := by
    intro code text rest hcode
    refine ⟨by omega, fun hlow => ?_, fun hhigh => ?_⟩
    · rw [isLowSurrogate_iff] at hlow
      omega
    · rw [isHighSurrogate_iff] at hhigh
      omega
  unfold scanEscape at h
  split at h
  case h_10 => exact escape_of_scanUnicode h
  all_goals first
    | cases h
      done
    | cases h
      exact hsimple (by decide)

theorem encodable_of_suffix {text rest : Text} (h : text.encodable = true)
    (hrest : rest <:+ text) : rest.encodable = true :=
  List.all_eq_true.mpr fun c hc => List.all_eq_true.mp h c (hrest.subset hc)

/-- A scanned string is joined, and begins with a low surrogate only if that was escaped. -/
theorem joined_of_scanString {fuel : Nat} {text found after : Text}
    (htext : text.encodable = true) (h : scanString fuel text = .ok (found, after)) :
    Joined found ∧ ∀ d, found.head? = some d → isLowSurrogate d = true → LowAhead text := by
  induction fuel generalizing text found with
  | zero =>
      cases text with
      | nil => cases h
      | cons c rest => cases h
  | succ fuel ih =>
      cases text with
      | nil => cases h
      | cons c rest =>
          have hrest := encodable_of_suffix htext (List.suffix_cons c rest)
          obtain ⟨-, rfl, rfl⟩ | ⟨rfl, code, next, tail, hcode, htail, rfl⟩ |
            ⟨-, -, -, tail, htail, rfl⟩ := scanString_eq_ok.mp h
          · exact ⟨.nil, nofun⟩
          · have hescape := escape_of_scanEscape hcode
            have hsuffix := (readsNoBrace_scanEscape hcode).isSuffix
            obtain ⟨hjoined, hlow⟩ := ih (encodable_of_suffix hrest hsuffix) htail
            refine ⟨joined_cons.mpr ⟨hescape.bound, fun hhigh d hd => ?_, hjoined⟩,
              fun d hd => ?_⟩
            · by_contra hd'
              exact hescape.high hhigh (hlow d hd (by simpa using hd'))
            · cases hd
              exact hescape.low
          · obtain ⟨hjoined, -⟩ := ih hrest htail
            rw [encodable, List.all_cons, Bool.and_eq_true] at htext
            have hc := isScalar_iff.mp htext.1
            refine ⟨joined_cons.mpr ⟨by omega, fun hhigh => ?_, hjoined⟩,
              fun d hd hlow => ?_⟩
            · rw [isHighSurrogate_iff] at hhigh
              omega
            · cases hd
              rw [isLowSurrogate_iff] at hlow
              omega

/-! ## What is joined is scanned back -/

/-- A half of a pair is not joined with what the encoder writes after it. -/
theorem scanLowSurrogate_flatMap (high : Nat) {tail : Text}
    (hbound : ∀ c ∈ tail, c < 0x110000)
    (hhead : ∀ d, tail.head? = some d → isLowSurrogate d = false) (rest : Text) :
    scanLowSurrogate high (tail.flatMap escapeChar ++ 34 :: rest) =
      .ok (high, tail.flatMap escapeChar ++ 34 :: rest) := by
  have hunicode : ∀ {code : Nat} (after : Text), code < 0x10000 →
      isLowSurrogate code = false → scanLowSurrogate high (unicodeEscape code ++ after) =
        .ok (high, unicodeEscape code ++ after) := by
    intro code after hcode hlow
    rw [unicodeEscape_append]
    simp only [scanLowSurrogate, hex4_unicodeEscape hcode, hlow, Bool.false_eq_true, if_false,
      ite_self]
  cases tail with
  | nil => rfl
  | cons d tail =>
      have hd := hhead d rfl
      have hdbound := hbound d List.mem_cons_self
      rw [List.flatMap_cons, List.append_assoc]
      generalize tail.flatMap escapeChar ++ 34 :: rest = after
      have hform := escapeChar_form d
      generalize escapeChar d = written at hform ⊢
      cases hform with
      | short letter _ _ hletter => simp [scanLowSurrogate, hletter]
      | plain _ _ hbackslash => simp [scanLowSurrogate, hbackslash]
      | unicode hbmp => exact hunicode after hbmp hd
      | pair =>
          rw [List.append_assoc]
          refine hunicode _ (by omega) ?_
          rw [Bool.eq_false_iff, ne_eq, isLowSurrogate_iff]
          omega

theorem scanString_surrogate {c : Nat} (hc : 0xd800 ≤ c ∧ c < 0xe000) {fuel : Nat}
    {rest : Text} (hrest : rest ≠ [])
    (hlone : isHighSurrogate c = true → scanLowSurrogate c rest = .ok (c, rest)) :
    scanString (fuel + 1) (escapeChar c ++ rest) =
      (scanString fuel rest).map fun found => (c :: found.1, found.2) := by
  have hescape : escapeChar c = unicodeEscape c := by
    have hform := escapeChar_form c
    generalize escapeChar c = written at hform ⊢
    cases hform with
    | short => omega
    | plain => omega
    | unicode => rfl
    | pair => omega
  have hread : scanUnicode ((unicodeEscape c).drop 2 ++ rest) = .ok (c, rest) := by
    cases rest with
    | nil => contradiction
    | cons d rest =>
        rw [scanUnicode, hex4_unicodeEscape (by omega)]
        by_cases hhigh : isHighSurrogate c = true
        · simp only [hhigh, if_true]
          exact hlone hhigh
        · simp only [hhigh, Bool.false_eq_true, if_false]
  rw [hescape, unicodeEscape_append]
  exact scanString_escape fuel ((scanEscape_unicode _).trans hread)

theorem scanString_joined {text : Text} (htext : Joined text) (rest : Text) {fuel : Nat}
    (hfuel : text.length < fuel) :
    scanString fuel (text.flatMap escapeChar ++ 34 :: rest) = .ok (text, rest) := by
  induction text generalizing fuel with
  | nil =>
      obtain ⟨fuel, rfl⟩ := Nat.exists_eq_succ_of_ne_zero (Nat.ne_of_gt hfuel)
      simp [scanString]
  | cons c text ih =>
      obtain ⟨fuel, rfl⟩ := Nat.exists_eq_succ_of_ne_zero
        (Nat.ne_of_gt (Nat.lt_of_le_of_lt (Nat.zero_le _) hfuel))
      obtain ⟨hc, hnext, hjoined⟩ := joined_cons.mp htext
      have htail := @ih hjoined fuel (by simpa using hfuel)
      rw [List.flatMap_cons, List.append_assoc]
      by_cases hscalar : isScalar c = true
      · rw [scanString_escapeChar hscalar fuel (by simp), htail]
        rfl
      · have hsurrogate : 0xd800 ≤ c ∧ c < 0xe000 := by
          rw [isScalar_iff] at hscalar
          omega
        rw [scanString_surrogate hsurrogate (by simp) fun hhigh =>
          scanLowSurrogate_flatMap c hjoined.1 (hnext hhigh) rest, htail]
        rfl

/-! ## Members -/

/-- The members of the object that is the whole text, in their order, with every name
as often as it is written. -/
def members (text : Text) : Option (List (Text × PyValue)) :=
  match skipSpace text with
  | 123 :: rest =>
      if (skipSpace rest).head? = some 125 then
        if (skipSpace (skipSpace rest).tail).isEmpty then some [] else none
      else
        match scanEntries (maxNesting - 1) (2 * text.length + 1) (skipSpace rest) with
        | .ok (pairs, after) => if (skipSpace after).isEmpty then some pairs else none
        | .error _ => none
  | _ => none

/-- An object of one member. -/
theorem members_eq_singleton {text key : Text} {value : PyValue}
    (h : members text = some [(key, value)]) :
    ∃ rest depth fuel after, skipSpace text = 123 :: rest ∧
      scanEntries depth fuel (skipSpace rest) = .ok ([(key, value)], after) := by
  unfold members at h
  split at h
  · next rest hrest =>
    split at h
    · split at h
      · cases h
      · cases h
    · split at h
      · next pairs after hpairs =>
        split at h
        · cases h
          exact ⟨rest, maxNesting - 1, 2 * text.length + 1, after, hrest, hpairs⟩
        · cases h
      · cases h
  · cases h

/-- `json.loads` keeps the last of the members with one name. -/
theorem loads_dict_iff {text : Text} {entries : List (Text × PyValue)} :
    loads text = .ok (.dict entries) ↔
      ∃ pairs, members text = some pairs ∧ entries = PyValue.ofPairs pairs := by
  rw [loads_eq_ok]
  unfold members
  constructor
  · rintro ⟨-, rest, hscan, hend⟩
    cases htext : skipSpace text with
    | nil =>
        rw [htext] at hscan
        cases hscan
    | cons c body =>
        rw [htext] at hscan
        obtain ⟨-, found, -, hvalue⟩ |
          ⟨rfl, -, ⟨hclose, hvalue⟩ | ⟨hopen, pairs, hpairs, hvalue⟩⟩ |
          ⟨-, -, ⟨-, hvalue⟩ | ⟨-, items, -, hvalue⟩⟩ | ⟨-, -, -, hscalar⟩ :=
          scanValue_eq_ok.mp hscan
        · cases hvalue
        · cases hvalue
          exact ⟨[], by simp [hclose, hend], rfl⟩
        · cases hvalue
          exact ⟨pairs, by simp [hopen, hpairs, hend], rfl⟩
        · cases hvalue
        · cases hvalue
        · exact absurd rfl ((scalar_ne hscalar).1 entries)
  · rintro ⟨pairs, hpairs, rfl⟩
    split at hpairs
    · next body htext =>
      refine ⟨?_, ?_⟩
      · intro hbom
        cases text with
        | nil => cases hbom
        | cons c text =>
            cases hbom
            rw [skipSpace_cons (by decide)] at htext
            cases htext
      · split at hpairs
        · next hclose =>
          split at hpairs
          · next hend =>
            cases hpairs
            refine ⟨(skipSpace body).tail, ?_, List.isEmpty_iff.mp hend⟩
            rw [htext, scanValue_eq_ok]
            exact .inr (.inl ⟨rfl, by decide, .inl ⟨(List.cons_head?_tail hclose).symm, rfl⟩⟩)
          · cases hpairs
        · next hopen =>
          split at hpairs
          · next found after hscan =>
            split at hpairs
            · next hend =>
              cases hpairs
              refine ⟨after, ?_, List.isEmpty_iff.mp hend⟩
              rw [htext, scanValue_eq_ok]
              exact .inr (.inl ⟨rfl, by decide, .inr ⟨hopen, pairs, hscan, rfl⟩⟩)
            · cases hpairs
          · cases hpairs
    · cases hpairs

/-- The one member of an object, if it is a string, is joined. -/
theorem joined_of_members {text key value : Text} (htext : text.encodable = true)
    (h : members text = some [(key, .text value)]) : Joined key ∧ Joined value := by
  obtain ⟨rest, depth, fuel, after, hrest, hscan⟩ := members_eq_singleton h
  have hspace : ∀ {text : Text}, text.encodable = true → (skipSpace text).encodable = true :=
    fun h => encodable_of_suffix h (List.dropWhile_suffix _)
  have htail : ∀ {c : Nat} {text : Text}, encodable (c :: text) = true →
      text.encodable = true := fun h => encodable_of_suffix h (List.suffix_cons _ _)
  have hbody := hspace (htail (hrest ▸ hspace htext))
  cases fuel with
  | zero => cases hscan
  | succ fuel =>
      obtain ⟨inner, found, afterKey, beforeValue, scanned, afterValue, hinner, hkey, hcolon,
        hvalue, hend⟩ := scanEntries_eq_ok.mp hscan
      have hmember : found = key ∧ scanned = .text value := by
        obtain ⟨-, hpair⟩ | ⟨next, others, -, hothers, hpair⟩ := hend
        · cases hpair
          exact ⟨rfl, rfl⟩
        · cases hpair
          exact ⟨rfl, rfl⟩
      obtain ⟨rfl, rfl⟩ := hmember
      obtain ⟨hkeyjoined, -⟩ := joined_of_scanString (htail (hinner ▸ hbody)) hkey
      have hafter := hspace (encodable_of_suffix (htail (hinner ▸ hbody))
        (suffix_of_scanString hkey))
      rw [hcolon] at hafter
      have hvaluetext := hspace (htail hafter)
      refine ⟨hkeyjoined, ?_⟩
      cases fuel with
      | zero => cases hvalue
      | succ fuel =>
          cases hquote : skipSpace beforeValue with
          | nil =>
              rw [hquote] at hvalue
              cases hvalue
          | cons c string =>
              rw [hquote] at hvalue hvaluetext
              obtain ⟨-, found, hstring, heq⟩ | ⟨-, -, ⟨-, heq⟩ | ⟨-, pairs, -, heq⟩⟩ |
                ⟨-, -, ⟨-, heq⟩ | ⟨-, items, -, heq⟩⟩ | ⟨-, -, -, hscalar⟩ :=
                scanValue_eq_ok.mp hvalue
              · cases heq
                exact (joined_of_scanString (htail hvaluetext) hstring).1
              · cases heq
              · cases heq
              · cases heq
              · cases heq
              · exact absurd rfl ((scalar_ne hscalar).2 value)

/-- An object of one joined string is read back. -/
theorem loads_member (sep : Separators) {key value : Text} (hkey : Joined key)
    (hvalue : Joined value) :
    loads (render sep (.dict [(key, .text value)])) = .ok (.dict [(key, .text value)]) := by
  have hquoted : ∀ {text : Text}, Joined text → ∀ rest,
      scanString (text.flatMap escapeChar ++ 34 :: rest).length
        (text.flatMap escapeChar ++ 34 :: rest) = .ok (text, rest) := by
    intro text htext rest
    apply scanString_joined htext
    have hlength := length_le_flatMap_escapeChar text
    rw [List.length_append, List.length_cons]
    omega
  have hrender : render sep (.dict [(key, .text value)]) =
      123 :: 34 :: (key.flatMap escapeChar ++ 34 :: 58 :: (sep.keyPad ++
        34 :: (value.flatMap escapeChar ++ 34 :: [125]))) := by
    simp [render, renderEntries, quote, Separators.key]
  -- one unit of fuel each for the object, its entries and the string
  have hscan : scanValue maxNesting 3 (skipSpace (123 :: 34 :: (key.flatMap escapeChar ++
      34 :: 58 :: (sep.keyPad ++ 34 :: (value.flatMap escapeChar ++ 34 :: [125]))))) =
      .ok (.dict [(key, .text value)], []) := by
    rw [skipSpace_cons (by decide), scanValue_eq_ok]
    refine .inr (.inl ⟨rfl, by decide, .inr ⟨?_, [(key, .text value)], ?_, rfl⟩⟩)
    · rw [skipSpace_cons (by decide)]
      simp
    rw [skipSpace_cons (by decide), scanEntries_eq_ok]
    refine ⟨_, key, _, _, .text value, [125], rfl, hquoted hkey _, skipSpace_cons (by decide),
      ?_, .inl ⟨rfl, rfl⟩⟩
    rw [skipSpace_append sep.keyPad_space (by simp; decide), scanValue_eq_ok]
    exact .inl ⟨rfl, value, hquoted hvalue [125], rfl⟩
  rw [hrender]
  exact loads_of_scan 3 (by simp) hscan rfl

end EdgeBridge.Foundation.Json
