import EdgeBridge.Foundation.JsonScan

/-!
# An object at the end of a text

A text that is a whole object may end a longer text.  No scan of the longer text can use
that object as a part: what stands in front of it is white space, or the longer text is
no JSON.
-/

namespace EdgeBridge.Foundation.Json

/-! ## What is read before an opening brace -/

theorem suffix_of_append {first : Nat} {body read rest : Text} (hfirst : first ∉ read)
    (h : first :: body <:+ read ++ rest) : first :: body <:+ rest := by
  induction read with
  | nil => exact h
  | cons c read ih =>
      simp only [List.mem_cons, not_or] at hfirst
      obtain heq | hsuffix := List.suffix_cons_iff.mp h
      · exact absurd (List.cons.inj heq).1 hfirst.1
      · exact ih hfirst.2 hsuffix

/-- `rest` is what is left of `text`, and no brace was read. -/
def ReadsNoBrace (text rest : Text) : Prop :=
  ∃ read, text = read ++ rest ∧ 123 ∉ read

namespace ReadsNoBrace

theorem refl (text : Text) : ReadsNoBrace text text := ⟨[], rfl, List.not_mem_nil⟩

theorem cons {c : Nat} {text rest : Text} (hc : c ≠ 123) (h : ReadsNoBrace text rest) :
    ReadsNoBrace (c :: text) rest := by
  obtain ⟨read, rfl, hread⟩ := h
  exact ⟨c :: read, rfl, by simp [hread, hc.symm]⟩

theorem trans {text middle rest : Text} (h : ReadsNoBrace text middle)
    (h' : ReadsNoBrace middle rest) : ReadsNoBrace text rest := by
  obtain ⟨read, rfl, hread⟩ := h
  obtain ⟨read', rfl, hread'⟩ := h'
  exact ⟨read ++ read', (List.append_assoc _ _ _).symm, by simp [hread, hread']⟩

theorem suffix {body text rest : Text} (h : ReadsNoBrace text rest)
    (hsuffix : 123 :: body <:+ text) : 123 :: body <:+ rest := by
  obtain ⟨read, rfl, hread⟩ := h
  exact suffix_of_append hread hsuffix

theorem isSuffix {text rest : Text} (h : ReadsNoBrace text rest) : rest <:+ text := by
  obtain ⟨read, rfl, -⟩ := h
  exact List.suffix_append read rest

theorem dropWhile {p : Nat → Bool} (hp : p 123 = false) (text : Text) :
    ReadsNoBrace text (text.dropWhile p) := by
  refine ⟨text.takeWhile p, List.takeWhile_append_dropWhile.symm, fun hmem => ?_⟩
  rw [List.mem_takeWhile_imp hmem] at hp
  cases hp

end ReadsNoBrace

theorem readsNoBrace_skipSpace (text : Text) : ReadsNoBrace text (skipSpace text) :=
  .dropWhile (by decide) text

theorem hexValue_ne_brace {c value : Nat} (h : hexValue c = some value) : c ≠ 123 := by
  rintro rfl
  cases h

theorem readsNoBrace_hex4 {text rest : Text} {code : Nat} (h : hex4 text = some (code, rest)) :
    ReadsNoBrace text rest := by
  unfold hex4 at h
  split at h
  · next a b c d tail =>
    simp only [bind, Option.bind_eq_some_iff, Option.some.injEq, Prod.mk.injEq] at h
    obtain ⟨_, ha, _, hb, _, hc, _, hd, -, rfl⟩ := h
    exact .cons (hexValue_ne_brace ha) (.cons (hexValue_ne_brace hb)
      (.cons (hexValue_ne_brace hc) (.cons (hexValue_ne_brace hd) (.refl _))))
  · cases h

/-- The escape of a low surrogate, with something after it. -/
def LowAhead (text : Text) : Prop :=
  ∃ low code rest, text = 92 :: 117 :: low ∧ 4 < low.length ∧ hex4 low = some (code, rest) ∧
    isLowSurrogate code = true

theorem scanLowSurrogate_eq_ok {high code : Nat} {text rest : Text}
    (h : scanLowSurrogate high text = .ok (code, rest)) :
    (code = high ∧ rest = text ∧ ¬ LowAhead text) ∨
      ∃ low tail, text = 92 :: 117 :: tail ∧ hex4 tail = some (low, rest) ∧
        code = joinSurrogates high low ∧ isLowSurrogate low = true := by
  unfold scanLowSurrogate at h
  split at h
  · next low =>
    by_cases hshort : low.length ≤ 4
    · rw [if_pos hshort, Except.ok.injEq, Prod.mk.injEq] at h
      refine .inl ⟨h.1.symm, h.2.symm, ?_⟩
      rintro ⟨_, _, _, heq, hlength, -⟩
      cases heq
      omega
    · rw [if_neg hshort] at h
      cases hhex : hex4 low with
      | none =>
          rw [hhex] at h
          cases h
      | some found =>
          obtain ⟨second, after⟩ := found
          simp only [hhex] at h
          by_cases hlow : isLowSurrogate second = true
          · rw [if_pos hlow, Except.ok.injEq, Prod.mk.injEq] at h
            obtain ⟨hcode, rfl⟩ := h
            exact .inr ⟨second, low, rfl, hhex, hcode.symm, hlow⟩
          · rw [if_neg hlow, Except.ok.injEq, Prod.mk.injEq] at h
            refine .inl ⟨h.1.symm, h.2.symm, ?_⟩
            rintro ⟨_, other, _, heq, -, hother, hotherlow⟩
            cases heq
            rw [hhex, Option.some.injEq, Prod.mk.injEq] at hother
            rw [hother.1] at hlow
            exact hlow hotherlow
  · next hnone =>
    cases h
    refine .inl ⟨rfl, rfl, ?_⟩
    rintro ⟨low, _, _, heq, -⟩
    exact hnone low heq

theorem readsNoBrace_scanLowSurrogate {high code : Nat} {text rest : Text}
    (h : scanLowSurrogate high text = .ok (code, rest)) : ReadsNoBrace text rest := by
  obtain ⟨-, rfl, -⟩ | ⟨low, tail, rfl, hhex, -⟩ := scanLowSurrogate_eq_ok h
  · exact .refl _
  · exact .cons (by decide) (.cons (by decide) (readsNoBrace_hex4 hhex))

theorem readsNoBrace_scanUnicode {code : Nat} {text rest : Text}
    (h : scanUnicode text = .ok (code, rest)) : ReadsNoBrace text rest := by
  unfold scanUnicode at h
  split at h
  · cases h
  · cases h
  · next hhex =>
    split at h
    · exact (readsNoBrace_hex4 hhex).trans (readsNoBrace_scanLowSurrogate h)
    · cases h
      exact readsNoBrace_hex4 hhex

theorem readsNoBrace_scanEscape {code : Nat} {text rest : Text}
    (h : scanEscape text = .ok (code, rest)) : ReadsNoBrace text rest := by
  unfold scanEscape at h
  split at h
  case h_10 => exact .cons (by decide) (readsNoBrace_scanUnicode h)
  all_goals first
    | cases h
      done
    | cases h
      exact .cons (by decide) (.refl _)

theorem readsNoBrace_scanKeyword {text rest : Text} {value : PyValue}
    (h : scanKeyword text = some (value, rest)) : ReadsNoBrace text rest := by
  obtain ⟨word, hfound, hrest⟩ := Option.map_eq_some_iff.mp h
  cases hrest
  have hfits := List.find?_some hfound
  have hsplit := List.prefix_iff_eq_append.mp (List.isPrefixOf_iff_prefix.mp hfits)
  refine ⟨word.1, hsplit.symm, ?_⟩
  have hwords : ∀ word ∈ keywords, 123 ∉ word.1 := by decide
  exact hwords word (List.mem_of_find?_eq_some hfound)

/-! ## Numbers -/

theorem readsNoBrace_signPart (text : Text) : ReadsNoBrace text (signPart text).2 := by
  unfold signPart
  split
  · exact .cons (by decide) (.refl _)
  · exact .refl _

theorem readsNoBrace_intPart {text digits rest : Text}
    (h : intPart text = some (digits, rest)) : ReadsNoBrace text rest := by
  cases text with
  | nil => cases h
  | cons c text =>
      have hdigit : isAsciiDigit c = true → c ≠ 123 := by
        rintro hdigit rfl
        cases hdigit
      rw [intPart] at h
      split at h
      · next hzero =>
        cases h
        exact .cons (by omega) (.refl _)
      · split at h
        · next hc =>
          cases h
          exact .cons (hdigit hc) (.dropWhile rfl text)
        · cases h

theorem readsNoBrace_digitRun {text digits rest : Text}
    (h : digitRun text = some (digits, rest)) : ReadsNoBrace text rest := by
  unfold digitRun at h
  split at h
  · cases h
  · split at h
    · cases h
      exact .dropWhile rfl _
    · cases h

theorem readsNoBrace_fracPart (text : Text) : ReadsNoBrace text (fracPart text).2 := by
  unfold fracPart
  split
  · exact .refl _
  · split
    · next hdot =>
      split
      · next hrun => exact .cons (by omega) (readsNoBrace_digitRun hrun)
      · exact .refl _
    · exact .refl _

theorem readsNoBrace_expSign (text : Text) : ReadsNoBrace text (expSign text).2 := by
  unfold expSign
  split
  · exact .refl _
  · split
    · next hsign => exact .cons (by omega) (.refl _)
    · exact .refl _

theorem readsNoBrace_expPart (text : Text) : ReadsNoBrace text (expPart text).2 := by
  unfold expPart
  split
  · exact .refl _
  · next c rest =>
    split
    · next hletter =>
      split
      · next hrun =>
        exact .cons (by omega) ((readsNoBrace_expSign rest).trans (readsNoBrace_digitRun hrun))
      · exact .refl _
    · exact .refl _

theorem readsNoBrace_scanNumber {text rest : Text} {value : PyValue}
    (h : scanNumber text = .ok (value, rest)) : ReadsNoBrace text rest := by
  have htoken : ∀ {token after : Text} {isFloat : Bool},
      numberToken text = some (token, after, isFloat) → ReadsNoBrace text after := by
    intro token after isFloat hnumber
    obtain ⟨⟨digits, tail⟩, hint, hparts⟩ := Option.map_eq_some_iff.mp hnumber
    cases hparts
    exact ((readsNoBrace_signPart text).trans (readsNoBrace_intPart hint)).trans
      ((readsNoBrace_fracPart tail).trans (readsNoBrace_expPart _))
  unfold scanNumber at h
  split at h
  · cases h
  · next hnumber =>
    cases h
    exact htoken hnumber
  · next hnumber =>
    split at h
    · cases h
      exact htoken hnumber
    · cases h

/-! ## Strings -/

/-- No character that goes on with an object or a list follows. -/
def Ends (rest : Text) : Prop :=
  ∀ c, (skipSpace rest).head? = some c → c ∉ [44, 58, 93, 125]

/-- Something follows, but nothing that goes on with an object or a list. -/
def Stuck (rest : Text) : Prop := Ends rest ∧ skipSpace rest ≠ []

/-- The rest of an object that ends its text, whose first key keeps a string that its
opening quote has closed from going on. -/
structure Sealed (body : Text) : Prop where
  quoted : ∃ pad inner, body = pad ++ 34 :: inner ∧ pad.all isJsonSpace = true ∧ Stuck inner
  complete : ∀ depth fuel value rest, scanValue depth fuel (123 :: body) = .ok (value, rest) →
    skipSpace rest = []

theorem scanString_pad {fuel : Nat} {pad inner found after : Text}
    (hpad : pad.all isJsonSpace = true)
    (h : scanString fuel (pad ++ 34 :: inner) = .ok (found, after)) : after = inner := by
  induction fuel generalizing pad found with
  | zero =>
      cases pad with
      | nil => cases h
      | cons c pad => cases h
  | succ fuel ih =>
      cases pad with
      | nil =>
          obtain ⟨-, -, hafter⟩ | ⟨hescape, -⟩ | ⟨hquote, -⟩ := scanString_eq_ok.mp h
          · exact hafter
          · cases hescape
          · exact absurd rfl hquote
      | cons c pad =>
          simp only [List.all_cons, Bool.and_eq_true] at hpad
          have hspace := hpad.1
          simp only [isJsonSpace, Bool.or_eq_true, beq_iff_eq] at hspace
          obtain ⟨hquote, -⟩ | ⟨hescape, -⟩ | ⟨-, -, -, tail, htail, -⟩ := scanString_eq_ok.mp h
          · omega
          · omega
          · exact ih hpad.2 htail

/-- A string either ends before the object, or at the first quote in it. -/
theorem scanString_suffix {body : Text} (hsealed : Sealed body) {fuel : Nat}
    {text found after : Text} (hsuffix : 123 :: body <:+ text)
    (h : scanString fuel text = .ok (found, after)) :
    123 :: body <:+ after ∨ Stuck after := by
  induction fuel generalizing text found with
  | zero =>
      cases text with
      | nil => cases h
      | cons c rest => cases h
  | succ fuel ih =>
      cases text with
      | nil => cases h
      | cons c rest =>
          obtain heq | hrest := List.suffix_cons_iff.mp hsuffix
          · obtain ⟨rfl, rfl⟩ := List.cons.inj heq
            obtain ⟨hquote, -⟩ | ⟨hescape, -⟩ | ⟨-, -, -, tail, htail, -⟩ :=
              scanString_eq_ok.mp h
            · cases hquote
            · cases hescape
            · obtain ⟨pad, inner, rfl, hpad, hstuck⟩ := hsealed.quoted
              rw [scanString_pad hpad htail]
              exact .inr hstuck
          · obtain ⟨-, -, rfl⟩ | ⟨-, code, next, tail, hcode, htail, -⟩ |
              ⟨-, -, -, tail, htail, -⟩ := scanString_eq_ok.mp h
            · exact .inl hrest
            · exact ih ((readsNoBrace_scanEscape hcode).suffix hrest) htail
            · exact ih hrest htail

/-! ## Values -/

theorem suffix_tail {body rest : Text} {c : Nat} (hc : c ≠ 123)
    (h : 123 :: body <:+ c :: rest) : 123 :: body <:+ rest :=
  ReadsNoBrace.suffix (.cons hc (.refl rest)) h

/-- What stands after a part, and the object still ahead or nothing to go on with. -/
def Ahead (body rest : Text) : Prop := 123 :: body <:+ rest ∨ Ends rest

theorem Ahead.tail {body rest next : Text} {c : Nat} (h : Ahead body rest)
    (hc : c ∈ [44, 58, 93, 125]) (hrest : skipSpace rest = c :: next) :
    123 :: body <:+ next := by
  obtain hsuffix | hends := h
  · have hnext := (readsNoBrace_skipSpace rest).suffix hsuffix
    rw [hrest] at hnext
    refine suffix_tail ?_ hnext
    rintro rfl
    revert hc
    decide
  · exact absurd hc (hends c (by rw [hrest]; rfl))

/-- A value that is read with the object ahead ends before it, or is the object, or is a
string that the object's first quote closes. -/
theorem ahead_of_value {body : Text} (hsealed : Sealed body) {depth fuel : Nat}
    {text rest : Text} {value : PyValue}
    (hinside : text ≠ 123 :: body → 123 :: body <:+ rest ∨ Stuck rest)
    (h : scanValue depth fuel text = .ok (value, rest)) : Ahead body rest := by
  by_cases hwhole : text = 123 :: body
  · rw [hwhole] at h
    refine .inr fun c hc => ?_
    rw [hsealed.complete _ _ _ _ h] at hc
    cases hc
  · obtain hrest | hstuck := hinside hwhole
    · exact .inl hrest
    · exact .inr hstuck.1

theorem scan_suffix {body : Text} (hsealed : Sealed body) (fuel : Nat) :
    (∀ depth text value rest, 123 :: body <:+ text → text ≠ 123 :: body →
      scanValue depth fuel text = .ok (value, rest) → 123 :: body <:+ rest ∨ Stuck rest) ∧
    (∀ depth text items rest, 123 :: body <:+ text →
      scanItems depth fuel text = .ok (items, rest) → 123 :: body <:+ rest) ∧
    ∀ depth text pairs rest, 123 :: body <:+ text →
      scanEntries depth fuel text = .ok (pairs, rest) → 123 :: body <:+ rest := by
  induction fuel with
  | zero =>
      refine ⟨fun depth text value rest _ _ h => ?_, fun depth text items rest _ h => ?_,
        fun depth text pairs rest _ h => ?_⟩
      · cases h
      · cases h
      · cases h
  | succ fuel ih =>
      obtain ⟨hvalue, hitems, hentries⟩ := ih
      have hpart : ∀ {depth text rest value}, 123 :: body <:+ text →
          scanValue depth fuel text = .ok (value, rest) → Ahead body rest := fun hsuffix h =>
        ahead_of_value hsealed (fun hwhole => hvalue _ _ _ _ hsuffix hwhole h) h
      refine ⟨fun depth text value after hsuffix hwhole h => ?_,
        fun depth text items after hsuffix h => ?_,
        fun depth text pairs after hsuffix h => ?_⟩
      · cases text with
        | nil => cases h
        | cons c rest =>
            have hrest : 123 :: body <:+ rest := by
              obtain heq | hrest := List.suffix_cons_iff.mp hsuffix
              · exact absurd heq.symm hwhole
              · exact hrest
            have hinner := (readsNoBrace_skipSpace rest).suffix hrest
            have hempty : ∀ {close : Nat}, close ≠ 123 → skipSpace rest = close :: after →
                123 :: body <:+ after := by
              intro close hclose heq
              rw [heq] at hinner
              exact suffix_tail hclose hinner
            obtain ⟨-, found, hstring, -⟩ | ⟨-, -, ⟨hclose, -⟩ | ⟨-, pairs, hpairs, -⟩⟩ |
              ⟨-, -, ⟨hclose, -⟩ | ⟨-, items, hlist, -⟩⟩ | ⟨hquote, hobject, hopen, hscalar⟩ :=
              scanValue_eq_ok.mp h
            · exact scanString_suffix hsealed hrest hstring
            · exact .inl (hempty (by decide) hclose)
            · exact .inl (hentries _ _ _ _ hinner hpairs)
            · exact .inl (hempty (by decide) hclose)
            · exact .inl (hitems _ _ _ _ hinner hlist)
            · obtain hword | ⟨-, hnumber⟩ := hscalar
              · exact .inl ((readsNoBrace_scanKeyword hword).suffix hsuffix)
              · exact .inl ((readsNoBrace_scanNumber hnumber).suffix hsuffix)
      · obtain ⟨value, rest, hfirst, ⟨hclose, -⟩ | ⟨next, values, hcomma, hothers, -⟩⟩ :=
          scanItems_eq_ok.mp h
        · exact (hpart hsuffix hfirst).tail (by decide) hclose
        · have hnext := (hpart hsuffix hfirst).tail (by decide) hcomma
          exact hitems _ _ _ _ ((readsNoBrace_skipSpace next).suffix hnext) hothers
      · obtain ⟨inner, key, afterKey, beforeValue, value, rest, rfl, hkey, hcolon, hfirst,
          hend⟩ := scanEntries_eq_ok.mp h
        have hahead : Ahead body afterKey := by
          obtain hrest | hstuck :=
            scanString_suffix hsealed (suffix_tail (by decide) hsuffix) hkey
          · exact .inl hrest
          · exact .inr hstuck.1
        have hvaluetext := (readsNoBrace_skipSpace beforeValue).suffix
          (hahead.tail (by decide) hcolon)
        obtain ⟨hclose, -⟩ | ⟨next, others, hcomma, hothers, -⟩ := hend
        · exact (hpart hvaluetext hfirst).tail (by decide) hclose
        · have hnext := (hpart hvaluetext hfirst).tail (by decide) hcomma
          exact hentries _ _ _ _ ((readsNoBrace_skipSpace next).suffix hnext) hothers

/-! ## Whole texts -/

theorem loads_eq_ok {text : Text} {value : PyValue} :
    loads text = .ok value ↔ text.head? ≠ some 0xfeff ∧ ∃ rest,
      scanValue maxNesting (2 * text.length + 2) (skipSpace text) = .ok (value, rest) ∧
        skipSpace rest = [] := by
  unfold loads
  by_cases hbom : text.head? = some 0xfeff
  · simp [hbom, fail]
  · rw [if_neg hbom]
    constructor
    · intro h
      obtain ⟨⟨found, rest⟩, hscan, hend⟩ := bind_eq_ok.mp h
      simp only at hend
      split at hend
      · next hempty =>
        cases hend
        exact ⟨hbom, rest, hscan, List.isEmpty_iff.mp hempty⟩
      · cases hend
    · rintro ⟨-, rest, hscan, hend⟩
      simp [hscan, hend, bind, Except.bind]

/-- A keyword or a number is neither an object nor a string. -/
theorem scalar_ne {text rest : Text} {value : PyValue}
    (h : scanKeyword text = some (value, rest) ∨
      scanKeyword text = none ∧ scanNumber text = .ok (value, rest)) :
    (∀ entries, value ≠ .dict entries) ∧ ∀ found, value ≠ .text found := by
  obtain hword | ⟨-, hnumber⟩ := h
  · obtain ⟨word, hfound, hrest⟩ := Option.map_eq_some_iff.mp hword
    have hwords : ∀ word ∈ keywords, (∀ entries, word.2 ≠ .dict entries) ∧
        ∀ found, word.2 ≠ .text found := by
      simp [keywords]
    rw [← (Prod.mk.inj hrest).1]
    exact hwords word (List.mem_of_find?_eq_some hfound)
  · unfold scanNumber at hnumber
    split at hnumber
    · cases hnumber
    · cases hnumber
      constructor <;> rintro _ ⟨⟩
    · split at hnumber
      · cases hnumber
        constructor <;> rintro _ ⟨⟩
      · cases hnumber

/-- A key that nothing in an object or a list can begin with. -/
def isOpeningKey (key : Text) : Bool :=
  match key with
  | [] => false
  | c :: _ => !isJsonSpace c && !List.contains [44, 58, 93, 125] c

theorem stuck_of_key {fuel : Nat} {inner key after : Text} (hkey : isOpeningKey key = true)
    (h : scanString fuel inner = .ok (key, after)) : Stuck inner := by
  have hhead : ∃ c rest, inner = c :: rest ∧ isJsonSpace c = false ∧ c ∉ [44, 58, 93, 125] := by
    cases fuel with
    | zero =>
        cases inner with
        | nil => cases h
        | cons c rest => cases h
    | succ fuel =>
        cases inner with
        | nil => cases h
        | cons c rest =>
            obtain ⟨-, rfl, -⟩ | ⟨rfl, -⟩ | ⟨-, -, -, tail, -, rfl⟩ := scanString_eq_ok.mp h
            · cases hkey
            · exact ⟨92, rest, rfl, rfl, by decide⟩
            · simp only [isOpeningKey, Bool.and_eq_true, Bool.not_eq_eq_eq_not, Bool.not_true,
                List.contains_eq_mem, decide_eq_false_iff_not] at hkey
              exact ⟨c, rest, rfl, hkey.1, hkey.2⟩
  obtain ⟨c, rest, rfl, hspace, hdelimiter⟩ := hhead
  rw [Stuck, Ends, skipSpace_cons hspace]
  exact ⟨fun d hd => by cases hd; exact hdelimiter, List.cons_ne_nil _ _⟩

/-- An object with a member, all of whose keys are opening keys, is sealed. -/
theorem sealed_of_loads {text : Text} {entries : List (Text × PyValue)}
    (h : loads text = .ok (.dict entries)) (hentries : entries ≠ [])
    (hkeys : ∀ entry ∈ entries, isOpeningKey entry.1 = true) :
    ∃ body, skipSpace text = 123 :: body ∧ Sealed body := by
  obtain ⟨-, rest, hscan, hend⟩ := loads_eq_ok.mp h
  cases htext : skipSpace text with
  | nil =>
      rw [htext] at hscan
      cases hscan
  | cons c body =>
      rw [htext] at hscan
      obtain ⟨-, found, -, hvalue⟩ | ⟨rfl, -, ⟨-, hvalue⟩ | ⟨-, pairs, hpairs, hvalue⟩⟩ |
        ⟨-, -, ⟨-, hvalue⟩ | ⟨-, items, -, hvalue⟩⟩ | ⟨-, -, -, hscalar⟩ :=
        scanValue_eq_ok.mp hscan
      · cases hvalue
      · cases hvalue
        exact absurd rfl hentries
      · refine ⟨body, rfl, ?_, fun depth fuel value after hother => ?_⟩
        · obtain ⟨inner, key, afterKey, beforeValue, first, afterValue, hbody, hkey, -, -,
            hothers⟩ := scanEntries_eq_ok.mp hpairs
          have hmem : key ∈ entries.map Prod.fst := by
            cases hvalue
            rw [PyValue.mem_keys_ofPairs]
            obtain ⟨-, rfl⟩ | ⟨next, others, -, -, rfl⟩ := hothers
            · exact List.mem_cons_self
            · exact List.mem_cons_self
          obtain ⟨entry, hentry, rfl⟩ := List.mem_map.mp hmem
          refine ⟨body.takeWhile isJsonSpace, inner, ?_, ?_,
            stuck_of_key (hkeys entry hentry) hkey⟩
          · rw [← hbody]
            exact List.takeWhile_append_dropWhile.symm
          · exact List.all_eq_true.mpr fun c hc => List.mem_takeWhile_imp hc
        · have hsame := scanValue_unique hother hscan
          cases hsame
          exact hend
      · cases hvalue
      · cases hvalue
      · exact absurd rfl ((scalar_ne hscalar).1 entries)

/-- What stands in front of a whole object that ends a text is white space. -/
theorem front_of_loads {front text : Text} {entries : List (Text × PyValue)} {value : PyValue}
    (hobject : loads text = .ok (.dict entries)) (hentries : entries ≠ [])
    (hkeys : ∀ entry ∈ entries, isOpeningKey entry.1 = true)
    (h : loads (front ++ text) = .ok value) : front.all isJsonSpace = true := by
  by_contra hfront
  obtain ⟨body, hbody, hsealed⟩ := sealed_of_loads hobject hentries hkeys
  obtain ⟨-, rest, hscan, hend⟩ := loads_eq_ok.mp h
  have hpad : skipSpace front ≠ [] := by
    intro hnil
    exact hfront (List.all_eq_true.mpr (List.dropWhile_eq_nil_iff.mp hnil))
  have htext : skipSpace (front ++ text) = skipSpace front ++ text := by
    rw [skipSpace, List.dropWhile_append, if_neg (by simpa [skipSpace] using hpad), skipSpace]
  have hsuffix : 123 :: body <:+ text := by
    rw [← hbody]
    exact List.dropWhile_suffix _
  have hwhole : skipSpace front ++ text ≠ 123 :: body := by
    intro heq
    have hlength := congrArg List.length heq
    have hle := hsuffix.length_le
    have hpos := List.length_pos_iff.mpr hpad
    rw [List.length_append] at hlength
    omega
  rw [htext] at hscan
  obtain hrest | hstuck := (scan_suffix hsealed _).1 _ _ _ _
    (hsuffix.trans (List.suffix_append _ _)) hwhole hscan
  · have hnil := (readsNoBrace_skipSpace rest).suffix hrest
    rw [hend] at hnil
    cases List.suffix_nil.mp hnil
  · exact hstuck.2 hend

end EdgeBridge.Foundation.Json
