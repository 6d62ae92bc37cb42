import EdgeBridge.Foundation.JsonRoundTrip
import Mathlib.Tactic.SplitIfs

/-!
# What a scan has read

The ways in which a scan succeeds, one lemma for each function of the scanner.  A scan
that succeeds does not depend on its fuel, nor on how deep it might have gone.
-/

namespace EdgeBridge.Foundation.Json

/-! ## Ways to succeed -/

theorem scanString_eq_ok {fuel c : Nat} {rest text after : Text} :
    scanString (fuel + 1) (c :: rest) = .ok (text, after) ↔
      c = 34 ∧ text = [] ∧ after = rest ∨
      c = 92 ∧ (∃ code next tail, scanEscape rest = .ok (code, next) ∧
        scanString fuel next = .ok (tail, after) ∧ text = code :: tail) ∨
      c ≠ 34 ∧ c ≠ 92 ∧ 32 ≤ c ∧ ∃ tail, scanString fuel rest = .ok (tail, after) ∧
        text = c :: tail := by
  rw [scanString]
  by_cases hquote : c = 34
  · subst hquote
    simp [eq_comm]
  · by_cases hescape : c = 92
    · subst hescape
      simp only [hquote, if_false, if_true, false_and, true_and, false_or, not_true_eq_false,
        ne_eq, and_false, or_false]
      constructor
      · intro h
        obtain ⟨⟨code, next⟩, hcode, hbody⟩ := bind_eq_ok.mp h
        obtain ⟨⟨tail, last⟩, htail, hlast⟩ := bind_eq_ok.mp hbody
        cases hlast
        exact ⟨code, next, tail, hcode, htail, rfl⟩
      · rintro ⟨code, next, tail, hcode, htail, rfl⟩
        simp [hcode, htail, bind, Except.bind]
    · by_cases hcontrol : c < 32
      · simp only [hquote, hescape, if_false, if_pos hcontrol, fail]
        simp
        omega
      · simp only [hquote, hescape, if_false, if_neg hcontrol, false_and, false_or, ne_eq,
          not_false_eq_true, true_and]
        constructor
        · intro h
          obtain ⟨⟨tail, last⟩, htail, hlast⟩ := bind_eq_ok.mp h
          cases hlast
          exact ⟨by omega, tail, htail, rfl⟩
        · rintro ⟨-, tail, htail, rfl⟩
          simp [htail, bind, Except.bind]

theorem scanItems_eq_ok {depth fuel : Nat} {text after : Text} {items : List PyValue} :
    scanItems depth (fuel + 1) text = .ok (items, after) ↔
      ∃ value rest, scanValue depth fuel text = .ok (value, rest) ∧
        (skipSpace rest = 93 :: after ∧ items = [value] ∨
          ∃ next values, skipSpace rest = 44 :: next ∧
            scanItems depth fuel (skipSpace next) = .ok (values, after) ∧
            items = value :: values) := by
  rw [scanItems]
  constructor
  · intro h
    obtain ⟨⟨value, rest⟩, hvalue, hbody⟩ := bind_eq_ok.mp h
    refine ⟨value, rest, hvalue, ?_⟩
    simp only at hbody
    split at hbody
    · next hclose =>
      cases hbody
      exact .inl ⟨hclose, rfl⟩
    · next next hcomma =>
      obtain ⟨⟨values, last⟩, hvalues, hlast⟩ := bind_eq_ok.mp hbody
      cases hlast
      exact .inr ⟨next, values, hcomma, hvalues, rfl⟩
    · cases hbody
  · rintro ⟨value, rest, hvalue, ⟨hclose, rfl⟩ | ⟨next, values, hcomma, hvalues, rfl⟩⟩
    · simp [hvalue, hclose, bind, Except.bind]
    · simp [hvalue, hcomma, hvalues, bind, Except.bind]

theorem scanEntries_eq_ok {depth fuel : Nat} {text after : Text} {pairs : List (Text × PyValue)} :
    scanEntries depth (fuel + 1) text = .ok (pairs, after) ↔
      ∃ inner key afterKey beforeValue value rest, text = 34 :: inner ∧
        scanString inner.length inner = .ok (key, afterKey) ∧
        skipSpace afterKey = 58 :: beforeValue ∧
        scanValue depth fuel (skipSpace beforeValue) = .ok (value, rest) ∧
        (skipSpace rest = 125 :: after ∧ pairs = [(key, value)] ∨
          ∃ next others, skipSpace rest = 44 :: next ∧
            scanEntries depth fuel (skipSpace next) = .ok (others, after) ∧
            pairs = (key, value) :: others) := by
  constructor
  · intro h
    unfold scanEntries at h
    split at h
    · next inner =>
      obtain ⟨⟨key, afterKey⟩, hkey, hbody⟩ := bind_eq_ok.mp h
      simp only at hbody
      split at hbody
      · next beforeValue hcolon =>
        obtain ⟨⟨value, rest⟩, hvalue, htail⟩ := bind_eq_ok.mp hbody
        refine ⟨inner, key, afterKey, beforeValue, value, rest, rfl, hkey, hcolon, hvalue, ?_⟩
        simp only at htail
        split at htail
        · next hclose =>
          cases htail
          exact .inl ⟨hclose, rfl⟩
        · next next hcomma =>
          obtain ⟨⟨others, last⟩, hothers, hlast⟩ := bind_eq_ok.mp htail
          cases hlast
          exact .inr ⟨next, others, hcomma, hothers, rfl⟩
        · cases htail
      · cases hbody
    · cases h
  · rintro ⟨inner, key, afterKey, beforeValue, value, rest, rfl, hkey, hcolon, hvalue,
      ⟨hclose, rfl⟩ | ⟨next, others, hcomma, hothers, rfl⟩⟩
    · simp [scanEntries, hkey, hcolon, hvalue, hclose, bind, Except.bind]
    · simp [scanEntries, hkey, hcolon, hvalue, hcomma, hothers, bind, Except.bind]

theorem scanValue_eq_ok {depth fuel c : Nat} {rest after : Text} {value : PyValue} :
    scanValue depth (fuel + 1) (c :: rest) = .ok (value, after) ↔
      c = 34 ∧ (∃ text, scanString rest.length rest = .ok (text, after) ∧ value = .text text) ∨
      c = 123 ∧ depth ≠ 0 ∧ (skipSpace rest = 125 :: after ∧ value = .dict [] ∨
        (skipSpace rest).head? ≠ some 125 ∧ ∃ pairs,
          scanEntries (depth - 1) fuel (skipSpace rest) = .ok (pairs, after) ∧
            value = .dict (PyValue.ofPairs pairs)) ∨
      c = 91 ∧ depth ≠ 0 ∧ (skipSpace rest = 93 :: after ∧ value = .list [] ∨
        (skipSpace rest).head? ≠ some 93 ∧ ∃ items,
          scanItems (depth - 1) fuel (skipSpace rest) = .ok (items, after) ∧
            value = .list items) ∨
      c ≠ 34 ∧ c ≠ 123 ∧ c ≠ 91 ∧ (scanKeyword (c :: rest) = some (value, after) ∨
        scanKeyword (c :: rest) = none ∧ scanNumber (c :: rest) = .ok (value, after)) := by
  rw [scanValue]
  by_cases hquote : c = 34
  · subst hquote
    simp only [if_true, true_and, false_and, or_false, Nat.reduceEqDiff, ne_eq,
      not_true_eq_false]
    constructor
    · intro h
      obtain ⟨⟨text, last⟩, htext, hlast⟩ := bind_eq_ok.mp h
      cases hlast
      exact ⟨text, htext, rfl⟩
    · rintro ⟨text, htext, rfl⟩
      simp [htext, bind, Except.bind]
  · by_cases hobject : c = 123
    · subst hobject
      simp only [hquote, if_false, if_true, true_and, false_and, or_false, false_or,
        Nat.reduceEqDiff, ne_eq, not_true_eq_false, and_false]
      constructor
      · intro h
        split at h
        · cases h
        · next hdepth =>
          split at h
          · next hempty =>
            cases h
            exact ⟨hdepth, .inl ⟨(List.cons_head?_tail hempty).symm, rfl⟩⟩
          · next hnonempty =>
            obtain ⟨⟨pairs, last⟩, hpairs, hlast⟩ := bind_eq_ok.mp h
            cases hlast
            exact ⟨hdepth, .inr ⟨hnonempty, pairs, hpairs, rfl⟩⟩
      · rintro ⟨hdepth, ⟨hempty, rfl⟩ | ⟨hnonempty, pairs, hpairs, rfl⟩⟩
        · simp [hdepth, hempty]
        · simp [hdepth, hnonempty, hpairs, bind, Except.bind]
    · by_cases hlist : c = 91
      · subst hlist
        simp only [hquote, hobject, if_false, if_true, true_and, false_and, or_false, false_or,
          ne_eq, not_true_eq_false, and_false]
        constructor
        · intro h
          split at h
          · cases h
          · next hdepth =>
            split at h
            · next hempty =>
              cases h
              exact ⟨hdepth, .inl ⟨(List.cons_head?_tail hempty).symm, rfl⟩⟩
            · next hnonempty =>
              obtain ⟨⟨items, last⟩, hitems, hlast⟩ := bind_eq_ok.mp h
              cases hlast
              exact ⟨hdepth, .inr ⟨hnonempty, items, hitems, rfl⟩⟩
        · rintro ⟨hdepth, ⟨hempty, rfl⟩ | ⟨hnonempty, items, hitems, rfl⟩⟩
          · simp [hdepth, hempty]
          · simp [hdepth, hnonempty, hitems, bind, Except.bind]
      · simp only [hquote, hobject, hlist, if_false, false_and, false_or, ne_eq,
          not_false_eq_true, true_and]
        cases hword : scanKeyword (c :: rest) with
        | none => simp
        | some found => simp

/-! ## Fuel and depth -/

/-- A scan that succeeds reads the same with more fuel and a greater depth. -/
theorem scan_more (fuel : Nat) :
    (∀ {more depth deeper text found}, fuel ≤ more → depth ≤ deeper →
      scanValue depth fuel text = .ok found → scanValue deeper more text = .ok found) ∧
    (∀ {more depth deeper text found}, fuel ≤ more → depth ≤ deeper →
      scanItems depth fuel text = .ok found → scanItems deeper more text = .ok found) ∧
    ∀ {more depth deeper text found}, fuel ≤ more → depth ≤ deeper →
      scanEntries depth fuel text = .ok found → scanEntries deeper more text = .ok found := by
  induction fuel with
  | zero =>
      refine ⟨fun _ _ h => ?_, fun _ _ h => ?_, fun _ _ h => ?_⟩
      · cases h
      · cases h
      · cases h
  | succ fuel ih =>
      obtain ⟨hvalue, hitems, hentries⟩ := ih
      refine ⟨@fun more depth deeper text found hfuel hdepth h => ?_,
        @fun more depth deeper text found hfuel hdepth h => ?_,
        @fun more depth deeper text found hfuel hdepth h => ?_⟩
      all_goals
        obtain ⟨more, rfl⟩ := Nat.exists_eq_succ_of_ne_zero (show more ≠ 0 by omega)
        have hmore : fuel ≤ more := by omega
      · cases text with
        | nil => cases h
        | cons c rest =>
            rw [scanValue_eq_ok] at h ⊢
            obtain h | ⟨hc, hopen, hempty | ⟨hfirst, pairs, hpairs, heq⟩⟩ |
              ⟨hc, hopen, hempty | ⟨hfirst, items, hlist, heq⟩⟩ | h := h
            · exact .inl h
            · exact .inr (.inl ⟨hc, by omega, .inl hempty⟩)
            · exact .inr (.inl ⟨hc, by omega, .inr ⟨hfirst, pairs,
                hentries hmore (by omega) hpairs, heq⟩⟩)
            · exact .inr (.inr (.inl ⟨hc, by omega, .inl hempty⟩))
            · exact .inr (.inr (.inl ⟨hc, by omega, .inr ⟨hfirst, items,
                hitems hmore (by omega) hlist, heq⟩⟩))
            · exact .inr (.inr (.inr h))
      · rw [scanItems_eq_ok] at h ⊢
        obtain ⟨value, rest, hfirst, hclose | ⟨next, values, hcomma, hrest, heq⟩⟩ := h
        · exact ⟨value, rest, hvalue hmore hdepth hfirst, .inl hclose⟩
        · exact ⟨value, rest, hvalue hmore hdepth hfirst,
            .inr ⟨next, values, hcomma, hitems hmore hdepth hrest, heq⟩⟩
      · rw [scanEntries_eq_ok] at h ⊢
        obtain ⟨inner, key, afterKey, beforeValue, value, rest, htext, hkey, hcolon, hfirst,
          hclose | ⟨next, others, hcomma, hrest, heq⟩⟩ := h
        · exact ⟨inner, key, afterKey, beforeValue, value, rest, htext, hkey, hcolon,
            hvalue hmore hdepth hfirst, .inl hclose⟩
        · exact ⟨inner, key, afterKey, beforeValue, value, rest, htext, hkey, hcolon,
            hvalue hmore hdepth hfirst, .inr ⟨next, others, hcomma,
              hentries hmore hdepth hrest, heq⟩⟩

/-- Two scans of one text that succeed have read the same. -/
theorem scanValue_unique {depth depth' fuel fuel' : Nat} {text : Text}
    {found found' : PyValue × Text} (h : scanValue depth fuel text = .ok found)
    (h' : scanValue depth' fuel' text = .ok found') : found = found' := by
  have hsame := (scan_more fuel).1 (Nat.le_max_left fuel fuel') (Nat.le_max_left depth depth') h
  rw [(scan_more fuel').1 (Nat.le_max_right fuel fuel') (Nat.le_max_right depth depth') h',
    Except.ok.injEq] at hsame
  exact hsame.symm

end EdgeBridge.Foundation.Json
