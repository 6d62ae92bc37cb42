import EdgeBridge.Foundation.JsonSuffix

/-!
# The fuel of the scanner

A scan leaves a part of its text, so two units of fuel for a character are enough: the
answer of `json.loads` is that of any greater amount.  What ends a scan early is the depth
alone, and only `RecursionError` tells of it.
-/

namespace EdgeBridge.Foundation.Json

/-! ## What a scan leaves -/

theorem skipSpace_suffix (text : Text) : skipSpace text <:+ text :=
  List.dropWhile_suffix _

theorem suffix_of_skipSpace {text next : Text} {c : Nat} (h : skipSpace text = c :: next) :
    next <:+ text :=
  (List.suffix_cons c next).trans (h ▸ skipSpace_suffix text)

theorem suffix_of_scanString {fuel : Nat} {text found after : Text}
    (h : scanString fuel text = .ok (found, after)) : after <:+ text := by
  induction fuel generalizing text found with
  | zero =>
      cases text with
      | nil => cases h
      | cons c rest => cases h
  | succ fuel ih =>
      cases text with
      | nil => cases h
      | cons c rest =>
          have hrest := List.suffix_cons c rest
          obtain ⟨-, -, rfl⟩ | ⟨-, code, next, tail, hcode, htail, -⟩ |
            ⟨-, -, -, tail, htail, -⟩ := scanString_eq_ok.mp h
          · exact hrest
          · exact ((ih htail).trans (readsNoBrace_scanEscape hcode).isSuffix).trans hrest
          · exact (ih htail).trans hrest

theorem suffix_of_scan (fuel : Nat) :
    (∀ {depth text value rest}, scanValue depth fuel text = .ok (value, rest) →
      rest <:+ text) ∧
    (∀ {depth text items rest}, scanItems depth fuel text = .ok (items, rest) →
      rest <:+ text) ∧
    ∀ {depth text pairs rest}, scanEntries depth fuel text = .ok (pairs, rest) →
      rest <:+ text := by
  induction fuel with
  | zero =>
      refine ⟨fun h => ?_, fun h => ?_, fun h => ?_⟩
      · cases h
      · cases h
      · cases h
  | succ fuel ih =>
      obtain ⟨hvalue, hitems, hentries⟩ := ih
      refine ⟨@fun depth text value after h => ?_, @fun depth text items after h => ?_,
        @fun depth text pairs after h => ?_⟩
      · cases text with
        | nil => cases h
        | cons c rest =>
            have hrest := List.suffix_cons c rest
            have hinner := (skipSpace_suffix rest).trans hrest
            obtain ⟨-, found, hstring, -⟩ | ⟨-, -, ⟨hclose, -⟩ | ⟨-, pairs, hpairs, -⟩⟩ |
              ⟨-, -, ⟨hclose, -⟩ | ⟨-, items, hlist, -⟩⟩ | ⟨-, -, -, hword | ⟨-, hnumber⟩⟩ :=
              scanValue_eq_ok.mp h
            · exact (suffix_of_scanString hstring).trans hrest
            · exact (suffix_of_skipSpace hclose).trans hrest
            · exact (hentries hpairs).trans hinner
            · exact (suffix_of_skipSpace hclose).trans hrest
            · exact (hitems hlist).trans hinner
            · exact (readsNoBrace_scanKeyword hword).isSuffix
            · exact (readsNoBrace_scanNumber hnumber).isSuffix
      · obtain ⟨value, rest, hfirst, ⟨hclose, -⟩ | ⟨next, values, hcomma, hothers, -⟩⟩ :=
          scanItems_eq_ok.mp h
        · exact (suffix_of_skipSpace hclose).trans (hvalue hfirst)
        · exact (((hitems hothers).trans (skipSpace_suffix next)).trans
            (suffix_of_skipSpace hcomma)).trans (hvalue hfirst)
      · obtain ⟨inner, key, afterKey, beforeValue, value, rest, rfl, hkey, hcolon, hfirst,
          hend⟩ := scanEntries_eq_ok.mp h
        have hbefore : beforeValue <:+ 34 :: inner :=
          ((suffix_of_skipSpace hcolon).trans (suffix_of_scanString hkey)).trans
            (List.suffix_cons 34 inner)
        have hrest := ((hvalue hfirst).trans (skipSpace_suffix beforeValue)).trans hbefore
        obtain ⟨hclose, -⟩ | ⟨next, others, hcomma, hothers, -⟩ := hend
        · exact (suffix_of_skipSpace hclose).trans hrest
        · exact (((hentries hothers).trans (skipSpace_suffix next)).trans
            (suffix_of_skipSpace hcomma)).trans hrest

/-! ## Enough fuel -/

theorem length_skipSpace_le (text : Text) : (skipSpace text).length ≤ text.length :=
  (skipSpace_suffix text).length_le

theorem length_of_skipSpace {text next : Text} {c : Nat} (h : skipSpace text = c :: next) :
    next.length + 1 ≤ text.length := by
  have hle := length_skipSpace_le text
  rw [h, List.length_cons] at hle
  exact hle

/-- With two units of fuel for each character the answer is that of any greater amount. -/
theorem scan_fuel (fuel : Nat) :
    (∀ {more depth text}, 2 * text.length + 1 ≤ fuel → fuel ≤ more →
      scanValue depth fuel text = scanValue depth more text) ∧
    (∀ {more depth text}, 2 * text.length + 2 ≤ fuel → fuel ≤ more →
      scanItems depth fuel text = scanItems depth more text) ∧
    ∀ {more depth text}, 2 * text.length + 2 ≤ fuel → fuel ≤ more →
      scanEntries depth fuel text = scanEntries depth more text := by
  induction fuel with
  | zero =>
      refine ⟨fun h => ?_, fun h => ?_, fun h => ?_⟩
      · omega
      · omega
      · omega
  | succ fuel ih =>
      obtain ⟨hvalue, hitems, hentries⟩ := ih
      refine ⟨@fun more depth text hfuel hmore => ?_, @fun more depth text hfuel hmore => ?_,
        @fun more depth text hfuel hmore => ?_⟩
      all_goals
        obtain ⟨more, rfl⟩ := Nat.exists_eq_succ_of_ne_zero (show more ≠ 0 by omega)
        have hless : fuel ≤ more := by omega
      · cases text with
        | nil => rfl
        | cons c rest =>
            rw [List.length_cons] at hfuel
            have hspace := length_skipSpace_le rest
            rw [scanValue, scanValue, hentries (by omega) hless, hitems (by omega) hless]
      · rw [scanItems, scanItems, hvalue (by omega) hless]
        cases hscan : scanValue depth more text with
        | error error => rfl
        | ok found =>
            obtain ⟨value, rest⟩ := found
            have hrest := ((suffix_of_scan more).1 hscan).length_le
            simp only [bind, Except.bind]
            split
            · rfl
            · next next hcomma =>
              have hnext := length_of_skipSpace hcomma
              have hspace := length_skipSpace_le next
              rw [hitems (by omega) hless]
            · rfl
      · unfold scanEntries
        split
        · next inner =>
          rw [List.length_cons] at hfuel
          cases hkey : scanString inner.length inner with
          | error error => rfl
          | ok found =>
              obtain ⟨key, afterKey⟩ := found
              have hafterKey := (suffix_of_scanString hkey).length_le
              simp only [bind, Except.bind]
              split
              · next beforeValue hcolon =>
                have hbefore := length_of_skipSpace hcolon
                have hspace := length_skipSpace_le beforeValue
                rw [hvalue (by omega) hless]
                cases hscan : scanValue depth more (skipSpace beforeValue) with
                | error error => rfl
                | ok found =>
                    obtain ⟨value, rest⟩ := found
                    have hrest := ((suffix_of_scan more).1 hscan).length_le
                    simp only
                    split
                    · rfl
                    · next next hcomma =>
                      have hnext := length_of_skipSpace hcomma
                      have hlast := length_skipSpace_le next
                      rw [hentries (by omega) hless]
                    · rfl
              · rfl
        · rfl

/-- `json.loads` with any amount of fuel from two units a character on. -/
theorem loads_eq_of_fuel {text : Text} {fuel : Nat} (hfuel : 2 * text.length + 2 ≤ fuel) :
    loads text =
      if text.head? = some 0xfeff then
        fail "Unexpected UTF-8 BOM (decode using utf-8-sig)"
      else (do
        let (value, rest) ← scanValue maxNesting fuel (skipSpace text)
        if (skipSpace rest).isEmpty then .ok value else fail "Extra data") := by
  have hspace := length_skipSpace_le text
  rw [loads, (scan_fuel (2 * text.length + 2)).1 (by omega) hfuel]

/-- A scan of the whole text that succeeds, with any fuel, tells what is loaded. -/
theorem loads_of_scan (fuel : Nat) {text rest : Text} {value : PyValue}
    (hbom : text.head? ≠ some 0xfeff)
    (hscan : scanValue maxNesting fuel (skipSpace text) = .ok (value, rest))
    (hend : skipSpace rest = []) : loads text = .ok value := by
  have hmore := (scan_more fuel).1 (Nat.le_max_left fuel (2 * text.length + 2))
    (Nat.le_refl maxNesting) hscan
  rw [loads_eq_of_fuel (Nat.le_max_right fuel (2 * text.length + 2)), if_neg hbom, hmore]
  simp [hend, bind, Except.bind]

/-! ## Deep texts -/

theorem scanValue_nested (depth fuel : Nat) (rest : Text) (hfuel : 2 * depth < fuel) :
    scanValue depth fuel (List.replicate (depth + 1) 91 ++ rest) = .error .recursionError := by
  induction depth generalizing fuel with
  | zero =>
      obtain ⟨fuel, rfl⟩ := Nat.exists_eq_succ_of_ne_zero (show fuel ≠ 0 by omega)
      simp [scanValue]
  | succ depth ih =>
      obtain ⟨fuel, rfl⟩ := Nat.exists_eq_add_of_le' (show 2 ≤ fuel by omega)
      have hinner := ih fuel (by omega)
      rw [List.replicate_succ, List.cons_append] at hinner ⊢
      rw [List.replicate_succ, List.cons_append, scanValue, skipSpace_cons (by decide)]
      simp only [List.head?_cons, scanItems, hinner, bind, Except.bind,
        Nat.add_sub_cancel, Nat.succ_ne_zero, if_false, if_true, Nat.reduceEqDiff,
        Option.some.injEq]

/-- A text that opens more lists than the scanner goes into raises `RecursionError`,
whatever follows. -/
theorem loads_nested {count : Nat} (hcount : maxNesting < count) (rest : Text) :
    loads (List.replicate count 91 ++ rest) = .error .recursionError := by
  obtain ⟨more, rfl⟩ := Nat.exists_eq_add_of_lt hcount
  have hsplit : List.replicate (maxNesting + more + 1) 91 ++ rest =
      List.replicate (maxNesting + 1) 91 ++ (List.replicate more 91 ++ rest) := by
    rw [← List.append_assoc, List.replicate_append_replicate]
    congr 2
    omega
  have hscan := scanValue_nested maxNesting
    (2 * (List.replicate (maxNesting + more + 1) 91 ++ rest).length + 2)
    (List.replicate more 91 ++ rest) (by rw [List.length_append, List.length_replicate]; omega)
  rw [← hsplit] at hscan
  have hhead : List.replicate (maxNesting + more + 1) 91 ++ rest =
      91 :: (List.replicate (maxNesting + more) 91 ++ rest) := by
    rw [List.replicate_succ, List.cons_append]
  have hspace : skipSpace (List.replicate (maxNesting + more + 1) 91 ++ rest) =
      List.replicate (maxNesting + more + 1) 91 ++ rest := by
    rw [hhead, skipSpace_cons (by decide)]
  rw [loads, hspace, hscan, if_neg (by rw [hhead]; simp)]
  rfl

end EdgeBridge.Foundation.Json
