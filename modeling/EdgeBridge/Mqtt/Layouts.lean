import EdgeBridge.Foundation.JsonRoundTrip
import EdgeBridge.Payload

/-!
# The two layouts of a message value

The compact layout has no separator: model and serial both end in digits.  The last
`P` divides them, so that a value has one reading only, and it is the reading of the
spaced layout.
-/

namespace EdgeBridge

open Foundation

/-- What comes after the last separator. -/
theorem rtakeWhile_append_cons {p : Nat → Bool} {front back : Text} {c : Nat}
    (hc : p c = false) (hback : ∀ d ∈ back, p d = true) :
    (front ++ c :: back).rtakeWhile p = back := by
  have hreverse : (front ++ c :: back).reverse = back.reverse ++ c :: front.reverse := by
    simp
  rw [List.rtakeWhile, hreverse, List.takeWhile_append_of_pos (by simpa using hback)]
  simp [hc]

/-! ## Compact splits -/

/-- `.+P\d{3}`: a line that is not empty, `P`, and a group of three decimals. -/
structure CompactModel (model line group : Text) : Prop where
  joined : model = line ++ 80 :: group
  line_ne : line ≠ []
  line : 10 ∉ line
  three : group.length = 3
  decimals : ∀ c ∈ group, Text.isDecimal c = true

/-- A text cut into a model and a serial of decimals. -/
structure CompactSplit (text model serial : Text) : Prop where
  joined : model ++ serial = text
  model : ∃ line group, CompactModel model line group
  serial_ne : serial ≠ []
  decimals : ∀ c ∈ serial, Text.isDecimal c = true

theorem isCompactModel_iff {model : Text} :
    isCompactModel model = true ↔ ∃ line group, CompactModel model line group := by
  constructor
  · intro h
    have hjoined := Text.dropLast_append_takeLast 4 model
    unfold isCompactModel at h
    split at h
    · next p first second third htail =>
      simp only [Bool.and_eq_true, beq_iff_eq, Bool.not_eq_true', List.isEmpty_eq_false_iff,
        List.contains_eq_mem, decide_eq_false_iff_not] at h
      obtain ⟨⟨⟨⟨⟨rfl, hfirst⟩, hsecond⟩, hthird⟩, hne⟩, hline⟩ := h
      rw [htail] at hjoined
      exact ⟨_, [first, second, third], hjoined.symm, hne, hline, rfl,
        by simp [hfirst, hsecond, hthird]⟩
    · cases h
  · rintro ⟨line, group, rfl, hne, hline, hthree, hdecimals⟩
    obtain ⟨first, second, third, rfl⟩ := List.length_eq_three.mp hthree
    have htail := Text.takeLast_append_length line [80, first, second, third]
    have hfront := Text.dropLast_append_length line [80, first, second, third]
    simp only [List.length_cons, List.length_nil, Nat.zero_add, Nat.reduceAdd] at htail hfront
    simp only [List.mem_cons, List.not_mem_nil, or_false, forall_eq_or_imp, forall_eq]
      at hdecimals
    simp [isCompactModel, htail, hfront, hdecimals, hne, hline]

/-- The last `P` divides the text, as no decimal is a `P`. -/
theorem CompactSplit.unique {text model serial other rest : Text}
    (h : CompactSplit text model serial) (h' : CompactSplit text other rest) :
    other = model ∧ rest = serial := by
  have hletter : Text.isDecimal 80 = false := by decide
  obtain ⟨line, group, hmodel⟩ := h.model
  obtain ⟨line', group', hother⟩ := h'.model
  have hnone : ∀ digits : Text, (∀ c ∈ digits, Text.isDecimal c = true) →
      ∀ c ∈ digits, (c != 80) = true := by
    intro digits hdigits c hc
    rw [bne_iff_ne]
    rintro rfl
    rw [hdigits 80 hc] at hletter
    cases hletter
  have hafter : ∀ {text model serial line group : Text}, CompactSplit text model serial →
      CompactModel model line group → text.rtakeWhile (· != 80) = group ++ serial := by
    intro text model serial line group hsplit hmodel
    rw [← hsplit.joined, hmodel.joined, List.append_assoc, List.cons_append]
    refine rtakeWhile_append_cons (by decide) (hnone _ ?_)
    intro c hc
    exact (List.mem_append.mp hc).elim (hmodel.decimals c) (hsplit.decimals c)
  have hdigits := (hafter h hmodel).symm.trans (hafter h' hother)
  have hrest := (List.append_inj hdigits (hmodel.three.trans hother.three.symm)).2
  have hjoined := h'.joined.trans h.joined.symm
  rw [hrest] at hjoined ⊢
  exact ⟨List.append_cancel_right hjoined, rfl⟩

theorem compactMatch_eq_some_iff {text model serial : Text} :
    compactMatch text = some (model, serial) ↔ CompactSplit text model serial := by
  have hsound : ∀ {model serial : Text}, compactMatch text = some (model, serial) →
      CompactSplit text model serial := by
    intro model serial h
    obtain ⟨n, hfind, hparts⟩ := Option.map_eq_some_iff.mp h
    obtain ⟨rfl, rfl⟩ := Prod.mk.inj hparts
    have hn := List.mem_of_find?_eq_some hfind
    have hmatch := List.find?_some hfind
    simp only [List.mem_reverse, List.mem_range, Bool.and_eq_true] at hn hmatch
    refine ⟨List.take_append_drop n text, isCompactModel_iff.mp hmatch.1, ?_,
      List.all_eq_true.mp hmatch.2⟩
    simpa using hn
  constructor
  · exact hsound
  · intro h
    cases hmatch : compactMatch text with
    | some parts =>
        obtain ⟨hmodel, hserial⟩ := h.unique (hsound hmatch)
        rw [← hmodel, ← hserial]
    | none =>
        -- the cut of `h` would have been found
        have hfind := Option.map_eq_none_iff.mp hmatch
        rw [List.find?_eq_none] at hfind
        have hlength := List.length_pos_iff.mpr h.serial_ne
        have htext := h.joined
        subst htext
        have hcut := hfind model.length (by simp; omega)
        rw [List.take_left, List.drop_left] at hcut
        have hserial := List.all_eq_true.mpr h.decimals
        exact absurd (by rw [isCompactModel_iff.mpr h.model, hserial]; rfl) hcut

/-! ## One message in two layouts -/

/-- A message that both layouts can carry. -/
structure LayoutMessage where
  messageType : Text
  line : Text
  group : Text
  serial : Text
  table : Text
  type_supported : messageType ∈ supportedMessageTypes
  table_supported : table ∈ supportedTables
  line_ne : line ≠ []
  line_plain : 32 ∉ line ∧ 10 ∉ line
  line_head : ∀ c, line.head? = some c → Text.isSpace c = false
  three : group.length = 3
  group_decimals : ∀ c ∈ group, Text.isDecimal c = true
  serial_ne : serial ≠ []
  serial_decimals : ∀ c ∈ serial, Text.isDecimal c = true

namespace LayoutMessage

variable (message : LayoutMessage)

def model : Text := message.line ++ 80 :: message.group

def compactValue : Text := message.model ++ message.serial ++ message.table

def spacedValue : Text := message.model ++ 32 :: message.serial ++ message.table

def parsed : ParsedPLCMessage :=
  ⟨message.messageType, message.model, message.serial, message.table⟩

theorem model_compact : CompactModel message.model message.line message.group :=
  ⟨rfl, message.line_ne, message.line_plain.2, message.three, message.group_decimals⟩

theorem model_ne : message.model ≠ [] := by
  simp [model]

theorem model_head (rest : Text) : ∀ c, (message.model ++ rest).head? = some c →
    Text.isSpace c = false := by
  intro c hc
  apply message.line_head c
  obtain ⟨first, line, hline⟩ := List.exists_cons_of_ne_nil message.line_ne
  rw [model, hline] at hc
  rw [hline]
  exact hc

theorem model_last : ∀ c, message.model.getLast? = some c → Text.isSpace c = false := by
  intro c hc
  have hgroup : message.group ≠ [] := by
    intro hnil
    have hthree := message.three
    rw [hnil] at hthree
    cases hthree
  have hmem : c ∈ message.group := by
    rw [model, ← List.singleton_append, ← List.append_assoc,
      List.getLast?_append_of_ne_nil _ hgroup] at hc
    exact List.mem_of_getLast? hc
  exact Text.isSpace_of_isDecimal (message.group_decimals c hmem)

theorem not_mem_digits {digits : Text} {c : Nat} (hc : Text.isDecimal c = false)
    (h : ∀ c ∈ digits, Text.isDecimal c = true) : c ∉ digits := by
  intro hmem
  rw [h c hmem] at hc
  cases hc

theorem no_space : 32 ∉ message.model ++ message.serial := by
  have hgroup := not_mem_digits (c := 32) (by decide) message.group_decimals
  have hserial := not_mem_digits (c := 32) (by decide) message.serial_decimals
  simp [model, message.line_plain.1, hgroup, hserial]

theorem strip_serial : Text.strip message.serial = message.serial := by
  have hspace : ∀ c ∈ message.serial, Text.isSpace c = false :=
    fun c hc => Text.isSpace_of_isDecimal (message.serial_decimals c hc)
  exact Text.strip_eq_self (fun c hc => hspace c (List.mem_of_mem_head? hc))
    (fun c hc => hspace c (List.mem_of_getLast? hc))

theorem serial_digits : message.serial.all Text.isDigit = true := by
  rw [List.all_eq_true]
  intro c hc
  simp [Text.isDigit, message.serial_decimals c hc]

/-- Both layouts are cut after the same rules. -/
theorem splitMessageValue_append {front : Text}
    (hhead : ∀ c, (front ++ message.table).head? = some c → Text.isSpace c = false)
    (hfront : splitPayload front = .ok (message.model, message.serial)) :
    splitMessageValue (front ++ message.table) =
      .ok (message.model, message.serial, message.table) := by
  obtain ⟨hthree, hlast⟩ := supportedTable_shape message.table_supported
  have hne : message.table ≠ [] := by
    intro hnil
    rw [hnil] at hthree
    cases hthree
  have hstrip : Text.strip (front ++ message.table) = front ++ message.table := by
    refine Text.strip_eq_self hhead ?_
    rw [List.getLast?_append_of_ne_nil _ hne]
    exact hlast
  have hdrop := Text.dropLast_append_length front message.table
  have htake := Text.takeLast_append_length front message.table
  rw [hthree] at hdrop htake
  simp [splitMessageValue, hstrip, hdrop, htake, hfront, message.table_supported, bind,
    Except.bind, message.model_ne, message.serial_ne, message.serial_digits]

theorem splitMessageValue_compact : splitMessageValue message.compactValue =
    .ok (message.model, message.serial, message.table) := by
  refine message.splitMessageValue_append ?_ ?_
  · rw [List.append_assoc]
    exact message.model_head _
  · have hsplit : CompactSplit (message.model ++ message.serial) message.model
        message.serial :=
      ⟨rfl, ⟨_, _, message.model_compact⟩, message.serial_ne, message.serial_decimals⟩
    simp [splitPayload, message.no_space, splitCompactPayload,
      compactMatch_eq_some_iff.mpr hsplit]

theorem splitMessageValue_spaced : splitMessageValue message.spacedValue =
    .ok (message.model, message.serial, message.table) := by
  refine message.splitMessageValue_append ?_ ?_
  · rw [List.append_assoc]
    exact message.model_head _
  · have hserial : (message.model ++ 32 :: message.serial).rtakeWhile (· ≠ 32) =
        message.serial := by
      refine rtakeWhile_append_cons (by decide) ?_
      intro c hc
      rw [decide_eq_true_eq]
      rintro rfl
      exact message.no_space (List.mem_append_right _ hc)
    have hmodel := Text.dropLast_append_length message.model (32 :: message.serial)
    have hstrip : Text.strip message.model = message.model := by
      have hhead := message.model_head []
      rw [List.append_nil] at hhead
      exact Text.strip_eq_self hhead message.model_last
    rw [List.length_cons] at hmodel
    have hparts : splitSpacedPayload (message.model ++ 32 :: message.serial) =
        (message.model, message.serial) := by
      rw [splitSpacedPayload, hserial, hmodel, hstrip, message.strip_serial]
    have hspace : 32 ∈ message.model ++ 32 :: message.serial := by simp
    simp [splitPayload, hspace, hparts]

end LayoutMessage

/-- The compact path reads the one split of its text. -/
theorem splitMessageValue_split {value model serial table : Text}
    (h : splitMessageValue value = .ok (model, serial, table))
    (hspace : 32 ∉ Text.dropLast 3 (Text.strip value)) :
    table = Text.takeLast 3 (Text.strip value) ∧
      CompactSplit (Text.dropLast 3 (Text.strip value)) model serial := by
  have htable := (splitMessageValue_eq_ok h).1
  unfold splitMessageValue at h
  simp only at h
  split at h
  · cases h
  · obtain ⟨parts, hparts, hbody⟩ := bind_eq_ok.mp h
    split at hbody
    · cases hbody
    · split at hbody
      · cases hbody
      · cases hbody
        refine ⟨htable, ?_⟩
        rw [splitPayload, if_neg (by simpa using hspace), splitCompactPayload] at hparts
        cases hmatch : compactMatch (Text.dropLast 3 (Text.strip value)) with
        | none =>
            rw [hmatch] at hparts
            cases hparts
        | some found =>
            rw [hmatch] at hparts
            cases hparts
            exact compactMatch_eq_some_iff.mp hmatch

/--
The two layouts: every payload that carries a message in one of them is decoded to that
message, and a value that the compact path accepts is the parts it is cut into, in the
only way to cut it.
-/
theorem layouts_decode_uniquely :
    (∀ (message : LayoutMessage) (payload : Bytes) (text value : Text),
      Utf8.decode payload = some text →
      Json.loads text = .ok (.dict [(message.messageType, .text value)]) →
      value = message.compactValue ∨ value = message.spacedValue →
      parsePlcMessage payload = .ok message.parsed) ∧
    ∀ value model serial table : Text,
      splitMessageValue value = .ok (model, serial, table) →
      32 ∉ Text.dropLast 3 (Text.strip value) →
      model ++ serial ++ table = Text.strip value ∧
      CompactSplit (Text.dropLast 3 (Text.strip value)) model serial ∧
      ∀ other rest, CompactSplit (Text.dropLast 3 (Text.strip value)) other rest →
        other = model ∧ rest = serial := by
  constructor
  · intro message payload text value hdecode hloads hvalue
    have hsplit : splitMessageValue value =
        .ok (message.model, message.serial, message.table) := by
      obtain rfl | rfl := hvalue
      · exact message.splitMessageValue_compact
      · exact message.splitMessageValue_spaced
    simp [parsePlcMessage, decodePayload, hdecode, loadJsonObject, hloads, parseFields,
      message.type_supported, hsplit, bind, Except.bind, LayoutMessage.parsed]
  · intro value model serial table haccepted hspace
    obtain ⟨rfl, hsplit⟩ := splitMessageValue_split haccepted hspace
    refine ⟨?_, hsplit, fun other rest hother => hsplit.unique hother⟩
    rw [hsplit.joined, Text.dropLast_append_takeLast]

def sampleLayout : LayoutMessage where
  messageType := str "MN"
  line := str "TEST"
  group := str "001"
  serial := str "12345"
  table := str "T01"
  type_supported := by decide
  table_supported := by decide
  line_ne := by decide
  line_plain := by decide
  line_head := by decide
  three := rfl
  group_decimals := by decide
  serial_ne := by decide
  serial_decimals := by decide

theorem layouts_decode_uniquely_sample :
    parsePlcMessage (compactPayload.map UInt8.ofNat) = .ok sampleLayout.parsed ∧
      ∀ other rest, CompactSplit (str "TESTP00112345") other rest →
        other = str "TESTP001" ∧ rest = str "12345" := by
  have hdecode : Utf8.decode (compactPayload.map UInt8.ofNat) = some compactPayload := by
    decide +kernel
  have hplain : Json.plain (.dict [(sampleLayout.messageType,
      .text sampleLayout.compactValue)]) = true := by
    decide +kernel
  have hrender : Json.render Json.compactSeparators (.dict [(sampleLayout.messageType,
      .text sampleLayout.compactValue)]) = compactPayload := by
    decide +kernel
  have hloads := (Json.loads_dumps Json.compactSeparators hplain (by decide)).2
  rw [hrender] at hloads
  have hsplit : splitMessageValue (str "TESTP00112345T01") =
      .ok (str "TESTP001", str "12345", str "T01") := by
    decide +kernel
  obtain ⟨hboth, hunique⟩ := layouts_decode_uniquely
  exact ⟨hboth sampleLayout _ _ _ hdecode hloads (.inl rfl),
    (hunique _ _ _ _ hsplit (by decide)).2.2⟩

end EdgeBridge
