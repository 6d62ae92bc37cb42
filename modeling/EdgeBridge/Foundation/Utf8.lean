import EdgeBridge.Foundation.Text

/-!
# UTF-8 decoding

`bytes.decode("utf-8")`, strictly and with `errors="replace"`.  Both read one
character at a time; an ill-formed sequence is consumed up to its first byte
that cannot continue it, and `errors="replace"` turns it into one U+FFFD.
-/

namespace EdgeBridge.Foundation

abbrev Bytes := List UInt8

namespace Utf8

inductive Decoded where
  | char (code : Nat) (rest : Bytes)
  | invalid (rest : Bytes)

def isContinuation (byte : UInt8) : Bool := 0x80 ≤ byte.toNat && byte.toNat < 0xc0

/-- The second byte of a three-byte form: neither overlong nor a surrogate. -/
def isSecondOfThree (lead byte : UInt8) : Bool :=
  isContinuation byte &&
    (lead.toNat != 0xe0 || 0xa0 ≤ byte.toNat) &&
    (lead.toNat != 0xed || byte.toNat < 0xa0)

/-- The second byte of a four-byte form: neither overlong nor past U+10FFFF. -/
def isSecondOfFour (lead byte : UInt8) : Bool :=
  isContinuation byte &&
    (lead.toNat != 0xf0 || 0x90 ≤ byte.toNat) &&
    (lead.toNat != 0xf4 || byte.toNat < 0x90)

def payloadBits (byte : UInt8) : Nat := byte.toNat - 0x80

def decodeTwo (lead : UInt8) : Bytes → Decoded
  | [] => .invalid []
  | b :: rest =>
      if isContinuation b then
        .char ((lead.toNat - 0xc0) * 0x40 + payloadBits b) rest
      else .invalid (b :: rest)

def decodeThree (lead : UInt8) : Bytes → Decoded
  | [] => .invalid []
  | b :: rest =>
      if isSecondOfThree lead b then
        match rest with
        | [] => .invalid []
        | c :: rest =>
            if isContinuation c then
              .char ((lead.toNat - 0xe0) * 0x1000 + payloadBits b * 0x40 +
                payloadBits c) rest
            else .invalid (c :: rest)
      else .invalid (b :: rest)

def decodeFour (lead : UInt8) : Bytes → Decoded
  | [] => .invalid []
  | b :: rest =>
      if isSecondOfFour lead b then
        match rest with
        | [] => .invalid []
        | c :: rest =>
            if isContinuation c then
              match rest with
              | [] => .invalid []
              | d :: rest =>
                  if isContinuation d then
                    .char ((lead.toNat - 0xf0) * 0x40000 +
                      payloadBits b * 0x1000 + payloadBits c * 0x40 +
                      payloadBits d) rest
                  else .invalid (d :: rest)
            else .invalid (c :: rest)
      else .invalid (b :: rest)

def decodeOne (lead : UInt8) (rest : Bytes) : Decoded :=
  if lead.toNat < 0x80 then .char lead.toNat rest
  else if lead.toNat < 0xc2 then .invalid rest
  else if lead.toNat < 0xe0 then decodeTwo lead rest
  else if lead.toNat < 0xf0 then decodeThree lead rest
  else if lead.toNat < 0xf5 then decodeFour lead rest
  else .invalid rest

/-- Every step consumes a byte, so the number of bytes is fuel enough. -/
def decodeFrom : Nat → Bytes → Option Text
  | _, [] => some []
  | 0, _ => none
  | fuel + 1, lead :: rest =>
      match decodeOne lead rest with
      | .char code rest => (decodeFrom fuel rest).map (code :: ·)
      | .invalid _ => none

def replaceFrom : Nat → Bytes → Text
  | _, [] => []
  | 0, _ => []
  | fuel + 1, lead :: rest =>
      match decodeOne lead rest with
      | .char code rest => code :: replaceFrom fuel rest
      | .invalid rest => 0xfffd :: replaceFrom fuel rest

/-- `payload.decode("utf-8")`; `none` stands for `UnicodeDecodeError`. -/
def decode (bytes : Bytes) : Option Text := decodeFrom bytes.length bytes

/-- `payload.decode("utf-8", errors="replace")`. -/
def decodeReplace (bytes : Bytes) : Text := replaceFrom bytes.length bytes

open Text (isScalar_iff)

theorem decodeTwo_scalar {lead : UInt8} {bytes rest : Bytes} {code : Nat}
    (hlead : lead.toNat < 0xe0) (h : decodeTwo lead bytes = .char code rest) :
    Text.isScalar code = true := by
  cases bytes with
  | nil => simp [decodeTwo] at h
  | cons b bytes =>
      simp only [decodeTwo] at h
      split at h
      · next hb =>
        have hcode := (Decoded.char.inj h).1
        simp only [isContinuation, Bool.and_eq_true, decide_eq_true_eq] at hb
        rw [isScalar_iff]
        unfold payloadBits at hcode
        omega
      · cases h

theorem decodeThree_scalar {lead : UInt8} {bytes rest : Bytes} {code : Nat}
    (hlead : lead.toNat < 0xf0) (h : decodeThree lead bytes = .char code rest) :
    Text.isScalar code = true := by
  rcases bytes with _ | ⟨b, _ | ⟨c, bytes⟩⟩
  · cases h
  · simp only [decodeThree] at h
    split at h <;> cases h
  · simp only [decodeThree] at h
    split at h
    · next hb =>
      split at h
      · next hc =>
        have hcode := (Decoded.char.inj h).1
        simp only [isSecondOfThree, isContinuation, Bool.and_eq_true,
          Bool.or_eq_true, bne_iff_ne, decide_eq_true_eq] at hb hc
        rw [isScalar_iff]
        unfold payloadBits at hcode
        omega
      · cases h
    · cases h

theorem decodeFour_scalar {lead : UInt8} {bytes rest : Bytes} {code : Nat}
    (hlow : 0xf0 ≤ lead.toNat) (hlead : lead.toNat < 0xf5)
    (h : decodeFour lead bytes = .char code rest) :
    Text.isScalar code = true := by
  rcases bytes with _ | ⟨b, _ | ⟨c, _ | ⟨d, bytes⟩⟩⟩
  · cases h
  · simp only [decodeFour] at h
    split at h <;> cases h
  · simp only [decodeFour] at h
    split at h
    · split at h <;> cases h
    · cases h
  · simp only [decodeFour] at h
    split at h
    · next hb =>
      split at h
      · next hc =>
        split at h
        · next hd =>
          have hcode := (Decoded.char.inj h).1
          simp only [isSecondOfFour, isContinuation, Bool.and_eq_true,
            Bool.or_eq_true, bne_iff_ne, decide_eq_true_eq] at hb hc hd
          rw [isScalar_iff]
          unfold payloadBits at hcode
          omega
        · cases h
      · cases h
    · cases h

theorem decodeOne_scalar {lead : UInt8} {bytes rest : Bytes} {code : Nat}
    (h : decodeOne lead bytes = .char code rest) : Text.isScalar code = true := by
  unfold decodeOne at h
  split at h
  · next hascii =>
    have hcode := (Decoded.char.inj h).1
    rw [isScalar_iff]
    omega
  split at h
  · cases h
  split at h
  · next htwo => exact decodeTwo_scalar htwo h
  split at h
  · next hthree => exact decodeThree_scalar hthree h
  split at h
  · next hge hfour => exact decodeFour_scalar (by omega) hfour h
  · cases h

theorem decodeFrom_encodable {fuel : Nat} {bytes : Bytes} {text : Text}
    (h : decodeFrom fuel bytes = some text) : text.encodable = true := by
  induction fuel generalizing bytes text with
  | zero =>
      cases bytes with
      | nil =>
          cases h
          rfl
      | cons lead bytes => cases h
  | succ fuel ih =>
      cases bytes with
      | nil =>
          cases h
          rfl
      | cons lead bytes =>
          simp only [decodeFrom] at h
          split at h
          · next code rest hone =>
            obtain ⟨tail, htail, rfl⟩ := Option.map_eq_some_iff.mp h
            rw [Text.encodable, List.all_cons, decodeOne_scalar hone, Bool.true_and]
            exact ih htail
          · cases h

/-- A decoded text holds no surrogate, so it can be encoded again. -/
theorem decode_encodable {bytes : Bytes} {text : Text}
    (h : decode bytes = some text) : text.encodable = true :=
  decodeFrom_encodable h

theorem replaceFrom_of_decodeFrom {fuel : Nat} {bytes : Bytes} {text : Text}
    (h : decodeFrom fuel bytes = some text) : replaceFrom fuel bytes = text := by
  induction fuel generalizing bytes text with
  | zero =>
      cases bytes with
      | nil =>
          cases h
          rfl
      | cons lead bytes => cases h
  | succ fuel ih =>
      cases bytes with
      | nil =>
          cases h
          rfl
      | cons lead bytes =>
          simp only [decodeFrom] at h
          split at h
          · next code rest hone =>
            obtain ⟨tail, htail, rfl⟩ := Option.map_eq_some_iff.mp h
            simp only [replaceFrom, hone, ih htail]
          · cases h

/-- In valid UTF-8 nothing is replaced. -/
theorem decodeReplace_of_decode {bytes : Bytes} {text : Text} (h : decode bytes = some text) :
    decodeReplace bytes = text :=
  replaceFrom_of_decodeFrom h

end Utf8

end EdgeBridge.Foundation
