import EatPass.Infra.Bytes
import EatPass.Infra.Text

/-!
# Hexadecimal text

`hex::encode` writes lower case; `hex::decode` reads either case and refuses an odd number of
digits and every character that is not a digit. Neither of them trims.
-/

namespace Infra.Hex

/-- The digit of a value below 16, in lower case. -/
def digitChar (n : Nat) : Char :=
  if n < 10 then Char.ofNat (0x30 + n) else Char.ofNat (0x61 + n - 10)

/-- The value of a digit, in either case. -/
def digitValue (c : Char) : Option Nat :=
  let n := c.toNat
  if 0x30 ≤ n && n ≤ 0x39 then some (n - 0x30)
  else if 0x61 ≤ n && n ≤ 0x66 then some (n - 0x61 + 10)
  else if 0x41 ≤ n && n ≤ 0x46 then some (n - 0x41 + 10)
  else none

/-- `hex::encode`. -/
def encode (bytes : List UInt8) : List Char :=
  bytes.flatMap fun b => [digitChar (b.toNat / 16), digitChar (b.toNat % 16)]

/-- `hex::decode`. -/
def decode : List Char → Option (List UInt8)
  | [] => some []
  | [_] => none
  | hi :: lo :: rest =>
    match digitValue hi, digitValue lo, decode rest with
    | some h, some l, some bytes => some (UInt8.ofNat (h * 16 + l) :: bytes)
    | _, _, _ => none

/-! ## Digits -/

theorem digitValue_digitChar : ∀ n < 16, digitValue (digitChar n) = some n := by decide

theorem isWhitespace_digitChar : ∀ n < 16, isWhitespace (digitChar n) = false := by decide

/-- Every character of an encoding is the digit of a value below 16. -/
theorem exists_digitChar_of_mem_encode {bytes : List UInt8} {c : Char} (h : c ∈ encode bytes) :
    ∃ n, n < 16 ∧ c = digitChar n := by
  simp only [encode, List.mem_flatMap, List.mem_cons, List.not_mem_nil, or_false] at h
  obtain ⟨b, _, rfl | rfl⟩ := h
  · have := b.toNat_lt
    exact ⟨b.toNat / 16, by omega, rfl⟩
  · exact ⟨b.toNat % 16, by omega, rfl⟩

/-- **A digit is read by its value exactly when its lower case is the digit of that value.** -/
theorem digitValue_eq_some_iff (c : Char) (n : Nat) :
    digitValue c = some n ↔ n < 16 ∧ c.toLower = digitChar n := by
  by_cases hc : c.toNat < 128
  · -- the ASCII characters are tried one by one
    have hall : ∀ m < 128, ∀ k < 16,
        digitValue (Char.ofNat m) = some k ↔ (Char.ofNat m).toLower = digitChar k := by
      decide +kernel
    have hbound : ∀ m < 128, ∀ k ∈ digitValue (Char.ofNat m), k < 16 := by decide +kernel
    rw [← Char.ofNat_toNat c]
    constructor
    · intro h
      have hn := hbound _ hc n h
      exact ⟨hn, (hall _ hc n hn).mp h⟩
    · rintro ⟨hn, h⟩
      exact (hall _ hc n hn).mpr h
  · have hvalue : digitValue c = none := by
      unfold digitValue
      simp only [Bool.and_eq_true, decide_eq_true_eq]
      rw [if_neg (by omega), if_neg (by omega), if_neg (by omega)]
    have hsame : c.toLower = c := toLower_eq_self (Nat.le_of_not_lt hc)
    have hdigit : ∀ k < 16, (digitChar k).toNat < 128 := by decide
    rw [hvalue, hsame]
    constructor
    · intro h
      cases h
    · rintro ⟨hn, rfl⟩
      exact absurd (hdigit n hn) hc

/-- A whitespace character is no digit in either case. -/
theorem isWhitespace_of_digitValue {c : Char} {n : Nat} (h : digitValue c = some n) :
    isWhitespace c = false := by
  unfold digitValue at h
  simp only [Bool.and_eq_true, decide_eq_true_eq] at h
  have hrange : 0x30 ≤ c.toNat ∧ c.toNat ≤ 0x66 := by
    split at h
    · omega
    · split at h
      · omega
      · split at h
        · omega
        · cases h
  unfold isWhitespace
  simp only [Bool.or_eq_false_iff, Bool.and_eq_false_iff, decide_eq_false_iff_not,
    beq_eq_false_iff_ne]
  omega

/-! ## Round trip -/

@[simp] theorem encode_nil : encode [] = [] := rfl

theorem encode_cons (b : UInt8) (rest : List UInt8) :
    encode (b :: rest) = digitChar (b.toNat / 16) :: digitChar (b.toNat % 16) :: encode rest :=
  rfl

/-- **What `encode` writes, `decode` reads back.** -/
@[simp] theorem decode_encode : ∀ bytes : List UInt8, decode (encode bytes) = some bytes
  | [] => rfl
  | b :: rest => by
    have hb := b.toNat_lt
    rw [encode_cons, decode, digitValue_digitChar _ (by omega), digitValue_digitChar _ (by omega),
      decode_encode rest]
    simp only
    rw [show b.toNat / 16 * 16 + b.toNat % 16 = b.toNat by omega, UInt8.ofNat_toNat]

@[simp] theorem trim_encode (bytes : List UInt8) : trim (encode bytes) = encode bytes := by
  refine trim_eq_self fun c hc => ?_
  obtain ⟨n, hn, rfl⟩ := exists_digitChar_of_mem_encode hc
  exact isWhitespace_digitChar n hn

/-- **A text is read as the bytes exactly when its lower case is their encoding.** -/
theorem decode_eq_some_iff : ∀ (l : List Char) (bytes : List UInt8),
    decode l = some bytes ↔ l.map Char.toLower = encode bytes
  | [], [] => by simp [decode]
  | [], b :: bytes => by simp [decode, encode_cons]
  | [c], [] => by simp [decode]
  | [c], b :: bytes => by simp [decode, encode_cons]
  | hi :: lo :: rest, [] => by
    simp only [decode, encode_nil, List.map_cons, reduceCtorEq, iff_false]
    split <;> simp
  | hi :: lo :: rest, b :: bytes => by
    have hb := b.toNat_lt
    rw [encode_cons, List.map_cons, List.map_cons, List.cons.injEq, List.cons.injEq, decode]
    constructor
    · intro h
      split at h
      · next x y bs hx hy hrest =>
        obtain ⟨hx16, hx⟩ := (digitValue_eq_some_iff _ _).mp hx
        obtain ⟨hy16, hy⟩ := (digitValue_eq_some_iff _ _).mp hy
        obtain ⟨hbyte, rfl⟩ := List.cons.inj (Option.some.inj h)
        have hval : b.toNat = x * 16 + y := by
          rw [← hbyte, UInt8.toNat_ofNat']
          omega
        refine ⟨?_, ?_, (decode_eq_some_iff rest bs).mp hrest⟩
        · rw [hx, show b.toNat / 16 = x by omega]
        · rw [hy, show b.toNat % 16 = y by omega]
      · cases h
    · rintro ⟨hhi, hlo, hrest⟩
      rw [(digitValue_eq_some_iff hi (b.toNat / 16)).mpr ⟨by omega, hhi⟩,
        (digitValue_eq_some_iff lo (b.toNat % 16)).mpr ⟨by omega, hlo⟩,
        (decode_eq_some_iff rest bytes).mpr hrest]
      simp only
      rw [show b.toNat / 16 * 16 + b.toNat % 16 = b.toNat by omega, UInt8.ofNat_toNat]

theorem map_toLower_encode (bytes : List UInt8) :
    (encode bytes).map Char.toLower = encode bytes :=
  (decode_eq_some_iff _ _).mp (decode_encode bytes)

theorem length_encode (bytes : List UInt8) : (encode bytes).length = 2 * bytes.length := by
  induction bytes with
  | nil => rfl
  | cons b rest ih =>
    rw [encode_cons, List.length_cons, List.length_cons, List.length_cons, ih]
    omega

/-- An encoding is written in the lower-case digits. -/
theorem mem_digits_of_mem_encode {bytes : List UInt8} {c : Char} (h : c ∈ encode bytes) :
    c ∈ "0123456789abcdef".toList := by
  have hdigits : ∀ n < 16, digitChar n ∈ "0123456789abcdef".toList := by decide
  obtain ⟨n, hn, rfl⟩ := exists_digitChar_of_mem_encode h
  exact hdigits n hn

/-- Comparing with an encoding in either case is reading the text. -/
theorem eqIgnoreAsciiCase_encode_iff (l : List Char) (bytes : List UInt8) :
    eqIgnoreAsciiCase l (encode bytes) = true ↔ decode l = some bytes := by
  rw [eqIgnoreAsciiCase, beq_iff_eq, map_toLower_encode, decode_eq_some_iff]

theorem encode_injective : Function.Injective encode := by
  intro a b h
  have := congrArg decode h
  simpa using this

/-- Every character of a text that is read is a digit. -/
theorem exists_digitValue_of_mem {l : List Char} {bytes : List UInt8} {c : Char}
    (h : decode l = some bytes) (hc : c ∈ l) : ∃ n, digitValue c = some n := by
  have hlower : c.toLower ∈ encode bytes := by
    rw [← (decode_eq_some_iff l bytes).mp h]
    exact List.mem_map_of_mem hc
  obtain ⟨n, hn, hdigit⟩ := exists_digitChar_of_mem_encode hlower
  exact ⟨n, (digitValue_eq_some_iff c n).mpr ⟨hn, hdigit⟩⟩

/-! ## Arrays -/

/-- Reads `n` bytes of hexadecimal text (`hex::decode` followed by `try_into`). -/
def decodeArray (n : Nat) (l : List Char) : Option (Bytes n) := (decode l).bind (toBytes? n)

theorem decodeArray_eq_some {n : Nat} {l : List Char} {b : Bytes n} :
    decodeArray n l = some b ↔ decode l = some b.val := by
  rw [decodeArray, Option.bind_eq_some_iff]
  simp only [toBytes?_eq_some, exists_eq_right]

@[simp] theorem decodeArray_encode {n : Nat} (b : Bytes n) :
    decodeArray n (encode b.val) = some b := by
  simp [decodeArray]

end Infra.Hex
