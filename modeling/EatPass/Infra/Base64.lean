import EatPass.Infra.Text

/-!
# Base64 text

The two engines the program uses: `STANDARD` (padded) and `URL_SAFE_NO_PAD`. Both decoders are
strict. They refuse characters outside the alphabet, padding that is missing or not asked for,
and bits of the last character that encode nothing.
-/

namespace Infra.Base64

/-- The `base64` engines in use. -/
inductive Engine
  | standard
  | urlSafeNoPad
deriving DecidableEq

/-- The character of a value below 64. -/
def sextetChar (e : Engine) (n : Nat) : Char :=
  if n < 26 then Char.ofNat (0x41 + n)
  else if n < 52 then Char.ofNat (0x61 + n - 26)
  else if n < 62 then Char.ofNat (0x30 + n - 52)
  else match e with
    | .standard => if n = 62 then '+' else '/'
    | .urlSafeNoPad => if n = 62 then '-' else '_'

/-- The value of a character of the alphabet. -/
def sextetValue (e : Engine) (c : Char) : Option Nat :=
  let n := c.toNat
  if 0x41 ≤ n && n ≤ 0x5A then some (n - 0x41)
  else if 0x61 ≤ n && n ≤ 0x7A then some (n - 0x61 + 26)
  else if 0x30 ≤ n && n ≤ 0x39 then some (n - 0x30 + 52)
  else match e with
    | .standard => if c = '+' then some 62 else if c = '/' then some 63 else none
    | .urlSafeNoPad => if c = '-' then some 62 else if c = '_' then some 63 else none

/-- Encodes without padding: three bytes become four characters. -/
def encodeGroups (e : Engine) : List UInt8 → List Char
  | [] => []
  | [a] =>
    [sextetChar e (a.toNat / 4), sextetChar e (a.toNat % 4 * 16)]
  | [a, b] =>
    [sextetChar e (a.toNat / 4), sextetChar e (a.toNat % 4 * 16 + b.toNat / 16),
      sextetChar e (b.toNat % 16 * 4)]
  | a :: b :: c :: rest =>
    sextetChar e (a.toNat / 4) :: sextetChar e (a.toNat % 4 * 16 + b.toNat / 16)
      :: sextetChar e (b.toNat % 16 * 4 + c.toNat / 64) :: sextetChar e (c.toNat % 64)
      :: encodeGroups e rest

/-- Decodes without padding. -/
def decodeGroups (e : Engine) : List Char → Option (List UInt8)
  | [] => some []
  | [_] => none
  | [w, x] =>
    match sextetValue e w, sextetValue e x with
    | some p, some q => if q % 16 = 0 then some [UInt8.ofNat (p * 4 + q / 16)] else none
    | _, _ => none
  | [w, x, y] =>
    match sextetValue e w, sextetValue e x, sextetValue e y with
    | some p, some q, some r =>
      if r % 4 = 0 then
        some [UInt8.ofNat (p * 4 + q / 16), UInt8.ofNat (q % 16 * 16 + r / 4)]
      else none
    | _, _, _ => none
  | w :: x :: y :: z :: rest =>
    match sextetValue e w, sextetValue e x, sextetValue e y, sextetValue e z,
        decodeGroups e rest with
    | some p, some q, some r, some s, some bytes =>
      some (UInt8.ofNat (p * 4 + q / 16) :: UInt8.ofNat (q % 16 * 16 + r / 4)
        :: UInt8.ofNat (r % 4 * 64 + s) :: bytes)
    | _, _, _, _, _ => none

/-- `Engine::encode`. -/
def encode (e : Engine) (bytes : List UInt8) : List Char :=
  let groups := encodeGroups e bytes
  match e with
  | .standard => groups ++ List.replicate ((4 - groups.length % 4) % 4) '='
  | .urlSafeNoPad => groups

/-- `Engine::decode`. -/
def decode (e : Engine) (text : List Char) : Option (List UInt8) :=
  match e with
  | .standard =>
    let body := text.rdropWhile (· == '=')
    if text.length % 4 = 0 ∧ text.length - body.length ≤ 2 then decodeGroups e body else none
  | .urlSafeNoPad => decodeGroups e text

/-! ## The alphabet -/

theorem sextetValue_sextetChar (e : Engine) :
    ∀ n < 64, sextetValue e (sextetChar e n) = some n := by
  cases e <;> decide

/-- A character has a value only if it is the character of that value. -/
theorem sextetChar_of_sextetValue {e : Engine} {c : Char} {n : Nat}
    (h : sextetValue e c = some n) : n < 64 ∧ sextetChar e n = c := by
  simp only [sextetValue, Bool.and_eq_true, decide_eq_true_eq] at h
  have hc : Char.ofNat c.toNat = c := Char.ofNat_toNat c
  split at h
  · next hr =>
    cases h
    refine ⟨by omega, ?_⟩
    unfold sextetChar
    rw [if_pos (by omega), show 0x41 + (c.toNat - 0x41) = c.toNat by omega, hc]
  split at h
  · next hr =>
    cases h
    refine ⟨by omega, ?_⟩
    unfold sextetChar
    rw [if_neg (by omega), if_pos (by omega),
      show 0x61 + (c.toNat - 0x61 + 26) - 26 = c.toNat by omega, hc]
  split at h
  · next hr =>
    cases h
    refine ⟨by omega, ?_⟩
    unfold sextetChar
    rw [if_neg (by omega), if_neg (by omega), if_pos (by omega),
      show 0x30 + (c.toNat - 0x30 + 52) - 52 = c.toNat by omega, hc]
  · cases e with
    | standard =>
      simp only at h
      split at h
      · next hplus => cases h; exact ⟨by decide, hplus.symm⟩
      split at h
      · next hslash => cases h; exact ⟨by decide, hslash.symm⟩
      · cases h
    | urlSafeNoPad =>
      simp only at h
      split at h
      · next hdash => cases h; exact ⟨by decide, hdash.symm⟩
      split at h
      · next hlow => cases h; exact ⟨by decide, hlow.symm⟩
      · cases h

theorem isWhitespace_sextetChar (e : Engine) :
    ∀ n < 64, isWhitespace (sextetChar e n) = false := by
  cases e <;> decide

/-- The alphabet has neither the padding nor the characters that delimit header parameters. -/
theorem sextetChar_ne_delimiter (e : Engine) :
    ∀ n < 64, sextetChar e n ≠ '=' ∧ sextetChar e n ≠ '"' ∧ sextetChar e n ≠ ',' := by
  cases e <;> decide

theorem exists_sextetChar_of_mem {e : Engine} : ∀ {bytes : List UInt8} {ch : Char},
    ch ∈ encodeGroups e bytes → ∃ n, n < 64 ∧ ch = sextetChar e n
  | [], ch, h => by simp [encodeGroups] at h
  | [a], ch, h => by
    have ha := a.toNat_lt
    simp only [encodeGroups, List.mem_cons, List.not_mem_nil, or_false] at h
    rcases h with rfl | rfl
    · exact ⟨_, by omega, rfl⟩
    · exact ⟨_, by omega, rfl⟩
  | [a, b], ch, h => by
    have ha := a.toNat_lt
    have hb := b.toNat_lt
    simp only [encodeGroups, List.mem_cons, List.not_mem_nil, or_false] at h
    rcases h with rfl | rfl | rfl
    · exact ⟨_, by omega, rfl⟩
    · exact ⟨_, by omega, rfl⟩
    · exact ⟨_, by omega, rfl⟩
  | a :: b :: c :: rest, ch, h => by
    have ha := a.toNat_lt
    have hb := b.toNat_lt
    have hc := c.toNat_lt
    simp only [encodeGroups, List.mem_cons] at h
    rcases h with rfl | rfl | rfl | rfl | h
    · exact ⟨_, by omega, rfl⟩
    · exact ⟨_, by omega, rfl⟩
    · exact ⟨_, by omega, rfl⟩
    · exact ⟨_, by omega, rfl⟩
    · exact exists_sextetChar_of_mem h

/-! ## Round trip -/

theorem decodeGroups_encodeGroups (e : Engine) :
    ∀ bytes : List UInt8, decodeGroups e (encodeGroups e bytes) = some bytes
  | [] => rfl
  | [a] => by
    have ha := a.toNat_lt
    rw [encodeGroups, decodeGroups, sextetValue_sextetChar e _ (by omega),
      sextetValue_sextetChar e _ (by omega)]
    simp only
    -- the bits after the byte are zero, which the decoder insists on
    rw [if_pos (by omega), show a.toNat / 4 * 4 + a.toNat % 4 * 16 / 16 = a.toNat by omega,
      UInt8.ofNat_toNat]
  | [a, b] => by
    have ha := a.toNat_lt
    have hb := b.toNat_lt
    rw [encodeGroups, decodeGroups, sextetValue_sextetChar e _ (by omega),
      sextetValue_sextetChar e _ (by omega), sextetValue_sextetChar e _ (by omega)]
    simp only
    rw [if_pos (by omega),
      show a.toNat / 4 * 4 + (a.toNat % 4 * 16 + b.toNat / 16) / 16 = a.toNat by omega,
      show (a.toNat % 4 * 16 + b.toNat / 16) % 16 * 16 + b.toNat % 16 * 4 / 4 = b.toNat by omega,
      UInt8.ofNat_toNat, UInt8.ofNat_toNat]
  | a :: b :: c :: rest => by
    have ha := a.toNat_lt
    have hb := b.toNat_lt
    have hc := c.toNat_lt
    rw [encodeGroups, decodeGroups, sextetValue_sextetChar e _ (by omega),
      sextetValue_sextetChar e _ (by omega), sextetValue_sextetChar e _ (by omega),
      sextetValue_sextetChar e _ (by omega), decodeGroups_encodeGroups e rest]
    simp only
    rw [show a.toNat / 4 * 4 + (a.toNat % 4 * 16 + b.toNat / 16) / 16 = a.toNat by omega,
      show (a.toNat % 4 * 16 + b.toNat / 16) % 16 * 16 + (b.toNat % 16 * 4 + c.toNat / 64) / 4
        = b.toNat by omega,
      show (b.toNat % 16 * 4 + c.toNat / 64) % 4 * 64 + c.toNat % 64 = c.toNat by omega,
      UInt8.ofNat_toNat, UInt8.ofNat_toNat, UInt8.ofNat_toNat]

/-- The first byte of a group is made of the first sextet and the high bits of the second. -/
theorem toNat_firstByte {p q : Nat} (hp : p < 64) (hq : q < 64) :
    (UInt8.ofNat (p * 4 + q / 16)).toNat = p * 4 + q / 16 :=
  UInt8.toNat_ofNat_of_lt' (show _ < 256 by omega)

/-- The second byte is made of the low bits of the second sextet and the high bits of the third. -/
theorem toNat_secondByte {q r : Nat} (hr : r < 64) :
    (UInt8.ofNat (q % 16 * 16 + r / 4)).toNat = q % 16 * 16 + r / 4 :=
  UInt8.toNat_ofNat_of_lt' (show _ < 256 by omega)

/-- **A text that decodes is the one its bytes encode to.** The bits that the last character has
left over are checked, so no second text has the same bytes. -/
theorem encodeGroups_of_decodeGroups {e : Engine} : ∀ {text : List Char} {bytes : List UInt8},
    decodeGroups e text = some bytes → encodeGroups e bytes = text
  | [], bytes, h => by
    cases h
    rfl
  | [_], bytes, h => by cases h
  | [w, x], bytes, h => by
    rw [decodeGroups] at h
    split at h
    · next p q hp hq =>
      obtain ⟨hp64, rfl⟩ := sextetChar_of_sextetValue hp
      obtain ⟨hq64, rfl⟩ := sextetChar_of_sextetValue hq
      split at h
      · next hzero =>
        cases h
        rw [encodeGroups, toNat_firstByte hp64 hq64, show (p * 4 + q / 16) / 4 = p by omega,
          show (p * 4 + q / 16) % 4 * 16 = q by omega]
      · cases h
    · cases h
  | [w, x, y], bytes, h => by
    rw [decodeGroups] at h
    split at h
    · next p q r hp hq hr =>
      obtain ⟨hp64, rfl⟩ := sextetChar_of_sextetValue hp
      obtain ⟨hq64, rfl⟩ := sextetChar_of_sextetValue hq
      obtain ⟨hr64, rfl⟩ := sextetChar_of_sextetValue hr
      split at h
      · next hzero =>
        cases h
        rw [encodeGroups, toNat_firstByte hp64 hq64, toNat_secondByte hr64,
          show (p * 4 + q / 16) / 4 = p by omega,
          show (p * 4 + q / 16) % 4 * 16 + (q % 16 * 16 + r / 4) / 16 = q by omega,
          show (q % 16 * 16 + r / 4) % 16 * 4 = r by omega]
      · cases h
    · cases h
  | w :: x :: y :: z :: rest, bytes, h => by
    rw [decodeGroups] at h
    split at h
    · next p q r s tail hp hq hr hs htail =>
      obtain ⟨hp64, rfl⟩ := sextetChar_of_sextetValue hp
      obtain ⟨hq64, rfl⟩ := sextetChar_of_sextetValue hq
      obtain ⟨hr64, rfl⟩ := sextetChar_of_sextetValue hr
      obtain ⟨hs64, rfl⟩ := sextetChar_of_sextetValue hs
      cases h
      have hthd : (UInt8.ofNat (r % 4 * 64 + s)).toNat = r % 4 * 64 + s :=
        UInt8.toNat_ofNat_of_lt' (show _ < 256 by omega)
      rw [encodeGroups, toNat_firstByte hp64 hq64, toNat_secondByte hr64, hthd,
        show (p * 4 + q / 16) / 4 = p by omega,
        show (p * 4 + q / 16) % 4 * 16 + (q % 16 * 16 + r / 4) / 16 = q by omega,
        show (q % 16 * 16 + r / 4) % 16 * 4 + (r % 4 * 64 + s) / 64 = r by omega,
        show (r % 4 * 64 + s) % 64 = s by omega, encodeGroups_of_decodeGroups htail]
    · cases h

/-- A group is never cut after its first character, so the padding is at most two long. -/
theorem encodeGroups_length_mod (e : Engine) :
    ∀ bytes : List UInt8, (encodeGroups e bytes).length % 4 ≠ 1
  | [] => by simp [encodeGroups]
  | [_] => by simp [encodeGroups]
  | [_, _] => by simp [encodeGroups]
  | _ :: _ :: _ :: rest => by
    have := encodeGroups_length_mod e rest
    simp only [encodeGroups, List.length_cons]
    omega

theorem rdropWhile_replicate {c : Char} {l : List Char} (h : c ∉ l) (k : Nat) :
    (l ++ List.replicate k c).rdropWhile (· == c) = l := by
  have hall : ∀ d ∈ List.replicate k c, (d == c) = true :=
    of_mem_replicate (p := (· == c)) (beq_self_eq_true c) k
  rw [rdropWhile_append_of_pos hall, rdropWhile_eq_self (beq_eq_false_of_not_mem h)]

/-- **What an engine encodes, the same engine decodes.** -/
@[simp] theorem decode_encode (e : Engine) (bytes : List UInt8) :
    decode e (encode e bytes) = some bytes := by
  cases e with
  | urlSafeNoPad => exact decodeGroups_encodeGroups _ bytes
  | standard =>
    have hpad : '=' ∉ encodeGroups .standard bytes := by
      intro hm
      obtain ⟨n, hn, he⟩ := exists_sextetChar_of_mem hm
      exact (sextetChar_ne_delimiter .standard n hn).1 he.symm
    have hmod := encodeGroups_length_mod .standard bytes
    have hbody : (encode .standard bytes).rdropWhile (· == '=') = encodeGroups .standard bytes :=
      rdropWhile_replicate hpad _
    have hlen : (encode .standard bytes).length = (encodeGroups .standard bytes).length
        + (4 - (encodeGroups .standard bytes).length % 4) % 4 := by
      simp [encode]
    simp only [decode, hbody]
    rw [if_pos (by omega), decodeGroups_encodeGroups]

/-- **The unpadded decoder accepts exactly what the encoder writes.** -/
theorem decode_url_eq_some {text : List Char} {bytes : List UInt8} :
    decode .urlSafeNoPad text = some bytes ↔ encode .urlSafeNoPad bytes = text := by
  constructor
  · exact encodeGroups_of_decodeGroups
  · rintro rfl
    exact decode_encode .urlSafeNoPad bytes

/-- Encoded text has no whitespace in it. -/
theorem isWhitespace_of_mem_encode {e : Engine} {bytes : List UInt8} {c : Char}
    (hc : c ∈ encode e bytes) : isWhitespace c = false := by
  have hgroups : ∀ ch ∈ encodeGroups e bytes, isWhitespace ch = false := by
    intro ch hch
    obtain ⟨n, hn, rfl⟩ := exists_sextetChar_of_mem hch
    exact isWhitespace_sextetChar e n hn
  cases e with
  | urlSafeNoPad => exact hgroups c hc
  | standard =>
    rcases List.mem_append.mp hc with h | h
    · exact hgroups c h
    · rw [List.eq_of_mem_replicate h]
      decide

@[simp] theorem trim_encode (e : Engine) (bytes : List UInt8) :
    trim (encode e bytes) = encode e bytes :=
  trim_eq_self fun _ => isWhitespace_of_mem_encode

theorem encode_ne_nil {bytes : List UInt8} (h : bytes ≠ []) : encode .urlSafeNoPad bytes ≠ [] := by
  intro hnil
  have hdec := decode_encode .urlSafeNoPad bytes
  rw [hnil] at hdec
  exact h (Option.some.inj hdec).symm

/-- Unpadded text has no delimiter of a header parameter in it. -/
theorem not_mem_encode_url {c : Char} (hc : c = '=' ∨ c = '"' ∨ c = ',') (bytes : List UInt8) :
    c ∉ encode .urlSafeNoPad bytes := by
  intro hm
  obtain ⟨n, hn, rfl⟩ := exists_sextetChar_of_mem hm
  have := sextetChar_ne_delimiter .urlSafeNoPad n hn
  tauto

theorem encode_injective (e : Engine) : Function.Injective (encode e) := by
  intro a b h
  have hdec := congrArg (decode e) h
  rw [decode_encode, decode_encode] at hdec
  exact Option.some.inj hdec

/-- Encoded text ends where a JSON string does. -/
theorem not_mem_encode_standard (bytes : List UInt8) :
    '"' ∉ Base64.encode .standard bytes := by
  intro hm
  rcases List.mem_append.mp hm with hgroups | hpad
  · obtain ⟨n, hn, hc⟩ := exists_sextetChar_of_mem hgroups
    exact (sextetChar_ne_delimiter .standard n hn).2.1 hc.symm
  · exact absurd (List.eq_of_mem_replicate hpad) (by decide)

end Infra.Base64
