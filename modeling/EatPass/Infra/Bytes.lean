import Mathlib.Algebra.Ring.Nat
import Mathlib.Data.List.Basic

/-!
# Fixed-width byte strings

`[u8; n]` is a byte list that carries its length. The integers that are written into
byte strings go through `leBytes` and `beBytes`, which are `to_le_bytes` and `to_be_bytes`
for every width at once.

Two concatenations of fields are equal only if the fields are, as long as the widths agree.
`append_inj_bytes` and `beBytes_inj` are the two facts from which every injectivity result on
an encoder is built.
-/

namespace Infra

/-- `[u8; n]`. -/
abbrev Bytes (n : Nat) := { l : List UInt8 // l.length = n }

/-- `<[u8; n]>::try_from(slice)`. -/
def toBytes? (n : Nat) (l : List UInt8) : Option (Bytes n) :=
  if h : l.length = n then some ⟨l, h⟩ else none

@[simp] theorem toBytes?_val {n : Nat} (b : Bytes n) : toBytes? n b.val = some b := by
  simp [toBytes?, b.property]

theorem toBytes?_eq_some {n : Nat} {l : List UInt8} {b : Bytes n} :
    toBytes? n l = some b ↔ l = b.val := by
  constructor
  · intro h
    unfold toBytes? at h
    split at h
    · exact congrArg Subtype.val (Option.some.inj h)
    · cases h
  · rintro rfl
    exact toBytes?_val b

/-! ## Little-endian and big-endian integers -/

/-- The low `w` bytes of `n`, least significant byte first. -/
def leBytes : Nat → Nat → List UInt8
  | 0, _ => []
  | w + 1, n => UInt8.ofNat n :: leBytes w (n / 256)

/-- The low `w` bytes of `n`, most significant byte first. -/
def beBytes (w n : Nat) : List UInt8 := (leBytes w n).reverse

/-- Reads a little-endian integer. -/
def ofLeBytes : List UInt8 → Nat
  | [] => 0
  | b :: rest => b.toNat + 256 * ofLeBytes rest

/-- Reads a big-endian integer (`from_be_bytes`). -/
def ofBeBytes (l : List UInt8) : Nat := ofLeBytes l.reverse

@[simp] theorem leBytes_length : ∀ w n : Nat, (leBytes w n).length = w
  | 0, _ => rfl
  | w + 1, n => by simp [leBytes, leBytes_length w]

@[simp] theorem beBytes_length (w n : Nat) : (beBytes w n).length = w := by
  simp [beBytes]

theorem ofLeBytes_leBytes : ∀ w n : Nat, ofLeBytes (leBytes w n) = n % 256 ^ w
  | 0, n => by simp [leBytes, ofLeBytes, Nat.mod_one]
  | w + 1, n => by
    rw [leBytes, ofLeBytes, ofLeBytes_leBytes w]
    rw [Nat.pow_succ, Nat.mul_comm (256 ^ w) 256, Nat.mod_mul]
    simp

/-- **Reading back a big-endian integer gives its value modulo the width.** -/
theorem ofBeBytes_beBytes (w n : Nat) : ofBeBytes (beBytes w n) = n % 256 ^ w := by
  rw [ofBeBytes, beBytes, List.reverse_reverse, ofLeBytes_leBytes]

theorem leBytes_inj {w m n : Nat} (hm : m < 256 ^ w) (hn : n < 256 ^ w)
    (h : leBytes w m = leBytes w n) : m = n := by
  have h2 := congrArg ofLeBytes h
  rwa [ofLeBytes_leBytes, ofLeBytes_leBytes, Nat.mod_eq_of_lt hm, Nat.mod_eq_of_lt hn] at h2

theorem beBytes_inj {w m n : Nat} (hm : m < 256 ^ w) (hn : n < 256 ^ w)
    (h : beBytes w m = beBytes w n) : m = n :=
  leBytes_inj hm hn (List.reverse_injective h)

theorem beBytes_inj_u32 {a b : UInt32} (h : beBytes 4 a.toNat = beBytes 4 b.toNat) : a = b :=
  UInt32.toNat_inj.mp (beBytes_inj a.toNat_lt b.toNat_lt h)

theorem beBytes_inj_u64 {a b : UInt64} (h : beBytes 8 a.toNat = beBytes 8 b.toNat) : a = b :=
  UInt64.toNat_inj.mp (beBytes_inj a.toNat_lt b.toNat_lt h)

theorem leBytes_inj_u32 {a b : UInt32} (h : leBytes 4 a.toNat = leBytes 4 b.toNat) : a = b :=
  UInt32.toNat_inj.mp (leBytes_inj a.toNat_lt b.toNat_lt h)

theorem leBytes_inj_u64 {a b : UInt64} (h : leBytes 8 a.toNat = leBytes 8 b.toNat) : a = b :=
  UInt64.toNat_inj.mp (leBytes_inj a.toNat_lt b.toNat_lt h)

/-- Lengths below 2^32 survive the cast to `u32`. -/
theorem ofNat_u32_inj {m n : Nat} (hm : m < 2 ^ 32) (hn : n < 2 ^ 32)
    (h : UInt32.ofNat m = UInt32.ofNat n) : m = n := by
  have hval := congrArg UInt32.toNat h
  rwa [UInt32.toNat_ofNat', UInt32.toNat_ofNat', Nat.mod_eq_of_lt hm, Nat.mod_eq_of_lt hn] at hval

/-! ## Concatenated fields -/

/-- Two fields of one width followed by anything: the field and the rest agree. -/
theorem append_inj_bytes {n : Nat} {a b : Bytes n} {r s : List UInt8}
    (h : a.val ++ r = b.val ++ s) : a = b ∧ r = s := by
  obtain ⟨h1, h2⟩ := List.append_inj h (by rw [a.property, b.property])
  exact ⟨Subtype.ext h1, h2⟩

end Infra
