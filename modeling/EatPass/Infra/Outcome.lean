import EatPass.Infra.Bytes

/-!
# What a call can end in

A Rust function returns a value, returns an error, or panics. A panic is not an error of the
function: the caller does not see it, the task that runs the caller is gone. Arithmetic panics on
overflow in a debug build and wraps around in a release build, so the operations below take the
build profile.
-/

namespace Infra

/-- The end of a call. -/
inductive Outcome (ε α : Type) where
  | ok (a : α)
  | err (e : ε)
  | panic
deriving DecidableEq

namespace Outcome

variable {ε α β : Type}

/-- The `?` operator: an error or a panic ends the caller too. -/
protected def bind : Outcome ε α → (α → Outcome ε β) → Outcome ε β
  | .ok a, f => f a
  | .err e, _ => .err e
  | .panic, _ => .panic

instance : Monad (Outcome ε) where
  pure := .ok
  bind := Outcome.bind

@[simp] theorem ok_bind (a : α) (f : α → Outcome ε β) : (Outcome.ok a >>= f) = f a := rfl

@[simp] theorem err_bind (e : ε) (f : α → Outcome ε β) : (Outcome.err e >>= f) = .err e := rfl

@[simp] theorem panic_bind (f : α → Outcome ε β) : (Outcome.panic >>= f) = .panic := rfl

@[simp] theorem pure_eq_ok (a : α) : (pure a : Outcome ε α) = .ok a := rfl

/-- **A sequence succeeds exactly when both parts do.** -/
theorem bind_eq_ok {x : Outcome ε α} {f : α → Outcome ε β} {b : β} :
    (x >>= f) = .ok b ↔ ∃ a, x = .ok a ∧ f a = .ok b := by
  cases x with
  | ok a => simp
  | err e => simp
  | panic => simp

/-- `ok_or_else`: the error of an absent value. -/
def ofOption (e : ε) : Option α → Outcome ε α
  | some a => .ok a
  | none => .err e

@[simp] theorem ofOption_some (e : ε) (a : α) : ofOption e (some a) = .ok a := rfl

@[simp] theorem ofOption_none (e : ε) : (ofOption e none : Outcome ε α) = .err e := rfl

theorem ofOption_eq_ok {e : ε} {o : Option α} {a : α} : ofOption e o = .ok a ↔ o = some a := by
  cases o <;> simp [ofOption]

/-- A `Result` with its error mapped. -/
def ofExcept {ε' : Type} (f : ε' → ε) : Except ε' α → Outcome ε α
  | .ok a => .ok a
  | .error e => .err (f e)

@[simp] theorem ofExcept_ok {ε' : Type} (f : ε' → ε) (a : α) : ofExcept f (.ok a) = .ok a := rfl

theorem ofExcept_eq_ok {ε' : Type} {f : ε' → ε} {x : Except ε' α} {a : α} :
    ofExcept f x = .ok a ↔ x = .ok a := by
  cases x <;> simp [ofExcept]

/-- `unwrap`: an absent value is a panic. -/
def unwrap : Option α → Outcome ε α
  | some a => .ok a
  | none => .panic

theorem unwrap_eq_ok {o : Option α} {a : α} : (unwrap o : Outcome ε α) = .ok a ↔ o = some a := by
  cases o <;> simp [unwrap]

/-- An early `return Err(e)` unless the condition holds. -/
def require (c : Prop) [Decidable c] (e : ε) : Outcome ε Unit := if c then .ok () else .err e

theorem require_eq_ok {c : Prop} [Decidable c] {e : ε} {u : Unit} :
    require c e = .ok u ↔ c := by
  unfold require
  split <;> simp_all

theorem require_pos {c : Prop} [Decidable c] (h : c) (e : ε) : require c e = .ok () :=
  require_eq_ok.mpr h

theorem require_neg {c : Prop} [Decidable c] (h : ¬ c) (e : ε) : require c e = .err e :=
  if_neg h

/-- `map_err`. -/
def mapErr {ε' : Type} (f : ε → ε') : Outcome ε α → Outcome ε' α
  | .ok a => .ok a
  | .err e => .err (f e)
  | .panic => .panic

@[simp] theorem mapErr_ok {ε' : Type} (f : ε → ε') (a : α) :
    mapErr f (.ok a : Outcome ε α) = .ok a := rfl

@[simp] theorem mapErr_err {ε' : Type} (f : ε → ε') (e : ε) :
    mapErr f (.err e : Outcome ε α) = .err (f e) := rfl

theorem mapErr_eq_ok {ε' : Type} {f : ε → ε'} {x : Outcome ε α} {a : α} :
    mapErr f x = .ok a ↔ x = .ok a := by
  cases x <;> simp [mapErr]

/-! ### Calls that do not panic -/

/-- A sequence panics only in a part that is reached. -/
theorem bind_ne_panic {x : Outcome ε α} {f : α → Outcome ε β} (hx : x ≠ .panic)
    (hf : ∀ a, x = .ok a → f a ≠ .panic) : (x >>= f) ≠ .panic := by
  cases x with
  | ok a => exact hf a rfl
  | err e => simp
  | panic => exact absurd rfl hx

theorem mapErr_ne_panic {ε' : Type} {f : ε → ε'} {x : Outcome ε α} (hx : x ≠ .panic) :
    mapErr f x ≠ .panic := by
  cases x with
  | ok a => simp
  | err e => simp
  | panic => exact absurd rfl hx

theorem require_ne_panic (c : Prop) [Decidable c] (e : ε) : require c e ≠ .panic := by
  unfold require
  split <;> simp

theorem ofOption_ne_panic (e : ε) (o : Option α) : ofOption e o ≠ .panic := by
  cases o <;> simp

/-- What follows a check may rely on it. -/
theorem require_bind_ne_panic {c : Prop} [Decidable c] {e : ε} {f : Unit → Outcome ε β}
    (h : c → f () ≠ .panic) : (require c e >>= f) ≠ .panic :=
  bind_ne_panic (require_ne_panic c e) fun _ hc => h (require_eq_ok.mp hc)

end Outcome

/-! ## Machine arithmetic -/

/-- The cargo profile of a build. -/
inductive Profile where
  | debug
  | release
deriving DecidableEq

/-- `a + b` on `usize` (64 bits). -/
def addUsize {ε : Type} (p : Profile) (a b : Nat) : Outcome ε Nat :=
  if a + b < 2 ^ 64 then .ok (a + b)
  else match p with
    | .debug => .panic
    | .release => .ok ((a + b) % 2 ^ 64)

/-- `a + b` on `u32`. -/
def addU32 {ε : Type} (p : Profile) (a b : UInt32) : Outcome ε UInt32 :=
  if a.toNat + b.toNat < 2 ^ 32 then .ok (a + b)
  else match p with
    | .debug => .panic
    | .release => .ok (a + b)

/-- `saturating_add` on `u64`. -/
def saturatingAddU64 (a b : UInt64) : UInt64 :=
  if a.toNat + b.toNat < 2 ^ 64 then a + b else UInt64.ofNat (2 ^ 64 - 1)

theorem toNat_max_u64 (a b : UInt64) : (max a b).toNat = max a.toNat b.toNat := by
  show (if a ≤ b then b else a).toNat = _
  by_cases hle : a ≤ b
  · rw [if_pos hle, Nat.max_eq_right (UInt64.le_iff_toNat_le.mp hle)]
  · have hlt := UInt64.lt_iff_toNat_lt.mp (UInt64.not_le.mp hle)
    rw [if_neg hle, Nat.max_eq_left (by omega)]

/-- A sum that fits is not cut off. -/
theorem toNat_saturatingAddU64 {a b : UInt64} (h : a.toNat + b.toNat < 2 ^ 64) :
    (saturatingAddU64 a b).toNat = a.toNat + b.toNat := by
  unfold saturatingAddU64
  rw [if_pos h, UInt64.toNat_add, Nat.mod_eq_of_lt h]

/-- A saturating sum is at least what was added to. -/
theorem le_saturatingAddU64 (a b : UInt64) : a ≤ saturatingAddU64 a b := by
  rw [UInt64.le_iff_toNat_le]
  by_cases hfits : a.toNat + b.toNat < 2 ^ 64
  · rw [toNat_saturatingAddU64 hfits]
    omega
  · rw [saturatingAddU64, if_neg hfits]
    exact Nat.le_of_lt_succ a.toNat_lt

theorem addUsize_of_lt {ε : Type} (p : Profile) {a b : Nat} (h : a + b < 2 ^ 64) :
    (addUsize p a b : Outcome ε Nat) = .ok (a + b) := by
  unfold addUsize
  rw [if_pos h]

/-- What is returned is the sum modulo the word size, and in a debug build the sum itself. -/
theorem addUsize_eq_ok_iff {ε : Type} {p : Profile} {a b n : Nat} :
    (addUsize p a b : Outcome ε Nat) = .ok n ↔
      n = (a + b) % 2 ^ 64 ∧ (p = .debug → a + b < 2 ^ 64) := by
  unfold addUsize
  by_cases hlt : a + b < 2 ^ 64
  · rw [if_pos hlt, Nat.mod_eq_of_lt hlt, Outcome.ok.injEq]
    exact ⟨fun h => ⟨h.symm, fun _ => hlt⟩, fun h => h.1.symm⟩
  · rw [if_neg hlt]
    cases p with
    | debug =>
      refine ⟨fun h => ?_, fun h => absurd (h.2 rfl) hlt⟩
      cases h
    | release =>
      refine ⟨fun h => ⟨(Outcome.ok.inj h).symm, fun hp => ?_⟩, fun h => h.1 ▸ rfl⟩
      cases hp

theorem addUsize_eq_ok {ε : Type} {p : Profile} {a b n : Nat}
    (h : (addUsize p a b : Outcome ε Nat) = .ok n) : n = (a + b) % 2 ^ 64 :=
  (addUsize_eq_ok_iff.mp h).1

theorem addU32_of_lt {ε : Type} (p : Profile) {a b : UInt32} (h : a.toNat + b.toNat < 2 ^ 32) :
    (addU32 p a b : Outcome ε UInt32) = .ok (a + b) := by
  unfold addU32
  rw [if_pos h]

/-- A release build wraps around. -/
theorem addU32_release {ε : Type} (a b : UInt32) :
    (addU32 .release a b : Outcome ε UInt32) = .ok (a + b) := by
  unfold addU32
  split <;> rfl

/-- A sum that is returned is the wrapping sum. -/
theorem addU32_eq_ok {ε : Type} {p : Profile} {a b n : UInt32}
    (h : (addU32 p a b : Outcome ε UInt32) = .ok n) : n = a + b := by
  unfold addU32 at h
  split at h
  · cases h; rfl
  · cases p <;> simp_all

/-! ## Indexing -/

/-- `b[i]`. -/
def index {ε : Type} (b : List UInt8) (i : Nat) : Outcome ε UInt8 :=
  match b[i]? with
  | some x => .ok x
  | none => .panic

/-- `&b[i..j]`. -/
def slice {ε : Type} (b : List UInt8) (i j : Nat) : Outcome ε (List UInt8) :=
  if i ≤ j ∧ j ≤ b.length then .ok ((b.drop i).take (j - i)) else .panic

/-- `u16::from_be_bytes([b[i], b[i + 1]])`. -/
def readU16 {ε : Type} (b : List UInt8) (i : Nat) : Outcome ε UInt16 := do
  let hi ← index b i
  let lo ← index b (i + 1)
  return UInt16.ofNat (ofBeBytes [hi, lo])

/-- `b[i..i + n].try_into().unwrap()`. -/
def readBytes {ε : Type} (n : Nat) (b : List UInt8) (i : Nat) : Outcome ε (Bytes n) := do
  let part ← slice b i (i + n)
  Outcome.unwrap (toBytes? n part)

section Fields

/-! What stands at an offset is read back: `a` stands before it, so the offset is its length. -/

variable {ε : Type} {b a c : List UInt8} {i : Nat}

theorem index_eq_ok {x : UInt8} (hb : b = a ++ x :: c) (hi : i = a.length) :
    (index b i : Outcome ε UInt8) = .ok x := by
  subst hb hi
  unfold index
  rw [List.getElem?_append_right (Nat.le_refl _), Nat.sub_self]
  rfl

theorem slice_eq_ok {x : List UInt8} {j : Nat} (hb : b = a ++ (x ++ c)) (hi : i = a.length)
    (hj : j = i + x.length) : (slice b i j : Outcome ε (List UInt8)) = .ok x := by
  subst hb hi hj
  unfold slice
  rw [if_pos (by simp)]
  simp

theorem readBytes_eq_ok {n : Nat} {x : Bytes n} (hb : b = a ++ (x.val ++ c))
    (hi : i = a.length) : (readBytes n b i : Outcome ε (Bytes n)) = .ok x := by
  have hslice : (slice b i (i + n) : Outcome ε (List UInt8)) = .ok x.val :=
    slice_eq_ok hb hi (by rw [x.property])
  simp only [readBytes, hslice, Outcome.ok_bind, toBytes?_val]
  rfl

theorem readU16_eq_ok {v : UInt16} (hb : b = a ++ (beBytes 2 v.toNat ++ c)) (hi : i = a.length) :
    (readU16 b i : Outcome ε UInt16) = .ok v := by
  have hbytes : beBytes 2 v.toNat = [UInt8.ofNat (v.toNat / 256), UInt8.ofNat v.toNat] := rfl
  have hval : ofBeBytes (beBytes 2 v.toNat) = v.toNat := by
    rw [ofBeBytes_beBytes]
    exact Nat.mod_eq_of_lt v.toNat_lt
  rw [hbytes] at hb hval
  have hhi : (index b i : Outcome ε UInt8) = .ok (UInt8.ofNat (v.toNat / 256)) :=
    index_eq_ok hb hi
  have hlo : (index b (i + 1) : Outcome ε UInt8) = .ok (UInt8.ofNat v.toNat) := by
    refine index_eq_ok (a := a ++ [UInt8.ofNat (v.toNat / 256)]) (c := c) ?_ ?_
    · rw [hb, List.append_assoc]
      rfl
    · rw [hi, List.length_append]
      rfl
  simp only [readU16, hhi, hlo, Outcome.ok_bind, hval, Outcome.pure_eq_ok, UInt16.ofNat_toNat]

/-! What was read is what stood at the offset, and the rest stands behind it. -/

theorem drop_of_index {x : UInt8} (h : (index b i : Outcome ε UInt8) = .ok x) :
    b.drop i = x :: b.drop (i + 1) := by
  unfold index at h
  split at h
  · next y hy =>
    cases h
    obtain ⟨hlt, hget⟩ := List.getElem?_eq_some_iff.mp hy
    rw [List.drop_eq_getElem_cons hlt, hget]
  · cases h

theorem drop_of_slice {x : List UInt8} {j : Nat}
    (h : (slice b i j : Outcome ε (List UInt8)) = .ok x) :
    b.drop i = x ++ b.drop j ∧ x.length = j - i := by
  unfold slice at h
  split at h
  · next hij =>
    cases h
    refine ⟨?_, by rw [List.length_take, List.length_drop]; omega⟩
    rw [show b.drop j = (b.drop i).drop (j - i) by
      rw [List.drop_drop, Nat.add_sub_cancel' hij.1], List.take_append_drop]
  · cases h

theorem drop_of_readU16 {v : UInt16} (h : (readU16 b i : Outcome ε UInt16) = .ok v) :
    b.drop i = beBytes 2 v.toNat ++ b.drop (i + 2) := by
  simp only [readU16, Outcome.bind_eq_ok, Outcome.pure_eq_ok, Outcome.ok.injEq] at h
  obtain ⟨hi, hhi, lo, hlo, rfl⟩ := h
  have hhi' := hi.toNat_lt
  have hlo' := lo.toNat_lt
  have hval : (UInt16.ofNat (ofBeBytes [hi, lo])).toNat = hi.toNat * 256 + lo.toNat := by
    rw [UInt16.toNat_ofNat', show ofBeBytes [hi, lo] = hi.toNat * 256 + lo.toNat by
      simp only [ofBeBytes, List.reverse_cons, List.reverse_nil, List.nil_append,
        List.cons_append, ofLeBytes]
      omega]
    omega
  have hbytes : beBytes 2 (hi.toNat * 256 + lo.toNat) = [hi, lo] := by
    show [UInt8.ofNat ((hi.toNat * 256 + lo.toNat) / 256),
      UInt8.ofNat (hi.toNat * 256 + lo.toNat)] = [hi, lo]
    rw [show (hi.toNat * 256 + lo.toNat) / 256 = hi.toNat by omega, UInt8.ofNat_toNat]
    congr 2
    rw [← UInt8.toNat_inj, UInt8.toNat_ofNat']
    omega
  rw [hval, hbytes, drop_of_index hhi, drop_of_index hlo]
  rfl

theorem drop_of_readBytes {n : Nat} {x : Bytes n}
    (h : (readBytes n b i : Outcome ε (Bytes n)) = .ok x) :
    b.drop i = x.val ++ b.drop (i + n) := by
  simp only [readBytes, Outcome.bind_eq_ok, Outcome.unwrap_eq_ok] at h
  obtain ⟨part, hpart, hx⟩ := h
  rw [← toBytes?_eq_some.mp hx]
  exact (drop_of_slice hpart).1

/-! An access within the bounds succeeds. -/

theorem exists_index_eq_ok (h : i < b.length) : ∃ x, (index b i : Outcome ε UInt8) = .ok x := by
  refine ⟨b[i], ?_⟩
  unfold index
  rw [List.getElem?_eq_getElem h]

theorem exists_slice_eq_ok {j : Nat} (hij : i ≤ j) (hj : j ≤ b.length) :
    ∃ x, (slice b i j : Outcome ε (List UInt8)) = .ok x := by
  refine ⟨(b.drop i).take (j - i), ?_⟩
  unfold slice
  rw [if_pos ⟨hij, hj⟩]

theorem exists_readU16_eq_ok (h : i + 1 < b.length) :
    ∃ v, (readU16 b i : Outcome ε UInt16) = .ok v := by
  obtain ⟨hi, hhi⟩ : ∃ x, (index b i : Outcome ε UInt8) = .ok x := exists_index_eq_ok (by omega)
  obtain ⟨lo, hlo⟩ : ∃ x, (index b (i + 1) : Outcome ε UInt8) = .ok x := exists_index_eq_ok h
  refine ⟨UInt16.ofNat (ofBeBytes [hi, lo]), ?_⟩
  simp only [readU16, hhi, hlo, Outcome.ok_bind, Outcome.pure_eq_ok]

theorem exists_readBytes_eq_ok {n : Nat} (h : i + n ≤ b.length) :
    ∃ x, (readBytes n b i : Outcome ε (Bytes n)) = .ok x := by
  obtain ⟨part, hpart⟩ : ∃ x, (slice b i (i + n) : Outcome ε _) = .ok x :=
    exists_slice_eq_ok (Nat.le_add_right i n) h
  have hlen : part.length = n := by
    rw [(drop_of_slice hpart).2, Nat.add_sub_cancel_left]
  refine ⟨⟨part, hlen⟩, ?_⟩
  simp only [readBytes, hpart, Outcome.ok_bind, toBytes?, dif_pos hlen]
  rfl

theorem index_ne_panic (h : i < b.length) : (index b i : Outcome ε UInt8) ≠ .panic := by
  obtain ⟨x, hx⟩ : ∃ x, (index b i : Outcome ε UInt8) = .ok x := exists_index_eq_ok h
  simp [hx]

theorem slice_ne_panic {j : Nat} (hij : i ≤ j) (hj : j ≤ b.length) :
    (slice b i j : Outcome ε (List UInt8)) ≠ .panic := by
  obtain ⟨x, hx⟩ : ∃ x, (slice b i j : Outcome ε _) = .ok x := exists_slice_eq_ok hij hj
  simp [hx]

theorem readU16_ne_panic (h : i + 1 < b.length) :
    (readU16 b i : Outcome ε UInt16) ≠ .panic := by
  obtain ⟨v, hv⟩ : ∃ v, (readU16 b i : Outcome ε UInt16) = .ok v := exists_readU16_eq_ok h
  simp [hv]

end Fields

end Infra
