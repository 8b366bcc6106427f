import Mathlib.Algebra.Ring.Nat
import Mathlib.Data.List.DropRight

/-!
# Text operations of the Rust standard library

The `str` methods the program calls, as functions on lists of Unicode scalar values.
Only what the callers can observe is kept: a slice of the text or an owned copy of it are
the same list here.
-/

namespace Infra

/-! ## Whitespace -/

/-- `char::is_whitespace`: the Unicode property `White_Space`. -/
def isWhitespace (c : Char) : Bool :=
  let n := c.toNat
  (0x09 ≤ n && n ≤ 0x0D) || n == 0x20 || n == 0x85 || n == 0xA0 || n == 0x1680
    || (0x2000 ≤ n && n ≤ 0x200A) || n == 0x2028 || n == 0x2029 || n == 0x202F
    || n == 0x205F || n == 0x3000

/-- `str::trim`. -/
def trim (l : List Char) : List Char := (l.rdropWhile isWhitespace).dropWhile isWhitespace

theorem rdropWhile_eq_self {α : Type} {p : α → Bool} {l : List α} (h : ∀ c ∈ l, p c = false) :
    l.rdropWhile p = l := by
  rw [List.rdropWhile_eq_self_iff]
  intro hne
  simp [h _ (List.getLast_mem hne)]

theorem dropWhile_eq_self {α : Type} {p : α → Bool} {l : List α} (h : ∀ c ∈ l, p c = false) :
    l.dropWhile p = l := by
  cases l with
  | nil => rfl
  | cons c rest => rw [List.dropWhile_cons_of_neg (by simp [h c List.mem_cons_self])]

/-- Dropping from the right stops at an element that is kept. -/
theorem rdropWhile_append_cons {α : Type} {p : α → Bool} {c : α} (hc : p c = false)
    (a : List α) : ∀ b : List α, (a ++ c :: b).rdropWhile p = a ++ c :: b.rdropWhile p := by
  intro b
  induction b using List.reverseRecOn with
  | nil => rw [List.rdropWhile_concat_neg p a c (by simp [hc])]; simp
  | append_singleton b x ih =>
    rw [show a ++ c :: (b ++ [x]) = (a ++ c :: b) ++ [x] by simp]
    rw [List.rdropWhile_concat, List.rdropWhile_concat, ih]
    split <;> simp

theorem of_mem_replicate {α : Type} {p : α → Bool} {x : α} {v : Bool} (h : p x = v) (n : Nat) :
    ∀ c ∈ List.replicate n x, p c = v := by
  intro c hc
  rw [List.eq_of_mem_replicate hc, h]

/-- What is dropped from the right does not depend on what stands before it. -/
theorem rdropWhile_append_of_pos {α : Type} {p : α → Bool} {a b : List α}
    (hb : ∀ c ∈ b, p c = true) : (a ++ b).rdropWhile p = a.rdropWhile p := by
  have hrev : ∀ c ∈ b.reverse, p c = true := fun c hc => hb c (List.mem_reverse.mp hc)
  rw [List.rdropWhile, List.reverse_append, List.dropWhile_append_of_pos hrev, List.rdropWhile]

/-- Dropping from the right stops at a text with nothing to drop in it. -/
theorem rdropWhile_append_of_neg {α : Type} {p : α → Bool} {m : List α} (hne : m ≠ [])
    (hm : ∀ c ∈ m, p c = false) (a b : List α) :
    (a ++ (m ++ b)).rdropWhile p = a ++ (m ++ b.rdropWhile p) := by
  obtain ⟨init, last, hlast⟩ := (List.eq_nil_or_concat' m).resolve_left hne
  have := rdropWhile_append_cons (hm last (by simp [hlast])) (a ++ init) b
  simpa [hlast] using this

/-- The same from both ends. -/
theorem dropWhile_rdropWhile_append {α : Type} {p : α → Bool} {a m : List α} (hne : m ≠ [])
    (ha : ∀ c ∈ a, p c = true) (hm : ∀ c ∈ m, p c = false) (b : List α) :
    ((a ++ (m ++ b)).rdropWhile p).dropWhile p = m ++ b.rdropWhile p := by
  obtain ⟨first, rest, hfirst⟩ := List.exists_cons_of_ne_nil hne
  have hneg : ¬ p first = true := by simp [hm first (by simp [hfirst])]
  rw [rdropWhile_append_of_neg hne hm, List.dropWhile_append_of_pos ha, hfirst, List.cons_append,
    List.dropWhile_cons_of_neg hneg]

theorem trim_eq_self {l : List Char} (h : ∀ c ∈ l, isWhitespace c = false) : trim l = l := by
  rw [trim, rdropWhile_eq_self h, dropWhile_eq_self h]

theorem trim_append {a m : List Char} (hne : m ≠ []) (ha : ∀ c ∈ a, isWhitespace c = true)
    (hm : ∀ c ∈ m, isWhitespace c = false) (b : List Char) :
    trim (a ++ (m ++ b)) = m ++ b.rdropWhile isWhitespace :=
  dropWhile_rdropWhile_append hne ha hm b

theorem trim_rdropWhile (l : List Char) : trim (l.rdropWhile isWhitespace) = trim l := by
  rw [trim, List.rdropWhile_idempotent, trim]

@[simp] theorem trim_trim (l : List Char) : trim (trim l) = trim l := by
  have hr : (trim l).rdropWhile isWhitespace = trim l := by
    rw [List.rdropWhile_eq_self_iff]
    intro hne
    -- the last character survives both drops, so it is the last one `rdropWhile` kept
    have hsuf : trim l <:+ l.rdropWhile isWhitespace := List.dropWhile_suffix _
    have hne' : l.rdropWhile isWhitespace ≠ [] := by
      intro he
      rw [he] at hsuf
      exact hne (List.suffix_nil.mp hsuf)
    have hlast : (trim l).getLast hne = (l.rdropWhile isWhitespace).getLast hne' := by
      obtain ⟨t, ht⟩ := hsuf
      simp only [← ht]
      rw [List.getLast_append_of_ne_nil _ hne]
    rw [hlast]
    exact List.rdropWhile_last_not _ _ hne'
  rw [trim, hr, trim, List.dropWhile_idempotent]

/-- A character of a text is left by `trim` or is whitespace. -/
theorem mem_trim_or {l : List Char} {c : Char} (h : c ∈ l) :
    c ∈ trim l ∨ isWhitespace c = true := by
  have hright : l.rdropWhile isWhitespace ++ l.rtakeWhile isWhitespace = l :=
    List.rdropWhile_append_rtakeWhile
  have hleft : (l.rdropWhile isWhitespace).takeWhile isWhitespace ++ trim l
      = l.rdropWhile isWhitespace := List.takeWhile_append_dropWhile
  rw [← hright, ← hleft] at h
  rcases List.mem_append.mp h with h | h
  · rcases List.mem_append.mp h with h | h
    · exact .inr (List.mem_takeWhile_imp h)
    · exact .inl h
  · exact .inr (List.mem_rtakeWhile_imp h)

/-- `trim` commutes with a map that keeps whitespace apart. -/
theorem trim_map {f : Char → Char} (h : ∀ c, isWhitespace (f c) = isWhitespace c)
    (l : List Char) : trim (l.map f) = (trim l).map f := by
  have hf : isWhitespace ∘ f = isWhitespace := funext h
  rw [trim, trim, List.rdropWhile, ← List.map_reverse, List.dropWhile_map, hf, ← List.map_reverse,
    List.dropWhile_map, hf, List.rdropWhile]

/-- Whitespace in front is dropped. -/
theorem trim_cons_of_isWhitespace {c : Char} (hc : isWhitespace c = true) (l : List Char) :
    trim (c :: l) = trim l := by
  rw [trim, trim, List.rdropWhile, List.reverse_cons, List.dropWhile_append]
  by_cases hl : (l.reverse.dropWhile isWhitespace).isEmpty = true
  · rw [if_pos hl, List.rdropWhile, List.isEmpty_iff.mp hl]
    simp [hc]
  · rw [if_neg hl, List.reverse_append]
    simp [hc, List.rdropWhile]

/-- Between two characters that are not whitespace nothing is dropped. -/
theorem trim_cons_append {c d : Char} (hc : isWhitespace c = false)
    (hd : isWhitespace d = false) (a b : List Char) :
    trim (c :: (a ++ d :: b)) = c :: (a ++ d :: b.rdropWhile isWhitespace) := by
  rw [trim, ← List.cons_append, rdropWhile_append_cons hd, List.cons_append,
    List.dropWhile_cons_of_neg (by simp [hc])]

/-! ## Prefixes, splitting and trimming -/

/-- `str::strip_prefix`. -/
def stripPrefix (pat l : List Char) : Option (List Char) :=
  if pat.isPrefixOf l then some (l.drop pat.length) else none

@[simp] theorem stripPrefix_append (pat l : List Char) :
    stripPrefix pat (pat ++ l) = some l := by
  simp [stripPrefix]

/-- `str::split_once(c)`: before and after the first `c`. -/
def splitOnce (c : Char) : List Char → Option (List Char × List Char)
  | [] => none
  | d :: rest =>
    if d = c then some ([], rest)
    else (splitOnce c rest).map fun (before, after) => (d :: before, after)

theorem splitOnce_append {c : Char} : ∀ {l : List Char}, (∀ d ∈ l, d ≠ c) →
    ∀ rest : List Char, splitOnce c (l ++ c :: rest) = some (l, rest)
  | [], _, rest => by simp [splitOnce]
  | d :: l, h, rest => by
    rw [List.cons_append, splitOnce, if_neg (h d List.mem_cons_self),
      splitOnce_append (fun x hx => h x (List.mem_cons_of_mem _ hx)) rest]
    rfl

/-- What stands before the first, and after it. -/
theorem append_cons_inj {α : Type} {c : α} : ∀ {a b r s : List α}, c ∉ a → c ∉ b →
    a ++ c :: r = b ++ c :: s → a = b ∧ r = s
  | [], [], _, _, _, _, h => ⟨rfl, (List.cons.inj h).2⟩
  | [], d :: b, _, _, _, hb, h => absurd (List.cons.inj h).1 fun he => hb (he ▸ List.mem_cons_self)
  | d :: a, [], _, _, ha, _, h =>
    absurd (List.cons.inj h).1 fun he => ha (he ▸ List.mem_cons_self)
  | d :: a, e :: b, _, _, ha, hb, h => by
    obtain ⟨rfl, hrest⟩ := List.cons.inj h
    obtain ⟨rfl, rfl⟩ := append_cons_inj (fun hc => ha (List.mem_cons_of_mem _ hc))
      (fun hc => hb (List.mem_cons_of_mem _ hc)) hrest
    exact ⟨rfl, rfl⟩

/-- What stands before the last, and after it. -/
theorem append_cons_inj' {α : Type} {c : α} {a b r s : List α} (hr : c ∉ r) (hs : c ∉ s)
    (h : a ++ c :: r = b ++ c :: s) : a = b ∧ r = s := by
  have hrev := congrArg List.reverse h
  simp only [List.reverse_append, List.reverse_cons, List.append_assoc, List.singleton_append]
    at hrev
  obtain ⟨hrs, hab⟩ := append_cons_inj (by simpa using hr) (by simpa using hs) hrev
  exact ⟨List.reverse_injective hab, List.reverse_injective hrs⟩

/-- Before and after the first occurrence of `pat`. -/
def findStr (pat : List Char) : List Char → Option (List Char × List Char)
  | [] => if pat.isEmpty then some ([], []) else none
  | d :: rest =>
    if pat.isPrefixOf (d :: rest) then some ([], (d :: rest).drop pat.length)
    else (findStr pat rest).map fun (before, after) => (d :: before, after)

/-- `str::split(pat).nth(1)`: the text between the first and the second occurrence. -/
def splitSecond (pat l : List Char) : Option (List Char) :=
  (findStr pat l).map fun (_, after) =>
    match findStr pat after with
    | none => after
    | some (before, _) => before

theorem findStr_self_append {c : Char} {pat l : List Char} :
    findStr (c :: pat) (c :: pat ++ l) = some ([], l) := by
  rw [List.cons_append, findStr, if_pos (by simp)]
  simp

/-- `pat` is found in the texts that contain it. -/
theorem findStr_eq_none_iff {pat : List Char} : ∀ {l : List Char},
    findStr pat l = none ↔ ¬ pat <:+: l
  | [] => by
    rw [findStr]
    simp
  | d :: l => by
    rw [findStr, List.infix_cons_iff, ← List.isPrefixOf_iff_prefix]
    by_cases hpre : pat.isPrefixOf (d :: l) = true
    · simp [hpre]
    · rw [if_neg hpre, Option.map_eq_none_iff, findStr_eq_none_iff]
      simp [hpre]

/-- A text without one of the characters of `pat` does not contain `pat`. -/
theorem not_infix_of_not_mem {c : Char} {pat l : List Char} (hc : c ∈ pat) (h : c ∉ l) :
    ¬ pat <:+: l := fun hp => h (hp.subset hc)

/--
The first occurrence of `pat` starts after a `c` that is not in `pat`, as long as what stands
before the `c` lacks a character of `pat`.
-/
theorem findStr_append_cons {c d : Char} {pat : List Char} (hd : d ∈ pat) (hc : c ∉ pat)
    (rest : List Char) : ∀ {l : List Char}, d ∉ l →
      findStr pat (l ++ c :: rest)
        = (findStr pat rest).map fun (before, after) => (l ++ c :: before, after)
  | [], _ => by
    have hnot : ¬ pat.isPrefixOf (c :: rest) := by
      intro hp
      cases pat with
      | nil => cases hd
      | cons x pat =>
        obtain ⟨t, ht⟩ := List.isPrefixOf_iff_prefix.mp hp
        exact hc ((List.cons.inj ht).1 ▸ List.mem_cons_self)
    rw [List.nil_append, findStr, if_neg hnot]
    simp
  | x :: l, h => by
    have hnot : ¬ pat.isPrefixOf (x :: l ++ c :: rest) := by
      intro hp
      obtain ⟨t, ht⟩ := List.isPrefixOf_iff_prefix.mp hp
      rcases List.append_eq_append_iff.mp ht with ⟨m, hm, -⟩ | ⟨m, hm, hr⟩
      · exact h (hm ▸ List.mem_append_left _ hd)
      · -- `pat` would reach past the text before `c`, so `c` would be in it
        cases m with
        | nil => exact h (by simpa [hm] using hd)
        | cons y m => exact hc (by rw [hm, (List.cons.inj hr).1]; simp)
    rw [List.cons_append] at hnot
    rw [List.cons_append, findStr, if_neg hnot,
      findStr_append_cons hd hc rest (fun hm => h (List.mem_cons_of_mem _ hm))]
    simp [Option.map_map, Function.comp_def]

/-- `str::split(c).next()`: the text before the first `c`. -/
def splitFirst (c : Char) (l : List Char) : List Char := l.takeWhile (· != c)

theorem splitFirst_append {c : Char} {l : List Char} (h : c ∉ l) (rest : List Char) :
    splitFirst c (l ++ c :: rest) = l := by
  have hall : ∀ a ∈ l, (a != c) = true := fun a ha =>
    bne_iff_ne.mpr fun he => h (he ▸ ha)
  rw [splitFirst, List.takeWhile_append_of_pos hall]
  simp

/-- A text is what stands before its first `c`, the `c` and what follows it. -/
theorem eq_splitFirst_or (c : Char) (l : List Char) :
    (l = splitFirst c l ∧ c ∉ l) ∨ ∃ rest, l = splitFirst c l ++ c :: rest := by
  have hsplit : splitFirst c l ++ l.dropWhile (· != c) = l := List.takeWhile_append_dropWhile
  cases hdrop : l.dropWhile (· != c) with
  | nil =>
    rw [hdrop, List.append_nil] at hsplit
    refine .inl ⟨hsplit.symm, fun hm => ?_⟩
    have := List.dropWhile_eq_nil_iff.mp hdrop c hm
    simp at this
  | cons d rest =>
    have hd := List.head_dropWhile_not (· != c) (l := l) (by simp [hdrop])
    simp only [hdrop, List.head_cons, bne_eq_false_iff_eq] at hd
    subst hd
    exact .inr ⟨rest, by rw [← hdrop, hsplit]⟩

theorem not_mem_splitFirst (c : Char) (l : List Char) : c ∉ splitFirst c l := by
  intro hm
  have := List.mem_takeWhile_imp hm
  simp at this

theorem splitFirst_eq_self {c : Char} {l : List Char} (h : c ∉ l) : splitFirst c l = l := by
  rcases eq_splitFirst_or c l with ⟨heq, -⟩ | ⟨rest, heq⟩
  · exact heq.symm
  · exact absurd (heq ▸ List.mem_append_right _ List.mem_cons_self) h

/-- `str::trim_end_matches(c)`. -/
def trimEndMatches (c : Char) (l : List Char) : List Char := l.rdropWhile (· == c)

/-- `str::trim_matches(c)`. -/
def trimMatches (c : Char) (l : List Char) : List Char :=
  (l.rdropWhile (· == c)).dropWhile (· == c)

theorem beq_eq_false_of_not_mem {c : Char} {l : List Char} (h : c ∉ l) :
    ∀ d ∈ l, (d == c) = false :=
  fun _ hd => beq_eq_false_iff_ne.mpr fun he => h (he ▸ hd)

theorem trimEndMatches_eq_self {c : Char} {l : List Char} (h : c ∉ l) :
    trimEndMatches c l = l :=
  rdropWhile_eq_self (beq_eq_false_of_not_mem h)

theorem trimMatches_eq_self {c : Char} {l : List Char} (h : c ∉ l) : trimMatches c l = l := by
  have hall := beq_eq_false_of_not_mem h
  rw [trimMatches, rdropWhile_eq_self hall, dropWhile_eq_self hall]

theorem trimEndMatches_append {c : Char} {m : List Char} (hne : m ≠ []) (h : c ∉ m)
    (b : List Char) : trimEndMatches c (m ++ b) = m ++ trimEndMatches c b :=
  rdropWhile_append_of_neg hne (beq_eq_false_of_not_mem h) [] b

theorem trimMatches_append {c : Char} {m : List Char} (hne : m ≠ []) (h : c ∉ m) (n : Nat)
    (b : List Char) :
    trimMatches c (List.replicate n c ++ (m ++ b)) = m ++ trimEndMatches c b := by
  have hall : ∀ d ∈ List.replicate n c, (d == c) = true :=
    of_mem_replicate (p := (· == c)) (beq_self_eq_true c) n
  exact dropWhile_rdropWhile_append hne hall (beq_eq_false_of_not_mem h) b

/-- A text of one character is dropped. -/
theorem trimEndMatches_replicate (c : Char) (n : Nat) :
    trimEndMatches c (List.replicate n c) = [] :=
  List.rdropWhile_eq_nil_iff.mpr (of_mem_replicate (p := (· == c)) (beq_self_eq_true c) n)

/-! ## UTF-8 -/

/-- `str::as_bytes`. -/
def utf8 (s : String) : List UInt8 := s.toUTF8.data.toList

/-- `std::str::from_utf8`. -/
def fromUtf8 (bytes : List UInt8) : Option String := String.fromUTF8? ⟨bytes.toArray⟩

@[simp] theorem fromUtf8_utf8 (s : String) : fromUtf8 (utf8 s) = some s := by
  have hbytes : (⟨(utf8 s).toArray⟩ : ByteArray) = s.toByteArray := rfl
  rw [fromUtf8, hbytes, String.fromUTF8?, dif_pos s.isValidUTF8]
  rfl

/-- A text is read from its own bytes only. -/
theorem fromUtf8_eq_some {bytes : List UInt8} {s : String} :
    fromUtf8 bytes = some s ↔ utf8 s = bytes := by
  constructor
  · intro h
    unfold fromUtf8 String.fromUTF8? at h
    split at h
    · next hvalid =>
      cases h
      rfl
    · cases h
  · rintro rfl
    exact fromUtf8_utf8 s

theorem utf8_injective {s t : String} (h : utf8 s = utf8 t) : s = t := by
  rw [← Option.some.injEq, ← fromUtf8_utf8 s, h, fromUtf8_utf8]

/-! ## ASCII case -/

/-- `str::eq_ignore_ascii_case`. -/
def eqIgnoreAsciiCase (a b : List Char) : Bool := a.map Char.toLower == b.map Char.toLower

@[simp] theorem eqIgnoreAsciiCase_self (a : List Char) : eqIgnoreAsciiCase a a = true := by
  simp [eqIgnoreAsciiCase]

/-- Only ASCII characters have another lower case. -/
theorem toLower_eq_self {c : Char} (h : 128 ≤ c.toNat) : c.toLower = c := by
  unfold Char.toLower
  rw [dif_neg]
  rintro ⟨_, hle⟩
  have hz : c.toNat ≤ 90 := UInt32.le_iff_toNat_le.mp hle
  omega

@[simp] theorem isWhitespace_toLower (c : Char) : isWhitespace c.toLower = isWhitespace c := by
  by_cases hc : c.toNat < 128
  · have hall : ∀ m < 128, isWhitespace (Char.ofNat m).toLower = isWhitespace (Char.ofNat m) := by
      decide +kernel
    rw [← Char.ofNat_toNat c]
    exact hall _ hc
  · rw [toLower_eq_self (Nat.le_of_not_lt hc)]

/-! ## Decimal integers -/

/-- `u64` as `Display` writes it. -/
def showU64 (n : UInt64) : List Char := Nat.toDigits 10 n.toNat

/-- `str::parse::<u64>`: an optional `+`, then decimal digits that fit. -/
def parseU64 (l : List Char) : Option UInt64 :=
  let digits := match l with
    | '+' :: rest => rest
    | l => l
  if digits.isEmpty || !digits.all Char.isDigit then none
  else if Nat.ofDigitChars 10 digits 0 < 2 ^ 64 then
    some (UInt64.ofNat (Nat.ofDigitChars 10 digits 0))
  else none

theorem isDigit_of_mem_showU64 {n : UInt64} {c : Char} (h : c ∈ showU64 n) :
    c.isDigit = true :=
  Nat.isDigit_of_mem_toDigits (by decide) (by decide) h

theorem toDigits_inj {m n : Nat} (h : Nat.toDigits 10 m = Nat.toDigits 10 n) : m = n := by
  have hm : Nat.ofDigitChars 10 (Nat.toDigits 10 m) 0 = m :=
    Nat.ofDigitChars_toDigits (by decide) (by decide)
  rw [h, Nat.ofDigitChars_toDigits (by decide) (by decide)] at hm
  exact hm.symm

theorem not_mem_toDigits {c : Char} (hc : c.isDigit = false) (n : Nat) :
    c ∉ Nat.toDigits 10 n := by
  intro hmem
  rw [Nat.isDigit_of_mem_toDigits (by decide) (by decide) hmem] at hc
  cases hc

theorem isWhitespace_of_isDigit {c : Char} (h : c.isDigit = true) : isWhitespace c = false := by
  have hr : 0x30 ≤ c.toNat ∧ c.toNat ≤ 0x39 := by
    simpa [Char.isDigit, Char.le_def, UInt32.le_iff_toNat_le] using h
  simp only [isWhitespace, Bool.or_eq_false_iff, Bool.and_eq_false_iff, decide_eq_false_iff_not,
    beq_eq_false_iff_ne]
  omega

/-- **What `Display` writes, `parse` reads back.** -/
theorem parseU64_showU64 (n : UInt64) : parseU64 (showU64 n) = some n := by
  have hdig : (showU64 n).all Char.isDigit = true :=
    List.all_eq_true.mpr fun c hc => isDigit_of_mem_showU64 hc
  have hval : Nat.ofDigitChars 10 (showU64 n) 0 = n.toNat :=
    Nat.ofDigitChars_toDigits (by decide) (by decide)
  have hplus : ∀ rest, showU64 n ≠ '+' :: rest := by
    intro rest he
    have := isDigit_of_mem_showU64 (n := n) (c := '+') (by rw [he]; exact List.mem_cons_self)
    exact absurd this (by decide)
  have hne : showU64 n ≠ [] := Nat.toDigits_ne_nil
  unfold parseU64
  split
  · next rest he => exact absurd he (hplus rest)
  · rw [if_neg (by simp [hne, hdig]), hval, if_pos n.toNat_lt]
    simp

end Infra
