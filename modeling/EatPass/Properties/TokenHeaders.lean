import EatPass.Core.Http

/-!
# Tokens in bytes and in headers

A token is 98 bytes of fixed fields and an authenticator, and a header carries those bytes as text.
The parser of `Authorization` and the one of `WWW-Authenticate` look alike, but they trim the
parameter in different orders: the second one cuts it off at the first comma, the first one drops
commas at its end, after it has dropped quotes.

* `SpendToken.wire_exact` — both forms of a token are read back, and nothing else is read
* `parse_decorated_iff` — the spellings of a parameter that both parsers accept
-/

namespace EatPass

open Infra

/--
**Both forms of a token are exact.** A byte string is read without an access out of range, as a
token exactly when it is at least 131 bytes long. The token then has that byte string as its
encoding and an authenticator that can be split. A token with a proof in its authenticator is read
back from its bytes and from its header.
-/
theorem SpendToken.wire_exact :
    (∀ b : List UInt8, fromBytes b ≠ .panic ∧ ((∃ t, fromBytes b = .ok t) ↔ 131 ≤ b.length) ∧
      ∀ t, fromBytes b = .ok t →
        t.toBytes = b ∧ ∃ parts, decodeAuthenticator t.authenticator = .ok parts) ∧
    ∀ t : SpendToken, 33 ≤ t.authenticator.length →
      fromBytes t.toBytes = .ok t ∧ parseAuthorization (authorization t) = .ok t := by
  refine ⟨fun b => ⟨?_, ⟨?_, exists_fromBytes_eq_ok⟩, ?_⟩, fun t hauth => ⟨?_, ?_⟩⟩
  · by_cases hlen : 131 ≤ b.length
    · obtain ⟨t, ht⟩ := exists_fromBytes_eq_ok hlen
      simp [ht]
    · simp [fromBytes_of_short (show b.length < 131 by omega)]
  · rintro ⟨t, ht⟩
    exact (toBytes_of_fromBytes ht).2.1
  · intro t ht
    obtain ⟨hbytes, -, hauth⟩ := toBytes_of_fromBytes ht
    exact ⟨hbytes, exists_decodeAuthenticator_eq_ok hauth⟩
  · exact fromBytes_toBytes hauth
  · exact parseAuthorization_authorization hauth

/-- The shortest token: one byte of proof. -/
def shortToken : SpendToken where
  tokenType := tokenType
  nonce := ⟨List.replicate 32 1, by simp⟩
  challengeDigest := ⟨List.replicate 32 2, by simp⟩
  tokenKeyId := ⟨List.replicate 32 3, by simp⟩
  authenticator := List.replicate 33 4

theorem wire_exact_shortToken :
    SpendToken.fromBytes shortToken.toBytes = .ok shortToken ∧
      parseAuthorization (authorization shortToken) = .ok shortToken :=
  SpendToken.wire_exact.2 shortToken (by decide)

/-! ## What may stand around a parameter -/

/--
The spellings of a parameter that `parse_www_authenticate` tolerates: whitespace and quotes around
the value, and further parameters after a comma.
-/
structure Decoration where
  before : List Char
  opening : Nat
  closing : Nat
  after : List Char
  params : Option (List Char)
  before_space : ∀ c ∈ before, isWhitespace c = true
  after_space : ∀ c ∈ after, isWhitespace c = true

namespace Decoration

variable (d : Decoration)

/-- The comma and the parameters after it. -/
def tail : List Char := d.params.elim [] fun params => ',' :: params

/-- A value in its quotes and whitespace. -/
def quoted (value : List Char) : List Char :=
  d.before ++ (List.replicate d.opening '"'
    ++ (value ++ (List.replicate d.closing '"' ++ d.after)))

/-- A value as it is written in the header. -/
def around (value : List Char) : List Char := d.quoted value ++ d.tail

/--
Nothing is left of what follows the value if whitespace, then quotes, then commas are dropped from
the end: there is no comma, or it stands directly behind the value and more commas, then quotes,
then whitespace are all that follows it.
-/
def Strippable : Prop :=
  ∀ params, d.params = some params → d.closing = 0 ∧ d.after = [] ∧
    ∃ commas quotes space, (∀ c ∈ space, isWhitespace c = true) ∧
      params = List.replicate commas ',' ++ (List.replicate quotes '"' ++ space)

/-- What `parse_authorization` keeps of what follows the value. -/
def leftover : List Char :=
  trimEndMatches ',' (trimEndMatches '"'
    ((List.replicate d.closing '"' ++ (d.after ++ d.tail)).rdropWhile isWhitespace))

end Decoration

/-- Text is commas, quotes and whitespace in this order if dropping them leaves nothing. -/
theorem trimEndMatches_separators_iff {l : List Char} :
    (∀ c ∈ trimEndMatches '"' (l.rdropWhile isWhitespace), c = ',') ↔
      ∃ commas quotes space, (∀ c ∈ space, isWhitespace c = true) ∧
        l = List.replicate commas ',' ++ (List.replicate quotes '"' ++ space) := by
  constructor
  · intro hcommas
    let kept := l.rdropWhile isWhitespace
    have hspace : kept ++ l.rtakeWhile isWhitespace = l := List.rdropWhile_append_rtakeWhile
    have hquotes : trimEndMatches '"' kept ++ kept.rtakeWhile (· == '"') = kept :=
      List.rdropWhile_append_rtakeWhile
    have hmem : ∀ c ∈ kept.rtakeWhile (· == '"'), c = '"' := by
      intro c hc
      simpa using List.mem_rtakeWhile_imp hc
    rw [List.eq_replicate_of_mem hcommas, List.eq_replicate_of_mem hmem] at hquotes
    refine ⟨(trimEndMatches '"' kept).length, (kept.rtakeWhile (· == '"')).length,
      l.rtakeWhile isWhitespace, fun c hc => List.mem_rtakeWhile_imp hc, ?_⟩
    rw [← List.append_assoc, hquotes, hspace]
  · rintro ⟨commas, quotes, space, hspace, rfl⟩
    have hmarks : ∀ c ∈ List.replicate commas ',' ++ List.replicate quotes '"',
        isWhitespace c = false := by
      intro c hc
      rcases List.mem_append.mp hc with hc | hc
      · exact of_mem_replicate (by decide) commas c hc
      · exact of_mem_replicate (by decide) quotes c hc
    rw [← List.append_assoc, rdropWhile_append_of_pos hspace, rdropWhile_eq_self hmarks,
      trimEndMatches, rdropWhile_append_of_pos (of_mem_replicate rfl quotes)]
    intro c hc
    exact List.eq_of_mem_replicate ((List.rdropWhile_prefix _ _).subset hc)

namespace Decoration

/-- **Nothing is kept of the decorations that can be stripped, and of no others.** -/
theorem leftover_eq_nil_iff (d : Decoration) : d.leftover = [] ↔ d.Strippable := by
  cases hparams : d.params with
  | none =>
    have htail : d.tail = [] := by rw [tail, hparams]; rfl
    have hleft : d.leftover = [] := by
      rw [leftover, htail, List.append_nil, rdropWhile_append_of_pos d.after_space,
        rdropWhile_eq_self (of_mem_replicate (by decide) d.closing), trimEndMatches_replicate]
      rfl
    simp [hleft, Strippable, hparams]
  | some params =>
    have htail : d.tail = ',' :: params := by rw [tail, hparams]; rfl
    -- the drops end at the comma, so the last one reaches the value only over commas
    have hleft : d.leftover = trimEndMatches ',' (List.replicate d.closing '"' ++ d.after
        ++ ',' :: trimEndMatches '"' (params.rdropWhile isWhitespace)) := by
      rw [leftover, htail, ← List.append_assoc, rdropWhile_append_cons (by decide)]
      exact congrArg (trimEndMatches ',') (rdropWhile_append_cons (by decide) _ _)
    rw [hleft, trimEndMatches, List.rdropWhile_eq_nil_iff, Strippable, hparams]
    simp only [Option.some.injEq, forall_eq', ← trimEndMatches_separators_iff, beq_iff_eq]
    constructor
    · intro hall
      refine ⟨?_, ?_, fun c hc => hall c (by simp [hc])⟩
      · by_contra hne
        exact absurd (hall '"' (by simp [hne])) (by decide)
      · refine List.eq_nil_iff_forall_not_mem.mpr fun c hc => ?_
        have hcomma := hall c (by simp [hc])
        exact absurd (hcomma ▸ d.after_space c hc) (by decide)
    · rintro ⟨hclosing, hafter, hcommas⟩ c hc
      rw [hclosing, hafter, List.replicate_zero, List.nil_append, List.nil_append] at hc
      rcases List.mem_cons.mp hc with rfl | hc
      · rfl
      · exact hcommas c hc

variable {d : Decoration} {value : List Char}

theorem not_isWhitespace_quoted (hvalue : PlainText value) :
    ∀ c ∈ List.replicate d.opening '"' ++ value, isWhitespace c = false := by
  intro c hc
  rcases List.mem_append.mp hc with hc | hc
  · exact of_mem_replicate (by decide) d.opening c hc
  · exact hvalue.space c hc

/-- Dropping whitespace leaves the value in its quotes and what follows it. -/
theorem trim_quoted (hvalue : PlainText value) (hne : value ≠ []) (b : List Char) :
    trim (d.before ++ (List.replicate d.opening '"' ++ (value ++ b)))
      = List.replicate d.opening '"' ++ (value ++ b.rdropWhile isWhitespace) := by
  have := trim_append (by simp [hne]) d.before_space (not_isWhitespace_quoted (d := d) hvalue) b
  simpa only [List.append_assoc] using this

theorem not_mem_quoted {c : Char} (hc : isWhitespace c = false) (hquote : c ≠ '"')
    (hvalue : c ∉ value) : c ∉ d.quoted value := by
  have hbefore : c ∉ d.before := fun hm => by simp [d.before_space c hm] at hc
  have hafter : c ∉ d.after := fun hm => by simp [d.after_space c hm] at hc
  simp [quoted, hbefore, hafter, hvalue, hquote]

/-- The first comma of a decorated value is the one before the parameters. -/
theorem splitFirst_around (hvalue : PlainText value) :
    splitFirst ',' (d.around value) = d.quoted value := by
  have hcomma := not_mem_quoted (d := d) (by decide) (by decide) hvalue.comma
  unfold around tail
  cases d.params with
  | none => rw [Option.elim_none, List.append_nil, splitFirst_eq_self hcomma]
  | some params => rw [Option.elim_some, splitFirst_append hcomma]

/-- A decorated value contains `token=` only if its parameters do. -/
theorem not_infix_around (hvalue : PlainText value)
    (hparams : ∀ params, d.params = some params → ¬ "token=".toList <:+: params) :
    ¬ "token=".toList <:+: d.around value := by
  have hequals := not_mem_quoted (d := d) (by decide) (by decide) hvalue.equals
  unfold around tail
  cases hcase : d.params with
  | none =>
    rw [Option.elim_none, List.append_nil]
    exact not_infix_of_not_mem (c := '=') (by decide) hequals
  | some params =>
    have hfind := findStr_append_cons (show '=' ∈ "token=".toList by decide)
      (show ',' ∉ "token=".toList by decide) params hequals
    rw [findStr_eq_none_iff.mpr (hparams params hcase)] at hfind
    exact findStr_eq_none_iff.mp hfind

/-- What `parse_authorization` decodes is the value and what is left of the text after it. -/
theorem trimEndMatches_around (hvalue : PlainText value) (hne : value ≠ []) :
    trimEndMatches ',' (trimMatches '"' (trim (d.around value))) = value ++ d.leftover := by
  have haround : d.around value = d.before ++ (List.replicate d.opening '"'
      ++ (value ++ (List.replicate d.closing '"' ++ (d.after ++ d.tail)))) := by
    simp only [around, quoted, List.append_assoc]
  rw [haround, trim_quoted hvalue hne, trimMatches_append hne hvalue.quote,
    trimEndMatches_append hne hvalue.comma, leftover]

/-- What `parse_www_authenticate` decodes is the value. -/
theorem trimMatches_quoted (hvalue : PlainText value) (hne : value ≠ []) :
    trimMatches '"' (trim (d.quoted value)) = value := by
  rw [quoted, trim_quoted hvalue hne, rdropWhile_append_of_pos d.after_space,
    rdropWhile_eq_self (of_mem_replicate (by decide) d.closing),
    trimMatches_append hne hvalue.quote, trimEndMatches_replicate, List.append_nil]

end Decoration

/-! ## Which spellings both parsers accept -/

/-- The parameter of `parse_www_authenticate` with a challenge as its value. -/
def challengeHeader (d : Decoration) (ch : TokenChallenge) : String :=
  String.ofList ("PrivateToken challenge=".toList
    ++ d.around (Base64.encode .urlSafeNoPad ch.toBytes))

/-- The parameter of `parse_authorization` with a token as its value. -/
def tokenHeader (d : Decoration) (t : SpendToken) : String :=
  String.ofList ("PrivateToken token=".toList ++ d.around (Base64.encode .urlSafeNoPad t.toBytes))

/-- Every decoration is tolerated around a challenge. -/
theorem parseWwwAuthenticate_challengeHeader (d : Decoration) {ch : TokenChallenge}
    (hfits : ch.Fits) : parseWwwAuthenticate (challengeHeader d ch) = .ok ch := by
  have hvalue := plainText_encode ch.toBytes
  have hne : Base64.encode .urlSafeNoPad ch.toBytes ≠ [] :=
    Base64.encode_ne_nil (by simp [TokenChallenge.toBytes])
  have hsplit := d.splitFirst_around hvalue
  have hequals : '=' ∉ d.quoted (Base64.encode .urlSafeNoPad ch.toBytes) :=
    d.not_mem_quoted (by decide) (by decide) hvalue.equals
  unfold challengeHeader
  rw [parseWwwAuthenticate_eq (by rw [hsplit]; exact hequals), hsplit,
    d.trimMatches_quoted hvalue hne, Base64.decode_encode, Outcome.ofOption_some, Outcome.ok_bind,
    TokenChallenge.fromBytes_toBytes hfits]

/-- What is decoded of the decorated text of a token. -/
theorem parseAuthorization_tokenHeader_eq {d : Decoration}
    (hparams : ∀ params, d.params = some params → ¬ "token=".toList <:+: params)
    (t : SpendToken) :
    parseAuthorization (tokenHeader d t)
      = (Outcome.ofOption (.malformed "base64url") (Base64.decode .urlSafeNoPad
          (Base64.encode .urlSafeNoPad t.toBytes ++ d.leftover)) >>= fun bytes =>
        (SpendToken.fromBytes bytes).mapErr .pomfrit) := by
  have hvalue := plainText_encode t.toBytes
  have hne : Base64.encode .urlSafeNoPad t.toBytes ≠ [] :=
    Base64.encode_ne_nil (by simp [SpendToken.toBytes, beBytes, leBytes])
  unfold tokenHeader
  rw [parseAuthorization_eq (d.not_infix_around hvalue hparams), d.trimEndMatches_around hvalue hne]

/-- **A token is read from its decorated text exactly when nothing is left of the decoration.** -/
theorem parseAuthorization_tokenHeader {d : Decoration} {t : SpendToken}
    (hparams : ∀ params, d.params = some params → ¬ "token=".toList <:+: params)
    (hauth : 32 < t.authenticator.length) :
    parseAuthorization (tokenHeader d t) = .ok t ↔ d.leftover = [] := by
  rw [parseAuthorization_tokenHeader_eq hparams]
  simp only [Outcome.bind_eq_ok, Outcome.ofOption_eq_ok, Outcome.mapErr_eq_ok]
  constructor
  · -- the token has one encoding, and that has one text
    rintro ⟨bytes, hdec, hread⟩
    have htext := Base64.decode_url_eq_some.mp hdec
    rw [← (SpendToken.toBytes_of_fromBytes hread).1] at htext
    exact List.self_eq_append_right.mp htext
  · intro hnil
    refine ⟨t.toBytes, ?_, SpendToken.fromBytes_toBytes hauth⟩
    rw [hnil, List.append_nil, Base64.decode_encode]

/--
**The two parsers accept the same spellings as far as these can be stripped.** Every decoration is
tolerated around a challenge. Around a token it is tolerated exactly if there are no parameters
after it, or they are commas, then quotes, then whitespace, and their comma stands directly behind
the value.
-/
theorem parse_decorated_iff (d : Decoration)
    (hparams : ∀ params, d.params = some params → ¬ "token=".toList <:+: params) :
    (∀ ch : TokenChallenge, ch.Fits → parseWwwAuthenticate (challengeHeader d ch) = .ok ch) ∧
      ∀ t : SpendToken, 33 ≤ t.authenticator.length →
        (parseAuthorization (tokenHeader d t) = .ok t ↔ d.Strippable) := by
  refine ⟨fun ch => parseWwwAuthenticate_challengeHeader d, fun t hauth => ?_⟩
  rw [parseAuthorization_tokenHeader hparams hauth, d.leftover_eq_nil_iff]

/-- A quoted value and a parameter after it. -/
def quotedParameter : Decoration where
  before := [' ']
  opening := 1
  closing := 1
  after := []
  params := some " realm=a".toList
  before_space c hc := by
    rw [List.mem_singleton.mp hc]
    rfl
  after_space := by simp

/-- A quoted value on its own. -/
def quotedOnly : Decoration := { quotedParameter with params := none }

theorem parse_decorated_iff_quotedOnly :
    parseWwwAuthenticate (challengeHeader quotedOnly (.new "a" "b")) = .ok (.new "a" "b") ∧
      parseAuthorization (tokenHeader quotedOnly shortToken) = .ok shortToken := by
  have hboth := parse_decorated_iff quotedOnly (by simp [quotedOnly])
  refine ⟨hboth.1 (.new "a" "b") ⟨by decide, by decide, by decide⟩, ?_⟩
  exact (hboth.2 shortToken (by decide)).mpr (by simp [Decoration.Strippable, quotedOnly])

/--
With `challenge=` the parameter after a quoted value is skipped. With `token=` the closing quote and
the parameter stay on the value, which is no base64 then.
-/
theorem quotedParameter_refused :
    parseWwwAuthenticate (challengeHeader quotedParameter (.new "a" "b")) = .ok (.new "a" "b") ∧
      parseAuthorization (tokenHeader quotedParameter shortToken)
        = .err (.malformed "base64url") := by
  refine ⟨parseWwwAuthenticate_challengeHeader _ ⟨by decide, by decide, by decide⟩, ?_⟩
  have hparams : ∀ params, quotedParameter.params = some params →
      ¬ "token=".toList <:+: params := by
    rintro _ ⟨⟩
    exact findStr_eq_none_iff.mp (by decide +kernel)
  have hdec : Base64.decode .urlSafeNoPad
      (Base64.encode .urlSafeNoPad shortToken.toBytes ++ quotedParameter.leftover) = none := by
    decide +kernel
  rw [parseAuthorization_tokenHeader_eq hparams, hdec, Outcome.ofOption_none, Outcome.err_bind]

end EatPass
