import EatPass.Infra.Base64
import EatPass.Core.Token

/-!
# The two HTTP headers

The module `http` of `core/src/lib.rs`. A challenge travels in `WWW-Authenticate`, a token in
`Authorization`, both as unpadded base64url text. The parsers split at `challenge=` and `token=`
wherever these stand, so what makes them read back what was written is that the alphabet of the
encoding has no `=`, no `,` and no quote.
-/

namespace EatPass

open Infra

/-- `http::www_authenticate`. -/
def wwwAuthenticate (challengeBytes : List UInt8) (pk : IssuerPublicKey) : String :=
  String.ofList ("PrivateToken challenge=".toList
    ++ (Base64.encode .urlSafeNoPad challengeBytes
    ++ (", token-key=".toList ++ Base64.encode .urlSafeNoPad pk.key)))

/-- `http::authorization`. -/
def authorization (token : SpendToken) : String :=
  String.ofList ("PrivateToken token=".toList ++ Base64.encode .urlSafeNoPad token.toBytes)

/-- `http::parse_authorization`. -/
def parseAuthorization (header : String) : Outcome Error SpendToken := do
  let rest ← Outcome.ofOption (.malformed "not a PrivateToken auth header")
    (stripPrefix "PrivateToken".toList (trim header.toList))
  let part ← Outcome.ofOption (.malformed "missing token= parameter")
    (splitSecond "token=".toList (trim rest))
  let b64 := trimEndMatches ',' (trimMatches '"' (trim part))
  let bytes ← Outcome.ofOption (.malformed "base64url") (Base64.decode .urlSafeNoPad b64)
  (SpendToken.fromBytes bytes).mapErr .pomfrit

/-- `http::parse_www_authenticate`. -/
def parseWwwAuthenticate (header : String) : Outcome Error TokenChallenge := do
  let rest ← Outcome.ofOption (.malformed "not a PrivateToken challenge")
    (stripPrefix "PrivateToken".toList (trim header.toList))
  let part ← Outcome.ofOption (.malformed "missing challenge= parameter")
    (splitSecond "challenge=".toList (trim rest))
  let challengeB64 := trimMatches '"' (trim (splitFirst ',' part))
  let bytes ← Outcome.ofOption (.malformed "challenge base64url")
    (Base64.decode .urlSafeNoPad challengeB64)
  TokenChallenge.fromBytes bytes

/-! ## Reading the headers back -/

/-- Text that no step of the parsers cuts. -/
structure PlainText (l : List Char) : Prop where
  space : ∀ c ∈ l, isWhitespace c = false
  equals : '=' ∉ l
  quote : '"' ∉ l
  comma : ',' ∉ l

theorem plainText_encode (bytes : List UInt8) :
    PlainText (Base64.encode .urlSafeNoPad bytes) where
  space := fun _ => Base64.isWhitespace_of_mem_encode
  equals := Base64.not_mem_encode_url (.inl rfl) bytes
  quote := Base64.not_mem_encode_url (.inr (.inl rfl)) bytes
  comma := Base64.not_mem_encode_url (.inr (.inr rfl)) bytes

/-- Both parsers come to the name of the parameter and the text after it, less the whitespace at the
end of the header. -/
theorem exists_stripPrefix_parameter {c : Char} (hc : isWhitespace c = false)
    (name text : List Char) :
    ∃ rest, stripPrefix "PrivateToken".toList
        (trim ("PrivateToken ".toList ++ (c :: (name ++ '=' :: text)))) = some rest ∧
      trim rest = c :: (name ++ '=' :: text.rdropWhile isWhitespace) := by
  let kept := text.rdropWhile isWhitespace
  have hheader : trim ("PrivateToken ".toList ++ (c :: (name ++ '=' :: text)))
      = "PrivateToken".toList ++ (' ' :: (c :: (name ++ '=' :: kept))) := by
    have := trim_cons_append (c := 'P') (d := '=') (by decide) (by decide)
      ("rivateToken ".toList ++ (c :: name)) text
    simpa using this
  refine ⟨' ' :: (c :: (name ++ '=' :: kept)), by rw [hheader, stripPrefix_append], ?_⟩
  rw [trim_cons_of_isWhitespace (by decide), trim_cons_append hc (by decide),
    List.rdropWhile_idempotent]

/--
What is read of an `Authorization` header is the text after `token=`, unless that has a second
`token=` in it. Whatever stands around it, the value is what trimming leaves of it.
-/
theorem parseAuthorization_eq {text : List Char} (h : ¬ "token=".toList <:+: text) :
    parseAuthorization (String.ofList ("PrivateToken token=".toList ++ text))
      = (Outcome.ofOption (.malformed "base64url") (Base64.decode .urlSafeNoPad
          (trimEndMatches ',' (trimMatches '"' (trim text)))) >>= fun bytes =>
        (SpendToken.fromBytes bytes).mapErr .pomfrit) := by
  let kept := text.rdropWhile isWhitespace
  obtain ⟨rest, hprefix, hrest⟩ : ∃ rest, stripPrefix "PrivateToken".toList
      (trim ("PrivateToken token=".toList ++ text)) = some rest ∧
        trim rest = "token=".toList ++ kept :=
    exists_stripPrefix_parameter (c := 't') (by decide) "oken".toList text
  have hpart : splitSecond "token=".toList ("token=".toList ++ kept) = some kept := by
    have hfirst : findStr "token=".toList ("token=".toList ++ kept) = some ([], kept) :=
      findStr_self_append
    have hsecond : findStr "token=".toList kept = none :=
      findStr_eq_none_iff.mpr fun hp => h (hp.trans (List.rdropWhile_prefix _ _).isInfix)
    simp only [splitSecond, hfirst, Option.map_some, hsecond]
  have htext : (String.ofList ("PrivateToken token=".toList ++ text)).toList
      = "PrivateToken token=".toList ++ text := String.toList_ofList
  unfold parseAuthorization
  rw [htext, hprefix, Outcome.ofOption_some, Outcome.ok_bind, hrest, hpart, Outcome.ofOption_some,
    Outcome.ok_bind]
  simp only [kept, trim_rdropWhile]

theorem parseAuthorization_text {enc : List Char} {bytes : List UInt8} (henc : PlainText enc)
    (hdec : Base64.decode .urlSafeNoPad enc = some bytes) :
    parseAuthorization (String.ofList ("PrivateToken token=".toList ++ enc))
      = (SpendToken.fromBytes bytes).mapErr .pomfrit := by
  rw [parseAuthorization_eq (not_infix_of_not_mem (c := '=') (by decide) henc.equals),
    trim_eq_self henc.space, trimMatches_eq_self henc.quote, trimEndMatches_eq_self henc.comma,
    hdec, Outcome.ofOption_some, Outcome.ok_bind]

/-- The part after `challenge=` reaches the first comma: a second `challenge=` can only start behind
that. -/
theorem exists_splitSecond_challenge {text : List Char} (h : '=' ∉ splitFirst ',' text) :
    ∃ part, splitSecond "challenge=".toList
        ("challenge=".toList ++ text.rdropWhile isWhitespace) = some part ∧
      trim (splitFirst ',' part) = trim (splitFirst ',' text) := by
  let kept := text.rdropWhile isWhitespace
  have hfirst : findStr "challenge=".toList ("challenge=".toList ++ kept) = some ([], kept) :=
    findStr_self_append
  rcases eq_splitFirst_or ',' text with ⟨hall, hcomma⟩ | ⟨params, hsplit⟩
  · -- no comma: the value is the rest of the header
    have hsub : kept ⊆ text := (List.rdropWhile_prefix _ _).subset
    have hsecond : findStr "challenge=".toList kept = none :=
      findStr_eq_none_iff.mpr (not_infix_of_not_mem (c := '=') (by decide)
        fun hm => h (hall ▸ hsub hm))
    refine ⟨kept, by simp only [kept, splitSecond, hfirst, Option.map_some, hsecond], ?_⟩
    rw [splitFirst_eq_self hcomma, splitFirst_eq_self fun hm => hcomma (hsub hm)]
    exact trim_rdropWhile text
  · have hkept : kept = splitFirst ',' text ++ ',' :: params.rdropWhile isWhitespace := by
      show text.rdropWhile isWhitespace = _
      rw [hsplit, rdropWhile_append_cons (by decide), ← hsplit]
    have hsecond := findStr_append_cons (show '=' ∈ "challenge=".toList by decide)
      (show ',' ∉ "challenge=".toList by decide) (params.rdropWhile isWhitespace) h
    rw [← hkept] at hsecond
    simp only [kept, splitSecond, hfirst, Option.map_some, hsecond]
    cases findStr "challenge=".toList (params.rdropWhile isWhitespace) with
    | none =>
      refine ⟨kept, rfl, ?_⟩
      rw [hkept, splitFirst_append (not_mem_splitFirst ',' text)]
    | some found =>
      refine ⟨splitFirst ',' text ++ ',' :: found.1, rfl, ?_⟩
      rw [splitFirst_append (not_mem_splitFirst ',' text)]

/--
What is read of a `WWW-Authenticate` header is the text between `challenge=` and the next comma. The
parameters after the comma are not looked at, even if `challenge=` is one of them.
-/
theorem parseWwwAuthenticate_eq {text : List Char} (h : '=' ∉ splitFirst ',' text) :
    parseWwwAuthenticate (String.ofList ("PrivateToken challenge=".toList ++ text))
      = (Outcome.ofOption (.malformed "challenge base64url") (Base64.decode .urlSafeNoPad
          (trimMatches '"' (trim (splitFirst ',' text)))) >>= TokenChallenge.fromBytes) := by
  obtain ⟨rest, hprefix, hrest⟩ : ∃ rest, stripPrefix "PrivateToken".toList
      (trim ("PrivateToken challenge=".toList ++ text)) = some rest ∧
        trim rest = "challenge=".toList ++ text.rdropWhile isWhitespace :=
    exists_stripPrefix_parameter (c := 'c') (by decide) "hallenge".toList text
  obtain ⟨part, hpart, htrim⟩ := exists_splitSecond_challenge h
  have htext : (String.ofList ("PrivateToken challenge=".toList ++ text)).toList
      = "PrivateToken challenge=".toList ++ text := String.toList_ofList
  unfold parseWwwAuthenticate
  rw [htext, hprefix, Outcome.ofOption_some, Outcome.ok_bind, hrest, hpart, Outcome.ofOption_some,
    Outcome.ok_bind]
  simp only [htrim]

theorem parseWwwAuthenticate_text {enc : List Char} {bytes : List UInt8} (henc : PlainText enc)
    (hdec : Base64.decode .urlSafeNoPad enc = some bytes) (params : List Char) :
    parseWwwAuthenticate
        (String.ofList ("PrivateToken challenge=".toList ++ (enc ++ ',' :: params)))
      = TokenChallenge.fromBytes bytes := by
  have hval : splitFirst ',' (enc ++ ',' :: params) = enc := splitFirst_append henc.comma params
  rw [parseWwwAuthenticate_eq (by rw [hval]; exact henc.equals), hval, trim_eq_self henc.space,
    trimMatches_eq_self henc.quote, hdec, Outcome.ofOption_some, Outcome.ok_bind]

/-- **The token in an `Authorization` header is read back.** -/
theorem parseAuthorization_authorization {token : SpendToken}
    (h : 32 < token.authenticator.length) :
    parseAuthorization (authorization token) = .ok token := by
  have htext := parseAuthorization_text (plainText_encode token.toBytes)
    (Base64.decode_encode .urlSafeNoPad token.toBytes)
  rw [SpendToken.fromBytes_toBytes h] at htext
  exact htext

/-- **The challenge in a `WWW-Authenticate` header is read back.** -/
theorem parseWwwAuthenticate_wwwAuthenticate {ch : TokenChallenge} (h : ch.Fits)
    (pk : IssuerPublicKey) :
    parseWwwAuthenticate (wwwAuthenticate ch.toBytes pk) = .ok ch := by
  have htext := parseWwwAuthenticate_text (plainText_encode ch.toBytes)
    (Base64.decode_encode .urlSafeNoPad ch.toBytes)
    (" token-key=".toList ++ Base64.encode .urlSafeNoPad pk.key)
  rw [TokenChallenge.fromBytes_toBytes h] at htext
  exact htext

end EatPass
