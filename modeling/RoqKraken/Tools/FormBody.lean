import RoqKraken.FormData
import RoqKraken.Tools.Crypto

/-!
# Signed bodies as form data

A signed request is sent with content type `application/x-www-form-urlencoded`.
The module reads the bodies of `create_body` as a server does and settles for
which passphrases they say what they should; it has `create_headers`, which signs
the nonce and the body, for the nonce both have to agree on.
-/

namespace RoqKraken.Tools.Crypto

open FormData

/-- What `create_headers` signs with: the account's key, SHA256, HMAC of SHA512
under the account's secret, and the text of a digest. -/
structure Signing where
  key : String
  hash : List UInt8 → List UInt8
  mac : List UInt8 → List UInt8
  base64 : List UInt8 → String

/-- The headers that sign a nonce, a path and a body. -/
def signed (signing : Signing) (nonce : String) (path body : String) : String :=
  let digest₁ := signing.hash (bytes nonce ++ bytes body)
  let digest₂ := signing.mac (bytes path ++ digest₁)
  let sign₂ := signing.base64 digest₂
  "API-Key: " ++ signing.key ++ "\r\nAPI-Sign: " ++ sign₂ ++ "\r\n"

/-- `Crypto::create_headers`, for the method POST, which it asserts. -/
def createHeaders (signing : Signing) (crypto : Crypto) (path body : String) : String :=
  signed signing (toString crypto.nonce) path body

/-- The body reads as a decimal nonce, the one that the headers sign next, and as
the passphrase if there is one. -/
def ValidForm (crypto : Crypto) (body : String) : Prop :=
  ∃ (nonce : Int) (more : List (List UInt8 × List UInt8)),
    decode (bytes body) = (bytes "nonce", bytes (toString nonce)) :: more ∧
    (∀ signing path, crypto.createHeaders signing path body =
      signed signing (toString nonce) path body) ∧
    (crypto.passphrase = "" → more = []) ∧
    (crypto.passphrase ≠ "" → ∃ name, more = [(name, bytes crypto.passphrase)])

theorem decode_bodyText_empty (nonce : Int) :
    decode (bytes (bodyText "" nonce)) = [(bytes "nonce", bytes (toString nonce))] := by
  have name : bytes "nonce=" = bytes "nonce" ++ [equals] := by decide
  have plain : ∀ byte ∈ bytes "nonce", Plain byte := plain_of_all (by decide)
  have text : bodyText "" nonce = "nonce=" ++ toString nonce := rfl
  rw [text, bytes_append, name, List.append_assoc, List.singleton_append]
  exact decode_singleton plain (bytes_toString_plain nonce)

/-- The opening quote is read as part of the first name. -/
theorem decode_bodyText_passphrase {passphrase : String} (set : passphrase ≠ "") (nonce : Int) :
    decode (bytes (bodyText passphrase nonce)) =
      (bytes r#""nonce"#, bytes (toString nonce)) ::
        decode (bytes (r#""opt="# ++ passphrase ++ r#"""#)) := by
  have name : bytes r#""nonce="# = bytes r#""nonce"# ++ [equals] := by decide
  have next : bytes "&" = [ampersand] := by decide
  have plain : ∀ byte ∈ bytes r#""nonce"#, Plain byte := plain_of_all (by decide)
  have text : bodyText passphrase nonce =
      r#""nonce="# ++ toString nonce ++ "&" ++ (r#""opt="# ++ passphrase ++ r#"""#) := by
    rw [bodyText, if_neg (by simpa using set)]
    simp only [String.append_assoc]
  rw [text, bytes_append, bytes_append, bytes_append, name, next, List.append_assoc _ [ampersand],
    List.singleton_append, List.append_assoc _ [equals], List.singleton_append]
  exact decode_cons plain (bytes_toString_plain nonce) _

theorem name_ne : bytes r#""nonce"# ≠ bytes "nonce" := by decide

/-- **Signed bodies.**  They are the form data they should be exactly for an empty
passphrase. -/
theorem validForm_iff {crypto crypto' : Crypto} {realtime : Int} {body : String}
    (call : crypto.createBody realtime = some (crypto', body)) :
    crypto'.ValidForm body ↔ crypto.passphrase = "" := by
  obtain ⟨-, same, -, rfl⟩ := createBody_eq_some.mp call
  rw [← same]
  constructor
  · rintro ⟨nonce, more, reads, -⟩
    by_contra set
    rw [decode_bodyText_passphrase set] at reads
    exact name_ne (congrArg Prod.fst (List.cons.inj reads).1)
  · intro empty
    refine ⟨crypto'.nonce, [], ?_, fun _ _ => rfl, fun _ => rfl, fun set => absurd empty set⟩
    rw [empty]
    exact decode_bodyText_empty crypto'.nonce

/-- A second call, without a passphrase. -/
theorem validForm_iff_secondCall :
    ({ passphrase := "", nonce := 1769000000001 } : Crypto).ValidForm "nonce=1769000000001" ↔
      ({ passphrase := "", nonce := 1769000000000 } : Crypto).passphrase = "" :=
  @validForm_iff _ _ 1769000000001000000 _ (by decide)

/-- An account with a passphrase. -/
theorem body_with_passphrase_not_form :
    ¬ ∀ (crypto crypto' : Crypto) (realtime : Int) (body : String),
      crypto.createBody realtime = some (crypto', body) → crypto'.ValidForm body := by
  intro valid
  obtain ⟨nonce, more, reads, -⟩ := valid { passphrase := "secret" }
    { passphrase := "secret", nonce := 1769000000000 } 1769000000000000000
    r#""nonce=1769000000000&"opt=secret""# (by decide)
  have read : decode (bytes r#""nonce=1769000000000&"opt=secret""#) =
      [(bytes r#""nonce"#, bytes "1769000000000"), (bytes r#""opt"#, bytes r#"secret""#)] := by decide
  rw [read] at reads
  exact name_ne (congrArg Prod.fst (List.cons.inj reads).1)

end RoqKraken.Tools.Crypto
