import GoFdo.Text.Bytes

/-!
# HMAC verification and signing options

The root package's hash file gives the FDO hash types and `HmacVerify`, which recomputes the
HMAC of a value under the algorithm that the given HMAC names and compares the two values
with `hmac.Equal`. Its sigInfo file gives `signOptsFor`, which picks the signing options
from the device key: SHA-256 for an RSA key of 2048 bits, SHA-384 for 3072 bits, the PSS
variant of either when asked, an error for any other RSA size, and no options for a key
that is not RSA (the COSE package, which is not among the sources, picks its algorithm).

`hmacVerify_eq_ok_iff` says exactly when verification succeeds, and `hmacVerify_eq_error`
what it returns otherwise: `HmacVerify` recomputes under the label of the HMAC it is given
and compares values only. `signOptsFor_eq_ok_iff` and `signOptsFor_eq_error_iff` say which
keys get which options, and that every other RSA size is refused with its size in bits.
-/

namespace GoFdo
namespace Protocol

/-! ## HMAC verification -/

/-- `HashAlg`: an FDO hash type, an `int64` on the wire. -/
abbrev HashAlg := Int

/-- `Hash`, and `Hmac`, which has its shape. -/
structure Hash where
  algorithm : HashAlg
  value : Bytes
  deriving DecidableEq, Repr

/-- `Hmac`. -/
abbrev Hmac := Hash

/-- `KeyedHasher`: the HMAC of a value of type `V` under an algorithm, or the hasher's
error. -/
structure KeyedHasher (V E : Type) where
  hmac : HashAlg → V → Except E Hmac

/-- The errors of `HmacVerify`: the hasher's, returned as it is, or a mismatch, which wraps
`ErrCryptoVerifyFailed` with a text. -/
inductive VerifyError (E : Type) where
  | hasher (e : E)
  | cryptoVerifyFailed (msg : Bytes)
  deriving DecidableEq, Repr

/-- `HmacVerify`; `hmac.Equal` compares the two values byte for byte. -/
def hmacVerify {V E : Type} (dc : KeyedHasher V E) (h1 : Hmac) (v : V) :
    Except (VerifyError E) Unit := do
  let h2 ← (dc.hmac h1.algorithm v).mapError .hasher
  if h1.value ≠ h2.value then throw (.cryptoVerifyFailed (ascii "hmac did not match"))
  pure ()

section Hmac

variable {V E : Type} {dc : KeyedHasher V E} {h1 : Hmac} {v : V}

/-- `HmacVerify` succeeds exactly when the hasher computes, under the algorithm `h1` names, an
HMAC with the value of `h1`. -/
theorem hmacVerify_eq_ok_iff :
    hmacVerify dc h1 v = .ok () ↔ ∃ h2, dc.hmac h1.algorithm v = .ok h2 ∧ h2.value = h1.value := by
  unfold hmacVerify
  cases h : dc.hmac h1.algorithm v with
  | error e => simp [Except.mapError, bind, Except.bind]
  | ok h2 =>
    by_cases hv : h1.value = h2.value <;>
      simp [Except.mapError, bind, Except.bind, hv, throw, throwThe, MonadExceptOf.throw, pure,
        Except.pure, eq_comm]

/-- Otherwise it returns the hasher's error, or the mismatch. -/
theorem hmacVerify_eq_error {h2 : Hmac} (h : dc.hmac h1.algorithm v = .ok h2)
    (hv : h2.value ≠ h1.value) :
    hmacVerify dc h1 v = .error (.cryptoVerifyFailed (ascii "hmac did not match")) := by
  simp only [hmacVerify, h, Except.mapError, bind, Except.bind, ne_comm.mp hv, ne_eq,
    not_false_eq_true, if_true]

theorem hmacVerify_eq_hasher_error {e : E} (h : dc.hmac h1.algorithm v = .error e) :
    hmacVerify dc h1 v = .error (.hasher e) := by
  simp only [hmacVerify, h, Except.mapError, bind, Except.bind]

end Hmac

/-! ## Signing options -/

/-- The public half of a `crypto.Signer` as `signOptsFor` inspects it: an RSA key with its
size in bytes (`rsa.PublicKey.Size`), or any other key. -/
inductive SignerKey where
  | rsa (size : Nat)
  | other
  deriving DecidableEq, Repr

/-- The `crypto.Hash` values that `signOptsFor` picks. -/
inductive CryptoHash where
  | sha256
  | sha384
  deriving DecidableEq, Repr

/-- `crypto.SignerOpts` as `signOptsFor` returns them: none (a nil interface), a hash, or
`rsa.PSSOptions` with `PSSSaltLengthEqualsHash` and a hash. -/
inductive SignerOpts where
  | none
  | hash (h : CryptoHash)
  | pss (h : CryptoHash)
  deriving DecidableEq, Repr

/-- The hash `signOptsFor` picks for an RSA key of `size` bytes. -/
def rsaHash (size : Nat) : Option CryptoHash :=
  if size = 2048 / 8 then some .sha256 else if size = 3072 / 8 then some .sha384 else none

/-- `signOptsFor`; its error is the text of the `fmt.Errorf`. -/
def signOptsFor (key : SignerKey) (usePSS : Bool) : Except Bytes SignerOpts :=
  match key with
  | .rsa size =>
    match rsaHash size with
    | some h => .ok (if usePSS then .pss h else .hash h)
    | none => .error (ascii "unsupported RSA key size: " ++ ascii (toString (size * 8)) ++
        ascii " bits")
  | .other => .ok .none

/-- The options `signOptsFor` returns: none for a key that is not RSA, and for an RSA key of
2048 or 3072 bits SHA-256 or SHA-384, under PSS when asked. -/
theorem signOptsFor_eq_ok_iff {key : SignerKey} {usePSS : Bool} {opts : SignerOpts} :
    signOptsFor key usePSS = .ok opts ↔
      (key = .other ∧ opts = .none) ∨
        ∃ size h, key = .rsa size ∧
          (size = 256 ∧ h = .sha256 ∨ size = 384 ∧ h = .sha384) ∧
          opts = if usePSS then .pss h else .hash h := by
  cases key with
  | other => simp [signOptsFor, eq_comm]
  | rsa size =>
    by_cases h₁ : size = 256
    · subst h₁
      cases usePSS <;> simp [signOptsFor, rsaHash, eq_comm]
    by_cases h₂ : size = 384
    · subst h₂
      cases usePSS <;> simp [signOptsFor, rsaHash, eq_comm]
    simp [signOptsFor, rsaHash, h₁, h₂]

/-- `signOptsFor` refuses exactly the RSA keys of other sizes, naming the size in bits. -/
theorem signOptsFor_eq_error_iff {key : SignerKey} {usePSS : Bool} {msg : Bytes} :
    signOptsFor key usePSS = .error msg ↔
      ∃ size, key = .rsa size ∧ size ≠ 256 ∧ size ≠ 384 ∧
        msg = ascii "unsupported RSA key size: " ++ ascii (toString (size * 8)) ++ ascii " bits" := by
  cases key with
  | other => simp [signOptsFor]
  | rsa size =>
    by_cases h₁ : size = 256
    · subst h₁
      simp [signOptsFor, rsaHash]
    by_cases h₂ : size = 384
    · subst h₂
      simp [signOptsFor, rsaHash]
    simp [signOptsFor, rsaHash, h₁, h₂, eq_comm]

example : signOptsFor (.rsa 512) false = .error (ascii "unsupported RSA key size: 4096 bits") :=
  rfl

end Protocol
end GoFdo
