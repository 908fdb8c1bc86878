import GoFdo.Text.Bytes

/-!
# The part of `crypto/x509` that the delegate code uses

`GenerateDelegate` builds certificates with `x509.CreateCertificate` and reads them back with
`x509.ParseCertificate`; `processDelegateChain` reads their names, key usage, basic
constraints and extensions, and checks each link with `CheckSignatureFrom`. Here a
certificate is reduced to those fields, and its encoding to the record of them: DER is not
modelled. Signatures come from a `SignatureScheme`, whose one law is that a signature
verifies under the signer's public key. A parsed certificate carries the parser's guarantee
that no extension occurs twice.
-/

namespace GoFdo
namespace X509

/-- An `asn1.ObjectIdentifier`; its `Equal` is equality of the arc lists. -/
abbrev OID := List Nat

/-- A `pkix.Extension`. Its `Critical` flag is read by none of the modelled code. -/
structure Extension where
  id : OID
  value : Bytes
  deriving DecidableEq, Repr

/-- The public-key algorithms `crypto/x509` knows, and the rest. -/
inductive KeyKind where
  | ecdsa
  | rsa
  | ed25519
  | unknown
  deriving DecidableEq, Repr

/-- Signing and verification over messages `M`, with key generation for the kinds the code
asks for. -/
structure SignatureScheme (Priv Pub Sig M : Type) where
  /-- `crypto.Signer.Public`. -/
  toPublic : Priv → Pub
  kind : Pub → KeyKind
  sign : Priv → M → Sig
  verify : Pub → M → Sig → Bool
  /-- The key that `ecdsa.GenerateKey` or `rsa.GenerateKey` returns. -/
  generateKey : KeyKind → Priv
  verify_sign : ∀ k m, verify (toPublic k) m (sign k m) = true
  kind_generateKey : ∀ k, kind (toPublic (generateKey k)) = k

/-- The signed part of a certificate, as far as the delegate code reads it. -/
structure TBSCertificate (Pub : Type) where
  version : Nat
  /-- `Subject.CommonName`. -/
  subject : Bytes
  /-- `Issuer.CommonName`. -/
  issuer : Bytes
  keyUsage : Nat
  isCA : Bool
  basicConstraintsValid : Bool
  extensions : List Extension
  publicKey : Pub
  deriving DecidableEq

/-- The output of `x509.CreateCertificate`: a signed `TBSCertificate`, not yet parsed. -/
structure RawCertificate (Pub Sig : Type) where
  tbs : TBSCertificate Pub
  signature : Sig
  deriving DecidableEq

/-- A certificate as `x509.ParseCertificate` returns it: no extension id occurs twice. -/
structure Certificate (Pub Sig : Type) where
  tbs : TBSCertificate Pub
  signature : Sig
  extensions_nodup : (tbs.extensions.map Extension.id).Nodup

/-- The fields of a `*x509.Certificate` that `CreateCertificate` reads from a template or a
parent. -/
structure Template where
  subject : Bytes
  keyUsage : Nat
  isCA : Bool
  basicConstraintsValid : Bool
  unknownExtKeyUsage : List OID
  extraExtensions : List Extension
  deriving DecidableEq, Repr

/-- `x509.KeyUsageDigitalSignature`. -/
def keyUsageDigitalSignature : Nat := 1

/-- `x509.KeyUsageCertSign`. -/
def keyUsageCertSign : Nat := 32

def oidExtensionSubjectKeyId : OID := [2, 5, 29, 14]
def oidExtensionKeyUsage : OID := [2, 5, 29, 15]
def oidExtensionBasicConstraints : OID := [2, 5, 29, 19]
def oidExtensionExtendedKeyUsage : OID := [2, 5, 29, 37]

/-- The extensions whose values `ParseCertificate` decodes; an empty value decodes as none
of them. -/
def parsedExtensionIds : List OID :=
  [[2, 5, 29, 14], [2, 5, 29, 15], [2, 5, 29, 17], [2, 5, 29, 19], [2, 5, 29, 30],
    [2, 5, 29, 31], [2, 5, 29, 32], [2, 5, 29, 35], [2, 5, 29, 37], [1, 3, 6, 1, 5, 5, 7, 1, 1]]

/-- What `encoding/asn1` can marshal as an object identifier. -/
def validOID : OID → Bool
  | a :: b :: _ => a ≤ 2 && (a == 2 || b < 40)
  | _ => false

/-- The extensions `buildCertExtensions` generates from a template's fields, each unless an
extra extension has its id. Their values are DER, reduced here to the tag byte, since only
whether they parse matters. -/
def buildCertExtensions (t : Template) : List Extension :=
  let fresh (id : OID) := !(t.extraExtensions.any fun e => e.id == id)
  (if t.keyUsage ≠ 0 && fresh oidExtensionKeyUsage then [⟨oidExtensionKeyUsage, [3]⟩] else []) ++
  (if !t.unknownExtKeyUsage.isEmpty && fresh oidExtensionExtendedKeyUsage then
    [⟨oidExtensionExtendedKeyUsage, [48]⟩] else []) ++
  (if t.basicConstraintsValid && fresh oidExtensionBasicConstraints then
    [⟨oidExtensionBasicConstraints, [48]⟩] else []) ++
  (if t.isCA && fresh oidExtensionSubjectKeyId then [⟨oidExtensionSubjectKeyId, [4]⟩] else [])

/-- The ids `buildCertExtensions` can produce. -/
def builtinExtensionIds : List OID :=
  [oidExtensionKeyUsage, oidExtensionExtendedKeyUsage, oidExtensionBasicConstraints,
    oidExtensionSubjectKeyId]

theorem builtinExtensionIds_subset : ∀ o ∈ builtinExtensionIds, o ∈ parsedExtensionIds := by
  decide

theorem validOID_builtin : ∀ o ∈ builtinExtensionIds, validOID o := by
  decide

/-- A generated extension has a builtin id and a value that parses. -/
theorem mem_buildCertExtensions {t : Template} {e : Extension} (he : e ∈ buildCertExtensions t) :
    e.id ∈ builtinExtensionIds ∧ e.value ≠ [] := by
  dsimp only [buildCertExtensions] at he
  split_ifs at he <;> simp at he <;> rcases he with rfl | rfl | rfl | rfl <;> decide

theorem nodup_buildCertExtensions (t : Template) :
    ((buildCertExtensions t).map Extension.id).Nodup := by
  dsimp only [buildCertExtensions]
  split_ifs <;> decide

/-- The signed part that `CreateCertificate(template, parent, pub, priv)` encodes. -/
def tbsOf (template parent : Template) (pub : Pub) : TBSCertificate Pub where
  version := 3
  subject := template.subject
  issuer := parent.subject
  keyUsage := template.keyUsage
  isCA := template.isCA
  basicConstraintsValid := template.basicConstraintsValid
  extensions := buildCertExtensions template ++ template.extraExtensions
  publicKey := pub

inductive CreateError where
  /-- `x509: only RSA, ECDSA and Ed25519 keys supported`. -/
  | unsupportedSigner
  /-- `x509: unsupported public key type`. -/
  | unsupportedPublicKey
  /-- `asn1: structure error: invalid object identifier`. -/
  | invalidOID
  deriving DecidableEq, Repr

inductive ParseError where
  /-- `x509: certificate contains duplicate extensions`. -/
  | duplicateExtension
  /-- A standard extension whose value does not decode. -/
  | malformedExtension
  deriving DecidableEq, Repr

inductive SignatureError where
  | constraintViolation
  | unsupportedAlgorithm
  | invalidSignature
  deriving DecidableEq, Repr

section Operations

variable {Priv Pub Sig : Type} (S : SignatureScheme Priv Pub Sig (TBSCertificate Pub))

/-- `x509.CreateCertificate(rand, template, parent, pub, priv)`. -/
def createCertificate (template parent : Template) (pub : Pub) (priv : Priv) :
    Except CreateError (RawCertificate Pub Sig) :=
  if S.kind (S.toPublic priv) = .unknown then .error .unsupportedSigner
  else if S.kind pub = .unknown then .error .unsupportedPublicKey
  else if ((tbsOf template parent pub).extensions.all fun e => validOID e.id) &&
      template.unknownExtKeyUsage.all validOID then
    .ok ⟨tbsOf template parent pub, S.sign priv (tbsOf template parent pub)⟩
  else .error .invalidOID

/-- `x509.ParseCertificate` on what `createCertificate` produced. -/
def parseCertificate (raw : RawCertificate Pub Sig) : Except ParseError (Certificate Pub Sig) :=
  if h : (raw.tbs.extensions.map Extension.id).Nodup then
    if raw.tbs.extensions.any fun e => e.id ∈ parsedExtensionIds && e.value.isEmpty then
      .error .malformedExtension
    else .ok ⟨raw.tbs, raw.signature, h⟩
  else .error .duplicateExtension

/-- `c.CheckSignatureFrom(parent)`. -/
def checkSignatureFrom (c parent : Certificate Pub Sig) : Except SignatureError Unit :=
  if parent.tbs.version = 3 ∧ parent.tbs.basicConstraintsValid = false ∨
      parent.tbs.basicConstraintsValid = true ∧ parent.tbs.isCA = false then
    .error .constraintViolation
  else if parent.tbs.keyUsage ≠ 0 ∧ parent.tbs.keyUsage &&& keyUsageCertSign = 0 then
    .error .constraintViolation
  else if S.kind parent.tbs.publicKey = .unknown then .error .unsupportedAlgorithm
  else if S.verify parent.tbs.publicKey c.tbs c.signature then .ok ()
  else .error .invalidSignature

/-- What a successful creation guarantees. -/
theorem createCertificate_eq_ok_iff {template parent : Template} {pub : Pub} {priv : Priv}
    {raw : RawCertificate Pub Sig} :
    createCertificate S template parent pub priv = .ok raw ↔
      S.kind (S.toPublic priv) ≠ .unknown ∧ S.kind pub ≠ .unknown ∧
      (∀ e ∈ (tbsOf template parent pub).extensions, validOID e.id) ∧
      (∀ o ∈ template.unknownExtKeyUsage, validOID o) ∧
      raw = ⟨tbsOf template parent pub, S.sign priv (tbsOf template parent pub)⟩ := by
  unfold createCertificate
  split_ifs with h1 h2 h3
  · exact iff_of_false (by simp) fun h => h.1 h1
  · exact iff_of_false (by simp) fun h => h.2.1 h2
  · simp only [Bool.and_eq_true, List.all_eq_true] at h3
    rw [Except.ok.injEq, eq_comm]
    exact ⟨fun h => ⟨h1, h2, h3.1, h3.2, h⟩, fun h => h.2.2.2.2⟩
  · simp only [Bool.and_eq_true, List.all_eq_true] at h3
    exact iff_of_false (by simp) fun h => h3 ⟨h.2.2.1, h.2.2.2.1⟩

theorem parseCertificate_eq_ok_iff {raw : RawCertificate Pub Sig} {c : Certificate Pub Sig} :
    parseCertificate raw = .ok c ↔
      (∀ e ∈ raw.tbs.extensions, e.id ∈ parsedExtensionIds → e.value ≠ []) ∧
      c.tbs = raw.tbs ∧ c.signature = raw.signature := by
  unfold parseCertificate
  split_ifs with h1 h2
  · simp only [List.any_eq_true, Bool.and_eq_true, decide_eq_true_eq, List.isEmpty_iff] at h2
    simp only [reduceCtorEq, false_iff, not_and]
    obtain ⟨e, he, hp, hv⟩ := h2
    exact fun h => absurd hv (h e he hp)
  · simp only [List.any_eq_true, Bool.and_eq_true, decide_eq_true_eq, List.isEmpty_iff,
      not_exists, not_and] at h2
    refine ⟨fun h => ?_, fun ⟨_, ht, hs⟩ => ?_⟩
    · cases h
      exact ⟨h2, rfl, rfl⟩
    · cases c
      simp only at ht hs
      subst ht hs
      rfl
  · refine iff_of_false (by simp) fun ⟨_, ht, _⟩ => h1 ?_
    rw [← ht]
    exact c.extensions_nodup

/-- A parent that is a CA with the CertSign usage and a known key accepts exactly the
signatures that verify under its key. -/
theorem checkSignatureFrom_eq_ok_iff {c parent : Certificate Pub Sig} :
    checkSignatureFrom S c parent = .ok () ↔
      (parent.tbs.version = 3 → parent.tbs.basicConstraintsValid = true) ∧
      (parent.tbs.basicConstraintsValid = true → parent.tbs.isCA = true) ∧
      (parent.tbs.keyUsage ≠ 0 → parent.tbs.keyUsage &&& keyUsageCertSign ≠ 0) ∧
      S.kind parent.tbs.publicKey ≠ .unknown ∧
      S.verify parent.tbs.publicKey c.tbs c.signature = true := by
  unfold checkSignatureFrom
  split_ifs with h1 h2 h3 h4
  · refine iff_of_false (by simp) fun ⟨ha, hb, _⟩ => ?_
    rcases h1 with ⟨hv, hbc⟩ | ⟨hbc, hca⟩
    · rw [ha hv] at hbc; cases hbc
    · rw [hb hbc] at hca; cases hca
  · exact iff_of_false (by simp) fun h => h.2.2.1 h2.1 h2.2
  · exact iff_of_false (by simp) fun h => h.2.2.2.1 h3
  · simp only [not_or, not_and, Bool.not_eq_false] at h1 h2
    exact iff_of_true rfl ⟨h1.1, h1.2, h2, h3, h4⟩
  · exact iff_of_false (by simp) fun h => h4 h.2.2.2.2

end Operations

/-- A scheme to run the model on: a key is its kind and a number, a signature is the
signer's number, and a signature verifies under the key with that number. It satisfies both
laws, so every result stated for all schemes holds of it. -/
def tagScheme :
    SignatureScheme (KeyKind × Nat) (KeyKind × Nat) Nat (TBSCertificate (KeyKind × Nat)) where
  toPublic k := k
  kind k := k.1
  sign k _ := k.2
  verify p _ s := p.2 == s
  generateKey k := (k, 0)
  verify_sign _ _ := beq_self_eq_true _
  kind_generateKey _ := rfl

end X509
end GoFdo
