import GoFdo.X509.Certificate
import GoFdo.Control.Except

/-!
# Delegate certificates and `GenerateDelegate`

A delegate certificate names what its key may do by extensions under the arc
`1.3.6.1.4.1.45724.3`: one extension per permitted function, with an empty value, and one
identifier extension. A leaf carries the `Identifier` of the owner it was issued for, a CA
the `IdentifierConstraints` that its descendants' identifiers must satisfy.

`generateDelegate_eq_ok_iff` says exactly when `GenerateDelegate` succeeds and what it
returns; the lemmas after it read the returned certificate's fields off that statement.
-/

namespace GoFdo
namespace Delegate

open Bytes X509

def oidDelegateOnboard : OID := [1, 3, 6, 1, 4, 1, 45724, 3, 1, 1]
def oidIdentifier : OID := [1, 3, 6, 1, 4, 1, 45724, 3, 2]
def oidIdentifierConstraints : OID := [1, 3, 6, 1, 4, 1, 45724, 3, 3]

def delegateFlagLeaf : UInt8 := 0
def delegateFlagIntermediate : UInt8 := 1
def delegateFlagRoot : UInt8 := 2

/-- Whether `GenerateDelegate`'s flags ask for a CA: `flags & (Intermediate | Root) != 0`. -/
def isCAFlags (flags : UInt8) : Bool := flags &&& (delegateFlagIntermediate ||| delegateFlagRoot) != 0

/-- The extension that carries `GenerateDelegate`'s `ident`. -/
def identOID (ca : Bool) : OID := if ca then oidIdentifierConstraints else oidIdentifier

section Certificates

variable {Priv Pub Sig : Type}

/-- `certMissingOID(c, oid)`: no extension of `c` has id `oid`. -/
def certMissingOID (c : Certificate Pub Sig) (oid : OID) : Bool :=
  !(c.tbs.extensions.any fun o => o.id == oid)

/-- The value of the first extension with id `oid`; empty without one. -/
def extensionValue (oid : OID) (c : Certificate Pub Sig) : Bytes :=
  match c.tbs.extensions.find? (·.id == oid) with
  | some x => x.value
  | none => []

/-- The value of the first extension with id `oid`, spaces removed; empty without one. -/
def strippedExtension (oid : OID) (c : Certificate Pub Sig) : Bytes :=
  stripSpaces (extensionValue oid c)

/-- `GetCertIdentifierStr(cert)`. -/
def getCertIdentifierStr (c : Certificate Pub Sig) : Bytes := strippedExtension oidIdentifier c

/-- `getIdentConstraints(cert)`. -/
def getIdentConstraints (c : Certificate Pub Sig) : Bytes :=
  strippedExtension oidIdentifierConstraints c

/-- The loop of `processDelegateChain` that sets `rootIdent`: the value of the last
`IdentifierConstraints` extension, spaces kept. -/
def rootIdentOf (c : Certificate Pub Sig) : Bytes :=
  c.tbs.extensions.foldl (fun acc xx => if xx.id == oidIdentifierConstraints then xx.value else acc) []

theorem certMissingOID_eq_false_iff {c : Certificate Pub Sig} {oid : OID} :
    certMissingOID c oid = false ↔ oid ∈ c.tbs.extensions.map Extension.id := by
  simp [certMissingOID]

theorem foldl_lastValue_of_not_mem {oid : OID} {l : List Extension} (acc : Bytes)
    (h : oid ∉ l.map Extension.id) :
    l.foldl (fun acc xx => if xx.id == oid then xx.value else acc) acc = acc := by
  induction l generalizing acc with
  | nil => rfl
  | cons x l ih =>
    simp only [List.map_cons, List.mem_cons, not_or] at h
    rw [List.foldl_cons, if_neg (by rw [beq_iff_eq]; exact Ne.symm h.1), ih _ h.2]

/-- Where no id repeats, the last extension with a given id is the first. -/
theorem foldl_lastValue_eq_find? {oid : OID} {l : List Extension} (acc : Bytes)
    (h : (l.map Extension.id).Nodup) :
    l.foldl (fun acc xx => if xx.id == oid then xx.value else acc) acc =
      match l.find? (·.id == oid) with
      | some x => x.value
      | none => acc := by
  induction l generalizing acc with
  | nil => rfl
  | cons x l ih =>
    rw [List.map_cons, List.nodup_cons] at h
    by_cases hx : x.id = oid
    · subst hx
      rw [List.foldl_cons, if_pos (beq_self_eq_true _), foldl_lastValue_of_not_mem _ h.1]
      simp
    · rw [List.foldl_cons, if_neg (by simpa using hx), ih _ h.2]
      simp [hx]

/-- `rootIdent` is the value of the one `IdentifierConstraints` extension. -/
theorem rootIdentOf_eq (c : Certificate Pub Sig) :
    rootIdentOf c = extensionValue oidIdentifierConstraints c := by
  rw [rootIdentOf, extensionValue, foldl_lastValue_eq_find? _ c.extensions_nodup]

/-- `getIdentConstraints` is `rootIdent` with its spaces removed. -/
theorem getIdentConstraints_eq (c : Certificate Pub Sig) :
    getIdentConstraints c = stripSpaces (rootIdentOf c) := by
  rw [rootIdentOf_eq]; rfl

/-- The value of an extension of `c` is the value of `oid`: no other has its id. -/
theorem extensionValue_of_mem {c : Certificate Pub Sig} {oid : OID} {v : Bytes}
    (h : ⟨oid, v⟩ ∈ c.tbs.extensions) : extensionValue oid c = v := by
  unfold extensionValue
  split
  · rename_i x hx
    have hxid : x.id = oid := by simpa using List.find?_some hx
    rw [List.inj_on_of_nodup_map c.extensions_nodup (List.mem_of_find?_eq_some hx) h hxid]
  · rename_i hx
    exact absurd (List.find?_eq_none.mp hx _ h) (by simp)

theorem extensionValue_of_not_mem {c : Certificate Pub Sig} {oid : OID}
    (h : oid ∉ c.tbs.extensions.map Extension.id) : extensionValue oid c = [] := by
  unfold extensionValue
  rw [List.find?_eq_none.mpr fun e he heq => h (List.mem_map.mpr ⟨e, he, by simpa using heq⟩)]

end Certificates

/-! ### `GenerateDelegate` -/

/-- The `parent` template of `GenerateDelegate`: a CA named `issuer`. -/
def delegateParent (issuer : Bytes) (permissions : List OID) : Template where
  subject := issuer
  keyUsage := keyUsageCertSign ||| keyUsageDigitalSignature
  isCA := true
  basicConstraintsValid := true
  unknownExtKeyUsage := permissions
  extraExtensions := []

/-- The `template` of `GenerateDelegate`. -/
def delegateTemplate (flags : UInt8) (subject : Bytes) (permissions : List OID)
    (ident : Bytes) : Template where
  subject := subject
  keyUsage := if isCAFlags flags then keyUsageDigitalSignature ||| keyUsageCertSign
    else keyUsageDigitalSignature
  isCA := isCAFlags flags
  basicConstraintsValid := true
  unknownExtKeyUsage := []
  extraExtensions := (if ident = [] then [] else [⟨identOID (isCAFlags flags), ident⟩]) ++
    permissions.map fun p => ⟨p, []⟩

/-- The signed part of the certificate that `GenerateDelegate` asks for. -/
def delegateTBS {Pub : Type} (flags : UInt8) (delegateKey : Pub) (subject issuer : Bytes)
    (permissions : List OID) (ident : Bytes) : TBSCertificate Pub :=
  tbsOf (delegateTemplate flags subject permissions ident) (delegateParent issuer permissions)
    delegateKey

inductive GenerateError where
  /-- `CreateCertificate returned %v`. -/
  | create (e : CreateError)
  | parse (e : ParseError)
  /-- `Verify error is: %v`. -/
  | verify (e : SignatureError)
  /-- The self-signed parent failed to build, and `CheckSignatureFrom` on the nil
  certificate left in its place dereferences nil. -/
  | nilParent
  deriving DecidableEq, Repr

section Generate

variable {Priv Pub Sig : Type} (S : SignatureScheme Priv Pub Sig (TBSCertificate Pub))

/-- The check that ends `GenerateDelegate`: `cert` must verify under a self-signed
certificate built from `parent` for `key`. The source ignores the errors of building that
certificate. -/
def verifyAgainstParent (key : Priv) (parent : Template) (cert : Certificate Pub Sig) :
    Except GenerateError Unit :=
  match (createCertificate S parent parent (S.toPublic key) key).toOption.bind
      fun d => (parseCertificate d).toOption with
  | none => .error .nilParent
  | some certParent => (checkSignatureFrom S cert certParent).mapError .verify

/-- `GenerateDelegate(key, flags, delegateKey, subject, issuer, permissions, sigAlg, ident)`;
`sigAlg` is read by nothing. -/
def generateDelegate (key : Priv) (flags : UInt8) (delegateKey : Pub) (subject issuer : Bytes)
    (permissions : List OID) (ident : Bytes) : Except GenerateError (Certificate Pub Sig) := do
  let parent := delegateParent issuer permissions
  let der ← (createCertificate S (delegateTemplate flags subject permissions ident) parent
    delegateKey key).mapError .create
  let cert ← (parseCertificate der).mapError .parse
  verifyAgainstParent S key parent cert
  pure cert

theorem buildCertExtensions_delegateParent (issuer : Bytes) (permissions : List OID) :
    buildCertExtensions (delegateParent issuer permissions) =
      ⟨oidExtensionKeyUsage, [3]⟩ ::
        ((if permissions.isEmpty then [] else [⟨oidExtensionExtendedKeyUsage, [48]⟩]) ++
          [⟨oidExtensionBasicConstraints, [48]⟩, ⟨oidExtensionSubjectKeyId, [4]⟩]) := by
  cases permissions <;> rfl

theorem delegateParent_keyUsage (issuer : Bytes) (permissions : List OID) :
    (delegateParent issuer permissions).keyUsage = 33 := rfl

/-- The self-check passes whenever the key is usable, the permissions are encodable and
the certificate verifies under the key. -/
theorem verifyAgainstParent_delegateParent {key : Priv} {issuer : Bytes}
    {permissions : List OID} {cert : Certificate Pub Sig}
    (hk : S.kind (S.toPublic key) ≠ .unknown) (hp : ∀ p ∈ permissions, validOID p)
    (hv : S.verify (S.toPublic key) cert.tbs cert.signature) :
    verifyAgainstParent S key (delegateParent issuer permissions) cert = .ok () := by
  set P := delegateParent issuer permissions
  have hext : (tbsOf P P (S.toPublic key)).extensions =
      buildCertExtensions (delegateParent issuer permissions) := List.append_nil _
  have hcreate : createCertificate S P P (S.toPublic key) key =
      .ok ⟨tbsOf P P (S.toPublic key), S.sign key (tbsOf P P (S.toPublic key))⟩ := by
    refine createCertificate_eq_ok_iff S |>.mpr ⟨hk, hk, ?_, hp, rfl⟩
    rw [hext, buildCertExtensions_delegateParent]
    cases permissions.isEmpty <;> decide
  have hnodup : ((tbsOf P P (S.toPublic key)).extensions.map Extension.id).Nodup := by
    rw [hext, buildCertExtensions_delegateParent]
    cases permissions.isEmpty <;> decide
  have hparse : parseCertificate ⟨tbsOf P P (S.toPublic key), S.sign key (tbsOf P P (S.toPublic key))⟩ =
      .ok ⟨tbsOf P P (S.toPublic key), S.sign key (tbsOf P P (S.toPublic key)), hnodup⟩ := by
    refine parseCertificate_eq_ok_iff.mpr ⟨?_, rfl, rfl⟩
    rw [hext, buildCertExtensions_delegateParent]
    cases permissions.isEmpty <;> decide
  have hcheck := (@checkSignatureFrom_eq_ok_iff _ _ _ S cert
    ⟨tbsOf P P (S.toPublic key), S.sign key (tbsOf P P (S.toPublic key)), hnodup⟩).mpr
    ⟨fun _ => rfl, fun _ => rfl, fun _ => by
      show (delegateParent issuer permissions).keyUsage &&& keyUsageCertSign ≠ 0
      rw [delegateParent_keyUsage]
      decide, hk, hv⟩
  rw [verifyAgainstParent, hcreate]
  simp only [Except.toOption, Option.bind, hparse, hcheck]
  rfl

/-- `GenerateDelegate` succeeds exactly when both keys are of a known kind, every extension
id is encodable and no standard extension has an empty value, and then it returns the
requested certificate signed by `key`. -/
theorem generateDelegate_eq_ok_iff {key : Priv} {flags : UInt8} {delegateKey : Pub}
    {subject issuer : Bytes} {permissions : List OID} {ident : Bytes} {c : Certificate Pub Sig} :
    generateDelegate S key flags delegateKey subject issuer permissions ident = .ok c ↔
      S.kind (S.toPublic key) ≠ .unknown ∧ S.kind delegateKey ≠ .unknown ∧
      (∀ e ∈ (delegateTBS flags delegateKey subject issuer permissions ident).extensions,
        validOID e.id ∧ (e.id ∈ parsedExtensionIds → e.value ≠ [])) ∧
      c.tbs = delegateTBS flags delegateKey subject issuer permissions ident ∧
      c.signature = S.sign key c.tbs := by
  have hperm : (∀ e ∈ (delegateTBS flags delegateKey subject issuer permissions ident).extensions,
      validOID e.id) → ∀ p ∈ permissions, validOID p := fun h p hp =>
    h ⟨p, []⟩ (by simp [delegateTBS, tbsOf, delegateTemplate, hp])
  simp only [generateDelegate, except_bind_eq_ok, except_mapError_eq_ok,
    createCertificate_eq_ok_iff, parseCertificate_eq_ok_iff, except_pure_eq_ok]
  constructor
  · rintro ⟨der, ⟨hk, hd, hv, -, rfl⟩, cert, ⟨hpar, hct, hcs⟩, _, -, rfl⟩
    exact ⟨hk, hd, fun e he => ⟨hv e he, hpar e he⟩, hct,
      hcs.trans (congrArg (S.sign key) hct.symm)⟩
  · rintro ⟨hk, hd, hv, hct, hcs⟩
    refine ⟨_, ⟨hk, hd, fun e he => (hv e he).1, by simp [delegateTemplate], rfl⟩, c,
      ⟨fun e he => (hv e he).2, hct, hcs.trans (congrArg (S.sign key) hct)⟩, (), ?_, rfl⟩
    refine verifyAgainstParent_delegateParent S hk (hperm fun e he => (hv e he).1) ?_
    rw [hcs, hct]
    exact S.verify_sign key _

/-! ### The certificate `GenerateDelegate` returns -/

section Fields

variable {flags : UInt8} {delegateKey : Pub} {subject issuer : Bytes} {permissions : List OID}
  {ident : Bytes}

@[simp] theorem delegateTBS_version :
    (delegateTBS flags delegateKey subject issuer permissions ident).version = 3 := rfl
@[simp] theorem delegateTBS_subject :
    (delegateTBS flags delegateKey subject issuer permissions ident).subject = subject := rfl
@[simp] theorem delegateTBS_issuer :
    (delegateTBS flags delegateKey subject issuer permissions ident).issuer = issuer := rfl
@[simp] theorem delegateTBS_isCA :
    (delegateTBS flags delegateKey subject issuer permissions ident).isCA = isCAFlags flags := rfl
@[simp] theorem delegateTBS_basicConstraintsValid :
    (delegateTBS flags delegateKey subject issuer permissions ident).basicConstraintsValid =
      true := rfl
@[simp] theorem delegateTBS_publicKey :
    (delegateTBS flags delegateKey subject issuer permissions ident).publicKey = delegateKey := rfl
@[simp] theorem delegateTBS_keyUsage :
    (delegateTBS flags delegateKey subject issuer permissions ident).keyUsage =
      if isCAFlags flags then 33 else 1 := by
  simp only [delegateTBS, tbsOf, delegateTemplate]
  split_ifs <;> rfl

theorem delegateTBS_extensions :
    (delegateTBS flags delegateKey subject issuer permissions ident).extensions =
      buildCertExtensions (delegateTemplate flags subject permissions ident) ++
        ((if ident = [] then [] else [⟨identOID (isCAFlags flags), ident⟩]) ++
          permissions.map fun p => ⟨p, []⟩) := rfl

theorem identOID_not_mem_builtin (ca : Bool) :
    identOID ca ∉ builtinExtensionIds ∧ identOID ca ∉ parsedExtensionIds ∧ validOID (identOID ca) := by
  cases ca <;> decide

theorem mem_delegateTBS_of_mem_permissions {p : OID} (hp : p ∈ permissions) :
    ⟨p, []⟩ ∈ (delegateTBS flags delegateKey subject issuer permissions ident).extensions := by
  simp [delegateTBS_extensions, hp]

/-- No id repeats when the permissions are distinct, none is a builtin id, and none is the
id of the identifier extension. -/
theorem nodup_delegateTBS (hp : ∀ p ∈ permissions, p ∉ builtinExtensionIds)
    (hn : permissions.Nodup) (hi : ident ≠ [] → identOID (isCAFlags flags) ∉ permissions) :
    ((delegateTBS flags delegateKey subject issuer permissions ident).extensions.map
      Extension.id).Nodup := by
  have hperm : (permissions.map fun p => (⟨p, []⟩ : Extension)).map Extension.id = permissions := by
    simp [Function.comp_def]
  rw [delegateTBS_extensions, List.map_append, List.nodup_append]
  refine ⟨nodup_buildCertExtensions _, ?_, fun o hb ho => ?_⟩
  · by_cases h : ident = []
    · simpa [h, hperm] using hn
    · simpa [h, hperm] using ⟨hi h, hn⟩
  · obtain ⟨e, he, rfl⟩ := List.mem_map.mp hb
    have hb' := (mem_buildCertExtensions he).1
    rw [List.map_append, List.mem_append, hperm] at ho
    rcases ho with ho | ho
    · split_ifs at ho <;> simp at ho
      exact (identOID_not_mem_builtin _).1 (ho ▸ hb')
    · exact hp _ ho hb'

/-- The value of an extension of a generated certificate: `ident` under the identifier
extension's id, and empty under every other id but the builtin ones. -/
theorem extensionValue_of_tbs_eq {c : Certificate Pub Sig}
    (hc : c.tbs = delegateTBS flags delegateKey subject issuer permissions ident) {o : OID}
    (ho : o ∉ builtinExtensionIds) :
    extensionValue o c = if o = identOID (isCAFlags flags) then ident else [] := by
  by_cases hi : ident ≠ [] ∧ o = identOID (isCAFlags flags)
  · rw [if_pos hi.2]
    exact extensionValue_of_mem (by rw [hc, delegateTBS_extensions]; simp [hi.1, hi.2])
  · have hz : (if o = identOID (isCAFlags flags) then ident else []) = [] := by
      split_ifs with h
      · simpa [h] using hi
      · rfl
    rw [hz]
    by_cases hp : o ∈ permissions
    · exact extensionValue_of_mem (hc ▸ mem_delegateTBS_of_mem_permissions hp)
    · refine extensionValue_of_not_mem fun hm => ?_
      rw [hc, delegateTBS_extensions, List.map_append, List.mem_append, List.map_append,
        List.mem_append] at hm
      rcases hm with hm | hm | hm
      · obtain ⟨e, he, rfl⟩ := List.mem_map.mp hm
        exact ho (mem_buildCertExtensions he).1
      · split_ifs at hm with h0 <;> simp at hm
        exact hi ⟨h0, hm⟩
      · simp at hm
        exact hp hm

end Fields

/-- A permission of a generated certificate is an encodable, non-standard id, and the
certificate carries it. -/
theorem generateDelegate_permission {key : Priv} {flags : UInt8} {delegateKey : Pub}
    {subject issuer : Bytes} {permissions : List OID} {ident : Bytes} {c : Certificate Pub Sig}
    (h : generateDelegate S key flags delegateKey subject issuer permissions ident = .ok c)
    {p : OID} (hp : p ∈ permissions) :
    validOID p ∧ p ∉ parsedExtensionIds ∧ ⟨p, []⟩ ∈ c.tbs.extensions := by
  obtain ⟨-, -, hv, hc, -⟩ := (generateDelegate_eq_ok_iff S).mp h
  have hm : ⟨p, []⟩ ∈ (delegateTBS flags delegateKey subject issuer permissions ident).extensions :=
    mem_delegateTBS_of_mem_permissions hp
  exact ⟨(hv _ hm).1, fun h' => (hv _ hm).2 h' rfl, hc ▸ hm⟩

/-- `GenerateDelegate` succeeds when both keys are usable, and the permissions are distinct,
encodable, non-standard ids other than the identifier extension's. -/
theorem generateDelegate_eq_ok_of {key : Priv} {flags : UInt8} {delegateKey : Pub}
    {subject issuer : Bytes} {permissions : List OID} {ident : Bytes}
    (hk : S.kind (S.toPublic key) ≠ .unknown) (hd : S.kind delegateKey ≠ .unknown)
    (hp : ∀ p ∈ permissions, validOID p ∧ p ∉ parsedExtensionIds) (hn : permissions.Nodup)
    (hi : ident ≠ [] → identOID (isCAFlags flags) ∉ permissions) :
    ∃ c, generateDelegate S key flags delegateKey subject issuer permissions ident = .ok c ∧
      c.tbs = delegateTBS flags delegateKey subject issuer permissions ident := by
  have hnodup : ((delegateTBS flags delegateKey subject issuer permissions ident).extensions.map
      Extension.id).Nodup :=
    nodup_delegateTBS (fun p h hb => (hp p h).2 (builtinExtensionIds_subset p hb)) hn hi
  refine ⟨⟨_, S.sign key _, hnodup⟩, (generateDelegate_eq_ok_iff S).mpr ⟨hk, hd, ?_, rfl, rfl⟩, rfl⟩
  intro e he
  rw [delegateTBS_extensions, List.mem_append, List.mem_append] at he
  rcases he with he | he | he
  · obtain ⟨hb, hv⟩ := mem_buildCertExtensions he
    exact ⟨validOID_builtin _ hb, fun _ => hv⟩
  · split_ifs at he with h0 <;> simp at he
    subst he
    exact ⟨(identOID_not_mem_builtin _).2.2, fun h => absurd h (identOID_not_mem_builtin _).2.1⟩
  · obtain ⟨p, hp', rfl⟩ := List.mem_map.mp he
    exact ⟨(hp p hp').1, fun h => absurd h (hp p hp').2⟩

end Generate

end Delegate
end GoFdo
