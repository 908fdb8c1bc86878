import GoFdo.Delegate.Generate
import GoFdo.Identifier.Semantics

/-!
# `processDelegateChain`

The verifier of delegate chains. When an owner key is given, it appends an ephemeral root
certificate for that key, issued by `GenerateDelegate` with the constraints of the chain's
last certificate; then it walks the chain from the leaf, checking each certificate and its
link to the next; last it compares the root's constraints with the named owner.

The loop body is cut into the source's four steps (the identifier read, the scoping of
identifiers, the signature link, the usage checks), each with one spec lemma. `EntryOk`
collects what they ask of one entry, and `processDelegateChain_eq_ok_iff` says that the
verifier accepts exactly the chains whose every entry is `EntryOk`.
-/

namespace GoFdo
namespace Delegate

open Bytes X509 Identifier

/-- The errors of `processDelegateChain`, with the data the source formats into them. -/
inductive DelegateError where
  /-- `Empty chain`. -/
  | emptyChain
  /-- `Unknown key type %T`. -/
  | unknownKeyType
  /-- `VerifyDelegate Error createing ephemerial Owner Root Cert: %v`. -/
  | ephemeralRoot (e : GenerateError)
  /-- `GetIdentifier: Cannot verify empty chain`. -/
  | getIdentifier
  /-- `NamedIdentifer in entry #%d %s not allowed by prior %s`. -/
  | notPermitted (i : Nat) (prevOwner constrs : Bytes)
  /-- `No NamedIdentifer in entry #%d (%s) but "%s" was indicated`. -/
  | noNamedIdentifier (i : Nat) (subject nextStr : Bytes)
  /-- `VerifyDelegate Chain Validation error - (#%d) %s not signed by (#%d) %s: %v`. -/
  | notSigned (i : Nat) (subject parentSubject : Bytes) (e : SignatureError)
  /-- `Subject %s Issued by Issuer=%s, expected %s`; the source prints the next
  certificate's issuer as the expected name. -/
  | issuerMismatch (subject issuer expected : Bytes)
  /-- `VerifyDelegate error - %s has no permission %v`. -/
  | noPermission (subject : Bytes) (oid : OID)
  /-- `VerifyDelegate cert %s: No Digital Signature Usage`. -/
  | noDigitalSignature (subject : Bytes)
  /-- `VerifyDelegate cert %s: Basic Constraints not valid`. -/
  | basicConstraintsInvalid (subject : Bytes)
  /-- `VerifyDelegate cert %s: Not a CA`. -/
  | notCA (subject : Bytes)
  /-- `VerifyDelegate cert %s: No CerSign Usage`. -/
  | noCertSign (subject : Bytes)
  /-- `Chain scoped to namedIdentifer "%s", but root only scoped for "%s"`. -/
  | rootScope (namedOwner rootIdent : Bytes)
  deriving DecidableEq, Repr

section Walk

variable {Priv Pub Sig : Type} (S : SignatureScheme Priv Pub Sig (TBSCertificate Pub))

/-- `GetIdentifier(chain)`: the leaf's identifier. -/
def getIdentifier : List (Certificate Pub Sig) → Except DelegateError (Option Bytes)
  | [] => .error .getIdentifier
  | c :: _ => .ok (some (getCertIdentifierStr c))

/-- The `constrs` of entry `i`: the leaf's identifier, a CA's constraints. -/
def entryIdentifier (chain : List (Certificate Pub Sig)) (i : Nat) (c : Certificate Pub Sig) :
    Except DelegateError Bytes :=
  if i = 0 then (fun id => id.getD []) <$> getIdentifier chain else .ok (getIdentConstraints c)

/-- The identifier steps of the loop: a non-empty `constrs` must permit the previous entry's
identifier, and may not follow an entry without one. Returns the new `prevOwner`. -/
def scopeStep (i : Nat) (subject prevOwner constrs : Bytes) : Except DelegateError Bytes := do
  let nextStr ← if constrs ≠ [] then
      if prevOwner ≠ [] ∧ isPermittedIdentifierRule prevOwner constrs = false then
        .error (.notPermitted i prevOwner constrs)
      else pure constrs
    else pure []
  if i ≠ 0 ∧ prevOwner = [] ∧ nextStr ≠ [] then .error (.noNamedIdentifier i subject nextStr)
  else pure nextStr

/-- The link of entry `c` to the next one, when there is a next one. -/
def linkCheck (i : Nat) (c : Certificate Pub Sig) : Option (Certificate Pub Sig) →
    Except DelegateError Unit
  | none => .ok ()
  | some n =>
    match checkSignatureFrom S c n with
    | .error e => .error (.notSigned i c.tbs.subject n.tbs.subject e)
    | .ok () =>
      if c.tbs.issuer ≠ n.tbs.subject then
        .error (.issuerMismatch c.tbs.subject c.tbs.issuer n.tbs.issuer)
      else .ok ()

/-- The permission, usage and CA checks of entry `i`. -/
def usageCheck (oid : Option OID) (i : Nat) (c : Certificate Pub Sig) :
    Except DelegateError Unit :=
  match oid with
  | some o =>
    if certMissingOID c o then .error (.noPermission c.tbs.subject o)
    else keyUsageCheck
  | none => keyUsageCheck
where
  keyUsageCheck : Except DelegateError Unit :=
    if c.tbs.keyUsage &&& keyUsageDigitalSignature = 0 then
      .error (.noDigitalSignature c.tbs.subject)
    else if c.tbs.basicConstraintsValid = false then
      .error (.basicConstraintsInvalid c.tbs.subject)
    else if i ≠ 0 ∧ c.tbs.isCA = false then .error (.notCA c.tbs.subject)
    else if i ≠ 0 ∧ c.tbs.keyUsage &&& keyUsageCertSign = 0 then
      .error (.noCertSign c.tbs.subject)
    else .ok ()

/-- One pass of the loop of `processDelegateChain`, for entry `i`, with `next` the entry
after it. Returns the new `prevOwner`. -/
def checkEntry (oid : Option OID) (chain : List (Certificate Pub Sig)) (i : Nat)
    (c : Certificate Pub Sig) (next : Option (Certificate Pub Sig)) (prevOwner : Bytes) :
    Except DelegateError Bytes := do
  let constrs ← entryIdentifier chain i c
  let nextStr ← scopeStep i c.tbs.subject prevOwner constrs
  linkCheck S i c next
  usageCheck oid i c
  pure nextStr

/-- The loop of `processDelegateChain` over the entries of `chain` from `i` on. -/
def walk (oid : Option OID) (chain : List (Certificate Pub Sig)) :
    Nat → Bytes → List (Certificate Pub Sig) → Except DelegateError Unit
  | _, _, [] => .ok ()
  | i, prevOwner, c :: rest => do
    let prevOwner ← checkEntry S oid chain i c rest.head? prevOwner
    walk oid chain (i + 1) prevOwner rest

/-- The chain as walked: `chain`, followed by the ephemeral owner root when an owner key is
given. -/
def withOwnerRoot (chain : List (Certificate Pub Sig)) (ownerKey : Option Pub)
    (oid : Option OID) : Except DelegateError (List (Certificate Pub Sig)) :=
  match chain.getLast? with
  | none => .error .emptyChain
  | some last =>
    match ownerKey with
    | none => .ok chain
    | some key =>
      match S.kind key with
      | .ecdsa | .rsa =>
        match generateDelegate S (S.generateKey (S.kind key)) delegateFlagRoot key
            last.tbs.issuer last.tbs.issuer oid.toList (getIdentConstraints last) with
        | .ok rootOwner => .ok (chain ++ [rootOwner])
        | .error e => .error (.ephemeralRoot e)
      | _ => .error .unknownKeyType

/-- The final check: a root scoped by `rootIdent` must permit the named owner. -/
def namedOwnerCheck (namedOwner : Option Bytes) (rootIdent : Bytes) :
    Except DelegateError Unit :=
  match namedOwner with
  | some n =>
    if rootIdent ≠ [] ∧ isPermittedIdentifierRule rootIdent n = false then
      .error (.rootScope n rootIdent)
    else .ok ()
  | none => .ok ()

/-- `rootIdent`: the constraints value of the last certificate as walked. -/
def chainRootIdent (walked : List (Certificate Pub Sig)) : Bytes :=
  (walked.getLast?.map rootIdentOf).getD []

/-- `processDelegateChain(chain, ownerKey, oid, output, namedOwner)`; `output` only prints. -/
def processDelegateChain (chain : List (Certificate Pub Sig)) (ownerKey : Option Pub)
    (oid : Option OID) (namedOwner : Option Bytes) : Except DelegateError Unit := do
  let walked ← withOwnerRoot S chain ownerKey oid
  walk S oid walked 0 [] walked
  namedOwnerCheck namedOwner (chainRootIdent walked)

/-- `VerifyDelegateChain(chain, ownerKey, oid, namedOwner)`. -/
def verifyDelegateChain (chain : List (Certificate Pub Sig)) (ownerKey : Option Pub)
    (oid : Option OID) (namedOwner : Option Bytes) : Except DelegateError Unit :=
  processDelegateChain S chain ownerKey oid namedOwner

/-! ### What the walk asks of each entry -/

/-- The identifier the walk reads at entry `i`. -/
def entryIdent (i : Nat) (c : Certificate Pub Sig) : Bytes :=
  if i = 0 then getCertIdentifierStr c else getIdentConstraints c

/-- The identifier of the entry before `i`; the leaf has none before it. -/
def prevIdent (chain : List (Certificate Pub Sig)) : Nat → Bytes
  | 0 => []
  | j + 1 =>
    match chain[j]? with
    | some c => entryIdent j c
    | none => []

/-- What one pass of the loop asks of entry `i` of the chain as walked. -/
structure EntryOk (oid : Option OID) (i : Nat) (c : Certificate Pub Sig)
    (next : Option (Certificate Pub Sig)) (prev : Bytes) : Prop where
  scopes : entryIdent i c ≠ [] → prev ≠ [] → isPermittedIdentifierRule prev (entryIdent i c)
  named : i ≠ 0 → prev = [] → entryIdent i c = []
  linked : ∀ n, next = some n → checkSignatureFrom S c n = .ok () ∧ c.tbs.issuer = n.tbs.subject
  permitted : ∀ o, oid = some o → o ∈ c.tbs.extensions.map Extension.id
  digitalSignature : c.tbs.keyUsage &&& keyUsageDigitalSignature ≠ 0
  basicConstraints : c.tbs.basicConstraintsValid = true
  authority : i ≠ 0 → c.tbs.isCA = true ∧ c.tbs.keyUsage &&& keyUsageCertSign ≠ 0

/-- Every entry of the chain as walked passes the loop. -/
def ChainOk (oid : Option OID) (chain : List (Certificate Pub Sig)) : Prop :=
  ∀ i c, chain[i]? = some c → EntryOk S oid i c chain[i + 1]? (prevIdent chain i)

theorem entryIdentifier_eq {chain : List (Certificate Pub Sig)} {i : Nat}
    {c : Certificate Pub Sig} (h : i = 0 → chain.head? = some c) :
    entryIdentifier chain i c = .ok (entryIdent i c) := by
  unfold entryIdentifier entryIdent
  split_ifs with hi
  · obtain ⟨rest, rfl⟩ : ∃ rest, chain = c :: rest := by
      cases chain with
      | nil => cases h hi
      | cons d rest => cases h hi; exact ⟨rest, rfl⟩
    rfl
  · rfl

theorem scopeStep_eq (i : Nat) (subject prevOwner constrs : Bytes) :
    scopeStep i subject prevOwner constrs =
      if constrs ≠ [] ∧ prevOwner ≠ [] ∧ isPermittedIdentifierRule prevOwner constrs = false then
        .error (.notPermitted i prevOwner constrs)
      else if i ≠ 0 ∧ prevOwner = [] ∧ constrs ≠ [] then .error (.noNamedIdentifier i subject constrs)
      else .ok constrs := by
  unfold scopeStep
  by_cases hc : constrs = []
  · subst hc
    simp [pure, Except.pure, bind, Except.bind]
  · by_cases hp : prevOwner ≠ [] ∧ isPermittedIdentifierRule prevOwner constrs = false
    · simp [hc, hp, bind, Except.bind]
    · simp [hc, hp, bind, Except.bind, pure, Except.pure]

theorem scopeStep_eq_ok_iff {i : Nat} {subject prevOwner constrs r : Bytes} :
    scopeStep i subject prevOwner constrs = .ok r ↔
      r = constrs ∧ (constrs ≠ [] → prevOwner ≠ [] → isPermittedIdentifierRule prevOwner constrs) ∧
        (i ≠ 0 → prevOwner = [] → constrs = []) := by
  rw [scopeStep_eq]
  split_ifs with h1 h2
  · exact iff_of_false (by simp) fun ⟨_, h, _⟩ => by simp [h h1.1 h1.2.1] at h1
  · exact iff_of_false (by simp) fun ⟨_, _, h⟩ => h2.2.2 (h h2.1 h2.2.1)
  · simp only [not_and, Bool.not_eq_false, not_not] at h1 h2
    rw [Except.ok.injEq]
    exact ⟨fun h => ⟨h.symm, h1, h2⟩, fun h => h.1.symm⟩

theorem linkCheck_eq_ok_iff {i : Nat} {c : Certificate Pub Sig}
    {next : Option (Certificate Pub Sig)} :
    linkCheck S i c next = .ok () ↔
      ∀ n, next = some n → checkSignatureFrom S c n = .ok () ∧ c.tbs.issuer = n.tbs.subject := by
  cases next with
  | none => simp [linkCheck]
  | some n =>
    simp only [linkCheck, Option.some.injEq, forall_eq']
    cases h : checkSignatureFrom S c n with
    | error e => simp
    | ok u =>
      cases u
      split_ifs with hs
      · simp [hs]
      · simpa using hs

theorem usageCheck_eq_ok_iff {oid : Option OID} {i : Nat} {c : Certificate Pub Sig} :
    usageCheck oid i c = .ok () ↔
      (∀ o, oid = some o → o ∈ c.tbs.extensions.map Extension.id) ∧
      c.tbs.keyUsage &&& keyUsageDigitalSignature ≠ 0 ∧ c.tbs.basicConstraintsValid = true ∧
      (i ≠ 0 → c.tbs.isCA = true ∧ c.tbs.keyUsage &&& keyUsageCertSign ≠ 0) := by
  have hk : usageCheck.keyUsageCheck i c = .ok () ↔
      c.tbs.keyUsage &&& keyUsageDigitalSignature ≠ 0 ∧ c.tbs.basicConstraintsValid = true ∧
      (i ≠ 0 → c.tbs.isCA = true ∧ c.tbs.keyUsage &&& keyUsageCertSign ≠ 0) := by
    unfold usageCheck.keyUsageCheck
    split_ifs with h1 h2 h3 h4 <;> simp_all
  cases oid with
  | none => simp [usageCheck, hk]
  | some o =>
    simp only [Option.some.injEq, forall_eq', ← certMissingOID_eq_false_iff]
    rw [usageCheck]
    cases certMissingOID c o <;> simp [hk]

theorem checkEntry_eq_ok_iff {oid : Option OID} {chain : List (Certificate Pub Sig)} {i : Nat}
    {c : Certificate Pub Sig} {next : Option (Certificate Pub Sig)} {prev r : Bytes}
    (h : i = 0 → chain.head? = some c) :
    checkEntry S oid chain i c next prev = .ok r ↔ EntryOk S oid i c next prev ∧ r = entryIdent i c := by
  simp only [checkEntry, entryIdentifier_eq h, except_bind_eq_ok, exists_unit, scopeStep_eq_ok_iff,
    linkCheck_eq_ok_iff, usageCheck_eq_ok_iff, except_pure_eq_ok, Except.ok.injEq]
  constructor
  · rintro ⟨_, rfl, _, ⟨rfl, hs, hn⟩, hl, ⟨hp, hd, hb, ha⟩, rfl⟩
    exact ⟨⟨hs, hn, hl, hp, hd, hb, ha⟩, rfl⟩
  · rintro ⟨⟨hs, hn, hl, hp, hd, hb, ha⟩, rfl⟩
    exact ⟨_, rfl, _, ⟨rfl, hs, hn⟩, hl, ⟨hp, hd, hb, ha⟩, rfl⟩

/-- The walk from entry `i` on, started with the identifier of entry `i - 1`, passes exactly
when every entry from `i` on is `EntryOk`. -/
theorem walk_drop_eq_ok_iff {oid : Option OID} {chain : List (Certificate Pub Sig)}
    (l : List (Certificate Pub Sig)) (i : Nat) (hl : chain.drop i = l) :
    walk S oid chain i (prevIdent chain i) l = .ok () ↔
      ∀ j c, i ≤ j → chain[j]? = some c → EntryOk S oid j c chain[j + 1]? (prevIdent chain j) := by
  induction l generalizing i with
  | nil =>
    refine iff_of_true rfl fun j c hj hc => ?_
    have : chain.length ≤ i := List.drop_eq_nil_iff.mp hl
    rw [List.getElem?_eq_none (by omega)] at hc
    cases hc
  | cons c rest ih =>
    have hc : chain[i]? = some c := by rw [← List.head?_drop, hl]; rfl
    have hrest : chain.drop (i + 1) = rest := by rw [← List.drop_drop, hl]; rfl
    have hnext : rest.head? = chain[i + 1]? := by rw [← hrest, List.head?_drop]
    have hprev : prevIdent chain (i + 1) = entryIdent i c := by simp [prevIdent, hc]
    have hhead : i = 0 → chain.head? = some c := by
      rintro rfl; rwa [List.head?_eq_getElem?]
    simp only [walk, except_bind_eq_ok, checkEntry_eq_ok_iff S hhead]
    constructor
    · rintro ⟨_, ⟨he, rfl⟩, hw⟩ j d hj hd
      rcases Nat.eq_or_lt_of_le hj with rfl | hj
      · rw [hc] at hd; cases hd
        rwa [← hnext]
      · rw [← hprev, ih (i + 1) hrest] at hw
        exact hw j d hj hd
    · intro h
      refine ⟨_, ⟨hnext ▸ h i c le_rfl hc, rfl⟩, ?_⟩
      rw [← hprev, ih (i + 1) hrest]
      exact fun j d hj hd => h j d (by omega) hd

/-- The walk of `processDelegateChain` passes exactly on the chains whose every entry is
`EntryOk`. -/
theorem walk_eq_ok_iff {oid : Option OID} {chain : List (Certificate Pub Sig)} :
    walk S oid chain 0 [] chain = .ok () ↔ ChainOk S oid chain := by
  exact (@walk_drop_eq_ok_iff _ _ _ S oid chain chain 0 (List.drop_zero chain)).trans
    ⟨fun h i c hc => h i c (Nat.zero_le i) hc, fun h i c _ hc => h i c hc⟩

theorem namedOwnerCheck_eq_ok_iff {namedOwner : Option Bytes} {rootIdent : Bytes} :
    namedOwnerCheck namedOwner rootIdent = .ok () ↔
      ∀ n, namedOwner = some n → rootIdent ≠ [] → isPermittedIdentifierRule rootIdent n := by
  cases namedOwner with
  | none => simp [namedOwnerCheck]
  | some n =>
    simp only [namedOwnerCheck, Option.some.injEq, forall_eq']
    split_ifs with h
    · exact iff_of_false (by simp) fun h' => by simp [h'.mt (by simp [h.2]) |> fun x => x] at h
    · simp only [not_and, Bool.not_eq_false] at h
      exact iff_of_true rfl h

/-- `processDelegateChain` accepts exactly the chains that, with the owner root appended,
pass every entry check and whose root permits the named owner. -/
theorem processDelegateChain_eq_ok_iff {chain : List (Certificate Pub Sig)}
    {ownerKey : Option Pub} {oid : Option OID} {namedOwner : Option Bytes} :
    processDelegateChain S chain ownerKey oid namedOwner = .ok () ↔
      ∃ walked, withOwnerRoot S chain ownerKey oid = .ok walked ∧ ChainOk S oid walked ∧
        ∀ n, namedOwner = some n → chainRootIdent walked ≠ [] →
          isPermittedIdentifierRule (chainRootIdent walked) n := by
  simp only [processDelegateChain, except_bind_eq_ok, exists_unit, walk_eq_ok_iff,
    namedOwnerCheck_eq_ok_iff]

end Walk

end Delegate
end GoFdo
