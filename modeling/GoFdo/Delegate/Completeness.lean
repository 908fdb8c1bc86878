import GoFdo.Delegate.Soundness

/-!
# Chains built by `GenerateDelegate` verify

A chain whose certificates come from `GenerateDelegate`, each signed by the key of the next
and named after it, with the leaf alone issued as a leaf and every certificate carrying the
function, passes the walk as soon as each non-empty constraint permits the identifier just
below it (`chainOk_of_generated`). With an owner key, the verifier appends a root that
copies the last certificate's constraints and compares them with themselves: in a chain of
two or more these must permit themselves, which the matcher grants on valid UTF-8 and may
refuse otherwise.

The walk reads identifiers with their spaces removed: an identifier made only of spaces is
empty to it, so a constraint above it fails the walk however the matcher judges the pair.
-/

namespace GoFdo
namespace Delegate

open Bytes X509 Identifier

theorem forall₂_getElem? {α β : Type} {R : α → β → Prop} {l₁ : List α} {l₂ : List β}
    (h : List.Forall₂ R l₁ l₂) {i : Nat} {b : β} (hb : l₂[i]? = some b) :
    ∃ a, l₁[i]? = some a ∧ R a b := by
  induction h generalizing i with
  | nil => cases hb
  | cons hab _ ih =>
    cases i with
    | zero =>
      rw [List.getElem?_cons_zero, Option.some.injEq] at hb
      subst hb
      exact ⟨_, List.getElem?_cons_zero, hab⟩
    | succ i => rw [List.getElem?_cons_succ] at hb ⊢; exact ih hb

theorem forall₂_getElem?_left {α β : Type} {R : α → β → Prop} {l₁ : List α} {l₂ : List β}
    (h : List.Forall₂ R l₁ l₂) {i : Nat} {a : α} (ha : l₁[i]? = some a) :
    ∃ b, l₂[i]? = some b ∧ R a b := by
  induction h generalizing i with
  | nil => cases ha
  | cons hab _ ih =>
    cases i with
    | zero =>
      rw [List.getElem?_cons_zero, Option.some.injEq] at ha
      subst ha
      exact ⟨_, List.getElem?_cons_zero, hab⟩
    | succ i => rw [List.getElem?_cons_succ] at ha ⊢; exact ih ha

theorem chain'_getElem? {α : Type} {R : α → α → Prop} {l : List α} (h : l.Chain' R) {i : Nat}
    {a b : α} (ha : l[i]? = some a) (hb : l[i + 1]? = some b) : R a b := by
  induction l generalizing i with
  | nil => cases ha
  | cons x l ih =>
    cases l with
    | nil => simp at hb
    | cons y l =>
      rw [List.chain'_cons] at h
      cases i with
      | zero => simp only [List.getElem?_cons_zero, List.getElem?_cons_succ,
          Option.some.injEq] at ha hb; subst ha hb; exact h.1
      | succ i => rw [List.getElem?_cons_succ] at ha hb; exact ih h.2 ha hb

/-- The arguments of one `GenerateDelegate` call; `sigAlg` is read by nothing. -/
structure DelegateRequest (Priv Pub : Type) where
  key : Priv
  flags : UInt8
  delegateKey : Pub
  subject : Bytes
  issuer : Bytes
  permissions : List OID
  ident : Bytes

section Completeness

variable {Priv Pub Sig : Type} (S : SignatureScheme Priv Pub Sig (TBSCertificate Pub))

/-- `GenerateDelegate` on a request. -/
def DelegateRequest.generate (r : DelegateRequest Priv Pub) :
    Except GenerateError (Certificate Pub Sig) :=
  generateDelegate S r.key r.flags r.delegateKey r.subject r.issuer r.permissions r.ident

variable {flags : UInt8} {delegateKey : Pub} {subject issuer : Bytes} {permissions : List OID}
  {ident : Bytes}

/-- The walk reads a generated certificate's `ident`, spaces removed, when the certificate is
a leaf exactly at the leaf's position. -/
theorem entryIdent_of_tbs_eq {c : Certificate Pub Sig} {i : Nat}
    (hc : c.tbs = delegateTBS flags delegateKey subject issuer permissions ident)
    (hca : isCAFlags flags = decide (i ≠ 0)) : entryIdent i c = stripSpaces ident := by
  have h : entryIdent i c = strippedExtension (identOID (isCAFlags flags)) c := by
    by_cases hi : i = 0 <;>
      simp [entryIdent, hi, hca, identOID, getCertIdentifierStr, getIdentConstraints]
  rw [h, strippedExtension, extensionValue_of_tbs_eq hc (identOID_not_mem_builtin _).1, if_pos rfl]

/-- A generated CA accepts a certificate signed by the private key of its public key. -/
theorem checkSignatureFrom_of_tbs_eq {c parent : Certificate Pub Sig} {k : Priv}
    (hp : parent.tbs = delegateTBS flags delegateKey subject issuer permissions ident)
    (hca : isCAFlags flags = true) (hkind : S.kind delegateKey ≠ .unknown)
    (hsig : c.signature = S.sign k c.tbs) (hk : S.toPublic k = delegateKey) :
    checkSignatureFrom S c parent = .ok () := by
  refine (checkSignatureFrom_eq_ok_iff S).mpr
    ⟨fun _ => by simp [hp], fun _ => by simp [hp, hca], fun _ => ?_, by simpa [hp] using hkind, ?_⟩
  · rw [hp, delegateTBS_keyUsage, hca, if_pos rfl]
    decide
  · rw [hp, delegateTBS_publicKey, hsig, ← hk]
    exact S.verify_sign k _

/-- A generated certificate at a position that matches its kind passes the usage checks of
the walk; the identifier and link checks are what remains. -/
theorem entryOk_of_tbs_eq {f : OID} {i : Nat} {c : Certificate Pub Sig}
    {next : Option (Certificate Pub Sig)} {prev : Bytes}
    (hc : c.tbs = delegateTBS flags delegateKey subject issuer permissions ident)
    (hca : isCAFlags flags = decide (i ≠ 0)) (hf : f ∈ permissions)
    (hscope : stripSpaces ident ≠ [] → prev ≠ [] →
      isPermittedIdentifierRule prev (stripSpaces ident))
    (hnamed : i ≠ 0 → prev = [] → stripSpaces ident = [])
    (hlink : ∀ n, next = some n → checkSignatureFrom S c n = .ok () ∧ c.tbs.issuer = n.tbs.subject) :
    EntryOk S (some f) i c next prev := by
  have hid := entryIdent_of_tbs_eq hc hca
  refine ⟨by rw [hid]; exact hscope, by rw [hid]; exact hnamed, hlink, fun o ho => ?_, ?_,
    by rw [hc]; rfl, fun hi => ?_⟩
  · cases ho
    rw [hc]
    exact List.mem_map.mpr ⟨_, mem_delegateTBS_of_mem_permissions hf, rfl⟩
  · rw [hc, delegateTBS_keyUsage]
    split <;> decide
  · rw [hc, delegateTBS_isCA, delegateTBS_keyUsage, hca, decide_eq_true hi]
    decide

/-- A list of generated certificates passes the walk when only the first is a leaf, each
carries `f`, each is signed by the key of the next and names it as issuer, and each
non-empty identifier permits the one below it, which is then non-empty too. -/
theorem chainOk_of_generated {reqs : List (DelegateRequest Priv Pub)}
    {walked : List (Certificate Pub Sig)} {f : OID}
    (hgen : List.Forall₂ (fun r c => r.generate S = .ok c) reqs walked)
    (hflags : ∀ i r, reqs[i]? = some r → isCAFlags r.flags = decide (i ≠ 0))
    (hperm : ∀ r ∈ reqs, f ∈ r.permissions)
    (hlinks : reqs.Chain' fun r r' => S.toPublic r.key = r'.delegateKey ∧ r.issuer = r'.subject)
    (hident : reqs.Chain' fun r r' => stripSpaces r'.ident ≠ [] →
      stripSpaces r.ident ≠ [] ∧ isPermittedIdentifierRule r.ident r'.ident) :
    ChainOk S (some f) walked := by
  intro i c hc
  obtain ⟨r, hr, hg⟩ := forall₂_getElem? hgen hc
  obtain ⟨-, -, -, htbs, hsig⟩ := (generateDelegate_eq_ok_iff S).mp hg
  have hprev : ∀ j, i = j + 1 → ∃ r0, reqs[j]? = some r0 ∧ prevIdent walked i = stripSpaces r0.ident := by
    rintro j rfl
    have hj : j < walked.length := by have := (List.getElem?_eq_some_iff.mp hc).1; omega
    obtain ⟨r0, hr0, hg0⟩ := forall₂_getElem? hgen (List.getElem?_eq_getElem hj)
    obtain ⟨-, -, -, htbs0, -⟩ := (generateDelegate_eq_ok_iff S).mp hg0
    refine ⟨r0, hr0, ?_⟩
    rw [prevIdent, List.getElem?_eq_getElem hj]
    exact entryIdent_of_tbs_eq htbs0 (hflags j r0 hr0)
  refine entryOk_of_tbs_eq S htbs (hflags i r hr) (hperm r (List.getElem?_mem hr)) ?_ ?_ ?_
  · intro hne hpne
    cases i with
    | zero => exact absurd rfl hpne
    | succ j =>
      obtain ⟨r0, hr0, hp⟩ := hprev j rfl
      rw [hp, isPermittedIdentifierRule_stripSpaces_left, isPermittedIdentifierRule_stripSpaces_right]
      exact (chain'_getElem? hident hr0 hr hne).2
  · intro hi hpe
    cases i with
    | zero => exact absurd rfl hi
    | succ j =>
      obtain ⟨r0, hr0, hp⟩ := hprev j rfl
      by_contra hne
      exact (chain'_getElem? hident hr0 hr hne).1 (hp ▸ hpe)
  · intro n hn
    obtain ⟨r', hr', hg'⟩ := forall₂_getElem? hgen hn
    obtain ⟨-, hkd', -, htbs', -⟩ := (generateDelegate_eq_ok_iff S).mp hg'
    obtain ⟨hk, hiss⟩ := chain'_getElem? hlinks hr hr'
    refine ⟨checkSignatureFrom_of_tbs_eq S htbs' (by rw [hflags _ r' hr']; simp) hkd' hsig hk, ?_⟩
    rw [htbs, htbs', delegateTBS_issuer, delegateTBS_subject, hiss]

/-- The root request `processDelegateChain` makes for the owner key: a CA for `key`, named
after the last certificate's issuer, with its constraints and the function. -/
def ownerRootRequest (key : Pub) (f : OID) (last : Certificate Pub Sig) : DelegateRequest Priv Pub where
  key := S.generateKey (S.kind key)
  flags := delegateFlagRoot
  delegateKey := key
  subject := last.tbs.issuer
  issuer := last.tbs.issuer
  permissions := [f]
  ident := getIdentConstraints last

/-- The constraints a generated certificate carries: its `ident`, spaces removed, when it is
a CA, and none when it is a leaf. -/
theorem getIdentConstraints_of_tbs_eq {c : Certificate Pub Sig}
    (hc : c.tbs = delegateTBS flags delegateKey subject issuer permissions ident) :
    getIdentConstraints c = if isCAFlags flags then stripSpaces ident else [] := by
  rw [getIdentConstraints, strippedExtension, extensionValue_of_tbs_eq hc (by decide)]
  cases isCAFlags flags <;> rfl

/-- A chain stays a chain when its last element is linked to an appended one. -/
theorem chain'_append_singleton {α : Type} {R : α → α → Prop} {l : List α} {x y : α}
    (h : l.Chain' R) (hx : l.getLast? = some x) (hxy : R x y) : (l ++ [y]).Chain' R :=
  h.append (List.chain'_singleton y) fun a ha b hb => by
    rw [hx, Option.mem_some_iff] at ha
    rw [List.head?_cons, Option.mem_some_iff] at hb
    subst ha hb
    exact hxy

/-- With the leaf first and CAs after it, a request is a CA exactly off the leaf's position. -/
theorem isCAFlags_of_positions {reqs : List (DelegateRequest Priv Pub)}
    (hleaf : ∀ r, reqs.head? = some r → r.flags = delegateFlagLeaf)
    (hcas : ∀ r ∈ reqs.tail, r.flags = delegateFlagIntermediate ∨ r.flags = delegateFlagRoot) :
    ∀ i r, reqs[i]? = some r → isCAFlags r.flags = decide (i ≠ 0) := by
  intro i r hr
  cases i with
  | zero => rw [hleaf r (by rwa [List.head?_eq_getElem?])]; rfl
  | succ i =>
    rcases hcas r (List.getElem?_mem (by rwa [List.getElem?_tail])) with h | h <;> rw [h] <;> rfl

/-- A root appended to a non-empty list of requests sits off the leaf's position. -/
theorem isCAFlags_append_root {reqs : List (DelegateRequest Priv Pub)}
    {root : DelegateRequest Priv Pub} (hne : reqs ≠ []) (hroot : root.flags = delegateFlagRoot)
    (h : ∀ i r, reqs[i]? = some r → isCAFlags r.flags = decide (i ≠ 0)) :
    ∀ i r, (reqs ++ [root])[i]? = some r → isCAFlags r.flags = decide (i ≠ 0) := by
  intro i r hr
  rcases Nat.lt_or_ge i reqs.length with hi | hi
  · rw [List.getElem?_append_left hi] at hr
    exact h i r hr
  · rw [List.getElem?_append_right hi] at hr
    have h0 : i - reqs.length = 0 := by
      by_contra h
      rw [List.getElem?_eq_none (by simp; omega)] at hr
      cases hr
    rw [h0, List.getElem?_cons_zero, Option.some.injEq] at hr
    subst hr
    have : i ≠ 0 := fun h => hne (List.length_eq_zero.mp (by omega))
    rw [decide_eq_true this, hroot]
    decide

/-- The validator accepts every chain built by `GenerateDelegate` whose adjacent
certificates are signed and named in turn, rooted by the owner key, with the leaf alone a
leaf, the function in every certificate, every non-empty constraint (spaces removed)
permitting a non-empty identifier below it, and, in a chain of two or more, non-empty
constraints at the top that permit themselves, as the owner root copies them; the named
owner must be absent or permitted by those constraints when they are not empty. -/
theorem processDelegateChain_generated {reqs : List (DelegateRequest Priv Pub)}
    {chain : List (Certificate Pub Sig)} {key : Pub} {f : OID} {namedOwner : Option Bytes}
    (hgen : List.Forall₂ (fun r c => r.generate S = .ok c) reqs chain) (hne : reqs ≠ [])
    (hkind : S.kind key = .ecdsa ∨ S.kind key = .rsa)
    (hsigned : ∀ r, reqs.getLast? = some r → S.toPublic r.key = key)
    (hlinks : reqs.Chain' fun r r' => S.toPublic r.key = r'.delegateKey ∧ r.issuer = r'.subject)
    (hleaf : ∀ r, reqs.head? = some r → r.flags = delegateFlagLeaf)
    (hcas : ∀ r ∈ reqs.tail, r.flags = delegateFlagIntermediate ∨ r.flags = delegateFlagRoot)
    (hperm : ∀ r ∈ reqs, f ∈ r.permissions)
    (hident : reqs.Chain' fun r r' => stripSpaces r'.ident ≠ [] →
      stripSpaces r.ident ≠ [] ∧ isPermittedIdentifierRule r.ident r'.ident)
    (hself : ∀ r, 2 ≤ reqs.length → reqs.getLast? = some r → stripSpaces r.ident ≠ [] →
      isPermittedIdentifierRule r.ident r.ident)
    (hnamed : ∀ n r, namedOwner = some n → reqs.getLast? = some r →
      r.ident = [] ∨ isPermittedIdentifierRule r.ident n) :
    processDelegateChain S chain (some key) (some f) namedOwner = .ok () := by
  have hknown : S.kind key ≠ .unknown := by rcases hkind with h | h <;> simp [h]
  -- the last request and the certificate it produced
  obtain ⟨rl, hrl⟩ : ∃ r, reqs.getLast? = some r :=
    Option.isSome_iff_exists.mp (List.getLast?_isSome.mpr hne)
  have hrli : reqs[reqs.length - 1]? = some rl := by rw [← List.getLast?_eq_getElem?, hrl]
  obtain ⟨last, hlasti, hgl⟩ := forall₂_getElem?_left hgen hrli
  have hlen := hgen.length_eq
  have hlast : chain.getLast? = some last := by rw [List.getLast?_eq_getElem?, ← hlen, hlasti]
  obtain ⟨-, -, -, htl, -⟩ := (generateDelegate_eq_ok_iff S).mp hgl
  -- the ephemeral owner root
  obtain ⟨hvf, hpf, hmem⟩ := generateDelegate_permission S hgl (hperm rl (List.mem_of_getLast?_eq_some hrl))
  obtain ⟨root, hgr, hroot⟩ := @generateDelegate_eq_ok_of _ _ _ S (S.generateKey (S.kind key))
    delegateFlagRoot key last.tbs.issuer last.tbs.issuer [f] (getIdentConstraints last)
    (by rw [S.kind_generateKey]; exact hknown) hknown (by simpa using ⟨hvf, hpf⟩)
    (List.nodup_singleton f) fun hi hf => hi (by
      rw [List.mem_singleton] at hf
      rw [getIdentConstraints, strippedExtension, extensionValue_of_mem (hf ▸ hmem)]; rfl)
  have hw : withOwnerRoot S chain (some key) (some f) = .ok (chain ++ [root]) :=
    (withOwnerRoot_eq_ok_iff S).mpr ⟨last, hlast, .inr ⟨key, root, rfl, hkind, hgr, rfl⟩⟩
  -- the chain as walked, with the root's request appended
  have hident_root : getIdentConstraints last = if isCAFlags rl.flags then stripSpaces rl.ident else [] :=
    getIdentConstraints_of_tbs_eq htl
  have hgen' : List.Forall₂ (fun r c => r.generate S = .ok c)
      (reqs ++ [ownerRootRequest S key f last]) (chain ++ [root]) :=
    List.rel_append hgen (.cons hgr .nil)
  have hperm' : ∀ r ∈ reqs ++ [ownerRootRequest S key f last], f ∈ r.permissions :=
    List.forall_mem_append.mpr ⟨hperm, List.forall_mem_singleton.mpr (List.mem_singleton_self f)⟩
  have hlinks' := chain'_append_singleton hlinks hrl (y := ownerRootRequest S key f last)
    ⟨hsigned _ hrl, by rw [ownerRootRequest, htl, delegateTBS_issuer]⟩
  have hpos := isCAFlags_of_positions hleaf hcas
  have hident' := chain'_append_singleton hident hrl (y := ownerRootRequest S key f last) (by
    simp only [ownerRootRequest, hident_root]
    split_ifs with hca
    · rw [stripSpaces_idem, isPermittedIdentifierRule_stripSpaces_right]
      -- the last request is a CA, so it is not the leaf
      have h2 : 2 ≤ reqs.length := by
        have := of_decide_eq_true ((hpos _ rl hrli).symm.trans hca)
        omega
      exact fun h => ⟨h, hself rl h2 hrl h⟩
    · exact fun h => absurd rfl h)
  refine (processDelegateChain_eq_ok_iff S).mpr
    ⟨_, hw, chainOk_of_generated S hgen' (isCAFlags_append_root hne rfl hpos) hperm' hlinks'
      hident', fun n hn hne' => ?_⟩
  -- the named owner against the root's constraints
  have hri : chainRootIdent (chain ++ [root]) = getIdentConstraints last := by
    have h1 : (chain ++ [root]).getLast? = some root := by simp
    rw [chainRootIdent, h1, Option.map_some', Option.getD_some, rootIdentOf_eq,
      extensionValue_of_tbs_eq hroot (by decide)]
    exact if_pos rfl
  rw [hri, hident_root] at hne' ⊢
  split_ifs at hne' ⊢
  · rw [isPermittedIdentifierRule_stripSpaces_left]
    rcases hnamed n rl hn hrl with h | h
    · exact absurd (by rw [h]; rfl) hne'
    · exact h
  · exact absurd rfl hne'

end Completeness

/-! ### Runs on fixed chains -/

/-- The chain of the delegate-chain test with root constraints `DNS:*.sub.dom1`, leaf first:
a leaf, an intermediate and a self-signed root, the root's key `(ecdsa, 9)`. -/
def identRequests : List (DelegateRequest (KeyKind × Nat) (KeyKind × Nat)) :=
  [⟨(.ecdsa, 3), delegateFlagLeaf, (.ecdsa, 2), ascii "Test Leaf", ascii "Test Intermediate CA",
      [oidDelegateOnboard], ascii "DNS:srv.sub.sub.dom1"⟩,
    ⟨(.ecdsa, 9), delegateFlagIntermediate, (.ecdsa, 3), ascii "Test Intermediate CA",
      ascii "Test Root CA", [oidDelegateOnboard], ascii "DNS:*.sub.sub.dom1"⟩,
    ⟨(.ecdsa, 9), delegateFlagRoot, (.ecdsa, 9), ascii "Test Root CA", ascii "Test Root CA",
      [oidDelegateOnboard], ascii "DNS:*.sub.dom1"⟩]

theorem processDelegateChain_generated_identRequests :
    ∃ chain, List.Forall₂ (fun r c => r.generate tagScheme = .ok c) identRequests chain ∧
      processDelegateChain tagScheme chain (some (.ecdsa, 9)) (some oidDelegateOnboard)
        (some (ascii "DNS:*.dom1")) = .ok () :=
  have hgen : List.Forall₂ (fun r c => r.generate tagScheme = .ok c) identRequests _ :=
    .cons rfl (.cons rfl (.cons rfl .nil))
  ⟨_, hgen, processDelegateChain_generated tagScheme hgen (List.cons_ne_nil _ _) (.inl rfl)
    (by rintro r ⟨⟩; rfl) (by simp only [identRequests, List.chain'_cons, List.chain'_singleton]; decide)
    (by rintro r ⟨⟩; rfl) (by decide) (by decide)
    (by simp only [identRequests, List.chain'_cons, List.chain'_singleton]; decide)
    (by rintro r - ⟨⟩ -; decide) (by rintro n r ⟨⟩ ⟨⟩; exact .inr (by decide))⟩

/-- A leaf whose identifier is one space, under a CA constrained to `*`, both signed in turn
up to the owner key `(ecdsa, 9)`. -/
def blankIdentRequests : List (DelegateRequest (KeyKind × Nat) (KeyKind × Nat)) :=
  [⟨(.ecdsa, 2), delegateFlagLeaf, (.ecdsa, 1), ascii "leaf", ascii "ca", [oidDelegateOnboard],
      ascii " "⟩,
    ⟨(.ecdsa, 9), delegateFlagIntermediate, (.ecdsa, 2), ascii "ca", ascii "owner",
      [oidDelegateOnboard], ascii "*"⟩]

/-- A leaf with the identifier `a`, under a CA constrained to `a,` and the byte `0xff`,
both signed in turn up to the owner key `(ecdsa, 9)`. -/
def unmatchedRootRequests : List (DelegateRequest (KeyKind × Nat) (KeyKind × Nat)) :=
  [⟨(.ecdsa, 2), delegateFlagLeaf, (.ecdsa, 1), ascii "leaf", ascii "ca", [oidDelegateOnboard],
      ascii "a"⟩,
    ⟨(.ecdsa, 9), delegateFlagIntermediate, (.ecdsa, 2), ascii "ca", ascii "owner",
      [oidDelegateOnboard], ascii "a," ++ [0xff]⟩]

/-- Two generated chains that meet the adjacency condition as written and that the validator
rejects. The identifier `" "` is not empty and `*` permits it, yet the walk reads it with its
space removed, as no identifier, and rejects the CA's constraints above it. And `a,` with
`0xff` permits `a` by its first term, yet the owner root copies it and the walk compares it
with itself, which fails: it is not `a`, and its second term is not valid UTF-8. -/
theorem processDelegateChain_rejects_generated :
    (blankIdentRequests.Chain' (fun r r' => tagScheme.toPublic r.key = r'.delegateKey ∧
      r.issuer = r'.subject ∧
      (r'.ident ≠ [] → r.ident ≠ [] ∧ isPermittedIdentifierRule r.ident r'.ident)) ∧
    ∃ chain, List.Forall₂ (fun r c => r.generate tagScheme = .ok c) blankIdentRequests chain ∧
      processDelegateChain tagScheme chain (some (.ecdsa, 9)) (some oidDelegateOnboard) none =
        .error (.noNamedIdentifier 1 (ascii "ca") (ascii "*"))) ∧
    (unmatchedRootRequests.Chain' (fun r r' => tagScheme.toPublic r.key = r'.delegateKey ∧
      r.issuer = r'.subject ∧
      (r'.ident ≠ [] → r.ident ≠ [] ∧ isPermittedIdentifierRule r.ident r'.ident)) ∧
    ∃ chain, List.Forall₂ (fun r c => r.generate tagScheme = .ok c) unmatchedRootRequests chain ∧
      processDelegateChain tagScheme chain (some (.ecdsa, 9)) (some oidDelegateOnboard) none =
        .error (.notPermitted 2 (ascii "a," ++ [0xff]) (ascii "a," ++ [0xff]))) :=
  ⟨⟨by simp only [blankIdentRequests, List.chain'_cons, List.chain'_singleton]; decide,
      _, .cons rfl (.cons rfl .nil), rfl⟩,
    ⟨by simp only [unmatchedRootRequests, List.chain'_cons, List.chain'_singleton]; decide,
      _, .cons rfl (.cons rfl .nil), rfl⟩⟩

end Delegate
end GoFdo
