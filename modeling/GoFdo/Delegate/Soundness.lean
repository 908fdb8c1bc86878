import GoFdo.Delegate.Chain

/-!
# What a verified delegate chain guarantees

From `processDelegateChain_eq_ok_iff`: every certificate of the chain as walked carries the
function, the DigitalSignature usage and valid basic constraints, every one above the leaf
is a CA that may sign certificates, each is signed by the next, and with an owner key the
input chain's last certificate verifies under that key.

The walk compares adjacent identifiers only; `ChainOk.identifier_scope` composes those
comparisons by transitivity of the matcher, so the leaf's identifier is permitted by the
constraints of every CA above it. The named-owner check reads the last certificate as
walked, which for a chain of one certificate is the leaf itself, whose constraints the walk
never compares with its identifier.
-/

namespace GoFdo
namespace Delegate

open Bytes X509 Identifier

section Soundness

variable {Priv Pub Sig : Type} (S : SignatureScheme Priv Pub Sig (TBSCertificate Pub))

/-- The chain as walked is the input chain, followed by the ephemeral root for the owner
key when one is given. -/
theorem withOwnerRoot_eq_ok_iff {chain : List (Certificate Pub Sig)} {ownerKey : Option Pub}
    {oid : Option OID} {walked : List (Certificate Pub Sig)} :
    withOwnerRoot S chain ownerKey oid = .ok walked ↔
      ∃ last, chain.getLast? = some last ∧
        (ownerKey = none ∧ chain = walked ∨
          ∃ key root, ownerKey = some key ∧ (S.kind key = .ecdsa ∨ S.kind key = .rsa) ∧
            generateDelegate S (S.generateKey (S.kind key)) delegateFlagRoot key
              last.tbs.issuer last.tbs.issuer oid.toList (getIdentConstraints last) = .ok root ∧
            chain ++ [root] = walked) := by
  unfold withOwnerRoot
  rcases chain.getLast? with _ | last
  · simp
  · rcases ownerKey with _ | key
    · simp
    · simp only [Option.some.injEq, exists_eq_left', reduceCtorEq, false_and, false_or,
        exists_and_left, true_and]
      rcases S.kind key with _ | _ | _ | _ <;> simp only [reduceCtorEq, or_self, or_false,
        false_or, true_and, false_and, exists_false, iff_false, not_false_eq_true] <;>
      split <;> rename_i h <;> simp [h]

/-- The walk starts at the leaf: the chain as walked extends the input chain. -/
theorem withOwnerRoot_prefix {chain walked : List (Certificate Pub Sig)} {ownerKey : Option Pub}
    {oid : Option OID} (hw : withOwnerRoot S chain ownerKey oid = .ok walked) :
    chain <+: walked := by
  obtain ⟨_, _, ⟨-, rfl⟩ | ⟨_, _, -, -, -, rfl⟩⟩ := (withOwnerRoot_eq_ok_iff S).mp hw
  · exact List.prefix_refl _
  · exact List.prefix_append _ _

/-- Along a chain that passes the walk, a non-empty identifier at entry `j` forces a
non-empty leaf identifier that it permits: the comparisons of adjacent entries compose. -/
theorem ChainOk.identifier_scope {oid : Option OID} {walked : List (Certificate Pub Sig)}
    (hc : ChainOk S oid walked) {leaf : Certificate Pub Sig} (hleaf : walked[0]? = some leaf) :
    ∀ j c, walked[j]? = some c → entryIdent j c ≠ [] →
      entryIdent 0 leaf ≠ [] ∧ (j ≠ 0 → isPermittedIdentifierRule (entryIdent 0 leaf) (entryIdent j c)) := by
  intro j
  induction j with
  | zero =>
    intro c hc0 hne
    rw [hleaf] at hc0; cases hc0
    exact ⟨hne, fun h => absurd rfl h⟩
  | succ j ih =>
    intro c hcj hne
    obtain ⟨d, hd⟩ : ∃ d, walked[j]? = some d := by
      have : j + 1 < walked.length := (List.getElem?_eq_some_iff.mp hcj).1
      exact ⟨walked[j], List.getElem?_eq_getElem (by omega)⟩
    have hprev : prevIdent walked (j + 1) = entryIdent j d := by simp [prevIdent, hd]
    have e := hc (j + 1) c hcj
    rw [hprev] at e
    have hpne : entryIdent j d ≠ [] := fun h => hne (e.named (Nat.succ_ne_zero j) h)
    have hrule := e.scopes hne hpne
    obtain ⟨hid, hrec⟩ := ih d hd hpne
    refine ⟨hid, fun _ => ?_⟩
    rcases Nat.eq_zero_or_pos j with rfl | hj
    · rw [hleaf] at hd; cases hd
      exact hrule
    · exact isPermittedIdentifierRule_trans (hrec (by omega)) hrule

/-- Structural soundness of a verified chain: what every certificate as walked carries,
that each is signed by the next, and that with an owner key the last certificate of the
input chain verifies under that key. -/
theorem processDelegateChain_sound {chain : List (Certificate Pub Sig)} {ownerKey : Option Pub}
    {oid : Option OID} {namedOwner : Option Bytes} {walked : List (Certificate Pub Sig)}
    (h : processDelegateChain S chain ownerKey oid namedOwner = .ok ())
    (hw : withOwnerRoot S chain ownerKey oid = .ok walked) :
    (∀ i c, walked[i]? = some c →
      (∀ f, oid = some f → f ∈ c.tbs.extensions.map Extension.id) ∧
      c.tbs.keyUsage &&& keyUsageDigitalSignature ≠ 0 ∧ c.tbs.basicConstraintsValid = true ∧
      (1 ≤ i → c.tbs.isCA = true ∧ c.tbs.keyUsage &&& keyUsageCertSign ≠ 0) ∧
      ∀ n, walked[i + 1]? = some n →
        checkSignatureFrom S c n = .ok () ∧ c.tbs.issuer = n.tbs.subject) ∧
    (ownerKey = none → walked = chain) ∧
    ∀ key, ownerKey = some key → ∃ root last, walked = chain ++ [root] ∧
      root.tbs.publicKey = key ∧ chain.getLast? = some last ∧
      S.verify key last.tbs last.signature = true := by
  obtain ⟨w, hw', hc, -⟩ := (processDelegateChain_eq_ok_iff S).mp h
  obtain rfl : walked = w := by rw [hw] at hw'; exact Except.ok.inj hw'
  refine ⟨fun i c hci => ?_, fun hnone => ?_, fun key hkey => ?_⟩
  · have e := hc i c hci
    exact ⟨e.permitted, e.digitalSignature, e.basicConstraints,
      fun hi => e.authority (by omega), e.linked⟩
  · obtain ⟨_, _, ⟨-, rfl⟩ | ⟨_, _, hk, -⟩⟩ := (withOwnerRoot_eq_ok_iff S).mp hw
    · rfl
    · simp [hnone] at hk
  · obtain ⟨last, hlast, ⟨hk, -⟩ | ⟨key', root, hk, -, hgen, rfl⟩⟩ :=
      (withOwnerRoot_eq_ok_iff S).mp hw
    · simp [hkey] at hk
    obtain rfl : key' = key := Option.some.inj (hk.symm.trans hkey)
    have hroot := ((generateDelegate_eq_ok_iff S).mp hgen).2.2.2.1
    have hlen : 0 < chain.length := List.length_pos.mpr fun h => by simp [h] at hlast
    have hi : (chain ++ [root])[chain.length - 1]? = some last := by
      rw [List.getElem?_append_left (by omega), ← List.getLast?_eq_getElem?, hlast]
    have hn : (chain ++ [root])[chain.length - 1 + 1]? = some root := by
      rw [Nat.sub_add_cancel hlen]; simp
    have hv := ((checkSignatureFrom_eq_ok_iff S).mp ((hc _ _ hi).linked root hn).1).2.2.2.2
    rw [hroot, delegateTBS_publicKey] at hv
    exact ⟨root, last, rfl, by rw [hroot, delegateTBS_publicKey], hlast, hv⟩

end Soundness

/-- A leaf without identifier, issued by `owner` and signed by the owner key `(ecdsa, 7)`. -/
def ownedLeaf : Certificate (KeyKind × Nat) Nat where
  tbs :=
    { version := 3, subject := ascii "leaf", issuer := ascii "owner", keyUsage := 1,
      isCA := false, basicConstraintsValid := true, extensions := [], publicKey := (.ecdsa, 1) }
  signature := 7
  extensions_nodup := List.nodup_nil

theorem processDelegateChain_sound_ownedLeaf :
    ∃ walked, processDelegateChain tagScheme [ownedLeaf] (some (.ecdsa, 7)) none none = .ok () ∧
      withOwnerRoot tagScheme [ownedLeaf] (some (.ecdsa, 7)) none = .ok walked ∧
      walked.length = 2 ∧ tagScheme.verify (.ecdsa, 7) ownedLeaf.tbs ownedLeaf.signature = true :=
  by
  have hw : withOwnerRoot tagScheme [ownedLeaf] (some (.ecdsa, 7)) none = .ok _ := rfl
  have h : processDelegateChain tagScheme [ownedLeaf] (some (.ecdsa, 7)) none none = .ok () := rfl
  obtain ⟨_, _, hwalked, -, hlast, hv⟩ := (processDelegateChain_sound tagScheme h hw).2.2 _ rfl
  rw [List.getLast?_singleton, Option.some.injEq] at hlast
  subst hlast
  exact ⟨_, h, hw, by rw [hwalked]; rfl, hv⟩

section Scope

variable {Priv Pub Sig : Type} (S : SignatureScheme Priv Pub Sig (TBSCertificate Pub))

/-- Identifier scoping of a verified chain: the leaf's identifier is permitted by every
non-empty constraint above it, and, when the last certificate as walked has non-empty
constraints, the named owner is permitted by those constraints, and also by the leaf's
identifier once that certificate is not the leaf itself. -/
theorem processDelegateChain_identifier_scope {leaf : Certificate Pub Sig}
    {rest : List (Certificate Pub Sig)} {ownerKey : Option Pub} {oid : Option OID}
    {namedOwner : Option Bytes} {walked : List (Certificate Pub Sig)}
    (h : processDelegateChain S (leaf :: rest) ownerKey oid namedOwner = .ok ())
    (hw : withOwnerRoot S (leaf :: rest) ownerKey oid = .ok walked) :
    (∀ j c, 1 ≤ j → walked[j]? = some c → getIdentConstraints c ≠ [] →
      getCertIdentifierStr leaf ≠ [] ∧
        isPermittedIdentifierRule (getCertIdentifierStr leaf) (getIdentConstraints c)) ∧
    ∀ n c, namedOwner = some n → walked.getLast? = some c → getIdentConstraints c ≠ [] →
      isPermittedIdentifierRule (getIdentConstraints c) n ∧
        (2 ≤ walked.length → isPermittedIdentifierRule (getCertIdentifierStr leaf) n) := by
  obtain ⟨w, hw', hc, hnamed⟩ := (processDelegateChain_eq_ok_iff S).mp h
  obtain rfl : walked = w := by rw [hw] at hw'; exact Except.ok.inj hw'
  have hleaf : walked[0]? = some leaf := by
    obtain ⟨t, rfl⟩ := withOwnerRoot_prefix S hw
    simp
  have hscope : ∀ j c, 1 ≤ j → walked[j]? = some c → getIdentConstraints c ≠ [] →
      getCertIdentifierStr leaf ≠ [] ∧
        isPermittedIdentifierRule (getCertIdentifierStr leaf) (getIdentConstraints c) := by
    intro j c hj hcj hne
    have hj0 : j ≠ 0 := by omega
    have := ChainOk.identifier_scope S hc hleaf j c hcj (by rwa [entryIdent, if_neg hj0])
    simp only [entryIdent, if_neg hj0, if_pos rfl] at this
    exact ⟨this.1, this.2 hj0⟩
  refine ⟨hscope, fun n c hn hlast hne => ?_⟩
  have hroot : chainRootIdent walked = rootIdentOf c := by simp [chainRootIdent, hlast]
  have hraw : rootIdentOf c ≠ [] := fun h => hne (by rw [getIdentConstraints_eq, h]; rfl)
  have hR : isPermittedIdentifierRule (getIdentConstraints c) n := by
    rw [getIdentConstraints_eq, isPermittedIdentifierRule_stripSpaces_left]
    exact hroot ▸ hnamed n hn (hroot ▸ hraw)
  refine ⟨hR, fun hlen => ?_⟩
  have hidx : walked[walked.length - 1]? = some c := by rw [← List.getLast?_eq_getElem?, hlast]
  exact isPermittedIdentifierRule_trans (hscope _ c (by omega) hidx hne).2 hR

end Scope

/-! ### Runs on fixed chains -/

/-- A leaf that carries an identifier `x` and also constraints `a`. -/
def scopedLeaf : Certificate (KeyKind × Nat) Nat where
  tbs :=
    { version := 3, subject := ascii "leaf", issuer := ascii "ca",
      keyUsage := 1, isCA := false, basicConstraintsValid := true,
      extensions := [⟨oidIdentifier, ascii "x"⟩,
        ⟨oidIdentifierConstraints, ascii "a"⟩],
      publicKey := (.ecdsa, 1) }
  signature := 7
  extensions_nodup := by decide

/-- A leaf with the identifier `srv.dom`, issued by `ca`, whose key `(ecdsa, 2)` signed it. -/
def identLeaf : Certificate (KeyKind × Nat) Nat where
  tbs :=
    { version := 3, subject := ascii "leaf", issuer := ascii "ca",
      keyUsage := 1, isCA := false, basicConstraintsValid := true,
      extensions := [⟨oidIdentifier, ascii "srv.dom"⟩], publicKey := (.ecdsa, 1) }
  signature := 2
  extensions_nodup := by decide

/-- The CA `ca`, constrained to `*.dom`, with the key `(ecdsa, 2)`. -/
def scopedCA : Certificate (KeyKind × Nat) Nat where
  tbs :=
    { version := 3, subject := ascii "ca", issuer := ascii "owner",
      keyUsage := 33, isCA := true, basicConstraintsValid := true,
      extensions := [⟨oidIdentifierConstraints, ascii "*.dom"⟩], publicKey := (.ecdsa, 2) }
  signature := 9
  extensions_nodup := by decide

theorem processDelegateChain_identifier_scope_scopedCA :
    processDelegateChain tagScheme [identLeaf, scopedCA] none none (some (ascii "*.dom")) =
        .ok () ∧
      withOwnerRoot tagScheme [identLeaf, scopedCA] none none = .ok [identLeaf, scopedCA] ∧
      ((∀ j c, 1 ≤ j → [identLeaf, scopedCA][j]? = some c → getIdentConstraints c ≠ [] →
        getCertIdentifierStr identLeaf ≠ [] ∧
          isPermittedIdentifierRule (getCertIdentifierStr identLeaf) (getIdentConstraints c)) ∧
      ∀ n c, some (ascii "*.dom") = some n → [identLeaf, scopedCA].getLast? = some c →
        getIdentConstraints c ≠ [] →
        isPermittedIdentifierRule (getIdentConstraints c) n ∧
          (2 ≤ [identLeaf, scopedCA].length →
            isPermittedIdentifierRule (getCertIdentifierStr identLeaf) n)) :=
  ⟨rfl, rfl, @processDelegateChain_identifier_scope _ _ _ tagScheme identLeaf [scopedCA] none none
    (some (ascii "*.dom")) [identLeaf, scopedCA] rfl rfl⟩

/-- A one-certificate chain whose leaf also carries constraints `a` verifies for the named
owner `a`, though its identifier `x` is not permitted by `a`: the named-owner check reads the
leaf's constraints, which the walk never compares with its identifier. -/
theorem processDelegateChain_leaf_constraints :
    processDelegateChain tagScheme [scopedLeaf] none none (some (ascii "a")) = .ok () ∧
      getIdentConstraints scopedLeaf = ascii "a" ∧
      isPermittedIdentifierRule (getCertIdentifierStr scopedLeaf) (ascii "a") = false :=
  ⟨rfl, rfl, by decide⟩

end Delegate
end GoFdo
