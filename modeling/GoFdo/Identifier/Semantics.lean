import GoFdo.Identifier.Matchers

/-!
# What the identifier matchers decide

Each pass of the loop over parent terms either stops with a compile error (an invalid
term), stops with a match, or goes on; `matchAny_cons_of_valid` and
`matchAny_cons_of_invalid` say so once, and everything below is derived from them.

On a parent list that is valid UTF-8, `IsPermittedIdentifierRule` is the wildcard reading
term by term. The relation is transitive for all strings, since a term that matches a
pattern read literally is matched by everything that matches the pattern; it is reflexive
on valid strings, and it is not on invalid ones, whose patterns do not compile. A newline
in a child term is never covered by a star, and `IsPermittedIdentifier` agrees with the
rule only on names without a comma.
-/

namespace GoFdo
namespace Identifier

open Bytes Utf8 Regexp

theorem matchAny_nil (c : Bytes) : matchAny c [] = some false := rfl

theorem matchAny_cons_of_valid {p : Bytes} (hp : checkUTF8 p) (c : Bytes) (ps : List Bytes) :
    matchAny c (p :: ps) =
      if WildcardMatch (decodeRunes p) (decodeRunes c) then some true else matchAny c ps := by
  rw [matchAny, matchString_identifierPattern, if_pos hp]
  by_cases h : WildcardMatch (decodeRunes p) (decodeRunes c)
  · rw [if_pos h, (matchRunes_glob _ _).mpr h]
  · rw [if_neg h, Bool.eq_false_iff.mpr (mt (matchRunes_glob _ _).mp h)]

theorem matchAny_cons_of_invalid {p : Bytes} (hp : checkUTF8 p = false) (c : Bytes)
    (ps : List Bytes) : matchAny c (p :: ps) = none := by
  rw [matchAny, matchString_identifierPattern, if_neg (by simp [hp])]

/-- A match is found only at a valid term that matches. -/
theorem exists_of_matchAny {c : Bytes} {ps : List Bytes} (h : matchAny c ps = some true) :
    ∃ p ∈ ps, checkUTF8 p ∧ WildcardMatch (decodeRunes p) (decodeRunes c) := by
  induction ps with
  | nil => cases h
  | cons p ps ih =>
    cases hp : checkUTF8 p with
    | false => rw [matchAny_cons_of_invalid hp] at h; cases h
    | true =>
      rw [matchAny_cons_of_valid hp] at h
      split_ifs at h with hw
      · exact ⟨p, List.mem_cons_self p ps, hp, hw⟩
      · obtain ⟨q, hq, hqv, hqw⟩ := ih h
        exact ⟨q, List.mem_cons_of_mem p hq, hqv, hqw⟩

/-- On a list of valid terms, a matching term is always found. -/
theorem matchAny_of_mem {c p : Bytes} {ps : List Bytes} (hps : ∀ q ∈ ps, checkUTF8 q)
    (hp : p ∈ ps) (hw : WildcardMatch (decodeRunes p) (decodeRunes c)) :
    matchAny c ps = some true := by
  induction ps with
  | nil => cases hp
  | cons q ps ih =>
    rw [matchAny_cons_of_valid (hps q (List.mem_cons_self q ps))]
    split_ifs with hq
    · rfl
    · rcases List.mem_cons.mp hp with rfl | hp
      · exact absurd hw hq
      · exact ih (fun r hr => hps r (List.mem_cons_of_mem q hr)) hp

/-- Whatever is found for `p` is found for every `c` that `p` matches read literally: the
terms before the one found compile, and the one found matches `c` too. -/
theorem matchAny_of_wildcardMatch {p c : Bytes} {qs : List Bytes}
    (hp : matchAny p qs = some true) (hw : WildcardMatch (decodeRunes p) (decodeRunes c)) :
    matchAny c qs = some true := by
  induction qs with
  | nil => cases hp
  | cons q qs ih =>
    cases hq : checkUTF8 q with
    | false => rw [matchAny_cons_of_invalid hq] at hp; cases hp
    | true =>
      rw [matchAny_cons_of_valid hq] at hp ⊢
      by_cases hqc : WildcardMatch (decodeRunes q) (decodeRunes c)
      · rw [if_pos hqc]
      · rw [if_neg hqc]
        by_cases hqp : WildcardMatch (decodeRunes q) (decodeRunes p)
        · exact absurd (hqp.trans hw) hqc
        · rw [if_neg hqp] at hp
          exact ih hp

theorem isPermittedIdentifierRule_eq_true_iff (child parent : Bytes) :
    isPermittedIdentifierRule child parent = true ↔
      ∀ c ∈ splitTerms child, matchAny c (splitTerms parent) = some true := by
  simp [isPermittedIdentifierRule]

theorem checkUTF8_of_mem_splitTerms {s t : Bytes} (hs : checkUTF8 s) (ht : t ∈ splitTerms s) :
    checkUTF8 t :=
  checkUTF8_of_mem_splitOn (by decide)
    (stripSpaces_eq_filter s ▸ checkUTF8_filter (by decide) s hs) ht

/-- On a valid parent list, `IsPermittedIdentifierRule` is the wildcard reading: every
child term is matched by some parent term, on runes, with stars that cover no newline. -/
theorem isPermittedIdentifierRule_iff_wildcardMatch (child parent : Bytes)
    (hparent : checkUTF8 parent) :
    isPermittedIdentifierRule child parent = true ↔
      ∀ c ∈ splitTerms child, ∃ p ∈ splitTerms parent,
        WildcardMatch (decodeRunes p) (decodeRunes c) := by
  rw [isPermittedIdentifierRule_eq_true_iff]
  refine forall₂_congr fun c _ => ⟨fun h => ?_, fun ⟨p, hp, hw⟩ => ?_⟩
  · obtain ⟨p, hp, -, hw⟩ := exists_of_matchAny h
    exact ⟨p, hp, hw⟩
  · exact matchAny_of_mem (fun q hq => checkUTF8_of_mem_splitTerms hparent hq) hp hw

theorem isPermittedIdentifierRule_iff_wildcardMatch_star :
    checkUTF8 (ascii "DNS:*.dom") = true ∧
      (isPermittedIdentifierRule (ascii "DNS:a.dom") (ascii "DNS:*.dom") = true ↔
        ∀ c ∈ splitTerms (ascii "DNS:a.dom"), ∃ p ∈ splitTerms (ascii "DNS:*.dom"),
          WildcardMatch (decodeRunes p) (decodeRunes c)) :=
  ⟨by decide, isPermittedIdentifierRule_iff_wildcardMatch _ _ (by decide)⟩

/-- The term `*` read as the spec's wildcard covers the one-byte term `"\n"`, but the `.*`
it becomes does not match a newline. -/
theorem isPermittedIdentifierRule_newline_star : isPermittedIdentifierRule [10] [42] = false := by
  decide

theorem isPermittedIdentifierRule_trans {x y z : Bytes}
    (hxy : isPermittedIdentifierRule x y = true) (hyz : isPermittedIdentifierRule y z = true) :
    isPermittedIdentifierRule x z = true := by
  rw [isPermittedIdentifierRule_eq_true_iff] at hxy hyz ⊢
  intro c hc
  obtain ⟨p, hp, -, hw⟩ := exists_of_matchAny (hxy c hc)
  exact matchAny_of_wildcardMatch (hyz p hp) hw

theorem isPermittedIdentifierRule_refl {x : Bytes} (hx : checkUTF8 x) :
    isPermittedIdentifierRule x x = true :=
  (isPermittedIdentifierRule_eq_true_iff x x).mpr fun _ hc =>
    matchAny_of_mem (fun _ hq => checkUTF8_of_mem_splitTerms hx hq) hc (WildcardMatch.refl _)

/-- `IsPermittedIdentifierRule` is reflexive on valid UTF-8 and transitive on all strings. -/
theorem isPermittedIdentifierRule_preorder :
    (∀ x, checkUTF8 x = true → isPermittedIdentifierRule x x = true) ∧
      ∀ x y z, isPermittedIdentifierRule x y = true → isPermittedIdentifierRule y z = true →
        isPermittedIdentifierRule x z = true :=
  ⟨fun _ hx => isPermittedIdentifierRule_refl hx, fun _ _ _ => isPermittedIdentifierRule_trans⟩

theorem isPermittedIdentifierRule_preorder_ascii :
    checkUTF8 (ascii "DNS:*.dom") = true ∧
      isPermittedIdentifierRule (ascii "DNS:*.dom") (ascii "DNS:*.dom") = true :=
  ⟨by decide, isPermittedIdentifierRule_preorder.1 _ (by decide)⟩

/-- The byte `0xFF` is not valid UTF-8, so the pattern built from it does not compile. -/
theorem isPermittedIdentifierRule_invalid_self :
    isPermittedIdentifierRule [255] [255] = false := by
  decide

@[simp] theorem splitTerms_stripSpaces (s : Bytes) : splitTerms (stripSpaces s) = splitTerms s := by
  rw [splitTerms, splitTerms, stripSpaces_idem]

/-- Both arguments have their spaces removed first. -/
@[simp] theorem isPermittedIdentifierRule_stripSpaces_left (x y : Bytes) :
    isPermittedIdentifierRule (stripSpaces x) y = isPermittedIdentifierRule x y := by
  simp [isPermittedIdentifierRule]

@[simp] theorem isPermittedIdentifierRule_stripSpaces_right (x y : Bytes) :
    isPermittedIdentifierRule x (stripSpaces y) = isPermittedIdentifierRule x y := by
  simp [isPermittedIdentifierRule]

theorem splitTerms_of_not_mem {s : Bytes} (h : (44 : UInt8) ∉ s) :
    splitTerms s = [stripSpaces s] := by
  rw [splitTerms, List.splitOn, List.splitOnP_eq_single]
  intro b hb hb44
  rw [stripSpaces_eq_filter] at hb
  exact h ((beq_iff_eq.mp hb44) ▸ (List.mem_filter.mp hb).1)

/-- On a name without a comma, the two matchers agree. -/
theorem isPermittedIdentifier_eq_rule (name permittedNames : Bytes) (h : (44 : UInt8) ∉ name) :
    isPermittedIdentifier name permittedNames = isPermittedIdentifierRule name permittedNames := by
  rw [isPermittedIdentifierRule, splitTerms_of_not_mem h, List.all_cons, List.all_nil,
    Bool.and_true, isPermittedIdentifier]

theorem isPermittedIdentifier_eq_rule_ascii :
    (44 : UInt8) ∉ ascii "DNS:srv.dom" ∧
      isPermittedIdentifier (ascii "DNS:srv.dom") (ascii "DNS:*.dom") =
        isPermittedIdentifierRule (ascii "DNS:srv.dom") (ascii "DNS:*.dom") :=
  ⟨by decide, isPermittedIdentifier_eq_rule _ _ (by decide)⟩

/-- `IsPermittedIdentifier` matches the whole name `a,b` against each of `a` and `b`, while
the rule matches each of its terms. -/
theorem isPermittedIdentifier_comma_name :
    isPermittedIdentifier (ascii "a,b") (ascii "a,b") = false ∧
      isPermittedIdentifierRule (ascii "a,b") (ascii "a,b") = true := by
  decide

end Identifier
end GoFdo
