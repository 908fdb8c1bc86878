import GoFdo.Identifier.Wildcard

/-!
# The identifier matchers of `delegate.go`

`IsPermittedIdentifierRule(child, parent)` removes the spaces of both strings, splits them
at commas, and asks that every child term match some parent term, where a parent term `p`
becomes the regular expression `"^" + regexp.QuoteMeta(p) + "$"` with every `\*` replaced
by `.*`. `IsPermittedIdentifier(name, permittedNames)` does the same for one name, which it
does not split.

`compile_identifierPattern` says what such a pattern denotes: the wildcard reading of the
term when the term is valid UTF-8, and a compile error otherwise, on which the matchers
return false.
-/

namespace GoFdo
namespace Identifier

open Bytes Utf8 Regexp

/-- The pattern of a parent term: `"^" + regexp.QuoteMeta(p) + "$"`, then every `\*`
replaced by `.*`. -/
def identifierPattern (p : Bytes) : Bytes :=
  replaceAll ([94] ++ quoteMeta p ++ [36]) [92, 42] [46, 42]

/-- The loop over the parent terms for one child term `c`: `some true` at the first term
whose pattern matches `c`, `some false` when none does, and `none` when a pattern fails to
compile (the Go functions then print the error and return false). -/
def matchAny (c : Bytes) : List Bytes → Option Bool
  | [] => some false
  | p :: ps =>
    match matchString (identifierPattern p) c with
    | .error _ => none
    | .ok true => some true
    | .ok false => matchAny c ps

/-- `strings.Split(strings.Replace(s, " ", "", -1), ",")`: the terms of an identifier list. -/
def splitTerms (s : Bytes) : List Bytes := (stripSpaces s).splitOn 44

/-- `IsPermittedIdentifierRule(child, parent)`. -/
def isPermittedIdentifierRule (child parent : Bytes) : Bool :=
  (splitTerms child).all fun c => matchAny c (splitTerms parent) == some true

/-- `IsPermittedIdentifier(name, permittedNames)`. The source replaces `\*` through the
regular expression `\\\*`, which matches exactly the two bytes `\*`, with the template `.*`,
which has no `$` to expand; `identifierPattern` does the same replacement. -/
def isPermittedIdentifier (name permittedNames : Bytes) : Bool :=
  matchAny (stripSpaces name) (splitTerms permittedNames) == some true

/-! ### The pattern of a term -/

/-- What the pattern makes of one byte of the term. -/
def quoteStarByte (b : UInt8) : Bytes :=
  if b = 42 then [46, 42] else if b.toNat ∈ specialCodes then [92, b] else [b]

/-- What the pattern makes of one rune of the term. -/
def quoteStarRune (r : Nat) : List Nat :=
  if r = 42 then [46, 42] else if r ∈ specialCodes then [92, r] else [r]

theorem quoteMeta_append_head (p : Bytes) : (quoteMeta p ++ [36]).head? ≠ some 42 := by
  cases p with
  | nil => decide
  | cons b p =>
    rw [quoteMeta_cons]
    split_ifs with hb
    · simp
    · simp only [List.singleton_append, List.cons_append, List.head?_cons, ne_eq,
        Option.some.injEq]
      rintro rfl
      exact hb (by decide)

theorem backslashStar_not_isPrefixOf {x : UInt8} {rest : Bytes} (h : x ≠ 92 ∨ rest.head? ≠ some 42) :
    [(92 : UInt8), 42].isPrefixOf (x :: rest) = false := by
  rcases rest with _ | ⟨y, rest⟩
  · simp [List.isPrefixOf]
  · simp only [List.isPrefixOf, List.head?_cons, ne_eq, Option.some.injEq] at h ⊢
    rcases h with h | h <;> simp [Ne.symm h]

theorem replaceAll_quoteMeta (p : Bytes) :
    replaceAll (quoteMeta p ++ [36]) [92, 42] [46, 42] = p.flatMap quoteStarByte ++ [36] := by
  induction p with
  | nil => rfl
  | cons b p ih =>
    rw [quoteMeta_cons, List.flatMap_cons, List.append_assoc, List.append_assoc]
    by_cases h42 : b = 42
    · subst h42
      rw [show (if (42 : UInt8).toNat ∈ specialCodes then [92, 42] else [42]) = [(92 : UInt8), 42]
          from rfl, List.cons_append, replaceAll_cons_of_isPrefixOf (by simp) (by simp)]
      simp [ih, quoteStarByte]
    · by_cases hs : b.toNat ∈ specialCodes
      · have hhead := quoteMeta_append_head p
        rw [if_pos hs, List.cons_append, List.singleton_append, replaceAll_cons_of_not_isPrefixOf
            (backslashStar_not_isPrefixOf (.inr (by simpa using h42))),
          replaceAll_cons_of_not_isPrefixOf (backslashStar_not_isPrefixOf (.inr hhead))]
        simp [ih, quoteStarByte, h42, hs]
      · have h92 : b ≠ 92 := by rintro rfl; exact hs (by decide)
        rw [if_neg hs, List.cons_append, List.nil_append,
          replaceAll_cons_of_not_isPrefixOf (backslashStar_not_isPrefixOf (.inl h92))]
        simp [ih, quoteStarByte, h42, hs]

theorem identifierPattern_eq (p : Bytes) :
    identifierPattern p = 94 :: (p.flatMap quoteStarByte ++ [36]) := by
  rw [identifierPattern, List.singleton_append, List.cons_append,
    replaceAll_cons_of_not_isPrefixOf (by rfl), replaceAll_quoteMeta]

theorem quoteStar_asciiSubst : AsciiSubst quoteStarByte quoteStarRune where
  high b hb := by
    have h42 : b ≠ 42 := by rintro rfl; exact absurd hb (by decide)
    have hs : b.toNat ∉ specialCodes := fun h => by
      simp only [specialCodes, List.mem_cons, List.mem_singleton, List.not_mem_nil, or_false] at h
      omega
    rw [quoteStarByte, if_neg h42, if_neg hs]
  low_ne b _ := by unfold quoteStarByte; split_ifs <;> exact List.cons_ne_nil _ _
  low_ascii b hb a ha := by
    unfold quoteStarByte at ha
    split_ifs at ha <;>
      simp only [List.mem_cons, List.mem_singleton, List.not_mem_nil, or_false] at ha
    · rcases ha with rfl | rfl <;> decide
    · rcases ha with rfl | rfl
      · decide
      · exact hb
    · exact ha ▸ hb
  low_codes b _ := by
    unfold quoteStarByte quoteStarRune
    by_cases h : b = 42
    · subst h; decide
    · rw [if_neg h, if_neg fun e : b.toNat = 42 => h (UInt8.toNat.inj e)]
      split_ifs <;> rfl

theorem liftRune_quoteStar_fst (r : Nat × Nat) :
    (liftRune quoteStarRune r).map Prod.fst = quoteStarRune r.1 := by
  unfold liftRune
  split_ifs with h
  · simp [Function.comp_def]
  · have h42 : r.1 ≠ 42 := by omega
    have hs : r.1 ∉ specialCodes := fun h' => by simp [specialCodes] at h'; omega
    simp [quoteStarRune, h42, hs]

theorem decodeRunes_identifierPattern (p : Bytes) :
    decodeRunes (identifierPattern p) = 94 :: ((decodeRunes p).flatMap quoteStarRune ++ [36]) := by
  rw [identifierPattern_eq, decodeRunes, utf8Runes_cons_of_lt (by decide),
    utf8Runes_append _ (by decide), quoteStar_asciiSubst.utf8Runes_flatMap]
  simp [decodeRunes, List.map_flatMap, liftRune_quoteStar_fst, List.flatMap_map]
  rfl

theorem liftRune_quoteStar_all (r : Nat × Nat) :
    (liftRune quoteStarRune r).all (fun r => !(r.1 == runeError && r.2 == 1)) =
      !(r.1 == runeError && r.2 == 1) := by
  unfold liftRune
  split_ifs with h
  · unfold quoteStarRune
    split_ifs <;> simp [runeError] <;> omega
  · simp

theorem checkUTF8_identifierPattern (p : Bytes) :
    checkUTF8 (identifierPattern p) = checkUTF8 p := by
  rw [identifierPattern_eq, checkUTF8_cons_of_lt (by decide),
    checkUTF8_append_ascii _ (by decide), checkUTF8_nil, Bool.and_true, checkUTF8,
    quoteStar_asciiSubst.utf8Runes_flatMap, List.all_flatMap]
  simp only [liftRune_quoteStar_all]
  rfl

theorem parse_quoteStar (rs rest : List Nat) (acc : List Node) :
    parse (rs.flatMap quoteStarRune ++ rest) acc = parse rest ((rs.map globNode).reverse ++ acc) := by
  induction rs generalizing acc with
  | nil => rfl
  | cons r rs ih =>
    rw [List.flatMap_cons, List.append_assoc, List.map_cons, List.reverse_cons, List.append_assoc,
      List.singleton_append, ← ih]
    by_cases h42 : r = 42
    · subst h42
      rw [show quoteStarRune 42 = [46, 42] from rfl, show globNode 42 = .star .anyCharNotNL from rfl,
        List.cons_append, List.singleton_append, parse_dot,
        parse_star _ _ (show Node.anyCharNotNL.repeatable from rfl)]
    · have hg : globNode r = .literal r := if_neg h42
      by_cases hs : r ∈ specialCodes
      · have hp : isPunct r := by
          simp only [specialCodes, List.mem_cons, List.mem_singleton, List.not_mem_nil,
            or_false] at hs
          rcases hs with h | h | h | h | h | h | h | h | h | h | h | h | h | h <;> subst h <;> decide
        rw [show quoteStarRune r = [92, r] by simp [quoteStarRune, h42, hs], hg, List.cons_append,
          List.singleton_append, parse_escape _ _ hp]
      · have hc : r ≠ 92 ∧ r ≠ 46 ∧ r ≠ 94 ∧ r ≠ 36 ∧ r ≠ 42 := by
          simp [specialCodes] at hs; omega
        have ho : r ∉ outsideFragment := by simp [specialCodes] at hs; simp [outsideFragment]; omega
        rw [show quoteStarRune r = [r] by simp [quoteStarRune, h42, hs], hg, List.singleton_append,
          parse_literal _ _ hc ho]

/-- The pattern of a valid term compiles to `^`, one node per rune and `$`; the pattern of
an invalid term does not compile. -/
theorem compile_identifierPattern (p : Bytes) :
    compile (identifierPattern p) =
      if checkUTF8 p then .ok (.beginText :: ((decodeRunes p).map globNode ++ [.endText]))
      else .error "invalid UTF-8" := by
  rw [compile, checkUTF8_identifierPattern, decodeRunes_identifierPattern]
  split_ifs
  · rw [parse_caret, parse_quoteStar, parse_dollar, parse.eq_1]
    simp
  · rfl

theorem matchString_identifierPattern (p c : Bytes) :
    matchString (identifierPattern p) c =
      if checkUTF8 p then .ok (matchRunes (.beginText :: ((decodeRunes p).map globNode ++ [.endText]))
        (decodeRunes c))
      else .error "invalid UTF-8" := by
  rw [matchString, compile_identifierPattern]
  split_ifs <;> rfl

end Identifier
end GoFdo
