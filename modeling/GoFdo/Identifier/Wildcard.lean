import GoFdo.Text.Regexp

/-!
# Wildcard patterns

The spec reads an identifier constraint as comma-separated patterns in which `*` stands
for any string and every other character for itself. `WildcardMatch p t` is that reading
on runes, with the one restriction that Go's `.` brings: the string a star stands for holds
no newline. A pattern also matches any text matched by a pattern that it matches read
literally, so the relation is a preorder.

`globNode` is the regular expression that the matchers of `delegate.go` build from a
pattern, and `matchRunes_glob` says that it denotes exactly `WildcardMatch`.
-/

namespace GoFdo
namespace Identifier

open Regexp

/-- `t` is `p` with each star (rune 42) replaced by a string without a newline (rune 10). -/
inductive WildcardMatch : List Nat → List Nat → Prop
  | nil : WildcardMatch [] []
  /-- A rune other than a star stands for itself. -/
  | literal {c : Nat} {p t : List Nat} :
      c ≠ 42 → WildcardMatch p t → WildcardMatch (c :: p) (c :: t)
  /-- A star stands for the empty string, -/
  | starDone {p t : List Nat} : WildcardMatch p t → WildcardMatch (42 :: p) t
  /-- or for one more rune that is not a newline. -/
  | starMore {p t : List Nat} {d : Nat} :
      d ≠ 10 → WildcardMatch (42 :: p) t → WildcardMatch (42 :: p) (d :: t)

namespace WildcardMatch

theorem nil_iff {t : List Nat} : WildcardMatch [] t ↔ t = [] :=
  ⟨fun h => by cases h; rfl, fun h => h ▸ nil⟩

theorem literal_inv {c : Nat} {p t : List Nat} (hc : c ≠ 42) (h : WildcardMatch (c :: p) t) :
    ∃ t', t = c :: t' ∧ WildcardMatch p t' := by
  cases h with
  | literal _ h => exact ⟨_, rfl, h⟩
  | starDone => exact absurd rfl hc
  | starMore => exact absurd rfl hc

theorem star_append {p t w : List Nat} (hw : ∀ d ∈ w, d ≠ 10) (h : WildcardMatch (42 :: p) t) :
    WildcardMatch (42 :: p) (w ++ t) := by
  induction w with
  | nil => exact h
  | cons d w ih =>
    exact starMore (hw d (List.mem_cons_self d w)) (ih fun x hx => hw x (List.mem_cons_of_mem d hx))

theorem star_inv {p t : List Nat} (h : WildcardMatch (42 :: p) t) :
    ∃ w t', t = w ++ t' ∧ (∀ d ∈ w, d ≠ 10) ∧ WildcardMatch p t' := by
  generalize hq : 42 :: p = q at h
  induction h with
  | nil => cases hq
  | literal hc => cases hq; exact absurd rfl hc
  | starDone h => cases hq; exact ⟨[], _, rfl, by simp, h⟩
  | starMore hd _ ih =>
    obtain ⟨w, t', rfl, hw, h'⟩ := ih hq
    exact ⟨_ :: w, t', rfl, by simpa [hd] using hw, h'⟩

/-- Every pattern matches itself read literally: a star stands for a star. -/
theorem refl (p : List Nat) : WildcardMatch p p := by
  induction p with
  | nil => exact nil
  | cons c p ih =>
    by_cases hc : c = 42
    · subst hc; exact starMore (by decide) (starDone ih)
    · exact literal hc ih

/-- If `u` matches `s` read literally and `s` matches `t`, then `u` matches `t`: a star of
`u` covers the text that the stars of `s` it covers stand for. -/
theorem trans {u s t : List Nat} (h₁ : WildcardMatch u s) (h₂ : WildcardMatch s t) :
    WildcardMatch u t := by
  induction h₁ generalizing t with
  | nil => exact h₂
  | literal hc _ ih =>
    obtain ⟨t', rfl, h'⟩ := literal_inv hc h₂
    exact literal hc (ih h')
  | starDone _ ih => exact starDone (ih h₂)
  | @starMore _ _ d hd _ ih =>
    by_cases hd' : d = 42
    · subst hd'
      obtain ⟨w, t', rfl, hw, h'⟩ := star_inv h₂
      exact star_append hw (ih h')
    · obtain ⟨t', rfl, h'⟩ := literal_inv hd' h₂
      exact starMore hd (ih h')

end WildcardMatch

/-- The node that the matchers make of a pattern rune: a star becomes `.*`, any other
rune a literal. -/
def globNode (r : Nat) : Node := if r = 42 then .star .anyCharNotNL else .literal r

theorem starMatch_any_iff {p : List Nat} {k : Bool → List Nat → Bool}
    (hk : ∀ b t, k b t = true ↔ WildcardMatch p t) (b : Bool) (t : List Nat) :
    starMatch .anyCharNotNL k b t = true ↔ WildcardMatch (42 :: p) t := by
  induction t generalizing b with
  | nil =>
    refine (hk b []).trans ⟨WildcardMatch.starDone, fun h => ?_⟩
    obtain ⟨w, t', hwt, -, h'⟩ := WildcardMatch.star_inv h
    rw [List.nil_eq_append_iff] at hwt
    exact hwt.2 ▸ h'
  | cons c t ih =>
    simp only [starMatch, Bool.or_eq_true, Bool.and_eq_true, Node.matchesRune, bne_iff_ne, ne_eq,
      hk, ih]
    constructor
    · rintro (h | ⟨hc, h⟩)
      · exact WildcardMatch.starDone h
      · exact WildcardMatch.starMore hc h
    · intro h
      cases h with
      | literal hc' => exact absurd rfl hc'
      | starDone h => exact .inl h
      | starMore hc h => exact .inr ⟨hc, h⟩

theorem matchHere_glob (p : List Nat) (b : Bool) (t : List Nat) :
    matchHere (p.map globNode ++ [.endText]) b t = true ↔ WildcardMatch p t := by
  induction p generalizing b t with
  | nil => simp [WildcardMatch.nil_iff]
  | cons c p ih =>
    by_cases hc : c = 42
    · subst hc
      simp only [List.map_cons, globNode, if_true, List.cons_append, matchHere_star]
      exact starMatch_any_iff (fun b t => ih b t) b t
    · simp only [List.map_cons, globNode, if_neg hc, List.cons_append]
      cases t with
      | nil => simpa using fun h => by cases h; exact hc rfl
      | cons d t =>
        rw [matchHere_literal_cons, Bool.and_eq_true, beq_iff_eq, ih]
        constructor
        · rintro ⟨rfl, h⟩; exact .literal hc h
        · intro h
          obtain ⟨t', ht, h'⟩ := WildcardMatch.literal_inv hc h
          cases ht
          exact ⟨rfl, h'⟩

/-- The regular expression `^…$` built from a pattern matches exactly its wildcard reading. -/
theorem matchRunes_glob (p t : List Nat) :
    matchRunes (.beginText :: (p.map globNode ++ [.endText])) t = true ↔ WildcardMatch p t := by
  rw [matchRunes_beginText, matchHere_glob]

/-- The wildcard reading is decided by the matcher itself. -/
instance (p t : List Nat) : Decidable (WildcardMatch p t) :=
  decidable_of_iff _ (matchRunes_glob p t)

end Identifier
end GoFdo
