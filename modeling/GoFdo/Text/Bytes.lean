import Mathlib

/-!
# Go strings as bytes

A Go `string` is an immutable sequence of bytes with no encoding attached. This module
gives the standard-library operations that the identifier matchers of `delegate.go` apply
to such strings: `strings.Replace(s, old, new, -1)`, `strings.Split(s, ",")` (which is
`List.splitOn` for a one-byte separator) and `regexp.QuoteMeta`.
-/

namespace GoFdo

/-- A Go `string`: a sequence of bytes, not necessarily valid UTF-8. -/
abbrev Bytes := List UInt8

/-- An ASCII Go string literal as bytes. -/
def ascii (s : String) : Bytes := s.toList.map fun c => c.toNat.toUInt8

namespace Bytes

/-- The loop of `strings.Replace(s, old, new, -1)` for a non-empty `old`: occurrences are
found left to right and do not overlap. `skip` counts the bytes of the occurrence just
replaced that are still to be passed over. -/
def replaceFrom (old new : Bytes) : Nat → Bytes → Bytes
  | _, [] => []
  | k + 1, _ :: s => replaceFrom old new k s
  | 0, b :: s =>
    if old ≠ [] ∧ old.isPrefixOf (b :: s) then new ++ replaceFrom old new (old.length - 1) s
    else b :: replaceFrom old new 0 s

/-- `strings.Replace(s, old, new, -1)`. The source never passes an empty `old`, for which Go
would insert `new` between runes; here that case leaves `s` unchanged. -/
def replaceAll (s old new : Bytes) : Bytes := replaceFrom old new 0 s

/-- `strings.Replace(s, " ", "", -1)`: the string with every space removed. -/
def stripSpaces (s : Bytes) : Bytes := replaceAll s [32] []

/-- The byte codes that `regexp.QuoteMeta` escapes: ``\.+*?()|[]{}^$``. -/
def specialCodes : List Nat := [92, 46, 43, 42, 63, 40, 41, 124, 91, 93, 123, 125, 94, 36]

/-- `regexp.QuoteMeta`: a backslash before every special byte. -/
def quoteMeta (s : Bytes) : Bytes :=
  s.flatMap fun b => if b.toNat ∈ specialCodes then [92, b] else [b]

theorem replaceFrom_succ (old new : Bytes) (k : Nat) (s : Bytes) :
    replaceFrom old new k s = replaceFrom old new 0 (s.drop k) := by
  induction s generalizing k with
  | nil => cases k <;> rfl
  | cons b s ih =>
    cases k with
    | zero => rfl
    | succ k => simp only [replaceFrom, ih, List.drop_succ_cons]

@[simp] theorem replaceAll_nil (old new : Bytes) : replaceAll [] old new = [] := rfl

theorem replaceAll_cons_of_isPrefixOf {old new s : Bytes} {b : UInt8} (hold : old ≠ [])
    (hp : old.isPrefixOf (b :: s)) :
    replaceAll (b :: s) old new = new ++ replaceAll (s.drop (old.length - 1)) old new := by
  rw [replaceAll, replaceFrom, if_pos ⟨hold, hp⟩, replaceFrom_succ]; rfl

theorem replaceAll_cons_of_not_isPrefixOf {old new s : Bytes} {b : UInt8}
    (hp : old.isPrefixOf (b :: s) = false) :
    replaceAll (b :: s) old new = b :: replaceAll s old new := by
  rw [replaceAll, replaceFrom, if_neg (by simp [hp])]
  rfl

@[simp] theorem stripSpaces_nil : stripSpaces [] = [] := rfl

theorem stripSpaces_eq_filter (s : Bytes) : stripSpaces s = s.filter (· ≠ 32) := by
  induction s with
  | nil => rfl
  | cons b s ih =>
    by_cases hb : b = 32
    · subst hb
      rw [stripSpaces, replaceAll_cons_of_isPrefixOf (List.cons_ne_nil _ _) (by simp)]
      simpa using ih
    · rw [stripSpaces, replaceAll_cons_of_not_isPrefixOf (by simp [List.isPrefixOf, Ne.symm hb])]
      simp only [stripSpaces] at ih
      simp [ih, hb]

theorem stripSpaces_idem (s : Bytes) : stripSpaces (stripSpaces s) = stripSpaces s := by
  simp [stripSpaces_eq_filter, List.filter_filter]

theorem stripSpaces_append (s t : Bytes) :
    stripSpaces (s ++ t) = stripSpaces s ++ stripSpaces t := by
  simp [stripSpaces_eq_filter]

theorem quoteMeta_cons (b : UInt8) (s : Bytes) :
    quoteMeta (b :: s) = (if b.toNat ∈ specialCodes then [92, b] else [b]) ++ quoteMeta s :=
  List.flatMap_cons _ _ _

end Bytes

end GoFdo
