import GoFdo.Text.Utf8

/-!
# The fragment of Go's `regexp` used by the identifier matchers

`regexp.MatchString(pattern, s)` compiles `pattern` with the Perl flags and reports
whether some substring of `s` matches it. The patterns that `delegate.go` builds use only
the anchors `^` and `$`, escaped punctuation, other literal runes, `.` and the star.
`parse` accepts that fragment and reports an error at every other construct, so a
pattern that `compile` accepts denotes here what Go's compiled program denotes.
-/

namespace GoFdo
namespace Regexp

open Utf8

/-- A parsed node: the part of `syntax.Op` that the fragment produces. -/
inductive Node where
  /-- `^` under `OneLine`: the start of the text. -/
  | beginText
  /-- `$` under `OneLine`: the end of the text. -/
  | endText
  | literal (r : Nat)
  /-- `.` without `DotNL`: any rune but a newline. -/
  | anyCharNotNL
  | star (n : Node)
  deriving DecidableEq, Repr

/-- Whether a single-rune node matches the rune `c`. -/
def Node.matchesRune : Node → Nat → Bool
  | .literal r, c => c == r
  | .anyCharNotNL, c => c != 10
  | _, _ => false

/-- The nodes of the fragment that a star may follow. -/
def Node.repeatable : Node → Bool
  | .literal _ | .anyCharNotNL => true
  | _ => false

/-- A rune that a backslash makes literal: ASCII, neither a letter nor a digit. -/
def isPunct (c : Nat) : Bool :=
  c < 0x80 && !(48 ≤ c && c ≤ 57 || 65 ≤ c && c ≤ 90 || 97 ≤ c && c ≤ 122)

/-- Runes that open a construct outside the fragment: ``+ ? ( ) | [ ] {``. -/
def outsideFragment : List Nat := [43, 63, 40, 41, 124, 91, 93, 123]

/-- `syntax.Parse` with the Perl flags, on the fragment; `acc` holds the nodes read so far,
last first. -/
def parse : List Nat → List Node → Except String (List Node)
  | [], acc => .ok acc.reverse
  | c :: rest, acc =>
    if c = 92 then
      match rest with
      | d :: rest' =>
        if isPunct d then parse rest' (.literal d :: acc)
        else .error "escape outside the modelled fragment"
      | [] => .error "trailing backslash at end of expression"
    else if c = 46 then parse rest (.anyCharNotNL :: acc)
    else if c = 94 then parse rest (.beginText :: acc)
    else if c = 36 then parse rest (.endText :: acc)
    else if c = 42 then
      match acc with
      | n :: acc' =>
        if n.repeatable then parse rest (.star n :: acc')
        else .error "repetition outside the modelled fragment"
      | [] => .error "missing argument to repetition operator"
    else if c ∈ outsideFragment then .error "construct outside the modelled fragment"
    else parse rest (.literal c :: acc)

theorem parse_escape {d : Nat} (rest : List Nat) (acc : List Node) (hd : isPunct d) :
    parse (92 :: d :: rest) acc = parse rest (.literal d :: acc) := by
  rw [parse.eq_def]; simp [hd]

theorem parse_dot (rest : List Nat) (acc : List Node) :
    parse (46 :: rest) acc = parse rest (.anyCharNotNL :: acc) := by
  rw [parse.eq_def]; simp

theorem parse_caret (rest : List Nat) (acc : List Node) :
    parse (94 :: rest) acc = parse rest (.beginText :: acc) := by
  rw [parse.eq_def]; simp

theorem parse_dollar (rest : List Nat) (acc : List Node) :
    parse (36 :: rest) acc = parse rest (.endText :: acc) := by
  rw [parse.eq_def]; simp

theorem parse_star {n : Node} (rest : List Nat) (acc : List Node) (hn : n.repeatable) :
    parse (42 :: rest) (n :: acc) = parse rest (.star n :: acc) := by
  rw [parse.eq_def]; simp [hn]

theorem parse_literal {c : Nat} (rest : List Nat) (acc : List Node)
    (hc : c ≠ 92 ∧ c ≠ 46 ∧ c ≠ 94 ∧ c ≠ 36 ∧ c ≠ 42) (ho : c ∉ outsideFragment) :
    parse (c :: rest) acc = parse rest (.literal c :: acc) := by
  rw [parse.eq_def]; simp [hc, ho]

/-- The matches of `n*` followed by `k`: `k` after each prefix of repeated `n`. -/
def starMatch (n : Node) (k : Bool → List Nat → Bool) : Bool → List Nat → Bool
  | b, [] => k b []
  | b, c :: s => k b (c :: s) || (n.matchesRune c && starMatch n k false s)

/-- Whether the nodes match a prefix of `s`; `atStart` records that nothing of the text
lies before `s`. -/
def matchHere : List Node → Bool → List Nat → Bool
  | [], _, _ => true
  | .beginText :: ns, atStart, s => atStart && matchHere ns atStart s
  | .endText :: ns, atStart, s => s.isEmpty && matchHere ns atStart s
  | .star n :: ns, atStart, s => starMatch n (matchHere ns) atStart s
  | n :: ns, _, c :: s => n.matchesRune c && matchHere ns false s
  | _ :: _, _, [] => false

/-- Unanchored search: a match starting at some position of the text. -/
def matchRunes (re : List Node) (s : List Nat) : Bool :=
  (List.range (s.length + 1)).any fun i => matchHere re (i == 0) (s.drop i)

/-- `regexp.Compile`: the pattern must be valid UTF-8, then its runes are parsed. -/
def compile (pattern : Bytes) : Except String (List Node) :=
  if checkUTF8 pattern then parse (decodeRunes pattern) [] else .error "invalid UTF-8"

/-- `regexp.MatchString`. -/
def matchString (pattern s : Bytes) : Except String Bool := do
  let re ← compile pattern
  pure (matchRunes re (decodeRunes s))

@[simp] theorem matchHere_nil (atStart : Bool) (s : List Nat) : matchHere [] atStart s = true := by
  cases s <;> rfl

@[simp] theorem matchHere_beginText (ns : List Node) (atStart : Bool) (s : List Nat) :
    matchHere (.beginText :: ns) atStart s = (atStart && matchHere ns atStart s) := by
  cases s <;> rfl

@[simp] theorem matchHere_endText (ns : List Node) (atStart : Bool) (s : List Nat) :
    matchHere (.endText :: ns) atStart s = (s.isEmpty && matchHere ns atStart s) := by
  cases s <;> rfl

@[simp] theorem matchHere_star (n : Node) (ns : List Node) (atStart : Bool) (s : List Nat) :
    matchHere (.star n :: ns) atStart s = starMatch n (matchHere ns) atStart s := by
  cases s <;> rfl

theorem matchHere_literal_cons (r : Nat) (ns : List Node) (atStart : Bool) (c : Nat)
    (s : List Nat) : matchHere (.literal r :: ns) atStart (c :: s) =
      (c == r && matchHere ns false s) := rfl

@[simp] theorem matchHere_literal_nil (r : Nat) (ns : List Node) (atStart : Bool) :
    matchHere (.literal r :: ns) atStart [] = false := rfl

/-- A pattern that starts with `^` can only match at the start of the text. -/
theorem matchRunes_beginText (ns : List Node) (s : List Nat) :
    matchRunes (.beginText :: ns) s = matchHere ns true s := by
  simp [matchRunes, List.range_succ_eq_map, List.any_map, Function.comp_def]

end Regexp
end GoFdo
