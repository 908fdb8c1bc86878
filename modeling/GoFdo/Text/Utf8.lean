import GoFdo.Text.Bytes

/-!
# Runes of a byte string

`utf8.DecodeRune` reads one rune from the front of a byte string. Package `regexp` reads
both its pattern and its input this way: an invalid byte becomes `RuneError` (U+FFFD) of
width one, and `syntax.Parse` refuses a pattern holding one (`checkUTF8`). Runes are code
points, as Go's `rune` is.

The main results say that ASCII bytes are runes of their own: inserting or replacing them
(as `regexp.QuoteMeta` does) acts on the runes in the same way, and appending after a
string that does not end inside an encoding appends runes.
-/

namespace GoFdo
namespace Utf8

open Bytes

/-- `utf8.RuneError`. -/
def runeError : Nat := 0xFFFD

/-- Go's `first` table: the length of the encoding that a leading byte announces, and 0
for a byte that cannot lead one. -/
def seqLen (b : Nat) : Nat :=
  if b < 0x80 then 1 else if b < 0xC2 then 0 else if b < 0xE0 then 2
  else if b < 0xF0 then 3 else if b < 0xF5 then 4 else 0

/-- Go's `acceptRanges`: the least second byte after a leading byte. -/
def acceptLo (b : Nat) : Nat := if b = 0xE0 then 0xA0 else if b = 0xF0 then 0x90 else 0x80

/-- Go's `acceptRanges`: the greatest second byte after a leading byte. -/
def acceptHi (b : Nat) : Nat := if b = 0xED then 0x9F else if b = 0xF4 then 0x8F else 0xBF

/-- A continuation byte, `0x80..0xBF`. -/
def isCont (b : UInt8) : Bool := 0x80 ≤ b.toNat && b.toNat ≤ 0xBF

/-- The bytes after leading byte `b0` complete its encoding. -/
def tailOk (b0 : Nat) (ts : Bytes) : Bool :=
  ts.length + 1 = seqLen b0 &&
    match ts with
    | [] => true
    | t :: rest => acceptLo b0 ≤ t.toNat && t.toNat ≤ acceptHi b0 && rest.all isCont

/-- The code point of a complete encoding; Go's masks `mask2..mask4` and `maskx` are the
remainders. -/
def runeValue (b0 : Nat) (ts : Bytes) : Nat :=
  ts.foldl (fun acc t => acc * 64 + t.toNat % 64) (b0 % 2 ^ (6 - ts.length))

/-- `utf8.DecodeRune`: the first rune of the string and its width in bytes. -/
def decodeRune : Bytes → Nat × Nat
  | [] => (runeError, 0)
  | b0 :: p =>
    if seqLen b0.toNat = 1 then (b0.toNat, 1)
    else if tailOk b0.toNat (p.take (seqLen b0.toNat - 1)) then
      (runeValue b0.toNat (p.take (seqLen b0.toNat - 1)), seqLen b0.toNat)
    else (runeError, 1)

/-- The runes of a string with their widths, as a `for range` loop or the regexp input
reader steps through it; `skip` counts the bytes of the last rune still to pass. -/
def runesFrom : Nat → Bytes → List (Nat × Nat)
  | _, [] => []
  | k + 1, _ :: p => runesFrom k p
  | 0, b :: p => decodeRune (b :: p) :: runesFrom ((decodeRune (b :: p)).2 - 1) p

/-- The runes of a string with their widths. -/
def utf8Runes (s : Bytes) : List (Nat × Nat) := runesFrom 0 s

/-- The runes of a string. -/
def decodeRunes (s : Bytes) : List Nat := (utf8Runes s).map Prod.fst

/-- `checkUTF8` of `regexp/syntax`: no rune is an invalid byte. -/
def checkUTF8 (s : Bytes) : Bool := (utf8Runes s).all fun r => !(r.1 == runeError && r.2 == 1)

theorem runesFrom_eq_drop (k : Nat) (p : Bytes) : runesFrom k p = runesFrom 0 (p.drop k) := by
  induction p generalizing k with
  | nil => cases k <;> rfl
  | cons b p ih => cases k with
    | zero => rfl
    | succ k => simp only [runesFrom, ih, List.drop_succ_cons]

/-- Induction on a byte string that may skip any number of bytes after the first, as
reading one rune does. -/
theorem dropInduction {P : Bytes → Prop} (nil : P [])
    (cons : ∀ b p, (∀ k, P (p.drop k)) → P (b :: p)) : ∀ s, P s
  | [] => nil
  | b :: p => cons b p fun k => dropInduction nil cons (p.drop k)
termination_by s => s.length
decreasing_by simp only [List.length_drop, List.length_cons]; omega

@[simp] theorem utf8Runes_nil : utf8Runes [] = [] := rfl

theorem utf8Runes_cons (b : UInt8) (p : Bytes) :
    utf8Runes (b :: p) =
      decodeRune (b :: p) :: utf8Runes (p.drop ((decodeRune (b :: p)).2 - 1)) := by
  rw [utf8Runes, runesFrom, runesFrom_eq_drop]; rfl

theorem decodeRune_of_lt {b : UInt8} (hb : b.toNat < 0x80) (p : Bytes) :
    decodeRune (b :: p) = (b.toNat, 1) := by
  simp [decodeRune, seqLen, hb]

theorem utf8Runes_cons_of_lt {b : UInt8} (hb : b.toNat < 0x80) (p : Bytes) :
    utf8Runes (b :: p) = (b.toNat, 1) :: utf8Runes p := by
  rw [utf8Runes_cons, decodeRune_of_lt hb]; rfl

theorem utf8Runes_append_of_ascii {t : Bytes} (ht : ∀ a ∈ t, a.toNat < 0x80) (u : Bytes) :
    utf8Runes (t ++ u) = t.map (fun a => (a.toNat, 1)) ++ utf8Runes u := by
  induction t with
  | nil => rfl
  | cons a t ih =>
    rw [List.cons_append, utf8Runes_cons_of_lt (ht a (List.mem_cons_self a t)),
      ih fun x hx => ht x (List.mem_cons_of_mem a hx)]
    rfl

theorem seqLen_eq_one_iff (b : Nat) : seqLen b = 1 ↔ b < 0x80 := by
  unfold seqLen; split_ifs <;> simp <;> omega

theorem tailOk_length {b0 : Nat} {ts : Bytes} (h : tailOk b0 ts) : ts.length + 1 = seqLen b0 := by
  simp only [tailOk, Bool.and_eq_true, decide_eq_true_eq] at h
  exact h.1

theorem tailOk_cons {b0 : Nat} {t : UInt8} {rest : Bytes} (h : tailOk b0 (t :: rest)) :
    rest.length + 2 = seqLen b0 ∧ acceptLo b0 ≤ t.toNat ∧ t.toNat ≤ acceptHi b0 ∧
      rest.all isCont := by
  simp only [tailOk, Bool.and_eq_true, decide_eq_true_eq, List.length_cons] at h
  exact ⟨h.1, h.2.1.1, h.2.1.2, h.2.2⟩

theorem accept_range {b t : Nat} (hlo : acceptLo b ≤ t) (hhi : t ≤ acceptHi b) :
    0x80 ≤ t ∧ t ≤ 0xBF ∧ (b = 0xE0 → 0xA0 ≤ t) ∧ (b = 0xF0 → 0x90 ≤ t) := by
  unfold acceptLo at hlo
  unfold acceptHi at hhi
  split_ifs at hlo hhi <;> omega

theorem tailOk_all_isCont {b0 : Nat} {ts : Bytes} (h : tailOk b0 ts) : ts.all isCont := by
  rcases ts with _ | ⟨t, rest⟩
  · rfl
  · obtain ⟨-, hlo, hhi, hc⟩ := tailOk_cons h
    have := accept_range hlo hhi
    simp only [List.all_cons, hc, Bool.and_true, isCont, Bool.and_eq_true, decide_eq_true_eq]
    omega

theorem seqLen_cases {b k : Nat} (h : k + 2 = seqLen b) :
    (k = 0 ∧ 0xC2 ≤ b ∧ b < 0xE0) ∨ (k = 1 ∧ 0xE0 ≤ b ∧ b < 0xF0) ∨
      (k = 2 ∧ 0xF0 ≤ b ∧ b < 0xF5) := by
  unfold seqLen at h
  split_ifs at h <;> omega

/-- A multi-byte encoding never decodes to an ASCII code point. -/
theorem runeValue_ge {b0 : Nat} {ts : Bytes} (hb : 0x80 ≤ b0) (h : tailOk b0 ts) :
    0x80 ≤ runeValue b0 ts := by
  rcases ts with _ | ⟨t, rest⟩
  · have := (seqLen_eq_one_iff b0).1 (tailOk_length h).symm
    omega
  · obtain ⟨hl, hlo, hhi, -⟩ := tailOk_cons h
    have ht := accept_range hlo hhi
    rcases seqLen_cases hl with ⟨hk, hr⟩ | ⟨hk, hr⟩ | ⟨hk, hr⟩ <;>
      rcases rest with _ | ⟨t2, _ | ⟨t3, _ | ⟨t4, rest⟩⟩⟩ <;>
      simp only [List.length_cons, List.length_nil] at hk <;>
      first
      | omega
      | simp only [runeValue, List.foldl, List.length_cons, List.length_nil]
        omega

theorem take_takeWhile_of_all {α : Type} {P : α → Bool} {p : List α} {k : Nat}
    (h : (p.take k).all P) : (p.takeWhile P).take k = p.take k := by
  induction p generalizing k with
  | nil => simp
  | cons a p ih =>
    cases k with
    | zero => simp
    | succ k =>
      simp only [List.take_succ_cons, List.all_cons, Bool.and_eq_true] at h
      simp [List.takeWhile_cons, h.1, ih h.2]

theorem take_takeWhile_of_length {α : Type} {P : α → Bool} {p : List α} {k : Nat}
    (h : ((p.takeWhile P).take k).length = k) : (p.takeWhile P).take k = p.take k := by
  conv_rhs => rw [← List.takeWhile_append_dropWhile P p]
  rw [List.take_append_of_le_length (by simp at h; omega)]

/-- `DecodeRune` looks no further than the continuation bytes after the leading byte. -/
theorem decodeRune_takeWhile (b : UInt8) (p : Bytes) :
    decodeRune (b :: p) = decodeRune (b :: p.takeWhile isCont) := by
  set k := seqLen b.toNat - 1
  have key : tailOk b.toNat ((p.takeWhile isCont).take k) ∨ tailOk b.toNat (p.take k) →
      (p.takeWhile isCont).take k = p.take k := by
    rintro (h | h)
    · exact take_takeWhile_of_length (by have := tailOk_length h; omega)
    · exact take_takeWhile_of_all (tailOk_all_isCont h)
  simp only [decodeRune]
  by_cases h1 : seqLen b.toNat = 1
  · simp only [h1, if_true]
  · by_cases h : tailOk b.toNat (p.take k)
    · rw [if_neg h1, if_neg h1, if_pos h, key (.inr h), if_pos h]
    · have h' : ¬tailOk b.toNat ((p.takeWhile isCont).take k) := fun h' => h (key (.inl h') ▸ h')
      rw [if_neg h1, if_neg h1, if_neg h, if_neg h']

/-- From a non-ASCII byte, `DecodeRune` returns a non-ASCII rune and consumes only
continuation bytes after it. -/
theorem decodeRune_of_ge {b : UInt8} (hb : 0x80 ≤ b.toNat) (p : Bytes) :
    0x80 ≤ (decodeRune (b :: p)).1 ∧ 1 ≤ (decodeRune (b :: p)).2 ∧
      (decodeRune (b :: p)).2 - 1 ≤ (p.takeWhile isCont).length := by
  have h1 : seqLen b.toNat ≠ 1 := fun h => by rw [seqLen_eq_one_iff] at h; omega
  simp only [decodeRune]
  rw [if_neg h1]
  split_ifs with h
  · have hk := tailOk_length h
    have htw := take_takeWhile_of_all (tailOk_all_isCont h)
    refine ⟨runeValue_ge hb h, by omega, ?_⟩
    have : ((p.takeWhile isCont).take (seqLen b.toNat - 1)).length = seqLen b.toNat - 1 := by
      rw [htw]; omega
    simp only [List.length_take] at this
    omega
  · exact ⟨by simp [runeError], le_refl 1, by simp⟩

theorem takeWhile_append_of_head {α : Type} {P : α → Bool} (s : List α) {t : List α}
    (ht : ∀ a ∈ t.head?, P a = false) : (s ++ t).takeWhile P = s.takeWhile P := by
  induction s with
  | nil => cases t <;> simp_all
  | cons a s ih => simp [List.takeWhile_cons, ih]

/-! ### Substituting ASCII bytes -/

/-- A byte substitution that keeps every non-ASCII byte and writes an ASCII byte `b` as a
non-empty string of ASCII bytes whose codes are `g b`. -/
structure AsciiSubst (f : UInt8 → Bytes) (g : Nat → List Nat) : Prop where
  high : ∀ b : UInt8, 0x80 ≤ b.toNat → f b = [b]
  low_ne : ∀ b : UInt8, b.toNat < 0x80 → f b ≠ []
  low_ascii : ∀ b : UInt8, b.toNat < 0x80 → ∀ a ∈ f b, a.toNat < 0x80
  low_codes : ∀ b : UInt8, b.toNat < 0x80 → (f b).map UInt8.toNat = g b.toNat

/-- The same substitution on runes: an ASCII rune `r` becomes the runes `g r`. -/
def liftRune (g : Nat → List Nat) (r : Nat × Nat) : List (Nat × Nat) :=
  if r.1 < 0x80 then (g r.1).map fun a => (a, 1) else [r]

namespace AsciiSubst

variable {f : UInt8 → Bytes} {g : Nat → List Nat}

theorem takeWhile_flatMap (hf : AsciiSubst f g) (s : Bytes) :
    (s.flatMap f).takeWhile isCont = s.takeWhile isCont := by
  induction s with
  | nil => rfl
  | cons b s ih =>
    rw [List.flatMap_cons]
    by_cases hb : b.toNat < 0x80
    · obtain ⟨a, l, hfb⟩ := List.exists_cons_of_ne_nil (hf.low_ne b hb)
      have ha := hf.low_ascii b hb a (by simp [hfb])
      have hc : ∀ x : UInt8, x.toNat < 0x80 → isCont x = false := by
        intro x hx; simp [isCont]; omega
      simp [hfb, List.takeWhile_cons, hc a ha, hc b hb]
    · rw [hf.high b (by omega), List.singleton_append, List.takeWhile_cons,
        List.takeWhile_cons, ih]

theorem flatMap_drop (hf : AsciiSubst f g) :
    ∀ (p : Bytes) (j : Nat), j ≤ (p.takeWhile isCont).length →
      (p.flatMap f).drop j = (p.drop j).flatMap f
  | _, 0, _ => rfl
  | [], _ + 1, _ => rfl
  | b :: p, j + 1, hj => by
    rw [List.takeWhile_cons] at hj
    split_ifs at hj with hb
    · have : 0x80 ≤ b.toNat := by simp [isCont] at hb; omega
      rw [List.flatMap_cons, hf.high b this, List.singleton_append, List.drop_succ_cons,
        List.drop_succ_cons, flatMap_drop hf p j (by simpa using hj)]
    · simp at hj

/-- Substituting ASCII bytes substitutes ASCII runes and leaves every other rune, invalid
bytes included, as it was. -/
theorem utf8Runes_flatMap (hf : AsciiSubst f g) (s : Bytes) :
    utf8Runes (s.flatMap f) = (utf8Runes s).flatMap (liftRune g) := by
  induction s using dropInduction with
  | nil => rfl
  | cons b p ih =>
    rw [List.flatMap_cons]
    by_cases hb : b.toNat < 0x80
    · rw [utf8Runes_append_of_ascii (hf.low_ascii b hb), utf8Runes_cons_of_lt hb,
        List.flatMap_cons, ← List.drop_zero p, ih 0, liftRune, if_pos hb,
        ← hf.low_codes b hb, List.map_map]
      rfl
    · have hb' : 0x80 ≤ b.toNat := by omega
      obtain ⟨hr, -, hk⟩ := decodeRune_of_ge hb' p
      have hd : decodeRune (b :: p.flatMap f) = decodeRune (b :: p) := by
        rw [decodeRune_takeWhile, hf.takeWhile_flatMap, ← decodeRune_takeWhile]
      rw [hf.high b hb', List.singleton_append, utf8Runes_cons, hd, hf.flatMap_drop p _ hk,
        ih, utf8Runes_cons, List.flatMap_cons, liftRune, if_neg (by omega)]
      rfl

end AsciiSubst

/-! ### Appending -/

/-- Appending a string that does not start with a continuation byte appends its runes. -/
theorem utf8Runes_append (s : Bytes) {t : Bytes} (ht : ∀ a ∈ t.head?, isCont a = false) :
    utf8Runes (s ++ t) = utf8Runes s ++ utf8Runes t := by
  induction s using dropInduction with
  | nil => rfl
  | cons b p ih =>
    by_cases hb : b.toNat < 0x80
    · rw [List.cons_append, utf8Runes_cons_of_lt hb, utf8Runes_cons_of_lt hb,
        ← List.drop_zero p, ih 0]
      rfl
    · obtain ⟨-, -, hk⟩ := decodeRune_of_ge (show 0x80 ≤ b.toNat by omega) p
      have hd : decodeRune (b :: (p ++ t)) = decodeRune (b :: p) := by
        rw [decodeRune_takeWhile, takeWhile_append_of_head p ht, ← decodeRune_takeWhile]
      have hlen : (p.takeWhile isCont).length ≤ p.length := (List.takeWhile_prefix isCont).length_le
      rw [List.cons_append, utf8Runes_cons, hd, List.drop_append_of_le_length (by omega), ih,
        utf8Runes_cons]
      rfl

theorem checkUTF8_nil : checkUTF8 [] = true := rfl

theorem checkUTF8_cons (b : UInt8) (p : Bytes) :
    checkUTF8 (b :: p) = (!((decodeRune (b :: p)).1 == runeError && (decodeRune (b :: p)).2 == 1)
      && checkUTF8 (p.drop ((decodeRune (b :: p)).2 - 1))) := by
  rw [checkUTF8, utf8Runes_cons, List.all_cons]; rfl

theorem checkUTF8_cons_of_lt {b : UInt8} (hb : b.toNat < 0x80) (p : Bytes) :
    checkUTF8 (b :: p) = checkUTF8 p := by
  have : (b.toNat == runeError) = false := by simp [runeError]; omega
  rw [checkUTF8_cons, decodeRune_of_lt hb]
  simp [this]

/-- A string split at an ASCII byte is valid exactly when both sides are. -/
theorem checkUTF8_append_ascii (s : Bytes) {a : UInt8} (ha : a.toNat < 0x80) (t : Bytes) :
    checkUTF8 (s ++ a :: t) = (checkUTF8 s && checkUTF8 t) := by
  have hc : isCont a = false := by simp [isCont]; omega
  rw [checkUTF8, utf8Runes_append s (by simpa using hc), List.all_append, ← checkUTF8,
    ← checkUTF8, checkUTF8_cons_of_lt ha]

/-! ### Valid strings -/

theorem decodeRune_width {b : UInt8} {p : Bytes} (h : decodeRune (b :: p) ≠ (runeError, 1)) :
    (decodeRune (b :: p)).2 = seqLen b.toNat := by
  simp only [decodeRune] at h ⊢
  split_ifs at h ⊢ with h1
  · exact h1.symm
  · rfl
  · exact absurd rfl h

theorem decodeRune_width_le (b : UInt8) (p : Bytes) : (decodeRune (b :: p)).2 - 1 ≤ p.length := by
  by_cases hb : b.toNat < 0x80
  · simp [decodeRune_of_lt hb]
  · have := (decodeRune_of_ge (show 0x80 ≤ b.toNat by omega) p).2.2
    have : (p.takeWhile isCont).length ≤ p.length := (List.takeWhile_prefix isCont).length_le
    omega

theorem decodeRune_take {b : UInt8} {p : Bytes} {j : Nat} (hj : seqLen b.toNat - 1 ≤ j) :
    decodeRune (b :: p.take j) = decodeRune (b :: p) := by
  simp only [decodeRune, List.take_take, Nat.min_eq_left hj]

/-- A complete rune is read the same whatever follows it. -/
theorem decodeRune_append {b : UInt8} {p : Bytes} (h : decodeRune (b :: p) ≠ (runeError, 1))
    (t : Bytes) : decodeRune (b :: (p ++ t)) = decodeRune (b :: p) := by
  simp only [decodeRune] at h ⊢
  by_cases h1 : seqLen b.toNat = 1
  · simp only [h1, if_true]
  · rw [if_neg h1] at h ⊢
    rw [if_neg h1]
    by_cases h2 : tailOk b.toNat (p.take (seqLen b.toNat - 1))
    · have hk := tailOk_length h2
      rw [List.take_append_of_le_length (by simp only [List.length_take] at hk; omega)]
    · rw [if_neg h2] at h
      exact absurd rfl h

/-- The rune read from the front of a string, followed by anything. -/
theorem utf8Runes_cons_take_append {b : UInt8} {p : Bytes} (h : decodeRune (b :: p) ≠ (runeError, 1))
    (t : Bytes) : utf8Runes (b :: (p.take ((decodeRune (b :: p)).2 - 1) ++ t)) =
      decodeRune (b :: p) :: utf8Runes t := by
  have hj := decodeRune_width_le b p
  have hd : decodeRune (b :: p.take ((decodeRune (b :: p)).2 - 1)) = decodeRune (b :: p) :=
    decodeRune_take (by rw [decodeRune_width h])
  have hne : decodeRune (b :: p.take ((decodeRune (b :: p)).2 - 1)) ≠ (runeError, 1) := by
    rw [hd]; exact h
  rw [utf8Runes_cons, decodeRune_append hne, hd,
    List.drop_left' (by simp only [List.length_take]; omega)]

theorem checkUTF8_iff (s : Bytes) :
    checkUTF8 s = true ↔ ∀ r ∈ utf8Runes s, r ≠ (runeError, 1) := by
  simp only [checkUTF8, List.all_eq_true]
  refine forall₂_congr fun r _ => ?_
  simp [Prod.ext_iff, imp_iff_not_or]

/-- Removing ASCII bytes from a valid string leaves it valid. -/
theorem checkUTF8_filter {a : UInt8} (ha : a.toNat < 0x80) (s : Bytes) (hs : checkUTF8 s) :
    checkUTF8 (s.filter (· ≠ a)) := by
  induction s using dropInduction with
  | nil => rfl
  | cons b p ih =>
    by_cases hb : b.toNat < 0x80
    · rw [checkUTF8_cons_of_lt hb, ← List.drop_zero p] at hs
      by_cases hba : b = a
      · simpa [hba] using ih 0 hs
      · simpa [hba, checkUTF8_cons_of_lt hb] using ih 0 hs
    · rw [checkUTF8_iff, utf8Runes_cons] at hs
      have h := hs _ (List.mem_cons_self _ _)
      have hrest : checkUTF8 (p.drop ((decodeRune (b :: p)).2 - 1)) :=
        (checkUTF8_iff _).2 fun r hr => hs r (List.mem_cons_of_mem _ hr)
      set j := (decodeRune (b :: p)).2 - 1
      have htake : (p.take j).filter (· ≠ a) = p.take j := by
        refine List.filter_eq_self.2 fun x hx => decide_eq_true fun hxa => ?_
        have hj : j ≤ (p.takeWhile isCont).length :=
          (decodeRune_of_ge (show 0x80 ≤ b.toNat by omega) p).2.2
        rw [← @take_takeWhile_of_length _ isCont p j (by simp only [List.length_take]; omega)] at hx
        have hc := List.mem_takeWhile_imp (List.mem_of_mem_take hx)
        simp only [isCont, Bool.and_eq_true, decide_eq_true_eq] at hc
        rw [hxa] at hc
        omega
      have hba : b ≠ a := by rintro rfl; omega
      rw [← List.take_append_drop j p, List.filter_cons_of_pos (by simpa using hba),
        List.filter_append, htake, checkUTF8_iff, utf8Runes_cons_take_append h]
      rintro r (_ | ⟨_, hr⟩)
      · exact h
      · exact (checkUTF8_iff _).1 (ih j hrest) r hr

theorem intercalate_cons_cons {α : Type} (a : α) (u v : List α) (vs : List (List α)) :
    [a].intercalate (u :: v :: vs) = u ++ a :: [a].intercalate (v :: vs) := by
  simp [List.intercalate]

/-- Every piece of a valid string split at an ASCII byte is valid. -/
theorem checkUTF8_of_mem_splitOn {a : UInt8} (ha : a.toNat < 0x80) {s t : Bytes}
    (hs : checkUTF8 s) (ht : t ∈ s.splitOn a) : checkUTF8 t := by
  rw [← List.intercalate_splitOn s a] at hs
  generalize s.splitOn a = ts at hs ht
  induction ts with
  | nil => simp at ht
  | cons u us ih =>
    rcases us with _ | ⟨v, vs⟩
    · simp_all [List.intercalate]
    · rw [intercalate_cons_cons, checkUTF8_append_ascii u ha, Bool.and_eq_true] at hs
      rcases List.mem_cons.1 ht with rfl | ht
      · exact hs.1
      · exact ih hs.2 ht

end Utf8
end GoFdo
