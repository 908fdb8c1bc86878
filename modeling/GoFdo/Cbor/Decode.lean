import GoFdo.Cbor.Codec

/-!
# Decoding into Go types

Modelled from the spec: the `cbor` package of go-fdo is not among the sources.
`cbor.NewDecoder(r).Decode(&v)` reads the next item of the stream `r` and stores it in `v` by
`v`'s Go type, leaving the bytes after the item in the stream. `decodeNext` reads the item
with the codec's decoder and converts it with one function per Go type; an item of another
major type than the Go type takes is an `unexpectedType` error.

`decodeNext_encode_eq` reads back every well-formed item the encoder writes, into any Go
type, as the type's conversion of the item, and leaves what follows; `decodeNext_nil` says
that an empty stream is an `eof`.
-/

namespace GoFdo
namespace Cbor

/-- The major type of an item. -/
def Item.major : Item → Nat
  | .uint _ => 0
  | .nint _ => 1
  | .bytes _ => 2
  | .text _ => 3
  | .array _ => 4
  | .map _ => 5
  | .bool _ => 7
  | .null => 7

/-- `Decode` into a Go type whose items `conv` converts: the value, and the stream after the
item. -/
def decodeNext {α : Type} (conv : Item → Except Error α) (r : Bytes) :
    Except Error (α × Bytes) := do
  let (x, r) ← decodeItem r.length r
  let a ← conv x
  pure (a, r)

/-! ## Go types -/

namespace Item

/-- A `[]byte`. -/
def toBytes : Item → Except Error Bytes
  | .bytes b => .ok b
  | x => .error (.unexpectedType x.major)

/-- A `string`. -/
def toText : Item → Except Error Bytes
  | .text s => .ok s
  | x => .error (.unexpectedType x.major)

/-- A `bool`. -/
def toBool : Item → Except Error Bool
  | .bool b => .ok b
  | x => .error (.unexpectedType x.major)

/-- A `uint`, 64 bits wide, which every argument of a head fits. -/
def toUint : Item → Except Error Nat
  | .uint n => .ok n
  | x => .error (.unexpectedType x.major)

/-- An `int64`. -/
def toInt64 : Item → Except Error Int
  | .uint n => if n < 2 ^ 63 then .ok n else .error (.overflow n)
  | .nint n => .ok (-1 - n)
  | x => .error (.unexpectedType x.major)

/-- A `[]string`. -/
def toTexts : Item → Except Error (List Bytes)
  | .array xs => xs.mapM toText
  | x => .error (.unexpectedType x.major)

end Item

/-! ## Reading back what was written -/

theorem decodeNext_encode_eq {α : Type} (conv : Item → Except Error α) {x : Item}
    (hwf : x.wf = true) (rest : Bytes) :
    decodeNext conv (x.encode ++ rest) = (conv x).map fun a => (a, rest) := by
  have hx := decodeItem_encode_of_le hwf (by simp : x.encode.length ≤ (x.encode ++ rest).length)
    rest
  simp only [decodeNext, hx, bind, Except.bind]
  cases conv x <;> rfl

theorem decodeNext_encode {α : Type} {conv : Item → Except Error α} {x : Item} {a : α}
    (hwf : x.wf = true) (h : conv x = .ok a) (rest : Bytes) :
    decodeNext conv (x.encode ++ rest) = .ok (a, rest) := by
  rw [decodeNext_encode_eq conv hwf rest, h]
  rfl

theorem decodeNext_nil {α : Type} (conv : Item → Except Error α) :
    decodeNext conv [] = .error .eof := rfl

section Texts

variable {ss : List Bytes}

theorem wfList_map_text : Item.wfList (ss.map .text) = true ↔ ∀ s ∈ ss, s.length < 2 ^ 64 := by
  induction ss with
  | nil => simp [Item.wfList]
  | cons s ss ih => simp [Item.wfList, Item.wf, ih]

theorem wf_array_text :
    (Item.array (ss.map .text)).wf = true ↔ ss.length < 2 ^ 64 ∧ ∀ s ∈ ss, s.length < 2 ^ 64 := by
  simp [Item.wf, wfList_map_text]

theorem toTexts_map_text : Item.toTexts (.array (ss.map .text)) = .ok ss := by
  induction ss with
  | nil => rfl
  | cons s ss ih =>
    simp only [Item.toTexts, List.map_cons, List.mapM_cons, Item.toText] at ih ⊢
    rw [ih]
    rfl

end Texts

end Cbor
end GoFdo
