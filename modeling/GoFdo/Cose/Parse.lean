import GoFdo.Cose.Header
import GoFdo.Cbor.Decode

/-!
# Reading typed values out of a header

`HeaderMap.Parse` fetches the value under a label, marshals it back to CBOR and unmarshals it
into the Go type the caller asks for; `Header.Algorithm` uses it to read the `int64` under
`alg` from the protected map. A missing value and a `nil` one, which is what a CBOR `null`
decodes to, are both reported as unset.

`parse_item` says what `Parse` gives for a well-formed value: the target type's conversion of
that very item, so the marshal and unmarshal in between lose nothing. From it,
`algorithm_eq_algorithmSpec` shows that `Header.Algorithm` returns what its comment promises,
the number under `alg` when there is one in the range of `int64`, else `0`; and
`algorithm_unmarshalCBOR_marshalCBOR` that the algorithm a header names survives being written
and read back.
-/

namespace GoFdo
namespace Cose

open Cbor

/-- `HeaderMap.Parse(l, v)`, with `v` pointing to a Go type whose items `conv` converts: whether
the label is set, and either the error or what is stored in `v` (`none` when nothing is). -/
def HeaderMap.parse {α : Type} (hm : HeaderMap) (l : Label) (conv : Item → Except Cbor.Error α) :
    Bool × Except Cbor.Error (Option α) :=
  match hm.lookup l with
  | none => (false, .ok none)
  | some (.item .null) => (false, .ok none)
  | some v =>
    match marshal v with
    | .error e => (true, .error e)
    | .ok data => (true, ((unmarshal data).bind conv).map some)

/-- `Header.Algorithm`: the `int64` that `Parse` reads under `alg` from the protected map, and
`0` when it fails; `id` keeps its zero value when the label is unset. -/
def Header.algorithm (hdr : Header) : Int :=
  match (hdr.protectedMap.parse algLabel Item.toInt64).2 with
  | .ok (some id) => id
  | _ => 0

/-- What the comment of `Header.Algorithm` says it returns for the value stored under `alg`:
the ID when the value is a number that fits an `int64`, else `0`. -/
def algorithmSpec : Option Value → Int
  | some (.item (.uint n)) => if n < 2 ^ 63 then n else 0
  | some (.item (.nint n)) => -1 - n
  | _ => 0

section Parse

variable {α : Type} {hm : HeaderMap} {l : Label} (conv : Item → Except Cbor.Error α)

theorem parse_none (h : hm.lookup l = none) : hm.parse l conv = (false, .ok none) := by
  simp only [HeaderMap.parse, h]

theorem parse_func (h : hm.lookup l = some .func) :
    hm.parse l conv = (true, .error .unsupportedType) := by
  simp only [HeaderMap.parse, h, marshal]

/-- A set, well-formed value is read as the target type's conversion of the item itself. -/
theorem parse_item {x : Item} (h : hm.lookup l = some (.item x)) (hx : x ≠ .null)
    (hwf : x.wf = true) : hm.parse l conv = (true, (conv x).map some) := by
  have hu : unmarshal x.encode = .ok x := by
    simpa only [List.append_nil] using unmarshal_encode hwf []
  cases x <;> first
    | exact absurd rfl hx
    | simp only [HeaderMap.parse, h, marshal, hu, Except.bind]

end Parse

/-- `Header.Algorithm` returns the number set under `alg` in the protected map when it fits an
`int64`, and `0` when none is set or the value is not such a number. -/
theorem algorithm_eq_algorithmSpec (hdr : Header)
    (hwf : ∀ x, hdr.protectedMap.lookup algLabel = some (.item x) → x.wf = true) :
    hdr.algorithm = algorithmSpec (hdr.protectedMap.lookup algLabel) := by
  cases h : hdr.protectedMap.lookup algLabel with
  | none => simp only [Header.algorithm, parse_none _ h, algorithmSpec]
  | some v =>
    cases v with
    | func => simp only [Header.algorithm, parse_func _ h, algorithmSpec]
    | item x =>
      by_cases hx : x = .null
      · subst hx
        simp only [Header.algorithm, HeaderMap.parse, h, algorithmSpec]
      · rw [Header.algorithm, parse_item _ h hx (hwf _ h)]
        cases x <;> simp only [Item.toInt64, algorithmSpec] <;> (try split_ifs) <;> rfl

theorem algorithm_eq_algorithmSpec_es256 :
    (∀ x, es256Header.protectedMap.lookup algLabel = some (.item x) → x.wf = true) ∧
      es256Header.algorithm = algorithmSpec (es256Header.protectedMap.lookup algLabel) :=
  have hwf : ∀ x, es256Header.protectedMap.lookup algLabel = some (.item x) → x.wf = true :=
    fun x hx => by
      rw [es256Header, AList.lookup, AList.singleton_entries, List.dlookup_cons_eq] at hx
      cases hx
      rfl
  ⟨hwf, algorithm_eq_algorithmSpec es256Header hwf⟩

example : es256Header.algorithm = -7 := rfl

/-- The algorithm a header names is the one named by the header `Header.UnmarshalCBOR` reads
back from what `Header.MarshalCBOR` wrote. -/
theorem algorithm_unmarshalCBOR_marshalCBOR {hdr hdr' : Header} (hgood : hdr.Good) {b : Bytes}
    (hb : hdr.marshalCBOR = .ok b) (hlen : b.length < 2 ^ 64)
    (hdec : Header.unmarshalCBOR b = .ok hdr') : hdr'.algorithm = hdr.algorithm := by
  obtain ⟨d, hd, hp, -⟩ := unmarshalCBOR_marshalCBOR hgood hb hlen
  rw [hdec, Except.ok.injEq] at hd
  subst hd
  simp only [Header.algorithm, HeaderMap.parse, hp]

theorem algorithm_unmarshalCBOR_marshalCBOR_es256 :
    es256Header.Good ∧ es256Header.marshalCBOR = .ok [0x82, 0x43, 0xa1, 0x01, 0x26, 0xa0] ∧
      [0x82, 0x43, 0xa1, 0x01, 0x26, 0xa0].length < 2 ^ 64 ∧
      Header.unmarshalCBOR [0x82, 0x43, 0xa1, 0x01, 0x26, 0xa0] = .ok es256Header ∧
      es256Header.algorithm = -7 :=
  ⟨es256Header_good, rfl, by decide, rfl,
    (algorithm_unmarshalCBOR_marshalCBOR es256Header_good rfl (by decide) rfl).trans rfl⟩

end Cose
end GoFdo
