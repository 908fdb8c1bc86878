import GoFdo.Cbor.Codec

/-!
# COSE headers

`Header` of `cose/header.go`: the protected and unprotected header maps of the COSE
structures. `Header.MarshalCBOR` marshals every value into raw bytes (`newRawHeaderMap`), then
writes the pair `[protected, unprotected]`: the protected map serialized, emptied when it is
the empty map (`omitEmpty`) and wrapped in a byte string, the unprotected map as it is. The
labels are marshalled as the maps are written, through `Label.MarshalCBOR`.
`Header.UnmarshalCBOR` reads the pair back and decodes every raw value into an `any`.

For a label whose `Int64` is zero, `Label.MarshalCBOR` hands `cbor.Marshal` the method value
`l.String` where the result of `l.String()` is meant. A function has no CBOR form, so no
header with such a label can be marshalled (`marshalCBOR_zero_label`), although
`Label.UnmarshalCBOR` reads text labels. For headers whose labels are integers the codec is a
round trip both ways, the empty protected map included (`unmarshalCBOR_marshalCBOR`,
`marshalCBOR_unmarshalCBOR`).

A Go map is an `AList`: a `range` loop visits its entries in the order of `entries`, which
Go leaves unspecified; the results proved here do not depend on it.
-/

namespace GoFdo
namespace Cose

open Cbor

/-- `Label`: an `int64` or a string. -/
@[ext] structure Label where
  /-- `Int64`; zero is reserved, and stands for a text label. -/
  int64 : Int
  /-- `Str`. -/
  str : Bytes
  int64_range : -2 ^ 63 ≤ int64 ∧ int64 < 2 ^ 63
  deriving DecidableEq

/-- `AlgLabel`. -/
def algLabel : Label := ⟨1, [], by decide⟩

/-- `strconv.FormatInt(i, 10)`. -/
def formatInt (i : Int) : Bytes := ascii (toString i)

/-- `Label.String`: the decimal digits of a positive `Int64`, else `Str`. -/
def Label.string (l : Label) : Bytes := if 0 < l.int64 then formatInt l.int64 else l.str

/-- A Go value handed to `cbor.Marshal`: a data item, or a function. -/
inductive Value where
  /-- A value with a CBOR form. -/
  | item (x : Item)
  /-- A function value, such as the method value `l.String`. -/
  | func
  deriving Repr

/-- `cbor.Marshal(v)`. Modelled from the spec: the codec writes data items; a function has no
CBOR form, and marshalling one is an error. -/
def marshal : Value → Except Cbor.Error Bytes
  | .item x => .ok x.encode
  | .func => .error .unsupportedType

/-- `Label.MarshalCBOR`. For a zero `Int64` it marshals `l.String`, the method value. -/
def Label.marshalCBOR (l : Label) : Except Cbor.Error Bytes :=
  if l.int64 ≠ 0 then marshal (.item (.ofInt l.int64)) else marshal .func

/-- The errors of the header codec. -/
inductive Error where
  /-- An error of `cbor.Marshal` or `cbor.Unmarshal`. -/
  | cbor (e : Cbor.Error)
  /-- `unexpected label type: %T`, with the decoded value whose type it names. -/
  | unexpectedLabelType (v : Item)
  /-- `error serializing header value for label %s: %w`. -/
  | serializingValue (label : Bytes) (e : Cbor.Error)
  /-- `error decoding protected value for %s: %w`. -/
  | decodingProtected (label : Bytes) (e : Cbor.Error)
  /-- `error decoding unprotected value for %s: %w`. -/
  | decodingUnprotected (label : Bytes) (e : Cbor.Error)
  deriving Repr

/-- `Label.UnmarshalCBOR`: an `int64` or a string. Modelled from the spec: an unsigned integer
past the range of `int64` decodes into an `any` as a `uint64`, which is neither. -/
def Label.unmarshalCBOR (b : Bytes) : Except Error Label :=
  match unmarshal b with
  | .error e => .error (.cbor e)
  | .ok (.uint n) =>
    if h : n < 2 ^ 63 then .ok ⟨n, [], by omega⟩ else .error (.unexpectedLabelType (.uint n))
  | .ok (.nint n) =>
    if h : n < 2 ^ 63 then .ok ⟨-1 - n, [], by omega⟩
    else .error (.unexpectedLabelType (.nint n))
  | .ok (.text s) => .ok ⟨0, s, by decide⟩
  | .ok v => .error (.unexpectedLabelType v)

/-- `HeaderMap`: labels to values. -/
abbrev HeaderMap := AList fun _ : Label => Value

/-- `rawHeaderMap`: labels to the marshalled bytes of their values. -/
abbrev RawHeaderMap := AList fun _ : Label => Bytes

/-- `Header`. -/
structure Header where
  /-- `Protected`. -/
  protectedMap : HeaderMap
  /-- `Unprotected`. -/
  unprotectedMap : HeaderMap

/-! ## Marshalling -/

/-- One turn of the loops of `newRawHeaderMap` and `Header.UnmarshalCBOR`: the value of `e`
converted by `f` and stored under its label; a failure names the label. -/
def storeValue {ν μ : Type} (f : ν → Except Cbor.Error μ) (wrap : Bytes → Cbor.Error → Error)
    (m : AList fun _ : Label => μ) (e : (_ : Label) × ν) :
    Except Error (AList fun _ : Label => μ) :=
  match f e.2 with
  | .ok y => .ok (m.insert e.1 y)
  | .error err => .error (wrap e.1.string err)

/-- The loops of `newRawHeaderMap` and `Header.UnmarshalCBOR`: every value of a map converted
by `f`, into a new map. -/
def mapValues {ν μ : Type} (f : ν → Except Cbor.Error μ) (wrap : Bytes → Cbor.Error → Error)
    (m : AList fun _ : Label => ν) : Except Error (AList fun _ : Label => μ) :=
  m.entries.foldlM (storeValue f wrap) ∅

/-- `newRawHeaderMap`: the values marshalled, each under its label. -/
def newRawHeaderMap (unmarshaled : HeaderMap) : Except Error RawHeaderMap :=
  mapValues marshal .serializingValue unmarshaled

/-- `newEmptyOrSerializedMap`: the raw map, which `Header.MarshalCBOR` writes as a
`cbor.Bstr[omitEmpty[rawHeaderMap]]`. -/
def newEmptyOrSerializedMap (unmarshaled : HeaderMap) : Except Error RawHeaderMap :=
  newRawHeaderMap unmarshaled

/-- An entry of a `rawHeaderMap` as `cbor.Marshal` writes it: the label through
`Label.MarshalCBOR`, the value's bytes as they are. -/
def marshalEntry (e : (_ : Label) × Bytes) : Except Cbor.Error (Bytes × Bytes) := do
  let k ← e.1.marshalCBOR
  pure (k, e.2)

/-- `cbor.Marshal` of a `rawHeaderMap`: its entries, in the encoder's order. -/
def marshalRawHeaderMap (m : RawHeaderMap) : Except Cbor.Error Bytes := do
  let es ← m.entries.mapM marshalEntry
  pure (encodeMap es)

/-- `omitEmpty.MarshalCBOR`, given the encoding of `o.Val`: the one-byte encoding of a zero
value (`0`, or an empty byte string, text string, array or map) becomes no bytes. -/
def omitEmpty : Bytes → Bytes
  | [x] => if x = 0x00 ∨ x = 0x40 ∨ x = 0x60 ∨ x = 0x80 ∨ x = 0xa0 then [] else [x]
  | b => b

/-- `cbor.Marshal(cborHeader{...})`: a struct is written as the array of its fields; the
protected map is serialized, passed through `omitEmpty` and wrapped in a byte string
(`cbor.Bstr`). -/
def marshalCborHeader (protectedHeader unprotectedHeader : RawHeaderMap) :
    Except Cbor.Error Bytes := do
  let p ← marshalRawHeaderMap protectedHeader
  let u ← marshalRawHeaderMap unprotectedHeader
  pure (head 4 2 ++ (Item.bytes (omitEmpty p)).encode ++ u)

/-- `Header.MarshalCBOR`. -/
def Header.marshalCBOR (hdr : Header) : Except Error Bytes := do
  let protectedHeader ← newEmptyOrSerializedMap hdr.protectedMap
  let unprotectedHeader ← newRawHeaderMap hdr.unprotectedMap
  (marshalCborHeader protectedHeader unprotectedHeader).mapError .cbor

/-! ## Unmarshalling -/

/-- Reads `k` entries of a `rawHeaderMap` into `m`: each key through `Label.UnmarshalCBOR`,
each value as raw bytes (`cbor.RawBytes`); an entry replaces one with the same label. -/
def decodeRawEntries : Nat → RawHeaderMap → Bytes → Except Error (RawHeaderMap × Bytes)
  | 0, m, b => .ok (m, b)
  | k + 1, m, b => do
    let (kb, b) ← (rawItem b).mapError .cbor
    let l ← Label.unmarshalCBOR kb
    let (v, b) ← (rawItem b).mapError .cbor
    decodeRawEntries k (m.insert l v) b

/-- Reads a `rawHeaderMap`: a map head, then its entries. -/
def decodeRawHeaderMap (b : Bytes) : Except Error (RawHeaderMap × Bytes) := do
  let (major, n, b) ← (decodeHead b).mapError .cbor
  if major = 5 then decodeRawEntries n ∅ b else .error (.cbor (.unexpectedType major))

/-- `cbor.Unmarshal(b, &m)` for a `rawHeaderMap` `m`, which `omitEmpty.UnmarshalCBOR` calls on
the contents of the protected byte string. Modelled from the spec: empty input leaves `m`
the empty map, since the empty protected map, written as a zero-length byte string, must read
back as the empty map (§4.1). -/
def unmarshalRawHeaderMap (b : Bytes) : Except Error RawHeaderMap :=
  if b = [] then .ok ∅ else (decodeRawHeaderMap b).map Prod.fst

/-- `cbor.Unmarshal(b, &hdrCbor)`: the array of the two fields; the protected map is read from
the contents of a byte string (`cbor.Bstr`). -/
def unmarshalCborHeader (b : Bytes) : Except Error (RawHeaderMap × RawHeaderMap) := do
  let (major, n, b) ← (decodeHead b).mapError .cbor
  if major ≠ 4 then throw (.cbor (.unexpectedType major))
  if n ≠ 2 then throw (.cbor (.fieldCount n))
  let (major, n, b) ← (decodeHead b).mapError .cbor
  if major ≠ 2 then throw (.cbor (.unexpectedType major))
  let (serialized, b) ← (takeBytes n b).mapError .cbor
  let p ← unmarshalRawHeaderMap serialized
  let (u, _) ← decodeRawHeaderMap b
  pure (p, u)

/-- The loop of `Header.UnmarshalCBOR` over the protected map. -/
def decodeProtected (raw : RawHeaderMap) : Except Error HeaderMap :=
  mapValues (fun b => (unmarshal b).map .item) .decodingProtected raw

/-- The loop of `Header.UnmarshalCBOR` over the unprotected map. -/
def decodeUnprotected (raw : RawHeaderMap) : Except Error HeaderMap :=
  mapValues (fun b => (unmarshal b).map .item) .decodingUnprotected raw

/-- `Header.UnmarshalCBOR`. -/
def Header.unmarshalCBOR (b : Bytes) : Except Error Header := do
  let (p, u) ← unmarshalCborHeader b
  let protectedMap ← decodeProtected p
  let unprotectedMap ← decodeUnprotected u
  pure ⟨protectedMap, unprotectedMap⟩

/-! ## Maps built in a loop -/

section Loops

variable {ν μ : Type}

theorem nodupKeys_tail {e : (_ : Label) × ν} {es : List ((_ : Label) × ν)}
    (h : (e :: es).NodupKeys) : es.dlookup e.1 = none ∧ es.NodupKeys :=
  ⟨List.dlookup_eq_none.mpr (List.not_mem_keys_of_nodupKeys_cons h), (List.nodupKeys_cons.mp h).2⟩

/-- The map that the assignments `m[e.1] = e.2` of a loop over `es` leave in `acc`. -/
theorem lookup_foldl_insert (l : Label) : ∀ (es : List ((_ : Label) × μ))
    (acc : AList fun _ : Label => μ), es.NodupKeys →
    (es.foldl (fun m e => m.insert e.1 e.2) acc).lookup l = (es.dlookup l).or (acc.lookup l)
  | [], _, _ => rfl
  | ⟨k, v⟩ :: es, acc, h => by
    rw [List.foldl_cons, lookup_foldl_insert l es _ (nodupKeys_tail h).2]
    by_cases hl : l = k
    · subst hl
      rw [(nodupKeys_tail h).1, List.dlookup_cons_eq, AList.lookup_insert]
      rfl
    · rw [List.dlookup_cons_ne es ⟨k, v⟩ hl, AList.lookup_insert_ne hl]

/-- When `f` converts every value, the loop of `mapValues` leaves in `acc` each value
converted, under its label. -/
theorem foldlM_storeValue {f : ν → Except Cbor.Error μ} {wrap : Bytes → Cbor.Error → Error} :
    ∀ (es : List ((_ : Label) × ν)) (acc : AList fun _ : Label => μ),
    es.NodupKeys → (∀ e ∈ es, ∃ y, f e.2 = .ok y) →
    ∃ m, es.foldlM (storeValue f wrap) acc = .ok m ∧
      ∀ l, m.lookup l = ((es.dlookup l).bind fun v => (f v).toOption).or (acc.lookup l)
  | [], acc, _, _ => ⟨acc, rfl, fun _ => rfl⟩
  | ⟨k, v⟩ :: es, acc, h, hf => by
    obtain ⟨y, hy⟩ := hf ⟨k, v⟩ (List.mem_cons_self _ _)
    obtain ⟨m, hm, hl⟩ := foldlM_storeValue es (acc.insert k y) (nodupKeys_tail h).2
      fun e he => hf e (List.mem_cons_of_mem _ he)
    refine ⟨m, by rw [List.foldlM_cons, storeValue, hy]; exact hm, fun l => ?_⟩
    rw [hl]
    by_cases hlk : l = k
    · subst hlk
      rw [(nodupKeys_tail h).1, List.dlookup_cons_eq, AList.lookup_insert, Option.some_bind, hy]
      rfl
    · rw [List.dlookup_cons_ne es ⟨k, v⟩ hlk, AList.lookup_insert_ne hlk]

/-- `mapValues` converts every value of the map, when `f` converts each of them. -/
theorem mapValues_lookup {f : ν → Except Cbor.Error μ} {wrap : Bytes → Cbor.Error → Error}
    {m : AList fun _ : Label => ν} (hf : ∀ e ∈ m.entries, ∃ y, f e.2 = .ok y) :
    ∃ m', mapValues f wrap m = .ok m' ∧
      ∀ l, m'.lookup l = (m.lookup l).bind fun v => (f v).toOption := by
  obtain ⟨m', hm, hl⟩ := foldlM_storeValue m.entries ∅ m.nodupKeys hf
  exact ⟨m', hm, fun l => by rw [hl, AList.lookup_empty, Option.or_none]; rfl⟩

end Loops

/-! ## Labels -/

/-- A label the codec reads back as itself: a non-zero `Int64` and an empty `Str`. -/
def Label.IsInt (l : Label) : Prop := l.int64 ≠ 0 ∧ l.str = []

/-- The bytes `Label.MarshalCBOR` writes for a label with a non-zero `Int64`. -/
def labelBytes (l : Label) : Bytes := (Item.ofInt l.int64).encode

theorem Label.marshalCBOR_of_ne {l : Label} (h : l.int64 ≠ 0) :
    l.marshalCBOR = .ok (labelBytes l) := by
  rw [Label.marshalCBOR, if_pos h]
  rfl

theorem Label.marshalCBOR_of_eq {l : Label} (h : l.int64 = 0) :
    l.marshalCBOR = .error .unsupportedType := by
  rw [Label.marshalCBOR, if_neg (not_not.mpr h)]
  rfl

theorem wf_ofInt (l : Label) : (Item.ofInt l.int64).wf = true := by
  have := l.int64_range
  unfold Item.ofInt
  split_ifs <;> simp only [Item.wf, decide_eq_true_eq] <;> omega

theorem Label.unmarshalCBOR_labelBytes {l : Label} (h : l.IsInt) :
    Label.unmarshalCBOR (labelBytes l) = .ok l := by
  have hr := l.int64_range
  have hu := unmarshal_encode (wf_ofInt l) []
  rw [List.append_nil] at hu
  rw [Label.unmarshalCBOR, labelBytes, hu]
  by_cases h0 : 0 ≤ l.int64
  · rw [show Item.ofInt l.int64 = .uint l.int64.toNat from if_pos h0]
    simp only
    rw [dif_pos (by omega)]
    exact congrArg Except.ok (Label.ext (by simp only; omega) h.2.symm)
  · rw [show Item.ofInt l.int64 = .nint (-1 - l.int64).toNat from if_neg h0]
    simp only
    rw [dif_pos (by omega)]
    exact congrArg Except.ok (Label.ext (by simp only; omega) h.2.symm)

theorem labelBytes_inj {l l' : Label} (hl : l.IsInt) (hl' : l'.IsInt)
    (h : labelBytes l = labelBytes l') : l = l' := by
  have := Label.unmarshalCBOR_labelBytes hl
  rw [h, Label.unmarshalCBOR_labelBytes hl'] at this
  exact (Except.ok.inj this).symm

/-! ## Labels with a zero `Int64` -/

section Monadic

variable {α β ε : Type} {f : α → Except ε β} {e : ε}

theorem mapM_error_or_ok : ∀ {as : List α}, (∀ a ∈ as, f a = .error e ∨ ∃ b, f a = .ok b) →
    as.mapM f = .error e ∨ ∃ bs, as.mapM f = .ok bs
  | [], _ => .inr ⟨[], rfl⟩
  | a :: as, h => by
    rw [List.mapM_cons]
    rcases h a (List.mem_cons_self _ _) with ha | ⟨b, hb⟩
    · exact .inl (by rw [ha]; rfl)
    · rcases mapM_error_or_ok fun x hx => h x (List.mem_cons_of_mem _ hx) with hs | ⟨bs, hs⟩
      · exact .inl (by rw [hb, hs]; rfl)
      · exact .inr ⟨b :: bs, by rw [hb, hs]; rfl⟩

theorem mapM_eq_error : ∀ {as : List α}, (∀ a ∈ as, f a = .error e ∨ ∃ b, f a = .ok b) →
    (∃ a ∈ as, f a = .error e) → as.mapM f = .error e
  | [], _, ⟨_, ha, _⟩ => absurd ha (List.not_mem_nil _)
  | a :: as, h, ⟨a', ha', he⟩ => by
    rw [List.mapM_cons]
    rcases h a (List.mem_cons_self _ _) with ha | ⟨b, hb⟩
    · rw [ha]
      rfl
    · have ht : ∃ x ∈ as, f x = .error e := by
        rcases List.mem_cons.mp ha' with rfl | ha'
        · rw [hb] at he
          cases he
        · exact ⟨a', ha', he⟩
      rw [hb, mapM_eq_error (fun x hx => h x (List.mem_cons_of_mem _ hx)) ht]
      rfl

end Monadic

theorem marshalEntry_cases (e : (_ : Label) × Bytes) :
    marshalEntry e = .error .unsupportedType ∨ ∃ w, marshalEntry e = .ok w := by
  by_cases h : e.1.int64 = 0
  · exact .inl (by rw [marshalEntry, Label.marshalCBOR_of_eq h]; rfl)
  · exact .inr ⟨_, by rw [marshalEntry, Label.marshalCBOR_of_ne h]; rfl⟩

theorem marshalRawHeaderMap_error_or_ok (m : RawHeaderMap) :
    marshalRawHeaderMap m = .error .unsupportedType ∨ ∃ b, marshalRawHeaderMap m = .ok b := by
  rcases mapM_error_or_ok fun e (_ : e ∈ m.entries) => marshalEntry_cases e with h | ⟨es, h⟩
  · exact .inl (by rw [marshalRawHeaderMap, h]; rfl)
  · exact .inr ⟨_, by rw [marshalRawHeaderMap, h]; rfl⟩

theorem marshalRawHeaderMap_zero {m : RawHeaderMap} {l : Label} (hl : l.int64 = 0) (hm : l ∈ m) :
    marshalRawHeaderMap m = .error .unsupportedType := by
  obtain ⟨v, hv⟩ := List.mem_keys.mp (AList.mem_keys.mp hm)
  have h := mapM_eq_error (fun e (_ : e ∈ m.entries) => marshalEntry_cases e)
    ⟨⟨l, v⟩, hv, by rw [marshalEntry, Label.marshalCBOR_of_eq hl]; rfl⟩
  rw [marshalRawHeaderMap, h]
  rfl

/-- `newRawHeaderMap` marshals every value of a map of data items, under the same labels. -/
theorem newRawHeaderMap_items {m : HeaderMap} (h : ∀ e ∈ m.entries, ∃ x, e.2 = .item x) :
    ∃ r, newRawHeaderMap m = .ok r ∧ ∀ l, r.lookup l = (m.lookup l).bind fun v => (marshal v).toOption :=
  mapValues_lookup fun e he => by
    obtain ⟨x, hx⟩ := h e he
    exact ⟨x.encode, by rw [hx]; rfl⟩

theorem mem_of_lookup_bind {m : HeaderMap} {r : RawHeaderMap}
    (h : ∀ e ∈ m.entries, ∃ x, e.2 = .item x)
    (hr : ∀ l, r.lookup l = (m.lookup l).bind fun v => (marshal v).toOption) {l : Label}
    (hl : l ∈ m) : l ∈ r := by
  obtain ⟨v, hv⟩ := Option.isSome_iff_exists.mp (AList.lookup_isSome.mpr hl)
  obtain ⟨x, rfl⟩ := h ⟨l, v⟩ (AList.mem_lookup_iff.mp hv)
  rw [← AList.lookup_isSome, hr, hv]
  rfl

/-- A header whose values are data items and one of whose labels has a zero `Int64` cannot be
marshalled: writing the maps reaches `Label.MarshalCBOR` for that label, which hands
`cbor.Marshal` a function. -/
theorem marshalCBOR_zero_label (hdr : Header)
    (hval : ∀ e ∈ hdr.protectedMap.entries ++ hdr.unprotectedMap.entries, ∃ x, e.2 = .item x)
    (l : Label) (hl : l.int64 = 0) (hmem : l ∈ hdr.protectedMap ∨ l ∈ hdr.unprotectedMap) :
    hdr.marshalCBOR = .error (.cbor .unsupportedType) := by
  have hp : ∀ e ∈ hdr.protectedMap.entries, ∃ x, e.2 = .item x :=
    fun e he => hval e (List.mem_append_left _ he)
  have hu : ∀ e ∈ hdr.unprotectedMap.entries, ∃ x, e.2 = .item x :=
    fun e he => hval e (List.mem_append_right _ he)
  obtain ⟨rp, hrp, hlp⟩ := newRawHeaderMap_items hp
  obtain ⟨ru, hru, hlu⟩ := newRawHeaderMap_items hu
  have hmarshal : marshalCborHeader rp ru = .error .unsupportedType := by
    rcases hmem with hm | hm
    · rw [marshalCborHeader, marshalRawHeaderMap_zero hl (mem_of_lookup_bind hp hlp hm)]
      rfl
    · rcases marshalRawHeaderMap_error_or_ok rp with h | ⟨b, h⟩
      · rw [marshalCborHeader, h]
        rfl
      · rw [marshalCborHeader, h, marshalRawHeaderMap_zero hl (mem_of_lookup_bind hu hlu hm)]
        rfl
  rw [Header.marshalCBOR, newEmptyOrSerializedMap, hrp, hru]
  show (marshalCborHeader rp ru).mapError _ = _
  rw [hmarshal]
  rfl

/-- A header with a key identifier under the text label `kid`. -/
def kidHeader : Header :=
  ⟨AList.singleton ⟨0, ascii "kid", by decide⟩ (.item (.bytes [1, 2])), ∅⟩

theorem marshalCBOR_zero_label_kid : kidHeader.marshalCBOR = .error (.cbor .unsupportedType) :=
  marshalCBOR_zero_label kidHeader (fun e he => by
    simp only [kidHeader, AList.singleton_entries, AList.empty_entries, List.append_nil,
      List.mem_singleton] at he
    exact ⟨_, by rw [he]⟩) ⟨0, ascii "kid", by decide⟩ rfl (.inl (by decide))

/-! ## Headers with integer labels -/

/-- A header map that the codec round-trips: integer labels, and values that are well-formed
data items. -/
abbrev GoodMap (m : HeaderMap) : Prop :=
  ∀ e ∈ m.entries, e.1.IsInt ∧ ∃ x : Item, e.2 = .item x ∧ x.wf = true

/-- A header whose two maps the codec round-trips. -/
def Header.Good (hdr : Header) : Prop := GoodMap hdr.protectedMap ∧ GoodMap hdr.unprotectedMap

/-- A raw map that the codec round-trips: integer labels, and the encodings of well-formed
items as values. -/
abbrev GoodRaw (r : RawHeaderMap) : Prop :=
  ∀ e ∈ r.entries, e.1.IsInt ∧ ∃ x : Item, x.wf = true ∧ e.2 = x.encode

/-- An entry of a raw map with an integer label, as the encoder writes it. -/
def encEntry (e : (_ : Label) × Bytes) : Bytes × Bytes := (labelBytes e.1, e.2)

/-- A property of every entry carries over to a map with the same lookups. -/
theorem forall_entries_of_lookup {β : Type} {P : (_ : Label) × β → Prop}
    {m m' : AList fun _ : Label => β} (hm : ∀ e ∈ m.entries, P e)
    (h : ∀ l, m'.lookup l = m.lookup l) : ∀ e ∈ m'.entries, P e := fun e he =>
  hm e (AList.mem_lookup_iff.mp (h e.1 ▸ AList.mem_lookup_iff.mpr he))

theorem newRawHeaderMap_good {m : HeaderMap} (hm : GoodMap m) :
    ∃ r, newRawHeaderMap m = .ok r ∧ GoodRaw r ∧
      ∀ l, r.lookup l = (m.lookup l).bind fun v => (marshal v).toOption := by
  obtain ⟨r, hr, hl⟩ := newRawHeaderMap_items fun e he => (hm e he).2.imp fun _ h => h.1
  refine ⟨r, hr, fun e he => ?_, hl⟩
  have h := AList.mem_lookup_iff.mpr he
  rw [hl] at h
  obtain ⟨v, hv, hb⟩ := Option.bind_eq_some.mp h
  obtain ⟨hint, x, rfl, hx⟩ := hm ⟨e.1, v⟩ (AList.mem_lookup_iff.mp hv)
  exact ⟨hint, x, hx, (Option.some.inj hb).symm⟩

section Monadic

variable {α β ε : Type} {f : α → Except ε β}

theorem mapM_ok (g : α → β) : ∀ {as : List α}, (∀ a ∈ as, f a = .ok (g a)) →
    as.mapM f = .ok (as.map g)
  | [], _ => rfl
  | a :: as, h => by
    rw [List.mapM_cons, h a (List.mem_cons_self _ _),
      mapM_ok g fun x hx => h x (List.mem_cons_of_mem _ hx)]
    rfl

end Monadic

theorem marshalRawHeaderMap_good {r : RawHeaderMap} (hr : GoodRaw r) :
    marshalRawHeaderMap r = .ok (encodeMap (r.entries.map encEntry)) := by
  rw [marshalRawHeaderMap, mapM_ok encEntry fun e he => by
    rw [marshalEntry, Label.marshalCBOR_of_ne (hr e he).1.1]
    rfl]
  rfl

theorem decodeRawEntries_encode : ∀ (es : List ((_ : Label) × Bytes)) (acc : RawHeaderMap)
    (rest : Bytes), (∀ e ∈ es, e.1.IsInt ∧ ∃ x : Item, x.wf = true ∧ e.2 = x.encode) →
    decodeRawEntries es.length acc (((es.map encEntry).flatMap fun w => w.1 ++ w.2) ++ rest) =
      .ok (es.foldl (fun m e => m.insert e.1 e.2) acc, rest)
  | [], _, _, _ => rfl
  | ⟨l, v⟩ :: es, acc, rest, h => by
    obtain ⟨hl, x, hx, rfl⟩ := h ⟨l, v⟩ (List.mem_cons_self _ _)
    have ih := decodeRawEntries_encode es (acc.insert l x.encode) rest
      fun e he => h e (List.mem_cons_of_mem _ he)
    simp only [List.map_cons, List.flatMap_cons, encEntry, List.append_assoc, List.length_cons,
      decodeRawEntries]
    rw [labelBytes, rawItem_encode (wf_ofInt l)]
    simp only [Except.mapError, bind, Except.bind]
    rw [← labelBytes, Label.unmarshalCBOR_labelBytes hl, rawItem_encode hx]
    exact ih

theorem labelBytes_ne_nil (l : Label) : labelBytes l ≠ [] :=
  List.ne_nil_of_length_pos (Nat.lt_of_lt_of_le (one_le_size _)
    (size_le_length_encode _ (wf_ofInt l)))

/-- The order the encoder writes a raw map's entries in, read on the entries. -/
def EncLe (a b : (_ : Label) × Bytes) : Prop := EntryLe (encEntry a) (encEntry b)

instance : DecidableRel EncLe := fun a b => inferInstanceAs (Decidable (EntryLe (encEntry a) (encEntry b)))

theorem sortEntries_map_encEntry (es : List ((_ : Label) × Bytes)) :
    sortEntries (es.map encEntry) = (es.insertionSort EncLe).map encEntry :=
  (List.map_insertionSort EncLe EntryLe encEntry es fun _ _ _ _ => Iff.rfl).symm

theorem length_le_length_flatMap : ∀ ws : List (Bytes × Bytes), (∀ w ∈ ws, w.1 ≠ []) →
    ws.length ≤ (ws.flatMap fun w => w.1 ++ w.2).length
  | [], _ => le_refl 0
  | w :: ws, h => by
    have h₁ := List.length_pos.mpr (h w (List.mem_cons_self _ _))
    have h₂ := length_le_length_flatMap ws fun v hv => h v (List.mem_cons_of_mem _ hv)
    simp only [List.flatMap_cons, List.length_append, List.length_cons] at h₂ ⊢
    omega

/-- A raw map written by the encoder takes a byte for its head and at least one per entry. -/
theorem length_lt_length_encodeMap {r : RawHeaderMap} :
    r.entries.length < (encodeMap (r.entries.map encEntry)).length := by
  have h := length_le_length_flatMap ((r.entries.insertionSort EncLe).map encEntry)
    fun w hw => by
      obtain ⟨e, -, rfl⟩ := List.mem_map.mp hw
      exact labelBytes_ne_nil e.1
  have := one_le_length_head 5 (r.entries.map encEntry).length
  rw [List.length_map, List.length_insertionSort] at h
  rw [encodeMap, sortEntries_map_encEntry, List.length_append]
  omega

/-- The decoder reads back a raw map the encoder wrote, in the order it was written. -/
theorem decodeRawHeaderMap_encode {r : RawHeaderMap} (hr : GoodRaw r)
    (hn : r.entries.length < 2 ^ 64) (rest : Bytes) :
    ∃ r', decodeRawHeaderMap (encodeMap (r.entries.map encEntry) ++ rest) = .ok (r', rest) ∧
      ∀ l, r'.lookup l = r.lookup l := by
  have hperm := List.perm_insertionSort EncLe r.entries
  have hnd := (List.perm_nodupKeys hperm).mpr r.nodupKeys
  refine ⟨(r.entries.insertionSort EncLe).foldl (fun m e => m.insert e.1 e.2) ∅, ?_, fun l => ?_⟩
  · have hdec := decodeRawEntries_encode (r.entries.insertionSort EncLe) ∅ rest
      fun e he => hr e (hperm.subset he)
    rw [hperm.length_eq] at hdec
    rw [encodeMap, sortEntries_map_encEntry, List.length_map, List.append_assoc,
      decodeRawHeaderMap, decodeHead_head (by omega : 5 < 8) hn (by omega)]
    exact hdec
  · rw [lookup_foldl_insert l _ ∅ hnd, AList.lookup_empty, Option.or_none]
    exact List.perm_dlookup l hnd r.nodupKeys hperm

theorem omitEmpty_of_two_le : ∀ {b : Bytes}, 2 ≤ b.length → omitEmpty b = b
  | _ :: _ :: _, _ => rfl

theorem length_le_length_omitEmpty (r : RawHeaderMap) :
    r.entries.length ≤ (omitEmpty (encodeMap (r.entries.map encEntry))).length := by
  by_cases h : r.entries = []
  · rw [h]
    exact Nat.zero_le _
  · have h₁ := @length_lt_length_encodeMap r
    have h₂ := List.length_pos.mpr h
    rw [omitEmpty_of_two_le (by omega)]
    omega

/-- The protected map reads back from what `omitEmpty` leaves of its encoding: nothing for the
empty map. -/
theorem unmarshalRawHeaderMap_encode {r : RawHeaderMap} (hr : GoodRaw r)
    (hn : r.entries.length < 2 ^ 64) :
    ∃ r', unmarshalRawHeaderMap (omitEmpty (encodeMap (r.entries.map encEntry))) = .ok r' ∧
      ∀ l, r'.lookup l = r.lookup l := by
  by_cases h : r.entries = []
  · refine ⟨∅, ?_, fun l => ?_⟩
    · rw [h]
      rfl
    · rw [AList.lookup_empty, AList.lookup, h]
      rfl
  · have hlen : 2 ≤ (encodeMap (r.entries.map encEntry)).length := by
      have := @length_lt_length_encodeMap r
      have := List.length_pos.mpr h
      omega
    obtain ⟨r', hr', hl⟩ := decodeRawHeaderMap_encode hr hn []
    refine ⟨r', ?_, hl⟩
    rw [omitEmpty_of_two_le hlen, unmarshalRawHeaderMap, if_neg (List.ne_nil_of_length_pos (by omega)),
      ← List.append_nil (encodeMap _), hr']
    rfl

/-- What `Header.MarshalCBOR` writes, once both maps are marshalled into raw maps. -/
theorem marshalCBOR_of_raw {hdr : Header} {rp ru : RawHeaderMap}
    (hp : newRawHeaderMap hdr.protectedMap = .ok rp) (hu : newRawHeaderMap hdr.unprotectedMap = .ok ru)
    (hgp : GoodRaw rp) (hgu : GoodRaw ru) :
    hdr.marshalCBOR = .ok (head 4 2 ++ (Item.bytes (omitEmpty (encodeMap (rp.entries.map encEntry)))).encode ++
      encodeMap (ru.entries.map encEntry)) := by
  rw [Header.marshalCBOR, newEmptyOrSerializedMap, hp, hu]
  show (marshalCborHeader rp ru).mapError _ = _
  rw [marshalCborHeader, marshalRawHeaderMap_good hgp, marshalRawHeaderMap_good hgu]
  rfl

/-- `cbor.Unmarshal` reads back the two raw maps of what `Header.MarshalCBOR` writes. -/
theorem unmarshalCborHeader_encode {rp ru : RawHeaderMap} (hgp : GoodRaw rp) (hgu : GoodRaw ru)
    (hlen : (head 4 2 ++ (Item.bytes (omitEmpty (encodeMap (rp.entries.map encEntry)))).encode ++
      encodeMap (ru.entries.map encEntry)).length < 2 ^ 64) :
    ∃ p u, unmarshalCborHeader (head 4 2 ++
        (Item.bytes (omitEmpty (encodeMap (rp.entries.map encEntry)))).encode ++
        encodeMap (ru.entries.map encEntry)) = .ok (p, u) ∧
      (∀ l, p.lookup l = rp.lookup l) ∧ ∀ l, u.lookup l = ru.lookup l := by
  generalize hP : omitEmpty (encodeMap (rp.entries.map encEntry)) = P at hlen
  have hPlen : P.length < 2 ^ 64 := by simp only [Item.encode, List.length_append] at hlen; omega
  have hpn : rp.entries.length < 2 ^ 64 := by
    have := length_le_length_omitEmpty rp
    rw [hP] at this
    omega
  have hun : ru.entries.length < 2 ^ 64 := by
    have := @length_lt_length_encodeMap ru
    simp only [List.length_append] at hlen
    omega
  obtain ⟨p, hp, hlp⟩ := unmarshalRawHeaderMap_encode hgp hpn
  obtain ⟨u, hu, hlu⟩ := decodeRawHeaderMap_encode hgu hun []
  rw [hP] at hp
  refine ⟨p, u, ?_, hlp, hlu⟩
  rw [Item.encode, List.append_assoc, List.append_assoc, unmarshalCborHeader,
    decodeHead_head (by omega : 4 < 8) (by omega) (by omega)]
  rw [List.append_nil] at hu
  simp only [Except.mapError, bind, Except.bind, ne_eq, not_true_eq_false, if_false, pure,
    Except.pure]
  rw [decodeHead_head (by omega : 2 < 8) hPlen (by omega)]
  simp only [ne_eq, not_true_eq_false, if_false, takeBytes_append, hp, hu]

/-- The loop of `Header.UnmarshalCBOR` decodes every value of a raw map the encoder wrote. -/
theorem mapValues_unmarshal {r : RawHeaderMap} (hr : GoodRaw r)
    (wrap : Bytes → Cbor.Error → Error) :
    ∃ m, mapValues (fun b => (unmarshal b).map Value.item) wrap r = .ok m ∧
      ∀ l, m.lookup l = (r.lookup l).bind fun b => ((unmarshal b).map Value.item).toOption :=
  mapValues_lookup fun e he => by
    obtain ⟨-, x, hx, he2⟩ := hr e he
    exact ⟨.item x, by rw [he2, ← List.append_nil x.encode, unmarshal_encode hx]; rfl⟩

theorem lookup_marshal_unmarshal {m : HeaderMap} (hm : GoodMap m) (l : Label) :
    (((m.lookup l).bind fun v => (marshal v).toOption).bind
      fun b => ((unmarshal b).map Value.item).toOption) = m.lookup l := by
  cases hv : m.lookup l with
  | none => rfl
  | some v =>
    obtain ⟨-, x, rfl, hx⟩ := hm ⟨l, v⟩ (AList.mem_lookup_iff.mp hv)
    show ((unmarshal x.encode).map Value.item).toOption = some (.item x)
    rw [← List.append_nil x.encode, unmarshal_encode hx]
    rfl

/-- `Header.MarshalCBOR` succeeds on every header with integer labels and well-formed
values. -/
theorem marshalCBOR_good {hdr : Header} (hgood : hdr.Good) : ∃ b, hdr.marshalCBOR = .ok b := by
  obtain ⟨rp, hp, hgp, -⟩ := newRawHeaderMap_good hgood.1
  obtain ⟨ru, hu, hgu, -⟩ := newRawHeaderMap_good hgood.2
  exact ⟨_, marshalCBOR_of_raw hp hu hgp hgu⟩

example : (Header.mk (AList.singleton algLabel (.item (.nint 6))) ∅).marshalCBOR =
    .ok [0x82, 0x43, 0xa1, 0x01, 0x26, 0xa0] := rfl

/-- `Header.UnmarshalCBOR` reads back from what `Header.MarshalCBOR` writes, for a header with
integer labels and well-formed values, the same labels with the same values in both maps. -/
theorem unmarshalCBOR_marshalCBOR {hdr : Header} (hgood : hdr.Good) {b : Bytes}
    (hb : hdr.marshalCBOR = .ok b) (hlen : b.length < 2 ^ 64) :
    ∃ hdr', Header.unmarshalCBOR b = .ok hdr' ∧
      (∀ l, hdr'.protectedMap.lookup l = hdr.protectedMap.lookup l) ∧
      ∀ l, hdr'.unprotectedMap.lookup l = hdr.unprotectedMap.lookup l := by
  obtain ⟨rp, hp, hgp, hlp⟩ := newRawHeaderMap_good hgood.1
  obtain ⟨ru, hu, hgu, hlu⟩ := newRawHeaderMap_good hgood.2
  rw [marshalCBOR_of_raw hp hu hgp hgu, Except.ok.injEq] at hb
  subst hb
  obtain ⟨p, u, hpu, hp', hu'⟩ := unmarshalCborHeader_encode hgp hgu hlen
  obtain ⟨dp, hdp, hldp⟩ := mapValues_unmarshal (forall_entries_of_lookup hgp hp')
    .decodingProtected
  obtain ⟨du, hdu, hldu⟩ := mapValues_unmarshal (forall_entries_of_lookup hgu hu')
    .decodingUnprotected
  refine ⟨⟨dp, du⟩, ?_, fun l => ?_, fun l => ?_⟩
  · simp only [Header.unmarshalCBOR, hpu, decodeProtected, decodeUnprotected, hdp, hdu, bind,
      Except.bind]
    rfl
  · rw [hldp, hp', hlp, lookup_marshal_unmarshal hgood.1]
  · rw [hldu, hu', hlu, lookup_marshal_unmarshal hgood.2]

/-- Raw maps with the same lookups are written alike. -/
theorem encodeMap_congr {r r' : RawHeaderMap} (hr : GoodRaw r) (h : ∀ l, r'.lookup l = r.lookup l) :
    encodeMap (r'.entries.map encEntry) = encodeMap (r.entries.map encEntry) := by
  have hperm : r'.entries.Perm r.entries := List.lookup_ext r'.nodupKeys r.nodupKeys fun l y => by
    show y ∈ r'.lookup l ↔ y ∈ r.lookup l
    rw [h l]
  have hr' : GoodRaw r' := forall_entries_of_lookup hr h
  refine encodeMap_perm (hperm.map encEntry) ?_
  have hkeys : (r'.entries.map encEntry).map Prod.fst = r'.keys.map labelBytes := by
    simp only [List.map_map, AList.keys, List.keys]
    rfl
  rw [hkeys]
  refine r'.keys_nodup.map_on fun a ha b hb hab => ?_
  obtain ⟨va, hva⟩ := List.mem_keys.mp ha
  obtain ⟨vb, hvb⟩ := List.mem_keys.mp hb
  exact labelBytes_inj (hr' _ hva).1 (hr' _ hvb).1 hab

/-- Headers with integer labels and well-formed values that map the same labels to the same
values are written alike: the output does not depend on the order of the maps' entries. -/
theorem marshalCBOR_congr {hdr hdr' : Header} (hgood : hdr.Good)
    (hp : ∀ l, hdr'.protectedMap.lookup l = hdr.protectedMap.lookup l)
    (hu : ∀ l, hdr'.unprotectedMap.lookup l = hdr.unprotectedMap.lookup l) :
    hdr'.marshalCBOR = hdr.marshalCBOR := by
  obtain ⟨rp, hrp, hgp, hlp⟩ := newRawHeaderMap_good hgood.1
  obtain ⟨ru, hru, hgu, hlu⟩ := newRawHeaderMap_good hgood.2
  obtain ⟨rp', hrp', -, hlp'⟩ := newRawHeaderMap_good (forall_entries_of_lookup hgood.1 hp)
  obtain ⟨ru', hru', -, hlu'⟩ := newRawHeaderMap_good (forall_entries_of_lookup hgood.2 hu)
  have ep := encodeMap_congr hgp fun l => by rw [hlp', hlp, hp]
  have eu := encodeMap_congr hgu fun l => by rw [hlu', hlu, hu]
  rw [marshalCBOR_of_raw hrp hru hgp hgu, marshalCBOR_of_raw hrp' hru'
    (forall_entries_of_lookup hgp fun l => by rw [hlp', hlp, hp])
    (forall_entries_of_lookup hgu fun l => by rw [hlu', hlu, hu]), ep, eu]

/-- Re-marshalling a header decoded from what `Header.MarshalCBOR` wrote gives back the same
bytes. -/
theorem marshalCBOR_unmarshalCBOR {hdr hdr' : Header} (hgood : hdr.Good) {b : Bytes}
    (hb : hdr.marshalCBOR = .ok b) (hlen : b.length < 2 ^ 64)
    (hdec : Header.unmarshalCBOR b = .ok hdr') : hdr'.marshalCBOR = .ok b := by
  obtain ⟨d, hd, hp, hu⟩ := unmarshalCBOR_marshalCBOR hgood hb hlen
  rw [hdec, Except.ok.injEq] at hd
  subst hd
  rw [marshalCBOR_congr hgood hp hu, hb]

/-- A header whose protected map sets `alg` to ES256, `-7`. -/
def es256Header : Header := ⟨AList.singleton algLabel (.item (.nint 6)), ∅⟩

theorem es256Header_good : es256Header.Good :=
  ⟨fun e he => by
    simp only [es256Header, AList.singleton_entries, List.mem_singleton] at he
    subst he
    exact ⟨⟨by decide, rfl⟩, _, rfl, rfl⟩,
   fun e he => by cases he⟩

theorem marshalCBOR_unmarshalCBOR_es256 :
    es256Header.Good ∧ es256Header.marshalCBOR = .ok [0x82, 0x43, 0xa1, 0x01, 0x26, 0xa0] ∧
      [0x82, 0x43, 0xa1, 0x01, 0x26, 0xa0].length < 2 ^ 64 ∧
      Header.unmarshalCBOR [0x82, 0x43, 0xa1, 0x01, 0x26, 0xa0] = .ok es256Header ∧
      es256Header.marshalCBOR = .ok [0x82, 0x43, 0xa1, 0x01, 0x26, 0xa0] :=
  ⟨es256Header_good, rfl, by decide, rfl,
    marshalCBOR_unmarshalCBOR es256Header_good rfl (by decide) rfl⟩

end Cose
end GoFdo
