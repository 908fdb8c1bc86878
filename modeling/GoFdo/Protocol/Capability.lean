import GoFdo.Cbor.Decode

/-!
# Capability flags

`capability_flags.go` gives the capability flags of the TO0, TO1 and TO2 messages: a byte
string of flags, whose first byte holds bit 0 for delegate support, and an open list of
vendor strings. They are written flat, as items of the enclosing message with no array of
their own. `FlatMarshalCBOR` writes the flags, then the vendor strings only when there are
some. `FlatUnmarshalCBOR` reads the flags, then tries to read the vendor strings and drops a
failure.

The reads of a `[]byte` and a `[]string` are those of `GoFdo.Cbor.Decode`, modelled from
the spec.

`flatUnmarshalCBOR_flatMarshalCBOR` reads back what was written, into any receiver: the flags
and a non-empty vendor list come back, and an empty vendor list leaves the receiver's own list
in place, since the second read fails at the end of the input and the failure is dropped.
Into the zero value this is a round trip (`flatUnmarshalCBOR_zero`), so the encoding is
injective (`flatMarshalCBOR_injective`). The encoding does not delimit itself: a reader
that is handed more than the flags takes a following array of strings as the vendor list
(`flatUnmarshalCBOR_absorbs`).
-/

namespace GoFdo
namespace Protocol

open Cbor

/-- `capabilityFlags`: the flag bytes and the vendor-unique strings. -/
structure CapabilityFlags where
  flags : Bytes
  vendorUnique : List Bytes
  deriving DecidableEq, Repr

/-- `DelegateSupportFlag`. -/
def delegateSupportFlag : UInt8 := 1

/-- `CapabilityFlags`: the flags this implementation declares, delegate support alone. -/
def capabilityFlags : CapabilityFlags := ⟨[delegateSupportFlag], []⟩

/-! ## Writing -/

/-- The vendor strings as `Encode` writes a `[]string`: an array of text strings. -/
def vendorItem (vendorUnique : List Bytes) : Item := .array (vendorUnique.map .text)

/-- `FlatMarshalCBOR`: the flags, then the vendor strings when there are any. Encoding a
byte string or a list of strings cannot fail, so the model gives the bytes written. -/
def CapabilityFlags.flatMarshalCBOR (f : CapabilityFlags) : Bytes :=
  (Item.bytes f.flags).encode ++
    if 0 < f.vendorUnique.length then (vendorItem f.vendorUnique).encode else []

/-- Flags and vendor strings whose lengths fit a head, so that the codec reads them back. -/
def CapabilityFlags.wf (f : CapabilityFlags) : Bool :=
  (Item.bytes f.flags).wf && (vendorItem f.vendorUnique).wf

example : capabilityFlags.flatMarshalCBOR = [0x41, 0x01] := rfl

/-! ## Reading -/

/-- `FlatUnmarshalCBOR` on the receiver `f`: the receiver after the call. A failed read of
the vendor strings is dropped and leaves them as they were; what stays in the stream after
the call is not modelled. -/
def CapabilityFlags.flatUnmarshalCBOR (f : CapabilityFlags) (r : Bytes) :
    Except Error CapabilityFlags := do
  let (flags, r) ← decodeNext Item.toBytes r
  match decodeNext Item.toTexts r with
  | .ok (vendorUnique, _) => pure ⟨flags, vendorUnique⟩
  | .error _ => pure { f with flags }

/-! ## Reading back what was written -/

section RoundTrip

variable {g : CapabilityFlags} {fl : Bytes} {rest : Bytes}

/-- After well-formed flags, a read of the vendor strings that succeeds sets them. -/
theorem flatUnmarshalCBOR_of_ok (hfl : fl.length < 2 ^ 64) {vu : List Bytes} {r : Bytes}
    (h : decodeNext Item.toTexts rest = .ok (vu, r)) :
    g.flatUnmarshalCBOR ((Item.bytes fl).encode ++ rest) = .ok ⟨fl, vu⟩ := by
  simp only [CapabilityFlags.flatUnmarshalCBOR,
    decodeNext_encode (by simpa [Item.wf] using hfl : (Item.bytes fl).wf = true)
      (rfl : Item.toBytes (.bytes fl) = .ok fl) rest, bind, Except.bind, h]
  rfl

/-- After well-formed flags, a read of the vendor strings that fails keeps the receiver's. -/
theorem flatUnmarshalCBOR_of_error (hfl : fl.length < 2 ^ 64) {e : Error}
    (h : decodeNext Item.toTexts rest = .error e) :
    g.flatUnmarshalCBOR ((Item.bytes fl).encode ++ rest) = .ok ⟨fl, g.vendorUnique⟩ := by
  simp only [CapabilityFlags.flatUnmarshalCBOR,
    decodeNext_encode (by simpa [Item.wf] using hfl : (Item.bytes fl).wf = true)
      (rfl : Item.toBytes (.bytes fl) = .ok fl) rest, bind, Except.bind, h]
  rfl

variable {f : CapabilityFlags}

theorem CapabilityFlags.wf_iff :
    f.wf = true ↔ f.flags.length < 2 ^ 64 ∧ (vendorItem f.vendorUnique).wf = true := by
  simp [CapabilityFlags.wf, Item.wf]

/-- The vendor strings as written read back, to the end of the input. -/
theorem decodeNext_vendorItem {vu : List Bytes} (hvu : (vendorItem vu).wf = true) :
    decodeNext Item.toTexts (vendorItem vu).encode = .ok (vu, []) := by
  simpa only [List.append_nil] using decodeNext_encode hvu toTexts_map_text []

/-- `FlatUnmarshalCBOR` reads back what `FlatMarshalCBOR` wrote, into any receiver: the
flags, and the vendor strings when there were some; with none, the receiver keeps its own. -/
theorem flatUnmarshalCBOR_flatMarshalCBOR (hwf : f.wf = true) (g : CapabilityFlags) :
    g.flatUnmarshalCBOR f.flatMarshalCBOR =
      .ok (if 0 < f.vendorUnique.length then f else { f with vendorUnique := g.vendorUnique }) := by
  obtain ⟨hfl, hvu⟩ := CapabilityFlags.wf_iff.mp hwf
  rw [CapabilityFlags.flatMarshalCBOR]
  split_ifs
  · rw [flatUnmarshalCBOR_of_ok hfl (decodeNext_vendorItem hvu)]
  · rw [flatUnmarshalCBOR_of_error hfl (decodeNext_nil Item.toTexts)]

theorem flatUnmarshalCBOR_flatMarshalCBOR_reused :
    capabilityFlags.wf = true ∧
      (⟨[0], [ascii "com.example.test"]⟩ : CapabilityFlags).flatUnmarshalCBOR
          capabilityFlags.flatMarshalCBOR =
        .ok (if 0 < capabilityFlags.vendorUnique.length then capabilityFlags
          else { capabilityFlags with vendorUnique := [ascii "com.example.test"] }) :=
  ⟨by decide, flatUnmarshalCBOR_flatMarshalCBOR (by decide) _⟩

/-- Into the zero value, `FlatUnmarshalCBOR` undoes `FlatMarshalCBOR`. -/
theorem flatUnmarshalCBOR_zero (hwf : f.wf = true) :
    (⟨[], []⟩ : CapabilityFlags).flatUnmarshalCBOR f.flatMarshalCBOR = .ok f := by
  obtain ⟨hfl, hvu⟩ := CapabilityFlags.wf_iff.mp hwf
  rw [CapabilityFlags.flatMarshalCBOR]
  split_ifs with h
  · rw [flatUnmarshalCBOR_of_ok hfl (decodeNext_vendorItem hvu)]
  · rw [flatUnmarshalCBOR_of_error hfl (decodeNext_nil Item.toTexts),
      ← List.length_eq_zero.mp (Nat.eq_zero_of_not_pos h)]

/-- `FlatMarshalCBOR` is injective on well-formed flags. -/
theorem flatMarshalCBOR_injective {f' : CapabilityFlags} (hwf : f.wf = true)
    (hwf' : f'.wf = true) (h : f.flatMarshalCBOR = f'.flatMarshalCBOR) : f = f' := by
  have h' := flatUnmarshalCBOR_zero hwf'
  rw [← h, flatUnmarshalCBOR_zero hwf] at h'
  exact Except.ok.inj h'

theorem flatMarshalCBOR_injective_capabilityFlags :
    capabilityFlags.wf = true ∧ capabilityFlags.flatMarshalCBOR = capabilityFlags.flatMarshalCBOR ∧
      capabilityFlags = capabilityFlags :=
  ⟨by decide, rfl, flatMarshalCBOR_injective (by decide) (by decide) rfl⟩

/-- The flat encoding does not delimit itself: with no vendor strings written, a reader
handed more than the flags takes a following array of strings as the vendor list. -/
theorem flatUnmarshalCBOR_absorbs (hwf : f.wf = true) (hf : f.vendorUnique = [])
    {vu : List Bytes} (hvu : (vendorItem vu).wf = true) (g : CapabilityFlags) :
    g.flatUnmarshalCBOR (f.flatMarshalCBOR ++ (vendorItem vu).encode) = .ok ⟨f.flags, vu⟩ := by
  rw [CapabilityFlags.flatMarshalCBOR, hf, if_neg (by simp), List.append_nil,
    flatUnmarshalCBOR_of_ok (CapabilityFlags.wf_iff.mp hwf).1 (decodeNext_vendorItem hvu)]

/-- `VendorUniqueFlags` after the flags this implementation declares. -/
theorem flatUnmarshalCBOR_absorbs_vendorUniqueFlags :
    capabilityFlags.wf = true ∧ capabilityFlags.vendorUnique = [] ∧
      (vendorItem [ascii "com.example.test"]).wf = true ∧
      (⟨[], []⟩ : CapabilityFlags).flatUnmarshalCBOR
          (capabilityFlags.flatMarshalCBOR ++ (vendorItem [ascii "com.example.test"]).encode) =
        .ok ⟨capabilityFlags.flags, [ascii "com.example.test"]⟩ :=
  ⟨by decide, rfl, by decide, flatUnmarshalCBOR_absorbs (by decide) rfl (by decide) _⟩

end RoundTrip

end Protocol
end GoFdo
