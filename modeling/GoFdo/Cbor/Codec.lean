import GoFdo.Text.Bytes

/-!
# The CBOR codec

Modelled from the spec: the `cbor` package of go-fdo is not among the sources. Its §4.1 asks
for a canonical codec: definite lengths, the shortest head for every integer and length, and
map entries in one deterministic order on output. This module gives the data items that the
COSE header code hands to the codec and gets back from it (what `cbor.Unmarshal` stores in an
`any`), their encoding, and a decoder, and proves that the decoder reads back every
well-formed item the encoder writes and leaves the bytes after it untouched
(`decodeSeq_encodeList`).

The encoder writes map entries in the bytewise order of the keys' encodings (`keyLe`). The
decoder takes a bound on its recursion as fuel; `unmarshal` gives it the input's length,
which is enough, since every item takes at least one byte (`size_le_length_encode`).
-/

namespace GoFdo
namespace Cbor

/-! ## Heads -/

/-- The low `k` bytes of `n`, most significant first. -/
def beBytes : Nat → Nat → Bytes
  | 0, _ => []
  | k + 1, n => beBytes k (n / 256) ++ [(n % 256).toUInt8]

/-- The number that a big-endian byte string stands for. -/
def beValue (b : Bytes) : Nat := b.foldl (fun acc x => acc * 256 + x.toNat) 0

@[simp] theorem length_beBytes (k n : Nat) : (beBytes k n).length = k := by
  induction k generalizing n <;> simp [beBytes, *]

theorem beValue_beBytes (k n : Nat) : beValue (beBytes k n) = n % 256 ^ k := by
  induction k generalizing n with
  | zero => simp [beBytes, beValue, Nat.mod_one]
  | succ k ih =>
    have hx : (n % 256).toUInt8.toNat = n % 256 := UInt8.toNat_ofNat_of_lt (Nat.mod_lt _ (by decide))
    have h := ih (n / 256)
    simp only [beValue, beBytes, List.foldl_append, List.foldl_cons, List.foldl_nil] at h ⊢
    rw [h, hx, pow_succ', Nat.mod_mul]
    omega

/-- The head of a data item of major type `major` and argument `n`, in its shortest form. -/
def head (major n : Nat) : Bytes :=
  if n < 24 then [(32 * major + n).toUInt8]
  else if n < 2 ^ 8 then (32 * major + 24).toUInt8 :: beBytes 1 n
  else if n < 2 ^ 16 then (32 * major + 25).toUInt8 :: beBytes 2 n
  else if n < 2 ^ 32 then (32 * major + 26).toUInt8 :: beBytes 4 n
  else (32 * major + 27).toUInt8 :: beBytes 8 n

/-- The codec's errors. -/
inductive Error where
  /-- The input ends inside an item. -/
  | eof
  /-- Additional information 28 to 31: reserved values, and the indefinite lengths that a
  canonical codec does not use. -/
  | reserved (info : Nat)
  /-- A major-type-7 item other than `false`, `true` and `null`: a float or another simple
  value. -/
  | unsupportedSimple (n : Nat)
  /-- A tag, major type 6. -/
  | unsupportedMajor (major : Nat)
  /-- A negative integer below the range of `int64`. -/
  | overflow (n : Nat)
  /-- The recursion ran out of fuel. -/
  | depth
  /-- An item of another major type than the Go type it is decoded into. -/
  | unexpectedType (major : Nat)
  /-- A struct read from an array with another number of items than it has fields. -/
  | fieldCount (n : Nat)
  /-- Encoding a Go value that has no CBOR form, such as a function. -/
  | unsupportedType
  deriving DecidableEq, Repr

/-- Reads a `k`-byte big-endian argument. -/
def readArg (k : Nat) (b : Bytes) : Except Error (Nat × Bytes) :=
  if k ≤ b.length then .ok (beValue (b.take k), b.drop k) else .error .eof

/-- Splits off the head of a data item: its major type, its argument and the bytes after it.
Arguments of 1, 2, 4 and 8 bytes follow additional information 24 to 27. -/
def decodeHead : Bytes → Except Error (Nat × Nat × Bytes)
  | [] => .error .eof
  | x :: b =>
    if x.toNat % 32 < 24 then .ok (x.toNat / 32, x.toNat % 32, b)
    else if x.toNat / 32 = 7 then .error (.unsupportedSimple (x.toNat % 32))
    else if x.toNat % 32 < 28 then
      (readArg (2 ^ (x.toNat % 32 - 24)) b).map fun (n, b) => (x.toNat / 32, n, b)
    else .error (.reserved (x.toNat % 32))

theorem decodeHead_long {major info n : Nat} (hm : major < 7) (hi : 24 ≤ info ∧ info < 28)
    (hn : n < 256 ^ 2 ^ (info - 24)) (rest : Bytes) :
    decodeHead ((32 * major + info).toUInt8 :: (beBytes (2 ^ (info - 24)) n ++ rest)) =
      .ok (major, n, rest) := by
  have hx : (32 * major + info).toUInt8.toNat = 32 * major + info :=
    UInt8.toNat_ofNat_of_lt (by change _ < 256; omega)
  have hmod : (32 * major + info) % 32 = info := by omega
  have hdiv : (32 * major + info) / 32 = major := by omega
  have hlen : (beBytes (2 ^ (info - 24)) n).length = 2 ^ (info - 24) := length_beBytes _ _
  simp only [decodeHead, hx, hmod, hdiv, readArg, List.length_append, hlen,
    List.take_left' hlen, List.drop_left' hlen, beValue_beBytes, Nat.mod_eq_of_lt hn]
  rw [if_neg (by omega), if_neg (by omega), if_pos hi.2, if_pos (Nat.le_add_right _ _)]
  rfl

theorem decodeHead_head {major n : Nat} (hm : major < 8) (hn : n < 2 ^ 64)
    (h7 : major = 7 → n < 24) (rest : Bytes) :
    decodeHead (head major n ++ rest) = .ok (major, n, rest) := by
  unfold head
  split_ifs with h₀ h₁ h₂ h₃
  · have hx : (32 * major + n).toUInt8.toNat = 32 * major + n :=
      UInt8.toNat_ofNat_of_lt (by change _ < 256; omega)
    have hmod : (32 * major + n) % 32 = n := by omega
    have hdiv : (32 * major + n) / 32 = major := by omega
    simp only [List.singleton_append, decodeHead, hx, hmod, hdiv, if_pos h₀]
  · exact @decodeHead_long major 24 n (by omega) (by omega) (by simpa using h₁) rest
  · exact @decodeHead_long major 25 n (by omega) (by omega) (by simpa using h₂) rest
  · exact @decodeHead_long major 26 n (by omega) (by omega) (by simpa using h₃) rest
  · exact @decodeHead_long major 27 n (by omega) (by omega) (by simpa using hn) rest

/-! ## Data items -/

/-- The data items of the codec: what `cbor.Unmarshal` stores in an `any`, and what
`cbor.Marshal` writes for the values the header code hands it. A map keeps its entries in
the order they were read. -/
inductive Item where
  /-- An unsigned integer, major type 0. -/
  | uint (n : Nat)
  /-- The negative integer `-1 - n`, major type 1. -/
  | nint (n : Nat)
  /-- A byte string, major type 2. -/
  | bytes (b : Bytes)
  /-- A text string, major type 3. -/
  | text (s : Bytes)
  /-- An array, major type 4. -/
  | array (xs : List Item)
  /-- A map, major type 5. -/
  | map (entries : List (Item × Item))
  /-- `false` and `true`, the simple values 20 and 21. -/
  | bool (b : Bool)
  /-- `null`, the simple value 22. -/
  | null
  deriving Repr

/-- The item for a Go integer. -/
def Item.ofInt (i : Int) : Item := if 0 ≤ i then .uint i.toNat else .nint (-1 - i).toNat

/-- `bytes.Compare(a, b) <= 0`: the bytewise order, a proper prefix first. -/
def keyLe : Bytes → Bytes → Bool
  | [], _ => true
  | _ :: _, [] => false
  | x :: a, y :: b => x.toNat < y.toNat || (x.toNat = y.toNat && keyLe a b)

theorem keyLe_total : ∀ a b : Bytes, keyLe a b = true ∨ keyLe b a = true
  | [], _ => .inl rfl
  | _ :: _, [] => .inr rfl
  | x :: a, y :: b => by
    rcases keyLe_total a b with h | h <;> simp only [keyLe, h] <;> simp <;> omega

theorem keyLe_trans : ∀ {a b c : Bytes}, keyLe a b = true → keyLe b c = true → keyLe a c = true
  | [], _, _, _, _ => rfl
  | _ :: _, [], _, h, _ => absurd h (by simp [keyLe])
  | _ :: _, _ :: _, [], _, h => absurd h (by simp [keyLe])
  | x :: a, y :: b, z :: c, h₁, h₂ => by
    simp only [keyLe, Bool.or_eq_true, decide_eq_true_eq, Bool.and_eq_true] at h₁ h₂ ⊢
    rcases h₁ with h₁ | ⟨h₁, h₁'⟩ <;> rcases h₂ with h₂ | ⟨h₂, h₂'⟩
    · omega
    · omega
    · omega
    · exact .inr ⟨h₁.trans h₂, keyLe_trans h₁' h₂'⟩

theorem keyLe_antisymm : ∀ {a b : Bytes}, keyLe a b = true → keyLe b a = true → a = b
  | [], [], _, _ => rfl
  | [], _ :: _, _, h => absurd h (by simp [keyLe])
  | _ :: _, [], h, _ => absurd h (by simp [keyLe])
  | x :: a, y :: b, h₁, h₂ => by
    simp only [keyLe, Bool.or_eq_true, decide_eq_true_eq, Bool.and_eq_true] at h₁ h₂
    rcases h₁ with h₁ | ⟨h₁, h₁'⟩
    · omega
    · rcases h₂ with h₂ | ⟨-, h₂'⟩
      · omega
      · rw [UInt8.toNat.inj h₁, keyLe_antisymm h₁' h₂']

/-- Two encoded entries in the order of their keys. -/
def EntryLe (a b : Bytes × Bytes) : Prop := keyLe a.1 b.1 = true

instance : DecidableRel EntryLe := fun a b => inferInstanceAs (Decidable (keyLe a.1 b.1 = true))

instance : IsTotal (Bytes × Bytes) EntryLe := ⟨fun a b => keyLe_total a.1 b.1⟩

instance : IsTrans (Bytes × Bytes) EntryLe := ⟨fun _ _ _ => keyLe_trans⟩

/-- The entries of a map in the order the encoder writes them. -/
def sortEntries (es : List (Bytes × Bytes)) : List (Bytes × Bytes) := es.insertionSort EntryLe

/-- A map of encoded keys and values: its head, then the entries in key order. -/
def encodeMap (es : List (Bytes × Bytes)) : Bytes :=
  head 5 es.length ++ (sortEntries es).flatMap fun e => e.1 ++ e.2

/-- Entries whose keys strictly increase: a map the encoder writes as it stands. -/
def ascending : List (Bytes × Bytes) → Bool
  | a :: b :: es => keyLe a.1 b.1 && a.1 != b.1 && ascending (b :: es)
  | _ => true

theorem ascending_chain : ∀ {es : List (Bytes × Bytes)}, ascending es = true →
    es.Chain' fun a b => EntryLe a b ∧ a.1 ≠ b.1
  | [], _ => List.chain'_nil
  | [_], _ => List.chain'_singleton _
  | a :: b :: es, h => by
    simp only [ascending, Bool.and_eq_true, bne_iff_ne, ne_eq] at h
    exact .cons ⟨h.1.1, h.1.2⟩ (ascending_chain h.2)

theorem ascending_pairwise {es : List (Bytes × Bytes)} (h : ascending es = true) :
    es.Pairwise fun a b => EntryLe a b ∧ a.1 ≠ b.1 :=
  have : IsTrans (Bytes × Bytes) fun a b => EntryLe a b ∧ a.1 ≠ b.1 :=
    ⟨fun _ _ _ hab hbc => ⟨keyLe_trans hab.1 hbc.1, fun e => hab.2 (keyLe_antisymm hab.1 (by
      rw [e]; exact hbc.1))⟩⟩
  List.chain'_iff_pairwise.mp (ascending_chain h)

theorem sortEntries_of_ascending {es : List (Bytes × Bytes)} (h : ascending es = true) :
    sortEntries es = es :=
  List.Sorted.insertionSort_eq ((ascending_pairwise h).imp And.left)

instance : IsAntisymm (Bytes × Bytes) fun a b => EntryLe a b ∧ a.1 ≠ b.1 :=
  ⟨fun _ _ hab hba => absurd (keyLe_antisymm hab.1 hba.1) hab.2⟩

/-- The order the encoder writes a map in does not depend on the order its entries are
visited in, as long as their keys are distinct: the output is deterministic. -/
theorem encodeMap_perm {es es' : List (Bytes × Bytes)} (p : es.Perm es')
    (hk : (es.map Prod.fst).Nodup) : encodeMap es = encodeMap es' := by
  have strict : ∀ l : List (Bytes × Bytes), l.Perm es →
      (sortEntries l).Pairwise fun a b => EntryLe a b ∧ a.1 ≠ b.1 := by
    intro l hl
    have hnd : ((sortEntries l).map Prod.fst).Nodup :=
      (((List.perm_insertionSort EntryLe l).trans hl).map Prod.fst).nodup_iff.mpr hk
    exact (List.sorted_insertionSort EntryLe l).and (List.pairwise_map.mp hnd)
  have hsort : sortEntries es = sortEntries es' :=
    List.eq_of_perm_of_sorted (((List.perm_insertionSort EntryLe es).trans p).trans
      (List.perm_insertionSort EntryLe es').symm) (strict es (List.Perm.refl es))
      (strict es' p.symm)
  rw [encodeMap, encodeMap, hsort, p.length_eq]

mutual
/-- `cbor.Marshal` of an item. -/
def Item.encode : Item → Bytes
  | .uint n => head 0 n
  | .nint n => head 1 n
  | .bytes b => head 2 b.length ++ b
  | .text s => head 3 s.length ++ s
  | .array xs => head 4 xs.length ++ Item.encodeList xs
  | .map es => encodeMap (Item.encodeEntries es)
  | .bool b => head 7 (if b then 21 else 20)
  | .null => head 7 22
/-- The encodings of a list of items, one after the other. -/
def Item.encodeList : List Item → Bytes
  | [] => []
  | x :: xs => x.encode ++ Item.encodeList xs
/-- The encoded keys and values of a map's entries. -/
def Item.encodeEntries : List (Item × Item) → List (Bytes × Bytes)
  | [] => []
  | (k, v) :: es => (k.encode, v.encode) :: Item.encodeEntries es
end

mutual
/-- The number of items in an item, itself included. -/
def Item.size : Item → Nat
  | .array xs => 1 + Item.sizeList xs
  | .map es => 1 + Item.sizeEntries es
  | _ => 1
/-- The number of items in a list of items. -/
def Item.sizeList : List Item → Nat
  | [] => 0
  | x :: xs => x.size + Item.sizeList xs
/-- The number of items in a map's entries. -/
def Item.sizeEntries : List (Item × Item) → Nat
  | [] => 0
  | (k, v) :: es => k.size + v.size + Item.sizeEntries es
end

mutual
/-- An item the codec writes canonically and reads back: every argument fits the 8 bytes of
a head, a negative integer fits an `int64`, and a map's keys strictly increase in the
encoder's order, as in a Go map, whose keys are distinct. -/
def Item.wf : Item → Bool
  | .uint n => n < 2 ^ 64
  | .nint n => n < 2 ^ 63
  | .bytes b => b.length < 2 ^ 64
  | .text s => s.length < 2 ^ 64
  | .array xs => xs.length < 2 ^ 64 && Item.wfList xs
  | .map es => es.length < 2 ^ 64 && Item.wfEntries es && ascending (Item.encodeEntries es)
  | .bool _ => true
  | .null => true
/-- Every item of the list is well formed. -/
def Item.wfList : List Item → Bool
  | [] => true
  | x :: xs => x.wf && Item.wfList xs
/-- Every key and value of the entries is well formed. -/
def Item.wfEntries : List (Item × Item) → Bool
  | [] => true
  | (k, v) :: es => k.wf && v.wf && Item.wfEntries es
end

/-- The keys and values of a map's entries, in turn. -/
def flat : List (Item × Item) → List Item
  | [] => []
  | (k, v) :: es => k :: v :: flat es

/-- The items of a map, read as keys and values in turn. -/
def pairs : List Item → List (Item × Item)
  | k :: v :: rest => (k, v) :: pairs rest
  | _ => []

section Flat

variable (es : List (Item × Item))

@[simp] theorem length_flat : (flat es).length = 2 * es.length := by
  induction es with
  | nil => rfl
  | cons e es ih => simp only [flat, List.length_cons, ih]; omega

theorem pairs_flat : pairs (flat es) = es := by
  induction es with
  | nil => rfl
  | cons e es ih => exact congrArg (e :: ·) ih

theorem encodeList_flat : Item.encodeList (flat es) =
    (Item.encodeEntries es).flatMap fun e => e.1 ++ e.2 := by
  induction es with
  | nil => rfl
  | cons e es ih => simp [flat, Item.encodeList, Item.encodeEntries, ih]

theorem sizeList_flat : Item.sizeList (flat es) = Item.sizeEntries es := by
  induction es with
  | nil => rfl
  | cons e es ih => simp only [flat, Item.sizeList, Item.sizeEntries, ih]; omega

theorem wfList_flat : Item.wfList (flat es) = Item.wfEntries es := by
  induction es with
  | nil => rfl
  | cons e es ih => simp only [flat, Item.wfList, Item.wfEntries, ih, Bool.and_assoc]

@[simp] theorem length_encodeEntries : (Item.encodeEntries es).length = es.length := by
  induction es with
  | nil => rfl
  | cons e es ih => simp [Item.encodeEntries, ih]

end Flat

theorem encode_map {es : List (Item × Item)} (h : ascending (Item.encodeEntries es) = true) :
    (Item.map es).encode = head 5 es.length ++ Item.encodeList (flat es) := by
  rw [Item.encode, encodeMap, sortEntries_of_ascending h, length_encodeEntries, encodeList_flat]

theorem one_le_size (x : Item) : 1 ≤ x.size := by
  cases x <;> simp only [Item.size] <;> omega

/-! ## Decoding -/

/-- Splits `n` bytes off the front. -/
def takeBytes (n : Nat) (b : Bytes) : Except Error (Bytes × Bytes) :=
  if n ≤ b.length then .ok (b.take n, b.drop n) else .error .eof

theorem takeBytes_append (b c : Bytes) : takeBytes b.length (b ++ c) = .ok (b, c) := by
  simp [takeBytes]

/-- The simple values of the model: `false`, `true` and `null`. -/
def simple (n : Nat) : Except Error Item :=
  if n = 20 then .ok (.bool false) else if n = 21 then .ok (.bool true)
  else if n = 22 then .ok .null else .error (.unsupportedSimple n)

/-- The rest of an item after its head, reading nested items with `seq`. -/
def decodeBody (seq : Nat → Bytes → Except Error (List Item × Bytes)) (major n : Nat)
    (b : Bytes) : Except Error (Item × Bytes) :=
  match major with
  | 0 => .ok (.uint n, b)
  | 1 => if n < 2 ^ 63 then .ok (.nint n, b) else .error (.overflow n)
  | 2 => (takeBytes n b).map fun (s, b) => (.bytes s, b)
  | 3 => (takeBytes n b).map fun (s, b) => (.text s, b)
  | 4 => (seq n b).map fun (xs, b) => (.array xs, b)
  | 5 => (seq (2 * n) b).map fun (xs, b) => (.map (pairs xs), b)
  | 7 => (simple n).map fun x => (x, b)
  | m => .error (.unsupportedMajor m)

/-- Reads `k` items in a row; `fuel` bounds the number of items read. -/
def decodeSeq : Nat → Nat → Bytes → Except Error (List Item × Bytes)
  | _, 0, b => .ok ([], b)
  | 0, _ + 1, _ => .error .depth
  | fuel + 1, k + 1, b => do
    let (major, n, b) ← decodeHead b
    let (x, b) ← decodeBody (decodeSeq fuel) major n b
    let (xs, b) ← decodeSeq fuel k b
    pure (x :: xs, b)

/-- Reads one item. -/
def decodeItem (fuel : Nat) (b : Bytes) : Except Error (Item × Bytes) := do
  let (major, n, b) ← decodeHead b
  decodeBody (decodeSeq fuel) major n b

theorem decodeSeq_succ (fuel k : Nat) (b : Bytes) :
    decodeSeq (fuel + 1) (k + 1) b = (do
      let (x, b) ← decodeItem fuel b
      let (xs, b) ← decodeSeq fuel k b
      pure (x :: xs, b)) := by
  simp only [decodeSeq, decodeItem, bind, Except.bind]
  split <;> rfl

/-- `cbor.Unmarshal(b, &v)` for `v` of type `any`: the first item of `b`. -/
def unmarshal (b : Bytes) : Except Error Item := (decodeItem b.length b).map Prod.fst

/-- `cbor.RawBytes`: the bytes of the first item of `b`, and the bytes after it. -/
def rawItem (b : Bytes) : Except Error (Bytes × Bytes) :=
  (decodeItem b.length b).map fun (_, r) => (b.take (b.length - r.length), r)

/-! ## Reading back what was written -/

section RoundTrip

variable {fuel : Nat}

theorem decodeItem_head {major n : Nat} (hm : major < 8) (hn : n < 2 ^ 64)
    (h7 : major = 7 → n < 24) (b : Bytes) :
    decodeItem fuel (head major n ++ b) = decodeBody (decodeSeq fuel) major n b := by
  simp only [decodeItem, decodeHead_head hm hn h7, bind, Except.bind]

theorem decodeItem_encode
    (ih : ∀ (xs : List Item) (rest : Bytes), Item.wfList xs = true → Item.sizeList xs ≤ fuel →
      decodeSeq fuel xs.length (Item.encodeList xs ++ rest) = .ok (xs, rest))
    (x : Item) (hwf : x.wf = true) (hsize : x.size ≤ fuel + 1) (rest : Bytes) :
    decodeItem fuel (x.encode ++ rest) = .ok (x, rest) := by
  cases x with
  | uint n =>
    simp only [Item.wf, decide_eq_true_eq] at hwf
    rw [Item.encode, decodeItem_head (by omega : 0 < 8) hwf (by omega)]
    rfl
  | nint n =>
    simp only [Item.wf, decide_eq_true_eq] at hwf
    rw [Item.encode, decodeItem_head (by omega : 1 < 8) (by omega) (by omega)]
    exact if_pos hwf
  | bytes s =>
    simp only [Item.wf, decide_eq_true_eq] at hwf
    rw [Item.encode, List.append_assoc, decodeItem_head (by omega : 2 < 8) hwf (by omega)]
    simp [decodeBody, takeBytes, Except.map]
  | text s =>
    simp only [Item.wf, decide_eq_true_eq] at hwf
    rw [Item.encode, List.append_assoc, decodeItem_head (by omega : 3 < 8) hwf (by omega)]
    simp [decodeBody, takeBytes, Except.map]
  | array xs =>
    simp only [Item.wf, Bool.and_eq_true, decide_eq_true_eq] at hwf
    simp only [Item.size] at hsize
    rw [Item.encode, List.append_assoc, decodeItem_head (by omega : 4 < 8) hwf.1 (by omega)]
    simp [decodeBody, ih xs rest hwf.2 (by omega), Except.map]
  | map es =>
    simp only [Item.wf, Bool.and_eq_true, decide_eq_true_eq] at hwf
    simp only [Item.size] at hsize
    have h := ih (flat es) rest (by rw [wfList_flat]; exact hwf.1.2)
      (by rw [sizeList_flat]; omega)
    rw [length_flat] at h
    rw [encode_map hwf.2, List.append_assoc, decodeItem_head (by omega : 5 < 8) hwf.1.1 (by omega)]
    simp [decodeBody, h, Except.map, pairs_flat]
  | bool b =>
    rw [Item.encode, decodeItem_head (by omega : 7 < 8) (by split <;> omega) (by split <;> omega)]
    cases b <;> rfl
  | null =>
    rw [Item.encode, decodeItem_head (by omega : 7 < 8) (by omega) (by omega)]
    rfl

/-- The decoder reads back every list of well-formed items the encoder writes, given fuel
for the number of items in it, and leaves what follows. -/
theorem decodeSeq_encodeList (fuel : Nat) : ∀ (xs : List Item) (rest : Bytes),
    Item.wfList xs = true → Item.sizeList xs ≤ fuel →
    decodeSeq fuel xs.length (Item.encodeList xs ++ rest) = .ok (xs, rest) := by
  induction fuel with
  | zero =>
    rintro (_ | ⟨x, xs⟩) rest _ hsize
    · rfl
    · simp only [Item.sizeList] at hsize
      have := one_le_size x
      omega
  | succ fuel ih =>
    rintro (_ | ⟨x, xs⟩) rest hwf hsize
    · rfl
    · simp only [Item.wfList, Bool.and_eq_true] at hwf
      simp only [Item.sizeList] at hsize
      have := one_le_size x
      rw [List.length_cons, decodeSeq_succ, Item.encodeList, List.append_assoc,
        decodeItem_encode ih x hwf.1 (by omega)]
      simp only [bind, Except.bind, ih xs rest hwf.2 (by omega)]
      rfl

end RoundTrip

theorem one_le_length_head (major n : Nat) : 1 ≤ (head major n).length := by
  unfold head
  split_ifs <;> simp

mutual
theorem size_le_length_encode : ∀ x : Item, x.wf = true → x.size ≤ x.encode.length
  | .uint n, _ => one_le_length_head 0 n
  | .nint n, _ => one_le_length_head 1 n
  | .bytes s, _ => by
    simpa [Item.size, Item.encode] using Nat.le_add_right_of_le (one_le_length_head 2 s.length)
  | .text s, _ => by
    simpa [Item.size, Item.encode] using Nat.le_add_right_of_le (one_le_length_head 3 s.length)
  | .array xs, h => by
    simp only [Item.wf, Bool.and_eq_true] at h
    have := sizeList_le_length_encodeList xs h.2
    have := one_le_length_head 4 xs.length
    simp only [Item.size, Item.encode, List.length_append]
    omega
  | .map es, h => by
    simp only [Item.wf, Bool.and_eq_true] at h
    have := sizeEntries_le_length_encodeList es h.1.2
    have := one_le_length_head 5 es.length
    simp only [Item.size, encode_map h.2, List.length_append]
    omega
  | .bool b, _ => one_le_length_head 7 _
  | .null, _ => one_le_length_head 7 22
theorem sizeList_le_length_encodeList : ∀ xs : List Item, Item.wfList xs = true →
    Item.sizeList xs ≤ (Item.encodeList xs).length
  | [], _ => le_refl 0
  | x :: xs, h => by
    simp only [Item.wfList, Bool.and_eq_true] at h
    have := size_le_length_encode x h.1
    have := sizeList_le_length_encodeList xs h.2
    simp only [Item.sizeList, Item.encodeList, List.length_append]
    omega
theorem sizeEntries_le_length_encodeList : ∀ es : List (Item × Item),
    Item.wfEntries es = true → Item.sizeEntries es ≤ (Item.encodeList (flat es)).length
  | [], _ => le_refl 0
  | (k, v) :: es, h => by
    simp only [Item.wfEntries, Bool.and_eq_true] at h
    have := size_le_length_encode k h.1.1
    have := size_le_length_encode v h.1.2
    have := sizeEntries_le_length_encodeList es h.2
    simp only [Item.sizeEntries, flat, Item.encodeList, List.length_append]
    omega
end

theorem decodeItem_encode_of_le {x : Item} (hwf : x.wf = true) {fuel : Nat}
    (hfuel : x.encode.length ≤ fuel) (rest : Bytes) :
    decodeItem fuel (x.encode ++ rest) = .ok (x, rest) :=
  decodeItem_encode (decodeSeq_encodeList fuel) x hwf
    (by have := size_le_length_encode x hwf; omega) rest

/-- `cbor.Unmarshal` reads back every well-formed item `cbor.Marshal` writes. -/
theorem unmarshal_encode {x : Item} (hwf : x.wf = true) (rest : Bytes) :
    unmarshal (x.encode ++ rest) = .ok x := by
  rw [unmarshal, decodeItem_encode_of_le hwf (by simp) rest]
  rfl

/-- The raw bytes of a well-formed item's encoding are that encoding. -/
theorem rawItem_encode {x : Item} (hwf : x.wf = true) (rest : Bytes) :
    rawItem (x.encode ++ rest) = .ok (x.encode, rest) := by
  rw [rawItem, decodeItem_encode_of_le hwf (by simp) rest]
  simp [Except.map]

end Cbor
end GoFdo
