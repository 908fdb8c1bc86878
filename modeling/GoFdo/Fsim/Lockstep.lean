import GoFdo.Fsim.PayloadOwner

/-!
# Owner and device in lockstep

The two sides of `fdo.payload` run in rounds: the owner's `ProduceInfo` writes at most one
message, the device runs `Receive` on what the owner wrote, and the owner runs `HandleInfo`
on the device's replies before its next `ProduceInfo`. The cbor package is not among the
sources, so the run takes the decoding of the bodies as a parameter (`Wire`), and what it needs
of it, that each side reads what the other wrote, as a hypothesis (`Wire.Decodes`). With such a
decoding and a handler whose calls all succeed, each payload takes a `begin` round, one round
per chunk and an `end` round, and the round after the last payload reports the module done
(`lockstep_delivers`).

The proof follows the owner's position: before a payload's `begin` (`AtBegin`) or inside
it with `k` bytes acknowledged (`AtData`). One lemma per kind of round moves between the
positions, and the chunk rounds are chained by induction over the chunks still to send.
-/

namespace GoFdo
namespace Fsim

/-! ### The wire -/

/-- The key `ProduceInfo` writes each message under. -/
def OwnerMessage.key : OwnerMessage → Bytes
  | .begin .. => ascii "begin"
  | .data _ => ascii "data"
  | .finish => ascii "end"

/-- The key `Receive` writes each reply under. -/
def Reply.key : Reply → Bytes
  | .active _ => ascii "active"
  | .ready _ => ascii "ready"
  | .ack _ => ascii "ack"
  | .result .. => ascii "result"
  | .error .. => ascii "error"

/-- The decoding of the bodies: what the device reads from each message the owner encoded, and
what the owner reads from each reply the device encoded. -/
structure Wire where
  toDevice : OwnerMessage → Body
  toOwner : Reply → Body

/-- What the run needs of the decoding: the `begin`, `data`, `ready`, `ack` and `result` bodies
decode, in the Go type their receiver reads them into, to what was written, fields absent
from a map keeping their zero values. -/
structure Wire.Decodes (w : Wire) : Prop where
  begin : ∀ m n s md, (w.toDevice (.begin m n s md)).begin = .ok ⟨m, n.getD [], s.getD 0, md⟩
  data : ∀ d, (w.toDevice (.data d)).bytes = .ok d
  ready : ∀ v, (w.toOwner (.ready v)).bool = .ok v
  ack : ∀ n, (w.toOwner (.ack n)).int = .ok n
  result : ∀ s m o, (w.toOwner (.result s m o)).result = .ok ⟨s, m, o⟩

/-- A decoding that reads each body as the one value written. -/
def Wire.byField : Wire where
  toDevice
    | .begin m n s md => .ofBegin ⟨m, n.getD [], s.getD 0, md⟩
    | .data d => .ofBytes d
    | .finish => .ofBool true
  toOwner
    | .active v => .ofBool v
    | .ready v => .ofBool v
    | .ack n => .ofInt n
    | .result s m o => .ofResult ⟨s, m, o⟩
    | .error c m d => .ofError ⟨c, m, d⟩

theorem Wire.byField_decodes : Wire.byField.Decodes :=
  ⟨fun _ _ _ _ => rfl, fun _ => rfl, fun _ => rfl, fun _ => rfl, fun _ _ _ => rfl⟩

/-! ### Rounds -/

/-- What the device does in one round. -/
structure DeviceRound where
  state : Payload
  calls : List HandlerCall
  replies : List Reply
  results : List (Except PayloadError Unit)

/-- The device's round: `Receive` on every message the owner wrote, in order. -/
def deviceRound (w : Wire) (env : Env) (d : Payload) : List OwnerMessage → DeviceRound
  | [] => ⟨d, [], [], []⟩
  | m :: ms =>
    let o := d.Receive m.key (w.toDevice m) env
    let r := deviceRound w env o.state ms
    ⟨r.state, o.calls ++ r.calls, o.replies ++ r.replies, o.result :: r.results⟩

/-- The owner's `HandleInfo` on every reply of the device's round, in order. -/
def handleAll (w : Wire) (p : PayloadOwner) :
    List Reply → PayloadOwner × List (Except Panic (Except OwnerError Unit))
  | [] => (p, [])
  | r :: rs =>
    let o := p.handleInfo r.key (w.toOwner r)
    ((handleAll w o.state rs).1, o.result :: (handleAll w o.state rs).2)

/-- The two modules, and what the run has recorded: every result of `ProduceInfo`, of
`Receive` and of `HandleInfo`, and every call on the device's handler. -/
structure Lockstep where
  owner : PayloadOwner
  device : Payload
  produced : List (Except Panic (Except OwnerError (Bool × Bool)))
  received : List (Except PayloadError Unit)
  handled : List (Except Panic (Except OwnerError Unit))
  calls : List HandlerCall

/-- One round, the bodies decoded by `w` and the device's handler and writer answering `env`;
the owner's encoder and producer always succeed. -/
def round (w : Wire) (s : Lockstep) (env : Env) : Lockstep :=
  let pi := s.owner.produceInfo ⟨none, none⟩
  let dev := deviceRound w env s.device pi.written
  let own := handleAll w pi.state dev.replies
  ⟨own.1, dev.state, s.produced ++ [pi.result], s.received ++ dev.results, s.handled ++ own.2,
    s.calls ++ dev.calls⟩

/-- The start: an owner on which `AddPayload` was called for each of `payloads` and then
`SetChunkSize(size)`, and a fresh device with a handler. -/
def Lockstep.start (payloads : List PayloadToSend) (size : Int) (active : Bool) : Lockstep :=
  ⟨PayloadOwner.configure payloads size, Payload.fresh true active, [], [], [], []⟩

/-! ### What the run should do -/

/-- A handler that supports every MIME type and whose calls all succeed, and a writer that
takes every reply. -/
structure Env.Succeeds (env : Env) : Prop where
  supports : env.supportsMimeType = true
  begin : env.beginPayload = none
  chunk : env.receiveChunk = none
  finish : env.endPayload.err = none
  encode : env.encode = none

/-- The chunk size the owner uses: `4096` when it was left at zero. -/
def effectiveChunkSize (size : Int) : Int := if size = 0 then 4096 else size

/-- The chunks of `d`, `c` bytes each but the last. -/
def chunksOf (c : Nat) (d : Bytes) : List Bytes :=
  if d = [] ∨ c = 0 then [] else d.take c :: chunksOf c (d.drop c)
termination_by d.length
decreasing_by
  rename_i h
  simp only [not_or] at h
  simp only [List.length_drop]
  have := List.length_pos.mpr h.1
  omega

/-- The handler's calls for the payload `x` sent in chunks of `c` bytes, `EndPayload`
answering `r`. -/
def payloadCalls (c : Nat) (x : PayloadToSend) (r : EndResult) : List HandlerCall :=
  [.supportsMimeType x.mimeType true, .beginPayload ⟨x.mimeType, x.name, x.data.length, x.metadata⟩ none] ++
    (chunksOf c x.data).map (.receiveChunk · none) ++ [.endPayload r]

theorem chunksOf_eq_nil {c : Nat} {d : Bytes} (h : d = [] ∨ c = 0) : chunksOf c d = [] := by
  rw [chunksOf, if_pos h]

theorem chunksOf_of_ne_nil {c : Nat} {d : Bytes} (hd : d ≠ []) (hc : 0 < c) :
    chunksOf c d = d.take c :: chunksOf c (d.drop c) := by
  rw [chunksOf, if_neg (not_or.mpr ⟨hd, by omega⟩)]

/-- The chunks put back together are the data. -/
theorem flatten_chunksOf {c : Nat} (hc : 0 < c) (d : Bytes) : (chunksOf c d).flatten = d := by
  induction d using chunksOf.induct c with
  | case1 d h =>
    rcases h with rfl | h
    · rw [chunksOf_eq_nil (.inl rfl)]; rfl
    · omega
  | case2 d h ih => rw [chunksOf, if_neg h, List.flatten_cons, ih, List.take_append_drop]

/-- Every chunk has between one and `c` bytes. -/
theorem length_of_mem_chunksOf {c : Nat} {d x : Bytes} (hx : x ∈ chunksOf c d) :
    0 < x.length ∧ x.length ≤ c := by
  induction d using chunksOf.induct c with
  | case1 d h => rw [chunksOf_eq_nil h] at hx; cases hx
  | case2 d h ih =>
    rw [chunksOf, if_neg h] at hx
    rcases List.mem_cons.mp hx with rfl | hx
    · simp only [not_or] at h
      have := List.length_pos.mpr h.1
      rw [List.length_take]
      omega
    · exact ih hx

/-- There are `⌈len / c⌉` chunks. -/
theorem length_chunksOf {c : Nat} (hc : 0 < c) (d : Bytes) :
    (chunksOf c d).length = (d.length + c - 1) / c := by
  induction d using chunksOf.induct c with
  | case1 d h =>
    rcases h with rfl | h
    · rw [chunksOf_eq_nil (.inl rfl)]
      simp only [List.length_nil, Nat.zero_add]
      rw [Nat.div_eq_of_lt (by omega)]
    · omega
  | case2 d h ih =>
    simp only [not_or] at h
    have hl := List.length_pos.mpr h.1
    rw [chunksOf_of_ne_nil h.1 hc, List.length_cons, ih, List.length_drop]
    rcases Nat.lt_or_ge d.length c with hlt | hge
    · rw [Nat.sub_eq_zero_of_le hlt.le, Nat.zero_add, Nat.div_eq_of_lt (by omega),
        @Nat.div_eq_of_lt_le 1 c _ (by omega) (by omega)]
    · rw [show d.length + c - 1 = d.length - c + c - 1 + c by omega, Nat.add_div_right _ hc]

/-! ### Each side on the other's messages -/

section Messages

variable {env : Env}

theorem Receive_begin (henv : env.Succeeds) {d : Payload} (hd : d.handler = true)
    {body : Body} {b : BeginMessage} (hb : body.begin = .ok b) :
    d.Receive (ascii "begin") body env =
      ⟨{ d with receiving := true, totalBytes := 0, expectedSize := b.size },
        [.supportsMimeType b.mimeType true, .beginPayload b none], [.ready true], .ok ()⟩ := by
  have k : ascii "begin" ≠ ascii "active" := by decide
  simp [Payload.Receive, Payload.receive, Payload.receiveBegin, k, hd, henv.supports, henv.begin,
    Payload.reply, henv.encode, hb, Payload.Outcome.of]

theorem Receive_data (henv : env.Succeeds) {d : Payload} (hd : d.receiving = true)
    {body : Body} {chunk : Bytes} (hb : body.bytes = .ok chunk) :
    d.Receive (ascii "data") body env =
      ⟨{ d with totalBytes := d.totalBytes + chunk.length }, [.receiveChunk chunk none],
        [.ack (d.totalBytes + chunk.length)], .ok ()⟩ := by
  have k₁ : ascii "data" ≠ ascii "active" := by decide
  have k₂ : ascii "data" ≠ ascii "begin" := by decide
  simp [Payload.Receive, Payload.receive, Payload.receiveData, k₁, k₂, hd, henv.chunk,
    Payload.reply, henv.encode, hb, Payload.Outcome.of]

theorem Receive_end (henv : env.Succeeds) {d : Payload} (hd : d.receiving = true)
    (hsize : d.totalBytes = d.expectedSize) (body : Body) :
    d.Receive (ascii "end") body env =
      ⟨{ d with receiving := false }, [.endPayload env.endPayload],
        [.result env.endPayload.success env.endPayload.message env.endPayload.output], .ok ()⟩ := by
  have k₁ : ascii "end" ≠ ascii "active" := by decide
  have k₂ : ascii "end" ≠ ascii "begin" := by decide
  have k₃ : ascii "end" ≠ ascii "data" := by decide
  simp [Payload.Receive, Payload.receive, Payload.receiveEnd, k₁, k₂, k₃, hd, hsize, henv.finish,
    Payload.reply, henv.encode, Payload.Outcome.of]

variable {p : PayloadOwner} {x : PayloadToSend}

theorem produceInfo_begin (hw : p.waitingForAck = false) (hc : p.currentPayload = none)
    (hx : p.payloads[p.currentIndex]? = some x) :
    p.produceInfo ⟨none, none⟩ =
      ⟨{ p with currentPayload := some x, bytesSent := 0,
                chunkSize := effectiveChunkSize p.chunkSize }, [PayloadOwner.beginMessage x],
        .ok (.ok (false, false))⟩ := by
  obtain ⟨hi, hget⟩ := List.getElem?_eq_some_iff.mp hx
  simp [PayloadOwner.produceInfo, hw, hc, hi, hget, PayloadOwner.writeMessage, effectiveChunkSize]

theorem produceInfo_data {k c : Nat} (hw : p.waitingForAck = false)
    (hx : p.currentPayload = some x) (hk : p.bytesSent = k) (hlt : k < x.data.length)
    (hcs : p.chunkSize = c) :
    p.produceInfo ⟨none, none⟩ =
      ⟨{ p with bytesSent := k + ((x.data.drop k).take c).length, waitingForAck := true },
        [.data ((x.data.drop k).take c)], .ok (.ok (false, false))⟩ := by
  have hlen : ((x.data.drop k).take c).length = min c (x.data.length - k) := by
    simp [List.length_take, List.length_drop]
  have hcl : (if (c : Int) > x.data.length - k then (x.data.length : Int) - k else c) =
      ((x.data.drop k).take c).length := by
    rw [hlen]; split_ifs <;> omega
  have ht : (x.data.drop k).take ((x.data.drop k).take c).length = (x.data.drop k).take c :=
    List.take_eq_take.mpr (by rw [List.length_take]; omega)
  simp only [PayloadOwner.produceInfo, hw, hx, hk, hcs, Bool.false_eq_true, if_false, hcl]
  rw [if_pos (by omega), if_pos (by omega)]
  simp only [PayloadOwner.writeMessage, Int.toNat_ofNat, ht]

theorem produceInfo_end (hw : p.waitingForAck = false) (hx : p.currentPayload = some x)
    (hk : p.bytesSent = x.data.length) :
    p.produceInfo ⟨none, none⟩ = ⟨p, [.finish], .ok (.ok (false, false))⟩ := by
  simp [PayloadOwner.produceInfo, hw, hx, hk, PayloadOwner.writeMessage]

theorem produceInfo_done (hw : p.waitingForAck = false) (hc : p.currentPayload = none)
    (hi : p.payloads.length ≤ p.currentIndex) :
    p.produceInfo ⟨none, none⟩ = ⟨p, [], .ok (.ok (false, true))⟩ := by
  simp [PayloadOwner.produceInfo, hw, hc, Nat.not_lt.mpr hi, PayloadOwner.Outcome.returns]

theorem handleInfo_ready (p : PayloadOwner) {body : Body} (hb : body.bool = .ok true) :
    p.handleInfo (ascii "ready") body = .returns p (.ok ()) := by
  have k : ascii "ready" ≠ ascii "active" := by decide
  simp [PayloadOwner.handleInfo, PayloadOwner.receive, k, hb]

theorem handleInfo_ack (p : PayloadOwner) {body : Body} (hb : body.int = .ok p.bytesSent) :
    p.handleInfo (ascii "ack") body = .returns { p with waitingForAck := false } (.ok ()) := by
  have k₁ : ascii "ack" ≠ ascii "active" := by decide
  have k₂ : ascii "ack" ≠ ascii "ready" := by decide
  simp [PayloadOwner.handleInfo, PayloadOwner.receive, k₁, k₂, hb]

theorem handleInfo_result (hx : p.currentPayload = some x) {body : Body} {r : ResultMessage}
    (hb : body.result = .ok r) :
    p.handleInfo (ascii "result") body =
      .returns { p with currentPayload := none, currentIndex := p.currentIndex + 1, bytesSent := 0 }
        (.ok ()) := by
  have k₁ : ascii "result" ≠ ascii "active" := by decide
  have k₂ : ascii "result" ≠ ascii "ready" := by decide
  have k₃ : ascii "result" ≠ ascii "ack" := by decide
  simp [PayloadOwner.handleInfo, PayloadOwner.receive, k₁, k₂, k₃, hx, hb]

end Messages

/-- The device reads the `begin` map back in full: an empty name or data left out of the map
decodes as the zero value it stood for. -/
@[simp]
theorem beginMessage_key (x : PayloadToSend) :
    (PayloadOwner.beginMessage x).key = ascii "begin" := rfl

theorem beginMessage_decodes {w : Wire} (hw : w.Decodes) (x : PayloadToSend) :
    (w.toDevice (PayloadOwner.beginMessage x)).begin =
      .ok ⟨x.mimeType, x.name, x.data.length, x.metadata⟩ := by
  have hn : (if x.name ≠ [] then some x.name else none).getD [] = x.name := by
    split_ifs with h <;> simp_all
  have hs : (if x.data ≠ [] then some (x.data.length : Int) else none).getD 0 = x.data.length := by
    split_ifs with h <;> simp_all
  rw [PayloadOwner.beginMessage, hw.begin, hn, hs]

/-! ### Positions of the run -/

section Run

variable (P : List PayloadToSend) (c : Nat)

/-- Before the `begin` of the `i`-th payload. -/
structure AtBegin (s : Lockstep) (i : Nat) : Prop where
  payloads : s.owner.payloads = P
  current : s.owner.currentPayload = none
  index : s.owner.currentIndex = i
  idle : s.owner.waitingForAck = false
  chunk : effectiveChunkSize s.owner.chunkSize = c
  handler : s.device.handler = true
  receiving : s.device.receiving = false

/-- Inside the `i`-th payload `x`, with `k` of its bytes sent and acknowledged. -/
structure AtData (s : Lockstep) (i : Nat) (x : PayloadToSend) (k : Nat) : Prop where
  payloads : s.owner.payloads = P
  get : P[i]? = some x
  current : s.owner.currentPayload = some x
  index : s.owner.currentIndex = i
  sent : s.owner.bytesSent = k
  le : k ≤ x.data.length
  idle : s.owner.waitingForAck = false
  chunk : s.owner.chunkSize = c
  handler : s.device.handler = true
  receiving : s.device.receiving = true
  total : s.device.totalBytes = k
  expected : s.device.expectedSize = x.data.length

/-- `t` is `s` after `n` rounds that each returned no error and handled one reply, and that
made the calls `cs` on the handler. -/
structure Logged (n : Nat) (s t : Lockstep) (cs : List HandlerCall) : Prop where
  produced : t.produced = s.produced ++ List.replicate n (.ok (.ok (false, false)))
  received : t.received = s.received ++ List.replicate n (.ok ())
  handled : t.handled = s.handled ++ List.replicate n (.ok (.ok ()))
  calls : t.calls = s.calls ++ cs

variable {P c}

theorem Logged.refl (s : Lockstep) : Logged 0 s s [] :=
  ⟨(List.append_nil _).symm, (List.append_nil _).symm, (List.append_nil _).symm,
    (List.append_nil _).symm⟩

theorem Logged.trans {m n : Nat} {s t u : Lockstep} {cs ds : List HandlerCall}
    (h₁ : Logged m s t cs) (h₂ : Logged n t u ds) : Logged (m + n) s u (cs ++ ds) :=
  ⟨by rw [h₂.produced, h₁.produced, List.replicate_add, List.append_assoc],
    by rw [h₂.received, h₁.received, List.replicate_add, List.append_assoc],
    by rw [h₂.handled, h₁.handled, List.replicate_add, List.append_assoc],
    by rw [h₂.calls, h₁.calls, List.append_assoc]⟩

variable {w : Wire} {s : Lockstep} {i k : Nat} {x : PayloadToSend} {env : Env}

/-- The `begin` round: the handler is asked for the MIME type and begins the payload. -/
theorem round_begin (hw : w.Decodes) (h : AtBegin P c s i) (hx : P[i]? = some x) (henv : env.Succeeds) :
    AtData P c (round w s env) i x 0 ∧
      Logged 1 s (round w s env) [.supportsMimeType x.mimeType true,
        .beginPayload ⟨x.mimeType, x.name, x.data.length, x.metadata⟩ none] := by
  have hpi := produceInfo_begin h.idle h.current (by rw [h.payloads, h.index]; exact hx)
  simp only [round, hpi, deviceRound, beginMessage_key,
    Receive_begin henv h.handler (beginMessage_decodes hw x), handleAll, Reply.key,
    handleInfo_ready _ (hw.ready true), PayloadOwner.Outcome.returns, List.append_nil]
  exact ⟨⟨h.payloads, hx, rfl, h.index, rfl, Nat.zero_le _, h.idle, h.chunk, h.handler, rfl, rfl,
    rfl⟩, ⟨rfl, rfl, rfl, rfl⟩⟩

/-- A chunk round: the owner sends the next chunk of at most `c` bytes, the handler takes it,
and the device acknowledges the bytes so far, which the owner has sent. -/
theorem round_data (hw : w.Decodes) (h : AtData P c s i x k) (hlt : k < x.data.length) (henv : env.Succeeds) :
    AtData P c (round w s env) i x (k + ((x.data.drop k).take c).length) ∧
      Logged 1 s (round w s env) [.receiveChunk ((x.data.drop k).take c) none] := by
  have hpi := produceInfo_data h.idle h.current h.sent hlt h.chunk
  have hlen : ((x.data.drop k).take c).length ≤ x.data.length - k := by
    rw [List.length_take, List.length_drop]; exact Nat.min_le_right _ _
  simp only [round, hpi, deviceRound, OwnerMessage.key, Receive_data henv h.receiving (hw.data _),
    handleAll, Reply.key, h.total, handleInfo_ack _ (hw.ack _), PayloadOwner.Outcome.returns,
    List.append_nil]
  exact ⟨⟨h.payloads, h.get, h.current, h.index, by simp, by omega, rfl, h.chunk, h.handler,
    h.receiving, by simp, h.expected⟩, ⟨rfl, rfl, rfl, rfl⟩⟩

/-- The `end` round: the device checks the size, the handler ends the payload, and its result
moves the owner to the next payload. -/
theorem round_end (hw : w.Decodes) (hc : 0 < c) (h : AtData P c s i x x.data.length) (henv : env.Succeeds) :
    AtBegin P c (round w s env) (i + 1) ∧
      Logged 1 s (round w s env) [.endPayload env.endPayload] := by
  have hpi := produceInfo_end h.idle h.current h.sent
  simp only [round, hpi, deviceRound, OwnerMessage.key,
    Receive_end henv h.receiving (h.total.trans h.expected.symm), handleAll, Reply.key,
    handleInfo_result h.current (hw.result _ _ _), PayloadOwner.Outcome.returns, List.append_nil]
  refine ⟨⟨h.payloads, rfl, by simp [h.index], h.idle, ?_, h.handler, rfl⟩, ⟨rfl, rfl, rfl, rfl⟩⟩
  simp only [effectiveChunkSize, h.chunk]
  split_ifs <;> omega

/-- The round after the last payload: `ProduceInfo` reports the module done. -/
theorem round_done (h : AtBegin P c s P.length) :
    round w s env = { s with produced := s.produced ++ [.ok (.ok (false, true))] } := by
  have hpi := produceInfo_done h.idle h.current (by rw [h.payloads, h.index])
  simp only [round, hpi, deviceRound, handleAll, List.append_nil]

theorem drop_chunk (d : Bytes) (k c : Nat) :
    (d.drop k).drop c = d.drop (k + ((d.drop k).take c).length) := by
  rw [List.drop_drop, List.length_take, List.length_drop]
  rcases Nat.le_total c (d.length - k) with h | h
  · rw [Nat.min_eq_left h]
  · rw [Nat.min_eq_right h, List.drop_eq_nil_of_le (by omega), List.drop_eq_nil_of_le (by omega)]

/-- The chunk rounds: from `k` bytes acknowledged, one round per chunk still to send brings
the owner to the end of the data, the handler taking the chunks in order. -/
theorem rounds_data (hw : w.Decodes) (hc : 0 < c) (es : List Env) (hes : ∀ e ∈ es, e.Succeeds)
    (h : AtData P c s i x k) (hlen : es.length = (chunksOf c (x.data.drop k)).length) :
    AtData P c (es.foldl (round w) s) i x x.data.length ∧
      Logged es.length s (es.foldl (round w) s)
        ((chunksOf c (x.data.drop k)).map (.receiveChunk · none)) := by
  induction es generalizing s k with
  | nil =>
    have hk : x.data.length ≤ k := by
      by_contra hk
      rw [chunksOf_of_ne_nil (by simp; omega) hc] at hlen
      cases hlen
    obtain rfl := Nat.le_antisymm h.le hk
    rw [List.drop_length, chunksOf_eq_nil (.inl rfl)]
    exact ⟨h, .refl s⟩
  | cons e es ih =>
    have hlt : k < x.data.length := by
      by_contra hk
      rw [chunksOf_eq_nil (.inl (List.drop_eq_nil_of_le (by omega)))] at hlen
      cases hlen
    have hne : x.data.drop k ≠ [] := by simp; omega
    rw [chunksOf_of_ne_nil hne hc, drop_chunk] at hlen
    simp only [List.length_cons, Nat.add_right_cancel_iff] at hlen
    obtain ⟨h₁, l₁⟩ := round_data hw h hlt (hes e (List.mem_cons_self e es))
    obtain ⟨h₂, l₂⟩ := ih (fun e' he' => hes e' (List.mem_cons_of_mem e he')) h₁ hlen
    rw [chunksOf_of_ne_nil hne hc, drop_chunk, List.map_cons, List.length_cons, Nat.add_comm]
    exact ⟨h₂, l₁.trans l₂⟩

/-- The rounds of one payload: its `begin`, its chunks and its `end`. -/
theorem rounds_payload (hw : w.Decodes) (hc : 0 < c) (es : List Env) (hes : ∀ e ∈ es, e.Succeeds)
    (h : AtBegin P c s i) (hx : P[i]? = some x)
    (hlen : es.length = (chunksOf c x.data).length + 2) :
    AtBegin P c (es.foldl (round w) s) (i + 1) ∧
      ∃ r : EndResult, r.err = none ∧
        Logged es.length s (es.foldl (round w) s) (payloadCalls c x r) := by
  obtain ⟨e₁, rest, rfl⟩ :=
    List.exists_cons_of_ne_nil (List.ne_nil_of_length_pos (show 0 < es.length by omega))
  obtain ⟨mid, e₂, rfl⟩ : ∃ mid e₂, rest = mid ++ [e₂] := by
    obtain ⟨mid, e₂, h⟩ := (List.eq_nil_or_concat rest).resolve_left fun h => by simp [h] at hlen
    exact ⟨mid, e₂, h.trans (List.concat_eq_append _ _)⟩
  simp only [List.length_cons, List.length_append, List.length_nil] at hlen
  have hmem : ∀ e ∈ mid, e.Succeeds := fun e he => hes e (by simp [he])
  obtain ⟨h₁, l₁⟩ := round_begin hw h hx (hes e₁ (by simp))
  obtain ⟨h₂, l₂⟩ := rounds_data hw hc mid hmem h₁ (by rw [List.drop_zero]; omega)
  obtain ⟨h₃, l₃⟩ := round_end hw hc h₂ (hes e₂ (by simp))
  rw [List.foldl_cons, List.foldl_append, List.foldl_cons, List.foldl_nil]
  refine ⟨h₃, e₂.endPayload, (hes e₂ (by simp)).finish, ?_⟩
  have l := (l₁.trans l₂).trans l₃
  rw [List.drop_zero] at l
  simpa [Nat.add_comm, Nat.add_left_comm, payloadCalls] using l

/-- The rounds of the payloads from the `i`-th on, one payload after the other. -/
theorem rounds_payloads (hw : w.Decodes) (hc : 0 < c) (xs : List PayloadToSend) (es : List Env)
    (hes : ∀ e ∈ es, e.Succeeds) (h : AtBegin P c s i) (hxs : P.drop i = xs)
    (hlen : es.length = (xs.map fun x => (chunksOf c x.data).length + 2).sum) :
    AtBegin P c (es.foldl (round w) s) (i + xs.length) ∧
      ∃ rs : List EndResult, rs.length = xs.length ∧ (∀ r ∈ rs, r.err = none) ∧
        Logged es.length s (es.foldl (round w) s) (List.zipWith (payloadCalls c) xs rs).flatten := by
  induction xs generalizing s i es with
  | nil =>
    obtain rfl : es = [] := List.eq_nil_of_length_eq_zero (by simpa using hlen)
    exact ⟨h, [], rfl, by simp, .refl s⟩
  | cons x xs ih =>
    have hx : P[i]? = some x := by rw [← List.head?_drop, hxs]; rfl
    have hxs' : P.drop (i + 1) = xs := by rw [← List.drop_drop, hxs]; rfl
    rw [List.map_cons, List.sum_cons] at hlen
    obtain ⟨h₁, r, hr, l₁⟩ := rounds_payload hw hc (es.take ((chunksOf c x.data).length + 2))
      (fun e he => hes e (List.mem_of_mem_take he)) h hx (by rw [List.length_take]; omega)
    obtain ⟨h₂, rs, hrs, hrs', l₂⟩ := ih (es.drop ((chunksOf c x.data).length + 2))
      (fun e he => hes e (List.mem_of_mem_drop he)) h₁ hxs' (by rw [List.length_drop]; omega)
    rw [← List.take_append_drop ((chunksOf c x.data).length + 2) es, List.foldl_append,
      List.length_append]
    refine ⟨by simpa [Nat.add_assoc, Nat.add_comm 1] using h₂, r :: rs, by simp [hrs], ?_, ?_⟩
    · simpa [hr] using hrs'
    · simpa using l₁.trans l₂

/-- End-to-end delivery: with a decoding under which each side reads what the other wrote, a
handler that supports every MIME type and whose calls all succeed, and the payloads added and
the chunk size set to `size ≥ 0` before the run, the lockstep run of
`Σ (⌈len / c⌉ + 2) + 1` rounds returns no error on either side, `ProduceInfo` reports the
module done at its last call and at no other, and the handler sees, payload after payload,
`BeginPayload` with the payload's MIME type, name, length and metadata, its data in chunks
(`chunksOf`, of at most `c` bytes each, `flatten_chunksOf`), and `EndPayload`. -/
theorem lockstep_delivers (w : Wire) (hw : w.Decodes) (payloads : List PayloadToSend) {size : Int}
    (hsize : 0 ≤ size) (active : Bool) (envs : List Env) (henv : ∀ e ∈ envs, e.Succeeds)
    (hlen : envs.length = (payloads.map fun x => (x.data.length +
      (effectiveChunkSize size).toNat - 1) / (effectiveChunkSize size).toNat + 2).sum + 1) :
    (envs.foldl (round w) (Lockstep.start payloads size active)).produced =
        List.replicate (envs.length - 1) (.ok (.ok (false, false))) ++
          [.ok (.ok (false, true))] ∧
      (envs.foldl (round w) (Lockstep.start payloads size active)).received =
        List.replicate (envs.length - 1) (.ok ()) ∧
      (envs.foldl (round w) (Lockstep.start payloads size active)).handled =
        List.replicate (envs.length - 1) (.ok (.ok ())) ∧
      ∃ rs : List EndResult, rs.length = payloads.length ∧ (∀ r ∈ rs, r.err = none) ∧
        (envs.foldl (round w) (Lockstep.start payloads size active)).calls =
          (List.zipWith (payloadCalls (effectiveChunkSize size).toNat) payloads rs).flatten := by
  have heff : 0 < effectiveChunkSize size := by
    unfold effectiveChunkSize; split_ifs <;> omega
  have hstart : AtBegin payloads (effectiveChunkSize size).toNat
      (Lockstep.start payloads size active) 0 := by
    rw [Lockstep.start, PayloadOwner.configure_eq_configured]
    exact ⟨rfl, rfl, rfl, rfl, (Int.toNat_of_nonneg (Int.le_of_lt heff)).symm, rfl, rfl⟩
  generalize hc : (effectiveChunkSize size).toNat = c at hlen hstart ⊢
  have hc0 : 0 < c := by omega
  obtain ⟨es, e, rfl⟩ : ∃ es e, envs = es ++ [e] := by
    obtain ⟨es, e, h⟩ := (List.eq_nil_or_concat envs).resolve_left fun h => by simp [h] at hlen
    exact ⟨es, e, h.trans (List.concat_eq_append _ _)⟩
  simp only [List.length_append, List.length_cons, List.length_nil, Nat.zero_add,
    Nat.add_sub_cancel] at hlen ⊢
  have hes : es.length = (payloads.map fun x => (chunksOf c x.data).length + 2).sum := by
    rw [Nat.add_right_cancel hlen]
    exact congrArg List.sum (List.map_congr_left fun x _ => by rw [length_chunksOf hc0])
  obtain ⟨h₁, rs, hrs, hrs', l₁⟩ := rounds_payloads hw hc0 payloads es
    (fun e' he' => henv e' (List.mem_append_left _ he')) hstart (List.drop_zero _) hes
  rw [Nat.zero_add] at h₁
  rw [List.foldl_append, List.foldl_cons, List.foldl_nil, round_done h₁]
  exact ⟨by rw [← l₁.produced.trans (List.nil_append _)], l₁.received.trans (List.nil_append _),
    l₁.handled.trans (List.nil_append _), rs, hrs, hrs', l₁.calls.trans (List.nil_append _)⟩

end Run

/-- Three bytes of `text/plain`, sent in chunks of two. -/
def textPayload : PayloadToSend := ⟨ascii "text/plain", ascii "a", [1, 2, 3], none⟩

theorem lockstep_delivers_textPayload :
    ((List.replicate 5 (Env.succeeding ⟨true, [], [], none⟩)).foldl (round Wire.byField)
        (Lockstep.start [textPayload] 2 true)).produced =
        List.replicate 4 (.ok (.ok (false, false))) ++ [.ok (.ok (false, true))] ∧
      ((List.replicate 5 (Env.succeeding ⟨true, [], [], none⟩)).foldl (round Wire.byField)
        (Lockstep.start [textPayload] 2 true)).received = List.replicate 4 (.ok ()) ∧
      ((List.replicate 5 (Env.succeeding ⟨true, [], [], none⟩)).foldl (round Wire.byField)
        (Lockstep.start [textPayload] 2 true)).handled = List.replicate 4 (.ok (.ok ())) ∧
      ∃ rs : List EndResult, rs.length = 1 ∧ (∀ r ∈ rs, r.err = none) ∧
        ((List.replicate 5 (Env.succeeding ⟨true, [], [], none⟩)).foldl (round Wire.byField)
          (Lockstep.start [textPayload] 2 true)).calls =
          (List.zipWith (payloadCalls 2) [textPayload] rs).flatten :=
  lockstep_delivers Wire.byField Wire.byField_decodes [textPayload] (by decide) true _
    (fun e he => List.eq_of_mem_replicate he ▸ ⟨rfl, rfl, rfl, rfl, rfl⟩) rfl

end Fsim
end GoFdo
