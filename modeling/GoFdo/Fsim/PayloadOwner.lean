import GoFdo.Fsim.Payload

/-!
# The owner side of `fdo.payload`

`PayloadOwner` sends its payloads one after the other: a `begin`, the data in chunks of
`chunkSize` bytes, each waiting for the device's `ack`, then an `end`, after which the
device's `result` moves it to the next payload. `ProduceInfo` writes the next message and
`HandleInfo` reads the device's. `AddPayload` and `SetChunkSize` on a new owner leave the
owner `configured` (`configure_eq_configured`), from which the runs start.

Two runtime panics are possible in the source: a field read through a nil `currentPayload`,
and a slice of `Data` out of its bounds. A call's outcome says whether it returned or
panicked.
-/

namespace GoFdo
namespace Fsim

/-- `PayloadToSend`. -/
structure PayloadToSend where
  mimeType : Bytes
  name : Bytes
  data : Bytes
  metadata : Option (List (Bytes × Bytes))
  deriving DecidableEq, Repr

/-- The messages the owner writes: the `begin` map leaves out `name` when empty, `size` when
there is no data, and `metadata` when nil. -/
inductive OwnerMessage where
  | begin (mimeType : Bytes) (name : Option Bytes) (size : Option Int)
      (metadata : Option (List (Bytes × Bytes)))
  | data (chunk : Bytes)
  /-- The `end` message. -/
  | finish
  deriving DecidableEq, Repr

/-- The errors of the owner's calls. -/
inductive OwnerError where
  /-- `failed to encode begin: %w`. -/
  | encodeBegin (e : Bytes)
  /-- `failed to send begin: %w`. -/
  | sendBegin (e : Bytes)
  /-- `failed to encode data chunk: %w`. -/
  | encodeData (e : Bytes)
  /-- `failed to send data chunk: %w`. -/
  | sendData (e : Bytes)
  /-- `failed to encode end: %w`. -/
  | encodeEnd (e : Bytes)
  /-- `failed to send end: %w`. -/
  | sendEnd (e : Bytes)
  /-- `invalid active response: %w`. -/
  | invalidActive (e : Bytes)
  /-- `invalid ready response: %w`. -/
  | invalidReady (e : Bytes)
  /-- `device not ready for payload`. -/
  | notReady
  /-- `invalid ack response: %w`. -/
  | invalidAck (e : Bytes)
  /-- `ack mismatch: sent %d, device received %d`. -/
  | ackMismatch (sent received : Int)
  /-- `invalid result response: %w`. -/
  | invalidResult (e : Bytes)
  /-- `invalid error response: %w`. -/
  | invalidError (e : Bytes)
  /-- `payload error %d: %s`. -/
  | payload (code : Int) (message : Bytes)
  deriving DecidableEq, Repr

/-- The Go runtime panics the module can meet. -/
inductive Panic where
  /-- A field read through the nil `currentPayload`. -/
  | nilDereference
  /-- `Data[low : high]` with the bounds out of order or past the data; Go checks `high`
against the capacity, which is at least the length, and the owner never asks past the
length. -/
  | sliceBounds (low high : Int)
  deriving DecidableEq, Repr

/-- The fields of `PayloadOwner`. `currentPayload` points into `payloads`, and is kept here as
the payload it points to. -/
structure PayloadOwner where
  payloads : List PayloadToSend
  currentPayload : Option PayloadToSend
  currentIndex : Nat
  bytesSent : Int
  chunkSize : Int
  waitingForAck : Bool
  lastError : Option ErrorMessage
  deriving DecidableEq, Repr

/-- What the cbor encoder and the `serviceinfo.Producer` answer during one `ProduceInfo`:
an error's text, or `none` when the call succeeds. -/
structure OwnerEnv where
  encode : Option Bytes
  writeChunk : Option Bytes

namespace PayloadOwner

/-- What one call does: the fields after it, the messages it wrote, and how it ended: a
panic, or a return with an error or a value. -/
structure Outcome (α : Type) where
  state : PayloadOwner
  written : List OwnerMessage
  result : Except Panic (Except OwnerError α)

/-- A call that wrote nothing and returned `r`. -/
def Outcome.returns {α : Type} (p : PayloadOwner) (r : Except OwnerError α) : Outcome α :=
  ⟨p, [], .ok r⟩

/-- `AddPayload(mimeType, name, data, metadata)`. -/
def addPayload (p : PayloadOwner) (mimeType name data : Bytes)
    (metadata : Option (List (Bytes × Bytes))) : PayloadOwner :=
  { p with payloads := p.payloads ++ [⟨mimeType, name, data, metadata⟩] }

/-- `SetChunkSize(size)`. -/
def setChunkSize (p : PayloadOwner) (size : Int) : PayloadOwner := { p with chunkSize := size }

/-- `reset()`. -/
def reset (p : PayloadOwner) : PayloadOwner :=
  { p with currentPayload := none, currentIndex := 0, bytesSent := 0, waitingForAck := false,
           lastError := none }

/-- `Transition(active)`, which returns nil. -/
def transition (p : PayloadOwner) (active : Bool) : PayloadOwner :=
  if active then p else reset p

/-- `begin` of `produceInfo`: the message that opens the payload `c`. -/
def beginMessage (c : PayloadToSend) : OwnerMessage :=
  .begin c.mimeType (if c.name ≠ [] then some c.name else none)
    (if c.data ≠ [] then some c.data.length else none) c.metadata

/-- Encoding then writing the message `m` under its key; `p` is what the call leaves when
both succeed. -/
def writeMessage (env : OwnerEnv) (encodeErr sendErr : Bytes → OwnerError) (p : PayloadOwner)
    (q : PayloadOwner) (m : OwnerMessage) : Outcome (Bool × Bool) :=
  match env.encode with
  | some e => ⟨q, [], .ok (.error (encodeErr e))⟩
  | none =>
    match env.writeChunk with
    | some e => ⟨q, [], .ok (.error (sendErr e))⟩
    | none => ⟨p, [m], .ok (.ok (false, false))⟩

/-- `produceInfo(ctx, producer)`, returning `(blockPeer, moduleDone)`. -/
def produceInfo (p : PayloadOwner) (env : OwnerEnv) : Outcome (Bool × Bool) :=
  if p.waitingForAck then .returns p (.ok (true, false))
  else
    match p.currentPayload with
    | none =>
      if h : p.currentIndex < p.payloads.length then
        let c := p.payloads[p.currentIndex]
        let q := { p with currentPayload := some c, bytesSent := 0,
                          chunkSize := if p.chunkSize = 0 then 4096 else p.chunkSize }
        writeMessage env .encodeBegin .sendBegin q q (beginMessage c)
      else .returns p (.ok (false, true))
    | some c =>
      if p.bytesSent < c.data.length then
        let remaining := c.data.length - p.bytesSent
        let chunkLen := if p.chunkSize > remaining then remaining else p.chunkSize
        if 0 ≤ p.bytesSent ∧ p.bytesSent ≤ p.bytesSent + chunkLen ∧
            p.bytesSent + chunkLen ≤ c.data.length then
          let chunk := (c.data.drop p.bytesSent.toNat).take chunkLen.toNat
          writeMessage env .encodeData .sendData
            { p with bytesSent := p.bytesSent + chunkLen, waitingForAck := true } p (.data chunk)
        else ⟨p, [], .error (.sliceBounds p.bytesSent (p.bytesSent + chunkLen))⟩
      else writeMessage env .encodeEnd .sendEnd p p .finish

/-- `receive(ctx, key, messageBody, respond)`, which `HandleInfo` calls. -/
def receive (p : PayloadOwner) (key : Bytes) (body : Body) : Outcome Unit :=
  if key = ascii "active" then
    match body.bool with
    | .error e => .returns p (.error (.invalidActive e))
    | .ok _ => .returns p (.ok ())
  else if key = ascii "ready" then
    match body.bool with
    | .error e => .returns p (.error (.invalidReady e))
    | .ok false => .returns p (.error .notReady)
    | .ok true => .returns p (.ok ())
  else if key = ascii "ack" then
    match body.int with
    | .error e => .returns p (.error (.invalidAck e))
    | .ok n =>
      let q := { p with waitingForAck := false }
      if n ≠ p.bytesSent then .returns q (.error (.ackMismatch p.bytesSent n))
      else .returns q (.ok ())
  else if key = ascii "result" then
    match body.result with
    | .error e => .returns p (.error (.invalidResult e))
    | .ok _ =>
      match p.currentPayload with
      | none => ⟨p, [], .error .nilDereference⟩
      | some _ =>
        .returns { p with currentPayload := none, currentIndex := p.currentIndex + 1,
                          bytesSent := 0 } (.ok ())
  else if key = ascii "error" then
    match body.error with
    | .error e => .returns p (.error (.invalidError e))
    | .ok info =>
      .returns { p with lastError := some info, currentPayload := none, bytesSent := 0 }
        (.error (.payload info.code info.message))
  else .returns p (.ok ())

/-- `HandleInfo(ctx, messageName, messageBody)`. -/
def handleInfo (p : PayloadOwner) (key : Bytes) (body : Body) : Outcome Unit :=
  receive p key body

/-- A call on the module. -/
inductive Call where
  | transition (active : Bool)
  | handleInfo (key : Bytes) (body : Body)
  | produceInfo (env : OwnerEnv)

/-- One call: the fields after it, and the panic it met, if any. -/
def step (p : PayloadOwner) : Call → PayloadOwner × Option Panic
  | .transition a => (transition p a, none)
  | .handleInfo key body =>
    ((handleInfo p key body).state,
      match (handleInfo p key body).result with
      | .error x => some x
      | .ok _ => none)
  | .produceInfo env =>
    ((produceInfo p env).state,
      match (produceInfo p env).result with
      | .error x => some x
      | .ok _ => none)

/-- A run of calls, going on after a panic as after a recovered one: the fields after it, and
the panics met, in order. -/
def run (p : PayloadOwner) : List Call → PayloadOwner × List Panic
  | [] => (p, [])
  | c :: cs => ((run (step p c).1 cs).1, (step p c).2.toList ++ (run (step p c).1 cs).2)

/-! ### Safety -/

/-- What holds between calls once the chunk size is set to at least zero: a current payload
has a positive chunk size and `0 ≤ bytesSent ≤ len(Data)`. -/
def Inv (p : PayloadOwner) : Prop :=
  0 ≤ p.chunkSize ∧ ∀ c, p.currentPayload = some c →
    1 ≤ p.chunkSize ∧ 0 ≤ p.bytesSent ∧ p.bytesSent ≤ c.data.length

variable {p : PayloadOwner}

theorem Inv.of_none {q : PayloadOwner} (h : Inv p) (hc : q.chunkSize = p.chunkSize)
    (hq : q.currentPayload = none) : Inv q :=
  ⟨hc ▸ h.1, fun c hc' => by simp [hq] at hc'⟩

theorem writeMessage_state (env : OwnerEnv) (ee se : Bytes → OwnerError) (q r : PayloadOwner)
    (m : OwnerMessage) : (writeMessage env ee se q r m).state = q ∨
      (writeMessage env ee se q r m).state = r := by
  unfold writeMessage
  split
  · exact .inr rfl
  · split <;> simp

theorem writeMessage_returns (env : OwnerEnv) (ee se : Bytes → OwnerError) (q r : PayloadOwner)
    (m : OwnerMessage) : ∃ x, (writeMessage env ee se q r m).result = .ok x := by
  unfold writeMessage
  split
  · exact ⟨_, rfl⟩
  · split <;> exact ⟨_, rfl⟩

/-- Under the invariant, `ProduceInfo` keeps it and never panics: the chunk it slices lies
within the data. -/
theorem produceInfo_inv (h : Inv p) (env : OwnerEnv) :
    Inv (produceInfo p env).state ∧ ∃ x, (produceInfo p env).result = .ok x := by
  obtain ⟨hc0, hcur⟩ := h
  unfold produceInfo
  split
  · exact ⟨⟨hc0, hcur⟩, _, rfl⟩
  split
  · split
    · refine ⟨?_, writeMessage_returns ..⟩
      rcases writeMessage_state env .encodeBegin .sendBegin _ _ _ with hs | hs <;> rw [hs] <;>
      · refine ⟨by dsimp only; split_ifs <;> omega, fun c _ => ?_⟩
        dsimp only
        refine ⟨by split_ifs <;> omega, Int.le_refl 0, by omega⟩
    · exact ⟨⟨hc0, hcur⟩, _, rfl⟩
  · rename_i c hc
    obtain ⟨h1, h0, hl⟩ := hcur c hc
    split
    · rw [if_pos (by split_ifs <;> omega)]
      refine ⟨?_, writeMessage_returns ..⟩
      rcases writeMessage_state env .encodeData .sendData _ _ _ with hs | hs <;> rw [hs]
      · refine ⟨hc0, fun c' hc' => ?_⟩
        rw [hc, Option.some.injEq] at hc'
        subst hc'
        dsimp only
        refine ⟨h1, ?_, ?_⟩ <;> split_ifs <;> omega
      · exact ⟨hc0, hcur⟩
    · refine ⟨?_, writeMessage_returns ..⟩
      rcases writeMessage_state env .encodeEnd .sendEnd p p _ with hs | hs <;> rw [hs] <;>
        exact ⟨hc0, hcur⟩

theorem receive_inv (h : Inv p) (key : Bytes) (body : Body) : Inv (receive p key body).state := by
  unfold receive
  split_ifs <;> (try split) <;> (try split) <;> first
    | exact h
    | exact h.of_none rfl rfl

/-- `HandleInfo` panics exactly on a `result` that decodes while no payload is current, and
then on the nil `currentPayload`. -/
theorem receive_result_eq_error {key : Bytes} {body : Body} {x : Panic} :
    (receive p key body).result = .error x ↔
      x = .nilDereference ∧ key = ascii "result" ∧ (∃ r, body.result = .ok r) ∧
        p.currentPayload = none := by
  have k₁ : ascii "active" ≠ ascii "result" := by decide
  have k₂ : ascii "ready" ≠ ascii "result" := by decide
  have k₃ : ascii "ack" ≠ ascii "result" := by decide
  have k₄ : ascii "error" ≠ ascii "result" := by decide
  unfold receive
  split_ifs <;> (try split) <;> (try split) <;> simp_all [Outcome.returns, eq_comm]

theorem transition_inv (h : Inv p) (a : Bool) : Inv (transition p a) := by
  unfold transition
  split
  · exact h
  · exact h.of_none rfl rfl

theorem step_inv (h : Inv p) (c : Call) :
    Inv (step p c).1 ∧ ∀ x, (step p c).2 = some x → x = .nilDereference := by
  cases c with
  | transition a => exact ⟨transition_inv h a, fun _ hx => by cases hx⟩
  | handleInfo key body =>
    refine ⟨receive_inv h key body, fun x hx => ?_⟩
    simp only [step, handleInfo] at hx
    split at hx
    · cases hx
      exact (receive_result_eq_error.mp ‹_›).1
    · cases hx
  | produceInfo env =>
    obtain ⟨hi, r, hr⟩ := produceInfo_inv h env
    refine ⟨hi, fun x hx => ?_⟩
    simp only [step, hr] at hx
    cases hx

/-- Over any run from a state with the invariant, the invariant holds after every call, and
the one panic met is a nil `currentPayload`: no call slices `Data` out of range. -/
theorem run_inv (h : Inv p) (cs : List Call) :
    Inv (run p cs).1 ∧ ∀ x ∈ (run p cs).2, x = .nilDereference := by
  induction cs generalizing p with
  | nil => exact ⟨h, fun _ hx => by cases hx⟩
  | cons c cs ih =>
    obtain ⟨h₁, hx₁⟩ := step_inv h c
    obtain ⟨h₂, hx₂⟩ := ih h₁
    refine ⟨h₂, fun x hx => ?_⟩
    rcases List.mem_append.mp hx with hx | hx
    · exact hx₁ x (Option.mem_toList.mp hx)
    · exact hx₂ x hx

/-- An owner as `AddPayload` and `SetChunkSize` leave a zero `PayloadOwner`. -/
def configured (payloads : List PayloadToSend) (chunkSize : Int) : PayloadOwner :=
  ⟨payloads, none, 0, 0, chunkSize, false, none⟩

/-- `AddPayload` for each payload in turn, then `SetChunkSize(size)`, on a zero
`PayloadOwner`. -/
def configure (payloads : List PayloadToSend) (size : Int) : PayloadOwner :=
  (payloads.foldl (fun p x => p.addPayload x.mimeType x.name x.data x.metadata)
    (configured [] 0)).setChunkSize size

theorem foldl_addPayload (ps xs : List PayloadToSend) :
    xs.foldl (fun p x => p.addPayload x.mimeType x.name x.data x.metadata) (configured ps 0) =
      configured (ps ++ xs) 0 := by
  induction xs generalizing ps with
  | nil => rw [List.foldl_nil, List.append_nil]
  | cons x xs ih =>
    rw [List.foldl_cons, ← List.singleton_append, ← List.append_assoc, ← ih]
    rfl

/-- The calls leave the payloads in the order they were added, and the chunk size set. -/
theorem configure_eq_configured (payloads : List PayloadToSend) (size : Int) :
    configure payloads size = configured payloads size := by
  rw [configure, foldl_addPayload, List.nil_append]
  rfl

/-- An owner configured with any payloads and a chunk size of at least zero: over any run,
`0 ≤ bytesSent ≤ len(Data)` while a payload is current and no call slices `Data` out of
range; the one panic a call can meet is the nil `currentPayload`. -/
theorem run_configured (payloads : List PayloadToSend) {chunkSize : Int} (hc : 0 ≤ chunkSize)
    (cs : List Call) :
    Inv (run (configured payloads chunkSize) cs).1 ∧
      ∀ x ∈ (run (configured payloads chunkSize) cs).2, x = .nilDereference :=
  run_inv ⟨hc, fun _ h => by cases h⟩ cs

/-- The `begin` and the first chunk of a three-byte payload sent in chunks of two. -/
theorem run_configured_textPayload :
    (0 : Int) ≤ 2 ∧
      Inv (run (configured [⟨ascii "text/plain", ascii "a", [1, 2, 3], none⟩] 2)
        [.produceInfo ⟨none, none⟩, .handleInfo (ascii "ready") (.ofBool true),
          .produceInfo ⟨none, none⟩]).1 ∧
      ∀ x ∈ (run (configured [⟨ascii "text/plain", ascii "a", [1, 2, 3], none⟩] 2)
        [.produceInfo ⟨none, none⟩, .handleInfo (ascii "ready") (.ofBool true),
          .produceInfo ⟨none, none⟩]).2, x = .nilDereference :=
  ⟨by decide, run_configured _ (by decide) _⟩

/-- A `result` before any `begin`: `HandleInfo` reads the fields of the nil `currentPayload`
to log them. -/
theorem handleInfo_result_before_begin :
    (handleInfo (configured [] 0) (ascii "result") (.ofResult ⟨true, [], []⟩)).result =
      .error .nilDereference :=
  rfl

end PayloadOwner

end Fsim
end GoFdo
