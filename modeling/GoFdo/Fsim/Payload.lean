import GoFdo.Text.Bytes

/-!
# The device side of `fdo.payload`

`Payload` receives payloads from the owner in `begin`, `data`, ..., `end` exchanges and
hands them to a `PayloadHandler`. The handler and the `respond` writer are the module's
environment: what they answer during one `Receive` is an `Env`. What the module does to
them, the calls it makes on the handler and then the replies it writes, is returned beside
the module's own fields, as its peers see it.

The bodies of the owner's messages are CBOR, read by the cbor package, which is not among
the sources: a `Body` is given by what decoding it into each Go type yields, and every
combination of decodings is allowed.
-/

namespace GoFdo
namespace Fsim

/-- The `begin` message as the device decodes it into its tagged struct: fields absent from
the map keep their zero values, and an absent `metadata` is a nil map. -/
structure BeginMessage where
  mimeType : Bytes
  name : Bytes
  size : Int
  metadata : Option (List (Bytes × Bytes))
  deriving DecidableEq, Repr

/-- The `result` message as the owner decodes it. -/
structure ResultMessage where
  success : Bool
  message : Bytes
  output : Bytes
  deriving DecidableEq, Repr

/-- The `error` message as the owner decodes it. -/
structure ErrorMessage where
  code : Int
  message : Bytes
  details : Bytes
  deriving DecidableEq, Repr

/-- A message body, by what `cbor.NewDecoder(messageBody).Decode` yields for each Go type the
payload modules decode into: the value, or an error with its text. -/
structure Body where
  bool : Except Bytes Bool
  int : Except Bytes Int
  bytes : Except Bytes Bytes
  begin : Except Bytes BeginMessage
  result : Except Bytes ResultMessage
  error : Except Bytes ErrorMessage

namespace Body

/-! The body of a message that encodes one value, as its receiver reads it under the
message's key. The modules decode each key's body into one Go type only; the other
decodings are never made, and are errors here. -/

/-- A CBOR boolean. -/
def ofBool (v : Bool) : Body := ⟨.ok v, .error [], .error [], .error [], .error [], .error []⟩

/-- A CBOR integer. -/
def ofInt (n : Int) : Body := ⟨.error [], .ok n, .error [], .error [], .error [], .error []⟩

/-- A CBOR byte string. -/
def ofBytes (d : Bytes) : Body := ⟨.error [], .error [], .ok d, .error [], .error [], .error []⟩

/-- A `begin` map. -/
def ofBegin (b : BeginMessage) : Body :=
  ⟨.error [], .error [], .error [], .ok b, .error [], .error []⟩

/-- A `result` map. -/
def ofResult (r : ResultMessage) : Body :=
  ⟨.error [], .error [], .error [], .error [], .ok r, .error []⟩

/-- An `error` map. -/
def ofError (e : ErrorMessage) : Body :=
  ⟨.error [], .error [], .error [], .error [], .error [], .ok e⟩

end Body

/-- The four results of `EndPayload`; a Go `error` is `none` for nil and otherwise its text. -/
structure EndResult where
  success : Bool
  message : Bytes
  output : Bytes
  err : Option Bytes
  deriving DecidableEq, Repr

/-- What the handler and the `respond` writer answer during one `Receive`. The module makes
at most one call of each kind in a `Receive` and writes at most one reply. -/
structure Env where
  supportsMimeType : Bool
  beginPayload : Option Bytes
  receiveChunk : Option Bytes
  endPayload : EndResult
  /-- The encoder's error on the reply, if it fails. -/
  encode : Option Bytes

/-- The calls on the `PayloadHandler`, with what it answered. -/
inductive HandlerCall where
  | supportsMimeType (mimeType : Bytes) (supported : Bool)
  | beginPayload (begin : BeginMessage) (err : Option Bytes)
  | receiveChunk (data : Bytes) (err : Option Bytes)
  | endPayload (result : EndResult)
  | cancelPayload
  deriving DecidableEq, Repr

/-- The replies the device writes, with the values it encodes; `[]` stands for an optional
entry the source leaves out of the map, which the owner decodes as `""`. -/
inductive Reply where
  | active (active : Bool)
  | ready (ready : Bool)
  | ack (totalBytes : Int)
  | result (success : Bool) (message output : Bytes)
  | error (code : Int) (message details : Bytes)
  deriving DecidableEq, Repr

/-- The errors `Receive` returns. -/
inductive PayloadError where
  /-- `invalid active message: %w`. -/
  | invalidActive (e : Bytes)
  /-- The encoder's error on a reply, returned as it is. -/
  | encode (e : Bytes)
  /-- `failed to encode error: %w`. -/
  | encodeError (e : Bytes)
  /-- `payload error: %s`, with the message of the `error` reply. -/
  | payload (message : Bytes)
  deriving DecidableEq, Repr

/-- The fields of `Payload`. `Handler` is only compared with nil here, its behaviour being the
environment's, and the module never writes it; `buffer` is reset and never read. The
`int64` counters are integers: they wrap only past `2 ^ 63` bytes. -/
structure Payload where
  handler : Bool
  active : Bool
  receiving : Bool
  totalBytes : Int
  expectedSize : Int
  deriving DecidableEq, Repr

namespace Payload

/-- What one call does: the fields after it, its calls on the handler, the replies it
writes after them, and the error it returns. -/
structure Outcome where
  state : Payload
  calls : List HandlerCall
  replies : List Reply
  result : Except PayloadError Unit

/-- The outcome of a call that ends by writing the replies `r.1` and returning `r.2`. -/
def Outcome.of (p : Payload) (cs : List HandlerCall) (r : List Reply × Except PayloadError Unit) :
    Outcome :=
  ⟨p, cs, r.1, r.2⟩

/-- `sendError(respond, code, message, details)`: the `error` reply, then the error. -/
def sendError (env : Env) (code : Int) (message details : Bytes) :
    List Reply × Except PayloadError Unit :=
  match env.encode with
  | none => ([.error code message details], .error (.payload message))
  | some e => ([], .error (.encodeError e))

/-- `cbor.NewEncoder(respond(key)).Encode(v)`: the reply, or the encoder's error. -/
def reply (env : Env) (r : Reply) : List Reply × Except PayloadError Unit :=
  match env.encode with
  | none => ([r], .ok ())
  | some e => ([], .error (.encode e))

/-- `fmt.Sprintf("MIME type '%s' not supported", mimeType)`. -/
def mimeNotSupported (mimeType : Bytes) : Bytes :=
  ascii "MIME type \x27" ++ mimeType ++ ascii "\x27 not supported"

/-- `fmt.Sprintf("Size mismatch: expected %d, received %d", expectedSize, totalBytes)`. -/
def sizeMismatch (expectedSize totalBytes : Int) : Bytes :=
  ascii "Size mismatch: expected " ++ ascii (toString expectedSize) ++ ascii ", received " ++
    ascii (toString totalBytes)

/-- `receive(ctx, key, messageBody, respond)`, on a `begin`. -/
def receiveBegin (p : Payload) (body : Body) (env : Env) : Outcome :=
  if p.handler = false then .of p [] (sendError env 4 (ascii "No payload handler configured") [])
  else
    match body.begin with
    | .error e => .of p [] (sendError env 2 (ascii "Invalid begin message format") e)
    | .ok b =>
      if env.supportsMimeType = false then
        .of p [.supportsMimeType b.mimeType false] (sendError env 1 (mimeNotSupported b.mimeType) [])
      else
        match env.beginPayload with
        | some e =>
          .of p [.supportsMimeType b.mimeType true, .beginPayload b (some e)]
            (sendError env 4 (ascii "Failed to prepare for payload") e)
        | none =>
          .of { p with receiving := true, totalBytes := 0, expectedSize := b.size }
            [.supportsMimeType b.mimeType true, .beginPayload b none] (reply env (.ready true))

/-- `receive`, on a `data` chunk. -/
def receiveData (p : Payload) (body : Body) (env : Env) : Outcome :=
  if p.receiving = false then
    .of p [] (sendError env 6 (ascii "Not ready to receive data") (ascii "Call begin first"))
  else
    match body.bytes with
    | .error e => .of p [] (sendError env 6 (ascii "Invalid data chunk") e)
    | .ok d =>
      match env.receiveChunk with
      | some e =>
        .of { p with receiving := false } [.receiveChunk d (some e)]
          (sendError env 4 (ascii "Failed to process chunk") e)
      | none =>
        .of { p with totalBytes := p.totalBytes + d.length } [.receiveChunk d none]
          (reply env (.ack (p.totalBytes + d.length)))

/-- `receive`, on an `end`. -/
def receiveEnd (p : Payload) (env : Env) : Outcome :=
  if p.receiving = false then .of p [] (sendError env 6 (ascii "No active transfer") [])
  else if 0 < p.expectedSize ∧ p.totalBytes ≠ p.expectedSize then
    .of { p with receiving := false } [] (sendError env 6 (sizeMismatch p.expectedSize p.totalBytes) [])
  else
    let r := env.endPayload
    .of { p with receiving := false } [.endPayload r]
      (match r.err with
        | some e => sendError env 4 (ascii "Failed to apply payload") e
        | none => reply env (.result r.success r.message r.output))

/-- `receive(ctx, key, messageBody, respond)`. -/
def receive (p : Payload) (key : Bytes) (body : Body) (env : Env) : Outcome :=
  if key = ascii "active" then
    match body.bool with
    | .error e => ⟨p, [], [], .error (.invalidActive e)⟩
    | .ok _ => .of p [] (reply env (.active p.active))
  else if key = ascii "begin" then receiveBegin p body env
  else if key = ascii "data" then receiveData p body env
  else if key = ascii "end" then receiveEnd p env
  else ⟨p, [], [], .ok ()⟩

/-- `reset()`: cancels the handler's transfer when `receiving`. -/
def reset (p : Payload) : Payload × List HandlerCall :=
  ({ p with receiving := false, totalBytes := 0, expectedSize := 0 },
    if p.receiving && p.handler then [.cancelPayload] else [])

/-- `Receive(ctx, messageName, messageBody, respond, yield)`: `receive`, then `reset` when it
fails. -/
def Receive (p : Payload) (key : Bytes) (body : Body) (env : Env) : Outcome :=
  let o := receive p key body env
  match o.result with
  | .ok () => o
  | .error _ => { o with state := (reset o.state).1, calls := o.calls ++ (reset o.state).2 }

/-- `Transition(active)`, which returns nil. -/
def transition (p : Payload) (active : Bool) : Payload × List HandlerCall :=
  if active then (p, []) else reset p

/-- A call on the module: `Transition(active)`, or `Receive(key, body)` in the environment
`env`. -/
inductive Call where
  | transition (active : Bool)
  | receive (key : Bytes) (body : Body) (env : Env)

/-- One call on the module. -/
def step (p : Payload) : Call → Outcome
  | .transition a => ⟨(transition p a).1, (transition p a).2, [], .ok ()⟩
  | .receive key body env => Receive p key body env

/-- A run of calls: the fields after it, and the calls made on the handler, in order. -/
def run (p : Payload) : List Call → Payload × List HandlerCall
  | [] => (p, [])
  | c :: cs => ((run (step p c).state cs).1, (step p c).calls ++ (run (step p c).state cs).2)

end Payload

/-! ### The handler's side -/

namespace HandlerCall

/-- Whether the handler has a transfer open after this call, `o` saying whether it had one
before: a transfer is open from a successful `BeginPayload` until the next `EndPayload` or
`CancelPayload`. -/
def opens (o : Bool) : HandlerCall → Bool
  | .beginPayload _ none => true
  | .endPayload _ | .cancelPayload => false
  | _ => o

/-- `ReceiveChunk` and `EndPayload` are made inside a transfer. -/
def inside (o : Bool) : HandlerCall → Bool
  | .receiveChunk _ _ | .endPayload _ => o
  | _ => true

/-- `BeginPayload` is made outside any transfer. -/
def outside (o : Bool) : HandlerCall → Bool
  | .beginPayload _ _ => !o
  | _ => true

end HandlerCall

/-- Whether the handler has a transfer open after the calls `cs`, from `o`. -/
def transferOpen (o : Bool) (cs : List HandlerCall) : Bool := cs.foldl HandlerCall.opens o

/-- Every call of `cs` meets `ok` with the handler's state before it, from `o`. -/
def everyCall (ok : Bool → HandlerCall → Bool) : Bool → List HandlerCall → Bool
  | _, [] => true
  | o, c :: cs => ok o c && everyCall ok (c.opens o) cs

@[simp] theorem transferOpen_nil (o : Bool) : transferOpen o [] = o := rfl

@[simp] theorem transferOpen_cons (o : Bool) (c : HandlerCall) (cs : List HandlerCall) :
    transferOpen o (c :: cs) = transferOpen (c.opens o) cs := rfl

@[simp] theorem transferOpen_append (o : Bool) (cs ds : List HandlerCall) :
    transferOpen o (cs ++ ds) = transferOpen (transferOpen o cs) ds :=
  List.foldl_append _ _ _ _

@[simp] theorem everyCall_nil (ok : Bool → HandlerCall → Bool) (o : Bool) :
    everyCall ok o [] = true := rfl

@[simp] theorem everyCall_cons (ok : Bool → HandlerCall → Bool) (o : Bool) (c : HandlerCall)
    (cs : List HandlerCall) : everyCall ok o (c :: cs) = (ok o c && everyCall ok (c.opens o) cs) :=
  rfl

@[simp] theorem everyCall_append (ok : Bool → HandlerCall → Bool) (o : Bool)
    (cs ds : List HandlerCall) :
    everyCall ok o (cs ++ ds) = (everyCall ok o cs && everyCall ok (transferOpen o cs) ds) := by
  induction cs generalizing o with
  | nil => rfl
  | cons c cs ih => simp [ih, Bool.and_assoc]

namespace Payload

@[simp] theorem Outcome.of_state (p : Payload) (cs : List HandlerCall)
    (r : List Reply × Except PayloadError Unit) : (Outcome.of p cs r).state = p := rfl

@[simp] theorem Outcome.of_calls (p : Payload) (cs : List HandlerCall)
    (r : List Reply × Except PayloadError Unit) : (Outcome.of p cs r).calls = cs := rfl

/-- What holds between calls: the module is `receiving` only with a handler and while the
handler has a transfer open. -/
def Inv (p : Payload) (o : Bool) : Prop := p.receiving = true → p.handler = true ∧ o = true

/-- What a call from `p`, with the handler's transfer state `o`, keeps when it leaves `q` and
makes the calls `cs`: the invariant, the handler, and chunks and ends inside a transfer. -/
def Keeps (p : Payload) (o : Bool) (q : Payload) (cs : List HandlerCall) : Prop :=
  Inv q (transferOpen o cs) ∧ q.handler = p.handler ∧ everyCall HandlerCall.inside o cs = true

variable {p q r : Payload} {o : Bool}

theorem Keeps.trans {cs ds : List HandlerCall} (h₁ : Keeps p o q cs)
    (h₂ : Keeps q (transferOpen o cs) r ds) : Keeps p o r (cs ++ ds) := by
  refine ⟨by simpa using h₂.1, h₂.2.1.trans h₁.2.1, ?_⟩
  simp [h₁.2.2, h₂.2.2]

theorem Keeps.refl (h : Inv p o) : Keeps p o p [] := ⟨h, rfl, rfl⟩

theorem Inv.of_not_receiving (h : q.receiving = false) : Inv q o := by
  simp [Inv, h]

theorem receiveBegin_keeps (h : Inv p o) (body : Body) (env : Env) :
    Keeps p o (receiveBegin p body env).state (receiveBegin p body env).calls := by
  unfold receiveBegin
  by_cases hh : p.handler = false
  · rw [if_pos hh]; exact .refl h
  rw [if_neg hh]
  split
  · exact .refl h
  · split
    · exact ⟨h, rfl, rfl⟩
    · split
      · exact ⟨h, rfl, rfl⟩
      · exact ⟨fun _ => ⟨by simpa using hh, rfl⟩, rfl, rfl⟩

theorem receiveData_keeps (h : Inv p o) (body : Body) (env : Env) :
    Keeps p o (receiveData p body env).state (receiveData p body env).calls := by
  unfold receiveData
  split_ifs with hr
  · exact .refl h
  · have ho := (h (by simpa using hr)).2
    split
    · exact .refl h
    · split
      · exact ⟨.of_not_receiving rfl, rfl, by simp [HandlerCall.inside, ho]⟩
      · exact ⟨h, rfl, by simp [HandlerCall.inside, ho]⟩

theorem receiveEnd_keeps (h : Inv p o) (env : Env) :
    Keeps p o (receiveEnd p env).state (receiveEnd p env).calls := by
  unfold receiveEnd
  split_ifs with hr
  · exact .refl h
  · exact ⟨.of_not_receiving rfl, rfl, rfl⟩
  · have ho := (h (by simpa using hr)).2
    exact ⟨.of_not_receiving rfl, rfl, by simp [HandlerCall.inside, ho]⟩

theorem receive_keeps (h : Inv p o) (key : Bytes) (body : Body) (env : Env) :
    Keeps p o (receive p key body env).state (receive p key body env).calls := by
  unfold receive
  split_ifs
  · split <;> exact .refl h
  · exact receiveBegin_keeps h body env
  · exact receiveData_keeps h body env
  · exact receiveEnd_keeps h env
  · exact .refl h

theorem reset_keeps (p : Payload) (o : Bool) : Keeps p o (reset p).1 (reset p).2 := by
  refine ⟨.of_not_receiving rfl, rfl, ?_⟩
  unfold reset
  split <;> rfl

theorem Receive_keeps (h : Inv p o) (key : Bytes) (body : Body) (env : Env) :
    Keeps p o (Receive p key body env).state (Receive p key body env).calls := by
  have h₁ := receive_keeps h key body env
  unfold Receive
  dsimp only
  split
  · exact h₁
  · exact h₁.trans (reset_keeps _ _)

theorem step_keeps (h : Inv p o) (c : Call) : Keeps p o (step p c).state (step p c).calls := by
  cases c with
  | transition a =>
    unfold step transition
    cases a
    · exact reset_keeps p o
    · exact .refl h
  | receive key body env => exact Receive_keeps h key body env

/-- Over any run, the module is `receiving` only while the handler has a transfer open, and
`ReceiveChunk` and `EndPayload` are called only inside one. -/
theorem run_keeps (h : Inv p o) (cs : List Call) : Keeps p o (run p cs).1 (run p cs).2 := by
  induction cs generalizing p o with
  | nil => exact .refl h
  | cons c cs ih =>
    have h₁ := step_keeps h c
    exact h₁.trans (ih h₁.1)

/-- A module as the application builds it: `Handler` and `Active` set, the rest Go's zero
values. -/
def fresh (handler active : Bool) : Payload := ⟨handler, active, false, 0, 0⟩

/-- From a fresh module, over any run, `ReceiveChunk` and `EndPayload` are called only inside
a transfer, and the module is `receiving` only while the handler has one open. -/
theorem run_fresh_inside (handler active : Bool) (cs : List Call) :
    everyCall HandlerCall.inside false (run (fresh handler active) cs).2 = true ∧
      ((run (fresh handler active) cs).1.receiving = true →
        transferOpen false (run (fresh handler active) cs).2 = true) :=
  have h := run_keeps (Inv.of_not_receiving rfl : Inv (fresh handler active) false) cs
  ⟨h.2.2, fun hr => (h.1 hr).2⟩

end Payload

/-! ### Runs on fixed inputs -/

/-- A handler and a writer whose every call succeeds, `EndPayload` answering `r`. -/
def Env.succeeding (r : EndResult) : Env := ⟨true, none, none, r, none⟩

/-- A `begin` for one byte of `text/plain`. -/
def textBegin : BeginMessage := ⟨ascii "text/plain", ascii "a", 1, none⟩

/-- A chunk `x` that the handler fails to take. -/
def failedChunk : Payload.Call :=
  .receive (ascii "data") (.ofBytes (ascii "x"))
    { Env.succeeding ⟨true, [], [], none⟩ with receiveChunk := some (ascii "disk full") }

/-- The `begin` of `textBegin`, every call succeeding. -/
def textBeginCall : Payload.Call :=
  .receive (ascii "begin") (.ofBegin textBegin) (Env.succeeding ⟨true, [], [], none⟩)

/-- A failed chunk leaves the handler's transfer open: `receiveData` clears `receiving` before
`Receive`'s reset, which then does not cancel, nor does a later `Transition(false)`. And a
second `begin` calls `BeginPayload` inside the open transfer. -/
theorem Receive_failed_chunk_leaves_transfer_open :
    (Payload.step (Payload.step (Payload.fresh true true) textBeginCall).state failedChunk).result =
        .error (.payload (ascii "Failed to process chunk")) ∧
      (Payload.run (Payload.fresh true true) [textBeginCall, failedChunk, .transition false]).2 =
        [.supportsMimeType (ascii "text/plain") true, .beginPayload textBegin none,
          .receiveChunk (ascii "x") (some (ascii "disk full"))] ∧
      transferOpen false
        (Payload.run (Payload.fresh true true) [textBeginCall, failedChunk, .transition false]).2 =
        true ∧
      everyCall HandlerCall.outside false
        (Payload.run (Payload.fresh true true) [textBeginCall, textBeginCall]).2 = false :=
  ⟨rfl, rfl, rfl, rfl⟩

end Fsim
end GoFdo
