import GoFdo.Cbor.Decode

/-!
# The device side of `fdo.ssh`

`SSH` installs the authorized keys the owner sends in `add-key` messages, through the
application's `InstallAuthorizedKey` callback, and reports the device's host keys, from its
`GetHostKeys` callback, once in a `host-keys` message from `Yield`. A failed `Receive` resets
the module.

The bodies are CBOR, read and written with the codec of `GoFdo.Cbor`, which is modelled from
the spec; `SSHKeyInstall` travels as the map of `fdo.ssh.md`, whose optional fields the
encoder leaves out when empty, and `ofItem_toItem` reads back every key the owner writes.
The callbacks and the `respond` writer are the module's environment, and what the module does
to them, with its resets, is returned beside its fields as a list of events.

Two facts hold over every run. The error code that `receive` stores in `pendingError` is
cleared by the reset of the same `Receive`, so from a fresh module `Yield` never reports a
pending error (`run_pendingError`). And between two resets the module writes its host keys
at most once, and writes nothing else (`run_hostKeysOnce`).
-/

namespace GoFdo
namespace Fsim

open Cbor

/-! ### The `add-key` message -/

/-- `SSHKeyInstall`. -/
structure SSHKeyInstall where
  key : Bytes
  username : Bytes
  sudo' : Bool
  deriving DecidableEq, Repr

namespace SSHKeyInstall

/-- Modelled from the spec: `Encode` writes the map of the tagged fields, `username` and
`sudo` left out when `omitempty` finds them empty; the entries are listed in the encoder's
order. -/
def toItem (k : SSHKeyInstall) : Item :=
  .map ((.text (ascii "key"), .text k.key) ::
    ((if k.sudo' then [(.text (ascii "sudo"), .bool true)] else []) ++
      if k.username ≠ [] then [(.text (ascii "username"), .text k.username)] else []))

/-- Modelled from the spec: one entry of the map stored into the struct, by the tag of the
field its key names; entries that name no field are skipped. -/
def decodeEntry (k : SSHKeyInstall) : Item × Item → Except Error SSHKeyInstall
  | (.text n, v) =>
    if n = ascii "key" then v.toText.map fun s => { k with key := s }
    else if n = ascii "username" then v.toText.map fun s => { k with username := s }
    else if n = ascii "sudo" then v.toBool.map fun b => { k with sudo' := b }
    else .ok k
  | _ => .ok k

/-- Modelled from the spec: `Decode` into the struct reads a map, entry by entry; a field
whose key is absent keeps its zero value. -/
def ofItem : Item → Except Error SSHKeyInstall
  | .map es => es.foldlM decodeEntry ⟨[], [], false⟩
  | x => .error (.unexpectedType x.major)

/-- Strings short enough for a head: the codec writes and reads them. -/
def wf (k : SSHKeyInstall) : Prop := k.key.length < 2 ^ 64 ∧ k.username.length < 2 ^ 64

instance (k : SSHKeyInstall) : Decidable k.wf := inferInstanceAs (Decidable (_ ∧ _))

theorem toItem_wf {k : SSHKeyInstall} (hk : k.wf) : k.toItem.wf = true := by
  obtain ⟨key, username, sudo'⟩ := k
  obtain ⟨hkey, huser⟩ := hk
  dsimp only at hkey huser
  have hks : keyLe (Item.text (ascii "key")).encode (Item.text (ascii "sudo")).encode = true ∧
      (Item.text (ascii "key")).encode ≠ (Item.text (ascii "sudo")).encode := by decide
  have hku : keyLe (Item.text (ascii "key")).encode (Item.text (ascii "username")).encode = true ∧
      (Item.text (ascii "key")).encode ≠ (Item.text (ascii "username")).encode := by decide
  have hsu : keyLe (Item.text (ascii "sudo")).encode (Item.text (ascii "username")).encode = true ∧
      (Item.text (ascii "sudo")).encode ≠ (Item.text (ascii "username")).encode := by decide
  have hl : (ascii "key").length = 3 ∧ (ascii "sudo").length = 4 ∧
      (ascii "username").length = 8 := by decide
  cases sudo' <;> by_cases hu : username = [] <;>
    simp [toItem, hu, Item.wf, Item.wfEntries, Item.encodeEntries, ascending, hks, hku, hsu,
      hl] <;> omega

/-- The device reads back every `SSHKeyInstall` the owner writes. -/
theorem ofItem_toItem (k : SSHKeyInstall) : ofItem k.toItem = .ok k := by
  obtain ⟨key, username, sudo'⟩ := k
  have h₁ : ascii "sudo" ≠ ascii "key" := by decide
  have h₂ : ascii "sudo" ≠ ascii "username" := by decide
  have h₃ : ascii "username" ≠ ascii "key" := by decide
  cases sudo' <;> by_cases hu : username = [] <;>
    simp [toItem, ofItem, decodeEntry, hu, h₁, h₂, h₃, Item.toText, Item.toBool, Except.map,
      List.foldlM, bind, Except.bind, pure, Except.pure]

end SSHKeyInstall

/-! ### The module -/

/-- `sshErrorString(code)`. -/
def sshErrorString : Nat → Bytes
  | 1 => ascii "Bad request / Invalid format"
  | 2 => ascii "Permission denied"
  | 3 => ascii "User not found"
  | 4 => ascii "Filesystem error"
  | 5 => ascii "SSH service not available"
  | _ => ascii "Unknown error"

/-- The fields of `SSH`. The two callbacks are only compared with nil here, their behaviour
being the environment's; `pendingError` is the code it points to. -/
structure SSH where
  installAuthorizedKey : Bool
  getHostKeys : Bool
  defaultUsername : Bytes
  hostKeysSent : Bool
  pendingError : Option Nat
  deriving DecidableEq, Repr

/-- What the callbacks and the `respond` writer answer during one call: an error's text, or
`none` for nil. -/
structure SSHEnv where
  installAuthorizedKey : Option Bytes
  getHostKeys : Except Bytes (List Bytes)
  /-- The encoder's error on the `host-keys` message, if it fails. -/
  encode : Option Bytes

/-- What the module does, in order: its calls on the callbacks, with what they answered, the
messages it writes, as their key and encoded body, and its resets. -/
inductive SSHEvent where
  | installAuthorizedKey (key username : Bytes) (sudo' : Bool) (err : Option Bytes)
  | getHostKeys (result : Except Bytes (List Bytes))
  | write (key body : Bytes)
  | reset

/-- A call on a callback: neither a write nor a reset. -/
def SSHEvent.isCall : SSHEvent → Bool
  | .installAuthorizedKey .. => true
  | .getHostKeys _ => true
  | _ => false

/-- The errors of the device module. -/
inductive SSHError where
  /-- `error decoding error code: %w`. -/
  | decodeErrorCode (e : Error)
  /-- `SSH operation failed with error code %d: %s`. -/
  | operationFailed (code : Nat) (text : Bytes)
  /-- `unknown message %s`. -/
  | unknownMessage (name : Bytes)
  /-- `error decoding add-key: %w`. -/
  | decodeAddKey (e : Error)
  /-- `InstallAuthorizedKey callback is required but not provided`. -/
  | installAuthorizedKeyMissing
  /-- `error installing authorized key: %w`. -/
  | installAuthorizedKey (e : Bytes)
  /-- `SSH operation failed with error code %d`, from `Yield`. -/
  | pendingError (code : Nat)
  /-- `GetHostKeys callback is required but not provided`. -/
  | getHostKeysMissing
  /-- `error getting host keys: %w`. -/
  | getHostKeys (e : Bytes)
  /-- `no SSH host keys found`. -/
  | noHostKeys
  /-- `error sending host-keys: %w`. -/
  | sendHostKeys (e : Bytes)
  deriving DecidableEq, Repr

namespace SSH

/-- What one call does: the fields after it, its events, and the error it returns. -/
structure Outcome where
  state : SSH
  events : List SSHEvent
  result : Except SSHError Unit

/-- `reset()`. -/
def reset (s : SSH) : SSH := { s with hostKeysSent := false, pendingError := none }

/-- `Transition(active)`, which returns nil. -/
def transition (s : SSH) (active : Bool) : Outcome :=
  if active then ⟨s, [], .ok ()⟩ else ⟨s.reset, [.reset], .ok ()⟩

/-- `receiveAddKey(messageBody)`: the username defaults to `DefaultUsername`. -/
def receiveAddKey (s : SSH) (body : Bytes) (env : SSHEnv) :
    List SSHEvent × Except SSHError Unit :=
  match decodeNext SSHKeyInstall.ofItem body with
  | .error e => ([], .error (.decodeAddKey e))
  | .ok (k, _) =>
    if s.installAuthorizedKey = false then ([], .error .installAuthorizedKeyMissing)
    else
      let username := if k.username = [] then s.defaultUsername else k.username
      ([.installAuthorizedKey k.key username k.sudo' env.installAuthorizedKey],
        match env.installAuthorizedKey with
        | some e => .error (.installAuthorizedKey e)
        | none => .ok ())

/-- `receive(ctx, messageName, messageBody)`. -/
def receive (s : SSH) (name body : Bytes) (env : SSHEnv) : Outcome :=
  if name = ascii "add-key" then
    let r := receiveAddKey s body env
    ⟨s, r.1, r.2⟩
  else if name = ascii "error" then
    match decodeNext Item.toUint body with
    | .error e => ⟨s, [], .error (.decodeErrorCode e)⟩
    | .ok (code, _) =>
      ⟨{ s with pendingError := some code }, [], .error (.operationFailed code (sshErrorString code))⟩
  else ⟨s, [], .error (.unknownMessage name)⟩

/-- `Receive(ctx, messageName, messageBody, respond, yield)`: `receive`, then `reset` when it
fails. -/
def Receive (s : SSH) (name body : Bytes) (env : SSHEnv) : Outcome :=
  let o := receive s name body env
  match o.result with
  | .ok () => o
  | .error _ => { o with state := o.state.reset, events := o.events ++ [.reset] }

/-- `sendHostKeys(respond)`: the keys from `GetHostKeys`, as an array of text strings. -/
def sendHostKeys (s : SSH) (env : SSHEnv) : List SSHEvent × Except SSHError Unit :=
  if s.getHostKeys = false then ([], .error .getHostKeysMissing)
  else
    match env.getHostKeys with
    | .error e => ([.getHostKeys (.error e)], .error (.getHostKeys e))
    | .ok keys =>
      if keys.length = 0 then ([.getHostKeys (.ok keys)], .error .noHostKeys)
      else
        match env.encode with
        | some e => ([.getHostKeys (.ok keys)], .error (.sendHostKeys e))
        | none =>
          ([.getHostKeys (.ok keys), .write (ascii "host-keys") (Item.array (keys.map .text)).encode],
            .ok ())

/-- `Yield(ctx, respond, yield)`: a pending error, else the host keys once. -/
def yield (s : SSH) (env : SSHEnv) : Outcome :=
  match s.pendingError with
  | some code => ⟨s, [], .error (.pendingError code)⟩
  | none =>
    if s.hostKeysSent then ⟨s, [], .ok ()⟩
    else
      let r := sendHostKeys s env
      match r.2 with
      | .error e => ⟨s, r.1, .error e⟩
      | .ok () => ⟨{ s with hostKeysSent := true }, r.1, .ok ()⟩

/-- A call on the module, with the environment it meets. -/
inductive Call where
  | transition (active : Bool)
  | receive (name body : Bytes) (env : SSHEnv)
  | yield (env : SSHEnv)

/-- One call on the module. -/
def step (s : SSH) : Call → Outcome
  | .transition a => transition s a
  | .receive name body env => Receive s name body env
  | .yield env => yield s env

/-- A run of calls: the fields after it, and its events, in order. -/
def run (s : SSH) : List Call → SSH × List SSHEvent
  | [] => (s, [])
  | c :: cs => ((run (step s c).state cs).1, (step s c).events ++ (run (step s c).state cs).2)

/-- A module as the application builds it: callbacks and `DefaultUsername` set, the internal
state at Go's zero values. -/
def fresh (install hostKeys : Bool) (defaultUsername : Bytes) : SSH :=
  ⟨install, hostKeys, defaultUsername, false, none⟩

/-! ### No pending error is ever seen -/

section Pending

variable {s : SSH}

@[simp] theorem reset_pendingError : s.reset.pendingError = none := rfl

@[simp] theorem reset_hostKeysSent : s.reset.hostKeysSent = false := rfl

theorem Receive_pendingError (h : s.pendingError = none) (name body : Bytes) (env : SSHEnv) :
    (Receive s name body env).state.pendingError = none := by
  simp only [Receive]
  split
  · rename_i hr
    simp only [receive] at hr ⊢
    split_ifs at hr ⊢
    · exact h
    all_goals split at hr <;> cases hr
  · rfl

theorem step_pendingError (h : s.pendingError = none) (c : Call) :
    (step s c).state.pendingError = none := by
  cases c with
  | transition a => simp only [step, transition]; split <;> simp [h]
  | receive name body env => exact Receive_pendingError h name body env
  | yield env =>
    simp only [step, yield, h]
    split
    · exact h
    · split <;> first | exact h | rfl

theorem run_pendingError_none (h : s.pendingError = none) (cs : List Call) :
    (run s cs).1.pendingError = none := by
  induction cs generalizing s with
  | nil => exact h
  | cons c cs ih => exact ih (step_pendingError h c)

theorem sendHostKeys_ne_pendingError (s : SSH) (env : SSHEnv) (code : Nat) :
    (sendHostKeys s env).2 ≠ .error (.pendingError code) := by
  unfold sendHostKeys
  split_ifs <;> (try split) <;> (try split_ifs) <;> (try split) <;> simp

theorem yield_ne_pendingError (h : s.pendingError = none) (env : SSHEnv) (code : Nat) :
    (yield s env).result ≠ .error (.pendingError code) := by
  simp only [yield, h]
  split
  · simp
  · split
    · rename_i e he
      rw [← he]
      exact sendHostKeys_ne_pendingError s env code
    · simp

/-- From a fresh module, after any run, `Yield` reports no pending error: the code `receive`
stores is cleared by the reset of the same `Receive`. -/
theorem run_pendingError (install hostKeys : Bool) (defaultUsername : Bytes) (cs : List Call)
    (env : SSHEnv) (code : Nat) :
    (yield (run (fresh install hostKeys defaultUsername) cs).1 env).result ≠
      .error (.pendingError code) :=
  yield_ne_pendingError (run_pendingError_none rfl cs) env code

end Pending

/-! ### Host keys once between resets -/

/-- Whether the events write the host keys at most once between two resets and write nothing
else, `o` saying whether they were written since the last reset before the events. -/
def hostKeysOnce : Bool → List SSHEvent → Bool
  | _, [] => true
  | o, .write k _ :: es => k = ascii "host-keys" && !o && hostKeysOnce true es
  | _, .reset :: es => hostKeysOnce false es
  | o, _ :: es => hostKeysOnce o es

/-- Whether the host keys were written since the last reset, after the events. -/
def sentSince : Bool → List SSHEvent → Bool
  | o, [] => o
  | _, .write _ _ :: es => sentSince true es
  | _, .reset :: es => sentSince false es
  | o, _ :: es => sentSince o es

theorem hostKeysOnce_append (o : Bool) (es fs : List SSHEvent) :
    hostKeysOnce o (es ++ fs) = (hostKeysOnce o es && hostKeysOnce (sentSince o es) fs) := by
  induction es generalizing o with
  | nil => simp [hostKeysOnce, sentSince]
  | cons e es ih =>
    cases e <;> simp only [List.cons_append, hostKeysOnce, sentSince, List.append_eq, ih,
      Bool.and_assoc]

theorem sentSince_append (o : Bool) (es fs : List SSHEvent) :
    sentSince o (es ++ fs) = sentSince (sentSince o es) fs := by
  induction es generalizing o with
  | nil => rfl
  | cons e es ih => cases e <;> simp only [List.cons_append, sentSince, List.append_eq, ih]

theorem hostKeysOnce_calls {es : List SSHEvent} (h : ∀ e ∈ es, e.isCall = true) (o : Bool) :
    hostKeysOnce o es = true ∧ sentSince o es = o := by
  induction es with
  | nil => exact ⟨rfl, rfl⟩
  | cons e es ih =>
    have he := h e (List.mem_cons_self e es)
    have hes := ih fun e' h' => h e' (List.mem_cons_of_mem e h')
    cases e with
    | installAuthorizedKey => exact hes
    | getHostKeys => exact hes
    | write => cases he
    | reset => cases he

theorem receiveAddKey_calls (s : SSH) (body : Bytes) (env : SSHEnv) :
    ∀ e ∈ (receiveAddKey s body env).1, e.isCall = true := by
  unfold receiveAddKey
  split
  · exact List.forall_mem_nil _
  · split_ifs
    · exact List.forall_mem_nil _
    all_goals exact List.forall_mem_singleton.mpr rfl

/-- `receive` only calls the callbacks and leaves `hostKeysSent`. -/
theorem receive_calls (s : SSH) (name body : Bytes) (env : SSHEnv) :
    (∀ e ∈ (receive s name body env).events, e.isCall = true) ∧
      (receive s name body env).state.hostKeysSent = s.hostKeysSent := by
  unfold receive
  split_ifs
  · exact ⟨receiveAddKey_calls s body env, rfl⟩
  · split <;> simp
  · simp

/-- `sendHostKeys` only calls the callbacks and fails, or writes the host keys once. -/
theorem sendHostKeys_cases (s : SSH) (env : SSHEnv) :
    ((∀ e ∈ (sendHostKeys s env).1, e.isCall = true) ∧ (sendHostKeys s env).2 ≠ .ok ()) ∨
      ∃ keys, (sendHostKeys s env).1 = [.getHostKeys (.ok keys),
        .write (ascii "host-keys") (Item.array (keys.map .text)).encode] ∧
        (sendHostKeys s env).2 = .ok () := by
  unfold sendHostKeys
  split_ifs
  · exact .inl ⟨List.forall_mem_nil _, nofun⟩
  · split
    · exact .inl ⟨List.forall_mem_singleton.mpr rfl, nofun⟩
    · split_ifs
      · exact .inl ⟨List.forall_mem_singleton.mpr rfl, nofun⟩
      · split
        · exact .inl ⟨List.forall_mem_singleton.mpr rfl, nofun⟩
        · exact .inr ⟨_, rfl, rfl⟩

section Once

variable (s : SSH)

theorem transition_hostKeysOnce (a : Bool) :
    hostKeysOnce s.hostKeysSent (transition s a).events = true ∧
      sentSince s.hostKeysSent (transition s a).events = (transition s a).state.hostKeysSent := by
  unfold transition
  split <;> exact ⟨rfl, rfl⟩

theorem Receive_hostKeysOnce (name body : Bytes) (env : SSHEnv) :
    hostKeysOnce s.hostKeysSent (Receive s name body env).events = true ∧
      sentSince s.hostKeysSent (Receive s name body env).events =
        (Receive s name body env).state.hostKeysSent := by
  obtain ⟨hc, hs⟩ := receive_calls s name body env
  obtain ⟨h₁, h₂⟩ := hostKeysOnce_calls hc s.hostKeysSent
  simp only [Receive]
  split
  · exact ⟨h₁, h₂.trans hs.symm⟩
  · simp [hostKeysOnce_append, sentSince_append, h₁, hostKeysOnce, sentSince]

theorem yield_hostKeysOnce (env : SSHEnv) :
    hostKeysOnce s.hostKeysSent (yield s env).events = true ∧
      sentSince s.hostKeysSent (yield s env).events = (yield s env).state.hostKeysSent := by
  simp only [yield]
  split
  · exact ⟨rfl, rfl⟩
  · split_ifs with hs
    · exact ⟨rfl, rfl⟩
    · rcases sendHostKeys_cases s env with ⟨hc, hne⟩ | ⟨keys, he, hok⟩
      · obtain ⟨h₁, h₂⟩ := hostKeysOnce_calls hc s.hostKeysSent
        split
        · exact ⟨h₁, h₂⟩
        · rename_i heq
          exact absurd heq hne
      · rw [hok]
        simp [he, hostKeysOnce, sentSince, hs]

/-- One call writes the host keys only when they were not sent since the last reset, and
leaves `hostKeysSent` saying whether they have been. -/
theorem step_hostKeysOnce (c : Call) :
    hostKeysOnce s.hostKeysSent (step s c).events = true ∧
      sentSince s.hostKeysSent (step s c).events = (step s c).state.hostKeysSent := by
  cases c with
  | transition a => exact transition_hostKeysOnce s a
  | receive name body env => exact Receive_hostKeysOnce s name body env
  | yield env => exact yield_hostKeysOnce s env

end Once

/-- Over any run, the module writes nothing but its host keys, and those at most once between
two resets. -/
theorem run_hostKeysOnce (s : SSH) (cs : List Call) :
    hostKeysOnce s.hostKeysSent (run s cs).2 = true := by
  induction cs generalizing s with
  | nil => rfl
  | cons c cs ih =>
    obtain ⟨h₁, h₂⟩ := step_hostKeysOnce s c
    simp only [run, hostKeysOnce_append, h₁, h₂, ih, Bool.and_self]

end SSH

end Fsim
end GoFdo
