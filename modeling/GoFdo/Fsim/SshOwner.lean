import GoFdo.Fsim.Ssh

/-!
# The owner side of `fdo.ssh`

`SSHOwner` sends its authorized keys, one `add-key` message per `ProduceInfo`, and reports the
module done once they are all sent; `HandleInfo` reads the device's `active`, `host-keys` and
`error` messages and hands the host keys to the `OnHostKeys` callback. `ProduceInfo` would
send a `pendingResponse` first, but no code of the module sets one.

Over every run no `pendingResponse` is set, so every message the owner writes is the
`add-key` of one of its keys (`run_writes_addKey`). Until a `Reset`, the messages written are
a sublist of the `add-key` messages of the keys up to `keyIndex`, in order
(`run_writes_sublist`): each key is written at most once. A key whose `WriteChunk` fails is
skipped, since `keyIndex` moved past it before the write: what is written after it, until a
`Reset`, are the keys after it (`produceInfo_failed_write_skips_key`).

The encoder's errors are left out: writing an unsigned integer, a byte string or an
`SSHKeyInstall` into a `bytes.Buffer` cannot fail.
-/

namespace GoFdo
namespace Fsim

open Cbor

/-- `pendingSSHResponse`. -/
structure PendingSSHResponse where
  messageType : Bytes
  data : Bytes
  errorCode : Option Nat
  deriving DecidableEq, Repr

/-- The fields of `SSHOwner`. `OnHostKeys` is only compared with nil here, its behaviour
being the environment's; `keyIndex`, a Go `int`, starts at zero and only grows. -/
structure SSHOwner where
  authorizedKeys : List SSHKeyInstall
  onHostKeys : Bool
  keyIndex : Nat
  pendingResponse : Option PendingSSHResponse
  deriving DecidableEq, Repr

/-- What the `serviceinfo.Producer` and the `OnHostKeys` callback answer during one call: an
error's text, or `none` for nil. -/
structure SSHOwnerEnv where
  writeChunk : Option Bytes
  onHostKeys : Option Bytes

/-- What the owner does, in order: the messages it writes, as their key and encoded body, and
its calls on `OnHostKeys`, with what it answered. -/
inductive SSHOwnerEvent where
  | write (key body : Bytes)
  | onHostKeys (keys : List Bytes) (err : Option Bytes)
  deriving DecidableEq, Repr

/-- The errors of the owner module. -/
inductive SSHOwnerError where
  /-- `error decoding active message: %w`. -/
  | decodeActive (e : Error)
  /-- `device SSH module is not active`. -/
  | notActive
  /-- `error decoding host-keys: %w`. -/
  | decodeHostKeys (e : Error)
  /-- `device sent empty host keys list`. -/
  | emptyHostKeys
  /-- `error handling host keys: %w`. -/
  | handleHostKeys (e : Bytes)
  /-- `error decoding error code: %w`. -/
  | decodeErrorCode (e : Error)
  /-- `device reported SSH error %d: %s`. -/
  | deviceError (code : Nat) (text : Bytes)
  /-- `unknown message %s`. -/
  | unknownMessage (name : Bytes)
  /-- `error sending error response: %w`. -/
  | sendErrorResponse (e : Bytes)
  /-- `error sending %s: %w`. -/
  | sendResponse (messageType e : Bytes)
  /-- `error sending add-key: %w`. -/
  | sendAddKey (e : Bytes)
  deriving DecidableEq, Repr

/-- The `add-key` message for `k`, as the owner writes it. -/
def addKeyMessage (k : SSHKeyInstall) : Bytes × Bytes := (ascii "add-key", k.toItem.encode)

/-- The messages among the events. -/
def SSHOwnerEvent.writes : List SSHOwnerEvent → List (Bytes × Bytes)
  | [] => []
  | .write k b :: es => (k, b) :: writes es
  | .onHostKeys _ _ :: es => writes es

@[simp] theorem SSHOwnerEvent.writes_append (es fs : List SSHOwnerEvent) :
    writes (es ++ fs) = writes es ++ writes fs := by
  induction es with
  | nil => rfl
  | cons e es ih => cases e <;> simp [writes, ih]

namespace SSHOwner

/-- What one call does: the fields after it, its events, and how it returned. -/
structure Outcome (α : Type) where
  state : SSHOwner
  events : List SSHOwnerEvent
  result : Except SSHOwnerError α

/-- `ProduceInfo(ctx, producer)`, returning `(blockPeer, moduleDone)`: a pending response,
else the next key, else done. -/
def produceInfo (s : SSHOwner) (env : SSHOwnerEnv) : Outcome (Bool × Bool) :=
  match s.pendingResponse with
  | some r =>
    match r.errorCode with
    | some code =>
      match env.writeChunk with
      | some e => ⟨s, [], .error (.sendErrorResponse e)⟩
      | none => ⟨{ s with pendingResponse := none }, [.write (ascii "error") (Item.uint code).encode],
          .ok (false, true)⟩
    | none =>
      match env.writeChunk with
      | some e => ⟨s, [], .error (.sendResponse r.messageType e)⟩
      | none => ⟨{ s with pendingResponse := none }, [.write r.messageType (Item.bytes r.data).encode],
          .ok (false, false)⟩
  | none =>
    if h : s.keyIndex < s.authorizedKeys.length then
      let k := s.authorizedKeys[s.keyIndex]
      let s' := { s with keyIndex := s.keyIndex + 1 }
      match env.writeChunk with
      | some e => ⟨s', [], .error (.sendAddKey e)⟩
      | none => ⟨s', [.write (addKeyMessage k).1 (addKeyMessage k).2], .ok (false, false)⟩
    else ⟨s, [], .ok (false, true)⟩

/-- `handleHostKeys(messageBody)`. -/
def handleHostKeys (s : SSHOwner) (body : Bytes) (env : SSHOwnerEnv) : Outcome Unit :=
  match decodeNext Item.toTexts body with
  | .error e => ⟨s, [], .error (.decodeHostKeys e)⟩
  | .ok (keys, _) =>
    if keys.length = 0 then ⟨s, [], .error .emptyHostKeys⟩
    else if s.onHostKeys = false then ⟨s, [], .ok ()⟩
    else
      ⟨s, [.onHostKeys keys env.onHostKeys],
        match env.onHostKeys with
        | some e => .error (.handleHostKeys e)
        | none => .ok ()⟩

/-- `HandleInfo(ctx, messageName, messageBody)`. -/
def handleInfo (s : SSHOwner) (name body : Bytes) (env : SSHOwnerEnv) : Outcome Unit :=
  if name = ascii "active" then
    match decodeNext Item.toBool body with
    | .error e => ⟨s, [], .error (.decodeActive e)⟩
    | .ok (active, _) => ⟨s, [], if active then .ok () else .error .notActive⟩
  else if name = ascii "host-keys" then handleHostKeys s body env
  else if name = ascii "error" then
    match decodeNext Item.toUint body with
    | .error e => ⟨s, [], .error (.decodeErrorCode e)⟩
    | .ok (code, _) => ⟨s, [], .error (.deviceError code (sshErrorString code))⟩
  else ⟨s, [], .error (.unknownMessage name)⟩

/-- `AddAuthorizedKey(key, username, sudo)`. -/
def addAuthorizedKey (s : SSHOwner) (key username : Bytes) (sudo' : Bool) : SSHOwner :=
  { s with authorizedKeys := s.authorizedKeys ++ [⟨key, username, sudo'⟩] }

/-- `Reset()`. -/
def reset (s : SSHOwner) : SSHOwner := { s with keyIndex := 0, pendingResponse := none }

/-- A call on the module, with the environment it meets. -/
inductive Call where
  | produceInfo (env : SSHOwnerEnv)
  | handleInfo (name body : Bytes) (env : SSHOwnerEnv)
  | addAuthorizedKey (key username : Bytes) (sudo' : Bool)
  | reset

/-- One call on the module: the fields after it and its events. -/
def step (s : SSHOwner) : Call → SSHOwner × List SSHOwnerEvent
  | .produceInfo env => ((produceInfo s env).state, (produceInfo s env).events)
  | .handleInfo name body env => ((handleInfo s name body env).state, (handleInfo s name body env).events)
  | .addAuthorizedKey key username sudo' => (addAuthorizedKey s key username sudo', [])
  | .reset => (reset s, [])

/-- A run of calls: the fields after it, and its events, in order. -/
def run (s : SSHOwner) : List Call → SSHOwner × List SSHOwnerEvent
  | [] => (s, [])
  | c :: cs => ((run (step s c).1 cs).1, (step s c).2 ++ (run (step s c).1 cs).2)

/-- A module as the application builds it: its keys and `OnHostKeys` set, the internal state
at Go's zero values. -/
def fresh (keys : List SSHKeyInstall) (onHostKeys : Bool) : SSHOwner := ⟨keys, onHostKeys, 0, none⟩

/-! ### What `ProduceInfo` writes -/

section Writes

variable {s : SSHOwner}

theorem handleHostKeys_state (body : Bytes) (env : SSHOwnerEnv) :
    (handleHostKeys s body env).state = s ∧ SSHOwnerEvent.writes (handleHostKeys s body env).events = [] := by
  unfold handleHostKeys
  split
  · exact ⟨rfl, rfl⟩
  · split_ifs <;> exact ⟨rfl, rfl⟩

/-- `HandleInfo` leaves the fields and writes nothing. -/
theorem handleInfo_state (name body : Bytes) (env : SSHOwnerEnv) :
    (handleInfo s name body env).state = s ∧
      SSHOwnerEvent.writes (handleInfo s name body env).events = [] := by
  unfold handleInfo
  split_ifs
  · split <;> exact ⟨rfl, rfl⟩
  · exact handleHostKeys_state body env
  · split <;> exact ⟨rfl, rfl⟩
  · exact ⟨rfl, rfl⟩

/-- With no pending response, `ProduceInfo` writes the `add-key` of the key at `keyIndex` and
moves past it, or moves past it when the write fails, or is done. -/
theorem produceInfo_cases (h : s.pendingResponse = none) (env : SSHOwnerEnv) :
    (∃ hi : s.keyIndex < s.authorizedKeys.length,
      (produceInfo s env).state = { s with keyIndex := s.keyIndex + 1 } ∧
      ((SSHOwnerEvent.writes (produceInfo s env).events = [addKeyMessage s.authorizedKeys[s.keyIndex]]) ∨
        SSHOwnerEvent.writes (produceInfo s env).events = [])) ∨
    ((produceInfo s env).state = s ∧ SSHOwnerEvent.writes (produceInfo s env).events = []) := by
  simp only [produceInfo, h]
  split_ifs with hi
  · refine .inl ⟨hi, ?_⟩
    split
    · exact ⟨rfl, .inr rfl⟩
    · exact ⟨rfl, .inl rfl⟩
  · exact .inr ⟨rfl, rfl⟩

/-- What holds of the fields and of the messages written since `keyIndex` was `j`, until a
`Reset`: no pending response, `keyIndex` between `j` and the number of keys, and the messages
a sublist of the `add-key` messages of the keys from `j` up to `keyIndex`. -/
def WritesSince (j : Nat) (s : SSHOwner) (w : List (Bytes × Bytes)) : Prop :=
  s.pendingResponse = none ∧ j ≤ s.keyIndex ∧ s.keyIndex ≤ s.authorizedKeys.length ∧
    w.Sublist (((s.authorizedKeys.take s.keyIndex).drop j).map addKeyMessage)

theorem drop_take_succ {α : Type} {l : List α} {j k : Nat} (hk : k < l.length) (hj : j ≤ k) :
    (l.take (k + 1)).drop j = (l.take k).drop j ++ [l[k]] := by
  rw [List.take_succ, List.getElem?_eq_getElem hk, Option.toList_some,
    List.drop_append_of_le_length (by rw [List.length_take]; omega)]

theorem step_writesSince {j : Nat} {w : List (Bytes × Bytes)} (h : WritesSince j s w) {c : Call}
    (hc : c ≠ .reset) : WritesSince j (step s c).1 (w ++ SSHOwnerEvent.writes (step s c).2) := by
  obtain ⟨hp, hj, hle, hw⟩ := h
  cases c with
  | produceInfo env =>
    simp only [step]
    rcases produceInfo_cases hp env with ⟨hi, hs, he | he⟩ | ⟨hs, he⟩
    · rw [hs, he]
      refine ⟨hp, Nat.le_succ_of_le hj, hi, ?_⟩
      rw [drop_take_succ hi hj, List.map_append, List.map_singleton]
      exact hw.append (List.Sublist.refl _)
    · rw [hs, he, List.append_nil]
      refine ⟨hp, Nat.le_succ_of_le hj, hi, hw.trans ?_⟩
      rw [drop_take_succ hi hj, List.map_append]
      exact List.sublist_append_left _ _
    · rw [hs, he, List.append_nil]
      exact ⟨hp, hj, hle, hw⟩
  | handleInfo name body env =>
    simp only [step]
    rw [(handleInfo_state name body env).1, (handleInfo_state name body env).2, List.append_nil]
    exact ⟨hp, hj, hle, hw⟩
  | addAuthorizedKey key username sudo' =>
    simp only [step, addAuthorizedKey, SSHOwnerEvent.writes, List.append_nil]
    refine ⟨hp, hj, by simp only [List.length_append]; omega, ?_⟩
    rw [List.take_append_of_le_length hle]
    exact hw
  | reset => exact absurd rfl hc

theorem run_writesSince {j : Nat} {w : List (Bytes × Bytes)} (h : WritesSince j s w)
    {cs : List Call} (hcs : ∀ c ∈ cs, c ≠ .reset) :
    WritesSince j (run s cs).1 (w ++ SSHOwnerEvent.writes (run s cs).2) := by
  induction cs generalizing s w with
  | nil => simpa [run, SSHOwnerEvent.writes] using h
  | cons c cs ih =>
    have h₁ := step_writesSince h (hcs c (List.mem_cons_self c cs))
    have h₂ := ih h₁ fun c' hc' => hcs c' (List.mem_cons_of_mem c hc')
    simpa [run, List.append_assoc] using h₂

/-- From a fresh module, until a `Reset`, the messages the owner writes are `add-key`
messages of its keys, in order and each at most once: a sublist of those of the keys before
`keyIndex`. -/
theorem run_writes_sublist (keys : List SSHKeyInstall) (onHostKeys : Bool) (cs : List Call)
    (hcs : ∀ c ∈ cs, c ≠ .reset) :
    (SSHOwnerEvent.writes (run (fresh keys onHostKeys) cs).2).Sublist
      (((run (fresh keys onHostKeys) cs).1.authorizedKeys.take
        (run (fresh keys onHostKeys) cs).1.keyIndex).map addKeyMessage) :=
  (run_writesSince (⟨rfl, le_rfl, Nat.zero_le _, List.Sublist.slnil⟩ :
    WritesSince 0 (fresh keys onHostKeys) []) hcs).2.2.2

theorem run_writes_sublist_produceInfo :
    (∀ c ∈ [Call.produceInfo ⟨none, none⟩], c ≠ .reset) ∧
      (SSHOwnerEvent.writes (run (fresh [⟨ascii "ssh-ed25519 AAAA", [], false⟩] false)
          [.produceInfo ⟨none, none⟩]).2).Sublist
        (((run (fresh [⟨ascii "ssh-ed25519 AAAA", [], false⟩] false)
          [.produceInfo ⟨none, none⟩]).1.authorizedKeys.take
            (run (fresh [⟨ascii "ssh-ed25519 AAAA", [], false⟩] false)
              [.produceInfo ⟨none, none⟩]).1.keyIndex).map addKeyMessage) :=
  have hcs : ∀ c ∈ [Call.produceInfo ⟨none, none⟩], c ≠ .reset := fun c hc h => by
    rw [List.mem_singleton.mp hc] at h
    cases h
  ⟨hcs, run_writes_sublist _ false _ hcs⟩

/-- `ProduceInfo` moves past a key before writing it, so a key whose `WriteChunk` fails is
skipped: the call returns the error and writes nothing, and until a `Reset` every message
written after it is the `add-key` of a later key. -/
theorem produceInfo_failed_write_skips_key (hp : s.pendingResponse = none)
    (hi : s.keyIndex < s.authorizedKeys.length) {env : SSHOwnerEnv} {e : Bytes}
    (henv : env.writeChunk = some e) (cs : List Call) (hcs : ∀ c ∈ cs, c ≠ .reset) :
    (produceInfo s env).events = [] ∧ (produceInfo s env).result = .error (.sendAddKey e) ∧
      (SSHOwnerEvent.writes (run (produceInfo s env).state cs).2).Sublist
        (((run (produceInfo s env).state cs).1.authorizedKeys.drop (s.keyIndex + 1)).map
          addKeyMessage) := by
  have hs : (produceInfo s env).state = { s with keyIndex := s.keyIndex + 1 } := by
    simp only [produceInfo, hp, dif_pos hi, henv]
  obtain ⟨-, -, -, hw⟩ := run_writesSince (⟨hp, le_rfl, hi, List.nil_sublist _⟩ :
    WritesSince (s.keyIndex + 1) { s with keyIndex := s.keyIndex + 1 } []) hcs
  rw [← hs, List.nil_append, List.drop_take] at hw
  refine ⟨?_, ?_, hw.trans ((List.take_sublist _ _).map _)⟩ <;>
    simp only [produceInfo, hp, dif_pos hi, henv]

/-- Two keys, of which the first one's write fails. -/
def twoKeys : List SSHKeyInstall :=
  [⟨ascii "ssh-ed25519 AAAA", [], false⟩, ⟨ascii "ssh-rsa BBBB", [], false⟩]

theorem produceInfo_failed_write_skips_key_twoKeys :
    (fresh twoKeys false).pendingResponse = none ∧
      (fresh twoKeys false).keyIndex < (fresh twoKeys false).authorizedKeys.length ∧
      (⟨some (ascii "broken pipe"), none⟩ : SSHOwnerEnv).writeChunk = some (ascii "broken pipe") ∧
      (∀ c ∈ [Call.produceInfo ⟨none, none⟩], c ≠ .reset) ∧
      (produceInfo (fresh twoKeys false) ⟨some (ascii "broken pipe"), none⟩).events = [] ∧
        (produceInfo (fresh twoKeys false) ⟨some (ascii "broken pipe"), none⟩).result =
          .error (.sendAddKey (ascii "broken pipe")) ∧
        (SSHOwnerEvent.writes (run (produceInfo (fresh twoKeys false)
          ⟨some (ascii "broken pipe"), none⟩).state [.produceInfo ⟨none, none⟩]).2).Sublist
          (((run (produceInfo (fresh twoKeys false) ⟨some (ascii "broken pipe"), none⟩).state
            [.produceInfo ⟨none, none⟩]).1.authorizedKeys.drop
              ((fresh twoKeys false).keyIndex + 1)).map addKeyMessage) :=
  have hcs : ∀ c ∈ [Call.produceInfo ⟨none, none⟩], c ≠ .reset := fun c hc h => by
    rw [List.mem_singleton.mp hc] at h
    cases h
  ⟨rfl, by decide, rfl, hcs, produceInfo_failed_write_skips_key rfl (by decide) rfl _ hcs⟩

/-- After the failed write the second key is the one written. -/
example : SSHOwnerEvent.writes (run (produceInfo (fresh twoKeys false)
    ⟨some (ascii "broken pipe"), none⟩).state [.produceInfo ⟨none, none⟩]).2 =
      [addKeyMessage ⟨ascii "ssh-rsa BBBB", [], false⟩] := by decide

/-- What holds over any run from a fresh module, `Reset` included: no pending response, and
every message written the `add-key` of one of the keys. -/
def AddKeyInv (s : SSHOwner) (w : List (Bytes × Bytes)) : Prop :=
  s.pendingResponse = none ∧ ∀ m ∈ w, ∃ k ∈ s.authorizedKeys, m = addKeyMessage k

theorem step_addKeyInv {w : List (Bytes × Bytes)} (h : AddKeyInv s w) (c : Call) :
    AddKeyInv (step s c).1 (w ++ SSHOwnerEvent.writes (step s c).2) := by
  obtain ⟨hp, hw⟩ := h
  cases c with
  | produceInfo env =>
    simp only [step]
    rcases produceInfo_cases hp env with ⟨hi, hs, he | he⟩ | ⟨hs, he⟩ <;> rw [hs, he]
    · refine ⟨hp, fun m hm => ?_⟩
      rcases List.mem_append.mp hm with hm | hm
      · exact hw m hm
      · exact ⟨_, List.getElem_mem hi, List.mem_singleton.mp hm⟩
    all_goals exact ⟨hp, by rw [List.append_nil]; exact hw⟩
  | handleInfo name body env =>
    simp only [step]
    rw [(handleInfo_state name body env).1, (handleInfo_state name body env).2, List.append_nil]
    exact ⟨hp, hw⟩
  | addAuthorizedKey key username sudo' =>
    simp only [step, addAuthorizedKey, SSHOwnerEvent.writes, List.append_nil]
    refine ⟨hp, fun m hm => ?_⟩
    obtain ⟨k, hk, rfl⟩ := hw m hm
    exact ⟨k, List.mem_append_left _ hk, rfl⟩
  | reset =>
    simp only [step, reset, SSHOwnerEvent.writes, List.append_nil]
    exact ⟨rfl, hw⟩

/-- From a fresh module, over any run, `Reset` included, every message the owner writes is the
`add-key` of one of its keys: no pending response is ever set, so no `error` message or other
response is ever sent. -/
theorem run_writes_addKey (keys : List SSHKeyInstall) (onHostKeys : Bool) (cs : List Call) :
    ∀ m ∈ SSHOwnerEvent.writes (run (fresh keys onHostKeys) cs).2,
      ∃ k ∈ (run (fresh keys onHostKeys) cs).1.authorizedKeys, m = addKeyMessage k := by
  suffices ∀ (s : SSHOwner) (w : List (Bytes × Bytes)), AddKeyInv s w →
      AddKeyInv (run s cs).1 (w ++ SSHOwnerEvent.writes (run s cs).2) from
    (this _ [] ⟨rfl, fun _ h => absurd h (List.not_mem_nil _)⟩).2
  induction cs with
  | nil => intro s w h; simpa [run, SSHOwnerEvent.writes] using h
  | cons c cs ih =>
    intro s w h
    simpa [run, List.append_assoc] using ih _ _ (step_addKeyInv h c)

theorem run_writes_addKey_produceInfo :
    addKeyMessage ⟨ascii "ssh-ed25519 AAAA", [], false⟩ ∈ SSHOwnerEvent.writes
        (run (fresh [⟨ascii "ssh-ed25519 AAAA", [], false⟩] false) [.produceInfo ⟨none, none⟩]).2 ∧
      ∃ k ∈ (run (fresh [⟨ascii "ssh-ed25519 AAAA", [], false⟩] false)
          [.produceInfo ⟨none, none⟩]).1.authorizedKeys,
        addKeyMessage ⟨ascii "ssh-ed25519 AAAA", [], false⟩ = addKeyMessage k :=
  have hm : addKeyMessage ⟨ascii "ssh-ed25519 AAAA", [], false⟩ ∈ SSHOwnerEvent.writes
      (run (fresh [⟨ascii "ssh-ed25519 AAAA", [], false⟩] false) [.produceInfo ⟨none, none⟩]).2 :=
    List.mem_singleton.mpr rfl
  ⟨hm, run_writes_addKey _ false _ _ hm⟩

end Writes

end SSHOwner

end Fsim
end GoFdo
