import GoFdo.Fsim.SshOwner

/-!
# The two sides of `fdo.ssh` in lockstep

The device and the owner module run in rounds, the device's turn first, as in the TO2
ServiceInfo exchange: the device's `Yield` writes its messages and the owner's `HandleInfo`
reads them, then the owner's `ProduceInfo` writes its message and the device's `Receive` reads
it. The messages go through the codec of `GoFdo.Cbor`: the owner writes each `SSHKeyInstall`
as its map and the device decodes it; the device writes its host keys as an array of text
strings and the owner decodes them.

With callbacks, a producer and a writer that all succeed, `sshLockstep_installs` follows a
run of one round per key and one more: the device reports its host keys once, in the first
round, and they reach `OnHostKeys`; the owner sends every key once, in order; the device
installs each, with `DefaultUsername` where the key names no user; no call fails; and
`ProduceInfo` reports the module done in the last round and in no other.

The proof follows the owner's `keyIndex` (`AtKey`): one lemma for a round that sends a key,
one for the round that reports done, chained by induction over the keys still to send.
-/

namespace GoFdo
namespace Fsim

open Cbor

/-- The two modules, and what the run has recorded: the events of each side and the results
of every `Yield` and `Receive`, of every `HandleInfo` and of every `ProduceInfo`. -/
structure SshLockstep where
  device : SSH
  owner : SSHOwner
  deviceEvents : List SSHEvent
  ownerEvents : List SSHOwnerEvent
  deviceResults : List (Except SSHError Unit)
  handled : List (Except SSHOwnerError Unit)
  produced : List (Except SSHOwnerError (Bool × Bool))

/-- The messages among the device's events. -/
def SSHEvent.writes : List SSHEvent → List (Bytes × Bytes)
  | [] => []
  | .write k b :: es => (k, b) :: writes es
  | _ :: es => writes es

namespace SshLockstep

/-- The device's `Receive` on each message of the owner, in order. -/
def receiveAll (env : SSHEnv) (d : SSH) : List (Bytes × Bytes) →
    SSH × List SSHEvent × List (Except SSHError Unit)
  | [] => (d, [], [])
  | m :: ms =>
    let o := d.Receive m.1 m.2 env
    let r := receiveAll env o.state ms
    (r.1, o.events ++ r.2.1, o.result :: r.2.2)

/-- The owner's `HandleInfo` on each message of the device, in order. -/
def handleAll (env : SSHOwnerEnv) (p : SSHOwner) : List (Bytes × Bytes) →
    SSHOwner × List SSHOwnerEvent × List (Except SSHOwnerError Unit)
  | [] => (p, [], [])
  | m :: ms =>
    let o := p.handleInfo m.1 m.2 env
    let r := handleAll env o.state ms
    (r.1, o.events ++ r.2.1, o.result :: r.2.2)

/-- One round, the device's side meeting `env.1` and the owner's `env.2`. -/
def round (s : SshLockstep) (env : SSHEnv × SSHOwnerEnv) : SshLockstep :=
  let y := s.device.yield env.1
  let h := handleAll env.2 s.owner (SSHEvent.writes y.events)
  let p := h.1.produceInfo env.2
  let r := receiveAll env.1 y.state (SSHOwnerEvent.writes p.events)
  ⟨r.1, p.state, s.deviceEvents ++ y.events ++ r.2.1, s.ownerEvents ++ h.2.1 ++ p.events,
    s.deviceResults ++ y.result :: r.2.2, s.handled ++ h.2.2, s.produced ++ [p.result]⟩

/-- The start: a fresh device with both callbacks and `DefaultUsername`, and a fresh owner
with its keys and `OnHostKeys`. -/
def start (keys : List SSHKeyInstall) (defaultUsername : Bytes) : SshLockstep :=
  ⟨SSH.fresh true true defaultUsername, SSHOwner.fresh keys true, [], [], [], [], []⟩

/-! ### What the run should do -/

/-- Device callbacks and a writer that succeed, `GetHostKeys` answering `hostKeys`. -/
structure DeviceSucceeds (env : SSHEnv) (hostKeys : List Bytes) : Prop where
  install : env.installAuthorizedKey = none
  getHostKeys : env.getHostKeys = .ok hostKeys
  encode : env.encode = none

/-- A producer and an `OnHostKeys` that succeed. -/
structure OwnerSucceeds (env : SSHOwnerEnv) : Prop where
  writeChunk : env.writeChunk = none
  onHostKeys : env.onHostKeys = none

/-- The host keys as the device writes them. -/
def hostKeysMessage (hostKeys : List Bytes) : Bytes × Bytes :=
  (ascii "host-keys", (Item.array (hostKeys.map .text)).encode)

/-- The device's install of `k`, the username defaulting to `defaultUsername`. -/
def installEvent (defaultUsername : Bytes) (k : SSHKeyInstall) : SSHEvent :=
  .installAuthorizedKey k.key (if k.username = [] then defaultUsername else k.username) k.sudo' none

/-- The owner's `add-key` message for `k`. -/
def addKeyEvent (k : SSHKeyInstall) : SSHOwnerEvent := .write (addKeyMessage k).1 (addKeyMessage k).2

/-- The device's events around its host keys in a round: the call and the message when they
are not yet sent, nothing after. -/
def hostKeysEvents (hostKeys : List Bytes) (sent : Bool) : List SSHEvent :=
  if sent then [] else [.getHostKeys (.ok hostKeys), .write (hostKeysMessage hostKeys).1 (hostKeysMessage hostKeys).2]

/-- The owner's events on the host keys in a round. -/
def onHostKeysEvents (hostKeys : List Bytes) (sent : Bool) : List SSHOwnerEvent :=
  if sent then [] else [.onHostKeys hostKeys none]

/-- The owner's `HandleInfo` results in a round. -/
def handledResults (sent : Bool) : List (Except SSHOwnerError Unit) := if sent then [] else [.ok ()]

@[simp] theorem hostKeysEvents_true (hostKeys : List Bytes) : hostKeysEvents hostKeys true = [] := rfl

@[simp] theorem onHostKeysEvents_true (hostKeys : List Bytes) :
    onHostKeysEvents hostKeys true = [] := rfl

@[simp] theorem handledResults_true : handledResults true = [] := rfl

/-! ### Each side on the other's messages -/

section Messages

variable {keys : List SSHKeyInstall} {defaultUsername : Bytes} {hostKeys : List Bytes}
  {env : SSHEnv} {oenv : SSHOwnerEnv}

theorem yield_sent (henv : DeviceSucceeds env hostKeys) (hne : hostKeys ≠ []) (sent : Bool) :
    (SSH.yield ⟨true, true, defaultUsername, sent, none⟩ env) =
      ⟨⟨true, true, defaultUsername, true, none⟩, hostKeysEvents hostKeys sent, .ok ()⟩ := by
  have hl : hostKeys.length ≠ 0 := fun h => hne (List.length_eq_zero.mp h)
  cases sent <;>
    simp [SSH.yield, SSH.sendHostKeys, henv.getHostKeys, henv.encode, hl, hostKeysEvents,
      hostKeysMessage]

theorem handleAll_hostKeys (henv : OwnerSucceeds oenv) (hne : hostKeys ≠ [])
    (hwf : (Item.array (hostKeys.map .text)).wf = true) (sent : Bool) :
    handleAll oenv ⟨keys, true, i, none⟩
        (SSHEvent.writes (hostKeysEvents hostKeys sent)) =
      (⟨keys, true, i, none⟩, onHostKeysEvents hostKeys sent, handledResults sent) := by
  have hl : hostKeys.length ≠ 0 := fun h => hne (List.length_eq_zero.mp h)
  have hd := decodeNext_encode hwf toTexts_map_text []
  rw [List.append_nil] at hd
  have k : ascii "host-keys" ≠ ascii "active" := by decide
  cases sent <;>
    simp [hostKeysEvents, SSHEvent.writes, handleAll, hostKeysMessage, SSHOwner.handleInfo, k,
      SSHOwner.handleHostKeys, hd, hl, henv.onHostKeys, onHostKeysEvents, handledResults]

theorem produceInfo_key (henv : OwnerSucceeds oenv) (hi : i < keys.length) :
    SSHOwner.produceInfo ⟨keys, true, i, none⟩ oenv =
      ⟨⟨keys, true, i + 1, none⟩, [addKeyEvent keys[i]], .ok (false, false)⟩ := by
  simp [SSHOwner.produceInfo, hi, henv.writeChunk, addKeyEvent]

theorem produceInfo_done (oenv : SSHOwnerEnv) :
    SSHOwner.produceInfo ⟨keys, true, keys.length, none⟩ oenv =
      ⟨⟨keys, true, keys.length, none⟩, [], .ok (false, true)⟩ := by
  simp [SSHOwner.produceInfo]

theorem receiveAll_addKey (henv : DeviceSucceeds env hostKeys) {k : SSHKeyInstall} (hk : k.wf) :
    receiveAll env ⟨true, true, defaultUsername, true, none⟩
        (SSHOwnerEvent.writes [addKeyEvent k]) =
      (⟨true, true, defaultUsername, true, none⟩, [installEvent defaultUsername k], [.ok ()]) := by
  have hd := decodeNext_encode (SSHKeyInstall.toItem_wf hk) (SSHKeyInstall.ofItem_toItem k) []
  rw [List.append_nil] at hd
  simp [addKeyEvent, SSHOwnerEvent.writes, receiveAll, addKeyMessage, SSH.Receive, SSH.receive,
    SSH.receiveAddKey, hd, henv.install, installEvent]

end Messages

/-! ### Rounds -/

section Rounds

variable {keys : List SSHKeyInstall} {defaultUsername : Bytes} {hostKeys : List Bytes}

/-- The modules after the owner has sent the keys before `i`, the device's host keys `sent`
or not. -/
def AtKey (keys : List SSHKeyInstall) (defaultUsername : Bytes) (s : SshLockstep) (i : Nat)
    (sent : Bool) : Prop :=
  s.device = ⟨true, true, defaultUsername, sent, none⟩ ∧ s.owner = ⟨keys, true, i, none⟩

variable {s : SshLockstep} {i : Nat} {sent : Bool} {e : SSHEnv × SSHOwnerEnv}

/-- A round that sends the `i`-th key. -/
theorem round_key (h : AtKey keys defaultUsername s i sent) (hi : i < keys.length)
    (hkeys : ∀ k ∈ keys, k.wf) (hne : hostKeys ≠ [])
    (hwf : (Item.array (hostKeys.map .text)).wf = true)
    (he : DeviceSucceeds e.1 hostKeys ∧ OwnerSucceeds e.2) :
    AtKey keys defaultUsername (round s e) (i + 1) true ∧
      (round s e).deviceEvents =
        s.deviceEvents ++ hostKeysEvents hostKeys sent ++ [installEvent defaultUsername keys[i]] ∧
      (round s e).ownerEvents = s.ownerEvents ++ onHostKeysEvents hostKeys sent ++ [addKeyEvent keys[i]] ∧
      (round s e).deviceResults = s.deviceResults ++ [.ok (), .ok ()] ∧
      (round s e).handled = s.handled ++ handledResults sent ∧
      (round s e).produced = s.produced ++ [.ok (false, false)] := by
  obtain ⟨hd, ho⟩ := h
  have hk := hkeys keys[i] (List.getElem_mem hi)
  simp only [round, hd, ho, yield_sent he.1 hne sent, handleAll_hostKeys he.2 hne hwf sent,
    produceInfo_key he.2 hi, receiveAll_addKey he.1 hk]
  simp [AtKey]

/-- The round after the last key, which reports the module done. -/
theorem round_done (h : AtKey keys defaultUsername s keys.length sent) (hne : hostKeys ≠ [])
    (hwf : (Item.array (hostKeys.map .text)).wf = true)
    (he : DeviceSucceeds e.1 hostKeys ∧ OwnerSucceeds e.2) :
    (round s e).deviceEvents = s.deviceEvents ++ hostKeysEvents hostKeys sent ∧
      (round s e).ownerEvents = s.ownerEvents ++ onHostKeysEvents hostKeys sent ∧
      (round s e).deviceResults = s.deviceResults ++ [.ok ()] ∧
      (round s e).handled = s.handled ++ handledResults sent ∧
      (round s e).produced = s.produced ++ [.ok (false, true)] := by
  obtain ⟨hd, ho⟩ := h
  simp only [round, hd, ho, yield_sent he.1 hne sent, handleAll_hostKeys he.2 hne hwf sent,
    produceInfo_done e.2]
  simp [SSHOwnerEvent.writes, receiveAll]

/-- The rounds from the `i`-th key on: one per key still to send, and the round that reports
done. -/
theorem rounds_from (hkeys : ∀ k ∈ keys, k.wf) (hne : hostKeys ≠ [])
    (hwf : (Item.array (hostKeys.map .text)).wf = true) (es : List (SSHEnv × SSHOwnerEnv))
    (hes : ∀ e ∈ es, DeviceSucceeds e.1 hostKeys ∧ OwnerSucceeds e.2)
    (h : AtKey keys defaultUsername s i sent) (hi : i ≤ keys.length)
    (hlen : es.length + i = keys.length + 1) :
    (es.foldl round s).deviceEvents = s.deviceEvents ++ hostKeysEvents hostKeys sent ++
        (keys.drop i).map (installEvent defaultUsername) ∧
      (es.foldl round s).ownerEvents = s.ownerEvents ++ onHostKeysEvents hostKeys sent ++
        (keys.drop i).map addKeyEvent ∧
      (es.foldl round s).deviceResults =
        s.deviceResults ++ List.replicate (2 * (keys.length - i) + 1) (.ok ()) ∧
      (es.foldl round s).handled = s.handled ++ handledResults sent ∧
      (es.foldl round s).produced = s.produced ++
        List.replicate (keys.length - i) (.ok (false, false)) ++ [.ok (false, true)] := by
  induction es generalizing s i sent with
  | nil => simp only [List.length_nil] at hlen; omega
  | cons e es ih =>
    have he := hes e (List.mem_cons_self e es)
    rw [List.foldl_cons]
    rcases Nat.lt_or_ge i keys.length with hi | hi'
    · obtain ⟨h₁, d₁, o₁, r₁, a₁, p₁⟩ := round_key h hi hkeys hne hwf he
      obtain ⟨d₂, o₂, r₂, a₂, p₂⟩ := ih (fun e' he' => hes e' (List.mem_cons_of_mem e he')) h₁ hi
        (by simp only [List.length_cons] at hlen; omega)
      have hdrop : keys.drop i = keys[i] :: keys.drop (i + 1) := List.drop_eq_getElem_cons hi
      have hn : keys.length - i = keys.length - (i + 1) + 1 := by omega
      refine ⟨?_, ?_, ?_, ?_, ?_⟩
      · rw [d₂, d₁, hdrop, List.map_cons]
        simp only [hostKeysEvents_true, List.append_nil, List.append_assoc, List.singleton_append]
      · rw [o₂, o₁, hdrop, List.map_cons]
        simp only [onHostKeysEvents_true, List.append_nil, List.append_assoc, List.singleton_append]
      · rw [r₂, r₁, hn]; simp [Nat.mul_succ, List.replicate_succ, List.replicate_add]
      · rw [a₂, a₁]; simp
      · rw [p₂, p₁, hn]; simp [List.replicate_succ]
    · obtain rfl : i = keys.length := by simp only [List.length_cons] at hlen; omega
      obtain rfl : es = [] := List.eq_nil_of_length_eq_zero (by simp only [List.length_cons] at hlen; omega)
      obtain ⟨d₁, o₁, r₁, a₁, p₁⟩ := round_done h hne hwf he
      simp [d₁, o₁, r₁, a₁, p₁]

/-- The owner sends every key once, in order, and the device installs each, with
`DefaultUsername` where the key names no user, after reporting its host keys once, which
reach `OnHostKeys`: with callbacks, a producer and a writer that all succeed, a run of one
round per key and one more returns no error on either side, and `ProduceInfo` reports the
module done in its last round and in no other. -/
theorem sshLockstep_installs (keys : List SSHKeyInstall) (hkeys : ∀ k ∈ keys, k.wf)
    (defaultUsername : Bytes) {hostKeys : List Bytes} (hne : hostKeys ≠ [])
    (hwf : (Item.array (hostKeys.map .text)).wf = true) (es : List (SSHEnv × SSHOwnerEnv))
    (hes : ∀ e ∈ es, DeviceSucceeds e.1 hostKeys ∧ OwnerSucceeds e.2)
    (hlen : es.length = keys.length + 1) :
    (es.foldl round (start keys defaultUsername)).deviceEvents =
        .getHostKeys (.ok hostKeys) :: .write (ascii "host-keys") (Item.array (hostKeys.map .text)).encode ::
          keys.map (installEvent defaultUsername) ∧
      (es.foldl round (start keys defaultUsername)).ownerEvents =
        .onHostKeys hostKeys none :: keys.map addKeyEvent ∧
      (es.foldl round (start keys defaultUsername)).deviceResults =
        List.replicate (2 * keys.length + 1) (.ok ()) ∧
      (es.foldl round (start keys defaultUsername)).handled = [.ok ()] ∧
      (es.foldl round (start keys defaultUsername)).produced =
        List.replicate keys.length (.ok (false, false)) ++ [.ok (false, true)] := by
  obtain ⟨d, o, r, a, p⟩ := rounds_from hkeys hne hwf es hes
    (⟨rfl, rfl⟩ : AtKey keys defaultUsername (start keys defaultUsername) 0 false)
    (Nat.zero_le _) (by omega)
  exact ⟨by simpa [start, hostKeysEvents, hostKeysMessage] using d,
    by simpa [start, onHostKeysEvents] using o, by simpa [start] using r,
    by simpa [start, handledResults] using a, by simpa [start] using p⟩

theorem sshLockstep_installs_oneKey :
    (∀ k ∈ [(⟨ascii "ssh-ed25519 AAAA", [], false⟩ : SSHKeyInstall)], k.wf) ∧
      [ascii "ssh-ed25519 HOST"] ≠ [] ∧
      (Item.array ([ascii "ssh-ed25519 HOST"].map .text)).wf = true ∧
      (∀ e ∈ List.replicate 2 ((⟨none, .ok [ascii "ssh-ed25519 HOST"], none⟩ : SSHEnv),
          (⟨none, none⟩ : SSHOwnerEnv)),
        DeviceSucceeds e.1 [ascii "ssh-ed25519 HOST"] ∧ OwnerSucceeds e.2) ∧
      ((List.replicate 2 ((⟨none, .ok [ascii "ssh-ed25519 HOST"], none⟩ : SSHEnv),
          (⟨none, none⟩ : SSHOwnerEnv))).foldl round
          (start [⟨ascii "ssh-ed25519 AAAA", [], false⟩] (ascii "fdo"))).ownerEvents =
        .onHostKeys [ascii "ssh-ed25519 HOST"] none ::
          [(⟨ascii "ssh-ed25519 AAAA", [], false⟩ : SSHKeyInstall)].map addKeyEvent :=
  have hes : ∀ e ∈ List.replicate 2 ((⟨none, .ok [ascii "ssh-ed25519 HOST"], none⟩ : SSHEnv),
      (⟨none, none⟩ : SSHOwnerEnv)),
      DeviceSucceeds e.1 [ascii "ssh-ed25519 HOST"] ∧ OwnerSucceeds e.2 := fun e he => by
    rw [List.eq_of_mem_replicate he]
    exact ⟨⟨rfl, rfl, rfl⟩, rfl, rfl⟩
  ⟨by decide, by decide, by decide, hes,
    (sshLockstep_installs [⟨ascii "ssh-ed25519 AAAA", [], false⟩] (by decide) (ascii "fdo") (by decide) (by decide) _ hes rfl).2.1⟩

end Rounds

end SshLockstep

end Fsim
end GoFdo
