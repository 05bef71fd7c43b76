import LightLink.Relay.Client
import LightLink.Relay.Server

/-!
# A relay and its session as one far end

A relay and its session as the far end of a client's stream: what the client writes is handled once
it has come, and the replies come back after the time that this has taken the session. A `Network`
lies between the two; it loses, adds and reorders nothing, but it takes its time and cuts the stream
as it likes.
-/

namespace LightLink.Relay

/-- What a network does with what it carries, by how often the client has written before. A read
never yields nothing, as that is how a stream ends. -/
structure Network where
  /-- The pieces in which the relay reads what the client writes. -/
  toRelay : Nat → Bytes → List Bytes
  /-- The pieces in which the client reads what the relay replies, and after which time each. -/
  toClient : Nat → Bytes → List (Nat × Bytes)
  /-- How much time passes at the relay before it reads what the client writes. -/
  pause : Nat → Nat
  /-- The most time that a reply takes to the client. -/
  latency : Nat
  flatten_toRelay : ∀ n bs, (toRelay n bs).flatten = bs
  toRelay_ne_nil : ∀ n bs, ∀ piece ∈ toRelay n bs, piece ≠ []
  flatMap_toClient : ∀ n bs, (toClient n bs).flatMap Prod.snd = bs
  toClient_ne_nil : ∀ n bs, ∀ piece ∈ toClient n bs, piece.2 ≠ []
  toClient_le_latency : ∀ n bs, ∀ piece ∈ toClient n bs, piece.1 ≤ latency

/-- Everything comes at once and as it was written. -/
def Network.direct : Network where
  toRelay _ bs := [bs].filter (· ≠ [])
  toClient _ bs := [(0, bs)].filter (·.2 ≠ [])
  pause _ := 0
  latency := 0
  flatten_toRelay _ bs := by by_cases h : bs = [] <;> simp [h]
  toRelay_ne_nil _ _ _ h := by simpa using (List.mem_filter.mp h).2
  flatMap_toClient _ bs := by by_cases h : bs = [] <;> simp [h]
  toClient_ne_nil _ _ _ h := by simpa using (List.mem_filter.mp h).2
  toClient_le_latency _ _ _ h :=
    Nat.le_of_eq (congrArg Prod.fst (List.mem_singleton.mp (List.mem_filter.mp h).1))

/-- A relay that serves one client. -/
structure Loopback (σ : Type) where
  config : Config
  session : Session σ
  network : Network := .direct
  connection : Connection := {}
  /-- How often the client has written. -/
  carried : Nat := 0
  /-- What has been handled, first item first. -/
  handled : List Handled := []
  /-- What has not been sent to the client. -/
  outgoing : List (Nat × Incoming) := []

namespace Loopback

/-- The bytes of a reply on the stream. -/
def framed (reply : Bytes) : Bytes := (encodeItem reply).toOption.getD []

/-- The bytes of the replies to items that have been handled. -/
def replies (handled : List Handled) : Bytes :=
  (handled.filterMap Handled.reply).flatMap framed

variable {σ : Type}

/-- What the client reads once items have been handled, which has taken `time`. -/
def incoming (l : Loopback σ) (time : Nat) (handled : List Handled) (connection : Connection) :
    List (Nat × Incoming) :=
  (l.network.toClient l.carried (replies handled)).map (fun p => (time + p.1, .bytes p.2)) ++
    if connection.ended.isSome then [(time + l.network.latency, .lost .closed)] else []

variable [FarEnd σ]

/-- Handles what a client has written. -/
def handle (l : Loopback σ) (bytes : Bytes) : Loopback σ :=
  if l.connection.ended.isSome then l
  else
    let session := { l.session with link := l.session.link.pass (l.network.pause l.carried) }
    let ((handled, connection), session') :=
      (l.connection.receiveAll l.config (l.network.toRelay l.carried bytes)).run session
    { l with
      session := session', connection
      carried := l.carried + 1
      handled := l.handled ++ handled
      outgoing := l.outgoing ++
        l.incoming (session'.link.now - session.link.now) handled connection }

instance : RelayEnd (Loopback σ) where
  write l bytes := (.ok (), l.handle bytes)
  send l := (l.outgoing, { l with outgoing := [] })

end Loopback

end LightLink.Relay
