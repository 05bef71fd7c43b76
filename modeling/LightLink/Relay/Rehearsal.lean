import LightLink.Relay.Client

/-!
# A relay that follows a script

A far end for trying out a client: it answers each item that it receives with the next entry of a
script. Once the script is used up it closes its side of the stream and goes on receiving.
-/

namespace LightLink.Relay

/-- How an item is answered. -/
inductive Cue where
  | items (items : List Bytes)
  /-- Bytes that need not be items. -/
  | raw (bytes : Bytes)
  deriving DecidableEq, Repr

/-- The bytes of a cue on the stream. -/
def Cue.bytes : Cue → Bytes
  | .items is => is.flatMap fun i => (encodeItem i).toOption.getD []
  | .raw bs => bs

/-- A relay that follows a script. -/
structure Rehearsal where
  script : List Cue
  decoder : ItemDecoder := {}
  /-- The items that it has received, last one first. -/
  log : List Bytes := []
  outgoing : Bytes := []
  /-- It has closed its side of the stream. -/
  closed : Bool := false
  deriving DecidableEq, Repr

namespace Rehearsal

/-- The items that have been received, first one first. -/
def received (r : Rehearsal) : List Bytes := r.log.reverse

/-- Answers an item. -/
def answer (r : Rehearsal) (item : Item) : Rehearsal :=
  { r with
    log := item.toBytes :: r.log
    script := r.script.tail
    outgoing := r.outgoing ++ (r.script.head?.map Cue.bytes).getD [] }

/-- Answers the items that have come as a whole. -/
def work (r : Rehearsal) : Rehearsal :=
  match _next : r.decoder.next with
  | (.ok (some item), decoder) => work { r.answer item with decoder }
  | _ => r
termination_by r.decoder.buffered
decreasing_by exact ItemDecoder.buffered_next_lt _next

/-- What is read of a stream: what has not been sent, and then its end if the script is used up. -/
def emit (r : Rehearsal) : List (Nat × Incoming) :=
  (if r.outgoing.isEmpty then [] else [(0, .bytes r.outgoing)]) ++
    if r.script.isEmpty && !r.closed then [(0, .lost .closed)] else []

instance : RelayEnd Rehearsal where
  write r bytes := (.ok (), work { r with decoder := r.decoder.push bytes })
  send r := (r.emit, { r with outgoing := [], closed := r.closed || r.script.isEmpty })

end Rehearsal

end LightLink.Relay
