import LightLink.Proofs.Relay.Live

/-!
# Commands and their answers

Nothing that a client, a relay or a module sends carries a number. Still, each command of a client
gets the answer to itself:

* `Client.sendEach`: commands, one after the other, whatever becomes of them;
* `Paired`: results that belong to commands, by how the module answers each;
* `sendEach_live`: from one command to all;
* `sendEach_pairing`: what that means for the results and for the module.
-/

namespace LightLink.Relay

/-- Sends messages one after the other, also where one has failed. -/
def Client.sendEach {τ : Type} [RelayEnd τ] :
    List (Message × Bool) → StateM (Client τ) (List (Except Stop (List Bytes)))
  | [] => pure []
  | (m, expectResponse) :: calls => do
    let result ← (sendAndAck m expectResponse).run
    let results ← sendEach calls
    pure (result :: results)

/-- The results of commands and what is written to the module, where this many commands have been
confirmed before. -/
inductive Paired (reactions : Nat → Reaction) :
    Nat → List (Message × Bool) → List (Except Stop (List Bytes)) → List Bytes → Prop where
  | nil (n : Nat) : Paired reactions n [] [] []
  /-- A command that is answered `ok` has a result, and the next one follows. -/
  | ok {n : Nat} {m : Message} {expectResponse : Bool} {e : Bytes} {fragments : List Bytes}
    {calls : List (Message × Bool)} {results : List (Except Stop (List Bytes))}
    {written : List Bytes} (answer : (reactions n).answer = .ok) (encoded : m.encode = .ok e)
    (first : fragments <+: (reactions n).packets.map Packet.bytes) :
    Paired reactions (n + 1) calls results written →
    Paired reactions n ((m, expectResponse) :: calls) (.ok fragments :: results) (e :: written)
  /-- A command that is not is the last one to be written. -/
  | failed {n : Nat} {m : Message} {expectResponse : Bool} {e : Bytes} {stop : Stop}
    {calls : List (Message × Bool)} {results : List (Except Stop (List Bytes))}
    (answer : (reactions n).answer ≠ .ok) (encoded : m.encode = .ok e)
    (length : results.length = calls.length) (none_ok : ∀ r ∈ results, ∃ stop, r = .error stop) :
    Paired reactions n ((m, expectResponse) :: calls) (.error stop :: results) [e]

variable {x : Setup} {k : Client (Loopback Responder)} {log : List Bytes} {left : List Packet}
  {calls : List (Message × Bool)}

theorem sendEach_cons {m : Message} {expectResponse : Bool} {result : Except Stop (List Bytes)}
    {k' : Client (Loopback Responder)} (h : Client.sendAndAck m expectResponse k = (result, k')) :
    (Client.sendEach ((m, expectResponse) :: calls)).run k =
      (result :: ((Client.sendEach calls).run k').1, ((Client.sendEach calls).run k').2) := by
  have e : (Client.sendEach ((m, expectResponse) :: calls)).run k =
      ((Client.sendAndAck m expectResponse k).1 ::
        ((Client.sendEach calls).run (Client.sendAndAck m expectResponse k).2).1,
        ((Client.sendEach calls).run (Client.sendAndAck m expectResponse k).2).2) := rfl
  rw [e, h]

/-- Once a command has failed all others fail, and none is written. -/
theorem sendEach_dead (dead : Dead k log) (encodable : ∀ c ∈ calls, ∃ e, c.1.encode = .ok e) :
    ((Client.sendEach calls).run k).1.length = calls.length ∧
      (∀ r ∈ ((Client.sendEach calls).run k).1, ∃ stop, r = .error stop) ∧
      Dead ((Client.sendEach calls).run k).2 log := by
  induction calls generalizing k with
  | nil => exact ⟨rfl, nofun, dead⟩
  | cons c calls ih =>
    obtain ⟨m, expectResponse⟩ := c
    obtain ⟨e, encoded⟩ := encodable _ (.head _)
    obtain ⟨stop, k', sent, dead⟩ := dead.sendAndAck encoded expectResponse
    obtain ⟨length, none_ok, dead⟩ := ih dead fun c mem => encodable c (.tail _ mem)
    rw [sendEach_cons sent]
    refine ⟨congrArg Nat.succ length, fun r mem => ?_, dead⟩
    rcases List.mem_cons.mp mem with rfl | mem
    · exact ⟨stop, rfl⟩
    · exact none_ok r mem

/-- Each command gets the answer to itself, from one command to all. -/
theorem sendEach_live (sound : x.Sound) (live : Live x k log left)
    (encodable : ∀ c ∈ calls, ∃ e, c.1.encode = .ok e) : ∃ written,
      Paired x.reactions log.length calls ((Client.sendEach calls).run k).1 written ∧
      ((Client.sendEach calls).run k).2.channel.far.session.link.far.written = log ++ written := by
  induction calls generalizing k log left with
  | nil => exact ⟨[], .nil _, live.written.trans (List.append_nil _).symm⟩
  | cons c calls ih =>
    obtain ⟨m, expectResponse⟩ := c
    obtain ⟨e, encoded⟩ := encodable _ (.head _)
    have encodable : ∀ c ∈ calls, ∃ e, c.1.encode = .ok e := fun c mem => encodable c (.tail _ mem)
    by_cases answer : (x.reactions log.length).answer = .ok
    · obtain ⟨fragments, k', rest, sent, live, first⟩ :=
        live.sendAndAck_ok sound encoded answer expectResponse
      obtain ⟨written, paired, all⟩ := ih live encodable
      rw [List.length_append, List.length_singleton] at paired
      rw [sendEach_cons sent]
      refine ⟨e :: written, .ok answer encoded first paired, ?_⟩
      rw [all, List.append_assoc, List.singleton_append]
    · obtain ⟨stop, k', sent, dead⟩ := live.sendAndAck_not_ok sound encoded answer expectResponse
      obtain ⟨length, none_ok, dead⟩ := sendEach_dead dead encodable
      rw [sendEach_cons sent]
      exact ⟨[e], .failed answer encoded length none_ok, dead.written⟩

/-! ## The start -/

theorem live_start (x : Setup) (name : String) : Live x (x.start name) [] [] :=
  ⟨⟨rfl, rfl, rfl, rfl, rfl, rfl, rfl⟩,
    Session.serving_attach name x.session x.reactions⟩

/-! ## Results -/

namespace Paired

variable {reactions : Nat → Reaction} {n : Nat} {results : List (Except Stop (List Bytes))}
  {written : List Bytes}

theorem length_eq (h : Paired reactions n calls results written) :
    results.length = calls.length := by
  induction h with
  | nil n => rfl
  | ok answer encoded first h ih => exact congrArg Nat.succ ih
  | failed answer encoded length none_ok => exact congrArg Nat.succ length

/-- Where the first write is answered `ok`, whether all are depends on the others. -/
theorem all_ok_succ (answer : (reactions n).answer = .ok) (i : Nat) :
    (∀ j < i + 1, (reactions (n + j)).answer = .ok) ↔
      ∀ j < i, (reactions (n + 1 + j)).answer = .ok := by
  constructor
  · intro all j lt
    rw [Nat.succ_add, ← Nat.add_succ]
    exact all (j + 1) (Nat.succ_lt_succ lt)
  · intro all j lt
    cases j with
    | zero => exact answer
    | succ j =>
      rw [Nat.add_succ, ← Nat.succ_add]
      exact all j (Nat.lt_of_succ_lt_succ lt)

/-- A command succeeds if all up to it have been answered `ok`. -/
theorem ok_iff (h : Paired reactions n calls results written) {i : Nat} (lt : i < calls.length) :
    (∃ fragments, results[i]? = some (.ok fragments)) ↔
      ∀ j < i + 1, (reactions (n + j)).answer = .ok := by
  induction h generalizing i with
  | nil n => cases lt
  | @ok n m _ e fragments calls results written answer encoded first h ih =>
    cases i with
    | zero =>
      refine iff_of_true ⟨fragments, rfl⟩ fun j lt => ?_
      rw [Nat.lt_one_iff.mp lt]
      exact answer
    | succ i =>
      rw [List.getElem?_cons_succ, ih (Nat.lt_of_succ_lt_succ lt), all_ok_succ answer (i + 1)]
  | @failed n m _ e stop calls results answer encoded length none_ok =>
    refine iff_of_false ?_ fun all => answer (all 0 (Nat.succ_pos i))
    intro ⟨fragments, is_ok⟩
    cases i with
    | zero => cases is_ok
    | succ i =>
      obtain ⟨stop, e⟩ := none_ok _ (List.mem_of_getElem? is_ok)
      cases e

/-- What comes back for a command are the first messages behind the answer to it. -/
theorem fragments_first (h : Paired reactions n calls results written) {i : Nat}
    {fragments : List Bytes} (e : results[i]? = some (.ok fragments)) :
    fragments <+: (reactions (n + i)).packets.map Packet.bytes := by
  induction h generalizing i with
  | nil n => cases e
  | ok answer encoded first h ih =>
    cases i with
    | zero =>
      obtain rfl := Except.ok.inj (Option.some.inj e)
      exact first
    | succ i =>
      have first := ih e
      rwa [Nat.succ_add] at first
  | failed answer encoded length none_ok =>
    cases i with
    | zero => cases e
    | succ i =>
      obtain ⟨stop, e'⟩ := none_ok _ (List.mem_of_getElem? e)
      cases e'

/-- The commands are written in their order, up to the first that is not answered `ok`. -/
theorem written_eq (h : Paired reactions n calls results written) : ∃ m ≤ calls.length,
    (∀ i < calls.length, i < m ↔ ∀ j < i, (reactions (n + j)).answer = .ok) ∧
      written.map .ok = (calls.take m).map fun c => c.1.encode := by
  induction h with
  | nil n => exact ⟨0, Nat.le_refl _, nofun, rfl⟩
  | @ok n _ _ e _ calls _ written answer encoded first h ih =>
    obtain ⟨m, le, reached, all⟩ := ih
    refine ⟨m + 1, Nat.succ_le_succ le, fun i lt => ?_, ?_⟩
    · cases i with
      | zero => exact iff_of_true (Nat.succ_pos m) nofun
      | succ i =>
        rw [Nat.succ_lt_succ_iff, reached i (Nat.lt_of_succ_lt_succ lt), all_ok_succ answer i]
    · rw [List.map_cons, all, List.take_succ_cons, List.map_cons, encoded]
  | @failed n m _ e stop calls results answer encoded length none_ok =>
    refine ⟨1, Nat.succ_le_succ (Nat.zero_le _), fun i lt => ?_, ?_⟩
    · cases i with
      | zero => exact iff_of_true Nat.zero_lt_one nofun
      | succ i =>
        refine iff_of_false (by omega) fun before => answer (before 0 (Nat.succ_pos i))
    · rw [List.take_succ_cons, List.take_zero, List.map_cons, List.map_cons, encoded]
      rfl

end Paired

/-- Each command of a client gets the answer to itself. It succeeds exactly when the module has
answered all up to it `ok`; the module is written what the commands encode to, each once and in
order, up to the first that it does not answer `ok`; and what comes back for a command are the first
of the messages that the module has sent behind the answer to it. -/
theorem sendEach_pairing (x : Setup) (sound : x.Sound) (name : String)
    (calls : List (Message × Bool)) (encodable : ∀ c ∈ calls, ∃ e, c.1.encode = .ok e) :
    let (results, k) := (Client.sendEach calls).run (x.start name)
    results.length = calls.length ∧
    (∀ i < calls.length, (∃ fragments, results[i]? = some (.ok fragments)) ↔
      ∀ j ≤ i, (x.reactions j).answer = .ok) ∧
    (∃ n ≤ calls.length,
      (∀ i < calls.length, i < n ↔ ∀ j < i, (x.reactions j).answer = .ok) ∧
      k.channel.far.session.link.far.written.map .ok = (calls.take n).map fun c => c.1.encode) ∧
    ∀ i fragments, results[i]? = some (.ok fragments) →
      fragments <+: (x.reactions i).packets.map Packet.bytes := by
  obtain ⟨written, paired, all⟩ := sendEach_live sound (live_start x name) encodable
  rw [List.nil_append] at all
  generalize (Client.sendEach calls).run (x.start name) = run at *
  obtain ⟨results, k⟩ := run
  refine ⟨paired.length_eq, fun i lt => ?_, ?_, fun i fragments e => ?_⟩
  · simpa [Nat.lt_succ_iff] using paired.ok_iff lt
  · obtain ⟨n, le, reached, encoded⟩ := paired.written_eq
    refine ⟨n, le, fun i lt => ?_, by rw [all, encoded]⟩
    simpa using reached i lt
  · simpa using paired.fragments_first e

/-! ### One client -/

/-- A module that answers `ok`, in two pieces, with one message right behind it. -/
def okWith (p : Packet) : Reaction where
  answer := .ok
  packets := [p]
  segments := [.line [0x6F, 0x6B, 13] (by decide) (by decide), .message p]
  readings := [(3, .chunk [0x6F]), (2, .chunk ([0x6B, 13, 10] ++ p.bytes)), (50, .pause)]
  frames := ⟨⟨[0x6F, 0x6B], false⟩, by decide, rfl⟩
  carries := .chunks [(3, [0x6F]), (2, [0x6B, 13, 10] ++ p.bytes)]
    [.line [0x6F, 0x6B, 13] (by decide) (by decide), .message p] (by simp [Segment.bytes, lineFeed])
    (.pause 50 .nil)

/-- A module that answers `fail`. -/
def failing : Reaction where
  answer := .fail
  packets := []
  segments := [.line [0x66, 0x61, 0x69, 0x6C] (by decide) (by decide)]
  readings := [(1, .chunk [0x66, 0x61, 0x69, 0x6C, 10])]
  frames := ⟨rfl, ⟨[0x66, 0x61, 0x69, 0x6C], false⟩, by decide, rfl⟩
  carries := .chunks [(1, [0x66, 0x61, 0x69, 0x6C, 10])]
    [.line [0x66, 0x61, 0x69, 0x6C] (by decide) (by decide)] rfl .nil

/-- Bytes that come one by one and take seven ticks to the client. -/
def bytewise : Network where
  toRelay _ bs := bs.map fun b => [b]
  toClient _ bs := bs.map fun b => (7, [b])
  pause n := n
  latency := 7
  flatten_toRelay _ bs := by
    rw [← List.flatMap_def, List.flatMap_singleton']
  toRelay_ne_nil _ bs piece mem := by
    obtain ⟨b, -, rfl⟩ := List.mem_map.mp mem
    nofun
  flatMap_toClient _ bs := by
    rw [List.flatMap_map, List.flatMap_singleton']
  toClient_ne_nil _ bs piece mem := by
    obtain ⟨b, -, rfl⟩ := List.mem_map.mp mem
    nofun
  toClient_le_latency _ bs piece mem := by
    obtain ⟨b, -, rfl⟩ := List.mem_map.mp mem
    exact Nat.le_refl _

/-- A module that answers `ok` once, with a message, then `fail`. -/
def onceOnly (p : Packet) : Setup where
  client := {}
  relay := {}
  session := {}
  network := bytewise
  reactions
    | 0 => okWith p
    | _ + 1 => failing

theorem onceOnly_sound (p : Packet) : (onceOnly p).Sound where
  room
    | 0 => show 0 + 2 ≤ 1000 by decide
    | 1 => show 1 + 1 ≤ 1000 by decide
    | _ + 2 => show 0 + 1 ≤ 1000 by decide
  prompt
    | 0, _ => by
      have le : (okWith p).delay ≤ 55 := firstFrame_le_span .idle (okWith p).readings
      show 0 + (okWith p).delay < seconds 10
      exact Nat.lt_of_le_of_lt (by omega) (show 55 < seconds 10 by decide)
  patient := show seconds 10 + 7 ≤ seconds 15 by decide

/-- Of three commands the first succeeds and the second is the last that is written. -/
theorem sendEach_pairing_onceOnly :
    let calls := [(Message.poll 0xFFFF, true), (Message.value 1 2 3, false), (.poll 1, true)]
    ∃ p : Packet, (onceOnly p).Sound ∧ (∀ c ∈ calls, ∃ e, c.1.encode = .ok e) ∧
      let (results, k) := (Client.sendEach calls).run ((onceOnly p).start "")
      (∃ fragments, results[0]? = some (.ok fragments) ∧ fragments <+: [p.bytes]) ∧
      (¬ ∃ fragments, results[1]? = some (.ok fragments)) ∧
      (¬ ∃ fragments, results[2]? = some (.ok fragments)) ∧
      k.channel.far.session.link.far.written.map .ok =
        [(Message.poll 0xFFFF).encode, (Message.value 1 2 3).encode] := by
  intro calls
  let p : Packet := .ofMessage (show (Message.poll 1).encode = .ok _ from rfl)
  have encodable : ∀ c ∈ calls, ∃ e, c.1.encode = .ok e := by
    intro c mem
    simp only [calls, List.mem_cons, List.not_mem_nil, or_false] at mem
    rcases mem with rfl | rfl | rfl <;> exact ⟨_, rfl⟩
  have pairing := sendEach_pairing (onceOnly p) (onceOnly_sound p) "" calls encodable
  refine ⟨p, onceOnly_sound p, encodable, ?_⟩
  generalize (Client.sendEach calls).run ((onceOnly p).start "") = run at *
  obtain ⟨results, k⟩ := run
  obtain ⟨-, succeeds, ⟨n, le, reached, written⟩, first⟩ := pairing
  have refused : ((onceOnly p).reactions 1).answer ≠ .ok := nofun
  obtain ⟨fragments, is_ok⟩ := (succeeds 0 (by decide)).mpr fun j le => by
    rw [Nat.le_zero.mp le]
    rfl
  refine ⟨⟨fragments, is_ok, first 0 fragments is_ok⟩, ?_, ?_, ?_⟩
  · rw [succeeds 1 (by decide)]
    exact fun all => refused (all 1 (by decide))
  · rw [succeeds 2 (by decide)]
    exact fun all => refused (all 1 (by decide))
  · have two : 1 < n := (reached 1 (by decide)).mpr fun j lt => by
      rw [Nat.lt_one_iff.mp lt]
      rfl
    have not_three : ¬ 2 < n := fun lt => refused ((reached 2 (by decide)).mp lt 1 (by decide))
    obtain rfl : n = 2 := by omega
    exact written

end LightLink.Relay
