import LightLink.Proofs.Scan.Polls
import LightLink.Proofs.Session.Requests

/-!
# Whom a registry knows at an address

Whatever a link brings, and whatever else is done with the session between scans, a registry knows
at an address who answered the last poll of it that was answered at all. That is whoever the first
binary frame behind an `ok` names, and need not be the module at that address.

* `Poll`: a poll in a run; `Poll.AnsweredBy`: what its answer is, in frames that are taken;
* `Poll.outcome_eq_answer_iff`: what comes of a poll;
* `registry_scans`: the registry after scans is the one after their polls, one after the other;
* `scans_identity`: whom it knows, and when all of them are at their addresses;
* `not_scans_attributed`: a late reply is known at an address that is not its sender's.
-/

namespace LightLink

variable {σ : Type} [FarEnd σ]

/-! ## Polls -/

/-- A poll in a run: the address that is asked for, and the session when it is. -/
structure Poll (σ : Type) where
  address : UInt16
  before : Session σ

namespace Poll

variable (c : ScanConfig) (p : Poll σ)

/-- What comes of it. -/
def outcome : PollOutcome := (Session.pollAddress c p.address p.before).1

/-- The session behind it and behind the pause that follows. -/
def after : Session σ :=
  (Session.pause c.addressPeriod (Session.pollAddress c p.address p.before).2).2

/-- The request that sends it. -/
def sending (bytes : Bytes) : Session.Query σ := ⟨p.before, .send bytes false c.ackTimeout⟩

/-- The request for what comes after it was confirmed. -/
def fetching (bytes : Bytes) : Session.Query σ :=
  ⟨(p.sending c bytes).after, .getDataMessage c.dataWait⟩

/-- An `ok` confirms it, and the first binary frame that is taken behind that is the reply of this
module to a poll. -/
def AnsweredBy (i : Identity) : Prop :=
  ∃ bytes, (Message.poll p.address).encode = .ok bytes ∧
    (∃ front ok, (p.sending c bytes).taken = front ++ [ok] ∧
      (∀ b ∈ front, b.frame.verdict? = none) ∧ ok.frame.verdict? = some .accepted) ∧
    ∃ front a m, (p.fetching c bytes).taken = front ++ [a] ∧
      (∀ b ∈ front, b.frame.isBinary = false) ∧ a.frame.isBinary = true ∧
      a.frame.message = .ok m ∧ m.body.identity? = some i

end Poll

/-- Somebody is named by the frame that came after a poll exactly if it is a reply to a poll. -/
theorem pollOutcome_eq_some_iff {found : Option Frame} {i : Identity} :
    pollOutcome found = .ok (some i) ↔
      ∃ f m, found = some f ∧ f.message = .ok m ∧ m.body.identity? = some i := by
  constructor
  · intro named
    cases found with
    | none => cases named
    | some f =>
      unfold pollOutcome at named
      cases message : f.message with
      | error e => simp only [message] at named; cases named
      | ok m =>
        cases identity : m.body.identity? with
        | none => simp only [message, identity] at named; cases named
        | some j =>
          simp only [message, identity] at named
          cases named
          exact ⟨f, m, rfl, message, identity⟩
  · rintro ⟨f, m, rfl, message, identity⟩
    simp only [pollOutcome, message, identity]

namespace Poll

variable (c : ScanConfig) (p : Poll σ) {bytes : Bytes}

/-- A poll comes to what the frame tells that is taken behind its `ok`. -/
theorem outcome_eq (encoded : (Message.poll p.address).encode = .ok bytes) : p.outcome c =
    match (p.sending c bytes).result with
    | .error e => .error (.transport e)
    | .ok _ =>
      match (p.fetching c bytes).result with
      | .error e => .error (.transport e)
      | .ok found => pollOutcome found := by
  have run (x : Exchange σ (Option Frame)) (s : Session σ) :
      (x.run >>= fun r => match r with
        | .error e => pure (.error (.transport e))
        | .ok found => pure (pollOutcome found) : StateM (Session σ) PollOutcome) s =
        match x s with
        | (.error e, s') => (.error (.transport e), s')
        | (.ok found, s') => (pollOutcome found, s') := by
    show (match (x s).1 with
      | .error e => _
      | .ok found => _ : StateM (Session σ) PollOutcome) (x s).2 = _
    rcases x s with ⟨e | found, s'⟩ <;> rfl
  have sent : (p.sending c bytes).result =
      (Session.sendAndConfirm bytes false c.ackTimeout p.before).1.map fun _ => none := rfl
  have fetched : (p.fetching c bytes).result = (Session.getDataMessage c.dataWait
      (Session.sendAndConfirm bytes false c.ackTimeout p.before).2).1 := rfl
  unfold outcome Session.pollAddress
  rw [encoded, sent, fetched]
  refine (congrArg Prod.fst (run (Session.pollExchange bytes c.ackTimeout c.dataWait) _)).trans ?_
  unfold Session.pollExchange
  rw [Session.exchange_bind]
  rcases Session.sendAndConfirm bytes false c.ackTimeout p.before with ⟨e | _, s₁⟩
  · rfl
  · dsimp only [Except.map]
    rcases Session.getDataMessage c.dataWait s₁ with ⟨e | found, s₂⟩ <;> rfl

/-- A poll is confirmed by an `ok`, and takes nothing behind it. -/
theorem sending_result_iff : (p.sending c bytes).result = .ok none ↔
    ∃ front ok, (p.sending c bytes).taken = front ++ [ok] ∧
      (∀ b ∈ front, b.frame.verdict? = none) ∧ ok.frame.verdict? = some .accepted := by
  rw [Session.Query.result_eq_iff _ rfl]
  refine exists₂_congr fun front ok => and_congr_right fun _ => and_congr
    (forall₂_congr fun b _ => Option.map_eq_none_iff) ?_
  show ok.frame.verdict?.map Session.Request.ofVerdict = _ ↔ _
  rcases ok.frame.verdict? with _ | _ | _ <;> simp [Session.Request.ofVerdict]

theorem sending_result_ok {found : Option Frame} (h : (p.sending c bytes).result = .ok found) :
    found = none := by
  obtain ⟨_, _, e⟩ := except_map_eq_ok.mp h
  exact e.symm

/-- What comes is the first binary frame that is taken behind that. -/
theorem fetching_result_iff {f : Frame} : (p.fetching c bytes).result = .ok (some f) ↔
    ∃ front a, (p.fetching c bytes).taken = front ++ [a] ∧
      (∀ b ∈ front, b.frame.isBinary = false) ∧ a.frame.isBinary = true ∧ a.frame = f := by
  have none (g : Frame) : g.data? = none ↔ g.isBinary = false := by
    unfold Frame.data?
    cases g.isBinary <;> simp
  have some (g : Frame) : g.data? = some f ↔ g.isBinary = true ∧ g = f := by
    unfold Frame.data?
    cases g.isBinary <;> simp
  rw [Session.Query.result_eq_iff _ rfl]
  refine exists₂_congr fun front a => and_congr_right fun _ => and_congr
    (forall₂_congr fun b _ => Option.map_eq_none_iff.trans (none b.frame)) ?_
  show a.frame.data?.map (fun g => Except.ok (Option.some g)) = _ ↔ _
  rw [← some, Option.map_eq_some_iff]
  simp

/-- Who is named by what comes of a poll has answered it. -/
theorem outcome_eq_answer_iff (i : Identity) :
    p.outcome c = .ok (some i) ↔ p.AnsweredBy c i := by
  obtain ⟨bytes, encoded⟩ : ∃ bytes, (Message.poll p.address).encode = .ok bytes := ⟨_, rfl⟩
  constructor
  · intro named
    rw [p.outcome_eq c encoded] at named
    cases sent : (p.sending c bytes).result with
    | error e => rw [sent] at named; cases named
    | ok nothing =>
      cases fetched : (p.fetching c bytes).result with
      | error e => rw [sent, fetched] at named; cases named
      | ok found =>
        rw [sent, fetched] at named
        obtain ⟨f, m, rfl, message, identity⟩ := pollOutcome_eq_some_iff.mp named
        obtain rfl := p.sending_result_ok c sent
        obtain ⟨front, a, taken, others, binary, rfl⟩ := (p.fetching_result_iff c).mp fetched
        exact ⟨bytes, encoded, (p.sending_result_iff c).mp sent, front, a, m, taken, others, binary,
          message, identity⟩
  · rintro ⟨bytes, encoded, confirmed, front, a, m, taken, others, binary, message, identity⟩
    have sent := (p.sending_result_iff c).mpr confirmed
    have fetched := (p.fetching_result_iff c).mpr ⟨front, a, taken, others, binary, rfl⟩
    rw [p.outcome_eq c encoded, sent, fetched]
    exact pollOutcome_eq_some_iff.mpr ⟨_, m, rfl, message, identity⟩

end Poll

/-! ## Scans -/

/-- The polls of addresses, one after the other. -/
def pollsFrom (c : ScanConfig) : List UInt16 → Session σ → List (Poll σ)
  | [], _ => []
  | address :: rest, s => ⟨address, s⟩ :: pollsFrom c rest ((Poll.mk address s).after c)

/-- A scan after something was done with the session: the registry and the session behind it. -/
def scanAfter (c : ScanConfig) (x : Registry × Session σ) (between : Session σ → Session σ) :
    Registry × Session σ :=
  let (state, s) := Session.scanOnce c x.1 (between x.2)
  (state.registry, s)

/-- The polls of scans, each of them after something was done with the session. -/
def scanPolls (c : ScanConfig) (x : Registry × Session σ) :
    List (Session σ → Session σ) → List (Poll σ)
  | [] => []
  | between :: rest =>
    pollsFrom c c.addresses (between x.2) ++ scanPolls c (scanAfter c x between) rest

/-- The registry after polls. -/
def Registry.polled (c : ScanConfig) (r : Registry) (polls : List (Poll σ)) : Registry :=
  polls.foldl (fun r p => r.note p.address (p.outcome c)) r

theorem Registry.polled_append (c : ScanConfig) (r : Registry) (polls later : List (Poll σ)) :
    r.polled c (polls ++ later) = (r.polled c polls).polled c later := List.foldl_append

theorem Registry.ordered_polled (c : ScanConfig) {r : Registry} (ordered : r.Ordered)
    (polls : List (Poll σ)) : (r.polled c polls).Ordered := by
  induction polls generalizing r with
  | nil => exact ordered
  | cons p polls ih => exact ih (ordered_note ordered p.address (p.outcome c))

theorem registry_scanAddresses (c : ScanConfig) (addresses : List UInt16) (state : ScanState)
    (s : Session σ) : (Session.scanAddresses c addresses state s).1.registry =
      state.registry.polled c (pollsFrom c addresses s) := by
  induction addresses generalizing state s with
  | nil => rfl
  | cons address rest ih => exact ih (state.note address ((Poll.mk address s).outcome c)) _

theorem registry_scanAfter (c : ScanConfig) (x : Registry × Session σ)
    (between : Session σ → Session σ) :
    (scanAfter c x between).1 = x.1.polled c (pollsFrom c c.addresses (between x.2)) :=
  registry_scanAddresses c c.addresses ⟨x.1, 0⟩ (between x.2)

/-- The registry after scans is the one after their polls. -/
theorem registry_scans (c : ScanConfig) (x : Registry × Session σ)
    (between : List (Session σ → Session σ)) :
    (between.foldl (scanAfter c) x).1 = x.1.polled c (scanPolls c x between) := by
  induction between generalizing x with
  | nil => rfl
  | cons f rest ih =>
    rw [List.foldl_cons, ih, registry_scanAfter, scanPolls, Registry.polled_append]

/-- Of the polls of an address that were answered at all, the last one was answered by this
module. -/
def LastAnswer (c : ScanConfig) (polls : List (Poll σ)) (address : UInt16) (i : Identity) : Prop :=
  ∃ earlier p later, polls = earlier ++ p :: later ∧ p.address = address ∧ p.AnsweredBy c i ∧
    ∀ q ∈ later, q.address = address → ∀ j, ¬ q.AnsweredBy c j

theorem lastAnswer_iff (c : ScanConfig) (polls : List (Poll σ)) (a : UInt16) (i : Identity) :
    polls.reverse.findSome? (fun p => if p.address = a then (p.outcome c).identity? else none) =
      some i ↔ LastAnswer c polls a i := by
  have answered (p : Poll σ) (j : Identity) :
      (if p.address = a then (p.outcome c).identity? else none) = some j ↔
        p.address = a ∧ p.AnsweredBy c j := by
    rw [Option.ite_none_right_eq_some, PollOutcome.identity?_eq_some_iff, p.outcome_eq_answer_iff]
  have silent (p : Poll σ) : (if p.address = a then (p.outcome c).identity? else none) = none ↔
      (p.address = a → ∀ j, ¬ p.AnsweredBy c j) := by
    rw [Option.eq_none_iff_forall_ne_some]
    exact ⟨fun h here j by_j => h j ((answered p j).mpr ⟨here, by_j⟩),
      fun h j named => h ((answered p j).mp named).1 j ((answered p j).mp named).2⟩
  rw [List.findSome?_eq_some_iff]
  constructor
  · rintro ⟨later, p, earlier, split, named, none⟩
    obtain ⟨here, by_i⟩ := (answered p i).mp named
    refine ⟨earlier.reverse, p, later.reverse, ?_, here, by_i, fun q mem =>
      (silent q).mp (none q (List.mem_reverse.mp mem))⟩
    rw [← List.reverse_reverse polls, split]
    simp
  · rintro ⟨earlier, p, later, rfl, here, by_i, none⟩
    exact ⟨later.reverse, p, earlier.reverse, by simp, (answered p i).mpr ⟨here, by_i⟩,
      fun q mem => (silent q).mpr (none q (List.mem_reverse.mp mem))⟩

/-- Who is known at an address after polls has answered the last one there that was answered. -/
theorem identity_polled_iff (c : ScanConfig) (polls : List (Poll σ)) (a : UInt16) (i : Identity) :
    ((({} : Registry).polled c polls).get? a).map KnownModule.identity = some i ↔
      LastAnswer c polls a i := by
  have noted : ({} : Registry).polled c polls =
      (polls.map fun p => (p.address, p.outcome c)).foldl (fun r n => r.note n.1 n.2) {} := by
    rw [List.foldl_map]
    rfl
  have unknown : (({} : Registry).get? a).map KnownModule.identity = none := rfl
  rw [noted, Registry.identity_notes, unknown, Option.or_none, ← List.map_reverse,
    List.findSome?_map]
  exact lastAnswer_iff c polls a i

/-- Whatever a link brings and whatever is done with the session between scans, a registry knows at
an address just who answered the last poll of it that was answered: whoever is named by the first
binary frame that was taken behind an `ok`. So all modules are known at their own addresses exactly
if these answers came from the modules that were asked. -/
theorem scans_identity (c : ScanConfig) (s : Session σ) (between : List (Session σ → Session σ)) :
    let polls := scanPolls c ({}, s) between
    let registry := (between.foldl (scanAfter c) ({}, s)).1
    (∀ p ∈ polls, ∀ i, p.outcome c = .ok (some i) ↔ p.AnsweredBy c i) ∧
      (∀ a i, (∃ e ∈ registry.toList, e.1 = a ∧ e.2.identity = i) ↔ LastAnswer c polls a i) ∧
      ((∀ e ∈ registry.toList, e.2.identity.address = e.1) ↔
        ∀ a i, LastAnswer c polls a i → i.address = a) := by
  intro polls registry
  have polled : registry = ({} : Registry).polled c polls := registry_scans c ({}, s) between
  have ordered : registry.Ordered := polled ▸ Registry.ordered_polled c .nil polls
  have known (a : UInt16) (i : Identity) :
      (∃ e ∈ registry.toList, e.1 = a ∧ e.2.identity = i) ↔ LastAnswer c polls a i := by
    rw [← identity_polled_iff, ← polled, Option.map_eq_some_iff]
    constructor
    · rintro ⟨⟨a, k⟩, mem, rfl, named⟩
      exact ⟨k, (Registry.mem_toList_iff ordered).mp mem, named⟩
    · rintro ⟨k, there, named⟩
      exact ⟨(a, k), (Registry.mem_toList_iff ordered).mpr there, rfl, named⟩
  refine ⟨fun p _ i => p.outcome_eq_answer_iff c i, known,
    fun all a i last => ?_, fun all e mem => ?_⟩
  · obtain ⟨e, mem, rfl, rfl⟩ := (known a i).mpr last
    exact all e mem
  · exact all e.1 e.2.identity ((known _ _).mp ⟨e, mem, rfl, rfl⟩)

/-! ### A late reply -/

/-- A module that answers `ok`, with these messages right behind it. -/
def okThen (packets : List Packet) : Reaction where
  answer := .ok
  packets := packets
  segments := StandIn.okLine :: packets.map .message
  readings := [(0, .chunk ((StandIn.okLine :: packets.map .message).flatMap Segment.bytes)),
    (0, .pause)]
  frames := ⟨⟨[0x6F, 0x6B], false⟩, by decide, by
    rw [List.flatMap_cons, List.flatMap_map]
    exact congrArg _ List.map_eq_flatMap.symm⟩
  carries := by
    have cut := Carries.chunks [(0, (StandIn.okLine :: packets.map .message).flatMap Segment.bytes)]
      (StandIn.okLine :: packets.map .message) (List.flatMap_singleton ..) (.pause 0 .nil)
    rwa [List.append_nil] at cut

/-- A poll of a module that answers in time comes to the first message behind that answer. -/
theorem Poll.outcome_serving {p : Poll Responder} {reactions : Nat → Reaction} {capacity : Nat}
    {log : List Bytes} {left : List Packet} (serving : p.before.Serving reactions capacity log left)
    (room : ∀ n, (Responder.packetsBefore reactions n).length + (reactions n).size ≤ capacity)
    (ok : (reactions log.length).answer = .ok) {c : ScanConfig}
    (prompt : Responder.trailingBefore reactions log.length + (reactions log.length).delay <
      c.ackTimeout) (in_time : (reactions log.length).trailing < c.dataWait) :
    p.outcome c = pollOutcome ((reactions log.length).packets.head?.map Packet.frame) ∧
      ∃ bytes, (p.after c).Serving reactions capacity (log ++ [bytes])
        (reactions log.length).packets.tail := by
  obtain ⟨s', bytes, polled, serving⟩ := serving.pollAddress room ok prompt in_time p.address
  unfold outcome after
  rw [polled]
  exact ⟨rfl, bytes, serving.pass c.addressPeriod⟩

/-- Nobody has replied when the wait for it is over, but the reply of the module at 120 comes behind
the answer to the second poll. -/
def lateReply : Nat → Reaction
  | 1 => okThen [StandIn.replyPacket (sampleIdentity 1 120)]
  | _ => okThen []

/-- Two addresses are scanned. -/
def twoAddresses : ScanConfig := { first := 120, limit := 122 }

theorem registry_lateReply {s : Session Responder} (serving : s.Serving lateReply 1000 [] []) :
    (scanAfter twoAddresses ({}, s) id).1 = ⟨[(121, ⟨sampleIdentity 1 120, true⟩)]⟩ := by
  have at_once (n : Nat) : (lateReply n).delay = 0 ∧ (lateReply n).trailing = 0 := by
    have whole := (lateReply n).delay_add_trailing
    have span : span (lateReply n).readings = 0 := by
      unfold lateReply
      split <;> rfl
    omega
  have before (n : Nat) : Responder.trailingBefore lateReply n = 0 := by
    cases n with
    | zero => rfl
    | succ n => exact (at_once n).2
  have prompt (n : Nat) : Responder.trailingBefore lateReply n + (lateReply n).delay <
      twoAddresses.ackTimeout := by
    rw [before, (at_once n).1]
    decide
  have in_time (n : Nat) : (lateReply n).trailing < twoAddresses.dataWait := by
    rw [(at_once n).2]
    decide
  have room : ∀ n, (Responder.packetsBefore lateReply n).length + (lateReply n).size ≤ 1000
    | 0 => show 0 + 1 ≤ 1000 by decide
    | 1 => show 0 + 2 ≤ 1000 by decide
    | 2 => show 1 + 1 ≤ 1000 by decide
    | _ + 3 => show 0 + 1 ≤ 1000 by decide
  have ok (n : Nat) : (lateReply n).answer = .ok := by
    unfold lateReply
    split <;> rfl
  let first : Poll Responder := ⟨120, s⟩
  let second : Poll Responder := ⟨121, first.after twoAddresses⟩
  obtain ⟨nobody, bytes, serving⟩ :=
    Poll.outcome_serving (p := first) serving room (ok _) (prompt _) (in_time _)
  obtain ⟨late, -⟩ :=
    Poll.outcome_serving (p := second) serving room (ok _) (prompt _) (in_time _)
  have addresses : twoAddresses.addresses = [120, 121] := by decide
  rw [registry_scanAfter, addresses, id_eq]
  have polls : pollsFrom twoAddresses [120, 121] s = [first, second] := rfl
  rw [polls, Registry.polled, List.foldl_cons, List.foldl_cons, List.foldl_nil, nobody, late]
  exact congrArg _ (StandIn.pollOutcome_reply (sampleIdentity 1 120))

/-- A module that replies late is known at the address that is polled next. -/
theorem not_scans_attributed : ¬ ∀ (c : ScanConfig) (name : String) (config : SessionConfig)
    (reactions : Nat → Reaction) (between : List (Session Responder → Session Responder)),
    ∀ e ∈ (between.foldl (scanAfter c)
        ({}, .attach name config ({ reactions } : Responder))).1.toList,
      e.2.identity.address = e.1 := by
  intro all
  have foreign := all twoAddresses "" {} lateReply [id] (121, ⟨sampleIdentity 1 120, true⟩) (by
    rw [List.foldl_cons, List.foldl_nil,
      registry_lateReply (Session.serving_attach "" {} lateReply)]
    exact .head _)
  exact absurd foreign (by decide)

end LightLink
