import Mathlib.Data.Set.Card
import LightLink.Proofs.Scan.Polls

/-!
# Scans of a stand-in

Modules come to a stand-in and go from it, and now and then the whole range of addresses is scanned.
A scan finds just the modules that are there, and the registry remembers the last one that a scan
has found at each address.

* `ScanConfig.mem_addresses`, `ScanConfig.nodup_addresses`: each address of the range is polled
  once;
* `StandIn.Change`: what happens to a stand-in between scans; `StandIn.registered`: the modules that
  are there after changes;
* `Attended.change`, `Attended.scanOnce`: what a change and a scan lead to;
* `StandIn.known_passes`: what the registry knows after any number of scans;
* `StandIn.passes_exact`: what each of them finds.
-/

namespace LightLink

/-! ## The range -/

namespace ScanConfig

variable (c : ScanConfig)

/-- An address is in the range. -/
def Covers (address : UInt16) : Prop := c.first ≤ address ∧ address < c.limit

instance (address : UInt16) : Decidable (c.Covers address) :=
  inferInstanceAs (Decidable (_ ∧ _))

theorem toNat_below {n : Nat} (h : n < c.limit.toNat) : (UInt16.ofNat n).toNat = n :=
  UInt16.toNat_ofNat_of_lt' (Nat.lt_trans h c.limit.toNat_lt)

theorem mem_addresses (address : UInt16) : address ∈ c.addresses ↔ c.Covers address := by
  unfold addresses Covers
  rw [List.mem_map, UInt16.le_iff_toNat_le, UInt16.lt_iff_toNat_lt]
  constructor
  · rintro ⟨n, mem, rfl⟩
    rw [List.mem_range'_1] at mem
    rw [c.toNat_below (by omega)]
    omega
  · intro within
    exact ⟨address.toNat, List.mem_range'_1.mpr (by omega), UInt16.ofNat_toNat⟩

theorem nodup_addresses : c.addresses.Nodup := by
  refine List.Nodup.map_on ?_ List.nodup_range'
  intro m memm n memn same
  rw [List.mem_range'_1] at memm memn
  have toNat := congrArg UInt16.toNat same
  rwa [c.toNat_below (by omega), c.toNat_below (by omega)] at toNat

/-- The last address, which asks every module, is never polled. -/
theorem ne_broadcast {address : UInt16} (mem : address ∈ c.addresses) :
    address ≠ broadcastAddress := by
  rintro rfl
  have lt := UInt16.lt_iff_toNat_lt.mp ((c.mem_addresses _).mp mem).2
  have limit := c.limit.toNat_lt
  have last : broadcastAddress.toNat = 65535 := rfl
  omega

end ScanConfig

namespace StandIn

/-! ## Changes -/

/-- What happens to a stand-in between scans. -/
inductive Change where
  | add (i : Identity)
  | remove (address : UInt16)
  | pass (time : Nat)
  deriving DecidableEq, Repr

namespace Change

/-- The session after a change at its far end. -/
def apply (s : Session StandIn) : Change → Session StandIn
  | add i => s.act (·.addModule i)
  | remove address => s.act (·.removeModule address)
  | pass time => { s with link := s.link.pass time }

/-- The modules that are there after a change. -/
def update (now : UInt16 → Option Identity) : Change → UInt16 → Option Identity
  | add i => Function.update now i.address (some i)
  | remove address => Function.update now address none
  | pass _ => now

end Change

/-- The modules that are there after changes, if none was there before. -/
def registered (changes : List Change) : UInt16 → Option Identity :=
  changes.foldl Change.update fun _ => none

namespace Attended

variable {s : Session StandIn} {now : UInt16 → Option Identity} (h : Attended s now)

include h

/-- What is done to a stand-in that has nothing to send leaves the session at rest. -/
theorem act {f : StandIn → StandIn} (attentive : (f s.link.far).Attentive (f s.link.far).modules)
    (unread : (f s.link.far).unread = []) (ordered : (f s.link.far).Ordered) :
    Attended (s.act f) (f s.link.far).moduleAt? := by
  have e : s.act f = { s with link :=
      { s.link with
        reader := (s.reader.read s.link.now (.chunk [])).read s.link.now .pause
        far := { f s.link.far with unread := [] } } } := by
    unfold Session.act Link.act
    rw [AtRest.exchange_eq (l := { s.link with far := f s.link.far }) h.coming attentive.plugged
      attentive.awake, unread]
    rfl
  have running := Reader.running_read (x := .chunk []) h.running nofun s.link.now
  have assembler := Reader.assembler_read (x := .pause) running s.link.now
  have frames := Reader.frames_read (x := .chunk []) h.running
    (by rw [h.frames]; exact Nat.zero_le _) s.link.now
  rw [e]
  refine ⟨⟨⟨?_, h.coming⟩, Reader.running_read (x := .pause) running nofun s.link.now, assembler,
    attentive.answer, rfl, attentive.queued, attentive.plugged, attentive.awake⟩, ?_, ordered,
    fun _ => rfl⟩
  · refine (Reader.frames_pause _ s.link.now).trans (frames.trans ?_)
    rw [h.frames]
    rfl
  · show 2 ≤ ((s.reader.read s.link.now (.chunk [])).read s.link.now .pause).ring.capacity
    rw [Reader.capacity_read, Reader.capacity_read]
    exact h.room

theorem change (change : Change) : Attended (change.apply s) (change.update now) := by
  have attentive := h.attends.attentive
  cases change with
  | add i =>
    have added := h.act (f := (·.addModule i))
      ⟨attentive.answer, attentive.queued, attentive.plugged, attentive.awake, rfl⟩ h.unread
      (ordered_addModule h.ordered i)
    have e : (s.link.far.addModule i).moduleAt? = Function.update now i.address (some i) := by
      funext a
      rw [moduleAt?_addModule, Function.update_apply, h.moduleAt]
    rwa [e] at added
  | remove address =>
    have removed := h.act (f := (·.removeModule address))
      ⟨attentive.answer, attentive.queued, attentive.plugged, attentive.awake, rfl⟩ h.unread
      (ordered_removeModule h.ordered address)
    have e : (s.link.far.removeModule address).moduleAt? = Function.update now address none := by
      funext a
      rw [moduleAt?_removeModule, Function.update_apply, h.moduleAt]
    rwa [e] at removed
  | pass time => exact h.pass time

theorem changes (changes : List Change) :
    Attended (changes.foldl Change.apply s) (changes.foldl Change.update now) := by
  induction changes generalizing s now with
  | nil => exact h
  | cons change changes ih => exact ih (h.change change)

/-! ## Scans -/

/-- Polls of addresses tell for each of them who is there. -/
theorem scanAddresses {c : ScanConfig} (ack_pos : 0 < c.ackTimeout) (data_pos : 0 < c.dataWait)
    {addresses : List UInt16} (single : ∀ address ∈ addresses, address ≠ broadcastAddress)
    (st : ScanState) : ∃ s', Session.scanAddresses c addresses st s =
        (⟨addresses.foldl (fun r address => r.note address (.ok (now address))) st.registry,
          st.responders + addresses.countP fun address => (now address).isSome⟩, s') ∧
      Attended s' now := by
  induction addresses generalizing s st with
  | nil => exact ⟨s, rfl, h⟩
  | cons address addresses ih =>
    obtain ⟨s₁, polled, h₁⟩ := h.pollAddress ack_pos data_pos (single address (.head _))
    obtain ⟨s₂, scanned, h₂⟩ := ih (h₁.pass c.addressPeriod)
      (fun a mem => single a (.tail _ mem)) (st.note address (.ok (now address)))
    have cons : Session.scanAddresses c (address :: addresses) st s =
        Session.scanAddresses c addresses (st.note address (Session.pollAddress c address s).1)
          { (Session.pollAddress c address s).2 with
            link := (Session.pollAddress c address s).2.link.pass c.addressPeriod } := rfl
    refine ⟨s₂, ?_, h₂⟩
    rw [cons, polled, scanned, List.foldl_cons, List.countP_cons]
    cases now address with
    | none => rfl
    | some i =>
      rw [Nat.add_comm (addresses.countP _), ← Nat.add_assoc]
      rfl

/-- A scan tells for each address of the range who is there. -/
theorem scanOnce {c : ScanConfig} (ack_pos : 0 < c.ackTimeout) (data_pos : 0 < c.dataWait)
    (r : Registry) : ∃ st s', Session.scanOnce c r s = (st, s') ∧ Attended s' now ∧
      st.responders = {a | c.Covers a ∧ (now a).isSome}.ncard ∧
      ∀ a, (¬ c.Covers a → st.registry.get? a = r.get? a) ∧
        (c.Covers a → st.registry.get? a = KnownModule.told (r.get? a) (now a)) := by
  obtain ⟨s', scanned, h'⟩ := h.scanAddresses ack_pos data_pos (fun _ => c.ne_broadcast) ⟨r, 0⟩
  refine ⟨_, s', scanned, h', ?_, fun a => ?_⟩
  · have found : {a | c.Covers a ∧ (now a).isSome} =
        ↑(c.addresses.filter fun a => (now a).isSome).toFinset := by
      ext a
      simp [c.mem_addresses]
    rw [found, Set.ncard_coe_finset, List.toFinset_card_of_nodup (c.nodup_addresses.filter _),
      List.countP_eq_length_filter]
    exact Nat.zero_add _
  · dsimp only
    rw [Registry.get?_notes, ← c.mem_addresses]
    exact ⟨fun outside => if_neg outside, fun inside => if_pos inside⟩

end Attended

/-! ## Any number of scans -/

/-- A scan after changes: what it comes to, and the session behind it. -/
def passOnce (c : ScanConfig) (x : ScanState × Session StandIn) (changes : List Change) :
    ScanState × Session StandIn :=
  Session.scanOnce c x.1.registry (changes.foldl Change.apply x.2)

/-- Scans, each of them after changes: what each comes to. -/
def passes (c : ScanConfig) (x : ScanState × Session StandIn) :
    List (List Change) → List ScanState
  | [] => []
  | changes :: ps => (passOnce c x changes).1 :: passes c (passOnce c x changes) ps

/-- The modules that are there at a scan. -/
def registeredAt (ps : List (List Change)) (n : Nat) : UInt16 → Option Identity :=
  registered (ps.take (n + 1)).flatten

theorem registeredAt_append {ps : List (List Change)} {n : Nat} (h : n < ps.length)
    (ps' : List (List Change)) : registeredAt (ps ++ ps') n = registeredAt ps n := by
  unfold registeredAt
  rw [List.take_append_of_le_length h]

theorem registeredAt_take {n k : Nat} (h : k ≤ n) (ps : List (List Change)) :
    registeredAt (ps.take (n + 1)) k = registeredAt ps k := by
  unfold registeredAt
  rw [List.take_take, Nat.min_eq_left (by omega)]

theorem registered_flatten_append (ps : List (List Change)) (changes : List Change) :
    registered (ps ++ [changes]).flatten =
      changes.foldl Change.update (registered ps.flatten) := by
  unfold registered
  rw [List.flatten_append, List.foldl_append, List.flatten_singleton]

theorem length_passes (c : ScanConfig) (x : ScanState × Session StandIn)
    (ps : List (List Change)) : (passes c x ps).length = ps.length := by
  induction ps generalizing x with
  | nil => rfl
  | cons changes ps ih => exact congrArg (· + 1) (ih _)

theorem getElem?_passes (c : ScanConfig) (x : ScanState × Session StandIn)
    (ps : List (List Change)) {n : Nat} (h : n < ps.length) :
    (passes c x ps)[n]? = some ((ps.take (n + 1)).foldl (passOnce c) x).1 := by
  induction ps generalizing x n with
  | nil => cases h
  | cons changes ps ih =>
    cases n with
    | zero => rfl
    | succ n => exact ih _ (Nat.lt_of_succ_lt_succ h)

/-- Where a scan stands after scans. The registry knows who was at an address of the range when a
scan was there last that found somebody, and whether that was the last scan. -/
structure Passed (c : ScanConfig) (ps : List (List Change)) (x : ScanState × Session StandIn) :
    Prop where
  attended : Attended x.2 (registered ps.flatten)
  active : ∀ a i, x.1.registry.get? a = some ⟨i, true⟩ ↔
    c.Covers a ∧ ∃ n, n + 1 = ps.length ∧ registeredAt ps n a = some i
  inactive : ∀ a i, x.1.registry.get? a = some ⟨i, false⟩ ↔
    c.Covers a ∧ ∃ k, k + 1 < ps.length ∧ registeredAt ps k a = some i ∧
      ∀ j, k < j → j < ps.length → registeredAt ps j a = none

namespace Passed

variable {c : ScanConfig} {ps : List (List Change)} {x : ScanState × Session StandIn}

theorem start (name : String) {config : SessionConfig} (room : 2 ≤ config.capacity) :
    Passed c [] ({}, .attach name config {}) := by
  have rest : AtRest (.attach name config {}) := atRest_attach name config []
  have capacity : (Session.attach name config ({} : StandIn)).reader.ring.capacity =
      max config.capacity 1 := capacity_attach name config []
  have far : (Session.attach name config ({} : StandIn)).link.far = {} := by
    unfold Session.attach Link.connect
    rw [AtRest.exchange_eq rfl rfl rfl]
  refine ⟨⟨rest, by dsimp only; omega, ?_, ?_⟩, fun a i => ⟨nofun, ?_⟩, fun a i => ⟨nofun, ?_⟩⟩
  · rw [far]
    exact .nil
  · rw [far]
    exact fun _ => rfl
  · rintro ⟨-, n, length, -⟩
    cases length
  · rintro ⟨-, k, lt, -⟩
    cases lt

/-- One more scan. -/
theorem next (h : Passed c ps x) (ack_pos : 0 < c.ackTimeout) (data_pos : 0 < c.dataWait)
    (changes : List Change) : Passed c (ps ++ [changes]) (passOnce c x changes) ∧
      (passOnce c x changes).1.responders =
        {a | c.Covers a ∧ (registeredAt (ps ++ [changes]) ps.length a).isSome}.ncard := by
  obtain ⟨st, s', scanned, attended, responders, get?⟩ :=
    (h.attended.changes changes).scanOnce ack_pos data_pos x.1.registry
  have now : registeredAt (ps ++ [changes]) ps.length =
      changes.foldl Change.update (registered ps.flatten) := by
    rw [← registered_flatten_append, registeredAt, List.take_of_length_le (by simp)]
  have before : ∀ {k}, k < ps.length → registeredAt (ps ++ [changes]) k = registeredAt ps k :=
    fun lt => registeredAt_append lt [changes]
  have length : (ps ++ [changes]).length = ps.length + 1 := List.length_append
  have e : passOnce c x changes = (st, s') := scanned
  rw [← now] at responders get?
  rw [e]
  refine ⟨⟨?_, fun a i => ?_, fun a i => ?_⟩, responders⟩
  · rw [registered_flatten_append]
    exact attended
  · rw [length]
    by_cases inside : c.Covers a
    · rw [(get? a).2 inside, KnownModule.told_eq_active]
      constructor
      · exact fun there => ⟨inside, ps.length, rfl, there⟩
      · rintro ⟨-, n, is_last, there⟩
        obtain rfl : n = ps.length := Nat.succ.inj is_last
        exact there
    · rw [(get? a).1 inside, h.active]
      simp [inside]
  · rw [length]
    by_cases inside : c.Covers a
    · rw [(get? a).2 inside, KnownModule.told_eq_inactive, h.active, h.inactive]
      constructor
      · rintro ⟨gone, ⟨-, k, is_last, there⟩ | ⟨-, k, earlier, there, none⟩⟩
        · refine ⟨inside, k, by omega, by rwa [before (by omega)], fun j after lt => ?_⟩
          obtain rfl : j = ps.length := by omega
          exact gone
        · refine ⟨inside, k, by omega, by rwa [before (by omega)], fun j after lt => ?_⟩
          rcases Nat.lt_succ_iff_lt_or_eq.mp lt with lt | rfl
          · rw [before lt]
            exact none j after lt
          · exact gone
      · rintro ⟨-, k, earlier, there, none⟩
        rw [before (by omega)] at there
        refine ⟨none ps.length (by omega) (by omega), ?_⟩
        rcases Nat.lt_or_eq_of_le (Nat.succ_le_of_lt (Nat.lt_of_succ_lt_succ earlier)) with
          lt | is_last
        · refine .inr ⟨inside, k, lt, there, fun j after lt => ?_⟩
          rw [← before lt]
          exact none j after (by omega)
        · exact .inl ⟨inside, k, is_last, there⟩
    · rw [(get? a).1 inside, h.inactive]
      simp [inside]

/-- Any number of scans. -/
theorem foldl (h : Passed c ps x) (ack_pos : 0 < c.ackTimeout) (data_pos : 0 < c.dataWait)
    (ps' : List (List Change)) : Passed c (ps ++ ps') (ps'.foldl (passOnce c) x) := by
  induction ps' generalizing ps x with
  | nil => rwa [List.append_nil]
  | cons changes ps' ih =>
    rw [List.append_cons]
    exact ih (h.next ack_pos data_pos changes).1

end Passed

/-- Whatever modules come to a stand-in and go from it between scans, each scan finds as many
modules as are then at addresses of the range; behind it the registry knows as active just the
modules that are there, and as inactive just those that a scan was the last to find at an address of
the range where nobody is any more; and it knows of no address outside the range. -/
theorem passes_exact {c : ScanConfig} (name : String) {config : SessionConfig}
    (room : 2 ≤ config.capacity) (ack_pos : 0 < c.ackTimeout) (data_pos : 0 < c.dataWait)
    (ps : List (List Change)) :
    let states := passes c ({}, .attach name config {}) ps
    states.length = ps.length ∧ ∀ n st, states[n]? = some st →
      st.responders = {a | c.Covers a ∧ (registeredAt ps n a).isSome}.ncard ∧
      (∀ a i, st.registry.get? a = some ⟨i, true⟩ ↔
        c.Covers a ∧ registeredAt ps n a = some i) ∧
      (∀ a i, st.registry.get? a = some ⟨i, false⟩ ↔
        c.Covers a ∧ ∃ k < n, registeredAt ps k a = some i ∧
          ∀ j, k < j → j ≤ n → registeredAt ps j a = none) ∧
      ∀ e ∈ st.registry.toList, c.Covers e.1 := by
  refine ⟨length_passes .., fun n st at_n => ?_⟩
  have lt : n < ps.length := by
    obtain ⟨lt, -⟩ := List.getElem?_eq_some_iff.mp at_n
    rwa [length_passes] at lt
  obtain rfl : _ = st := Option.some.inj ((getElem?_passes c _ ps lt).symm.trans at_n)
  have split : ps.take (n + 1) = ps.take n ++ [ps[n]] := List.take_succ_eq_append_getElem lt
  have length : (ps.take n).length = n := List.length_take_of_le (Nat.le_of_lt lt)
  obtain ⟨passed, responders⟩ :=
    ((Passed.start name room).foldl ack_pos data_pos (ps.take n)).next ack_pos data_pos ps[n]
  rw [List.nil_append, ← split] at passed responders
  rw [length, registeredAt_take (Nat.le_refl n)] at responders
  have length' : (ps.take (n + 1)).length = n + 1 := List.length_take_of_le lt
  have once_more : (ps.take (n + 1)).foldl (passOnce c) ({}, .attach name config {}) =
      passOnce c ((ps.take n).foldl (passOnce c) ({}, .attach name config {})) ps[n] := by
    rw [split, List.foldl_append]
    rfl
  rw [once_more]
  refine ⟨responders, fun a i => ?_, fun a i => ?_, fun e mem => ?_⟩
  · rw [passed.active, length']
    constructor
    · rintro ⟨inside, m, is_last, there⟩
      obtain rfl : m = n := Nat.succ.inj is_last
      exact ⟨inside, by rwa [registeredAt_take (Nat.le_refl m)] at there⟩
    · rintro ⟨inside, there⟩
      exact ⟨inside, n, rfl, by rwa [registeredAt_take (Nat.le_refl n)]⟩
  · rw [passed.inactive, length']
    refine and_congr_right fun _ => exists_congr fun k => ?_
    constructor
    · rintro ⟨earlier, there, none⟩
      rw [registeredAt_take (by omega)] at there
      refine ⟨by omega, there, fun j after le => ?_⟩
      rw [← registeredAt_take le]
      exact none j after (by omega)
    · rintro ⟨earlier, there, none⟩
      refine ⟨by omega, by rwa [registeredAt_take (by omega)], fun j after le => ?_⟩
      rw [registeredAt_take (by omega)]
      exact none j after (by omega)
  · obtain ⟨⟨i, _ | _⟩, known⟩ := Registry.exists_get?_of_mem mem
    · exact ((passed.inactive _ _).mp known).1
    · exact ((passed.active _ _).mp known).1

/-- One module goes before the second scan, one comes, and one is outside the range. -/
def departure : List (List Change) :=
  [[.add (sampleIdentity 1 120), .add (sampleIdentity 9 7)],
    [.remove 120, .pass 5, .add (sampleIdentity 2 121)]]

/-- The second scan knows of the one that came and of the one that went. -/
theorem passes_exact_departure :
    ∃ st, (passes {} ({}, .attach "" {} {}) departure)[1]? = some st ∧
      st.responders = {a | ({} : ScanConfig).Covers a ∧ (registeredAt departure 1 a).isSome}.ncard ∧
      st.registry.get? 120 = some ⟨sampleIdentity 1 120, false⟩ ∧
      st.registry.get? 121 = some ⟨sampleIdentity 2 121, true⟩ ∧
      ∀ e ∈ st.registry.toList, ({} : ScanConfig).Covers e.1 := by
  have config : 2 ≤ ({} : SessionConfig).capacity := by decide
  obtain ⟨length, each⟩ := passes_exact (c := {}) "" config (by decide) (by decide) departure
  have two : 1 < (passes {} ({}, .attach "" {} {}) departure).length := by
    rw [length]
    decide
  have at_1 := List.getElem?_eq_getElem two
  obtain ⟨responders, active, inactive, inside⟩ := each 1 _ at_1
  refine ⟨_, at_1, responders, (inactive 120 _).mpr ⟨by decide, 0, by decide, rfl, ?_⟩,
    (active 121 _).mpr ⟨by decide, rfl⟩, inside⟩
  intro j after le
  obtain rfl : j = 1 := by omega
  rfl

end StandIn

end LightLink
