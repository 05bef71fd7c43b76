import LightLink.Proofs.Scan.Attribution
import LightLink.Proofs.Scan.Passes
import LightLink.Proofs.Session.Recorded

/-!
# A registry and its history

Each scan polls every address of its range once, whatever comes of the polls before, and what a
registry knows of an address can be told from the polls of it: who it is from the last poll that was
answered, and whether it is active from the last poll that did not fail. So a poll that nobody
answers makes a module inactive, and a poll that fails makes no difference.

* `Noted.answered`, `Noted.told`: the polls of an address that count for who is there and for
  whether it is active;
* `Registry.identity_ofNotes`, `Registry.active_ofNotes`: what is known after polls that came to
  anything, by the last one that counts;
* `Registry.Follows`, `Registry.follows_ofNotes`: all of this as one law, and
  `ScanState.foldl_note`: what is counted with it;
* `Session.scanAddresses_sends`: what a scan sends, and what it counts;
* `scans_history`: what any number of scans send, count and know.
-/

namespace LightLink

variable {σ : Type} [FarEnd σ]

/-! ## What is known after polls -/

/-- The address of a poll and what came of it. -/
abbrev Noted := UInt16 × PollOutcome

namespace Noted

/-- A poll of this address that was answered. -/
def answered (a : UInt16) (n : Noted) : Bool := n.1 = a && n.2.isAnswer

/-- A poll of this address that did not fail. -/
def told (a : UInt16) (n : Noted) : Bool := n.1 = a && n.2.isOk

end Noted

theorem KnownModule.active_heard (k : Option KnownModule) (outcome : PollOutcome) :
    (heard k outcome).any active = if outcome.isOk then outcome.isAnswer else k.any active := by
  match outcome with
  | .ok (some i) => rfl
  | .ok none => cases k <;> rfl
  | .error _ => rfl

namespace Registry

/-- What is known after polls, whatever came of them. -/
def ofNotes (notes : List Noted) : Registry := notes.foldl (fun r n => r.note n.1 n.2) {}

variable (notes : List Noted) (a : UInt16)

theorem ofNotes_concat (n : Noted) :
    ofNotes (notes ++ [n]) = (ofNotes notes).note n.1 n.2 := List.foldl_concat ..

/-- Who is known at an address is who answered the last poll of it that was answered. -/
theorem identity_ofNotes : ((ofNotes notes).get? a).map KnownModule.identity =
    (notes.reverse.find? (Noted.answered a)).bind fun n => n.2.identity? := by
  induction notes using List.reverseRecOn with
  | nil => rfl
  | append_singleton notes n ih =>
    obtain ⟨address, outcome⟩ := n
    rw [ofNotes_concat, get?_note_outcome, List.reverse_concat, List.find?_cons, Noted.answered]
    rcases eq_or_ne a address with rfl | other
    · rw [if_pos rfl, KnownModule.identity_heard, ih, decide_eq_true rfl, Bool.true_and]
      match outcome with
      | .ok (some i) => rfl
      | .ok none | .error e => rfl
    · rw [if_neg other, ih, decide_eq_false other.symm, Bool.false_and]

/-- A module is known as active just if it answered the last poll of its address that did not
fail. -/
theorem active_ofNotes : ((ofNotes notes).get? a).any KnownModule.active =
    (notes.reverse.find? (Noted.told a)).any fun n => n.2.isAnswer := by
  induction notes using List.reverseRecOn with
  | nil => rfl
  | append_singleton notes n ih =>
    obtain ⟨address, outcome⟩ := n
    rw [ofNotes_concat, get?_note_outcome, List.reverse_concat, List.find?_cons, Noted.told]
    rcases eq_or_ne a address with rfl | other
    · rw [if_pos rfl, KnownModule.active_heard, ih, decide_eq_true rfl, Bool.true_and]
      cases outcome <;> rfl
    · rw [if_neg other, ih, decide_eq_false other.symm, Bool.false_and]

/-- Something is known of an address just if a poll of it was answered. -/
theorem isSome_ofNotes : ((ofNotes notes).get? a).isSome = notes.any (Noted.answered a) := by
  rw [← Option.isSome_map, identity_ofNotes, ← List.any_reverse, ← List.isSome_find?]
  cases found : notes.reverse.find? (Noted.answered a) with
  | none => rfl
  | some n =>
    have named : n.answered a = true := List.find?_some found
    have answer := (Bool.and_eq_true_iff.mp named).2
    show n.2.identity?.isSome = true
    match n.2, answer with
    | .ok (some i), _ => rfl

theorem ordered_ofNotes : (ofNotes notes).Ordered := by
  induction notes using List.reverseRecOn with
  | nil => exact .nil
  | append_singleton notes n ih =>
    rw [ofNotes_concat]
    exact ordered_note ih n.1 n.2

/-- An address has an entry just if something is known of it. -/
theorem mem_keys_iff {r : Registry} (ordered : r.Ordered) (a : UInt16) :
    a ∈ r.toList.map Prod.fst ↔ (r.get? a).isSome := by
  rw [List.mem_map, Option.isSome_iff_exists]
  constructor
  · rintro ⟨e, mem, rfl⟩
    exact ⟨e.2, (mem_toList_iff ordered).mp mem⟩
  · rintro ⟨k, known⟩
    exact ⟨(a, k), (mem_toList_iff ordered).mpr known, rfl⟩

/-- No entry is removed by more polls. -/
theorem keys_ofNotes_subset (more : List Noted) :
    (ofNotes notes).toList.map Prod.fst ⊆ (ofNotes (notes ++ more)).toList.map Prod.fst := by
  intro a mem
  rw [mem_keys_iff (ordered_ofNotes _), isSome_ofNotes] at mem ⊢
  rw [List.any_append, mem, Bool.true_or]

/-- No address has two entries, so the active ones can be counted by their addresses. -/
theorem activeCount_eq_ncard {r : Registry} (ordered : r.Ordered) :
    r.activeCount = {a | (r.get? a).any KnownModule.active}.ncard := by
  have keys : {a | (r.get? a).any KnownModule.active} =
      (((r.active.map Prod.fst).toFinset : Finset UInt16) : Set UInt16) := by
    ext a
    rw [Finset.mem_coe, List.mem_toFinset, List.mem_map]
    refine (Option.any_eq_true ..).trans ⟨?_, ?_⟩
    · rintro ⟨k, known, active⟩
      exact ⟨(a, k), List.mem_filter.mpr ⟨(mem_toList_iff ordered).mpr known, active⟩, rfl⟩
    · rintro ⟨e, mem, rfl⟩
      obtain ⟨mem, active⟩ := List.mem_filter.mp mem
      exact ⟨e.2, (mem_toList_iff ordered).mp mem, active⟩
  have nodup : (r.active.map Prod.fst).Nodup := by
    refine List.pairwise_map.mpr ((List.Pairwise.filter _ ordered).imp ?_)
    intro e e' lt same
    rw [same] at lt
    exact UInt16.lt_irrefl _ lt
  rw [keys, Set.ncard_coe_finset, List.toFinset_card_of_nodup nodup, List.length_map]
  rfl

/-- What a registry has entries for, who is in them, which of them are active and how many are, told
from polls. -/
structure Follows (r : Registry) (notes : List Noted) : Prop where
  entry : ∀ a, (r.get? a).isSome = notes.any (Noted.answered a)
  identity : ∀ a, (r.get? a).map KnownModule.identity =
    (notes.reverse.find? (Noted.answered a)).bind fun n => n.2.identity?
  active : ∀ a, (r.get? a).any KnownModule.active =
    (notes.reverse.find? (Noted.told a)).any fun n => n.2.isAnswer
  activeCount : r.activeCount = {a | (r.get? a).any KnownModule.active}.ncard

/-- Whatever polls came to, what is known after them follows from them. -/
theorem follows_ofNotes : (ofNotes notes).Follows notes :=
  ⟨isSome_ofNotes notes, identity_ofNotes notes, active_ofNotes notes,
    activeCount_eq_ncard (ordered_ofNotes notes)⟩

end Registry

/-- Whatever polls come to, their answers are counted, and the registry is kept. -/
theorem ScanState.foldl_note (notes : List Noted) :
    notes.foldl (fun x n => x.note n.1 n.2) ({} : ScanState) =
      ⟨.ofNotes notes, notes.countP fun n => n.2.isAnswer⟩ := by
  induction notes using List.reverseRecOn with
  | nil => rfl
  | append_singleton notes n ih =>
    rw [List.foldl_concat, ih, Registry.ofNotes_concat, List.countP_append, List.countP_singleton]
    rfl

/-- What came of a poll. -/
def Poll.noted (c : ScanConfig) (p : Poll σ) : Noted := (p.address, p.outcome c)

theorem Registry.polled_eq_ofNotes (c : ScanConfig) (polls : List (Poll σ)) :
    ({} : Registry).polled c polls = ofNotes (polls.map (Poll.noted c)) := by
  unfold ofNotes
  rw [List.foldl_map]
  rfl

/-! ## What a scan sends -/

namespace Session

theorem pollAddress_snd {c : ScanConfig} {a : UInt16} {bytes : Bytes}
    (encoded : (Message.poll a).encode = .ok bytes) (s : Session σ) :
    (pollAddress c a s).2 = (pollExchange bytes c.ackTimeout c.dataWait s).2 := by
  unfold pollAddress
  rw [encoded]
  simp only [bind, StateT.bind, ExceptT.run]
  rcases pollExchange bytes c.ackTimeout c.dataWait s with ⟨e | found, s'⟩ <;> rfl

/-- A poll is handed over once, whatever comes of it. -/
theorem handed_pollAddress {c : ScanConfig} {a : UInt16} {bytes : Bytes}
    (encoded : (Message.poll a).encode = .ok bytes) (s : Session (Recorded σ)) :
    (pollAddress c a s).2.handed = s.handed ++ [bytes] := by
  have handed := handed_sendAndConfirm bytes false c.ackTimeout s
  rw [pollAddress_snd encoded]
  unfold pollExchange
  rw [exchange_bind]
  generalize sendAndConfirm bytes false c.ackTimeout s = sent at handed ⊢
  obtain ⟨e | _, s'⟩ := sent
  · exact handed
  · exact (handed_getDataMessage c.dataWait s').trans handed

/-- A scan sends a poll of each address, whatever comes of those before, and counts the answers. -/
theorem scanAddresses_sends (c : ScanConfig) (addresses : List UInt16) (state : ScanState)
    (s : Session (Recorded σ)) :
    ((scanAddresses c addresses state s).1.responders =
      state.responders + (pollsFrom c addresses s).countP fun p => (p.outcome c).isAnswer) ∧
    ∃ sent, (scanAddresses c addresses state s).2.handed = s.handed ++ sent ∧
      List.Forall₂ (fun a bytes => (Message.poll a).encode = .ok bytes) addresses sent := by
  induction addresses generalizing state s with
  | nil => exact ⟨rfl, [], (List.append_nil _).symm, .nil⟩
  | cons a rest ih =>
    obtain ⟨bytes, encoded⟩ : ∃ bytes, (Message.poll a).encode = .ok bytes := ⟨_, rfl⟩
    let p : Poll (Recorded σ) := ⟨a, s⟩
    have handed : (p.after c).handed = s.handed ++ [bytes] := handed_pollAddress encoded s
    obtain ⟨responders, sent, all, polls⟩ := ih (state.note a (p.outcome c)) (p.after c)
    refine ⟨responders.trans ?_, bytes :: sent, all.trans ?_, .cons encoded polls⟩
    · rw [pollsFrom, List.countP_cons, Nat.add_comm (List.countP ..), ← Nat.add_assoc]
      rfl
    · rw [handed, List.append_assoc]
      rfl

end Session

/-- The addresses of a range are polled in ascending order. -/
theorem ScanConfig.pairwise_addresses (c : ScanConfig) : c.addresses.Pairwise (· < ·) := by
  unfold addresses
  rw [List.pairwise_map]
  refine List.Pairwise.imp_of_mem (fun {m n} memm memn lt => ?_) List.pairwise_lt_range'
  rw [List.mem_range'_1] at memm memn
  rw [UInt16.lt_iff_toNat_lt, c.toNat_below (by omega), c.toNat_below (by omega)]
  exact lt

theorem address_pollsFrom (c : ScanConfig) (addresses : List UInt16) (s : Session σ) :
    (pollsFrom c addresses s).map Poll.address = addresses := by
  induction addresses generalizing s with
  | nil => rfl
  | cons a rest ih => rw [pollsFrom, List.map_cons, ih]

theorem scanPolls_append (c : ScanConfig) (x : Registry × Session σ)
    (between more : List (Session σ → Session σ)) : scanPolls c x (between ++ more) =
      scanPolls c x between ++ scanPolls c (between.foldl (scanAfter c) x) more := by
  induction between generalizing x with
  | nil => rfl
  | cons f rest ih => rw [List.cons_append, scanPolls, scanPolls, ih, List.append_assoc]; rfl

/-- Whatever polls come to, and whatever is done with the session between scans: a scan sends one
poll to each address of its range, in ascending order, and counts those that are answered. Behind
any scans, and behind any polls with any outcomes, the registry has an entry for an address just if a
poll of it was answered; who it names answered the last such poll, and it is active just if the last
poll of the address that did not fail was answered. No entry is removed, and the active entries are
counted. -/
theorem scans_history (c : ScanConfig) (s : Session (Recorded σ))
    (between more : List (Session (Recorded σ) → Session (Recorded σ))) :
    let history := (scanPolls c ({}, s) between).map (Poll.noted c)
    let registry := (between.foldl (scanAfter c) ({}, s)).1
    let registry' := ((between ++ more).foldl (scanAfter c) ({}, s)).1
    (c.addresses.Pairwise (· < ·) ∧ ∀ a, a ∈ c.addresses ↔ c.Covers a) ∧
    (∀ (r : Registry) (s : Session (Recorded σ)),
      (pollsFrom c c.addresses s).map Poll.address = c.addresses ∧
      (Session.scanOnce c r s).1.responders =
        (pollsFrom c c.addresses s).countP (fun p => (p.outcome c).isAnswer) ∧
      ∃ sent, (Session.scanOnce c r s).2.handed = s.handed ++ sent ∧
        List.Forall₂ (fun a bytes => (Message.poll a).encode = .ok bytes) c.addresses sent) ∧
    (registry.Follows history ∧
      registry.toList.map Prod.fst ⊆ registry'.toList.map Prod.fst) ∧
    ∀ notes later : List Noted,
      notes.foldl (fun x n => x.note n.1 n.2) ({} : ScanState) =
        ⟨.ofNotes notes, notes.countP fun n => n.2.isAnswer⟩ ∧
      (Registry.ofNotes notes).Follows notes ∧ (Registry.ofNotes notes).toList.map Prod.fst ⊆
        (Registry.ofNotes (notes ++ later)).toList.map Prod.fst := by
  intro history registry registry'
  have known : registry = .ofNotes history :=
    (registry_scans c ({}, s) between).trans (Registry.polled_eq_ofNotes c _)
  let later := (scanPolls c (between.foldl (scanAfter c) ({}, s)) more).map (Poll.noted c)
  have known' : registry' = .ofNotes (history ++ later) := by
    refine (registry_scans c ({}, s) (between ++ more)).trans ?_
    rw [Registry.polled_eq_ofNotes, scanPolls_append, List.map_append]
  refine ⟨⟨c.pairwise_addresses, c.mem_addresses⟩, fun r s => ?_, ⟨?_, ?_⟩, fun notes later =>
    ⟨ScanState.foldl_note notes, Registry.follows_ofNotes notes,
      Registry.keys_ofNotes_subset notes later⟩⟩
  · obtain ⟨responders, sends⟩ := Session.scanAddresses_sends c c.addresses ⟨r, 0⟩ s
    exact ⟨address_pollsFrom c c.addresses s, responders.trans (Nat.zero_add _), sends⟩
  · rw [known]
    exact Registry.follows_ofNotes history
  · rw [known, known']
    exact Registry.keys_ofNotes_subset history later

end LightLink
