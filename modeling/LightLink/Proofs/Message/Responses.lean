import Mathlib.Data.List.Forall2
import LightLink.Message.Response
import LightLink.Proofs.Message.RoundTrip

/-!
# What the parts of an answer say

The parts of an answer are read one after the other, and what they are taken for together hangs on
what all of them are.

* `Response.AreMessages`: the messages of parts, and `Response.areMessages_or_refused`: either all
  parts are messages or there is a first one that is none;
* `Response.ofMessages_of_replies`, `Response.ofMessages_of_records`,
  `Response.ofMessages_of_neither`: what messages are taken for;
* `Response.Conveys`: all that parts can convey, and `Response.ofFragments_eq_iff`: they are taken
  for just that;
* `Response.messagesOf_map`, `Response.ofMessages_dumps`: parts that have been written, and messages
  that each carry records of a configuration.
-/

namespace LightLink.Response

/-! ## Parts and messages -/

/-- Each part begins with the message in its place. -/
def AreMessages : List Bytes → List Message → Prop :=
  List.Forall₂ fun part m => ∃ n, Message.decode part = .ok (m, n)

section Messages

variable {part : Bytes} {parts : List Bytes} {m : Message} {ms : List Message} {n : Nat}
  {e : WireError}

theorem messagesOf_cons_of_ok (read : Message.decode part = .ok (m, n)) :
    messagesOf (part :: parts) = (m :: ·) <$> messagesOf parts := by
  unfold messagesOf
  rw [List.mapM_cons, read]
  rfl

theorem messagesOf_cons_of_error (wrong : Message.decode part = .error e) :
    messagesOf (part :: parts) = .error e := by
  unfold messagesOf
  rw [List.mapM_cons, wrong]
  rfl

theorem messagesOf_of_areMessages (read : AreMessages parts ms) : messagesOf parts = .ok ms := by
  induction read with
  | nil => rfl
  | cons first _ ih =>
    obtain ⟨n, first⟩ := first
    rw [messagesOf_cons_of_ok first, ih]
    rfl

/-- What is wrong with parts is what is wrong with the first of them that is no message. -/
theorem messagesOf_of_refused {front : List Bytes} (read : AreMessages front ms)
    (wrong : Message.decode part = .error e) (rest : List Bytes) :
    messagesOf (front ++ part :: rest) = .error e := by
  induction read with
  | nil => exact messagesOf_cons_of_error wrong
  | cons first _ ih =>
    obtain ⟨n, first⟩ := first
    rw [List.cons_append, messagesOf_cons_of_ok first, ih]
    rfl

/-- Either all parts are messages or there is a first one that is none. -/
theorem areMessages_or_refused (parts : List Bytes) : (∃ ms, AreMessages parts ms) ∨
    ∃ front ms part rest e, parts = front ++ part :: rest ∧ AreMessages front ms ∧
      Message.decode part = .error e := by
  induction parts with
  | nil => exact .inl ⟨[], .nil⟩
  | cons first parts ih =>
    cases read : Message.decode first with
    | error e => exact .inr ⟨[], [], first, parts, e, rfl, .nil, read⟩
    | ok r =>
      obtain ⟨m, n⟩ := r
      rcases ih with ⟨ms, all⟩ | ⟨front, ms, part, rest, e, rfl, all, wrong⟩
      · exact .inl ⟨m :: ms, .cons ⟨n, read⟩ all⟩
      · exact .inr ⟨first :: front, m :: ms, part, rest, e, rfl, .cons ⟨n, read⟩ all, wrong⟩

end Messages

/-! ## What messages are taken for -/

section Bodies

variable {α β γ : Type} {f : α → Option β} {as : List α} {bs : List β}

/-- All entries have a result exactly if they are what these results come from. -/
theorem mapM_eq_some_iff {h : α → γ} {g : β → γ} (result : ∀ a b, f a = some b ↔ h a = g b) :
    as.mapM f = some bs ↔ as.map h = bs.map g := by
  induction as generalizing bs with
  | nil => cases bs <;> simp
  | cons a as ih =>
    rw [List.mapM_cons]
    cases bs with
    | nil => cases f a <;> cases as.mapM f <;> simp
    | cons b bs =>
      rw [List.map_cons, List.map_cons, List.cons.injEq, ← ih, ← result]
      cases f a <;> cases as.mapM f <;> simp

theorem mapM_eq_none_iff : as.mapM f = none ↔ ∃ a ∈ as, f a = none := by
  induction as with
  | nil => simp
  | cons a as ih =>
    rw [List.mapM_cons, List.exists_mem_cons_iff, ← ih]
    cases f a <;> cases as.mapM f <;> simp

variable {ms : List Message}

theorem mapM_identity?_eq_some_iff {is : List Identity} :
    ms.mapM (·.body.identity?) = some is ↔ ms.map Message.body = is.map .pollResponse :=
  mapM_eq_some_iff fun m i => by cases m.body <;> simp [Body.identity?]

theorem mapM_records?_eq_some_iff {records : List (List ConfigRecord)} :
    ms.mapM (·.body.records?) = some records ↔ ms.map Message.body = records.map .dumpConfig :=
  mapM_eq_some_iff fun m rs => by cases m.body <;> simp [Body.records?]

theorem mapM_identity?_eq_none_iff :
    ms.mapM (·.body.identity?) = none ↔ ∃ m ∈ ms, ∀ i, m.body ≠ .pollResponse i := by
  rw [mapM_eq_none_iff]
  refine exists_congr fun m => and_congr_right fun _ => ?_
  cases m.body <;> simp [Body.identity?]

theorem mapM_records?_eq_none_iff :
    ms.mapM (·.body.records?) = none ↔ ∃ m ∈ ms, ∀ rs, m.body ≠ .dumpConfig rs := by
  rw [mapM_eq_none_iff]
  refine exists_congr fun m => and_congr_right fun _ => ?_
  cases m.body <;> simp [Body.records?]

end Bodies

section OfMessages

variable {ms : List Message}

theorem ofMessages_of_replies {identities : List Identity} (some_message : ms ≠ [])
    (replies : ms.map Message.body = identities.map .pollResponse) :
    ofMessages ms = .ok (.modules identities) := by
  unfold ofMessages
  rw [if_neg (by simpa using some_message), mapM_identity?_eq_some_iff.mpr replies]

theorem ofMessages_of_records {records : List (List ConfigRecord)} (some_message : ms ≠ [])
    (dumps : ms.map Message.body = records.map .dumpConfig) :
    ofMessages ms = .config <$> ModuleConfig.ofRecords records.flatten := by
  have no_reply : ms.mapM (·.body.identity?) = none := by
    obtain ⟨m, rest, rfl⟩ := List.exists_cons_of_ne_nil some_message
    obtain ⟨rs, _, -, first, -⟩ := List.map_eq_cons_iff.mp dumps.symm
    refine mapM_identity?_eq_none_iff.mpr ⟨m, .head _, fun i reply => ?_⟩
    rw [reply] at first
    cases first
  unfold ofMessages
  rw [if_neg (by simpa using some_message), no_reply, mapM_records?_eq_some_iff.mpr dumps]

theorem ofMessages_of_neither (no_reply : ∃ m ∈ ms, ∀ i, m.body ≠ .pollResponse i)
    (no_records : ∃ m ∈ ms, ∀ rs, m.body ≠ .dumpConfig rs) :
    ofMessages ms = .ok (.other ms) := by
  have some_message : ms ≠ [] := List.ne_nil_of_mem no_reply.choose_spec.1
  unfold ofMessages
  rw [if_neg (by simpa using some_message), mapM_identity?_eq_none_iff.mpr no_reply,
    mapM_records?_eq_none_iff.mpr no_records]

end OfMessages

/-! ## What parts convey -/

/-- What the parts of an answer convey together. -/
inductive Conveys : List Bytes → Except WireError Response → Prop where
  /-- A part is no message, and those before it are. -/
  | refused {front : List Bytes} {ms : List Message} {part : Bytes} {e : WireError} :
    AreMessages front ms → Message.decode part = .error e →
    ∀ rest, Conveys (front ++ part :: rest) (.error e)
  /-- All of them are replies to a poll. -/
  | modules {parts : List Bytes} {ms : List Message} {identities : List Identity} :
    AreMessages parts ms → ms ≠ [] → ms.map Message.body = identities.map .pollResponse →
    Conveys parts (.ok (.modules identities))
  /-- All of them carry records, which may make up a configuration. -/
  | config {parts : List Bytes} {ms : List Message} {records : List (List ConfigRecord)} :
    AreMessages parts ms → ms ≠ [] → ms.map Message.body = records.map .dumpConfig →
    Conveys parts (.config <$> ModuleConfig.ofRecords records.flatten)
  /-- There are none. -/
  | nothing : Conveys [] (.ok (.other []))
  /-- Some of them is no reply to a poll, and some carries no records. -/
  | other {parts : List Bytes} {ms : List Message} : AreMessages parts ms →
    (∃ m ∈ ms, ∀ i, m.body ≠ .pollResponse i) → (∃ m ∈ ms, ∀ rs, m.body ≠ .dumpConfig rs) →
    Conveys parts (.ok (.other ms))

theorem ofFragments_of_areMessages {parts : List Bytes} {ms : List Message}
    (read : AreMessages parts ms) : ofFragments parts = ofMessages ms := by
  unfold ofFragments
  rw [messagesOf_of_areMessages read]
  rfl

theorem Conveys.ofFragments_eq {parts : List Bytes} {r : Except WireError Response}
    (h : Conveys parts r) : ofFragments parts = r := by
  cases h with
  | refused read wrong rest =>
    unfold ofFragments
    rw [messagesOf_of_refused read wrong rest]
    rfl
  | modules read some_message replies =>
    rw [ofFragments_of_areMessages read, ofMessages_of_replies some_message replies]
  | config read some_message dumps =>
    rw [ofFragments_of_areMessages read, ofMessages_of_records some_message dumps]
  | nothing => rfl
  | other read no_reply no_records =>
    rw [ofFragments_of_areMessages read, ofMessages_of_neither no_reply no_records]

/-- There is nothing else that parts can be. -/
theorem exists_conveys (parts : List Bytes) : ∃ r, Conveys parts r := by
  rcases areMessages_or_refused parts with
    ⟨ms, read⟩ | ⟨front, ms, part, rest, e, rfl, read, wrong⟩
  · by_cases some_message : ms = []
    · subst some_message
      cases read
      exact ⟨_, .nothing⟩
    · cases replies : ms.mapM (·.body.identity?) with
      | some identities =>
        exact ⟨_, .modules read some_message (mapM_identity?_eq_some_iff.mp replies)⟩
      | none =>
        have no_reply := mapM_identity?_eq_none_iff.mp replies
        cases dumps : ms.mapM (·.body.records?) with
        | some records =>
          exact ⟨_, .config read some_message (mapM_records?_eq_some_iff.mp dumps)⟩
        | none => exact ⟨_, .other read no_reply (mapM_records?_eq_none_iff.mp dumps)⟩
  · exact ⟨_, .refused read wrong rest⟩

/-- Parts in any number and order are taken for what they convey and for nothing else. The first
part that is no message is what is wrong with all of them; without one, replies to a poll and
records are all taken, in their order, where there is nothing else; and in every other case the
messages are left as they are. -/
theorem ofFragments_eq_iff (parts : List Bytes) (r : Except WireError Response) :
    ofFragments parts = r ↔ Conveys parts r := by
  constructor
  · rintro rfl
    obtain ⟨r, h⟩ := exists_conveys parts
    rwa [h.ofFragments_eq]
  · exact Conveys.ofFragments_eq

/-! ## Parts that have been written -/

/-- Where each part gives a result, all of them give the list of these results. -/
theorem mapM_map_eq_pure {m : Type → Type} [Monad m] [LawfulMonad m] {α β γ : Type} {parts : List α}
    {f : α → β} {g : β → m γ} {result : α → γ} (h : ∀ p ∈ parts, g (f p) = pure (result p)) :
    (parts.map f).mapM g = pure (parts.map result) := by
  induction parts with
  | nil => rfl
  | cons p parts ih =>
    rw [List.map_cons, List.mapM_cons, h p (.head _), ih fun q mem => h q (.tail _ mem), pure_bind,
      pure_bind]
    rfl

/-- The messages of parts are the ones they were written for. -/
theorem messagesOf_map {α : Type} {parts : List α} {message : α → Message} {bytes : α → Bytes}
    (h : ∀ p ∈ parts, (message p).encode = .ok (bytes p)) :
    messagesOf (parts.map bytes) = .ok (parts.map message) := by
  refine mapM_map_eq_pure fun p mem => ?_
  rw [Message.decode_of_encode (h p mem)]
  rfl

/-- Messages that carry records make up the configuration of all these records. -/
theorem ofMessages_dumps {α : Type} {parts : List α} (some_part : parts ≠ [])
    {message : α → Message} {records : α → List ConfigRecord}
    (h : ∀ p ∈ parts, (message p).body = .dumpConfig (records p)) :
    ofMessages (parts.map message) = config <$> ModuleConfig.ofRecords (parts.flatMap records) := by
  have dumps : (parts.map message).map Message.body = (parts.map records).map .dumpConfig := by
    rw [List.map_map, List.map_map]
    exact List.map_congr_left h
  rw [ofMessages_of_records (by simpa using some_part) dumps, List.flatMap_def]

end LightLink.Response
