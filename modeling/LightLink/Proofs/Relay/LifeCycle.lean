import LightLink.Proofs.Relay.Served

/-!
# The life of a relay

A relay serves one client after the other. A client that is lost leaves the relay listening for the
next one; the relay ends where a client asks it to, where the session fails, and where it cannot
accept a client, and nothing that is sent to it then makes a difference.

* `Life`: what a relay comes to, one case for each way in which serving a client can end;
* `exists_life`: a relay comes to nothing else;
* `Life.phases_eq`, `Life.exit_mem`, `Life.cause`: the phases, and why a relay ended;
* `run_append`, `serve_extend`: more clients, and more of what a client sends;
* `run_lifeCycle`: all of this, of a relay.
-/

namespace LightLink.Relay

variable {σ : Type} [FarEnd σ] {c : Config} {s s' s'' : Session σ}

/-! ## How a connection ended -/

namespace Served

variable {room : Option (Nat × Fault)} {items : List Item} {handled : List Handled}

/-- A connection ends on request only if the request came as a whole. -/
theorem exit_mem (h : Served c room s items handled (some .exit) s') :
    .bytes exitToken ∈ items := by
  generalize ends : some ConnectionEnd.exit = o at h
  induction h with
  | rest => cases ends
  | exit | exitUnheard => exact .head _
  | answered _ _ _ ih => exact .tail _ (ih ends)
  | empty | cutOff | failed => cases ends

/-- A connection fails only because the session failed to answer one of its items. -/
theorem asked_of_failed {e : RelayError} (h : Served c room s items handled (some (.failed e)) s') :
    ∃ cause t bytes, e = .transport cause ∧ .bytes bytes ∈ items ∧
      Asked c t bytes (.error cause) s' := by
  generalize ends : some (ConnectionEnd.failed e) = o at h
  induction h with
  | failed asked =>
    cases ends
    exact ⟨_, _, _, rfl, .head _, asked⟩
  | answered _ _ _ ih =>
    obtain ⟨cause, t, bytes, is_cause, mem, asked⟩ := ih ends
    exact ⟨cause, t, bytes, is_cause, .tail _ mem, asked⟩
  | rest | empty | exit | exitUnheard | cutOff => cases ends

end Served

/-! ## One client after the other -/

/-- What a relay comes to with these clients: what it did, and the session then. -/
inductive Life (c : Config) : List (Except Fault Visit) → Session σ → Run → Session σ → Prop where
  /-- The relay listens for the next client. -/
  | listens {s : Session σ} : Life c [] s ⟨[.listening], [], none⟩ s
  /-- A client cannot be accepted. -/
  | refuses {cause clients s} : Life c (.error cause :: clients) s
      ⟨[.listening, .closed], [], some (.error (.acceptFailed cause))⟩ s
  /-- A client asks the relay to stop. -/
  | stops {client clients s handled s'} :
    Served c client.room s client.items handled (some .exit) s' →
    Life c (.ok client :: clients) s
      ⟨[.listening, .connected, .closed], [handled], some (.ok ())⟩ s'
  /-- The session fails. -/
  | fails {client clients s handled e s'} :
    Served c client.room s client.items handled (some (.failed (.transport e))) s' →
    Life c (.ok client :: clients) s
      ⟨[.listening, .connected, .closed], [handled], some (.error (.transport e))⟩ s'
  /-- A client is lost, and the relay listens again. -/
  | loses {client clients s handled ended cause s' r s''} :
    Served c client.room s client.items handled ended s' →
    ended.getD client.loss = .lost cause → Life c clients s' r s'' →
    Life c (.ok client :: clients) s
      ⟨.listening :: .connected :: r.phases, handled :: r.handled, r.ended⟩ s''

section Run

variable {client : Visit} {clients : List (Except Fault Visit)} {handled : List Handled}

theorem run_of_exit (h : serve c client s = ((handled, .exit), s')) :
    run c (.ok client :: clients) s =
      (⟨[.listening, .connected, .closed], [handled], some (.ok ())⟩, s') := by
  simp only [run, bind, StateT.bind, h]
  rfl

theorem run_of_failed {e : RelayError} (h : serve c client s = ((handled, .failed e), s')) :
    run c (.ok client :: clients) s =
      (⟨[.listening, .connected, .closed], [handled], some (.error e)⟩, s') := by
  simp only [run, bind, StateT.bind, h]
  rfl

theorem run_of_lost {cause : ClientLoss} (h : serve c client s = ((handled, .lost cause), s')) :
    run c (.ok client :: clients) s =
      (⟨.listening :: .connected :: (run c clients s').1.phases,
        handled :: (run c clients s').1.handled, (run c clients s').1.ended⟩,
        (run c clients s').2) := by
  simp only [run, bind, StateT.bind, h]
  rfl

end Run

/-- With any clients a relay comes to what `Life` says. -/
theorem exists_life (c : Config) (clients : List (Except Fault Visit)) (sound : s.Sound) :
    Life c clients s (run c clients s).1 (run c clients s).2 := by
  induction clients generalizing s with
  | nil => exact .listens
  | cons first clients ih =>
    cases first with
    | error cause => exact .refuses
    | ok client =>
      obtain ⟨handled, ended, s', e, served⟩ := exists_serve c client sound
      obtain ⟨loss, is_loss⟩ := client.exists_loss
      match ended, served, e with
      | some .exit, served, e =>
        rw [run_of_exit e]
        exact .stops served
      | some (.failed _), served, e =>
        rw [run_of_failed e]
        obtain ⟨cause, _, _, rfl, -⟩ := served.asked_of_failed
        exact .fails served
      | some (.lost cause), served, e =>
        rw [run_of_lost e]
        exact .loses served rfl (ih (served.sound sound))
      | none, served, e =>
        rw [Option.getD_none, is_loss] at e
        rw [run_of_lost e]
        exact .loses served is_loss (ih (served.sound sound))

/-- The phases after some clients have been lost. -/
def phases (lost : Nat) (last : List Phase) : List Phase :=
  (List.replicate lost [Phase.listening, .connected]).flatten ++ .listening :: last

/-- The phases after a relay has listened last. -/
def lastPhases : Option (Except RelayError Unit) → List Phase
  | none => []
  | some (.error (.acceptFailed _)) => [.closed]
  | some _ => [.connected, .closed]

namespace Life

variable {clients : List (Except Fault Visit)} {r : Run}

/-- A relay listens and is connected in turn, listens again, and is closed once it has ended. -/
theorem phases_eq (h : Life c clients s r s') :
    ∃ lost, r.phases = phases lost (lastPhases r.ended) := by
  induction h with
  | listens | refuses | stops | fails => exact ⟨0, rfl⟩
  | loses _ _ _ ih =>
    obtain ⟨lost, e⟩ := ih
    refine ⟨lost + 1, ?_⟩
    dsimp only
    rw [e, phases, phases, List.replicate_succ]
    rfl

/-- A relay ends as it should only if some client asked it to. -/
theorem exit_mem (h : Life c clients s r s') (ended : r.ended = some (.ok ())) :
    ∃ client, .ok client ∈ clients ∧ .bytes exitToken ∈ client.items := by
  induction h with
  | stops served => exact ⟨_, .head _, served.exit_mem⟩
  | loses _ _ _ ih =>
    obtain ⟨client, mem, exit⟩ := ih ended
    exact ⟨client, .tail _ mem, exit⟩
  | listens | refuses | fails => cases ended

/-- A relay fails only if a client cannot be accepted or the session failed. -/
theorem cause {e : RelayError} (h : Life c clients s r s') (ended : r.ended = some (.error e)) :
    (∃ cause, e = .acceptFailed cause ∧ .error cause ∈ clients) ∨
      ∃ cause client t bytes, e = .transport cause ∧ .ok client ∈ clients ∧
        .bytes bytes ∈ client.items ∧ Asked c t bytes (.error cause) s' := by
  induction h with
  | refuses =>
    cases ended
    exact .inl ⟨_, rfl, .head _⟩
  | fails served =>
    cases ended
    obtain ⟨cause, t, bytes, is_cause, mem, asked⟩ := served.asked_of_failed
    exact .inr ⟨cause, _, t, bytes, is_cause, .head _, mem, asked⟩
  | loses _ _ _ ih =>
    rcases ih ended with ⟨cause, rfl, mem⟩ | ⟨cause, client, t, bytes, rfl, mem, asked⟩
    · exact .inl ⟨cause, rfl, .tail _ mem⟩
    · exact .inr ⟨cause, client, t, bytes, rfl, .tail _ mem, asked⟩
  | listens | stops => cases ended

theorem sound (h : Life c clients s r s') (sound : s.Sound) : s'.Sound := by
  induction h with
  | listens | refuses => exact sound
  | stops served | fails served => exact served.sound sound
  | loses served _ _ ih => exact ih (served.sound sound)

/-- What is handled on a connection comes of the items of its own client. -/
theorem served_of_handled (h : Life c clients s r s') {i : Nat} {handled : List Handled}
    (is_handled : r.handled[i]? = some handled) :
    ∃ client ended, ∃ before after : Session σ, clients[i]? = some (.ok client) ∧
      Served c client.room before client.items handled ended after := by
  induction h generalizing i with
  | listens | refuses => cases is_handled
  | stops served | fails served =>
    cases i with
    | zero =>
      cases is_handled
      exact ⟨_, _, _, _, rfl, served⟩
    | succ i => cases is_handled
  | loses served _ _ ih =>
    cases i with
    | zero =>
      cases is_handled
      exact ⟨_, _, _, _, rfl, served⟩
    | succ i => exact ih is_handled

end Life

/-! ## More clients, and more of what a client sends -/

/-- A connection that an item has ended does not change with what comes behind that. -/
theorem serve_extend (c : Config) (client : Visit) (sound : s.Sound) (more : List Bytes)
    (h : ∀ cause, (serve c client s).1.2 ≠ .lost cause) :
    serve c { client with pieces := client.pieces ++ more } s = serve c client s := by
  obtain ⟨handled, ended, s', e, served⟩ := exists_serve c client sound
  obtain ⟨handled', ended', t, e', served'⟩ :=
    exists_serve c { client with pieces := client.pieces ++ more } sound
  obtain ⟨loss, is_loss⟩ := client.exists_loss
  have items : Visit.items { client with pieces := client.pieces ++ more } =
      client.items ++ (client.rest.push more.flatten).takeAll.1 := by
    have stream : ItemDecoder.mk (Visit.stream { client with pieces := client.pieces ++ more }) =
        .push ⟨client.stream⟩ more.flatten := congrArg ItemDecoder.mk List.flatten_append
    unfold Visit.items
    rw [stream, ItemDecoder.takeAll_push]
    rfl
  cases ended with
  | none =>
    rw [e] at h
    exact absurd is_loss (h loss)
  | some how =>
    rw [items] at served'
    obtain ⟨rfl, rfl, rfl⟩ := served'.unique (served.ignore _)
    rw [e', e]
    rfl

/-- A relay that listens goes on like one that starts with the session that it has left. -/
theorem run_append {front : List (Except Fault Visit)} (h : (run c front s).1.ended = none) :
    ∃ phases, (run c front s).1.phases = phases ++ [.listening] ∧
      ∀ back, run c (front ++ back) s =
        (⟨phases ++ (run c back (run c front s).2).1.phases,
          (run c front s).1.handled ++ (run c back (run c front s).2).1.handled,
          (run c back (run c front s).2).1.ended⟩, (run c back (run c front s).2).2) := by
  induction front generalizing s with
  | nil => exact ⟨[], rfl, fun back => rfl⟩
  | cons first front ih =>
    cases first with
    | error cause => cases h
    | ok client =>
      cases e : serve c client s with
      | mk served s' =>
      obtain ⟨handled, how⟩ := served
      cases how with
      | exit => rw [run_of_exit e] at h; cases h
      | failed cause => rw [run_of_failed e] at h; cases h
      | lost cause =>
        rw [run_of_lost e] at h ⊢
        obtain ⟨phases, is_phases, all⟩ := ih h
        refine ⟨.listening :: .connected :: phases, congrArg _ (congrArg _ is_phases),
          fun back => ?_⟩
        rw [List.cons_append, run_of_lost e, all back]
        rfl

/-- Nobody is served once a relay has ended. -/
theorem run_append_of_ended {front : List (Except Fault Visit)}
    (h : (run c front s).1.ended ≠ none) (back : List (Except Fault Visit)) :
    run c (front ++ back) s = run c front s := by
  induction front generalizing s with
  | nil => exact absurd rfl h
  | cons first front ih =>
    cases first with
    | error cause => rfl
    | ok client =>
      cases e : serve c client s with
      | mk served s' =>
      obtain ⟨handled, how⟩ := served
      cases how with
      | exit => rw [List.cons_append, run_of_exit e, run_of_exit e]
      | failed cause => rw [List.cons_append, run_of_failed e, run_of_failed e]
      | lost cause =>
        rw [run_of_lost e] at h
        rw [List.cons_append, run_of_lost e, run_of_lost e, ih h]

/-- A client ends a relay that listens unless it is lost, in whatever way. -/
theorem ended_run_singleton (c : Config) (client : Visit) (s : Session σ) :
    (run c [.ok client] s).1.ended = none ↔ ∃ cause, (serve c client s).1.2 = .lost cause := by
  cases e : serve c client s with
  | mk served s' =>
  obtain ⟨handled, how⟩ := served
  cases how with
  | exit => rw [run_of_exit e]; exact ⟨nofun, nofun⟩
  | failed cause => rw [run_of_failed e]; exact ⟨nofun, nofun⟩
  | lost cause => rw [run_of_lost e]; exact ⟨fun _ => ⟨cause, rfl⟩, fun _ => rfl⟩

/-- What a client leaves behind its last item makes no difference to those after it. -/
theorem run_congr_items (c : Config) {client client' : Visit} (sound : s.Sound)
    (items : client'.items = client.items) (room : client'.room = client.room)
    (more : List (Except Fault Visit)) :
    run c (.ok client' :: more) s = run c (.ok client :: more) s := by
  obtain ⟨handled, ended, s', e, served⟩ := exists_serve c client sound
  obtain ⟨handled', ended', t, e', served'⟩ := exists_serve c client' sound
  obtain ⟨loss, is_loss⟩ := client.exists_loss
  obtain ⟨loss', is_loss'⟩ := client'.exists_loss
  rw [items, room] at served'
  obtain ⟨rfl, rfl, rfl⟩ := served'.unique served
  match ended', e, e' with
  | none, e, e' =>
    rw [Option.getD_none, is_loss] at e
    rw [Option.getD_none, is_loss'] at e'
    rw [run_of_lost e, run_of_lost e']
  | some (.lost _), e, e' => rw [run_of_lost e, run_of_lost e']
  | some .exit, e, e' => rw [run_of_exit e, run_of_exit e']
  | some (.failed _), e, e' => rw [run_of_failed e, run_of_failed e']

/-- Where a client ends a relay, nobody else makes a difference, nor does more of what it sends. -/
theorem run_extend (c : Config) (client : Visit) (sound : s.Sound)
    (h : (run c [.ok client] s).1.ended ≠ none) (pieces : List Bytes)
    (more : List (Except Fault Visit)) :
    run c (.ok { client with pieces := client.pieces ++ pieces } :: more) s =
      run c [.ok client] s := by
  have extend := serve_extend c client sound pieces fun cause lost =>
    h ((ended_run_singleton c client s).mpr ⟨cause, lost⟩)
  cases e : serve c client s with
  | mk served s' =>
  rw [e] at extend
  obtain ⟨handled, how⟩ := served
  cases how with
  | exit => rw [run_of_exit e, run_of_exit extend]
  | failed cause => rw [run_of_failed e, run_of_failed extend]
  | lost cause => exact absurd ((ended_run_singleton c client s).mpr ⟨cause, by rw [e]⟩) h

/-! ## A relay -/

/-- The life of a relay. Whatever clients do and whatever was done with the session before, a relay
lives as `Life` says: it listens and is connected in turn and is closed once it has ended; it ends
as it should only if a client sent all of a request to stop, and otherwise only because it could not
accept a client or because the session failed to answer an item, and never because a client is
lost. What is handled on a connection comes of what its own client sent, and what another client
has left unfinished before makes no difference. Once a relay has ended, neither more clients nor
anything more from the client that it ended with make a difference to it or to the module. -/
theorem run_lifeCycle (c : Config) (clients : List (Except Fault Visit)) (name : String)
    (config : SessionConfig) (far : σ) (events : List (Session.Event σ)) :
    let s := (Session.attach name config far).after events
    let r := (run c clients s).1
    let s' := (run c clients s).2
    Life c clients s r s' ∧
    (∃ lost, r.phases = phases lost (lastPhases r.ended)) ∧
    (r.ended = some (.ok ()) →
      ∃ client, .ok client ∈ clients ∧ .bytes exitToken ∈ client.items) ∧
    (∀ e, r.ended = some (.error e) →
      (∃ cause, e = .acceptFailed cause ∧ .error cause ∈ clients) ∨
      ∃ cause client t bytes, e = .transport cause ∧ .ok client ∈ clients ∧
        .bytes bytes ∈ client.items ∧ Asked c t bytes (.error cause) s') ∧
    (∀ (i : Nat) (handled : List Handled), r.handled[i]? = some handled →
      ∃ (client : Visit) (ended : Option ConnectionEnd) (before after : Session σ),
        clients[i]? = some (.ok client) ∧
        Served c client.room before client.items handled ended after) ∧
    (∀ client client' : Visit, client'.items = client.items → client'.room = client.room →
      ∀ more, run c (clients ++ .ok client' :: more) s = run c (clients ++ .ok client :: more) s) ∧
    (r.ended = none → ∀ client : Visit, (run c (clients ++ [.ok client]) s).1.ended = none ↔
      ∃ cause, (serve c client s').1.2 = .lost cause) ∧
    (r.ended ≠ none → ∀ more, run c (clients ++ more) s = (r, s')) ∧
    (r.ended = none → ∀ client : Visit, (run c (clients ++ [.ok client]) s).1.ended ≠ none →
      ∀ pieces more,
        run c (clients ++ .ok { client with pieces := client.pieces ++ pieces } :: more) s =
          run c (clients ++ [.ok client]) s) := by
  intro s r s'
  have sound : s.Sound := Session.sound_after name config far events
  have life : Life c clients s r s' := exists_life c clients sound
  refine ⟨life, life.phases_eq, life.exit_mem, fun e => life.cause, fun i handled =>
    life.served_of_handled, fun client client' items room more => ?_, fun listens client => ?_,
    fun ended => run_append_of_ended ended,
    fun listens client ended pieces more => ?_⟩
  · -- What is left behind does not reach the next client, as each is served from its first byte.
    by_cases listens : r.ended = none
    · obtain ⟨_, -, all⟩ := run_append listens
      rw [all, all, run_congr_items c (life.sound sound) items room more]
    · rw [run_append_of_ended listens, run_append_of_ended listens]
  · obtain ⟨_, -, all⟩ := run_append listens
    rw [all]
    exact ended_run_singleton c client s'
  · obtain ⟨_, -, all⟩ := run_append listens
    rw [all] at ended
    rw [all, all, run_extend c client (life.sound sound) ended pieces more]

/-- A client that is lost within a request to stop, and then one that sends all of it: the relay
ends with the second one, also if that sends another byte and more clients come. -/
theorem run_lifeCycle_exit :
    let s := Session.attach "" {} ({} : StandIn)
    let left : Visit := { pieces := [[0, 0, 0, 4, 0x65]] }
    let client : Visit := { pieces := [[0, 0, 0, 4, 0x65, 0x78, 0x69, 0x74]] }
    let r := run {} [.ok left, .ok client] s
    (run {} [.ok left] s).1.ended = none ∧ r.1.ended = some (.ok ()) ∧
      r.1.phases = [.listening, .connected, .listening, .connected, .closed] ∧
      run {} [.ok left, .ok { client with pieces := client.pieces ++ [[0x77]] }, .ok client] s =
        r := by
  intro s left client r
  have sound : s.Sound := Session.sound_after "" {} ({} : StandIn) []
  have first : ∃ cause, serve {} left s = (([], .lost cause), s) := by
    obtain ⟨handled, ended, s', e, served⟩ := exists_serve {} left sound
    obtain ⟨cause, is_lost⟩ := left.exists_loss
    have items : left.items = [] :=
      congrArg Prod.fst (ItemDecoder.takeAll_of_no_item (d := ⟨[0, 0, 0, 4, 0x65]⟩) nofun)
    rw [items] at served
    obtain ⟨rfl, rfl, rfl⟩ := served.unique .rest
    exact ⟨cause, by rw [e, Option.getD_none, is_lost]⟩
  have second : serve {} client s = (([⟨.bytes exitToken, some ackToken⟩], .exit), s) := by
    obtain ⟨handled, ended, s', e, served⟩ := exists_serve {} client sound
    have items : client.items = [.bytes exitToken] :=
      Visit.items_eq [exitToken] (by decide) rfl
    rw [items] at served
    obtain ⟨rfl, rfl, rfl⟩ := served.unique (.exit nofun)
    exact e
  obtain ⟨cause, first⟩ := first
  have listens : (run {} [.ok left] s).1.ended = none := by rw [run_of_lost first]; rfl
  have both : r.1 = ⟨[.listening, .connected, .listening, .connected, .closed],
      [[], [⟨.bytes exitToken, some ackToken⟩]], some (.ok ())⟩ := by
    show (run {} [.ok left, .ok client] s).1 = _
    rw [run_of_lost first, run_of_exit second]
  have ended : r.1.ended ≠ none := by rw [both]; nofun
  obtain ⟨-, -, -, -, -, -, -, -, extend⟩ :=
    run_lifeCycle {} [.ok left] "" {} ({} : StandIn) []
  exact ⟨listens, by rw [both], by rw [both], extend listens client ended [[0x77]] [.ok client]⟩

end LightLink.Relay
