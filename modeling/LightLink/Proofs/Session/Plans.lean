import Mathlib.Data.List.Forall2
import LightLink.CommandLine.Serve
import LightLink.Proofs.Session.Polled
import LightLink.Proofs.Session.Recorded

/-!
# How far a plan comes

A module is set up step by step, and a step is only made once the one before it was confirmed. So a
module is never told to store what it has heard of in part.

* `SetUp`: a whole configuration or one setting, `SetUp.steps`: the steps that it takes, and
  `SetUp.perform`: taking them;
* `Session.results`: what the steps of a plan come to if each of them is made;
* `Session.reached`: the steps up to the first that is not confirmed;
* `Session.sendPlan_reached`: these are the ones that are made, and the last one decides;
* `Scripted`: a far end at which the steps come to whatever a script says;
* `SetUp.perform_stops`: how far the set-up of a module comes;
* `CommandLine.Serve.plan_setUp`: the program makes no other plans but to have a module print.
-/

namespace LightLink

/-! ## Set-ups -/

/-- What a module is told about its set-up. -/
inductive SetUp where
  | config (config : ModuleConfig)
  | address (address : UInt16)
  | deviceId (deviceId : UInt16)
  | baud (baud : Baud)
  deriving DecidableEq, Repr

namespace SetUp

/-- The steps that change one setting in what is stored. -/
def change (r : ConfigRecord) : List Bytes :=
  [Utf8.ofString "read", Utf8.ofString "start", Wire.encode r, Utf8.ofString "end"]

/-- The steps up to `end`. -/
def telling : SetUp → List Bytes
  | config c => Utf8.ofString "start" :: c.toRecords.map Wire.encode ++ [Utf8.ofString "end"]
  | address a => change (.address a)
  | deviceId d => change (.deviceId d)
  | baud b => change (.baud b)

/-- The steps of a set-up, in their order. -/
def steps (u : SetUp) (persist : Bool) : List Bytes :=
  u.telling ++ if persist then [Utf8.ofString "write"] else []

/-- Has a module store what it was told if `persist` is set. -/
def storing {σ : Type} [FarEnd σ] (persist : Bool) (told : Exchange σ Unit) : Exchange σ Unit := do
  told
  if persist then Session.persist

/-- Sets up a module. -/
def perform {σ : Type} [FarEnd σ] (persist : Bool) : SetUp → Exchange σ Unit
  | config c => Session.upload c persist
  | address a => storing persist (Session.setAddress a)
  | deviceId d => storing persist (Session.setDeviceId d)
  | baud b => storing persist (Session.setBaud b)

end SetUp

namespace Session

variable {σ : Type} [FarEnd σ]

theorem sendPlan_append (front rest : List Bytes) :
    (sendPlan (front ++ rest) : Exchange σ Unit) = (do sendPlan front; sendPlan rest) := by
  induction front with
  | nil => rfl
  | cons payload front ih =>
    rw [List.cons_append, sendPlan, sendPlan, ih, bind_assoc]

theorem storing_sendPlan (persist : Bool) (plan : List Bytes) :
    (SetUp.storing persist (sendPlan plan) : Exchange σ Unit) =
      sendPlan (plan ++ if persist then [Utf8.ofString "write"] else []) := by
  rw [sendPlan_append]
  cases persist <;> rfl

end Session

theorem SetUp.perform_eq {σ : Type} [FarEnd σ] (u : SetUp) (persist : Bool) :
    (u.perform persist : Exchange σ Unit) = Session.sendPlan (u.steps persist) := by
  cases u with
  | config c => rfl
  | address a => exact Session.storing_sendPlan persist (change (.address a))
  | deviceId d => exact Session.storing_sendPlan persist (change (.deviceId d))
  | baud b => exact Session.storing_sendPlan persist (change (.baud b))

/-! ## Making steps -/

namespace Session

variable {σ : Type}

/-- Looking for frames changes nothing about how that is done. -/
theorem config_awaitUntil {α : Type} (deadline poll : Nat) (verdict : Frame → Option α)
    (s : Session σ) : (awaitUntil deadline poll verdict s).2.config = s.config := by
  refine awaitUntil_keeps (P := fun s' => s'.config = s.config) (fun s' wait h => ?_) deadline poll
    verdict rfl
  unfold getMessage
  dsimp only
  split
  · exact h
  · split <;> exact h

variable [FarEnd σ]

theorem config_sendTerminated (payload : Bytes) (s : Session σ) :
    (sendTerminated payload s).2.config = s.config := by
  show (sendAndConfirm payload true s.config.ackTimeout s).2.config = s.config
  have kept : (write (outgoing payload true) s).2.config = s.config := by
    unfold write
    rcases s.link.write (outgoing payload true) with ⟨e | _, link⟩ <;> rfl
  rw [sendAndConfirm_eq]
  generalize write (outgoing payload true) s = written at kept ⊢
  obtain ⟨e | _, s'⟩ := written
  · exact kept
  · dsimp only
    rw [confirmed_snd, config_awaitUntil, ← kept]

/-- How a step can come out. -/
inductive Outcome where
  | confirmed
  | rejected
  | timedOut
  | lost
  deriving DecidableEq, Repr

/-- The result of a step says that it came out so. -/
def Outcome.Describes (timeout : Nat) : Outcome → Except TransportError Unit → Prop
  | confirmed, r => r = .ok ()
  | rejected, r => r = .error .commandRejected
  | timedOut, r => r = .error (.ackTimeout timeout)
  | lost, r => ∃ cause, r = .error (.linkLost cause)

/-- A step comes out in one of four ways. -/
theorem exists_outcome (payload : Bytes) (s : Session σ) :
    ∃ o : Outcome, o.Describes s.config.ackTimeout (sendTerminated payload s).1 := by
  show ∃ o : Outcome, o.Describes _ (sendAndConfirm payload true s.config.ackTimeout s).1
  rw [sendAndConfirm_eq]
  cases wrote : write (outgoing payload true) s with
  | mk outcome s' =>
  cases outcome with
  | error e =>
    obtain ⟨name, cause, rfl⟩ := error_of_write wrote
    exact ⟨.lost, _, rfl⟩
  | ok =>
    dsimp only
    generalize awaited : awaitUntil (s'.link.now + s.config.ackTimeout) s'.config.ackPoll
      Frame.verdict? s' = r
    rcases r with ⟨e | ⟨_ | (_ | _)⟩, s''⟩
    · obtain ⟨name, rfl⟩ := error_of_awaitUntil awaited
      exact ⟨.lost, _, rfl⟩
    · exact ⟨.timedOut, rfl⟩
    · exact ⟨.confirmed, rfl⟩
    · exact ⟨.rejected, rfl⟩

/-- What the steps of a plan come to if all of them are made, one after the other. -/
def results : List Bytes → Session σ → List (Except TransportError Unit)
  | [], _ => []
  | payload :: rest, s =>
    (sendTerminated payload s).1 :: results rest (sendTerminated payload s).2

/-- The steps of a plan up to the first that is not confirmed. -/
def reached (plan : List Bytes) (s : Session σ) : List Bytes :=
  plan.take ((results plan s).findIdx (!·.isOk) + 1)

theorem reached_cons (payload : Bytes) (rest : List Bytes) (s : Session σ) :
    reached (payload :: rest) s = payload ::
      if (sendTerminated payload s).1.isOk then reached rest (sendTerminated payload s).2
      else [] := by
  unfold reached
  rw [results, List.findIdx_cons]
  cases (sendTerminated payload s).1.isOk <;> rfl

@[simp] theorem length_results (plan : List Bytes) (s : Session σ) :
    (results plan s).length = plan.length := by
  induction plan generalizing s with
  | nil => rfl
  | cons payload rest ih => rw [results, List.length_cons, ih, List.length_cons]

/-- The outcomes of the steps of a plan are a script. -/
theorem exists_script (plan : List Bytes) (s : Session σ) : ∃ script : List Outcome,
    List.Forall₂ (Outcome.Describes s.config.ackTimeout) script (results plan s) := by
  induction plan generalizing s with
  | nil => exact ⟨[], .nil⟩
  | cons payload rest ih =>
    obtain ⟨o, describes⟩ := exists_outcome payload s
    obtain ⟨script, follow⟩ := ih (sendTerminated payload s).2
    rw [config_sendTerminated payload s] at follow
    exact ⟨o :: script, .cons describes follow⟩

theorem sendPlan_cons (payload : Bytes) (rest : List Bytes) (s : Session σ) :
    sendPlan (payload :: rest) s =
      match sendTerminated payload s with
      | (.ok (), s') => sendPlan rest s'
      | (.error e, s') => (.error e, s') := by
  rw [sendPlan, exchange_bind]
  rcases sendTerminated payload s with ⟨e | _, s'⟩ <;> rfl

/-- Steps are made up to the first that is not confirmed, and the last one made decides. -/
theorem sendPlan_reached (plan : List Bytes) (s : Session (Recorded σ)) :
    (sendPlan plan s).1 = ((results plan s).find? (!·.isOk)).getD (.ok ()) ∧
      (sendPlan plan s).2.handed = s.handed ++ (reached plan s).map (outgoing · true) := by
  induction plan generalizing s with
  | nil => exact ⟨rfl, (List.append_nil _).symm⟩
  | cons payload rest ih =>
    have handed := handed_sendTerminated payload s
    rw [sendPlan_cons, results, reached_cons]
    generalize sendTerminated payload s = step at handed ⊢
    obtain ⟨e | _, s'⟩ := step
    · exact ⟨rfl, handed⟩
    · obtain ⟨result, more⟩ := ih s'
      refine ⟨result, ?_⟩
      rw [more, show s'.handed = _ from handed, List.append_assoc]
      rfl

/-- A last step is made just if all others are confirmed. -/
theorem mem_reached_concat {front : List Bytes} {last : Bytes} (other : last ∉ front)
    (s : Session σ) : last ∈ reached (front ++ [last]) s ↔
      ∀ r ∈ (results (front ++ [last]) s).dropLast, r = .ok () := by
  induction front generalizing s with
  | nil => exact iff_of_true (.head _) nofun
  | cons payload front ih =>
    obtain ⟨ne, other⟩ := List.ne_and_not_mem_of_not_mem_cons other
    have some_left : results (front ++ [last]) (sendTerminated payload s).2 ≠ [] := by
      rw [ne_eq, ← List.length_eq_zero_iff, length_results, List.length_append]
      exact Nat.succ_ne_zero _
    rw [List.cons_append, reached_cons, results, List.dropLast_cons_of_ne_nil some_left,
      List.forall_mem_cons, List.mem_cons, or_iff_right ne]
    cases step : (sendTerminated payload s).1 with
    | error e => exact iff_of_false nofun fun h => nomatch h.1
    | ok => exact (ih other _).trans (and_iff_right rfl).symm

end Session

/-! ## Scripts -/

/-- A far end at which the steps of a plan come out as a script says. -/
structure Scripted where
  script : List Session.Outcome
  /-- What it has sent that has not been read. -/
  unread : Bytes := []

/-- The line that tells that a step came out so, if there is one. -/
def Session.Outcome.line : Outcome → Bytes
  | confirmed => StandIn.lineBytes Token.ok
  | rejected => StandIn.lineBytes Token.fail
  | timedOut | lost => []

/-- The verdict that a step comes to if its line is read. -/
def Session.Outcome.verdict? : Outcome → Option Verdict
  | confirmed => some .accepted
  | rejected => some .rejected
  | timedOut | lost => none

instance : FarEnd Scripted where
  write m _ _ :=
    match m.script with
    | [] => (.ok (), m)
    | .lost :: rest => (.error StandIn.unpluggedFault, ⟨rest, []⟩)
    | o :: rest => (.ok (), ⟨rest, o.line⟩)
  send m := ([(0, .chunk m.unread)], { m with unread := [] })

namespace Scripted

/-- Nothing is on the link of a session, and this is left of the script at its far end. -/
structure Rests (s : Session (Recorded Scripted)) (script : List Session.Outcome) : Prop
    extends s.Holds [] where
  running : s.reader.running = true
  idle : s.reader.assembler = .idle
  far : s.link.far.far = ⟨script, []⟩

theorem exchange_eq {l : Link (Recorded Scripted)} (coming : l.coming = []) : l.exchange =
    { l with
      reader := l.reader.read l.now (.chunk l.far.far.unread)
      far := { l.far with far.unread := [] } } := by
  obtain ⟨now, reader, _, far⟩ := l
  subst coming
  have sent : FarEnd.send far =
      ([(0, .chunk far.far.unread)], { far with far.unread := [] }) := rfl
  unfold Link.exchange
  rw [sent]
  simp [Link.settle, Link.takeIn, Link.byTime]

/-- What is there once a step has been handed over. -/
structure Told (s : Session (Recorded Scripted)) (o : Session.Outcome)
    (script : List Session.Outcome) : Prop extends s.Holds (Assembler.idle.feed o.line).2 where
  running : s.reader.running = true
  idle : s.reader.assembler = .idle
  far : s.link.far.far = ⟨script, []⟩

variable {s : Session (Recorded Scripted)} {o : Session.Outcome} {script : List Session.Outcome}

theorem feed_line (o : Session.Outcome) : (Assembler.idle.feed o.line).1 = .idle ∧
    (Assembler.idle.feed o.line).2.length ≤ 1 := by
  cases o <;> decide

theorem Rests.write (rests : Rests s (o :: script)) (bytes : Bytes) :
    ∃ s', Session.write bytes s = (if o = .lost then
      .error (.linkLost (.writeFailed s.name StandIn.unpluggedFault)) else .ok (), s') ∧
      Told s' o script := by
  have e : s.link.write bytes = (if o = .lost then .error StandIn.unpluggedFault else .ok (),
      Link.exchange { s.link with
        far := ⟨⟨script, o.line⟩, s.link.far.handed ++ [bytes]⟩ }) := by
    have far := rests.far
    unfold Link.write
    rw [rests.upToDate.settle_eq]
    obtain ⟨name, config, ⟨now, reader, coming, ⟨_, handed⟩⟩, last⟩ := s
    cases far
    cases o <;> rfl
  let far : Recorded Scripted := ⟨⟨script, o.line⟩, s.link.far.handed ++ [bytes]⟩
  rw [exchange_eq (l := { s.link with far }) rests.coming] at e
  obtain ⟨idle, short⟩ := feed_line o
  have fits : s.reader.frames.length + (s.reader.assembler.read (.chunk o.line)).2.length ≤
      s.reader.ring.capacity := by
    rw [rests.frames, rests.idle]
    exact Nat.le_trans (Nat.zero_add _ ▸ short) s.reader.ring.capacity_pos
  have frames := Reader.frames_read rests.running fits s.link.now
  have running := Reader.running_read (x := .chunk o.line) rests.running (by simp) s.link.now
  have assembler := Reader.assembler_read (x := .chunk o.line) rests.running s.link.now
  rw [rests.frames, rests.idle] at frames
  rw [rests.idle] at assembler
  refine ⟨{ s with link := (s.link.write bytes).2 }, ?_, ?_⟩
  · unfold Session.write
    rw [e]
    cases o <;> rfl
  · rw [e]
    exact ⟨⟨frames, rests.coming⟩, running, assembler.trans idle, rfl⟩

/-- A wait for a verdict takes the line that is there, if there is one. -/
theorem Told.awaitUntil (told : Told s o script) {deadline : Nat} (within : s.link.now < deadline)
    (poll : Nat) : ∃ s', Session.awaitUntil deadline poll Frame.verdict? s = (.ok o.verdict?, s') ∧
      Rests s' script := by
  have rests {s' : Session (Recorded Scripted)} (holds : s'.Holds []) (waited : s.Waited s') :
      Rests s' script :=
    ⟨holds, waited.running.trans told.running, waited.assembler.trans told.idle,
      waited.far ▸ told.far⟩
  have decided {f : Frame} {v : Verdict} (line : (Assembler.idle.feed o.line).2 = [f])
      (verdict : f.verdict? = some v) : ∃ s',
      Session.awaitUntil deadline poll Frame.verdict? s = (.ok (some v), s') ∧ Rests s' script := by
    obtain ⟨s', awaited, holds, -, -, waited⟩ :=
      Session.Holds.awaitUntil (line ▸ told.toHolds) verdict within poll
    exact ⟨s', awaited, rests holds waited⟩
  have undecided (no_line : (Assembler.idle.feed o.line).2 = []) : ∃ s',
      Session.awaitUntil deadline poll Frame.verdict? s = (.ok none, s') ∧ Rests s' script := by
    obtain ⟨s', awaited, holds, waited⟩ := Session.Holds.awaitUntil_nil (no_line ▸ told.toHolds)
      told.running deadline poll Frame.verdict?
    exact ⟨s', awaited, rests holds waited⟩
  cases o with
  | confirmed => exact decided (show _ = [⟨[0x6F, 0x6B], false⟩] by decide) (by decide)
  | rejected => exact decided (show _ = [⟨[0x66, 0x61, 0x69, 0x6C], false⟩] by decide) (by decide)
  | timedOut | lost => exact undecided rfl

/-- A step comes out as the script says. -/
theorem Rests.sendTerminated (rests : Rests s (o :: script)) (pos : 0 < s.config.ackTimeout)
    (payload : Bytes) : o.Describes s.config.ackTimeout (Session.sendTerminated payload s).1 ∧
      Rests (Session.sendTerminated payload s).2 script := by
  show o.Describes _ (Session.sendAndConfirm payload true s.config.ackTimeout s).1 ∧
    Rests (Session.sendAndConfirm payload true s.config.ackTimeout s).2 script
  obtain ⟨s', written, told⟩ := rests.write (Session.outgoing payload true)
  obtain ⟨s'', awaited, after⟩ :=
    told.awaitUntil (Nat.lt_add_of_pos_right pos) s'.config.ackPoll
  rw [Session.sendAndConfirm_eq, written]
  cases o with
  | lost => exact ⟨⟨_, rfl⟩, told.toHolds, told.running, told.idle, told.far⟩
  | confirmed | rejected | timedOut =>
    rw [if_neg (by decide)]
    dsimp only
    rw [awaited]
    exact ⟨rfl, after⟩

/-- The steps of a plan come out as the script says. -/
theorem Rests.results {plan : List Bytes} (rests : Rests s script) (pos : 0 < s.config.ackTimeout)
    (length : script.length = plan.length) :
    List.Forall₂ (Session.Outcome.Describes s.config.ackTimeout) script
      (Session.results plan s) := by
  induction plan generalizing s script with
  | nil =>
    rw [List.eq_nil_of_length_eq_zero length]
    exact .nil
  | cons payload rest ih =>
    obtain ⟨o, script, rfl⟩ := List.exists_cons_of_length_eq_add_one length
    obtain ⟨describes, rests⟩ := rests.sendTerminated pos payload
    have config := Session.config_sendTerminated payload s
    refine .cons describes ?_
    rw [← config] at pos ⊢
    exact ih rests pos (Nat.succ.inj length)

theorem rests_attach (script : List Session.Outcome) :
    Rests (.attach "" {} ⟨⟨script, []⟩, []⟩) script := by
  unfold Session.attach Link.connect
  rw [exchange_eq rfl]
  exact ⟨⟨rfl, rfl⟩, rfl, rfl, rfl⟩

/-- Whatever the outcomes, there is a session in which the steps of a plan come out so. -/
theorem exists_results (plan : List Bytes) (script : Nat → Session.Outcome) :
    ∃ s : Session (Recorded Scripted),
      List.Forall₂ (Session.Outcome.Describes s.config.ackTimeout)
        ((List.range plan.length).map script) (Session.results plan s) :=
  ⟨.attach "" {} ⟨⟨(List.range plan.length).map script, []⟩, []⟩,
    (rests_attach _).results (show 0 < seconds 10 by decide)
      (by rw [List.length_map, List.length_range])⟩

end Scripted

/-! ## How far a set-up comes -/

namespace SetUp

theorem write_ne_encode (r : ConfigRecord) : Utf8.ofString "write" ≠ Wire.encode r := fun same =>
  absurd (congrArg List.head? same) (show some 0x77 ≠ some configStart by decide)

theorem write_not_mem_change (r : ConfigRecord) : Utf8.ofString "write" ∉ change r := by
  intro mem
  simp only [change, List.mem_cons, write_ne_encode r, List.not_mem_nil, or_false, false_or] at mem
  revert mem
  decide

/-- What a module is told is never to store it. -/
theorem write_not_mem_telling (u : SetUp) : Utf8.ofString "write" ∉ u.telling := by
  cases u with
  | config c =>
    intro mem
    rcases List.mem_append.mp mem with mem | mem
    · rcases List.mem_cons.mp mem with start | mem
      · exact absurd start (by decide)
      · obtain ⟨r, -, same⟩ := List.mem_map.mp mem
        exact write_ne_encode r same.symm
    · exact absurd mem (by decide)
  | address a => exact write_not_mem_change (.address a)
  | deviceId d => exact write_not_mem_change (.deviceId d)
  | baud b => exact write_not_mem_change (.baud b)

variable {σ : Type} [FarEnd σ]

/-- A module is told to store what it heard just if that is asked for and all of it is confirmed. -/
theorem write_mem_reached_iff (u : SetUp) (persist : Bool) (s : Session σ) :
    Utf8.ofString "write" ∈ Session.reached (u.steps persist) s ↔
      persist = true ∧ ∀ r ∈ (Session.results (u.steps persist) s).dropLast, r = .ok () := by
  cases persist with
  | true =>
    exact (Session.mem_reached_concat u.write_not_mem_telling s).trans (and_iff_right rfl).symm
  | false =>
    refine iff_of_false (fun mem => u.write_not_mem_telling ?_) nofun
    have mem := List.mem_of_mem_take mem
    rwa [steps, if_neg nofun, List.append_nil] at mem

/-- A module is set up step by step up to the first step that is not confirmed, and that one
decides: a step is confirmed, rejected or not answered in time, or the link is lost. So a module is
told to store what it heard just if all of it is confirmed. Every script of outcomes is played by a
session. -/
theorem perform_stops (u : SetUp) (persist : Bool) :
    (∀ {σ : Type} [FarEnd σ] (s : Session (Recorded σ)),
      (∃ script : List Session.Outcome,
        List.Forall₂ (Session.Outcome.Describes s.config.ackTimeout) script
          (Session.results (u.steps persist) s)) ∧
      (u.perform persist s).1 =
        ((Session.results (u.steps persist) s).find? (!·.isOk)).getD (.ok ()) ∧
      (u.perform persist s).2.handed =
        s.handed ++ (Session.reached (u.steps persist) s).map (· ++ terminator) ∧
      (Utf8.ofString "write" ∈ Session.reached (u.steps persist) s ↔
        persist = true ∧ ∀ r ∈ (Session.results (u.steps persist) s).dropLast, r = .ok ())) ∧
    ∀ script : Nat → Session.Outcome, ∃ s : Session (Recorded Scripted),
      List.Forall₂ (Session.Outcome.Describes s.config.ackTimeout)
        ((List.range (u.steps persist).length).map script)
        (Session.results (u.steps persist) s) := by
  refine ⟨fun {σ} _ s => ⟨Session.exists_script (u.steps persist) s, ?_⟩,
    Scripted.exists_results (u.steps persist)⟩
  rw [u.perform_eq persist]
  obtain ⟨result, handed⟩ := Session.sendPlan_reached (u.steps persist) s
  exact ⟨result, handed, u.write_mem_reached_iff persist s⟩

end SetUp

/-! ## What the program plans -/

namespace CommandLine.Serve

/-- These payloads set a module up as a task says, or have it print its set-up. -/
def Task.Plans (files : String → Settings.File) (payloads : List Bytes) : Task → Prop
  | .configure file address persist => ∃ c, description file (files file) address = .ok c ∧
      payloads = (SetUp.config c).steps persist
  | .setAddress address persist => payloads = (SetUp.address address).steps persist
  | .setDeviceId deviceId persist => payloads = (SetUp.deviceId deviceId).steps persist
  | .setBaud bps persist => ∃ b, Baud.ofBps bps = .ok b ∧ payloads = (SetUp.baud b).steps persist
  | .printConfig => payloads = [Utf8.ofString "read", Utf8.ofString "print"]
  | .relay .. | .initConfig _ => False

theorem setUpJob_eq_ok {s : Settings} {front payloads : List Bytes} {persist : Bool}
    {target : Attachment} (h : setUpJob s front persist = .ok (.setUp target payloads)) :
    payloads = front ++ if persist then [Utf8.ofString "write"] else [] := by
  obtain ⟨attached, -, made⟩ := except_bind_eq_ok.mp h
  cases made
  rfl

theorem relayJob_ne_setUp {s : Settings} {address : Option IpAddress} {port : Option UInt16}
    {scan : Bool} {target : Attachment} {payloads : List Bytes} :
    relayJob s address port scan ≠ .ok (.setUp target payloads) := by
  intro h
  obtain ⟨config, -, h⟩ := except_bind_eq_ok.mp h
  dsimp only at h
  split at h <;>
  · obtain ⟨scan, -, h⟩ := except_bind_eq_ok.mp h
    obtain ⟨attached, -, made⟩ := except_bind_eq_ok.mp h
    cases made

/-- The program has no other plans for a module than these. -/
theorem plan_setUp {i : Invocation} {files : String → Settings.File} {target : Attachment}
    {payloads : List Bytes} (h : plan i files = .ok (.setUp target payloads)) :
    i.task.Plans files payloads := by
  obtain ⟨settings, -, h⟩ := except_bind_eq_ok.mp h
  cases task : i.task with
  | relay address port scan =>
    rw [task] at h
    exact relayJob_ne_setUp h
  | configure file address persist =>
    rw [task] at h
    obtain ⟨c, described, h⟩ := except_bind_eq_ok.mp h
    refine ⟨c, described, (setUpJob_eq_ok h).trans ?_⟩
    exact congrArg (· ++ _) (List.append_nil _)
  | setAddress address persist | setDeviceId deviceId persist =>
    rw [task] at h
    exact setUpJob_eq_ok h
  | setBaud bps persist =>
    rw [task] at h
    obtain ⟨b, is_baud, h⟩ := except_bind_eq_ok.mp h
    refine ⟨b, ?_, setUpJob_eq_ok h⟩
    revert is_baud
    cases Baud.ofBps bps with
    | error e => nofun
    | ok b' =>
      intro same
      cases same
      rfl
  | printConfig =>
    rw [task] at h
    exact setUpJob_eq_ok h
  | initConfig path =>
    rw [task] at h
    cases h

end CommandLine.Serve

end LightLink
