import Mathlib.Data.List.Basic
import LightLink.Proofs.Session.Requests
import LightLink.Session.StandIn

/-!
# The order in which a session takes frames

Whatever is requested, and whatever happens to the link meanwhile, frames are taken in the order in
which they have come and none of them twice; so what is taken after an `ok` has come after it.

* `Session.Happening`: a request, or what happens to a session meanwhile;
* `Session.course_happened`: what any number of requests take in and take out;
* `Session.entries_of_queries`: where nothing had to make way in a run, nothing had to in any
  request;
* `Session.queries_inOrder`: what is taken in a whole run.
-/

namespace LightLink.Session

variable {σ : Type} [FarEnd σ]

/-! ## Runs -/

/-- A request, or what happens to a session meanwhile. -/
inductive Happening (σ : Type) where
  | request (r : Request)
  | pass (time : Nat)
  /-- The far end does something of its own accord. -/
  | act (f : σ → σ)

namespace Happening

/-- The session after it. -/
def next (s : Session σ) : Happening σ → Session σ
  | request r => (r.perform s).2
  | pass time => { s with link := s.link.pass time }
  | act f => s.act f

/-- The request that is made, if it is one. -/
def queries (s : Session σ) : Happening σ → List (Query σ)
  | request r => [⟨s, r⟩]
  | _ => []

/-- The readings that are taken in meanwhile. -/
def read (s : Session σ) : Happening σ → List (Nat × Reading)
  | request r => Query.read ⟨s, r⟩
  | pass time => s.link.readSince (s.link.pass time)
  | act f => (Link.fetched { s.link with far := f s.link.far }).readSince (s.act f).link

theorem course (s : Session σ) (h : Happening σ) :
    s.reader.Course (h.read s) ((h.queries s).flatMap Query.taken) (h.next s).reader ∧
      (h.next s).lastReceived =
        (((h.queries s).flatMap Query.taken).getLast?.map Arrival.time).or s.lastReceived := by
  cases h with
  | request r =>
    show s.reader.Course _ ([Query.mk s r].flatMap Query.taken) _ ∧ _ =
      (([Query.mk s r].flatMap Query.taken).getLast?.map Arrival.time).or _
    rw [List.flatMap_singleton]
    exact Query.course ⟨s, r⟩
  | pass time => exact ⟨(s.link.takes_pass time).course, rfl⟩
  | act f => exact ⟨(Link.takes_settle (.fetched { s.link with far := f s.link.far })).course, rfl⟩

end Happening

/-- The session after what has happened. -/
def happened (s : Session σ) (hs : List (Happening σ)) : Session σ := hs.foldl Happening.next s

/-- The requests that are made. -/
def queries (s : Session σ) : List (Happening σ) → List (Query σ)
  | [] => []
  | h :: hs => h.queries s ++ queries (h.next s) hs

/-- The readings that are taken in. -/
def read (s : Session σ) : List (Happening σ) → List (Nat × Reading)
  | [] => []
  | h :: hs => h.read s ++ read (h.next s) hs

/-- The requests before one of them, that one, and those behind it. -/
theorem queries_split (s : Session σ) (hs : List (Happening σ)) (r : Request)
    (hs' : List (Happening σ)) : s.queries (hs ++ .request r :: hs') =
      s.queries hs ++ ⟨s.happened hs, r⟩ :: (Query.mk (s.happened hs) r).after.queries hs' := by
  induction hs generalizing s with
  | nil => rfl
  | cons h hs ih =>
    rw [List.cons_append, queries, ih, queries, List.append_assoc]
    rfl

theorem mem_queries (s : Session σ) (hs : List (Happening σ)) (r : Request)
    (hs' : List (Happening σ)) : ⟨s.happened hs, r⟩ ∈ s.queries (hs ++ .request r :: hs') := by
  rw [queries_split]
  exact List.mem_append_right _ (.head _)

/-- What any number of requests take in and take out. -/
theorem course_happened (s : Session σ) (hs : List (Happening σ)) :
    s.reader.Course (s.read hs) ((s.queries hs).flatMap Query.taken) (s.happened hs).reader ∧
      (s.happened hs).lastReceived =
        (((s.queries hs).flatMap Query.taken).getLast?.map Arrival.time).or s.lastReceived := by
  induction hs generalizing s with
  | nil => exact ⟨.refl _, rfl⟩
  | cons h hs ih =>
    obtain ⟨course, last⟩ := h.course s
    obtain ⟨course', last'⟩ := ih (h.next s)
    rw [queries, List.flatMap_append]
    refine ⟨course.trans course', ?_⟩
    rw [or_getLast?_append, ← last]
    exact last'

/-- Where nothing has left the ring in a run but what was taken, that holds of every request. -/
theorem entries_of_queries {s : Session σ} (counted : s.reader.Counted) {hs : List (Happening σ)}
    (gone : (s.happened hs).reader.gone =
      s.reader.gone + ((s.queries hs).flatMap Query.taken).length) :
    ∀ q ∈ s.queries hs,
      q.before.reader.ring.toList ++ q.arrived = q.taken ++ q.after.reader.ring.toList := by
  induction hs generalizing s with
  | nil => nofun
  | cons h hs ih =>
    have course := (h.course s).1
    have le := course.gone_le counted
    have le' := ((h.next s).course_happened hs).1.gone_le (course.counted counted)
    have gone' : ((h.next s).happened hs).reader.gone = s.reader.gone +
        ((h.queries s).flatMap Query.taken ++
          ((h.next s).queries hs).flatMap Query.taken).length := by
      rw [← List.flatMap_append]
      exact gone
    rw [List.length_append] at gone'
    intro q mem
    rcases List.mem_append.mp mem with first | later
    · cases h with
      | request r =>
        obtain rfl := List.mem_singleton.mp first
        have entries := course.entries counted (by omega)
        rw [Happening.queries, List.flatMap_singleton] at entries
        exact entries
      | _ => cases first
    · exact ih (course.counted counted) (by omega) q later

/-- The readings that are taken in when a session is set up. -/
def opening (config : SessionConfig) (far : σ) : List (Nat × Reading) :=
  let l : Link σ := .fetched ⟨0, .start config.capacity, [], far⟩
  l.readSince l.settle

/-- The frames that have come in a run since the session was set up. -/
def arrived (name : String) (config : SessionConfig) (far : σ) (hs : List (Happening σ)) :
    List Arrival :=
  Assembler.arrivals (some .idle) (opening config far ++ (attach name config far).read hs)

theorem course_attach (name : String) (config : SessionConfig) (far : σ)
    (hs : List (Happening σ)) :
    (Reader.start config.capacity).Course (opening config far ++ (attach name config far).read hs)
      (((attach name config far).queries hs).flatMap Query.taken)
      ((attach name config far).happened hs).reader :=
  (Link.takes_settle (.fetched ⟨0, .start config.capacity, [], far⟩)).course.trans
    (course_happened (attach name config far) hs).1

/-- Whatever is requested of a session and whatever happens to it meanwhile, frames are taken in the
order in which they have come and none of them twice, and the session knows when the one had come
that was taken last. No request takes anything after the frame that decides it; one whose write
fails takes nothing, and neither does a message that cannot be encoded, which leaves the session and
its far end as they are. As long as nothing has left the ring but what was taken, and that is so
while there is room for all that comes, the frames that requests have taken are, one after the
other, the first of those that have come, and the others are in the ring; so what is taken after a
call has returned `ok` has come behind the `ok` that decided it. -/
theorem queries_inOrder (name : String) (config : SessionConfig) (far : σ)
    (hs : List (Happening σ)) :
    let s := (attach name config far).happened hs
    let qs := (attach name config far).queries hs
    let taken := qs.flatMap Query.taken
    let arrived := arrived name config far hs
    taken.Sublist arrived ∧ s.lastReceived = taken.getLast?.map Arrival.time ∧
    (∀ q ∈ qs, q.request.Settles q.taken q.result ∧
      (∀ payload cause, q.request.payload? = some payload →
        (FarEnd.write q.before.link.far q.before.link.now payload).1 = .error cause →
        q.taken = [] ∧ q.result = .error (.linkLost (.writeFailed q.before.name cause))) ∧
      ∀ m e, q.request = .sendMessage m → m.encode = .error e →
        q.taken = [] ∧ q.after = q.before ∧ q.result = .error (.protocol e)) ∧
    (arrived.length ≤ max config.capacity 1 → s.reader.gone = taken.length) ∧
    (s.reader.gone = taken.length →
      arrived = taken ++ s.reader.ring.toList ∧
      (∀ q ∈ qs, q.before.reader.ring.toList ++ q.arrived =
        q.taken ++ q.after.reader.ring.toList) ∧
      ∀ earlier q later, qs = earlier ++ q :: later → q.request.isSend = true →
        q.result = .ok none → ∃ front ok, ok.frame.isToken Token.ok = true ∧
          (earlier ++ [q]).flatMap Query.taken = front ++ [ok] ∧
          arrived = front ++ ok :: (later.flatMap Query.taken ++ s.reader.ring.toList) ∧
          ∀ p ∈ later, ∀ f, p.result = .ok (some f) → ∃ a ∈ p.taken, a.frame = f) := by
  have course := course_attach name config far hs
  have counted : (Reader.start config.capacity).Counted := Nat.zero_le _
  have none_gone : (Reader.start config.capacity).gone = 0 := rfl
  refine ⟨course.sublist, ?_, fun q _ => ⟨q.settled, fun _ _ => q.taken_of_write_error,
    fun _ _ => q.after_of_encode_error⟩, fun room => ?_, fun gone => ?_⟩
  · exact ((course_happened (attach name config far) hs).2).trans (Option.or_none ..)
  · have gone := course.gone_eq counted (Nat.le_trans (Nat.le_of_eq (Nat.zero_add _)) room)
    rwa [none_gone, Nat.zero_add] at gone
  · have entries : arrived name config far hs = _ :=
      course.entries counted (by rw [none_gone, Nat.zero_add]; exact gone)
    refine ⟨entries, ?_, ?_⟩
    · have counted := counted_attach name config far
      have le := (course_happened (attach name config far) hs).1.gone_le counted
      exact entries_of_queries counted (by omega)
    · intro earlier q later qs send confirmed
      obtain ⟨front, ok, taken, is_ok⟩ := q.taken_of_confirmed send confirmed
      refine ⟨earlier.flatMap Query.taken ++ front, ok, is_ok, ?_, ?_, ?_⟩
      · rw [List.flatMap_append, List.flatMap_singleton, taken, List.append_assoc]
      · rw [entries, qs, List.flatMap_append, List.flatMap_cons, taken]
        simp only [List.append_assoc, List.cons_append, List.nil_append]
      · intro p _ f found
        obtain ⟨front, a, taken, frame⟩ := p.taken_of_found found
        exact ⟨a, by rw [taken]; simp, frame⟩

/-! ### A link that is cut off -/

/-- A message with more records than its header can count the bytes of. -/
def oversized : Message := ⟨1, ⟨0⟩, .dumpConfig (.replicate 62 (.address 1))⟩

/-- A line, a call that is confirmed, a line that is asked for, a message that is too long, and a
link that is cut off before another call. -/
def cutOff : List (Happening StandIn) :=
  [.act (·.sendLine "x"), .request (.send [0x78] false (millis 60)), .pass 5,
    .act (·.sendLine "y"), .request (.getMessage (millis 60)), .request (.sendMessage oversized),
    .act fun m => { m with unplugged := true }, .request (.send [0x79] true (millis 60))]

theorem arrived_cutOff : arrived "" {} ({} : StandIn) cutOff = [⟨⟨[0x78], false⟩, 0⟩,
    ⟨⟨[0x6F, 0x6B], false⟩, 0⟩, ⟨⟨[0x79], false⟩, 5⟩] := by decide +kernel

/-- What is asked for in such a run has come after the call was confirmed, and neither the message
nor the call at the end takes anything. -/
theorem queries_inOrder_cutOff :
    let s := attach "" {} ({} : StandIn)
    let sent : Query StandIn := ⟨s.happened (cutOff.take 1), .send [0x78] false (millis 60)⟩
    let behind := cutOff.drop 2
    let found : Query StandIn := ⟨sent.after.happened (behind.take 2), .getMessage (millis 60)⟩
    let tooLong : Query StandIn := ⟨s.happened (cutOff.take 5), .sendMessage oversized⟩
    let failed : Query StandIn := ⟨s.happened (cutOff.take 7), .send [0x79] true (millis 60)⟩
    tooLong.taken = [] ∧ tooLong.after = tooLong.before ∧ failed.taken = [] ∧
      (∃ a ∈ found.taken, a.frame = ⟨[0x79], false⟩) ∧
      ∃ front ok, ok.frame.isToken Token.ok = true ∧
        (s.queries (cutOff.take 1) ++ [sent]).flatMap Query.taken = front ++ [ok] ∧
        arrived "" {} ({} : StandIn) cutOff = front ++ ok ::
          ((sent.after.queries behind).flatMap Query.taken ++
            (s.happened cutOff).reader.ring.toList) := by
  intro s sent behind found tooLong failed
  obtain ⟨-, -, each, room, order⟩ := queries_inOrder "" {} ({} : StandIn) cutOff
  have unencodable : oversized.encode = .error (.oversizedPayload 256 255) := by decide +kernel
  have unplugged : (FarEnd.write failed.before.link.far failed.before.link.now
      (outgoing [0x79] true)).1 = .error StandIn.unpluggedFault := by decide +kernel
  have confirmed : sent.result = .ok none := by decide +kernel
  have returned : found.result = .ok (some ⟨[0x79], false⟩) := by decide +kernel
  obtain ⟨-, -, refused⟩ := each tooLong (s.mem_queries (cutOff.take 5) _ (cutOff.drop 6))
  obtain ⟨-, cut, -⟩ := each failed (s.mem_queries (cutOff.take 7) _ [])
  obtain ⟨none_taken, unchanged, -⟩ := refused _ _ rfl unencodable
  obtain ⟨-, -, fresh⟩ := order (room (by rw [arrived_cutOff]; decide))
  have split : s.queries cutOff =
      s.queries (cutOff.take 1) ++ sent :: sent.after.queries behind :=
    s.queries_split (cutOff.take 1) _ behind
  obtain ⟨front, ok, is_ok, taken, entries, later⟩ := fresh _ _ _ split rfl confirmed
  -- Otherwise the run would be evaluated to see that it is the same.
  have same : attach "" {} ({} : StandIn) = s := rfl
  rw [same] at entries
  exact ⟨none_taken, unchanged, (cut _ _ rfl unplugged).1,
    later found (sent.after.mem_queries (behind.take 2) _ (behind.drop 3)) _ returned,
    front, ok, is_ok, taken, entries⟩

end LightLink.Session
