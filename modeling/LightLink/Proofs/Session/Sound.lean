import LightLink.Proofs.Frame.WellFormed
import LightLink.Proofs.Session.Kept

/-!
# Frames that a session finds

A reader cuts nothing but well-formed frames off, so a session finds no others, whatever its far end
sends and whatever was done with it before.

* `Reader.Sound`: what a reader holds at any time;
* `Session.packet_of_getDataMessage`: what a request for data finds.
-/

namespace LightLink

/-! ## Readers -/

/-- What has come of a frame may go on, and the frames in the ring are well formed. -/
structure Reader.Sound (r : Reader) : Prop where
  assembler : r.assembler.Sound
  frames : ∀ a ∈ r.ring.toList, a.frame.WellFormed

theorem Ring.mem_put {α : Type} {r : Ring α} {a b : α} (h : b ∈ (r.put a).1.toList) :
    b ∈ r.toList ∨ b = a := by
  have mem : b ∈ (r.put a).2.toList ++ (r.put a).1.toList := List.mem_append_right _ h
  rwa [toList_put, List.mem_append, List.mem_singleton] at mem

namespace Reader

theorem sound_start (capacity : Nat) : (start capacity).Sound := ⟨Assembler.sound_idle, nofun⟩

namespace Sound

variable {r : Reader} (sound : r.Sound)

include sound

theorem keep {fs : List Frame} (h : ∀ f ∈ fs, f.WellFormed) (time : Nat) :
    (r.keep time fs).Sound := by
  induction fs generalizing r with
  | nil => exact sound
  | cons f fs ih =>
    refine ih ⟨sound.assembler, fun a mem => ?_⟩ fun f mem => h f (.tail _ mem)
    rcases Ring.mem_put mem with before | rfl
    · exact sound.frames a before
    · exact h f (.head _)

theorem read (time : Nat) (x : Reading) : (r.read time x).Sound := by
  unfold Reader.read
  split
  · exact sound
  · cases x with
    | chunk bytes =>
      obtain ⟨assembler, wellFormed⟩ := sound.assembler.feed bytes
      exact keep (r := { r with assembler := (r.assembler.feed bytes).1 })
        ⟨assembler, sound.frames⟩ wellFormed time
    | pause => exact ⟨Assembler.sound_idle, sound.frames⟩
    | failure => exact ⟨sound.assembler, sound.frames⟩

theorem take : r.take.2.Sound :=
  ⟨sound.assembler, fun a mem => sound.frames a (List.mem_of_mem_tail mem)⟩

end Sound

theorem kept_sound : Kept Sound := ⟨fun sound => sound.read, fun sound => sound.take⟩

end Reader

/-! ## Sessions -/

namespace Session

variable {σ α : Type} {s s' : Session σ}

/-- A session's reader is sound. -/
def Sound (s : Session σ) : Prop := s.link.reader.Sound

/-- A session is sound whatever has been done with it. -/
theorem sound_after [FarEnd σ] (name : String) (config : SessionConfig) (far : σ)
    (events : List (Event σ)) : ((attach name config far).after events).Sound :=
  Reader.kept_sound.after name config far (Reader.sound_start _) events

namespace Sound

variable (sound : s.Sound)

include sound

/-- A look finds nothing but a well-formed frame. -/
theorem wellFormed_of_getMessage {wait : Nat} {f : Frame}
    (h : getMessage wait s = (.ok (some f), s')) : f.WellFormed := by
  obtain ⟨a, taken, rfl⟩ := take_of_getMessage h
  have awaited : (s.link.await (s.patience wait)).reader.Sound := Reader.kept_sound.await sound _
  have is_first : (s.link.await (s.patience wait)).reader.ring.toList.head? = some a :=
    congrArg Prod.fst taken
  exact awaited.frames a (List.mem_of_head? is_first)

/-- A wait is decided by nothing but a well-formed frame. -/
theorem wellFormed_of_awaitUntil {deadline poll : Nat} {verdict : Frame → Option α} {v : α}
    (h : awaitUntil deadline poll verdict s = (.ok (some v), s')) :
    ∃ f : Frame, f.WellFormed ∧ verdict f = some v := by
  obtain ⟨t, t', wait, f, sound, looked, decided⟩ := look_of_awaitUntil (P := Sound)
    (fun _ wait sound => Reader.kept_sound.getMessage sound wait) sound h
  exact ⟨f, sound.wellFormed_of_getMessage looked, decided⟩

/-- A request for data finds nothing but messages that are as long as they declare. -/
theorem packet_of_getDataMessage {wait : Nat} {f : Frame}
    (h : getDataMessage wait s = (.ok (some f), s')) : ∃ p : Packet, f = p.frame := by
  rw [getDataMessage_eq] at h
  obtain ⟨g, wellFormed, is_data⟩ := sound.wellFormed_of_awaitUntil h
  unfold Frame.data? at is_data
  split at is_data
  · rename_i binary
    obtain rfl := Option.some.inj is_data
    exact wellFormed.packet binary
  · cases is_data

end Sound

end Session

end LightLink
