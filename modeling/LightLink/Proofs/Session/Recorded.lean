import LightLink.Proofs.Session.Written

/-!
# What a session hands to its link

A call that sends hands one payload to the link, whatever comes of it: the write may fail, the
module may refuse it or say nothing. A record of the payloads changes nothing about the far end for
which it is kept, so what is proved of a recorded far end is proved of any.

* `Recorded`: a far end with a record of what it was handed;
* `Session.handed`: what a session has handed to its link;
* `Session.handed_sendAndConfirm`: a call that sends hands over its payload, and waits hand over
  nothing (`Session.handed_awaitUntil`).
-/

namespace LightLink

/-- A far end and a record of all that was written to it, also where the write failed. -/
structure Recorded (σ : Type) where
  far : σ
  handed : List Bytes := []

instance {σ : Type} [FarEnd σ] : FarEnd (Recorded σ) where
  write r now bytes :=
    let (outcome, far) := FarEnd.write r.far now bytes
    (outcome, ⟨far, r.handed ++ [bytes]⟩)
  send r :=
    let (sent, far) := FarEnd.send r.far
    (sent, { r with far })

namespace Session

variable {σ α : Type}

/-- What a session has handed to its link, first one first. -/
def handed (s : Session (Recorded σ)) : List Bytes := s.link.far.handed

theorem handed_awaitUntil (deadline poll : Nat) (verdict : Frame → Option α)
    (s : Session (Recorded σ)) : (awaitUntil deadline poll verdict s).2.handed = s.handed :=
  congrArg Recorded.handed (far_awaitUntil deadline poll verdict s)

theorem handed_getDataMessage (wait : Nat) (s : Session (Recorded σ)) :
    (getDataMessage wait s).2.handed = s.handed := by
  rw [getDataMessage_eq, handed_awaitUntil]

variable [FarEnd σ]

theorem handed_write (bytes : Bytes) (s : Session (Recorded σ)) :
    (write bytes s).2.handed = s.handed ++ [bytes] := by
  unfold handed
  rw [link_write]
  rfl

/-- A call hands over its payload, whatever comes of it. -/
theorem handed_sendAndConfirm (payload : Bytes) (terminated : Bool) (timeout : Nat)
    (s : Session (Recorded σ)) : (sendAndConfirm payload terminated timeout s).2.handed =
      s.handed ++ [outgoing payload terminated] := by
  have handed := handed_write (outgoing payload terminated) s
  rw [sendAndConfirm_eq]
  generalize write (outgoing payload terminated) s = written at handed ⊢
  obtain ⟨e | _, s'⟩ := written
  · exact handed
  · dsimp only
    rw [confirmed_snd, handed_awaitUntil]
    exact handed

theorem handed_sendTerminated (payload : Bytes) (s : Session (Recorded σ)) :
    (sendTerminated payload s).2.handed = s.handed ++ [outgoing payload true] :=
  handed_sendAndConfirm payload true s.config.ackTimeout s

end Session

end LightLink
