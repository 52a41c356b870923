import Magicicada.Events

/-!
Messages that are not valid. A handler with a log answers such a message with an `ERROR`, and one
without raises; no request is told of it either way.
-/

namespace Magicicada.Client

open Pb Errors Requests Prog

variable {T : Terms} {w : World} {e : Event}

/-- The events of a run of client-side requests, whose messages need not be valid. -/
def AdmitsAny (w : World) : Event → Prop
  | .start r => (w.objs r).id = none ∧ (w.objs r).source = none
  | .done r | .error r _ => (w.objs r).started = true
  | _ => True

/-- The event is a message that is not valid. -/
def Rejected : Event → Prop
  | .message m _ => validateMessage m ≠ []
  | _ => False

lemma AdmitsAny.admits (he : AdmitsAny w e) (h : ¬Rejected e) : Admits w e := by
  cases e with
  | message m raises => exact not_not.mp h
  | _ => exact he

/-- A rejected message is logged and answered at most. -/
lemma along_rejected {R : World → World → Prop} [IsPreorder World R] (h : Rejected e)
    (hlogged : ∀ (w : World) l, R w { w with logged := l })
    (hsend : ∀ m w, m.type = .error → R w (sendMessage m w)) (w : World) : R w (w.step e) := by
  cases e with
  | message m raises =>
    show R w (after (processMessage m raises) w)
    unfold processMessage
    rw [if_pos (show validateMessage m ≠ [] from h)]
    exact along_reject hlogged hsend w
  | _ => cases h

lemma ledger_rejected (h : Rejected e) (w : World) : (w.step e).ledger = w.ledger :=
  along_rejected (R := Frame World.ledger) h (fun _ _ => rfl)
    (fun m w _ => ledger_of_core (core_sendMessage m w)) w

lemma acts_rejected (h : Rejected e) (w : World) : Acts T w (w.step e) :=
  along_rejected h (fun _ _ => .single (.still ⟨rfl, rfl, rfl, rfl, rfl, rfl, fun _ => id⟩))
    (fun _ _ htype => .single (.send _ fun _ hm => by
      rcases hm with hm | hm <;> rw [htype] at hm <;> cases hm)) w

/-- **Every event is a number of moves**, also a message that is not valid. -/
lemma Registry.movesAny (hw : Registry w) (he : AdmitsAny w e) : Moves w (w.step e) := by
  by_cases h : Rejected e
  · exact .quiet (ledger_rejected h w)
  · exact hw.moves (he.admits h)

lemma Registry.stepAny (hw : Registry w) (he : AdmitsAny w e) : Registry (w.step e) :=
  hw.of_moves (hw.movesAny he)

end Magicicada.Client
