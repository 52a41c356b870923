import Magicicada.Lifecycle
import Magicicada.Producing

/-!
What `start` of a client-side request does, when `_start` sends one message or raises.
-/

namespace Magicicada.Client

open Pb Errors Requests Prog

/-! ### Sending -/

/-- The messages of `_start` are sent where the id fits its field. -/
lemma sendMessages_run {r : ℕ} {i : ℤ} (hi : int32 i = true) (messages : List Message) :
    ∀ w : World, (w.objs r).id = some i →
      ∃ t, (messages.forM (Request.sendMessage r)).run w = .ok ⟨⟩ t ∧ t.core = w.core := by
  induction messages with
  | nil => exact fun w _ => ⟨w, rfl, rfl⟩
  | cons m messages ih =>
    intro w hw
    have hcore := core_sendMessage { m with id := i } w
    have hid := (obj_of_ledger (ledger_of_core hcore) r).1.trans hw
    obtain ⟨t, ht, htc⟩ := ih _ hid
    refine ⟨t, ?_, htc.trans hcore⟩
    have hsend : (Request.sendMessage r m).run w = .ok ⟨⟩ (sendMessage { m with id := i } w) := by
      simp [Request.sendMessage, hw, hi]
    exact (run_bind_ok hsend).trans ht

variable {w : World} {r r' : ℕ} {m : Message}

/-- The state once `_start` has sent its message. -/
def World.begin (w : World) (r : ℕ) (m : Message) : World :=
  (sendMessage { m with id := w.requestCounter } (w.enroll r)).setObj r
    fun q => { q with kind := q.kind.started }

/-- **`start` of a request with one message** registers it and sends the message with its id. -/
lemma start_begin (hw : Registry w) (hid : (w.objs r).id = none) (hsrc : (w.objs r).source = none)
    (harg : (w.objs r).argError = none) (hm : (w.objs r).kind.startMessages = .ok [m])
    (hi : int32 w.requestCounter = true) :
    (start r).run w = (afterStart r (w.objs r).kind).run (w.begin r m) := by
  have hsend := sendMessage_run (w := w.enroll r) (r := r) (i := w.requestCounter) (by simp) hi m
  rw [start_run hw hid hsrc]
  unfold startExchange
  rw [run_get_bind]
  simp only [enroll_objs_self, harg, hm]
  exact run_bind_ok (run_bind_ok hsend)

lemma slows_begin (w : World) (r : ℕ) (m : Message) :
    Slows { w.enroll r with sent := w.sent ++ [{ m with id := w.requestCounter }] }
      (sendMessage { m with id := w.requestCounter } (w.enroll r)) :=
  slows_sendMessage _ _

lemma ledger_begin (w : World) (r : ℕ) (m : Message) :
    (w.begin r m).ledger = (w.enroll r).ledger :=
  (ledger_setKind _ r Kind.started).trans (ledger_of_core (slows_begin w r m).core)

lemma begin_requests (w : World) (r : ℕ) (m : Message) :
    (w.begin r m).requests = w.requests.set w.requestCounter r :=
  requests_of_ledger (ledger_begin w r m)

lemma begin_requestCounter (w : World) (r : ℕ) (m : Message) :
    (w.begin r m).requestCounter = w.requestCounter + 2 :=
  congrArg World.requestCounter (ledger_begin w r m)

lemma begin_sent (w : World) (r : ℕ) (m : Message) :
    (w.begin r m).sent = w.sent ++ [{ m with id := w.requestCounter }] := (slows_begin w r m).sent

/-- What the other requests are told at most is to pause. -/
lemma begin_objs_of_ne (h : r' ≠ r) (m : Message) :
    { (w.begin r m).objs r' with producing := false } = { w.objs r' with producing := false } := by
  have hobj := objs_of_core (slows_begin w r m).core r'
  unfold World.begin
  rw [setObj_objs_of_ne h, hobj]
  show { (w.enroll r).objs r' with producing := false } = _
  rw [enroll_objs_of_ne h]

/-- A request that was begun has its id, and else only other attributes of its class. -/
lemma begin_objs_self (w : World) (r : ℕ) (m : Message) :
    { (w.begin r m).objs r with producing := false } = { w.objs r with
      kind := (w.objs r).kind.started, id := some w.requestCounter, started := true,
      producing := false } := by
  have hobj := objs_of_core (slows_begin w r m).core r
  have hself : { (w.enroll r).objs r with producing := false } = { w.objs r with
      id := some w.requestCounter, started := true, producing := false } := by
    rw [enroll_objs_self]
  have hsent := hobj.trans hself
  have hkind := congrArg Request.kind hsent
  unfold World.begin
  rw [setObj_objs_self]
  simp only at hkind
  rw [hkind]
  exact congrArg (fun q : Request => { q with kind := (w.objs r).kind.started }) hsent

lemma Registry.begin (hw : Registry w) (hid : (w.objs r).id = none) (m : Message) :
    Registry (w.begin r m) := (hw.enroll hid).of_ledger (ledger_begin w r m)

end Magicicada.Client
