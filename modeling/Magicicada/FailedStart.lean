import Magicicada.Starting

/-!
A `start` that raises: the request is registered before `_start` looks at its arguments.
-/

namespace Magicicada.Client

open Pb Errors Requests Prog

variable {w : World} {r : ℕ}

/-- If `start` raises, the registry, the registration with the transport and what was written are
as they were. -/
def Atomic (w : World) (r : ℕ) : Prop := ∀ e t, (start r).run w = .error e t →
  t.requests = w.requests ∧ t.transport.registered = w.transport.registered ∧
  t.sent = w.sent ∧ t.transport.writes = w.transport.writes

/-- The arguments that only `_start` looks at are valid. -/
def ValidArgs : Kind → Prop
  | .createShare q => (validAccessLevels q.accessLevel).isSome = true
  | .acceptShare q => (validAnswer q.answer).isSome = true
  | _ => True

/-- `_start` takes the arguments, and what it sends takes the next id. -/
structure Startable (w : World) (r : ℕ) : Prop where
  argError : (w.objs r).argError = none
  valid : ValidArgs (w.objs r).kind
  id : (w.objs r).kind = .other [] ∨ int32 w.requestCounter = true

/-- What `_start` sends, if it takes the arguments. -/
lemma startMessages_iff (k : Kind) (p : Prop) :
    (∃ messages, k.startMessages = .ok messages ∧ (messages = [] ∨ p)) ↔
      ValidArgs k ∧ (k = .other [] ∨ p) := by
  cases k with
  | createShare q =>
    cases h : validAccessLevels q.accessLevel <;>
      simp [Kind.startMessages, CreateShare.message, ValidArgs, h, Except.map]
  | acceptShare q =>
    cases h : validAnswer q.answer <;>
      simp [Kind.startMessages, AcceptShare.message, ValidArgs, h, Except.map]
  | _ => simp [Kind.startMessages, ValidArgs]

/-- A request is not in the registry before it is started, but is once it began. -/
lemma enroll_requests_ne (hw : Registry w) : (w.enroll r).requests ≠ w.requests := by
  intro h
  have hget : w.requests.get? w.requestCounter = some r := by rw [← h]; simp
  have hid := (hw.entry _ r hget).1
  have := (hw.ids r _ hid).2.1
  omega

lemma startExchange_returns {i : ℤ} (hw : Registered w r i) (harg : (w.objs r).argError = none)
    {messages : List Message} (hm : (w.objs r).kind.startMessages = .ok messages)
    (hi : messages = [] ∨ int32 i = true) : raised (startExchange r) w = none := by
  have hid := (hw.entry i r hw.get?).1
  have hsends : ∃ t, (messages.forM (Request.sendMessage r)).run w = .ok ⟨⟩ t ∧
      t.core = w.core := by
    rcases hi with rfl | hi
    · exact ⟨w, rfl, rfl⟩
    · exact sendMessages_run hi messages w hid
  obtain ⟨t, ht, hcore⟩ := hsends
  have hreg : Registered (t.setObj r fun q => { q with kind := q.kind.started }) r i :=
    (hw.of_core hcore).of_ledger (ledger_setKind t r Kind.started)
  have hrun : (startExchange r).run w = (afterStart r (w.objs r).kind).run
      (t.setObj r fun q => { q with kind := q.kind.started }) := by
    unfold startExchange
    rw [run_get_bind]
    simp only [harg, hm]
    exact run_bind_ok ht
  have hraised : raised (startExchange r) w = raised (afterStart r (w.objs r).kind)
      (t.setObj r fun q => { q with kind := q.kind.started }) := by
    unfold raised
    rw [hrun]
  rw [hraised]
  unfold afterStart
  split
  · exact raised_of_ok (settle_run hreg.toRegistry hreg.get? .callback)
  · rfl

/-- Where `_start` does not take the arguments, or the id does not fit its field, it raises before
anything is sent. -/
lemma startExchange_raises {i : ℤ} (hid : (w.objs r).id = some i)
    (h : ¬((w.objs r).argError = none ∧ ∃ messages,
      (w.objs r).kind.startMessages = .ok messages ∧ (messages = [] ∨ int32 i = true))) :
    ∃ e, (startExchange r).run w = .error e w := by
  unfold startExchange
  rw [run_get_bind]
  cases harg : (w.objs r).argError with
  | some e => exact ⟨e, by simp only [harg]; rfl⟩
  | none =>
    cases hm : (w.objs r).kind.startMessages with
    | error e => exact ⟨e, by simp only [harg, hm]; rfl⟩
    | ok messages =>
      have hne : ¬(messages = [] ∨ int32 i = true) := fun hi => h ⟨harg, messages, hm, hi⟩
      obtain ⟨hcons, hi⟩ := not_or.mp hne
      obtain ⟨m, ms, rfl⟩ := List.exists_cons_of_ne_nil hcons
      obtain ⟨e, he⟩ := sendMessage_raises (w := w) (r := r) (fun j hj => by
        obtain rfl : i = j := Option.some.inj (hid.symm.trans hj)
        exact Bool.eq_false_of_not_eq_true hi) m
      refine ⟨e, ?_⟩
      simp only [harg, hm]
      exact run_bind_error (run_bind_error he)

/-- **A `start` leaves the handler as it was if it raises** exactly when it does not raise, which
is when `_start` takes the arguments and the id fits its field. -/
theorem atomic_iff (hw : Reachable w) (hid : (w.objs r).id = none)
    (hsrc : (w.objs r).source = none) : Atomic w r ↔ Startable w r := by
  have hreg := hw.registry
  have hrun := start_run hreg hid hsrc
  have hself : ((w.enroll r).objs r).argError = (w.objs r).argError ∧
      ((w.enroll r).objs r).kind = (w.objs r).kind := by simp
  constructor
  · intro hatomic
    by_contra hstart
    obtain ⟨e, he⟩ := startExchange_raises (w := w.enroll r) (r := r) (i := w.requestCounter)
      (by simp) fun ⟨harg, hmessages⟩ => hstart (by
        rw [hself.1] at harg
        rw [hself.2, startMessages_iff] at hmessages
        exact ⟨harg, hmessages.1, hmessages.2⟩)
    exact enroll_requests_ne hreg (hatomic e _ (hrun.trans he)).1
  · rintro ⟨harg, hvalid, hfits⟩ e t ht
    obtain ⟨messages, hm, hi⟩ := (startMessages_iff _ _).mpr ⟨hvalid, hfits⟩
    have hreturns := startExchange_returns (w := w.enroll r) (i := w.requestCounter)
      ⟨hreg.enroll hid, by simp⟩ (hself.1.trans harg) (by rw [hself.2, hm]) hi
    rw [hrun] at ht
    exact absurd hreturns (raised_ne_none ht)

/-- A client that is to create a share. -/
def sharing (level : String) : World :=
  World.init (fun _ => .createShare {
      node := "n", shareTo := "u", name := "s", accessLevel := level })
    fun _ => ⟨fun _ => .ok [], []⟩

lemma reachable_sharing (level : String) : Reachable (sharing level) :=
  ⟨sharing level, [], initial_init _ _, trivial, rfl⟩

/-- A share with an access level there is not stays registered. -/
theorem not_atomic : ¬∀ (w : World) (r : ℕ), Reachable w → (w.objs r).id = none →
    (w.objs r).source = none → Atomic w r := by
  intro h
  have hatomic := h (sharing "Write") 0 (reachable_sharing _) rfl rfl
  obtain ⟨e, he⟩ := startExchange_raises (w := (sharing "Write").enroll 0) (r := 0) (i := 1) rfl
    (by rintro ⟨-, messages, hm, -⟩; exact nomatch hm)
  have hrun := start_run (reachable_sharing "Write").registry (r := 0) rfl rfl
  exact enroll_requests_ne (reachable_sharing "Write").registry (hatomic e _ (hrun.trans he)).1

/-- An access level there is. -/
theorem atomic_iff_view : Atomic (sharing "View") 0 :=
  (atomic_iff (reachable_sharing "View") rfl rfl).mpr ⟨rfl, rfl, Or.inr rfl⟩

end Magicicada.Client
