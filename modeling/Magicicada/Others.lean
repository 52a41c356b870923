import Magicicada.Demux
import Magicicada.Rejecting

/-!
What an event leaves of a request that it is not about.

Everything a request has of its own is changed by the events about it alone; only the flag that
says whether it is producing is also set by the handler.
-/

namespace Magicicada.Client

open Pb Errors Requests Prog

/-- A request but for its producing flag. -/
def World.self (r : ℕ) (w : World) : Request := { w.objs r with producing := false }

variable {r r' : ℕ} {s t w : World} {i : ℤ}

lemma self_of_core (h : t.core = s.core) (r : ℕ) : t.self r = s.self r := objs_of_core h r

lemma self_of_objs (h : t.objs r = s.objs r) : t.self r = s.self r :=
  congrArg (fun q : Request => { q with producing := false }) h

lemma self_setObj_of_ne (h : r ≠ r') (w : World) (f : Request → Request) :
    (w.setObj r' f).self r = w.self r := self_of_objs (setObj_objs_of_ne h f)

lemma self_finish_of_ne (h : r ≠ r') (w : World) (i : ℤ) (o : Outcome) :
    (w.finish r' i o).self r = w.self r := self_of_objs (finish_objs_of_ne h i o)

lemma frame_self {α : Type} {x : M α} (h : Within (Frame World.core) x) (r : ℕ) :
    Within (Frame (World.self r)) x := h.mono fun _ _ hcore => self_of_core hcore r

/-! ### What acts on another request -/

lemma self_settle (h : r ≠ r') (o : Outcome) :
    Within (Frame (World.self r)) (Request.settle r' o) := by
  have hfault : ∀ f, Within (Frame (World.self r)) (fault f) := fun _ => within_modify fun _ => rfl
  exact along_settle (along_cleanup (fun w => self_setObj_of_ne h w _) (fun _ _ => rfl)
    (fun _ _ => rfl) hfault) hfault fun w => self_setObj_of_ne h w _

lemma self_cancel (h : r ≠ r') : Within (Frame (World.self r)) (Request.cancel r') :=
  along_cancel (fun w => self_setObj_of_ne h w _) (frame_self (frame_customCancel r') r)

lemma self_startExchange (h : r ≠ r') : Within (Frame (World.self r)) (startExchange r') :=
  along_startExchange (fun m => frame_self (frame_sendMessage r' m) r)
    (fun w => self_setObj_of_ne h w _) (self_settle h _)

lemma self_notify (m : Message) (raises : Option Exn) :
    Within (Frame (World.self r)) (notify m raises) :=
  along_notify fun _ _ => rfl

lemma self_handle (m : Message) (raises : Option Exn) :
    Within (Frame (World.self r)) (handle m raises) :=
  along_handle (within_modify fun w => self_of_core (core_sendMessage _ w) r)
    (within_modify fun _ => rfl) (self_notify m raises)

lemma self_produce (h : r ≠ r') (offset : ℕ) :
    Within (Frame (World.self r)) (produce r' offset) := by
  refine within_bind within_get fun w => within_bind (within_modify fun _ => rfl) fun _ =>
    within_bind (within_modify fun w => self_setObj_of_ne h w _) fun _ =>
      within_bind within_get fun w => within_ite (fun _ => ?_) fun _ => within_pure _
  exact frame_self (frame_resumeProducing _) r

lemma self_processMessage (h : r ≠ r') (m : Message) (raises : Option Exn) :
    Within (Frame (World.self r)) (Request.processMessage r' m raises) :=
  within_bind within_get fun _ =>
    within_bind (within_modify fun w => self_setObj_of_ne h w _) fun _ =>
      along_carryOut (self_settle h) (self_produce h) (self_notify m raises)

/-- A message that is dispatched to another request. -/
lemma self_dispatch (h : r ≠ r') {m : Message} (hw : Registered w r' m.id)
    (raises : Option Exn) : (after (dispatch m raises) w).self r = w.self r := by
  have hprocess := self_processMessage h m raises w
  rw [after_congr (dispatch_registered hw.get? raises)]
  unfold after at hprocess ⊢
  rw [run_tryCatch]
  cases hrun : (Request.processMessage r' m raises).run w with
  | ok a t => rwa [hrun] at hprocess
  | error e t =>
    rw [hrun] at hprocess
    dsimp only at hprocess ⊢
    rw [errorOf_run ((hw.processMessage m raises).2 e t hrun) e]
    exact (self_finish_of_ne h t m.id _).trans hprocess

/-! ### Being cancelled and failing -/

/-- The request may have been cancelled, and may have got an error if it was not over. -/
structure Fades (r : ℕ) (s t : World) : Prop where
  kind : (t.objs r).kind = (s.objs r).kind
  cancelled : (s.objs r).cancelled = true → (t.objs r).cancelled = true
  deferred : (t.objs r).deferred = (s.objs r).deferred ∨
    (s.objs r).deferred = none ∧ ∃ e, (t.objs r).deferred = some (.errback e)

instance (r : ℕ) : IsPreorder World (Fades r) where
  refl _ := ⟨rfl, id, Or.inl rfl⟩
  trans s t u h1 h2 := by
    refine ⟨h2.kind.trans h1.kind, h2.cancelled ∘ h1.cancelled, ?_⟩
    rcases h1.deferred with e1 | ⟨hnone, e1⟩ <;> rcases h2.deferred with e2 | ⟨hnone', e2⟩
    · exact Or.inl (e2.trans e1)
    · exact Or.inr ⟨e1.symm.trans hnone', e2⟩
    · exact Or.inr ⟨hnone, e2 ▸ e1⟩
    · exact Or.inr ⟨hnone, e2⟩

lemma fades_of_self (h : t.self r = s.self r) : Fades r s t := by
  have hkind := congrArg Request.kind h
  have hcancelled := congrArg Request.cancelled h
  have hdeferred := congrArg Request.deferred h
  exact ⟨hkind, fun hc => hcancelled.trans hc, Or.inl hdeferred⟩

lemma fades_of_core (h : t.core = s.core) : Fades r s t := fades_of_self (self_of_core h r)

lemma fades_setObj (r : ℕ) (w : World) (r' : ℕ) {f : Request → Request}
    (hf : ∀ q, (f q).kind = q.kind ∧ (q.cancelled = true → (f q).cancelled = true) ∧
      (f q).deferred = q.deferred) : Fades r w (w.setObj r' f) := by
  by_cases h : r = r'
  · subst h
    obtain ⟨hkind, hcancelled, hdeferred⟩ := hf (w.objs r)
    refine ⟨?_, ?_, Or.inl ?_⟩ <;> rw [setObj_objs_self] <;> assumption
  · exact fades_of_self (self_setObj_of_ne h w f)

lemma fades_cancel (r r' : ℕ) : Within (Fades r) (Request.cancel r') :=
  along_cancel (fun w => fades_setObj r w r' fun _ => ⟨rfl, fun _ => rfl, rfl⟩)
    ((frame_customCancel r').mono fun _ _ => fades_of_core)

lemma fades_error (r r' : ℕ) (failure : Exn) : Within (Fades r) (Request.error r' failure) := by
  by_cases h : r = r'
  swap
  · exact (self_settle h _).mono fun _ _ => fades_of_self
  subst h
  have hcleanup : Within (Fades r) (Request.cleanup r) :=
    along_cleanup (fun w => fades_setObj r w r fun q => ⟨rfl, id, rfl⟩)
      (fun _ _ => fades_of_self rfl) (fun _ _ => fades_of_self rfl)
      fun _ => within_modify fun _ => fades_of_self rfl
  refine within_bind hcleanup fun _ w => ?_
  unfold fire
  rw [after_get_bind]
  cases hd : (w.objs r).deferred with
  | some o => exact fades_of_self rfl
  | none =>
    refine ⟨?_, ?_, Or.inr ⟨hd, failure, ?_⟩⟩ <;>
      simp [after, modifyObj, World.setObj]

lemma fades_loseRequest (r : ℕ) (reason : Exn) (r' : ℕ) :
    Within (Fades r) (loseRequest reason r') :=
  along_loseRequest (fun w => fades_of_core (slows_stopRequest r' w).core) (fades_cancel r r')
    (fades_error r r' reason)

lemma fades_lost (r : ℕ) (reason : Exn) : Within (Fades r) (connectionLost reason) :=
  along_lost (fun w => fades_of_core (core_unregisterSelf w)) (fades_loseRequest r reason)

/-! ### Events -/

/-- The event is about the request. -/
def Concerns (r : ℕ) (w : World) : Event → Prop
  | .start r' | .cancel r' | .done r' | .error r' _ => r' = r
  | .message m _ => validateMessage m = [] ∧ w.requests.get? m.id = some r
  | .lost _ => True
  | _ => False

/-- **An event that is not about a request** leaves it as it was. -/
lemma self_step (hw : Registry w) {e : Event} (he : AdmitsAny w e) (h : ¬Concerns r w e) :
    (w.step e).self r = w.self r := by
  by_cases hrej : Rejected e
  · exact along_rejected (R := Frame (World.self r)) hrej (fun _ _ => rfl)
      (fun m w _ => self_of_core (core_sendMessage m w) r) w
  replace he := he.admits hrej
  cases e with
  | start r' =>
    have hne : r ≠ r' := fun hr => h hr.symm
    show (after (start r') w).self r = _
    rw [after_congr (start_run hw he.1 he.2), self_startExchange hne (w.enroll r')]
    exact self_of_objs (enroll_objs_of_ne hne)
  | read n => exact self_of_core (slows_registerOwn .reads n w).core r
  | message m raises =>
    show (after (processMessage m raises) w).self r = _
    rw [processMessage_valid he]
    cases hr : w.requests.get? m.id with
    | none =>
      rw [after_congr (dispatch_unregistered hr raises)]
      exact self_handle m raises w
    | some r' =>
      refine self_dispatch (fun hrr => h ⟨he, ?_⟩) ⟨hw, hr⟩ raises
      rw [hrr]
      exact hr
  | cancel r' => exact self_cancel (fun hr => h hr.symm) w
  | call k => exact self_of_core (frame_runCall k w) r
  | pause => exact self_of_core (slows_pause w).core r
  | resume => exact self_of_core (frame_resume w) r
  | stop => exact self_of_core (slows_stop w).core r
  | done r' => exact self_settle (fun hr => h hr.symm) _ w
  | error r' e => exact self_settle (fun hr => h hr.symm) _ w
  | lost reason => exact absurd trivial h

/-- **What ends a request with success** is a message for it or a call of its `done()`. -/
lemma fades_step (hw : Registry w) {e : Event} (he : AdmitsAny w e) (hid : (w.objs r).id ≠ none)
    (hdone : e ≠ .done r) (hm : ∀ m raises, e = .message m raises → validateMessage m = [] →
      w.requests.get? m.id ≠ some r) : Fades r w (w.step e) := by
  by_cases h : Concerns r w e
  swap
  · exact fades_of_self (self_step hw he h)
  cases e with
  | start r' =>
    obtain rfl : r' = r := h
    exact absurd he.1 hid
  | message m raises => exact absurd h.2 (hm m raises rfl h.1)
  | cancel r' => exact fades_cancel r r' w
  | error r' e => exact fades_error r r' e w
  | lost reason => exact fades_lost r reason w
  | done r' =>
    obtain rfl : r' = r := h
    exact absurd rfl hdone
  | read n => cases h
  | call k => cases h
  | pause => cases h
  | resume => cases h
  | stop => cases h

end Magicicada.Client
