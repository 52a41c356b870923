import Magicicada.Registry

/-!
What each event does to the registry, as moves, and the invariant over whole runs.
-/

namespace Magicicada.Client

open Pb Errors Requests Prog

/-! ### Starting a request -/

lemma Registered.settle {w : World} {r : ℕ} {i : ℤ} (hw : Registered w r i) (o : Outcome) :
    Moves w (after (Request.settle r o) w) := by
  rw [after_of_ok (settle_run hw.toRegistry hw.get? o)]
  exact .single (.finish hw.get? o)

/-- The messages of `_start` leave the core alone. -/
lemma frame_sendMessages (r : ℕ) (messages : List Message) :
    Within (Frame World.core) (messages.forM (Request.sendMessage r)) :=
  within_forM _ fun m _ => frame_sendMessage r m

lemma Registered.startExchange {w : World} {r : ℕ} {i : ℤ} (hw : Registered w r i) :
    Moves w (after (startExchange r) w) := by
  refine startExchange_trans (fun l _ => Moves.of_core (frame_sendMessages r l w))
    (fun t => Moves.quiet (ledger_setKind t r Kind.started)) fun l t ht => ?_
  have hsent : t.ledger = w.ledger := ledger_of_core ((frame_sendMessages r l).ok ht)
  exact (hw.of_ledger ((ledger_setKind t r Kind.started).trans hsent)).settle _

/-- `start` of a client-side request, whether or not it raises. -/
lemma Registry.start {w : World} (hw : Registry w) {r : ℕ} (hid : (w.objs r).id = none)
    (hsrc : (w.objs r).source = none) :
    Moves (w.enroll r) (after (start r) w) := by
  have hreg : Registered (w.enroll r) r w.requestCounter := ⟨hw.enroll hid, by simp⟩
  have := hreg.startExchange
  unfold after at *
  rwa [start_run hw hid hsrc]

/-! ### Cancelling, notifying -/

lemma frame_ledger {α : Type} {x : M α} (h : Within (Frame World.core) x) :
    Within (Frame World.ledger) x := h.mono fun _ _ => ledger_of_core

lemma frame_cancel (r : ℕ) : Within (Frame World.ledger) (Request.cancel r) :=
  along_cancel (fun w => ledger_setCancelled w r) (frame_ledger (frame_customCancel r))

lemma frame_notify (m : Message) (raises : Option Exn) :
    Within (Frame World.ledger) (notify m raises) :=
  along_notify fun _ _ => rfl

lemma frame_handle (m : Message) (raises : Option Exn) :
    Within (Frame World.ledger) (handle m raises) :=
  along_handle (within_modify fun w => ledger_of_core (core_sendMessage _ w))
    (within_modify fun _ => rfl) (frame_notify m raises)

/-! ### Incoming messages -/

/-- The state with a new producer of a request. -/
def World.addNewProducer (w : World) (r offset : ℕ) : World := { w with
  producers := Function.update w.producers w.nextProducer
    { request := r, fh := (w.objs r).kind.fd, offset := offset }
  nextProducer := w.nextProducer + 1 }

/-- The state with that producer registered with the request, before it is resumed. -/
def World.withNewProducer (w : World) (r offset : ℕ) : World :=
  (w.addNewProducer r offset).setObj r fun q => { q with producer := some w.nextProducer }

lemma produce_run (w : World) (r offset : ℕ) : (produce r offset).run w =
    (if (w.objs r).producing then BytesMessageProducer.resumeProducing w.nextProducer
      else pure ⟨⟩ : M PUnit).run (w.withNewProducer r offset) := by
  have : ((w.withNewProducer r offset).objs r).producing = (w.objs r).producing := by
    simp [World.withNewProducer, World.addNewProducer]
  rw [← this]
  rfl

/-- Registering a producer may start an upload, but keeps the request registered. -/
lemma Registered.produce {w : World} {r : ℕ} {i : ℤ} (hw : Registered w r i) (offset : ℕ) :
    Moves w (after (produce r offset) w) ∧ Registered (after (produce r offset) w) r i := by
  have hid : ((w.addNewProducer r offset).objs r).id ≠ none := by
    simp [World.addNewProducer, (hw.entry i r hw.get?).1]
  have hadd : Moves w (w.addNewProducer r offset) := Moves.quiet rfl
  have hmoves : Moves w (w.withNewProducer r offset) := hadd.tail (.producer hid _)
  have hframe : Within (Frame World.core) (if (w.objs r).producing then
      BytesMessageProducer.resumeProducing w.nextProducer else pure ⟨⟩ : M PUnit) :=
    within_ite (fun _ => frame_resumeProducing _) fun _ => within_pure _
  have hafter := hframe (w.withNewProducer r offset)
  unfold after at *
  rw [produce_run]
  exact ⟨hmoves.trans (Moves.of_core hafter),
    Registered.of_core ⟨hw.toRegistry.of_moves hmoves, hw.get?⟩ hafter⟩

/-- Where `processMessage` of a registered request raises, the request is still registered. -/
lemma Registered.processMessage {w : World} {r : ℕ} {i : ℤ} (hw : Registered w r i) (m : Message)
    (raises : Option Exn) :
    Moves w (after (Request.processMessage r m raises) w) ∧
    ∀ e t, (Request.processMessage r m raises).run w = .error e t → Registered t r i := by
  have hrun : ∃ (f : Kind → Kind) (reply : Reply), (Request.processMessage r m raises).run w =
      (carryOut r m raises reply).run (w.setObj r fun q => { q with kind := f q.kind }) :=
    ⟨fun k => (k.processMessage _ m).1, _, rfl⟩
  obtain ⟨f, reply, hrun⟩ := hrun
  have hkind := ledger_setKind w r f
  have hu := hw.of_ledger hkind
  have hmoves : Moves w (w.setObj r fun q => { q with kind := f q.kind }) := Moves.quiet hkind
  unfold after
  rw [hrun]
  generalize w.setObj r (fun q => { q with kind := f q.kind }) = u at hu hmoves
  cases reply with
  | stay => exact ⟨hmoves, fun e t ht => nomatch ht⟩
  | raise e => exact ⟨hmoves, fun e t ht => by cases ht; exact hu⟩
  | done => exact ⟨hmoves.trans (hu.settle .callback), fun e t ht =>
      nomatch (settle_run hu.toRegistry hu.get? .callback).symm.trans ht⟩
  | error e => exact ⟨hmoves.trans (hu.settle (.errback e)), fun e' t ht =>
      nomatch (settle_run hu.toRegistry hu.get? (.errback e)).symm.trans ht⟩
  | produce offset =>
    refine ⟨hmoves.trans (hu.produce offset).1, fun e t ht => ?_⟩
    have ht' : (Client.produce r offset).run u = .error e t := ht
    have := (hu.produce offset).2
    rwa [after_of_error ht'] at this
  | notify =>
    have hn := frame_notify m raises
    exact ⟨hmoves.trans (Moves.quiet (hn u)), fun e t ht => hu.of_ledger (hn.error ht)⟩

lemma dispatch_registered {w : World} {m : Message} {r : ℕ} (hr : w.requests.get? m.id = some r)
    (raises : Option Exn) : (dispatch m raises).run w =
      (tryCatch (Request.processMessage r m raises) (errorOf m.id) : M PUnit).run w := by
  simp [dispatch, hr]

lemma dispatch_unregistered {w : World} {m : Message} (hr : w.requests.get? m.id = none)
    (raises : Option Exn) : (dispatch m raises).run w = (handle m raises).run w := by
  simp [dispatch, hr]

lemma errorOf_run {w : World} {r : ℕ} {i : ℤ} (hw : Registered w r i) (e : Exn) :
    (errorOf i e).run w = .ok ⟨⟩ (w.finish r i (.errback e)) := by
  have := settle_run hw.toRegistry hw.get? (.errback e)
  simp [errorOf, hw.get?, Request.error, this]

/-- A message for a registered request is dealt with and raises nothing. -/
lemma Registered.dispatch {w : World} {m : Message} {r : ℕ} (hw : Registered w r m.id)
    (raises : Option Exn) : ∃ t, (dispatch m raises).run w = .ok ⟨⟩ t ∧ Moves w t := by
  obtain ⟨hmoves, herr⟩ := hw.processMessage m raises
  rw [dispatch_registered hw.get?, run_tryCatch]
  cases hrun : (Request.processMessage r m raises).run w with
  | ok a t => exact ⟨t, rfl, after_of_ok hrun ▸ hmoves⟩
  | error e t =>
    have ht := herr e t hrun
    have hmoves' : Moves w t := after_of_error hrun ▸ hmoves
    exact ⟨_, errorOf_run ht e, hmoves'.tail (.finish ht.get? _)⟩

lemma processMessage_valid {m : Message} (hm : validateMessage m = []) (raises : Option Exn) :
    processMessage m raises = dispatch m raises := by
  simp [processMessage, hm]

lemma Registry.processMessage {w : World} (hw : Registry w) {m : Message}
    (hm : validateMessage m = []) (raises : Option Exn) :
    Moves w (after (processMessage m raises) w) := by
  rw [processMessage_valid hm]
  cases hr : w.requests.get? m.id with
  | some r =>
    obtain ⟨t, ht, hmoves⟩ := Registered.dispatch ⟨hw, hr⟩ raises
    rw [after_of_ok ht]
    exact hmoves
  | none =>
    have := frame_handle m raises w
    unfold after at *
    rw [dispatch_unregistered hr]
    exact Moves.quiet this

/-! ### Losing the connection -/

/-- A registered request whose id fits its field can be cancelled. -/
lemma Registered.cancel_returns {w : World} {r : ℕ} {i : ℤ} (hw : Registered w r i)
    (hi : int32 i = true) : raised (cancelIfStarted r) w = none := by
  obtain ⟨hid, hst, hfin, -⟩ := hw.entry i r hw.get?
  have hsend : ∀ (t : World) (m : Message), (t.objs r).id = some i →
      raised (Request.sendMessage r m) t = none := by
    intro t m ht
    simp [raised, Request.sendMessage, ht, hi]
  have hstop : ∀ t : World,
      ((withProducer r BytesMessageProducer.stopProducing t).objs r).id = (t.objs r).id := by
    intro t
    unfold withProducer
    split <;> rfl
  have hcustom : ∀ t : World, (t.objs r).id = some i → raised (customCancel r) t = none := by
    intro t ht
    unfold customCancel
    rw [raised_get_bind]
    split
    · exact hsend t _ ht
    · exact hsend _ _ ((hstop t).trans ht)
    · rfl
  have hmark : (((w.setObj r fun q => { q with cancelled := true }).objs r).id) = some i := by
    simpa using hid
  show raised (if (w.objs r).started then Request.cancel r else pure ⟨⟩) w = none
  rw [if_pos hst]
  show raised (if (w.objs r).finished then pure ⟨⟩ else do
    modifyObj r fun q => { q with cancelled := true }
    if (w.objs r).started && !(w.objs r).cancelled then customCancel r else pure ⟨⟩) w = none
  rw [if_neg (by simp [hfin])]
  show raised (if (w.objs r).started && !(w.objs r).cancelled then customCancel r else pure ⟨⟩)
    (w.setObj r _) = none
  split
  · exact hcustom _ hmark
  · rfl

lemma frame_cancelIfStarted (r : ℕ) : Within (Frame World.ledger) (cancelIfStarted r) :=
  within_bind within_get fun _ => within_ite (fun _ => frame_cancel r) fun _ => within_pure _

/-- **A round of the loop of `connectionLost`** takes its request out of the registry, unless
the request cannot be cancelled. -/
lemma Registered.lose_cases {w : World} {r : ℕ} {i : ℤ} (hw : Registered w r i) (reason : Exn) :
    (∃ t, (loseRequest reason r).run w = .ok ⟨⟩ t ∧ Moves w t ∧
      t.requests = w.requests.erase i) ∨
    int32 i = false ∧ ∃ e t, (loseRequest reason r).run w = .error e t ∧ Moves w t := by
  have hcore := (slows_stopRequest r w).core
  have hstop : Registered (Request.stopProducing r w) r i := hw.of_core hcore
  have hrun : (loseRequest reason r).run w =
      (do
        cancelIfStarted r
        tryCatch (Request.error r reason) fun e =>
          if e = .alreadyCalledError then pure ⟨⟩ else throw e : M PUnit).run
        (Request.stopProducing r w) := by
    simp [loseRequest]
  rw [hrun]
  cases hc : (cancelIfStarted r).run (Request.stopProducing r w) with
  | ok a t =>
    have hframe := (frame_cancelIfStarted r).ok hc
    have ht := hstop.of_ledger hframe
    have hset := settle_run ht.toRegistry ht.get? (.errback reason)
    refine Or.inl ⟨t.finish r i (.errback reason), ?_, ?_, ?_⟩
    · rw [run_bind_ok hc, run_tryCatch, Request.error, hset]
    · exact .head (.quiet (hframe.trans (ledger_of_core hcore))) (.single (.finish ht.get? _))
    · rw [finish_requests, requests_of_ledger hframe, requests_of_ledger (ledger_of_core hcore)]
  | error e t =>
    have hframe := (frame_cancelIfStarted r).error hc
    refine Or.inr ⟨?_, e, t, by rw [run_bind_error hc],
      Moves.quiet (hframe.trans (ledger_of_core hcore))⟩
    by_contra hi
    have := hstop.cancel_returns (Bool.eq_true_of_not_eq_false hi)
    rw [raised_of_error hc] at this
    cases this

/-- The loop of `connectionLost`. -/
lemma lose_all (reason : Exn) (l : List ℕ) : ∀ w : World, Registry w →
    w.requests.values = l →
    (∀ t, (l.forM (loseRequest reason)).run w = .ok ⟨⟩ t → Moves w t ∧ t.requests.isEmpty) ∧
    ∀ e t, (l.forM (loseRequest reason)).run w = .error e t → Moves w t ∧
      ∃ i r, w.requests.get? i = some r ∧ int32 i = false := by
  induction l with
  | nil =>
    intro w hw hl
    refine ⟨fun t ht => ?_, fun e t ht => by cases ht⟩
    cases ht
    exact ⟨.refl, Dict.isEmpty_iff_values.mpr hl⟩
  | cons r l ih =>
    intro w hw hl
    obtain ⟨i, hi, hrest⟩ := Dict.values_cons hl
    have hreg : Registered w r i := ⟨hw, hi⟩
    rcases hreg.lose_cases reason with ⟨t, ht, hmoves, hreq⟩ | ⟨hbig, e, t, ht, hmoves⟩
    · have hrun : ((r :: l).forM (loseRequest reason)).run w =
          (l.forM (loseRequest reason)).run t := run_bind_ok ht
      obtain ⟨hok, herr⟩ := ih t (hw.of_moves hmoves) (by rw [hreq, hrest])
      rw [hrun]
      refine ⟨fun u hu => ⟨hmoves.trans (hok u hu).1, (hok u hu).2⟩, fun e u hu => ?_⟩
      obtain ⟨hu, j, r', hj, hbig⟩ := herr e u hu
      refine ⟨hmoves.trans hu, j, r', ?_, hbig⟩
      rw [hreq, Dict.get?_erase] at hj
      split at hj
      · cases hj
      · exact hj
    · have hrun : ((r :: l).forM (loseRequest reason)).run w = .error e t := run_bind_error ht
      rw [hrun]
      refine ⟨fun u hu => (by cases hu), fun e' u hu => ?_⟩
      cases hu
      exact ⟨hmoves, i, r, hi, hbig⟩

lemma connectionLost_run (reason : Exn) (w : World) : (connectionLost reason).run w =
    (w.requests.values.forM (loseRequest reason)).run (unregisterSelf w) := by
  have : (unregisterSelf w).requests = w.requests :=
    requests_of_ledger (ledger_of_core (core_unregisterSelf w))
  simp [connectionLost, this]

/-- **When `connectionLost` returns** the registry is empty, and it can only fail to return over
an id that does not fit its field. -/
lemma Registry.lost {w : World} (hw : Registry w) (reason : Exn) :
    Moves w (w.step (.lost reason)) ∧
    (raised (connectionLost reason) w = none → (w.step (.lost reason)).requests.isEmpty) ∧
    ((∀ i r, w.requests.get? i = some r → int32 i = true) →
      raised (connectionLost reason) w = none) := by
  have hcore := core_unregisterSelf w
  have hreq : (unregisterSelf w).requests = w.requests :=
    requests_of_ledger (ledger_of_core hcore)
  obtain ⟨hok, herr⟩ := lose_all reason w.requests.values (unregisterSelf w)
    (hw.of_ledger (ledger_of_core hcore)) (by rw [hreq])
  rw [← connectionLost_run] at hok
  simp only [← connectionLost_run] at herr
  show Moves w (after (connectionLost reason) w) ∧
    (_ → (after (connectionLost reason) w).requests.isEmpty) ∧ _
  cases hrun : (connectionLost reason).run w with
  | ok a t =>
    rw [after_of_ok hrun, raised_of_ok hrun]
    obtain ⟨hmoves, he⟩ := hok t hrun
    exact ⟨.head (.quiet (ledger_of_core hcore)) hmoves, fun _ => he, fun _ => rfl⟩
  | error e t =>
    rw [after_of_error hrun, raised_of_error hrun]
    obtain ⟨hmoves, i, r, hi, hbig⟩ := herr e t hrun
    refine ⟨.head (.quiet (ledger_of_core hcore)) hmoves, fun h => (by cases h), fun h => ?_⟩
    rw [hreq] at hi
    rw [h i r hi] at hbig
    cases hbig

/-! ### Runs -/

/-- The events of a run of client-side requests: each object is started once, the messages are
valid, and `done` and `error` are only called of requests that were started and are not yet
finished. -/
def Admits (w : World) : Event → Prop
  | .start r => (w.objs r).id = none ∧ (w.objs r).source = none
  | .message m _ => validateMessage m = []
  | .done r | .error r _ => (w.objs r).started = true
  | _ => True

/-- What was started and is not finished is registered. -/
lemma Registry.registered_of_started {w : World} (hw : Registry w) {r : ℕ}
    (hr : (w.objs r).started = true) : ∃ i, Registered w r i := by
  cases hid : (w.objs r).id with
  | none =>
    rw [(hw.fresh r hid).1] at hr
    cases hr
  | some i => exact ⟨i, hw, hw.registered r i hid (hw.unfinished r hr)⟩

/-- **Every event is a number of moves.** -/
lemma Registry.moves {w : World} (hw : Registry w) {e : Event} (he : Admits w e) :
    Moves w (w.step e) := by
  cases e with
  | start r => exact .head (.enroll he.1) (hw.start he.1 he.2)
  | read n => exact Moves.of_core (slows_registerOwn .reads n w).core
  | message m raises => exact hw.processMessage he raises
  | cancel r => exact Moves.quiet (frame_cancel r w)
  | call k => exact Moves.of_core (frame_runCall k w)
  | pause => exact Moves.of_core (slows_pause w).core
  | resume => exact Moves.of_core (frame_resume w)
  | stop => exact Moves.of_core (slows_stop w).core
  | done r =>
    obtain ⟨i, hr⟩ := hw.registered_of_started he
    exact hr.settle _
  | error r e =>
    obtain ⟨i, hr⟩ := hw.registered_of_started he
    exact hr.settle _
  | lost reason => exact (hw.lost reason).1

lemma Registry.step {w : World} (hw : Registry w) {e : Event} (he : Admits w e) :
    Registry (w.step e) := hw.of_moves (hw.moves he)

lemma Registry.run {w : World} (hw : Registry w) {es : List Event}
    (h : Runs.Legal World.step Admits w es) : Registry (Runs.run World.step w es) :=
  h.invariant (fun _ _ hs he => hs.step he) hw

/-- A state some run of client-side requests ends in. -/
def Reachable (w : World) : Prop :=
  ∃ w₀ es, Initial w₀ ∧ Runs.Legal World.step Admits w₀ es ∧ Runs.run World.step w₀ es = w

lemma Reachable.registry {w : World} (h : Reachable w) : Registry w := by
  obtain ⟨w₀, es, h₀, hes, rfl⟩ := h
  exact h₀.registry.run hes

/-- **The registry over whole runs.** In every reachable state the registry, the requests, their
deferreds and the registration with the transport agree and nothing that must not happen has
happened; once `connectionLost` returns, which it does as long as the ids fit their field, the
registry is empty and every request that was ever started has fired. -/
theorem registry_run {w₀ : World} (h₀ : Initial w₀) {es : List Event}
    (hes : Runs.Legal World.step Admits w₀ es) (reason : Exn) :
    Registry (Runs.run World.step w₀ es) ∧
    (raised (connectionLost reason) (Runs.run World.step w₀ es) = none →
      (Runs.run World.step w₀ (es ++ [.lost reason])).requests.isEmpty ∧
      ∀ r, ((Runs.run World.step w₀ (es ++ [.lost reason])).objs r).id ≠ none →
        ((Runs.run World.step w₀ (es ++ [.lost reason])).objs r).deferred ≠ none) ∧
    ((∀ i r, (Runs.run World.step w₀ es).requests.get? i = some r → int32 i = true) →
      raised (connectionLost reason) (Runs.run World.step w₀ es) = none) := by
  have hw := h₀.registry.run hes
  obtain ⟨hmoves, hempty, hreturns⟩ := hw.lost reason
  have hlost := hw.of_moves hmoves
  refine ⟨hw, fun hr => ?_, hreturns⟩
  rw [Runs.run_append]
  have he : ((Runs.run World.step w₀ es).step (.lost reason)).requests.isEmpty := hempty hr
  refine ⟨he, fun r hid => ?_⟩
  obtain ⟨i, hi⟩ := Option.ne_none_iff_exists'.mp hid
  -- an unfinished request would still be registered
  cases hfin : (((Runs.run World.step w₀ es).step (.lost reason)).objs r).finished with
  | true => exact hlost.fired r hfin
  | false =>
    have := hlost.registered r i hi hfin
    rw [Dict.isEmpty_iff.mp he i] at this
    cases this

/-- A ping that is answered and a listing that is not. -/
theorem registry_run_ping :
    Registry (Runs.run World.step
      (World.init (fun r => if r = 0 then .ping else .listVolumes {})
        fun _ => ⟨fun _ => .ok [], []⟩)
      [.start 0, .start 1, .message { id := 1, type := .pong } none]) := by
  refine (registry_run (initial_init _ _) ?_ (.connectionLost 0)).1
  have hpong : validateMessage { id := 1, type := .pong } = [] := by decide
  exact ⟨⟨rfl, rfl⟩, ⟨rfl, rfl⟩, hpong, trivial⟩

end Magicicada.Client
