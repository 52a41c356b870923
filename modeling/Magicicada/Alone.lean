import Magicicada.Conversations
import Magicicada.Starting

/-!
A request that is not an upload behaves as if it were the only one: what it comes to in a run is
what the events that bring it something make of it, one after another.

The other requests, their messages and their producers, the transport, the factory and the timers
have no part in it.
-/

namespace Magicicada.Client

open Pb Errors Requests Prog

/-! ### A request on its own -/

/-- What the events of a run bring a request. -/
inductive Input
  /-- It is started and gets its id. -/
  | start (i : ℤ)
  /-- A valid message with its id. A callback of the user raises, or does not. -/
  | message (m : Message) (raises : Option Exn)
  | cancel
  | done
  | error (e : Exn)
  | lost (reason : Exn)

namespace Request

variable (q : Request)

/-- Its deferred is fired. -/
def ended (o : Outcome) : Request :=
  { q with finished := true, started := false, deferred := some o }

/-- It has its id. If `_start` takes its arguments it is under way, and a `Noop` is done. -/
def opened (i : ℤ) : Request :=
  let q' := { q with id := some i, started := true }
  match q.argError, q.kind.startMessages with
  | none, .ok _ =>
    match q.kind with
    | .noop => { q' with kind := q.kind.started }.ended .callback
    | _ => { q' with kind := q.kind.started }
  | _, _ => q'

lemma opened_raises {i : ℤ} (h : ∀ l, q.argError = none → q.kind.startMessages ≠ .ok l) :
    q.opened i = { q with id := some i, started := true } := by
  unfold opened
  split
  · next l harg hl => exact absurd hl (h l harg)
  · rfl

lemma opened_ok {i : ℤ} {l : List Message} (harg : q.argError = none)
    (hl : q.kind.startMessages = .ok l) : q.opened i =
      match q.kind with
      | .noop => { q with id := some i, started := true, kind := q.kind.started }.ended .callback
      | _ => { q with id := some i, started := true, kind := q.kind.started } := by
  unfold opened
  rw [harg, hl]

/-- What is raised when the callback for a message is called. -/
def noticeRaises (c : Callbacks) (m : Message) (raises : Option Exn) : Option Exn :=
  match notice c m with
  | .error e => some e
  | .ok none => none
  | .ok (some _) => raises

/-- How a reply ends a request, if it does. -/
def verdict (c : Callbacks) (m : Message) (raises : Option Exn) : Reply → Option Outcome
  | .notify => (noticeRaises c m raises).map .errback
  | reply => Outcome.ofReply reply

/-- It is given a message. -/
def given (c : Callbacks) (m : Message) (raises : Option Exn) : Request :=
  let a := q.kind.processMessage { cancelled := q.cancelled, raises := raises } m
  match verdict c m raises a.2 with
  | none => { q with kind := a.1 }
  | some o => { q with kind := a.1 }.ended o

def next (c : Callbacks) : Input → Request
  | .start i => q.opened i
  | .message m raises => if q.started then q.given c m raises else q
  | .cancel => if q.finished then q else { q with cancelled := true }
  | .done => q.ended .callback
  | .error e => q.ended (.errback e)
  | .lost reason => if q.started then { q with cancelled := true }.ended (.errback reason) else q

end Request

/-- What an event brings the request that has, or is going to have, the id. -/
def brings (r : ℕ) (i : ℤ) : Event → Option Input
  | .start r' => if r' = r then some (.start i) else none
  | .message m raises =>
    if m.id = i ∧ validateMessage m = [] then some (.message m raises) else none
  | .cancel r' => if r' = r then some .cancel else none
  | .done r' => if r' = r then some .done else none
  | .error r' e => if r' = r then some (.error e) else none
  | .lost reason => some (.lost reason)
  | _ => none

variable {r r' : ℕ} {i : ℤ} {s t w : World} {es : List Event}

/-! ### What does not change -/

lemma callbacks_of_ledger (h : t.ledger = s.ledger) : t.callbacks = s.callbacks := by
  show t.ledger.callbacks = s.ledger.callbacks
  rw [h]

lemma callbacks_of_moves (h : Moves s t) : t.callbacks = s.callbacks := by
  induction h with
  | refl => rfl
  | tail _ h ih =>
    rw [← ih]
    cases h with
    | quiet h => exact callbacks_of_ledger h
    | producer hid p => rfl
    | enroll hid => rfl
    | finish hr o => rfl

lemma self_finish (w : World) (r : ℕ) (i : ℤ) (o : Outcome) :
    (w.finish r i o).self r = (w.self r).ended o := by
  unfold World.self
  rw [finish_objs_self]
  rfl

lemma self_setObj (w : World) (r : ℕ) {f : Request → Request}
    (hf : ∀ q, f { q with producing := false } = { f q with producing := false }) :
    (w.setObj r f).self r = f (w.self r) := by
  unfold World.self
  rw [setObj_objs_self, hf]

/-! ### Each input -/

lemma self_settle_self (hw : Registered w r i) (o : Outcome) :
    (after (Request.settle r o) w).self r = (w.self r).ended o := by
  rw [after_of_ok (settle_run hw.toRegistry hw.get? o), self_finish]

/-- **`start`** of a request whose id fits its field. -/
lemma self_start (hw : Registry w) (hid : (w.objs r).id = none) (hsrc : (w.objs r).source = none)
    (hi : int32 w.requestCounter = true) :
    (w.step (.start r)).self r = (w.self r).opened w.requestCounter := by
  have henroll : (w.enroll r).self r =
      { w.self r with id := some w.requestCounter, started := true } := by
    unfold World.self
    rw [enroll_objs_self]
  have hq : ((w.enroll r).objs r).argError = (w.self r).argError ∧
      ((w.enroll r).objs r).kind = (w.self r).kind := by simp [World.self]
  obtain ⟨harg, hkind⟩ := hq
  have hstep : w.step (.start r) = after (startExchange r) (w.enroll r) :=
    after_congr (start_run hw hid hsrc)
  rw [hstep]
  unfold startExchange
  rw [after_get_bind]
  dsimp only
  rw [harg, hkind]
  split
  · next hargs =>
    rw [Request.opened_raises _ fun l h => by rw [hargs] at h; cases h]
    exact henroll
  · next hmessages =>
    rw [Request.opened_raises _ fun l _ h => by rw [hmessages] at h; cases h]
    exact henroll
  · next messages hargs hmessages =>
    have hid' : ((w.enroll r).objs r).id = some w.requestCounter := by simp
    obtain ⟨t, ht, hcore⟩ := sendMessages_run hi messages (w.enroll r) hid'
    have hreg : Registered t r w.requestCounter :=
      Registered.of_core ⟨hw.enroll hid, by simp⟩ hcore
    set v := t.setObj r fun q => { q with kind := q.kind.started } with hv
    have hstarted : v.self r = { w.self r with
        id := some w.requestCounter, started := true, kind := (w.self r).kind.started } := by
      rw [hv, self_setObj t r fun _ => rfl, self_of_core hcore, henroll]
    have hreg' : Registered v r w.requestCounter :=
      hreg.of_ledger (ledger_setKind t r Kind.started)
    have hafter : after (do
        messages.forM (Request.sendMessage r)
        modifyObj r fun q => { q with kind := q.kind.started }
        afterStart r (w.self r).kind : M PUnit) (w.enroll r) =
        after (afterStart r (w.self r).kind) v := by
      refine after_congr ?_
      rw [run_bind_ok ht]
      rfl
    rw [hafter, Request.opened_ok _ hargs hmessages, ← hstarted]
    generalize (w.self r).kind = k
    cases k with
    | noop => exact self_settle_self hreg' .callback
    | _ => rfl

lemma notify_raises (w : World) (m : Message) (raises : Option Exn) :
    raised (notify m raises) w = Request.noticeRaises w.callbacks m raises := by
  unfold notify Request.noticeRaises
  rw [raised_get_bind]
  cases notice w.callbacks m with
  | error e => rfl
  | ok n =>
    cases n with
    | none => rfl
    | some n => cases raises <;> rfl

/-- **A message** for a request that is not an upload. -/
lemma self_message {m : Message} (hw : Registered w r m.id) (hm : validateMessage m = [])
    (hput : (w.objs r).kind.isPutContent = false) (raises : Option Exn) :
    (w.step (.message m raises)).self r = (w.self r).given w.callbacks m raises := by
  have hread : (w.read r m raises).self r = { w.self r with
      kind := ((w.self r).kind.processMessage
        { cancelled := (w.self r).cancelled, raises := raises } m).1 } :=
    self_setObj w r fun _ => rfl
  have hgiven : (w.self r).given w.callbacks m raises =
      match Request.verdict w.callbacks m raises (w.reply r m raises) with
      | none => (w.read r m raises).self r
      | some o => ((w.read r m raises).self r).ended o := by rw [hread]; rfl
  rw [hgiven]
  have hends : ∀ o, Outcome.ofReply (w.reply r m raises) = some o →
      (w.step (.message m raises)).self r = ((w.read r m raises).self r).ended o := by
    intro o ho
    rw [hw.message_ends hm raises ho, self_finish]
  cases hreply : w.reply r m raises with
  | stay =>
    rw [hw.message_stay hm raises hreply]
    rfl
  | produce offset =>
    have := (produce_reply hreply).2
    rw [hput] at this
    cases this
  | done => exact hends _ (by rw [hreply]; rfl)
  | error e => exact hends _ (by rw [hreply]; rfl)
  | raise e => exact hends _ (by rw [hreply]; rfl)
  | notify =>
    have hreg := hw.read m raises
    have hnotify := self_notify (r := r) m raises (w.read r m raises)
    have hraises := notify_raises (w.read r m raises) m raises
    rw [hw.message_run hm, hreply]
    unfold Request.verdict
    rw [show (w.read r m raises).callbacks = w.callbacks from rfl] at hraises
    cases hn : Request.noticeRaises w.callbacks m raises with
    | none =>
      rw [after_of_ok (a := ⟨⟩) (by
        rw [run_tryCatch, carryOut, run_of_not_raised (hraises.trans hn)])]
      exact hnotify
    | some e =>
      have hreg' : Registered (after (notify m raises) (w.read r m raises)) r m.id :=
        hreg.of_ledger (frame_notify m raises (w.read r m raises))
      rw [after_of_ok (a := ⟨⟩) (by
        rw [run_tryCatch, carryOut, run_of_raised (hraises.trans hn)]
        exact errorOf_run hreg' e), self_finish, hnotify]
      rfl

/-- **`cancel()`** sets the flag of a request that is not over. -/
lemma self_cancel_self (r : ℕ) (w : World) : (after (Request.cancel r) w).self r =
    if (w.self r).finished then w.self r else { w.self r with cancelled := true } := by
  unfold Request.cancel
  rw [after_get_bind]
  by_cases hfin : (w.objs r).finished = true
  · rw [if_pos hfin, if_pos (show (w.self r).finished = true from hfin)]
    rfl
  · rw [if_neg hfin, if_neg (show ¬(w.self r).finished = true from hfin)]
    have hmark : (w.setObj r fun q => { q with cancelled := true }).self r =
        { w.self r with cancelled := true } := self_setObj w r fun _ => rfl
    rw [← hmark]
    show (after (if _ then customCancel r else pure ⟨⟩ : M PUnit) (w.setObj r _)).self r = _
    split
    · exact frame_self (frame_customCancel r) r _
    · rfl

lemma self_loseRequest_of_ne (h : r ≠ r') (reason : Exn) :
    Within (Frame (World.self r)) (loseRequest reason r') :=
  along_loseRequest (fun w => self_of_core (slows_stopRequest r' w).core r) (self_cancel h)
    (self_settle h _)

/-- **A round of the loop of `connectionLost`** ends its request, whose id fits its field. -/
lemma self_loseRequest (hw : Registered w r i) (hi : int32 i = true) (reason : Exn) :
    ∃ t, (loseRequest reason r).run w = .ok ⟨⟩ t ∧
      t.self r = { w.self r with cancelled := true }.ended (.errback reason) := by
  obtain ⟨-, hst, hfin, -⟩ := hw.entry i r hw.get?
  set v := Request.stopProducing r w with hv
  have hcore : v.core = w.core := (slows_stopRequest r w).core
  have hstop : Registered v r i := hw.of_core hcore
  have hself : v.self r = w.self r := self_of_core hcore r
  have hreturns := run_of_not_raised (hstop.cancel_returns hi)
  set t := after (cancelIfStarted r) v with ht
  have hcancel : t.self r = { w.self r with cancelled := true } := by
    have hst' : (v.objs r).started = true := by
      rw [show (v.objs r).started = (v.self r).started from rfl, hself]
      exact hst
    have hcancelled := self_cancel_self r v
    rw [hself, if_neg (by rw [show (w.self r).finished = (w.objs r).finished from rfl, hfin]; simp)]
      at hcancelled
    have hrun : t = after (Request.cancel r) v := by
      show after (if (v.objs r).started then Request.cancel r else pure ⟨⟩) v = _
      rw [if_pos hst']
    rw [hrun]
    exact hcancelled
  have hreg : Registered t r i := hstop.of_ledger (frame_cancelIfStarted r v)
  have hset := settle_run hreg.toRegistry hreg.get? (.errback reason)
  refine ⟨t.finish r i (.errback reason), ?_, by rw [self_finish, hcancel]⟩
  show (do
    cancelIfStarted r
    tryCatch (Request.error r reason) fun e =>
      if e = .alreadyCalledError then pure ⟨⟩ else throw e : M PUnit).run v = _
  rw [run_bind_ok hreturns, run_tryCatch, Request.error, hset]

/-- The loop of `connectionLost` ends each request that is in it. -/
lemma self_lose_all (reason : Exn) (l : List ℕ) : ∀ w : World, Registry w →
    w.requests.values = l → (∀ j r', w.requests.get? j = some r' → int32 j = true) →
    (after (l.forM (loseRequest reason)) w).self r =
      if r ∈ l then { w.self r with cancelled := true }.ended (.errback reason) else w.self r := by
  induction l with
  | nil => exact fun w _ _ _ => rfl
  | cons a l ih =>
    intro w hw hl hfit
    obtain ⟨i, hi, hrest⟩ := Dict.values_cons hl
    have hreg : Registered w a i := ⟨hw, hi⟩
    rcases hreg.lose_cases reason with ⟨t, ht, hmoves, hreq⟩ | ⟨hbig, -⟩
    swap
    · rw [hfit i a hi] at hbig
      cases hbig
    have hrun : after ((a :: l).forM (loseRequest reason)) w =
        after (l.forM (loseRequest reason)) t := after_congr (run_bind_ok ht)
    have hloop := ih t (hw.of_moves hmoves) (by rw [hreq, hrest]) fun j r' hj => by
      rw [hreq, Dict.get?_erase] at hj
      split at hj
      · cases hj
      · exact hfit j r' hj
    rw [hrun, hloop]
    by_cases hra : r = a
    · subst hra
      obtain ⟨t', ht', hself⟩ := self_loseRequest hreg (hfit i r hi) reason
      obtain rfl : t = t' := by
        rw [ht] at ht'
        cases ht'
        rfl
      have hnodup : (r :: l).Nodup := by
        rw [← hl]
        exact Dict.nodup_values fun j k v => hw.eq_of_get?
      rw [if_neg (List.nodup_cons.mp hnodup).1, if_pos (List.mem_cons_self ..), hself]
    · have hframe := self_loseRequest_of_ne hra reason w
      rw [after_of_ok ht] at hframe
      rw [show t.self r = w.self r from hframe]
      simp [hra]

/-- **`connectionLost`** ends the requests that are under way. -/
lemma self_lost (hw : Registry w) (hfit : ∀ r' j, (w.objs r').id = some j → int32 j = true)
    (reason : Exn) : (w.step (.lost reason)).self r =
      if (w.self r).started then { w.self r with cancelled := true }.ended (.errback reason)
      else w.self r := by
  have hcore := core_unregisterSelf w
  have hreg : Registry (unregisterSelf w) := hw.of_ledger (ledger_of_core hcore)
  have hreq : (unregisterSelf w).requests = w.requests := requests_of_ledger (ledger_of_core hcore)
  have hloop := self_lose_all (r := r) reason _ _ hreg rfl fun j r' hj => by
    rw [hreq] at hj
    exact hfit r' j (hw.entry j r' hj).1
  have hstep : w.step (.lost reason) =
      after (w.requests.values.forM (loseRequest reason)) (unregisterSelf w) :=
    after_congr (connectionLost_run reason w)
  rw [hstep, ← hreq, hloop, self_of_core hcore, hreq]
  refine if_congr ?_ rfl rfl
  rw [Dict.mem_values_iff]
  constructor
  · rintro ⟨j, hj⟩
    exact (hw.entry j r hj).2.1
  · intro hst
    obtain ⟨j, hj⟩ := hw.registered_of_started (r := r) hst
    exact ⟨j, hj.get?⟩

/-! ### Each event -/

/-- The request has the id, if it has one, and all ids fit their field. -/
structure Numbered (r : ℕ) (i : ℤ) (w : World) : Prop where
  id : ∀ j, (w.objs r).id = some j → j = i
  fits : ∀ r' j, (w.objs r').id = some j → int32 j = true

lemma Numbered.before (h : Numbered r i t)
    (hids : ∀ r' j, (s.objs r').id = some j → (t.objs r').id = some j) : Numbered r i s :=
  ⟨fun j hj => h.id j (hids r j hj), fun r' j hj => h.fits r' j (hids r' j hj)⟩

/-- A request that is not an upload, in a client with these callbacks. -/
structure Plays (r : ℕ) (c : Callbacks) (w : World) : Prop extends Registry w where
  callbacks : w.callbacks = c
  download : (w.objs r).kind.isPutContent = false

/-- An event that is about no one brings a request nothing that it takes. -/
lemma brings_of_not_concerns (hw : Registry w) (hn : Numbered r i w) {e : Event}
    (h : ¬Concerns r w e) (c : Callbacks) :
    (brings r i e).elim (w.self r) ((w.self r).next c) = w.self r := by
  cases e with
  | message m raises =>
    simp only [brings]
    split
    · next hm =>
      have hidle : (w.self r).started = false := by
        refine Bool.eq_false_of_not_eq_true fun hst => h ⟨hm.2, ?_⟩
        obtain ⟨j, hreg⟩ := hw.registered_of_started hst
        obtain rfl := hn.id j (hw.entry j r hreg.get?).1
        rw [hm.1]
        exact hreg.get?
      show (if (w.self r).started then _ else w.self r) = w.self r
      rw [hidle]
      rfl
    · rfl
  | start r' | cancel r' | done r' =>
    simp only [brings]
    rw [if_neg (show ¬r' = r from h)]
    rfl
  | error r' e =>
    simp only [brings]
    rw [if_neg (show ¬r' = r from h)]
    rfl
  | lost reason => exact absurd trivial h
  | read n => rfl
  | call k => rfl
  | pause => rfl
  | resume => rfl
  | stop => rfl

/-- **Every event** changes the request by what it brings it. -/
lemma self_step_next (hw : Plays r w.callbacks w) {e : Event} (he : AdmitsAny w e)
    (hn : Numbered r i (w.step e)) :
    (w.step e).self r = (brings r i e).elim (w.self r) ((w.self r).next w.callbacks) := by
  have hbefore := hn.before (hw.toRegistry.movesAny he).ages.ids
  by_cases h : Concerns r w e
  swap
  · rw [brings_of_not_concerns hw.toRegistry hbefore h]
    exact self_step hw.toRegistry he h
  cases e with
  | start r' =>
    obtain rfl : r' = r := h
    have hid := (hw.toRegistry.start he.1 he.2).ages.ids r' w.requestCounter (by simp)
    obtain rfl := hn.id _ hid
    simp only [brings, if_true]
    exact self_start hw.toRegistry he.1 he.2 (hn.fits r' _ hid)
  | message m raises =>
    obtain ⟨hm, hr⟩ := h
    have hreg : Registered w r m.id := ⟨hw.toRegistry, hr⟩
    obtain ⟨hid, hst, -, -⟩ := hw.entry m.id r hr
    have hmi : m.id = i := hbefore.id _ hid
    simp only [brings]
    rw [if_pos ⟨hmi, hm⟩, self_message hreg hm hw.download raises]
    show _ = if (w.self r).started then _ else _
    rw [if_pos (show (w.self r).started = true from hst)]
  | cancel r' =>
    obtain rfl : r' = r := h
    simp only [brings, if_true]
    exact self_cancel_self r' w
  | done r' =>
    obtain rfl : r' = r := h
    obtain ⟨j, hreg⟩ := hw.toRegistry.registered_of_started he
    simp only [brings, if_true]
    exact self_settle_self hreg _
  | error r' e =>
    obtain rfl : r' = r := h
    obtain ⟨j, hreg⟩ := hw.toRegistry.registered_of_started he
    simp only [brings, if_true]
    exact self_settle_self hreg _
  | lost reason => exact self_lost hw.toRegistry hbefore.fits reason
  | read n => cases h
  | call k => cases h
  | pause => cases h
  | resume => cases h
  | stop => cases h

/-- What a request is given does not make an upload of it. -/
lemma Request.next_download (q : Request) (c : Callbacks) (x : Input) :
    (q.next c x).kind.isPutContent = q.kind.isPutContent := by
  have hstarted : q.kind.started.isPutContent = q.kind.isPutContent :=
    congrArg Prod.snd (Kind.started_moves q.kind)
  cases x with
  | start i =>
    by_cases h : ∃ l, q.argError = none ∧ q.kind.startMessages = .ok l
    · obtain ⟨l, harg, hl⟩ := h
      show (q.opened i).kind.isPutContent = _
      rw [q.opened_ok harg hl]
      split <;> exact hstarted
    · show (q.opened i).kind.isPutContent = _
      rw [q.opened_raises fun l harg hl => h ⟨l, harg, hl⟩]
  | message m raises =>
    have hgiven : (q.given c m raises).kind.isPutContent = q.kind.isPutContent := by
      have hmoves := congrArg Prod.snd (Kind.processMessage_moves
        { cancelled := q.cancelled, raises := raises } m q.kind)
      unfold Request.given
      dsimp only
      split <;> exact hmoves
    show (if q.started then q.given c m raises else q).kind.isPutContent = _
    split
    · exact hgiven
    · rfl
  | cancel =>
    show (if q.finished then q else { q with cancelled := true }).kind.isPutContent = _
    split <;> rfl
  | done => rfl
  | error e => rfl
  | lost reason =>
    show (if q.started then { q with cancelled := true }.ended (.errback reason)
      else q).kind.isPutContent = _
    split <;> rfl

lemma Plays.step {c : Callbacks} (hw : Plays r c w) {e : Event} (he : AdmitsAny w e)
    (hn : Numbered r i (w.step e)) : Plays r c (w.step e) := by
  refine ⟨hw.toRegistry.stepAny he,
    (callbacks_of_moves (hw.toRegistry.movesAny he)).trans hw.callbacks, ?_⟩
  have hplays : Plays r w.callbacks w := ⟨hw.toRegistry, rfl, hw.download⟩
  have hself := congrArg (fun q : Request => q.kind.isPutContent) (self_step_next hplays he hn)
  refine Eq.trans hself ?_
  cases brings r i e with
  | none => exact hw.download
  | some x => exact (Request.next_download _ _ x).trans hw.download

/-- **A request that is not an upload behaves as if it were alone**: after any run it is what the
things that the events brought it make of it one after another. -/
theorem alone {w₀ : World} (h₀ : Initial w₀) {es : List Event} {r : ℕ} {i : ℤ}
    (hes : Runs.Legal World.step AdmitsAny w₀ es)
    (hput : (w₀.objs r).kind.isPutContent = false)
    (hn : Numbered r i (Runs.run World.step w₀ es)) :
    (Runs.run World.step w₀ es).self r =
      (es.filterMap (brings r i)).foldl (fun q => q.next w₀.callbacks) (w₀.self r) := by
  have hback := hes.back (I := Registry) (J := Numbered r i)
    (fun _ _ hs he => hs.stepAny he)
    (fun _ _ hs he hn => hn.before (hs.movesAny he).ages.ids) h₀.registry hn
  refine hback.1.view (I := Plays r w₀.callbacks) (fun _ _ hs he => hs.step he.1 he.2)
    (fun s e hs he => ?_) ⟨h₀.registry, rfl, hput⟩
  have hplays : Plays r s.callbacks s := ⟨hs.toRegistry, rfl, hs.download⟩
  rw [self_step_next hplays he.1 he.2, hs.callbacks]

/-- Ids fit their field while the counter does. -/
lemma Registry.fits (hw : Registry w) (h₀ : 0 ≤ w.env.requestIdStart)
    (h : w.requestCounter ≤ 2 ^ 31) : ∀ r j, (w.objs r).id = some j → int32 j = true := by
  intro r j hj
  obtain ⟨hle, hlt, -⟩ := hw.ids r j hj
  simp only [int32, Bool.and_eq_true, decide_eq_true_eq]
  omega

theorem alone_cancelledTwice : (Runs.run World.step cancellable cancelledTwice).self 0 =
    (cancelledTwice.filterMap (brings 0 1)).foldl (fun q => q.next cancellable.callbacks)
      (cancellable.self 0) := by
  have hinitial : Initial cancellable := initial_init _ _
  have hreg : Registry (Runs.run World.step cancellable cancelledTwice) :=
    legal_cancelledTwice.invariant (fun _ _ hs he => hs.stepAny he) hinitial.registry
  have hid : ((Runs.run World.step cancellable cancelledTwice).objs 0).id = some 1 := by rfl
  refine alone hinitial legal_cancelledTwice rfl ⟨fun j hj => ?_, hreg.fits ?_ ?_⟩
  · rw [hid] at hj
    exact (Option.some.inj hj).symm
  · show (0 : ℤ) ≤ 1
    decide
  · show (3 : ℤ) ≤ 2 ^ 31
    decide

end Magicicada.Client
