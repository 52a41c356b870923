import Magicicada.Performing

/-!
Every event is a number of acts: the events one by one, and what that says about runs.
-/

namespace Magicicada.Client

open Pb Errors Requests Prog

variable {T : Terms} {w : World} {r p : ℕ} {i : ℤ}

/-! ### A message for a request -/

lemma acts_error (hw : Registered w r i) (h : T.timely → ¬Uploading w r) (o : Outcome) :
    Acts T w (after (Request.settle r o) w) := by
  rw [after_of_ok (settle_run hw.toRegistry hw.get? o)]
  exact .single (.finish hw.get? h o)

/-- What a request raises while it deals with a message ends it. -/
lemma acts_caught {x : M PUnit} (hx : Acts T w (after x w))
    (herr : ∀ e t, x.run w = .error e t → Registered t r i ∧ (T.timely → ¬Uploading t r)) :
    Acts T w (after (tryCatch x (errorOf i) : M PUnit) w) := by
  cases hres : x.run w with
  | ok a t =>
    have hrun : (tryCatch x (errorOf i) : M PUnit).run w = .ok a t := by rw [run_tryCatch, hres]
    rw [after_of_ok hres] at hx
    rwa [after_of_ok hrun]
  | error e t =>
    obtain ⟨ht, hup⟩ := herr e t hres
    have hrun : (tryCatch x (errorOf i) : M PUnit).run w =
        .ok ⟨⟩ (t.finish r i (.errback e)) := by
      rw [run_tryCatch, hres]
      exact errorOf_run ht e
    rw [after_of_error hres] at hx
    rw [after_of_ok hrun]
    exact hx.tail (.finish ht.get? hup _)

/-- What a request does in reply to a message, where only a new producer spares an upload. -/
lemma acts_carryOut (hw : Tidy T.timely w) {m : Message} (hr : Registered w r m.id)
    (raises : Option Exn) {reply : Reply}
    (hends : (∀ offset, reply ≠ .produce offset) → T.timely → ¬Uploading w r)
    (hold : ∀ offset, reply = .produce offset → T.careful →
      (∀ p, (w.objs r).producer = some p → (w.producers p).producing = false) ∧
      ((w.objs r).producing = true → ¬w.throttled))
    (hfirst : ∀ offset e t, reply = .produce offset → (produce r offset).run w = .error e t →
      T.timely → ¬Uploading w r) :
    Acts T w (after (tryCatch (carryOut r m raises reply) (errorOf m.id) : M PUnit) w) := by
  cases reply with
  | stay => exact acts_caught (r := r) .refl fun e t ht => nomatch ht
  | done =>
    have hup := hends fun _ h => nomatch h
    refine acts_caught (r := r) (acts_error hr hup .callback) fun e t ht => ?_
    exact nomatch (settle_run hr.toRegistry hr.get? .callback).symm.trans ht
  | error e =>
    have hup := hends fun _ h => nomatch h
    refine acts_caught (r := r) (acts_error hr hup (.errback e)) fun e' t ht => ?_
    exact nomatch (settle_run hr.toRegistry hr.get? (.errback e)).symm.trans ht
  | raise e =>
    refine acts_caught (r := r) .refl fun e' t ht => ?_
    cases ht
    exact ⟨hr, hends fun _ h => nomatch h⟩
  | notify =>
    have hstill := still_notify m raises
    refine acts_caught (r := r) (.single (.still (hstill w))) fun e t ht => ?_
    have hn := hstill.error ht
    exact ⟨hr.of_ledger hn.ledger, fun h hup => hends (fun _ h => nomatch h) h (hn.uploading hup)⟩
  | produce offset =>
    refine acts_caught (r := r) (acts_produce hw hr.get? offset (fun h => (hold offset rfl h).1)
      fun h => (hold offset rfl h).2) fun e t ht => ⟨?_, fun h hup => ?_⟩
    · have hproduce := (hr.produce offset).2
      have hrun : (produce r offset).run w = .error e t := ht
      rwa [after_of_error hrun] at hproduce
    · exact hfirst offset e t rfl ht h (produce_error hw ht hup)

/-- A message for a registered request, which ends no upload. -/
lemma acts_dispatch (hw : Tidy T.timely w) {m : Message} {raises : Option Exn}
    (hr : w.requests.get? m.id = some r) (hi : int32 m.id = true)
    (hT : T.timely → Uploading w r → Benign w r m raises)
    (hC : T.careful → m.type = .beginContent → (w.objs r).kind.isPutContent = true →
      (∀ p, (w.objs r).producer = some p → (w.producers p).producing = false) ∧
      ((w.objs r).producing = true → ¬w.throttled)) :
    Acts T w (after (tryCatch (Request.processMessage r m raises) (errorOf m.id) : M PUnit) w) := by
  let c : Context := { cancelled := (w.objs r).cancelled, raises := raises }
  let u := w.setObj r fun q => { q with kind := (q.kind.processMessage c m).1 }
  have hrun : (Request.processMessage r m raises).run w =
      (carryOut r m raises ((w.objs r).kind.processMessage c m).2).run u := rfl
  have hafter : after (tryCatch (Request.processMessage r m raises) (errorOf m.id) : M PUnit) w =
      after (tryCatch (carryOut r m raises ((w.objs r).kind.processMessage c m).2)
        (errorOf m.id) : M PUnit) u := by
    unfold after
    rw [run_tryCatch, run_tryCatch, hrun]
  have hstill : Still w u := still_setKind w r fun k => (k.processMessage c m).1
  have hact : Act T w u := .still hstill
  have hu : Tidy T.timely u := hw.of_act hact
  have hobj : (u.objs r).producer = (w.objs r).producer ∧
      (u.objs r).producing = (w.objs r).producing := by simp [u]
  rw [hafter]
  refine .head hact (acts_carryOut hu ⟨hu.toRegistry, hr⟩ raises (fun hne h hup => ?_)
    (fun offset hreply h => ?_) fun offset e t hreply ht h hup => ?_)
  · -- what ends the request is no benign message
    obtain ⟨q', hreply, -⟩ := (hT h (hstill.uploading hup)).reply
    exact hne _ (congrArg Prod.snd hreply)
  · obtain ⟨htype, hkind⟩ := produce_reply hreply
    rw [hobj.1, hobj.2]
    exact hC h htype hkind
  · -- an upload in progress has got a benign message, which does not raise
    have hret := (hT h (hstill.uploading hup)).returns hw.toRegistry hr hi
    rw [raised_of_error (e := e) (t := t) (by rw [hrun, hreply]; exact ht)] at hret
    cases hret

lemma acts_message (hw : Tidy T.timely w) {m : Message} {raises : Option Exn}
    (hm : validateMessage m = []) (hi : int32 m.id = true)
    (hT : T.timely → Timely w (.message m raises)) {R : List ℕ → World → Prop}
    (hC : T.careful → Careful R w (.message m raises)) : Acts T w (w.step (.message m raises)) := by
  show Acts T w (after (processMessage m raises) w)
  rw [processMessage_valid hm]
  cases hr : w.requests.get? m.id with
  | some r =>
    have := acts_dispatch (T := T) hw hr hi (fun h => hT h r hr) fun h ht hk => hC h ht r hr hk
    unfold after at *
    rwa [dispatch_registered hr]
  | none =>
    have := acts_handle (T := T) m raises w
    unfold after at *
    rwa [dispatch_unregistered hr]

/-! ### Starting and cancelling -/

instance : IsPreorder World (Acts T) where
  refl _ := .refl
  trans _ _ _ h1 h2 := h1.trans h2

/-- A registered request sends a message. -/
lemma acts_sendMessage (hw : Registered w r i) (m : Message) :
    Acts T w (after (Request.sendMessage r m) w) := by
  obtain ⟨hid, -, hfin, -⟩ := hw.entry i r hw.get?
  by_cases hi : int32 i = true
  · rw [after_of_ok (sendMessage_run hid hi m)]
    exact .single (.send _ fun _ _ => ⟨r, hid, hfin⟩)
  · obtain ⟨e, he⟩ := sendMessage_raises (w := w) (r := r) (fun j hj => by
      rw [hid] at hj
      cases hj
      exact Bool.eq_false_of_not_eq_true hi) m
    rw [after_of_error he]

lemma acts_sendMessages (messages : List Message) :
    ∀ w, Registered w r i → Acts T w (after (messages.forM (Request.sendMessage r)) w) := by
  induction messages with
  | nil => exact fun w _ => .refl
  | cons m messages ih =>
    intro w hw
    have hacts := acts_sendMessage (T := T) hw m
    refine after_bind_of (f := fun _ => messages.forM (Request.sendMessage r)) (fun _ t ht => ?_)
      fun _ t ht => ?_
    · rw [after_of_ok ht] at hacts
      exact hacts.trans (ih t (hw.of_core ((frame_sendMessage r m).ok ht)))
    · rwa [after_of_error ht] at hacts

/-- Messages leave the producers with their requests. -/
lemma producers_sendMessages (r : ℕ) (messages : List Message) :
    Within (Frame fun w : World => (w.nextProducer, fun p => (w.producers p).request))
      (messages.forM (Request.sendMessage r)) := by
  refine within_forM _ fun m _ => along_sendMessage fun i w => ?_
  have h := slows_sendMessage { m with id := i } w
  exact Prod.ext (nextProducer_of_core h.core) (funext fun p => h.producer_request p)

/-- `start` of a client-side request. -/
lemma acts_start (hw : Tidy T.timely w) (hid : (w.objs r).id = none)
    (hsrc : (w.objs r).source = none) : Acts T w (w.step (.start r)) := by
  have henroll : Act T w (w.enroll r) := .enroll hid
  have hv : Tidy T.timely (w.enroll r) := hw.of_act henroll
  have hreg : Registered (w.enroll r) r w.requestCounter := ⟨hv.toRegistry, by simp⟩
  have hnone : ∀ p < w.nextProducer, (w.producers p).request ≠ r := by
    rintro p hp rfl
    exact hw.began p hp hid
  have hstart : w.step (.start r) = after (startExchange r) (w.enroll r) := by
    show after (start r) w = _
    unfold after
    rw [start_run hw.toRegistry hid hsrc]
  rw [hstart]
  refine .head henroll ?_
  refine startExchange_trans (fun messages _ => acts_sendMessages messages _ hreg)
    (fun t => .single (.still (still_setKind t r Kind.started))) fun messages t ht => ?_
  have hframe := (producers_sendMessages r messages).ok ht
  have hu : Registered (t.setObj r fun q => { q with kind := q.kind.started }) r
      w.requestCounter := (hreg.of_core ((frame_sendMessages r messages).ok ht)).of_ledger
    (still_setKind t r Kind.started).ledger
  refine acts_error hu ?_ _
  rintro - ⟨p, hp, hreq, -⟩
  have hnext : t.nextProducer = w.nextProducer := congrArg Prod.fst hframe
  have hrequest := congrFun (congrArg Prod.snd hframe) p
  exact hnone p (hnext ▸ hp) (hrequest.symm.trans hreq)

lemma acts_stopProducer (w : World) (r : ℕ) :
    Acts T w (withProducer r BytesMessageProducer.stopProducing w) := by
  unfold withProducer
  split
  · exact .single (.rest _ _ fun q => ⟨rfl, fun h => (nomatch h), id⟩)
  · exact .refl

lemma acts_cancel (r : ℕ) : Within (Acts T) (Request.cancel r) := by
  have hsend : Within (Acts T) (Request.sendMessage r { type := .cancelRequest }) :=
    along_sendMessage fun _ w =>
      .single (.send _ fun _ h => by rcases h with h | h <;> cases h)
  have hmark : ∀ w : World, Still w (w.setObj r fun q => { q with cancelled := true }) := by
    refine fun w => ⟨ledger_setCancelled w r, rfl, rfl, rfl, rfl, rfl, fun r' hr' => ?_⟩
    by_cases h : r' = r
    · subst h; simp
    · rwa [setObj_objs_of_ne h]
  exact along_cancel (fun w => .single (.still (hmark w)))
    (along_customCancel (fun w => acts_stopProducer w r) hsend)

/-! ### Losing the connection -/

lemma factory_foldl {α : Type} {f : World → α → World} (h : ∀ w a, (f w a).factory = w.factory)
    (l : List α) : ∀ w, (l.foldl f w).factory = w.factory := by
  induction l with
  | nil => exact fun _ => rfl
  | cons a l ih => exact fun w => (ih _).trans (h w a)

lemma factory_pauseRequest (r : ℕ) (w : World) :
    (Request.pauseProducing r w).factory = w.factory := by
  unfold Request.pauseProducing withProducer
  split <;> rfl

lemma factory_pause (w : World) : (Handler.pauseProducing w).factory = w.factory :=
  factory_foldl (fun w r => factory_pauseRequest r w) _ w

lemma throttled_of_factory {s t : World} (h : t.factory = s.factory) :
    t.throttled → s.throttled := by
  unfold World.throttled
  rw [h]
  exact id

lemma slow_of_factory {s t : World} (h : Slows s t) (hf : t.factory = s.factory) : Act T s t :=
  .slow h (throttled_of_factory hf) fun ht => Or.inl (throttled_of_factory hf.symm ht)

/-- A request `connectionLost` gets to is cancelled. -/
lemma cancelIfStarted_cancelled (hw : Registered w r i) :
    ((after (cancelIfStarted r) w).objs r).cancelled = true := by
  obtain ⟨-, hst, hfin, -⟩ := hw.entry i r hw.get?
  show ((after (if (w.objs r).started then Request.cancel r else pure ⟨⟩) w).objs r).cancelled =
    true
  rw [if_pos hst]
  exact cancel_cancelled (Or.inl hfin)

/-- A round of the loop of `connectionLost`. -/
lemma acts_loseRequest (hw : Registered w r i) (reason : Exn) :
    Acts T w (after (loseRequest reason r) w) := by
  have hslows := slows_stopRequest r w
  have hslow : Act T w (Request.stopProducing r w) :=
    slow_of_factory hslows (factory_pauseRequest r w)
  have hstop : Registered (Request.stopProducing r w) r i := hw.of_core hslows.core
  have hcancel : Acts T (Request.stopProducing r w)
      (after (cancelIfStarted r) (Request.stopProducing r w)) :=
    within_bind within_get (fun _ => within_ite (fun _ => acts_cancel r) fun _ => within_pure _) _
  have hcancelled := cancelIfStarted_cancelled hstop
  refine .head hslow ?_
  show Acts T _ (after (cancelIfStarted r >>= fun _ => tryCatch (Request.error r reason) fun e =>
    if e = .alreadyCalledError then pure ⟨⟩ else throw e) (Request.stopProducing r w))
  refine after_bind_of (fun _ t ht => ?_) fun _ t ht => ?_
  · rw [after_of_ok ht] at hcancel hcancelled
    have hreg := hstop.of_ledger ((frame_cancelIfStarted r).ok ht)
    have hset := settle_run hreg.toRegistry hreg.get? (.errback reason)
    refine hcancel.tail ?_
    rw [after_of_ok (t := t.finish r i (.errback reason)) (a := ⟨⟩) (by
      rw [run_tryCatch, Request.error, hset])]
    refine .finish hreg.get? ?_ _
    rintro - ⟨p, -, hreq, hlive, -⟩
    have := hlive.cancelled
    rw [hreq, hcancelled] at this
    cases this
  · rwa [after_of_error ht] at hcancel

lemma acts_loseAll (reason : Exn) (l : List ℕ) : ∀ w, Registry w → w.requests.values = l →
    Acts T w (after (l.forM (loseRequest reason)) w) := by
  induction l with
  | nil => exact fun w _ _ => .refl
  | cons r l ih =>
    intro w hw hl
    obtain ⟨i, hi, hrest⟩ := Dict.values_cons hl
    have hreg : Registered w r i := ⟨hw, hi⟩
    have hacts := acts_loseRequest (T := T) hreg reason
    refine after_bind_of (f := fun _ => l.forM (loseRequest reason)) (fun _ t ht => ?_)
      fun _ t ht => ?_
    · rw [after_of_ok ht] at hacts
      rcases hreg.lose_cases reason with ⟨t', ht', hmoves, hreq⟩ | ⟨-, e, t', ht', -⟩
      · obtain rfl : t = t' := by
          have := ht.symm.trans ht'
          cases this
          rfl
        exact hacts.trans (ih t (hw.of_moves hmoves) (by rw [hreq, hrest]))
      · exact nomatch ht.symm.trans ht'
    · rwa [after_of_error ht] at hacts

lemma acts_cancelDelayedCall (d : Option ℕ) (w : World) : Acts T w (cancelDelayedCall d w) := by
  cases d with
  | none => exact .refl
  | some k =>
    refine .single (.calls k _ fun c => ?_)
    split
    · exact ⟨rfl, fun _ => ‹_›⟩
    · exact ⟨rfl, id⟩

lemma acts_unregisterSelf (w : World) : Acts T w (unregisterSelf w) :=
  along_unregisterSelf acts_cancelDelayedCall w

lemma acts_lost (hw : Registry w) (reason : Exn) : Acts T w (w.step (.lost reason)) := by
  have hledger := ledger_of_core (core_unregisterSelf w)
  have := acts_loseAll (T := T) reason w.requests.values (unregisterSelf w)
    (hw.of_ledger hledger) (by rw [requests_of_ledger hledger])
  show Acts T w (after (connectionLost reason) w)
  unfold after at *
  rw [connectionLost_run]
  exact (acts_unregisterSelf w).trans this

/-! ### Timers -/

/-- Changing a flow turns no throttle on unless it is the flow of writes and the change does. -/
lemma throttled_setFlow {w : World} {d : Dir} {f : Flow → Flow}
    (hf : d = .writes → ∀ g, (f g).throttling = true → g.throttling = true)
    (h : (w.setFlow d f).throttled) : w.throttled := by
  obtain ⟨g, hg, ht⟩ := h
  obtain ⟨g', hg', rfl⟩ := Option.map_eq_some_iff.mp hg
  refine ⟨g', hg', ?_⟩
  cases d with
  | reads => exact ht
  | writes => exact hf rfl _ ht

/-- Changing a flow lifts no throttle unless it is the flow of writes and the change does. -/
lemma setFlow_throttled {w : World} {d : Dir} {f : Flow → Flow}
    (hf : d = .writes → ∀ g, g.throttling = true → (f g).throttling = true) (h : w.throttled) :
    (w.setFlow d f).throttled := by
  obtain ⟨g, hg, ht⟩ := h
  refine ⟨g.setFlow d f, Option.map_eq_some_iff.mpr ⟨g, hg, rfl⟩, ?_⟩
  cases d with
  | reads => exact ht
  | writes => exact hf rfl _ ht

/-- A change of a flow that leaves its throttle alone. -/
lemma acts_setFlow {w : World} {d : Dir} {f : Flow → Flow} (hlimit : ∀ g, (f g).limit = g.limit)
    (hf : ∀ g, (f g).throttling = g.throttling) : Act T w (w.setFlow d f) :=
  .slow (slows_setFlow hlimit) (throttled_setFlow fun _ g h => hf g ▸ h)
    fun h => Or.inl (setFlow_throttled (fun _ g h => (hf g).trans h) h)

lemma acts_reset (d : Dir) (w : World) : Acts T w (resetThisSecond d w) := by
  have hzero : Act T w (w.setFlow d fun f => { f with thisSecond := 0 }) :=
    acts_setFlow (fun _ => rfl) fun _ => rfl
  let a := w.setFlow d fun f => { f with thisSecond := 0 }
  have hlater : Act T a (callLater 1 (.reset d) a) :=
    slow_of_factory (slows_callLater fun _ => Func.noConfusion) rfl
  have hid : Act T (callLater 1 (.reset d) a) (resetThisSecond d w) :=
    acts_setFlow (fun _ => rfl) fun _ => rfl
  exact .head hzero (.head hlater (.single hid))

lemma factory_maybeCallLater (i : Option ℕ) (t : ℚ) (f : Func) (w : World) :
    (maybeCallLater i t f w).2.factory = w.factory := by
  unfold maybeCallLater
  repeat' split
  all_goals rfl

/-- Counting what was read throttles no writes. -/
lemma throttled_registerRead {n : ℕ} (h : (registerOwn .reads n w).throttled) : w.throttled := by
  have hset : ∀ (w : World) (f : Flow → Flow), (w.setFlow .reads f).throttled → w.throttled :=
    fun w f => throttled_setFlow fun h => nomatch h
  have hthrottle : ∀ w : World, (Factory.throttle .reads w).throttled → w.throttled := by
    intro w
    unfold Factory.throttle
    split
    · exact id
    · exact hset w _
    · exact fun h => hset w _ (throttled_of_factory rfl h)
  have hcheck : ∀ w : World, (checkBandwidth .reads w).throttled → w.throttled := by
    intro w h
    unfold checkBandwidth at h
    split at h
    · exact h
    · split at h
      · exact hthrottle _ (throttled_of_factory (factory_maybeCallLater _ _ _ _) (hset _ _ h))
      · exact h
  unfold registerOwn at h
  split at h
  · unfold register at h
    split at h
    · exact h
    · split at h
      · exact hset w _ (hcheck _ h)
      · exact h
  · exact h

/-- Counting lifts no throttle. -/
lemma registerOwn_throttled (d : Dir) (n : ℕ) (h : w.throttled) :
    (registerOwn d n w).throttled := by
  have hthrottle : ∀ w : World, w.throttled → (Factory.throttle d w).throttled := by
    intro w h
    have hset : (w.setFlow d fun f => { f with throttling := true }).throttled :=
      setFlow_throttled (fun _ _ _ => rfl) h
    unfold Factory.throttle
    split
    · exact h
    · exact hset
    · cases d with
      | reads => exact throttled_of_factory rfl hset
      | writes => exact throttled_of_factory (factory_pause _).symm hset
  have hcheck : ∀ w : World, w.throttled → (checkBandwidth d w).throttled := by
    intro w h
    unfold checkBandwidth
    split
    · exact h
    · split
      · refine setFlow_throttled (fun _ _ h => h) ?_
        exact throttled_of_factory (factory_maybeCallLater _ _ _ _).symm (hthrottle w h)
      · exact h
  unfold registerOwn
  split
  · unfold register
    split
    · exact h
    · split
      · exact hcheck _ (setFlow_throttled (fun _ _ h => h) h)
      · exact h
  · exact h

lemma acts_unthrottle (d : Dir) (hw : Tidy T.timely w) {R : List ℕ → World → Prop}
    (hhead : ∀ r l w, R (r :: l) w → ∀ p, (w.objs r).producer = some p → ¬w.throttled)
    (htail : ∀ r l w t, Tidy T.timely w → (∃ i, w.requests.get? i = some r) → R (r :: l) w →
      (Request.resumeProducing r).run w = .ok ⟨⟩ t → R l t)
    (hU : d = .writes → T.lifts)
    (hR : T.careful → d = .writes → w.factory.bind Factory.client = some .self →
      R w.requests.values
        ((w.setFlow .writes fun f => { f with unthrottleId := none }).setFlow .writes
          fun f => { f with throttling := false })) :
    Acts T w (after (Factory.unthrottle d) w) := by
  let u := w.setFlow d fun f => { f with unthrottleId := none }
  have hu : Act T w u := acts_setFlow (fun _ => rfl) fun _ => rfl
  have hclient : (w.setFlow d fun f => { f with unthrottleId := none }).factory.bind
      Factory.client = w.factory.bind Factory.client := client_of_setFlow w d _
  let v := u.setFlow d fun f => { f with throttling := false }
  have hv : Act T u v := by
    refine .slow (slows_setFlow fun _ => rfl) (throttled_setFlow fun _ _ h => nomatch h) fun h => ?_
    cases d with
    | reads => exact Or.inl (setFlow_throttled (fun h => nomatch h) h)
    | writes => exact Or.inr (hU rfl)
  refine .head hu ?_
  unfold Factory.unthrottle modifyFlow
  rw [after_modify_bind, after_get_bind, hclient]
  split
  · exact .refl
  · exact .single hv
  · next hself =>
    refine .head hv ?_
    show Acts T v (after (StorageClient.unthrottle d) v)
    cases d with
    | reads => exact .single (.still ⟨rfl, rfl, rfl, rfl, rfl, rfl, fun _ => id⟩)
    | writes =>
      refine acts_resume (R := fun l w => T.careful → R l w) (fun r l w h hC => hhead r l w (h hC))
        (fun r l w t hw hr h ht hC => htail r l w t hw hr (h hC) ht)
        ((hw.of_act hu).of_act hv) fun hC => ?_
      exact hR hC rfl hself

/-- The event is an unthrottle of the writes. -/
def Unthrottles (w : World) : Event → Prop
  | .call k => ∃ c, w.calls[k]? = some c ∧ c.active = true ∧ c.func = .unthrottle .writes
  | _ => False

/-- The reactor runs a delayed call. -/
lemma acts_call (k : ℕ) (hw : Tidy T.timely w) {R : List ℕ → World → Prop}
    (hhead : ∀ r l w, R (r :: l) w → ∀ p, (w.objs r).producer = some p → ¬w.throttled)
    (htail : ∀ r l w t, Tidy T.timely w → (∃ i, w.requests.get? i = some r) → R (r :: l) w →
      (Request.resumeProducing r).run w = .ok ⟨⟩ t → R l t)
    (hU : Unthrottles w (.call k) → T.lifts) (hcare : T.careful → Careful R w (.call k)) :
    Acts T w (w.step (.call k)) := by
  show Acts T w (after (runCall k) w)
  rcases after_runCall k w with h | ⟨c, hc, ha, h⟩ <;> rw [h]
  have hcalled : Act T w (w.called k) := by
    refine .calls k _ fun c => ⟨rfl, fun h => ?_⟩
    simp [DelayedCall.active] at h
  have htidy := hw.of_act hcalled
  refine .head hcalled ?_
  have hmem := List.mem_of_getElem? hc
  cases hfunc : c.func with
  | go p =>
    have hp := hw.scheduled c hmem p hfunc
    refine acts_go (T := T) hp fun hT hlive => ?_
    -- a finished request has no live producer with a step scheduled
    refine Bool.eq_false_of_not_eq_true fun hfin => hw.quiet hT _ hfin ?_
    exact ⟨p, hp, rfl, ⟨hlive.1, hlive.2, hlive.3⟩, c, hmem, hfunc, ha⟩
  | reset d => exact acts_reset d _
  | unthrottle d =>
    refine acts_unthrottle d htidy hhead htail (fun hd => hU ⟨c, hc, ha, hd ▸ hfunc⟩)
      fun hC hd hself => ?_
    subst hd
    exact hcare hC c hc ha hfunc hself

/-! ### All events -/

/-- The events of a run of client-side requests; the ids of messages fit their field. -/
def AdmitsWire (w : World) (e : Event) : Prop :=
  Admits w e ∧ ∀ m raises, e = .message m raises → int32 m.id = true

/-- **Every event is a number of acts**, and meets the conditions on them. -/
theorem acts_step {R : List ℕ → World → Prop}
    (hhead : ∀ r l w, R (r :: l) w → ∀ p, (w.objs r).producer = some p → ¬w.throttled)
    (htail : ∀ r l w t, Tidy T.timely w → (∃ i, w.requests.get? i = some r) → R (r :: l) w →
      (Request.resumeProducing r).run w = .ok ⟨⟩ t → R l t)
    (hw : Tidy T.timely w) {e : Event} (he : AdmitsWire w e) (hT : T.timely → Timely w e)
    (hU : Unthrottles w e → T.lifts) (hcare : T.careful → Careful R w e) : Acts T w (w.step e) := by
  cases e with
  | start r => exact acts_start hw he.1.1 he.1.2
  | read n =>
    exact .single (.slow (slows_registerOwn .reads n w) throttled_registerRead
      fun h => Or.inl (registerOwn_throttled _ _ h))
  | message m raises => exact acts_message hw he.1 (he.2 m raises rfl) hT hcare
  | cancel r => exact acts_cancel r w
  | call k => exact acts_call k hw hhead htail hU hcare
  | pause => exact .single (slow_of_factory (slows_pause w) (factory_pause w))
  | resume =>
    exact acts_resume (R := fun l w => T.careful → R l w) (fun r l w h hC => hhead r l w (h hC))
      (fun r l w t hw hr h ht hC => htail r l w t hw hr (h hC) ht) hw hcare
  | stop => exact .single (slow_of_factory (slows_stop w) (factory_pause w))
  | done r =>
    obtain ⟨i, hr⟩ := hw.registered_of_started he.1
    exact acts_error hr hT _
  | error r e =>
    obtain ⟨i, hr⟩ := hw.registered_of_started he.1
    exact acts_error hr hT _
  | lost reason => exact acts_lost hw.toRegistry reason

end Magicicada.Client
