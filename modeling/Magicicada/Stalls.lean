import Magicicada.Resuming
import Magicicada.Teardown

/-!
No upload stalls while the handler is not paused.

Every event but those that resume the handler carries uploads on, unless it pauses the handler; and
resuming the handler sets all of them going again.
-/

namespace Magicicada.Client

open Pb Errors Requests Prog

variable {s t u w : World} {r p : ℕ} {i : ℤ}

/-! ### What carries uploads on -/

lemma smooth_request (r : ℕ) (m : Message) : Within Smooth (Request.sendMessage r m) :=
  along_sendMessage fun _ => smooth_sendMessage _

lemma smooth_notify (m : Message) (raises : Option Exn) : Within Smooth (notify m raises) :=
  along_notify fun _ _ => smooth_still ⟨rfl, rfl, rfl, rfl, rfl, rfl, fun _ => id⟩ rfl rfl
    fun _ => rfl

lemma smooth_handle (m : Message) (raises : Option Exn) : Within Smooth (handle m raises) := by
  refine along_handle (within_modify (smooth_sendMessage _)) (within_modify fun w => ?_)
    (smooth_notify m raises)
  exact smooth_still ⟨rfl, rfl, rfl, rfl, rfl, rfl, fun _ => id⟩ rfl rfl fun _ => rfl

lemma smooth_reject (m : Message) (invalid : List Validators.Invalid) :
    Within Smooth (rejectMessage m invalid) :=
  along_reject (fun _ _ => smooth_still ⟨rfl, rfl, rfl, rfl, rfl, rfl, fun _ => id⟩ rfl rfl
    fun _ => rfl) fun m w _ => smooth_sendMessage m w

lemma smooth_setKind (w : World) (r : ℕ) (f : Kind → Kind) :
    Smooth w (w.setObj r fun q => { q with kind := f q.kind }) := by
  refine smooth_still (still_setKind w r f) rfl rfl fun r' => ?_
  by_cases h : r' = r
  · subst h; simp
  · rw [setObj_objs_of_ne h]

/-- A request that is done or has an error is no longer registered. -/
lemma smooth_finish (hr : w.requests.get? i = some r) (o : Outcome) :
    Smooth w (w.finish r i o) := by
  have hobj := finish_obj w r i o
  refine fun hw => ⟨hw.of (hw.toTidy.finish hr False.elim o) rfl (fun _ => rfl)
    (fun r' i h => (hobj r').1.trans h) (fun _ => rfl), fun j r' hj =>
    (registered_of_finish hj).2, fun h => ⟨h, fun r' hr' => ⟨?_, fun p hp hc hf => ?_⟩⟩⟩
  · by_cases h : r' = r
    · subst h
      rw [finish_objs_self]
      exact hr'.1
    · rw [finish_objs_of_ne h]
      exact hr'.1
  · exact hr'.2 p ((hobj r').2.1.symm.trans hp) ((hobj r').2.2.symm.trans hc) hf

lemma smooth_settle (hw : Registered w r i) (o : Outcome) :
    Smooth w (after (Request.settle r o) w) := by
  rw [after_of_ok (settle_run hw.toRegistry hw.get? o)]
  exact smooth_finish hw.get? o

/-- A producer is stopped only once its request is cancelled. -/
lemma smooth_stopProducer (hc : (w.objs r).cancelled = true) :
    Smooth w (withProducer r BytesMessageProducer.stopProducing w) := by
  unfold withProducer
  cases hp : (w.objs r).producer with
  | none => exact refl_of Smooth w
  | some p =>
    refine fun hw => ⟨hw.of_core (hw.toTidy.of_slows (slows_setProducer w p)) rfl
      (owners_setProducer w p fun _ => rfl), fun _ _ => id, fun h => ⟨h, fun r' hr' => ⟨hr'.1, ?_⟩⟩⟩
    intro p' hp' hc' hf
    have hne : p' ≠ p := by
      rintro rfl
      obtain rfl : r' = r := (hw.owner r' p' hp').2.symm.trans (hw.owner r p' hp).2
      exact nomatch hc.symm.trans hc'
    have hsame : (BytesMessageProducer.stopProducing p w).producers p' = w.producers p' :=
      setProducer_producers_of_ne hne _
    rw [hsame] at hf ⊢
    exact hr'.2 p' hp' hc' hf

lemma smooth_cancel (r : ℕ) : Within Smooth (Request.cancel r) := by
  intro w
  unfold Request.cancel
  rw [after_get_bind]
  split
  · exact refl_of Smooth w
  have hcancelled : Smooth w (w.setObj r fun q => { q with cancelled := true }) := by
    refine smooth_still ⟨ledger_setCancelled w r, rfl, rfl, rfl, rfl, rfl, fun r' hr' => ?_⟩ rfl rfl
      fun r' => ?_
    · by_cases h : r' = r
      · subst h; simp
      · rwa [setObj_objs_of_ne h]
    · by_cases h : r' = r
      · subst h; simp
      · rw [setObj_objs_of_ne h]
  refine trans_of Smooth hcancelled ?_
  let v := w.setObj r fun q => { q with cancelled := true }
  have hv : (v.objs r).cancelled = true := by simp [v]
  show Smooth v (after (if (w.objs r).started && !(w.objs r).cancelled then customCancel r
    else pure ⟨⟩) v)
  split
  swap
  · exact refl_of Smooth v
  unfold customCancel
  rw [after_get_bind]
  split
  · exact smooth_request r _ v
  · exact trans_of Smooth (smooth_stopProducer hv) (smooth_request r _ _)
  · exact refl_of Smooth v

/-! ### Messages for a request -/

/-- What a request does about a message carries uploads on. -/
lemma smooth_carryOut {m : Message} (hr : w.requests.get? m.id = some r)
    (hi : int32 m.id = true) (raises : Option Exn) (reply : Reply) :
    Smooth w (after (tryCatch (carryOut r m raises reply) (errorOf m.id) : M PUnit) w) := by
  intro hw
  have hreg : Registered w r m.id := ⟨hw.toRegistry, hr⟩
  have hok : ∀ {x : M PUnit} {t}, x.run w = .ok ⟨⟩ t →
      after (tryCatch x (errorOf m.id) : M PUnit) w = t := by
    intro x t hx
    exact after_of_ok (by rw [run_tryCatch, hx])
  cases reply with
  | stay => exact ⟨hw, refl_of Carries w⟩
  | done =>
    have hset := settle_run hreg.toRegistry hr .callback
    rw [hok (x := carryOut r m raises .done) hset]
    exact smooth_finish hr _ hw
  | error e =>
    have hset := settle_run hreg.toRegistry hr (.errback e)
    rw [hok (x := carryOut r m raises (.error e)) hset]
    exact smooth_finish hr _ hw
  | raise e =>
    have hrun : (tryCatch (carryOut r m raises (.raise e)) (errorOf m.id) : M PUnit).run w =
        (errorOf m.id e).run w := rfl
    rw [after_of_ok (hrun.trans (errorOf_run hreg e))]
    exact smooth_finish hr _ hw
  | produce offset =>
    obtain ⟨t, hrun, ht, hcarries⟩ := hw.produce hr hi offset
    rw [hok (x := carryOut r m raises (.produce offset)) hrun]
    exact ⟨ht, hcarries⟩
  | notify =>
    have hsmooth := smooth_notify m raises w
    cases hrun : (notify m raises).run w with
    | ok a t =>
      rw [after_of_ok hrun] at hsmooth
      rw [hok (x := carryOut r m raises .notify) hrun]
      exact hsmooth hw
    | error e t =>
      rw [after_of_error hrun] at hsmooth
      have ht : Registered t r m.id := hreg.of_ledger ((still_notify m raises).error hrun).ledger
      have hcatch : (tryCatch (carryOut r m raises .notify) (errorOf m.id) : M PUnit).run w =
          (errorOf m.id e).run t := by
        have hcarry : (carryOut r m raises .notify).run w = .error e t := hrun
        rw [run_tryCatch, hcarry]
      rw [after_of_ok (hcatch.trans (errorOf_run ht e))]
      exact trans_of Smooth hsmooth (smooth_finish ht.get? _) hw

lemma smooth_dispatch {m : Message} (hi : int32 m.id = true) (raises : Option Exn) :
    Smooth w (after (dispatch m raises) w) := by
  cases hr : w.requests.get? m.id with
  | none =>
    rw [after_congr (dispatch_unregistered hr raises)]
    exact smooth_handle m raises w
  | some r =>
    let c : Context := { cancelled := (w.objs r).cancelled, raises := raises }
    let v := w.setObj r fun q => { q with kind := (q.kind.processMessage c m).1 }
    have hrun : (Request.processMessage r m raises).run w =
        (carryOut r m raises ((w.objs r).kind.processMessage c m).2).run v := rfl
    have hcatch : (tryCatch (Request.processMessage r m raises) (errorOf m.id) : M PUnit).run w =
        (tryCatch (carryOut r m raises ((w.objs r).kind.processMessage c m).2)
          (errorOf m.id) : M PUnit).run v := by
      rw [run_tryCatch, run_tryCatch, hrun]
    rw [after_congr ((dispatch_registered hr raises).trans hcatch)]
    exact trans_of Smooth (smooth_setKind w r fun k => (k.processMessage c m).1)
      (smooth_carryOut (w := v) hr hi raises _)

/-! ### Delayed calls -/

lemma pending_called {k : ℕ} {c : DelayedCall} (hk : w.calls[k]? = some c)
    (hne : c.func ≠ .go p) (h : Pending w p) : Pending (w.called k) p := by
  obtain ⟨c', hc', hgo, ha⟩ := h
  obtain ⟨j, hj⟩ := List.mem_iff_getElem?.mp hc'
  have hkj : k ≠ j := by
    rintro rfl
    obtain rfl : c = c' := Option.some.inj (hk.symm.trans hj)
    exact hne hgo
  refine ⟨c', List.mem_of_getElem? (i := j) ?_, hgo, ha⟩
  show (w.calls.modify k _)[j]? = some c'
  rw [List.getElem?_modify, hj]
  simp [hkj]

lemma Sound.called (hw : Sound w) (k : ℕ) : Sound (w.called k) := by
  refine hw.of_core (hw.toTidy.modifyCalls k fun c => ⟨rfl, fun h => ?_⟩) rfl rfl
  simp [DelayedCall.active] at h

/-- A call that is no step of a producer is taken off the reactor. -/
lemma smooth_called {k : ℕ} {c : DelayedCall} (hk : w.calls[k]? = some c)
    (hne : ∀ p, c.func ≠ .go p) : Smooth w (w.called k) := fun hw =>
  ⟨hw.called k, fun _ _ => id, fun h =>
    ⟨h, fun _ hr => ⟨hr.1, hr.2.mono fun p hp => pending_called hk (hne p) hp⟩⟩⟩

/-- A scheduled step of a producer. -/
lemma smooth_go {k : ℕ} {c : DelayedCall} (hk : w.calls[k]? = some c) (hgo : c.func = .go p) :
    Smooth w (after (BytesMessageProducer.go p) (w.called k)) := by
  intro hw
  have hp : p < w.nextProducer := hw.scheduled c (List.mem_of_getElem? hk) p hgo
  obtain ⟨t, hrun, ht, hreq, hflow⟩ := (hw.called k).go hp
  rw [after_of_ok hrun]
  refine ⟨ht, fun i r h => hreq ▸ h, fun h => ?_⟩
  obtain ⟨hflag, hobjs, hsends⟩ := hflow h
  refine ⟨hflag, fun r hr => ⟨hobjs ▸ hr.1, hsends r ?_⟩⟩
  refine Sends.mono (w := w.called k) hr.2 fun p' hpend => ?_
  by_cases h : p' = p
  · exact Or.inl h
  · refine Or.inr (pending_called hk (fun hf => h ?_) hpend)
    cases hf.symm.trans hgo
    rfl

lemma smooth_setFlow (w : World) (d : Dir) {f : Flow → Flow} (hf : ∀ g, (f g).limit = g.limit) :
    Smooth w (w.setFlow d f) :=
  smooth_slows (slows_setFlow hf) (calm_setFlow w d f)

lemma smooth_reset (d : Dir) (w : World) : Smooth w (resetThisSecond d w) := by
  let a := w.setFlow d fun f => { f with thisSecond := 0 }
  have hzero : Smooth w a := smooth_setFlow w d fun _ => rfl
  have hlater : Smooth a (callLater 1 (.reset d) a) :=
    smooth_slows (slows_callLater fun _ => Func.noConfusion) (calm_of_eq rfl rfl rfl)
  have hid : Smooth (callLater 1 (.reset d) a) (resetThisSecond d w) :=
    smooth_setFlow _ d fun _ => rfl
  exact trans_of Smooth hzero (trans_of Smooth hlater hid)

lemma own_of_setFlow {d : Dir} {f : Flow → Flow} (hf : ∀ g, (f g).limit = g.limit)
    (h : Own (w.setFlow d f)) : Own w := (config_own (slows_setFlow hf).config).mp h

/-- Unthrottling, unless it resumes the handler. -/
lemma smooth_unthrottle {d : Dir} (hown : d = .writes → ¬Own w) :
    Smooth w (after (Factory.unthrottle d) w) := by
  have hid : Smooth w (w.setFlow d fun f => { f with unthrottleId := none }) :=
    smooth_setFlow w d fun _ => rfl
  have hoff := smooth_setFlow (w.setFlow d fun f => { f with unthrottleId := none }) d
    (f := fun f => { f with throttling := false }) fun _ => rfl
  refine trans_of Smooth hid ?_
  unfold Factory.unthrottle modifyFlow
  rw [after_modify_bind, after_get_bind]
  split
  · exact refl_of Smooth _
  · exact hoff
  · next hself =>
    refine trans_of Smooth hoff ?_
    cases d with
    | reads => exact smooth_slows (slows_readsPaused _ false) (calm_of_eq rfl rfl rfl)
    | writes =>
      exact absurd (own_of_setFlow (f := fun f => { f with unthrottleId := none })
        (fun _ => rfl) hself) (hown rfl)

/-! ### The events -/

/-- The state in which an event calls `resumeProducing` of the handler, if it does. -/
def resumesFrom (w : World) : Event → Option World
  | .resume => some w
  | .call k =>
    match w.calls[k]? with
    | some c =>
      if c.active = true ∧ c.func = .unthrottle .writes ∧
          w.factory.bind Factory.client = some .self then
        some (((w.called k).setFlow .writes fun f =>
          { f with unthrottleId := none }).setFlow .writes fun f => { f with throttling := false })
      else none
    | none => none
  | _ => none

/-- Either the transport resumes the handler, or an unthrottle of the writes does. -/
lemma resumesFrom_cases {e : Event} (h : resumesFrom w e = some u) : e = .resume ∧ u = w ∨
    ∃ k c, e = .call k ∧ w.calls[k]? = some c ∧ c.active = true ∧ c.func = .unthrottle .writes ∧
      w.factory.bind Factory.client = some .self ∧
      u = ((w.called k).setFlow .writes fun f => { f with unthrottleId := none }).setFlow .writes
        fun f => { f with throttling := false } := by
  unfold resumesFrom at h
  split at h
  · cases h
    exact Or.inl ⟨rfl, rfl⟩
  · next k =>
    split at h
    · next c hc =>
      split at h
      · next hif =>
        obtain ⟨ha, hfunc, hself⟩ := hif
        cases h
        exact Or.inr ⟨k, c, rfl, hc, ha, hfunc, hself, rfl⟩
      · cases h
    · cases h
  · cases h

lemma step_of_resumesFrom {e : Event} (h : resumesFrom w e = some u) :
    w.step e = after Handler.resumeProducing u := by
  rcases resumesFrom_cases h with ⟨rfl, rfl⟩ | ⟨k, c, rfl, hc, ha, hfunc, hself, rfl⟩
  · rfl
  · show after (runCall k) w = _
    unfold runCall
    rw [after_get_bind, hc]
    simp only [ha, if_true, hfunc]
    have hself' : ((w.called k).setFlow .writes fun f =>
        { f with unthrottleId := none }).factory.bind Factory.client = some .self :=
      own_setFlow (w := w.called k) hself fun _ => rfl
    show after (Factory.unthrottle .writes) (w.called k) = _
    unfold Factory.unthrottle modifyFlow
    rw [after_modify_bind, after_get_bind, hself']
    rfl

lemma Sound.resumesFrom (hw : Sound w) {e : Event} (h : resumesFrom w e = some u) : Sound u := by
  rcases resumesFrom_cases h with ⟨-, rfl⟩ | ⟨k, c, -, -, -, -, -, rfl⟩
  · exact hw
  · have hid := (smooth_setFlow (w.called k) .writes
      (f := fun f => { f with unthrottleId := none }) fun _ => rfl) (hw.called k)
    have hoff := smooth_setFlow _ .writes (f := fun f => { f with throttling := false })
      (fun _ => rfl) hid.1
    exact hoff.1

/-- The events of a run, other than the loss of the connection: a request object is started once
and is not an answer to a message, and `done` and `error` are called of one that was started. -/
def AdmitsUploads (w : World) : Event → Prop
  | .start r => (w.objs r).id = none ∧ (w.objs r).source = none
  | .message m _ => int32 m.id = true
  | .done r | .error r _ => (w.objs r).started = true
  | .lost _ => False
  | _ => True

/-- Every event but `start` that does not resume the handler carries uploads on. -/
lemma smooth_step {e : Event} (he : AdmitsUploads w e) (hres : resumesFrom w e = none)
    (hstart : ∀ r, e ≠ .start r) : Smooth w (w.step e) := by
  cases e with
  | start r => exact absurd rfl (hstart r)
  | read n => exact smooth_slows (slows_registerOwn .reads n w) (calm_registerOwn .reads n w)
  | message m raises =>
    show Smooth w (after (processMessage m raises) w)
    unfold processMessage
    split
    · exact smooth_reject m _ w
    · exact smooth_dispatch he raises
  | cancel r => exact smooth_cancel r w
  | call k =>
    show Smooth w (after (runCall k) w)
    rcases after_runCall k w with h | ⟨c, hc, ha, h⟩ <;> rw [h]
    · exact refl_of Smooth w
    · cases hfunc : c.func with
      | go p => exact smooth_go hc hfunc
      | reset d =>
        exact trans_of Smooth (smooth_called hc fun p => by simp [hfunc]) (smooth_reset d _)
      | unthrottle d =>
        refine trans_of Smooth (smooth_called hc fun p => by simp [hfunc]) (smooth_unthrottle ?_)
        rintro rfl hself
        have hself' : w.factory.bind Factory.client = some .self := hself
        simp [resumesFrom, hc, ha, hfunc, hself'] at hres
  | pause => exact smooth_slows (slows_pause w) (calm_pause w)
  | resume => cases hres
  | stop => exact smooth_slows (slows_stop w) (calm_stop w)
  | done r =>
    intro hw
    obtain ⟨i, hr⟩ := hw.toRegistry.registered_of_started he
    exact smooth_settle hr _ hw
  | error r e =>
    intro hw
    obtain ⟨i, hr⟩ := hw.toRegistry.registered_of_started he
    exact smooth_settle hr _ hw
  | lost reason => exact he.elim

/-! ### Whole runs -/

/-- If `D` holds and the handler produces, all uploads go on. -/
structure Good (D : Prop) (w : World) : Prop extends Sound w where
  flowing : D → w.producing = true → ∀ i r, w.requests.get? i = some r → Flowing w r

lemma Good.of_smooth {D : Prop} (hs : Good D s) (h : Smooth s t) : Good D t := by
  obtain ⟨ht, hcarries⟩ := h hs.toSound
  refine ⟨ht, fun hD hflag i r hr => ?_⟩
  obtain ⟨hflag', hflow⟩ := hcarries.flowing hflag
  exact hflow r (hs.flowing hD hflag' i r (hcarries.requests i r hr))

/-- A request is registered, without a producer. -/
lemma Good.enroll {D : Prop} (hw : Good D w) (hid : (w.objs r).id = none) :
    Good D (w.enroll r) := by
  have hobj := enroll_obj w r
  refine ⟨hw.toSound.of (hw.toTidy.enroll hid) rfl (fun _ => rfl) (fun r' i hr' => ?_) fun _ => rfl,
    fun hD hflag i r' hr' => ?_⟩
  · have hne : r' ≠ r := by
      rintro rfl
      exact nomatch hid.symm.trans hr'
    rwa [enroll_objs_of_ne hne]
  · by_cases hrr : r' = r
    · subst hrr
      have hproducing : w.producing = true := hflag
      refine ⟨by simp [hproducing], fun p hp => ?_⟩
      rw [(hobj r').1, (hw.fresh r' hid).2.2.2] at hp
      cases hp
    · have hr : w.requests.get? i = some r' := by
        rw [enroll_requests, Dict.get?_set] at hr'
        split at hr'
        · exact absurd (Option.some.inj hr').symm hrr
        · exact hr'
      obtain ⟨hprod, hsends⟩ := hw.flowing hD hflag i r' hr
      rw [Flowing, enroll_objs_of_ne hrr]
      refine ⟨hprod, fun p hp hc hf => ?_⟩
      rw [enroll_objs_of_ne hrr] at hp hc
      exact hsends p hp hc hf

/-- `start` of a client-side request. -/
lemma Good.start {D : Prop} (hw : Good D w) (hid : (w.objs r).id = none)
    (hsrc : (w.objs r).source = none) : Good D (w.step (.start r)) := by
  have hstart : w.step (.start r) = after (startExchange r) (w.enroll r) := by
    show after (Client.start r) w = _
    exact after_congr (start_run hw.toRegistry hid hsrc)
  have henroll := hw.enroll hid
  have hreg : Registered (w.enroll r) r w.requestCounter := ⟨henroll.toRegistry, by simp⟩
  rw [hstart]
  refine henroll.of_smooth ?_
  refine startExchange_trans (fun messages _ => within_forM messages
    (fun m _ => smooth_request r m) _) (fun t => smooth_setKind t r Kind.started)
    fun messages t ht => ?_
  have hu : Registered (t.setObj r fun q => { q with kind := q.kind.started }) r
      w.requestCounter := (hreg.of_core ((frame_sendMessages r messages).ok ht)).of_ledger
    (still_setKind t r Kind.started).ledger
  exact smooth_settle hu _

/-- The state after an event, and whether the handler has been neither paused nor stopped since the
beginning of its last `resumeProducing`, or of the run. -/
def watch (s : World × Bool) (e : Event) : World × Bool :=
  (s.1.step e, match resumesFrom s.1 e with
    | some u => undisturbed u
    | none => s.2 && (s.1.step e).producing)

/-- No upload is stalled: the producer of a registered request that is not cancelled, if it is not
finished, produces, and a step of it is scheduled. -/
def NoStall (w : World) : Prop := ∀ i r p, w.requests.get? i = some r →
  (w.objs r).cancelled = false → (w.objs r).producer = some p →
    (w.producers p).finished = false → (w.producers p).producing = true ∧ Pending w p

/-- The files answer every call. -/
def Readable (w : World) : Prop := ∀ fh ops, ∃ data, (w.files fh).behave ops = .ok data

/-- What is kept by every event. -/
def Watched (s : World × Bool) : Prop :=
  Good (s.2 = true) s.1 ∧ (s.2 = true → s.1.producing = true)

/-- **Every event** keeps the uploads going while the handler is not paused. -/
lemma Watched.step {s : World × Bool} (hs : Watched s) {e : Event} (he : AdmitsUploads s.1 e) :
    Watched (watch s e) := by
  obtain ⟨w, b⟩ := s
  obtain ⟨hgood, -⟩ := hs
  unfold watch
  cases hres : resumesFrom w e with
  | some u =>
    obtain ⟨hsound, hflag, hflow⟩ := (hgood.toSound.resumesFrom hres).resume
    show Watched (w.step e, undisturbed u)
    rw [step_of_resumesFrom hres]
    exact ⟨⟨hsound, fun h _ => hflow h⟩, fun _ => hflag⟩
  | none =>
    have hstep : Good (b = true) (w.step e) := by
      by_cases hstart : ∃ r, e = .start r
      · obtain ⟨r, rfl⟩ := hstart
        exact hgood.start he.1 he.2
      · exact hgood.of_smooth (smooth_step he hres fun r h => hstart ⟨r, h⟩)
    show Watched (w.step e, b && (w.step e).producing)
    refine ⟨⟨hstep.toSound, fun h => ?_⟩, fun h => ?_⟩ <;> rw [Bool.and_eq_true] at h
    · exact hstep.flowing h.1
    · exact h.2

lemma Initial.watched (h : Initial w) (hfiles : Readable w) : Watched (w, true) := by
  refine ⟨⟨⟨h.tidy, fun p hp => ?_, hfiles⟩, fun _ _ i r hr => ?_⟩, fun _ => h.producing⟩
  · rw [h.nextProducer] at hp
    exact absurd hp (Nat.not_lt_zero p)
  · rw [h.requests] at hr
    cases hr

lemma watch_run (w : World) (b : Bool) (es : List Event) :
    (Runs.run watch (w, b) es).1 = Runs.run World.step w es := by
  induction es generalizing w b with
  | nil => rfl
  | cons e es ih => exact ih (w.step e) _

lemma legal_watch {admits : World → Event → Prop} {es : List Event} (b : Bool)
    (h : Runs.Legal World.step admits w es) :
    Runs.Legal watch (fun s => admits s.1) (w, b) es := by
  induction es generalizing w b with
  | nil => trivial
  | cons e es ih => exact ⟨h.1, ih _ h.2⟩

/-- **No upload is left stalled.** After any run of events, if the handler has been neither paused
nor stopped since the beginning of its last `resumeProducing`, each unfinished producer of an
upload that is registered and not cancelled produces, and a step of it is scheduled. -/
theorem noStall_run {w₀ : World} (h₀ : Initial w₀) (hfiles : Readable w₀) {es : List Event}
    (hes : Runs.Legal World.step AdmitsUploads w₀ es)
    (hcalm : (Runs.run watch (w₀, true) es).2 = true) : NoStall (Runs.run World.step w₀ es) := by
  have hwatched := (legal_watch true hes).invariant (I := Watched)
    (fun _ _ hs he => hs.step he) (h₀.watched hfiles)
  rw [← watch_run w₀ true es]
  intro i r p hr hc hp hf
  have hflow := hwatched.1.flowing hcalm (hwatched.2 hcalm) i r hr
  exact hflow.2 p hp hc hf

/-- Two uploads, of which one begins while the handler is paused. -/
theorem noStall_run_paused : NoStall (Runs.run World.step (uploading [1, 2, 3, 4, 5])
    [.start 0, .start 1, .message beginContent none, .pause,
      .message { beginContent with id := 3 } none, .call 0, .resume]) := by
  have hfiles : Readable (uploading [1, 2, 3, 4, 5]) := by
    intro fh ops
    show ∃ data, (File.opened [1, 2, 3, 4, 5]).behave ops = .ok data
    dsimp only [File.opened]
    split <;> exact ⟨_, rfl⟩
  refine noStall_run (initial_uploading _) hfiles ?_ (by decide +kernel)
  have hone : int32 1 = true := by decide
  have hthree : int32 3 = true := by decide
  exact ⟨⟨rfl, rfl⟩, ⟨by decide +kernel, by decide +kernel⟩, hone, trivial, hthree, trivial,
    trivial, trivial⟩

end Magicicada.Client
