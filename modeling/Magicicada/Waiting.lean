import Magicicada.Clock
import Magicicada.Stalls

/-!
Uploads of a client that is throttled.

If nobody but the throttle pauses the handler, a delayed call resumes whatever is paused.
-/

namespace Magicicada.Client

open Pb Errors Requests Prog

variable {s t u w : World} {r p : ℕ} {e : Event}

/-! ### Pausing by the throttle -/

/-- From `s` to `t` no throttle of the writes is lifted and, unless a write fills the transport,
the handler is not paused but by such a throttle. -/
structure Yields (s t : World) : Prop where
  env : t.env = s.env
  client : t.client = s.client
  pause : (∀ n, s.env.fills n = false) → t.producing = false → s.producing = false ∨ t.throttled
  throttled : s.throttled → t.throttled

instance : IsPreorder World Yields where
  refl _ := ⟨rfl, rfl, fun _ => Or.inl, id⟩
  trans _ _ _ h h' := by
    refine ⟨h'.env.trans h.env, h'.client.trans h.client, fun hfills ht => ?_,
      fun hs => h'.throttled (h.throttled hs)⟩
    rcases h'.pause (h.env ▸ hfills) ht with hmid | hmid
    · exact (h.pause hfills hmid).imp_right h'.throttled
    · exact Or.inr hmid

lemma yields_of_eq (henv : t.env = s.env) (hproducing : t.producing = s.producing)
    (hfactory : t.factory = s.factory) : Yields s t where
  env := henv
  client := congrArg (fun f => f.bind Factory.client) hfactory
  pause _ h := Or.inl (hproducing ▸ h)
  throttled := throttled_of_factory hfactory.symm

lemma yields_setFlow {d : Dir} {f : Flow → Flow}
    (hf : d = .writes → ∀ g, g.throttling = true → (f g).throttling = true) (w : World) :
    Yields w (w.setFlow d f) where
  env := rfl
  client := client_setFlow
  pause _ := Or.inl
  throttled := setFlow_throttled hf

lemma env_of_core (h : t.core = s.core) : t.env = s.env := by
  show t.core.env = s.core.env
  rw [h]

lemma yields_throttle (d : Dir) (w : World) : Yields w (Factory.throttle d w) := by
  have hset : Yields w (w.setFlow d fun f => { f with throttling := true }) :=
    yields_setFlow (fun _ _ _ => rfl) w
  unfold Factory.throttle
  split
  · exact refl_of Yields w
  · exact hset
  · next hclient =>
    refine trans_of Yields hset ?_
    cases d with
    | reads => exact yields_of_eq rfl rfl rfl
    | writes =>
      -- the throttle is on before the handler is paused
      let v := w.setFlow .writes fun f => { f with throttling := true }
      have hv : v.throttled := by
        obtain ⟨f, hf, -⟩ := Option.bind_eq_some_iff.mp hclient
        exact ⟨f.setFlow .writes fun f => { f with throttling := true },
          Option.map_eq_some_iff.mpr ⟨f, hf, rfl⟩, rfl⟩
      have hpaused : (Handler.pauseProducing v).throttled :=
        throttled_of_factory (factory_pause v).symm hv
      exact ⟨env_of_core (slows_pause v).core,
        congrArg (fun f => f.bind Factory.client) (factory_pause v), fun _ _ => Or.inr hpaused,
        fun _ => hpaused⟩

lemma yields_maybeCallLater (k : Option ℕ) (delay : ℚ) (f : Func) (w : World) :
    Yields w (maybeCallLater k delay f w).2 := by
  unfold maybeCallLater
  repeat' split
  all_goals exact yields_of_eq rfl rfl rfl

lemma yields_checkBandwidth (d : Dir) (w : World) : Yields w (checkBandwidth d w) := by
  have hid : ∀ k w, Yields w (w.setFlow d fun f => { f with unthrottleId := some k }) := by
    refine fun k w => yields_setFlow ?_ w
    exact fun _ _ h => h
  unfold checkBandwidth
  split
  · exact refl_of Yields w
  · split
    · exact trans_of Yields (yields_throttle d w)
        (trans_of Yields (yields_maybeCallLater _ _ _ _) (hid _ _))
    · exact refl_of Yields w

lemma yields_registerOwn (d : Dir) (n : ℕ) (w : World) : Yields w (registerOwn d n w) := by
  have hcount : Yields w (w.setFlow d fun f => { f with thisSecond := f.thisSecond + n }) := by
    refine yields_setFlow ?_ w
    exact fun _ _ h => h
  unfold registerOwn register
  repeat' split
  all_goals first
    | exact refl_of Yields w
    | exact trans_of Yields hcount (yields_checkBandwidth d _)

lemma yields_transportWrite (w : World) : Yields w (transportWrite w) := by
  unfold transportWrite
  simp only
  split
  · next h =>
    let v : World := { w with transport := { w.transport with writes := w.transport.writes + 1 } }
    have hfactory : (Handler.pauseProducing v).factory = w.factory := factory_pause v
    refine ⟨env_of_core (slows_pause v).core, congrArg (fun f => f.bind Factory.client) hfactory,
      fun hfills => ?_, throttled_of_factory hfactory.symm⟩
    simp [hfills] at h
  · exact yields_of_eq rfl rfl rfl

lemma yields_sendMessage (m : Message) (w : World) : Yields w (sendMessage m w) := by
  have hwrite : ∀ n w, Yields w (write n w) := fun n w =>
    trans_of Yields (yields_registerOwn .writes n w) (yields_transportWrite _)
  have hsent : ∀ w : World, Yields w { w with sent := w.sent ++ [m] } := fun _ =>
    yields_of_eq rfl rfl rfl
  exact trans_of Yields (hwrite _ w) (trans_of Yields (hwrite _ _) (hsent _))

/-! ### What the client does -/

lemma yields_request (r : ℕ) (m : Message) : Within Yields (Request.sendMessage r m) :=
  along_sendMessage fun _ w => yields_sendMessage _ w

lemma yields_go (p : ℕ) : Within Yields (BytesMessageProducer.go p) := by
  have hop : ∀ fh op, Within Yields (fileOp fh op) := fun fh op => by
    refine within_bind within_get fun w => within_bind
      (within_modify fun _ => yields_of_eq rfl rfl rfl) fun _ => ?_
    split
    · exact within_pure _
    · exact within_throw _
  exact along_go hop fun _ _ => along_sendData yields_request (fun _ _ => yields_of_eq rfl rfl rfl)
    (fun _ => yields_of_eq rfl rfl rfl) fun _ => yields_of_eq rfl rfl rfl

lemma yields_resumeProducing (p : ℕ) : Within Yields (BytesMessageProducer.resumeProducing p) :=
  within_bind (within_modify fun _ => yields_of_eq rfl rfl rfl) fun _ => yields_go p

lemma yields_resumeRequest (r : ℕ) : Within Yields (Request.resumeProducing r) :=
  along_resumeRequest yields_resumeProducing fun _ => yields_of_eq rfl rfl rfl

lemma yields_settle (r : ℕ) (o : Outcome) : Within Yields (Request.settle r o) := by
  have hfault : ∀ f, Within Yields (fault f) := fun _ =>
    within_modify fun _ => yields_of_eq rfl rfl rfl
  exact along_settle (along_cleanup (fun _ => yields_of_eq rfl rfl rfl)
    (fun _ _ => yields_of_eq rfl rfl rfl) (fun _ _ => yields_of_eq rfl rfl rfl) hfault) hfault
    fun _ => yields_of_eq rfl rfl rfl

lemma yields_cancel (r : ℕ) : Within Yields (Request.cancel r) := by
  refine along_cancel (fun _ => yields_of_eq rfl rfl rfl)
    (along_customCancel (fun w => ?_) (yields_request r _))
  unfold withProducer
  split <;> exact yields_of_eq rfl rfl rfl

lemma yields_start (r : ℕ) : Within Yields (start r) :=
  along_start (fun _ _ => yields_of_eq rfl rfl rfl) (fun _ _ => yields_of_eq rfl rfl rfl)
    (fun _ _ => yields_of_eq rfl rfl rfl) (fun _ _ => yields_of_eq rfl rfl rfl)
    (fun _ => within_modify fun _ => yields_of_eq rfl rfl rfl) (yields_resumeRequest r)
    (along_startExchange (yields_request r) (fun _ => yields_of_eq rfl rfl rfl)
      (yields_settle r _))

lemma yields_message (m : Message) (raises : Option Exn) :
    Within Yields (processMessage m raises) := by
  have hnotify : Within Yields (notify m raises) :=
    along_notify fun _ _ => yields_of_eq rfl rfl rfl
  refine along_processMessage (fun _ => along_reject (fun _ _ => yields_of_eq rfl rfl rfl)
    fun m w _ => yields_sendMessage m w) (fun _ _ _ => yields_of_eq rfl rfl rfl) yields_settle
    (fun r _ => along_produce (fun _ _ _ => yields_of_eq rfl rfl rfl)
      (fun _ _ => yields_of_eq rfl rfl rfl) yields_resumeProducing) hnotify ?_
  exact along_handle (within_modify fun w => yields_sendMessage _ w)
    (within_modify fun _ => yields_of_eq rfl rfl rfl) hnotify

/-! ### Delayed calls -/

lemma yields_reset (d : Dir) (w : World) : Yields w (resetThisSecond d w) := by
  have hzero : Yields w (w.setFlow d fun f => { f with thisSecond := 0 }) := by
    refine yields_setFlow ?_ w
    exact fun _ _ h => h
  have hid : ∀ k w, Yields w (w.setFlow d fun f => { f with resetId := some k }) := by
    refine fun k w => yields_setFlow ?_ w
    exact fun _ _ h => h
  have hlater : ∀ w, Yields w (callLater 1 (.reset d) w) := fun _ => yields_of_eq rfl rfl rfl
  exact trans_of Yields hzero (trans_of Yields (hlater _) (hid _ _))

lemma yields_unthrottleReads : Within Yields (Factory.unthrottle .reads) :=
  along_unthrottle (yields_setFlow Dir.noConfusion) (yields_setFlow Dir.noConfusion)
    (within_modify fun _ => yields_of_eq rfl rfl rfl)

/-- The transport does not pause or stop its producer. -/
def AdmitsUnpaused (w : World) : Event → Prop
  | .pause | .stop => False
  | e => AdmitsUploads w e

lemma AdmitsUnpaused.uploads (he : AdmitsUnpaused w e) : AdmitsUploads w e := by
  cases e with
  | pause => exact he.elim
  | stop => exact he.elim
  | _ => exact he

/-- Every event that does not resume the handler. -/
lemma yields_step (he : AdmitsUnpaused w e) (hclient : w.client = some .self)
    (hres : resumesFrom w e = none) : Yields w (w.step e) := by
  cases e with
  | start r => exact yields_start r w
  | read n => exact yields_registerOwn .reads n w
  | message m raises => exact yields_message m raises w
  | cancel r => exact yields_cancel r w
  | call k =>
    show Yields w (after (runCall k) w)
    rcases after_runCall k w with h | ⟨c, hc, ha, h⟩ <;> rw [h]
    · exact refl_of Yields w
    · have hcalled : Yields w (w.called k) := yields_of_eq rfl rfl rfl
      refine trans_of Yields hcalled ?_
      cases hfunc : c.func with
      | go p => exact yields_go p _
      | reset d => exact yields_reset d _
      | unthrottle d =>
        cases d with
        | reads => exact yields_unthrottleReads _
        | writes =>
          have hself : w.factory.bind Factory.client = some .self := hclient
          simp [resumesFrom, hc, ha, hfunc, hself] at hres
  | pause => exact he.elim
  | resume => cases hres
  | stop => exact he.elim
  | done r => exact yields_settle r _ w
  | error r e => exact yields_settle r _ w
  | lost reason => exact he.elim

/-! ### Resuming -/

lemma yields_resume : Within Yields Handler.resumeProducing :=
  along_resume yields_resumeRequest fun _ => ⟨rfl, rfl, fun _ h => absurd h (by simp), id⟩

/-- If the handler is paused while it is being resumed, the writes are throttled afterwards. -/
lemma throttled_of_disturbed (hfills : ∀ n, w.env.fills n = false) (h : undisturbed w = false) :
    (after Handler.resumeProducing w).throttled := by
  have hloop : Yields (w.flagged true) (after resumeRequests (w.flagged true)) :=
    within_bind (R := Yields) within_get (fun w => within_forM w.requests.values
      fun r _ => yields_resumeRequest r) (w.flagged true)
  have hthrottled : (after resumeRequests (w.flagged true)).throttled :=
    (hloop.pause hfills h).resolve_left (by simp [World.flagged])
  refine throttled_of_factory ?_ hthrottled
  -- the flag makes no difference to the loop
  have hrun : resumeRequests.run (w.flagged true) =
      (w.requests.values.forM Request.resumeProducing).run (w.flagged true) := rfl
  obtain ⟨b, hblind⟩ := blind_forM blind_resumeRequest w.requests.values w true
  cases hres : (w.requests.values.forM Request.resumeProducing).run w with
  | ok a t =>
    rw [hres] at hblind
    rw [after_of_ok (hrun.trans hblind)]
    have hresume : Handler.resumeProducing.run w = .ok ⟨⟩ { t with producing := true } :=
      run_bind_ok (f := fun _ => modify fun w : World => { w with producing := true }) hres
    rw [after_of_ok hresume]
    rfl
  | error e t =>
    rw [hres] at hblind
    rw [after_of_error (hrun.trans hblind)]
    have hresume : Handler.resumeProducing.run w = .error e t :=
      run_bind_error (f := fun _ => modify fun w : World => { w with producing := true }) hres
    rw [after_of_error hresume]
    rfl

/-! ### Runs -/

/-- What is kept while the transport does not pause the handler: if the handler was paused since it
was last resumed, the writes are throttled. -/
structure Attended (s : World × Bool) : Prop where
  watched : Watched s
  clock : Clock Tight s.1
  client : s.1.client = some .self
  fills : ∀ n, s.1.env.fills n = false
  throttled : s.2 = false → s.1.throttled

lemma Attended.step {s : World × Bool} (hs : Attended s) (he : AdmitsUnpaused s.1 e) :
    Attended (watch s e) := by
  obtain ⟨w, b⟩ := s
  have hconnected : Connected (.client e) := by
    cases e with
    | lost reason => exact he.elim
    | _ => trivial
  have hclock : Clock Tight (w.step e) := hs.clock.step hconnected
  have hwatched := hs.watched.step he.uploads
  cases hres : resumesFrom w e with
  | some u =>
    have hu : u.env = w.env ∧ u.client = w.client := by
      rcases resumesFrom_cases hres with ⟨-, rfl⟩ | ⟨k, c, -, -, -, -, -, rfl⟩
      · exact ⟨rfl, rfl⟩
      · exact ⟨rfl, client_setFlow.trans client_setFlow⟩
    have hstep : w.step e = after Handler.resumeProducing u := step_of_resumesFrom hres
    have hyields := yields_resume u
    have hfills : ∀ n, u.env.fills n = false := hu.1 ▸ hs.fills
    have hwatch : watch (w, b) e = (w.step e, undisturbed u) := by simp only [watch, hres]
    rw [hwatch] at hwatched ⊢
    refine ⟨hwatched, hclock, ?_, ?_, fun h => ?_⟩
    · show (w.step e).client = _
      rw [hstep, hyields.client, hu.2]
      exact hs.client
    · show ∀ n, (w.step e).env.fills n = false
      rw [hstep, hyields.env]
      exact hfills
    · show (w.step e).throttled
      rw [hstep]
      exact throttled_of_disturbed hfills h
  | none =>
    have hyields : Yields w (w.step e) := yields_step he hs.client hres
    have hwatch : watch (w, b) e = (w.step e, b && (w.step e).producing) := by
      simp only [watch, hres]
    rw [hwatch] at hwatched ⊢
    refine ⟨hwatched, hclock, hyields.client.trans hs.client, hyields.env ▸ hs.fills, fun h => ?_⟩
    cases b with
    | false => exact hyields.throttled (hs.throttled rfl)
    | true =>
      have hflag : (w.step e).producing = false := by simpa using h
      have hbefore : w.producing = true := hs.watched.2 rfl
      exact (hyields.pause hs.fills hflag).resolve_left (by simp [hbefore])

/-- A factory is made with throttling on, and builds a protocol whose connection is made. -/
def World.throttling (w : World) (readLimit writeLimit : Option ℚ) : World :=
  Runs.run World.factoryStep (after (Factory.init true readLimit writeLimit) w) [.build, .made]

lemma throttling_eq {readLimit writeLimit : Option ℚ} (hread : validLimit readLimit = true)
    (hwrite : validLimit writeLimit = true) (hcalls : w.calls = []) :
    w.throttling readLimit writeLimit = { w with
      factory := some {
        throttlingEnabled := true
        reads := { limit := readLimit, resetId := some 0 }
        writes := { limit := writeLimit, resetId := some 1 }
        client := some .self }
      calls := [⟨.reset .reads, 1, false, false⟩, ⟨.reset .writes, 1, false, false⟩] } := by
  have hmodify : ∀ (g : World → World) w, after (modify g : M PUnit) w = g w := fun _ _ => rfl
  rw [World.throttling, after_init hread hwrite]
  simp [World.factoryStep, Factory.perform, buildProtocol, connectionMade, enableThrottling,
    startReset, resetThisSecond, callLater, setThrottlingEnabled, World.flow, World.setFlow,
    Factory.flow, Factory.setFlow, World.client, World.enabled, hmodify, hread, hwrite, hcalls]

lemma attended_throttling (h : Initial w) (hfiles : Readable w)
    (hfills : ∀ n, w.env.fills n = false) (hcalls : w.calls = []) {readLimit writeLimit : Option ℚ}
    (hread : validLimit readLimit = true) (hwrite : validLimit writeLimit = true) :
    Attended (w.throttling readLimit writeLimit, true) := by
  have heq := throttling_eq hread hwrite hcalls
  have hinitial : Initial (w.throttling readLimit writeLimit) := by
    rw [heq]
    exact { h with calls := by simp }
  have hreadable : Readable (w.throttling readLimit writeLimit) := by
    rw [heq]
    exact hfiles
  have hclock : Clock Tight (w.throttling readLimit writeLimit) :=
    ((clock_init hcalls true readLimit writeLimit).step (e := .build) trivial).step
      (e := .made) trivial
  refine ⟨hinitial.watched hreadable, hclock, ?_, ?_, fun hb => absurd hb (by simp)⟩
  · show (w.throttling readLimit writeLimit).client = _
    rw [heq]
    rfl
  · show ∀ n, (w.throttling readLimit writeLimit).env.fills n = false
    rw [heq]
    exact hfills

/-- **A throttled upload is going to be resumed.** After any run in which the transport does not
pause the client, no upload is stalled, or the writes are throttled and a delayed call is to end
the throttle. -/
theorem noStall_or_throttled (h : Initial w) (hfiles : Readable w)
    (hfills : ∀ n, w.env.fills n = false) (hcalls : w.calls = []) {readLimit writeLimit : Option ℚ}
    (hread : validLimit readLimit = true) (hwrite : validLimit writeLimit = true) {es : List Event}
    (hes : Runs.Legal World.step AdmitsUnpaused (w.throttling readLimit writeLimit) es) :
    let t := Runs.run World.step (w.throttling readLimit writeLimit) es
    NoStall t ∨ t.throttled ∧
      ∃ k, (t.flow .writes).unthrottleId = some k ∧ Active t.calls k (.unthrottle .writes) := by
  intro t
  have hattended := (legal_watch true hes).invariant (I := Attended) (fun _ _ hs he => hs.step he)
    (attended_throttling h hfiles hfills hcalls hread hwrite)
  have hworld : (Runs.run watch (w.throttling readLimit writeLimit, true) es).1 = t :=
    watch_run _ true es
  cases hcalm : (Runs.run watch (w.throttling readLimit writeLimit, true) es).2 with
  | true =>
    refine Or.inl fun i r p hr hc hp hf => ?_
    have hwatched := hattended.watched
    have hflow := hwatched.1.flowing hcalm (hwatched.2 hcalm) i r (hworld ▸ hr)
    rw [hworld] at hflow
    exact hflow.2 p hp hc hf
  | false =>
    have hthrottled : t.throttled := hworld ▸ hattended.throttled hcalm
    have hclock : Clock Tight t := hworld ▸ hattended.clock
    refine Or.inr ⟨hthrottled, (hclock.timed .writes).throttling id ?_⟩
    obtain ⟨f, hf, ht⟩ := hthrottled
    simpa [World.flow, hf, Factory.flow] using ht

lemma readable_uploading (content : Bytes) : Readable (uploading content) := by
  intro fh ops
  show ∃ data, (File.opened content).behave ops = .ok data
  dsimp only [File.opened]
  split <;> exact ⟨_, rfl⟩

/-- The requests and the first piece are over the limit of a byte in a second, so that the second
upload waits from its beginning on. -/
theorem noStall_or_throttled_two :
    let t := Runs.run World.step ((uploading [1, 2, 3, 4, 5]).throttling none (some 1))
      [.start 0, .start 1, .message beginContent none, .call 2,
        .message { beginContent with id := 3 } none]
    NoStall t ∨ t.throttled ∧
      ∃ k, (t.flow .writes).unthrottleId = some k ∧ Active t.calls k (.unthrottle .writes) := by
  have hone : int32 1 = true := by decide
  have hthree : int32 3 = true := by decide
  refine noStall_or_throttled (initial_uploading _) (readable_uploading _) (fun _ => rfl) rfl rfl
    (by decide) ?_
  exact ⟨⟨rfl, rfl⟩, ⟨by decide +kernel, by decide +kernel⟩, hone, trivial, hthree, trivial⟩

end Magicicada.Client
