import Magicicada.Teardown
import Magicicada.Unthrottle

/-!
A throttle on writes over whole runs: while it is on, the uploads wait.
-/

namespace Magicicada.Client

open Pb Errors Requests Prog

variable {T : Terms} {D : Prop} {s t w : World} {r p : ℕ}

/-! ### What acts do to the throttle -/

/-- The factory limits the writes of the client. -/
def Metered (w : World) : Prop := ∃ f l, w.factory = some f ∧ f.throttlingEnabled = true ∧
  f.client = some .self ∧ f.writes.limit = some l ∧ 0 < l

lemma Metered.of_config (h : Metered s)
    (hc : t.factory.map Factory.config = s.factory.map Factory.config) : Metered t := by
  obtain ⟨f, l, hf, hon, hself, hl, hpos⟩ := h
  rw [hf] at hc
  obtain ⟨g, hg, hgf⟩ := Option.map_eq_some_iff.mp hc
  have henabled := congrArg Factory.throttlingEnabled hgf
  have hclient := congrArg Factory.client hgf
  have hlimit := congrArg (fun f => f.writes.limit) hgf
  exact ⟨g, l, hg, henabled.trans hon, hclient.trans hself, hlimit.trans hl, hpos⟩

lemma Metered.own (h : Metered w) : Own w := by
  obtain ⟨f, l, hf, -, hself, -⟩ := h
  unfold Own
  rw [hf]
  exact hself

lemma Act.config (h : Act T s t) :
    t.factory.map Factory.config = s.factory.map Factory.config := by
  cases h with
  | still h => rw [h.factory]
  | slow h _ _ => exact h.config
  | send m _ => exact (slows_sendMessage m s).config
  | enroll _ => rfl
  | finish _ _ _ => rfl
  | add _ _ _ => rfl
  | wake _ _ _ => rfl
  | rest _ _ _ => rfl
  | schedule _ _ => rfl
  | calls _ _ _ => rfl

lemma Metered.of_acts (hs : Metered s) (h : Acts T s t) : Metered t := by
  induction h with
  | refl => exact hs
  | tail _ h ih => exact ih.of_config h.config

lemma write_throttled (n : ℕ) (h : w.throttled) : (write n w).throttled :=
  throttled_of_factory (factory_transportWrite _).symm (registerOwn_throttled .writes n h)

lemma Act.throttled (hT : ¬T.lifts) (h : Act T s t) (hs : s.throttled) : t.throttled := by
  cases h with
  | still h => exact throttled_of_factory h.factory.symm hs
  | slow _ _ hoff => exact (hoff hs).resolve_right hT
  | send m _ =>
    have := write_throttled (Fields.byteSize m) (write_throttled Bytes.sizeFmtSize hs)
    exact throttled_of_factory rfl this
  | enroll _ => exact hs
  | finish _ _ _ => exact hs
  | add _ _ _ => exact hs
  | wake _ _ _ => exact hs
  | rest _ _ _ => exact hs
  | schedule _ _ => exact hs
  | calls _ _ _ => exact hs

/-- Only an unthrottle lifts the throttle. -/
lemma Acts.throttled (hT : ¬T.lifts) (h : Acts T s t) (hs : s.throttled) : t.throttled := by
  induction h with
  | refl => exact hs
  | tail _ h ih => exact h.throttled hT ih

/-! ### The condition on an event -/

/-- What was written in this second. -/
def World.writtenThisSecond (w : World) : ℕ := (w.factory.map fun f => f.writes.thisSecond).getD 0

/-- The event keeps the throttle. A `BEGIN_CONTENT` for an upload finds its producer paused, if
it has one already, and the upload itself paused while the writes are throttled. When the writes
are unthrottled, only the last upload that is resumed may reach the limit. The transport resumes
the client when no upload has begun, or when the writes are not throttled and no unthrottle is
pending, and then too only the last upload may reach the limit. -/
def Steady (w : World) : Event → Prop
  | .message m _ => m.type = .beginContent → ∀ r, w.requests.get? m.id = some r →
      (w.objs r).kind.isPutContent = true →
      (∀ p, (w.objs r).producer = some p → (w.producers p).producing = false) ∧
      ((w.objs r).producing = true → ¬w.throttled)
  | .call k => Unthrottles w (.call k) →
      Fits w w.files w.writtenThisSecond w.requests.values
  | .resume => Ready w.requests.values w
  | _ => True

/-- The events of a run in which a throttle on writes is kept. -/
def AdmitsSteady (w : World) (e : Event) : Prop := AdmitsWire w e ∧ Steady w e

lemma Steady.careful (hw : Registry w) (hm : Metered w) {e : Event} (h : Steady w e) :
    Careful Ready w e := by
  cases e with
  | message m raises => exact h
  | resume => exact h
  | call k =>
    intro c hc ha hfunc _
    obtain ⟨f, l, hf, hon, hself, -⟩ := hm
    have hfits := h ⟨c, hc, ha, hfunc⟩
    have hcount : w.writtenThisSecond = f.writes.thisSecond := by
      unfold World.writtenThisSecond
      rw [hf]
      rfl
    let u := ((w.called k).setFlow .writes fun f => { f with unthrottleId := none }).setFlow .writes
      fun f => { f with throttling := false }
    have hconfig : u.factory.map Factory.config = w.factory.map Factory.config := by
      have h1 := slows_setFlow (w := w.called k) (d := .writes)
        (f := fun f => { f with unthrottleId := none }) fun _ => rfl
      have h2 := slows_setFlow (w := (w.called k).setFlow .writes
        fun f => { f with unthrottleId := none }) (d := .writes)
        (f := fun f => { f with throttling := false }) fun _ => rfl
      exact (h1.trans' h2).config
    have hopen : Open u f.writes.thisSecond := by
      refine ⟨{ f with writes := { f.writes with unthrottleId := none, throttling := false } },
        ?_, hon, hself, rfl, rfl, rfl⟩
      show (w.factory.map _).map _ = _
      rw [hf]
      rfl
    refine ⟨Dict.nodup_values fun _ _ _ => hw.eq_of_get?, Or.inl ⟨_, hopen, ?_⟩⟩
    rw [hcount] at hfits
    exact fits_congr (reaches_of_config hconfig) (fun r _ => ⟨rfl, fun p _ => rfl⟩) hfits
  | _ => trivial

/-- The conditions on the acts of an event that keeps a throttle. -/
def Terms.steady (D : Prop) (w : World) (e : Event) : Terms := ⟨True, Unthrottles w e, D⟩

/-- Every event is a number of acts that keep the throttle. -/
lemma acts_steady (hw : Throttling D w) (hm : Metered w) {e : Event} (he : AdmitsSteady w e)
    (hD : D → Timely w e) : Acts (.steady D w e) w (w.step e) :=
  acts_step (T := .steady D w e) (R := Ready) (fun _ _ _ h _ hp => h.not_throttled hp)
    (fun _ _ _ _ hs _ h ht => h.resumed hs ht) hw.toTidy he.1 hD id
    fun _ => Steady.careful hw.toRegistry hm he.2

lemma Initial.throttling (h : Initial w) (hm : Metered w) (hoff : ¬w.throttled) :
    Throttling D w where
  toTidy := h.tidy
  own := hm.own
  single i r p hr := by simp [h.requests] at hr
  paused ht := absurd ht hoff

lemma throttling_run {es : List Event} (hw : Throttling D w ∧ Metered w)
    (hes : Runs.Legal World.step (fun w e => AdmitsSteady w e ∧ (D → Timely w e)) w es) :
    Throttling D (Runs.run World.step w es) ∧ Metered (Runs.run World.step w es) := by
  refine hes.invariant (I := fun w => Throttling D w ∧ Metered w) (fun w e hw he => ?_) hw
  have hacts := acts_steady hw.1 hw.2 he.1 he.2
  exact ⟨Throttling.of_acts trivial hw.1 hacts, hw.2.of_acts hacts⟩

/-! ### While the throttle is on -/

/-- No producer of a registered request produces. -/
def Waits (w : World) : Prop := ∀ p < w.nextProducer, ∀ i,
  w.requests.get? i = some (w.producers p).request → (w.producers p).producing = false

/-- A scheduled step of a producer finds it paused, or done. -/
lemma Throttling.go_silent (hw : Throttling True w) (ht : w.throttled) {k : ℕ} {c : DelayedCall}
    (hc : w.calls[k]? = some c) (hfunc : c.func = .go p) : (w.step (.call k)).sent = w.sent := by
  show (after (runCall k) w).sent = w.sent
  rcases after_runCall k w with h | ⟨c', hc', ha, h⟩ <;> rw [h]
  obtain rfl : c = c' := Option.some.inj (hc.symm.trans hc')
  have hmem := List.mem_of_getElem? hc
  have hidle : ¬Live (w.called k) p := by
    intro hlive
    have hlive' : Live w p := ⟨hlive.1, hlive.2, hlive.3⟩
    have hp := hw.scheduled c hmem p hfunc
    obtain ⟨i, hid⟩ := Option.ne_none_iff_exists'.mp (hw.began p hp)
    cases hfin : (w.objs (w.producers p).request).finished with
    | true => exact hw.quiet trivial _ hfin ⟨p, hp, rfl, hlive', c, hmem, hfunc, ha⟩
    | false =>
      have := hw.producing ht hp (hw.registered _ i hid hfin)
      exact nomatch this.symm.trans hlive'.producing
  rw [hfunc]
  show (after (BytesMessageProducer.go p) (w.called k)).sent = w.sent
  rw [after_of_ok (go_idle hidle)]
  rfl

/-- Until the writes are unthrottled no scheduled step of a producer sends anything. -/
def Mute (admits : World → Event → Prop) (w : World) : Prop := ∀ es,
  Runs.Legal World.step (fun w e => admits w e ∧ ¬Unthrottles w e) w es → ∀ k c p,
    (Runs.run World.step w es).calls[k]? = some c → c.func = .go p →
      ((Runs.run World.step w es).step (.call k)).sent = (Runs.run World.step w es).sent

lemma Throttling.mute (hw : Throttling True w) (hm : Metered w) (ht : w.throttled) :
    Mute (fun w e => AdmitsSteady w e ∧ Timely w e) w := by
  intro es hes k c p hc hfunc
  have hinv := hes.invariant (I := fun w => (Throttling True w ∧ Metered w) ∧ w.throttled)
    (fun w e hw he => ?_) ⟨⟨hw, hm⟩, ht⟩
  · exact hinv.1.1.go_silent hinv.2 hc hfunc
  · obtain ⟨⟨hwe, hme⟩, hte⟩ := hw
    have hacts := acts_steady hwe hme he.1.1 fun _ => he.1.2
    exact ⟨⟨Throttling.of_acts trivial hwe hacts, hme.of_acts hacts⟩,
      Acts.throttled he.2 hacts hte⟩

/-- **While the writes are throttled** the uploads wait, in a run whose events keep the throttle:
no producer of a registered request produces. Where moreover no request is ended while it is
uploading, no scheduled step of a producer sends anything until the writes are unthrottled. -/
theorem throttle_run {w₀ : World} (h₀ : Initial w₀) (hm : Metered w₀) (hoff : ¬w₀.throttled)
    {es : List Event} (hes : Runs.Legal World.step AdmitsSteady w₀ es)
    (ht : (Runs.run World.step w₀ es).throttled) :
    Waits (Runs.run World.step w₀ es) ∧
    (Runs.Legal World.step Timely w₀ es →
      Mute (fun w e => AdmitsSteady w e ∧ Timely w e) (Runs.run World.step w₀ es)) := by
  constructor
  · have hw := throttling_run (D := False) ⟨h₀.throttling hm hoff, hm⟩
      (hes.mono fun _ _ h => ⟨h, False.elim⟩)
    exact fun p hp i hr => hw.1.producing ht hp hr
  · intro htimely
    have hw := throttling_run (D := True) ⟨h₀.throttling hm hoff, hm⟩
      ((hes.and htimely).mono fun _ _ h => ⟨h.1, fun _ => h.2⟩)
    exact hw.1.mute hw.2 ht

/-! ### Two uploads -/

/-- A client that is to upload files, with a limit of one byte in a second on its writes. -/
def limited (content : Bytes) : World := { uploading content with
  factory := some { throttlingEnabled := true, client := some .self
                    writes := { limit := some 1 } } }

lemma initial_limited (content : Bytes) : Initial (limited content) :=
  let h := initial_uploading content
  ⟨h.objs, h.requests, h.requestCounter, h.producing, h.registered, h.nextProducer, h.calls,
    h.sent, h.faults⟩

lemma metered_limited (content : Bytes) : Metered (limited content) :=
  ⟨_, 1, rfl, rfl, rfl, rfl, by decide⟩

lemma limited_not_throttled (content : Bytes) : ¬(limited content).throttled := by
  rintro ⟨f, hf, ht⟩
  cases hf
  cases ht

/-- Two uploads begin while the writes are throttled, and then the writes are unthrottled. -/
def twoUploads : List Event :=
  [.start 0, .start 1, .message beginContent none, .message { beginContent with id := 3 } none,
    .call 0]

lemma legal_twoUploads :
    Runs.Legal World.step AdmitsWire (limited [1, 2, 3, 4, 5]) twoUploads := by
  have hsecond : validateMessage { beginContent with id := 3 } = [] := by decide
  refine ⟨⟨⟨rfl, rfl⟩, fun _ _ h => nomatch h⟩,
    ⟨⟨by decide +kernel, by decide +kernel⟩, fun _ _ h => nomatch h⟩,
    ⟨beginContent_valid, ?_⟩, ⟨hsecond, ?_⟩,
    ⟨trivial, fun _ _ h => nomatch h⟩, trivial⟩
  · rintro m raises ⟨⟩
    decide
  · rintro m raises ⟨⟩
    decide

lemma throttled_iff : w.throttled ↔
    (w.factory.map fun f => f.writes.throttling) = some true := Option.map_eq_some_iff.symm

/-- The first upload brings the throttle back, and then the second one is resumed. -/
theorem not_waits : ¬∀ (w₀ : World) (es : List Event), Initial w₀ → Metered w₀ → ¬w₀.throttled →
    Runs.Legal World.step AdmitsWire w₀ es → (Runs.run World.step w₀ es).throttled →
      Waits (Runs.run World.step w₀ es) := by
  intro h
  have hwaits := h (limited [1, 2, 3, 4, 5]) twoUploads (initial_limited _) (metered_limited _)
    (limited_not_throttled _) legal_twoUploads (throttled_iff.mpr (by decide +kernel))
  have hsecond : ((Runs.run World.step (limited [1, 2, 3, 4, 5])
      twoUploads).producers 1).producing = true := by decide +kernel
  exact nomatch hsecond.symm.trans (hwaits 1 (by decide +kernel) 3 (by decide +kernel))

/-- A single upload, which begins and is resumed. -/
def oneUpload : List Event := [.start 0, .message beginContent none, .call 0]

lemma fits_single (w : World) (files : ℕ → File) (count r : ℕ) : Fits w files count [r] := by
  unfold Fits
  split
  · trivial
  · dsimp only
    split
    · trivial
    · split
      · split
        · exact ⟨fun _ _ hr => absurd hr List.not_mem_nil, fun _ => trivial⟩
        · trivial
      · trivial

lemma legal_oneUpload :
    Runs.Legal World.step AdmitsSteady (limited [1, 2, 3, 4, 5]) oneUpload := by
  refine ⟨⟨⟨⟨rfl, rfl⟩, fun _ _ h => nomatch h⟩, trivial⟩, ⟨⟨beginContent_valid, ?_⟩, ?_⟩,
    ⟨⟨trivial, fun _ _ h => nomatch h⟩, fun _ => ?_⟩, trivial⟩
  · rintro m raises ⟨⟩
    decide
  · intro _ r hr _
    have hget : ((limited [1, 2, 3, 4, 5]).step (.start 0)).requests.get? 1 = some 0 := by
      decide +kernel
    obtain rfl : 0 = r := Option.some.inj (hget.symm.trans hr)
    have hproducer : (((limited [1, 2, 3, 4, 5]).step (.start 0)).objs 0).producer = none := by
      decide +kernel
    have hproducing : (((limited [1, 2, 3, 4, 5]).step (.start 0)).objs 0).producing = false := by
      decide +kernel
    exact ⟨fun p hp => (nomatch hproducer.symm.trans hp),
      fun hp => nomatch hproducing.symm.trans hp⟩
  · have hvalues : (((limited [1, 2, 3, 4, 5]).step (.start 0)).step
        (.message beginContent none)).requests.values = [0] := by decide +kernel
    rw [hvalues]
    exact fits_single _ _ _ 0

lemma timely_oneUpload :
    Runs.Legal World.step Timely (limited [1, 2, 3, 4, 5]) oneUpload := by
  refine ⟨trivial, ?_, trivial, trivial⟩
  rintro r - ⟨p, hp, -⟩
  have hnone : ((limited [1, 2, 3, 4, 5]).step (.start 0)).nextProducer = 0 := by decide +kernel
  rw [hnone] at hp
  exact absurd hp (Nat.not_lt_zero p)

/-- It sends one piece when it is resumed, which brings the throttle back. -/
theorem throttle_run_oneUpload :
    Waits (Runs.run World.step (limited [1, 2, 3, 4, 5]) oneUpload) ∧
    Mute (fun w e => AdmitsSteady w e ∧ Timely w e)
      (Runs.run World.step (limited [1, 2, 3, 4, 5]) oneUpload) := by
  have h := throttle_run (initial_limited _) (metered_limited _) (limited_not_throttled _)
    legal_oneUpload (throttled_iff.mpr (by decide +kernel))
  exact ⟨h.1, h.2 timely_oneUpload⟩

end Magicicada.Client
