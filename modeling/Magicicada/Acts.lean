import Magicicada.Lifecycle
import Magicicada.Producing

/-!
What an event does to the producers, as a number of acts.

The acts are small enough that what they keep is plain: that each producer belongs to a request
that was started, that a finished request has no live producer with a step scheduled, and that
only unfinished requests send content. An act may be restricted by a condition, under which it
also keeps a throttle.
-/

namespace Magicicada.Client

open Pb Errors Requests Prog

/-! ### Uploads in progress -/

/-- A message with content, or the end of it. -/
def Payload (m : Message) : Prop := m.type = .bytes ∨ m.type = .eof

/-- A step of the producer is scheduled. -/
def Pending (w : World) (p : ℕ) : Prop := ∃ c ∈ w.calls, c.func = .go p ∧ c.active = true

/-- A producer of the request is going to send something. -/
def Uploading (w : World) (r : ℕ) : Prop :=
  ∃ p < w.nextProducer, (w.producers p).request = r ∧ Live w p ∧ Pending w p

/-- The writes are throttled. -/
def World.throttled (w : World) : Prop := ∃ f, w.factory = some f ∧ f.writes.throttling = true

/-! ### Acts -/

/-- Nothing about producers, delayed calls, messages and the factory changes. -/
structure Still (s t : World) : Prop where
  ledger : t.ledger = s.ledger
  producers : t.producers = s.producers
  nextProducer : t.nextProducer = s.nextProducer
  calls : t.calls = s.calls
  sent : t.sent = s.sent
  factory : t.factory = s.factory
  cancelled : ∀ r, (s.objs r).cancelled = true → (t.objs r).cancelled = true

/-- The conditions on what an event does. -/
structure Terms where
  /-- It keeps a throttle on writes. -/
  careful : Prop
  /-- It may lift a throttle on writes. -/
  lifts : Prop
  /-- It ends no request that is uploading. -/
  timely : Prop

/-- What an event may do, one thing after another. -/
inductive Act (T : Terms) (s : World) : World → Prop
  | still {t : World} (h : Still s t) : Act T s t
  /-- Flags are cleared, bytes are counted, calls other than `go` are scheduled. -/
  | slow {t : World} (h : Slows s t) (ht : t.throttled → s.throttled)
      (hoff : s.throttled → t.throttled ∨ T.lifts) : Act T s t
  /-- A message is sent; one with content for an unfinished request. -/
  | send (m : Message) (h : T.timely → Payload m → ∃ r, (s.objs r).id = some m.id ∧
      (s.objs r).finished = false) : Act T s (sendMessage m s)
  | enroll {r : ℕ} (hid : (s.objs r).id = none) : Act T s (s.enroll r)
  /-- A request that is not uploading is done or has an error. -/
  | finish {r : ℕ} {i : ℤ} (hr : s.requests.get? i = some r) (h : T.timely → ¬Uploading s r)
      (o : Outcome) : Act T s (s.finish r i o)
  /-- A registered request gets a new producer. -/
  | add {r : ℕ} {i : ℤ} (hr : s.requests.get? i = some r)
      (h : T.careful → ∀ p, (s.objs r).producer = some p → (s.producers p).producing = false)
      (offset : ℕ) : Act T s (s.withNewProducer r offset)
  /-- The producer of a registered request begins to produce. -/
  | wake {r p : ℕ} {i : ℤ} (hr : s.requests.get? i = some r) (hp : (s.objs r).producer = some p)
      (h : T.careful → ¬s.throttled) :
      Act T s (s.setProducer p fun q => { q with producing := true })
  | rest (p : ℕ) (f : Producer → Producer) (hf : ∀ q, Rests q (f q)) :
      Act T s (s.setProducer p f)
  /-- A step of a producer of an unfinished request is scheduled. -/
  | schedule {p : ℕ} (hp : p < s.nextProducer)
      (h : T.timely → (s.objs (s.producers p).request).finished = false) :
      Act T s (callLater 0 (.go p) s)
  /-- A delayed call is no longer active. -/
  | calls (k : ℕ) (f : DelayedCall → DelayedCall)
      (hf : ∀ c, (f c).func = c.func ∧ ((f c).active = true → c.active = true)) :
      Act T s { s with calls := s.calls.modify k f }

abbrev Acts (T : Terms) : World → World → Prop := Relation.ReflTransGen (Act T)

/-! ### What acts keep -/

/-- Producers belong to requests that were started, and under the condition finished requests are
not uploading. -/
structure Tidy (D : Prop) (w : World) : Prop extends Registry w where
  owner : ∀ r p, (w.objs r).producer = some p →
    p < w.nextProducer ∧ (w.producers p).request = r
  began : ∀ p < w.nextProducer, (w.objs (w.producers p).request).id ≠ none
  scheduled : ∀ c ∈ w.calls, ∀ p, c.func = .go p → p < w.nextProducer
  quiet : D → ∀ r, (w.objs r).finished = true → ¬Uploading w r

variable {D : Prop}

lemma Initial.tidy {w : World} (h : Initial w) : Tidy D w where
  toRegistry := h.registry
  owner r p hp := by simp [(h.objs r).producer] at hp
  began p hp := by simp [h.nextProducer] at hp
  scheduled c hc p hp := absurd hp (h.calls c hc p)
  quiet _ r hr := by simp [(h.objs r).finished] at hr

lemma nextProducer_of_core {s t : World} (h : t.core = s.core) :
    t.nextProducer = s.nextProducer := by
  have := congrArg World.nextProducer h
  exact this

lemma obj_of_core {s t : World} (h : t.core = s.core) (r : ℕ) :
    (t.objs r).id = (s.objs r).id ∧ (t.objs r).producer = (s.objs r).producer ∧
      (t.objs r).finished = (s.objs r).finished ∧ (t.objs r).cancelled = (s.objs r).cancelled := by
  have := objs_of_core h r
  simp only [Request.mk.injEq] at this
  exact ⟨this.2.2.2.1, this.2.2.2.2.2.1, this.2.2.2.2.2.2.2.1, this.2.2.2.2.2.2.2.2.1⟩

lemma Slows.producer_request {s t : World} (h : Slows s t) (p : ℕ) :
    (t.producers p).request = (s.producers p).request := by
  rcases h.producers p with e | e <;> rw [e]

/-- What is slowed down does not begin to upload. -/
lemma Slows.live {s t : World} (h : Slows s t) {p : ℕ} (ht : Live t p) : Live s p := by
  obtain ⟨hp, hc, hf⟩ := ht
  rw [h.producer_request, cancelled_of_core h.core] at hc
  rcases h.producers p with e | e
  · rw [e] at hp hf
    exact ⟨hp, hc, hf⟩
  · rw [e] at hp
    cases hp

lemma Slows.pending {s t : World} (h : Slows s t) {p : ℕ} (ht : Pending t p) : Pending s p := by
  obtain ⟨c, hc, hfunc, ha⟩ := ht
  obtain ⟨l, hl, hgo⟩ := h.calls
  rw [hl] at hc
  rcases List.mem_append.mp hc with hc | hc
  · exact ⟨c, hc, hfunc, ha⟩
  · exact absurd hfunc (hgo c hc p)

lemma Slows.uploading {s t : World} (h : Slows s t) {r : ℕ} (ht : Uploading t r) :
    Uploading s r := by
  obtain ⟨p, hp, hr, hlive, hpending⟩ := ht
  rw [nextProducer_of_core h.core] at hp
  rw [h.producer_request] at hr
  exact ⟨p, hp, hr, h.live hlive, h.pending hpending⟩

lemma Still.uploading {s t : World} (h : Still s t) {r : ℕ} (ht : Uploading t r) :
    Uploading s r := by
  obtain ⟨p, hp, hr, ⟨hprod, hc, hf⟩, c, hcall, hfunc⟩ := ht
  rw [h.nextProducer] at hp
  rw [h.producers] at hr hprod hf hc
  rw [h.calls] at hcall
  refine ⟨p, hp, hr, ⟨hprod, ?_, hf⟩, c, hcall, hfunc⟩
  exact Bool.eq_false_of_not_eq_true fun hct => by simp [h.cancelled _ hct] at hc

lemma Tidy.of_slows {s t : World} (hs : Tidy D s) (h : Slows s t) : Tidy D t where
  toRegistry := hs.toRegistry.of_ledger (ledger_of_core h.core)
  owner r p hp := by
    rw [nextProducer_of_core h.core, h.producer_request]
    exact hs.owner r p ((obj_of_core h.core r).2.1 ▸ hp)
  began p hp := by
    rw [h.producer_request, (obj_of_core h.core _).1]
    exact hs.began p (nextProducer_of_core h.core ▸ hp)
  scheduled c hc p hp := by
    obtain ⟨l, hl, hgo⟩ := h.calls
    rw [hl] at hc
    rw [nextProducer_of_core h.core]
    rcases List.mem_append.mp hc with hc | hc
    · exact hs.scheduled c hc p hp
    · exact absurd hp (hgo c hc p)
  quiet hD r hr ht := hs.quiet hD r ((obj_of_core h.core r).2.2.1 ▸ hr) (h.uploading ht)

/-- Each act is a number of moves of the registry. -/
lemma Act.moves {T : Terms} {s t : World} (hs : Registry s) (h : Act T s t) : Moves s t := by
  cases h with
  | still h => exact Moves.quiet h.ledger
  | slow h _ _ => exact Moves.of_core h.core
  | send m _ => exact Moves.of_core (core_sendMessage m s)
  | enroll hid => exact .single (.enroll hid)
  | finish hr _ o => exact .single (.finish hr o)
  | @add r i hr _ offset =>
    have hid : ((s.addNewProducer r offset).objs r).id ≠ none := by
      simp [World.addNewProducer, (hs.entry i r hr).1]
    have hadd : Moves s (s.addNewProducer r offset) := Moves.quiet rfl
    exact hadd.tail (.producer hid _)
  | wake _ _ _ => exact Moves.quiet rfl
  | rest _ _ _ => exact Moves.quiet rfl
  | schedule _ _ => exact Moves.quiet rfl
  | calls _ _ _ => exact Moves.quiet rfl

/-- A request gets an id. -/
lemma Tidy.enroll {w : World} (hw : Tidy D w) {r : ℕ} (hid : (w.objs r).id = none) :
    Tidy D (w.enroll r) := by
  have hobj := enroll_obj w r
  refine { toRegistry := hw.toRegistry.enroll hid, owner := fun r' p hp => ?_,
           began := fun p hp => ?_, scheduled := hw.scheduled, quiet := fun hD r' hr h => ?_ }
  · rw [(hobj r').1] at hp
    exact hw.owner r' p hp
  · show ((w.enroll r).objs (w.producers p).request).id ≠ none
    by_cases h : (w.producers p).request = r
    · rw [h]; simp
    · rw [enroll_objs_of_ne h]
      exact hw.began p hp
  · obtain ⟨p, hp, hreq, ⟨hprod, hc, hf⟩, hpending⟩ := h
    rw [(hobj r').2.1] at hr
    rw [(hobj _).2.2] at hc
    exact hw.quiet hD r' hr ⟨p, hp, hreq, ⟨hprod, hc, hf⟩, hpending⟩

/-- A request that is not uploading is finished. -/
lemma Tidy.finish {w : World} (hw : Tidy D w) {r : ℕ} {i : ℤ} (hr : w.requests.get? i = some r)
    (h : D → ¬Uploading w r) (o : Outcome) : Tidy D (w.finish r i o) := by
  have hobj := finish_obj w r i o
  refine { toRegistry := hw.toRegistry.finish hr o, owner := fun r' p hp => ?_,
           began := fun p hp => ?_, scheduled := hw.scheduled, quiet := fun hD r' hr' h' => ?_ }
  · rw [(hobj r').2.1] at hp
    exact hw.owner r' p hp
  · rw [(hobj _).1]
    exact hw.began p hp
  · obtain ⟨p, hp, hreq, ⟨hprod, hc, hf⟩, hpending⟩ := h'
    rw [(hobj _).2.2] at hc
    have hup : Uploading w r' := ⟨p, hp, hreq, ⟨hprod, hc, hf⟩, hpending⟩
    by_cases hrr : r' = r
    · subst hrr
      exact h hD hup
    · rw [finish_objs_of_ne hrr] at hr'
      exact hw.quiet hD r' hr' hup

@[simp] lemma withNewProducer_producers (w : World) (r offset : ℕ) :
    (w.withNewProducer r offset).producers = Function.update w.producers w.nextProducer
      { request := r, fh := (w.objs r).kind.fd, offset := offset } := rfl

@[simp] lemma withNewProducer_nextProducer (w : World) (r offset : ℕ) :
    (w.withNewProducer r offset).nextProducer = w.nextProducer + 1 := rfl

lemma withNewProducer_objs (w : World) (r offset r' : ℕ) :
    (w.withNewProducer r offset).objs r' =
      if r' = r then { w.objs r with producer := some w.nextProducer } else w.objs r' := by
  by_cases h : r' = r
  · subst h
    rw [if_pos rfl]
    exact setObj_objs_self (w.addNewProducer r' offset) r' fun q =>
      { q with producer := some w.nextProducer }
  · rw [if_neg h]
    exact setObj_objs_of_ne h _

/-- A new producer does not produce yet. -/
lemma Tidy.add {w : World} (hw : Tidy D w) {r : ℕ} {i : ℤ} (hr : w.requests.get? i = some r)
    (offset : ℕ) : Tidy D (w.withNewProducer r offset) := by
  have hreg : Registry (w.withNewProducer r offset) :=
    hw.toRegistry.of_moves (Act.moves (T := ⟨False, False, False⟩) hw.toRegistry
      (.add hr False.elim offset))
  have hobj : ∀ r', ((w.withNewProducer r offset).objs r').id = (w.objs r').id ∧
      ((w.withNewProducer r offset).objs r').finished = (w.objs r').finished ∧
      ((w.withNewProducer r offset).objs r').cancelled = (w.objs r').cancelled := by
    intro r'
    rw [withNewProducer_objs]
    by_cases h : r' = r
    · subst h; simp
    · simp [h]
  have hold : ∀ p < w.nextProducer,
      (w.withNewProducer r offset).producers p = w.producers p := by
    intro p hp
    rw [withNewProducer_producers, Function.update_of_ne (by omega)]
  have hnew : (w.withNewProducer r offset).producers w.nextProducer =
      { request := r, fh := (w.objs r).kind.fd, offset := offset } := by
    rw [withNewProducer_producers, Function.update_self]
  have hcases : ∀ p < w.nextProducer + 1, p < w.nextProducer ∨ p = w.nextProducer := by
    intro p hp
    omega
  refine { toRegistry := hreg, owner := fun r' p hp => ?_, began := fun p hp => ?_,
           scheduled := fun c hc p hp => ?_, quiet := fun hD r' hr' h' => ?_ }
  · rw [withNewProducer_objs] at hp
    rw [withNewProducer_nextProducer]
    split at hp
    · next h =>
      cases hp
      rw [hnew, h]
      exact ⟨by omega, rfl⟩
    · obtain ⟨hlt, hreq⟩ := hw.owner r' p hp
      rw [hold p hlt]
      exact ⟨by omega, hreq⟩
  · rw [(hobj _).1]
    rcases hcases p hp with h | rfl
    · rw [hold p h]
      exact hw.began p h
    · rw [hnew, (hw.entry i r hr).1]
      simp
  · have := hw.scheduled c hc p hp
    rw [withNewProducer_nextProducer]
    omega
  · obtain ⟨p, hp, hreq, ⟨hprod, hc, hf⟩, hpending⟩ := h'
    rw [(hobj r').2.1] at hr'
    rw [(hobj _).2.2] at hc
    rcases hcases p hp with h | rfl
    · rw [hold p h] at hreq hprod hc hf
      exact hw.quiet hD r' hr' ⟨p, h, hreq, ⟨hprod, hc, hf⟩, hpending⟩
    · rw [hnew] at hprod
      cases hprod

/-- A producer changes its flags, and if it begins to produce its request is not finished. -/
lemma Tidy.setProducer {w : World} (hw : Tidy D w) {p : ℕ} {f : Producer → Producer}
    (hreq : ∀ q, (f q).request = q.request)
    (h : (w.objs (w.producers p).request).finished = true → Rests (w.producers p)
      (f (w.producers p))) : Tidy D (w.setProducer p f) := by
  have hrequest : ∀ p', ((w.setProducer p f).producers p').request = (w.producers p').request := by
    intro p'
    by_cases hp : p' = p
    · subst hp
      rw [setProducer_producers_self, hreq]
    · rw [setProducer_producers_of_ne hp]
  refine { toRegistry := hw.toRegistry.of_ledger rfl, owner := fun r p' hp => ?_,
           began := fun p' hp => ?_, scheduled := hw.scheduled, quiet := fun hD r hr h' => ?_ }
  · rw [hrequest]
    exact hw.owner r p' hp
  · rw [hrequest]
    exact hw.began p' hp
  · obtain ⟨p', hp', hreq', ⟨hprod, hc, hf⟩, hpending⟩ := h'
    rw [hrequest] at hreq' hc
    by_cases hp : p' = p
    · subst hp
      obtain ⟨-, hprod', hf'⟩ := h (hreq' ▸ hr)
      rw [setProducer_producers_self] at hprod hf
      refine hw.quiet hD r hr ⟨p', hp', hreq', ⟨hprod' hprod, hc, ?_⟩, hpending⟩
      exact Bool.eq_false_of_not_eq_true fun ht => by simp [hf' ht] at hf
    · rw [setProducer_producers_of_ne hp] at hprod hf
      exact hw.quiet hD r hr ⟨p', hp', hreq', ⟨hprod, hc, hf⟩, hpending⟩

lemma Tidy.still {s t : World} (hs : Tidy D s) (h : Still s t) : Tidy D t := by
  have hobj : ∀ r, (t.objs r).id = (s.objs r).id ∧ (t.objs r).finished = (s.objs r).finished ∧
      (t.objs r).producer = (s.objs r).producer := by
    intro r
    obtain ⟨hid, hfin⟩ := obj_of_ledger h.ledger r
    have hprod := congrArg (fun w => (w.objs r).producer) h.ledger
    exact ⟨hid, hfin, hprod⟩
  refine { toRegistry := hs.toRegistry.of_ledger h.ledger, owner := fun r p hp => ?_,
           began := fun p hp => ?_, scheduled := fun c hc p hp => ?_,
           quiet := fun hD r hr ht => ?_ }
  · rw [h.nextProducer, h.producers]
    exact hs.owner r p ((hobj r).2.2 ▸ hp)
  · rw [h.producers, (hobj _).1]
    exact hs.began p (h.nextProducer ▸ hp)
  · rw [h.nextProducer]
    exact hs.scheduled c (h.calls ▸ hc) p hp
  · exact hs.quiet hD r ((hobj r).2.1 ▸ hr) (h.uploading ht)

lemma Tidy.sent {w : World} (hw : Tidy D w) (m : Message) :
    Tidy D { w with sent := w.sent ++ [m] } :=
  { hw with
    toRegistry := hw.toRegistry.of_ledger rfl
    quiet := fun hD r hr ⟨p, hp, hreq, hlive, hpending⟩ =>
      hw.quiet hD r hr ⟨p, hp, hreq, ⟨hlive.1, hlive.2, hlive.3⟩, hpending⟩ }

/-- A step of a producer is scheduled; under the condition its request is not finished. -/
lemma Tidy.schedule {w : World} (hw : Tidy D w) {p : ℕ} (hp : p < w.nextProducer)
    (h : D → (w.objs (w.producers p).request).finished = false) :
    Tidy D (callLater 0 (.go p) w) := by
  refine { toRegistry := hw.toRegistry.of_ledger rfl, owner := hw.owner, began := hw.began,
           scheduled := fun c hc p' hp' => ?_, quiet := fun hD r hr h' => ?_ }
  · rcases List.mem_append.mp hc with hc | hc
    · exact hw.scheduled c hc p' hp'
    · obtain rfl := List.mem_singleton.mp hc
      cases hp'
      exact hp
  · obtain ⟨p', hp', hreq, hlive, c, hc, hfunc, ha⟩ := h'
    rcases List.mem_append.mp hc with hc | hc
    · exact hw.quiet hD r hr ⟨p', hp', hreq, ⟨hlive.1, hlive.2, hlive.3⟩, c, hc, hfunc, ha⟩
    · obtain rfl := List.mem_singleton.mp hc
      cases hfunc
      have hfin : (w.objs r).finished = true := hr
      have hopen := h hD
      rw [show (w.producers p).request = r from hreq, hfin] at hopen
      cases hopen

/-- A delayed call is changed, but does not become active. -/
lemma Tidy.modifyCalls {w : World} (hw : Tidy D w) (k : ℕ) {f : DelayedCall → DelayedCall}
    (hf : ∀ c, (f c).func = c.func ∧ ((f c).active = true → c.active = true)) :
    Tidy D { w with calls := w.calls.modify k f } := by
  have hmem : ∀ c ∈ w.calls.modify k f, ∃ c' ∈ w.calls, c.func = c'.func ∧
      (c.active = true → c'.active = true) := by
    intro c hc
    obtain ⟨j, hj⟩ := List.mem_iff_getElem?.mp hc
    rw [List.getElem?_modify] at hj
    obtain ⟨c', hc', rfl⟩ := Option.map_eq_some_iff.mp hj
    refine ⟨c', List.mem_of_getElem? hc', ?_⟩
    split
    · exact hf c'
    · exact ⟨rfl, id⟩
  refine { toRegistry := hw.toRegistry.of_ledger rfl, owner := hw.owner, began := hw.began,
           scheduled := fun c hc p hp => ?_, quiet := fun hD r hr h' => ?_ }
  · obtain ⟨c', hc', hfunc, -⟩ := hmem c hc
    exact hw.scheduled c' hc' p (hfunc.symm.trans hp)
  · obtain ⟨p, hp, hreq, hlive, c, hc, hfunc, ha⟩ := h'
    obtain ⟨c', hc', hfunc', ha'⟩ := hmem c hc
    exact hw.quiet hD r hr ⟨p, hp, hreq, ⟨hlive.1, hlive.2, hlive.3⟩, c', hc',
      hfunc'.symm.trans hfunc, ha' ha⟩

/-- **Every act keeps the producers tidy.** -/
lemma Tidy.of_act {T : Terms} {s t : World} (hs : Tidy T.timely s) (h : Act T s t) :
    Tidy T.timely t := by
  cases h with
  | still h => exact hs.still h
  | slow h _ _ => exact hs.of_slows h
  | send m _ => exact (hs.sent m).of_slows (slows_sendMessage m s)
  | enroll hid => exact hs.enroll hid
  | finish hr h o => exact hs.finish hr h o
  | add hr _ offset => exact hs.add hr offset
  | wake hr hp _ =>
    refine hs.setProducer (fun _ => rfl) fun hfin => ?_
    rw [(hs.owner _ _ hp).2, (hs.entry _ _ hr).2.2.1] at hfin
    cases hfin
  | rest p f hf => exact hs.setProducer (fun q => (hf q).request) fun _ => hf _
  | schedule hp h => exact hs.schedule hp h
  | calls k f hf => exact hs.modifyCalls k hf

lemma Tidy.of_acts {T : Terms} {s t : World} (hs : Tidy T.timely s) (h : Acts T s t) :
    Tidy T.timely t := by
  induction h with
  | refl => exact hs
  | tail _ h ih => exact ih.of_act h

lemma Acts.moves {T : Terms} {s t : World} (hs : Tidy T.timely s) (h : Acts T s t) :
    Moves s t := by
  induction h with
  | refl => exact .refl
  | tail h h' ih => exact ih.trans (h'.moves (hs.of_acts h).toRegistry)

/-! ### What acts send -/

/-- No content was sent for a request that was finished before. -/
def Silent (s t : World) : Prop := ∃ new, t.sent = s.sent ++ new ∧
  ∀ m ∈ new, Payload m → ∀ r, (s.objs r).finished = true → (s.objs r).id ≠ some m.id

lemma Silent.of_sent {s t : World} (h : t.sent = s.sent) : Silent s t := ⟨[], by simp [h], by simp⟩

lemma Silent.trans {s t u : World} (h : Silent s t) (h' : Silent t u) (hage : Ages s t) :
    Silent s u := by
  obtain ⟨new, hnew, hpay⟩ := h
  obtain ⟨new', hnew', hpay'⟩ := h'
  refine ⟨new ++ new', by rw [hnew', hnew, List.append_assoc], fun m hm hp r hr hid => ?_⟩
  rcases List.mem_append.mp hm with hm | hm
  · exact hpay m hm hp r hr hid
  · exact hpay' m hm hp r (hage.finished r hr) (hage.ids r _ hid)

lemma Act.silent {T : Terms} {s t : World} (hs : Registry s) (h : Act T s t) (hT : T.timely) :
    Silent s t := by
  cases h with
  | still h => exact .of_sent h.sent
  | slow h _ _ => exact .of_sent h.sent
  | send m h =>
    refine ⟨[m], (slows_sendMessage m s).sent, fun m' hm' hp r hr hid => ?_⟩
    obtain rfl := List.mem_singleton.mp hm'
    obtain ⟨r', hid', hfin⟩ := h hT hp
    rw [hs.injective r r' _ hid hid', hfin] at hr
    cases hr
  | enroll _ => exact .of_sent rfl
  | finish _ _ _ => exact .of_sent rfl
  | add _ _ _ => exact .of_sent rfl
  | wake _ _ _ => exact .of_sent rfl
  | rest _ _ _ => exact .of_sent rfl
  | schedule _ _ => exact .of_sent rfl
  | calls _ _ _ => exact .of_sent rfl

/-- **Only unfinished requests send content.** -/
lemma Acts.silent {T : Terms} {s t : World} (hs : Tidy T.timely s) (h : Acts T s t)
    (hT : T.timely) : Silent s t := by
  induction h with
  | refl => exact .of_sent rfl
  | tail h h' ih => exact ih.trans (h'.silent (hs.of_acts h).toRegistry hT) (Acts.moves hs h).ages

end Magicicada.Client
