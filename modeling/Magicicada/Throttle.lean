import Magicicada.Events

/-!
The throttle of a factory on writes, kept by acts.

A throttle comes on inside a write, which pauses the producer of every registered request. From
then on no act may make one of them produce. What could is restricted by the condition under
which a run of acts is made.
-/

namespace Magicicada.Client

open Pb Errors Bytes Framing Fields Requests Prog

variable {D : Prop} {s t w : World} {r p : ℕ} {i : ℤ}

/-! ### Pausing everything -/

/-- The producers of the registered requests do not produce. -/
def AllPaused (w : World) : Prop := ∀ i r p, w.requests.get? i = some r →
  (w.objs r).producer = some p → (w.producers p).producing = false

lemma Slows.paused (h : Slows s t) (hp : (s.producers p).producing = false) :
    (t.producers p).producing = false := by
  rcases h.producers p with e | e <;> rw [e]
  exact hp

lemma Slows.requests (h : Slows s t) : t.requests = s.requests :=
  requests_of_ledger (ledger_of_core h.core)

/-- What is paused stays paused when things slow down. -/
lemma AllPaused.of_slows (hs : AllPaused s) (h : Slows s t) : AllPaused t := by
  intro i r p hr hp
  rw [h.requests] at hr
  rw [(obj_of_core h.core r).2.1] at hp
  exact h.paused (hs i r p hr hp)

/-- `pauseProducing` of the handler reaches every registered request. -/
lemma allPaused_foldl (l : List ℕ) : ∀ w : World, ∀ r ∈ l, ∀ p, (w.objs r).producer = some p →
    ((l.foldl (fun w r => Request.pauseProducing r w) w).producers p).producing = false := by
  induction l with
  | nil => exact fun _ _ hr => nomatch hr
  | cons a l ih =>
    intro w r hr p hp
    have hslows := slows_pauseRequest a w
    have hrest := slows_foldl (fun w r => slows_pauseRequest r w) l (Request.pauseProducing a w)
    rcases List.mem_cons.mp hr with rfl | hr
    · refine hrest.paused ?_
      show ((withProducer r BytesMessageProducer.pauseProducing w).producers p).producing = false
      simp [withProducer, hp, BytesMessageProducer.pauseProducing]
    · refine ih _ r hr p ?_
      rw [(obj_of_core hslows.core r).2.1, hp]

lemma allPaused_pause (w : World) : AllPaused (Handler.pauseProducing w) := by
  intro i r p hr hp
  have hslows := slows_pause w
  rw [hslows.requests] at hr
  rw [(obj_of_core hslows.core r).2.1] at hp
  exact allPaused_foldl w.requests.values w r (Dict.mem_values_iff.mpr ⟨i, hr⟩) p hp

/-! ### Writing -/

/-- The client is the one registered with the factory. -/
def Own (w : World) : Prop := w.factory.bind Factory.client = some .self

lemma config_own (h : t.factory.map Factory.config = s.factory.map Factory.config) :
    Own t ↔ Own s := by
  have hclient : ∀ w : World, w.factory.bind Factory.client =
      (w.factory.map Factory.config).bind Factory.client := by
    intro w
    cases w.factory <;> rfl
  unfold Own
  rw [hclient t, h, ← hclient s]

lemma throttle_writes (h : Own w) : AllPaused (Factory.throttle .writes w) := by
  unfold Factory.throttle
  rw [h]
  exact allPaused_pause _

lemma own_setFlow (h : Own w) {d : Dir} {f : Flow → Flow} (hf : ∀ g, (f g).limit = g.limit) :
    Own (w.setFlow d f) := (config_own (slows_setFlow hf).config).mpr h

/-- Counting what was written throttles nothing, or pauses everything. -/
lemma registerWritten_cases (h : Own w) (n : ℕ) :
    ((registerOwn .writes n w).throttled → w.throttled) ∨ AllPaused (registerOwn .writes n w) := by
  have hset : ∀ n : ℕ, (w.setFlow .writes fun f => { f with
      thisSecond := f.thisSecond + n }).throttled → w.throttled :=
    fun n => throttled_setFlow fun _ _ => id
  unfold registerOwn
  rw [h]
  show ((register .writes n w).throttled → _) ∨ AllPaused (register .writes n w)
  unfold register
  split
  · exact Or.inl id
  · split
    swap
    · exact Or.inl id
    have hown := own_setFlow h (d := .writes)
      (f := fun f => { f with thisSecond := f.thisSecond + n }) fun _ => rfl
    unfold checkBandwidth
    split
    · exact Or.inl (hset n)
    · split
      · refine Or.inr ((throttle_writes hown).of_slows ?_)
        exact Slows.trans' (slows_maybeCallLater fun _ => Func.noConfusion)
          (slows_setFlow fun _ => rfl)
      · exact Or.inl (hset n)

lemma factory_transportWrite (w : World) : (transportWrite w).factory = w.factory := by
  unfold transportWrite
  simp only
  split
  · exact factory_pause _
  · rfl

lemma write_cases (h : Own w) (n : ℕ) :
    ((write n w).throttled → w.throttled) ∨ AllPaused (write n w) := by
  unfold write
  rcases registerWritten_cases h n with hi | hp
  · exact Or.inl fun ht => hi (throttled_of_factory (factory_transportWrite _) ht)
  · exact Or.inr (hp.of_slows (slows_transportWrite _))

/-- **A message** leaves the throttle off, or everything paused. -/
lemma sendMessage_cases (h : Own w) (m : Message) :
    ((sendMessage m w).throttled → w.throttled) ∨ AllPaused (sendMessage m w) := by
  have hown : Own (write sizeFmtSize w) := (config_own (slows_write _ w).config).mpr h
  have hsent : AllPaused (write (byteSize m) (write sizeFmtSize w)) →
      AllPaused (sendMessage m w) := id
  rcases write_cases hown (byteSize m) with hi | hp
  · rcases write_cases h sizeFmtSize with hi' | hp'
    · exact Or.inl fun ht => hi' (hi ht)
    · exact Or.inr (hsent (hp'.of_slows (slows_write _ _)))
  · exact Or.inr (hsent hp)

/-! ### The invariant -/

/-- A throttle on writes is kept: every registered request has at most its own current producer
producing, and not even that while the writes are throttled. -/
structure Throttling (D : Prop) (w : World) : Prop extends Tidy D w where
  own : Own w
  single : ∀ i r p, w.requests.get? i = some r → p < w.nextProducer →
    (w.producers p).request = r → (w.objs r).producer ≠ some p → (w.producers p).producing = false
  paused : w.throttled → AllPaused w

/-- **While the writes are throttled** no producer of a registered request produces. -/
lemma Throttling.producing (h : Throttling D w) (ht : w.throttled) (hp : p < w.nextProducer)
    (hr : w.requests.get? i = some (w.producers p).request) :
    (w.producers p).producing = false := by
  by_cases hcur : (w.objs (w.producers p).request).producer = some p
  · exact h.paused ht i _ p hr hcur
  · exact h.single i _ p hr hp rfl hcur

lemma Throttling.of_slows (hs : Throttling D s) (h : Slows s t)
    (ht : (t.throttled → s.throttled) ∨ AllPaused t) : Throttling D t where
  toTidy := hs.toTidy.of_slows h
  own := (config_own h.config).mpr hs.own
  single i r p hr hp hreq hne := by
    rw [h.requests] at hr
    rw [nextProducer_of_core h.core] at hp
    rw [h.producer_request] at hreq
    rw [(obj_of_core h.core r).2.1] at hne
    exact h.paused (hs.single i r p hr hp hreq hne)
  paused htt := by
    rcases ht with ht | ht
    · exact (hs.paused (ht htt)).of_slows h
    · exact ht

/-- An act that changes neither the registry, nor the factory, nor which producers produce. -/
lemma Throttling.of_same (hs : Throttling D s) (ht : Tidy D t) (hreq : t.requests = s.requests)
    (hfactory : t.factory = s.factory) (hnext : t.nextProducer = s.nextProducer)
    (hobj : ∀ r, (t.objs r).producer = (s.objs r).producer)
    (hprod : ∀ p, (t.producers p).request = (s.producers p).request ∧
      ((t.producers p).producing = true → (s.producers p).producing = true)) : Throttling D t where
  toTidy := ht
  own := by
    unfold Own
    rw [hfactory]
    exact hs.own
  single i r p hr hp hq hne := by
    rw [hreq] at hr
    rw [hnext] at hp
    rw [(hprod p).1] at hq
    rw [hobj] at hne
    have := hs.single i r p hr hp hq hne
    exact Bool.eq_false_of_not_eq_true fun h => by simp [(hprod p).2 h] at this
  paused htt := by
    intro i r p hr hp
    rw [hreq] at hr
    rw [hobj] at hp
    have := hs.paused (throttled_of_factory hfactory htt) i r p hr hp
    exact Bool.eq_false_of_not_eq_true fun h => by simp [(hprod p).2 h] at this

/-- A request gets an id. -/
lemma Throttling.enroll (hs : Throttling D s) (hid : (s.objs r).id = none) :
    Throttling D (s.enroll r) := by
  have hfresh := hs.fresh r hid
  refine ⟨hs.toTidy.enroll hid, hs.own, fun i r' p hr hp hreq hne => ?_,
    fun htt i r' p hr hp => ?_⟩
  · have hrr : r' ≠ r := by
      rintro rfl
      exact hs.began p hp (by rw [show (s.producers p).request = r' from hreq, hid])
    rw [enroll_requests, Dict.get?_set] at hr
    rw [enroll_objs_of_ne hrr] at hne
    split at hr
    · cases hr
      exact absurd rfl hrr
    · exact hs.single i r' p hr hp hreq hne
  · rw [enroll_requests, Dict.get?_set] at hr
    split at hr
    · cases hr
      rw [enroll_objs_self] at hp
      have := hfresh.2.2.2.symm.trans hp
      cases this
    · have hrr : r' ≠ r := by
        rintro rfl
        have := hid.symm.trans (hs.entry i r' hr).1
        cases this
      rw [enroll_objs_of_ne hrr] at hp
      exact hs.paused htt i r' p hr hp

/-- A request leaves the registry. -/
lemma Throttling.finish (hs : Throttling D s) {o : Outcome} (ht : Tidy D (s.finish r i o)) :
    Throttling D (s.finish r i o) := by
  have hget : ∀ j r', (s.finish r i o).requests.get? j = some r' →
      s.requests.get? j = some r' := fun _ _ hj => (registered_of_finish hj).2
  have hobj := fun r' => (finish_obj s r i o r').2.1
  refine ⟨ht, hs.own, fun j r' p hj hp hreq hne => ?_, fun htt j r' p hj hp => ?_⟩
  · exact hs.single j r' p (hget j r' hj) hp hreq (hobj r' ▸ hne)
  · exact hs.paused htt j r' p (hget j r' hj) (hobj r' ▸ hp)

/-- A request gets another producer, where the one it had does not produce. -/
lemma Throttling.add (hs : Throttling D s) (hr : s.requests.get? i = some r)
    (hold : ∀ p, (s.objs r).producer = some p → (s.producers p).producing = false)
    (offset : ℕ) : Throttling D (s.withNewProducer r offset) := by
  have hlt : ∀ r' p, (s.objs r').producer = some p → p < s.nextProducer :=
    fun r' p hp => (hs.owner r' p hp).1
  have hkeep : ∀ p < s.nextProducer, (s.withNewProducer r offset).producers p = s.producers p :=
    fun p hp => by rw [withNewProducer_producers, Function.update_of_ne (by omega)]
  have hnew : (s.withNewProducer r offset).producers s.nextProducer =
      { request := r, fh := (s.objs r).kind.fd, offset := offset } := by
    rw [withNewProducer_producers, Function.update_self]
  refine ⟨hs.toTidy.add hr offset, hs.own, fun j r' p hj hp hreq hne => ?_,
    fun htt j r' p hj hp => ?_⟩
  · rw [withNewProducer_nextProducer] at hp
    rcases Nat.lt_succ_iff_lt_or_eq.mp hp with hp | rfl
    · rw [hkeep p hp] at hreq ⊢
      -- the old current producer does not produce either
      by_cases hcur : (s.objs r').producer = some p
      · by_cases hrr : r' = r
        · subst hrr
          exact hold p hcur
        · rw [withNewProducer_objs, if_neg hrr] at hne
          exact absurd hcur hne
      · exact hs.single j r' p hj hp hreq hcur
    · rw [hnew]
  · rw [withNewProducer_objs] at hp
    split at hp
    · cases hp
      rw [hnew]
    · rw [hkeep p (hlt r' p hp)]
      exact hs.paused htt j r' p hj hp

/-- The producer of a request begins to produce while the writes are not throttled. -/
lemma Throttling.wake (hs : Throttling D s) (hp : (s.objs r).producer = some p)
    (hoff : ¬s.throttled) (ht : Tidy D (s.setProducer p fun q => { q with producing := true })) :
    Throttling D (s.setProducer p fun q => { q with producing := true }) := by
  refine ⟨ht, hs.own, fun j r' p' hj hp' hreq hne => ?_, fun htt => absurd htt hoff⟩
  by_cases hpp : p' = p
  · subst hpp
    rw [setProducer_producers_self] at hreq
    have hr' : r' = r := hreq.symm.trans (hs.owner r p' hp).2
    subst hr'
    exact absurd hp hne
  · rw [setProducer_producers_of_ne hpp] at hreq ⊢
    exact hs.single j r' p' hj hp' hreq hne

/-- **Every act keeps the throttle**, under the condition. -/
lemma Throttling.of_act {T : Terms} (hT : T.careful) (hs : Throttling T.timely s)
    (h : Act T s t) : Throttling T.timely t := by
  have ht := hs.toTidy.of_act h
  cases h with
  | still h =>
    refine hs.of_same ht (requests_of_ledger h.ledger) h.factory h.nextProducer (fun r => ?_)
      fun p => by rw [h.producers]; exact ⟨rfl, id⟩
    have hprod := congrArg (fun w => (w.objs r).producer) h.ledger
    exact hprod
  | slow h htt _ => exact hs.of_slows h (Or.inl htt)
  | send m _ =>
    have hsent : Throttling T.timely { s with sent := s.sent ++ [m] } :=
      hs.of_same (hs.toTidy.sent m) rfl rfl rfl (fun _ => rfl) fun _ => ⟨rfl, id⟩
    refine hsent.of_slows (slows_sendMessage m s) ?_
    exact sendMessage_cases hs.own m
  | enroll hid => exact hs.enroll hid
  | finish _ _ _ => exact hs.finish ht
  | add hr hold offset => exact hs.add hr (hold hT) offset
  | wake _ hp hoff => exact hs.wake hp (hoff hT) ht
  | rest p f hf =>
    refine hs.of_same ht rfl rfl rfl (fun _ => rfl) fun p' => ?_
    by_cases hpp : p' = p
    · subst hpp
      rw [setProducer_producers_self]
      exact ⟨(hf _).request, (hf _).producing⟩
    · rw [setProducer_producers_of_ne hpp]
      exact ⟨rfl, id⟩
  | schedule _ _ => exact hs.of_same ht rfl rfl rfl (fun _ => rfl) fun _ => ⟨rfl, id⟩
  | calls _ _ _ => exact hs.of_same ht rfl rfl rfl (fun _ => rfl) fun _ => ⟨rfl, id⟩

lemma Throttling.of_acts {T : Terms} (hT : T.careful) (hs : Throttling T.timely s)
    (h : Acts T s t) : Throttling T.timely t := by
  induction h with
  | refl => exact hs
  | tail _ h ih => exact Throttling.of_act hT ih h

end Magicicada.Client
