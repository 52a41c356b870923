import Magicicada.Acts
import Magicicada.Streams

/-!
Each event is a number of acts.
-/

namespace Magicicada.Client

open Pb Errors Requests Prog

variable {T : Terms} {w : World} {r p : ℕ} {i : ℤ}

/-! ### Producing -/

lemma still_fetched (w : World) (fh : ℕ) (ops : List FileOp) : Still w (w.fetched fh ops) :=
  ⟨rfl, rfl, rfl, rfl, rfl, rfl, fun _ => id⟩

/-- A step of a producer, which sends nothing for a finished request. -/
lemma acts_go (hp : p < w.nextProducer)
    (h : T.timely → Live w p → (w.objs (w.producers p).request).finished = false) :
    Acts T w (after (BytesMessageProducer.go p) w) := by
  have hspec := go_spec w p
  unfold after
  generalize (BytesMessageProducer.go p).run w = res at hspec ⊢
  cases hspec with
  | idle _ => exact .refl
  | raised _ ops f hf _ _ =>
    exact (Relation.ReflTransGen.single (.still (still_fetched w _ ops))).tail (.rest p f hf)
  | @bytes hlive i hid _ data _ _ =>
    let v := w.fetched (w.producers p).fh (fetchOps (w.producers p)
      (w.objs (w.producers p).request).kind.maxPayloadSize)
    let a := v.advanced p data.length
    let m : Message := { bytesMessage data with id := i }
    have hslows := slows_sendMessage m a
    have hrequest : (a.producers p).request = (w.producers p).request := by
      simp only [a, World.advanced, setProducer_producers_self]
      exact (rests_advance data.length _).request
    have hfetch : Act T w v := .still (still_fetched w _ _)
    have hrest : Act T v a := .rest p _ (rests_advance data.length)
    have hsend : Act T a (sendMessage m a) := .send m fun hT _ => ⟨_, hid, h hT hlive⟩
    have hsched : Act T (sendMessage m a) (callLater 0 (.go p) (sendMessage m a)) := by
      refine .schedule ?_ fun hT => ?_
      · rwa [nextProducer_of_core hslows.core]
      · rw [hslows.producer_request, (obj_of_core hslows.core _).2.2.1, hrequest]
        exact h hT hlive
    exact .head hfetch (.head hrest (.head hsend (.single hsched)))
  | @eof hlive i hid _ _ =>
    let v := w.fetched (w.producers p).fh (fetchOps (w.producers p)
      (w.objs (w.producers p).request).kind.maxPayloadSize)
    let m : Message := { eofMessage with id := i }
    have hfetch : Act T w v := .still (still_fetched w _ _)
    have hsend : Act T v (sendMessage m v) := .send m fun hT _ => ⟨_, hid, h hT hlive⟩
    have hend : Act T (sendMessage m v) ((sendMessage m v).ended p) :=
      .rest p _ fun q => ⟨rfl, fun h => (nomatch h), fun _ => rfl⟩
    exact .head hfetch (.head hsend (.single hend))

/-- Resuming the producer of a registered request. -/
lemma acts_resumeProducing (hw : Tidy T.timely w) (hr : w.requests.get? i = some r)
    (hp : (w.objs r).producer = some p) (hC : T.careful → ¬w.throttled) :
    Acts T w (after (BytesMessageProducer.resumeProducing p) w) := by
  have hwake : Act T w (w.setProducer p fun q => { q with producing := true }) := .wake hr hp hC
  obtain ⟨hlt, hreq⟩ := hw.owner r p hp
  refine .head hwake (acts_go (T := T) hlt fun _ _ => ?_)
  rw [setProducer_producers_self]
  show (w.objs (w.producers p).request).finished = false
  rw [hreq]
  exact (hw.entry i r hr).2.2.1

lemma acts_resumeProducer (hw : Tidy T.timely w) (hr : w.requests.get? i = some r)
    (hC : T.careful → ∀ p, (w.objs r).producer = some p → ¬w.throttled) :
    Acts T w (after (resumeProducer r) w) := by
  unfold resumeProducer
  rw [after_get_bind]
  cases hp : (w.objs r).producer with
  | none => exact .refl
  | some p => exact acts_resumeProducing hw hr hp fun h => hC h p hp

lemma still_setProducing (w : World) (r : ℕ) (b : Bool) :
    Still w (w.setObj r fun q => { q with producing := b }) := by
  refine ⟨ledger_of_core (core_setObj_producing w r b), rfl, rfl, rfl, rfl, rfl, fun r' hr' => ?_⟩
  by_cases h : r' = r
  · subst h; simpa using hr'
  · rwa [setObj_objs_of_ne h]

lemma acts_resumeRequest (hw : Tidy T.timely w) (hr : w.requests.get? i = some r)
    (hC : T.careful → ∀ p, (w.objs r).producer = some p → ¬w.throttled) :
    Acts T w (after (Request.resumeProducing r) w) := by
  have hacts := acts_resumeProducer (T := T) hw hr hC
  refine after_bind_of (fun _ t ht => ?_) fun _ t ht => ?_
  · rw [after_of_ok ht] at hacts
    exact hacts.tail (.still (still_setProducing t r true))
  · rwa [after_of_error ht] at hacts

/-- Resuming registered requests one after another, where `R` of what is left to do keeps the
condition on each of them. -/
lemma acts_resumeAll {R : List ℕ → World → Prop}
    (hhead : ∀ r l w, R (r :: l) w → T.careful → ∀ p, (w.objs r).producer = some p → ¬w.throttled)
    (htail : ∀ r l w t, Tidy T.timely w → (∃ i, w.requests.get? i = some r) → R (r :: l) w →
      (Request.resumeProducing r).run w = .ok ⟨⟩ t → R l t) (l : List ℕ) :
    ∀ w, Tidy T.timely w → (∀ r ∈ l, ∃ i, w.requests.get? i = some r) → R l w →
      Acts T w (after (l.forM Request.resumeProducing) w) := by
  induction l with
  | nil => exact fun w _ _ _ => .refl
  | cons r l ih =>
    intro w hw hl hR
    obtain ⟨i, hi⟩ := hl r (List.mem_cons_self ..)
    have hacts := acts_resumeRequest (T := T) hw hi (hhead r l w hR)
    refine after_bind_of (f := fun _ => l.forM Request.resumeProducing) (fun _ t ht => ?_)
      fun _ t ht => ?_
    · rw [after_of_ok ht] at hacts
      have hreq : t.requests = w.requests :=
        requests_of_ledger (ledger_of_core ((frame_resumeRequest r).ok ht))
      refine hacts.trans (ih t (hw.of_acts hacts) (fun r' hr' => ?_)
        (htail r l w t hw ⟨i, hi⟩ hR ht))
      rw [hreq]
      exact hl r' (List.mem_cons_of_mem _ hr')
    · rwa [after_of_error ht] at hacts

/-- `resumeProducing` of the handler. -/
lemma acts_resume {R : List ℕ → World → Prop}
    (hhead : ∀ r l w, R (r :: l) w → T.careful → ∀ p, (w.objs r).producer = some p → ¬w.throttled)
    (htail : ∀ r l w t, Tidy T.timely w → (∃ i, w.requests.get? i = some r) → R (r :: l) w →
      (Request.resumeProducing r).run w = .ok ⟨⟩ t → R l t)
    (hw : Tidy T.timely w) (hR : R w.requests.values w) :
    Acts T w (after Handler.resumeProducing w) := by
  have hacts := acts_resumeAll (T := T) hhead htail w.requests.values w hw
    (fun r hr => Dict.mem_values_iff.mp hr) hR
  refine after_bind_of (x := w.requests.values.forM Request.resumeProducing) (fun _ t ht => ?_)
    fun _ t ht => ?_
  · rw [after_of_ok ht] at hacts
    exact hacts.tail (.still ⟨rfl, rfl, rfl, rfl, rfl, rfl, fun _ => id⟩)
  · rwa [after_of_error ht] at hacts

/-! ### A new producer -/

/-- The state in which a new producer of a request takes its first step. -/
def World.firstStep (w : World) (r offset : ℕ) : World :=
  (w.withNewProducer r offset).setProducer w.nextProducer fun q => { q with producing := true }

lemma firstStep_producers_self (w : World) (r offset : ℕ) :
    (w.firstStep r offset).producers w.nextProducer =
      { request := r, fh := (w.objs r).kind.fd, offset := offset, producing := true } := by
  simp [World.firstStep]

lemma firstStep_producers_of_ne {w : World} {p : ℕ} (h : p ≠ w.nextProducer) (r offset : ℕ) :
    (w.firstStep r offset).producers p = w.producers p := by
  unfold World.firstStep
  rw [setProducer_producers_of_ne h, withNewProducer_producers, Function.update_of_ne h]

lemma produce_run_step (w : World) (r offset : ℕ) : (produce r offset).run w =
    if (w.objs r).producing then
      (BytesMessageProducer.go w.nextProducer).run (w.firstStep r offset)
    else .ok ⟨⟩ (w.withNewProducer r offset) := by
  rw [produce_run]
  split <;> rfl

/-- The producer a `BEGIN_CONTENT` makes. -/
lemma acts_produce (hw : Tidy T.timely w) (hr : w.requests.get? i = some r) (offset : ℕ)
    (hold : T.careful → ∀ p, (w.objs r).producer = some p → (w.producers p).producing = false)
    (hC : T.careful → (w.objs r).producing = true → ¬w.throttled) :
    Acts T w (after (produce r offset) w) := by
  have hadd : Act T w (w.withNewProducer r offset) := .add hr hold offset
  unfold after
  rw [produce_run]
  by_cases hprod : (w.objs r).producing = true
  · rw [if_pos hprod]
    refine .head hadd (acts_resumeProducing (hw.of_act hadd) hr ?_ fun h => hC h hprod)
    simp [withNewProducer_objs]
  · rw [if_neg hprod]
    exact .single hadd

/-- A step that raises changes its own producer and the file. -/
lemma go_error {e : Exn} {t : World} (h : (BytesMessageProducer.go p).run w = .error e t) :
    t.calls = w.calls ∧ t.objs = w.objs ∧ t.nextProducer = w.nextProducer ∧
      ∀ p', p' ≠ p → t.producers p' = w.producers p' := by
  have hspec := go_spec w p
  rw [h] at hspec
  cases hspec with
  | raised _ ops f _ _ _ =>
    exact ⟨rfl, rfl, rfl, fun p' hp => setProducer_producers_of_ne hp f⟩

/-- Where the first step of a new producer raises, nothing new is going to send. -/
lemma produce_error (hw : Tidy T.timely w) {offset : ℕ} {e : Exn} {t : World}
    (h : (produce r offset).run w = .error e t) {r' : ℕ} (ht : Uploading t r') :
    Uploading w r' := by
  rw [produce_run_step] at h
  split at h
  swap
  · cases h
  obtain ⟨hcalls, hobjs, -, hproducers⟩ := go_error h
  obtain ⟨p, -, hreq, ⟨hprod, hc, hfin⟩, c, hcall, hfunc, ha⟩ := ht
  rw [hcalls] at hcall
  have hlt : p < w.nextProducer := hw.scheduled c hcall p hfunc
  have hsame : t.producers p = w.producers p := by
    rw [hproducers p (by omega), firstStep_producers_of_ne (by omega)]
  rw [hsame] at hreq hprod hfin hc
  rw [hobjs] at hc
  refine ⟨p, hlt, hreq, ⟨hprod, ?_, hfin⟩, c, hcall, hfunc, ha⟩
  rw [← hc]
  show _ = ((w.withNewProducer r offset).objs _).cancelled
  rw [withNewProducer_objs]
  split
  · next h => rw [h]
  · rfl

/-! ### Incoming messages -/

instance : IsPreorder World Still where
  refl _ := ⟨rfl, rfl, rfl, rfl, rfl, rfl, fun _ => id⟩
  trans _ _ _ h1 h2 := ⟨h2.ledger.trans h1.ledger, h2.producers.trans h1.producers,
    h2.nextProducer.trans h1.nextProducer, h2.calls.trans h1.calls, h2.sent.trans h1.sent,
    h2.factory.trans h1.factory, fun r => h2.cancelled r ∘ h1.cancelled r⟩

lemma still_setKind (w : World) (r : ℕ) (f : Kind → Kind) :
    Still w (w.setObj r fun q => { q with kind := f q.kind }) := by
  refine ⟨ledger_setKind w r f, rfl, rfl, rfl, rfl, rfl, fun r' hr' => ?_⟩
  by_cases h : r' = r
  · subst h; simpa using hr'
  · rwa [setObj_objs_of_ne h]

lemma still_notify (m : Message) (raises : Option Exn) : Within Still (notify m raises) :=
  along_notify fun _ _ => ⟨rfl, rfl, rfl, rfl, rfl, rfl, fun _ => id⟩

lemma acts_handle (m : Message) (raises : Option Exn) (w : World) :
    Acts T w (after (handle m raises) w) := by
  unfold handle
  split
  · exact .single (.send _ fun _ h => by rcases h with h | h <;> cases h)
  · exact .refl
  · exact .single (.still ⟨rfl, rfl, rfl, rfl, rfl, rfl, fun _ => id⟩)
  · exact .refl
  all_goals first
    | exact .single (.still (still_notify m raises w))
    | exact .refl

/-- A `BEGIN_CONTENT` for an upload whose callback does not raise, and whose file does not raise
at once when it is read. -/
def Benign (w : World) (r : ℕ) (m : Message) (raises : Option Exn) : Prop :=
  ∃ q, (w.objs r).kind = .putContent q ∧ m.type = .beginContent ∧
    ¬(rd (rd m.beginContent).uploadId ≠ "" ∧ q.uploadIdCb = true ∧ raises ≠ none) ∧
    ((w.objs r).producing = true → ∃ data, (w.files q.fd).fetch
      { request := r, fh := q.fd, offset := rd (rd m.beginContent).offset }
      q.maxPayloadSize = .ok data)

lemma Benign.reply {m : Message} {raises : Option Exn} (h : Benign w r m raises) :
    ∃ q', (w.objs r).kind.processMessage { cancelled := (w.objs r).cancelled, raises := raises } m =
        (.putContent q', .produce (rd (rd m.beginContent).offset)) ∧
      ((w.objs r).producing = true → ∃ data, (w.files q'.fd).fetch
        { request := r, fh := q'.fd, offset := rd (rd m.beginContent).offset }
        q'.maxPayloadSize = .ok data) := by
  obtain ⟨q, hkind, htype, hcb, hfile⟩ := h
  rw [hkind]
  simp only [Kind.processMessage, PutContent.processMessage, htype]
  by_cases hup : rd (rd m.beginContent).uploadId ≠ "" ∧ q.uploadIdCb = true
  · have hraises : raises = none := by
      by_contra hne
      exact hcb ⟨hup.1, hup.2, hne⟩
    subst hraises
    rw [if_pos hup]
    exact ⟨_, rfl, hfile⟩
  · rw [if_neg hup]
    exact ⟨_, rfl, hfile⟩

/-- The `BEGIN_CONTENT` is dealt with and raises nothing. -/
lemma Benign.returns (hw : Registry w) {m : Message} {raises : Option Exn}
    (hr : w.requests.get? m.id = some r) (hi : int32 m.id = true) (h : Benign w r m raises) :
    raised (Request.processMessage r m raises) w = none := by
  obtain ⟨q', hreply, hfile⟩ := h.reply
  let u := w.setObj r fun q => { q with
    kind := (q.kind.processMessage { cancelled := (w.objs r).cancelled, raises := raises } m).1 }
  have hrun : (Request.processMessage r m raises).run w =
      (carryOut r m raises ((w.objs r).kind.processMessage
        { cancelled := (w.objs r).cancelled, raises := raises } m).2).run u := rfl
  have hkind : (u.objs r).kind = .putContent q' := by simp [u, hreply]
  have hid : (u.objs r).id = some m.id := by simp [u, (hw.entry _ r hr).1]
  have hprod : (u.objs r).producing = (w.objs r).producing := by simp [u]
  unfold raised
  have hcarry : carryOut r m raises (.produce (rd (rd m.beginContent).offset)) =
      Client.produce r (rd (rd m.beginContent).offset) := rfl
  rw [hrun, hreply, hcarry, produce_run_step]
  by_cases hp : (u.objs r).producing = true
  swap
  · rw [if_neg hp]
  rw [if_pos hp]
  have hspec := go_spec (u.firstStep r (rd (rd m.beginContent).offset)) u.nextProducer
  generalize hres : (BytesMessageProducer.go u.nextProducer).run
    (u.firstStep r (rd (rd m.beginContent).offset)) = res at hspec ⊢
  cases hspec with
  | idle _ => rfl
  | bytes _ _ _ _ _ => rfl
  | eof _ _ _ _ => rfl
  | raised hlive ops f hf e hwhy =>
    exfalso
    rw [firstStep_producers_self] at hwhy
    have hobj : (u.firstStep r (rd (rd m.beginContent).offset)).objs r =
        { u.objs r with producer := some u.nextProducer } := by
      show (u.withNewProducer r _).objs r = _
      rw [withNewProducer_objs, if_pos rfl]
    simp only [hobj, hkind, hid, Kind.fd, Kind.maxPayloadSize] at hwhy
    rcases hwhy with ⟨e', he'⟩ | hbig
    · obtain ⟨data, hdata⟩ := hfile (hprod ▸ hp)
      exact nomatch hdata.symm.trans he'
    · rw [hbig _ rfl] at hi
      cases hi

/-! ### The conditions on an event -/

/-- While a request is uploading, the messages for it are benign, and nobody calls `done` or
`error` of it. -/
def Timely (w : World) : Event → Prop
  | .message m raises => ∀ r, w.requests.get? m.id = some r → Uploading w r → Benign w r m raises
  | .done r | .error r _ => ¬Uploading w r
  | _ => True

/-- The event keeps a throttle: a `BEGIN_CONTENT` replaces no producer that produces, and finds
its request paused if the writes are throttled; and what resumes the requests meets `R`. -/
def Careful (R : List ℕ → World → Prop) (w : World) : Event → Prop
  | .message m _ => m.type = .beginContent → ∀ r, w.requests.get? m.id = some r →
      (w.objs r).kind.isPutContent = true →
      (∀ p, (w.objs r).producer = some p → (w.producers p).producing = false) ∧
      ((w.objs r).producing = true → ¬w.throttled)
  | .call k => ∀ c, w.calls[k]? = some c → c.active = true → c.func = .unthrottle .writes →
      w.factory.bind Factory.client = some .self → R w.requests.values
        (((w.called k).setFlow .writes fun f => { f with unthrottleId := none }).setFlow .writes
          fun f => { f with throttling := false })
  | .resume => R w.requests.values w
  | _ => True

lemma defaultProcessMessage_ne_produce (m : Message) (offset : ℕ) :
    defaultProcessMessage m ≠ .produce offset := by
  intro h
  have := defaultProcessMessage_ends m
  rw [h] at this
  cases this

lemma expect_ne_produce {α : Type} (answer : MessageType) (m : Message) (a b : α) (offset : ℕ) :
    (expect answer m a b).2 ≠ .produce offset := by
  unfold expect
  split
  · exact fun h => nomatch h
  · exact defaultProcessMessage_ne_produce m offset

/-- Only a `PutContent` makes a producer, at a `BEGIN_CONTENT`. -/
lemma produce_reply {k : Kind} {c : Context} {m : Message} {offset : ℕ}
    (h : (k.processMessage c m).2 = .produce offset) :
    m.type = .beginContent ∧ k.isPutContent = true := by
  have hd := defaultProcessMessage_ne_produce m offset
  have hcall : c.call .stay ≠ .produce offset := by
    unfold Context.call
    split <;> exact fun h => nomatch h
  cases k with
  | putContent q =>
    refine ⟨?_, rfl⟩
    simp only [Kind.processMessage, Prod.map_snd, id, PutContent.processMessage] at h
    split at h <;> first | assumption | cases h | exact absurd h hd
  | ping =>
    simp only [Kind.processMessage, pingProcessMessage] at h
    repeat' split at h
    all_goals cases h
  | getContent q =>
    simp only [Kind.processMessage, Prod.map_snd, id, GetContent.processMessage] at h
    repeat' split at h
    all_goals first | cases h | exact absurd h hcall | exact absurd h hd
  | getDelta q =>
    simp only [Kind.processMessage, Prod.map_snd, id, GetDelta.processMessage] at h
    repeat' split at h
    all_goals first | cases h | exact absurd h hcall | exact absurd h hd
  | query q =>
    simp only [Kind.processMessage, Prod.map_snd, id, Query.processMessage] at h
    split at h <;> first | cases h | exact absurd h hd
  | listShares q =>
    simp only [Kind.processMessage, Prod.map_snd, id, ListShares.processMessage] at h
    repeat' split at h
    all_goals first | cases h | exact absurd h hd
  | listVolumes q =>
    simp only [Kind.processMessage, Prod.map_snd, id, ListVolumes.processMessage] at h
    repeat' split at h
    all_goals first | cases h | exact absurd h hd
  | listPublicFiles q =>
    simp only [Kind.processMessage, Prod.map_snd, id, ListPublicFiles.processMessage] at h
    split at h <;> first | cases h | exact absurd h hd
  | createShare q =>
    simp only [Kind.processMessage, Prod.map_snd, id, CreateShare.processMessage] at h
    split at h <;> first | cases h | exact absurd h hd
  | createUDF q =>
    simp only [Kind.processMessage, Prod.map_snd, id, CreateUDF.processMessage] at h
    split at h <;> first | cases h | exact absurd h hd
  | noop => cases h
  | other messages => cases h
  | _ =>
    simp only [Kind.processMessage, Prod.map_snd, id] at h
    exact absurd h (expect_ne_produce _ _ _ _ _)

end Magicicada.Client
