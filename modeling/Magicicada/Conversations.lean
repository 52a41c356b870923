import Magicicada.Cancelling
import Magicicada.Performing

/-!
What a client says with the id of a request: first what `_start` sends, then content and a
`CANCEL_REQUEST`, and content only after a `BEGIN_CONTENT`.

A peer that puts the id on a message of its own may get a `PONG` or an `ERROR` with it.
-/

namespace Magicicada.Requests

/-- Whether a request moves content, and whether it sends it. -/
def Kind.moves (k : Kind) : Bool × Bool := (k.isContent, k.isPutContent)

lemma Kind.processMessage_moves (c : Context) (m : Pb.Message) (k : Kind) :
    (k.processMessage c m).1.moves = k.moves := by
  cases k <;> rfl

lemma Kind.started_moves (k : Kind) : k.started.moves = k.moves := by
  cases k <;> rfl

end Magicicada.Requests

namespace Magicicada.Client

open Pb Errors Requests Prog

variable {r r' p : ℕ} {i : ℤ} {s t u w : World} {b : Prop} {es : List Event}

/-! ### Producers -/

/-- The producer of a request was made for it, once it was started, and so was each one that has
a step to come. -/
structure Owned (w : World) : Prop where
  owner : ∀ r p, (w.objs r).producer = some p →
    p < w.nextProducer ∧ (w.producers p).request = r
  began : ∀ p < w.nextProducer, (w.objs (w.producers p).request).id ≠ none
  scheduled : ∀ c ∈ w.calls, ∀ p, c.func = .go p → p < w.nextProducer

/-- A producer was made for the request. -/
def Begun (r : ℕ) (w : World) : Prop := ∃ p < w.nextProducer, (w.producers p).request = r

/-- Nothing about who owns the producers changes, and no new step of one is scheduled. -/
structure Keeping (s t : World) : Prop where
  objs : ∀ r, (t.objs r).id = (s.objs r).id ∧ (t.objs r).producer = (s.objs r).producer ∧
    (t.objs r).kind.moves = (s.objs r).kind.moves
  request : ∀ p, (t.producers p).request = (s.producers p).request
  nextProducer : t.nextProducer = s.nextProducer
  calls : ∀ c ∈ t.calls, ∀ p, c.func = .go p → ∃ c' ∈ s.calls, c'.func = .go p

lemma Keeping.trans (h : Keeping s t) (h' : Keeping t u) : Keeping s u where
  objs r := ⟨(h'.objs r).1.trans (h.objs r).1, (h'.objs r).2.1.trans (h.objs r).2.1,
    (h'.objs r).2.2.trans (h.objs r).2.2⟩
  request p := (h'.request p).trans (h.request p)
  nextProducer := h'.nextProducer.trans h.nextProducer
  calls c hc p hp :=
    let ⟨c', hc', hp'⟩ := h'.calls c hc p hp
    h.calls c' hc' p hp'

lemma Keeping.owned (h : Keeping s t) (hs : Owned s) : Owned t where
  owner r p hp := by
    rw [(h.objs r).2.1] at hp
    rw [h.nextProducer, h.request]
    exact hs.owner r p hp
  began p hp := by
    rw [h.request, (h.objs _).1]
    exact hs.began p (h.nextProducer ▸ hp)
  scheduled c hc p hp := by
    obtain ⟨c', hc', hp'⟩ := h.calls c hc p hp
    rw [h.nextProducer]
    exact hs.scheduled c' hc' p hp'

lemma Keeping.begun (h : Keeping s t) : Begun r t ↔ Begun r s := by
  unfold Begun
  simp only [h.nextProducer, h.request]

/-! ### What is said -/

/-- What may be said with the id of a request, which under a condition gets its first producer. -/
inductive Says (b : Prop) (r : ℕ) (w : World) (m : Message) : Prop
  /-- An answer to a message of the peer. -/
  | error (h : m.type = .error)
  | pong (h : m.type = .pong)
  | cancel (hk : (w.objs r).kind.moves.1 = true) (h : m = { id := m.id, type := .cancelRequest })
  | content (hb : Begun r w ∨ b) (h : Payload m)

/-- An answer to a message of the peer. -/
def IsAnswer (m : Message) : Prop := m.type = .error ∨ m.type = .pong

/-- What is said from `s` to `t`. -/
structure Speaks (b : Prop) (r : ℕ) (i : ℤ) (s t : World) : Prop where
  owned : Owned t
  ids : ∀ r' j, (s.objs r').id = some j → (t.objs r').id = some j
  moves : (t.objs r).kind.moves = (s.objs r).kind.moves
  begun : Begun r t → Begun r s ∨ b
  sent : ∃ new, t.sent = s.sent ++ new ∧
    (∀ m ∈ new, IsAnswer m ∨ ∃ r', (t.objs r').id = some m.id) ∧
    (Sole r i t → ∀ m ∈ new, m.id = i → Says b r s m)

lemma Says.before {m : Message} (h : Says b r t m)
    (hk : (t.objs r).kind.moves = (s.objs r).kind.moves) (hb : Begun r t → Begun r s ∨ b) :
    Says b r s m := by
  cases h with
  | error h => exact .error h
  | pong h => exact .pong h
  | cancel hk' h => exact .cancel (hk ▸ hk') h
  | content hb' h => exact .content (hb'.elim hb Or.inr) h

/-- The state is moved along what may be said. -/
def Talks (b : Prop) (r : ℕ) (i : ℤ) (s t : World) : Prop := Owned s → Speaks b r i s t

instance (b : Prop) (r : ℕ) (i : ℤ) : IsPreorder World (Talks b r i) where
  refl s hs := ⟨hs, fun _ _ => id, rfl, Or.inl, [], by simp, by simp, by simp⟩
  trans s t u h h' hs := by
    have h1 := h hs
    have h2 := h' h1.owned
    obtain ⟨new, hnew, hknown, hspeak⟩ := h1.sent
    obtain ⟨new', hnew', hknown', hspeak'⟩ := h2.sent
    refine ⟨h2.owned, fun r' j => h2.ids r' j ∘ h1.ids r' j, h2.moves.trans h1.moves,
      fun hb => (h2.begun hb).elim h1.begun Or.inr, new ++ new', by rw [hnew', hnew,
        List.append_assoc], ?_, fun hsole => ?_⟩
    · refine List.forall_mem_append.mpr ⟨fun m hm => ?_, hknown'⟩
      exact (hknown m hm).imp_right fun ⟨r', hr'⟩ => ⟨r', h2.ids r' _ hr'⟩
    · refine List.forall_mem_append.mpr ⟨hspeak (hsole.before h2.ids), fun m hm hid => ?_⟩
      exact (hspeak' hsole m hm hid).before h1.moves h1.begun

lemma Talks.mono {b' : Prop} (h : Talks b r i s t) (hb : b → b') : Talks b' r i s t := fun hs =>
  let h := h hs
  { h with
    begun := fun hr => (h.begun hr).imp_right hb
    sent := by
      obtain ⟨new, hnew, hknown, hspeak⟩ := h.sent
      refine ⟨new, hnew, hknown, fun hsole m hm hid => ?_⟩
      cases hspeak hsole m hm hid with
      | error h => exact .error h
      | pong h => exact .pong h
      | cancel hk h => exact .cancel hk h
      | content hc h => exact .content (hc.imp_right hb) h }

/-! ### Nothing is said -/

lemma Keeping.talks (h : Keeping s t) (hsent : t.sent = s.sent) : Talks b r i s t := fun hs =>
  ⟨h.owned hs, fun r' _ hj => (h.objs r').1.trans hj, (h.objs r).2.2, fun hb =>
    Or.inl (h.begun.mp hb), [], by simp [hsent], by simp, by simp⟩

lemma keeping_of_objs (hobjs : t.objs = s.objs) (hproducers : t.producers = s.producers)
    (hnext : t.nextProducer = s.nextProducer) (hcalls : t.calls = s.calls) : Keeping s t where
  objs r := by rw [hobjs]; exact ⟨rfl, rfl, rfl⟩
  request p := by rw [hproducers]
  nextProducer := hnext
  calls c hc p hp := ⟨c, hcalls ▸ hc, hp⟩

lemma talks_of_objs (hobjs : t.objs = s.objs) (hproducers : t.producers = s.producers)
    (hnext : t.nextProducer = s.nextProducer) (hcalls : t.calls = s.calls)
    (hsent : t.sent = s.sent) : Talks b r i s t :=
  (keeping_of_objs hobjs hproducers hnext hcalls).talks hsent

lemma Slows.keeping (h : Slows s t) : Keeping s t where
  objs r := by
    have hkind := congrArg Request.kind (self_of_core h.core r)
    exact ⟨(obj_of_core h.core r).1, (obj_of_core h.core r).2.1, congrArg Kind.moves hkind⟩
  request := h.producer_request
  nextProducer := nextProducer_of_core h.core
  calls c hc p hp := by
    obtain ⟨l, hl, hfunc⟩ := h.calls
    rw [hl] at hc
    exact (List.mem_append.mp hc).elim (fun hc => ⟨c, hc, hp⟩) fun hc => absurd hp (hfunc c hc p)

lemma talks_of_slows (h : Slows s t) : Talks b r i s t := h.keeping.talks h.sent

lemma keeping_setObj (w : World) {f : Request → Request}
    (hf : (f (w.objs r')).id = (w.objs r').id ∧ (f (w.objs r')).producer = (w.objs r').producer ∧
      (f (w.objs r')).kind.moves = (w.objs r').kind.moves) : Keeping w (w.setObj r' f) where
  objs r := by
    by_cases h : r = r'
    · subst h
      rwa [setObj_objs_self]
    · rw [setObj_objs_of_ne h]
      exact ⟨rfl, rfl, rfl⟩
  request _ := rfl
  nextProducer := rfl
  calls c hc p hp := ⟨c, hc, hp⟩

lemma keeping_setProducer (w : World) (p : ℕ) {f : Producer → Producer}
    (hf : ∀ q, (f q).request = q.request) : Keeping w (w.setProducer p f) where
  objs _ := ⟨rfl, rfl, rfl⟩
  request p' := by
    by_cases h : p' = p
    · subst h
      rw [setProducer_producers_self, hf]
    · rw [setProducer_producers_of_ne h]
  nextProducer := rfl
  calls c hc p hp := ⟨c, hc, hp⟩

lemma talks_setObj (w : World) {f : Request → Request}
    (hf : (f (w.objs r')).id = (w.objs r').id ∧ (f (w.objs r')).producer = (w.objs r').producer ∧
      (f (w.objs r')).kind.moves = (w.objs r').kind.moves) :
    Talks b r i w (w.setObj r' f) := (keeping_setObj w hf).talks rfl

lemma talks_setProducer (w : World) (p : ℕ) {f : Producer → Producer}
    (hf : ∀ q, (f q).request = q.request) : Talks b r i w (w.setProducer p f) :=
  (keeping_setProducer w p hf).talks rfl

/-! ### Sending -/

lemma keeping_sendMessage (m : Message) (w : World) : Keeping w (sendMessage m w) := by
  have hrest := (slows_sendMessage m w).keeping
  exact ⟨fun r => hrest.objs r, hrest.request, hrest.nextProducer, hrest.calls⟩

/-- A message that is known, and that may be said if it is the request's. -/
lemma talks_sendMessage {m : Message} (hknown : IsAnswer m ∨ ∃ r', (w.objs r').id = some m.id)
    (h : Sole r i w → m.id = i → Says b r w m) : Talks b r i w (sendMessage m w) := fun hs => by
  have hkeep := keeping_sendMessage m w
  refine ⟨hkeep.owned hs, fun r' j hj => (hkeep.objs r').1.trans hj, (hkeep.objs r).2.2,
    fun hb => Or.inl (hkeep.begun.mp hb), [m],
    (slows_sendMessage m w).sent, ?_, fun hsole m' hm' hid => ?_⟩
  · intro m' hm'
    obtain rfl := List.mem_singleton.mp hm'
    exact hknown.imp_right fun ⟨r', hr'⟩ => ⟨r', (hkeep.objs r').1.trans hr'⟩
  · obtain rfl := List.mem_singleton.mp hm'
    exact h (hsole.before fun r' j hj => (hkeep.objs r').1.trans hj) hid

lemma talks_request {m : Message} (h : ∀ i, r' = r → Says b r w { m with id := i }) :
    Talks b r i w (after (Request.sendMessage r' m) w) := by
  by_cases hsend : ∃ j, (w.objs r').id = some j ∧ int32 j = true
  · obtain ⟨j, hid, hj⟩ := hsend
    rw [after_of_ok (sendMessage_run hid hj m)]
    exact talks_sendMessage (Or.inr ⟨r', hid⟩) fun hsole hji => h j (hsole r' (hji ▸ hid))
  · obtain ⟨e, hrun⟩ := sendMessage_raises (w := w) (r := r')
      (fun j hid => Bool.eq_false_of_not_eq_true fun hj => hsend ⟨j, hid, hj⟩) m
    rw [after_of_error hrun]
    exact refl_of (Talks b r i) w

/-- The next step of a producer that was made. -/
lemma talks_callLater (hp : p < w.nextProducer) (delay : ℚ) :
    Talks b r i w (callLater delay (.go p) w) := fun hs => by
  refine ⟨⟨hs.owner, hs.began, fun c hc p' hp' => ?_⟩, fun _ _ => id, rfl, Or.inl, [],
    by simp [callLater], by simp, by simp⟩
  rcases List.mem_append.mp hc with hc | hc
  · exact hs.scheduled c hc p' hp'
  · obtain rfl := List.mem_singleton.mp hc
    cases hp'
    exact hp

/-- **A step of a producer** says content for its request. -/
lemma talks_go (hp : p < w.nextProducer) : Talks b r i w (after (BytesMessageProducer.go p) w) := by
  have hspec := go_spec w p
  unfold after
  generalize (BytesMessageProducer.go p).run w = res at hspec ⊢
  have hsend : ∀ {a : World} {m : Message} {j : ℤ}, Keeping w a → a.sent = w.sent →
      (w.objs (w.producers p).request).id = some j → m.id = j → Payload m →
      Talks b r i w (sendMessage m a) := by
    intro a m j hkeep hsent hid hj hm
    refine trans_of (Talks b r i) (hkeep.talks hsent) (talks_sendMessage (Or.inr
      ⟨(w.producers p).request, ?_⟩) fun hsole hji => .content (Or.inl ⟨p, ?_, ?_⟩) hm)
    · rw [(hkeep.objs _).1, hid, hj]
    · rwa [hkeep.nextProducer]
    · rw [hkeep.request]
      exact hsole _ (by rw [(hkeep.objs _).1, hid, ← hj, hji])
  cases hspec with
  | idle _ => exact refl_of (Talks b r i) w
  | raised _ ops f hf _ _ =>
    have hfetched : Keeping w (w.fetched (w.producers p).fh ops) := keeping_of_objs rfl rfl rfl rfl
    exact trans_of (Talks b r i) (hfetched.talks rfl)
      (talks_setProducer _ p fun q => (hf q).request)
  | @bytes _ j hid _ data _ _ =>
    set v := w.fetched (w.producers p).fh (fetchOps (w.producers p)
      (w.objs (w.producers p).request).kind.maxPayloadSize) with hv
    set m : Message := { bytesMessage data with id := j } with hm
    have hfetched : Keeping w v := keeping_of_objs rfl rfl rfl rfl
    have hadvanced : Keeping v (v.advanced p data.length) :=
      keeping_setProducer _ p fun q => (rests_advance _ q).request
    have hsent : Talks b r i w (sendMessage m (v.advanced p data.length)) :=
      hsend (hfetched.trans hadvanced) rfl hid rfl (Or.inl rfl)
    refine trans_of (Talks b r i) hsent (talks_callLater ?_ 0)
    rwa [(keeping_sendMessage m _).nextProducer]
  | @eof _ j hid _ _ =>
    set v := w.fetched (w.producers p).fh (fetchOps (w.producers p)
      (w.objs (w.producers p).request).kind.maxPayloadSize) with hv
    set m : Message := { eofMessage with id := j } with hm
    have hfetched : Keeping w v := keeping_of_objs rfl rfl rfl rfl
    have hsent : Talks b r i w (sendMessage m v) := hsend hfetched rfl hid rfl (Or.inr rfl)
    have hend : Talks b r i (sendMessage m v) ((sendMessage m v).ended p) :=
      talks_setProducer _ p fun _ => rfl
    exact trans_of (Talks b r i) hsent hend

lemma talks_resumeProducing (hp : p < w.nextProducer) :
    Talks b r i w (after (BytesMessageProducer.resumeProducing p) w) := by
  have hkeep : Talks b r i w (w.setProducer p fun q => { q with producing := true }) :=
    talks_setProducer w p fun _ => rfl
  exact trans_of (Talks b r i) hkeep (talks_go hp)

lemma talks_resumeRequest (r' : ℕ) : Within (Talks b r i) (Request.resumeProducing r') := by
  refine within_bind (fun w hs => ?_) fun _ => within_modify fun w =>
    talks_setObj w ⟨rfl, rfl, rfl⟩
  unfold resumeProducer
  rw [after_get_bind]
  split
  · next p hp => exact talks_resumeProducing (hs.owner r' p hp).1 hs
  · exact refl_of (Talks b r i) w hs

lemma talks_resume : Within (Talks b r i) Handler.resumeProducing :=
  along_resume talks_resumeRequest fun _ => talks_of_objs rfl rfl rfl rfl rfl

/-! ### The end of a request -/

lemma talks_settle (r' : ℕ) (o : Outcome) : Within (Talks b r i) (Request.settle r' o) := by
  have hset : ∀ (f : Request → Request) (w : World),
      (∀ q, (f q).id = q.id ∧ (f q).producer = q.producer ∧ (f q).kind = q.kind) →
      Talks b r i w (w.setObj r' f) := by
    intro f w hf
    obtain ⟨hid, hproducer, hkind⟩ := hf (w.objs r')
    exact talks_setObj w ⟨hid, hproducer, congrArg Kind.moves hkind⟩
  have hfault : ∀ f, Within (Talks b r i) (fault f) := fun _ =>
    within_modify fun _ => talks_of_objs rfl rfl rfl rfl rfl
  have hcleanup : Within (Talks b r i) (Request.cleanup r') :=
    along_cleanup (fun w => hset _ w fun _ => ⟨rfl, rfl, rfl⟩)
      (fun _ _ => talks_of_objs rfl rfl rfl rfl rfl)
      (fun _ _ => talks_of_objs rfl rfl rfl rfl rfl) hfault
  exact along_settle hcleanup hfault fun w => hset _ w fun _ => ⟨rfl, rfl, rfl⟩

lemma talks_stopProducer (w : World) (r' : ℕ) :
    Talks b r i w (withProducer r' BytesMessageProducer.stopProducing w) := by
  unfold withProducer
  split
  · exact talks_setProducer w _ fun _ => rfl
  · exact refl_of (Talks b r i) w

/-- **`cancel()`** says `CANCEL_REQUEST`, for a request that moves content. -/
lemma talks_cancel (r' : ℕ) : Within (Talks b r i) (Request.cancel r') := by
  refine along_cancel (fun w => talks_setObj w ⟨rfl, rfl, rfl⟩) fun w => ?_
  have hsend : ∀ w : World, (w.objs r').kind.moves.1 = true →
      Talks b r i w (after (Request.sendMessage r' { type := .cancelRequest }) w) := fun w hk =>
    talks_request fun j hr => .cancel (hr ▸ hk) rfl
  unfold customCancel
  rw [after_get_bind]
  split
  · next hk => exact hsend w (by rw [hk]; rfl)
  · next hk =>
    rw [after_modify_bind]
    refine trans_of (Talks b r i) (talks_stopProducer w r') (hsend _ ?_)
    have hobjs : (withProducer r' BytesMessageProducer.stopProducing w).objs = w.objs := by
      unfold withProducer
      split <;> rfl
    rw [hobjs, hk]
    rfl
  · exact refl_of (Talks b r i) w

/-! ### Messages -/

lemma talks_notify (m : Message) (raises : Option Exn) :
    Within (Talks b r i) (notify m raises) :=
  along_notify fun _ _ => talks_of_objs rfl rfl rfl rfl rfl

lemma talks_handle (m : Message) (raises : Option Exn) : Within (Talks b r i) (handle m raises) :=
  along_handle (within_modify fun _ => talks_sendMessage (Or.inl (Or.inr rfl)) fun _ _ => .pong rfl)
    (within_modify fun _ => talks_of_objs rfl rfl rfl rfl rfl) (talks_notify m raises)

lemma talks_withNewProducer (hid : (w.objs r').id ≠ none) (offset : ℕ) (h : r' = r → b) :
    Talks b r i w (w.withNewProducer r' offset) := fun hs => by
  have hne : ∀ {p}, p < w.nextProducer → p ≠ w.nextProducer := fun hp => ne_of_lt hp
  have hobjs : ∀ r'', ((w.withNewProducer r' offset).objs r'').id = (w.objs r'').id := by
    intro r''
    rw [withNewProducer_objs]
    split
    · next heq => rw [heq]
    · rfl
  refine ⟨⟨fun r'' p hp => ?_, fun p hp => ?_, fun c hc p hp => ?_⟩,
    fun r'' j hj => (hobjs r'').trans hj, ?_, ?_, [],
    (List.append_nil _).symm, by simp, by simp⟩
  · rw [withNewProducer_objs] at hp
    rw [withNewProducer_producers]
    split at hp
    · next heq =>
      obtain rfl : w.nextProducer = p := Option.some.inj hp
      exact ⟨Nat.lt_succ_self _, by rw [Function.update_self, heq]⟩
    · obtain ⟨hlt, hreq⟩ := hs.owner r'' p hp
      exact ⟨Nat.lt_succ_of_lt hlt, by rw [Function.update_of_ne (hne hlt), hreq]⟩
  · rw [hobjs, withNewProducer_producers]
    rcases Nat.lt_succ_iff_lt_or_eq.mp hp with hlt | rfl
    · rw [Function.update_of_ne (hne hlt)]
      exact hs.began p hlt
    · rwa [Function.update_self]
  · exact Nat.lt_succ_of_lt (hs.scheduled c hc p hp)
  · rw [withNewProducer_objs]
    split
    · next heq => rw [heq]
    · rfl
  · rintro ⟨p, hp, hreq⟩
    rw [withNewProducer_producers] at hreq
    rcases Nat.lt_succ_iff_lt_or_eq.mp hp with hlt | rfl
    · rw [Function.update_of_ne (hne hlt)] at hreq
      exact Or.inl ⟨p, hlt, hreq⟩
    · rw [Function.update_self] at hreq
      exact Or.inr (h hreq)

/-- A new producer is the first one of its request, or of another request. -/
lemma talks_produce (hid : (w.objs r').id ≠ none) (offset : ℕ) (h : r' = r → b) :
    Talks b r i w (after (produce r' offset) w) := by
  rw [after_congr (produce_run w r' offset)]
  refine trans_of (Talks b r i) (talks_withNewProducer hid offset h) ?_
  split
  · exact talks_resumeProducing (Nat.lt_succ_self _)
  · exact refl_of (Talks b r i) _

/-- A `BEGIN_CONTENT` for an upload. -/
def Begins (r : ℕ) (w : World) : Event → Prop
  | .message m _ => m.type = .beginContent ∧ w.requests.get? m.id = some r ∧
    (w.objs r).kind.isPutContent = true
  | _ => False

lemma talks_message {m : Message} (hw : Registry w) (hm : validateMessage m = [])
    (raises : Option Exn) :
    Talks (Begins r w (.message m raises)) r i w (w.step (.message m raises)) := by
  cases hr : w.requests.get? m.id with
  | none =>
    show Talks _ r i w (after (processMessage m raises) w)
    rw [processMessage_valid hm, after_congr (dispatch_unregistered hr raises)]
    exact talks_handle m raises w
  | some r' =>
    rw [Registered.message_run ⟨hw, hr⟩ hm]
    have hread : Talks (Begins r w (.message m raises)) r i w (w.read r' m raises) :=
      talks_setObj w ⟨rfl, rfl, Kind.processMessage_moves _ m _⟩
    have hid : ((w.read r' m raises).objs r').id ≠ none := by
      rw [show ((w.read r' m raises).objs r').id = some m.id by
        simp [World.read, (hw.entry _ r' hr).1]]
      exact Option.some_ne_none _
    refine trans_of (Talks _ r i) hread (after_tryCatch_trans ?_
      fun _ t _ => along_errorOf (fun r => talks_settle r _) t)
    cases hreply : w.reply r' m raises with
    | produce offset =>
      obtain ⟨htype, hput⟩ := produce_reply hreply
      exact talks_produce hid offset fun h => ⟨htype, h ▸ hr, h ▸ hput⟩
    | stay => exact refl_of (Talks _ r i) _
    | done => exact talks_settle r' _ _
    | error e => exact talks_settle r' _ _
    | raise e => exact refl_of (Talks _ r i) _
    | notify => exact talks_notify m raises _

/-! ### Events -/

lemma talks_loseRequest (reason : Exn) (r' : ℕ) : Within (Talks b r i) (loseRequest reason r') :=
  along_loseRequest (fun w => talks_of_slows (slows_stopRequest r' w)) (talks_cancel r')
    (talks_settle r' _)

/-- A delayed call is no longer active. -/
lemma talks_modifyCalls (w : World) (k : ℕ) {f : DelayedCall → DelayedCall}
    (hf : ∀ c, (f c).func = c.func) : Talks b r i w { w with calls := w.calls.modify k f } := by
  refine Keeping.talks ⟨fun _ => ⟨rfl, rfl, rfl⟩, fun _ => rfl, rfl, fun c hc p hp => ?_⟩ rfl
  obtain ⟨j, hj⟩ := List.getElem?_of_mem hc
  rw [List.getElem?_modify] at hj
  obtain ⟨c', hc', rfl⟩ := Option.map_eq_some_iff.mp hj
  refine ⟨c', List.mem_of_getElem? hc', ?_⟩
  split at hp
  · rwa [hf] at hp
  · exact hp

lemma talks_cancelDelayedCall (d : Option ℕ) (w : World) :
    Talks b r i w (cancelDelayedCall d w) := by
  cases d with
  | none => exact refl_of (Talks b r i) w
  | some k =>
    refine talks_modifyCalls w k fun c => ?_
    split <;> rfl

lemma talks_lost (reason : Exn) : Within (Talks b r i) (connectionLost reason) :=
  along_lost (along_unregisterSelf talks_cancelDelayedCall) (talks_loseRequest reason)

lemma talks_unthrottle (d : Dir) : Within (Talks b r i) (Factory.unthrottle d) := by
  refine along_unthrottle (fun _ => talks_of_objs rfl rfl rfl rfl rfl)
    (fun _ => talks_of_objs rfl rfl rfl rfl rfl) ?_
  cases d with
  | reads => exact within_modify fun _ => talks_of_objs rfl rfl rfl rfl rfl
  | writes => exact talks_resume

lemma talks_resetThisSecond (d : Dir) (w : World) : Talks b r i w (resetThisSecond d w) := by
  have hcalls : (resetThisSecond d w).calls = w.calls ++ [{ func := .reset d, delay := 1 }] := rfl
  refine Keeping.talks ⟨fun _ => ⟨rfl, rfl, rfl⟩, fun _ => rfl, rfl, fun c hc p hp => ?_⟩ rfl
  rw [hcalls] at hc
  rcases List.mem_append.mp hc with hc | hc
  · exact ⟨c, hc, hp⟩
  · obtain rfl := List.mem_singleton.mp hc
    cases hp

lemma talks_runCall (k : ℕ) : Within (Talks b r i) (runCall k) := fun w hs => by
  rcases after_runCall k w with h | ⟨c, hc, -, h⟩ <;> rw [h]
  · exact refl_of (Talks b r i) w hs
  have hcalled : Talks b r i w (w.called k) := talks_modifyCalls w k fun _ => rfl
  refine trans_of (Talks b r i) hcalled ?_ hs
  cases hfunc : c.func with
  | go p => exact talks_go (hs.scheduled c (List.mem_of_getElem? hc) p hfunc)
  | reset d => exact talks_resetThisSecond d _
  | unthrottle d => exact talks_unthrottle d _

lemma talks_startExchange (w : World) (hne : r' ≠ r) :
    Talks b r i w (after (startExchange r') w) := by
  refine startExchange_trans (fun messages _ => ?_) (fun t => ?_) fun _ _ _ => talks_settle r' _ _
  · exact within_forM messages (fun m _ w => talks_request fun _ h => absurd h hne) w
  · exact talks_setObj t ⟨rfl, rfl, Kind.started_moves _⟩

lemma enroll_kept (w : World) (r' r'' : ℕ) :
    ((w.enroll r').objs r'').producer = (w.objs r'').producer ∧
      ((w.enroll r').objs r'').kind = (w.objs r'').kind := by
  by_cases h : r'' = r'
  · subst h
    rw [enroll_objs_self]
    exact ⟨rfl, rfl⟩
  · rw [enroll_objs_of_ne h]
    exact ⟨rfl, rfl⟩

lemma talks_enroll (hid : (w.objs r').id = none) : Talks b r i w (w.enroll r') := fun hs => by
  have hids : ∀ r'' j, (w.objs r'').id = some j → ((w.enroll r').objs r'').id = some j := by
    intro r'' j hj
    rwa [enroll_objs_of_ne]
    rintro rfl
    rw [hid] at hj
    cases hj
  refine ⟨⟨fun r'' p hp => hs.owner r'' p ((enroll_kept w r' r'').1 ▸ hp), fun p hp => ?_,
    hs.scheduled⟩, hids, congrArg Kind.moves (enroll_kept w r' r).2, Or.inl, [],
    (List.append_nil _).symm, by simp, by simp⟩
  obtain ⟨j, hj⟩ := Option.ne_none_iff_exists'.mp (hs.began p hp)
  rw [show ((w.enroll r').objs ((w.enroll r').producers p).request).id = some j from hids _ j hj]
  exact Option.some_ne_none j

/-- **Every event** but the start of the request says with its id what it may say. -/
lemma talks_step (hw : Registry w) {e : Event} (hne : e ≠ .start r) (he : AdmitsAny w e) :
    Talks (Begins r w e) r i w (w.step e) := by
  by_cases hrej : Rejected e
  · exact along_rejected (R := Talks _ r i) hrej (fun _ _ => talks_of_objs rfl rfl rfl rfl rfl)
      (fun m w htype => talks_sendMessage (Or.inl (Or.inl htype)) fun _ _ => .error htype) w
  replace he := he.admits hrej
  cases e with
  | start r' =>
    show Talks _ r i w (after (start r') w)
    rw [after_congr (start_run hw he.1 he.2)]
    exact trans_of (Talks _ r i) (talks_enroll he.1)
      (talks_startExchange _ fun h => hne (congrArg Event.start h))
  | read n => exact talks_of_slows (slows_registerOwn .reads n w)
  | message m raises => exact talks_message hw he raises
  | cancel r' => exact talks_cancel r' w
  | call k => exact talks_runCall k w
  | pause => exact talks_of_slows (slows_pause w)
  | resume => exact talks_resume w
  | stop => exact talks_of_slows (slows_stop w)
  | done r' => exact talks_settle r' _ w
  | error r' e => exact talks_settle r' _ w
  | lost reason => exact talks_lost reason w

/-! ### The start of a request -/

/-- What `_start` sends: nothing if it does not take the arguments, or if the id does not fit. -/
def Request.opening (q : Request) (i : ℤ) : List Message :=
  match q.argError, q.kind.startMessages with
  | none, .ok messages => if int32 i then messages.map fun m => { m with id := i } else []
  | _, _ => []

instance : IsPreorder World Keeping where
  refl _ := ⟨fun _ => ⟨rfl, rfl, rfl⟩, fun _ => rfl, rfl, fun c hc _ hp => ⟨c, hc, hp⟩⟩
  trans _ _ _ := Keeping.trans

lemma keeping_request (m : Message) : Within Keeping (Request.sendMessage r m) := fun w => by
  by_cases hsend : ∃ j, (w.objs r).id = some j ∧ int32 j = true
  · obtain ⟨j, hid, hj⟩ := hsend
    rw [after_of_ok (sendMessage_run hid hj m)]
    exact keeping_sendMessage _ w
  · obtain ⟨e, hrun⟩ := sendMessage_raises (w := w) (r := r)
      (fun j hid => Bool.eq_false_of_not_eq_true fun hj => hsend ⟨j, hid, hj⟩) m
    rw [after_of_error hrun]
    exact refl_of Keeping w

/-- Either all messages of `_start` are sent or none is. -/
lemma sent_messages (messages : List Message) : ∀ w : World, (w.objs r).id = some i →
    (after (messages.forM (Request.sendMessage r)) w).sent =
      w.sent ++ if int32 i then messages.map fun m => { m with id := i } else [] := by
  induction messages with
  | nil =>
    intro w _
    show w.sent = _
    simp
  | cons m messages ih =>
    intro w hid
    by_cases hi : int32 i = true
    · have hkept := ((keeping_sendMessage { m with id := i } w).objs r).1.trans hid
      show (after (Request.sendMessage r m >>= fun _ => _) w).sent = _
      rw [after_bind, sendMessage_run hid hi m]
      dsimp only
      rw [ih _ hkept, (slows_sendMessage { m with id := i } w).sent]
      simp [hi]
    · obtain ⟨e, hrun⟩ := sendMessage_raises (w := w) (r := r)
        (fun j hj => by
          rw [hid] at hj
          cases hj
          exact Bool.eq_false_of_not_eq_true hi) m
      show (after (Request.sendMessage r m >>= fun _ => _) w).sent = _
      rw [after_bind, hrun]
      simp [hi]

/-- **`start`** says what `_start` sends, and goes on if nothing is raised. -/
lemma start_opens (hw : Registry w) (he : AdmitsAny w (.start r)) :
    ∃ v, Keeping (w.enroll r) v ∧
      v.sent = w.sent ++ (w.objs r).opening w.requestCounter ∧
      (w.step (.start r) = v ∨ w.step (.start r) = after (afterStart r (w.objs r).kind)
        (v.setObj r fun q => { q with kind := q.kind.started })) := by
  have hstep : w.step (.start r) = after (startExchange r) (w.enroll r) :=
    after_congr (start_run hw he.1 he.2)
  have hq : ((w.enroll r).objs r).argError = (w.objs r).argError ∧
      ((w.enroll r).objs r).kind = (w.objs r).kind ∧
      ((w.enroll r).objs r).id = some w.requestCounter := by simp
  obtain ⟨harg, hkind, hid⟩ := hq
  rw [hstep]
  unfold startExchange Request.opening
  rw [after_get_bind]
  dsimp only
  rw [harg, hkind]
  cases (w.objs r).argError with
  | some e => exact ⟨w.enroll r, refl_of Keeping _, (List.append_nil _).symm, Or.inl rfl⟩
  | none =>
    cases (w.objs r).kind.startMessages with
    | error e => exact ⟨w.enroll r, refl_of Keeping _, (List.append_nil _).symm, Or.inl rfl⟩
    | ok messages =>
      refine ⟨_, within_forM messages (fun m _ => keeping_request m) (w.enroll r),
        sent_messages messages _ hid, ?_⟩
      dsimp only
      rw [after_bind]
      unfold after
      cases (messages.forM (Request.sendMessage r)).run (w.enroll r) with
      | error e t => exact Or.inl rfl
      | ok _ t => exact Or.inr rfl

/-- After what `_start` sends come the things a request that was started may say. -/
lemma talks_start (hw : Registry w) (he : AdmitsAny w (.start r)) :
    ∃ v, Keeping (w.enroll r) v ∧
      v.sent = w.sent ++ (w.objs r).opening w.requestCounter ∧
      Talks False r i v (w.step (.start r)) := by
  obtain ⟨v, hkeep, hsent, hstep⟩ := start_opens hw he
  refine ⟨v, hkeep, hsent, ?_⟩
  rcases hstep with hstep | hstep <;> rw [hstep]
  · exact refl_of (Talks False r i) v
  · have hkind : Talks False r i v (v.setObj r fun q => { q with kind := q.kind.started }) :=
      talks_setObj v ⟨rfl, rfl, Kind.started_moves _⟩
    refine trans_of (Talks False r i) hkind ?_
    unfold afterStart
    split
    · exact talks_settle r _ _
    · exact refl_of (Talks False r i) _

/-! ### Runs -/

/-- What was sent and is no answer has the id of a request that was started. -/
structure Known (w : World) : Prop extends Registry w, Owned w where
  known : ∀ m ∈ w.sent, IsAnswer m ∨ ∃ r, (w.objs r).id = some m.id

lemma Initial.known (h : Initial w) : Known w where
  toRegistry := h.registry
  toOwned := {
    owner r p hp := by simp [(h.objs r).producer] at hp
    began p hp := by simp [h.nextProducer] at hp
    scheduled c hc p hp := absurd hp (h.calls c hc p) }
  known m hm := by simp [h.sent] at hm

lemma Known.speaks (hw : Known w) {e : Event} (hne : e ≠ .start r) (he : AdmitsAny w e) :
    Speaks (Begins r w e) r i w (w.step e) := talks_step hw.toRegistry hne he hw.toOwned

/-- It does not matter of which request the lemma speaks, if it is not the one that starts. -/
lemma Known.speaks_some (hw : Known w) {e : Event} (he : AdmitsAny w e) :
    ∃ r, Speaks (Begins r w e) r 0 w (w.step e) := by
  by_cases h : e = .start 0
  · exact ⟨1, hw.speaks (by simp [h]) he⟩
  · exact ⟨0, hw.speaks h he⟩

lemma Known.step (hw : Known w) {e : Event} (he : AdmitsAny w e) : Known (w.step e) := by
  obtain ⟨r, hs⟩ := hw.speaks_some he
  obtain ⟨new, hnew, hknown, -⟩ := hs.sent
  refine ⟨hw.toRegistry.stepAny he, hs.owned, fun m hm => ?_⟩
  rw [hnew] at hm
  rcases List.mem_append.mp hm with hm | hm
  · exact (hw.known m hm).imp_right fun ⟨r', hr'⟩ => ⟨r', hs.ids r' _ hr'⟩
  · exact hknown m hm

/-- A `BEGIN_CONTENT` for an upload with the id is among the events. -/
def Offered (r : ℕ) (i : ℤ) (w : World) (es : List Event) : Prop :=
  (w.objs r).kind.isPutContent = true ∧
    ∃ m raises, Event.message m raises ∈ es ∧ m.id = i ∧ m.type = .beginContent

/-- A run that goes on with a request that was started. -/
lemma Known.talks_run {es : List Event} : ∀ {w : World}, Known w → (w.objs r).id = some i →
    Runs.Legal World.step AdmitsAny w es →
    Talks (Offered r i w es) r i w (Runs.run World.step w es) := by
  induction es with
  | nil => exact fun _ _ _ => refl_of (Talks _ r i) _
  | cons e es ih =>
    intro w hw hid hes
    have hne : e ≠ .start r := by
      rintro rfl
      rw [hes.1.1] at hid
      cases hid
    have hs := hw.speaks (i := i) hne hes.1
    have hput : ((w.step e).objs r).kind.isPutContent = (w.objs r).kind.isPutContent :=
      congrArg Prod.snd hs.moves
    refine trans_of (Talks _ r i) ((talks_step hw.toRegistry hne hes.1).mono fun hb => ?_)
      ((ih (hw.step hes.1) (hs.ids r i hid) hes.2).mono fun ⟨hk, m, raises, hm, hmi, ht⟩ =>
        ⟨hput ▸ hk, m, raises, List.mem_cons_of_mem e hm, hmi, ht⟩)
    cases e with
    | message m raises =>
      obtain ⟨ht, hr, hk⟩ := hb
      have hmi : m.id = i := Option.some.inj ((hw.entry _ r hr).1.symm.trans hid)
      exact ⟨hk, m, raises, List.mem_cons_self .., hmi, ht⟩
    | _ => exact hb.elim

/-! ### The conversation of a request -/

/-- The messages with an id that do not answer one of the peer. -/
def spoken (i : ℤ) (l : List Message) : List Message :=
  l.filter fun m => m.id = i ∧ m.type ≠ .error ∧ m.type ≠ .pong

/-- What a request may say after its `_start`: a `CANCEL_REQUEST` if it moves content, and content
once a `BEGIN_CONTENT` let it begin. -/
def MaySay (k : Kind) (offered : Prop) (i : ℤ) (m : Message) : Prop :=
  k.isContent = true ∧ m = { id := i, type := .cancelRequest } ∨ offered ∧ m.id = i ∧ Payload m

/-- What a client said with the id of a request that was started in `w`. -/
structure Conversation (w t : World) (r : ℕ) (offered : Prop) (later : List Message) : Prop where
  said : spoken w.requestCounter t.sent =
    spoken w.requestCounter ((w.objs r).opening w.requestCounter) ++ later
  may : ∀ m ∈ later, MaySay (w.objs r).kind offered w.requestCounter m
  once : later.countP (·.type = .cancelRequest) ≤ 1

lemma spoken_append (i : ℤ) (l l' : List Message) :
    spoken i (l ++ l') = spoken i l ++ spoken i l' := List.filter_append ..

/-- The next id was not yet said. -/
lemma Known.unspoken (hw : Known w) : spoken w.requestCounter w.sent = [] := by
  refine List.filter_eq_nil_iff.mpr fun m hm h => ?_
  obtain ⟨hid, herror, hpong⟩ := of_decide_eq_true h
  rcases hw.known m hm with (h | h) | ⟨r, hr⟩
  · exact herror h
  · exact hpong h
  · have := (hw.ids r _ hr).2.1
    omega

lemma cancelsOf_eq (i : ℤ) (w : World) :
    cancelsOf i w = (spoken i w.sent).filter fun m => m.type = .cancelRequest := by
  unfold cancelsOf spoken
  rw [List.filter_filter]
  refine List.filter_congr fun m _ => ?_
  rw [← Bool.decide_and, decide_eq_decide]
  constructor
  · rintro ⟨hid, ht⟩
    simp [hid, ht]
  · exact fun ⟨ht, hid, _⟩ => ⟨hid, ht⟩

/-- What may be said is a cancellation or content. -/
lemma Says.maySay {v : World} {m : Message} (hs : Says b r v m) (hid : m.id = i)
    (hm : m.type ≠ .error ∧ m.type ≠ .pong) (hk : (v.objs r).kind.moves = (w.objs r).kind.moves)
    (hb : ¬Begun r v) : MaySay (w.objs r).kind b i m := by
  cases hs with
  | error h => exact absurd h hm.1
  | pong h => exact absurd h hm.2
  | cancel hc h => exact Or.inl ⟨(congrArg Prod.fst hk).symm.trans hc, hid ▸ h⟩
  | content hc h => exact Or.inr ⟨hc.resolve_left hb, hid, h⟩

/-- A `CANCEL_REQUEST` is sent once in a run from the start of the request. -/
lemma Known.cancels (hw : Known w) (hk : (w.objs r).kind.isContent = true)
    (hes : Runs.Legal World.step AdmitsAny w es)
    (hid : ((Runs.run World.step w es).objs r).id = some w.requestCounter) :
    (cancelsOf w.requestCounter (Runs.run World.step w es)).length ≤ 1 := by
  have hcontent : Content r w := ⟨hw.toRegistry, hk⟩
  have hcount := (hcontent.hushed_run (i := w.requestCounter) hes).count
    ((hcontent.run hes).toRegistry.sole hid)
  have hflag := Bool.toNat_le ((Runs.run World.step w es).objs r).cancelled
  rw [cancelsOf_eq _ w, hw.unspoken, List.filter_nil, List.length_nil] at hcount
  omega

lemma Known.conversation_run (hw : Known w)
    (hes : Runs.Legal World.step AdmitsAny w (.start r :: es)) :
    ∃ later, Conversation w (Runs.run World.step w (.start r :: es)) r
      (Offered r w.requestCounter w es) later := by
  obtain ⟨he, hes'⟩ := hes
  obtain ⟨v, hkeep, hsent, hstart⟩ := talks_start (i := w.requestCounter) hw.toRegistry he
  have henroll := (talks_enroll (b := False) (r := r) (i := w.requestCounter) he.1) hw.toOwned
  have hidv : (v.objs r).id = some w.requestCounter := (hkeep.objs r).1.trans (by simp)
  have hunstarted : ¬Begun r v := by
    rw [hkeep.begun]
    rintro ⟨p, hp, hr⟩
    exact hw.began p hp ((congrArg (fun r => (w.objs r).id) hr).trans he.1)
  have hstep := hstart (hkeep.owned henroll.owned)
  have hmoves : (v.objs r).kind.moves = (w.objs r).kind.moves :=
    (hkeep.objs r).2.2.trans henroll.moves
  have hrun := trans_of (Talks (Offered r w.requestCounter w es) r w.requestCounter)
    (hstart.mono False.elim) (((hw.step he).talks_run (hstep.ids r _ hidv) hes').mono
      fun ⟨hk, h⟩ => ⟨(congrArg Prod.snd (hstep.moves.trans hmoves)).symm.trans hk, h⟩)
    (hkeep.owned henroll.owned)
  obtain ⟨new, hnew, -, hspeak⟩ := hrun.sent
  have hid := hrun.ids r _ hidv
  have hlegal : Runs.Legal World.step AdmitsAny w (.start r :: es) := ⟨he, hes'⟩
  have hknown : Known (Runs.run World.step w (.start r :: es)) :=
    hlegal.invariant (fun _ _ hs he => hs.step he) hw
  have hsaid : spoken w.requestCounter (Runs.run World.step w (.start r :: es)).sent =
      spoken w.requestCounter ((w.objs r).opening w.requestCounter) ++
        spoken w.requestCounter new := by
    rw [Runs.run_cons, hnew, hsent, spoken_append, spoken_append, hw.unspoken, List.nil_append]
  have hmay : ∀ m ∈ spoken w.requestCounter new,
      MaySay (w.objs r).kind (Offered r w.requestCounter w es) w.requestCounter m := by
    intro m hm
    obtain ⟨hm, hspoken⟩ := List.mem_filter.mp hm
    obtain ⟨hmi, hanswer⟩ := of_decide_eq_true hspoken
    exact (hspeak (hknown.toRegistry.sole hid) m hm hmi).maySay hmi hanswer hmoves hunstarted
  refine ⟨_, hsaid, hmay, ?_⟩
  by_cases hk : (w.objs r).kind.isContent = true
  · have hcount := hw.cancels hk hlegal hid
    rw [cancelsOf_eq, hsaid, List.filter_append, List.length_append] at hcount
    rw [List.countP_eq_length_filter]
    omega
  · refine (List.countP_eq_zero.mpr fun m hm h => ?_).trans_le zero_le_one
    rcases hmay m hm with ⟨hc, -⟩ | ⟨-, -, hp⟩
    · exact hk hc
    · rcases hp with hp | hp <;> rw [hp] at h <;> exact absurd h (by decide)

/-- **What a client says with the id of a request** is what `_start` sends, and after it at most
one `CANCEL_REQUEST`, for a request that moves content, and content, for an upload the peer let
begin; in every run, whatever happens before and after the start. -/
theorem conversation {w₀ : World} (h₀ : Initial w₀) (pre : List Event) {post : List Event}
    {r : ℕ}
    (hes : Runs.Legal World.step AdmitsAny w₀ (pre ++ .start r :: post)) :
    let w := Runs.run World.step w₀ pre
    ∃ later, Conversation w (Runs.run World.step w₀ (pre ++ .start r :: post)) r
      (Offered r w.requestCounter w post) later := by
  intro w
  obtain ⟨hpre, hpost⟩ := Runs.legal_append.mp hes
  have hw : Known w := hpre.invariant (fun _ _ hs he => hs.step he) h₀.known
  rw [Runs.run_append]
  exact hw.conversation_run hpost

/-- A download that is cancelled twice. -/
theorem conversation_cancelledTwice : ∃ later, Conversation cancellable
    (Runs.run World.step cancellable cancelledTwice) 0
    (Offered 0 1 cancellable cancelledTwice.tail) later :=
  conversation (initial_init _ _) [] legal_cancelledTwice

end Magicicada.Client
