import Magicicada.Others

/-!
What a cancelled request still sends and takes.

A message with the id of a request is sent by that request: by `start`, by a step of its producer
or by its first `cancel()`. The flag `cancelled` is never taken back, so it counts the
`CANCEL_REQUEST`s.
-/

namespace Magicicada.Requests

open Pb Errors

/-- The requests that move content, which are the ones with a `_cancel`. -/
def Kind.isContent : Kind → Bool
  | .getContent _ | .putContent _ => true
  | _ => false

/-- The content a request took, in `parts` and with its callback. -/
def Kind.taken : Kind → List Bytes × List Bytes
  | .getContent q => (q.parts, q.received)
  | _ => ([], [])

lemma Kind.processMessage_isContent (c : Context) (m : Message) (k : Kind) :
    (k.processMessage c m).1.isContent = k.isContent := by
  cases k <;> rfl

/-- A request that moves content tells the client of nothing. -/
lemma Kind.isContent_reply {k : Kind} (hk : k.isContent = true) (c : Context) (m : Message) :
    (k.processMessage c m).2 ≠ .notify := by
  have hdefault : defaultProcessMessage m ≠ .notify := by
    unfold defaultProcessMessage
    repeat' split
    all_goals exact Reply.noConfusion
  have hcall : ∀ reply : Reply, reply ≠ .notify → c.call reply ≠ .notify := by
    intro reply h
    unfold Context.call
    split
    · exact Reply.noConfusion
    · exact h
  cases k with
  | getContent q =>
    show (q.processMessage c m).2 ≠ .notify
    unfold GetContent.processMessage
    repeat' split
    all_goals first | exact hdefault | exact hcall _ Reply.noConfusion | exact Reply.noConfusion
  | putContent q =>
    show (q.processMessage c m).2 ≠ .notify
    unfold PutContent.processMessage
    dsimp only
    repeat' split
    all_goals first | exact hdefault | exact hcall _ Reply.noConfusion | exact Reply.noConfusion
  | _ => cases hk

lemma Kind.started_isContent (k : Kind) : k.started.isContent = k.isContent := by
  cases k <;> rfl

lemma Kind.started_taken (k : Kind) : k.started.taken = k.taken := by
  cases k <;> rfl

/-- A cancelled request takes nothing. -/
lemma Kind.processMessage_taken {c : Context} (hc : c.cancelled = true) (m : Message) (k : Kind) :
    (k.processMessage c m).1.taken = k.taken := by
  cases k with
  | getContent q =>
    show Kind.taken (.getContent (q.processMessage c m).1) = _
    unfold GetContent.processMessage
    rw [hc]
    split
    · split <;> rfl
    all_goals rfl
  | _ => rfl

/-- The first message of a request that moves content has no content and cancels nothing. -/
lemma Kind.isContent_starts {k : Kind} (hk : k.isContent = true) {messages : List Message}
    (h : k.startMessages = .ok messages) {m : Message} (hm : m ∈ messages) :
    m.type = .getContent ∨ m.type = .putContent := by
  cases k with
  | getContent q =>
    cases h
    obtain rfl := List.mem_singleton.mp hm
    exact Or.inl rfl
  | putContent q =>
    cases h
    obtain rfl := List.mem_singleton.mp hm
    exact Or.inr rfl
  | _ => cases hk

end Magicicada.Requests

namespace Magicicada.Client

open Pb Errors Requests Prog

variable {r r' p : ℕ} {i : ℤ} {s t w : World} {c c' : Prop}

/-! ### Messages with an id -/

/-- The `CANCEL_REQUEST`s with an id among what was sent. -/
def cancelsOf (i : ℤ) (w : World) : List Message :=
  w.sent.filter fun m => m.id = i ∧ m.type = .cancelRequest

/-- The `BYTES` and `EOF` with an id among what was sent. -/
def contentOf (i : ℤ) (w : World) : List Message :=
  w.sent.filter fun m => m.id = i ∧ (m.type = .bytes ∨ m.type = .eof)

/-- No other request has the id. -/
def Sole (r : ℕ) (i : ℤ) (w : World) : Prop := ∀ r', (w.objs r').id = some i → r' = r

/-- Neither a `CANCEL_REQUEST` nor content was sent with the id, but for content of a request
that was not cancelled, and for a `CANCEL_REQUEST` under a condition and when the flag was set;
and a request that was cancelled has taken nothing. -/
structure Hushed (c : Prop) (r : ℕ) (i : ℤ) (s t : World) : Prop where
  ids : ∀ r' j, (s.objs r').id = some j → (t.objs r').id = some j
  cancelled : (s.objs r).cancelled = true → (t.objs r).cancelled = true
  isContent : (t.objs r).kind.isContent = (s.objs r).kind.isContent
  taken : (s.objs r).cancelled = true → (t.objs r).kind.taken = (s.objs r).kind.taken
  content : Sole r i t → (s.objs r).cancelled = true → contentOf i t = contentOf i s
  same : Sole r i t → ¬c → cancelsOf i t = cancelsOf i s
  count : Sole r i t → (cancelsOf i t).length + (s.objs r).cancelled.toNat ≤
    (cancelsOf i s).length + (t.objs r).cancelled.toNat

lemma Sole.before (h : Sole r i t) (hids : ∀ r' j, (s.objs r').id = some j →
    (t.objs r').id = some j) : Sole r i s := fun r' hr' => h r' (hids r' i hr')

lemma toNat_le_of_imp {a b : Bool} (h : a = true → b = true) : a.toNat ≤ b.toNat := by
  cases a
  · exact Nat.zero_le _
  · rw [h rfl]

instance (c : Prop) (r : ℕ) (i : ℤ) : IsPreorder World (Hushed c r i) where
  refl s := ⟨fun _ _ => id, id, rfl, fun _ => rfl, fun _ _ => rfl, fun _ _ => rfl, fun _ => le_rfl⟩
  trans s t u h1 h2 := by
    have hsole : Sole r i u → Sole r i t := fun h => h.before h2.ids
    refine ⟨fun r' j => h2.ids r' j ∘ h1.ids r' j, h2.cancelled ∘ h1.cancelled,
      h2.isContent.trans h1.isContent, fun hc => ?_, fun h hc => ?_, fun h hnot => ?_, fun h => ?_⟩
    · exact (h2.taken (h1.cancelled hc)).trans (h1.taken hc)
    · exact (h2.content h (h1.cancelled hc)).trans (h1.content (hsole h) hc)
    · exact (h2.same h hnot).trans (h1.same (hsole h) hnot)
    · have hcount := h1.count (hsole h)
      have hcount' := h2.count h
      omega

lemma Hushed.mono (h : Hushed c r i s t) (hcc : c → c') : Hushed c' r i s t :=
  { h with same := fun hs hnot => h.same hs fun hc => hnot (hcc hc) }

/-- Where nothing was sent and the request only changes as it may. -/
lemma hushed_of_sent (hids : ∀ r' j, (s.objs r').id = some j → (t.objs r').id = some j)
    (hcancelled : (s.objs r).cancelled = true → (t.objs r).cancelled = true)
    (hcontent : (t.objs r).kind.isContent = (s.objs r).kind.isContent)
    (htaken : (s.objs r).cancelled = true → (t.objs r).kind.taken = (s.objs r).kind.taken)
    (hsent : t.sent = s.sent) : Hushed c r i s t := by
  have hc : cancelsOf i t = cancelsOf i s := by rw [cancelsOf, cancelsOf, hsent]
  refine ⟨hids, hcancelled, hcontent, htaken, fun _ _ => ?_, fun _ _ => hc, fun _ => ?_⟩
  · rw [contentOf, contentOf, hsent]
  · rw [hc]
    exact Nat.add_le_add_left (toNat_le_of_imp hcancelled) _

lemma hushed_of_core (h : t.core = s.core) (hsent : t.sent = s.sent) : Hushed c r i s t := by
  have hself := self_of_core h r
  have hkind := congrArg Request.kind hself
  have hcancelled := congrArg Request.cancelled hself
  refine hushed_of_sent (fun r' j hj => ?_) (fun hc => hcancelled.trans hc)
    (congrArg Kind.isContent hkind) (fun _ => congrArg Kind.taken hkind) hsent
  exact (obj_of_core h r').1.trans hj

lemma hushed_of_slows (h : Slows s t) : Hushed c r i s t := hushed_of_core h.core h.sent

lemma hushed_of_objs (hobjs : t.objs = s.objs) (hsent : t.sent = s.sent) :
    Hushed c r i s t := by
  refine hushed_of_sent (fun r' j h => by rwa [hobjs]) (fun h => by rwa [hobjs]) ?_ (fun _ => ?_)
    hsent <;> rw [hobjs]

/-- A change of an object that is none of the changes watched. -/
lemma hushed_setObj (w : World) {f : Request → Request}
    (hf : (f (w.objs r')).id = (w.objs r').id ∧
      ((w.objs r').cancelled = true → (f (w.objs r')).cancelled = true) ∧
      (f (w.objs r')).kind.isContent = (w.objs r').kind.isContent ∧
      ((w.objs r').cancelled = true → (f (w.objs r')).kind.taken = (w.objs r').kind.taken)) :
    Hushed c r i w (w.setObj r' f) := by
  obtain ⟨hid, hcancelled, hcontent, htaken⟩ := hf
  by_cases h : r = r'
  · subst h
    refine hushed_of_sent (fun r' j hj => ?_) ?_ ?_ ?_ rfl
    · by_cases hr : r' = r
      · subst hr
        rwa [setObj_objs_self, hid]
      · rwa [setObj_objs_of_ne hr]
    all_goals rwa [setObj_objs_self]
  · refine hushed_of_sent (fun r'' j hj => ?_) ?_ ?_ ?_ rfl
    · by_cases hr : r'' = r'
      · subst hr
        rwa [setObj_objs_self, hid]
      · rwa [setObj_objs_of_ne hr]
    all_goals rw [setObj_objs_of_ne h]
    · exact id
    · exact fun _ => rfl

/-! ### Sending -/

/-- Another request's message, or one the request may send. -/
lemma hushed_sendMessage {m : Message} (h : Sole r i w → m.id = i → m.type ≠ .cancelRequest ∧
    ((w.objs r).cancelled = true → ¬Payload m)) : Hushed c r i w (sendMessage m w) := by
  have hslows := slows_sendMessage m w
  have hsole : Sole r i (sendMessage m w) → Sole r i w := fun hs r' hr' => hs r'
    ((obj_of_core hslows.core r').1.trans hr')
  have hcancels : Sole r i (sendMessage m w) → cancelsOf i (sendMessage m w) = cancelsOf i w := by
    intro hs
    rw [cancelsOf, hslows.sent, List.filter_append, List.filter_singleton, cancelsOf]
    by_cases hid : m.id = i
    · simp [(h (hsole hs) hid).1]
    · simp [hid]
  have hbare : Hushed c r i { w with sent := w.sent ++ [m] } (sendMessage m w) :=
    hushed_of_slows hslows
  refine { hbare with
    content := fun hs hc => ?_, same := fun hs _ => hcancels hs, count := fun hs => ?_ }
  · rw [contentOf, hslows.sent, List.filter_append, List.filter_singleton, contentOf]
    by_cases hid : m.id = i
    · simp [show ¬(m.type = .bytes ∨ m.type = .eof) from (h (hsole hs) hid).2 hc]
    · simp [hid]
  · rw [hcancels hs]
    exact Nat.add_le_add_left (toNat_le_of_imp hbare.cancelled) _

lemma hushed_request (m : Message) (h : r' = r → m.type ≠ .cancelRequest ∧ ¬Payload m) :
    Within (Hushed c r i) (Request.sendMessage r' m) := by
  intro w
  by_cases hsend : ∃ j, (w.objs r').id = some j ∧ int32 j = true
  · obtain ⟨j, hid, hj⟩ := hsend
    rw [after_of_ok (sendMessage_run hid hj m)]
    refine hushed_sendMessage fun hs hji => ?_
    obtain rfl : j = i := hji
    obtain ⟨hcancel, hpayload⟩ := h (hs r' hid)
    exact ⟨hcancel, fun _ => hpayload⟩
  · obtain ⟨e, hrun⟩ := sendMessage_raises (w := w) (r := r')
      (fun j hid => Bool.eq_false_of_not_eq_true fun hj => hsend ⟨j, hid, hj⟩) m
    rw [after_of_error hrun]
    exact refl_of (Hushed c r i) w

/-- **A step of a producer** sends nothing for a cancelled request. -/
lemma hushed_go (p : ℕ) : Within (Hushed c r i) (BytesMessageProducer.go p) := by
  intro w
  have hspec := go_spec w p
  unfold after
  generalize (BytesMessageProducer.go p).run w = res at hspec ⊢
  have hstep : ∀ {a : World} {m : Message} {j : ℤ}, Live w p → a.objs = w.objs →
      a.sent = w.sent → (w.objs (w.producers p).request).id = some j → m.id = j → Payload m →
      Hushed c r i w (sendMessage m a) := by
    intro a m j hlive hobjs hsent hid hj hm
    refine trans_of (Hushed c r i) (hushed_of_objs hobjs hsent)
      (hushed_sendMessage fun hs hji => ⟨?_, fun hc => ?_⟩)
    · rcases hm with h | h <;> rw [h] <;> simp
    · have hr := hs (w.producers p).request (by rw [hobjs, hid, ← hj, hji])
      rw [hobjs, ← hr, hlive.cancelled] at hc
      cases hc
  cases hspec with
  | idle _ => exact refl_of (Hushed c r i) w
  | raised _ _ _ _ _ _ => exact hushed_of_objs rfl rfl
  | @bytes hlive j hid _ data _ _ =>
    let a := (w.fetched (w.producers p).fh (fetchOps (w.producers p)
      (w.objs (w.producers p).request).kind.maxPayloadSize)).advanced p data.length
    let m : Message := { bytesMessage data with id := j }
    have hsend : Hushed c r i w (sendMessage m a) := hstep hlive rfl rfl hid rfl (Or.inl rfl)
    have hcall : Hushed c r i (sendMessage m a) (callLater 0 (.go p) (sendMessage m a)) :=
      hushed_of_objs rfl rfl
    exact trans_of (Hushed c r i) hsend hcall
  | @eof hlive j hid _ _ =>
    let a := w.fetched (w.producers p).fh (fetchOps (w.producers p)
      (w.objs (w.producers p).request).kind.maxPayloadSize)
    let m : Message := { eofMessage with id := j }
    have hsend : Hushed c r i w (sendMessage m a) := hstep hlive rfl rfl hid rfl (Or.inr rfl)
    have hend : Hushed c r i (sendMessage m a) ((sendMessage m a).ended p) := hushed_of_objs rfl rfl
    exact trans_of (Hushed c r i) hsend hend

lemma hushed_resumeProducing (p : ℕ) :
    Within (Hushed c r i) (BytesMessageProducer.resumeProducing p) :=
  within_bind (within_modify fun _ => hushed_of_objs rfl rfl)
    fun _ => hushed_go p

lemma hushed_resumeRequest (r' : ℕ) : Within (Hushed c r i) (Request.resumeProducing r') :=
  along_resumeRequest hushed_resumeProducing fun w =>
    hushed_setObj w ⟨rfl, id, rfl, fun _ => rfl⟩

lemma hushed_resume : Within (Hushed c r i) Handler.resumeProducing :=
  along_resume hushed_resumeRequest fun _ => hushed_of_objs rfl rfl

/-! ### The end of a request -/

lemma hushed_settle (r' : ℕ) (o : Outcome) : Within (Hushed c r i) (Request.settle r' o) := by
  have hset : ∀ (f : Request → Request) (w : World),
      (∀ q, (f q).id = q.id ∧ (f q).cancelled = q.cancelled ∧ (f q).kind = q.kind) →
      Hushed c r i w (w.setObj r' f) := by
    intro f w hf
    obtain ⟨hid, hcancelled, hkind⟩ := hf (w.objs r')
    refine hushed_setObj w ⟨hid, fun hc => hcancelled.trans hc, congrArg Kind.isContent hkind, ?_⟩
    exact fun _ => congrArg Kind.taken hkind
  have hfault : ∀ f, Within (Hushed c r i) (fault f) := fun _ =>
    within_modify fun _ => hushed_of_objs rfl rfl
  have hcleanup : Within (Hushed c r i) (Request.cleanup r') :=
    along_cleanup (fun w => hset _ w fun _ => ⟨rfl, rfl, rfl⟩) (fun _ _ => hushed_of_objs rfl rfl)
      (fun _ _ => hushed_of_objs rfl rfl) hfault
  exact along_settle hcleanup hfault fun w => hset _ w fun _ => ⟨rfl, rfl, rfl⟩

lemma hushed_stopProducer (w : World) (r' : ℕ) :
    Hushed c r i w (withProducer r' BytesMessageProducer.stopProducing w) := by
  unfold withProducer
  split
  · exact hushed_of_objs rfl rfl
  · exact refl_of (Hushed c r i) w

/-- Cancelling another request. -/
lemma hushed_cancel_of_ne (h : r' ≠ r) : Within (Hushed c r i) (Request.cancel r') :=
  along_cancel (fun w => hushed_setObj w ⟨rfl, fun _ => rfl, rfl, fun _ => rfl⟩) <|
    along_customCancel (fun w => hushed_stopProducer w r')
      (hushed_request _ fun hr => absurd hr h)

/-- The `CANCEL_REQUEST` of a request, if its id fits. -/
lemma customCancel_sends (r : ℕ) (w : World) :
    (after (customCancel r) w).core = w.core ∧
    ((after (customCancel r) w).sent = w.sent ∨ ∃ j, (after (customCancel r) w).sent =
      w.sent ++ [{ id := j, type := .cancelRequest }]) := by
  have hsend : ∀ v : World, v.sent = w.sent →
      let t := after (Request.sendMessage r { type := .cancelRequest }) v
      t.sent = w.sent ∨ ∃ j, t.sent = w.sent ++ [{ id := j, type := .cancelRequest }] := by
    intro v hv
    dsimp only
    by_cases h : ∃ j, (v.objs r).id = some j ∧ int32 j = true
    · obtain ⟨j, hid, hj⟩ := h
      rw [after_of_ok (sendMessage_run hid hj _), (slows_sendMessage _ v).sent, hv]
      exact Or.inr ⟨j, rfl⟩
    · obtain ⟨e, hrun⟩ := sendMessage_raises (w := v) (r := r)
        (fun j hid => Bool.eq_false_of_not_eq_true fun hj => h ⟨j, hid, hj⟩)
        { type := .cancelRequest }
      rw [after_of_error hrun]
      exact Or.inl hv
  have hstop : (withProducer r BytesMessageProducer.stopProducing w).sent = w.sent := by
    unfold withProducer
    split <;> rfl
  refine ⟨frame_customCancel r w, ?_⟩
  unfold customCancel
  rw [after_get_bind]
  split
  · exact hsend w rfl
  · rw [after_modify_bind]
    exact hsend _ hstop
  · exact Or.inl rfl

lemma cancel_sends (r : ℕ) (w : World) : (after (Request.cancel r) w).sent = w.sent ∨
    ∃ j, (after (Request.cancel r) w).sent = w.sent ++ [{ id := j, type := .cancelRequest }] := by
  unfold Request.cancel
  rw [after_get_bind]
  split
  · exact Or.inl rfl
  · show (after (if _ then customCancel r else pure ⟨⟩) (w.setObj r _)).sent = _ ∨ _
    split
    · exact (customCancel_sends r _).2
    · exact Or.inl rfl

/-- **`cancel()`** sends a `CANCEL_REQUEST` only for a request that is started and unfinished, and
only the first time. -/
lemma hushed_cancel (r : ℕ) (i : ℤ) (w : World) :
    Hushed ((w.objs r).started = true ∧ (w.objs r).finished = false) r i w
      (after (Request.cancel r) w) := by
  let u := w.setObj r fun q => { q with cancelled := true }
  have hu : ∀ c, Hushed c r i w u := fun c => hushed_setObj w ⟨rfl, fun _ => rfl, rfl, fun _ => rfl⟩
  have huc : (u.objs r).cancelled = true := by simp [u]
  unfold Request.cancel
  rw [after_get_bind]
  cases hfin : (w.objs r).finished with
  | true => exact refl_of (Hushed _ r i) w
  | false =>
    rw [if_neg (by simp)]
    show Hushed _ r i w (after (if (w.objs r).started && !(w.objs r).cancelled then customCancel r
      else pure ⟨⟩) u)
    by_cases hsend : ((w.objs r).started && !(w.objs r).cancelled) = true
    swap
    · rw [if_neg hsend]
      exact hu _
    · rw [if_pos hsend]
      obtain ⟨hcore, hsent⟩ := customCancel_sends r u
      rw [Bool.and_eq_true, Bool.not_eq_true'] at hsend
      have hself := self_of_core hcore r
      have hkind := congrArg Request.kind hself
      have htc : ((after (customCancel r) u).objs r).cancelled = true :=
        (cancelled_of_core hcore r).trans huc
      refine ⟨fun r' j hj => (obj_of_core hcore r').1.trans ((hu True).ids r' j hj), fun _ => htc,
        (congrArg Kind.isContent hkind).trans (hu True).isContent, fun hc => ?_, fun _ hc => ?_,
        fun _ hnot => absurd ⟨hsend.1, rfl⟩ hnot, fun _ => ?_⟩
      · simp [hc] at hsend
      · simp [hc] at hsend
      · rw [htc, hsend.2]
        have hlength : (cancelsOf i (after (customCancel r) u)).length ≤
            (cancelsOf i w).length + 1 := by
          unfold cancelsOf
          rcases hsent with e | ⟨j, e⟩ <;> rw [e]
          · exact Nat.le_succ _
          · rw [List.filter_append, List.length_append]
            exact Nat.add_le_add_left (List.length_filter_le _ _) _
        exact hlength

lemma hushed_cancelAny (r' : ℕ) : Within (Hushed True r i) (Request.cancel r') := by
  by_cases h : r' = r
  · subst h
    exact fun w => (hushed_cancel r' i w).mono fun _ => trivial
  · exact hushed_cancel_of_ne h

/-! ### Events -/

lemma hushed_startExchange (hk : (w.objs r).kind.isContent = true) (r' : ℕ) :
    Hushed c r i w (after (startExchange r') w) := by
  refine startExchange_trans (fun messages hmessages => ?_) (fun t => ?_)
    fun _ _ _ => hushed_settle r' _ _
  · refine within_forM messages (fun m hm => hushed_request m ?_) w
    rintro rfl
    rcases Kind.isContent_starts hk hmessages hm with h | h <;> simp [Payload, h]
  · exact hushed_setObj t ⟨rfl, id, Kind.started_isContent _, fun _ => Kind.started_taken _⟩

lemma hushed_enroll (hid : (w.objs r').id = none) : Hushed c r i w (w.enroll r') := by
  have hobj := enroll_obj w r'
  have hkind : ((w.enroll r').objs r).kind = (w.objs r).kind := by
    by_cases h : r = r'
    · subst h
      simp
    · rw [enroll_objs_of_ne h]
  refine hushed_of_sent (fun r'' j hj => ?_) (fun hc => (hobj r).2.2.trans hc)
    (congrArg Kind.isContent hkind) (fun _ => congrArg Kind.taken hkind) rfl
  rw [enroll_objs_of_ne]
  · exact hj
  · rintro rfl
    rw [hid] at hj
    cases hj

lemma hushed_notify (m : Message) (raises : Option Exn) :
    Within (Hushed c r i) (notify m raises) :=
  along_notify fun _ _ => hushed_of_objs rfl rfl

lemma hushed_handle (m : Message) (raises : Option Exn) :
    Within (Hushed c r i) (handle m raises) :=
  along_handle (within_modify fun w => hushed_sendMessage fun _ _ => by simp [Payload])
    (within_modify fun _ => hushed_of_objs rfl rfl) (hushed_notify m raises)

lemma hushed_produce (r' offset : ℕ) : Within (Hushed c r i) (produce r' offset) :=
  within_bind within_get fun _ => within_bind (within_modify fun _ => hushed_of_objs rfl rfl)
    fun _ => within_bind (within_modify fun w => hushed_setObj w ⟨rfl, id, rfl, fun _ => rfl⟩)
      fun _ => within_bind within_get fun _ =>
        within_ite (fun _ => hushed_resumeProducing _) fun _ => within_pure _

/-- A cancelled request takes nothing from a message. -/
lemma hushed_read (w : World) (r' : ℕ) (m : Message) (raises : Option Exn) :
    Hushed c r i w (w.read r' m raises) :=
  hushed_setObj w ⟨rfl, id, Kind.processMessage_isContent _ m _, fun hc =>
    Kind.processMessage_taken hc m _⟩

lemma hushed_message {m : Message} (hw : Registry w) (hm : validateMessage m = [])
    (raises : Option Exn) : Hushed c r i w (w.step (.message m raises)) := by
  cases hr : w.requests.get? m.id with
  | none =>
    show Hushed c r i w (after (processMessage m raises) w)
    rw [processMessage_valid hm, after_congr (dispatch_unregistered hr raises)]
    exact hushed_handle m raises w
  | some r' =>
    rw [Registered.message_run ⟨hw, hr⟩ hm]
    exact trans_of (Hushed c r i) (hushed_read w r' m raises)
      (within_tryCatch (along_carryOut (hushed_settle r') (hushed_produce r')
        (hushed_notify m raises)) (fun _ => along_errorOf fun r => hushed_settle r _) _)

lemma hushed_loseRequest {reason : Exn} (h : Within (Hushed c r i) (Request.cancel r')) :
    Within (Hushed c r i) (loseRequest reason r') :=
  along_loseRequest (fun w => hushed_of_slows (slows_stopRequest r' w)) h (hushed_settle r' _)

lemma hushed_unregisterSelf (w : World) : Hushed c r i w (unregisterSelf w) :=
  along_unregisterSelf (R := Hushed c r i)
    (along_cancelDelayedCall fun _ _ => hushed_of_objs rfl rfl) w

/-- **`connectionLost`** cancels the requests that are registered. -/
lemma hushed_lost (hw : Registry w) (reason : Exn) :
    Hushed ((w.objs r).started = true ∧ (w.objs r).finished = false) r i w
      (w.step (.lost reason)) := by
  have hrun : w.step (.lost reason) =
      after (w.requests.values.forM (loseRequest reason)) (unregisterSelf w) :=
    after_congr (connectionLost_run reason w)
  rw [hrun]
  by_cases hr : r ∈ w.requests.values
  · obtain ⟨j, hj⟩ := Dict.mem_values_iff.mp hr
    obtain ⟨-, hstarted, hfin, -⟩ := hw.entry j r hj
    refine Hushed.mono (c := True) ?_ fun _ => ⟨hstarted, hfin⟩
    exact trans_of (Hushed True r i) (hushed_unregisterSelf w)
      (within_forM _ (fun r' _ => hushed_loseRequest (hushed_cancelAny r')) _)
  · refine trans_of (Hushed _ r i) (hushed_unregisterSelf w)
      (within_forM _ (fun r' hr' => hushed_loseRequest (hushed_cancel_of_ne ?_)) _)
    rintro rfl
    exact hr hr'

lemma hushed_unthrottle (d : Dir) : Within (Hushed c r i) (Factory.unthrottle d) := by
  refine along_unthrottle (fun _ => hushed_of_objs rfl rfl) (fun _ => hushed_of_objs rfl rfl) ?_
  cases d with
  | reads => exact within_modify fun _ => hushed_of_objs rfl rfl
  | writes => exact hushed_resume

lemma hushed_runCall (k : ℕ) : Within (Hushed c r i) (runCall k) := by
  refine along_runCall (fun _ _ => hushed_of_objs rfl rfl) fun f => ?_
  cases f with
  | go p => exact hushed_go p
  | reset d => exact within_modify fun _ => hushed_of_objs rfl rfl
  | unthrottle d => exact hushed_unthrottle d

/-- **Every event** sends a `CANCEL_REQUEST` with the id of a request only while that is started
and unfinished, and only once, and no content after it; and a cancelled request takes nothing. -/
lemma hushed_step (hw : Registry w) (hk : (w.objs r).kind.isContent = true) {e : Event}
    (he : AdmitsAny w e) : Hushed ((w.objs r).started = true ∧ (w.objs r).finished = false) r i w
      (w.step e) := by
  by_cases hrej : Rejected e
  · exact along_rejected (R := Hushed _ r i) hrej (fun _ _ => hushed_of_objs rfl rfl)
      (fun m w htype => hushed_sendMessage fun _ _ => by simp [Payload, htype]) w
  replace he := he.admits hrej
  cases e with
  | start r' =>
    have henroll := hushed_enroll (c := (w.objs r).started = true ∧ (w.objs r).finished = false)
      (r := r) (i := i) he.1
    show Hushed _ r i w (after (start r') w)
    rw [after_congr (start_run hw he.1 he.2)]
    exact trans_of (Hushed _ r i) henroll
      (hushed_startExchange (henroll.isContent.trans hk) r')
  | read n => exact hushed_of_slows (slows_registerOwn .reads n w)
  | message m raises => exact hushed_message hw he raises
  | cancel r' =>
    by_cases h : r' = r
    · subst h
      exact hushed_cancel r' i w
    · exact hushed_cancel_of_ne h w
  | call k => exact hushed_runCall k w
  | pause => exact hushed_of_slows (slows_pause w)
  | resume => exact hushed_resume w
  | stop => exact hushed_of_slows (slows_stop w)
  | done r' => exact hushed_settle r' _ w
  | error r' e => exact hushed_settle r' _ w
  | lost reason => exact hushed_lost hw reason

/-! ### Runs -/

/-- What holds of a request that moves content, in a run of client-side requests. -/
structure Content (r : ℕ) (w : World) : Prop extends Registry w where
  isContent : (w.objs r).kind.isContent = true

lemma Content.step (hw : Content r w) {e : Event} (he : AdmitsAny w e) :
    Content r (w.step e) where
  toRegistry := hw.toRegistry.stepAny he
  isContent := ((hushed_step (i := 0) hw.toRegistry hw.isContent he).isContent).trans hw.isContent

lemma Content.run (hw : Content r w) {es : List Event}
    (hes : Runs.Legal World.step AdmitsAny w es) : Content r (Runs.run World.step w es) :=
  hes.invariant (fun _ _ hs he => hs.step he) hw

lemma Content.hushed_run {es : List Event} : ∀ {w : World}, Content r w →
    Runs.Legal World.step AdmitsAny w es → Hushed True r i w (Runs.run World.step w es) := by
  induction es with
  | nil => exact fun _ _ => refl_of (Hushed True r i) _
  | cons e es ih =>
    intro w hw hes
    have hstep := (hushed_step (i := i) hw.toRegistry hw.isContent hes.1).mono fun _ => trivial
    exact trans_of (Hushed True r i) hstep (ih (hw.step hes.1) hes.2)

/-! ### Leaving the registry -/

/-- The event ends the request: a valid message that ends it or for which its callback raises,
`done()` or `error()` of it, or `connectionLost`. -/
def Ends (r : ℕ) (w : World) : Event → Prop
  | .message m raises => validateMessage m = [] ∧ w.requests.get? m.id = some r ∧
    (w.reply r m raises).ends = true
  | .done r' | .error r' _ => r' = r
  | .lost _ => True
  | _ => False

/-- A new producer of a cancelled request does nothing. -/
lemma produce_cancelled (hc : (w.objs r).cancelled = true) (offset : ℕ) :
    raised (produce r offset) w = none := by
  have hidle : ¬Live (w.firstStep r offset) w.nextProducer := by
    intro hlive
    have hcancelled := hlive.cancelled
    rw [firstStep_producers_self] at hcancelled
    have hobj : (w.firstStep r offset).objs r =
        { w.objs r with producer := some w.nextProducer } := by
      show (w.withNewProducer r offset).objs r = _
      rw [withNewProducer_objs, if_pos rfl]
    rw [hobj, show ({ w.objs r with producer := some w.nextProducer } : Request).cancelled =
      true from hc] at hcancelled
    cases hcancelled
  have hrun := produce_run_step w r offset
  split at hrun
  · rw [go_idle hidle] at hrun
    exact raised_of_ok hrun
  · exact raised_of_ok hrun

/-- A message that does not end a cancelled request leaves it registered. -/
lemma Registered.stays_message {m : Message} {raises : Option Exn} (hw : Registered w r m.id)
    (hk : (w.objs r).kind.isContent = true) (hc : (w.objs r).cancelled = true)
    (hm : validateMessage m = []) (h : (w.reply r m raises).ends ≠ true) :
    Registered (w.step (.message m raises)) r m.id := by
  have hread := hw.read m raises
  cases hreply : w.reply r m raises with
  | stay =>
    rw [hw.message_stay hm raises hreply]
    exact hread
  | produce offset =>
    have hcancelled : ((w.read r m raises).objs r).cancelled = true := by simp [World.read, hc]
    have hraised := produce_cancelled hcancelled offset
    have hproduce := (hread.produce offset).2
    have hstep : w.step (.message m raises) =
        after (Client.produce r offset) (w.read r m raises) := by
      rw [hw.message_run hm, hreply]
      refine after_congr ?_
      rw [run_tryCatch, carryOut, run_of_not_raised hraised]
    rw [hstep]
    exact hproduce
  | notify => exact absurd hreply (Kind.isContent_reply hk _ m)
  | done => exact absurd (by rw [hreply]; rfl) h
  | error e => exact absurd (by rw [hreply]; rfl) h
  | raise e => exact absurd (by rw [hreply]; rfl) h

/-- **A cancelled request stays registered** until something ends it. -/
lemma Registered.stays {e : Event} (hw : Registered w r i) (he : AdmitsAny w e)
    (hk : (w.objs r).kind.isContent = true)
    (hc : (w.objs r).cancelled = true ∨ e = .cancel r) (h : ¬Ends r w e) :
    Registered (w.step e) r i := by
  have hid : (w.objs r).id = some i := (hw.entry i r hw.get?).1
  by_cases hconcerns : Concerns r w e
  · cases e with
    | start r' =>
      obtain rfl : r' = r := hconcerns
      rw [he.1] at hid
      cases hid
    | message m raises =>
      obtain ⟨hm, hr⟩ := hconcerns
      obtain rfl : m.id = i := hw.eq_of_get? hr hw.get?
      exact hw.stays_message hk (hc.resolve_right (by simp)) hm fun hends => h ⟨hm, hr, hends⟩
    | cancel r' => exact hw.of_ledger (frame_cancel r' w)
    | done r' => exact absurd hconcerns h
    | error r' e => exact absurd hconcerns h
    | lost reason => exact absurd trivial h
    | read n => cases hconcerns
    | call k => cases hconcerns
    | pause => cases hconcerns
    | resume => cases hconcerns
    | stop => cases hconcerns
  · have hstep := hw.toRegistry.stepAny he
    have hfin := congrArg Request.finished (self_step hw.toRegistry he hconcerns)
    refine ⟨hstep, hstep.registered r i ?_ (hfin.trans (hw.entry i r hw.get?).2.2.1)⟩
    exact (hw.toRegistry.movesAny he).ages.ids r i hid

/-! ### Cancellation -/

/-- Along a run, `CANCEL_REQUEST` was sent for the request at most once, and only in an event that
found it started and unfinished. -/
structure SentOnce (r : ℕ) (i : ℤ) (w : World) (es : List Event) : Prop where
  once : (cancelsOf i (Runs.run World.step w es)).length ≤ 1
  live : ∀ pre e post, es = pre ++ e :: post →
    cancelsOf i ((Runs.run World.step w pre).step e) ≠ cancelsOf i (Runs.run World.step w pre) →
    ((Runs.run World.step w pre).objs r).started = true ∧
      ((Runs.run World.step w pre).objs r).finished = false

/-- Along a run, the request sends and takes no content, and stays registered until something
ends it. -/
structure InEffect (r : ℕ) (w : World) (es : List Event) : Prop where
  taken : ((Runs.run World.step w es).objs r).kind.taken = (w.objs r).kind.taken
  content : ∀ i, ((Runs.run World.step w es).objs r).id = some i →
    contentOf i (Runs.run World.step w es) = contentOf i w
  registered : ∀ i pre e post, es = pre ++ e :: post →
    (Runs.run World.step w pre).requests.get? i = some r →
    ((Runs.run World.step w pre).step e).requests.get? i = some r ∨
      Ends r (Runs.run World.step w pre) e

lemma Registry.sole (hw : Registry w) (h : (w.objs r).id = some i) : Sole r i w :=
  fun r' hr' => hw.injective r' r i hr' h

lemma Hushed.sole (h : Hushed c r i s t) (ht : Registry t) (hid : (t.objs r).id = some i) :
    Sole r i s := (ht.sole hid).before h.ids

/-- **`CANCEL_REQUEST` is sent once**, and only for a request that is started and unfinished. -/
lemma Content.sentOnce {w₀ : World} (hw : Content r w₀) (hsent : w₀.sent = []) {es : List Event}
    (hes : Runs.Legal World.step AdmitsAny w₀ es)
    (hid : ((Runs.run World.step w₀ es).objs r).id = some i) : SentOnce r i w₀ es where
  once := by
    have hcount := (hw.hushed_run (i := i) hes).count ((hw.run hes).toRegistry.sole hid)
    have hnone : cancelsOf i w₀ = [] := by rw [cancelsOf, hsent, List.filter_nil]
    have hflag := Bool.toNat_le ((Runs.run World.step w₀ es).objs r).cancelled
    rw [hnone, List.length_nil] at hcount
    omega
  live pre e post hsplit hne := by
    subst hsplit
    obtain ⟨hpre, he, hpost⟩ := Runs.legal_append.mp hes
    have hbefore := hw.run hpre
    have hafter := hbefore.step he
    have hsole : Sole r i ((Runs.run World.step w₀ pre).step e) := by
      refine (hafter.hushed_run (i := i) hpost).sole (hafter.run hpost).toRegistry ?_
      rwa [Runs.run_append, Runs.run_cons] at hid
    by_contra hnot
    exact hne ((hushed_step hbefore.toRegistry hbefore.isContent he).same hsole hnot)

/-- `cancel()` sends no content and takes none. -/
lemma cancel_content (r : ℕ) (w : World) :
    contentOf i (after (Request.cancel r) w) = contentOf i w := by
  unfold contentOf
  rcases cancel_sends r w with h | ⟨j, h⟩ <;> rw [h]
  rw [List.filter_append, List.filter_singleton]
  simp

/-- **A cancellation takes effect at once.** -/
lemma Content.inEffect (hw : Content r w) (hfin : (w.objs r).finished = false) {es : List Event}
    (hes : Runs.Legal World.step AdmitsAny w (.cancel r :: es)) :
    InEffect r w (.cancel r :: es) := by
  have hcancelled : ((w.step (.cancel r)).objs r).cancelled = true := cancel_cancelled (Or.inl hfin)
  have hcancel : Content r (w.step (.cancel r)) := hw.step hes.1
  have hrun : ∀ i, Hushed True r i (w.step (.cancel r))
      (Runs.run World.step (w.step (.cancel r)) es) := fun i => hcancel.hushed_run hes.2
  refine ⟨?_, fun i hid => ?_, fun i pre e post hsplit hr => ?_⟩
  · have hkind : ((w.step (.cancel r)).objs r).kind = (w.objs r).kind := (fades_cancel r r w).kind
    exact ((hrun 0).taken hcancelled).trans (congrArg Kind.taken hkind)
  · have hsole := (hcancel.run hes.2).toRegistry.sole hid
    exact ((hrun i).content hsole hcancelled).trans (cancel_content r w)
  · rw [hsplit] at hes
    obtain ⟨hpre, he, -⟩ := Runs.legal_append.mp hes
    have hbefore := hw.run hpre
    -- the first event is the `cancel()`, and the others find the request cancelled
    have hmark : ((Runs.run World.step w pre).objs r).cancelled = true ∨ e = .cancel r := by
      cases pre with
      | nil => exact Or.inr (List.cons.inj hsplit).1.symm
      | cons e' pre =>
        obtain ⟨rfl, -⟩ := List.cons.inj hsplit
        exact Or.inl ((hcancel.hushed_run (i := 0) hpre.2).cancelled hcancelled)
    refine or_iff_not_imp_right.mpr fun hends => ?_
    exact (Registered.stays ⟨hbefore.toRegistry, hr⟩ he hbefore.isContent hmark hends).get?

/-- **Cancellation is sent once and takes effect at once**, in every run of a client and for every
request that moves content. -/
theorem cancelled_run {w₀ : World} (h₀ : Initial w₀) {es : List Event}
    (hes : Runs.Legal World.step AdmitsAny w₀ es) {r : ℕ}
    (hk : (w₀.objs r).kind.isContent = true) :
    (∀ i, ((Runs.run World.step w₀ es).objs r).id = some i → SentOnce r i w₀ es) ∧
    ∀ pre post, es = pre ++ .cancel r :: post →
      ((Runs.run World.step w₀ pre).objs r).finished = false →
      InEffect r (Runs.run World.step w₀ pre) (.cancel r :: post) := by
  have hw : Content r w₀ := ⟨h₀.registry, hk⟩
  refine ⟨fun i hid => hw.sentOnce h₀.sent hes hid, fun pre post hsplit hfin => ?_⟩
  subst hsplit
  obtain ⟨hpre, hpost⟩ := Runs.legal_append.mp hes
  exact (hw.run hpre).inEffect hfin hpost

/-! ### A download that is cancelled -/

/-- A client with downloads nobody has started. -/
def cancellable : World :=
  World.init (fun _ => .getContent { share := "s", nodeId := "n", hash := "h" })
    fun _ => ⟨fun _ => .ok [], []⟩

/-- The download is cancelled after a piece of its content, another piece comes, it is cancelled
again, and the connection is lost. -/
def cancelledTwice : List Event :=
  [.start 0, .message someBytes none, .cancel 0, .message someBytes none, .cancel 0,
    .lost (.connectionLost 0)]

lemma legal_cancelledTwice : Runs.Legal World.step AdmitsAny cancellable cancelledTwice :=
  ⟨⟨rfl, rfl⟩, trivial, trivial, trivial, trivial, trivial, trivial⟩

theorem cancelled_run_twice : SentOnce 0 1 cancellable cancelledTwice ∧
    InEffect 0 (Runs.run World.step cancellable (cancelledTwice.take 2)) (cancelledTwice.drop 2) :=
  have h := cancelled_run (initial_init _ _) legal_cancelledTwice (r := 0) rfl
  ⟨h.1 1 rfl, h.2 (cancelledTwice.take 2) (cancelledTwice.drop 3) rfl rfl⟩

end Magicicada.Client
