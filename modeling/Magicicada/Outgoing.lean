import Magicicada.Notices
import Magicicada.Queried

/-!
What a client sends is valid for its peer if the arguments of its requests are.

`validate_message` of the peer looks at some of the fields that `_start` fills in. Nothing else that
a client sends has a field it looks at.
-/

namespace Magicicada.Requests

open Pb Errors Wire Fields Validators

/-- The arguments of a request that the validators of the peer look at. -/
def Kind.arguments : Kind → Bool
  | .getContent q => isValidShare q.share && isValidNode q.nodeId && isValidHash q.hash
  | .createShare q => isValidNode q.node
  | .acceptShare q => isValidShare q.shareId
  | .deleteShare q => isValidShare q.shareId
  | .unlink q => isValidShare q.share && isValidNode q.node
  | .changePublicAccess q => isValidShare q.shareId && isValidNode q.nodeId
  | .move q => isValidShare q.share && isValidNode q.nodeId && isValidNode q.newParentId
  | .query q => Client.validateMessage q.queryMessage = []
  | .putContent q => isValidShare q.share && isValidNode q.nodeId && isValidHash q.hash
  | .makeDir q | .makeFile q => isValidShare q.share && isValidNode q.parentId
  | .freeSpaceInquiry q => isValidShare q.shareId
  | .getDelta q => isValidShare q.shareId
  | .other messages => messages.all fun m => Client.validateMessage m = []
  | _ => true

/-! ### The fields -/

@[simp] lemma valid_append (ts us : List Tree) : Validators.validateMessage (ts ++ us) = [] ↔
    Validators.validateMessage ts = [] ∧ Validators.validateMessage us = [] := by
  rw [Client.validateMessage_append, List.append_eq_nil_iff]

@[simp] lemma valid_nil : Validators.validateMessage [] = [] := by
  rw [Validators.validateMessage]

lemma valid_scalar (name : String) (number : ℕ) (v : Scalar) :
    validateField (.scalar name number v) = [] ↔ ∀ valid, validator name = some valid →
      valid v = true := by
  unfold validateField
  split <;> simp [*]

@[simp] lemma valid_singleton (t : Tree) :
    Validators.validateMessage [t] = [] ↔ validateField t = [] := by
  rw [Validators.validateMessage, Validators.validateMessage, List.append_nil]

@[simp] lemma valid_strField (name : String) (number : ℕ) (o : Option String) :
    Validators.validateMessage (strField name number o) = [] ↔
      ∀ s, o = some s → ∀ valid, validator name = some valid → valid (.str s) = true := by
  cases o with
  | none => simp [strField]
  | some s => simp [strField, valid_singleton, valid_scalar]

@[simp] lemma valid_uintField (name : String) (number : ℕ) (o : Option ℕ) :
    Validators.validateMessage (uintField name number o) = [] ↔
      ∀ n, o = some n → ∀ valid, validator name = some valid → valid (.varint n) = true := by
  cases o with
  | none => simp [uintField]
  | some n => simp [uintField, valid_singleton, valid_scalar]

@[simp] lemma valid_subField {α : Type} (name : String) (number : ℕ) (f : α → List Tree)
    (o : Option α) : Validators.validateMessage (subField name number f o) = [] ↔
      ∀ a, o = some a → Validators.validateMessage (f a) = [] := by
  cases o with
  | none => simp [subField]
  | some a => simp [subField, valid_singleton, validateField]

@[simp] lemma valid_repField {α : Type} (name : String) (number : ℕ) (f : α → List Tree)
    (l : List α) : Validators.validateMessage (repField name number f l) = [] ↔
      ∀ a ∈ l, Validators.validateMessage (f a) = [] := by
  have hmap : Validators.validateMessage (l.map fun a => .message name number (f a)) = [] ↔
      ∀ a ∈ l, Validators.validateMessage (f a) = [] := by
    induction l with
    | nil => simp
    | cons a l ih =>
      rw [List.map_cons, Validators.validateMessage, List.append_eq_nil_iff, ih, validateField,
        List.forall_mem_cons]
  unfold repField
  split
  · next hl => simp [hl]
  · rw [valid_singleton, validateField, hmap]

/-- The id of a message is not looked at. -/
lemma validateMessage_withId (m : Message) (i : ℤ) :
    Client.validateMessage { m with id := i } = Client.validateMessage m := by
  have htail : ∀ m : Message, Client.validateMessage m =
      Validators.validateMessage (Message.listFields m).tail := fun m => by
    show validateField (.scalar "id" 1 (.varint (ofInt m.id))) ++ _ = _
    rw [show validateField (.scalar "id" 1 (.varint (ofInt m.id))) = [] from rfl]
    rfl
  rw [htail, htail]
  rfl

/-! ### What is sent first -/

/-- What `_start` sends is valid exactly if the arguments are. -/
lemma Kind.startMessages_valid (k : Kind) {l : List Message} (hl : k.startMessages = .ok l) :
    (∀ m ∈ l, Client.validateMessage m = []) ↔ k.arguments = true := by
  cases k with
  | other messages | query q =>
    obtain rfl := Except.ok.inj hl
    simp [arguments]
  | ping | noop | listShares q | listVolumes q | listPublicFiles q | accountInquiry q =>
    obtain rfl := Except.ok.inj hl
    simp [arguments, Peers.validateMessage_bare]
  | createShare q =>
    simp only [startMessages, CreateShare.message] at hl
    split at hl
    · cases hl
    · obtain rfl := Except.ok.inj hl
      simp [arguments, Client.validateMessage, Message.listFields, CreateShare.listFields, intField,
        validator, onStr]
  | acceptShare q =>
    simp only [startMessages, AcceptShare.message] at hl
    split at hl
    · cases hl
    · obtain rfl := Except.ok.inj hl
      simp [arguments, Client.validateMessage, Message.listFields, ShareAccepted.listFields,
        intField, validator, onStr]
  | getContent q =>
    obtain rfl := Except.ok.inj hl
    simp [arguments, Client.validateMessage, Message.listFields, GetContent.message,
      GetContent.listFields, intField, validator, onStr, and_assoc]
  | putContent q =>
    obtain rfl := Except.ok.inj hl
    simp [arguments, Client.validateMessage, Message.listFields, PutContent.message,
      PutContent.listFields, intField, validator, onStr, onVarint, isValidCrc32, and_assoc]
  | getDelta q =>
    obtain rfl := Except.ok.inj hl
    simp [arguments, Client.validateMessage, Message.listFields, GetDelta.message,
      GetDelta.listFields, intField, boolField, validator, onStr]
  | deleteShare q =>
    obtain rfl := Except.ok.inj hl
    simp [arguments, Client.validateMessage, Message.listFields, DeleteShare.message,
      ShareId.listFields, intField, validator, onStr]
  | freeSpaceInquiry q =>
    obtain rfl := Except.ok.inj hl
    simp [arguments, Client.validateMessage, Message.listFields, FreeSpaceInquiry.message,
      ShareId.listFields, intField, validator, onStr]
  | createUDF q =>
    obtain rfl := Except.ok.inj hl
    simp [arguments, Client.validateMessage, Message.listFields, CreateUDF.message,
      CreateUDF.listFields, intField, validator]
  | deleteVolume q =>
    obtain rfl := Except.ok.inj hl
    simp [arguments, Client.validateMessage, Message.listFields, DeleteVolume.message,
      VolumeId.listFields, intField, validator]
  | unlink q =>
    obtain rfl := Except.ok.inj hl
    simp [arguments, Client.validateMessage, Message.listFields, Unlink.message,
      Unlink.listFields, intField, validator, onStr]
  | changePublicAccess q =>
    obtain rfl := Except.ok.inj hl
    simp [arguments, Client.validateMessage, Message.listFields, ChangePublicAccess.message,
      ChangePublicAccess.listFields, intField, boolField, validator, onStr]
  | move q =>
    obtain rfl := Except.ok.inj hl
    simp [arguments, Client.validateMessage, Message.listFields, Move.message, Move.listFields,
      intField, validator, onStr, and_assoc]
  | makeDir q | makeFile q =>
    obtain rfl := Except.ok.inj hl
    simp [arguments, Client.validateMessage, Message.listFields, MakeObject.message,
      Make.listFields, intField, validator, onStr]
  | protocolVersion q =>
    obtain rfl := Except.ok.inj hl
    simp [arguments, Client.validateMessage, Message.listFields, ProtocolVersion.message,
      Protocol.listFields, intField, validator]
  | authenticate q =>
    obtain rfl := Except.ok.inj hl
    simp [arguments, Client.validateMessage, Message.listFields, Authenticate.message,
      AuthParameter.listFields, KeyValue.listFields, intField, validator]
  | querySetCaps q =>
    obtain rfl := Except.ok.inj hl
    cases hset : q.setMode <;>
      simp [arguments, Client.validateMessage, Message.listFields, QuerySetCaps.message, hset,
        Caps.listFields, intField, validator]

end Magicicada.Requests

namespace Magicicada.Client

open Pb Errors Wire Fields Requests Prog

variable {r : ℕ} {i : ℤ} {s t w : World} {e : Event}

/-! ### What is sent later -/

/-- What the users of a client are told: the root, through the deferreds that wait for it, and
what the callbacks are called with. -/
structure Told where
  rootId : Option String
  rootIdDefers : List ℕ
  rootIdFired : List (ℕ × String)
  notices : List Notice

def World.told (w : World) : Told := ⟨w.rootId, w.rootIdDefers, w.rootIdFired, w.notices⟩

/-- Nothing but valid messages is sent, and under a condition no user is told anything. -/
structure Vocal (b : Prop) (s t : World) : Prop where
  sent : ∃ new, t.sent = s.sent ++ new ∧ ∀ m ∈ new, validateMessage m = []
  told : b → t.told = s.told

variable {b : Prop}

instance (b : Prop) : IsPreorder World (Vocal b) where
  refl _ := ⟨⟨[], (List.append_nil _).symm, by simp⟩, fun _ => rfl⟩
  trans _ _ _ h h' := by
    obtain ⟨new, hnew, hvalid⟩ := h.sent
    obtain ⟨new', hnew', hvalid'⟩ := h'.sent
    exact ⟨⟨new ++ new', by rw [hnew', hnew, List.append_assoc],
      List.forall_mem_append.mpr ⟨hvalid, hvalid'⟩⟩, fun hb => (h'.told hb).trans (h.told hb)⟩

lemma vocal_of_sent (h : t.sent = s.sent) (htold : b → t.told = s.told) : Vocal b s t :=
  ⟨⟨[], by rw [h, List.append_nil], by simp⟩, htold⟩

lemma vocal_of_eq (h : t.sent = s.sent) (htold : t.told = s.told) : Vocal b s t :=
  vocal_of_sent h fun _ => htold

lemma told_of_core (h : t.core = s.core) : t.told = s.told := by
  show t.core.told = s.core.told
  rw [h]

lemma vocal_of_slows (h : Slows s t) : Vocal b s t := vocal_of_eq h.sent (told_of_core h.core)

lemma vocal_sendMessage {m : Message} (hm : validateMessage m = []) (w : World) :
    Vocal b w (sendMessage m w) :=
  ⟨⟨[m], (slows_sendMessage m w).sent, by simpa using hm⟩,
    fun _ => told_of_core (core_sendMessage m w)⟩

lemma vocal_request {m : Message} (hm : validateMessage m = []) :
    Within (Vocal b) (Request.sendMessage r m) :=
  along_sendMessage fun i => vocal_sendMessage ((validateMessage_withId m i).trans hm)

/-- Content is not looked at. -/
lemma validateMessage_bytesMessage (data : Bytes) : validateMessage (bytesMessage data) = [] := by
  simp [validateMessage, bytesMessage, Message.listFields, BytesMessage.listFields, intField,
    bytesField, Validators.validateField, Validators.validator]

/-- The text of an error is not looked at. -/
lemma validateMessage_error (i : ℤ) (type : ErrorType) (comment : String) : validateMessage
    { id := i, type := .error, error := some { type := some type, comment := some comment } } =
      [] := by
  simp [validateMessage, Message.listFields, Error.listFields, intField, Validators.validator]

lemma vocal_go (p : ℕ) : Within (Vocal b) (BytesMessageProducer.go p) := by
  have hop : ∀ fh op, Within (Vocal b) (fileOp fh op) := fun fh op => by
    refine within_bind within_get fun w => within_bind (within_modify fun _ => vocal_of_eq rfl rfl)
      fun _ => ?_
    split
    · exact within_pure _
    · exact within_throw _
  refine along_go hop fun q data => within_ite (fun _ => ?_) fun _ => ?_
  · exact within_bind (within_modify fun _ => vocal_of_eq rfl rfl) fun _ =>
      within_bind (vocal_request (validateMessage_bytesMessage data)) fun _ =>
        within_modify fun _ => vocal_of_eq rfl rfl
  · exact within_bind (vocal_request (Peers.validateMessage_bare 0 .eof)) fun _ =>
      within_modify fun _ => vocal_of_eq rfl rfl

lemma vocal_resumeProducing (p : ℕ) : Within (Vocal b) (BytesMessageProducer.resumeProducing p) :=
  within_bind (within_modify fun _ => vocal_of_eq rfl rfl) fun _ => vocal_go p

lemma vocal_resume : Within (Vocal b) Handler.resumeProducing :=
  along_resume (fun _ => along_resumeRequest vocal_resumeProducing fun _ => vocal_of_eq rfl rfl)
    fun _ => vocal_of_eq rfl rfl

/-- The end of a request is no message, and users are told of it by its own deferred. -/
lemma voice_settle (r : ℕ) (o : Outcome) :
    Within (Frame fun w => (w.sent, w.told)) (Request.settle r o) := by
  have hfault : ∀ f, Within (Frame fun w => (w.sent, w.told)) (fault f) := fun _ =>
    within_modify fun _ => rfl
  exact along_settle (along_cleanup (fun _ => rfl) (fun _ _ => rfl) (fun _ _ => rfl) hfault) hfault
    fun _ => rfl

lemma vocal_settle (r : ℕ) (o : Outcome) : Within (Vocal b) (Request.settle r o) := fun w =>
  vocal_of_eq (congrArg Prod.fst (voice_settle r o w)) (congrArg Prod.snd (voice_settle r o w))

lemma vocal_cancel (r : ℕ) : Within (Vocal b) (Request.cancel r) := by
  refine along_cancel (fun _ => vocal_of_eq rfl rfl) (along_customCancel (fun w => ?_)
    (vocal_request (Peers.validateMessage_bare 0 .cancelRequest)))
  unfold withProducer
  split
  · exact vocal_of_eq rfl rfl
  · exact refl_of (Vocal b) w

lemma vocal_produce (r n : ℕ) : Within (Vocal b) (produce r n) := fun w => by
  rw [after_congr (produce_run w r n)]
  have hadd : Vocal b w (w.withNewProducer r n) := vocal_of_eq rfl rfl
  refine trans_of (Vocal b) hadd ?_
  split
  · exact vocal_resumeProducing _ _
  · exact refl_of (Vocal b) _

lemma vocal_reject (m : Message) (invalid : List Validators.Invalid) :
    Within (Vocal b) (rejectMessage m invalid) := by
  refine within_bind within_get fun w => within_ite (fun _ => ?_) fun _ => within_throw _
  exact within_bind (within_modify fun _ => vocal_of_eq rfl rfl) fun _ =>
    within_modify fun w => vocal_sendMessage (validateMessage_error _ _ _) w

/-- A message may tell the users something. -/
lemma vocal_message (m : Message) (raises : Option Exn) :
    Within (Vocal False) (processMessage m raises) := by
  have hnotify : Within (Vocal False) (notify m raises) :=
    along_notify fun _ _ => vocal_of_sent rfl False.elim
  have hhandle : Within (Vocal False) (handle m raises) :=
    along_handle (within_modify fun w => vocal_sendMessage (Peers.validateMessage_bare _ _) w)
      (within_modify fun _ => vocal_of_sent rfl False.elim) hnotify
  refine within_ite (fun _ => vocal_reject m _) fun _ => within_bind within_get fun w => ?_
  split
  · next r _ =>
    refine within_tryCatch (within_bind within_get fun w => ?_) fun e =>
      along_errorOf fun r => vocal_settle r _
    exact within_bind (within_modify fun _ => vocal_of_eq rfl rfl) fun _ =>
      along_carryOut (vocal_settle r) (vocal_produce r) hnotify
  · exact hhandle

lemma vocal_lost (reason : Exn) : Within (Vocal b) (connectionLost reason) :=
  along_lost (along_unregisterSelf (along_cancelDelayedCall fun _ _ => vocal_of_eq rfl rfl))
    fun r => along_loseRequest (fun w => vocal_of_slows (slows_stopRequest r w))
      (vocal_cancel r) (vocal_settle r _)

lemma vocal_runCall (k : ℕ) : Within (Vocal b) (runCall k) := by
  refine along_runCall (fun _ _ => vocal_of_eq rfl rfl) fun f => ?_
  cases f with
  | go p => exact vocal_go p
  | reset d => exact within_modify fun w => vocal_of_eq rfl rfl
  | unthrottle d =>
    refine along_unthrottle (fun _ => vocal_of_eq rfl rfl) (fun _ => vocal_of_eq rfl rfl) ?_
    cases d with
    | reads => exact within_modify fun _ => vocal_of_eq rfl rfl
    | writes => exact vocal_resume

/-! ### Every event -/

/-- **`start`** sends what `_start` sends. -/
lemma sent_start (hw : Registry w) (he : AdmitsAny w (.start r)) :
    (w.step (.start r)).sent = w.sent ++ (w.objs r).opening w.requestCounter := by
  obtain ⟨v, -, hsent, hstep⟩ := start_opens hw he
  rw [← hsent]
  rcases hstep with hstep | hstep <;> rw [hstep]
  unfold afterStart
  split
  · exact congrArg Prod.fst (voice_settle r .callback _)
  · rfl

/-- What a request says first is valid exactly if its arguments are. -/
lemma opening_valid (q : Request) (i : ℤ) : (∀ m ∈ q.opening i, validateMessage m = []) ↔
    (q.opening i ≠ [] → q.kind.arguments = true) := by
  unfold Request.opening
  split
  · next messages _ hl =>
    split
    · rw [← Kind.startMessages_valid q.kind hl]
      simp only [List.forall_mem_map, validateMessage_withId]
      refine ⟨fun h _ => h, fun h m hm => h ?_ m hm⟩
      exact fun hnil => List.ne_nil_of_mem hm (List.map_eq_nil_iff.mp hnil)
    · simp
  · simp

/-- **Every event** sends valid messages only, if a request that it starts has valid arguments. -/
lemma vocal_step (hw : Registry w) (he : AdmitsAny w e) (hstart : ∀ r, e = .start r →
    ∀ m ∈ (w.objs r).opening w.requestCounter, validateMessage m = []) :
    Vocal False w (w.step e) := by
  cases e with
  | start r => exact ⟨⟨_, sent_start hw he, hstart r rfl⟩, False.elim⟩
  | read n => exact vocal_of_slows (slows_registerOwn .reads n w)
  | message m raises => exact vocal_message m raises w
  | cancel r => exact vocal_cancel r w
  | call k => exact vocal_runCall k w
  | pause => exact vocal_of_slows (slows_pause w)
  | resume => exact vocal_resume w
  | stop => exact vocal_of_slows (slows_stop w)
  | done r => exact vocal_settle r _ w
  | error r e => exact vocal_settle r _ w
  | lost reason => exact vocal_lost reason w

/-! ### Runs -/

/-- What the request says first does not depend on more than this. -/
lemma opening_congr {q q' : Request} (hkind : q.kind = q'.kind) (harg : q.argError = q'.argError) :
    q.opening = q'.opening := by
  funext i
  unfold Request.opening
  rw [hkind, harg]

lemma sent_run {es : List Event} (hw : Known w) (hes : Runs.Legal World.step AdmitsAny w es) :
    w.sent <+: (Runs.run World.step w es).sent := by
  refine (hes.invariant (I := fun t => Known t ∧ w.sent <+: t.sent) ?_
    ⟨hw, List.prefix_refl _⟩).2
  intro s e ⟨hs, hprefix⟩ he
  obtain ⟨r, hspeaks⟩ := hs.speaks_some he
  obtain ⟨new, hnew, -⟩ := hspeaks.sent
  exact ⟨hs.step he, hprefix.trans ⟨new, hnew.symm⟩⟩

/-- The arguments of the requests that have an id and sent something are valid. -/
def ArgumentsValid (w₀ w : World) : Prop := ∀ r i, (w.objs r).id = some i →
  (w₀.objs r).opening i ≠ [] → (w₀.objs r).kind.arguments = true

/-- A client that sent valid messages only. -/
structure Heeding (w₀ w : World) : Prop extends Registry w where
  unstarted : ∀ r, (w.objs r).id = none →
    (w.objs r).kind = (w₀.objs r).kind ∧ (w.objs r).argError = (w₀.objs r).argError
  valid : ∀ m ∈ w.sent, validateMessage m = []

lemma Heeding.step {w₀ : World} (hw : Heeding w₀ w) (he : AdmitsAny w e)
    (hargs : ArgumentsValid w₀ (w.step e)) : Heeding w₀ (w.step e) := by
  have hids := (hw.toRegistry.movesAny he).ages.ids
  refine ⟨hw.toRegistry.stepAny he, fun r hid => ?_, ?_⟩
  · have hnone : (w.objs r).id = none := by
      cases h : (w.objs r).id with
      | none => rfl
      | some j => simp [hids r j h] at hid
    have hne : e ≠ .start r := by
      rintro rfl
      have hgiven := (hw.toRegistry.start he.1 he.2).ages.ids r w.requestCounter (by simp)
      exact Option.some_ne_none _ (hgiven.symm.trans hid)
    obtain ⟨q, hself, -, hkind, harg⟩ := unstarted_step hw.toRegistry he hne hnone
    obtain ⟨hkind', harg'⟩ := hw.unstarted r hnone
    exact ⟨((congrArg Request.kind hself).trans hkind).trans hkind',
      ((congrArg Request.argError hself).trans harg).trans harg'⟩
  · obtain ⟨new, hnew, hvalid⟩ := (vocal_step hw.toRegistry he fun r he' => by
      subst he'
      have hid := (hw.toRegistry.start he.1 he.2).ages.ids r w.requestCounter (by simp)
      obtain ⟨hkind, harg⟩ := hw.unstarted r he.1
      rw [opening_congr hkind harg, opening_valid]
      exact hargs r _ hid).sent
    rw [hnew]
    exact List.forall_mem_append.mpr ⟨hw.valid, hvalid⟩

/-- **Everything a client sends in a run is valid for the peer** exactly if the arguments are of
the requests it started that sent something. -/
theorem sent_valid_iff {w₀ : World} (h₀ : Initial w₀) {es : List Event}
    (hes : Runs.Legal World.step AdmitsAny w₀ es) :
    (∀ m ∈ (Runs.run World.step w₀ es).sent, validateMessage m = []) ↔
      ArgumentsValid w₀ (Runs.run World.step w₀ es) := by
  constructor
  · intro hvalid r i hid
    obtain ⟨es₁, es₂, rfl, rfl, hkind, harg⟩ := started_split h₀.registry hes (h₀.objs r).id hid
    obtain ⟨hes₁, hstart, hes₂⟩ := Runs.legal_append.mp hes
    rw [← opening_valid, ← opening_congr hkind harg]
    have hw : Known (Runs.run World.step w₀ es₁) :=
      hes₁.invariant (fun _ _ hs he => hs.step he) h₀.known
    have hsent := sent_run (hw.step hstart) hes₂
    rw [sent_start hw.toRegistry hstart] at hsent
    intro m hm
    refine hvalid m ?_
    rw [Runs.run_append, Runs.run_cons]
    exact hsent.subset (List.mem_append_right _ hm)
  · intro hargs
    have hback := hes.back (I := Registry) (J := ArgumentsValid w₀)
      (fun _ _ hs he => hs.stepAny he)
      (fun _ _ hs he hargs r i hid => hargs r i ((hs.movesAny he).ages.ids r i hid))
      h₀.registry hargs
    have hbegin : Heeding w₀ w₀ := ⟨h₀.registry, fun _ _ => ⟨rfl, rfl⟩, by simp [h₀.sent]⟩
    exact (hback.1.invariant (I := Heeding w₀) (fun _ _ hs he => hs.step he.1 he.2) hbegin).valid

/-- The download has a node id that is no UUID. -/
theorem sent_valid_cancelledTwice :
    ¬∀ m ∈ (Runs.run World.step cancellable cancelledTwice).sent, validateMessage m = [] := by
  have hinitial : Initial cancellable := initial_init _ _
  intro hvalid
  have hargs := (sent_valid_iff hinitial legal_cancelledTwice).mp hvalid
  have hid : ((Runs.run World.step cancellable cancelledTwice).objs 0).id = some 1 := by
    decide +kernel
  exact absurd (hargs 0 1 hid (List.cons_ne_nil _ _)) (by decide)

end Magicicada.Client
