import Magicicada.Callbacks
import Magicicada.Others
import Magicicada.Stalls

/-!
What becomes of an error that the file of an upload raises.

A step of a producer is taken in `processMessage` of the request, in `resumeProducing` of the
handler or as a delayed call. Only the first of these hands what the step raises to the request.
-/

namespace Magicicada.Client

open Pb Errors Requests Prog

variable {r p fh : ℕ} {i : ℤ} {x : Exn} {s t u v w : World}

/-- The steps of producers that an event takes, each with the state it is taken in. -/
inductive Goes (w : World) : Event → World → ℕ → Prop
  /-- In `processMessage`, by the producer that a `BEGIN_CONTENT` makes. -/
  | made {m : Message} {raises : Option Exn} {r offset : ℕ} (hm : validateMessage m = [])
      (hr : w.requests.get? m.id = some r) (hreply : w.reply r m raises = .produce offset)
      (hprod : (w.objs r).producing = true) :
      Goes w (.message m raises) ((w.read r m raises).firstStep r offset) w.nextProducer
  /-- In `resumeProducing` of the handler, which gets to the request. -/
  | resumed {e : Event} {u v : World} {l l' : List ℕ} {r p : ℕ} (hu : resumesFrom w e = some u)
      (hl : u.requests.values = l ++ r :: l')
      (hrun : (l.forM Request.resumeProducing).run u = .ok ⟨⟩ v)
      (hp : (v.objs r).producer = some p) :
      Goes w e (v.setProducer p fun q => { q with producing := true }) p
  /-- As a delayed call. -/
  | scheduled {k p : ℕ} {c : DelayedCall} (hc : w.calls[k]? = some c) (ha : c.active = true)
      (hgo : c.func = .go p) : Goes w (.call k) (w.called k) p

/-- The file of the producer raises when the producer goes. -/
def FetchFails (v : World) (p : ℕ) (x : Exn) : Prop :=
  Live v p ∧ (v.files (v.producers p).fh).fetch (v.producers p)
    (v.objs (v.producers p).request).kind.maxPayloadSize = .error x

/-- In the event, the file raises at a step of a producer of the request. -/
def ReadFails (w : World) (e : Event) (r : ℕ) (x : Exn) : Prop :=
  ∃ v p, Goes w e v p ∧ (v.producers p).request = r ∧ FetchFails v p x

/-- The request got the error and is no longer registered. -/
structure Reported (r : ℕ) (x : Exn) (w : World) : Prop where
  deferred : (w.objs r).deferred = some (.errback x)
  unregistered : Unregistered w r

/-- In the event, an error of the file of a registered request is reported. -/
def Reports (w : World) (e : Event) : Prop :=
  ∀ i r x, w.requests.get? i = some r → ReadFails w e r x → Reported r x (w.step e)

/-- In the event, the file of a registered request raises in `processMessage` only. -/
def Guards (w : World) (e : Event) : Prop :=
  ∀ i r x, w.requests.get? i = some r → ReadFails w e r x → ∃ m raises, e = .message m raises

/-! ### The calls of a file that raise -/

/-- Between the states, a call of a method of the file raised. -/
def Raised (s t : World) (fh : ℕ) (x : Exn) : Prop :=
  ∃ ops, (s.files fh).ops <+: ops ∧ ops ≠ (s.files fh).ops ∧ ops <+: (t.files fh).ops ∧
    (s.files fh).behave ops = .error x

/-- Files are called, and the calls that raise are of a kind. -/
structure Heard (P : ℕ → Exn → Prop) (s t : World) : Prop where
  behave : ∀ fh, (t.files fh).behave = (s.files fh).behave
  ops : ∀ fh, (s.files fh).ops <+: (t.files fh).ops
  raised : ∀ fh x, Raised s t fh x → P fh x

variable {P : ℕ → Exn → Prop}

/-- A call that raised is in the first part of the way or in the second. -/
lemma Heard.split (hs : Heard P s t) (ht : Heard P t u) (h : Raised s u fh x) :
    Raised s t fh x ∨ Raised t u fh x := by
  obtain ⟨ops, hpre, hne, hops, hraise⟩ := h
  rcases List.prefix_or_prefix_of_prefix hops (ht.ops fh) with hle | hle
  · exact Or.inl ⟨ops, hpre, hne, hle, hraise⟩
  · by_cases heq : ops = (t.files fh).ops
    · exact Or.inl ⟨ops, hpre, hne, heq ▸ List.prefix_rfl, hraise⟩
    · exact Or.inr ⟨ops, hle, heq, hops, by rw [hs.behave, hraise]⟩

lemma not_raised_of_files (h : t.files = s.files) : ¬Raised s t fh x := by
  rintro ⟨ops, hpre, hne, hops, -⟩
  rw [h] at hops
  exact hne (hops.eq_of_length_le hpre.length_le)

instance (P : ℕ → Exn → Prop) : IsPreorder World (Heard P) where
  refl _ :=
    ⟨fun _ => rfl, fun _ => List.prefix_rfl, fun _ _ h => absurd h (not_raised_of_files rfl)⟩
  trans _ _ _ h1 h2 := ⟨fun fh => (h2.behave fh).trans (h1.behave fh),
    fun fh => (h1.ops fh).trans (h2.ops fh),
    fun fh x h => (h1.split h2 h).elim (h1.raised fh x) (h2.raised fh x)⟩

lemma heard_of_files (h : t.files = s.files) : Heard P s t :=
  ⟨fun _ => by rw [h], fun _ => by rw [h], fun _ _ hr => absurd hr (not_raised_of_files h)⟩

lemma Heard.mono {P' : ℕ → Exn → Prop} (h : Heard P s t) (hP : ∀ fh x, P fh x → P' fh x) :
    Heard P' s t := { h with raised := fun fh x hr => hP fh x (h.raised fh x hr) }

lemma Heard.of_files_left (h : Heard P s t) (hu : u.files = s.files) : Heard P u t :=
  trans_of (Heard P) (heard_of_files hu.symm) h

lemma heard_fileOp {op : FileOp}
    (h : ∀ x, (w.files fh).behave ((w.files fh).ops ++ [op]) = .error x → P fh x) :
    Heard P w (after (fileOp fh op) w) := by
  have hafter : after (fileOp fh op) w = w.fetched fh [op] := by
    unfold after
    rw [fileOp_run]
    cases (w.files fh).behave ((w.files fh).ops ++ [op]) <;> rfl
  rw [hafter]
  have hfiles : ∀ fh' ≠ fh, (w.fetched fh [op]).files fh' = w.files fh' := fun fh' hne =>
    Function.update_of_ne hne _ _
  refine ⟨fun fh' => ?_, fun fh' => ?_, fun fh' x hr => ?_⟩
  · by_cases hne : fh' = fh
    · rw [hne, fetched_files_self]
    · rw [hfiles fh' hne]
  · by_cases hne : fh' = fh
    · rw [hne, fetched_files_self]
      exact List.prefix_append _ _
    · rw [hfiles fh' hne]
  · obtain ⟨ops, hpre, hlonger, hops, hraise⟩ := hr
    by_cases hne : fh' = fh
    · subst hne
      rw [fetched_files_self] at hops
      rcases List.prefix_concat_iff.mp hops with rfl | hle
      · exact h x hraise
      · exact absurd (hle.eq_of_length_le hpre.length_le) hlonger
    · rw [hfiles fh' hne] at hops
      exact absurd (hops.eq_of_length_le hpre.length_le) hlonger

lemma heard_fetch {q : Producer} {size : ℕ}
    (h : ∀ x, (w.files q.fh).fetch q size = .error x → P q.fh x) :
    Heard P w (after (fetch q size) w) := by
  unfold File.fetch at h
  unfold fetch seekOffset
  by_cases ho : q.offset ≠ 0
  · rw [if_pos ho] at h
    rw [if_pos ho, bind_assoc]
    have hseek : Heard P w (after (fileOp q.fh (.seek q.offset)) w) :=
      heard_fileOp fun x hx => h x (by rw [hx])
    refine after_bind_of (fun data t ht => ?_) fun e t ht => ?_
    · rw [after_of_ok ht] at hseek
      refine trans_of (Heard P) hseek ?_
      show Heard P t (after (fileOp q.fh (.read size)) t)
      rw [fileOp_run] at ht
      cases hdata : (w.files q.fh).behave ((w.files q.fh).ops ++ [.seek q.offset]) with
      | error e => rw [hdata] at ht; cases ht
      | ok data' =>
        rw [hdata] at ht
        cases ht
        refine heard_fileOp fun x hx => h x ?_
        rw [fetched_files_self, List.append_assoc] at hx
        rw [hdata]
        exact hx
    · rwa [after_of_error ht] at hseek
  · rw [if_neg ho] at h
    rw [if_neg ho]
    exact heard_fileOp h

/-! ### Programs that call no file -/

lemma files_request (r : ℕ) (m : Message) :
    Within (Frame World.files) (Request.sendMessage r m) :=
  along_sendMessage fun _ w => (slows_sendMessage _ w).files

lemma files_sendData (p : ℕ) (q : Producer) (data : Bytes) :
    Within (Frame World.files) (sendData p q data) :=
  along_sendData files_request (fun _ _ => rfl) (fun _ => rfl) fun _ => rfl

lemma files_settle (r : ℕ) (o : Outcome) : Within (Frame World.files) (Request.settle r o) := by
  have hfault : ∀ f, Within (Frame World.files) (fault f) := fun _ => within_modify fun _ => rfl
  exact along_settle (along_cleanup (fun _ => rfl) (fun _ _ => rfl) (fun _ _ => rfl) hfault) hfault
    fun _ => rfl

lemma files_cancel (r : ℕ) : Within (Frame World.files) (Request.cancel r) := by
  refine along_cancel (fun _ => rfl) (along_customCancel (fun w => ?_) (files_request r _))
  unfold withProducer
  split <;> rfl

lemma files_startExchange (r : ℕ) : Within (Frame World.files) (startExchange r) :=
  along_startExchange (files_request r) (fun _ => rfl) (files_settle r _)

lemma files_notify (m : Message) (raises : Option Exn) :
    Within (Frame World.files) (notify m raises) :=
  along_notify fun _ _ => rfl

lemma files_handle (m : Message) (raises : Option Exn) :
    Within (Frame World.files) (handle m raises) :=
  along_handle (within_modify fun w => (slows_sendMessage _ w).files) (within_modify fun _ => rfl)
    (files_notify m raises)

lemma files_errorOf (j : ℤ) (e : Exn) : Within (Frame World.files) (errorOf j e) :=
  along_errorOf fun r => files_settle r _

lemma files_unregisterSelf (w : World) : (unregisterSelf w).files = w.files :=
  along_unregisterSelf (R := Frame World.files) (along_cancelDelayedCall fun _ _ => rfl) w

lemma files_lost (reason : Exn) : Within (Frame World.files) (connectionLost reason) :=
  along_lost files_unregisterSelf fun r =>
    along_loseRequest (fun w => (slows_stopRequest r w).files) (files_cancel r) (files_settle r _)

/-! ### Steps and events -/

lemma heard_go (h : ∀ x, FetchFails v p x → P (v.producers p).fh x) :
    Heard P v (after (BytesMessageProducer.go p) v) := by
  by_cases hlive : Live v p
  · rw [after_congr (go_live hlive)]
    exact after_bind_trans (heard_fetch fun x hx => h x ⟨hlive, hx⟩) fun data t _ =>
      heard_of_files (files_sendData p _ data t)
  · rw [after_of_ok (go_idle hlive)]
    exact refl_of (Heard P) v

/-- Resuming a request lets its producer go. -/
lemma heard_resumeRequest (h : ∀ p x, (v.objs r).producer = some p →
    FetchFails (v.setProducer p fun q => { q with producing := true }) p x →
    P (v.producers p).fh x) : Heard P v (after (Request.resumeProducing r) v) := by
  refine after_bind_trans ?_ fun _ t _ => heard_of_files rfl
  unfold resumeProducer
  rw [after_get_bind]
  cases hp : (v.objs r).producer with
  | none => exact refl_of (Heard P) v
  | some p =>
    let u := v.setProducer p fun q => { q with producing := true }
    have hgo : Heard P u (after (BytesMessageProducer.go p) u) :=
      heard_go fun x hx => by simpa [u] using h p x hp hx
    exact hgo.of_files_left rfl

/-- Resuming some of the requests, after others were. -/
lemma heard_resumeAll (l' : List ℕ) : ∀ {l : List ℕ} {v : World},
    u.requests.values = l ++ l' → (l.forM Request.resumeProducing).run u = .ok ⟨⟩ v →
    (∀ l r l' v p x, u.requests.values = l ++ r :: l' →
      (l.forM Request.resumeProducing).run u = .ok ⟨⟩ v → (v.objs r).producer = some p →
      FetchFails (v.setProducer p fun q => { q with producing := true }) p x →
      P (v.producers p).fh x) →
    Heard P v (after (l'.forM Request.resumeProducing) v) := by
  induction l' with
  | nil => exact fun _ _ _ => refl_of (Heard P) _
  | cons r l' ih =>
    intro l v hl hrun hP
    refine after_bind_trans (heard_resumeRequest fun p x => hP l r l' v p x hl hrun)
      fun _ t ht => ?_
    have hnext : ((l ++ [r]).forM Request.resumeProducing).run u = .ok ⟨⟩ t := by
      rw [List.forM_eq_forM, List.forM_append]
      show (l.forM Request.resumeProducing >>= fun _ =>
        Request.resumeProducing r >>= fun _ => pure PUnit.unit).run u = _
      rw [run_bind_ok hrun, run_bind_ok ht]
      rfl
    exact ih (by rw [hl, List.append_assoc, List.singleton_append]) hnext hP

lemma files_resumesFrom {e : Event} (h : resumesFrom w e = some u) : u.files = w.files := by
  rcases resumesFrom_cases h with ⟨-, rfl⟩ | ⟨k, c, -, -, -, -, -, rfl⟩ <;> rfl

/-- What a request does in reply to a message. -/
lemma heard_carryOut {m : Message} {raises : Option Exn} (hm : validateMessage m = [])
    (hr : w.requests.get? m.id = some r)
    (h : ∀ v p x, Goes w (.message m raises) v p → FetchFails v p x → P (v.producers p).fh x) :
    Heard P (w.read r m raises)
      (after (carryOut r m raises (w.reply r m raises)) (w.read r m raises)) := by
  cases hreply : w.reply r m raises with
  | stay => exact refl_of (Heard P) _
  | done => exact heard_of_files (files_settle r _ _)
  | error e => exact heard_of_files (files_settle r _ _)
  | raise e => exact refl_of (Heard P) _
  | notify => exact heard_of_files (files_notify m raises _)
  | produce offset =>
    have hrun := produce_run_step (w.read r m raises) r offset
    split at hrun
    · next hprod =>
      rw [carryOut, after_congr hrun]
      have hgoes := Goes.made hm hr hreply (by simpa [World.read] using hprod)
      exact (heard_go fun x => h _ _ x hgoes).of_files_left rfl
    · rw [carryOut, after_of_ok hrun]
      exact heard_of_files rfl

lemma heard_message {m : Message} {raises : Option Exn} (hw : Registry w)
    (hm : validateMessage m = [])
    (h : ∀ v p x, Goes w (.message m raises) v p → FetchFails v p x → P (v.producers p).fh x) :
    Heard P w (w.step (.message m raises)) := by
  cases hr : w.requests.get? m.id with
  | none =>
    show Heard P w (after (processMessage m raises) w)
    rw [processMessage_valid hm, after_congr (dispatch_unregistered hr raises)]
    exact heard_of_files (files_handle m raises w)
  | some r =>
    rw [Registered.message_run ⟨hw, hr⟩ hm]
    have hread : Heard P (w.read r m raises) (after (tryCatch (carryOut r m raises
        (w.reply r m raises)) (errorOf m.id) : M PUnit) (w.read r m raises)) :=
      after_tryCatch_trans (heard_carryOut hm hr h) fun e t _ =>
        heard_of_files (files_errorOf m.id e t)
    exact hread.of_files_left rfl

/-- An unthrottle that does not resume the handler. -/
lemma files_unthrottle {d : Dir} (h : d = .writes → w.factory.bind Factory.client ≠ some .self) :
    (after (Factory.unthrottle d) w).files = w.files := by
  have hclient : (w.setFlow d fun f => { f with unthrottleId := none }).factory.bind
      Factory.client = w.factory.bind Factory.client := client_of_setFlow w d _
  unfold Factory.unthrottle modifyFlow
  rw [after_modify_bind, after_get_bind, hclient]
  split
  · rfl
  · rfl
  · next hself =>
    cases d with
    | reads => rfl
    | writes => exact absurd hself (h rfl)

lemma heard_runCall {k : ℕ} (hnone : resumesFrom w (.call k) = none)
    (h : ∀ v p x, Goes w (.call k) v p → FetchFails v p x → P (v.producers p).fh x) :
    Heard P w (w.step (.call k)) := by
  show Heard P w (after (runCall k) w)
  rcases after_runCall k w with he | ⟨c, hk, hc, he⟩ <;> rw [he]
  · exact refl_of (Heard P) w
  cases hfunc : c.func with
  | go p => exact (heard_go fun x => h _ p x (.scheduled hk hc hfunc)).of_files_left rfl
  | reset d => exact heard_of_files rfl
  | unthrottle d =>
    refine heard_of_files (files_unthrottle (w := w.called k) fun hd hself => ?_)
    subst hd
    have hself' : w.factory.bind Factory.client = some .self := hself
    simp only [resumesFrom, hk, hc, hfunc, true_and] at hnone
    rw [if_pos hself'] at hnone
    cases hnone

/-- **A file raises only at a step of a producer**: whatever an event calls, an exception of a file
comes to one of the steps it takes. -/
theorem goes_of_raised (hw : Registry w) {e : Event} (he : AdmitsAny w e)
    (h : Raised w (w.step e) fh x) :
    ∃ v p, Goes w e v p ∧ (v.producers p).fh = fh ∧ FetchFails v p x := by
  let P : ℕ → Exn → Prop := fun fh x =>
    ∃ v p, Goes w e v p ∧ (v.producers p).fh = fh ∧ FetchFails v p x
  have hP : ∀ v p x, Goes w e v p → FetchFails v p x → P (v.producers p).fh x :=
    fun v p x hgoes hfail => ⟨v, p, hgoes, rfl, hfail⟩
  suffices hheard : Heard P w (w.step e) from hheard.raised fh x h
  by_cases hrej : Rejected e
  · exact along_rejected (R := Heard P) hrej (fun _ _ => heard_of_files rfl)
      (fun m w _ => heard_of_files (slows_sendMessage m w).files) w
  replace he := he.admits hrej
  cases hres : resumesFrom w e with
  | some u =>
    rw [step_of_resumesFrom hres]
    refine Heard.of_files_left (s := u) ?_ (files_resumesFrom hres).symm
    refine after_bind_trans (x := u.requests.values.forM Request.resumeProducing) ?_
      fun _ t _ => heard_of_files rfl
    refine heard_resumeAll u.requests.values (l := []) rfl rfl
      fun l r l' v p x hl hrun hp hfail => ?_
    simpa using hP _ p x (.resumed hres hl hrun hp) hfail
  | none =>
    cases e with
    | start r =>
      show Heard P w (after (start r) w)
      rw [after_congr (start_run hw he.1 he.2)]
      exact (heard_of_files (files_startExchange r _)).of_files_left rfl
    | read n => exact heard_of_files (slows_registerOwn .reads n w).files
    | message m raises => exact heard_message hw he hP
    | cancel r => exact heard_of_files (files_cancel r w)
    | call k => exact heard_runCall hres hP
    | pause => exact heard_of_files (slows_pause w).files
    | resume => cases hres
    | stop => exact heard_of_files (slows_stop w).files
    | done r => exact heard_of_files (files_settle r _ w)
    | error r e => exact heard_of_files (files_settle r _ w)
    | lost reason => exact heard_of_files (files_lost reason w)

/-! ### What is reported -/

lemma FetchFails.run (h : FetchFails v p x) :
    ∃ ops, (BytesMessageProducer.go p).run v = .error x (v.fetched (v.producers p).fh ops) := by
  obtain ⟨ops, hrun⟩ := fetch_error (w := v) h.2
  exact ⟨ops, by rw [go_live h.1, run_bind_error hrun]⟩

/-- What the first step of a new producer raises is reported. -/
lemma Registered.reported {m : Message} {raises : Option Exn} {offset : ℕ}
    (hw : Registered w r m.id) (hm : validateMessage m = [])
    (hreply : w.reply r m raises = .produce offset) (hprod : (w.objs r).producing = true)
    (hfail : FetchFails ((w.read r m raises).firstStep r offset) w.nextProducer x) :
    Reported r x (w.step (.message m raises)) := by
  have hread := hw.read m raises
  have hproduce := produce_run_step (w.read r m raises) r offset
  rw [if_pos (by simpa [World.read] using hprod)] at hproduce
  obtain ⟨t, ht⟩ : ∃ t, (Client.produce r offset).run (w.read r m raises) = .error x t := by
    obtain ⟨ops, hgo⟩ := hfail.run
    exact ⟨_, hproduce.trans hgo⟩
  have hreg := (hread.produce offset).2
  rw [after_of_error ht] at hreg
  have hstep : w.step (.message m raises) = t.finish r m.id (.errback x) := by
    rw [hw.message_run hm, hreply]
    refine after_of_ok (a := ⟨⟩) ?_
    rw [run_tryCatch, carryOut, ht]
    exact errorOf_run hreg x
  rw [hstep]
  exact ⟨by rw [finish_objs_self], unregistered_finish hreg.toRegistry.entries hreg.get? _⟩

/-- Other steps of producers leave the requests as they are. -/
lemma Goes.core {e : Event} (h : Goes w e v p) (he : ∀ m raises, e ≠ .message m raises) :
    (w.step e).core = w.core := by
  cases h with
  | made _ _ _ _ => exact absurd rfl (he _ _)
  | scheduled _ _ _ => exact frame_runCall _ w
  | resumed hu _ _ _ =>
    cases e with
    | resume => exact frame_resume w
    | call k => exact frame_runCall k w
    | _ => cases hu

/-- **An error that a file raises is reported** exactly when it was raised in `processMessage`. -/
lemma reported_iff (hw : Registry w) (hr : w.requests.get? i = some r) {e : Event}
    (h : ReadFails w e r x) :
    Reported r x (w.step e) ↔ ∃ m raises, e = .message m raises := by
  obtain ⟨v, p, hgoes, hreq, hfail⟩ := h
  constructor
  · intro hrep
    by_contra hne
    have hcore := hgoes.core fun m raises he => hne ⟨m, raises, he⟩
    have hself : (w.step e).requests = w.requests := requests_of_ledger (ledger_of_core hcore)
    refine hrep.unregistered i ?_
    rw [hself]
    exact hr
  · rintro ⟨m, raises, rfl⟩
    cases hgoes with
    | resumed hu _ _ _ => cases hu
    | @made _ _ r' offset hm hr' hreply hprod =>
      have hmade := firstStep_producers_self (w.read r' m raises) r' offset
      obtain rfl : r' = r := (congrArg Producer.request hmade).symm.trans hreq
      exact Registered.reported ⟨hw, hr'⟩ hm hreply hprod hfail

/-- **A read error is reported exactly when it is raised in `processMessage`**, in every run. -/
theorem readErrors_iff {w₀ : World} (h₀ : Initial w₀) {es : List Event}
    (hes : Runs.Legal World.step AdmitsAny w₀ es) :
    Runs.Legal World.step Reports w₀ es ↔ Runs.Legal World.step Guards w₀ es := by
  have hstep : ∀ {w : World} {e : Event}, Registry w → (Reports w e ↔ Guards w e) := fun hw =>
    forall₃_congr fun i r x => forall_congr' fun hr => forall_congr' fun h => reported_iff hw hr h
  have hrun : ∀ {es : List Event} {w : World}, Registry w → Runs.Legal World.step AdmitsAny w es →
      (Runs.Legal World.step Reports w es ↔ Runs.Legal World.step Guards w es) := by
    intro es
    induction es with
    | nil => exact fun _ _ => Iff.rfl
    | cons e es ih => exact fun hw hes => and_congr (hstep hw) (ih (hw.stepAny hes.1) hes.2)
  exact hrun h₀.registry hes

/-! ### A file that raises at the second read -/

/-- A client that is to upload files that answer some calls and then raise. -/
def unreadable (answered : ℕ) : World :=
  { uploading [] with
    files := fun _ => ⟨fun ops => if ops.length ≤ answered then .ok [1] else .error (.foreign 0),
      []⟩ }

lemma initial_unreadable (answered : ℕ) : Initial (unreadable answered) := initial_init _ _

/-- The upload begins, and its next step is taken. -/
def secondRead : List Event := [.start 0, .message beginContent none, .call 0]

/-- The reactor is told, and the request is not. -/
theorem not_readErrors : ¬∀ (w₀ : World) (es : List Event), Initial w₀ →
    Runs.Legal World.step AdmitsAny w₀ es → Runs.Legal World.step Reports w₀ es := by
  intro h
  have hlegal : Runs.Legal World.step AdmitsAny (unreadable 1) secondRead :=
    ⟨⟨rfl, rfl⟩, trivial, trivial, trivial⟩
  have hreports := h _ _ (initial_unreadable 1) hlegal
  rw [readErrors_iff (initial_unreadable 1) hlegal] at hreports
  obtain ⟨m, raises, he⟩ := hreports.2.2.1 1 0 (.foreign 0) rfl
    ⟨_, 0, .scheduled rfl rfl rfl, rfl, ⟨rfl, rfl, rfl⟩, rfl⟩
  cases he

/-- The first read raises in `processMessage`. -/
theorem readErrors_iff_first :
    Runs.Legal World.step Reports (unreadable 0) (secondRead.take 2) := by
  have hlegal : Runs.Legal World.step AdmitsAny (unreadable 0) (secondRead.take 2) :=
    ⟨⟨rfl, rfl⟩, trivial, trivial⟩
  refine (readErrors_iff (initial_unreadable 0) hlegal).mpr
    ⟨?_, fun _ _ _ _ _ => ⟨_, _, rfl⟩, trivial⟩
  rintro i r x - ⟨v, p, hgoes, -⟩
  cases hgoes with
  | resumed hu => cases hu

end Magicicada.Client
