import Magicicada.Unthrottle

/-!
What keeps an upload going: its request and its producer produce, and a step of the producer is
scheduled.

The handler's own flag tells whether something was paused on the way: only `pauseProducing` and
`stopProducing` clear it, and nothing but the end of `resumeProducing` sets it.
-/

namespace Magicicada.Client

open Pb Errors Requests Prog

variable {s t u w : World} {r p : ℕ} {i : ℤ}

/-! ### Unless it is paused -/

/-- If the handler still produces in `t` it has not been paused since `s`, so no flag of a request
or of a producer has been cleared. -/
def Calm (s t : World) : Prop :=
  t.producing = true → s.producing = true ∧ t.objs = s.objs ∧ t.producers = s.producers

instance : IsPreorder World Calm where
  refl _ h := ⟨h, rfl, rfl⟩
  trans _ _ _ h1 h2 h := by
    obtain ⟨hs, hobjs, hproducers⟩ := h2 h
    obtain ⟨hs', hobjs', hproducers'⟩ := h1 hs
    exact ⟨hs', hobjs.trans hobjs', hproducers.trans hproducers'⟩

lemma calm_of_eq (hflag : t.producing = s.producing) (hobjs : t.objs = s.objs)
    (hproducers : t.producers = s.producers) : Calm s t :=
  fun h => ⟨hflag ▸ h, hobjs, hproducers⟩

lemma calm_pause (w : World) : Calm w (Handler.pauseProducing w) := fun h => nomatch h

lemma calm_stop (w : World) : Calm w (Handler.stopProducing w) := fun h => nomatch h

lemma calm_setFlow (w : World) (d : Dir) (f : Flow → Flow) : Calm w (w.setFlow d f) :=
  calm_of_eq rfl rfl rfl

lemma calm_maybeCallLater (k : Option ℕ) (delay : ℚ) (f : Func) (w : World) :
    Calm w (maybeCallLater k delay f w).2 := by
  unfold maybeCallLater
  repeat' split
  all_goals exact calm_of_eq rfl rfl rfl

lemma calm_throttle (d : Dir) (w : World) : Calm w (Factory.throttle d w) := by
  unfold Factory.throttle
  split
  · exact refl_of Calm w
  · exact calm_setFlow w d _
  · refine trans_of Calm (calm_setFlow w d fun f => { f with throttling := true }) ?_
    cases d with
    | reads => exact calm_of_eq rfl rfl rfl
    | writes => exact calm_pause _

lemma calm_checkBandwidth (d : Dir) (w : World) : Calm w (checkBandwidth d w) := by
  unfold checkBandwidth
  split
  · exact refl_of Calm w
  · split
    · exact trans_of Calm (calm_throttle d w)
        (trans_of Calm (calm_maybeCallLater _ _ _ _) (calm_setFlow _ d _))
    · exact refl_of Calm w

lemma calm_registerOwn (d : Dir) (n : ℕ) (w : World) : Calm w (registerOwn d n w) := by
  unfold registerOwn register
  repeat' split
  all_goals first
    | exact refl_of Calm w
    | exact trans_of Calm (calm_setFlow w d _) (calm_checkBandwidth d _)

lemma calm_write (n : ℕ) (w : World) : Calm w (write n w) := by
  refine trans_of Calm (calm_registerOwn .writes n w) ?_
  show Calm _ (transportWrite _)
  unfold transportWrite
  simp only
  split
  · exact fun h => nomatch h
  · exact calm_of_eq rfl rfl rfl

lemma calm_sendMessage (m : Message) (w : World) : Calm w (sendMessage m w) :=
  trans_of Calm (calm_write _ w) (trans_of Calm (calm_write _ _) (calm_of_eq rfl rfl rfl))

/-! ### Uploads that go on -/

/-- The producer the request has now, if it is not finished and the request not cancelled,
produces, and `P` holds of it. -/
def Sends (w : World) (r : ℕ) (P : ℕ → Prop) : Prop :=
  ∀ p, (w.objs r).producer = some p → (w.objs r).cancelled = false →
    (w.producers p).finished = false → (w.producers p).producing = true ∧ P p

/-- A request that produces, and whose upload goes on. -/
def Flowing (w : World) (r : ℕ) : Prop :=
  (w.objs r).producing = true ∧ Sends w r (Pending w)

lemma Sends.mono {P Q : ℕ → Prop} (h : Sends w r P) (hPQ : ∀ p, P p → Q p) : Sends w r Q :=
  fun p hp hc hf => ⟨(h p hp hc hf).1, hPQ p (h p hp hc hf).2⟩

lemma Sends.congr {P : ℕ → Prop} (h : Sends s r P) (hobjs : t.objs = s.objs)
    (hproducers : t.producers = s.producers) : Sends t r P := by
  unfold Sends
  rw [hobjs, hproducers]
  exact h

lemma Slows.pending_mono (h : Slows s t) (hp : Pending s p) : Pending t p := by
  obtain ⟨c, hc, hgo⟩ := hp
  obtain ⟨l, hl, -⟩ := h.calls
  exact ⟨c, hl ▸ List.mem_append_left l hc, hgo⟩

lemma pending_callLater (w : World) (p : ℕ) : Pending (callLater 0 (.go p) w) p :=
  ⟨{ func := .go p, delay := 0 }, List.mem_append_right _ (List.mem_singleton_self _), rfl, rfl⟩

lemma Pending.callLater (h : Pending w p) (delay : ℚ) (f : Func) :
    Pending (callLater delay f w) p :=
  let ⟨c, hc, hgo⟩ := h
  ⟨c, List.mem_append_left _ hc, hgo⟩

/-- No call of a file raises, and a producer belongs to a request whose id can be sent. -/
structure Sound (w : World) : Prop extends Tidy False w where
  sendable : ∀ p < w.nextProducer, ∃ i,
    (w.objs (w.producers p).request).id = some i ∧ int32 i = true
  files : ∀ fh ops, ∃ data, (w.files fh).behave ops = .ok data

/-- From `s` to `t` no request is registered, and unless the handler is paused each upload that
went on goes on. -/
structure Carries (s t : World) : Prop where
  requests : ∀ i r, t.requests.get? i = some r → s.requests.get? i = some r
  flowing : t.producing = true → s.producing = true ∧ ∀ r, Flowing s r → Flowing t r

instance : IsPreorder World Carries where
  refl _ := ⟨fun _ _ => id, fun h => ⟨h, fun _ => id⟩⟩
  trans _ _ _ h1 h2 := by
    refine ⟨fun i r h => h1.requests i r (h2.requests i r h), fun h => ?_⟩
    obtain ⟨hs, hflow⟩ := h2.flowing h
    obtain ⟨hs', hflow'⟩ := h1.flowing hs
    exact ⟨hs', fun r hr => hflow r (hflow' r hr)⟩

/-- What keeps a state sound and carries its uploads on. -/
def Smooth (s t : World) : Prop := Sound s → Sound t ∧ Carries s t

instance : IsPreorder World Smooth where
  refl s h := ⟨h, refl_of Carries s⟩
  trans _ _ _ h1 h2 h := by
    obtain ⟨hs, hc⟩ := h1 h
    obtain ⟨hs', hc'⟩ := h2 hs
    exact ⟨hs', trans_of Carries hc hc'⟩

/-- The producers and the files are as they were, and the ids stay. -/
lemma Sound.of (hs : Sound s) (ht : Tidy False t) (hnext : t.nextProducer = s.nextProducer)
    (hrequest : ∀ p, (t.producers p).request = (s.producers p).request)
    (hid : ∀ r i, (s.objs r).id = some i → (t.objs r).id = some i)
    (hfiles : ∀ fh, (t.files fh).behave = (s.files fh).behave) : Sound t where
  toTidy := ht
  sendable p hp := by
    obtain ⟨i, hi, hint⟩ := hs.sendable p (hnext ▸ hp)
    exact ⟨i, by rw [hrequest]; exact hid _ i hi, hint⟩
  files fh ops := by
    rw [hfiles]
    exact hs.files fh ops

lemma Sound.of_slows (hs : Sound s) (h : Slows s t) : Sound t :=
  hs.of (hs.toTidy.of_slows h) (nextProducer_of_core h.core) h.producer_request
    (fun r _ hr => (obj_of_core h.core r).1.trans hr) fun fh => by rw [h.files]

lemma smooth_slows (h : Slows s t) (hc : Calm s t) : Smooth s t := by
  refine fun hs => ⟨hs.of_slows h, fun i r hr => ?_, fun ht => ?_⟩
  · rwa [h.requests] at hr
  · obtain ⟨hflag, hobjs, hproducers⟩ := hc ht
    refine ⟨hflag, fun r hr => ⟨hobjs ▸ hr.1, ?_⟩⟩
    exact (hr.2.congr hobjs hproducers).mono fun p => h.pending_mono

lemma smooth_sendMessage (m : Message) (w : World) : Smooth w (sendMessage m w) := by
  have hsent : Smooth w { w with sent := w.sent ++ [m] } := fun hw =>
    ⟨hw.of (hw.toTidy.sent m) rfl (fun _ => rfl) (fun _ _ => id) fun _ => rfl,
      ⟨fun _ _ => id, fun h => ⟨h, fun _ hr => hr⟩⟩⟩
  refine trans_of Smooth hsent (smooth_slows (slows_sendMessage m w) fun h => ?_)
  exact calm_sendMessage m w h

/-- Nothing about uploads changes, except that requests may be cancelled. -/
lemma smooth_still (h : Still s t) (hfiles : t.files = s.files) (hflag : t.producing = s.producing)
    (hobj : ∀ r, (t.objs r).producing = (s.objs r).producing) : Smooth s t := by
  refine fun hs => ⟨hs.of (hs.toTidy.still h) h.nextProducer (fun p => by rw [h.producers])
    (fun r i hr => (obj_of_ledger h.ledger r).1.trans hr) fun fh => by rw [hfiles],
    fun i r hr => ?_, fun ht =>
      ⟨hflag ▸ ht, fun r hr => ⟨(hobj r).trans hr.1, fun p hp hc hf => ?_⟩⟩⟩
  · rwa [requests_of_ledger h.ledger] at hr
  · have hprod : (t.objs r).producer = (s.objs r).producer :=
      congrArg (fun w => (w.objs r).producer) h.ledger
    have hcancelled : (s.objs r).cancelled = false :=
      Bool.eq_false_of_not_eq_true fun hct => by simp [h.cancelled r hct] at hc
    rw [h.producers] at hf ⊢
    obtain ⟨hgo, hpend⟩ := hr.2 p (hprod ▸ hp) hcancelled hf
    refine ⟨hgo, ?_⟩
    unfold Pending
    rwa [h.calls]

/-! ### A step -/

/-- Whose the producers are, and what the files answer. -/
def World.owners (w : World) : (ℕ → ℕ) × (ℕ → List FileOp → Except Exn Bytes) :=
  (fun p => (w.producers p).request, fun fh => (w.files fh).behave)

lemma owners_setProducer (w : World) (p : ℕ) {f : Producer → Producer}
    (hf : ∀ q, (f q).request = q.request) : (w.setProducer p f).owners = w.owners := by
  refine Prod.ext (funext fun p' => ?_) rfl
  show ((w.setProducer p f).producers p').request = (w.producers p').request
  by_cases h : p' = p
  · subst h
    rw [setProducer_producers_self, hf]
  · rw [setProducer_producers_of_ne h]

lemma owners_sendMessage (m : Message) (w : World) : (sendMessage m w).owners = w.owners := by
  have h := slows_sendMessage m w
  refine Prod.ext (funext fun p => h.producer_request p) (funext fun fh => ?_)
  show ((sendMessage m w).files fh).behave = _
  rw [h.files]
  rfl

lemma owners_request (r : ℕ) (m : Message) :
    Within (Frame World.owners) (Request.sendMessage r m) :=
  along_sendMessage fun _ => owners_sendMessage _

lemma owners_fileOp (fh : ℕ) (op : FileOp) : Within (Frame World.owners) (fileOp fh op) := by
  intro w
  have hbehave : (w.fetched fh [op]).owners = w.owners := by
    refine Prod.ext rfl (funext fun fh' => ?_)
    show ((w.fetched fh [op]).files fh').behave = _
    by_cases h : fh' = fh
    · subst h
      rw [fetched_files_self]
      rfl
    · exact congrArg File.behave (Function.update_of_ne h ..)
  have hrun := fileOp_run fh op w
  unfold after
  rw [hrun]
  split <;> rename_i h <;> split at h <;> cases h <;> exact hbehave

lemma owners_go (p : ℕ) : Within (Frame World.owners) (BytesMessageProducer.go p) := by
  refine along_go owners_fileOp fun _ _ => along_sendData owners_request (fun w n => ?_)
    (fun w => owners_setProducer w p fun _ => rfl) fun _ => rfl
  exact owners_setProducer w p fun q => by split <;> rfl

lemma advanced_flags (w : World) (p n p' : ℕ) :
    ((w.advanced p n).producers p').producing = (w.producers p').producing ∧
      ((w.advanced p n).producers p').finished = (w.producers p').finished := by
  unfold World.advanced
  by_cases h : p' = p
  · subst h
    rw [setProducer_producers_self]
    split <;> exact ⟨rfl, rfl⟩
  · rw [setProducer_producers_of_ne h]
    exact ⟨rfl, rfl⟩

/-- What producing leaves alone keeps a state sound. -/
lemma Sound.of_core (hs : Sound s) (ht : Tidy False t) (hcore : t.core = s.core)
    (howners : t.owners = s.owners) : Sound t :=
  hs.of ht (nextProducer_of_core hcore) (congrFun (congrArg Prod.fst howners))
    (fun r _ hr => (obj_of_core hcore r).1.trans hr) (congrFun (congrArg Prod.snd howners))

lemma fetch_ne_error {f : File} (hf : ∀ ops, ∃ data, f.behave ops = .ok data) (q : Producer)
    (n : ℕ) (e : Exn) : f.fetch q n ≠ .error e := by
  have hok : ∀ ops e, f.behave ops ≠ .error e := fun ops e he => by
    obtain ⟨data, hdata⟩ := hf ops
    cases hdata.symm.trans he
  unfold File.fetch
  split
  · split
    · next e' he' => exact absurd he' (hok _ e')
    · exact hok _ e
  · exact hok _ e

/-- A producer whose next step is scheduled goes on with the others. -/
lemma Sends.scheduled (h : Sends s r fun p' => p' = p ∨ Pending s p') (hobjs : t.objs = s.objs)
    (hflags : ∀ p', (t.producers p').producing = (s.producers p').producing ∧
      (t.producers p').finished = (s.producers p').finished)
    (hpend : ∀ p', Pending s p' → Pending t p') :
    Sends (callLater 0 (.go p) t) r (Pending (callLater 0 (.go p) t)) := by
  intro p' hp hc hf
  replace hp : (t.objs r).producer = some p' := hp
  replace hc : (t.objs r).cancelled = false := hc
  rw [hobjs] at hp hc
  obtain ⟨hprod, hgo⟩ := h p' hp hc ((hflags p').2.symm.trans hf)
  refine ⟨(hflags p').1.trans hprod, ?_⟩
  rcases hgo with rfl | hgo
  · exact pending_callLater t p'
  · exact (hpend p' hgo).callLater 0 _

/-- A producer that ends leaves the others as they go on. -/
lemma Sends.ended (h : Sends s r fun p' => p' = p ∨ Pending s p') (hobjs : t.objs = s.objs)
    (hproducers : t.producers = s.producers) (hpend : ∀ p', Pending s p' → Pending t p') :
    Sends (t.ended p) r (Pending (t.ended p)) := by
  intro p' hp hc hf
  replace hp : (t.objs r).producer = some p' := hp
  replace hc : (t.objs r).cancelled = false := hc
  rw [hobjs] at hp hc
  have hne : p' ≠ p := by
    rintro rfl
    simp [World.ended] at hf
  have hsame : (t.ended p).producers p' = s.producers p' :=
    (setProducer_producers_of_ne hne _).trans (congrFun hproducers p')
  rw [hsame] at hf ⊢
  obtain ⟨hprod, hgo⟩ := h p' hp hc hf
  exact ⟨hprod, hpend p' (hgo.resolve_left hne)⟩

/-- **A step of a producer** does not raise, and unless the handler is paused it keeps uploads
going, also the one whose scheduled step it is. -/
lemma Sound.go (hw : Sound w) (hp : p < w.nextProducer) :
    ∃ t, (BytesMessageProducer.go p).run w = .ok ⟨⟩ t ∧ Sound t ∧ t.requests = w.requests ∧
      (t.producing = true → w.producing = true ∧ t.objs = w.objs ∧
        ∀ r, Sends w r (fun p' => p' = p ∨ Pending w p') → Sends t r (Pending t)) := by
  have hacts : Acts ⟨False, True, False⟩ w (after (BytesMessageProducer.go p) w) :=
    acts_go hp False.elim
  have hcore := frame_go p w
  have hsound := hw.of_core (hw.toTidy.of_acts hacts) hcore (owners_go p w)
  have hreq := requests_of_ledger (ledger_of_core hcore)
  have hspec := go_spec w p
  unfold after at hsound hreq
  generalize (BytesMessageProducer.go p).run w = res at hspec hsound hreq ⊢
  cases hspec with
  | idle hidle =>
    refine ⟨w, rfl, hsound, rfl, fun h => ⟨h, rfl, fun r hr p' hp' hc hf => ?_⟩⟩
    obtain ⟨hprod, rfl | hpend⟩ := hr p' hp' hc hf
    · exact absurd ⟨hprod, (hw.owner r p' hp').2.symm ▸ hc, hf⟩ hidle
    · exact ⟨hprod, hpend⟩
  | raised _ _ _ _ _ hwhy =>
    rcases hwhy with ⟨e, he⟩ | hbig
    · exact absurd he (fetch_ne_error (hw.files _) _ _ e)
    · obtain ⟨i, hi, hint⟩ := hw.sendable p hp
      rw [hbig i hi] at hint
      cases hint
  | @bytes hlive i hid hi data hdata hfetch =>
    let v := w.fetched (w.producers p).fh (fetchOps (w.producers p)
      (w.objs (w.producers p).request).kind.maxPayloadSize)
    let a := v.advanced p data.length
    let m : Message := { bytesMessage data with id := i }
    have hslows : Slows { a with sent := a.sent ++ [m] } (sendMessage m a) := slows_sendMessage m a
    refine ⟨_, rfl, hsound, hreq, fun h => ?_⟩
    obtain ⟨hflag, hobjs, hproducers⟩ := calm_sendMessage m a h
    refine ⟨hflag, hobjs, fun r hr => ?_⟩
    refine hr.scheduled hobjs (fun p' => ?_) fun p' hpend => hslows.pending_mono hpend
    rw [hproducers]
    exact advanced_flags v p data.length p'
  | @eof hlive i hid hi hfetch =>
    let v := w.fetched (w.producers p).fh (fetchOps (w.producers p)
      (w.objs (w.producers p).request).kind.maxPayloadSize)
    let m : Message := { eofMessage with id := i }
    have hslows : Slows { v with sent := v.sent ++ [m] } (sendMessage m v) := slows_sendMessage m v
    refine ⟨_, rfl, hsound, hreq, fun h => ?_⟩
    obtain ⟨hflag, hobjs, hproducers⟩ := calm_sendMessage m v h
    exact ⟨hflag, hobjs, fun r hr =>
      hr.ended hobjs hproducers fun p' hpend => hslows.pending_mono hpend⟩

/-! ### Resuming and beginning -/

lemma Sends.setProducing {P : ℕ → Prop} {r' : ℕ} (h : Sends w r' P) (r : ℕ) (b : Bool) :
    Sends (w.setObj r fun q => { q with producing := b }) r' P := by
  intro p hp hc hf
  by_cases hr : r' = r
  · subst hr
    rw [setObj_objs_self] at hp hc
    exact h p hp hc hf
  · rw [setObj_objs_of_ne hr] at hp hc
    exact h p hp hc hf

lemma sound_setProducing (hw : Sound w) (r : ℕ) (b : Bool) :
    Sound (w.setObj r fun q => { q with producing := b }) :=
  hw.of_core (hw.toTidy.still (still_setProducing w r b)) (core_setObj_producing w r b) rfl

lemma carries_setProducing (w : World) (r : ℕ) :
    Carries w (w.setObj r fun q => { q with producing := true }) := by
  refine ⟨fun _ _ => id, fun h => ⟨h, fun r' hr' => ⟨?_, hr'.2.setProducing r true⟩⟩⟩
  by_cases h : r' = r
  · subst h
    rw [setObj_objs_self]
  · rw [setObj_objs_of_ne h]
    exact hr'.1

/-- **Resuming a registered request** does not raise, and unless the handler is paused meanwhile
the request's upload goes on. -/
lemma Sound.resumeRequest (hw : Sound w) (hr : w.requests.get? i = some r) :
    ∃ t, (Request.resumeProducing r).run w = .ok ⟨⟩ t ∧ Sound t ∧ Carries w t ∧
      (t.producing = true → Flowing t r) := by
  cases hp : (w.objs r).producer with
  | none =>
    refine ⟨_, run_bind_ok (resumeProducer_none hp), sound_setProducing hw r true,
      carries_setProducing w r, fun _ => ⟨by simp, Sends.setProducing ?_ r true⟩⟩
    exact fun p hp' => nomatch hp.symm.trans hp'
  | some p =>
    let v := w.setProducer p fun q => { q with producing := true }
    have hv : Sound v := by
      have hact : Act ⟨False, True, False⟩ w v := .wake hr hp False.elim
      exact hw.of_core (hw.toTidy.of_act hact) rfl (owners_setProducer w p fun _ => rfl)
    have hself : v.producers p = { w.producers p with producing := true } :=
      setProducer_producers_self w p _
    obtain ⟨u, hrun, hu, hreq, hflow⟩ := hv.go (hw.owner r p hp).1
    refine ⟨_, run_bind_ok ((resumeProducer_some hp).trans hrun), sound_setProducing hu r true,
      trans_of Carries ⟨fun i r h => hreq ▸ h, fun h => ?_⟩ (carries_setProducing u r),
      fun h => ⟨by simp, Sends.setProducing ?_ r true⟩⟩
    · obtain ⟨hflag, hobjs, hsends⟩ := hflow h
      refine ⟨hflag, fun r' hr' => ⟨hobjs ▸ hr'.1, hsends r' fun p' hp' hc hf => ?_⟩⟩
      by_cases hne : p' = p
      · subst hne
        exact ⟨congrArg Producer.producing hself, Or.inl rfl⟩
      · have hsame : v.producers p' = w.producers p' := setProducer_producers_of_ne hne _
        rw [hsame] at hf ⊢
        obtain ⟨hprod, hpend⟩ := hr'.2 p' hp' hc hf
        exact ⟨hprod, Or.inr hpend⟩
    · refine (hflow h).2.2 r fun p' hp' _ _ => ?_
      obtain rfl : p = p' := Option.some.inj (hp.symm.trans hp')
      exact ⟨congrArg Producer.producing hself, Or.inl rfl⟩

/-- A new producer of a registered request. -/
lemma Sound.withNewProducer (hw : Sound w) (hr : w.requests.get? i = some r)
    (hi : int32 i = true) (offset : ℕ) : Sound (w.withNewProducer r offset) where
  toTidy := hw.toTidy.add hr offset
  sendable p hp := by
    have hid : ∀ r', ((w.withNewProducer r offset).objs r').id = (w.objs r').id := by
      intro r'
      rw [withNewProducer_objs]
      split
      · next h => rw [h]
      · rfl
    rw [withNewProducer_nextProducer] at hp
    rw [hid, withNewProducer_producers]
    by_cases h : p = w.nextProducer
    · subst h
      rw [Function.update_self]
      exact ⟨i, (hw.entry i r hr).1, hi⟩
    · rw [Function.update_of_ne h]
      exact hw.sendable p (by omega)
  files := hw.files

/-- **A `BEGIN_CONTENT`** for a registered request does not raise, and unless the handler is
paused uploads go on, also the new one of a request that produces. -/
lemma Sound.produce (hw : Sound w) (hr : w.requests.get? i = some r) (hi : int32 i = true)
    (offset : ℕ) : ∃ t, (produce r offset).run w = .ok ⟨⟩ t ∧ Sound t ∧ Carries w t := by
  have hnew := hw.withNewProducer hr hi offset
  have hobjs := withNewProducer_objs w r offset
  have hself : ((w.withNewProducer r offset).objs r).producer = some w.nextProducer := by
    rw [hobjs, if_pos rfl]
  rw [produce_run_step]
  by_cases hprod : (w.objs r).producing = true
  · rw [if_pos hprod]
    have hact : Act ⟨False, True, False⟩ (w.withNewProducer r offset) (w.firstStep r offset) :=
      .wake hr hself False.elim
    have hfirst : Sound (w.firstStep r offset) :=
      hnew.of_core (hnew.toTidy.of_act hact) rfl (owners_setProducer _ _ fun _ => rfl)
    obtain ⟨t, hrun, ht, hreq, hflow⟩ := hfirst.go (Nat.lt_succ_self w.nextProducer)
    refine ⟨t, hrun, ht, fun i r h => hreq ▸ h, fun h => ?_⟩
    obtain ⟨hflag, hobj, hsends⟩ := hflow h
    have hsame : ∀ r', t.objs r' = (w.withNewProducer r offset).objs r' := congrFun hobj
    refine ⟨hflag, fun r' hr' => ⟨?_, hsends r' fun p' hp' hc hf => ?_⟩⟩
    · rw [hsame, hobjs]
      split
      · exact hprod
      · exact hr'.1
    · replace hp' : ((w.withNewProducer r offset).objs r').producer = some p' := hp'
      replace hc : ((w.withNewProducer r offset).objs r').cancelled = false := hc
      by_cases hrr : r' = r
      · subst hrr
        obtain rfl : w.nextProducer = p' := Option.some.inj (hself.symm.trans hp')
        rw [firstStep_producers_self]
        exact ⟨rfl, Or.inl rfl⟩
      · rw [hobjs, if_neg hrr] at hp' hc
        have hne : p' ≠ w.nextProducer := Nat.ne_of_lt (hw.owner r' p' hp').1
        rw [firstStep_producers_of_ne hne] at hf ⊢
        obtain ⟨hgo, hpend⟩ := hr'.2 p' hp' hc hf
        exact ⟨hgo, Or.inr hpend⟩
  · rw [if_neg hprod]
    refine ⟨_, rfl, hnew, fun _ _ => id, fun h => ⟨h, fun r' hr' => ?_⟩⟩
    have hrr : r' ≠ r := by
      rintro rfl
      exact hprod hr'.1
    refine ⟨by rw [hobjs, if_neg hrr]; exact hr'.1, fun p' hp' hc hf => ?_⟩
    rw [hobjs, if_neg hrr] at hp' hc
    have hne : p' ≠ w.nextProducer := Nat.ne_of_lt (hw.owner r' p' hp').1
    rw [withNewProducer_producers, Function.update_of_ne hne] at hf ⊢
    exact hr'.2 p' hp' hc hf

end Magicicada.Client
