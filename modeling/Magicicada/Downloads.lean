import Magicicada.Others

/-!
The data of a download whose deferred was fired with success.
-/

namespace Magicicada.Client

open Pb Errors Requests Prog

variable {r : ℕ} {w : World} {got : List Bytes} {m : Message} {raises : Option Exn}

/-! ### What arrives -/

/-- The payload an event brings a registered request. A message that is not valid is not given to
the request. -/
def arrival (r : ℕ) (w : World) : Event → List Bytes
  | .message m _ =>
    if validateMessage m = [] ∧ w.requests.get? m.id = some r ∧ m.type = .bytes then
      [rd (rd m.bytes).bytes]
    else []
  | _ => []

/-- The payloads of the `BYTES` a request is given along a run, in order. -/
def arrivals (r : ℕ) : World → List Event → List Bytes
  | _, [] => []
  | w, e :: es => arrival r w e ++ arrivals r (w.step e) es

/-- A request that is a download has these data if its deferred was fired with success. -/
def HasData (r : ℕ) (w : World) (b : Bytes) : Prop :=
  (w.objs r).deferred = some .callback → ∃ q, (w.objs r).kind = .getContent q ∧ q.data = some b

/-- The event is a valid `OK` for the request, or a valid `EOF` for it after it was cancelled. -/
def EndsBare (r : ℕ) (w : World) : Event → Prop
  | .message m _ => validateMessage m = [] ∧ w.requests.get? m.id = some r ∧
    (m.type = .ok ∨ m.type = .eof ∧ (w.objs r).cancelled = true)
  | _ => False

/-- Nobody but the request itself calls its `done()`. -/
def AdmitsDownload (r : ℕ) (w : World) (e : Event) : Prop := AdmitsAny w e ∧ e ≠ .done r

/-! ### One message -/

lemma processMessage_bare {q : Requests.GetContent} {c : Context}
    (h : m.type = .ok ∨ m.type = .eof ∧ c.cancelled = true) :
    q.processMessage c m = (q, .done) := by
  unfold GetContent.processMessage
  rcases h with h | ⟨h, hc⟩
  · rw [h]
  · rw [h]
    simp [hc]

/-- What a message that does not end it bare does to a download without a callback for data: it
goes on and keeps what it gets, it has all its data, or it gets an error. -/
lemma processMessage_cases {q : Requests.GetContent} (hq : q.callback = false) {c : Context}
    (h : ¬(m.type = .ok ∨ m.type = .eof ∧ c.cancelled = true)) :
    ((q.processMessage c m).2 = .stay ∧ (q.processMessage c m).1.callback = false ∧
      (q.processMessage c m).1.data = q.data ∧ (c.cancelled = false →
        (q.processMessage c m).1.parts =
          q.parts ++ if m.type = .bytes then [rd (rd m.bytes).bytes] else [])) ∨
    (m.type = .eof ∧ c.cancelled = false ∧
      q.processMessage c m = ({ q with data := some q.parts.flatten }, .done)) ∨
    ∃ e, Outcome.ofReply (q.processMessage c m).2 = some (.errback e) := by
  unfold GetContent.processMessage
  split <;> rename_i ht
  · -- `NODE_ATTR`, whose callback may raise
    split
    · cases hr : c.raises with
      | none => exact Or.inl (by simp [Context.call, hr, ht, hq])
      | some e => exact Or.inr (Or.inr ⟨e, by simp [Context.call, hr, Outcome.ofReply]⟩)
    · exact Or.inl (by simp [ht, hq])
  · cases hc : c.cancelled with
    | true => exact Or.inl (by simp [hq])
    | false => exact Or.inl (by simp [ht, hq])
  · have hc : c.cancelled = false := Bool.eq_false_of_not_eq_true fun hc => h (Or.inr ⟨ht, hc⟩)
    exact Or.inr (Or.inl ⟨ht, hc, by simp [hc, hq]⟩)
  · exact absurd (Or.inl ht) h
  · exact Or.inr (Or.inr ⟨_, rfl⟩)
  · refine Or.inr (Or.inr ?_)
    unfold defaultProcessMessage
    repeat' split
    all_goals exact ⟨_, rfl⟩

/-! ### The states of a download -/

/-- A download that was given these payloads: it is under way, or over with the data that belong
to them. -/
inductive Download (r : ℕ) (got : List Bytes) (w : World) : Prop
  | running {i : ℤ} {q : Requests.GetContent} (hw : Registered w r i)
      (hkind : (w.objs r).kind = .getContent q) (hcb : q.callback = false) (hdata : q.data = none)
      (hparts : (w.objs r).cancelled = false → q.parts = got)
  | ended (hw : Registry w) (hid : (w.objs r).id ≠ none) (hfin : (w.objs r).finished = true)
      (h : HasData r w got.flatten)

/-- A download that was fired with success and has no data. -/
structure Empty (r : ℕ) (w : World) : Prop extends Registry w where
  id : (w.objs r).id ≠ none
  finished : (w.objs r).finished = true
  deferred : (w.objs r).deferred = some .callback
  data : ∃ q, (w.objs r).kind = .getContent q ∧ q.data = none

lemma HasData.of_fades {s t : World} {b : Bytes} (h : HasData r s b) (hst : Fades r s t) :
    HasData r t b := by
  intro ht
  rcases hst.deferred with e | ⟨-, x, hx⟩
  · rw [hst.kind]
    exact h (e.symm.trans ht)
  · rw [hx] at ht
    cases ht

/-- A request that is over gets no more messages. -/
lemma Registry.not_registered (hw : Registry w) (hfin : (w.objs r).finished = true) (i : ℤ) :
    w.requests.get? i ≠ some r := by
  intro hr
  have := (hw.entry i r hr).2.2.1
  rw [hfin] at this
  cases this

lemma arrival_finished (hw : Registry w) (hfin : (w.objs r).finished = true) (e : Event) :
    arrival r w e = [] := by
  unfold arrival
  split
  · exact if_neg fun h => hw.not_registered hfin _ h.2.1
  · rfl

/-- What fades is over, or still under way. -/
lemma Download.of_fades {t : World} {i : ℤ} {q : Requests.GetContent} (hw : Registered w r i)
    (hkind : (w.objs r).kind = .getContent q) (hcb : q.callback = false) (hdata : q.data = none)
    (hparts : (w.objs r).cancelled = false → q.parts = got) (ht : Registry t)
    (hid : (t.objs r).id = some i) (h : Fades r w t) : Download r got t := by
  have hnone : (w.objs r).deferred = none := (hw.entry i r hw.get?).2.2.2
  cases hfin : (t.objs r).finished with
  | false =>
    refine .running ⟨ht, ht.registered r i hid hfin⟩ (h.kind.trans hkind) hcb hdata fun hc => ?_
    exact hparts (Bool.eq_false_of_not_eq_true fun hw => by simp [h.cancelled hw] at hc)
  | true =>
    refine .ended ht (by simp [hid]) hfin fun hcallback => ?_
    rcases h.deferred with e | ⟨-, x, hx⟩
    · exact absurd (e.trans hnone) (ht.fired r hfin)
    · rw [hx] at hcallback
      cases hcallback

/-- **A message that does not end it bare.** -/
lemma Download.message {q : Requests.GetContent} (hw : Registered w r m.id)
    (hm : validateMessage m = []) (hkind : (w.objs r).kind = .getContent q)
    (hcb : q.callback = false) (hdata : q.data = none)
    (hparts : (w.objs r).cancelled = false → q.parts = got)
    (hbare : ¬EndsBare r w (.message m raises)) :
    Download r (got ++ arrival r w (.message m raises)) (w.step (.message m raises)) := by
  let c : Context := { cancelled := (w.objs r).cancelled, raises := raises }
  have harrival : arrival r w (.message m raises) =
      if m.type = .bytes then [rd (rd m.bytes).bytes] else [] := by
    simp [arrival, hw.get?, hm]
  have hreply : w.reply r m raises = (q.processMessage c m).2 := by
    simp [World.reply, hkind, Kind.processMessage, c]
  have hobj : (w.read r m raises).objs r =
      { w.objs r with kind := .getContent (q.processMessage c m).1 } := by
    simp [World.read, hkind, Kind.processMessage, c]
  have hnext := hw.toRegistry.step (e := .message m raises) hm
  have hid : (w.objs r).id = some m.id := (hw.entry _ r hw.get?).1
  rw [harrival]
  rcases processMessage_cases (c := c) (m := m) hcb fun h => hbare ⟨hm, hw.get?, h⟩ with
    ⟨hstay, hcb', hdata', hparts'⟩ | ⟨htype, hc, hdone⟩ | ⟨e, he⟩
  · rw [hw.message_stay hm raises (hreply.trans hstay)]
    refine .running (hw.read m raises) (by rw [hobj]) hcb' (hdata'.trans hdata) fun hc => ?_
    rw [hobj] at hc
    rw [hparts' hc, hparts hc]
  · have hends := hw.message_ends hm raises (o := .callback) (by rw [hreply, hdone]; rfl)
    rw [hends] at hnext ⊢
    refine .ended hnext ?_ ?_ fun _ => ⟨{ q with data := some q.parts.flatten }, ?_, ?_⟩
    · simp [hobj, hid]
    · simp
    · simp [hobj, hdone]
    · rw [if_neg (by simp [htype]), List.append_nil, hparts hc]
  · have hends := hw.message_ends hm raises (o := .errback e) (by rw [hreply, he])
    rw [hends] at hnext ⊢
    refine .ended hnext ?_ ?_ fun h => ?_
    · simp [hobj, hid]
    · simp
    · rw [finish_objs_self] at h
      cases h

/-- **A step that does not end a download bare** adds what arrives to what it got. -/
lemma Download.step (h : Download r got w) {e : Event} (he : AdmitsDownload r w e)
    (hbare : ¬EndsBare r w e) : Download r (got ++ arrival r w e) (w.step e) := by
  cases h with
  | @running i q hw hkind hcb hdata hparts =>
    have hid : (w.objs r).id = some i := (hw.entry i r hw.get?).1
    have hages := (hw.toRegistry.movesAny he.1).ages
    by_cases hm : ∃ m raises, e = .message m raises ∧ validateMessage m = [] ∧
        w.requests.get? m.id = some r
    · obtain ⟨m, raises, rfl, hvalid, hr⟩ := hm
      exact Download.message ⟨hw.toRegistry, hr⟩ hvalid hkind hcb hdata hparts hbare
    · have hfades := fades_step hw.toRegistry he.1 (by simp [hid]) he.2
        fun m raises heq hvalid hr => hm ⟨m, raises, heq, hvalid, hr⟩
      have harrival : arrival r w e = [] := by
        unfold arrival
        split
        · exact if_neg fun h => hm ⟨_, _, rfl, h.1, h.2.1⟩
        · rfl
      rw [harrival, List.append_nil]
      exact Download.of_fades hw hkind hcb hdata hparts (hw.toRegistry.stepAny he.1)
        (hages.ids r i hid) hfades
  | ended hw hid hfin h =>
    have hages := (hw.movesAny he.1).ages
    have hfades := fades_step hw he.1 hid he.2 fun m _ _ _ => hw.not_registered hfin m.id
    obtain ⟨i, hi⟩ := Option.ne_none_iff_exists'.mp hid
    rw [arrival_finished hw hfin, List.append_nil]
    exact .ended (hw.stepAny he.1) (by simp [hages.ids r i hi]) (hages.finished r hfin)
      (h.of_fades hfades)

/-- **A bare end** leaves no data. -/
lemma Download.bare (h : Download r got w) {e : Event} (he : AdmitsDownload r w e)
    (hbare : EndsBare r w e) : Empty r (w.step e) := by
  cases e with
  | message m raises =>
    obtain ⟨hm, hr, htype⟩ := hbare
    cases h with
    | ended hw hid hfin h => exact absurd hr (hw.not_registered hfin m.id)
    | @running i q hw hkind hcb hdata hparts =>
      let c : Context := { cancelled := (w.objs r).cancelled, raises := raises }
      have hw : Registered w r m.id := ⟨hw.toRegistry, hr⟩
      have hprocess : q.processMessage c m = (q, .done) := processMessage_bare htype
      have hsame : ((w.objs r).kind.processMessage c m).1 = (w.objs r).kind := by
        simp [hkind, Kind.processMessage, hprocess]
      have hobj : (w.read r m raises).objs r = w.objs r := by
        show (w.setObj r fun q => { q with kind := (q.kind.processMessage _ m).1 }).objs r = _
        rw [setObj_objs_self, hsame]
      have hends := hw.message_ends hm raises (o := .callback) (by
        simp [World.reply, hkind, Kind.processMessage, c, hprocess, Outcome.ofReply])
      have hnext := hw.toRegistry.step (e := .message m raises) hm
      rw [hends] at hnext ⊢
      refine ⟨hnext, ?_, by simp, by simp, q, ?_, hdata⟩
      · simp [hobj, (hw.entry _ r hw.get?).1]
      · simp [hobj, hkind]
  | _ => cases hbare

lemma Empty.step (h : Empty r w) {e : Event} (he : AdmitsDownload r w e) :
    Empty r (w.step e) := by
  have hages := (h.toRegistry.movesAny he.1).ages
  have hfades := fades_step h.toRegistry he.1 h.id he.2
    fun m _ _ _ => h.toRegistry.not_registered h.finished m.id
  obtain ⟨i, hi⟩ := Option.ne_none_iff_exists'.mp h.id
  refine ⟨h.toRegistry.stepAny he.1, by simp [hages.ids r i hi], hages.finished r h.finished,
    ?deferred, ?data⟩
  case deferred =>
    rcases hfades.deferred with e | ⟨hnone, -⟩
    · exact e.trans h.deferred
    · exact absurd (hnone.symm.trans h.deferred) (by simp)
  case data =>
    rw [hfades.kind]
    exact h.data

/-! ### Runs -/

lemma Download.run {es : List Event} : ∀ {w : World} {got : List Bytes}, Download r got w →
    Runs.Legal World.step (fun w e => AdmitsDownload r w e ∧ ¬EndsBare r w e) w es →
    Download r (got ++ arrivals r w es) (Runs.run World.step w es) := by
  induction es with
  | nil =>
    intro w got h _
    simpa [arrivals] using h
  | cons e es ih =>
    intro w got h hes
    have := ih (h.step hes.1.1 hes.1.2) hes.2
    rwa [List.append_assoc] at this

lemma Download.hasData (h : Download r got w) : HasData r w got.flatten := by
  cases h with
  | running hw _ _ _ _ =>
    intro hd
    rw [(hw.entry _ r hw.get?).2.2.2] at hd
    cases hd
  | ended _ _ _ h => exact h

/-- **A download that succeeds has its data exactly when** it is not ended bare: over every run
from its start, the payloads it was given are its data, unless a valid `OK` came for it, or a valid
`EOF` after it was cancelled. -/
theorem hasData_iff {i : ℤ} {q : Requests.GetContent} (hw : Registered w r i)
    (hkind : (w.objs r).kind = .getContent q) (hcb : q.callback = false) (hparts : q.parts = [])
    (hdata : q.data = none) {es : List Event}
    (hes : Runs.Legal World.step (AdmitsDownload r) w es) :
    HasData r (Runs.run World.step w es) (arrivals r w es).flatten ↔
      Runs.Legal World.step (fun w e => ¬EndsBare r w e) w es := by
  have hstart : Download r [] w := .running hw hkind hcb hdata fun _ => hparts
  constructor
  · intro h
    rcases hes.or_first (EndsBare r) with hgood | ⟨pre, e, post, rfl, hpre, he, hbare⟩
    · exact hgood.mono fun w e h => h.2
    · -- after a bare end the data stay away
      have hpost := (Runs.legal_append.mp hes).2.2
      have hempty : Empty r (Runs.run World.step ((Runs.run World.step w pre).step e) post) :=
        hpost.invariant (fun _ _ hs he => Empty.step hs he) ((hstart.run hpre).bare he hbare)
      rw [Runs.run_append, Runs.run_cons] at h
      obtain ⟨q', hq', hdata'⟩ := h hempty.deferred
      obtain ⟨q'', hq'', hnone⟩ := hempty.data
      obtain rfl : q' = q'' := Kind.getContent.inj (hq'.symm.trans hq'')
      rw [hnone] at hdata'
      cases hdata'
  · intro hgood
    exact (hstart.run (hes.and hgood)).hasData

/-! ### A download that is told `OK` -/

lemma registered_listening : Registered listening 0 1 := ⟨reachable_listening.registry, rfl⟩

/-- A piece of the content, and what comes after it. -/
def pieceThen (type : MessageType) : List Event :=
  [.message someBytes none, .message { id := 1, type := type } none]

lemma legal_pieceThen (type : MessageType) :
    Runs.Legal World.step (AdmitsDownload 0) listening (pieceThen type) :=
  ⟨⟨trivial, Event.noConfusion⟩, ⟨trivial, Event.noConfusion⟩, trivial⟩

/-- The deferred fires with success, and there are no data. -/
theorem not_hasData : ¬∀ (w : World) (r : ℕ) (i : ℤ) (q : Requests.GetContent)
    (es : List Event), Reachable w → Registered w r i → (w.objs r).kind = .getContent q →
      q.callback = false → q.parts = [] → q.data = none →
      Runs.Legal World.step (AdmitsDownload r) w es →
      HasData r (Runs.run World.step w es) (arrivals r w es).flatten := by
  intro h
  have hlegal := legal_pieceThen .ok
  have hdata := h listening 0 1 _ _ reachable_listening registered_listening rfl rfl rfl rfl hlegal
  rw [hasData_iff registered_listening rfl rfl rfl rfl hlegal] at hdata
  exact hdata.2.1 ⟨by decide, rfl, Or.inl rfl⟩

/-- The `EOF` comes. -/
theorem hasData_iff_eof :
    HasData 0 (Runs.run World.step listening (pieceThen .eof)) [0] := by
  refine (hasData_iff registered_listening rfl rfl rfl rfl
    (legal_pieceThen .eof)).mpr ⟨?_, ?_, trivial⟩
  · rintro ⟨-, -, h | ⟨h, -⟩⟩ <;> cases h
  · rintro ⟨-, -, h | ⟨-, h⟩⟩ <;> cases h

end Magicicada.Client
