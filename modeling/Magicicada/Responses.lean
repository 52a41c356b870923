import Magicicada.Starting

/-!
A started request is registered until it finishes: a client-side one is, and a `RequestResponse`,
which `start` gives the id of the message it answers, never is.
-/

namespace Magicicada.Client

open Pb Errors Requests Prog

/-- A request is found under its id and is given the valid messages with that id, and `done` and
`error` take out its entry, fire its deferred and return. -/
structure Held (w : World) (r : ℕ) (i : ℤ) : Prop where
  id : (w.objs r).id = some i
  get? : w.requests.get? i = some r
  dispatched : ∀ m raises, m.id = i → validateMessage m = [] → (processMessage m raises).run w =
    (tryCatch (Request.processMessage r m raises) (errorOf i) : M PUnit).run w
  settled : ∀ o, ∃ t, (Request.settle r o).run w = .ok ⟨⟩ t ∧ t.requests = w.requests.erase i ∧
    (w.objs r).deferred = none ∧ (t.objs r).deferred = some o

/-- Each request whose `start` returned in the run is held for as long as it is not finished,
under the id of its source message if it has one. -/
def AllHeld (w₀ : World) (es : List Event) : Prop :=
  ∀ pre r post, es = pre ++ .start r :: post →
    raised (start r) (Runs.run World.step w₀ pre) = none →
    ((Runs.run World.step w₀ es).objs r).finished = false →
    ∃ i, Held (Runs.run World.step w₀ es) r i ∧
      ∀ m, ((Runs.run World.step w₀ pre).objs r).source = some m → i = m.id

/-- What `_start` of a `RequestResponse` can do: send messages of its own, with an id that was
read from the wire. -/
def Answers (q : Request) (m : Message) : Prop :=
  int32 m.id = true ∧ q.argError = none ∧ ∃ messages, q.kind = .other messages

/-- The events of a run in which the request objects may also be `RequestResponse`s. -/
def AdmitsResponse (w : World) : Event → Prop
  | .start r => (w.objs r).id = none ∧ ∀ m, (w.objs r).source = some m → Answers (w.objs r) m
  | e => Admits w e

/-- The event starts a `RequestResponse`. -/
def StartsResponse (w : World) : Event → Prop
  | .start r => (w.objs r).source ≠ none
  | _ => False

lemma admits_of_not_startsResponse {w : World} {e : Event} (h : AdmitsResponse w e)
    (hn : ¬StartsResponse w e) : Admits w e := by
  cases e with
  | start r => exact ⟨h.1, not_not.mp hn⟩
  | _ => exact h

/-! ### Client-side requests -/

lemma Registered.held {w : World} {r : ℕ} {i : ℤ} (hw : Registered w r i) : Held w r i where
  id := (hw.entry i r hw.get?).1
  get? := hw.get?
  dispatched := by
    rintro m raises rfl hm
    rw [processMessage_valid hm, dispatch_registered hw.get?]
  settled o := by
    refine ⟨w.finish r i o, settle_run hw.toRegistry hw.get? o, finish_requests w r i o, ?_, ?_⟩
    · exact (hw.entry i r hw.get?).2.2.2
    · simp

lemma Registry.moves_run {w : World} (hw : Registry w) {es : List Event}
    (h : Runs.Legal World.step Admits w es) : Moves w (Runs.run World.step w es) := by
  induction es generalizing w with
  | nil => exact .refl
  | cons e es ih => exact (hw.moves h.1).trans (ih (hw.step h.1) h.2)

/-- A client-side request has an id from the moment it is started. -/
lemma Registry.start_id {w : World} (hw : Registry w) {r : ℕ} (hid : (w.objs r).id = none)
    (hsrc : (w.objs r).source = none) :
    ((w.step (.start r)).objs r).id = some w.requestCounter :=
  (hw.start hid hsrc).ages.ids r _ (by simp)

/-- Where only client-side requests are started, all of them are held. -/
lemma allHeld_of_legal {w₀ : World} (h₀ : Initial w₀) {es : List Event}
    (hes : Runs.Legal World.step Admits w₀ es) : AllHeld w₀ es := by
  rintro pre r post rfl - hfin
  have hrun := h₀.registry.run hes
  obtain ⟨hpre, ⟨hid, hsrc⟩, hpost⟩ := Runs.legal_append.mp hes
  have hw := h₀.registry.run hpre
  have hstep := hw.step (e := .start r) ⟨hid, hsrc⟩
  have hage := (hstep.moves_run hpost).ages.ids r _ (hw.start_id hid hsrc)
  rw [Runs.run_append] at hrun hfin ⊢
  refine ⟨_, Registered.held ⟨hrun, hrun.registered r _ hage hfin⟩, fun m hm => ?_⟩
  rw [hsrc] at hm
  cases hm

/-! ### Responses -/

/-- **`start` of a `RequestResponse`** returns and gives it the id of its source message, but
does not register it. -/
lemma start_response {w : World} (hw : Registry w) {r : ℕ} {m : Message}
    (hid : (w.objs r).id = none) (hsrc : (w.objs r).source = some m)
    (hans : Answers (w.objs r) m) :
    raised (start r) w = none ∧ (w.step (.start r)).requests = w.requests ∧
      ((w.step (.start r)).objs r).finished = false := by
  obtain ⟨hi, harg, messages, hkind⟩ := hans
  have hadd := addProducer_run hw hid
  -- the state in which the exchange begins
  let u : World := { w.setObj r fun q => { q with
      id := some m.id, started := true, producing := q.producing || w.producing } with
    transport := { w.transport with registered := true } }
  have hstart : (start r).run w = (startExchange r).run u := by
    simp [start, Request.start, hsrc, hadd, assignId, modifyObj, World.setObj, u]
  have hu : (u.objs r).id = some m.id := by simp [u]
  obtain ⟨t, ht, hcore⟩ := sendMessages_run hi messages u hu
  have hledger := ledger_of_core hcore
  have hrun : (start r).run w =
      .ok ⟨⟩ (t.setObj r fun q => { q with kind := q.kind.started }) := by
    rw [hstart]
    unfold startExchange
    rw [run_get_bind]
    dsimp only
    have hk : (u.objs r).kind = .other messages := by simp [u, hkind]
    have ha : (u.objs r).argError = none := by simp [u, harg]
    rw [hk, ha]
    exact run_bind_ok ht
  have hfin : (u.objs r).finished = false := by simpa [u] using (hw.fresh r hid).2.1
  refine ⟨raised_of_ok hrun, ?_, ?_⟩
  · show (after (start r) w).requests = w.requests
    rw [after_of_ok hrun]
    show t.requests = u.requests
    exact requests_of_ledger hledger
  · show ((after (start r) w).objs r).finished = false
    rw [after_of_ok hrun]
    simpa using (obj_of_ledger hledger r).2.trans hfin

/-- **Exactly the runs that start no `RequestResponse`** hold every started request in every
state they reach. -/
theorem allHeld_iff {w₀ : World} (h₀ : Initial w₀) {es : List Event}
    (hes : Runs.Legal World.step AdmitsResponse w₀ es) :
    (∀ es', es' <+: es → AllHeld w₀ es') ↔
      ∀ pre r post, es = pre ++ .start r :: post →
        ((Runs.run World.step w₀ pre).objs r).source = none := by
  constructor
  · intro hheld
    rcases hes.or_first StartsResponse with hgood | ⟨pre, e, post, rfl, hpre, ha, hb⟩
    · rintro pre r post rfl
      exact not_not.mp (Runs.legal_append.mp hgood).2.1.2
    · cases e with
      | start r =>
        have hw := h₀.registry.run (hpre.mono fun w e h => admits_of_not_startsResponse h.1 h.2)
        obtain ⟨m, hsrc⟩ := Option.ne_none_iff_exists'.mp hb
        obtain ⟨hret, hreq, hfin⟩ := start_response hw ha.1 hsrc (ha.2 m hsrc)
        obtain ⟨i, hi, -⟩ := hheld (pre ++ [.start r]) ⟨post, by simp⟩ pre r [] rfl hret
          (by simpa using hfin)
        -- it would have been registered before it had an id
        have hget := hi.get?
        rw [Runs.run_append, Runs.run_cons, Runs.run_nil, hreq] at hget
        have := (hw.entry i r hget).1
        rw [ha.1] at this
        cases this
      | _ => exact hb.elim
  · intro hsrc es' hpre
    rcases hes.or_first StartsResponse with hgood | ⟨pre, e, post, rfl, -, -, hb⟩
    · obtain ⟨post, rfl⟩ := hpre
      have hlegal := hgood.mono fun w e h => admits_of_not_startsResponse h.1 h.2
      exact allHeld_of_legal h₀ (Runs.legal_append.mp hlegal).1
    · cases e with
      | start r => exact absurd (hsrc pre r post rfl) hb
      | _ => exact hb.elim

/-! ### A `RequestResponse` -/

lemma Initial.setObj {w : World} (h : Initial w) {r : ℕ} {f : Request → Request}
    (hf : Fresh (f (w.objs r))) : Initial (w.setObj r f) := by
  refine { h with objs := fun r' => ?_ }
  by_cases hr : r' = r
  · subst hr
    rwa [setObj_objs_self]
  · rw [setObj_objs_of_ne hr]
    exact h.objs r'

/-- One that answers a ping with a pong. -/
def pongResponse : World :=
  (World.init (fun _ => .other [{ type := .pong }]) fun _ => ⟨fun _ => .ok [], []⟩).setObj 0
    fun q => { q with source := some { id := 2, type := .ping } }

lemma initial_pongResponse : Initial pongResponse :=
  (initial_init _ _).setObj ⟨rfl, rfl, rfl, rfl, rfl, rfl, rfl⟩

lemma legal_pongResponse : Runs.Legal World.step AdmitsResponse pongResponse [.start 0] := by
  refine ⟨⟨rfl, ?_⟩, trivial⟩
  rintro m ⟨⟩
  exact ⟨by decide, rfl, _, rfl⟩

/-- Once it is started it is not registered. -/
theorem not_allHeld : ¬∀ (w₀ : World) (es : List Event), Initial w₀ →
    Runs.Legal World.step AdmitsResponse w₀ es → AllHeld w₀ es := by
  intro h
  obtain ⟨i, hi, -⟩ := h pongResponse [.start 0] initial_pongResponse legal_pongResponse [] 0 []
    rfl rfl rfl
  exact nomatch hi.get?

/-- It is started. -/
theorem allHeld_iff_pongResponse :
    ¬∀ es', es' <+: [.start 0] → AllHeld pongResponse es' := by
  rw [allHeld_iff initial_pongResponse legal_pongResponse]
  exact fun h => nomatch h [] 0 [] rfl

end Magicicada.Client
