import Magicicada.Quiet
import Magicicada.Runs

/-!
The registry of requests over whole runs.

The invariant ties together the registry, the flags of the requests, their deferreds and the
registration of the handler with the transport. It is about a part of the state, the `ledger`,
that few things change: a request is put in, a request is taken out, a request gets a producer.
Each of these is a move, and every move keeps the invariant.
-/

namespace Magicicada.Client

open Pb Errors Requests Prog

/-! ### The beginning of a run -/

/-- A request object as `__init__` leaves it. -/
structure Fresh (q : Request) : Prop where
  id : q.id = none
  deferred : q.deferred = none
  producer : q.producer = none
  started : q.started = false
  finished : q.finished = false
  cancelled : q.cancelled = false
  producing : q.producing = false

/-- A client as `__init__` and `makeConnection` leave it, with request objects nobody has
started. -/
structure Initial (w : World) : Prop where
  objs : ∀ r, Fresh (w.objs r)
  requests : w.requests = .empty
  requestCounter : w.requestCounter = w.env.requestIdStart
  producing : w.producing = true
  registered : w.transport.registered = false
  nextProducer : w.nextProducer = 0
  calls : ∀ c ∈ w.calls, ∀ p, c.func ≠ .go p
  sent : w.sent = []
  faults : w.faults = []

/-- A client with request objects of the given kinds. -/
def World.init (kinds : ℕ → Kind) (files : ℕ → File) : World :=
  { objs := fun r => { kind := kinds r }, files := files, requestCounter := 1 }

lemma initial_init (kinds : ℕ → Kind) (files : ℕ → File) : Initial (World.init kinds files) where
  objs _ := ⟨rfl, rfl, rfl, rfl, rfl, rfl, rfl⟩
  requests := rfl
  requestCounter := rfl
  producing := rfl
  registered := rfl
  nextProducer := rfl
  calls _ hc := nomatch hc
  sent := rfl
  faults := rfl

/-! ### The invariant -/

structure Registry (w : World) : Prop where
  /-- What is registered has that id, is started and unfinished, and has not fired. -/
  entry : ∀ i r, w.requests.get? i = some r → (w.objs r).id = some i ∧
    (w.objs r).started = true ∧ (w.objs r).finished = false ∧ (w.objs r).deferred = none
  /-- What was started and is not finished is registered. -/
  registered : ∀ r i, (w.objs r).id = some i → (w.objs r).finished = false →
    w.requests.get? i = some r
  unfinished : ∀ r, (w.objs r).started = true → (w.objs r).finished = false
  fired : ∀ r, (w.objs r).finished = true → (w.objs r).deferred ≠ none
  fresh : ∀ r, (w.objs r).id = none → (w.objs r).started = false ∧
    (w.objs r).finished = false ∧ (w.objs r).deferred = none ∧ (w.objs r).producer = none
  ids : ∀ r i, (w.objs r).id = some i → w.env.requestIdStart ≤ i ∧ i < w.requestCounter ∧
    i % 2 = w.env.requestIdStart % 2
  counter : w.env.requestIdStart ≤ w.requestCounter ∧
    w.requestCounter % 2 = w.env.requestIdStart % 2
  injective : ∀ r r' i, (w.objs r).id = some i → (w.objs r').id = some i → r = r'
  transport : w.transport.registered = !w.requests.isEmpty
  faults : w.faults = []

lemma Initial.registry {w : World} (h : Initial w) : Registry w where
  entry i r hr := by simp [h.requests] at hr
  registered r i hi := by simp [(h.objs r).id] at hi
  unfinished r hr := (h.objs r).finished
  fired r hr := by simp [(h.objs r).finished] at hr
  fresh r _ := ⟨(h.objs r).started, (h.objs r).finished, (h.objs r).deferred, (h.objs r).producer⟩
  ids r i hi := by simp [(h.objs r).id] at hi
  counter := by simp [h.requestCounter]
  injective r r' i hi := by simp [(h.objs r).id] at hi
  transport := by simp [h.requests, h.registered]
  faults := h.faults

/-- A request is registered once. -/
lemma Registry.eq_of_get? {w : World} (hw : Registry w) {i j : ℤ} {r : ℕ}
    (hi : w.requests.get? i = some r) (hj : w.requests.get? j = some r) : i = j :=
  Option.some.inj ((hw.entry i r hi).1.symm.trans (hw.entry j r hj).1)

/-- The part of the state the invariant is about. -/
def World.ledger (w : World) : World := { w.core with
  objs := fun r => { w.objs r with kind := .noop, cancelled := false, producing := false }
  nextProducer := 0
  notices := []
  rootId := none
  rootIdDefers := []
  rootIdFired := []
  logged := [] }

lemma registry_ledger {w : World} : Registry w.ledger ↔ Registry w :=
  ⟨fun h => ⟨h.1, h.2, h.3, h.4, h.5, h.6, h.7, h.8, h.9, h.10⟩,
    fun h => ⟨h.1, h.2, h.3, h.4, h.5, h.6, h.7, h.8, h.9, h.10⟩⟩

/-- What leaves that part alone keeps the invariant. -/
lemma Registry.of_ledger {s t : World} (hs : Registry s) (h : t.ledger = s.ledger) :
    Registry t := registry_ledger.mp (h ▸ registry_ledger.mpr hs)

lemma ledger_of_core {s t : World} (h : t.core = s.core) : t.ledger = s.ledger := by
  show t.core.ledger = s.core.ledger
  rw [h]

lemma requests_of_ledger {s t : World} (h : t.ledger = s.ledger) : t.requests = s.requests := by
  show t.ledger.requests = s.ledger.requests
  rw [h]

lemma ledger_setObj {w : World} {r : ℕ} {f : Request → Request}
    (hf : ∀ q, { f q with kind := .noop, cancelled := false, producing := false } =
      { q with kind := .noop, cancelled := false, producing := false }) :
    (w.setObj r f).ledger = w.ledger := by
  have : (w.setObj r f).ledger.objs = w.ledger.objs := by
    funext r'
    show { (w.setObj r f).objs r' with kind := .noop, cancelled := false, producing := false } =
      { w.objs r' with kind := .noop, cancelled := false, producing := false }
    by_cases h : r' = r
    · subst h
      rw [setObj_objs_self]
      exact hf _
    · rw [setObj_objs_of_ne h]
  show { w.ledger with objs := (w.setObj r f).ledger.objs } = w.ledger
  rw [this]

lemma ledger_setKind (w : World) (r : ℕ) (f : Kind → Kind) :
    (w.setObj r fun q => { q with kind := f q.kind }).ledger = w.ledger :=
  ledger_setObj fun _ => rfl

lemma ledger_setCancelled (w : World) (r : ℕ) :
    (w.setObj r fun q => { q with cancelled := true }).ledger = w.ledger :=
  ledger_setObj fun _ => rfl

/-! ### Taking a request out -/

/-- The state after `done` or `error` of a registered request. -/
def World.finish (w : World) (r : ℕ) (i : ℤ) (o : Outcome) : World :=
  { w.setObj r fun q => { q with finished := true, started := false, deferred := some o } with
    requests := w.requests.erase i
    transport := { w.transport with registered := !(w.requests.erase i).isEmpty } }

@[simp] lemma finish_objs_self (w : World) (r : ℕ) (i : ℤ) (o : Outcome) :
    (w.finish r i o).objs r =
      { w.objs r with finished := true, started := false, deferred := some o } :=
  setObj_objs_self w r fun q => { q with finished := true, started := false, deferred := some o }

lemma finish_objs_of_ne {w : World} {r r' : ℕ} (h : r' ≠ r) (i : ℤ) (o : Outcome) :
    (w.finish r i o).objs r' = w.objs r' := Function.update_of_ne h ..

/-- Finishing a request changes nothing else of a request. -/
lemma finish_obj (w : World) (r : ℕ) (i : ℤ) (o : Outcome) (r' : ℕ) :
    ((w.finish r i o).objs r').id = (w.objs r').id ∧
    ((w.finish r i o).objs r').producer = (w.objs r').producer ∧
    ((w.finish r i o).objs r').cancelled = (w.objs r').cancelled := by
  by_cases h : r' = r
  · subst h; simp
  · rw [finish_objs_of_ne h]; simp

@[simp] lemma finish_requests (w : World) (r : ℕ) (i : ℤ) (o : Outcome) :
    (w.finish r i o).requests = w.requests.erase i := rfl

/-- What is registered when a request is finished has another id and was registered before. -/
lemma registered_of_finish {w : World} {r r' : ℕ} {i j : ℤ} {o : Outcome}
    (h : (w.finish r i o).requests.get? j = some r') : j ≠ i ∧ w.requests.get? j = some r' := by
  rw [finish_requests, Dict.get?_erase] at h
  split at h
  · cases h
  · next hji => exact ⟨hji, h⟩

/-- The part of the invariant about what is registered. -/
structure Entries (w : World) : Prop where
  entry : ∀ i r, w.requests.get? i = some r → (w.objs r).id = some i ∧
    (w.objs r).started = true ∧ (w.objs r).finished = false ∧ (w.objs r).deferred = none
  injective : ∀ r r' i, (w.objs r).id = some i → (w.objs r').id = some i → r = r'
  transport : w.transport.registered = !w.requests.isEmpty

lemma Registry.entries {w : World} (hw : Registry w) : Entries w :=
  ⟨hw.entry, hw.injective, hw.transport⟩

/-- **`done` and `error` of a registered request** remove its entry, fire its deferred and do
not raise. -/
lemma Entries.settle_run {w : World} (hw : Entries w) {r : ℕ} {i : ℤ}
    (hr : w.requests.get? i = some r) (o : Outcome) :
    (Request.settle r o).run w = .ok ⟨⟩ (w.finish r i o) := by
  obtain ⟨hid, -, -, hdef⟩ := hw.entry i r hr
  have ht : w.transport.registered = true := by
    rw [hw.transport, Dict.isEmpty_eq_false hr]; rfl
  by_cases he : (w.requests.erase i).isEmpty
  · simp [Request.settle, Request.cleanup, deleteRequest, removeProducer, unregisterProducer, fire,
      modifyObj, World.setObj, World.finish, hid, hr, hdef, ht, he]
  · simp [Request.settle, Request.cleanup, deleteRequest, removeProducer, fire,
      modifyObj, World.setObj, World.finish, hid, hr, hdef, he]
    rw [← ht]

lemma settle_run {w : World} (hw : Registry w) {r : ℕ} {i : ℤ} (hr : w.requests.get? i = some r)
    (o : Outcome) : (Request.settle r o).run w = .ok ⟨⟩ (w.finish r i o) :=
  hw.entries.settle_run hr o

/-- Nothing else changes for the other requests, so the invariant holds on. -/
lemma Registry.finish {w : World} (hw : Registry w) {r : ℕ} {i : ℤ}
    (hr : w.requests.get? i = some r) (o : Outcome) : Registry (w.finish r i o) := by
  obtain ⟨hid, -, -, -⟩ := hw.entry i r hr
  have hne : ∀ j r', (w.objs r').id = some j → j ≠ i → r' ≠ r := by
    rintro j r' hj hji rfl
    exact hji (Option.some.inj (hj.symm.trans hid))
  constructor
  case entry =>
    intro j r' hfinish
    obtain ⟨hji, hj⟩ := registered_of_finish hfinish
    have h := hw.entry j r' hj
    rw [finish_objs_of_ne (hne j r' h.1 hji)]
    exact h
  case registered =>
    intro r' j hj hfin
    by_cases hrr : r' = r
    · subst hrr; simp at hfin
    · rw [finish_objs_of_ne hrr] at hj hfin
      rw [finish_requests, Dict.get?_erase, if_neg]
      · exact hw.registered r' j hj hfin
      · rintro rfl
        exact hrr (hw.injective r' r j hj hid)
  case unfinished =>
    intro r' hs
    by_cases hrr : r' = r
    · subst hrr; simp at hs
    · rw [finish_objs_of_ne hrr] at hs ⊢
      exact hw.unfinished r' hs
  case fired =>
    intro r' hfin
    by_cases hrr : r' = r
    · subst hrr; simp
    · rw [finish_objs_of_ne hrr] at hfin ⊢
      exact hw.fired r' hfin
  case fresh =>
    intro r' hn
    by_cases hrr : r' = r
    · subst hrr; simp [hid] at hn
    · rw [finish_objs_of_ne hrr] at hn ⊢
      exact hw.fresh r' hn
  case ids =>
    intro r' j hj
    rw [(finish_obj w r i o r').1] at hj
    exact hw.ids r' j hj
  case counter => exact hw.counter
  case injective =>
    intro r' r'' j hj hj'
    rw [(finish_obj w r i o _).1] at hj hj'
    exact hw.injective r' r'' j hj hj'
  case transport => rfl
  case faults => exact hw.faults

/-! ### Putting a request in -/

/-- The state in which a client-side request begins its exchange. -/
def World.enroll (w : World) (r : ℕ) : World :=
  { w.setObj r fun q => { q with
      id := some w.requestCounter, started := true, producing := q.producing || w.producing } with
    requestCounter := w.requestCounter + 2
    requests := w.requests.set w.requestCounter r
    transport := { w.transport with registered := true } }

@[simp] lemma enroll_objs_self (w : World) (r : ℕ) :
    (w.enroll r).objs r = { w.objs r with
      id := some w.requestCounter, started := true,
      producing := (w.objs r).producing || w.producing } :=
  setObj_objs_self w r fun q => { q with
    id := some w.requestCounter, started := true, producing := q.producing || w.producing }

lemma enroll_objs_of_ne {w : World} {r r' : ℕ} (h : r' ≠ r) :
    (w.enroll r).objs r' = w.objs r' := Function.update_of_ne h ..

/-- Giving a request an id changes neither its producer nor how it ended. -/
lemma enroll_obj (w : World) (r r' : ℕ) :
    ((w.enroll r).objs r').producer = (w.objs r').producer ∧
    ((w.enroll r).objs r').finished = (w.objs r').finished ∧
    ((w.enroll r).objs r').cancelled = (w.objs r').cancelled := by
  by_cases h : r' = r
  · subst h; simp
  · rw [enroll_objs_of_ne h]; simp

@[simp] lemma enroll_requests (w : World) (r : ℕ) :
    (w.enroll r).requests = w.requests.set w.requestCounter r := rfl

/-- `addProducer` leaves the handler registered with the transport. -/
lemma addFirstProducer_run {w : World} (hw : Registry w) :
    addFirstProducer.run w =
      .ok ⟨⟩ { w with transport := { w.transport with registered := true } } := by
  have ht := hw.transport
  cases he : w.requests.isEmpty with
  | true =>
    rw [he] at ht
    simp [addFirstProducer, registerProducer, he, ht]
  | false =>
    have htr : { w.transport with registered := true } = w.transport := by
      rw [he] at ht
      rw [← Bool.not_false, ← ht]
    simp [addFirstProducer, he, htr]

/-- A fresh request has no producer of its own to resume. -/
lemma addProducer_run {w : World} (hw : Registry w) {r : ℕ} (hid : (w.objs r).id = none) :
    (addProducer r).run w = .ok ⟨⟩ { w.setObj r fun q => { q with
        producing := q.producing || w.producing } with
      transport := { w.transport with registered := true } } := by
  obtain ⟨-, -, -, hprod⟩ := hw.fresh r hid
  have hfirst := addFirstProducer_run hw
  cases hp : w.producing with
  | true =>
    simp [addProducer, hfirst, Request.resumeProducing, resumeProducer, modifyObj, World.setObj, hp,
      hprod]
  | false =>
    rw [setObj_eq_self (by simp)]
    simp [addProducer, hfirst, hp]

/-- **`start` of a fresh client-side request** registers it and begins the exchange. -/
lemma start_run {w : World} (hw : Registry w) {r : ℕ} (hid : (w.objs r).id = none)
    (hsrc : (w.objs r).source = none) :
    (start r).run w = (startExchange r).run (w.enroll r) := by
  have h := addProducer_run hw hid
  simp [start, Request.start, hsrc, h, assignId, getNewRequestId, modifyObj, World.setObj,
    World.enroll]

lemma Registry.enroll {w : World} (hw : Registry w) {r : ℕ} (hid : (w.objs r).id = none) :
    Registry (w.enroll r) := by
  obtain ⟨-, hfin, hdef, -⟩ := hw.fresh r hid
  have hne : ∀ r' j, (w.objs r').id = some j → r' ≠ r := by
    rintro r' j hj rfl
    rw [hid] at hj
    cases hj
  constructor
  case entry =>
    intro j r' hj
    rw [enroll_requests, Dict.get?_set] at hj
    split at hj
    · next hjc =>
      cases hj
      simp [hjc, hfin, hdef]
    · have h := hw.entry j r' hj
      rw [enroll_objs_of_ne (hne r' j h.1)]
      exact h
  case registered =>
    intro r' j hj hf
    by_cases hrr : r' = r
    · subst hrr
      simp only [enroll_objs_self, Option.some.injEq] at hj
      simp [hj]
    · rw [enroll_objs_of_ne hrr] at hj hf
      have hlt := (hw.ids r' j hj).2.1
      rw [enroll_requests, Dict.get?_set, if_neg (by omega)]
      exact hw.registered r' j hj hf
  case unfinished =>
    intro r' hs
    by_cases hrr : r' = r
    · subst hrr; simpa using hfin
    · rw [enroll_objs_of_ne hrr] at hs ⊢
      exact hw.unfinished r' hs
  case fired =>
    intro r' hf
    by_cases hrr : r' = r
    · subst hrr; simp [hfin] at hf
    · rw [enroll_objs_of_ne hrr] at hf ⊢
      exact hw.fired r' hf
  case fresh =>
    intro r' hn
    by_cases hrr : r' = r
    · subst hrr; simp at hn
    · rw [enroll_objs_of_ne hrr] at hn ⊢
      exact hw.fresh r' hn
  case ids =>
    intro r' j hj
    show w.env.requestIdStart ≤ j ∧ j < w.requestCounter + 2 ∧ j % 2 = w.env.requestIdStart % 2
    by_cases hrr : r' = r
    · subst hrr
      simp only [enroll_objs_self, Option.some.injEq] at hj
      subst hj
      exact ⟨hw.counter.1, by omega, hw.counter.2⟩
    · rw [enroll_objs_of_ne hrr] at hj
      have h := hw.ids r' j hj
      exact ⟨h.1, by omega, h.2.2⟩
  case counter =>
    have := hw.counter
    show w.env.requestIdStart ≤ w.requestCounter + 2 ∧
      (w.requestCounter + 2) % 2 = w.env.requestIdStart % 2
    omega
  case injective =>
    intro r' r'' j hj hj'
    by_cases h1 : r' = r <;> by_cases h2 : r'' = r
    · rw [h1, h2]
    · subst h1
      rw [enroll_objs_self] at hj
      rw [enroll_objs_of_ne h2] at hj'
      have := (hw.ids r'' j hj').2.1
      simp only [Option.some.injEq] at hj
      omega
    · subst h2
      rw [enroll_objs_of_ne h1] at hj
      rw [enroll_objs_self] at hj'
      have := (hw.ids r' j hj).2.1
      simp only [Option.some.injEq] at hj'
      omega
    · rw [enroll_objs_of_ne h1] at hj
      rw [enroll_objs_of_ne h2] at hj'
      exact hw.injective r' r'' j hj hj'
  case transport =>
    show true = !(w.requests.set w.requestCounter r).isEmpty
    simp
  case faults => exact hw.faults

/-- A producer of a request that was started is nothing the invariant mentions. -/
lemma Registry.setProducer {w : World} (hw : Registry w) {r : ℕ} (hid : (w.objs r).id ≠ none)
    (p : Option ℕ) : Registry (w.setObj r fun q => { q with producer := p }) := by
  have hobj : ∀ r', (w.setObj r fun q => { q with producer := p }).objs r' = w.objs r' ∨
      r' = r ∧ (w.setObj r fun q => { q with producer := p }).objs r' =
        { w.objs r' with producer := p } := by
    intro r'
    by_cases h : r' = r
    · subst h; exact Or.inr ⟨rfl, by simp⟩
    · exact Or.inl (setObj_objs_of_ne h _)
  refine { hw with
    entry := fun i r' hi => ?_, registered := fun r' i hi hf => ?_, unfinished := fun r' hs => ?_,
    fired := fun r' hf => ?_, fresh := fun r' hn => ?_, ids := fun r' i hi => ?_,
    injective := fun r' r'' i hi hi' => ?_ }
  · rcases hobj r' with h | ⟨-, h⟩ <;> rw [h] <;> exact hw.entry i r' hi
  · rcases hobj r' with h | ⟨-, h⟩ <;> rw [h] at hi hf <;> exact hw.registered r' i hi hf
  · rcases hobj r' with h | ⟨-, h⟩ <;> rw [h] at hs ⊢ <;> exact hw.unfinished r' hs
  · rcases hobj r' with h | ⟨-, h⟩ <;> rw [h] at hf ⊢ <;> exact hw.fired r' hf
  · rcases hobj r' with h | ⟨hr, h⟩ <;> rw [h] at hn ⊢
    · exact hw.fresh r' hn
    · exact absurd (hr ▸ hn) hid
  · rcases hobj r' with h | ⟨-, h⟩ <;> rw [h] at hi <;> exact hw.ids r' i hi
  · rcases hobj r' with h | ⟨-, h⟩ <;> rcases hobj r'' with h' | ⟨-, h'⟩ <;>
      rw [h] at hi <;> rw [h'] at hi' <;> exact hw.injective r' r'' i hi hi'

/-! ### Moves -/

/-- What an event may do to the registry and the requests, one thing after another. -/
inductive Move (s : World) : World → Prop
  /-- Nothing the invariant is about. -/
  | quiet {t : World} (h : t.ledger = s.ledger) : Move s t
  /-- A request that was started gets a producer. -/
  | producer {r : ℕ} (hid : (s.objs r).id ≠ none) (p : Option ℕ) :
      Move s (s.setObj r fun q => { q with producer := p })
  /-- A fresh request is registered. -/
  | enroll {r : ℕ} (hid : (s.objs r).id = none) : Move s (s.enroll r)
  /-- A registered request is done or has an error. -/
  | finish {r : ℕ} {i : ℤ} (hr : s.requests.get? i = some r) (o : Outcome) :
      Move s (s.finish r i o)

abbrev Moves : World → World → Prop := Relation.ReflTransGen Move

instance : IsPreorder World Moves where
  refl _ := .refl
  trans _ _ _ := .trans

lemma Registry.of_move {s t : World} (hs : Registry s) (h : Move s t) : Registry t := by
  cases h with
  | quiet h => exact hs.of_ledger h
  | producer hid p => exact hs.setProducer hid p
  | enroll hid => exact hs.enroll hid
  | finish hr o => exact hs.finish hr o

lemma Registry.of_moves {s t : World} (hs : Registry s) (h : Moves s t) : Registry t := by
  induction h with
  | refl => exact hs
  | tail _ h ih => exact ih.of_move h

lemma Moves.quiet {s t : World} (h : t.ledger = s.ledger) : Moves s t := .single (.quiet h)

lemma Moves.of_core {s t : World} (h : t.core = s.core) : Moves s t := .quiet (ledger_of_core h)

/-- A request is registered under an id. -/
structure Registered (w : World) (r : ℕ) (i : ℤ) : Prop extends Registry w where
  get? : w.requests.get? i = some r

lemma Registered.of_ledger {s t : World} {r : ℕ} {i : ℤ} (hs : Registered s r i)
    (h : t.ledger = s.ledger) : Registered t r i :=
  ⟨hs.toRegistry.of_ledger h, (requests_of_ledger h).symm ▸ hs.get?⟩

lemma Registered.of_core {s t : World} {r : ℕ} {i : ℤ} (hs : Registered s r i)
    (h : t.core = s.core) : Registered t r i := hs.of_ledger (ledger_of_core h)

/-! ### What is never undone -/

/-- A request keeps its id, and once it is finished it stays so. -/
structure Ages (s t : World) : Prop where
  ids : ∀ r i, (s.objs r).id = some i → (t.objs r).id = some i
  finished : ∀ r, (s.objs r).finished = true → (t.objs r).finished = true

lemma obj_of_ledger {s t : World} (h : t.ledger = s.ledger) (r : ℕ) :
    (t.objs r).id = (s.objs r).id ∧ (t.objs r).finished = (s.objs r).finished := by
  show (t.ledger.objs r).id = (s.ledger.objs r).id ∧
    (t.ledger.objs r).finished = (s.ledger.objs r).finished
  rw [h]
  exact ⟨rfl, rfl⟩

lemma Ages.of_move {s t : World} (h : Move s t) : Ages s t := by
  cases h with
  | quiet h =>
    refine ⟨fun r i hi => ?_, fun r hf => ?_⟩
    · rw [(obj_of_ledger h r).1, hi]
    · rw [(obj_of_ledger h r).2, hf]
  | @producer r hid p =>
    refine ⟨fun r' i hi => ?_, fun r' hf => ?_⟩ <;> by_cases hrr : r' = r
    · subst hrr; simpa using hi
    · rwa [setObj_objs_of_ne hrr]
    · subst hrr; simpa using hf
    · rwa [setObj_objs_of_ne hrr]
  | @enroll r hid =>
    refine ⟨fun r' i hi => ?_, fun r' hf => ?_⟩ <;> by_cases hrr : r' = r
    · subst hrr; simp [hid] at hi
    · rwa [enroll_objs_of_ne hrr]
    · subst hrr; simpa using hf
    · rwa [enroll_objs_of_ne hrr]
  | @finish r i hr o =>
    refine ⟨fun r' j hj => ?_, fun r' hf => ?_⟩ <;> by_cases hrr : r' = r
    · subst hrr; simpa using hj
    · rwa [finish_objs_of_ne hrr]
    · subst hrr; simp
    · rwa [finish_objs_of_ne hrr]

lemma Moves.ages {s t : World} (h : Moves s t) : Ages s t := by
  induction h with
  | refl => exact ⟨fun _ _ => id, fun _ => id⟩
  | tail _ h ih =>
    have := Ages.of_move h
    exact ⟨fun r i hi => this.ids r i (ih.ids r i hi),
      fun r hf => this.finished r (ih.finished r hf)⟩

end Magicicada.Client
