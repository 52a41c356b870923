import Magicicada.Lifecycle
import Magicicada.Streams

/-!
Response streams of several requests, shuffled.

A message for one of the requests changes that request alone, as it would if nothing else was
outstanding, so what a request ends up with depends on its own stream only.
-/

namespace Magicicada.Client

open Pb Errors Requests Prog

/-- What a deferred is fired with when `processMessage` ends the request. -/
def Outcome.ofReply : Reply → Option Outcome
  | .done => some .callback
  | .error e | .raise e => some (.errback e)
  | _ => none

/-- What `processMessage` reads of a request when no callback is called. -/
def Request.context (q : Request) : Context := { cancelled := q.cancelled, raises := none }

/-- A request after a message. -/
def Request.receive (q : Request) (m : Message) : Request :=
  match Outcome.ofReply (q.kind.processMessage q.context m).2 with
  | none => { q with kind := (q.kind.processMessage q.context m).1 }
  | some o => { q with
    kind := (q.kind.processMessage q.context m).1, finished := true, started := false
    deferred := some o }

/-- The messages are valid, and a well-formed stream for the request. -/
structure Request.Answered (q : Request) (items : List Message) (last : Message) : Prop where
  valid : ∀ m ∈ items ++ [last], validateMessage m = []
  wellFormed : WellFormed q.context q.kind items last

/-- What a request is to be after a stream of items and the message that ended it. -/
def Request.answered (q : Request) (items : List Message) (last : Message) : Request := { q with
  kind := q.kind.collected q.context items last
  finished := true
  started := false
  deferred := Outcome.ofReply ((q.kind.takeAll q.context items).processMessage q.context last).2 }

/-- Messages, as events. -/
def deliveries (l : List Message) : List Event := l.map fun m => .message m none

/-- The messages with an id. -/
def streamOf (i : ℤ) (l : List Message) : List Message := l.filter fun m => m.id = i

/-! ### One request -/

lemma Request.receive_stay {q : Request} {m : Message}
    (h : (q.kind.processMessage q.context m).2 = .stay) :
    q.receive m = { q with kind := (q.kind.processMessage q.context m).1 } := by
  simp [Request.receive, h, Outcome.ofReply]

lemma Outcome.ofReply_of_ends {reply : Reply} (h : reply.ends = true) :
    ∃ o, Outcome.ofReply reply = some o := by
  cases reply with
  | done => exact ⟨_, rfl⟩
  | error e => exact ⟨_, rfl⟩
  | raise e => exact ⟨_, rfl⟩
  | stay => cases h
  | produce offset => cases h
  | notify => cases h

lemma Request.receive_ends {q : Request} {m : Message}
    (h : (q.kind.processMessage q.context m).2.ends = true) :
    q.receive m = { q with
      kind := (q.kind.processMessage q.context m).1, finished := true, started := false
      deferred := Outcome.ofReply (q.kind.processMessage q.context m).2 } := by
  unfold Request.receive
  cases hr : (q.kind.processMessage q.context m).2 <;> simp_all [Reply.ends, Outcome.ofReply]

/-- **A request after its stream** has collected the items and is finished. -/
lemma Request.foldl_receive {items : List Message} {last : Message} :
    ∀ {q : Request}, q.kind.collects → WellFormed q.context q.kind items last →
      (items ++ [last]).foldl Request.receive q = q.answered items last := by
  induction items with
  | nil =>
    intro q hq h
    have hlast := Kind.takeAll_collected hq h
    have hends := h.ends
    simp only [Kind.takeAll, List.foldl_nil] at hlast hends
    simp [Request.answered, Request.receive_ends hends, Kind.takeAll, hlast]
  | cons m items ih =>
    intro q hq h
    obtain ⟨hstay, haccepts⟩ := h.accepts
    have hrec := Request.receive_stay hstay
    rcases Kind.collects_cases hq q.context m with ⟨-, hq', hcons⟩ | ⟨hends, -⟩
    · have := ih (q := q.receive m) (by rwa [hrec]) (by rw [hrec]; exact ⟨haccepts, h.ends⟩)
      rw [List.cons_append, List.foldl_cons, this, hrec]
      simp only [Request.answered, Request.mk.injEq, true_and, and_true]
      exact ⟨hcons items last, rfl⟩
    · rw [hstay] at hends
      cases hends

/-! ### One message -/

/-- What a message for a registered request that collects changes. -/
structure Received (w t : World) (r : ℕ) (m : Message) : Prop where
  self : t.objs r = (w.objs r).receive m
  others : ∀ r', r' ≠ r → t.objs r' = w.objs r'
  requests : t.requests =
    if ((w.objs r).receive m).finished then w.requests.erase m.id else w.requests

/-- A registered request after it has looked at a message. -/
def World.read (w : World) (r : ℕ) (m : Message) (raises : Option Exn) : World :=
  w.setObj r fun q => { q with
    kind := (q.kind.processMessage { cancelled := q.cancelled, raises := raises } m).1 }

/-- What `processMessage` of a registered request does with a message. -/
def World.reply (w : World) (r : ℕ) (m : Message) (raises : Option Exn) : Reply :=
  ((w.objs r).kind.processMessage { cancelled := (w.objs r).cancelled, raises := raises } m).2

/-- **A message for a registered request** is carried out by what the request says to it, and the
request gets an error for what that raises. -/
lemma Registered.message_run {w : World} {r : ℕ} {m : Message} (hw : Registered w r m.id)
    (hm : validateMessage m = []) (raises : Option Exn) : w.step (.message m raises) =
      after (tryCatch (carryOut r m raises (w.reply r m raises)) (errorOf m.id) : M PUnit)
        (w.read r m raises) := by
  have hrun : (Request.processMessage r m raises).run w =
      (carryOut r m raises (w.reply r m raises)).run (w.read r m raises) := rfl
  show after (Client.processMessage m raises) w = _
  rw [processMessage_valid hm]
  refine after_congr ?_
  rw [dispatch_registered hw.get?, run_tryCatch, hrun, run_tryCatch]

lemma Registered.read {w : World} {r : ℕ} {i : ℤ} (hw : Registered w r i) (m : Message)
    (raises : Option Exn) : Registered (w.read r m raises) r i :=
  hw.of_ledger (ledger_setKind w r fun k =>
    (k.processMessage { cancelled := (w.objs r).cancelled, raises := raises } m).1)

/-- A message after which the request goes on. -/
lemma Registered.message_stay {w : World} {r : ℕ} {m : Message} (hw : Registered w r m.id)
    (hm : validateMessage m = []) (raises : Option Exn) (h : w.reply r m raises = .stay) :
    w.step (.message m raises) = w.read r m raises := by
  rw [hw.message_run hm, h]
  rfl

/-- A message that ends its request. -/
lemma Registered.message_ends {w : World} {r : ℕ} {m : Message} (hw : Registered w r m.id)
    (hm : validateMessage m = []) (raises : Option Exn) {o : Outcome}
    (h : Outcome.ofReply (w.reply r m raises) = some o) :
    w.step (.message m raises) = (w.read r m raises).finish r m.id o := by
  have hu := hw.read m raises
  have hsettle := settle_run hu.toRegistry hu.get?
  rw [hw.message_run hm]
  refine after_of_ok (a := ⟨⟩) ?_
  cases hreply : w.reply r m raises with
  | done =>
    rw [hreply] at h
    cases h
    rw [run_tryCatch, carryOut, Request.done, hsettle]
  | error e =>
    rw [hreply] at h
    cases h
    rw [run_tryCatch, carryOut, Request.error, hsettle]
  | raise e =>
    rw [hreply] at h
    cases h
    rw [run_tryCatch]
    exact errorOf_run hu e
  | stay => rw [hreply] at h; cases h
  | produce offset => rw [hreply] at h; cases h
  | notify => rw [hreply] at h; cases h

/-- A message for a registered request that collects changes that request alone. -/
lemma received_of_registered {w : World} {r : ℕ} {m : Message} (hw : Registered w r m.id)
    (hm : validateMessage m = []) (hk : (w.objs r).kind.collects) :
    Received w (w.step (.message m none)) r m := by
  have hfin : (w.objs r).finished = false := (hw.entry _ r hw.get?).2.2.1
  have hself : (w.read r m none).objs r =
      { w.objs r with kind := ((w.objs r).kind.processMessage (w.objs r).context m).1 } :=
    setObj_objs_self w r fun q => { q with kind := (q.kind.processMessage q.context m).1 }
  have hothers : ∀ r', r' ≠ r → (w.read r m none).objs r' = w.objs r' :=
    fun r' h => setObj_objs_of_ne h _
  rcases Kind.collects_cases hk (w.objs r).context m with ⟨hstay, -⟩ | ⟨hends, -⟩
  · rw [hw.message_stay hm none hstay]
    refine ⟨?_, hothers, ?_⟩
    · rw [hself, Request.receive_stay hstay]
    · rw [Request.receive_stay hstay]
      simp [hfin, World.read, World.setObj]
  · obtain ⟨o, ho⟩ := Outcome.ofReply_of_ends hends
    rw [hw.message_ends hm none ho]
    refine ⟨?_, fun r' h => ?_, ?_⟩
    · rw [finish_objs_self, hself, Request.receive_ends hends, ho]
    · rw [finish_objs_of_ne h, hothers r' h]
    · rw [finish_requests, Request.receive_ends hends]
      rfl

/-! ### Shuffled streams -/

@[simp] lemma streamOf_nil (i : ℤ) : streamOf i [] = [] := rfl

lemma streamOf_cons_self (m : Message) (l : List Message) :
    streamOf m.id (m :: l) = m :: streamOf m.id l := by simp [streamOf]

lemma streamOf_cons_of_ne {m : Message} {i : ℤ} (h : m.id ≠ i) (l : List Message) :
    streamOf i (m :: l) = streamOf i l := by simp [streamOf, h]

lemma streamOf_eq_nil {i : ℤ} {l : List Message} : streamOf i l = [] ↔ ∀ m ∈ l, m.id ≠ i := by
  simp [streamOf]

/-- Each message belongs to the stream of a registered request. -/
structure Awaited (w : World) (l : List Message) : Prop where
  registered : ∀ m ∈ l, ∃ r, w.requests.get? m.id = some r
  answered : ∀ i r, w.requests.get? i = some r → streamOf i l ≠ [] → (w.objs r).kind.collects ∧
    ∃ items last, streamOf i l = items ++ [last] ∧ (w.objs r).Answered items last

/-- The stream of the first message's request begins with it. -/
lemma Awaited.first {w : World} {m : Message} {l : List Message} (h : Awaited w (m :: l)) {r : ℕ}
    (hr : w.requests.get? m.id = some r) : (w.objs r).kind.collects ∧
    ∃ items last, m :: streamOf m.id l = items ++ [last] ∧ (w.objs r).Answered items last := by
  have := h.answered m.id r hr
  rw [streamOf_cons_self] at this
  exact this (List.cons_ne_nil _ _)

lemma Awaited.valid {w : World} {m : Message} {l : List Message} (h : Awaited w (m :: l)) :
    validateMessage m = [] := by
  obtain ⟨r, hr⟩ := h.registered m (List.mem_cons_self ..)
  obtain ⟨-, items, last, hstream, hans⟩ := h.first hr
  exact hans.valid m (hstream ▸ List.mem_cons_self ..)

/-- The first message is an item and its request goes on, or it is the last of its stream and the
request is taken out. -/
lemma Awaited.head {w t : World} {m : Message} {l : List Message} {r : ℕ}
    (h : Awaited w (m :: l)) (hw : Registered w r m.id) (ht : Received w t r m) :
    (t.requests = w.requests ∧ (t.objs r).kind.collects ∧
      ∃ items last, streamOf m.id l = items ++ [last] ∧ (t.objs r).Answered items last) ∨
    (t.requests = w.requests.erase m.id ∧ streamOf m.id l = []) := by
  obtain ⟨hk, items, last, hstream, hans⟩ := h.first hw.get?
  have hfin : (w.objs r).finished = false := (hw.entry _ r hw.get?).2.2.1
  rw [ht.requests, ht.self]
  cases items with
  | nil =>
    obtain ⟨rfl, hnil⟩ := List.cons_eq_cons.mp hstream
    have hends := hans.wellFormed.ends
    exact Or.inr ⟨by rw [Request.receive_ends hends]; rfl, hnil⟩
  | cons m' items =>
    obtain ⟨rfl, hrest⟩ := List.cons_eq_cons.mp hstream
    obtain ⟨hstay, haccepts⟩ := hans.wellFormed.accepts
    rw [Request.receive_stay hstay]
    rcases Kind.collects_cases hk (w.objs r).context m with ⟨-, hk', -⟩ | ⟨hends, -⟩
    · refine Or.inl ⟨by simp [hfin], hk', items, last, hrest, ?_, haccepts, hans.wellFormed.ends⟩
      exact fun m' hm' => hans.valid m' (List.mem_cons_of_mem _ hm')
    · rw [hstay] at hends
      cases hends

/-- Nothing is registered by a message. -/
lemma Received.get?_of_get? {w t : World} {r : ℕ} {m : Message} (h : Received w t r m) {j : ℤ}
    {r' : ℕ} (hj : t.requests.get? j = some r') : w.requests.get? j = some r' := by
  rw [h.requests] at hj
  split at hj
  · rw [Dict.get?_erase] at hj
    split at hj
    · cases hj
    · exact hj
  · exact hj

/-- The rest of the messages is still awaited when the first one was taken. -/
lemma Awaited.tail {w t : World} {m : Message} {l : List Message} {r : ℕ}
    (h : Awaited w (m :: l)) (hw : Registered w r m.id) (ht : Received w t r m) : Awaited t l := by
  have hhead := h.head hw ht
  refine ⟨fun m' hm' => ?_, fun j r' hj hne => ?_⟩
  · obtain ⟨r', hr'⟩ := h.registered m' (List.mem_cons_of_mem _ hm')
    refine ⟨r', ?_⟩
    rcases hhead with ⟨hsame, -⟩ | ⟨hgone, hnil⟩
    · rw [hsame, hr']
    · rw [hgone, Dict.get?_erase, if_neg (streamOf_eq_nil.mp hnil m' hm'), hr']
  · have hwj := ht.get?_of_get? hj
    by_cases hji : j = m.id
    · subst hji
      have hr' : r' = r := Option.some.inj (hwj.symm.trans hw.get?)
      subst hr'
      rcases hhead with ⟨-, hk, hans⟩ | ⟨-, hnil⟩
      · exact ⟨hk, hans⟩
      · exact absurd hnil hne
    · have hr' : r' ≠ r := by
        rintro rfl
        exact hji (hw.eq_of_get? hwj hw.get?)
      rw [ht.others r' hr']
      have := h.answered j r' hwj
      rw [streamOf_cons_of_ne (Ne.symm hji)] at this
      exact this hne

/-- Each registered request was changed as its own stream changes it, the others were not, and
the requests that got a message are taken out. -/
structure Delivered (w t : World) (l : List Message) : Prop where
  objs : ∀ i r, w.requests.get? i = some r →
    t.objs r = (streamOf i l).foldl Request.receive (w.objs r)
  others : ∀ r, (∀ i, w.requests.get? i ≠ some r) → t.objs r = w.objs r
  requests : ∀ i, t.requests.get? i = if streamOf i l = [] then w.requests.get? i else none

/-- One more message before the others. -/
lemma Delivered.cons {w t u : World} {m : Message} {l : List Message} {r : ℕ}
    (hw : Registered w r m.id) (h : Awaited w (m :: l)) (ht : Received w t r m)
    (hu : Delivered t u l) : Delivered w u (m :: l) := by
  have hhead := h.head hw ht
  have hget : ∀ j, j ≠ m.id → t.requests.get? j = w.requests.get? j := by
    intro j hj
    rcases hhead with ⟨hsame, -⟩ | ⟨hgone, -⟩
    · rw [hsame]
    · rw [hgone, Dict.get?_erase, if_neg hj]
  constructor
  case objs =>
    intro j r' hj
    by_cases hji : j = m.id
    · subst hji
      have hr' : r' = r := Option.some.inj (hj.symm.trans hw.get?)
      subst hr'
      rw [streamOf_cons_self, List.foldl_cons, ← ht.self]
      rcases hhead with ⟨hsame, -⟩ | ⟨hgone, hnil⟩
      · exact hu.objs _ _ (by rw [hsame, hw.get?])
      · -- it was the last message, and the request is gone
        rw [hnil]
        refine hu.others r' fun i hi => ?_
        have := hw.eq_of_get? (ht.get?_of_get? hi) hw.get?
        subst this
        rw [hgone, Dict.get?_erase, if_pos rfl] at hi
        cases hi
    · have hr' : r' ≠ r := by
        rintro rfl
        exact hji (hw.eq_of_get? hj hw.get?)
      rw [streamOf_cons_of_ne (Ne.symm hji), ← ht.others r' hr']
      exact hu.objs j r' (by rw [hget j hji, hj])
  case others =>
    intro r' hr'
    have hne : r' ≠ r := by
      rintro rfl
      exact hr' m.id hw.get?
    rw [hu.others r' fun i hi => hr' i (ht.get?_of_get? hi), ht.others r' hne]
  case requests =>
    intro j
    rw [hu.requests]
    by_cases hji : j = m.id
    · subst hji
      rw [streamOf_cons_self, if_neg (List.cons_ne_nil _ _)]
      rcases hhead with ⟨-, -, items, last, hstream, -⟩ | ⟨hgone, hnil⟩
      · rw [hstream, if_neg (by simp)]
      · rw [if_pos hnil, hgone, Dict.get?_erase, if_pos rfl]
    · rw [streamOf_cons_of_ne (Ne.symm hji), hget j hji]

/-- **Messages that are awaited** change each request as its own stream does. -/
lemma run_deliveries {l : List Message} : ∀ {w : World}, Registry w → Awaited w l →
    Delivered w (Runs.run World.step w (deliveries l)) l := by
  induction l with
  | nil =>
    intro w _ _
    exact ⟨fun _ _ _ => rfl, fun _ _ => rfl, fun i => by simp [deliveries]⟩
  | cons m l ih =>
    intro w hw h
    obtain ⟨r, hr⟩ := h.registered m (List.mem_cons_self ..)
    have hreg : Registered w r m.id := ⟨hw, hr⟩
    have ht := received_of_registered hreg h.valid (h.first hr).1
    have hstep := hw.step (e := .message m none) h.valid
    exact (ih hstep (h.tail hreg ht)).cons hreg h ht

/-- **Shuffled response streams** of any number of outstanding requests leave each request as its
own stream alone would, with exactly its items, and take out exactly these requests. -/
theorem demultiplex {w : World} (hw : Reachable w) (S : Finset ℤ) (items : ℤ → List Message)
    (last : ℤ → Message) (hS : ∀ i ∈ S, ∃ r, w.requests.get? i = some r ∧
      (w.objs r).kind.collects ∧ (w.objs r).Answered (items i) (last i))
    {l : List Message} (hl : ∀ m ∈ l, m.id ∈ S)
    (hshuffle : ∀ i ∈ S, streamOf i l = items i ++ [last i]) :
    (∀ i ∈ S, ∀ r, w.requests.get? i = some r →
      (Runs.run World.step w (deliveries l)).objs r = (w.objs r).answered (items i) (last i) ∧
      (Runs.run World.step w (deliveries l)).objs r =
        (Runs.run World.step w (deliveries (items i ++ [last i]))).objs r) ∧
    ∀ i, (Runs.run World.step w (deliveries l)).requests.get? i =
      if i ∈ S then none else w.requests.get? i := by
  have hreg := hw.registry
  have hawaited : ∀ l', (∀ m ∈ l', m.id ∈ S) →
      (∀ i, streamOf i l' ≠ [] → streamOf i l' = items i ++ [last i]) → Awaited w l' := by
    intro l' hl' hstream
    refine ⟨fun m hm => ?_, fun i r hr hne => ?_⟩
    · obtain ⟨r, hr, -⟩ := hS m.id (hl' m hm)
      exact ⟨r, hr⟩
    · obtain ⟨m, hm, hmi⟩ : ∃ m ∈ l', m.id = i := by
        by_contra hnone
        exact hne (streamOf_eq_nil.mpr fun m hm hmi => hnone ⟨m, hm, hmi⟩)
      obtain ⟨r', hr', hk, hans⟩ := hS i (hmi ▸ hl' m hm)
      obtain rfl : r' = r := Option.some.inj (hr'.symm.trans hr)
      exact ⟨hk, items i, last i, hstream i hne, hans⟩
  have hmem : ∀ i, streamOf i l ≠ [] → i ∈ S := by
    intro i hne
    by_contra hi
    exact hne (streamOf_eq_nil.mpr fun m hm hmi => hi (hmi ▸ hl m hm))
  have hall := run_deliveries hreg (hawaited l hl fun i hne => hshuffle i (hmem i hne))
  refine ⟨fun i hi r hr => ?_, fun i => ?_⟩
  · have hids : ∀ m ∈ items i ++ [last i], m.id = i := by
      intro m hm
      rw [← hshuffle i hi] at hm
      simpa [streamOf] using (List.mem_filter.mp hm).2
    have hself : streamOf i (items i ++ [last i]) = items i ++ [last i] :=
      List.filter_eq_self.mpr fun m hm => by simpa using hids m hm
    have halone := run_deliveries hreg (hawaited (items i ++ [last i])
      (fun m hm => (hids m hm).symm ▸ hi) fun j hne => by
        obtain rfl : i = j := by
          by_contra hij
          exact hne (streamOf_eq_nil.mpr fun m hm hmj => hij ((hids m hm).symm.trans hmj))
        exact hself)
    obtain ⟨r', hr', hk, hans⟩ := hS i hi
    obtain rfl : r' = r := Option.some.inj (hr'.symm.trans hr)
    rw [hall.objs i r' hr, halone.objs i r' hr, hself, hshuffle i hi]
    exact ⟨Request.foldl_receive hk hans.wellFormed, rfl⟩
  · rw [hall.requests]
    by_cases hi : i ∈ S
    · rw [hshuffle i hi, if_neg (by simp), if_pos hi]
    · rw [if_neg hi, if_pos]
      by_contra hne
      exact hi (hmem i hne)

/-! ### A download and a listing -/

/-- A client with a download and a listing under way. -/
def listening : World :=
  Runs.run World.step
    (World.init
      (fun r => if r = 0 then .getContent { share := "s", nodeId := "n", hash := "h" }
        else .listVolumes {})
      fun _ => ⟨fun _ => .ok [], []⟩)
    [.start 0, .start 1]

lemma reachable_listening : Reachable listening := by
  refine ⟨_, [.start 0, .start 1], initial_init _ _, ?_, rfl⟩
  exact ⟨⟨rfl, rfl⟩, ⟨rfl, rfl⟩, trivial⟩

/-- Some content. -/
def someBytes : Message := { id := 1, type := .bytes, bytes := some { bytes := some [0] } }

/-- The end of the listing comes before that of the download. -/
theorem demultiplex_two :
    (Runs.run World.step listening (deliveries
      [someBytes, { id := 3, type := .volumesEnd }, { id := 1, type := .eof }])).objs 0 =
    (listening.objs 0).answered [someBytes] { id := 1, type := .eof } := by
  have h := demultiplex reachable_listening {1, 3} (fun i => if i = 1 then [someBytes] else [])
    (fun i => if i = 1 then { id := 1, type := .eof } else { id := 3, type := .volumesEnd })
    (l := [someBytes, { id := 3, type := .volumesEnd }, { id := 1, type := .eof }]) ?_ ?_ ?_
  · exact (h.1 1 (by decide) 0 rfl).1
  · intro i hi
    obtain rfl | rfl : i = 1 ∨ i = 3 := by simpa using hi
    · exact ⟨0, rfl, rfl, by decide, ⟨rfl, trivial⟩, rfl⟩
    · exact ⟨1, rfl, rfl, by decide, trivial, rfl⟩
  · decide
  · intro i hi
    obtain rfl | rfl : i = 1 ∨ i = 3 := by simpa using hi
    · rfl
    · rfl

end Magicicada.Client
