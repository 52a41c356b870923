import Magicicada.Alone
import Magicicada.QueryFrames
import Magicicada.Received

/-!
The items of a `MultiQuery` at the peer.

Each query is a message of its own, and the peer has it whole or not at all. Once all queries are
started and no bytes are in flight, what the peer was asked is what the client was to ask.
-/

namespace Magicicada.Received

open Pb Errors Requests Prog Fields Framing Frames Connected Client MultiQuery

/-! ### The client's part of a run -/

variable {ε : Type} {act : World → ε → World} {admits : World → ε → Prop} {l : Line}

/-- What happens to the client. -/
def clientEvents (es : List (Event ε)) : List ε := es.filterMap fun e =>
  match e with
  | .client e => some e
  | .deliver _ => none

lemma client_deliver (act : World → ε → World) (l : Line) (k : ℕ) :
    (l.step act (.deliver k)).client = l.client := by
  unfold Line.step
  simp only
  split <;> rfl

/-- Once all that is in flight is delivered, nothing is. -/
lemma inFlight_deliver (act : World → ε → World) {l : Line} {k : ℕ}
    (hk : l.inFlight.length ≤ k) : (l.step act (.deliver k)).inFlight = [] := by
  unfold Line.step
  simp only [List.take_of_length_le hk]
  split
  · next hnil => exact hnil
  · refine List.drop_eq_nil_iff.mpr ?_
    have hlen : l.inFlight.length = l.written.length - l.delivered := List.length_drop
    show l.written.length ≤ l.delivered + l.inFlight.length
    omega

lemma client_run {es : List (Event ε)} : ∀ {l : Line}, (Runs.run (Line.step act) l es).client =
    Runs.run act l.client (clientEvents es) := by
  induction es with
  | nil => exact rfl
  | cons e es ih =>
    intro l
    rw [Runs.run_cons, ih]
    cases e with
    | client e => rfl
    | deliver k => rw [client_deliver]; rfl

lemma client_legal {es : List (Event ε)} : ∀ {l : Line},
    Runs.Legal (Line.step act) (Admits admits) l es →
    Runs.Legal act admits l.client (clientEvents es) := by
  induction es with
  | nil => exact fun _ => trivial
  | cons e es ih =>
    intro l hes
    have hrest := ih hes.2
    cases e with
    | client e => exact ⟨hes.1, hrest⟩
    | deliver k => rwa [client_deliver] at hrest

end Magicicada.Received

namespace Magicicada.Client

open Pb Errors Requests Prog

variable {r : ℕ} {i : ℤ} {w : World} {es : List Event}

/-! ### A request that is not started -/

/-- Losing the connection is nothing to a request that is not registered. -/
lemma self_lost_of_not_mem (hr : ∀ j, w.requests.get? j ≠ some r) (reason : Exn) :
    (w.step (.lost reason)).self r = w.self r := by
  have hcore := core_unregisterSelf w
  have hstep : w.step (.lost reason) =
      after (w.requests.values.forM (loseRequest reason)) (unregisterSelf w) :=
    after_congr (connectionLost_run reason w)
  rw [hstep, ← self_of_core hcore]
  have hne : ∀ r' ∈ w.requests.values, r ≠ r' := by
    rintro r' hr' rfl
    obtain ⟨j, hj⟩ := Dict.mem_values_iff.mp hr'
    exact hr j hj
  exact within_forM (R := Frame (World.self r)) _
    (fun r' hr' => self_loseRequest_of_ne (hne r' hr') reason) _

/-- An event that does not start it can only set the flag of a request that is not started. -/
lemma unstarted_step (hw : Registry w) {e : Event} (he : AdmitsAny w e) (hne : e ≠ .start r)
    (hid : (w.objs r).id = none) : ∃ q : Request, (w.step e).self r = q ∧
      q.id = none ∧ q.kind = (w.objs r).kind ∧ q.argError = (w.objs r).argError := by
  suffices hself : ∃ b, (w.step e).self r = { w.self r with cancelled := b } by
    obtain ⟨b, hself⟩ := hself
    exact ⟨_, hself, hid, rfl, rfl⟩
  by_cases h : Concerns r w e
  swap
  · exact ⟨(w.self r).cancelled, self_step hw he h⟩
  have hidle := hw.fresh r hid
  cases e with
  | start r' => exact absurd (congrArg Event.start h) hne
  | message m raises => simp [(hw.entry _ r h.2).1] at hid
  | cancel r' =>
    obtain rfl : r' = r := h
    refine ⟨true, (self_cancel_self r' w).trans ?_⟩
    rw [if_neg (by simp [show (w.self r').finished = false from hidle.2.1])]
  | done r' =>
    obtain rfl : r' = r := h
    simp [show (w.objs r').started = true from he] at hidle
  | error r' e =>
    obtain rfl : r' = r := h
    simp [show (w.objs r').started = true from he] at hidle
  | lost reason =>
    refine ⟨(w.self r).cancelled, self_lost_of_not_mem (fun j hj => ?_) reason⟩
    simp [(hw.entry j r hj).1] at hid
  | _ => cases h

/-- Ids stay. -/
lemma id_run (hw : Registry w)
    (hes : Runs.Legal World.step AdmitsAny w es) (hid : (w.objs r).id = some i) :
    ((Runs.run World.step w es).objs r).id = some i :=
  (hes.invariant (I := fun t => Registry t ∧ (t.objs r).id = some i)
    (fun _ _ hs he => ⟨hs.1.stepAny he, (hs.1.movesAny he).ages.ids r i hs.2⟩) ⟨hw, hid⟩).2

/-- **A request that has an id** got it when it was started, and was then of the kind it was of
from the beginning. -/
lemma started_split {es : List Event} : ∀ {w : World}, Registry w →
    Runs.Legal World.step AdmitsAny w es → (w.objs r).id = none →
    ((Runs.run World.step w es).objs r).id = some i →
    ∃ es₁ es₂, es = es₁ ++ .start r :: es₂ ∧
      (Runs.run World.step w es₁).requestCounter = i ∧
      ((Runs.run World.step w es₁).objs r).kind = (w.objs r).kind ∧
      ((Runs.run World.step w es₁).objs r).argError = (w.objs r).argError := by
  induction es with
  | nil => exact fun _ _ hnone hid => by simp [hnone] at hid
  | cons e es ih =>
    intro w hw hes hnone hid
    by_cases he : e = .start r
    · subst he
      have hgiven := (hw.start hes.1.1 hes.1.2).ages.ids r w.requestCounter (by simp)
      have hkept := id_run (hw.stepAny hes.1) hes.2 hgiven
      exact ⟨[], es, rfl, Option.some.inj (hkept.symm.trans hid), rfl, rfl⟩
    · obtain ⟨q, hself, hq, hkind, harg⟩ := unstarted_step hw hes.1 he hnone
      have hnext : ((w.step e).objs r).id = none := (congrArg Request.id hself).trans hq
      obtain ⟨es₁, es₂, rfl, hcounter, hkind', harg'⟩ := ih (hw.stepAny hes.1) hes.2 hnext hid
      refine ⟨e :: es₁, es₂, rfl, hcounter, hkind'.trans ?_, harg'.trans ?_⟩
      · exact (congrArg Request.kind hself).trans hkind
      · exact (congrArg Request.argError hself).trans harg

end Magicicada.Client

namespace Magicicada.Received

open Pb Errors Requests Prog Bytes Wire Fields Framing Frames Connected Client MultiQuery

variable {ν : Type} {str : ν → String} {r : ℕ} {i : ℤ} {w₀ : World} {l : Line}

/-! ### What the client says of a query -/

/-- **A query that was started** has sent its message, and nothing more. -/
lemma spoken_query {q : MultiQuery.Query ν} (h₀ : Initial w₀) (hr : Unstarted w₀ r q)
    (htype : q.queryMessage.type = .query) {es : List Client.Event}
    (hes : Runs.Legal World.step AdmitsAny w₀ es)
    (hid : ((Runs.run World.step w₀ es).objs r).id = some i) :
    spoken i (Runs.run World.step w₀ es).sent =
      if int32 i then [{ q.queryMessage with id := i }] else [] := by
  obtain ⟨es₁, es₂, rfl, rfl, hkind, harg⟩ := started_split h₀.registry hes hr.id hid
  obtain ⟨hes₁, hes₂⟩ := Runs.legal_append.mp hes
  have hw : Known (Runs.run World.step w₀ es₁) :=
    hes₁.invariant (fun _ _ hs he => hs.step he) h₀.known
  rw [Runs.run_append]
  generalize Runs.run World.step w₀ es₁ = w at hkind harg hes₂ hw
  obtain ⟨response, hquery⟩ := hr.kind
  rw [hquery] at hkind
  rw [hr.argError] at harg
  obtain ⟨later, hsaid, hmay, -⟩ := hw.conversation_run hes₂
  have hnone : later = [] := by
    refine List.eq_nil_iff_forall_not_mem.mpr fun m hm => ?_
    rcases hmay m hm with ⟨hcontent, -⟩ | ⟨⟨hput, -⟩, -⟩
    · rw [hkind] at hcontent
      cases hcontent
    · rw [hkind] at hput
      cases hput
  have hopening : (w.objs r).opening w.requestCounter =
      if int32 w.requestCounter then [{ q.queryMessage with id := w.requestCounter }] else [] := by
    unfold Request.opening
    rw [harg, hkind]
    rfl
  rw [hsaid, hnone, List.append_nil, hopening]
  split
  · simp [spoken, htype]
  · rfl

/-! ### What the peer has of it -/

/-- What the peer has with the id of a request, the answers to its own messages apart. -/
def Line.asked (l : Line) (r : ℕ) : List Message :=
  match (l.client.objs r).id with
  | some i => spoken i l.peer.app
  | none => []

/-- The peer has the message of a query, with the id of the query. -/
def Line.HasQuery (l : Line) (r : ℕ) (q : MultiQuery.Query ν) : Prop :=
  ∃ i, (l.client.objs r).id = some i ∧ l.asked r = [{ q.queryMessage with id := i }]

/-- A query, of the ones a `MultiQuery` is split into, is at the peer whole or not at all. -/
lemma asked_query {q : MultiQuery.Query ν} (h₀ : Initial w₀) (hr : Unstarted w₀ r q)
    (htype : q.queryMessage.type = .query) {es : List (Event Client.Event)}
    (hes : Runs.Legal (Line.step World.step) (Admits AdmitsAny) (Line.init w₀) es)
    (harrives : Arrives World.step (Line.init w₀) es) :
    let l := Runs.run (Line.step World.step) (Line.init w₀) es
    (l.asked r = [] ∨ l.HasQuery r q) ∧ (l.inFlight = [] →
      (∃ i, (l.client.objs r).id = some i ∧ int32 i = true) → l.HasQuery r q) := by
  intro l
  have hclient : l.client = Runs.run World.step w₀ (clientEvents es) := client_run
  have hspoken := fun i => spoken_query (i := i) h₀ hr htype (client_legal hes)
  rw [← hclient] at hspoken
  unfold Line.HasQuery Line.asked
  cases hid : (l.client.objs r).id with
  | none => exact ⟨Or.inl rfl, fun _ ⟨i, hi, _⟩ => by cases hi⟩
  | some i =>
    have hsent := hspoken i hid
    constructor
    · have hprefix : spoken i l.peer.app <+: spoken i l.client.sent := harrives.isPrefix.filter _
      rw [hsent] at hprefix
      split at hprefix
      · rcases hl : spoken i l.peer.app with _ | ⟨m, l'⟩
        · exact Or.inl hl
        · rw [hl] at hprefix
          obtain ⟨rfl, hnil⟩ := List.cons_prefix_cons.mp hprefix
          rw [List.prefix_nil.mp hnil] at hl
          exact Or.inr ⟨i, rfl, hl⟩
      · exact Or.inl (List.prefix_nil.mp hprefix)
    · rintro hnone ⟨j, hj, hfits⟩
      obtain rfl := Option.some.inj hj
      refine ⟨i, rfl, ?_⟩
      show spoken i l.peer.app = _
      rw [harrives.all hnone, hsent, if_pos hfits]

/-- **What a `MultiQuery` asks is what the peer is asked**: of each query the peer has the whole
message or none of it, and once all of them are started and no bytes are in flight, their items
together are the items of the `MultiQuery`, each once and in order. -/
theorem queries_arrive (str : ν → String) {items : List (Item ν)}
    (hfit : ∀ x ∈ items, byteSize (queryOf str [x]) ≤ maxMessageSize) {fuel : ℕ}
    (hfuel : items.length < fuel) {qs : List (MultiQuery.Query ν)}
    (hqs : queries str fuel items = some qs) {w₀ : World} (h₀ : Initial w₀) {rs : List ℕ}
    (hrs : List.Forall₂ (Unstarted w₀) rs qs) {es : List (Event Client.Event)}
    (hes : Runs.Legal (Line.step World.step) (Admits AdmitsAny) (Line.init w₀) es)
    (hfits : ∀ m ∈ (Runs.run (Line.step World.step) (Line.init w₀) es).client.sent, Fits m) :
    let l := Runs.run (Line.step World.step) (Line.init w₀) es
    List.Forall₂ (fun r q => l.asked r = [] ∨ l.HasQuery r q) rs qs ∧ (l.inFlight = [] →
      (∀ r ∈ rs, ∃ i, (l.client.objs r).id = some i ∧ int32 i = true) →
      rs.flatMap (fun r => (l.asked r).flatMap Message.query) = items.map (toQuery str)) := by
  intro l
  have harrives := grows_client.arrives h₀.known hes hfits
  obtain ⟨qs', hqs', hparts⟩ := queries_parts items hfit
  obtain rfl : qs = qs' := Option.some.inj (hqs.symm.trans (hqs' fuel hfuel))
  have htypes : ∀ q ∈ qs, q.queryMessage.type = .query := by
    intro q hq
    obtain ⟨part, -, hpart⟩ := List.mem_map.mp (hparts ▸ List.mem_map_of_mem hq)
    rw [← hpart]
    rfl
  have hasked : List.Forall₂ (fun r q => (l.asked r = [] ∨ l.HasQuery r q) ∧ (l.inFlight = [] →
      (∃ i, (l.client.objs r).id = some i ∧ int32 i = true) → l.HasQuery r q)) rs qs :=
    List.forall₂_iff_zip.mpr ⟨hrs.length_eq, fun hmem =>
      asked_query h₀ ((List.forall₂_iff_zip.mp hrs).2 hmem)
        (htypes _ (List.of_mem_zip hmem).2) hes harrives⟩
  refine ⟨hasked.imp fun _ _ h => h.1, fun hnone hstarted => ?_⟩
  have hall : rs.flatMap (fun r => (l.asked r).flatMap Message.query) =
      qs.flatMap fun q => q.queryMessage.query := by
    clear hrs htypes hparts hqs hqs'
    induction hasked with
    | nil => rfl
    | cons h _ ih =>
      obtain ⟨i, -, hasked⟩ := h.2 hnone (hstarted _ (List.mem_cons_self ..))
      rw [List.flatMap_cons, List.flatMap_cons, hasked,
        ih fun r hr => hstarted r (List.mem_cons_of_mem _ hr)]
      simp
  calc rs.flatMap (fun r => (l.asked r).flatMap Message.query)
      = (qs.map MultiQuery.Query.queryMessage).flatMap Message.query := by
        rw [hall, List.flatMap_map]
    _ = (partsOf str items).flatMap fun part => part.map (toQuery str) := by
        rw [hparts, List.flatMap_map]
        rfl
    _ = (partsOf str items).flatten.map (toQuery str) := by
        rw [List.map_flatten, List.flatMap_def]
    _ = items.map (toQuery str) := by
        rw [partsOf, NextFit.flatten_parts, List.nil_append]

/-! ### One item -/

def anItem : Item String := ("", "", "")

/-- A client that is to query about an item. -/
def querying : World :=
  World.init (fun _ => .query { queryMessage := queryOf id [anItem] })
    fun _ => ⟨fun _ => .ok [], []⟩

/-- What it sends. -/
def itemQuery : Message := { queryOf id [anItem] with id := 1 }

/-- The query is started, and its frame delivered in one piece. -/
def queryDelivered : List (Event Client.Event) :=
  [.client (.start 0), .deliver (sendMessages [itemQuery]).length]

lemma itemSize_anItem : itemSize id anItem = 8 := by
  have hnil : utf8 "" = [] := rfl
  simp (disch := decide) [itemSize, toQuery, anItem, NodeState.listFields, strField, Tree.encode,
    Scalar.encode, key, delimited, base128_of_lt, hnil]

lemma fits_itemQuery : Fits itemQuery := by
  have hsize : byteSize itemQuery = 12 := by
    have hid : idSize 1 = 1 := by simp [idSize, ofInt, base128]
    rw [itemQuery, byteSize_withId, NextFit.load_singleton, itemSize_anItem, hid]
  refine ⟨⟨?_, rfl⟩, fun hnil => ?_, ?_⟩
  · constructor <;> simp [itemQuery, queryOf, addItems, emptyQuery, IntOf]
  · rw [byteSize, hnil] at hsize
    cases hsize
  · show byteSize itemQuery ≤ maxMessageSize
    rw [hsize]
    decide

/-- A line whose client has started the query. -/
def asking : Line := Line.step World.step (Line.init querying) (.client (.start 0))

lemma sent_asking : asking.client.sent = [itemQuery] := rfl

theorem queries_arrive_one :
    let l := Runs.run (Line.step World.step) (Line.init querying) queryDelivered
    (l.asked 0).flatMap Message.query = [toQuery id anItem] := by
  have hitem : itemSize id anItem ≤ room := by
    rw [itemSize_anItem]
    decide
  have hfit : ∀ x ∈ [anItem], byteSize (queryOf id [x]) ≤ maxMessageSize := by
    simpa [byteSize_queryOf_le] using hitem
  obtain ⟨q, hqs, hq⟩ := queries_singleton hitem
  have hrs : List.Forall₂ (Unstarted querying) [0] [q] :=
    .cons ⟨rfl, rfl, rfl, ⟨[], by rw [hq]; rfl⟩⟩ .nil
  have hlegal : Runs.Legal (Line.step World.step) (Admits AdmitsAny) (Line.init querying)
      queryDelivered := ⟨⟨rfl, rfl⟩, trivial, trivial⟩
  have hinitial : Initial querying := initial_init _ _
  have hrun : Runs.run (Line.step World.step) (Line.init querying) queryDelivered =
      asking.step World.step (.deliver (sendMessages [itemQuery]).length) := rfl
  have hclient : (Runs.run (Line.step World.step) (Line.init querying) queryDelivered).client =
      asking.client := by rw [hrun, client_deliver]
  have hdone : (Runs.run (Line.step World.step) (Line.init querying)
      queryDelivered).inFlight = [] := by
    rw [hrun]
    refine inFlight_deliver World.step (le_of_eq ?_)
    show (sendMessages asking.client.sent).length = _
    rw [sent_asking]
  have h := queries_arrive id hfit (Nat.lt_succ_self 1) hqs hinitial hrs hlegal fun m hm => by
    rw [hclient, sent_asking] at hm
    rw [List.mem_singleton.mp hm]
    exact fits_itemQuery
  have hall := h.2 hdone fun r hr => ⟨1, by rw [hclient, List.mem_singleton.mp hr]; rfl, rfl⟩
  simpa using hall

end Magicicada.Received
