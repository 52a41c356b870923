import Magicicada.MultiQuery
import Magicicada.NextFit
import Magicicada.Starting

/-!
The frames of a `MultiQuery` on the wire. Each query was measured with the id 0, and is sent
with the id its `start` gives it.
-/

namespace Magicicada.MultiQuery

open Pb Errors Wire Fields Bytes Framing Prog Client

variable {ν : Type} (str : ν → String)

/-! ### Sizes -/

/-- The bytes an item takes in a message. -/
def itemSize (item : Item ν) : ℕ :=
  (Tree.message "query" 7 (NodeState.listFields (toQuery str item))).encode.length

/-- The length of the varint of an id. -/
def idSize (i : ℤ) : ℕ := (base128 (ofInt i)).length

/-- What a message has room for besides the id 0 and the type. -/
def room : ℕ := maxMessageSize - 4

lemma length_encodeAll (ts : List Tree) :
    (encodeAll ts).length = (ts.map fun t => t.encode.length).sum := by
  induction ts with
  | nil => simp
  | cons t ts ih => simp [ih]

lemma length_repField {α : Type} (name : String) (number : ℕ) (f : α → List Tree) (l : List α) :
    (encodeAll (repField name number f l)).length =
      (l.map fun a => (Tree.message name number (f a)).encode.length).sum := by
  unfold repField
  split
  · next h => simp [h]
  · rw [encodeAll_cons, encodeAll_nil, List.append_nil, Tree.encode, length_encodeAll, List.map_map]
    rfl

lemma listFields_withId (items : List (Item ν)) (i : ℤ) :
    Message.listFields { queryOf str items with id := i } =
      .scalar "id" 1 (.varint (ofInt i)) :: .scalar "type" 2 (.varint 15) ::
        repField "query" 7 NodeState.listFields (items.map (toQuery str)) := by
  simp [Message.listFields, queryOf, addItems, emptyQuery, intField, uintField, subField,
    strField, repField, MessageType.number]

/-- The size of a query with the id it is sent with. -/
lemma byteSize_withId (items : List (Item ν)) (i : ℤ) :
    byteSize { queryOf str items with id := i } =
      3 + idSize i + NextFit.load (itemSize str) items := by
  have hid : (Tree.scalar "id" 1 (.varint (ofInt i))).encode.length = 1 + idSize i := by
    simp (disch := decide) [Tree.encode, Scalar.encode, key, base128_of_lt, idSize]
    omega
  have htype : (Tree.scalar "type" 2 (.varint 15)).encode.length = 2 := by
    simp (disch := decide) [Tree.encode, Scalar.encode, key, base128_of_lt]
  have hitems : (encodeAll (repField "query" 7 NodeState.listFields
      (items.map (toQuery str)))).length = NextFit.load (itemSize str) items := by
    rw [length_repField, List.map_map]
    rfl
  calc byteSize { queryOf str items with id := i }
      = 1 + idSize i + (2 + NextFit.load (itemSize str) items) := by
        rw [byteSize, serialize, listFields_withId, encodeAll_cons, encodeAll_cons,
          List.length_append, List.length_append, hid, htype, hitems]
    _ = 3 + idSize i + NextFit.load (itemSize str) items := by omega

lemma idSize_zero : idSize 0 = 1 := by simp [idSize, ofInt, base128_of_lt]

lemma byteSize_queryOf (items : List (Item ν)) :
    byteSize (queryOf str items) = 4 + NextFit.load (itemSize str) items := by
  have h := byteSize_withId str items 0
  rwa [idSize_zero] at h

lemma byteSize_queryOf_le (items : List (Item ν)) :
    byteSize (queryOf str items) ≤ maxMessageSize ↔
      NextFit.load (itemSize str) items ≤ room := by
  rw [byteSize_queryOf, room]
  have : 4 ≤ maxMessageSize := by decide
  omega

/-! ### The queries are the parts next-fit cuts -/

/-- The items cut into parts that fit a message with the id 0. -/
def partsOf (items : List (Item ν)) : List (List (Item ν)) :=
  NextFit.parts (itemSize str) room [] items

variable {str}

/-- What is left after a query is cut the same way. -/
lemma partsOf_more {l : List (Item ν)} {x : Item ν} {rest : List (Item ν)}
    (hx : byteSize (queryOf str [x]) ≤ maxMessageSize)
    (size : byteSize (queryOf str l) ≤ maxMessageSize)
    (more : maxMessageSize < byteSize (queryOf str (l ++ [x]))) :
    partsOf str (l ++ x :: rest) = l :: partsOf str (x :: rest) := by
  rw [byteSize_queryOf_le] at hx size
  rw [← not_le, byteSize_queryOf_le, not_le] at more
  rw [NextFit.load_singleton] at hx
  calc partsOf str (l ++ x :: rest)
      = NextFit.parts (itemSize str) room l (x :: rest) :=
        NextFit.parts_append [] (by simpa using size) (x :: rest)
    _ = l :: NextFit.parts (itemSize str) room [x] rest := NextFit.parts_cons more rest
    _ = l :: partsOf str (x :: rest) := by rw [partsOf, NextFit.parts_nil_cons hx]

/-- **The queries are made of the parts next-fit cuts the items into.** -/
lemma queries_parts (items : List (Item ν))
    (hfit : ∀ x ∈ items, byteSize (queryOf str [x]) ≤ maxMessageSize) :
    ∃ qs, (∀ fuel, items.length < fuel → queries str fuel items = some qs) ∧
      qs.map Query.queryMessage = (partsOf str items).map (queryOf str) := by
  refine queries_induction
    (P := fun items qs => qs.map Query.queryMessage = (partsOf str items).map (queryOf str))
    (fun items size => ?_) (fun l x left qs _ hx size more hmap => ?_) items hfit
  · have hparts : partsOf str items = [items] := by
      rw [byteSize_queryOf_le] at size
      have := NextFit.parts_append [] (l := items) (by simpa using size) []
      simpa [partsOf, NextFit.parts] using this
    simp [hparts]
  · rw [partsOf_more hx size more, List.map_cons, List.map_cons, hmap]

/-! ### Starting the queries -/

/-- `MultiQuery.start`. -/
def startAll (rs : List ℕ) : M PUnit := rs.forM start

/-- A request object for a query that nobody has started. -/
structure Unstarted (w : World) (r : ℕ) (q : Query ν) : Prop where
  id : (w.objs r).id = none
  source : (w.objs r).source = none
  argError : (w.objs r).argError = none
  kind : ∃ response, (w.objs r).kind =
    .query { queryMessage := q.queryMessage, response := response }

/-- The messages with the ids `start` gives them, one after another. -/
def numbered : ℤ → List Message → List Message
  | _, [] => []
  | i, m :: ms => { m with id := i } :: numbered (i + 2) ms

lemma Unstarted.of_ne {w : World} {r r' : ℕ} {q : Query ν} (h : Unstarted w r' q) (hne : r' ≠ r)
    (m : Message) : Unstarted (w.begin r m) r' q := by
  have hobj := begin_objs_of_ne (w := w) hne m
  obtain ⟨response, hkind⟩ := h.kind
  exact ⟨(congrArg Request.id hobj).trans h.id, (congrArg Request.source hobj).trans h.source,
    (congrArg Request.argError hobj).trans h.argError,
    ⟨response, (congrArg Request.kind hobj).trans hkind⟩⟩

/-- `start` of a query sends its message, with the next id. -/
lemma start_query {w : World} (hw : Registry w) {r : ℕ} {q : Query ν} (hr : Unstarted w r q)
    (hi : int32 w.requestCounter = true) :
    (start r).run w = .ok ⟨⟩ (w.begin r q.queryMessage) := by
  obtain ⟨response, hkind⟩ := hr.kind
  rw [start_begin hw hr.id hr.source hr.argError (by rw [hkind]; rfl) hi, hkind]
  rfl

/-- **Starting the queries** sends their messages in order, with ids two apart. -/
lemma startAll_run {rs : List ℕ} {qs : List (Query ν)} :
    ∀ {w : World}, Registry w → List.Forall₂ (Unstarted w) rs qs → rs.Nodup →
      (∀ k < qs.length, int32 (w.requestCounter + 2 * k) = true) →
      ∃ t, (startAll rs).run w = .ok ⟨⟩ t ∧
        t.sent = w.sent ++ numbered w.requestCounter (qs.map Query.queryMessage) := by
  induction rs generalizing qs with
  | nil =>
    intro w _ h _ _
    obtain rfl := List.forall₂_nil_left_iff.mp h
    exact ⟨w, rfl, by simp [numbered]⟩
  | cons r rs ih =>
    intro w hw h hnodup hids
    obtain ⟨q, qs, hr, hrs, rfl⟩ := List.forall₂_cons_left_iff.mp h
    obtain ⟨hnotin, hnodup⟩ := List.nodup_cons.mp hnodup
    have hrun := start_query hw hr (by simpa using hids 0 (by simp))
    have hrest : List.Forall₂ (Unstarted (w.begin r q.queryMessage)) rs qs := by
      obtain ⟨hlen, hzip⟩ := List.forall₂_iff_zip.mp hrs
      refine List.forall₂_iff_zip.mpr ⟨hlen, fun {r' q'} hmem => ?_⟩
      refine (hzip hmem).of_ne ?_ _
      rintro rfl
      exact hnotin (List.of_mem_zip hmem).1
    obtain ⟨t, ht, hsent⟩ := ih (hw.begin hr.id q.queryMessage) hrest hnodup fun k hk => by
      have := hids (k + 1) (by simpa using hk)
      rw [begin_requestCounter]
      push_cast at this ⊢
      rwa [show w.requestCounter + 2 + 2 * (k : ℤ) = w.requestCounter + 2 * (k + 1) by ring]
    refine ⟨t, (run_bind_ok hrun).trans ht, ?_⟩
    calc t.sent = (w.begin r q.queryMessage).sent ++ numbered
          (w.begin r q.queryMessage).requestCounter (qs.map Query.queryMessage) := hsent
      _ = w.sent ++ numbered w.requestCounter ((q :: qs).map Query.queryMessage) := by
        rw [begin_sent, begin_requestCounter]
        simp [numbered]

lemma mem_numbered {m : Message} {i : ℤ} {ms : List Message} : m ∈ numbered i ms ↔
    ∃ (k : ℕ) (m' : Message), ms[k]? = some m' ∧ m = { m' with id := i + 2 * k } := by
  induction ms generalizing i with
  | nil => simp [numbered]
  | cons m' ms ih =>
    rw [numbered, List.mem_cons, ih]
    constructor
    · rintro (rfl | ⟨k, m'', hk, rfl⟩)
      · exact ⟨0, m', rfl, by simp⟩
      · exact ⟨k + 1, m'', hk, by push_cast; ring_nf⟩
    · rintro ⟨k, m'', hk, rfl⟩
      cases k with
      | zero =>
        obtain rfl : m' = m'' := by simpa using hk
        exact Or.inl (by simp)
      | succ k => exact Or.inr ⟨k, m'', by simpa using hk, by push_cast; ring_nf⟩

/-! ### What the peer makes of the frames -/

/-- `buildMessage` of the peer refuses the size of the frame. -/
def Refused (m : Message) : Prop :=
  raised (buildMessage (fun _ => (pure ⟨⟩ : EStateM Exn Unit PUnit)) (enough sizeFmtSize)
    (packSize (byteSize m))) (fresh ()) = some (.storageProtocolErrorSizeTooBig "message too big")

/-- The frame is within the size limit, and the peer does not refuse it. -/
def Accepted (m : Message) : Prop := byteSize m ≤ maxMessageSize ∧ ¬Refused m

/-- The peer takes the size of a frame within the limit. -/
lemma accepted_iff (m : Message) : Accepted m ↔ byteSize m ≤ maxMessageSize := by
  refine ⟨fun h => h.1, fun h => ⟨h, ?_⟩⟩
  have hlt : byteSize m < 2 ^ 32 := lt_of_le_of_lt h (by decide)
  let accept : Bytes → EStateM Exn Unit PUnit := fun _ => pure ⟨⟩
  have htake : (buildMessage accept 10 (packSize (byteSize m))).run (fresh ()) =
      (moreData accept ((packSize (byteSize m)).take (fresh ()).pendingLength)).run (fresh ()) :=
    buildMessage_take 9 (packSize (byteSize m)) le_rfl
  have hlen : (fresh ()).pendingLength ≤
      ((packSize (byteSize m)).take (fresh ()).pendingLength).length := Nat.le_refl 4
  rw [moreData_eq, if_pos hlen] at htake
  let v : Handler Unit :=
    { fresh () with pendingParts := [packSize (byteSize m)], pendingLength := 0 }
  have hsize : (finishPart accept).run v = _ := finishPart_size rfl
    (by simp [v, sizeFmtSize]) (by simpa [v, bigEndian_packSize hlt] using h)
  intro hrefused
  have hnone := raised_of_ok (htake.trans hsize)
  exact nomatch hrefused.symm.trans hnone

/-- The items cut into parts that fit with the id 0: the varint of the id of the `k`-th part is
longer than one byte by no more than the part leaves free. -/
def Roomy (str : ν → String) (counter : ℤ) (items : List (Item ν)) : Prop :=
  ∀ (k : ℕ) part, (partsOf str items)[k]? = some part →
    idSize (counter + 2 * k) - 1 ≤ room - NextFit.load (itemSize str) part

lemma fits_iff_slack (items : List (Item ν)) (i : ℤ)
    (h : NextFit.load (itemSize str) items ≤ room) :
    byteSize { queryOf str items with id := i } ≤ maxMessageSize ↔
      idSize i - 1 ≤ room - NextFit.load (itemSize str) items := by
  have hpos : 0 < idSize i := by
    unfold idSize
    rw [base128]
    split <;> simp
  have hmax : 4 ≤ maxMessageSize := by decide
  rw [byteSize_withId]
  unfold room at *
  omega

/-- What starting the queries puts on the wire. -/
def frames (w : World) (rs : List ℕ) : List Message :=
  (after (startAll rs) w).sent.drop w.sent.length

/-- The frames are the parts of the items, with the ids they are sent with. -/
lemma frames_eq {items : List (Item ν)}
    (hfit : ∀ x ∈ items, byteSize (queryOf str [x]) ≤ maxMessageSize) {fuel : ℕ}
    (hfuel : items.length < fuel) {qs : List (Query ν)} (hqs : queries str fuel items = some qs)
    {w : World} (hw : Registry w) {rs : List ℕ} (hrs : List.Forall₂ (Unstarted w) rs qs)
    (hnodup : rs.Nodup) (hids : ∀ k < qs.length, int32 (w.requestCounter + 2 * k) = true) :
    frames w rs = numbered w.requestCounter ((partsOf str items).map (queryOf str)) := by
  obtain ⟨qs', hqs', hparts⟩ := queries_parts items hfit
  obtain rfl : qs = qs' := Option.some.inj (hqs.symm.trans (hqs' fuel hfuel))
  obtain ⟨t, ht, hsent⟩ := startAll_run hw hrs hnodup hids
  calc frames w rs = t.sent.drop w.sent.length := by rw [frames, after_of_ok ht]
    _ = numbered w.requestCounter (qs.map Query.queryMessage) := by rw [hsent, List.drop_left]
    _ = numbered w.requestCounter ((partsOf str items).map (queryOf str)) := by rw [hparts]

/-- **The frames of a `MultiQuery` are all accepted** exactly when the ids are no longer than the
parts of the items have room for. -/
theorem frames_accepted_iff (str : ν → String) {items : List (Item ν)}
    (hfit : ∀ x ∈ items, byteSize (queryOf str [x]) ≤ maxMessageSize) {fuel : ℕ}
    (hfuel : items.length < fuel) {qs : List (Query ν)} (hqs : queries str fuel items = some qs)
    {w : World} (hw : Registry w) {rs : List ℕ} (hrs : List.Forall₂ (Unstarted w) rs qs)
    (hnodup : rs.Nodup) (hids : ∀ k < qs.length, int32 (w.requestCounter + 2 * k) = true) :
    (∀ m ∈ frames w rs, Accepted m) ↔ Roomy str w.requestCounter items := by
  have hload : ∀ part ∈ partsOf str items, NextFit.load (itemSize str) part ≤ room :=
    NextFit.load_le (Nat.zero_le _) fun x hx => by
      simpa using (byteSize_queryOf_le str [x]).mp (hfit x hx)
  simp only [frames_eq hfit hfuel hqs hw hrs hnodup hids, accepted_iff, mem_numbered]
  constructor
  · intro h k part hk
    refine (fits_iff_slack part _ (hload part (List.mem_of_getElem? hk))).mp ?_
    exact h _ ⟨k, queryOf str part, by rw [List.getElem?_map, hk]; rfl, rfl⟩
  · rintro h m ⟨k, m', hk, rfl⟩
    rw [List.getElem?_map] at hk
    obtain ⟨part, hpart, rfl⟩ := Option.map_eq_some_iff.mp hk
    exact (fits_iff_slack part _ (hload part (List.mem_of_getElem? hpart))).mpr (h k part hpart)

/-! ### An item as large as a message holds -/

/-- A handler that has given out 64 ids, with one query object. -/
def fullWorld (q : Message) : World :=
  { World.init (fun _ => .query { queryMessage := q }) (fun _ => ⟨fun _ => .ok [], []⟩) with
    requestCounter := 129 }

lemma registry_fullWorld (q : Message) : Registry (fullWorld q) := by
  have h := (initial_init (fun _ => .query { queryMessage := q })
    (fun _ => ⟨fun _ => .ok [], []⟩)).registry
  exact { h with
    ids := fun r i hi => nomatch hi
    counter := ⟨by show (1 : ℤ) ≤ 129; omega, rfl⟩ }

lemma unstarted_fullWorld (q : Query ν) : Unstarted (fullWorld q.queryMessage) 0 q :=
  ⟨rfl, rfl, rfl, ⟨[], rfl⟩⟩

/-- An item whose hash has that many characters. -/
def longItem (n : ℕ) : Item String := ("", "", String.ofList (List.replicate n 'a'))

lemma length_utf8_replicate (n : ℕ) :
    (utf8 (String.ofList (List.replicate n 'a'))).length = n := by
  have hlen : ∀ s : String, (utf8 s).length = s.utf8ByteSize := fun _ => rfl
  rw [hlen]
  induction n with
  | zero => rfl
  | succ n ih =>
    rw [List.replicate_succ', String.ofList_append, String.utf8ByteSize_append, ih]
    rfl

lemma length_base128 {n : ℕ} (h : 2 ^ 14 ≤ n) (h' : n < 2 ^ 21) : (base128 n).length = 3 := by
  rw [base128, if_neg (by omega), base128, if_neg (by omega), base128, if_pos (by omega)]
  rfl

lemma itemSize_hash {s : String} {n : ℕ} (hn : (utf8 s).length = n) (h : 2 ^ 14 ≤ n)
    (h' : n < 2 ^ 20) : itemSize id ("", "", s) = n + 12 := by
  have hnil : utf8 "" = [] := rfl
  have hhash := length_base128 h (by omega : n < 2 ^ 21)
  have hfields : (encodeAll (NodeState.listFields (toQuery id ("", "", s)))).length = n + 8 := by
    simp (disch := decide) [toQuery, NodeState.listFields, strField, Tree.encode, Scalar.encode,
      key, delimited, base128_of_lt, hnil, hn, hhash]
    omega
  have hitem := length_base128 (n := n + 8) (by omega) (by omega)
  simp (disch := decide) [itemSize, Tree.encode, key, delimited, base128_of_lt, hfields, hitem]
  omega

lemma itemSize_longItem : itemSize id (longItem 65520) = room :=
  itemSize_hash (length_utf8_replicate 65520) (by decide) (by decide)

lemma partsOf_singleton {x : Item ν} (h : itemSize str x ≤ room) : partsOf str [x] = [[x]] :=
  NextFit.parts_nil_cons h []

/-- The queries of one item that fits alone. -/
lemma queries_singleton {x : Item ν} (h : itemSize str x ≤ room) : ∃ q : Query ν,
    queries str 2 [x] = some [q] ∧ q.queryMessage = queryOf str [x] := by
  have hfit : ∀ y ∈ [x], byteSize (queryOf str [y]) ≤ maxMessageSize := by
    simpa [byteSize_queryOf_le] using h
  obtain ⟨qs, hqs, hmap⟩ := queries_parts [x] hfit
  rw [partsOf_singleton h] at hmap
  obtain ⟨q, rfl, hq⟩ := List.map_eq_singleton_iff.mp hmap
  exact ⟨q, hqs 2 (by simp), hq⟩

/-- The id 129 takes two bytes, and the item leaves room for one. -/
theorem not_frames_accepted : ¬∀ (items : List (Item String)) (fuel : ℕ) (qs : List (Query String))
    (w : World) (rs : List ℕ),
    (∀ x ∈ items, byteSize (queryOf id [x]) ≤ maxMessageSize) → items.length < fuel →
    queries id fuel items = some qs → Registry w → List.Forall₂ (Unstarted w) rs qs → rs.Nodup →
    (∀ k < qs.length, int32 (w.requestCounter + 2 * k) = true) →
    ∀ m ∈ frames w rs, Accepted m := by
  intro h
  have hsize : itemSize id (longItem 65520) ≤ room := itemSize_longItem.le
  obtain ⟨q, hqs, hq⟩ := queries_singleton hsize
  have hfit : ∀ x ∈ [longItem 65520], byteSize (queryOf id [x]) ≤ maxMessageSize := by
    simpa [byteSize_queryOf_le] using hsize
  have hrs : List.Forall₂ (Unstarted (fullWorld q.queryMessage)) [0] [q] :=
    .cons (unstarted_fullWorld q) .nil
  have hids : ∀ k < [q].length,
      int32 ((fullWorld q.queryMessage).requestCounter + 2 * k) = true := by
    intro k hk
    obtain rfl : k = 0 := by simpa using hk
    rfl
  have hw := registry_fullWorld q.queryMessage
  have hframes := frames_eq hfit (Nat.lt_succ_self 1) hqs hw hrs (List.nodup_singleton 0) hids
  rw [partsOf_singleton hsize] at hframes
  have hmem : { queryOf id [longItem 65520] with id := 129 } ∈
      frames (fullWorld q.queryMessage) [0] := by
    rw [hframes]
    exact List.mem_singleton_self _
  have haccepted := h _ 2 _ _ [0] hfit (Nat.lt_succ_self 1) hqs hw hrs (List.nodup_singleton 0) hids
    _ hmem
  rw [accepted_iff, byteSize_withId, NextFit.load_singleton, itemSize_longItem] at haccepted
  have hid : idSize 129 = 2 := by simp [idSize, ofInt, base128]
  rw [hid] at haccepted
  exact absurd haccepted (by decide)

/-- An item one byte shorter is accepted. -/
theorem frames_accepted_iff_shorter : ∃ q : Query String,
    queries id 2 [longItem 65519] = some [q] ∧
    ∀ m ∈ frames (fullWorld q.queryMessage) [0], Accepted m := by
  have hitem : itemSize id (longItem 65519) = room - 1 :=
    itemSize_hash (length_utf8_replicate 65519) (by decide) (by decide)
  have hsize : itemSize id (longItem 65519) ≤ room := by omega
  obtain ⟨q, hqs, hq⟩ := queries_singleton hsize
  have hfit : ∀ x ∈ [longItem 65519], byteSize (queryOf id [x]) ≤ maxMessageSize := by
    simpa [byteSize_queryOf_le] using hsize
  refine ⟨q, hqs, (frames_accepted_iff id hfit (Nat.lt_succ_self 1) hqs
    (registry_fullWorld q.queryMessage) (.cons (unstarted_fullWorld q) .nil)
    (List.nodup_singleton 0) fun k hk => ?_).mpr fun k part hk => ?_⟩
  · obtain rfl : k = 0 := by simpa using hk
    rfl
  · rw [partsOf_singleton hsize] at hk
    obtain ⟨rfl, rfl⟩ : k = 0 ∧ [longItem 65519] = part := by
      cases k with
      | zero => exact ⟨rfl, by simpa using hk⟩
      | succ k => simp at hk
    have hid : idSize 129 = 2 := by simp [idSize, ofInt, base128]
    have hroom : 1 ≤ room := by decide
    show idSize 129 - 1 ≤ _
    rw [NextFit.load_singleton, hitem, hid]
    omega

end Magicicada.MultiQuery
