import Magicicada.Fields
import Magicicada.Framing

/-!
Splitting the items of a query over several messages: `Query.__init__` and the loop of
`MultiQuery.__init__`.

An iterator is the list of what it still yields. A query takes items until the message grows
too large and hands back the item that was too much, which `MultiQuery` chains in front of
the rest.
-/

namespace Magicicada.MultiQuery

open Pb Wire Fields Framing

/-- A `(share, node, hash)` tuple. The node is whatever `str` is applied to. -/
abbrev Item (ν : Type) := String × ν × String

variable {ν : Type} (str : ν → String)

/-- The element of `msg.query` for an item. -/
def toQuery (item : Item ν) : NodeState :=
  { share := some item.1, node := some (str item.2.1), hash := some item.2.2 }

/-- `add_items` of `Query.__init__`. -/
def addItems (msg : Message) (args : List (Item ν)) : Message :=
  { msg with query := msg.query ++ args.map (toQuery str) }

/-- The message a query begins with. -/
def emptyQuery : Message := { id := 0, type := .query }

structure Query (ν : Type) where
  queryMessage : Message
  overflow : Option (Item ν)

/-- The loop of `Query.__init__` over the items: the message, the items that fit, the item
that did not, and what is left of the iterator. -/
def takeItems (qm : Message) (itemsThatFit : List (Item ν)) :
    List (Item ν) → Message × List (Item ν) × Option (Item ν) × List (Item ν)
  | [] => (qm, itemsThatFit, none, [])
  | item :: items =>
    let qm := addItems str qm [item]
    if maxMessageSize < byteSize qm then (qm, itemsThatFit, some item, items)
    else takeItems qm (itemsThatFit ++ [item]) items

/-- `Query.__init__`, with what is left of the iterator. -/
def Query.init (items : List (Item ν)) : Query ν × List (Item ν) :=
  match takeItems str emptyQuery [] items with
  | (qm, itemsThatFit, some item, rest) =>
    ({ queryMessage := addItems str { qm with query := [] } itemsThatFit, overflow := some item },
      rest)
  | (qm, _, none, rest) => ({ queryMessage := qm, overflow := none }, rest)

/-- The loop of `MultiQuery.__init__`, for as many rounds as there is fuel. -/
def queries : ℕ → List (Item ν) → Option (List (Query ν))
  | 0, _ => none
  | fuel + 1, items =>
    match Query.init str items with
    | (r, items) =>
      match r.overflow with
      | some item => (queries fuel (item :: items)).map (r :: ·)
      | none => some [r]

/-! ### One query -/

/-- The message with the given items. -/
def queryOf (items : List (Item ν)) : Message := addItems str emptyQuery items

@[simp] lemma queryOf_query (items : List (Item ν)) :
    (queryOf str items).query = items.map (toQuery str) := rfl

lemma addItems_queryOf (l m : List (Item ν)) :
    addItems str (queryOf str l) m = queryOf str (l ++ m) := by
  simp [addItems, queryOf, emptyQuery]

lemma listFields_queryOf (items : List (Item ν)) : Message.listFields (queryOf str items) =
    [.scalar "id" 1 (.varint 0), .scalar "type" 2 (.varint 15)] ++
      repField "query" 7 NodeState.listFields (items.map (toQuery str)) := by
  simp [Message.listFields, queryOf, addItems, emptyQuery, intField, uintField, subField,
    strField, repField, MessageType.number, ofInt]

lemma listFields_emptyQuery : Message.listFields emptyQuery =
    [.scalar "id" 1 (.varint 0), .scalar "type" 2 (.varint 15)] := rfl

lemma byteSize_emptyQuery : byteSize emptyQuery = 4 := by
  rw [byteSize, serialize, listFields_emptyQuery]
  simp (disch := decide) [Tree.encode, Scalar.encode, key, base128_of_lt]

/-- What a query was made of: all items, or those before the one that was too much. -/
inductive Took (items : List (Item ν)) : Query ν → List (Item ν) → Prop
  | all (size : byteSize (queryOf str items) ≤ maxMessageSize) :
      Took items ⟨queryOf str items, none⟩ []
  | part (l : List (Item ν)) (x : Item ν) (rest : List (Item ν)) (eq : items = l ++ x :: rest)
      (size : byteSize (queryOf str l) ≤ maxMessageSize)
      (more : maxMessageSize < byteSize (queryOf str (l ++ [x]))) :
      Took items ⟨queryOf str l, some x⟩ rest

variable {str}

lemma takeItems_cases {fit : List (Item ν)} (hfit : byteSize (queryOf str fit) ≤ maxMessageSize)
    (items : List (Item ν)) :
    (takeItems str (queryOf str fit) fit items =
        (queryOf str (fit ++ items), fit ++ items, none, []) ∧
      byteSize (queryOf str (fit ++ items)) ≤ maxMessageSize) ∨
    ∃ l x rest, items = l ++ x :: rest ∧
      takeItems str (queryOf str fit) fit items =
        (queryOf str (fit ++ l ++ [x]), fit ++ l, some x, rest) ∧
      byteSize (queryOf str (fit ++ l)) ≤ maxMessageSize ∧
      maxMessageSize < byteSize (queryOf str (fit ++ l ++ [x])) := by
  induction items generalizing fit with
  | nil => exact Or.inl ⟨by simp [takeItems], by simpa using hfit⟩
  | cons item items ih =>
    rw [takeItems, addItems_queryOf]
    by_cases hover : maxMessageSize < byteSize (queryOf str (fit ++ [item]))
    · rw [if_pos hover]
      exact Or.inr ⟨[], item, items, rfl, by simp, by simpa using hfit, by simpa using hover⟩
    · rw [if_neg hover]
      rcases ih (not_lt.mp hover) with ⟨heq, hsize⟩ | ⟨l, x, rest, rfl, heq, hsize, hx⟩
      · exact Or.inl ⟨by rw [heq]; simp, by simpa using hsize⟩
      · exact Or.inr ⟨item :: l, x, rest, rfl, by rw [heq]; simp, by simpa using hsize,
          by simpa using hx⟩

lemma init_took (items : List (Item ν)) :
    Took str items (Query.init str items).1 (Query.init str items).2 := by
  have hempty : emptyQuery = queryOf str [] := by simp [queryOf, addItems, emptyQuery]
  have hsize : byteSize (queryOf str []) ≤ maxMessageSize := by
    rw [← hempty, byteSize_emptyQuery]
    decide
  have hcases := takeItems_cases hsize items
  rw [← hempty] at hcases
  rcases hcases with ⟨heq, hsize⟩ | ⟨l, x, rest, rfl, heq, hsize, hx⟩
  · rw [Query.init, heq]
    exact .all hsize
  · rw [Query.init, heq]
    exact .part l x rest rfl hsize hx

/-! ### All the queries -/

/-- The first item of `r` was too much for `q`. -/
def NoRoom (q r : Query ν) : Prop :=
  ∃ e, r.queryMessage.query.head? = some e ∧
    maxMessageSize < byteSize { q.queryMessage with query := q.queryMessage.query ++ [e] }

lemma noRoom_of_more {l : List (Item ν)} {x : Item ν} {r : Query ν} {o : Option (Item ν)}
    (more : maxMessageSize < byteSize (queryOf str (l ++ [x])))
    (hr : r.queryMessage.query.head? = some (toQuery str x)) :
    NoRoom ⟨queryOf str l, o⟩ r := by
  refine ⟨toQuery str x, hr, ?_⟩
  have : { queryOf str l with query := (queryOf str l).query ++ [toQuery str x] } =
      queryOf str (l ++ [x]) := by
    simp [queryOf, addItems, emptyQuery]
  rw [this]
  exact more

/-- What a list of queries has to be for the items. -/
structure Splits (str : ν → String) (items : List (Item ν)) (qs : List (Query ν)) : Prop where
  items_eq : qs.flatMap (fun q => q.queryMessage.query) = items.map (toQuery str)
  fits : ∀ q ∈ qs, q.queryMessage.id = 0 ∧ byteSize q.queryMessage ≤ maxMessageSize
  noRoom : qs.IsChain NoRoom
  empty : ∀ q ∈ qs, q.queryMessage.query = [] → items = []

lemma splits_all {items : List (Item ν)}
    (size : byteSize (queryOf str items) ≤ maxMessageSize) :
    Splits str items [⟨queryOf str items, none⟩] where
  items_eq := by simp
  fits q hq := by
    obtain rfl := List.mem_singleton.mp hq
    exact ⟨rfl, size⟩
  noRoom := List.isChain_singleton _
  empty q hq he := by
    obtain rfl := List.mem_singleton.mp hq
    simpa using he

/-- A query that left an item over, in front of the queries for that item and the rest. -/
lemma splits_cons {l : List (Item ν)} {x : Item ν} {rest : List (Item ν)} {qs : List (Query ν)}
    (hl : l ≠ []) (size : byteSize (queryOf str l) ≤ maxMessageSize)
    (more : maxMessageSize < byteSize (queryOf str (l ++ [x])))
    (h : Splits str (x :: rest) qs) :
    Splits str (l ++ x :: rest) (⟨queryOf str l, some x⟩ :: qs) where
  items_eq := by simp [h.items_eq]
  fits q hq := by
    rcases List.mem_cons.mp hq with rfl | hq
    · exact ⟨rfl, size⟩
    · exact h.fits q hq
  noRoom := by
    refine List.isChain_cons.mpr ⟨fun r hr => ?_, h.noRoom⟩
    -- the next query is not empty, so it starts with the item that was too much
    obtain ⟨t, rfl⟩ : ∃ t, qs = r :: t := by
      cases qs with
      | nil => simp at hr
      | cons r' t => exact ⟨t, by simpa using hr⟩
    refine noRoom_of_more more ?_
    have hne : r.queryMessage.query ≠ [] := fun he => by simpa using h.empty r (by simp) he
    have heq := h.items_eq
    cases hr' : r.queryMessage.query with
    | nil => exact absurd hr' hne
    | cons e es =>
      simp only [List.flatMap_cons, hr', List.cons_append, List.map_cons, List.cons.injEq] at heq
      simp [heq.1]
  empty q hq he := by
    rcases List.mem_cons.mp hq with rfl | hq
    · exact absurd (by simpa using he) hl
    · simpa using h.empty q hq he

/-- Induction along the queries: either all items fit one query, or some do and the queries for
the rest follow. -/
lemma queries_induction {P : List (Item ν) → List (Query ν) → Prop}
    (hall : ∀ items, byteSize (queryOf str items) ≤ maxMessageSize →
      P items [⟨queryOf str items, none⟩])
    (hpart : ∀ l x left qs, l ≠ [] → byteSize (queryOf str [x]) ≤ maxMessageSize →
      byteSize (queryOf str l) ≤ maxMessageSize →
      maxMessageSize < byteSize (queryOf str (l ++ [x])) → P (x :: left) qs →
      P (l ++ x :: left) (⟨queryOf str l, some x⟩ :: qs))
    (items : List (Item ν)) (hfit : ∀ x ∈ items, byteSize (queryOf str [x]) ≤ maxMessageSize) :
    ∃ qs, (∀ fuel, items.length < fuel → queries str fuel items = some qs) ∧ P items qs := by
  induction hn : items.length using Nat.strong_induction_on generalizing items with
  | _ n ih =>
    subst hn
    have htook : Took str items _ _ := init_took items
    generalize hinit : Query.init str items = res at htook
    obtain ⟨q, left⟩ := res
    cases htook with
    | all size =>
      refine ⟨_, fun fuel hfuel => ?_, hall items size⟩
      obtain ⟨fuel, rfl⟩ : ∃ k, fuel = k + 1 := ⟨fuel - 1, by omega⟩
      simp [queries, hinit]
    | part l x _ eq size more =>
      subst eq
      have hx := hfit x (by simp)
      -- the item that was too much fits alone, so the query took something
      have hl : l ≠ [] := by
        rintro rfl
        simp only [List.nil_append] at more
        omega
      have hlen : 0 < l.length := List.length_pos_iff.mpr hl
      obtain ⟨qs, hqs, hrest⟩ := ih (x :: left).length (by simp; omega) (x :: left)
        (fun y hy => hfit y (List.mem_append_right _ hy)) rfl
      refine ⟨⟨queryOf str l, some x⟩ :: qs, fun fuel hfuel => ?_,
        hpart l x left qs hl hx size more hrest⟩
      obtain ⟨fuel, rfl⟩ : ∃ k, fuel = k + 1 := ⟨fuel - 1, by omega⟩
      have := hqs fuel (by simp at hfuel ⊢; omega)
      simp [queries, hinit, this]

/-- **`MultiQuery` loses, duplicates and reorders nothing.** When every item fits a message
alone, the loop ends within one round per item and one more, and the queries it made hold the
items in order, each within the size limit, with no room for the first item of the next; only
an empty input makes an empty query. -/
theorem queries_splits (str : ν → String) (items : List (Item ν))
    (hfit : ∀ x ∈ items, byteSize (queryOf str [x]) ≤ maxMessageSize) :
    ∃ qs, (∀ fuel, items.length < fuel → queries str fuel items = some qs) ∧
      Splits str items qs := by
  refine queries_induction (fun items size => splits_all size) ?_ items hfit
  intro l x left qs hl _ size more hsplits
  exact splits_cons hl size more hsplits

/-- Two small items. -/
theorem queries_splits_two :
    ∃ qs, queries id 3 [("", "n", "h"), ("s", "n", "g")] = some qs ∧
      Splits id [("", "n", "h"), ("s", "n", "g")] qs := by
  have utf8_nil : utf8 "" = [] := rfl
  have utf8_n : utf8 "n" = [110] := rfl
  have utf8_h : utf8 "h" = [104] := rfl
  have utf8_s : utf8 "s" = [115] := rfl
  have utf8_g : utf8 "g" = [103] := rfl
  have hfit : ∀ x ∈ [("", "n", "h"), ("s", "n", "g")],
      byteSize (queryOf id [x]) ≤ maxMessageSize := by
    intro x hx
    rw [byteSize, serialize, listFields_queryOf]
    rcases List.mem_pair.mp hx with rfl | rfl <;>
      simp (disch := decide) [repField, toQuery, NodeState.listFields, strField, Tree.encode,
        Scalar.encode, key, delimited, base128_of_lt, maxMessageSize, utf8_nil, utf8_n, utf8_h,
        utf8_s, utf8_g]
  obtain ⟨qs, hqs, hsplits⟩ := queries_splits id _ hfit
  exact ⟨qs, hqs 3 (by decide), hsplits⟩

end Magicicada.MultiQuery
