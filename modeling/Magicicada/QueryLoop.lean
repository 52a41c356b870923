import Magicicada.QueryFrames

/-!
When the loop of `MultiQuery.__init__` ends. A round that takes no item leaves the iterator as it
was, and that happens when the next item does not even fit a message alone.
-/

namespace Magicicada.MultiQuery

open Wire Fields Framing

variable {ν : Type} {str : ν → String}

/-! ### An item that never fits -/

lemma le_load {item : Item ν} {items : List (Item ν)} (h : item ∈ items) :
    itemSize str item ≤ NextFit.load (itemSize str) items :=
  List.le_sum_of_mem (List.mem_map_of_mem h)

/-- Items that fit a message together fit it alone. -/
lemma fits_of_mem {item : Item ν} {items : List (Item ν)} (h : item ∈ items)
    (size : byteSize (queryOf str items) ≤ maxMessageSize) :
    byteSize (queryOf str [item]) ≤ maxMessageSize := by
  rw [byteSize_queryOf_le] at size ⊢
  rw [NextFit.load_singleton]
  exact (le_load h).trans size

/-- A query whose first item is too much takes nothing, and leaves the iterator as it was. -/
lemma init_stuck {item : Item ν} (rest : List (Item ν))
    (h : maxMessageSize < byteSize (queryOf str [item])) :
    Query.init str (item :: rest) = (⟨queryOf str [], some item⟩, rest) := by
  have htook : Took str (item :: rest) _ _ := init_took (item :: rest)
  generalize hinit : Query.init str (item :: rest) = res at htook
  obtain ⟨q, left⟩ := res
  cases htook with
  | all size => exact absurd (fits_of_mem (by simp) size) (not_le.mpr h)
  | part l x _ eq size more =>
    cases l with
    | nil =>
      obtain ⟨rfl, rfl⟩ := List.cons.inj eq
      rfl
    | cons y l =>
      obtain ⟨rfl, -⟩ := List.cons.inj eq
      exact absurd (fits_of_mem (by simp) size) (not_le.mpr h)

/-- From such an item on every round builds another query without items. -/
lemma queries_stuck {item : Item ν} (rest : List (Item ν))
    (h : maxMessageSize < byteSize (queryOf str [item])) (fuel : ℕ) :
    queries str fuel (item :: rest) = none := by
  induction fuel with
  | zero => rfl
  | succ fuel ih => simp [queries, init_stuck rest h, ih]

/-- No number of rounds is enough for items of which one does not fit alone. -/
lemma queries_large {items : List (Item ν)} {item : Item ν} (hmem : item ∈ items)
    (h : maxMessageSize < byteSize (queryOf str [item])) (fuel : ℕ) :
    queries str fuel items = none := by
  induction fuel generalizing items with
  | zero => rfl
  | succ fuel ih =>
    have htook : Took str items _ _ := init_took items
    generalize hinit : Query.init str items = res at htook
    obtain ⟨q, left⟩ := res
    cases htook with
    | all size => exact absurd (fits_of_mem hmem size) (not_le.mpr h)
    | part l x _ eq size more =>
      subst eq
      -- the items taken fit together, so the large one is still to come
      have hleft : item ∈ x :: left := by
        rcases List.mem_append.mp hmem with hl | hleft
        · exact absurd (fits_of_mem hl size) (not_le.mpr h)
        · exact hleft
      simp [queries, hinit, ih hleft]

/-! ### The end of the loop -/

/-- **The loop of `MultiQuery` ends** exactly when every item fits a message alone. -/
theorem queries_ends_iff (str : ν → String) (items : List (Item ν)) :
    (∃ fuel qs, queries str fuel items = some qs) ↔
      ∀ item ∈ items, byteSize (queryOf str [item]) ≤ maxMessageSize := by
  constructor
  · rintro ⟨fuel, qs, hqs⟩ item hmem
    by_contra hlarge
    have hnone := queries_large hmem (not_le.mp hlarge) fuel
    exact absurd (hqs.symm.trans hnone) (Option.some_ne_none qs)
  · intro hfit
    obtain ⟨qs, hqs, -⟩ := queries_splits str items hfit
    exact ⟨items.length + 1, qs, hqs _ (Nat.lt_succ_self _)⟩

/-- A single item with a hash of 65536 characters. -/
theorem not_queries_ends : ¬∃ fuel qs, queries id fuel [longItem 65536] = some qs := by
  rintro ⟨fuel, qs, hqs⟩
  have hsize : itemSize id (longItem 65536) = 65536 + 12 :=
    itemSize_hash (length_utf8_replicate 65536) (by decide) (by decide)
  have hlarge : maxMessageSize < byteSize (queryOf id [longItem 65536]) := by
    rw [byteSize_queryOf, NextFit.load_singleton, hsize]
    decide
  have hnone := queries_stuck [] hlarge fuel
  exact absurd (hqs.symm.trans hnone) (Option.some_ne_none qs)

end Magicicada.MultiQuery
