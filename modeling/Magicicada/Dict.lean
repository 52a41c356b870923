import Mathlib.Data.List.Nodup
import Mathlib.Tactic

/-!
Dictionaries that remember the order in which their keys were set.

A dictionary is its list of entries, with no key twice. Setting a key it has changes the value
in place, setting a new one appends an entry, and deleting leaves the others in order.
-/

namespace Magicicada

/-- A dictionary, as its entries in order. -/
structure Dict (κ α : Type) where
  entries : List (κ × α)
  nodup : (entries.map Prod.fst).Nodup

namespace Dict

variable {κ α : Type}

@[ext] lemma ext {d d' : Dict κ α} (h : d.entries = d'.entries) : d = d' := by
  cases d
  cases d'
  congr

def empty : Dict κ α := ⟨[], List.nodup_nil⟩

def keys (d : Dict κ α) : List κ := d.entries.map Prod.fst

def values (d : Dict κ α) : List α := d.entries.map Prod.snd

/-- `not d`. -/
def isEmpty (d : Dict κ α) : Bool := d.entries.isEmpty

@[simp] lemma isEmpty_empty : (empty : Dict κ α).isEmpty = true := rfl

lemma isEmpty_iff_values {d : Dict κ α} : d.isEmpty = true ↔ d.values = [] := by
  simp [isEmpty, values]

lemma nodup_set_new {k : κ} {v : α} {l : List (κ × α)} (h : (l.map Prod.fst).Nodup)
    (hk : k ∉ l.map Prod.fst) : ((l ++ [(k, v)]).map Prod.fst).Nodup := by
  rw [List.map_append, List.nodup_append]
  refine ⟨h, List.nodup_singleton _, ?_⟩
  intro a ha b hb hab
  rw [List.map_singleton, List.mem_singleton] at hb
  rw [hab, hb] at ha
  exact hk ha

variable [DecidableEq κ]

/-- `d.get(k)`. -/
def get? (d : Dict κ α) (k : κ) : Option α := (d.entries.find? fun e => e.1 = k).map Prod.snd

lemma nodup_set_old {k : κ} {v : α} {l : List (κ × α)} (h : (l.map Prod.fst).Nodup) :
    ((l.map fun e => if e.1 = k then (k, v) else e).map Prod.fst).Nodup := by
  have : (fun e : κ × α => (if e.1 = k then (k, v) else e).1) = Prod.fst := by
    funext e
    split <;> simp_all
  rw [List.map_map]
  exact (congrArg (fun f => (l.map f).Nodup) this).mpr h

/-- `d[k] = v`. -/
def set (d : Dict κ α) (k : κ) (v : α) : Dict κ α :=
  if h : k ∈ d.entries.map Prod.fst then
    ⟨d.entries.map fun e => if e.1 = k then (k, v) else e, nodup_set_old d.nodup⟩
  else ⟨d.entries ++ [(k, v)], nodup_set_new d.nodup h⟩

/-- `del d[k]`, of a key it has. -/
def erase (d : Dict κ α) (k : κ) : Dict κ α :=
  ⟨d.entries.filter fun e => e.1 ≠ k, d.nodup.sublist (List.filter_sublist.map _)⟩

/-! ### What a dictionary holds -/

@[simp] lemma get?_empty (k : κ) : (empty : Dict κ α).get? k = none := rfl

lemma get?_eq_some_iff {d : Dict κ α} {k : κ} {v : α} :
    d.get? k = some v ↔ (k, v) ∈ d.entries := by
  unfold get?
  constructor
  · intro h
    obtain ⟨⟨k', v'⟩, he, rfl⟩ := Option.map_eq_some_iff.mp h
    have hk : k' = k := by simpa using List.find?_some he
    exact hk ▸ List.mem_of_find?_eq_some he
  · intro h
    cases hf : d.entries.find? fun e => e.1 = k with
    | none => simpa using List.find?_eq_none.mp hf (k, v) h
    | some e =>
      have hk : e.1 = k := by simpa using List.find?_some hf
      have he : e = (k, v) :=
        List.inj_on_of_nodup_map d.nodup (List.mem_of_find?_eq_some hf) h hk
      rw [he]; rfl

lemma mem_keys_iff {d : Dict κ α} {k : κ} : k ∈ d.keys ↔ ∃ v, d.get? k = some v := by
  simp only [get?_eq_some_iff, keys, List.mem_map]
  constructor
  · rintro ⟨⟨k', v⟩, he, rfl⟩; exact ⟨v, he⟩
  · rintro ⟨v, he⟩; exact ⟨(k, v), he, rfl⟩

lemma mem_values_iff {d : Dict κ α} {v : α} : v ∈ d.values ↔ ∃ k, d.get? k = some v := by
  simp only [get?_eq_some_iff, values, List.mem_map]
  constructor
  · rintro ⟨⟨k, v'⟩, he, rfl⟩; exact ⟨k, he⟩
  · rintro ⟨k, he⟩; exact ⟨(k, v), he, rfl⟩

lemma get?_eq_none_iff {d : Dict κ α} {k : κ} : d.get? k = none ↔ k ∉ d.keys := by
  rw [mem_keys_iff, Option.eq_none_iff_forall_not_mem]
  simp

lemma isEmpty_iff {d : Dict κ α} : d.isEmpty = true ↔ ∀ k, d.get? k = none := by
  simp only [get?_eq_none_iff, keys, isEmpty, List.isEmpty_iff]
  constructor
  · intro h k
    simp [h]
  · intro h
    cases hd : d.entries with
    | nil => rfl
    | cons e l => exact absurd (by simp [hd]) (h e.1)

lemma isEmpty_eq_false {d : Dict κ α} {k : κ} {v : α} (h : d.get? k = some v) :
    d.isEmpty = false := by
  rw [Bool.eq_false_iff]
  intro he
  rw [isEmpty_iff.mp he k] at h
  cases h

/-! ### Setting and deleting -/

@[simp] lemma get?_erase (d : Dict κ α) (k j : κ) :
    (d.erase k).get? j = if j = k then none else d.get? j := by
  split
  · next h =>
    rw [h, get?_eq_none_iff, keys, erase]
    simp
  · next h =>
    apply Option.ext
    intro v
    simp only [get?_eq_some_iff, erase, List.mem_filter, decide_eq_true_eq, ne_eq]
    exact and_iff_left h

lemma entries_set_new {d : Dict κ α} {k : κ} (h : d.get? k = none) (v : α) :
    (d.set k v).entries = d.entries ++ [(k, v)] := by
  rw [get?_eq_none_iff, keys] at h
  rw [set, dif_neg h]

@[simp] lemma get?_set (d : Dict κ α) (k j : κ) (v : α) :
    (d.set k v).get? j = if j = k then some v else d.get? j := by
  apply Option.ext
  intro u
  by_cases hk : k ∈ d.entries.map Prod.fst
  · rw [get?_eq_some_iff, set, dif_pos hk, List.mem_map]
    split
    · next h =>
      subst h
      obtain ⟨e, he, rfl⟩ := List.mem_map.mp hk
      constructor
      · rintro ⟨e', -, heq⟩
        split at heq <;> simp_all
      · rintro hu
        exact ⟨e, he, by simpa using hu⟩
    · next h =>
      rw [get?_eq_some_iff]
      constructor
      · rintro ⟨e', he', heq⟩
        split at heq
        · simp only [Prod.mk.injEq] at heq
          exact absurd heq.1.symm h
        · exact heq ▸ he'
      · intro hu
        exact ⟨(j, u), hu, if_neg h⟩
  · have hnone : d.get? k = none := get?_eq_none_iff.mpr hk
    rw [get?_eq_some_iff, entries_set_new hnone, List.mem_append, ← get?_eq_some_iff,
      List.mem_singleton, Prod.mk.injEq]
    split
    · next h =>
      subst h
      simp [hnone, eq_comm]
    · next h => simp [h]

@[simp] lemma isEmpty_set (d : Dict κ α) (k : κ) (v : α) : (d.set k v).isEmpty = false :=
  isEmpty_eq_false (d.get?_set k k v |>.trans (if_pos rfl))

lemma nodup_values {d : Dict κ α} (h : ∀ j k v, d.get? j = some v → d.get? k = some v → j = k) :
    d.values.Nodup := by
  have hn : d.entries.Nodup := d.nodup.of_map _
  refine hn.map_on ?_
  rintro ⟨j, v⟩ hj ⟨k, v'⟩ hk rfl
  rw [h j k v (get?_eq_some_iff.mpr hj) (get?_eq_some_iff.mpr hk)]

/-- The first value belongs to the first key, and deleting that key leaves the other values. -/
lemma values_cons {d : Dict κ α} {v : α} {l : List α} (h : d.values = v :: l) :
    ∃ k, d.get? k = some v ∧ (d.erase k).values = l := by
  obtain ⟨entries, nodup⟩ := d
  obtain ⟨⟨k, u⟩, es, rfl, rfl, rfl⟩ := List.map_eq_cons_iff.mp h
  refine ⟨k, get?_eq_some_iff.mpr (by simp), ?_⟩
  have hk : ∀ e ∈ es, e.1 ≠ k := by
    intro e he hek
    have hmem : e.1 ∈ es.map Prod.fst := List.mem_map_of_mem he
    exact (List.nodup_cons.mp nodup).1 (hek ▸ hmem)
  have hfilter : ((k, u) :: es).filter (fun e => e.1 ≠ k) = es := by
    rw [List.filter_cons_of_neg (by simp)]
    exact List.filter_eq_self.mpr fun e he => by simpa using hk e he
  exact congrArg (List.map Prod.snd) hfilter

end Dict

end Magicicada
