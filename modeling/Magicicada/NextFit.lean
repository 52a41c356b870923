import Mathlib.Algebra.BigOperators.Group.List.Basic
import Mathlib.Tactic

/-!
Cutting a list into parts of a bounded load by next-fit: a part takes items until one is too
much for it, and that item begins the next part.
-/

namespace Magicicada.NextFit

variable {α : Type} (size : α → ℕ) (room : ℕ)

/-- What the items of a part weigh together. -/
def load (l : List α) : ℕ := (l.map size).sum

/-- The parts of a list, when `part` was taken already. -/
def parts (part : List α) : List α → List (List α)
  | [] => [part]
  | x :: l =>
    if load size (part ++ [x]) ≤ room then parts (part ++ [x]) l else part :: parts [x] l

variable {size room}

@[simp] lemma load_nil : load size [] = 0 := rfl

@[simp] lemma load_append (l l' : List α) : load size (l ++ l') = load size l + load size l' := by
  simp [load]

@[simp] lemma load_singleton (x : α) : load size [x] = size x := by simp [load]

/-- Items that fit are all taken. -/
lemma parts_append (part : List α) {l : List α} (h : load size (part ++ l) ≤ room)
    (rest : List α) : parts size room part (l ++ rest) = parts size room (part ++ l) rest := by
  induction l generalizing part with
  | nil => simp
  | cons x l ih =>
    have hassoc : part ++ [x] ++ l = part ++ x :: l := by simp
    have hx : load size (part ++ [x]) ≤ room := by
      rw [← hassoc, load_append] at h
      omega
    calc parts size room part (x :: l ++ rest)
        = parts size room (part ++ [x]) (l ++ rest) := by rw [List.cons_append, parts, if_pos hx]
      _ = parts size room (part ++ [x] ++ l) rest := ih _ (hassoc ▸ h)
      _ = parts size room (part ++ x :: l) rest := by rw [hassoc]

/-- An item that is too much begins the next part. -/
lemma parts_cons {part : List α} {x : α} (h : room < load size (part ++ [x])) (rest : List α) :
    parts size room part (x :: rest) = part :: parts size room [x] rest := by
  rw [parts, if_neg (not_le.mpr h)]

/-- An item that fits alone begins the first part. -/
lemma parts_nil_cons {x : α} (h : size x ≤ room) (rest : List α) :
    parts size room [] (x :: rest) = parts size room [x] rest :=
  parts_append [] (l := [x]) (by simpa using h) rest

/-- The parts together are the list. -/
lemma flatten_parts (part l : List α) : (parts size room part l).flatten = part ++ l := by
  induction l generalizing part with
  | nil => simp [parts]
  | cons x l ih =>
    rw [parts]
    split
    · rw [ih, List.append_assoc]
      rfl
    · rw [List.flatten_cons, ih]
      rfl

/-- No part is too full, when every item fits alone. -/
lemma load_le {part l : List α} (hpart : load size part ≤ room) (hl : ∀ x ∈ l, size x ≤ room) :
    ∀ p ∈ parts size room part l, load size p ≤ room := by
  induction l generalizing part with
  | nil =>
    intro p hp
    obtain rfl := List.mem_singleton.mp hp
    exact hpart
  | cons x l ih =>
    have htail : ∀ y ∈ l, size y ≤ room := fun y hy => hl y (List.mem_cons_of_mem x hy)
    rw [parts]
    split
    · next h => exact ih h htail
    · intro p hp
      rcases List.mem_cons.mp hp with rfl | hp
      · exact hpart
      · exact ih (by simpa using hl x (List.mem_cons_self ..)) htail p hp

end Magicicada.NextFit
