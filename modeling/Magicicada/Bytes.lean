import Mathlib.Tactic

/-!
Byte strings: the four-byte sizes of `struct` with the format `!I`, and the search for
CR LF.
-/

namespace Magicicada

/-- Strings of bytes. -/
abbrev Bytes := List UInt8

namespace Bytes

/-! ### Sizes -/

/-- `SIZE_FMT_SIZE`, the length of a packed size. -/
def sizeFmtSize : ℕ := 4

/-- `struct.pack(SIZE_FMT, n)`, for an `n` below `2 ^ 32`. -/
def packSize (n : ℕ) : Bytes :=
  [UInt8.ofNat (n / 2 ^ 24), UInt8.ofNat (n / 2 ^ 16), UInt8.ofNat (n / 2 ^ 8), UInt8.ofNat n]

/-- The number a big-endian string of bytes writes. -/
def bigEndian (b : Bytes) : ℕ := b.foldl (fun n x => 256 * n + x.toNat) 0

/-- `struct.unpack(SIZE_FMT, b)[0]`; `none` is the `struct.error` of a string of the wrong
length. -/
def unpackSize (b : Bytes) : Option ℕ :=
  if b.length = sizeFmtSize then some (bigEndian b) else none

lemma unpackSize_of_length {b : Bytes} (h : b.length = sizeFmtSize) :
    unpackSize b = some (bigEndian b) := if_pos h

@[simp] lemma unpackSize_nil : unpackSize [] = none := rfl

@[simp] lemma packSize_length (n : ℕ) : (packSize n).length = 4 := rfl

lemma bigEndian_packSize {n : ℕ} (h : n < 2 ^ 32) : bigEndian (packSize n) = n := by
  simp only [bigEndian, packSize, List.foldl_cons, List.foldl_nil, UInt8.toNat_ofNat']
  omega

/-! ### Lines -/

/-- The carriage return. -/
def cr : UInt8 := 13
/-- The line feed. -/
def lf : UInt8 := 10

/-- `b.index(b"\r\n")`; `none` is the `ValueError` of a string without CR LF. -/
def indexCrlf : Bytes → Option ℕ
  | [] => none
  | [_] => none
  | x :: y :: r => if x = cr ∧ y = lf then some 0 else (indexCrlf (y :: r)).map (· + 1)

lemma indexCrlf_eq_none_iff {b : Bytes} : indexCrlf b = none ↔ ¬ [cr, lf] <:+: b := by
  induction b using indexCrlf.induct with
  | case1 => simp [indexCrlf]
  | case2 x => simp [indexCrlf, List.infix_cons_iff]
  | case3 x y r h => simp [indexCrlf, h, List.infix_cons_iff]
  | case4 x y r h ih =>
    have hcons : [cr, lf] <:+: x :: y :: r ↔ [cr, lf] <+: x :: y :: r ∨ [cr, lf] <:+: y :: r :=
      List.infix_cons_iff
    rw [indexCrlf, if_neg h, Option.map_eq_none_iff, ih, hcons, not_or]
    refine ⟨fun hi => ⟨fun hp => h ?_, hi⟩, fun hi => hi.2⟩
    simp only [List.cons_prefix_cons] at hp
    exact ⟨hp.1.symm, hp.2.1.symm⟩

lemma indexCrlf_le {b : Bytes} {pos : ℕ} (h : indexCrlf b = some pos) : pos + 2 ≤ b.length := by
  induction b using indexCrlf.induct generalizing pos with
  | case1 => cases h
  | case2 x => cases h
  | case3 x y r hcr =>
    rw [indexCrlf, if_pos hcr, Option.some.injEq] at h
    simp only [List.length_cons]; omega
  | case4 x y r hne ih =>
    rw [indexCrlf, if_neg hne, Option.map_eq_some_iff] at h
    obtain ⟨p, hp, rfl⟩ := h
    have := ih hp
    simp only [List.length_cons] at this ⊢; omega

/-- A line without CR LF that is followed by CR LF ends there. -/
lemma indexCrlf_append {l : Bytes} (hl : ¬ [cr, lf] <:+: l) (r : Bytes) :
    indexCrlf (l ++ cr :: lf :: r) = some l.length := by
  induction l with
  | nil => simp [indexCrlf]
  | cons x l ih =>
    rw [List.infix_cons_iff, not_or] at hl
    have hih := ih hl.2
    obtain ⟨y, t, ht⟩ : ∃ y t, l ++ cr :: lf :: r = y :: t := by
      cases l with
      | nil => exact ⟨_, _, rfl⟩
      | cons z l => exact ⟨_, _, rfl⟩
    have hne : ¬ (x = cr ∧ y = lf) := by
      rintro ⟨rfl, rfl⟩
      cases l with
      | nil => simp [cr, lf] at ht
      | cons z l =>
        simp only [List.cons_append, List.cons.injEq] at ht
        exact hl.1 (by simp [ht.1])
    rw [List.cons_append, ht, indexCrlf, if_neg hne, ← ht, hih]
    rfl

/-- A line without CR LF still has none with a CR after it. -/
lemma not_infix_snoc_cr {l : Bytes} (hl : ¬ [cr, lf] <:+: l) : ¬ [cr, lf] <:+: l ++ [cr] := by
  rw [← indexCrlf_eq_none_iff] at *
  induction l with
  | nil => rfl
  | cons x l ih =>
    cases l with
    | nil => simp [indexCrlf, cr, lf]
    | cons y l =>
      rw [indexCrlf] at hl
      split at hl
      · cases hl
      · rename_i h
        rw [Option.map_eq_none_iff] at hl
        have := ih hl
        rw [List.cons_append, List.cons_append, indexCrlf, if_neg h, ← List.cons_append, this]
        rfl

end Bytes

end Magicicada
