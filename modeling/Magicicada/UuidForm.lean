import Magicicada.Uuid

/-!
The canonical form of a UUID: what `str` writes and what `uuid.UUID` reads back.

In that form nothing is dropped but the hyphens, and none of what `int` is lenient about is
there, so the digits are read as what they are.
-/

namespace Magicicada.Uuid

/-- `[0-9a-f]`. -/
def lowerHex (c : Char) : Bool := '0' ≤ c && c ≤ '9' || 'a' ≤ c && c ≤ 'f'

/-- Digits in groups of 8, 4, 4, 4 and 12, with hyphens between them. -/
def Canonical (s : String) : Prop :=
  ∃ a b c d e : List Char, s.toList = a ++ '-' :: b ++ '-' :: c ++ '-' :: d ++ '-' :: e ∧
    (a.length = 8 ∧ b.length = 4 ∧ c.length = 4 ∧ d.length = 4 ∧ e.length = 12) ∧
    ∀ x ∈ a ++ b ++ c ++ d ++ e, lowerHex x = true

/-! ### Digits -/

lemma hexDigit_hexChar : ∀ d < 16, hexDigit (hexChar d) = some d := by decide

lemma lowerHex_hexChar : ∀ d < 16, lowerHex (hexChar d) = true := by decide

lemma exists_hexChar {c : Char} (h : lowerHex c = true) : ∃ d < 16, c = hexChar d := by
  have hc := Char.ofNat_toNat c
  simp only [lowerHex, Bool.or_eq_true, Bool.and_eq_true, decide_eq_true_eq] at h
  rcases h with ⟨hlo, hhi⟩ | ⟨hlo, hhi⟩
  · have hlo' : 0x30 ≤ c.toNat := hlo
    have hhi' : c.toNat ≤ 0x39 := hhi
    refine ⟨c.toNat - 0x30, by omega, ?_⟩
    rw [hexChar, if_pos (by omega), Nat.add_sub_cancel' hlo', hc]
  · have hlo' : 0x61 ≤ c.toNat := hlo
    have hhi' : c.toNat ≤ 0x66 := hhi
    refine ⟨c.toNat - 0x61 + 10, by omega, ?_⟩
    rw [hexChar, if_neg (by omega), Nat.add_sub_cancel, Nat.add_sub_cancel' hlo', hc]

/-- What holds of the sixteen digits. -/
lemma lowerHex_induction {P : Char → Prop} (hP : ∀ d < 16, P (hexChar d)) {c : Char}
    (h : lowerHex c = true) : P c := by
  obtain ⟨d, hd, rfl⟩ := exists_hexChar h
  exact hP d hd

/-- The number some digits write. -/
def ofDigits (h : List Char) : ℕ := h.foldl (fun n c => 16 * n + (hexDigit c).getD 0) 0

lemma ofDigits_snoc (h : List Char) (c : Char) :
    ofDigits (h ++ [c]) = 16 * ofDigits h + (hexDigit c).getD 0 := by
  simp [ofDigits]

@[simp] lemma length_hexPad (k n : ℕ) : (hexPad k n).length = k := by
  induction k generalizing n with
  | zero => rfl
  | succ k ih => rw [hexPad, List.length_append, ih, List.length_singleton]

lemma lowerHex_hexPad (k n : ℕ) : ∀ c ∈ hexPad k n, lowerHex c = true := by
  induction k generalizing n with
  | zero => simp [hexPad]
  | succ k ih =>
    intro c hc
    rw [hexPad, List.mem_append, List.mem_singleton] at hc
    rcases hc with hc | rfl
    · exact ih _ c hc
    · exact lowerHex_hexChar _ (Nat.mod_lt _ (by decide))

/-- Digits read after they are written. -/
lemma ofDigits_hexPad (k n : ℕ) : ofDigits (hexPad k n) = n % 16 ^ k := by
  induction k generalizing n with
  | zero => rw [pow_zero, Nat.mod_one]; rfl
  | succ k ih =>
    rw [hexPad, ofDigits_snoc, ih, hexDigit_hexChar _ (Nat.mod_lt _ (by decide)),
      Option.getD_some, pow_succ', Nat.mod_mul, Nat.add_comm]

/-- Digits written after they are read. -/
lemma hexPad_ofDigits {h : List Char} (hh : ∀ c ∈ h, lowerHex c = true) :
    hexPad h.length (ofDigits h) = h := by
  induction h using List.reverseRecOn with
  | nil => rfl
  | append_singleton h c ih =>
    obtain ⟨d, hd, rfl⟩ := exists_hexChar (hh c (by simp))
    have hdiv : (16 * ofDigits h + d) / 16 = ofDigits h := by omega
    have hmod : (16 * ofDigits h + d) % 16 = d := by omega
    rw [List.length_append, List.length_singleton, hexPad, ofDigits_snoc, hexDigit_hexChar d hd,
      Option.getD_some, hdiv, hmod, ih fun c hc => hh c (by simp [hc])]

lemma ofDigits_lt {h : List Char} (hh : ∀ c ∈ h, lowerHex c = true) :
    ofDigits h < 16 ^ h.length := by
  rw [← hexPad_ofDigits hh, ofDigits_hexPad, length_hexPad]
  exact Nat.mod_lt _ (by positivity)

/-! ### What `int` makes of digits -/

lemma hexDigit_of_lowerHex {c : Char} (h : lowerHex c = true) :
    hexDigit c = some ((hexDigit c).getD 0) := by
  obtain ⟨d, hd, rfl⟩ := exists_hexChar h
  rw [hexDigit_hexChar d hd]
  rfl

lemma map_toAscii {h : List Char} (hh : ∀ c ∈ h, lowerHex c = true) : h.map toAscii = h := by
  have hfix : ∀ c ∈ h, toAscii c = id c := fun c hc =>
    lowerHex_induction (P := fun c => toAscii c = id c) (by decide) (hh c hc)
  rw [List.map_congr_left hfix, List.map_id]

/-- Nothing is stripped where nothing is to be stripped. -/
lemma strip_eq_self {p : Char → Bool} {s : List Char} (h : ∀ c ∈ s, p c = false) :
    strip p s = s := by
  have hdrop : ∀ l : List Char, (∀ c ∈ l, p c = false) → l.dropWhile p = l := by
    intro l hl
    cases l with
    | nil => rfl
    | cons c l => rw [List.dropWhile_cons_of_neg (by simp [hl c])]
  rw [strip, hdrop s h, hdrop _ (by simpa using h), List.reverse_reverse]

lemma digits_lowerHex {h : List Char} (hh : ∀ c ∈ h, lowerHex c = true) (n : ℕ) :
    digits n h = some (h.foldl (fun n c => 16 * n + (hexDigit c).getD 0) n) := by
  induction h generalizing n with
  | nil => rw [digits, List.foldl_nil]
  | cons c h ih =>
    have hc := hh c List.mem_cons_self
    have hne : c ≠ '_' := lowerHex_induction (P := fun c => c ≠ '_') (by decide) hc
    rw [digits, hexDigit_of_lowerHex hc, Option.bind_some,
      ih fun c hc => hh c (List.mem_cons_of_mem _ hc), List.foldl_cons]
    · exact fun _ _ h' => absurd h' hne

/-- Digits are neither blanks nor signs, and there is no `x` among them. -/
lemma int16_lowerHex {h : List Char} (hh : ∀ c ∈ h, lowerHex c = true) (hne : h ≠ []) :
    int16 h = some (ofDigits h : ℤ) := by
  have hspace : ∀ c ∈ h, isSpace c = false := fun c hc =>
    lowerHex_induction (P := fun c => isSpace c = false) (by decide) (hh c hc)
  have hsign : sign h = (1, h) := by
    cases h with
    | nil => rfl
    | cons c h =>
      have hc : c ≠ '-' ∧ c ≠ '+' := lowerHex_induction (P := fun c => c ≠ '-' ∧ c ≠ '+')
        (by decide) (hh c List.mem_cons_self)
      unfold sign
      split <;> simp_all
  have hdigits : afterPrefix h = h := by
    have hx : 'x' ∉ h ∧ 'X' ∉ h := 
      ⟨fun hx => absurd (hh _ hx) (by decide), fun hx => absurd (hh _ hx) (by decide)⟩
    unfold afterPrefix
    split <;> simp_all
  rw [int16, map_toAscii hh, strip_eq_self hspace, hsign]
  dsimp only
  rw [hdigits]
  cases h with
  | nil => exact absurd rfl hne
  | cons c h =>
    dsimp only
    rw [hexDigit_of_lowerHex (hh c List.mem_cons_self), Option.bind_some,
      digits_lowerHex fun c hc => hh c (List.mem_cons_of_mem _ hc), ofDigits, List.foldl_cons,
      Nat.mul_zero, Nat.zero_add]
    exact congrArg some (one_mul _)

/-! ### The form -/

/-- The digits of a UUID with its hyphens. -/
def hyphenated (h : List Char) : List Char :=
  h.take 8 ++ '-' :: (h.drop 8).take 4 ++ '-' :: (h.drop 12).take 4 ++ '-' :: (h.drop 16).take 4 ++
    '-' :: h.drop 20

lemma toStr_eq (n : ℕ) : toStr n = String.ofList (hyphenated (hexPad 32 n)) := by
  simp [toStr, hyphenated]

/-- A string in the form is known from its 32 digits. -/
lemma canonical_iff {s : String} : Canonical s ↔ ∃ h : List Char, h.length = 32 ∧
    (∀ c ∈ h, lowerHex c = true) ∧ s = String.ofList (hyphenated h) := by
  constructor
  · rintro ⟨a, b, c, d, e, hs, ⟨ha, hb, hc, hd, he⟩, hhex⟩
    refine ⟨a ++ b ++ c ++ d ++ e, by simp [ha, hb, hc, hd, he], hhex, ?_⟩
    rw [← String.ofList_toList (s := s), hs, hyphenated]
    simp (disch := omega) [List.drop_append, List.drop_of_length_le, ha, hb, hc]
  · rintro ⟨h, hlen, hhex, rfl⟩
    refine ⟨h.take 8, (h.drop 8).take 4, (h.drop 12).take 4, (h.drop 16).take 4, h.drop 20,
      by rw [String.toList_ofList, hyphenated], by simp [hlen], fun x hx => hhex x ?_⟩
    simp only [List.mem_append] at hx
    rcases hx with (((hx | hx) | hx) | hx) | hx
    · exact List.mem_of_mem_take hx
    · exact List.mem_of_mem_drop (List.mem_of_mem_take hx)
    · exact List.mem_of_mem_drop (List.mem_of_mem_take hx)
    · exact List.mem_of_mem_drop (List.mem_of_mem_take hx)
    · exact List.mem_of_mem_drop hx

lemma canonical_toStr (n : ℕ) : Canonical (toStr n) :=
  canonical_iff.mpr ⟨_, length_hexPad 32 n, lowerHex_hexPad 32 n, toStr_eq n⟩

/-- A pattern is not found where one of its characters is not. -/
lemma removeAll_eq_self {pat s : List Char} {x : Char} (hx : x ∈ pat) (hs : x ∉ s) :
    removeAll pat 0 s = s := by
  induction s with
  | nil => rfl
  | cons c s ih =>
    have hno : pat.isPrefixOf (c :: s) = false := by
      rw [Bool.eq_false_iff, Ne, List.isPrefixOf_iff_prefix]
      exact fun h => hs (h.subset hx)
    rw [removeAll, hno, ih fun h => hs (List.mem_cons_of_mem c h)]
    rfl

lemma mem_hyphenated {h : List Char} {c : Char} (hc : c ∈ hyphenated h) : c = '-' ∨ c ∈ h := by
  simp only [hyphenated, List.mem_append, List.mem_cons] at hc
  have htake : ∀ k l : ℕ, c ∈ (h.drop k).take l → c ∈ h := fun k l hc =>
    List.mem_of_mem_drop (List.mem_of_mem_take hc)
  rcases hc with (((hc | rfl | hc) | rfl | hc) | rfl | hc) | rfl | hc
  all_goals first
    | exact Or.inl rfl
    | exact Or.inr (htake _ _ hc)
    | exact Or.inr (List.mem_of_mem_take hc)
    | exact Or.inr (List.mem_of_mem_drop hc)

/-- Without its hyphens, a string in the form is its digits. -/
lemma filter_hyphenated {h : List Char} (hh : ∀ c ∈ h, lowerHex c = true) :
    (hyphenated h).filter (· ≠ '-') = h := by
  have hkeep : ∀ l : List Char, (∀ c ∈ l, c ∈ h) → l.filter (· ≠ '-') = l := fun l hl =>
    List.filter_eq_self.mpr fun c hc =>
      lowerHex_induction (P := fun c => decide (c ≠ '-') = true) (by decide) (hh c (hl c hc))
  have htake : ∀ k l : ℕ, ∀ c ∈ (h.drop k).take l, c ∈ h := fun k l c hc =>
    List.mem_of_mem_drop (List.mem_of_mem_take hc)
  have hskip : ∀ l : List Char, ('-' :: l).filter (· ≠ '-') = l.filter (· ≠ '-') := fun l =>
    List.filter_cons_of_neg (by decide)
  rw [hyphenated, List.filter_append, List.filter_append, List.filter_append, List.filter_append,
    hskip, hskip, hskip, hskip, hkeep _ (htake 8 4), hkeep _ (htake 12 4), hkeep _ (htake 16 4),
    hkeep (h.take 8) fun c hc => List.mem_of_mem_take hc,
    hkeep (h.drop 20) fun c hc => List.mem_of_mem_drop hc]
  have hjoin : ∀ k l : ℕ, (h.drop k).take l ++ h.drop (k + l) = h.drop k := fun k l => by
    rw [← List.drop_drop, List.take_append_drop]
  rw [List.append_assoc, List.append_assoc, List.append_assoc, hjoin 16 4, hjoin 12 4, hjoin 8 4,
    List.take_append_drop]

lemma hexOf_hyphenated {h : List Char} (hh : ∀ c ∈ h, lowerHex c = true) :
    hexOf (String.ofList (hyphenated h)) = h := by
  have hall : ∀ c ∈ hyphenated h, c ≠ ':' ∧ c ≠ '\x7b' ∧ c ≠ '\x7d' := by
    intro c hc
    rcases mem_hyphenated hc with rfl | hc
    · decide
    · exact lowerHex_induction (P := fun c => c ≠ ':' ∧ c ≠ '\x7b' ∧ c ≠ '\x7d') (by decide)
        (hh c hc)
  have hcolon : ':' ∉ hyphenated h := fun hc => (hall _ hc).1 rfl
  have hbrace : ∀ c ∈ hyphenated h, (decide (c = '\x7b') || decide (c = '\x7d')) = false :=
    fun c hc => by simp [hall c hc]
  have hlist : (String.ofList (hyphenated h)).toList = hyphenated h := String.toList_ofList
  rw [hexOf, hlist, removeAll_eq_self (x := ':') (by decide) hcolon,
    removeAll_eq_self (x := ':') (by decide) hcolon]
  rw [strip_eq_self hbrace, filter_hyphenated hh]

/-! ### Reading and writing -/

lemma parse_hyphenated {h : List Char} (hlen : h.length = 32) (hh : ∀ c ∈ h, lowerHex c = true) :
    parse (String.ofList (hyphenated h)) = .ok (ofDigits h) := by
  have hne : h ≠ [] := List.ne_nil_of_length_pos (by omega)
  have hlt := ofDigits_lt hh
  rw [hlen] at hlt
  have hrange : (0 : ℤ) ≤ (ofDigits h : ℤ) ∧ (ofDigits h : ℤ) < 2 ^ 128 := by
    refine ⟨Int.natCast_nonneg _, ?_⟩
    exact_mod_cast hlt
  rw [parse, hexOf_hyphenated hh, if_neg (not_not.mpr hlen), int16_lowerHex hh hne]
  dsimp only
  rw [if_pos hrange, Int.toNat_natCast]

/-- **A string in the form is read as a UUID that is written as that string.** -/
theorem parse_canonical {s : String} (h : Canonical s) : ∃ n, parse s = .ok n ∧ toStr n = s := by
  obtain ⟨digits, hlen, hhex, rfl⟩ := canonical_iff.mp h
  refine ⟨_, parse_hyphenated hlen hhex, ?_⟩
  have hback := hexPad_ofDigits hhex
  rw [hlen] at hback
  rw [toStr_eq, hback]

/-- **A UUID that is written is read back.** -/
theorem parse_toStr {n : ℕ} (h : n < 2 ^ 128) : parse (toStr n) = .ok n := by
  have hlt : n < 16 ^ 32 := h.trans_le (by norm_num)
  rw [toStr_eq, parse_hyphenated (length_hexPad 32 n) (lowerHex_hexPad 32 n), ofDigits_hexPad,
    Nat.mod_eq_of_lt hlt]

end Magicicada.Uuid
