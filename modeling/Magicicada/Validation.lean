import Magicicada.UuidForm
import Magicicada.Validators

/-!
What `validators.py` accepts: the grammar of each kind of identifier, and the fields
`validate_message` visits.
-/

namespace Magicicada.Validators

open Wire

/-! ### Node ids -/

/-- A node id is accepted when it is in the form `str` writes. -/
lemma isValidNode_iff {s : String} : isValidNode s = true ↔ Uuid.Canonical s := by
  constructor
  · intro h
    unfold isValidNode at h
    split at h
    · rename_i n _
      rw [beq_iff_eq] at h
      rw [← h]
      exact Uuid.canonical_toStr n
    · cases h
  · intro h
    obtain ⟨n, hparse, hstr⟩ := Uuid.parse_canonical h
    simp [isValidNode, hparse, hstr]

/-- **Node ids are accepted exactly in canonical form.** An accepted one is a UUID, is what that
UUID is written as, and is the only one that is accepted for it. -/
theorem node_ids_canonical (s : String) :
    (isValidNode s = true ↔ Uuid.Canonical s) ∧
    (isValidNode s = true → ∃ n, Uuid.parse s = .ok n ∧ Uuid.toStr n = s) ∧
    ∀ t, isValidNode s = true → isValidNode t = true → s ≠ t → Uuid.parse s ≠ Uuid.parse t := by
  have hparse : ∀ u, isValidNode u = true → ∃ n, Uuid.parse u = .ok n ∧ Uuid.toStr n = u :=
    fun u hu => Uuid.parse_canonical (isValidNode_iff.mp hu)
  refine ⟨isValidNode_iff, hparse s, fun t hs ht hne heq => hne ?_⟩
  obtain ⟨n, hn, rfl⟩ := hparse s hs
  obtain ⟨n', hn', rfl⟩ := hparse t ht
  rw [hn, hn', Except.ok.injEq] at heq
  rw [heq]

/-- Two node ids that differ in a digit. -/
theorem node_ids_canonical_two :
    (∃ n, Uuid.parse "00000000-0000-4000-8000-0000000000ab" = .ok n ∧
      Uuid.toStr n = "00000000-0000-4000-8000-0000000000ab") ∧
    Uuid.parse "00000000-0000-4000-8000-0000000000ab" ≠
      Uuid.parse "00000000-0000-4000-8000-0000000000ac" := by
  have hab : isValidNode "00000000-0000-4000-8000-0000000000ab" = true := by decide
  have hac : isValidNode "00000000-0000-4000-8000-0000000000ac" = true := by decide
  have h := node_ids_canonical "00000000-0000-4000-8000-0000000000ab"
  exact ⟨h.2.1 hab, h.2.2 _ hab hac (by decide)⟩

/-! ### Hashes -/

/-- The `hexdigest()` of a digest. -/
def hexdigest (digest : List UInt8) : String :=
  String.ofList (digest.flatMap fun b => Uuid.hexPad 2 b.toNat)

/-- `ContentHash.content_hash`. -/
def contentHash (methodName : String) (digest : List UInt8) : String :=
  methodName ++ ":" ++ hexdigest digest

/-- `SHA1ContentHash.content_hash`. -/
def sha1ContentHash (digest : List UInt8) : String := contentHash "sha1" digest

/-- `sha1:` and forty digits `[0-9a-f]`. -/
def Sha1Form (s : String) : Prop :=
  ∃ h : List Char, s.toList = "sha1:".toList ++ h ∧ h.length = 40 ∧
    ∀ c ∈ h, Uuid.lowerHex c = true

/-- A hash in the form, the empty string, or the unknown hash. -/
def HashForm (s : String) : Prop := s = "" ∨ s = unknownHash ∨ Sha1Form s

/-- `sha1:` and forty characters `[0-9a-z]`, with a newline at the end or a letter past `f`. -/
def Misread (s : String) : Prop :=
  ∃ h t : List Char, s.toList = "sha1:".toList ++ h ++ t ∧ h.length = 40 ∧
    (∀ c ∈ h, sha1Char c = true) ∧ (t = ['\n'] ∨ t = [] ∧ ∃ c ∈ h, 'f' < c)

/-- What the program makes of a digest is in the form. -/
theorem sha1Form_contentHash {digest : List UInt8} (h : digest.length = 20) :
    Sha1Form (sha1ContentHash digest) := by
  refine ⟨digest.flatMap fun b => Uuid.hexPad 2 b.toNat, ?_, ?_, fun c hc => ?_⟩
  · simp [sha1ContentHash, contentHash, hexdigest]
  · simp [List.length_flatMap, h]
  · obtain ⟨b, -, hc⟩ := List.mem_flatMap.mp hc
    exact Uuid.lowerHex_hexPad 2 _ c hc

lemma isValidSha1_iff {s : String} : isValidSha1 s = true ↔
    ∃ h t : List Char, s.toList = "sha1:".toList ++ h ++ t ∧ h.length = 40 ∧
      (∀ c ∈ h, sha1Char c = true) ∧ (t = [] ∨ t = ['\n']) := by
  simp only [isValidSha1, Bool.and_eq_true, Bool.or_eq_true, beq_iff_eq, List.all_eq_true,
    List.isPrefixOf_iff_prefix]
  constructor
  · rintro ⟨⟨r, hr⟩, hall, hlen⟩
    have hdrop : s.toList.drop 5 = r := by rw [← hr]; rfl
    rw [hdrop] at hall hlen
    refine ⟨r.take 40, r.drop 40, ?_, ?_, hall, ?_⟩
    · rw [List.append_assoc, List.take_append_drop, hr]
    · rw [List.length_take]
      omega
    · rcases hlen with hlen | ⟨-, hlen⟩
      · exact Or.inl (List.drop_of_length_le hlen.le)
      · exact Or.inr hlen
  · rintro ⟨h, t, hs, hlen, hall, ht⟩
    have hdrop : s.toList.drop 5 = h ++ t := by rw [hs]; rfl
    have htake : (h ++ t).take 40 = h := by rw [← hlen, List.take_left]
    have hrest : (h ++ t).drop 40 = t := by rw [← hlen, List.drop_left]
    rw [hdrop, htake, hrest, List.length_append, hlen]
    refine ⟨⟨h ++ t, by rw [hs, List.append_assoc]⟩, hall, ?_⟩
    rcases ht with rfl | rfl
    · exact Or.inl rfl
    · exact Or.inr ⟨rfl, rfl⟩

/-- A character the expression admits is a digit, or past `f`, not both. -/
lemma lowerHex_iff {c : Char} : Uuid.lowerHex c = true ↔ sha1Char c = true ∧ ¬ 'f' < c := by
  simp only [Uuid.lowerHex, sha1Char, Bool.or_eq_true, Bool.and_eq_true, decide_eq_true_eq,
    Char.not_lt]
  constructor
  · rintro (⟨hlo, hhi⟩ | ⟨hlo, hhi⟩)
    · exact ⟨Or.inl ⟨hlo, hhi⟩, Char.le_trans hhi (by decide)⟩
    · exact ⟨Or.inr ⟨hlo, Char.le_trans hhi (by decide)⟩, hhi⟩
  · rintro ⟨⟨hlo, hhi⟩ | ⟨hlo, -⟩, hf⟩
    · exact Or.inl ⟨hlo, hhi⟩
    · exact Or.inr ⟨hlo, hf⟩

/-- What the expression accepts is in the form, or is misread. -/
lemma isValidSha1_cases {s : String} : isValidSha1 s = true ↔ Sha1Form s ∨ Misread s := by
  rw [isValidSha1_iff]
  constructor
  · rintro ⟨h, t, hs, hlen, hall, rfl | rfl⟩
    · by_cases hpast : ∃ c ∈ h, 'f' < c
      · exact Or.inr ⟨h, [], hs, hlen, hall, Or.inr ⟨rfl, hpast⟩⟩
      · refine Or.inl ⟨h, by rw [hs, List.append_nil], hlen, fun c hc => ?_⟩
        exact lowerHex_iff.mpr ⟨hall c hc, fun hf => hpast ⟨c, hc, hf⟩⟩
    · exact Or.inr ⟨h, ['\n'], hs, hlen, hall, Or.inl rfl⟩
  · rintro (⟨h, hs, hlen, hhex⟩ | ⟨h, t, hs, hlen, hall, ht⟩)
    · exact ⟨h, [], by rw [hs, List.append_nil], hlen,
        fun c hc => (lowerHex_iff.mp (hhex c hc)).1, Or.inl rfl⟩
    · exact ⟨h, t, hs, hlen, hall, ht.elim Or.inr fun ht => Or.inl ht.1⟩

lemma Misread.not_sha1Form {s : String} (h : Misread s) : ¬Sha1Form s := by
  obtain ⟨h, t, hs, hlen, -, ht⟩ := h
  rintro ⟨h', hs', hlen', hhex⟩
  rw [hs, List.append_assoc] at hs'
  have heq : h ++ t = h' := List.append_cancel_left hs'
  rcases ht with rfl | ⟨rfl, c, hc, hf⟩
  · have := congrArg List.length heq
    simp only [List.length_append, List.length_singleton] at this
    omega
  · rw [List.append_nil] at heq
    exact (lowerHex_iff.mp (hhex c (heq ▸ hc))).2 hf

lemma isValidHash_iff {s : String} : isValidHash s = true ↔
    s = "" ∨ s = unknownHash ∨ isValidSha1 s = true := by
  simp [isValidHash, or_assoc]

/-- **Hashes are accepted in their documented form, but for those that are misread.** -/
theorem hashes_accepted_iff (s : String) :
    ((isValidSha1 s = true ↔ Sha1Form s) ∧ (isValidHash s = true ↔ HashForm s)) ↔ ¬Misread s := by
  constructor
  · rintro ⟨hsha1, -⟩ hmis
    exact hmis.not_sha1Form (hsha1.mp (isValidSha1_cases.mpr (Or.inr hmis)))
  · intro hmis
    have hsha1 : isValidSha1 s = true ↔ Sha1Form s := by rw [isValidSha1_cases, or_iff_left hmis]
    exact ⟨hsha1, by rw [isValidHash_iff, hsha1, HashForm]⟩

/-- Forty letters `g` are accepted, and so are forty digits with a newline after them. -/
theorem hashes_misread :
    (¬((isValidSha1 "sha1:gggggggggggggggggggggggggggggggggggggggg" = true ↔
        Sha1Form "sha1:gggggggggggggggggggggggggggggggggggggggg") ∧
      (isValidHash "sha1:gggggggggggggggggggggggggggggggggggggggg" = true ↔
        HashForm "sha1:gggggggggggggggggggggggggggggggggggggggg"))) ∧
    ¬((isValidSha1 "sha1:0000000000000000000000000000000000000000\n" = true ↔
        Sha1Form "sha1:0000000000000000000000000000000000000000\n") ∧
      (isValidHash "sha1:0000000000000000000000000000000000000000\n" = true ↔
        HashForm "sha1:0000000000000000000000000000000000000000\n")) := by
  have hmis : ∀ c t, sha1Char c = true → t = ['\n'] ∨ t = [] ∧ 'f' < c →
      Misread (String.ofList ("sha1:".toList ++ List.replicate 40 c ++ t)) := by
    intro c t hc ht
    refine ⟨List.replicate 40 c, t, String.toList_ofList, List.length_replicate, ?_, ?_⟩
    · exact fun x hx => (List.eq_of_mem_replicate hx).symm ▸ hc
    · exact ht.imp_right fun h => ⟨h.1, c, by simp, h.2⟩
  have hnot : ∀ s, Misread s → isValidSha1 s = true ∧ ¬Sha1Form s := fun s h =>
    ⟨isValidSha1_cases.mpr (Or.inr h), h.not_sha1Form⟩
  constructor
  · rintro ⟨hsha1, -⟩
    have h := hnot _ (hmis 'g' [] (by decide) (by decide))
    exact h.2 (hsha1.mp h.1)
  · rintro ⟨hsha1, -⟩
    have h := hnot _ (hmis '0' ['\n'] (by decide) (by decide))
    exact h.2 (hsha1.mp h.1)

/-! ### Fields visited

A place in a message is the list of the positions that lead to it: of a field among the set
fields, or of an element in a repeated field. Pre-order is the lexicographic order of places. -/

/-- The names of the fields that are validated. -/
lemma validator_isSome_iff {name : String} : (validator name).isSome = true ↔
    name ∈ ["node", "share", "hash", "crc32", "sha1", "parent_node", "new_parent_node", "subtree",
      "share_id"] := by
  unfold validator
  split <;> simp_all

/-- The scalar field that is set at a place. -/
def scalarAt : List Tree → List ℕ → Option (String × Scalar)
  | _, [] => none
  | ts, i :: place =>
    match ts[i]? with
    | some (.scalar name _ v) => if place = [] then some (name, v) else none
    | some (.message _ _ fields) => scalarAt fields place
    | some (.repeated _ _ elems) => scalarAt elems place
    | none => none

/-- A validated field with a value its validator rejects is set at the place. -/
def InvalidAt (ts : List Tree) (place : List ℕ) (e : Invalid) : Prop :=
  scalarAt ts place = some (e.name, e.value) ∧
    ∃ valid, validator e.name = some valid ∧ valid e.value = false

mutual

/-- The places of the invalid fields in a field, with what is invalid there. -/
def fieldPlaces : Tree → List (List ℕ × Invalid)
  | .scalar name _ v =>
    match validator name with
    | some valid => if valid v then [] else [([], ⟨name, v⟩)]
    | none => []
  | .message _ _ fields => places 0 fields
  | .repeated _ _ elems => places 0 elems

/-- The same for fields of which the first stands at position `i`. -/
def places (i : ℕ) : List Tree → List (List ℕ × Invalid)
  | [] => []
  | t :: ts => (fieldPlaces t).map (fun p => (i :: p.1, p.2)) ++ places (i + 1) ts

end

mutual

lemma map_fieldPlaces : ∀ t : Tree, (fieldPlaces t).map Prod.snd = validateField t
  | .scalar name number v => by
    rw [fieldPlaces, validateField]
    cases validator name with
    | none => rfl
    | some valid => cases hv : valid v <;> simp [hv]
  | .message name number fields => by
    rw [fieldPlaces, validateField, map_places 0 fields]
  | .repeated name number elems => by
    rw [fieldPlaces, validateField, map_places 0 elems]

lemma map_places : ∀ (i : ℕ) (ts : List Tree), (places i ts).map Prod.snd = validateMessage ts
  | _, [] => by rw [places, validateMessage, List.map_nil]
  | i, t :: ts => by
    rw [places, validateMessage, List.map_append, List.map_map, map_places (i + 1) ts,
      ← map_fieldPlaces t]
    rfl

end

lemma invalidAt_zero {t : Tree} {ts : List Tree} {place : List ℕ} {e : Invalid} :
    InvalidAt (t :: ts) (0 :: place) e ↔ InvalidAt [t] (0 :: place) e := by
  simp [InvalidAt, scalarAt]

lemma invalidAt_succ {t : Tree} {ts : List Tree} {i : ℕ} {place : List ℕ} {e : Invalid} :
    InvalidAt (t :: ts) ((i + 1) :: place) e ↔ InvalidAt ts (i :: place) e := by
  simp [InvalidAt, scalarAt]

/-- A place has a position in it. -/
lemma invalidAt_iff {ts : List Tree} {place : List ℕ} {e : Invalid} : InvalidAt ts place e ↔
    ∃ j q, place = (0 + j) :: q ∧ InvalidAt ts (j :: q) e := by
  cases place with
  | nil => simp [InvalidAt, scalarAt]
  | cons j q => simp

lemma invalidAt_scalar {name : String} {number : ℕ} {v : Scalar} {place : List ℕ} {e : Invalid} :
    InvalidAt [.scalar name number v] (0 :: place) e ↔
      place = [] ∧ e = ⟨name, v⟩ ∧ ∃ valid, validator name = some valid ∧ valid v = false := by
  obtain ⟨name', v'⟩ := e
  simp only [InvalidAt, scalarAt, List.getElem?_cons_zero, Option.ite_none_right_eq_some,
    Option.some.injEq, Prod.mk.injEq, Invalid.mk.injEq]
  constructor
  · rintro ⟨⟨hplace, rfl, rfl⟩, hv⟩
    exact ⟨hplace, ⟨rfl, rfl⟩, hv⟩
  · rintro ⟨hplace, ⟨rfl, rfl⟩, hv⟩
    exact ⟨⟨hplace, rfl, rfl⟩, hv⟩

mutual

/-- What is found in a field is what is invalid in it. -/
lemma mem_fieldPlaces : ∀ (t : Tree) (place : List ℕ) (e : Invalid),
    (place, e) ∈ fieldPlaces t ↔ InvalidAt [t] (0 :: place) e
  | .scalar name number v, place, e => by
    rw [fieldPlaces, invalidAt_scalar]
    cases validator name with
    | none => simp
    | some valid => cases hv : valid v <;> simp [hv]
  | .message name number fields, place, e => by
    have hin : InvalidAt [.message name number fields] (0 :: place) e ↔
        InvalidAt fields place e := by simp [InvalidAt, scalarAt]
    rw [fieldPlaces, mem_places 0 fields, hin, invalidAt_iff]
  | .repeated name number elems, place, e => by
    have hin : InvalidAt [.repeated name number elems] (0 :: place) e ↔
        InvalidAt elems place e := by simp [InvalidAt, scalarAt]
    rw [fieldPlaces, mem_places 0 elems, hin, invalidAt_iff]

lemma mem_places : ∀ (i : ℕ) (ts : List Tree) (place : List ℕ) (e : Invalid),
    (place, e) ∈ places i ts ↔ ∃ j q, place = (i + j) :: q ∧ InvalidAt ts (j :: q) e
  | _, [], place, e => by simp [places, InvalidAt, scalarAt]
  | i, t :: ts, place, e => by
    rw [places, List.mem_append, mem_places (i + 1) ts]
    constructor
    · rintro (hfield | ⟨j, q, rfl, hq⟩)
      · obtain ⟨⟨q, e'⟩, hq, heq⟩ := List.mem_map.mp hfield
        obtain ⟨rfl, rfl⟩ := Prod.mk.inj heq
        exact ⟨0, q, rfl, invalidAt_zero.mpr ((mem_fieldPlaces t q e').mp hq)⟩
      · exact ⟨j + 1, q, by rw [Nat.add_right_comm, Nat.add_assoc], invalidAt_succ.mpr hq⟩
    · rintro ⟨j, q, rfl, hq⟩
      cases j with
      | zero =>
        exact Or.inl (List.mem_map.mpr
          ⟨(q, e), (mem_fieldPlaces t q e).mpr (invalidAt_zero.mp hq), rfl⟩)
      | succ j =>
        exact Or.inr ⟨j, q, by rw [Nat.add_right_comm, Nat.add_assoc], invalidAt_succ.mp hq⟩

end

mutual

/-- The places are found in pre-order. -/
lemma pairwise_fieldPlaces : ∀ t : Tree, (fieldPlaces t).Pairwise fun p q => p.1 < q.1
  | .scalar name number v => by
    rw [fieldPlaces]
    cases validator name with
    | none => exact List.Pairwise.nil
    | some valid => cases hv : valid v <;> simp [hv]
  | .message name number fields => by
    rw [fieldPlaces]
    exact pairwise_places 0 fields
  | .repeated name number elems => by
    rw [fieldPlaces]
    exact pairwise_places 0 elems

lemma pairwise_places : ∀ (i : ℕ) (ts : List Tree), (places i ts).Pairwise fun p q => p.1 < q.1
  | _, [] => by
    rw [places]
    exact List.Pairwise.nil
  | i, t :: ts => by
    rw [places, List.pairwise_append]
    refine ⟨?_, pairwise_places (i + 1) ts, fun p hp q hq => ?_⟩
    · refine List.pairwise_map.mpr ((pairwise_fieldPlaces t).imp fun hlt => ?_)
      exact List.cons_lt_cons_iff.mpr (Or.inr ⟨rfl, hlt⟩)
    · obtain ⟨p', -, rfl⟩ := List.mem_map.mp hp
      obtain ⟨j, q', hplace, -⟩ := (mem_places (i + 1) ts q.1 q.2).mp hq
      rw [hplace]
      exact List.cons_lt_cons_iff.mpr (Or.inl (by omega))

end

/-- **Validation visits every field.** The entries are those of the places at which an invalid
field is set, one for each of them, in pre-order; there is none exactly when no field is
invalid. The fields that can be invalid are those of nine names. -/
theorem validateMessage_visits (ts : List Tree) :
    (∃ found : List (List ℕ × Invalid), validateMessage ts = found.map Prod.snd ∧
      found.Pairwise (fun p q => p.1 < q.1) ∧
      ∀ place e, (place, e) ∈ found ↔ InvalidAt ts place e) ∧
    (validateMessage ts = [] ↔ ∀ place e, ¬InvalidAt ts place e) ∧
    ∀ name, (validator name).isSome = true ↔
      name ∈ ["node", "share", "hash", "crc32", "sha1", "parent_node", "new_parent_node",
        "subtree", "share_id"] := by
  have hmem : ∀ place e, (place, e) ∈ places 0 ts ↔ InvalidAt ts place e := fun place e => by
    rw [mem_places, ← invalidAt_iff]
  refine ⟨⟨places 0 ts, (map_places 0 ts).symm, pairwise_places 0 ts, hmem⟩, ?_,
    fun _ => validator_isSome_iff⟩
  rw [← map_places 0 ts, List.map_eq_nil_iff, List.eq_nil_iff_forall_not_mem, Prod.forall]
  exact forall₂_congr fun place e => not_congr (hmem place e)

end Magicicada.Validators
