import Mathlib.Data.List.ReduceOption
import Magicicada.WireShows

/-!
Reading the fields of a message off its records.

A field with a number that is not declared is passed over, and so is one whose wire type is not
that of its declaration or whose number the enumeration does not have. Of a field that stands
more than once the last one counts; the fields of a sub-message that does are merged.
-/

namespace Magicicada.Wire

variable {μ α β γ : Type}

/-! ### Values -/

/-- A string. What is not UTF-8 is not parsed, which is the outer `none`; the inner one passes
the field over. -/
def readStr : Payload → Option (Option String)
  | .delimited b => (utf8Decode b).map some
  | _ => some none

def readBlob : Payload → Option (Option (List UInt8))
  | .delimited b => some (some b)
  | _ => some none

/-- A number of so many bits; those above are dropped. -/
def readUint (bits : ℕ) : Payload → Option (Option ℕ)
  | .varint n => some (some (n % 2 ^ bits))
  | _ => some none

def readInt (bits : ℕ) : Payload → Option (Option ℤ)
  | .varint n => some (some (Int.bmod n (2 ^ bits)))
  | _ => some none

def readBool : Payload → Option (Option Bool)
  | .varint n => some (some (decide (n % 2 ^ 64 ≠ 0)))
  | _ => some none

/-- A value of an enumeration without negative numbers. -/
def readEnum (ofNumber : ℕ → Option α) : Payload → Option (Option α)
  | .varint n => some (ofNumber (n % 2 ^ 32))
  | _ => some none

def readNested : Payload → Option (Option (List Record))
  | .delimited b => (records b).map some
  | _ => some none

/-- One element of a repeated sub-message. -/
def readElem (read : List Record → Option α) : Payload → Option (Option α)
  | .delimited b => ((records b).bind read).map some
  | _ => some none

/-! ### Fields -/

/-- The values of a repeated field. -/
def readAll (number : ℕ) (value : Payload → Option (Option α)) (rs : List Record) :
    Option (List α) :=
  ((rs.filter fun r => decide (r.number ∈ [number])).mapM fun r => value r.payload).map
    List.reduceOption

/-- The value of an optional field. -/
def readLast (number : ℕ) (value : Payload → Option (Option α)) (rs : List Record) :
    Option (Option α) := (readAll number value rs).map List.getLast?

/-- The value of a field that reads as a default when it is not there. -/
def readDefault (d : α) (number : ℕ) (value : Payload → Option (Option α)) (rs : List Record) :
    Option α := (readLast number value rs).map (·.getD d)

/-- The sub-message of an optional field. -/
def readSub (number : ℕ) (read : List Record → Option α) (rs : List Record) :
    Option (Option α) :=
  (readAll number readNested rs).bind fun parts =>
    if parts = [] then some none else (read parts.flatten).map some

/-- The sub-messages of a repeated field. -/
def readRep (number : ℕ) (read : List Record → Option α) (rs : List Record) :
    Option (List α) := readAll number (readElem read) rs

/-- Two fields. -/
def both (x : List Record → Option α) (y : List Record → Option β) (rs : List Record) :
    Option (α × β) := (x rs).bind fun a => (y rs).map fun b => (a, b)

lemma both_eq_some {x : List Record → Option α} {y : List Record → Option β}
    {rs : List Record} {a : α} {b : β} :
    both x y rs = some (a, b) ↔ x rs = some a ∧ y rs = some b := by
  unfold both
  cases x rs <;> cases y rs <;> simp

/-! ### What is read of what is written -/

/-- The fields made of a value have numbers among `ns`, and `read`, which looks at fields with
such numbers only, reads what `p` is of a value in `P`. -/
structure Reads (P : μ → Prop) (ns : List ℕ) (g : μ → List Tree) (p : μ → β)
    (read : List Record → Option β) : Prop where
  number : ∀ m, ∀ r ∈ recordsAll (g m), r.number ∈ ns
  sized : ∀ m, ∀ r ∈ recordsAll (g m), r.payload.Sized
  small : ∀ m, P m → ∀ r ∈ recordsAll (g m), r.payload.Small
  own : ∀ rs, read (rs.filter fun r => decide (r.number ∈ ns)) = read rs
  read : ∀ m, P m → read (recordsAll (g m)) = some (p m)

/-- The fields made of a value in `P` are read as that value. -/
class Readable (P : μ → Prop) (g : μ → List Tree) (read : outParam (List Record → Option μ)) :
    Prop where
  valid : ∀ m, ∀ r ∈ recordsAll (g m), r.Valid
  small : ∀ m, P m → ∀ r ∈ recordsAll (g m), r.Small
  read : ∀ m, P m → read (recordsAll (g m)) = some m

variable {P : μ → Prop} {ns ns' : List ℕ} {g f : μ → List Tree} {p : μ → β} {q : μ → γ}
  {read : List Record → Option β} {read' : List Record → Option γ}

lemma filter_filter_number {ns ks : List ℕ} (h : ∀ n ∈ ns, n ∈ ks) (rs : List Record) :
    (rs.filter fun r => decide (r.number ∈ ks)).filter (fun r => decide (r.number ∈ ns)) =
      rs.filter fun r => decide (r.number ∈ ns) := by
  rw [List.filter_filter]
  refine List.filter_congr fun r _ => ?_
  by_cases hr : r.number ∈ ns
  · simp [hr, h _ hr]
  · simp [hr]

lemma Reads.own_of (hg : Reads P ns g p read) {ks : List ℕ} (h : ∀ n ∈ ns, n ∈ ks)
    (rs : List Record) : read (rs.filter fun r => decide (r.number ∈ ks)) = read rs := by
  rw [← hg.own, filter_filter_number h, hg.own]

/-- What is read is shown. -/
lemma Reads.shows (hg : Reads P ns g p read) : Shows P ns g p where
  number := hg.number
  sized := hg.sized
  inj m m' hm hm' heq := by
    have hread := hg.read m hm
    rw [heq, hg.read m' hm', Option.some_inj] at hread
    exact hread.symm

/-- **Fields with different numbers are read together as they are apart.** -/
lemma Reads.append (hg : Reads P ns g p read) (hf : Reads P ns' f q read')
    (hd : ∀ n ∈ ns', n ∉ ns := by decide) :
    Reads P (ns ++ ns') (fun m => g m ++ f m) (fun m => (p m, q m)) (both read read') where
  number := (hg.shows.append hf.shows hd).number
  sized := (hg.shows.append hf.shows hd).sized
  small m hm r hr := by
    rw [recordsAll_append, List.mem_append] at hr
    exact hr.elim (hg.small m hm r) (hf.small m hm r)
  own rs := by
    unfold both
    rw [hg.own_of fun n hn => List.mem_append_left ns' hn,
      hf.own_of fun n hn => List.mem_append_right ns hn]
  read m hm := by
    have hleft : (recordsAll (g m) ++ recordsAll (f m)).filter
        (fun r => decide (r.number ∈ ns)) = recordsAll (g m) :=
      filter_number (hg.number m) fun r hr => hd _ (hf.number m r hr)
    have hright : (recordsAll (g m) ++ recordsAll (f m)).filter
        (fun r => decide (r.number ∈ ns')) = recordsAll (f m) := by
      rw [List.filter_append, List.filter_eq_nil_iff.mpr, List.nil_append,
        List.filter_eq_self.mpr]
      · exact fun r hr => decide_eq_true (hf.number m r hr)
      · exact fun r hr h => hd _ (of_decide_eq_true h) (hg.number m r hr)
    rw [recordsAll_append, both_eq_some, ← hg.own, hleft, ← hf.own, hright]
    exact ⟨hg.read m hm, hf.read m hm⟩

/-- A reader of the fields of a message makes one of the message. -/
lemma Reads.readable (hg : Reads P ns g p read) {readMessage : List Record → Option μ}
    (h : ∀ m rs, read rs = some (p m) → readMessage rs = some m)
    (hns : ∀ n ∈ ns, 0 < n ∧ n < 2 ^ 29 := by decide) : Readable P g readMessage where
  valid m r hr := ⟨(hns _ (hg.number m r hr)).1, hg.sized m r hr⟩
  small m hm r hr := ⟨(hns _ (hg.number m r hr)).2, hg.small m hm r hr⟩
  read m hm := h m _ (hg.read m hm)

/-- No fields are read as nothing. -/
lemma reads_nil : Reads P [] (fun _ => []) (fun _ : μ => ()) fun _ => some () where
  number m r hr := absurd hr (by simp)
  sized m r hr := absurd hr (by simp)
  small m _ r hr := absurd hr (by simp)
  own _ := rfl
  read _ _ := rfl

/-! ### Single fields -/

lemma readAll_own (number : ℕ) (value : Payload → Option (Option α)) (rs : List Record) :
    readAll number value (rs.filter fun r => decide (r.number ∈ [number])) =
      readAll number value rs := by
  unfold readAll
  rw [filter_filter_number fun n hn => hn]

lemma mapM_some {v : β → Option (Option α)} {h : α → β} {l : List α}
    (hv : ∀ a ∈ l, v (h a) = some (some a)) : (l.map h).mapM v = some (l.map some) := by
  induction l with
  | nil => rfl
  | cons a l ih =>
    rw [List.forall_mem_cons] at hv
    rw [List.map_cons, List.mapM_cons, hv.1, ih hv.2]
    rfl

lemma reduceOption_map_some (l : List α) : (l.map some).reduceOption = l := by
  induction l with
  | nil => exact List.reduceOption_nil
  | cons a l ih => rw [List.map_cons, List.reduceOption_cons_of_some, ih]

lemma readAll_map {number : ℕ} {value : Payload → Option (Option α)} {payload : α → Payload}
    {l : List α} (hv : ∀ a ∈ l, value (payload a) = some (some a)) :
    readAll number value (l.map fun a => ⟨number, payload a⟩) = some l := by
  have hfilter : (l.map fun a => (⟨number, payload a⟩ : Record)).filter
      (fun r => decide (r.number ∈ [number])) = l.map fun a => ⟨number, payload a⟩ :=
    List.filter_eq_self.mpr fun r hr => by
      obtain ⟨a, -, rfl⟩ := List.mem_map.mp hr
      simp
  rw [readAll, hfilter, mapM_some (v := fun r : Record => value r.payload) hv, Option.map_some,
    reduceOption_map_some]

/-- A field for each element of a list, all of one number. -/
lemma reads_each {number : ℕ} {t : α → Tree} {payload : α → Payload}
    {value : Payload → Option (Option α)} {Q : α → Prop}
    (ht : ∀ a, (t a).records = [⟨number, payload a⟩]) (hsized : ∀ a, (payload a).Sized)
    (hsmall : ∀ a, Q a → (payload a).Small)
    (hvalue : ∀ a, Q a → value (payload a) = some (some a)) (l : μ → List α)
    (hl : ∀ m, P m → ∀ a ∈ l m, Q a) :
    Reads P [number] (fun m => (l m).map t) l (readAll number value) := by
  have hshows : Shows P [number] (fun m => (l m).map t) l :=
    shows_each ht hsized (fun a a' ha ha' h => by
      have hread := hvalue a ha
      rw [h, hvalue a' ha', Option.some_inj, Option.some_inj] at hread
      exact hread.symm) l hl
  refine ⟨hshows.number, hshows.sized, fun m hm r hr => ?_, readAll_own number value,
    fun m hm => ?_⟩
  · rw [recordsAll_map ht] at hr
    obtain ⟨a, ha, rfl⟩ := List.mem_map.mp hr
    exact hsmall a (hl m hm a ha)
  · rw [recordsAll_map ht]
    exact readAll_map fun a ha => hvalue a (hl m hm a ha)

lemma getLast?_toList (o : Option α) : o.toList.getLast? = o := by
  cases o <;> rfl

/-- An optional field. -/
lemma Reads.last {number : ℕ} {value : Payload → Option (Option α)} {o : μ → Option α}
    (h : Reads P [number] g (fun m => (o m).toList) (readAll number value)) :
    Reads P [number] g o (readLast number value) where
  number := h.number
  sized := h.sized
  small := h.small
  own rs := congrArg (Option.map List.getLast?) (h.own rs)
  read m hm := by
    rw [readLast, h.read m hm, Option.map_some, getLast?_toList]

/-- A field that reads as a default when it is not there. -/
lemma Reads.getD {number : ℕ} {value : Payload → Option (Option α)} {a : μ → α} (d : α)
    (h : Reads P [number] g (fun m => some (a m)) (readLast number value)) :
    Reads P [number] g a (readDefault d number value) where
  number := h.number
  sized := h.sized
  small := h.small
  own rs := congrArg (Option.map fun o : Option α => o.getD d) (h.own rs)
  read m hm := by
    rw [readDefault, h.read m hm, Option.map_some]
    rfl

lemma readSub_own (number : ℕ) (read : List Record → Option α) (rs : List Record) :
    readSub number read (rs.filter fun r => decide (r.number ∈ [number])) =
      readSub number read rs := by
  unfold readSub
  rw [readAll_own]

variable {h : α → List Tree} {Q : α → Prop} {readPart : List Record → Option α}

/-- A sub-message may be read that is never written. -/
lemma Reads.absent (hg : Reads P ns g p read) (number : ℕ) (readPart : List Record → Option α)
    (hd : number ∉ ns := by decide) :
    Reads P (ns ++ [number]) g (fun m => (p m, none)) (both read (readSub number readPart)) := by
  have habsent : Reads P [number] (fun _ => []) (fun _ => none) (readSub number readPart) := {
    number := fun m r hr => absurd hr (by simp)
    sized := fun m r hr => absurd hr (by simp)
    small := fun m _ r hr => absurd hr (by simp)
    own := readSub_own number readPart
    read := fun _ _ => rfl }
  have happend := hg.append habsent fun n hn => List.mem_singleton.mp hn ▸ hd
  simpa only [List.append_nil] using happend

/-- An optional sub-message. -/
lemma reads_message [hr : Readable Q h readPart] (name : String) (number : ℕ)
    (o : μ → Option α) (hQ : ∀ m, P m → ∀ a ∈ o m, Q a) :
    Reads P [number] (fun m => (o m).toList.map fun a => .message name number (h a)) o
      (readSub number readPart) where
  number m r hr := by
    rw [recordsAll_map fun a => Tree.records_message name number (h a)] at hr
    obtain ⟨a, -, rfl⟩ := List.mem_map.mp hr
    exact List.mem_singleton_self number
  sized m r hr := by
    rw [recordsAll_map fun a => Tree.records_message name number (h a)] at hr
    obtain ⟨a, -, rfl⟩ := List.mem_map.mp hr
    exact trivial
  small m _ r hr := by
    rw [recordsAll_map fun a => Tree.records_message name number (h a)] at hr
    obtain ⟨a, -, rfl⟩ := List.mem_map.mp hr
    exact trivial
  own := readSub_own number readPart
  read m hm := by
    rw [recordsAll_map fun a => Tree.records_message name number (h a)]
    cases ho : o m with
    | none => rfl
    | some a =>
      have hparts : readAll number readNested [⟨number, .delimited (encodeAll (h a))⟩] =
          some [recordsAll (h a)] := by
        simp [readAll, readNested, records_encodeAll (hr.valid a) (hr.small a (hQ m hm a ho))]
      rw [Option.toList_some, List.map_singleton, readSub, hparts, Option.bind_some,
        if_neg (List.cons_ne_nil _ _), List.flatten_singleton, hr.read a (hQ m hm a ho)]
      rfl

lemma readElem_delimited [hr : Readable Q h readPart] {a : α} (ha : Q a) :
    readElem readPart (.delimited (encodeAll (h a))) = some (some a) := by
  rw [readElem, records_encodeAll (hr.valid a) (hr.small a ha), Option.bind_some, hr.read a ha]
  rfl

/-! ### What is read is of its type -/

variable {number : ℕ} {value : Payload → Option (Option α)} {rs : List Record} {a : α}

lemma mem_of_mapM {v : β → Option (Option α)} : ∀ {l : List β} {as : List (Option α)},
    l.mapM v = some as → some a ∈ as → ∃ b, v b = some (some a)
  | [], as, h, ha => by
    obtain rfl : [] = as := by simpa using h
    exact absurd ha List.not_mem_nil
  | b :: l, as, h, ha => by
    rw [List.mapM_cons] at h
    obtain ⟨x, hx, h⟩ := Option.bind_eq_some_iff.mp h
    obtain ⟨xs, hxs, h⟩ := Option.bind_eq_some_iff.mp h
    obtain rfl : x :: xs = as := by simpa using h
    rcases List.mem_cons.mp ha with rfl | ha
    · exact ⟨b, hx⟩
    · exact mem_of_mapM hxs ha

/-- What is read is read of some field. -/
lemma mem_of_readAll {l : List α} (h : readAll number value rs = some l) (ha : a ∈ l) :
    ∃ p, value p = some (some a) := by
  obtain ⟨as, has, rfl⟩ := Option.map_eq_some_iff.mp h
  obtain ⟨r, hr⟩ := mem_of_mapM has (List.reduceOption_mem_iff.mp ha)
  exact ⟨r.payload, hr⟩

lemma mem_of_readLast {o : Option α} (h : readLast number value rs = some o) (ha : a ∈ o) :
    ∃ p, value p = some (some a) := by
  obtain ⟨l, hl, rfl⟩ := Option.map_eq_some_iff.mp h
  exact mem_of_readAll hl (List.mem_of_getLast? ha)

lemma mem_of_readDefault {d : α} (h : readDefault d number value rs = some a) :
    a = d ∨ ∃ p, value p = some (some a) := by
  obtain ⟨o, ho, ha⟩ := Option.map_eq_some_iff.mp h
  cases o with
  | none => exact .inl ha.symm
  | some b =>
    obtain rfl : b = a := ha
    exact .inr (mem_of_readLast ho rfl)

lemma mem_of_readSub {o : Option α} (h : readSub number readPart rs = some o) (ha : a ∈ o) :
    ∃ rs', readPart rs' = some a := by
  obtain ⟨parts, -, h⟩ := Option.bind_eq_some_iff.mp h
  split at h
  · obtain rfl : none = o := Option.some.inj h
    cases ha
  · obtain ⟨b, hb, rfl⟩ := Option.map_eq_some_iff.mp h
    exact ⟨_, hb.trans ha⟩

end Magicicada.Wire
