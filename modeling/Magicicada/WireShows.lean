import Magicicada.WireRead

/-!
What the bytes of a message show of the values its fields were made of.

A function makes the set fields of a message out of a value. Where fields have numbers of their
own, the records of the one can be told from those of the other, so what each of them shows of
the value is shown by them together.
-/

namespace Magicicada.Wire

variable {μ α β γ : Type}

@[simp] lemma recordsAll_append (ts ts' : List Tree) :
    recordsAll (ts ++ ts') = recordsAll ts ++ recordsAll ts' := by
  induction ts with
  | nil => simp
  | cons t ts ih => simp [ih]

lemma recordsAll_map {f : α → Tree} {r : α → Record} (h : ∀ a, (f a).records = [r a])
    (l : List α) : recordsAll (l.map f) = l.map r := by
  induction l with
  | nil => simp
  | cons a l ih => simp [h, ih]

/-- Among the values in `P`, what is written of a value is written of no other one. -/
class Faithful (P : μ → Prop) (g : μ → List Tree) : Prop where
  inj : ∀ m m', P m → P m' → encodeAll (g m) = encodeAll (g m') → m = m'

/-- The fields made of a value have numbers among `ns`, and show what `p` is of a value in `P`. -/
structure Shows (P : μ → Prop) (ns : List ℕ) (g : μ → List Tree) (p : μ → β) : Prop where
  number : ∀ m, ∀ r ∈ recordsAll (g m), r.number ∈ ns
  sized : ∀ m, ∀ r ∈ recordsAll (g m), r.payload.Sized
  inj : ∀ m m', P m → P m' → recordsAll (g m) = recordsAll (g m') → p m = p m'

variable {P : μ → Prop} {ns ns' : List ℕ} {g f : μ → List Tree} {p : μ → β} {q : μ → γ}

/-- Of two parts of a list, one has the numbers of the records and the other has not. -/
lemma filter_number {l l' : List Record} (hl : ∀ r ∈ l, r.number ∈ ns)
    (hl' : ∀ r ∈ l', r.number ∉ ns) :
    (l ++ l').filter (fun r => decide (r.number ∈ ns)) = l := by
  have hkeep : l.filter (fun r => decide (r.number ∈ ns)) = l :=
    List.filter_eq_self.mpr fun r hr => decide_eq_true (hl r hr)
  have hdrop : l'.filter (fun r => decide (r.number ∈ ns)) = [] :=
    List.filter_eq_nil_iff.mpr fun r hr => by simpa using hl' r hr
  rw [List.filter_append, hkeep, hdrop, List.append_nil]

/-- **Fields with different numbers show together what they show apart.** -/
lemma Shows.append (hg : Shows P ns g p) (hf : Shows P ns' f q)
    (hd : ∀ n ∈ ns', n ∉ ns := by decide) :
    Shows P (ns ++ ns') (fun m => g m ++ f m) fun m => (p m, q m) where
  number m r hr := by
    rw [recordsAll_append, List.mem_append] at hr
    exact List.mem_append.mpr (hr.imp (hg.number m r) (hf.number m r))
  sized m r hr := by
    rw [recordsAll_append, List.mem_append] at hr
    exact hr.elim (hg.sized m r) (hf.sized m r)
  inj m m' hm hm' heq := by
    rw [recordsAll_append, recordsAll_append] at heq
    have hsplit : recordsAll (g m) = recordsAll (g m') := by
      rw [← filter_number (hg.number m) fun r hr => hd _ (hf.number m r hr), heq,
        filter_number (hg.number m') fun r hr => hd _ (hf.number m' r hr)]
    rw [hsplit] at heq
    exact Prod.ext (hg.inj m m' hm hm' hsplit)
      (hf.inj m m' hm hm' (List.append_cancel_left heq))

/-- Fields that show all of a value are written of no other one. -/
lemma Shows.faithful (hg : Shows P ns g p) (hp : Function.Injective p)
    (h0 : 0 ∉ ns := by decide) : Faithful P g := by
  have hvalid : ∀ m, ∀ r ∈ recordsAll (g m), r.Valid := fun m r hr =>
    ⟨Nat.pos_of_ne_zero fun hn => h0 (hn ▸ hg.number m r hr), hg.sized m r hr⟩
  refine ⟨fun m m' hm hm' heq => hp (hg.inj m m' hm hm' ?_)⟩
  exact encodeAll_inj (hvalid m) (hvalid m') heq

/-- No fields show nothing. -/
lemma shows_nil : Shows P [] (fun _ => []) fun _ : μ => () where
  number m r hr := absurd hr (by simp)
  sized m r hr := absurd hr (by simp)
  inj _ _ _ _ _ := rfl

/-! ### Single fields -/

lemma utf8_injective : Function.Injective utf8 := fun s s' h => by
  have hdecode := utf8Decode_utf8 s
  rw [h, utf8Decode_utf8, Option.some_inj] at hdecode
  exact hdecode.symm

/-- Lists of values in `Q` are alike when a function that tells these apart makes them so. -/
lemma map_inj_of_forall {f : α → β} {Q : α → Prop}
    (hf : ∀ a a', Q a → Q a' → f a = f a' → a = a') :
    ∀ {k k' : List α}, (∀ a ∈ k, Q a) → (∀ a ∈ k', Q a) → k.map f = k'.map f → k = k'
  | [], _, _, _, h => (List.map_eq_nil_iff.mp h.symm).symm
  | _ :: _, [], _, _, h => absurd h (by simp)
  | a :: k, a' :: k', hk, hk', h => by
    rw [List.map_cons, List.map_cons, List.cons.injEq] at h
    rw [List.forall_mem_cons] at hk hk'
    rw [hf a a' hk.1 hk'.1 h.1, map_inj_of_forall hf hk.2 hk'.2 h.2]

/-- A field for each element of a list, all of one number. -/
lemma shows_each {number : ℕ} {t : α → Tree} {payload : α → Payload} {Q : α → Prop}
    (ht : ∀ a, (t a).records = [⟨number, payload a⟩]) (hsized : ∀ a, (payload a).Sized)
    (hinj : ∀ a a', Q a → Q a' → payload a = payload a' → a = a') (l : μ → List α)
    (hl : ∀ m, P m → ∀ a ∈ l m, Q a) : Shows P [number] (fun m => (l m).map t) l where
  number m r hr := by
    rw [recordsAll_map ht] at hr
    obtain ⟨a, -, rfl⟩ := List.mem_map.mp hr
    exact List.mem_singleton_self number
  sized m r hr := by
    rw [recordsAll_map ht] at hr
    obtain ⟨a, -, rfl⟩ := List.mem_map.mp hr
    exact hsized a
  inj m m' hm hm' heq := by
    rw [recordsAll_map ht, recordsAll_map ht] at heq
    refine map_inj_of_forall (fun a a' ha ha' h => ?_) (hl m hm) (hl m' hm') heq
    exact hinj a a' ha ha' (Record.mk.inj h).2

/-- What one field shows of an option. -/
lemma Shows.of_toList {o : μ → Option α} (h : Shows P ns g fun m => (o m).toList) :
    Shows P ns g o where
  number := h.number
  sized := h.sized
  inj m m' hm hm' heq := by
    have htoList := h.inj m m' hm hm' heq
    cases hm : o m <;> cases hm' : o m' <;> simp_all

end Magicicada.Wire
