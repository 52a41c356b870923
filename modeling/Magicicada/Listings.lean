import Magicicada.Alone
import Magicicada.Downloads

/-!
A listing whose deferred is fired with success has everything.

It was given the message that ends its stream, after all the items since it was started, and
nothing that would have ended it came in between.
-/

namespace Magicicada.Requests

open Pb Errors Records

/-- The requests that list what is there, without callbacks of the user. -/
def Kind.lists : Kind → Bool
  | .getDelta q => !q.callback
  | .listShares _ | .listVolumes _ | .listPublicFiles _ => true
  | _ => false

/-- The type of the message that ends a listing. -/
def Kind.lastType : Kind → MessageType
  | .getDelta _ => .deltaEnd
  | .listShares _ => .sharesEnd
  | .listVolumes _ => .volumesEnd
  | _ => .publicFileInfoEnd

/-- What a listing reads besides its attributes does not matter to it. -/
def Context.plain : Context := { cancelled := false, raises := none }

variable {k : Kind}

lemma Kind.collects_of_lists (hk : k.lists) : k.collects := by
  cases k with
  | getDelta q => exact hk
  | listShares q | listVolumes q | listPublicFiles q => rfl
  | _ => cases hk

lemma Kind.processMessage_plain (hk : k.lists) (c : Context) (m : Message) :
    k.processMessage c m = k.processMessage .plain m := by
  cases k with
  | getDelta q =>
    have hq : q.callback = false := by simpa [Kind.lists] using hk
    simp only [Kind.processMessage, GetDelta.processMessage, hq]
    rfl
  | listShares q | listVolumes q | listPublicFiles q => rfl
  | _ => cases hk

lemma Kind.started_lists (hk : k.lists) : k.started.lists := by
  cases k with
  | getDelta q => exact hk
  | listShares q | listVolumes q | listPublicFiles q => rfl
  | _ => cases hk

lemma defaultProcessMessage_fails (m : Message) : ∃ e,
    defaultProcessMessage m = .error e ∨ defaultProcessMessage m = .raise e := by
  unfold defaultProcessMessage
  split
  · split
    · exact ⟨_, Or.inl rfl⟩
    · exact ⟨_, Or.inr rfl⟩
  · exact ⟨_, Or.inl rfl⟩

/-- How a listing takes a message: as an item, as the end of the stream, or as a failure. -/
inductive Kind.Takes (k : Kind) (m : Message) : Kind × Reply → Prop
  | item (k' : Kind) (hk : k'.lists) (hlast : k'.lastType = k.lastType)
    (ht : m.type ≠ k.lastType) : Takes k m (k', .stay)
  | last (k' : Kind) (ht : m.type = k.lastType) : Takes k m (k', .done)
  | failure (reply : Reply) (ht : m.type ≠ k.lastType)
    (h : ∃ e, reply = .error e ∨ reply = .raise e) : Takes k m (k, reply)

lemma Kind.processMessage_takes (hk : k.lists) (m : Message) :
    k.Takes m (k.processMessage .plain m) := by
  cases k with
  | getDelta q =>
    have hq : q.callback = false := by simpa [Kind.lists] using hk
    simp only [Kind.processMessage, GetDelta.processMessage, hq]
    split
    · next ht =>
      split
      · exact .failure _ (by simp [ht, lastType]) ⟨_, Or.inr rfl⟩
      · exact .item _ (by simp [lists]) rfl (by simp [ht, lastType])
    · next ht => exact .last _ ht
    · next ht => exact .failure _ ht (defaultProcessMessage_fails m)
  | listShares q =>
    simp only [Kind.processMessage, ListShares.processMessage]
    split
    · next ht =>
      split
      · exact .failure _ (by simp [ht, lastType]) ⟨_, Or.inr rfl⟩
      · exact .failure _ (by simp [ht, lastType]) ⟨_, Or.inr rfl⟩
      · exact .item _ rfl rfl (by simp [ht, lastType])
    · next ht => exact .last _ ht
    · next ht => exact .failure _ ht (defaultProcessMessage_fails m)
  | listVolumes q =>
    simp only [Kind.processMessage, ListVolumes.processMessage]
    split
    · next ht =>
      split
      · exact .failure _ (by simp [ht, lastType]) ⟨_, Or.inr rfl⟩
      · exact .item _ rfl rfl (by simp [ht, lastType])
    · next ht => exact .last _ ht
    · next ht => exact .failure _ ht (defaultProcessMessage_fails m)
  | listPublicFiles q =>
    simp only [Kind.processMessage, ListPublicFiles.processMessage]
    split
    · next ht => exact .item _ rfl rfl (by simp [ht, lastType])
    · next ht => exact .last _ ht
    · next ht => exact .failure _ ht (defaultProcessMessage_fails m)
  | _ => cases hk

/-- The items of a listing, in order. -/
abbrev Kind.listing (k : Kind) (items : List Message) : Kind := k.takeAll .plain items

lemma Kind.listing_snoc (k : Kind) (items : List Message) (m : Message) :
    k.listing (items ++ [m]) = ((k.listing items).processMessage .plain m).1 := by
  simp [Kind.listing, Kind.takeAll]

lemma accepts_snoc {items : List Message} {m : Message} :
    ∀ {k : Kind}, Accepts .plain k (items ++ [m]) ↔
      Accepts .plain k items ∧ ((k.listing items).processMessage .plain m).2 = .stay := by
  induction items with
  | nil => simp [Accepts, Kind.listing, Kind.takeAll]
  | cons a items ih =>
    intro k
    simp only [List.cons_append, Accepts, ih, and_assoc]
    rfl

/-- Listing items leaves a listing a listing of the same things. -/
lemma Kind.listing_lists {items : List Message} : ∀ {k : Kind}, k.lists →
    Accepts .plain k items → (k.listing items).lists ∧ (k.listing items).lastType = k.lastType := by
  induction items with
  | nil => exact fun hk _ => ⟨hk, rfl⟩
  | cons m items ih =>
    intro k hk h
    obtain ⟨hstay, hrest⟩ := h
    have htakes := Kind.processMessage_takes hk m
    rw [show k.listing (m :: items) = (k.processMessage .plain m).1.listing items from rfl]
    revert hstay hrest
    generalize k.processMessage .plain m = a at htakes
    intro hstay hrest
    cases htakes with
    | item k' hk' hlast ht => exact ⟨(ih hk' hrest).1, (ih hk' hrest).2.trans hlast⟩
    | last k' ht => cases hstay
    | failure reply ht h =>
      obtain ⟨e, rfl | rfl⟩ := h <;> cases hstay

end Magicicada.Requests

namespace Magicicada.Client

open Pb Errors Requests Prog

variable {r : ℕ} {i : ℤ} {k : Kind} {q : Request} {s w : World} {es es' : List Event}
  {items : List Message} {last : Message}

/-- The valid messages with an id, in order. -/
def mail (i : ℤ) (es : List Event) : List Message := es.filterMap fun e =>
  match e with
  | .message m _ => if m.id = i ∧ validateMessage m = [] then some m else none
  | _ => none

/-- What ends a request whatever it was given. -/
def Interrupts (r : ℕ) : Event → Prop
  | .error r' _ => r' = r
  | .lost _ => True
  | _ => False

/-- A request of this kind was started and since then given these items. -/
structure Listing (r : ℕ) (i : ℤ) (k : Kind) (es : List Event) (items : List Message) : Prop where
  since : ∃ es₁ es₂, es = es₁ ++ .start r :: es₂ ∧ mail i es₂ = items ∧
    ∀ e ∈ es₂, ¬Interrupts r e
  accepts : Accepts .plain k items

/-- After its items it was given the message that ends the stream. -/
def Listed (r : ℕ) (i : ℤ) (k : Kind) (es : List Event) (items : List Message)
    (last : Message) : Prop :=
  ∃ es₁ raises es₂, es = es₁ ++ .message last raises :: es₂ ∧ Listing r i k es₁ items ∧
    last.id = i ∧ validateMessage last = [] ∧ last.type = k.lastType

/-! ### The trace -/

lemma mail_append (es es' : List Event) : mail i (es ++ es') = mail i es ++ mail i es' :=
  List.filterMap_append

lemma Listing.start (es : List Event) : Listing r i k (es ++ [.start r]) [] :=
  ⟨⟨es, [], by simp, rfl, by simp⟩, trivial⟩

/-- A listing goes on with what it accepts. -/
lemma Listing.snoc (h : Listing r i k es items) {e : Event} (he : ¬Interrupts r e)
    (hmail : Accepts .plain k (items ++ mail i [e])) :
    Listing r i k (es ++ [e]) (items ++ mail i [e]) := by
  obtain ⟨es₁, es₂, rfl, rfl, hes₂⟩ := h.since
  refine ⟨⟨es₁, es₂ ++ [e], by simp, mail_append .., ?_⟩, hmail⟩
  intro e' he'
  rcases List.mem_append.mp he' with he' | he'
  · exact hes₂ e' he'
  · rw [List.mem_singleton.mp he']
    exact he

lemma Listed.append (h : Listed r i k es items last) (es' : List Event) :
    Listed r i k (es ++ es') items last := by
  obtain ⟨es₁, raises, es₂, rfl, h⟩ := h
  exact ⟨es₁, raises, es₂ ++ es', by simp, h⟩

/-- An event that brings the request nothing is no mail for it and does not end it. -/
lemma not_brings {e : Event} (h : brings r i e = none) : mail i [e] = [] ∧ ¬Interrupts r e := by
  cases e with
  | message m raises =>
    have hm : ¬(m.id = i ∧ validateMessage m = []) := fun hm => by simp [brings, hm] at h
    exact ⟨by simp [mail, hm], id⟩
  | error r' e => exact ⟨rfl, fun hr => by simp [brings, show r' = r from hr] at h⟩
  | lost reason => cases h
  | _ => exact ⟨rfl, id⟩

/-! ### The request -/

lemma Request.opened_kind (q : Request) (i : ℤ) : (q.opened i).kind =
    match q.argError, q.kind.startMessages with
    | none, .ok _ => q.kind.started
    | _, _ => q.kind := by
  cases harg : q.argError with
  | some e => rw [q.opened_raises fun l h => by rw [harg] at h; cases h]
  | none =>
    cases hl : q.kind.startMessages with
    | error e => rw [q.opened_raises fun l _ h => by rw [hl] at h; cases h]
    | ok l =>
      rw [q.opened_ok harg hl]
      split <;> rfl

/-- A listing that is started is under way. -/
lemma Request.opened_lists (hk : q.kind.lists) (i : ℤ) : (q.opened i).kind.lists ∧
    (q.opened i).started = true ∧ (q.opened i).deferred = q.deferred := by
  refine ⟨?_, ?_⟩
  · rw [q.opened_kind]
    split
    · exact Kind.started_lists hk
    · exact hk
  · unfold Request.opened
    split
    · split
      · next hnoop =>
        rw [hnoop] at hk
        cases hk
      · exact ⟨rfl, rfl⟩
    · exact ⟨rfl, rfl⟩

/-- What a listing makes of a message. -/
lemma Request.given_lists (hk : q.kind.lists) (c : Callbacks) (m : Message)
    (raises : Option Exn) : q.given c m raises =
      match Outcome.ofReply (q.kind.processMessage .plain m).2 with
      | none => { q with kind := (q.kind.processMessage .plain m).1 }
      | some o => { q with kind := (q.kind.processMessage .plain m).1 }.ended o := by
  unfold Request.given
  rw [Kind.processMessage_plain hk]
  have htakes := Kind.processMessage_takes hk m
  generalize q.kind.processMessage .plain m = a at htakes
  cases htakes with
  | item k' hk' hlast ht => rfl
  | last k' ht => rfl
  | failure reply ht h => obtain ⟨e, rfl | rfl⟩ := h <;> rfl

/-- Where a listing stands after the events of a trace. -/
inductive Stage (r : ℕ) (i : ℤ) (k : Kind) (es : List Event) (q : Request) : Prop
  | waiting (hid : q.id = none) (hlists : q.kind.lists) (hkind : (q.opened i).kind = k)
  | listing (items : List Message) (h : Listing r i k es items) (hkind : q.kind = k.listing items)
    (hst : q.started = true) (hdef : q.deferred = none)
  | ended (hst : q.started = false) (hfin : q.finished = true)
    (h : q.deferred = some .callback → ∃ items last, Listed r i k es items last ∧
      q.kind = k.collected .plain items last)

/-- What an event brings a request. -/
lemma eq_of_brings {e : Event} {x : Input} (h : brings r i e = some x) :
    match x with
    | .start j => e = .start r ∧ j = i
    | .message m raises => e = .message m raises ∧ m.id = i ∧ validateMessage m = []
    | .cancel => e = .cancel r
    | .done => e = .done r
    | .error err => e = .error r err
    | .lost reason => e = .lost reason := by
  cases e with
  | start r' | cancel r' | done r' | error r' _ =>
    simp only [brings] at h
    split at h
    · next hr =>
      cases h
      simp [hr]
    · cases h
  | message m raises =>
    simp only [brings] at h
    split at h
    · next hm =>
      cases h
      exact ⟨rfl, hm⟩
    · cases h
  | lost reason =>
    cases h
    rfl
  | _ => cases h

/-- An event that does not change it leaves a listing where it is. -/
lemma Stage.idle (h : Stage r i k es q) {e : Event} (he : ¬Interrupts r e)
    (hmail : mail i [e] = []) : Stage r i k (es ++ [e]) q := by
  cases h with
  | waiting hid hlists hkind => exact .waiting hid hlists hkind
  | listing items h hkind hst hdef =>
    have := h.snoc he (by rw [hmail, List.append_nil]; exact h.accepts)
    rw [hmail, List.append_nil] at this
    exact .listing items this hkind hst hdef
  | ended hst hfin h =>
    refine .ended hst hfin fun hdef => ?_
    obtain ⟨items, last, h, hkind⟩ := h hdef
    exact ⟨items, last, h.append _, hkind⟩

/-- What is over stays as it is. -/
lemma Stage.stays (h : Stage r i k es q) (hst : q.started = false) (hid : q.id ≠ none)
    (e : Event) : Stage r i k (es ++ [e]) q := by
  cases h with
  | waiting hid' => exact absurd hid' hid
  | listing items h hkind hst' => simp [hst] at hst'
  | ended hst hfin h =>
    refine .ended hst hfin fun hdef => ?_
    obtain ⟨items, last, h, hkind⟩ := h hdef
    exact ⟨items, last, h.append _, hkind⟩

/-- A listing that fails is over. -/
lemma Stage.failed (q : Request) (e : Exn) : Stage r i k es (q.ended (.errback e)) :=
  .ended rfl rfl fun h => nomatch h

/-- **A message** for a listing that is under way. -/
lemma Stage.message (hk : k.lists) (h : Listing r i k es items) (hkind : q.kind = k.listing items)
    (hst : q.started = true) (hdef : q.deferred = none) {m : Message} (hm : m.id = i)
    (hvalid : validateMessage m = []) (c : Callbacks) (raises : Option Exn) :
    Stage r i k (es ++ [.message m raises]) (q.given c m raises) := by
  obtain ⟨hlists, hlast⟩ := Kind.listing_lists hk h.accepts
  rw [← hkind] at hlists hlast
  rw [Request.given_lists hlists]
  have htakes := Kind.processMessage_takes hlists m
  generalize ha : q.kind.processMessage .plain m = a at htakes
  cases htakes with
  | item k' hk' hlast' ht =>
    have hmail : mail i [.message m raises] = [m] := by simp [mail, hm, hvalid]
    have hstay : ((k.listing items).processMessage .plain m).2 = .stay := by rw [← hkind, ha]
    have hlisting := h.snoc (e := .message m raises) id (by
      rw [hmail]
      exact accepts_snoc.mpr ⟨h.accepts, hstay⟩)
    rw [hmail] at hlisting
    refine .listing _ hlisting ?_ hst hdef
    rw [Kind.listing_snoc, ← hkind, ha]
    rfl
  | last k' ht =>
    refine .ended rfl rfl fun _ => ⟨items, m, ?_, ?_⟩
    · exact ⟨es, raises, [], rfl, h, hm, hvalid, ht.trans hlast⟩
    · have hends : WellFormed .plain k items m := ⟨h.accepts, by
        show ((k.listing items).processMessage .plain m).2.ends = true
        rw [← hkind, ha]
        rfl⟩
      have hcollected := Kind.takeAll_collected (Kind.collects_of_lists hk) hends
      rw [← hcollected, show k.takeAll .plain items = q.kind from hkind.symm, ha]
      rfl
  | failure reply ht hfails =>
    obtain ⟨e, rfl | rfl⟩ := hfails
    · exact .failed _ e
    · exact .failed _ e

/-- **Every event** takes a listing from one stage to the next. -/
lemma Stage.step (hk : k.lists) (hw : Plays r w.callbacks w) {e : Event}
    (he : AdmitsDownload r w e) (hn : Numbered r i (w.step e))
    (h : Stage r i k es (w.self r)) : Stage r i k (es ++ [e]) ((w.step e).self r) := by
  obtain ⟨he, hdone⟩ := he
  rw [self_step_next hw he hn]
  have hfresh : (w.self r).id = none → (w.self r).started = false ∧ _ := hw.fresh r
  cases hb : brings r i e with
  | none => exact h.idle (not_brings hb).2 (not_brings hb).1
  | some x =>
    rw [Option.elim_some]
    have hx := eq_of_brings hb
    cases x with
    | start j =>
      obtain ⟨rfl, rfl⟩ := hx
      have hid : (w.self r).id = none := he.1
      cases h with
      | waiting _ hlists hkind =>
        obtain ⟨-, hst, hdef⟩ := Request.opened_lists hlists j
        exact .listing [] (Listing.start es) hkind hst (hdef.trans (hfresh hid).2.2.1)
      | listing _ _ _ hst => simp [(hfresh hid).1] at hst
      | ended _ hfin => simp [show (w.self r).finished = false from (hfresh hid).2.1] at hfin
    | message m raises =>
      obtain ⟨rfl, hm, hvalid⟩ := hx
      show Stage r i k _ (if (w.self r).started then _ else w.self r)
      cases h with
      | waiting hid hlists hkind =>
        rw [if_neg (by simp [(hfresh hid).1])]
        exact .waiting hid hlists hkind
      | listing items h hkind hst hdef =>
        rw [if_pos hst]
        exact Stage.message hk h hkind hst hdef hm hvalid _ raises
      | ended hst hfin h =>
        rw [if_neg (by simp [hst])]
        exact (Stage.ended hst hfin h).stays hst (fun hid => by
          simp [show (w.self r).finished = false from (hfresh hid).2.1] at hfin) _
    | cancel =>
      obtain rfl : e = .cancel r := hx
      show Stage r i k _ (if (w.self r).finished then w.self r else _)
      have hidle := h.idle (e := .cancel r) id rfl
      split
      · exact hidle
      · next hfin =>
        cases hidle with
        | waiting hid hlists hkind =>
          refine .waiting hid hlists ?_
          rw [Request.opened_kind] at hkind ⊢
          exact hkind
        | listing items h hkind hst hdef => exact .listing items h hkind hst hdef
        | ended hst hfin' h => exact absurd hfin' hfin
    | done => exact absurd hx hdone
    | error err =>
      exact .failed _ err
    | lost reason =>
      show Stage r i k _ (if (w.self r).started then _ else w.self r)
      split
      · exact .failed _ reason
      · next hst =>
        obtain rfl : e = .lost reason := hx
        have hst : (w.self r).started = false := by simpa using hst
        by_cases hid : (w.self r).id = none
        · cases h with
          | waiting _ hlists hkind => exact .waiting hid hlists hkind
          | listing _ _ _ hst' => simp [hst] at hst'
          | ended _ hfin => simp [show (w.self r).finished = false from (hfresh hid).2.1] at hfin
        · exact h.stays hst hid _

/-! ### A run -/

/-- What a run of a client admits, in which the ids fit and the request has this one. -/
def Tracked (r : ℕ) (i : ℤ) (w : World) (e : Event) : Prop :=
  AdmitsDownload r w e ∧ Numbered r i (w.step e)

lemma Plays.tracked {c : Callbacks} (hw : Plays r c w) {e : Event} (he : Tracked r i w e) :
    Plays r c (w.step e) := hw.step he.1.1 he.2

/-- A run that ends with ids that fit is one in which they fit all along. -/
lemma tracked (hw : Registry w) (hes : Runs.Legal World.step (AdmitsDownload r) w es)
    (hn : Numbered r i (Runs.run World.step w es)) :
    Runs.Legal World.step (Tracked r i) w es :=
  (hes.back (I := Registry) (J := Numbered r i) (fun _ _ hs he => hs.stepAny he.1)
    (fun _ _ hs he hn => hn.before (hs.movesAny he.1).ages.ids) hw hn).1

/-- Where a listing stands after a run. -/
lemma Stage.run (hk : k.lists) {c : Callbacks} (hw : Plays r c w)
    (hes : Runs.Legal World.step (Tracked r i) w es) (h : Stage r i k [] (w.self r)) :
    Stage r i k es ((Runs.run World.step w es).self r) := by
  refine (hes.history (P := fun es s => Plays r c s ∧ Stage r i k es (s.self r)) ?_ ⟨hw, h⟩).2
  intro es s e ⟨hs, hstage⟩ he
  exact ⟨hs.tracked he, hstage.step hk ⟨hs.toRegistry, rfl, hs.download⟩ he.1 he.2⟩

/-- A listing that is under way and has nothing but items coming collects them. -/
lemma listing_run {c : Callbacks} : ∀ {es : List Event} {w : World} {k : Kind}, k.lists →
    Plays r c w → Runs.Legal World.step (Tracked r i) w es → (w.self r).started = true →
    (w.self r).deferred = none → (w.self r).kind = k → (∀ e ∈ es, ¬Interrupts r e) →
    Accepts .plain k (mail i es) →
    let t := Runs.run World.step w es
    (t.self r).started = true ∧ (t.self r).deferred = none ∧
      (t.self r).kind = k.listing (mail i es) := by
  intro es
  induction es with
  | nil => exact fun _ _ _ hst hdef hkind _ _ => ⟨hst, hdef, hkind⟩
  | cons e es ih =>
    intro w k hk hw hes hst hdef hkind hquiet haccepts
    obtain ⟨he, hrest⟩ := hes
    have hmail : mail i (e :: es) = mail i [e] ++ mail i es := mail_append [e] es
    rw [hmail] at haccepts ⊢
    have hnext := self_step_next ⟨hw.toRegistry, rfl, hw.download⟩ he.1.1 he.2
    have hgo : ∀ k', k'.lists → ((w.step e).self r).started = true →
        ((w.step e).self r).deferred = none → ((w.step e).self r).kind = k' →
        Accepts .plain k' (mail i es) → _ := fun k' hk' hst' hdef' hkind' haccepts' =>
      ih hk' (hw.tracked he) hrest hst' hdef' hkind' (fun e he => hquiet e (.tail _ he)) haccepts'
    cases hb : brings r i e with
    | none =>
      rw [hb, Option.elim_none] at hnext
      rw [(not_brings hb).1, List.nil_append] at haccepts ⊢
      exact hgo k hk (by rw [hnext]; exact hst) (by rw [hnext]; exact hdef)
        (by rw [hnext]; exact hkind) haccepts
    | some x =>
      rw [hb, Option.elim_some] at hnext
      have hx := eq_of_brings hb
      cases x with
      | start j =>
        obtain ⟨rfl, -⟩ := hx
        exact absurd hst (by simp [show (w.self r).started = false from (hw.fresh r he.1.1.1).1])
      | message m raises =>
        obtain ⟨rfl, hm, hvalid⟩ := hx
        have hone : mail i [.message m raises] = [m] := by simp [mail, hm, hvalid]
        rw [hone] at haccepts ⊢
        obtain ⟨hstay, haccepts⟩ := haccepts
        have hlists := hkind ▸ hk
        have hself : (w.step (.message m raises)).self r =
            { w.self r with kind := (k.processMessage .plain m).1 } := by
          rw [hnext]
          show (if (w.self r).started then _ else _) = _
          rw [if_pos hst, Request.given_lists hlists, hkind, hstay]
          rfl
        have hone : Accepts .plain k [m] := ⟨hstay, trivial⟩
        exact hgo _ (Kind.listing_lists hk hone).1 (by rw [hself]; exact hst)
          (by rw [hself]; exact hdef) (by rw [hself]) haccepts
      | cancel =>
        obtain rfl : e = .cancel r := hx
        have hfin : (w.self r).finished = false := hw.unfinished r hst
        have hself : (w.step (.cancel r)).self r = { w.self r with cancelled := true } := by
          rw [hnext]
          show (if (w.self r).finished then _ else _) = _
          rw [if_neg (by simp [hfin])]
        exact hgo k hk (by rw [hself]; exact hst) (by rw [hself]; exact hdef)
          (by rw [hself]; exact hkind) haccepts
      | done => exact absurd hx he.1.2
      | error err => exact absurd (show Interrupts r e by rw [hx]; rfl) (hquiet e (.head _))
      | lost reason => exact absurd (show Interrupts r e by rw [hx]; trivial) (hquiet e (.head _))

/-- Nothing happens to a request that is over. -/
lemma self_over {c : Callbacks} (hw : Plays r c w) (hes : Runs.Legal World.step (Tracked r i) w es)
    (hfin : (w.self r).finished = true) :
    (Runs.run World.step w es).self r = w.self r := by
  refine (hes.invariant (I := fun s => Plays r c s ∧ s.self r = w.self r) ?_ ⟨hw, rfl⟩).2
  intro s e ⟨hs, hself⟩ he
  refine ⟨hs.tracked he, ?_⟩
  have hfin' : (s.self r).finished = true := hself ▸ hfin
  have hst : (s.self r).started = false := by
    cases h : (s.self r).started with
    | false => rfl
    | true => simp [show (s.self r).finished = false from hs.unfinished r h] at hfin'
  rw [self_step_next ⟨hs.toRegistry, rfl, hs.download⟩ he.1.1 he.2, ← hself]
  cases hb : brings r i e with
  | none => rfl
  | some x =>
    have hx := eq_of_brings hb
    rw [Option.elim_some]
    cases x with
    | start j =>
      obtain ⟨rfl, -⟩ := hx
      simp [show (s.self r).finished = false from (hs.fresh r he.1.1.1).2.1] at hfin'
    | message m raises => exact if_neg (by simp [hst])
    | cancel => exact if_pos hfin'
    | done => exact absurd hx he.1.2
    | error err =>
      obtain rfl : e = .error r err := hx
      have hst' : (s.self r).started = true := he.1.1
      simp [hst] at hst'
    | lost reason => exact if_neg (by simp [hst])

/-- A request that has everything it starts with, in a client nothing has happened to. -/
lemma Initial.plays {w₀ : World} (h₀ : Initial w₀) (hk : (w₀.objs r).kind.lists) :
    Plays r w₀.callbacks w₀ := by
  refine ⟨h₀.registry, rfl, ?_⟩
  revert hk
  cases (w₀.objs r).kind <;> simp [Kind.lists, Kind.isPutContent]

lemma Initial.waiting {w₀ : World} (h₀ : Initial w₀) (hk : (w₀.objs r).kind.lists) :
    Stage r i ((w₀.objs r).opened i).kind [] (w₀.self r) := by
  refine .waiting (h₀.objs r).id hk ?_
  rw [Request.opened_kind]
  exact (Request.opened_kind (w₀.objs r) i).symm

/-- A run with ids that fit, in a client whose callbacks are these. -/
lemma Plays.run {c : Callbacks} (hw : Plays r c w)
    (hes : Runs.Legal World.step (Tracked r i) w es) : Plays r c (Runs.run World.step w es) :=
  hes.invariant (I := Plays r c) (fun _ _ hs he => hs.tracked he) hw

/-- **A listing that was started and given items** is under way and has them. -/
lemma Listing.reached (hk : k.lists) {c : Callbacks} (hw : Plays r c w)
    (hwaiting : Stage r i k [] (w.self r)) (hes : Runs.Legal World.step (Tracked r i) w es)
    (h : Listing r i k es items) :
    let t := Runs.run World.step w es
    (t.self r).started = true ∧ (t.self r).kind = k.listing items := by
  obtain ⟨⟨es₁, es₂, rfl, rfl, hquiet⟩, haccepts⟩ := h
  obtain ⟨hes₁, hstart, hes₂⟩ := Runs.legal_append.mp hes
  have hstage := Stage.run hk hw hes₁ hwaiting
  have hs := hw.run hes₁
  rw [Runs.run_append, Runs.run_cons]
  generalize Runs.run World.step w es₁ = s at hstart hes₂ hstage hs
  have hfresh := hs.fresh r hstart.1.1.1
  obtain ⟨hlists, hkind⟩ : (s.self r).kind.lists ∧ ((s.self r).opened i).kind = k := by
    cases hstage with
    | waiting _ hlists hkind => exact ⟨hlists, hkind⟩
    | listing _ _ _ hst => simp [show (s.self r).started = false from hfresh.1] at hst
    | ended _ hfin => simp [show (s.self r).finished = false from hfresh.2.1] at hfin
  obtain ⟨-, hst, hdef⟩ := Request.opened_lists hlists i
  have hopened : (s.step (.start r)).self r = (s.self r).opened i := by
    rw [self_step_next ⟨hs.toRegistry, rfl, hs.download⟩ hstart.1.1 hstart.2]
    simp [brings, Request.next]
  obtain ⟨hst, -, hkind⟩ := listing_run hk (hs.tracked hstart) hes₂ (by rw [hopened, hst])
    (by rw [hopened, hdef]; exact hfresh.2.2.1) (by rw [hopened, hkind]) hquiet haccepts
  exact ⟨hst, hkind⟩

/-- The message that ends its stream ends a listing with success. -/
lemma Listing.done (hk : k.lists) (h : Accepts .plain k items) (ht : last.type = k.lastType) :
    (k.listing items).processMessage .plain last = (k.collected .plain items last, .done) := by
  obtain ⟨hlists, hlast⟩ := Kind.listing_lists hk h
  have hdone : ((k.listing items).processMessage .plain last).2 = .done := by
    have htakes := Kind.processMessage_takes hlists last
    generalize (k.listing items).processMessage .plain last = a at htakes
    cases htakes with
    | item _ _ _ hne => exact absurd (ht.trans hlast.symm) hne
    | last _ _ => rfl
    | failure _ hne _ => exact absurd (ht.trans hlast.symm) hne
  refine Prod.ext ?_ hdone
  refine Kind.takeAll_collected (Kind.collects_of_lists hk) ⟨h, ?_⟩
  rw [show k.takeAll .plain items = k.listing items from rfl, hdone]
  rfl

/-- **A listing that was given everything** is done, and has it. -/
lemma Listed.reached (hk : k.lists) {c : Callbacks} (hw : Plays r c w)
    (hwaiting : Stage r i k [] (w.self r)) (hes : Runs.Legal World.step (Tracked r i) w es)
    (h : Listed r i k es items last) :
    let q := (Runs.run World.step w es).self r
    q.deferred = some .callback ∧ q.kind = k.collected .plain items last := by
  obtain ⟨es₁, raises, es₂, rfl, hlisting, hlast, hvalid, ht⟩ := h
  obtain ⟨hes₁, hmessage, hes₂⟩ := Runs.legal_append.mp hes
  obtain ⟨hst, hkind⟩ := hlisting.reached hk hw hwaiting hes₁
  have hs := hw.run hes₁
  rw [Runs.run_append, Runs.run_cons]
  generalize Runs.run World.step w es₁ = s at hst hkind hmessage hes₂ hs
  have hgiven : (s.step (.message last raises)).self r =
      (s.self r).given s.callbacks last raises := by
    rw [self_step_next ⟨hs.toRegistry, rfl, hs.download⟩ hmessage.1.1 hmessage.2]
    simp [brings, hlast, hvalid, Request.next, hst]
  have hlists := (Kind.listing_lists hk hlisting.accepts).1
  have hself : (s.step (.message last raises)).self r =
      { s.self r with kind := k.collected .plain items last }.ended .callback := by
    rw [hgiven, Request.given_lists (hkind ▸ hlists), hkind, Listing.done hk hlisting.accepts ht]
    rfl
  rw [self_over (hs.tracked hmessage) hes₂ (by rw [hself]; rfl), hself]
  exact ⟨rfl, rfl⟩

/-- **A listing succeeds exactly if** it was given the message that ends its stream after items it
accepted, with nothing in between that ends it, and then it has listed exactly these items. -/
theorem listing_succeeds_iff {w₀ : World} (h₀ : Initial w₀) {es : List Event} {r : ℕ} {i : ℤ}
    (hes : Runs.Legal World.step (AdmitsDownload r) w₀ es) (hk : (w₀.objs r).kind.lists)
    (hn : Numbered r i (Runs.run World.step w₀ es)) (k : Kind) :
    let q := (Runs.run World.step w₀ es).objs r
    let k₀ := ((w₀.objs r).opened i).kind
    q.deferred = some .callback ∧ q.kind = k ↔
      ∃ items last, Listed r i k₀ es items last ∧ k = k₀.collected .plain items last := by
  intro q k₀
  have hk₀ : k₀.lists := (Request.opened_lists hk i).1
  have htracked := tracked h₀.registry hes hn
  constructor
  · rintro ⟨hdef, rfl⟩
    cases Stage.run hk₀ (h₀.plays hk) htracked (h₀.waiting hk) with
    | waiting hid =>
      have hnone : q.deferred = none := (((h₀.plays hk).run htracked).fresh r hid).2.2.1
      simp [hnone] at hdef
    | listing _ _ _ _ hnone => simp [show q.deferred = none from hnone] at hdef
    | ended _ _ h => exact h hdef
  · rintro ⟨items, last, hlisted, rfl⟩
    exact hlisted.reached hk₀ (h₀.plays hk) (h₀.waiting hk) htracked

/-- A public file. -/
def aPublicFile : Message := { id := 1, type := .publicFileInfo }

def publicFilesLister : World :=
  World.init (fun _ => .listPublicFiles {}) fun _ => ⟨fun _ => .ok [], []⟩

def publicFiles : List Event :=
  [.start 0, .message aPublicFile none, .cancel 0,
    .message { id := 1, type := .publicFileInfoEnd } none]

/-- A listing that is cancelled goes on all the same. -/
theorem listing_succeeds_cancelled :
    ((Runs.run World.step publicFilesLister publicFiles).objs 0).deferred = some .callback := by
  set w₀ := publicFilesLister with hw₀
  have h₀ : Initial w₀ := initial_init _ _
  have hes : Runs.Legal World.step (AdmitsDownload 0) w₀ publicFiles := by
    refine ⟨⟨⟨rfl, rfl⟩, ?_⟩, ⟨trivial, ?_⟩, ⟨trivial, ?_⟩, ⟨trivial, ?_⟩, trivial⟩ <;> simp
  have hreg : Registry (Runs.run World.step w₀ publicFiles) :=
    hes.invariant (fun _ _ hs he => hs.stepAny he.1) h₀.registry
  have hid : ((Runs.run World.step w₀ publicFiles).objs 0).id = some 1 := by decide +kernel
  have hn : Numbered 0 1 (Runs.run World.step w₀ publicFiles) := by
    refine ⟨fun j hj => ?_, hreg.fits ?_ ?_⟩
    · rw [hid] at hj
      exact (Option.some.inj hj).symm
    · decide +kernel
    · decide +kernel
  refine ((listing_succeeds_iff h₀ hes rfl hn _).mpr
    ⟨[aPublicFile], { id := 1, type := .publicFileInfoEnd }, ?_, rfl⟩).1
  refine ⟨[.start 0, .message aPublicFile none, .cancel 0], none, [], rfl, ⟨?_, rfl, trivial⟩,
    rfl, by decide, rfl⟩
  refine ⟨[], [.message aPublicFile none, .cancel 0], rfl, by decide, ?_⟩
  intro e he
  rcases List.mem_cons.mp he with rfl | he
  · exact id
  · rw [List.mem_singleton.mp he]
    exact id

end Magicicada.Client
