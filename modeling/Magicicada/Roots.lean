import Magicicada.Outgoing

/-!
What the users of a client are told: the root node, by `get_root`, and what the callbacks are
called with.
-/

namespace Magicicada.Client

open Pb Errors Requests Prog

variable {r : ℕ} {w : World} {e : Event} {m : Message} {raises : Option Exn}

/-- The user gets the deferred with that number from `StorageClient.get_root`. -/
def getRoot (d : ℕ) : M PUnit := do
  let w ← get
  match w.rootId with
  | some rootId => modify fun w => { w with rootIdFired := w.rootIdFired ++ [(d, rootId)] }
  | none => modify fun w => { w with rootIdDefers := w.rootIdDefers ++ [d] }

/-! ### What a message tells -/

/-- What the callback for a message is called with, if it is. -/
def noticeOf (c : Callbacks) (m : Message) : List Notice :=
  match notice c m with
  | .ok (some n) => [n]
  | _ => []

/-- The root came. -/
def Told.root (t : Told) (rootId : String) : Told := { t with
  rootId := some rootId
  rootIdDefers := []
  rootIdFired := t.rootIdFired ++ t.rootIdDefers.map fun d => (d, rootId) }

def Told.notify (t : Told) (notices : List Notice) : Told :=
  { t with notices := t.notices ++ notices }

@[simp] lemma Told.notify_nil (t : Told) : t.notify [] = t := by simp [Told.notify]

/-- What a valid message tells: one with the id of a request only the state of a node, and that
if the request is a query. -/
def hear (w : World) (m : Message) (raises : Option Exn) (t : Told) : Told :=
  match w.requests.get? m.id with
  | some r => if w.reply r m raises = .notify then t.notify (noticeOf w.callbacks m) else t
  | none =>
    if m.type = .root then t.root (rd (rd m.root).node) else t.notify (noticeOf w.callbacks m)

/-- What an event tells. -/
def tell (w : World) (e : Event) (t : Told) : Told :=
  match e with
  | .message m raises => if validateMessage m = [] then hear w m raises t else t
  | _ => t

lemma told_notify (m : Message) (raises : Option Exn) (w : World) :
    (after (notify m raises) w).told = w.told.notify (noticeOf w.callbacks m) := by
  unfold notify noticeOf
  rw [after_get_bind]
  cases notice w.callbacks m with
  | error e => exact (Told.notify_nil _).symm
  | ok n =>
    cases n with
    | none => exact (Told.notify_nil _).symm
    | some n => cases raises <;> rfl

/-- The messages whose handler calls a callback. -/
def tellsNotice : MessageType → Bool
  | .nodeState | .notifyShare | .shareDeleted | .shareAccepted | .volumeCreated
  | .volumeDeleted | .volumeNewGeneration | .freeSpaceInfo | .accountInfo => true
  | _ => false

lemma noticeOf_eq_nil {c : Callbacks} (h : tellsNotice m.type = false) : noticeOf c m = [] := by
  have hnone : notice c m = .ok none := by
    unfold notice
    split <;> first | rfl | simp_all [tellsNotice]
  rw [noticeOf, hnone]

/-- What a handler tells. -/
lemma told_handle (m : Message) (raises : Option Exn) (w : World) :
    (after (handle m raises) w).told =
      if m.type = .root then w.told.root (rd (rd m.root).node)
      else w.told.notify (noticeOf w.callbacks m) := by
  have hsilent : m.type ≠ .root → tellsNotice m.type = false → w.told =
      if m.type = .root then w.told.root (rd (rd m.root).node)
      else w.told.notify (noticeOf w.callbacks m) := fun hroot ht => by
    rw [if_neg hroot, noticeOf_eq_nil ht, Told.notify_nil]
  unfold handle
  split
  · next ht =>
    rw [← hsilent (by simp [ht]) (by simp [ht, tellsNotice])]
    exact told_of_core (core_sendMessage _ w)
  · next ht => exact hsilent (by simp [ht]) (by simp [ht, tellsNotice])
  · next ht => rw [if_pos ht]; rfl
  · next ht => exact hsilent (by simp [ht]) (by simp [ht, tellsNotice])
  iterate 9
    next ht => rw [if_neg (by simp [ht]), told_notify]
  · refine hsilent (fun ht => by simp_all) ?_
    unfold tellsNotice
    split <;> first | rfl | simp_all

/-- **A valid message** tells what it tells. -/
lemma told_message (hw : Registry w) (hm : validateMessage m = []) (raises : Option Exn) :
    (w.step (.message m raises)).told = hear w m raises w.told := by
  unfold hear
  cases hr : w.requests.get? m.id with
  | none =>
    show (after (processMessage m raises) w).told = _
    rw [processMessage_valid hm, after_congr (dispatch_unregistered hr raises)]
    exact told_handle m raises w
  | some r =>
    rw [Registered.message_run ⟨hw, hr⟩ hm, view_tryCatch World.told fun e t =>
      (along_errorOf (fun r => vocal_settle (b := True) r _) t).told trivial]
    dsimp only
    have hvocal : ∀ prog : M PUnit, Within (Vocal True) prog →
        (after prog (w.read r m raises)).told = w.told := fun prog hprog =>
      (hprog (w.read r m raises)).told trivial
    cases hreply : w.reply r m raises with
    | notify => exact told_notify m raises (w.read r m raises)
    | stay => exact hvocal _ (within_pure _)
    | done => exact hvocal _ (vocal_settle r _)
    | error e => exact hvocal _ (vocal_settle r _)
    | raise e => exact hvocal _ (within_throw _)
    | produce offset => exact hvocal _ (vocal_produce r offset)

/-- **Every event** tells what it tells. -/
lemma told_step (hw : Registry w) (he : AdmitsAny w e) : (w.step e).told = tell w e w.told := by
  cases e with
  | message m raises =>
    simp only [tell]
    split
    · next hm => exact told_message hw hm raises
    · next hm =>
      show (after (processMessage m raises) w).told = w.told
      unfold processMessage
      rw [if_pos hm]
      exact (vocal_reject (b := True) m _ w).told trivial
  | start r =>
    have hsend : ∀ m, Within (Frame World.told) (Request.sendMessage r m) := fun m =>
      along_sendMessage fun i w => told_of_core (core_sendMessage _ w)
    show (after (start r) w).told = w.told
    rw [after_congr (start_run hw he.1 he.2)]
    exact along_startExchange (R := Frame World.told) hsend (fun _ => rfl)
      (fun w => (vocal_settle (b := True) r _ w).told trivial) (w.enroll r)
  | read n => exact told_of_core (slows_registerOwn .reads n w).core
  | cancel r => exact (vocal_cancel (b := True) r w).told trivial
  | call k => exact (vocal_runCall (b := True) k w).told trivial
  | pause => exact told_of_core (slows_pause w).core
  | resume => exact (vocal_resume (b := True) w).told trivial
  | stop => exact told_of_core (slows_stop w).core
  | done r => exact (vocal_settle (b := True) r _ w).told trivial
  | error r e => exact (vocal_settle (b := True) r _ w).told trivial
  | lost reason => exact (vocal_lost (b := True) reason w).told trivial

/-! ### Who asks for the root -/

/-- A client and how many deferreds `get_root` gave out, which are numbered. -/
structure Asking where
  world : World
  asked : ℕ

/-- What happens to a client, or a call of `get_root`. -/
inductive UserEvent
  | client (e : Event)
  | getRoot

def Asking.step (a : Asking) : UserEvent → Asking
  | .client e => { a with world := a.world.step e }
  | .getRoot => ⟨after (getRoot a.asked) a.world, a.asked + 1⟩

def Asking.Admits (a : Asking) : UserEvent → Prop
  | .client e => AdmitsAny a.world e
  | .getRoot => True

/-- The root an event brings: it is in a valid `ROOT` whose id no request has. -/
def rootOf (w : World) : Event → Option String
  | .message m _ =>
    if validateMessage m = [] ∧ w.requests.get? m.id = none ∧ m.type = .root then
      some (rd (rd m.root).node)
    else none
  | _ => none

def Asking.root (a : Asking) : UserEvent → Option String
  | .client e => rootOf a.world e
  | .getRoot => none

/-- The roots that come along a run, in order. -/
def rootsOf : Asking → List UserEvent → List String
  | _, [] => []
  | a, e :: es => (a.root e).toList ++ rootsOf (a.step e) es

/-- A client that was made, and whose root nobody has asked for. -/
structure Asking.Initial (a : Asking) : Prop where
  world : Client.Initial a.world
  rootId : a.world.rootId = none
  rootIdDefers : a.world.rootIdDefers = []
  rootIdFired : a.world.rootIdFired = []
  asked : a.asked = 0

variable {a : Asking} {d : ℕ} {roots : List String} {answer : Option String}

/-- What an event changes of the root. -/
lemma tell_root (w : World) (e : Event) (t : Told) :
    ∃ notices, tell w e t = match rootOf w e with
      | some rootId => { t.root rootId with notices := notices }
      | none => { t with notices := notices } := by
  cases e with
  | message m raises =>
    simp only [tell, rootOf, hear]
    by_cases hm : validateMessage m = []
    · rw [if_pos hm]
      cases hr : w.requests.get? m.id with
      | none =>
        by_cases ht : m.type = .root
        · exact ⟨t.notices, by simp [hm, ht]; rfl⟩
        · exact ⟨_, by simp [hm, ht]; rfl⟩
      | some r =>
        simp only [reduceCtorEq, false_and, and_false, if_false]
        split
        · exact ⟨_, rfl⟩
        · exact ⟨t.notices, rfl⟩
    · exact ⟨t.notices, by simp [hm]⟩
  | _ => exact ⟨t.notices, rfl⟩

/-- An event that brings the root answers all who wait for it. -/
lemma client_root (hw : Registry w) (he : AdmitsAny w e) {rootId : String}
    (h : rootOf w e = some rootId) : (w.step e).rootId = some rootId ∧
      (w.step e).rootIdDefers = [] ∧
      (w.step e).rootIdFired = w.rootIdFired ++ w.rootIdDefers.map fun d => (d, rootId) := by
  obtain ⟨notices, htell⟩ := tell_root w e w.told
  have htold := (told_step hw he).trans htell
  rw [h] at htold
  exact ⟨congrArg Told.rootId htold, congrArg Told.rootIdDefers htold,
    congrArg Told.rootIdFired htold⟩

lemma client_rootless (hw : Registry w) (he : AdmitsAny w e) (h : rootOf w e = none) :
    (w.step e).rootId = w.rootId ∧ (w.step e).rootIdDefers = w.rootIdDefers ∧
      (w.step e).rootIdFired = w.rootIdFired := by
  obtain ⟨notices, htell⟩ := tell_root w e w.told
  have htold := (told_step hw he).trans htell
  rw [h] at htold
  exact ⟨congrArg Told.rootId htold, congrArg Told.rootIdDefers htold,
    congrArg Told.rootIdFired htold⟩

/-- Those who wait are known by number, and nobody waits once the root is known. -/
structure Rooted (a : Asking) (roots : List String) : Prop extends Registry a.world where
  rootId : a.world.rootId = roots.getLast?
  waits : a.world.rootId ≠ none → a.world.rootIdDefers = []
  defers : ∀ d ∈ a.world.rootIdDefers, d < a.asked
  answered : ∀ p ∈ a.world.rootIdFired, p.1 < a.asked

lemma Asking.Initial.rooted (h : a.Initial) : Rooted a [] where
  toRegistry := h.world.registry
  rootId := h.rootId
  waits _ := h.rootIdDefers
  defers := by simp [h.rootIdDefers]
  answered := by simp [h.rootIdFired]

/-- What a call of `get_root` does. -/
lemma after_getRoot (d : ℕ) (w : World) : after (getRoot d) w =
    match w.rootId with
    | some rootId => { w with rootIdFired := w.rootIdFired ++ [(d, rootId)] }
    | none => { w with rootIdDefers := w.rootIdDefers ++ [d] } := by
  unfold getRoot
  rw [after_get_bind]
  split <;> rfl

lemma getRoot_some {rootId : String} (h : a.world.rootId = some rootId) : a.step .getRoot =
    ⟨{ a.world with rootIdFired := a.world.rootIdFired ++ [(a.asked, rootId)] }, a.asked + 1⟩ := by
  show Asking.mk (after (getRoot a.asked) a.world) (a.asked + 1) = _
  rw [after_getRoot]
  split
  · next hid =>
    obtain rfl := Option.some.inj (h.symm.trans hid)
    rfl
  · next hid => exact absurd (h.symm.trans hid) (Option.some_ne_none _)

lemma getRoot_none (h : a.world.rootId = none) : a.step .getRoot =
    ⟨{ a.world with rootIdDefers := a.world.rootIdDefers ++ [a.asked] }, a.asked + 1⟩ := by
  show Asking.mk (after (getRoot a.asked) a.world) (a.asked + 1) = _
  rw [after_getRoot]
  split
  · next hid => exact absurd (hid.symm.trans h) (Option.some_ne_none _)
  · rfl

lemma Rooted.step (ha : Rooted a roots) {e : UserEvent} (he : a.Admits e) :
    Rooted (a.step e) (roots ++ (a.root e).toList) := by
  cases e with
  | client e =>
    have hw := ha.toRegistry.stepAny he
    cases hroot : rootOf a.world e with
    | some rootId =>
      obtain ⟨hid, hdefers, hfired⟩ := client_root ha.toRegistry he hroot
      have hroots : (a.root (.client e)).toList = [rootId] := by simp [Asking.root, hroot]
      rw [hroots]
      refine ⟨hw, by rw [List.getLast?_concat]; exact hid, fun _ => hdefers, ?_, ?_⟩
      · show ∀ d ∈ (a.world.step e).rootIdDefers, d < a.asked
        simp [hdefers]
      · show ∀ p ∈ (a.world.step e).rootIdFired, p.1 < a.asked
        rw [hfired]
        refine List.forall_mem_append.mpr ⟨ha.answered, List.forall_mem_map.mpr ?_⟩
        exact fun d hd => ha.defers d hd
    | none =>
      obtain ⟨hid, hdefers, hfired⟩ := client_rootless ha.toRegistry he hroot
      have hroots : (a.root (.client e)).toList = [] := by simp [Asking.root, hroot]
      rw [hroots, List.append_nil]
      refine ⟨hw, hid.trans ha.rootId, fun h => hdefers.trans (ha.waits (hid ▸ h)), ?_, ?_⟩
      · show ∀ d ∈ (a.world.step e).rootIdDefers, d < a.asked
        rw [hdefers]
        exact ha.defers
      · show ∀ p ∈ (a.world.step e).rootIdFired, p.1 < a.asked
        rw [hfired]
        exact ha.answered
  | getRoot =>
    rw [show (a.root .getRoot).toList = [] from rfl, List.append_nil]
    have hlt : ∀ d < a.asked, d < a.asked + 1 := fun d => Nat.lt_succ_of_lt
    have hdefers : ∀ d ∈ a.world.rootIdDefers, d < a.asked + 1 := fun d hd => hlt d (ha.defers d hd)
    have hanswered : ∀ p ∈ a.world.rootIdFired, p.1 < a.asked + 1 := fun p hp =>
      hlt p.1 (ha.answered p hp)
    cases hid : a.world.rootId with
    | some rootId =>
      rw [getRoot_some hid]
      exact ⟨ha.toRegistry.of_ledger rfl, ha.rootId, ha.waits, hdefers,
        List.forall_mem_append.mpr ⟨hanswered, by simp⟩⟩
    | none =>
      rw [getRoot_none hid]
      exact ⟨ha.toRegistry.of_ledger rfl, ha.rootId, fun h => absurd hid h,
        List.forall_mem_append.mpr ⟨hdefers, by simp⟩, hanswered⟩

/-- What the deferred with a number was fired with. -/
def firedWith (d : ℕ) (w : World) : List String :=
  (w.rootIdFired.filter fun p => p.1 = d).map Prod.snd

/-- The deferred with a number was fired once with the answer, or waits for it. -/
structure Stands (d : ℕ) (answer : Option String) (a : Asking) : Prop where
  fired : firedWith d a.world = answer.toList
  waits : a.world.rootIdDefers.filter (· = d) = if answer = none then [d] else []
  asked : d < a.asked

/-- Nothing more of the deferred that the call gives out is known before. -/
lemma Rooted.getRoot (ha : Rooted a roots) :
    Stands a.asked roots.getLast? (a.step .getRoot) := by
  have hfired : a.world.rootIdFired.filter (fun p => p.1 = a.asked) = [] :=
    List.filter_eq_nil_iff.mpr fun p hp => by simpa using (ha.answered p hp).ne
  have hdefers : a.world.rootIdDefers.filter (· = a.asked) = [] :=
    List.filter_eq_nil_iff.mpr fun d hd => by simpa using (ha.defers d hd).ne
  rw [← ha.rootId]
  cases hid : a.world.rootId with
  | some rootId =>
    rw [getRoot_some hid]
    exact ⟨by simp [firedWith, hfired], by simpa using hdefers, Nat.lt_succ_self _⟩
  | none =>
    rw [getRoot_none hid]
    exact ⟨by simp [firedWith, hfired], by simp [hdefers], Nat.lt_succ_self _⟩

/-- The first root after the call is the answer, if there was none before. -/
lemma Stands.step (ha : Rooted a roots) (hs : Stands d answer a) {e : UserEvent}
    (he : a.Admits e) : Stands d (answer.or (a.root e)) (a.step e) := by
  cases e with
  | client e =>
    cases hroot : rootOf a.world e with
    | some rootId =>
      obtain ⟨-, hdefers, hfired⟩ := client_root ha.toRegistry he hroot
      have hanswer : a.root (.client e) = some rootId := hroot
      rw [hanswer]
      refine ⟨?_, ?_, hs.asked⟩
      · have hmap : ((a.world.rootIdDefers.map fun d => (d, rootId)).filter
            fun p => p.1 = d).map Prod.snd =
            (a.world.rootIdDefers.filter (· = d)).map fun _ => rootId := by
          rw [List.filter_map, List.map_map]
          rfl
        show ((a.world.step e).rootIdFired.filter fun p => p.1 = d).map Prod.snd = _
        rw [hfired, List.filter_append, List.map_append, hmap, hs.waits]
        have hpast : (a.world.rootIdFired.filter fun p => p.1 = d).map Prod.snd =
            answer.toList := hs.fired
        rw [hpast]
        cases answer <;> rfl
      · show (a.world.step e).rootIdDefers.filter (· = d) = _
        rw [hdefers]
        cases answer <;> rfl
    | none =>
      obtain ⟨-, hdefers, hfired⟩ := client_rootless ha.toRegistry he hroot
      have hanswer : a.root (.client e) = none := hroot
      rw [hanswer, Option.or_none]
      refine ⟨?_, ?_, hs.asked⟩
      · show ((a.world.step e).rootIdFired.filter fun p => p.1 = d).map Prod.snd = _
        rw [hfired]
        exact hs.fired
      · show (a.world.step e).rootIdDefers.filter (· = d) = _
        rw [hdefers]
        exact hs.waits
  | getRoot =>
    have hanswer : a.root .getRoot = none := rfl
    have hne : a.asked ≠ d := hs.asked.ne'
    rw [hanswer, Option.or_none]
    cases hid : a.world.rootId with
    | some rootId =>
      rw [getRoot_some hid]
      refine ⟨?_, hs.waits, hs.asked.trans (Nat.lt_succ_self _)⟩
      simpa [firedWith, hne] using hs.fired
    | none =>
      rw [getRoot_none hid]
      refine ⟨hs.fired, ?_, hs.asked.trans (Nat.lt_succ_self _)⟩
      simpa [hne] using hs.waits

/-- Roots in order, along a run. -/
lemma Rooted.run {es : List UserEvent} : ∀ {a : Asking} {roots : List String}, Rooted a roots →
    Runs.Legal Asking.step Asking.Admits a es →
    Rooted (Runs.run Asking.step a es) (roots ++ rootsOf a es) := by
  induction es with
  | nil => exact fun ha _ => by simpa [rootsOf] using ha
  | cons e es ih =>
    intro a roots ha hes
    have hrest := ih (ha.step hes.1) hes.2
    rwa [List.append_assoc] at hrest

lemma Stands.run {es : List UserEvent} : ∀ {a : Asking} {roots : List String}
    {answer : Option String}, Rooted a roots → Stands d answer a →
    Runs.Legal Asking.step Asking.Admits a es →
    Stands d (answer.or (rootsOf a es).head?) (Runs.run Asking.step a es) := by
  induction es with
  | nil => exact fun _ hs _ => by simpa [rootsOf] using hs
  | cons e es ih =>
    intro a roots answer ha hs hes
    have hrest := ih (ha.step hes.1) (hs.step ha hes.1) hes.2
    have hhead : (rootsOf a (e :: es)).head? =
        (a.root e).or (rootsOf (a.step e) es).head? := by
      rw [rootsOf]
      cases a.root e <;> rfl
    rwa [Option.or_assoc, ← hhead] at hrest

/-- **What `get_root` gives** is fired once at most, with the last root that came before the call
or else with the first one that comes after it. -/
theorem getRoot_fired {a₀ : Asking} (h₀ : a₀.Initial) {es₁ es₂ : List UserEvent}
    (hes : Runs.Legal Asking.step Asking.Admits a₀ (es₁ ++ .getRoot :: es₂)) :
    firedWith (Runs.run Asking.step a₀ es₁).asked
        (Runs.run Asking.step a₀ (es₁ ++ .getRoot :: es₂)).world =
      ((rootsOf a₀ es₁).getLast?.or
        (rootsOf ((Runs.run Asking.step a₀ es₁).step .getRoot) es₂).head?).toList := by
  obtain ⟨hes₁, hget, hes₂⟩ := Runs.legal_append.mp hes
  have ha : Rooted (Runs.run Asking.step a₀ es₁) (rootsOf a₀ es₁) := h₀.rooted.run hes₁
  rw [Runs.run_append, Runs.run_cons]
  exact (ha.getRoot.run (ha.step hget) hes₂).fired

/-- The root comes after it was asked for, and changes. -/
def rootChanges : List UserEvent :=
  ["01234567-89ab-cdef-0123-456789abcdef", "76543210-89ab-cdef-0123-456789abcdef"].map fun node =>
    .client (.message { id := 2, type := .root, root := some { node := some node } } none)

theorem getRoot_fired_changes :
    firedWith 0 (Runs.run Asking.step ⟨cancellable, 0⟩ (.getRoot :: rootChanges)).world =
      ["01234567-89ab-cdef-0123-456789abcdef"] := by
  have h₀ : Asking.Initial ⟨cancellable, 0⟩ := ⟨initial_init _ _, rfl, rfl, rfl, rfl⟩
  have hes : Runs.Legal Asking.step Asking.Admits ⟨cancellable, 0⟩
      ([] ++ .getRoot :: rootChanges) := ⟨trivial, trivial, trivial, trivial⟩
  exact (getRoot_fired h₀ hes).trans (by decide +kernel)

end Magicicada.Client
