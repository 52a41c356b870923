import Magicicada.Lifecycle

/-!
Messages that arrive when their request is gone.

The server may go on streaming to a request that has failed here. Its messages then go to a
`handle_` method, which there is for few types.
-/

namespace Magicicada.Client

open Pb Errors Requests Prog

/-- The types of what may come later in a response stream. -/
def laterTypes : List MessageType :=
  [.bytes, .eof, .nodeAttr, .beginContent, .deltaInfo, .deltaEnd, .sharesInfo, .sharesEnd,
    .volumesInfo, .volumesEnd, .publicFileInfo, .publicFileInfoEnd, .nodeState, .queryEnd, .ok,
    .cancelled]

/-- A message that does not raise out of `processMessage` and leaves the registry and the
requests as they were. -/
structure Harmless (w : World) (m : Message) (raises : Option Exn) : Prop where
  returns : raised (processMessage m raises) w = none
  requests : (w.step (.message m raises)).requests = w.requests
  objs : (w.step (.message m raises)).objs = w.objs

/-- There is a `handle_` method for the message, and the callback it calls, if one is set, does
not raise. -/
def Tolerated (w : World) (m : Message) (raises : Option Exn) : Prop :=
  m.type = .beginContent ∨ m.type = .nodeState ∧ ¬(w.callbacks.nodeState ∧ raises ≠ none)

/-- The id of a finished request is not registered any more. -/
lemma Registry.get?_of_finished {w : World} (hw : Registry w) {r : ℕ} {i : ℤ}
    (hid : (w.objs r).id = some i) (hfin : (w.objs r).finished = true) :
    w.requests.get? i = none := by
  rw [Option.eq_none_iff_forall_ne_some]
  intro r' hr'
  obtain ⟨hid', -, hfin', -⟩ := hw.entry i r' hr'
  have := hw.injective r r' i hid hid'
  subst this
  rw [hfin] at hfin'
  cases hfin'

/-- A message without a request goes to its `handle_` method. -/
lemma late_run {w : World} {m : Message} (hm : validateMessage m = [])
    (hget : w.requests.get? m.id = none) (raises : Option Exn) :
    (processMessage m raises).run w = (handle m raises).run w := by
  rw [processMessage_valid hm, dispatch_unregistered hget]

/-- Most of these types have no `handle_` method. -/
lemma handle_later {m : Message} (hm : m.type ∈ laterTypes) (hb : m.type ≠ .beginContent)
    (hn : m.type ≠ .nodeState) (raises : Option Exn) :
    handle m raises = throw (.peerCantHandle m) := by
  unfold handle
  split <;> first | rfl | simp_all [laterTypes]

/-- `handle_NODE_STATE` raises what the callback raises. -/
lemma handle_nodeState {w : World} {m : Message} (hm : m.type = .nodeState)
    (raises : Option Exn) :
    (raised (handle m raises) w = none ↔ ¬(w.callbacks.nodeState ∧ raises ≠ none)) ∧
      (after (handle m raises) w).requests = w.requests ∧
      (after (handle m raises) w).objs = w.objs := by
  have hhandle : handle m raises = notify m raises := by
    unfold handle
    rw [hm]
  have hnotice : notice w.callbacks m = .ok (if w.callbacks.nodeState then
      some (.nodeState (rd (rd m.nodeState).share) (rd (rd m.nodeState).node)
        (rd (rd m.nodeState).hash)) else none) := by
    unfold notice
    rw [hm]
    rfl
  unfold raised after
  rw [hhandle]
  cases hc : w.callbacks.nodeState with
  | false => simp [notify, hnotice, hc]
  | true => cases raises <;> simp [notify, hnotice, hc]

/-- **A late message is harmless exactly when** it is a `BEGIN_CONTENT`, or a `NODE_STATE` whose
callback does not raise. -/
lemma harmless_iff {w : World} {m : Message} (hm : validateMessage m = [])
    (hget : w.requests.get? m.id = none) (hlater : m.type ∈ laterTypes) (raises : Option Exn) :
    Harmless w m raises ↔ Tolerated w m raises := by
  have hrun := late_run hm hget raises
  have hraised : raised (processMessage m raises) w = raised (handle m raises) w := by
    unfold raised
    rw [hrun]
  have hafter : w.step (.message m raises) = after (handle m raises) w := by
    show after (processMessage m raises) w = _
    unfold after
    rw [hrun]
  by_cases hb : m.type = .beginContent
  · refine ⟨fun _ => Or.inl hb, fun _ => ?_⟩
    have hpure : handle m raises = pure ⟨⟩ := by
      unfold handle
      rw [hb]
    rw [hpure] at hraised hafter
    exact ⟨hraised, congrArg World.requests hafter, congrArg World.objs hafter⟩
  · by_cases hn : m.type = .nodeState
    · obtain ⟨hiff, hreq, hobjs⟩ := handle_nodeState (w := w) hn raises
      rw [← hraised] at hiff
      rw [← hafter] at hreq hobjs
      refine ⟨fun h => Or.inr ⟨hn, hiff.mp h.returns⟩, fun h => ?_⟩
      obtain hb' | ⟨-, h⟩ := h
      · exact absurd hb' hb
      · exact ⟨hiff.mpr h, hreq, hobjs⟩
    · rw [handle_later hlater hb hn] at hraised
      refine ⟨fun h => ?_, fun h => ?_⟩
      · have := h.returns.symm.trans hraised
        cases this
      · obtain h | ⟨h, -⟩ := h
        · exact absurd h hb
        · exact absurd h hn

/-- **After the end of its request**, in any run, a message of the response stream is harmless
exactly when it is tolerated. -/
theorem late_iff {w₀ : World} (h₀ : Initial w₀) {es : List Event}
    (hes : Runs.Legal World.step Admits w₀ es) {r : ℕ} {m : Message} (raises : Option Exn)
    (hid : ((Runs.run World.step w₀ es).objs r).id = some m.id)
    (hfin : ((Runs.run World.step w₀ es).objs r).finished = true)
    (hm : validateMessage m = []) (hlater : m.type ∈ laterTypes) :
    Harmless (Runs.run World.step w₀ es) m raises ↔
      Tolerated (Runs.run World.step w₀ es) m raises :=
  harmless_iff hm ((h₀.registry.run hes).get?_of_finished hid hfin) hlater raises

/-! ### A download whose callback raised -/

/-- A client with a download that hands each piece to a callback. -/
def downloading : World :=
  World.init
    (fun _ => .getContent { share := "s", nodeId := "n", hash := "h", callback := true })
    fun _ => ⟨fun _ => .ok [], []⟩

lemma initial_downloading : Initial downloading := initial_init _ _

/-- A piece of the content. -/
def piece : Message := { id := 1, type := .bytes, bytes := some { bytes := some [0] } }

/-- The download begins and its callback raises at the first piece. -/
def callbackRaised : List Event := [.start 0, .message piece (some (.foreign 0))]

lemma piece_valid : validateMessage piece = [] := by decide

lemma legal_callbackRaised : Runs.Legal World.step Admits downloading callbackRaised :=
  ⟨⟨rfl, rfl⟩, piece_valid, trivial⟩

/-- The next piece raises out of `processMessage`. -/
theorem not_harmless : ¬∀ (w₀ : World) (es : List Event) (r : ℕ) (m : Message), Initial w₀ →
    Runs.Legal World.step Admits w₀ es → ((Runs.run World.step w₀ es).objs r).id = some m.id →
    ((Runs.run World.step w₀ es).objs r).finished = true → validateMessage m = [] →
    m.type ∈ laterTypes → Harmless (Runs.run World.step w₀ es) m none := by
  intro h
  have hharmless := h downloading callbackRaised 0 piece initial_downloading legal_callbackRaised
    rfl rfl piece_valid (by decide)
  rw [harmless_iff piece_valid rfl (by decide)] at hharmless
  obtain hb | ⟨hn, -⟩ := hharmless
  · cases hb
  · cases hn

/-- It is not tolerated. -/
theorem late_iff_piece : ¬Harmless (Runs.run World.step downloading callbackRaised) piece none := by
  rw [late_iff initial_downloading legal_callbackRaised (r := 0) none rfl rfl piece_valid
    (by decide)]
  rintro (h | ⟨h, -⟩)
  · cases h
  · cases h

end Magicicada.Client
