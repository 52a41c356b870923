import Magicicada.Events
import Magicicada.Upload

/-!
A finished upload sends nothing more, as long as no request is ended while one of its producers
is going to send. Ending a request does not stop its producer.
-/

namespace Magicicada.Client

open Pb Errors Requests Prog

/-- The conditions on the acts of events that end no uploading request. -/
def Terms.endless : Terms := ⟨False, True, True⟩

lemma acts_timely {w : World} (hw : Tidy True w) {e : Event} (he : AdmitsWire w e)
    (hT : Timely w e) : Acts .endless w (w.step e) :=
  acts_step (T := .endless) (R := fun _ _ => False) (fun _ _ _ h => h.elim)
    (fun _ _ _ _ _ _ h => h.elim) hw he (fun _ => hT) (fun _ => trivial) fun h => h.elim

/-- The events of a run in which no request is ended while it is uploading. -/
def AdmitsTimely (w : World) (e : Event) : Prop := AdmitsWire w e ∧ Timely w e

lemma Tidy.run {w : World} (hw : Tidy True w) {es : List Event}
    (hes : Runs.Legal World.step AdmitsTimely w es) : Tidy True (Runs.run World.step w es) :=
  hes.invariant (fun _ _ hs he => Tidy.of_acts (T := .endless) hs (acts_timely hs he.1 he.2)) hw

lemma Tidy.acts_run {w : World} (hw : Tidy True w) {es : List Event}
    (hes : Runs.Legal World.step AdmitsTimely w es) :
    Acts .endless w (Runs.run World.step w es) := by
  induction es generalizing w with
  | nil => exact .refl
  | cons e es ih =>
    have hacts := acts_timely hw hes.1.1 hes.1.2
    exact hacts.trans (ih (hw.of_acts hacts) hes.2)

/-- **A finished upload sends nothing more**: in a run in which no request is ended while it is
uploading, no `BYTES` or `EOF` with the id of a request is sent once it has finished. -/
theorem silent_run {w₀ : World} (h₀ : Initial w₀) {es : List Event}
    (hes : Runs.Legal World.step AdmitsTimely w₀ es) (pre post : List Event)
    (h : es = pre ++ post) :
    Silent (Runs.run World.step w₀ pre) (Runs.run World.step w₀ es) := by
  subst h
  obtain ⟨hpre, hpost⟩ := Runs.legal_append.mp hes
  have hw := h₀.tidy.run hpre
  rw [Runs.run_append]
  exact Acts.silent hw (hw.acts_run hpost) trivial

/-! ### An upload that is told `OK` early -/

/-- A client that is to upload files of the same content in pieces of three bytes. -/
def uploading (content : Bytes) : World :=
  World.init (fun r => .putContent {
      share := "s", nodeId := "n", previousHash := "p", hash := "h", crc32 := 0, size := 5
      deflatedSize := 5, fd := r, maxPayloadSize := 3 })
    fun _ => File.opened content

lemma initial_uploading (content : Bytes) : Initial (uploading content) := initial_init _ _

def beginContent : Message := { id := 1, type := .beginContent, beginContent := some {} }

def okMessage : Message := { id := 1, type := .ok }

lemma beginContent_valid : validateMessage beginContent = [] := by decide

lemma okMessage_valid : validateMessage okMessage = [] := by decide

/-- The `OK` comes between the first piece and the second. -/
def earlyOk : List Event := [.start 0, .message beginContent none, .message okMessage none]

lemma legal_earlyOk : Runs.Legal World.step AdmitsWire (uploading [1, 2, 3, 4, 5])
    (earlyOk ++ [.call 0]) := by
  refine ⟨⟨⟨rfl, rfl⟩, fun _ _ h => nomatch h⟩, ⟨beginContent_valid, ?_⟩, ⟨okMessage_valid, ?_⟩,
    ⟨trivial, fun _ _ h => nomatch h⟩, trivial⟩
  · rintro m raises ⟨⟩
    decide
  · rintro m raises ⟨⟩
    decide

/-- The step that was scheduled sends the second piece. -/
theorem not_silent : ¬∀ (w₀ : World) (es : List Event), Initial w₀ →
    Runs.Legal World.step AdmitsWire w₀ es → ∀ pre post, es = pre ++ post →
      Silent (Runs.run World.step w₀ pre) (Runs.run World.step w₀ es) := by
  intro h
  obtain ⟨new, hnew, hsilent⟩ := h (uploading [1, 2, 3, 4, 5]) _ (initial_uploading _)
    legal_earlyOk earlyOk [.call 0] rfl
  let second : Message := { bytesMessage [4, 5] with id := 1 }
  have hsent : (Runs.run World.step (uploading [1, 2, 3, 4, 5]) (earlyOk ++ [.call 0])).sent =
      (Runs.run World.step (uploading [1, 2, 3, 4, 5]) earlyOk).sent ++ [second] := by
    decide +kernel
  have hmem : second ∈ new := by
    rw [List.append_cancel_left (hnew.symm.trans hsent)]
    exact List.mem_singleton_self _
  exact hsilent second hmem (Or.inl rfl) 0 (by decide +kernel) (by decide +kernel)

/-- An upload of one piece is told `OK` after its `EOF`, and then the transport resumes. -/
def lateOk : List Event :=
  [.start 0, .message beginContent none, .call 0, .message okMessage none, .resume]

lemma legal_lateOk : Runs.Legal World.step AdmitsTimely (uploading [1]) lateOk := by
  refine ⟨⟨⟨⟨rfl, rfl⟩, fun _ _ h => nomatch h⟩, trivial⟩, ⟨⟨beginContent_valid, ?_⟩, ?_⟩,
    ⟨⟨trivial, fun _ _ h => nomatch h⟩, trivial⟩, ⟨⟨okMessage_valid, ?_⟩, ?_⟩,
    ⟨⟨trivial, fun _ _ h => nomatch h⟩, trivial⟩, trivial⟩
  · rintro m raises ⟨⟩
    decide
  · rintro r - ⟨p, hp, -⟩
    exact absurd hp (Nat.not_lt_zero p)
  · rintro m raises ⟨⟩
    decide
  · rintro r - ⟨p, hp, -, hlive, -⟩
    obtain rfl : p = 0 := Nat.lt_one_iff.mp hp
    exact nomatch hlive.finished

/-- Nothing is sent after the `OK`. -/
theorem silent_run_lateOk :
    Silent (Runs.run World.step (uploading [1]) (lateOk.take 4))
      (Runs.run World.step (uploading [1]) lateOk) :=
  silent_run (initial_uploading _) legal_lateOk (lateOk.take 4) [.resume] rfl

end Magicicada.Client
