import Magicicada.Quiet

/-!
A step of a producer, taken apart: it reads from its file and sends what it read.
-/

namespace Magicicada.Client

open Pb Errors Requests Prog

/-- A producer that sends something when it goes. -/
structure Live (w : World) (p : ℕ) : Prop where
  producing : (w.producers p).producing = true
  cancelled : (w.objs (w.producers p).request).cancelled = false
  finished : (w.producers p).finished = false

/-! ### Reading -/

/-- The calls of the file's methods in a step. -/
def fetchOps (q : Producer) (size : ℕ) : List FileOp :=
  if q.offset ≠ 0 then [.seek q.offset, .read size] else [.read size]

/-- What the file answers to them, or raises. -/
def File.fetch (f : File) (q : Producer) (size : ℕ) : Except Exn Bytes :=
  if q.offset ≠ 0 then
    match f.behave (f.ops ++ [.seek q.offset]) with
    | .error e => .error e
    | .ok _ => f.behave (f.ops ++ [.seek q.offset, .read size])
  else f.behave (f.ops ++ [.read size])

/-- The state after some calls of a file's methods. -/
def World.fetched (w : World) (fh : ℕ) (ops : List FileOp) : World := { w with
  files := Function.update w.files fh { w.files fh with ops := (w.files fh).ops ++ ops } }

@[simp] lemma fetched_files_self (w : World) (fh : ℕ) (ops : List FileOp) :
    (w.fetched fh ops).files fh = { w.files fh with ops := (w.files fh).ops ++ ops } :=
  Function.update_self ..

@[simp] lemma fetched_fetched (w : World) (fh : ℕ) (ops ops' : List FileOp) :
    (w.fetched fh ops).fetched fh ops' = w.fetched fh (ops ++ ops') := by
  simp [World.fetched]

/-- The part of `go` that reads. -/
def fetch (q : Producer) (size : ℕ) : M Bytes := do
  seekOffset q
  fileOp q.fh (.read size)

lemma fileOp_run (fh : ℕ) (op : FileOp) (w : World) : (fileOp fh op).run w =
    match (w.files fh).behave ((w.files fh).ops ++ [op]) with
    | .ok data => .ok data (w.fetched fh [op])
    | .error e => .error e (w.fetched fh [op]) := by
  unfold fileOp
  rw [run_get_bind]
  dsimp only
  rw [run_modify_bind]
  cases (w.files fh).behave ((w.files fh).ops ++ [op]) <;> rfl

lemma fetch_ok {w : World} {q : Producer} {size : ℕ} {data : Bytes}
    (h : (w.files q.fh).fetch q size = .ok data) :
    (fetch q size).run w = .ok data (w.fetched q.fh (fetchOps q size)) := by
  unfold File.fetch at h
  unfold fetch seekOffset fetchOps
  by_cases ho : q.offset ≠ 0
  · rw [if_pos ho] at h
    cases hs : (w.files q.fh).behave ((w.files q.fh).ops ++ [.seek q.offset]) with
    | error e => rw [hs] at h; cases h
    | ok b =>
      rw [hs] at h
      simp only [if_pos ho, EStateM.run_bind, fileOp_run, hs, EStateM.run_pure]
      simp [h]
  · rw [if_neg ho] at h
    simp [ho, fileOp_run, h]

lemma fetch_error {w : World} {q : Producer} {size : ℕ} {e : Exn}
    (h : (w.files q.fh).fetch q size = .error e) :
    ∃ ops, (fetch q size).run w = .error e (w.fetched q.fh ops) := by
  unfold File.fetch at h
  unfold fetch seekOffset
  by_cases ho : q.offset ≠ 0
  · rw [if_pos ho] at h
    cases hs : (w.files q.fh).behave ((w.files q.fh).ops ++ [.seek q.offset]) with
    | error e' =>
      rw [hs] at h
      cases h
      exact ⟨[.seek q.offset], by simp [ho, fileOp_run, hs]⟩
    | ok b =>
      rw [hs] at h
      refine ⟨[.seek q.offset] ++ [.read size], ?_⟩
      simp only [if_pos ho, EStateM.run_bind, fileOp_run, hs, EStateM.run_pure]
      simp [h]
  · rw [if_neg ho] at h
    exact ⟨[.read size], by simp [ho, fileOp_run, h]⟩

/-! ### Sending -/

/-- The state after the offset of a producer was advanced. -/
def World.advanced (w : World) (p length : ℕ) : World :=
  w.setProducer p fun q => if q.offset ≠ 0 then { q with offset := q.offset + length } else q

/-- The state after a producer has sent `EOF`. -/
def World.ended (w : World) (p : ℕ) : World :=
  w.setProducer p fun q => { q with producing := false, finished := true }

lemma sendMessage_run {w : World} {r : ℕ} {i : ℤ} (hid : (w.objs r).id = some i)
    (hi : int32 i = true) (m : Message) :
    (Request.sendMessage r m).run w = .ok ⟨⟩ (sendMessage { m with id := i } w) := by
  simp [Request.sendMessage, hid, hi]

lemma sendMessage_raises {w : World} {r : ℕ} (h : ∀ i, (w.objs r).id = some i → int32 i = false)
    (m : Message) : ∃ e, (Request.sendMessage r m).run w = .error e w := by
  cases hid : (w.objs r).id with
  | none => exact ⟨_, by simp [Request.sendMessage, hid]; rfl⟩
  | some i => exact ⟨_, by simp [Request.sendMessage, hid, h i hid]; rfl⟩

lemma sendData_bytes {w : World} {p : ℕ} {q : Producer} {i : ℤ} {data : Bytes}
    (hid : (w.objs q.request).id = some i) (hi : int32 i = true) (hdata : data ≠ []) :
    (sendData p q data).run w = .ok ⟨⟩ (callLater 0 (.go p)
      (sendMessage { bytesMessage data with id := i } (w.advanced p data.length))) := by
  have hsend := sendMessage_run (w := w.advanced p data.length) hid hi (bytesMessage data)
  unfold sendData
  rw [if_pos hdata]
  show EStateM.run (do
    Request.sendMessage q.request (bytesMessage data)
    modify (callLater 0 (.go p)) : M PUnit) (w.advanced p data.length) = _
  rw [run_bind_ok hsend]
  rfl

lemma sendData_eof {w : World} {p : ℕ} {q : Producer} {i : ℤ}
    (hid : (w.objs q.request).id = some i) (hi : int32 i = true) :
    (sendData p q []).run w = .ok ⟨⟩ ((sendMessage { eofMessage with id := i } w).ended p) := by
  have hsend := sendMessage_run (w := w) hid hi eofMessage
  unfold sendData
  rw [if_neg (by simp), run_bind_ok hsend]
  rfl

/-! ### A step -/

lemma go_idle {w : World} {p : ℕ} (h : ¬Live w p) :
    (BytesMessageProducer.go p).run w = .ok ⟨⟩ w := by
  have : (!(w.producers p).producing || (w.objs (w.producers p).request).cancelled ||
      (w.producers p).finished) = true := by
    by_contra hc
    simp only [Bool.or_eq_true, Bool.not_eq_true', not_or, Bool.not_eq_false,
      Bool.not_eq_true] at hc
    exact h ⟨hc.1.1, hc.1.2, hc.2⟩
  show EStateM.run (if _ then pure ⟨⟩ else _ : M PUnit) w = _
  rw [if_pos this]
  rfl

lemma go_live {w : World} {p : ℕ} (h : Live w p) : (BytesMessageProducer.go p).run w =
    (fetch (w.producers p) (w.objs (w.producers p).request).kind.maxPayloadSize >>=
      sendData p (w.producers p)).run w := by
  show EStateM.run (if _ then pure ⟨⟩ else do
    seekOffset (w.producers p)
    let data ← fileOp (w.producers p).fh
      (.read (w.objs (w.producers p).request).kind.maxPayloadSize)
    sendData p (w.producers p) data : M PUnit) w = _
  rw [if_neg (by simp [h.producing, h.cancelled, h.finished])]
  unfold fetch
  rw [bind_assoc]

/-- A producer did not start producing, belongs to the same request and is finished if it was. -/
structure Rests (q q' : Producer) : Prop where
  request : q'.request = q.request
  producing : q'.producing = true → q.producing = true
  finished : q.finished = true → q'.finished = true

/-- The ways a step of a producer goes, with the state it leaves. -/
inductive GoSpec (w : World) (p : ℕ) : EStateM.Result Exn World PUnit → Prop
  /-- It does nothing. -/
  | idle (h : ¬Live w p) : GoSpec w p (.ok ⟨⟩ w)
  /-- The file raises, or the id cannot be sent. -/
  | raised (h : Live w p) (ops : List FileOp) (f : Producer → Producer) (hf : ∀ q, Rests q (f q))
      (e : Exn)
      (hwhy : (∃ e, (w.files (w.producers p).fh).fetch (w.producers p)
          (w.objs (w.producers p).request).kind.maxPayloadSize = .error e) ∨
        ∀ i, (w.objs (w.producers p).request).id = some i → int32 i = false) :
      GoSpec w p (.error e ((w.fetched (w.producers p).fh ops).setProducer p f))
  /-- It sends what it read and schedules the next step. -/
  | bytes (h : Live w p) {i : ℤ} (hid : (w.objs (w.producers p).request).id = some i)
      (hi : int32 i = true) {data : Bytes} (hdata : data ≠ [])
      (hfetch : (w.files (w.producers p).fh).fetch (w.producers p)
        (w.objs (w.producers p).request).kind.maxPayloadSize = .ok data) :
      GoSpec w p (.ok ⟨⟩ (callLater 0 (.go p) (sendMessage { bytesMessage data with id := i }
        ((w.fetched (w.producers p).fh (fetchOps (w.producers p)
          (w.objs (w.producers p).request).kind.maxPayloadSize)).advanced p data.length))))
  /-- It has read nothing and sends `EOF`. -/
  | eof (h : Live w p) {i : ℤ} (hid : (w.objs (w.producers p).request).id = some i)
      (hi : int32 i = true)
      (hfetch : (w.files (w.producers p).fh).fetch (w.producers p)
        (w.objs (w.producers p).request).kind.maxPayloadSize = .ok []) :
      GoSpec w p (.ok ⟨⟩ ((sendMessage { eofMessage with id := i }
        (w.fetched (w.producers p).fh (fetchOps (w.producers p)
          (w.objs (w.producers p).request).kind.maxPayloadSize))).ended p))

lemma rests_advance (n : ℕ) (q : Producer) :
    Rests q (if q.offset ≠ 0 then { q with offset := q.offset + n } else q) := by
  split <;> exact ⟨rfl, id, id⟩

lemma rests_self (q : Producer) : Rests q q := ⟨rfl, id, id⟩

lemma setProducer_self (w : World) (p : ℕ) : (w.setProducer p fun q => q) = w := by
  unfold World.setProducer
  rw [Function.update_eq_self]

/-- **A step of a producer** goes in one of these ways. -/
lemma go_spec (w : World) (p : ℕ) : GoSpec w p ((BytesMessageProducer.go p).run w) := by
  by_cases hlive : Live w p
  · rw [go_live hlive]
    cases hfetch : (w.files (w.producers p).fh).fetch (w.producers p)
        (w.objs (w.producers p).request).kind.maxPayloadSize with
    | error e =>
      obtain ⟨ops, hrun⟩ := fetch_error (w := w) hfetch
      rw [run_bind_error hrun, ← setProducer_self (w.fetched (w.producers p).fh ops) p]
      exact .raised hlive ops (fun q => q) rests_self e (Or.inl ⟨e, hfetch⟩)
    | ok data =>
      rw [run_bind_ok (fetch_ok (w := w) hfetch)]
      by_cases hsend : ∃ i, (w.objs (w.producers p).request).id = some i ∧ int32 i = true
      · obtain ⟨i, hid, hi⟩ := hsend
        by_cases hdata : data = []
        · subst hdata
          rw [sendData_eof (w := w.fetched _ _) hid hi]
          exact .eof hlive hid hi hfetch
        · rw [sendData_bytes (w := w.fetched _ _) hid hi hdata]
          exact .bytes hlive hid hi hdata hfetch
      · have hraise : ∀ i, (w.objs (w.producers p).request).id = some i → int32 i = false :=
          fun i hid => Bool.eq_false_of_not_eq_true fun hi => hsend ⟨i, hid, hi⟩
        by_cases hdata : data = []
        · subst hdata
          obtain ⟨e, hrun⟩ := sendMessage_raises (w := w.fetched (w.producers p).fh
            (fetchOps (w.producers p) (w.objs (w.producers p).request).kind.maxPayloadSize))
            hraise eofMessage
          have hsd := run_bind_error (f := fun _ =>
            modifyProducer p fun q => { q with producing := false, finished := true }) hrun
          unfold sendData
          rw [if_neg (by simp), hsd, ← setProducer_self (w.fetched _ _) p]
          exact .raised hlive _ (fun q => q) rests_self e (Or.inr hraise)
        · obtain ⟨e, hrun⟩ := sendMessage_raises (w := (w.fetched (w.producers p).fh
            (fetchOps (w.producers p)
              (w.objs (w.producers p).request).kind.maxPayloadSize)).advanced p data.length)
            hraise (bytesMessage data)
          have hsd := run_bind_error (f := fun _ => (modify (callLater 0 (.go p)) : M PUnit)) hrun
          unfold sendData
          rw [if_pos hdata]
          refine Eq.subst (motive := GoSpec w p) hsd.symm ?_
          exact .raised hlive _ _ (rests_advance data.length) e (Or.inr hraise)
  · rw [go_idle hlive]
    exact .idle hlive

/-! ### Cancelling -/

/-- A cancelled request stays cancelled. -/
lemma keeps_customCancel (r : ℕ) :
    Within (Keeps fun w => (w.objs r).cancelled = true) (customCancel r) := by
  have hsend : ∀ m, Within (Keeps fun w => (w.objs r).cancelled = true)
      (Request.sendMessage r m) := fun m =>
    (frame_sendMessage r m).mono fun s t hst hs => (cancelled_of_core hst r).trans hs
  refine along_customCancel (fun w hc => ?_) (hsend _)
  unfold withProducer
  split <;> exact hc

/-- `cancel()` cancels a request that is not finished. -/
lemma cancel_cancelled {w : World} {r : ℕ}
    (h : (w.objs r).finished = false ∨ (w.objs r).cancelled = true) :
    ((after (Request.cancel r) w).objs r).cancelled = true := by
  cases hfin : (w.objs r).finished with
  | true =>
    have hrun : after (Request.cancel r) w = w := by
      show after (if (w.objs r).finished then pure ⟨⟩ else _ : M PUnit) w = w
      rw [if_pos hfin]
      rfl
    rw [hfin] at h
    rw [hrun]
    simpa using h
  | false =>
    have hrun : after (Request.cancel r) w =
        after (if (w.objs r).started && !(w.objs r).cancelled then customCancel r else pure ⟨⟩)
          (w.setObj r fun q => { q with cancelled := true }) := by
      show after (if (w.objs r).finished then pure ⟨⟩ else _ : M PUnit) w = _
      rw [if_neg (by simp [hfin])]
      rfl
    rw [hrun]
    refine within_ite (R := Keeps fun w : World => (w.objs r).cancelled = true)
      (fun _ => keeps_customCancel r) (fun _ => within_pure _) _ ?_
    simp

/-! ### Delayed calls -/

/-- The state after a delayed call was taken off the reactor. -/
def World.called (w : World) (k : ℕ) : World :=
  { w with calls := w.calls.modify k fun c => { c with called := true } }

/-- What the reactor does about a delayed call: it runs it if it is active. -/
lemma after_runCall (k : ℕ) (w : World) : after (runCall k) w = w ∨
    ∃ c, w.calls[k]? = some c ∧ c.active = true ∧
      after (runCall k) w = after c.func.run (w.called k) := by
  unfold runCall
  rw [after_get_bind]
  cases hc : w.calls[k]? with
  | none => exact Or.inl rfl
  | some c =>
    by_cases ha : c.active
    · refine Or.inr ⟨c, rfl, ha, ?_⟩
      simp only [if_pos ha]
      rfl
    · simp only [if_neg ha]
      exact Or.inl rfl

end Magicicada.Client
