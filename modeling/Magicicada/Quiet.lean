import Magicicada.Rules

/-!
What writing and pausing leave alone, and what producing leaves alone.

A write may only slow things down: flags that say who produces are cleared, bytes are counted
and an unthrottle is scheduled. Producing also sets such flags, reads files, sends messages and
schedules itself. What neither changes is the `core` of the state.
-/

namespace Magicicada.Client

open Pb Errors Requests Prog

/-- The state with everything blanked out that producing and writing may change. -/
def World.core (w : World) : World := { w with
  objs := fun r => { w.objs r with producing := false }
  files := fun _ => { behave := fun _ => .ok [] }
  producers := fun _ => { request := 0, fh := 0, offset := 0 }
  producing := false
  transport := { w.transport with writes := 0, readsPaused := false }
  calls := []
  factory := none
  sent := [] }

lemma objs_of_core {s t : World} (h : t.core = s.core) (r : ℕ) :
    { t.objs r with producing := false } = { s.objs r with producing := false } :=
  congrArg (fun w => w.objs r) h

lemma cancelled_of_core {s t : World} (h : t.core = s.core) (r : ℕ) :
    (t.objs r).cancelled = (s.objs r).cancelled := by
  have := congrArg Request.cancelled (objs_of_core h r)
  exact this

/-- What a factory is told, but for the changes of its limits. -/
def Factory.config (f : Factory) : Factory :=
  { f with reads := { limit := f.reads.limit }, writes := { limit := f.writes.limit } }

/-- From `s` to `t` some flags are cleared, bytes are counted and calls other than `go` are
scheduled. -/
structure Slows (s t : World) : Prop where
  core : t.core = s.core
  files : t.files = s.files
  sent : t.sent = s.sent
  producers : ∀ p, t.producers p = s.producers p ∨
    t.producers p = { s.producers p with producing := false }
  objs : ∀ r, t.objs r = s.objs r ∨ t.objs r = { s.objs r with producing := false }
  producing : t.producing = s.producing ∨ t.producing = false
  calls : ∃ l, t.calls = s.calls ++ l ∧ ∀ c ∈ l, ∀ p, c.func ≠ .go p
  config : t.factory.map Factory.config = s.factory.map Factory.config

instance : IsPreorder World Slows where
  refl s := ⟨rfl, rfl, rfl, fun _ => Or.inl rfl, fun _ => Or.inl rfl, Or.inl rfl,
    ⟨[], by simp, by simp⟩, rfl⟩
  trans s t u h1 h2 := by
    refine ⟨h2.core.trans h1.core, h2.files.trans h1.files, h2.sent.trans h1.sent,
      fun p => ?_, fun r => ?_, ?_, ?_, h2.config.trans h1.config⟩
    · rcases h1.producers p with e1 | e1 <;> rcases h2.producers p with e2 | e2 <;>
        simp [e1, e2]
    · rcases h1.objs r with e1 | e1 <;> rcases h2.objs r with e2 | e2 <;> simp [e1, e2]
    · rcases h1.producing with e1 | e1 <;> rcases h2.producing with e2 | e2 <;> simp [e1, e2]
    · obtain ⟨l1, e1, hl1⟩ := h1.calls
      obtain ⟨l2, e2, hl2⟩ := h2.calls
      refine ⟨l1 ++ l2, by rw [e2, e1, List.append_assoc], fun c hc => ?_⟩
      rcases List.mem_append.mp hc with hc | hc
      · exact hl1 c hc
      · exact hl2 c hc

namespace Slows

lemma rfl' (s : World) : Slows s s := refl_of Slows s

lemma trans' {s t u : World} (h1 : Slows s t) (h2 : Slows t u) : Slows s u :=
  trans_of Slows h1 h2

end Slows

/-! ### Pausing -/

lemma slows_setProducer (w : World) (p : ℕ) :
    Slows w (w.setProducer p fun q => { q with producing := false }) := by
  refine { Slows.rfl' w with producers := fun p' => ?_ }
  by_cases h : p' = p
  · subst h; simp
  · exact Or.inl (setProducer_producers_of_ne h _)

lemma core_setObj_producing (w : World) (r : ℕ) (b : Bool) :
    (w.setObj r fun q => { q with producing := b }).core = w.core := by
  have : (fun r' => { (w.setObj r fun q => { q with producing := b }).objs r' with
      producing := false }) = fun r' => { w.objs r' with producing := false } := by
    funext r'
    by_cases h : r' = r
    · subst h; simp
    · rw [setObj_objs_of_ne h]
  unfold World.core
  rw [this]
  rfl

lemma slows_setObj (w : World) (r : ℕ) :
    Slows w (w.setObj r fun q => { q with producing := false }) := by
  refine { Slows.rfl' w with core := core_setObj_producing w r false, objs := fun r' => ?_ }
  by_cases h : r' = r
  · subst h; simp
  · exact Or.inl (setObj_objs_of_ne h _)

lemma slows_pauseRequest (r : ℕ) (w : World) : Slows w (Request.pauseProducing r w) := by
  refine Slows.trans' ?_ (slows_setObj _ r)
  unfold withProducer
  split
  · exact slows_setProducer w _
  · exact Slows.rfl' w

lemma slows_stopRequest (r : ℕ) (w : World) : Slows w (Request.stopProducing r w) :=
  slows_pauseRequest r w

lemma slows_foldl {α : Type} {f : World → α → World} (h : ∀ w a, Slows w (f w a)) (l : List α) :
    ∀ w, Slows w (l.foldl f w) := by
  induction l with
  | nil => exact Slows.rfl'
  | cons a l ih => exact fun w => (h w a).trans' (ih _)

lemma slows_setProducing (w : World) : Slows w { w with producing := false } :=
  { Slows.rfl' w with producing := Or.inr rfl }

lemma slows_pause (w : World) : Slows w (Handler.pauseProducing w) :=
  (slows_foldl (fun w r => slows_pauseRequest r w) _ w).trans' (slows_setProducing _)

lemma slows_stop (w : World) : Slows w (Handler.stopProducing w) :=
  (slows_foldl (fun w r => slows_stopRequest r w) _ w).trans' (slows_setProducing _)

/-! ### Counting and throttling -/

lemma slows_setFlow {w : World} {d : Dir} {f : Flow → Flow} (hf : ∀ g, (f g).limit = g.limit) :
    Slows w (w.setFlow d f) := by
  refine { Slows.rfl' w with config := ?_ }
  unfold World.setFlow
  rw [Option.map_map]
  congr 1
  funext g
  cases d <;> simp [Factory.config, Factory.setFlow, hf]

lemma slows_callLater {w : World} {t : ℚ} {f : Func} (hf : ∀ p, f ≠ .go p) :
    Slows w (callLater t f w) :=
  { Slows.rfl' w with calls := ⟨_, rfl, by simpa using hf⟩ }

lemma slows_maybeCallLater {w : World} {i : Option ℕ} {t : ℚ} {f : Func}
    (hf : ∀ p, f ≠ .go p) : Slows w (maybeCallLater i t f w).2 := by
  unfold maybeCallLater
  repeat' split
  all_goals first | exact slows_callLater hf | exact Slows.rfl' w

lemma slows_readsPaused (w : World) (b : Bool) :
    Slows w { w with transport := { w.transport with readsPaused := b } } :=
  { Slows.rfl' w with core := rfl }

lemma slows_clientThrottle (d : Dir) (w : World) : Slows w (StorageClient.throttle d w) := by
  cases d with
  | reads => exact slows_readsPaused w true
  | writes => exact slows_pause w

lemma slows_throttle (d : Dir) (w : World) : Slows w (Factory.throttle d w) := by
  unfold Factory.throttle
  split
  · exact Slows.rfl' w
  · exact slows_setFlow fun _ => rfl
  · refine Slows.trans' ?_ (slows_clientThrottle d _)
    exact slows_setFlow fun _ => rfl

lemma slows_checkBandwidth (d : Dir) (w : World) : Slows w (checkBandwidth d w) := by
  unfold checkBandwidth
  split
  · exact Slows.rfl' w
  · split
    · refine (slows_throttle d w).trans' (Slows.trans' (slows_maybeCallLater ?_)
        (slows_setFlow fun _ => rfl))
      exact fun _ => Func.noConfusion
    · exact Slows.rfl' w

lemma slows_register (d : Dir) (n : ℕ) (w : World) : Slows w (register d n w) := by
  unfold register
  split
  · exact Slows.rfl' w
  · split
    · refine Slows.trans' ?_ (slows_checkBandwidth d _)
      exact slows_setFlow fun _ => rfl
    · exact Slows.rfl' w

lemma slows_registerOwn (d : Dir) (n : ℕ) (w : World) : Slows w (registerOwn d n w) := by
  unfold registerOwn
  split
  · exact slows_register d n w
  · exact Slows.rfl' w

/-! ### Writing -/

lemma slows_transportWrite (w : World) : Slows w (transportWrite w) := by
  have h : Slows w { w with transport := { w.transport with writes := w.transport.writes + 1 } } :=
    { Slows.rfl' w with core := rfl }
  unfold transportWrite
  simp only
  split
  · exact h.trans' (slows_pause _)
  · exact h

lemma slows_write (n : ℕ) (w : World) : Slows w (write n w) :=
  (slows_registerOwn .writes n w).trans' (slows_transportWrite _)

/-- Sending a message appends it to what was sent, and otherwise only slows things down. -/
lemma slows_sendMessage (m : Message) (w : World) :
    Slows { w with sent := w.sent ++ [m] } (sendMessage m w) := by
  have h := (slows_write Bytes.sizeFmtSize w).trans' (slows_write (Fields.byteSize m) _)
  exact { h with
    core := h.core
    sent := congrArg (· ++ [m]) h.sent }

/-! ### Producing -/

lemma core_sendMessage (m : Message) (w : World) : (sendMessage m w).core = w.core :=
  (slows_sendMessage m w).core

lemma frame_sendMessage (r : ℕ) (m : Message) :
    Within (Frame World.core) (Request.sendMessage r m) :=
  along_sendMessage fun _ w => core_sendMessage _ w

lemma frame_fileOp (fh : ℕ) (op : FileOp) : Within (Frame World.core) (fileOp fh op) := by
  refine within_bind within_get fun w => within_bind (within_modify fun w => rfl) fun _ => ?_
  split
  · exact within_pure _
  · exact within_throw _

lemma frame_modifyProducer (p : ℕ) (f : Producer → Producer) :
    Within (Frame World.core) (modifyProducer p f) := within_modify fun _ => rfl

lemma frame_sendData (p : ℕ) (q : Producer) (data : Bytes) :
    Within (Frame World.core) (sendData p q data) :=
  along_sendData frame_sendMessage (fun _ _ => rfl) (fun _ => rfl) fun _ => rfl

lemma frame_go (p : ℕ) : Within (Frame World.core) (BytesMessageProducer.go p) :=
  along_go frame_fileOp (frame_sendData p)

lemma frame_resumeProducing (p : ℕ) :
    Within (Frame World.core) (BytesMessageProducer.resumeProducing p) :=
  within_bind (frame_modifyProducer p _) fun _ => frame_go p

lemma frame_resumeRequest (r : ℕ) : Within (Frame World.core) (Request.resumeProducing r) :=
  along_resumeRequest frame_resumeProducing fun w => core_setObj_producing w r true

lemma frame_resume : Within (Frame World.core) Handler.resumeProducing :=
  along_resume frame_resumeRequest fun _ => rfl

lemma frame_customCancel (r : ℕ) : Within (Frame World.core) (customCancel r) := by
  refine along_customCancel (fun w => ?_) (frame_sendMessage r _)
  unfold withProducer
  split <;> rfl

/-! ### Delayed calls -/

lemma frame_unthrottle (d : Dir) : Within (Frame World.core) (Factory.unthrottle d) := by
  refine along_unthrottle (fun _ => rfl) (fun _ => rfl) ?_
  cases d with
  | reads => exact within_modify fun _ => rfl
  | writes => exact frame_resume

lemma frame_runCall (k : ℕ) : Within (Frame World.core) (runCall k) := by
  refine along_runCall (fun _ _ => rfl) fun f => ?_
  cases f with
  | go p => exact frame_go p
  | reset d => exact within_modify fun _ => rfl
  | unthrottle d => exact frame_unthrottle d

lemma core_unregisterSelf (w : World) : (unregisterSelf w).core = w.core :=
  along_unregisterSelf (R := Frame World.core) (along_cancelDelayedCall fun _ _ => rfl) w

end Magicicada.Client
