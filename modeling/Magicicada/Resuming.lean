import Magicicada.Flowing

/-!
Resuming the handler: it does not look at its own flag, and unless it is paused meanwhile every
upload goes on after it.
-/

namespace Magicicada.Client

open Pb Errors Bytes Framing Fields Requests Prog

variable {s t u w : World} {r p : ℕ} {i : ℤ}

/-! ### The handler's flag -/

/-- The state with the handler's flag set to `b`. -/
def World.flagged (w : World) (b : Bool) : World := { w with producing := b }

/-- The result with the flag set to `b`. -/
def setFlag {α : Type} (b : Bool) : EStateM.Result Exn World α → EStateM.Result Exn World α
  | .ok a t => .ok a (t.flagged b)
  | .error e t => .error e (t.flagged b)

/-- A change of the state that does the same whatever the flag is, but to the flag. -/
def BlindTo (g : World → World) : Prop := ∀ w b, ∃ b', g (w.flagged b) = (g w).flagged b'

/-- A program that does the same whatever the flag is, but to the flag. -/
def Blind {α : Type} (x : M α) : Prop :=
  ∀ w b, ∃ b', x.run (w.flagged b) = setFlag b' (x.run w)

section

variable {α β : Type}

lemma blind_pure (a : α) : Blind (pure a) := fun _ b => ⟨b, rfl⟩

lemma blind_throw (e : Exn) : Blind (throw e : M α) := fun _ b => ⟨b, rfl⟩

lemma blind_modify {g : World → World} (hg : BlindTo g) : Blind (modify g : M PUnit) := by
  intro w b
  obtain ⟨b', h⟩ := hg w b
  refine ⟨b', ?_⟩
  show EStateM.Result.ok PUnit.unit (g (w.flagged b)) = .ok ⟨⟩ ((g w).flagged b')
  rw [h]

lemma blind_bind {x : M α} {f : α → M β} (hx : Blind x) (hf : ∀ a, Blind (f a)) :
    Blind (x >>= f) := by
  intro w b
  obtain ⟨b', h⟩ := hx w b
  cases hrun : x.run w with
  | ok a t =>
    rw [hrun] at h
    obtain ⟨b'', h'⟩ := hf a t b'
    exact ⟨b'', by rw [run_bind_ok h, run_bind_ok hrun, h']⟩
  | error e t =>
    rw [hrun] at h
    exact ⟨b', by rw [run_bind_error h, run_bind_error hrun]; rfl⟩

/-- Reading the state, but not the flag. -/
lemma blind_get_bind {f : World → M α} (hread : ∀ w b, f (w.flagged b) = f w)
    (hf : ∀ w, Blind (f w)) : Blind (get >>= f) := by
  intro w b
  obtain ⟨b', h⟩ := hf w w b
  refine ⟨b', ?_⟩
  rw [run_get_bind, run_get_bind, hread, h]

lemma blind_ite {c : Prop} [Decidable c] {x y : M α} (hx : Blind x) (hy : Blind y) :
    Blind (if c then x else y) := by
  split
  · exact hx
  · exact hy

lemma blind_forM {body : α → M PUnit} (h : ∀ a, Blind (body a)) (l : List α) :
    Blind (l.forM body) := by
  induction l with
  | nil => exact blind_pure _
  | cons a l ih => exact blind_bind (h a) fun _ => ih

end

lemma BlindTo.comp {g h : World → World} (hg : BlindTo g) (hh : BlindTo h) :
    BlindTo fun w => h (g w) := by
  intro w b
  obtain ⟨b', e⟩ := hg w b
  obtain ⟨b'', e'⟩ := hh (g w) b'
  refine ⟨b'', ?_⟩
  show h (g (w.flagged b)) = (h (g w)).flagged b''
  rw [e, e']

/-! ### Writing does not look at it -/

lemma flagged_pauseRequest (r : ℕ) (w : World) (b : Bool) :
    Request.pauseProducing r (w.flagged b) = (Request.pauseProducing r w).flagged b := by
  have hread : ((w.flagged b).objs r).producer = (w.objs r).producer := rfl
  unfold Request.pauseProducing withProducer
  rw [hread]
  cases (w.objs r).producer <;> rfl

lemma flagged_pauseRequests (l : List ℕ) : ∀ (w : World) (b : Bool),
    l.foldl (fun w r => Request.pauseProducing r w) (w.flagged b) =
      (l.foldl (fun w r => Request.pauseProducing r w) w).flagged b := by
  induction l with
  | nil => exact fun _ _ => rfl
  | cons r l ih =>
    intro w b
    rw [List.foldl_cons, List.foldl_cons, flagged_pauseRequest, ih]

lemma blind_pause : BlindTo Handler.pauseProducing := by
  refine fun w b => ⟨false, ?_⟩
  have h := flagged_pauseRequests w.requests.values w b
  show { w.requests.values.foldl (fun w r => Request.pauseProducing r w) (w.flagged b) with
    producing := false } = _
  rw [h]
  rfl

lemma blind_setFlow (d : Dir) (f : Flow → Flow) : BlindTo fun w => w.setFlow d f :=
  fun _ b => ⟨b, rfl⟩

lemma blind_throttle (d : Dir) : BlindTo (Factory.throttle d) := by
  intro w b
  have hset := blind_setFlow d (fun f => { f with throttling := true })
  have hread : (w.flagged b).factory.bind Factory.client = w.factory.bind Factory.client := rfl
  unfold Factory.throttle
  rw [hread]
  cases w.factory.bind Factory.client with
  | none => exact ⟨b, rfl⟩
  | some peer =>
    cases peer with
    | other => exact hset w b
    | self =>
      cases d with
      | reads => exact ⟨b, rfl⟩
      | writes => exact hset.comp blind_pause w b

lemma flagged_maybeCallLater (k : Option ℕ) (delay : ℚ) (f : Func) (w : World) (b : Bool) :
    maybeCallLater k delay f (w.flagged b) =
      ((maybeCallLater k delay f w).1, (maybeCallLater k delay f w).2.flagged b) := by
  cases k with
  | none => rfl
  | some k =>
    have hread : (w.flagged b).calls[k]? = w.calls[k]? := rfl
    unfold maybeCallLater
    simp only [hread]
    cases w.calls[k]? with
    | none => rfl
    | some c =>
      dsimp only
      split <;> rfl

lemma blind_checkBandwidth (d : Dir) : BlindTo (checkBandwidth d) := by
  intro w b
  have hread : (w.flagged b).factory = w.factory := rfl
  unfold checkBandwidth
  rw [hread]
  cases w.factory with
  | none => exact ⟨b, rfl⟩
  | some f =>
    obtain ⟨b', h⟩ := blind_throttle d w b
    dsimp only
    split
    · refine ⟨b', ?_⟩
      rw [h, flagged_maybeCallLater]
      rfl
    · exact ⟨b, rfl⟩

lemma blind_registerOwn (d : Dir) (n : ℕ) : BlindTo (registerOwn d n) := by
  intro w b
  have hread : (w.flagged b).factory = w.factory := rfl
  have hcheck := (blind_setFlow d fun f => { f with thisSecond := f.thisSecond + n }).comp
    (blind_checkBandwidth d)
  unfold registerOwn register
  rw [hread]
  cases w.factory with
  | none => exact ⟨b, rfl⟩
  | some f =>
    dsimp only
    split
    · split
      · exact hcheck w b
      · exact ⟨b, rfl⟩
    · exact ⟨b, rfl⟩

lemma blind_transportWrite : BlindTo transportWrite := by
  intro w b
  unfold transportWrite
  simp only
  have hcount : BlindTo fun w : World =>
    { w with transport := { w.transport with writes := w.transport.writes + 1 } } :=
    fun _ b => ⟨b, rfl⟩
  by_cases h : (w.transport.registered && w.env.fills w.transport.writes) = true
  · have h' : ((w.flagged b).transport.registered &&
      (w.flagged b).env.fills (w.flagged b).transport.writes) = true := h
    rw [if_pos h, if_pos h']
    exact hcount.comp blind_pause w b
  · have h' : ¬((w.flagged b).transport.registered &&
      (w.flagged b).env.fills (w.flagged b).transport.writes) = true := h
    rw [if_neg h, if_neg h']
    exact hcount w b

lemma blind_sendMessage (m : Message) : BlindTo (sendMessage m) := by
  have hwrite : ∀ n, BlindTo (write n) := fun n =>
    (blind_registerOwn .writes n).comp blind_transportWrite
  have hsent : BlindTo fun w : World => { w with sent := w.sent ++ [m] } := fun _ b => ⟨b, rfl⟩
  exact (hwrite sizeFmtSize).comp ((hwrite (byteSize m)).comp hsent)

/-! ### Nor does producing -/

lemma blind_request (r : ℕ) (m : Message) : Blind (Request.sendMessage r m) := by
  refine blind_get_bind (fun _ _ => rfl) fun w => ?_
  cases (w.objs r).id with
  | none => exact blind_throw _
  | some i => exact blind_ite (blind_modify (blind_sendMessage _)) (blind_throw _)

lemma blind_modifyProducer (p : ℕ) (f : Producer → Producer) : Blind (modifyProducer p f) :=
  blind_modify fun _ b => ⟨b, rfl⟩

lemma blind_fileOp (fh : ℕ) (op : FileOp) : Blind (fileOp fh op) := by
  refine blind_get_bind (fun _ _ => rfl) fun w => blind_bind (blind_modify fun _ b => ⟨b, rfl⟩)
    fun _ => ?_
  cases (w.files fh).behave ((w.files fh).ops ++ [op]) with
  | ok data => exact blind_pure _
  | error e => exact blind_throw _

lemma blind_go (p : ℕ) : Blind (BytesMessageProducer.go p) := by
  refine blind_get_bind (fun _ _ => rfl) fun w => blind_ite (blind_pure _) ?_
  refine blind_bind ?_ fun _ => blind_bind (blind_fileOp _ _) fun data => blind_ite ?_ ?_
  · exact blind_ite (blind_bind (blind_fileOp _ _) fun _ => blind_pure _) (blind_pure _)
  · exact blind_bind (blind_modifyProducer _ _) fun _ => blind_bind (blind_request _ _) fun _ =>
      blind_modify fun _ b => ⟨b, rfl⟩
  · exact blind_bind (blind_request _ _) fun _ => blind_modifyProducer _ _

lemma blind_resumeRequest (r : ℕ) : Blind (Request.resumeProducing r) := by
  refine blind_bind (blind_get_bind (fun _ _ => rfl) fun w => ?_) fun _ =>
    blind_modify fun _ b => ⟨b, rfl⟩
  cases (w.objs r).producer with
  | none => exact blind_pure _
  | some p => exact blind_bind (blind_modifyProducer _ _) fun _ => blind_go p

/-! ### Resuming the handler -/

/-- The loop of `resumeProducing` of the handler. -/
def resumeRequests : M PUnit := do
  let w ← get
  w.requests.values.forM Request.resumeProducing

/-- From its beginning in this state on, `resumeProducing` of the handler is not interrupted by
`pauseProducing` or `stopProducing`: the handler's flag, set at the beginning, is never cleared in
the loop. -/
def undisturbed (w : World) : Bool := (after resumeRequests (w.flagged true)).producing

/-- Resuming registered requests one after another. -/
lemma Sound.resumeAll (l : List ℕ) : ∀ w, Sound w → (∀ r ∈ l, ∃ i, w.requests.get? i = some r) →
    ∃ t, (l.forM Request.resumeProducing).run w = .ok ⟨⟩ t ∧ Sound t ∧ Carries w t ∧
      (t.producing = true → ∀ r ∈ l, Flowing t r) := by
  induction l with
  | nil => exact fun w hw _ => ⟨w, rfl, hw, refl_of Carries w, fun _ r hr => nomatch hr⟩
  | cons r l ih =>
    intro w hw hl
    obtain ⟨i, hi⟩ := hl r (List.mem_cons_self ..)
    obtain ⟨u, hrun, hu, hcarries, hr⟩ := hw.resumeRequest hi
    have hreq : u.requests = w.requests :=
      requests_of_ledger (ledger_of_core ((frame_resumeRequest r).ok hrun))
    obtain ⟨t, hrun', ht, hcarries', hrest⟩ := ih u hu fun r' hr' => by
      rw [hreq]
      exact hl r' (List.mem_cons_of_mem _ hr')
    have hforM : ((r :: l).forM Request.resumeProducing).run w = .ok ⟨⟩ t :=
      (run_bind_ok (f := fun _ => l.forM Request.resumeProducing) hrun).trans hrun'
    refine ⟨t, hforM, ht, trans_of Carries hcarries hcarries', fun h r' hr' => ?_⟩
    rcases List.mem_cons.mp hr' with rfl | hr'
    · obtain ⟨hflag, hflow⟩ := hcarries'.flowing h
      exact hflow r' (hr hflag)
    · exact hrest h r' hr'

lemma Sound.flagged (hw : Sound w) (b : Bool) : Sound (w.flagged b) :=
  hw.of_core (hw.toTidy.still ⟨rfl, rfl, rfl, rfl, rfl, rfl, fun _ => id⟩) rfl rfl

/-- **Resuming the handler** does not raise, and unless it is paused meanwhile all uploads go on
after it. -/
lemma Sound.resume (hw : Sound w) :
    Sound (after Handler.resumeProducing w) ∧
      (after Handler.resumeProducing w).producing = true ∧
      (undisturbed w = true → ∀ i r, (after Handler.resumeProducing w).requests.get? i = some r →
        Flowing (after Handler.resumeProducing w) r) := by
  obtain ⟨t, hrun, ht, hcarries, hflow⟩ := (hw.flagged true).resumeAll w.requests.values _
    fun r hr => Dict.mem_values_iff.mp hr
  have hloop : (w.requests.values.forM Request.resumeProducing).run w = .ok ⟨⟩
      (t.flagged (after (w.requests.values.forM Request.resumeProducing) w).producing) := by
    obtain ⟨b, hblind⟩ := blind_forM blind_resumeRequest w.requests.values w true
    rw [hrun] at hblind
    cases hres : (w.requests.values.forM Request.resumeProducing).run w with
    | ok a u =>
      rw [hres] at hblind
      cases hblind
      rw [after_of_ok hres]
      rfl
    | error e u =>
      rw [hres] at hblind
      cases hblind
  have hresume : after Handler.resumeProducing w = t.flagged true :=
    after_of_ok ((run_bind_ok (f := fun _ => modify fun w : World =>
      { w with producing := true }) hloop).trans rfl)
  have hundisturbed : undisturbed w = t.producing := by
    unfold undisturbed
    rw [after_of_ok (show resumeRequests.run (w.flagged true) = .ok ⟨⟩ t from hrun)]
  rw [hresume, hundisturbed]
  refine ⟨ht.flagged true, rfl, fun h i r hr => ?_⟩
  have hreq : w.requests.get? i = some r := hcarries.requests i r hr
  exact hflow h r (Dict.mem_values_iff.mpr ⟨i, hreq⟩)

end Magicicada.Client
