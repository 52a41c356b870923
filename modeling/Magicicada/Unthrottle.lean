import Magicicada.Throttle

/-!
Unthrottling the writes resumes the requests one after another, and one of them may bring the
throttle back while others are still to be resumed. Where only the last one that has a producer
may do that, a throttle holds in the whole run.
-/

namespace Magicicada.Client

open Pb Errors Bytes Framing Fields Requests Prog

variable {D : Prop} {s t w : World} {r p : ℕ} {i : ℤ}

/-! ### What resuming is going to write -/

/-- The bytes written for a message. -/
def wireSize (m : Message) : ℕ := sizeFmtSize + byteSize m

/-- That many bytes in a second reach the limit on writes. -/
def World.reaches (w : World) (count : ℕ) : Prop :=
  ∃ f l, w.factory = some f ∧ f.writes.limit = some l ∧ l ≤ count

/-- What a producer sends when it has read some data. -/
def dataMessage (i : ℤ) (data : Bytes) : Message :=
  { (if data = [] then eofMessage else bytesMessage data) with id := i }

/-- When these requests are resumed in order, with the files as given and that many bytes
written in this second, no request that comes after the one that reaches the limit has a
producer. What raises ends the loop. -/
def Fits (w : World) : (ℕ → File) → ℕ → List ℕ → Prop
  | _, _, [] => True
  | files, count, r :: l =>
    match (w.objs r).producer with
    | none => Fits w files count l
    | some p =>
      if (w.objs r).cancelled || (w.producers p).finished then Fits w files count l
      else
        let fh := (w.producers p).fh
        let size := (w.objs r).kind.maxPayloadSize
        match (w.objs r).id, (files fh).fetch (w.producers p) size with
        | some i, .ok data =>
          if int32 i then
            (w.reaches (count + wireSize (dataMessage i data)) →
              ∀ r' ∈ l, (w.objs r').producer = none) ∧
            (¬w.reaches (count + wireSize (dataMessage i data)) →
              Fits w (Function.update files fh { files fh with
                ops := (files fh).ops ++ fetchOps (w.producers p) size })
                (count + wireSize (dataMessage i data)) l)
          else True
        | _, _ => True

/-- What resuming a request depends on is the same in both states. -/
structure Alike (s t : World) (r : ℕ) : Prop where
  obj : { t.objs r with producing := false } = { s.objs r with producing := false }
  producer : ∀ p, (s.objs r).producer = some p →
    { t.producers p with producing := false } = { s.producers p with producing := false }

lemma Alike.request {r : ℕ} (h : Alike s t r) : (t.objs r).kind = (s.objs r).kind ∧
    (t.objs r).id = (s.objs r).id ∧ (t.objs r).producer = (s.objs r).producer ∧
    (t.objs r).cancelled = (s.objs r).cancelled := by
  have hobj := h.obj
  simp only [Request.mk.injEq] at hobj
  obtain ⟨hkind, -, -, hid, -, hproducer, -, -, hcancelled, -⟩ := hobj
  exact ⟨hkind, hid, hproducer, hcancelled⟩

/-- Its producer calls the same methods of the same file. -/
lemma Alike.fetches {r p : ℕ} (h : Alike s t r) (hp : (s.objs r).producer = some p) :
    (t.producers p).finished = (s.producers p).finished ∧
    (t.producers p).fh = (s.producers p).fh ∧
    (∀ (f : File) (size : ℕ), f.fetch (t.producers p) size = f.fetch (s.producers p) size) ∧
    ∀ size, fetchOps (t.producers p) size = fetchOps (s.producers p) size := by
  have hsame := h.producer p hp
  simp only [Producer.mk.injEq] at hsame
  obtain ⟨-, -, hfh, hoffset, hfinished⟩ := hsame
  refine ⟨hfinished, hfh, fun f size => ?_, fun size => ?_⟩
  · simp only [File.fetch, hoffset]
  · simp only [fetchOps, hoffset]

lemma fits_congr (hreach : ∀ c, t.reaches c ↔ s.reaches c) {l : List ℕ} :
    ∀ {files : ℕ → File} {count : ℕ}, (∀ r ∈ l, Alike s t r) → Fits s files count l →
      Fits t files count l := by
  induction l with
  | nil => exact fun _ _ => trivial
  | cons r l ih =>
    intro files count hl h
    have halike := hl r (List.mem_cons_self ..)
    have hrest : ∀ r' ∈ l, Alike s t r' := fun r' hr' => hl r' (List.mem_cons_of_mem _ hr')
    obtain ⟨hkind, hid, hprod, hcancelled⟩ := halike.request
    have hnone : ∀ r' ∈ l, (s.objs r').producer = none → (t.objs r').producer = none :=
      fun r' hr' hn => (hrest r' hr').request.2.2.1.trans hn
    unfold Fits at h ⊢
    rw [hprod, hkind, hid, hcancelled]
    cases hp : (s.objs r).producer with
    | none =>
      rw [hp] at h
      exact ih hrest h
    | some p =>
      obtain ⟨hfinished, hfh, hfetch, hops⟩ := halike.fetches hp
      rw [hp] at h
      simp only [hfinished, hfh, hfetch, hops] at h ⊢
      split at h
      · next hc =>
        rw [if_pos hc]
        exact ih hrest h
      · next hc =>
        rw [if_neg hc]
        split at h
        · next i data hi hdata =>
          split at h
          · next hint =>
            rw [if_pos hint]
            refine ⟨fun hfull r' hr' => hnone r' hr' (h.1 ((hreach _).mp hfull) r' hr'),
              fun hfull => ih hrest (h.2 fun hs => hfull ((hreach _).mpr hs))⟩
          · next hint => rw [if_neg hint]; trivial
        · trivial

/-! ### Writing below the limit -/

lemma reaches_of_config (h : t.factory.map Factory.config = s.factory.map Factory.config)
    (c : ℕ) : t.reaches c ↔ s.reaches c := by
  have hconfig : ∀ w : World, w.reaches c ↔ ∃ f l, w.factory.map Factory.config = some f ∧
      f.writes.limit = some l ∧ l ≤ c := by
    intro w
    constructor
    · rintro ⟨f, l, hf, hl, hle⟩
      exact ⟨f.config, l, by rw [hf]; rfl, hl, hle⟩
    · rintro ⟨g, l, hg, hl, hle⟩
      obtain ⟨f, hf, rfl⟩ := Option.map_eq_some_iff.mp hg
      exact ⟨f, l, hf, hl, hle⟩
  rw [hconfig, hconfig, h]

/-- Fewer bytes reach the limit later. -/
lemma reaches_mono {c c' : ℕ} (hle : c ≤ c') (h : w.reaches c) : w.reaches c' := by
  obtain ⟨f, l, hf, hl, hlc⟩ := h
  have : (c : ℚ) ≤ c' := by exact_mod_cast hle
  exact ⟨f, l, hf, hl, hlc.trans this⟩

/-- The writes of the client are not throttled, that many bytes were written in this second, and
no unthrottle is to come. -/
def Open (w : World) (count : ℕ) : Prop := ∃ f, w.factory = some f ∧
  f.throttlingEnabled = true ∧ f.client = some .self ∧ f.writes.throttling = false ∧
  f.writes.unthrottleId = none ∧ f.writes.thisSecond = count

lemma Open.of_factory {c : ℕ} (h : Open s c) (hf : t.factory = s.factory) : Open t c := by
  unfold Open
  rw [hf]
  exact h

lemma Open.not_throttled {c : ℕ} (h : Open w c) : ¬w.throttled := by
  obtain ⟨f, hf, -, -, hoff, -⟩ := h
  rintro ⟨f', hf', hon⟩
  obtain rfl : f = f' := Option.some.inj (hf.symm.trans hf')
  exact nomatch hoff.symm.trans hon

/-- Counting below the limit changes the count. -/
lemma Open.registerOwn_eq {c n : ℕ} (h : Open w c) (hn : ¬w.reaches (c + n)) :
    registerOwn .writes n w =
      w.setFlow .writes fun f => { f with thisSecond := f.thisSecond + n } := by
  obtain ⟨f, hf, hon, hself, -, -, hcount⟩ := h
  let g := f.setFlow .writes fun f => { f with thisSecond := f.thisSecond + n }
  let u := w.setFlow .writes fun f => { f with thisSecond := f.thisSecond + n }
  have hu : u.factory = some g := by
    show w.factory.map _ = _
    rw [hf]
    rfl
  have hcheck : g.shouldCheck .writes = false := by
    have hlimit : (g.flow .writes).limit = f.writes.limit := rfl
    have hnow : (g.flow .writes).thisSecond = f.writes.thisSecond + n := rfl
    unfold Factory.shouldCheck
    rw [hlimit, hnow]
    cases hl : f.writes.limit with
    | none => rfl
    | some l =>
      have hlt : decide (l ≤ ((f.writes.thisSecond + n : ℕ) : ℚ)) = false := by
        rw [decide_eq_false_iff_not, hcount]
        exact fun hle => hn ⟨f, l, hf, hl, hle⟩
      simp only [hlt, Bool.and_false, Bool.false_and]
  have hclient : w.factory.bind Factory.client = some .self := by
    rw [hf]
    exact hself
  unfold registerOwn
  rw [hclient]
  show register .writes n w = u
  unfold register
  rw [hf]
  show (if f.throttlingEnabled then checkBandwidth .writes u else w) = u
  rw [if_pos hon]
  unfold checkBandwidth
  rw [hu]
  show (if g.shouldCheck .writes then _ else u) = u
  rw [if_neg (by simp [hcheck])]

/-- Counting below the limit throttles nothing. -/
lemma Open.registerWritten {c n : ℕ} (h : Open w c) (hn : ¬w.reaches (c + n)) :
    Open (registerOwn .writes n w) (c + n) := by
  rw [h.registerOwn_eq hn]
  obtain ⟨f, hf, hon, hself, hoff, hid, hcount⟩ := h
  refine ⟨f.setFlow .writes fun f => { f with thisSecond := f.thisSecond + n }, ?_, hon, hself,
    hoff, hid, congrArg (· + n) hcount⟩
  show w.factory.map _ = _
  rw [hf]
  rfl

lemma Open.write {c n : ℕ} (h : Open w c) (hn : ¬w.reaches (c + n)) :
    Open (Client.write n w) (c + n) :=
  (h.registerWritten hn).of_factory (factory_transportWrite _)

/-- A message below the limit throttles nothing. -/
lemma Open.sendMessage {c : ℕ} (h : Open w c) (m : Message) (hm : ¬w.reaches (c + wireSize m)) :
    Open (Client.sendMessage m w) (c + wireSize m) := by
  have hle : c + sizeFmtSize ≤ c + wireSize m := by
    unfold wireSize
    omega
  have hsize := h.write fun h => hm (reaches_mono hle h)
  have hm' : ¬(Client.write sizeFmtSize w).reaches (c + sizeFmtSize + byteSize m) := by
    rw [reaches_of_config (slows_write _ w).config, Nat.add_assoc]
    exact hm
  have hbody := hsize.write hm'
  rw [Nat.add_assoc] at hbody
  exact hbody.of_factory rfl

/-! ### Resuming a request -/

/-- What a step of a live producer that returns has done: it has sent what it read. -/
structure Went (w : World) (p : ℕ) (t : World) (i : ℤ) (data : Bytes) : Prop where
  id : (w.objs (w.producers p).request).id = some i
  fits : int32 i = true
  fetch : (w.files (w.producers p).fh).fetch (w.producers p)
    (w.objs (w.producers p).request).kind.maxPayloadSize = .ok data
  files : t.files = (w.fetched (w.producers p).fh (fetchOps (w.producers p)
    (w.objs (w.producers p).request).kind.maxPayloadSize)).files
  factory : ∃ a : World, a.factory = w.factory ∧
    t.factory = (sendMessage (dataMessage i data) a).factory

/-- The message is written from a state whose factory and calls are as they were, and then the next
step is asked for, or the producer ends. -/
lemma go_writes (hlive : Live w p) (h : (BytesMessageProducer.go p).run w = .ok ⟨⟩ t) :
    ∃ i data, ∃ a : World, Went w p t i data ∧ a.factory = w.factory ∧ a.calls = w.calls ∧
      (t = callLater 0 (.go p) (sendMessage (dataMessage i data) a) ∨
        t = (sendMessage (dataMessage i data) a).ended p) := by
  have hspec := go_spec w p
  rw [h] at hspec
  cases hspec with
  | idle hn => exact absurd hlive hn
  | @bytes _ i hid hi data hdata hfetch =>
    let v := w.fetched (w.producers p).fh (fetchOps (w.producers p)
      (w.objs (w.producers p).request).kind.maxPayloadSize)
    have hm : dataMessage i data = { bytesMessage data with id := i } := by
      unfold dataMessage
      rw [if_neg hdata]
    refine ⟨i, data, v.advanced p data.length, ⟨hid, hi, hfetch, (slows_sendMessage _ _).files,
      v.advanced p data.length, rfl, ?_⟩, rfl, rfl, Or.inl ?_⟩ <;> rw [hm]
    rfl
  | @eof _ i hid hi hfetch =>
    let v := w.fetched (w.producers p).fh (fetchOps (w.producers p)
      (w.objs (w.producers p).request).kind.maxPayloadSize)
    exact ⟨i, [], v, ⟨hid, hi, hfetch, (slows_sendMessage _ _).files, v, rfl, rfl⟩, rfl, rfl,
      Or.inr rfl⟩

/-- A step of a producer leaves the others alone, or stops them. -/
lemma go_others (h : (BytesMessageProducer.go p).run w = .ok ⟨⟩ t) {p' : ℕ} (hp : p' ≠ p) :
    { t.producers p' with producing := false } = { w.producers p' with producing := false } := by
  have hsend : ∀ (m : Message) (s : World), { (sendMessage m s).producers p' with
      producing := false } = { s.producers p' with producing := false } := by
    intro m s
    rcases (slows_sendMessage m s).producers p' with e | e <;> rw [e]
  have hspec := go_spec w p
  rw [h] at hspec
  cases hspec with
  | idle _ => rfl
  | bytes _ _ _ _ _ =>
    refine (hsend _ _).trans ?_
    unfold World.advanced
    rw [setProducer_producers_of_ne hp]
    rfl
  | eof _ _ _ _ =>
    unfold World.ended
    rw [setProducer_producers_of_ne hp]
    exact hsend _ _

/-- Of the requests still to be resumed only the last one that has a producer may bring the
throttle on; or none has one. -/
def Ready (l : List ℕ) (w : World) : Prop := l.Nodup ∧
  ((∃ count, Open w count ∧ Fits w w.files count l) ∨ ∀ r ∈ l, (w.objs r).producer = none)

lemma Ready.not_throttled {l : List ℕ} (h : Ready (r :: l) w)
    (hp : (w.objs r).producer = some p) : ¬w.throttled := by
  rcases h.2 with ⟨c, hopen, -⟩ | hnone
  · exact hopen.not_throttled
  · exact nomatch hp.symm.trans (hnone r (List.mem_cons_self ..))

/-- The first request is skipped. -/
lemma fits_idle {files : ℕ → File} {count : ℕ} {l : List ℕ} (h : Fits w files count (r :: l))
    (hidle : ∀ p, (w.objs r).producer = some p →
      ((w.objs r).cancelled || (w.producers p).finished) = true) : Fits w files count l := by
  unfold Fits at h
  cases hp : (w.objs r).producer with
  | none =>
    rw [hp] at h
    exact h
  | some p =>
    rw [hp] at h
    simp only [hidle p hp, if_true] at h
    exact h

/-- The first request sends what it has read. -/
lemma fits_live {files : ℕ → File} {count : ℕ} {l : List ℕ} (h : Fits w files count (r :: l))
    (hp : (w.objs r).producer = some p) (hc : (w.objs r).cancelled = false)
    (hf : (w.producers p).finished = false) (hid : (w.objs r).id = some i)
    (hi : int32 i = true) {data : Bytes} (hdata : (files (w.producers p).fh).fetch
      (w.producers p) (w.objs r).kind.maxPayloadSize = .ok data) :
    (w.reaches (count + wireSize (dataMessage i data)) →
      ∀ r' ∈ l, (w.objs r').producer = none) ∧
    (¬w.reaches (count + wireSize (dataMessage i data)) →
      Fits w (Function.update files (w.producers p).fh { files (w.producers p).fh with
        ops := (files (w.producers p).fh).ops ++
          fetchOps (w.producers p) (w.objs r).kind.maxPayloadSize })
        (count + wireSize (dataMessage i data)) l) := by
  unfold Fits at h
  rw [hp] at h
  simpa only [hc, hf, Bool.or_self, Bool.false_eq_true, if_false, hid, hdata, hi, if_true] using h

lemma resumeProducer_none (hp : (w.objs r).producer = none) :
    (resumeProducer r).run w = .ok ⟨⟩ w := by
  unfold resumeProducer
  rw [run_get_bind, hp]
  rfl

lemma resumeProducer_some (hp : (w.objs r).producer = some p) : (resumeProducer r).run w =
    (BytesMessageProducer.go p).run (w.setProducer p fun q => { q with producing := true }) := by
  unfold resumeProducer
  rw [run_get_bind, hp]
  rfl

/-- What resuming a request has done where it returns. -/
lemma resumeRequest_ok (h : (Request.resumeProducing r).run w = .ok ⟨⟩ t) :
    ((w.objs r).producer = none ∧ t = w.setObj r fun q => { q with producing := true }) ∨
    ∃ p u, (w.objs r).producer = some p ∧ (BytesMessageProducer.go p).run
      (w.setProducer p fun q => { q with producing := true }) = .ok ⟨⟩ u ∧
      t = u.setObj r fun q => { q with producing := true } := by
  cases hp : (w.objs r).producer with
  | none =>
    have hrun := run_bind_ok (f := fun _ => modifyObj r fun q => { q with producing := true })
      (resumeProducer_none hp)
    have := h.symm.trans hrun
    cases this
    exact Or.inl ⟨rfl, rfl⟩
  | some p =>
    have hresume := resumeProducer_some hp
    cases hgo : (BytesMessageProducer.go p).run
        (w.setProducer p fun q => { q with producing := true }) with
    | ok a u =>
      have hrun := run_bind_ok (f := fun _ => modifyObj r fun q => { q with producing := true })
        (hresume.trans hgo)
      have := h.symm.trans hrun
      cases this
      exact Or.inr ⟨p, u, rfl, hgo, rfl⟩
    | error e u =>
      have hrun := run_bind_error
        (f := fun _ => modifyObj r fun q => { q with producing := true }) (hresume.trans hgo)
      have := h.symm.trans hrun
      cases this

/-- The producers of other requests are stopped at most. -/
lemma alike_resumed (hw : Tidy D w) (ht : (Request.resumeProducing r).run w = .ok ⟨⟩ t)
    {r' : ℕ} (hr' : r' ≠ r) : Alike w t r' := by
  refine ⟨objs_of_core ((frame_resumeRequest r).ok ht) r', fun p' hp' => ?_⟩
  rcases resumeRequest_ok ht with ⟨-, rfl⟩ | ⟨p, u, hp, hgo, rfl⟩
  · rfl
  · -- a producer belongs to one request
    have hne : p' ≠ p := by
      rintro rfl
      exact hr' ((hw.owner r' p' hp').2.symm.trans (hw.owner r p' hp).2)
    refine (go_others hgo hne).trans ?_
    rw [setProducer_producers_of_ne hne]

/-- A producer that is resumed and still does nothing is cancelled or finished. -/
lemma idle_of_not_live (hp : (w.objs r).producer = some p) (hreq : (w.producers p).request = r)
    (hlive : ¬Live (w.setProducer p fun q => { q with producing := true }) p) {p' : ℕ}
    (hp' : (w.objs r).producer = some p') :
    ((w.objs r).cancelled || (w.producers p').finished) = true := by
  obtain rfl : p = p' := Option.some.inj (hp.symm.trans hp')
  have hv := setProducer_producers_self w p fun q => { q with producing := true }
  by_contra hn
  simp only [Bool.or_eq_true, not_or, Bool.not_eq_true] at hn
  refine hlive ⟨by rw [hv], ?_, by rw [hv]; exact hn.2⟩
  rw [hv]
  show (w.objs (w.producers p).request).cancelled = false
  rw [hreq]
  exact hn.1

/-- **Resuming a request** leaves the rest ready. -/
lemma Ready.resumed (hw : Tidy D w) {l : List ℕ} (h : Ready (r :: l) w)
    (ht : (Request.resumeProducing r).run w = .ok ⟨⟩ t) : Ready l t := by
  obtain ⟨hnodup, hcases⟩ := h
  obtain ⟨hnot, hrest⟩ := List.nodup_cons.mp hnodup
  have hcore : t.core = w.core := (frame_resumeRequest r).ok ht
  have halike : ∀ r' ∈ l, Alike w t r' := fun r' hr' =>
    alike_resumed hw ht fun h => hnot (h ▸ hr')
  have hnone : (∀ r' ∈ l, (w.objs r').producer = none) → Ready l t := fun hl =>
    ⟨hrest, Or.inr fun r' hr' => (obj_of_core hcore r').2.1.trans (hl r' hr')⟩
  rcases hcases with ⟨count, hopen, hfits⟩ | hall
  swap
  · exact hnone fun r' hr' => hall r' (List.mem_cons_of_mem _ hr')
  have hidle : t.factory = w.factory → t.files = w.files → Fits w w.files count l →
      Ready l t := by
    intro hf hfiles hl
    refine ⟨hrest, Or.inl ⟨count, hopen.of_factory hf, fits_congr (fun c => ?_) halike ?_⟩⟩
    · exact reaches_of_config (congrArg _ hf) c
    · rwa [hfiles]
  rcases resumeRequest_ok ht with ⟨hp, rfl⟩ | ⟨p, u, hp, hgo, rfl⟩
  · exact hidle rfl rfl (fits_idle hfits fun p hp' => nomatch hp.symm.trans hp')
  let v := w.setProducer p fun q => { q with producing := true }
  have hv : v.producers p = { w.producers p with producing := true } :=
    setProducer_producers_self w p _
  have hreq : (w.producers p).request = r := (hw.owner r p hp).2
  by_cases hlive : Live v p
  · obtain ⟨i, data, -, ⟨hid, hi, hfetch, hfiles, a, ha, hfactory⟩, -⟩ := go_writes hlive hgo
    obtain ⟨-, hc, hfin⟩ := hlive
    rw [hv] at hid hfetch hfiles hc hfin
    simp only [hreq] at hid hfetch hfiles hc
    obtain ⟨hfull, hfree⟩ := fits_live hfits hp hc hfin hid hi hfetch
    by_cases hreach : w.reaches (count + wireSize (dataMessage i data))
    · exact hnone (hfull hreach)
    · have hconfig : a.factory.map Factory.config = w.factory.map Factory.config :=
        congrArg _ ha
      have hsent := (hopen.of_factory ha).sendMessage (dataMessage i data)
        fun h => hreach ((reaches_of_config hconfig _).mp h)
      refine ⟨hrest, Or.inl ⟨_, hsent.of_factory hfactory,
        fits_congr (fun c => reaches_of_config ?_ c) halike ?_⟩⟩
      · show u.factory.map Factory.config = _
        rw [hfactory, (slows_sendMessage (dataMessage i data) a).config]
        exact hconfig
      · show Fits w u.files _ l
        rw [hfiles]
        exact hfree hreach
  · have hu : u = v := by
      have := hgo.symm.trans (go_idle hlive)
      cases this
      rfl
    subst hu
    exact hidle rfl rfl (fits_idle hfits fun _ hp' => idle_of_not_live hp hreq hlive hp')

end Magicicada.Client
