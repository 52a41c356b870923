import Magicicada.Framing

/-!
The hello line of the server: `StorageClient.dataReceived`.

In line mode each chunk is searched for CR LF on its own, and dropped when it has none. What
the client reads is therefore right when the CR LF that ends the hello line arrives in one
chunk, and only then.
-/

namespace Magicicada.Hello

open Errors Bytes Prog Framing

structure Client (σ : Type) where
  lineMode : Bool := true
  handler : Handler σ

/-- The client `__init__` makes. -/
def connected {σ : Type} (a : σ) : Client σ := { handler := fresh a }

variable {σ : Type} (deliver : Bytes → EStateM Exn σ PUnit)

/-- `RequestHandler.dataReceived(self, data)`. -/
def handlerDataReceived (data : Bytes) : EStateM Exn (Client σ) PUnit :=
  focus Client.handler (fun h c => { c with handler := h }) (Framing.dataReceived deliver data)

/-- `StorageClient.dataReceived`. -/
def dataReceived (data : Bytes) : EStateM Exn (Client σ) PUnit := do
  let c ← get
  if c.lineMode then
    match indexCrlf data with
    | none => pure ()
    | some pos => do
      modify fun c => { c with lineMode := false }
      let skip := pos + 2
      handlerDataReceived deliver (data.drop skip)
  else handlerDataReceived deliver data

/-- Chunks handed to `dataReceived` one after another, whatever it raises. -/
def feed (c : Client σ) (chunks : List Bytes) : Client σ :=
  chunks.foldl (fun c d => after (dataReceived deliver d) c) c

/-- The bytes `RequestHandler.sendMessage` writes for a serialised message. -/
def frame (m : Bytes) : Bytes := packSize m.length ++ m

variable {deliver}

lemma after_handlerDataReceived (data : Bytes) (c : Client σ) :
    after (handlerDataReceived deliver data) c =
      { c with handler := after (Framing.dataReceived deliver data) c.handler } := by
  unfold after handlerDataReceived
  rw [run_focus]
  cases (Framing.dataReceived deliver data).run c.handler <;> rfl

/-- A chunk without CR LF is dropped in line mode. -/
lemma dataReceived_line {c : Client σ} {data : Bytes} (hm : c.lineMode = true)
    (hd : indexCrlf data = none) : after (dataReceived deliver data) c = c := by
  simp [dataReceived, after, hm, hd]

/-- What follows the first CR LF of a chunk goes to the framing. -/
lemma dataReceived_crlf {c : Client σ} {data : Bytes} {pos : ℕ} (hm : c.lineMode = true)
    (hd : indexCrlf data = some pos) :
    after (dataReceived deliver data) c =
      { lineMode := false
        handler := after (Framing.dataReceived deliver (data.drop (pos + 2))) c.handler } := by
  have : after (dataReceived deliver data) c =
      after (handlerDataReceived deliver (data.drop (pos + 2))) { c with lineMode := false } := by
    simp [dataReceived, after, hm, hd]
  rw [this, after_handlerDataReceived]

lemma feed_binary (chunks : List Bytes) (h : Handler σ) :
    feed deliver ⟨false, h⟩ chunks = ⟨false, Framing.feed deliver h chunks⟩ := by
  induction chunks generalizing h with
  | nil => rfl
  | cons d chunks ih =>
    have : after (dataReceived deliver d) ⟨false, h⟩ =
        ⟨false, after (Framing.dataReceived deliver d) h⟩ := by
      rw [← after_handlerDataReceived d ⟨false, h⟩]
      rfl
    exact (congrArg (feed deliver · chunks) this).trans (ih _)

/-! ### Line mode -/

/-- The hello line is not seen to end while no chunk has CR LF. -/
lemma feed_line {chunks : List Bytes} {c : Client σ} (hm : c.lineMode = true)
    (hc : ∀ d ∈ chunks, indexCrlf d = none) : feed deliver c chunks = c := by
  induction chunks with
  | nil => rfl
  | cons d chunks ih =>
    have : after (dataReceived deliver d) c = c := dataReceived_line hm (hc d (by simp))
    exact (congrArg (feed deliver · chunks) this).trans (ih fun e he => hc e (by simp [he]))

/-- The first chunk with CR LF ends line mode, and what follows in it and in the chunks
after it is read as one stream of frames. -/
lemma feed_crlf (hok : ∀ b a, raised (deliver b) a = none) (a : σ) {d : Bytes} {pos : ℕ}
    {chunks : List Bytes} (hd : indexCrlf d = some pos) (hne : ∀ e ∈ chunks, e ≠ []) :
    (feed deliver (connected a) (d :: chunks)).lineMode = false ∧
      Reads (feed deliver (connected a) (d :: chunks)).handler
        (scan FrameScan.init (d.drop (pos + 2) ++ chunks.flatten)) := by
  have hfeed : feed deliver (connected a) (d :: chunks) = ⟨false, Framing.feed deliver
      (after (Framing.dataReceived deliver (d.drop (pos + 2))) (fresh a)) chunks⟩ := by
    exact (congrArg (feed deliver · chunks) (dataReceived_crlf rfl hd)).trans (feed_binary _ _)
  have hfirst : Reads (after (Framing.dataReceived deliver (d.drop (pos + 2))) (fresh a))
      (scan FrameScan.init (d.drop (pos + 2))) :=
    dataReceived_reads hok (reads_fresh a) (Or.inr (Nat.succ_pos 3))
  rw [hfeed, scan_append]
  exact ⟨rfl, feed_reads hok hfirst hne⟩

/-- A fresh client that is fed chunks is still in line mode, or has read as frames what
follows some CR LF. -/
lemma feed_cases (hok : ∀ b a, raised (deliver b) a = none) (a : σ) {chunks : List Bytes}
    (hne : ∀ d ∈ chunks, d ≠ []) :
    (feed deliver (connected a) chunks).lineMode = true ∨
      ∃ r : Bytes, r.length + 2 ≤ chunks.flatten.length ∧
        (feed deliver (connected a) chunks).handler.payloads = reader r := by
  induction chunks with
  | nil => exact Or.inl rfl
  | cons d chunks ih =>
    cases hd : indexCrlf d with
    | none =>
      have hfeed : feed deliver (connected a) (d :: chunks) = feed deliver (connected a) chunks :=
        congrArg (feed deliver · chunks) (dataReceived_line rfl hd)
      rw [hfeed]
      refine (ih fun e he => hne e (by simp [he])).imp_right ?_
      rintro ⟨r, hr, hp⟩
      refine ⟨r, ?_, hp⟩
      rw [List.flatten_cons, List.length_append]; omega
    | some pos =>
      right
      have hne' : ∀ e ∈ chunks, e ≠ [] := fun e he => hne e (by simp [he])
      obtain ⟨-, hreads⟩ := feed_crlf hok a hd hne'
      refine ⟨d.drop (pos + 2) ++ chunks.flatten, ?_, hreads.2.trans (FrameScan.run_init_out _)⟩
      have := indexCrlf_le hd
      simp only [List.flatten_cons, List.length_append, List.length_drop]; omega

/-! ### The hello line whole, and cut -/

/-- When no chunk ends between the CR and the LF of the hello line, what follows the line is
read as frames. -/
lemma feed_whole (hok : ∀ b a, raised (deliver b) a = none) (a : σ) (r : Bytes) :
    ∀ {chunks : List Bytes} {l : Bytes}, (∀ d ∈ chunks, d ≠ []) → ¬ [cr, lf] <:+: l →
      chunks.flatten = l ++ cr :: lf :: r →
      (¬ ∃ pre, pre <+: chunks ∧ pre.flatten = l ++ [cr]) →
      (feed deliver (connected a) chunks).lineMode = false ∧
        Reads (feed deliver (connected a) chunks).handler (scan FrameScan.init r)
  | [], l, _, _, hflat, _ => by simp at hflat
  | d :: chunks, l, hne, hl, hflat, hcut => by
    have hne' : ∀ e ∈ chunks, e ≠ [] := fun e he => hne e (by simp [he])
    -- a chunk inside the line, the rest of which is `l'`
    have inside : ∀ l' : Bytes, l = d ++ l' → chunks.flatten = l' ++ cr :: lf :: r →
        (feed deliver (connected a) (d :: chunks)).lineMode = false ∧
          Reads (feed deliver (connected a) (d :: chunks)).handler (scan FrameScan.init r) := by
      intro l' hd hrest
      have hdn : indexCrlf d = none := indexCrlf_eq_none_iff.mpr fun hi =>
        hl (hi.trans (hd ▸ (List.prefix_append d l').isInfix))
      have hl' : ¬ [cr, lf] <:+: l' := fun hi =>
        hl (hi.trans (hd ▸ (List.suffix_append d l').isInfix))
      have hfeed : feed deliver (connected a) (d :: chunks) = feed deliver (connected a) chunks :=
        congrArg (feed deliver · chunks) (dataReceived_line rfl hdn)
      rw [hfeed]
      refine feed_whole hok a r hne' hl' hrest ?_
      rintro ⟨pre, hpre, hp⟩
      exact hcut ⟨d :: pre, by simpa using hpre, by simp [hp, hd]⟩
    rw [List.flatten_cons] at hflat
    rcases List.append_eq_append_iff.mp hflat with ⟨l', hd, hrest⟩ | ⟨e, hd, hrest⟩
    · exact inside l' hd hrest
    · match e, hd, hrest with
      | [], hd, hrest => exact inside [] (by simpa using hd.symm) hrest.symm
      | [x], hd, hrest =>
        simp only [List.cons_append, List.nil_append, List.cons.injEq] at hrest
        exact absurd ⟨[d], by simp, by simp [hd, hrest.1]⟩ hcut
      | x :: y :: e, hd, hrest =>
        simp only [List.cons_append, List.cons.injEq] at hrest
        obtain ⟨rfl, rfl, rfl⟩ := hrest
        have hpos : indexCrlf d = some l.length := hd ▸ indexCrlf_append hl e
        have hdrop : d.drop (l.length + 2) = e := by
          rw [hd, List.drop_append]; simp
        have := feed_crlf hok a hpos hne'
        rwa [hdrop] at this

lemma scan_frames {ps : List Bytes} (hps : ∀ p ∈ ps, p ≠ [] ∧ p.length ≤ maxMessageSize) :
    scan FrameScan.init (ps.flatMap frame) = ⟨.header [], ps⟩ := by
  refine FrameScan.run_frames (Nat.succ_pos 3) (fun p hp => ⟨rfl, bigEndian_packSize ?_⟩) hps []
  have := (hps p hp).2
  simp only [maxMessageSize] at this; omega

/-- The payloads reached `processMessage`, and the client is past the hello line with nothing
pending. -/
def HelloRead (ps : List Bytes) (c : Client σ) : Prop :=
  c.handler.payloads = ps ∧ c.lineMode = false ∧ c.handler.pendingParts.flatten = []

/-- **The client reads the hello line and the frames after it if and only if no chunk ends
between the CR and the LF of the hello line.** -/
theorem helloRead_iff (hok : ∀ b a, raised (deliver b) a = none) (a : σ) {l : Bytes}
    (hl : ¬ [cr, lf] <:+: l) {ps : List Bytes}
    (hps : ∀ p ∈ ps, p ≠ [] ∧ p.length ≤ maxMessageSize) {chunks : List Bytes}
    (hne : ∀ d ∈ chunks, d ≠ []) (hflat : chunks.flatten = l ++ [cr, lf] ++ ps.flatMap frame) :
    HelloRead ps (feed deliver (connected a) chunks) ↔
      ¬ ∃ pre, pre <+: chunks ∧ pre.flatten = l ++ [cr] := by
  rw [List.append_assoc, List.cons_append, List.cons_append, List.nil_append] at hflat
  constructor
  · rintro ⟨hpay, hmode, -⟩ ⟨pre, ⟨post, rfl⟩, hpre⟩
    -- the chunks up to the CR are dropped one by one
    have hnone : ∀ d ∈ pre, indexCrlf d = none := by
      intro d hd
      rw [indexCrlf_eq_none_iff]
      intro hi
      refine not_infix_snoc_cr hl ?_
      rw [← hpre]
      exact hi.trans (List.infix_of_mem_flatten hd)
    have hfeed : feed deliver (connected a) (pre ++ post) = feed deliver (connected a) post := by
      have : feed deliver (connected a) pre = connected a := feed_line rfl hnone
      rw [feed, List.foldl_append]
      exact congrArg (feed deliver · post) this
    have hpost : post.flatten = lf :: ps.flatMap frame := by
      rw [List.flatten_append, hpre, List.append_assoc] at hflat
      simpa using hflat
    rw [hfeed] at hpay hmode
    have hne' : ∀ d ∈ post, d ≠ [] := fun d hd => hne d (by simp [hd])
    rcases feed_cases hok a hne' with h | ⟨r, hr, h⟩
    · rw [h] at hmode
      cases hmode
    · -- too few bytes are left for all the frames
      have hlen : ((reader r).map fun p => sizeFmtSize + p.length).sum ≤ r.length :=
        FrameScan.reader_length r
      have hps' : reader r = ps := h.symm.trans hpay
      have hsum : (ps.flatMap frame).length = (ps.map fun p => sizeFmtSize + p.length).sum := by
        rw [List.length_flatMap]
        refine congrArg List.sum (List.map_congr_left fun p _ => ?_)
        simp [frame, sizeFmtSize]
      rw [hps', ← hsum] at hlen
      rw [hpost, List.length_cons] at hr
      omega
  · intro hcut
    obtain ⟨hmode, hreads⟩ := feed_whole hok a (ps.flatMap frame) hne hl hflat hcut
    rw [scan_frames hps] at hreads
    obtain ⟨hrep, hpay⟩ := hreads
    refine ⟨hpay, hmode, ?_⟩
    cases hrep with
    | header _ w p l pos => exact p

/-- A hello line and a frame, cut inside both but not inside the CR LF. -/
theorem helloRead_example :
    HelloRead [[8, 2]] (feed (fun _ => pure ⟨⟩) (connected ()) [[72], [73, 13, 10, 0], [0, 0, 2, 8],
      [2]]) ↔ ¬ ∃ pre, pre <+: [[72], [73, 13, 10, 0], [0, 0, 2, 8], [2]] ∧
        pre.flatten = [72, 73] ++ [cr] :=
  helloRead_iff (fun _ _ => rfl) () (by decide) (by decide) (by decide) (by decide)

/-- The same stream cut between CR and LF: the line never ends and the frame is lost. -/
theorem helloRead_cut : ¬ ∀ (l : Bytes) (ps chunks : List Bytes), ¬ [cr, lf] <:+: l →
    (∀ p ∈ ps, p ≠ [] ∧ p.length ≤ maxMessageSize) → (∀ d ∈ chunks, d ≠ []) →
    chunks.flatten = l ++ [cr, lf] ++ ps.flatMap frame →
    HelloRead ps (feed (fun _ => pure ⟨⟩) (connected ()) chunks) := by
  intro h
  have := h [72, 73] [[8, 2]] [[72, 73, 13], [10, 0, 0, 0, 2, 8, 2]] (by decide) (by decide)
    (by decide) (by decide)
  exact absurd this.2.1 (by decide)

end Magicicada.Hello
