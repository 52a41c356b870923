import Mathlib.Tactic

/-!
Reading length-prefixed frames, over any alphabet.

A frame is a header of `k` symbols, whose value is the length of the body, and the body. The
reader takes frames off a whole stream; the scan takes the stream one symbol at a time and
so does not care how the stream is cut. A frame of length zero is delivered when the symbol
after it is read, and nothing is delivered once a header announced more than `max` symbols.
-/

namespace Magicicada.FrameScan

variable {α : Type} (k : ℕ) (size : List α → ℕ) (max : ℕ)

/-- The bodies of the frames of a stream, each as soon as it is complete and, if it is
empty, as soon as something follows it. -/
def reader [NeZero k] (s : List α) : List (List α) :=
  if s.length < k then []
  else if max < size (s.take k) then []
  else if (s.drop k).length < size (s.take k) ∨ s.drop k = [] then []
  else (s.drop k).take (size (s.take k)) :: reader ((s.drop k).drop (size (s.take k)))
termination_by s.length
decreasing_by
  have := NeZero.pos k
  simp only [List.length_drop]; omega

/-- Where a scan stands: in a header, in the body of a frame of length `n`, or past a header
that announced too much. -/
inductive Phase (α : Type)
  | header (buf : List α)
  | body (n : ℕ) (buf : List α)
  | dead

/-- A scan, with the bodies it delivered. -/
structure Scan (α : Type) where
  phase : Phase α
  out : List (List α)

def init : Scan α := ⟨.header [], []⟩

/-- The phase once `buf` has been read of a header. -/
def header (buf : List α) : Phase α :=
  if buf.length = k then
    if max < size buf then .dead else .body (size buf) []
  else .header buf

def step (s : Scan α) (x : α) : Scan α :=
  match s.phase with
  | .header buf => ⟨header k size max (buf ++ [x]), s.out⟩
  | .body n buf =>
    if n = 0 then ⟨header k size max [x], s.out ++ [[]]⟩
    else if buf.length + 1 = n then ⟨.header [], s.out ++ [buf ++ [x]]⟩
    else ⟨.body n (buf ++ [x]), s.out⟩
  | .dead => s

def run (s : Scan α) (w : List α) : Scan α := w.foldl (step k size max) s

@[simp] lemma run_nil (s : Scan α) : run k size max s [] = s := rfl
@[simp] lemma run_cons (s : Scan α) (x : α) (w : List α) :
    run k size max s (x :: w) = run k size max (step k size max s x) w := rfl
lemma run_append (s : Scan α) (u v : List α) :
    run k size max s (u ++ v) = run k size max (run k size max s u) v := by
  simp [run, List.foldl_append]

variable {k size max}

/-! ### Several symbols at once -/

lemma run_dead (o : List (List α)) (w : List α) :
    run k size max ⟨.dead, o⟩ w = ⟨.dead, o⟩ := by
  induction w with
  | nil => rfl
  | cons x w ih => rw [run_cons]; exact ih

/-- Symbols that do not complete a header are kept. -/
lemma run_header_short {buf w : List α} (o : List (List α)) (h : buf.length + w.length < k) :
    run k size max ⟨.header buf, o⟩ w = ⟨.header (buf ++ w), o⟩ := by
  induction w generalizing buf with
  | nil => simp
  | cons x w ih =>
    simp only [List.length_cons] at h
    have hs : step k size max ⟨.header buf, o⟩ x = ⟨.header (buf ++ [x]), o⟩ := by
      simp only [step, header, List.length_append, List.length_singleton]
      rw [if_neg (by omega)]
    rw [run_cons, hs, ih (by simp only [List.length_append, List.length_singleton]; omega)]
    simp

/-- Symbols that complete a header decide what follows. -/
lemma run_header_full {buf w : List α} (o : List (List α)) (hw : w ≠ [])
    (h : buf.length + w.length = k) :
    run k size max ⟨.header buf, o⟩ w = ⟨header k size max (buf ++ w), o⟩ := by
  obtain ⟨u, x, rfl⟩ : ∃ u x, w = u ++ [x] := ⟨_, _, (List.dropLast_append_getLast hw).symm⟩
  simp only [List.length_append, List.length_singleton] at h
  rw [run_append, run_header_short o (by omega), run_cons, run_nil]
  simp [step]

/-- Symbols that do not complete a body are kept. -/
lemma run_body_short {n : ℕ} {buf w : List α} (o : List (List α))
    (h : buf.length + w.length < n) :
    run k size max ⟨.body n buf, o⟩ w = ⟨.body n (buf ++ w), o⟩ := by
  induction w generalizing buf with
  | nil => simp
  | cons x w ih =>
    simp only [List.length_cons] at h
    have hs : step k size max ⟨.body n buf, o⟩ x = ⟨.body n (buf ++ [x]), o⟩ := by
      simp only [step]
      rw [if_neg (by omega), if_neg (by omega)]
    rw [run_cons, hs, ih (by simp only [List.length_append, List.length_singleton]; omega)]
    simp

/-- Symbols that complete a body deliver it. -/
lemma run_body_full {n : ℕ} {buf w : List α} (o : List (List α)) (hw : w ≠ [])
    (h : buf.length + w.length = n) :
    run k size max ⟨.body n buf, o⟩ w = ⟨.header [], o ++ [buf ++ w]⟩ := by
  obtain ⟨u, x, rfl⟩ : ∃ u x, w = u ++ [x] := ⟨_, _, (List.dropLast_append_getLast hw).symm⟩
  simp only [List.length_append, List.length_singleton] at h
  rw [run_append, run_body_short o (by omega), run_cons, run_nil]
  simp only [step, List.length_append]
  rw [if_neg (by omega), if_pos (by omega)]
  simp

/-- An empty body is delivered by whatever symbol follows, which goes to the next header. -/
lemma run_body_zero {buf w : List α} (o : List (List α)) (hw : w ≠ []) :
    run k size max ⟨.body 0 buf, o⟩ w = run k size max ⟨.header [], o ++ [[]]⟩ w := by
  cases w with
  | nil => exact absurd rfl hw
  | cons x w => simp [step]

/-- What was delivered earlier has no influence. -/
lemma run_out (p : Phase α) (o w : List (List α)) (v : List α) :
    run k size max ⟨p, o ++ w⟩ v =
      ⟨(run k size max ⟨p, w⟩ v).phase, o ++ (run k size max ⟨p, w⟩ v).out⟩ := by
  induction v generalizing p w with
  | nil => rfl
  | cons x v ih =>
    rw [run_cons, run_cons]
    have hs : step k size max ⟨p, o ++ w⟩ x =
        ⟨(step k size max ⟨p, w⟩ x).phase, o ++ (step k size max ⟨p, w⟩ x).out⟩ := by
      cases p with
      | header buf => rfl
      | body n buf => simp only [step]; split_ifs <;> simp
      | dead => rfl
    rw [hs, ih]

/-! ### The scan delivers what the reader takes -/

/-- A stream with a whole header in front leaves the scan where the header puts it. -/
lemma run_init_header [NeZero k] {s : List α} (h : k ≤ s.length) :
    run k size max init s =
      run k size max ⟨header k size max (s.take k), []⟩ (s.drop k) := by
  have hlen : (s.take k).length = k := by simpa using h
  have hne : s.take k ≠ [] := by
    intro h0
    rw [h0] at hlen
    exact NeZero.ne k hlen.symm
  conv_lhs => rw [← List.take_append_drop k s]
  rw [run_append, init, run_header_full [] hne (by simpa using hlen), List.nil_append]

lemma run_header_out (o w : List α) :
    (run k size max ⟨.header [], [o]⟩ w).out = o :: (run k size max init w).out := by
  rw [← List.append_nil [o], run_out]
  rfl

/-- **The scan of a whole stream delivers the bodies the reader takes off it.** -/
theorem run_init_out [NeZero k] (s : List α) :
    (run k size max init s).out = reader k size max s := by
  induction s using reader.induct k size max with
  | case1 s h =>
    rw [reader, if_pos h, init, run_header_short [] (by simpa using h)]
  | case2 s h hbig =>
    have hlen : (s.take k).length = k := by simp; omega
    rw [reader, if_neg h, if_pos hbig, run_init_header (by omega), header, if_pos hlen,
      if_pos hbig, run_dead]
  | case3 s h hbig hshort =>
    have hlen : (s.take k).length = k := by simp; omega
    rw [reader, if_neg h, if_neg hbig, if_pos hshort, run_init_header (by omega), header,
      if_pos hlen, if_neg hbig]
    rcases hshort with hs | hs
    · rw [run_body_short [] (by simpa using hs)]
    · rw [hs, run_nil]
  | case4 s h hbig hshort ih =>
    have hlen : (s.take k).length = k := by simp; omega
    rw [reader, if_neg h, if_neg hbig, if_neg hshort, run_init_header (by omega), header,
      if_pos hlen, if_neg hbig, ← ih]
    obtain ⟨hge, hne⟩ := not_or.mp hshort
    generalize size (s.take k) = n at *
    generalize s.drop k = r at *
    rcases Nat.eq_zero_or_pos n with rfl | hpos
    · rw [run_body_zero [] hne]
      exact run_header_out [] r
    · have hlen' : (r.take n).length = n := by simp; omega
      have hne' : r.take n ≠ [] := by
        intro h0
        rw [h0] at hlen'
        exact hpos.ne hlen'
      conv_lhs => rw [← List.take_append_drop n r]
      rw [run_append, run_body_full [] hne' (by simpa using hlen')]
      exact run_header_out _ _

/-! ### Frames written by a sender -/

/-- A header and the body it announces are taken as one frame. -/
lemma run_frame {h p : List α} (o : List (List α)) (hk : 0 < k) (hh : h.length = k)
    (hs : size h = p.length) (hp : p ≠ []) (hmax : p.length ≤ max) :
    run k size max ⟨.header [], o⟩ (h ++ p) = ⟨.header [], o ++ [p]⟩ := by
  have hne : h ≠ [] := by
    rintro rfl
    exact hk.ne hh
  have hhead : header k size max ([] ++ h) = .body p.length [] := by
    rw [List.nil_append, header, if_pos hh, hs, if_neg (by omega)]
  rw [run_append, run_header_full o hne (by simpa using hh), hhead, run_body_full o hp (by simp),
    List.nil_append]

/-- **The frames of a list of bodies are taken as these bodies**, and nothing is left. -/
theorem run_frames {enc : ℕ → List α} (hk : 0 < k) {ps : List (List α)}
    (henc : ∀ p ∈ ps, (enc p.length).length = k ∧ size (enc p.length) = p.length)
    (hps : ∀ p ∈ ps, p ≠ [] ∧ p.length ≤ max) (o : List (List α)) :
    run k size max ⟨.header [], o⟩ (ps.flatMap fun p => enc p.length ++ p) =
      ⟨.header [], o ++ ps⟩ := by
  induction ps generalizing o with
  | nil => simp
  | cons p ps ih =>
    obtain ⟨hl, hs⟩ := henc p (by simp)
    obtain ⟨hne, hmax⟩ := hps p (by simp)
    rw [List.flatMap_cons, run_append, run_frame o hk hl hs hne hmax,
      ih (fun q hq => henc q (by simp [hq])) (fun q hq => hps q (by simp [hq]))]
    simp

/-- The frames taken off a stream are no longer than the stream. -/
lemma reader_length [NeZero k] (s : List α) :
    ((reader k size max s).map fun p => k + p.length).sum ≤ s.length := by
  induction s using reader.induct k size max with
  | case1 s h => rw [reader, if_pos h]; simp
  | case2 s h hbig => rw [reader, if_neg h, if_pos hbig]; simp
  | case3 s h hbig hshort => rw [reader, if_neg h, if_neg hbig, if_pos hshort]; simp
  | case4 s h hbig hshort ih =>
    rw [reader, if_neg h, if_neg hbig, if_neg hshort]
    simp only [List.map_cons, List.sum_cons, List.length_take, List.length_drop] at ih ⊢
    omega

end Magicicada.FrameScan
