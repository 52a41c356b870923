import Magicicada.ProxyChunks
import Mathlib.Data.List.TakeWhile

/-!
Which line of the proxy's response decides. `lineReceived` takes every line that is not blank for
a status line, so the last of them does, and a line without a space raises.
-/

namespace Magicicada.ProxyTunnel

open Errors Bytes Wire Prog

variable {f : Factory} {t : Client} {fuel : ℕ} {s : Option Bytes} {l x : Bytes} {ls : List Bytes}

/-! ### Whole lines -/

/-- A chunk of whole lines. -/
def chunkOf (ls : List Bytes) : Bytes := ls.flatMap (· ++ [cr, lf])

@[simp] lemma chunkOf_nil : chunkOf [] = [] := rfl

@[simp] lemma chunkOf_cons (l : Bytes) (ls : List Bytes) :
    chunkOf (l :: ls) = l ++ cr :: lf :: chunkOf ls := by simp [chunkOf]

@[simp] lemma chunkOf_append (ls ls' : List Bytes) :
    chunkOf (ls ++ ls') = chunkOf ls ++ chunkOf ls' := List.flatMap_append

lemma length_le_chunkOf (ls : List Bytes) : ls.length ≤ (chunkOf ls).length := by
  induction ls with
  | nil => simp
  | cons l ls ih =>
    simp only [chunkOf_cons, List.length_cons, List.length_append]
    omega

lemma statusOf_eq_none_iff : statusOf l = none ↔ space ∉ l := by
  unfold statusOf
  cases hdrop : l.dropWhile (· ≠ space) with
  | nil =>
    rw [List.dropWhile_eq_nil_iff] at hdrop
    exact iff_of_true rfl fun hmem => by simpa using hdrop space hmem
  | cons b r =>
    have hb := List.head?_dropWhile_not (· ≠ space) l
    rw [hdrop] at hb
    obtain rfl : b = space := by simpa using hb
    refine iff_of_false (by simp) (not_not.mpr ?_)
    exact (List.dropWhile_suffix _).subset (hdrop ▸ List.mem_cons_self)

/-- The status of a response after more lines: that of the last one. -/
def statusAfter (s : Option Bytes) (ls : List Bytes) : Option Bytes :=
  ls.foldl (fun _ l => (statusOf l).map Prod.fst) s

lemma statusAfter_append (s : Option Bytes) (ls ls' : List Bytes) :
    statusAfter s (ls ++ ls') = statusAfter (statusAfter s ls) ls' := List.foldl_append ..

/-- A line that is read as a whole and is not the blank one. -/
structure Short (l : Bytes) : Prop where
  ne_nil : l ≠ []
  length : l.length ≤ maxLineLen
  whole : ¬[cr, lf] <:+: l

/-- A client that negotiates, its status and its buffer. -/
structure Negotiates (t : Client) (s : Option Bytes) (buffer : Bytes) : Prop where
  done : t.negotiationDone = false
  status : t.status = s
  buffer : t.buffer = buffer

/-- The loop takes a line. -/
lemma readLines_crlf (ht : Negotiates t s (l ++ cr :: lf :: x)) (hl : ¬[cr, lf] <:+: l)
    (fuel : ℕ) : (readLines (fuel + 1)).run t =
      (if maxLineLen < l.length then error .lineTooLong
        else do
          lineReceived l
          readLines fuel : M PUnit).run { t with buffer := x } := by
  have hpos : indexCrlf t.buffer = some l.length := by rw [ht.buffer, indexCrlf_append hl]
  rw [readLines_line fuel ht.done hpos, ht.buffer, List.take_left]
  simp

/-- The loop takes lines with a space. -/
lemma readLines_lines (hls : ∀ l ∈ ls, Short l ∧ space ∈ l) (fuel : ℕ) :
    ∀ {t : Client} {s : Option Bytes}, Negotiates t s (chunkOf ls ++ x) →
      ∃ t', Negotiates t' (statusAfter s ls) x ∧
        (readLines (fuel + ls.length)).run t = (readLines fuel).run t' := by
  induction ls with
  | nil => exact fun {t s} ht => ⟨t, ht, rfl⟩
  | cons l ls ih =>
    intro t s ht
    obtain ⟨hshort, hspace⟩ := hls l (by simp)
    obtain ⟨⟨status, message⟩, hstatus⟩ := Option.ne_none_iff_exists'.mp
      (mt statusOf_eq_none_iff.mp (not_not.mpr hspace))
    have ht' : Negotiates t s (l ++ cr :: lf :: (chunkOf ls ++ x)) :=
      ⟨ht.done, ht.status, by simp [ht.buffer]⟩
    have hline := readLines_crlf ht' hshort.whole (fuel + ls.length)
    rw [if_neg (not_lt.mpr hshort.length),
      run_bind_ok (lineReceived_status hshort.ne_nil hstatus)] at hline
    obtain ⟨t₁, ht₁, hrun⟩ := ih (fun l' hl' => hls l' (by simp [hl']))
      (t := { t with
        buffer := chunkOf ls ++ x
        status := some status
        message := some message })
      ⟨ht.done, rfl, rfl⟩
    refine ⟨t₁, ?_, hline.trans hrun⟩
    simpa [statusAfter, hstatus] using ht₁

/-! ### Chunks of whole lines -/

/-- A client that gets a chunk runs its loop with fuel enough for the lines in its buffer. -/
lemma dataReceived_lines {b c : List Bytes} (ht : Negotiates t s (chunkOf b)) : ∃ fuel,
    (dataReceived (chunkOf c)).run t =
      (readLines (fuel + 1 + (b ++ c).length)).run { t with buffer := chunkOf (b ++ c) } := by
  have hlen := length_le_chunkOf (b ++ c)
  refine ⟨(chunkOf (b ++ c)).length - (b ++ c).length, ?_⟩
  rw [dataReceived_run ht.done, ht.buffer, ← chunkOf_append]
  congr 2
  omega

/-- A chunk of lines with a space. -/
lemma dataReceived_good {b c : List Bytes} (ht : Negotiates t s (chunkOf b))
    (hls : ∀ l ∈ b ++ c, Short l ∧ space ∈ l) : ∃ t',
      (dataReceived (chunkOf c)).run t = .ok ⟨⟩ t' ∧ Negotiates t' (statusAfter s (b ++ c)) [] := by
  obtain ⟨fuel, hrun⟩ := dataReceived_lines (c := c) ht
  obtain ⟨t', ht', hlines⟩ := readLines_lines (x := []) hls (fuel + 1)
    (t := { t with buffer := chunkOf (b ++ c) }) ⟨ht.done, ht.status, by simp⟩
  have hend : (readLines (fuel + 1)).run t' = .ok ⟨⟩ t' := by
    have hrun' := readLines_partial fuel ht'.done (by rw [ht'.buffer]; rfl)
    rwa [ht'.buffer, if_neg (by simp)] at hrun'
  exact ⟨t', hrun.trans (hlines.trans hend), ht'⟩

/-- A chunk with a line without a space raises there. -/
lemma dataReceived_raises {b c ls' : List Bytes} (ht : Negotiates t s (chunkOf b))
    (hbc : b ++ c = ls ++ l :: ls') (hls : ∀ l ∈ ls, Short l ∧ space ∈ l) (hl : Short l)
    (hspace : space ∉ l) : ∃ e t', (dataReceived (chunkOf c)).run t = .error e t' := by
  obtain ⟨fuel, hrun⟩ := dataReceived_lines (c := c) ht
  rw [hbc] at hrun
  obtain ⟨t', ht', hlines⟩ := readLines_lines (x := chunkOf (l :: ls')) hls
    (fuel + 1 + ls'.length + 1) (t := { t with buffer := chunkOf (ls ++ l :: ls') })
    ⟨ht.done, ht.status, by simp⟩
  rw [chunkOf_cons] at ht'
  have hline := readLines_crlf ht' hl.whole (fuel + 1 + ls'.length)
  rw [if_neg (not_lt.mpr hl.length),
    run_bind_error (lineReceived_raises hl.ne_nil (statusOf_eq_none_iff.mpr hspace))] at hline
  have hfuel : fuel + 1 + (ls ++ l :: ls').length = fuel + 1 + ls'.length + 1 + ls.length := by
    simp only [List.length_append, List.length_cons]
    omega
  rw [hfuel] at hrun
  exact ⟨_, _, hrun.trans (hlines.trans hline)⟩

/-- A chunk that ends with the blank line. -/
lemma dataReceived_blank {b c : List Bytes} (ht : Negotiates t s (chunkOf b))
    (hbc : b ++ c = ls ++ [[]]) (hls : ∀ l ∈ ls, Short l ∧ space ∈ l) : ∃ t',
      (dataReceived (chunkOf c)).run t = .ok ⟨⟩ t' ∧
        (t'.negotiationDone = true ↔ statusAfter s ls = some connected) := by
  obtain ⟨fuel, hrun⟩ := dataReceived_lines (c := c) ht
  rw [hbc] at hrun
  obtain ⟨t', ht', hlines⟩ := readLines_lines (x := chunkOf [[]]) hls (fuel + 1 + 1)
    (t := { t with buffer := chunkOf (ls ++ [[]]) }) ⟨ht.done, ht.status, by simp⟩
  have hfuel : fuel + 1 + (ls ++ [[]]).length = fuel + 1 + 1 + ls.length := by
    simp only [List.length_append, List.length_singleton]
    omega
  rw [hfuel] at hrun
  replace hrun := hrun.trans hlines
  have hline := readLines_crlf (l := []) (x := []) ht' (by simp) (fuel + 1)
  rw [if_neg (by simp)] at hline
  let u : Client := { t' with buffer := [] }
  by_cases hconn : t'.status = some connected
  · rw [run_bind_ok (lineReceived_connected (t := u) hconn)] at hline
    exact ⟨_, hrun.trans (hline.trans (readLines_done rfl)), iff_of_true rfl (ht'.status ▸ hconn)⟩
  · rw [run_bind_ok ((lineReceived_refused (t := u) hconn).trans (error_run _ _))] at hline
    have hend := readLines_partial fuel (t := { u with
      calls := u.calls ++ [.clientConnectionFailed (.negotiation u.status u.message)] ++
        [.loseConnection] }) ht'.done rfl
    refine ⟨_, hrun.trans (hline.trans (hend.trans (if_neg (by simp [u])))), iff_of_false ?_ ?_⟩
    · simp [u, ht'.done]
    · exact ht'.status ▸ hconn

/-- A chunk that begins with a line that is too long: the others stay in the buffer. -/
lemma dataReceived_long {c : List Bytes} (ht : Negotiates t s []) (hl : ¬[cr, lf] <:+: l)
    (hlong : maxLineLen < l.length) : ∃ t',
      (dataReceived (chunkOf (l :: c))).run t = .ok ⟨⟩ t' ∧ Negotiates t' s (chunkOf c) := by
  obtain ⟨fuel, hrun⟩ := dataReceived_lines (b := []) (c := l :: c) ht
  have hline := readLines_crlf (x := chunkOf c) (t := { t with buffer := chunkOf ([] ++ l :: c) })
    ⟨ht.done, ht.status, by simp⟩ hl (fuel + 1 + c.length)
  rw [if_pos hlong, error_run] at hline
  exact ⟨_, hrun.trans hline, ht.done, ht.status, rfl⟩

/-! ### All the chunks -/

/-- What becomes of a client that is given the lines, from a status on. -/
structure Decided (p : Fed) (s : Option Bytes) (ls : List Bytes) : Prop where
  returns : (∀ l ∈ ls, space ∈ l) →
    p.raised = false ∧ (p.client.negotiationDone = true ↔ statusAfter s ls = some connected)
  raises : (¬∀ l ∈ ls, space ∈ l) → p.raised = true

lemma Fed.receive_raised {p : Fed} (hp : p.raised = true) (ds : List Bytes) :
    (ds.foldl Fed.receive p).raised = true := by
  induction ds generalizing p with
  | nil => exact hp
  | cons d ds ih => exact ih (by simp [receive, hp])

/-- The first line without a space. -/
lemma exists_first (h : ¬∀ l ∈ ls, space ∈ l) :
    ∃ pre l post, ls = pre ++ l :: post ∧ (∀ l ∈ pre, space ∈ l) ∧ space ∉ l := by
  have hsome : (ls.find? fun l => space ∉ l).isSome := by simpa using h
  obtain ⟨l, hl⟩ := Option.isSome_iff_exists.mp hsome
  obtain ⟨hspace, pre, post, rfl, hpre⟩ := List.find?_eq_some_iff_append.mp hl
  exact ⟨pre, l, post, rfl, by simpa using hpre, by simpa using hspace⟩

/-- A chunk in which a line has no space raises. -/
lemma Fed.receive_noSpace {p : Fed} {b c post : List Bytes}
    (ht : Negotiates p.client s (chunkOf b)) (hbc : b ++ c = ls ++ post)
    (hls : ∀ l ∈ ls, Short l) (hspace : ¬∀ l ∈ ls, space ∈ l) :
    (p.receive (chunkOf c)).raised = true := by
  obtain ⟨pre, l, post', rfl, hpre, hl⟩ := exists_first hspace
  rw [List.append_assoc, List.cons_append] at hbc
  obtain ⟨e, t', hrun⟩ := dataReceived_raises ht hbc
    (fun l' hl' => ⟨hls l' (by simp [hl']), hpre l' hl'⟩) (hls l (by simp)) hl
  simp [receive, raised_of_error hrun]

/-- **The chunks of a response**, when the lines `b` are in the buffer already. -/
lemma decided_chunks {css : List (List Bytes)} : ∀ {p : Fed} {s : Option Bytes} {b ls : List Bytes},
    p.raised = false → Negotiates p.client s (chunkOf b) → css ≠ [] → (∀ c ∈ css, c ≠ []) →
      b ++ css.flatten = ls ++ [[]] → (∀ l ∈ ls, Short l) →
        Decided ((css.map chunkOf).foldl Fed.receive p) s ls := by
  induction css with
  | nil => exact fun _ _ h => absurd rfl h
  | cons c css ih =>
    intro p s b ls hp ht _ hne hflat hls
    rw [List.flatten_cons, ← List.append_assoc] at hflat
    rw [List.map_cons, List.foldl_cons]
    by_cases hcss : css = []
    · -- the last chunk, which ends with the blank line
      subst hcss
      rw [List.flatten_nil, List.append_nil] at hflat
      refine ⟨fun hspace => ?_, fun hspace => Fed.receive_noSpace ht hflat hls hspace⟩
      obtain ⟨t', hrun, hdone⟩ :=
        dataReceived_blank ht hflat fun l hl => ⟨hls l hl, hspace l hl⟩
      obtain ⟨hclient, hraised⟩ := Fed.receive_ok hrun hp
      exact ⟨hraised, by rwa [List.map_nil, List.foldl_nil, hclient]⟩
    · -- the blank line is in a later chunk
      have hlater : css.flatten ≠ [] := by
        obtain ⟨c', css, rfl⟩ := List.exists_cons_of_ne_nil hcss
        simp [hne c' (by simp)]
      obtain ⟨m, x, hm⟩ := List.eq_nil_or_concat css.flatten |>.resolve_left hlater
      rw [hm, List.concat_eq_append, ← List.append_assoc] at hflat
      obtain ⟨rfl, hx⟩ := List.append_inj' hflat rfl
      have hbc : ∀ l ∈ b ++ c, Short l := fun l hl => hls l (List.mem_append_left _ hl)
      by_cases hspace : ∀ l ∈ b ++ c, space ∈ l
      · obtain ⟨t', hrun, ht'⟩ := dataReceived_good ht fun l hl => ⟨hbc l hl, hspace l hl⟩
        obtain ⟨hclient, hraised⟩ := Fed.receive_ok hrun hp
        have hm' : [] ++ css.flatten = m ++ [[]] := by
          rw [List.nil_append, hm, ← hx, List.concat_eq_append]
        have hrest := ih hraised (by rw [hclient]; exact ht') hcss
          (fun c' hc' => hne c' (by simp [hc'])) hm' fun l hl => hls l (List.mem_append_right _ hl)
        refine ⟨fun h => ?_, fun h => hrest.raises fun hm' => h fun l hl => ?_⟩
        · rw [statusAfter_append]
          exact hrest.returns fun l hl => h l (List.mem_append_right _ hl)
        · exact (List.mem_append.mp hl).elim (hspace l) (hm' l)
      · have hraised := Fed.receive_noSpace (c := c) ht (List.append_nil _).symm hbc hspace
        refine ⟨fun h => absurd (fun l hl => h l (List.mem_append_left _ hl)) hspace, fun _ => ?_⟩
        exact Fed.receive_raised hraised _

/-! ### A response -/

/-- `VERSION CODE [REASON]`. -/
def statusLine (version code : Bytes) (reason : Option Bytes) : Bytes :=
  version ++ space :: code ++ reason.elim [] (space :: ·)

/-- A status line and header lines. -/
structure Response where
  version : Bytes
  code : Bytes
  reason : Option Bytes
  headers : List Bytes
  version_space : space ∉ version
  code_space : space ∉ code
  whole : ¬[cr, lf] <:+: statusLine version code reason
  headers_short : ∀ l ∈ headers, Short l

def Response.statusLine (r : Response) : Bytes :=
  ProxyTunnel.statusLine r.version r.code r.reason

/-- A word without a space, and a space and more after it or not. -/
lemma word_split {w : Bytes} (hw : space ∉ w) (o : Option Bytes) :
    (w ++ o.elim [] (space :: ·)).takeWhile (· ≠ space) = w ∧
      (w ++ o.elim [] (space :: ·)).dropWhile (· ≠ space) = o.elim [] (space :: ·) := by
  have hp : ∀ b ∈ w, decide (b ≠ space) = true := by
    intro b hb
    rw [decide_eq_true_iff]
    rintro rfl
    exact hw hb
  rw [List.takeWhile_append_of_pos hp, List.dropWhile_append_of_pos hp]
  cases o <;> simp

/-- The status of the status line is the code. -/
lemma Response.statusOf_statusLine (r : Response) :
    statusOf r.statusLine = some (r.code, r.reason.getD []) := by
  obtain ⟨-, hversion⟩ := word_split r.version_space
    (some (r.code ++ r.reason.elim [] (space :: ·)))
  obtain ⟨htake, hdrop⟩ := word_split r.code_space r.reason
  have hline : r.statusLine = r.version ++
      (some (r.code ++ r.reason.elim [] (space :: ·))).elim [] (space :: ·) := by
    simp [Response.statusLine, ProxyTunnel.statusLine]
  rw [statusOf, hline, hversion]
  simp only [Option.elim_some]
  rw [htake, hdrop]
  cases r.reason <;> rfl

/-- The lines of a response, with the blank one at the end. -/
def Response.lines (r : Response) : List Bytes := r.statusLine :: r.headers ++ [[]]

/-- The code of a response decides whether the tunnel is there after it, and nothing is raised. -/
structure Response.Decides (r : Response) (p : Fed) : Prop where
  returns : p.raised = false
  established_iff : p.client.negotiationDone = true ↔ r.code = connected

/-- The lines whose status is taken. A status line that is too long is an error, and what follows
it in its chunk is looked at when the next one comes. -/
def Response.taken (r : Response) (css : List (List Bytes)) : List Bytes :=
  if r.statusLine.length ≤ maxLineLen then r.statusLine :: r.headers
  else if css.tail = [] then [] else r.headers

/-- Every line taken has a space, and the last one has the status 200 when the code is 200. -/
def Response.Agrees (r : Response) (css : List (List Bytes)) : Prop :=
  (∀ l ∈ r.taken css, space ∈ l) ∧
    (statusAfter none (r.taken css) = some connected ↔ r.code = connected)

lemma Decided.iff_agrees {r : Response} {p : Fed} {css : List (List Bytes)}
    (h : Decided p none (r.taken css)) : r.Decides p ↔ r.Agrees css := by
  constructor
  · intro hd
    by_cases hspace : ∀ l ∈ r.taken css, space ∈ l
    · exact ⟨hspace, (h.returns hspace).2.symm.trans hd.established_iff⟩
    · exact absurd (hd.returns.symm.trans (h.raises hspace)) Bool.false_ne_true
  · rintro ⟨hspace, hstatus⟩
    obtain ⟨hraised, hdone⟩ := h.returns hspace
    exact ⟨hraised, hdone.trans hstatus⟩

/-- The chunks of a response whose lines are taken. -/
lemma decided_response (f : Factory) (r : Response) {css : List (List Bytes)}
    (hne : ∀ c ∈ css, c ≠ []) (hlines : css.flatten = r.lines) :
    Decided (feed f (css.map chunkOf)) none (r.taken css) := by
  obtain ⟨hdone, hstatus, hbuffer, -⟩ := made_fields f
  have ht : Negotiates (made f) none (chunkOf []) := ⟨hdone, hstatus, hbuffer⟩
  have hwhole : ¬[cr, lf] <:+: r.statusLine := r.whole
  obtain ⟨c, css, rfl⟩ : ∃ c css', css = c :: css' := by
    refine List.exists_cons_of_ne_nil ?_
    rintro rfl
    simp [Response.lines] at hlines
  unfold Response.taken
  split
  · next hshort =>
    refine decided_chunks (b := []) rfl ht (List.cons_ne_nil _ _) hne hlines fun l hl => ?_
    rcases List.mem_cons.mp hl with rfl | hl
    · exact ⟨by simp [Response.statusLine, statusLine], hshort, hwhole⟩
    · exact r.headers_short l hl
  · next hlong =>
    obtain ⟨l, c, rfl⟩ := List.exists_cons_of_ne_nil (hne c (by simp))
    rw [List.flatten_cons, Response.lines, List.cons_append, List.cons_append,
      List.cons.injEq] at hlines
    obtain ⟨rfl, hrest⟩ := hlines
    obtain ⟨t', hrun, ht'⟩ := dataReceived_long (c := c) ht hwhole (not_le.mp hlong)
    obtain ⟨hclient, hraised⟩ := Fed.receive_ok (p := { client := made f }) hrun rfl
    rw [feed, List.map_cons, List.foldl_cons]
    split
    · next hlast =>
      obtain rfl : css = [] := hlast
      rw [List.map_nil, List.foldl_nil]
      refine ⟨fun _ => ⟨hraised, ?_⟩, fun h => absurd (by simp) h⟩
      rw [hclient, ht'.done]
      simp [statusAfter]
    · next hmore =>
      exact decided_chunks hraised (by rw [hclient]; exact ht') hmore
        (fun c' hc' => hne c' (by simp [hc'])) hrest r.headers_short

/-- **The code of a response decides** exactly when the lines taken agree with it. -/
theorem decides_iff (f : Factory) (r : Response) (css : List (List Bytes))
    (hne : ∀ c ∈ css, c ≠ []) (hlines : css.flatten = r.lines) :
    r.Decides (feed f (css.map chunkOf)) ↔ r.Agrees css :=
  (decided_response f r hne hlines).iff_agrees

/-- Without header lines the status line decides. -/
lemma Response.agrees_of_headers_nil {r : Response} (h : r.headers = [])
    (hshort : r.statusLine.length ≤ maxLineLen) (css : List (List Bytes)) : r.Agrees css := by
  have htaken : r.taken css = [r.statusLine] := by rw [taken, if_pos hshort, h]
  refine ⟨fun l hl => ?_, ?_⟩
  · rw [htaken] at hl
    obtain rfl := List.mem_singleton.mp hl
    simp [Response.statusLine, ProxyTunnel.statusLine]
  · rw [htaken]
    simp [statusAfter, r.statusOf_statusLine]

/-- The response of a proxy that connects and says who it is. -/
def withHeader : Response where
  version := utf8 "HTTP/1.1"
  code := connected
  reason := some (utf8 "OK")
  headers := [utf8 "Proxy-Agent: squid"]
  version_space := by decide
  code_space := by decide
  whole := by decide
  headers_short := by
    intro l hl
    obtain rfl := List.mem_singleton.mp hl
    exact ⟨by decide, by decide, by decide⟩

/-- The status it ends with is `squid`. -/
theorem not_decides : ¬∀ (f : Factory) (r : Response) (css : List (List Bytes)),
    (∀ c ∈ css, c ≠ []) → css.flatten = r.lines → r.Decides (feed f (css.map chunkOf)) := by
  intro h
  have hd := h ⟨"localhost", 443, none⟩ withHeader [withHeader.lines] (by decide) (by decide)
  exact absurd (hd.established_iff.mpr rfl) (by decide)

/-- A header line whose second word is the status. -/
theorem decides_iff_header : ∃ r : Response, r.headers = [utf8 "Warning: 200 none"] ∧
    r.Decides (feed ⟨"localhost", 443, none⟩ [chunkOf r.lines]) := by
  let r : Response := { withHeader with
    headers := [utf8 "Warning: 200 none"]
    headers_short := by
      intro l hl
      obtain rfl := List.mem_singleton.mp hl
      exact ⟨by decide, by decide, by decide⟩ }
  have hagrees : r.Agrees [r.lines] := ⟨by decide, by decide⟩
  exact ⟨r, rfl, (decides_iff ⟨"localhost", 443, none⟩ r [r.lines] (by decide)
    (by decide)).mpr hagrees⟩

end Magicicada.ProxyTunnel
