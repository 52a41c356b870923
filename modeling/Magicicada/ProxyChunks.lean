import Magicicada.ProxyHeader

/-!
The proxy's stream, cut into chunks, and when a client that is fed them fails.

A cut between the CR and the LF of a line of `MAX_LINE_LEN` bytes makes it fail too.
-/

namespace Magicicada.ProxyTunnel

open Errors Bytes Wire Prog LineScan

/-! ### Feeding a client -/

/-- A call is of `clientConnectionFailed`. -/
def Call.isFailure : Call → Bool
  | .clientConnectionFailed _ => true
  | _ => false

/-- What a call passes to the `dataReceived` of the wrapped protocol. -/
def Call.passed : Call → Bytes
  | .dataReceived data => data
  | _ => []

/-- The bytes passed to the wrapped protocol so far. -/
def Client.delivered (t : Client) : Bytes := t.calls.flatMap Call.passed

lemma Client.failed_iff {t : Client} : t.Failed ↔ t.calls.any Call.isFailure = true := by
  rw [List.any_eq_true]
  constructor
  · rintro ⟨reason, h⟩
    exact ⟨_, h, rfl⟩
  · rintro ⟨c, h, hc⟩
    cases c with
    | clientConnectionFailed reason => exact ⟨reason, h⟩
    | _ => cases hc

instance : DecidablePred Client.Failed := fun _ => decidable_of_iff' _ Client.failed_iff

/-- A client that was given some chunks, and whether one of them made `dataReceived` raise. -/
structure Fed where
  client : Client
  raised : Bool := false

def Fed.receive (p : Fed) (data : Bytes) : Fed where
  client := after (dataReceived data) p.client
  raised := p.raised || (Prog.raised (dataReceived data) p.client).isSome

/-- The client of a factory after `connectionMade`. -/
def made (f : Factory) : Client := after connectionMade { factory := f }

/-- The chunks, in order. -/
def feed (f : Factory) (ds : List Bytes) : Fed := ds.foldl Fed.receive { client := made f }

variable {f : Factory} {p : Fed} {t t' : Client} {ds pre : List Bytes} {d l rest : Bytes}
  {status : Option Bytes} {h : Header}

lemma feed_snoc (ds : List Bytes) (d : Bytes) : feed f (ds ++ [d]) = (feed f ds).receive d := by
  unfold feed
  rw [List.foldl_append]
  rfl

lemma header_append (x y : Bytes) : header (x ++ y) = LineScan.run readLine (header x) y :=
  run_append ..

lemma made_fields (f : Factory) : (made f).negotiationDone = false ∧ (made f).status = none ∧
    (made f).buffer = [] ∧ (made f).calls.any Call.isFailure = false ∧ (made f).delivered = [] := by
  obtain ⟨host, port, _ | ⟨user, passwd⟩⟩ := f
  · exact ⟨rfl, rfl, rfl, rfl, rfl⟩
  · exact ⟨rfl, rfl, rfl, rfl, rfl⟩

/-! ### One chunk -/

lemma Fed.receive_failed (hp : p.raised = true ∨ p.client.Failed) (d : Bytes) :
    (p.receive d).raised = true ∨ (p.receive d).client.Failed := by
  rcases hp with hp | hp
  · exact Or.inl (by simp [receive, hp])
  · exact Or.inr ((extends_dataReceived d _).failed hp)

/-- A chunk after the tunnel is there. -/
lemma dataReceived_done (hdone : t.negotiationDone = true) (d : Bytes) :
    (dataReceived d).run t = .ok ⟨⟩ { t with calls := t.calls ++ [.dataReceived d] } := by
  rw [dataReceived, run_get_bind, if_pos hdone]
  rfl

/-- A chunk before. -/
lemma dataReceived_run (hdone : t.negotiationDone = false) (d : Bytes) : (dataReceived d).run t =
    (readLines ((t.buffer ++ d).length + 1)).run { t with buffer := t.buffer ++ d } := by
  rw [dataReceived, run_get_bind, if_neg (by simp [hdone]), run_modify_bind]

/-- The loop over a chunk, from what was read of a line. -/
lemma reads_dataReceived (hdone : t.negotiationDone = false) (hl : ¬[cr, lf] <:+: t.buffer)
    (d : Bytes) : Reads ((t.buffer ++ d).length + 1) { t with buffer := t.buffer ++ d }
      (LineScan.run readLine (.reading t.status t.buffer) d) := by
  have hreads := reads_readLines ((t.buffer ++ d).length + 1) { t with buffer := t.buffer ++ d }
    hdone (Nat.lt_succ_self _)
  rwa [run_append, run_line_start hl] at hreads

/-- A chunk has fuel enough. -/
lemma dataReceived_fueled (t : Client) (d : Bytes) :
    Prog.raised (dataReceived d) t ≠ some .outOfFuel := by
  by_cases hdone : t.negotiationDone = true
  · exact raised_ne_some (dataReceived_done hdone d) _
  · have hdone : t.negotiationDone = false := by simpa using hdone
    rw [raised_congr (dataReceived_run hdone d)]
    exact (reads_readLines _ { t with buffer := t.buffer ++ d } hdone (Nat.lt_succ_self _)).fueled

/-! ### All chunks -/

/-- The header is bad at the end of a chunk. -/
def BadCut (ds : List Bytes) : Prop := ∃ pre, pre <+: ds ∧ Bad (header pre.flatten)

lemma exists_prefix_snoc {P : List Bytes → Prop} :
    (∃ pre, pre <+: ds ++ [d] ∧ P pre) ↔ (∃ pre, pre <+: ds ∧ P pre) ∨ P (ds ++ [d]) := by
  constructor
  · rintro ⟨pre, hpre, hP⟩
    rcases List.prefix_concat_iff.mp hpre with rfl | hpre
    · exact Or.inr hP
    · exact Or.inl ⟨pre, hpre, hP⟩
  · rintro (⟨pre, hpre, hP⟩ | hP)
    · exact ⟨pre, hpre.trans (List.prefix_append ..), hP⟩
    · exact ⟨_, List.prefix_rfl, hP⟩

/-- A client that has read what the proxy has said, and has not failed. -/
inductive HasRead (t : Client) : Header → Prop
  | reading (status : Option Bytes) (l : Bytes) (hl : l.length ≤ maxLineLen)
      (hdone : t.negotiationDone = false) (hstatus : t.status = status) (hbuffer : t.buffer = l) :
      HasRead t (.reading status l)
  | done (rest : Bytes) (hdone : t.negotiationDone = true) : HasRead t (.done rest)

/-- A client that was fed some chunks. -/
structure Follows (ds : List Bytes) (p : Fed) : Prop where
  failed : BadCut ds → p.raised = true ∨ p.client.Failed
  running : ¬BadCut ds →
    p.raised = false ∧ ¬p.client.Failed ∧ HasRead p.client (header ds.flatten)

lemma badCut_snoc : BadCut (ds ++ [d]) ↔
    BadCut ds ∨ Bad (LineScan.run readLine (header ds.flatten) d) := by
  rw [← header_append]
  refine exists_prefix_snoc.trans ?_
  simp [BadCut]

lemma Fed.receive_ok (hrun : (dataReceived d).run p.client = .ok ⟨⟩ t') (hp : p.raised = false) :
    (p.receive d).client = t' ∧ (p.receive d).raised = false := by
  unfold receive
  rw [after_of_ok hrun, raised_of_ok hrun, hp]
  exact ⟨rfl, rfl⟩

lemma header_snoc (ds : List Bytes) (d : Bytes) :
    header (ds ++ [d]).flatten = LineScan.run readLine (header ds.flatten) d := by
  rw [List.flatten_append, header_append, List.flatten_singleton]

/-- A chunk after the header goes to the wrapped protocol. -/
lemma follows_done (hf : Follows ds p) (hcut : ¬BadCut ds) (hh : header ds.flatten = .done rest)
    (d : Bytes) : Follows (ds ++ [d]) (p.receive d) := by
  obtain ⟨hraised, hnot, hread⟩ := hf.running hcut
  have hscan : LineScan.run readLine (header ds.flatten) d = .done (rest ++ d) := by
    rw [hh, run_done]
  have hbad : ¬BadCut (ds ++ [d]) := by
    rw [badCut_snoc, hscan]
    exact fun h => h.elim hcut id
  rw [hh] at hread
  cases hread with
  | done _ hdone =>
    obtain ⟨hclient, hok⟩ := Fed.receive_ok (dataReceived_done hdone d) hraised
    refine ⟨fun h => absurd h hbad, fun _ => ⟨hok, ?_, ?_⟩⟩
    · rw [hclient, Client.failed_iff]
      rw [Client.failed_iff] at hnot
      simpa [Call.isFailure] using hnot
    · rw [header_snoc, hscan, hclient]
      exact .done _ hdone

/-- A chunk before the end of the header is read line by line. -/
lemma follows_reading (hf : Follows ds p) (hcut : ¬BadCut ds)
    (hh : header ds.flatten = .reading status l) (d : Bytes) :
    Follows (ds ++ [d]) (p.receive d) := by
  obtain ⟨hraised, hnot, hread⟩ := hf.running hcut
  rw [hh] at hread
  cases hread with
  | reading _ _ hl hdone hstatus hbuffer =>
    subst hstatus hbuffer
    have hreads := reads_dataReceived hdone (reading_suffix hh).1 d
    have hrun := dataReceived_run hdone d
    rw [← hh] at hreads
    generalize hscan : LineScan.run readLine (header ds.flatten) d = h at hreads
    have hbad : BadCut (ds ++ [d]) ↔ Bad h := by
      rw [badCut_snoc, hscan]
      exact or_iff_right hcut
    refine ⟨fun hb => ?_, fun hb => ?_⟩
    · rcases (fails_congr hrun).mpr (hreads.bad (hbad.mp hb)) with hr | hr
      · refine Or.inl ?_
        simp [Fed.receive, Option.isSome_iff_ne_none.mpr hr]
      · exact Or.inr hr
    rw [hbad] at hb
    rw [header_snoc, hscan]
    cases h with
    | failed => exact absurd trivial hb
    | reading status' l' =>
      obtain ⟨t', hok, hdone', hstatus', hbuffer', hcalls⟩ :=
        hreads.reading _ _ rfl (not_lt.mp hb)
      obtain ⟨hclient, hok⟩ := Fed.receive_ok (hrun.trans hok) hraised
      rw [hclient]
      refine ⟨hok, ?_, .reading _ _ (not_lt.mp hb) hdone' hstatus' hbuffer'⟩
      rwa [Client.failed_iff, hcalls, ← Client.failed_iff]
    | done rest =>
      obtain ⟨t', hok, hdone', hcalls⟩ := hreads.done _ rfl
      obtain ⟨hclient, hok⟩ := Fed.receive_ok (hrun.trans hok) hraised
      rw [hclient]
      refine ⟨hok, ?_, .done rest hdone'⟩
      rw [Client.failed_iff] at hnot ⊢
      rw [hcalls]
      simpa [Call.isFailure] using hnot

/-- **One chunk**: a client keeps following the proxy. -/
lemma follows_receive (hf : Follows ds p) (d : Bytes) : Follows (ds ++ [d]) (p.receive d) := by
  by_cases hcut : BadCut ds
  · exact ⟨fun _ => Fed.receive_failed (hf.failed hcut) d,
      fun h => absurd (badCut_snoc.mpr (Or.inl hcut)) h⟩
  cases hh : header ds.flatten with
  | reading status l => exact follows_reading hf hcut hh d
  | done rest => exact follows_done hf hcut hh d
  | failed => exact absurd ⟨ds, List.prefix_rfl, hh ▸ trivial⟩ hcut

/-- Every client follows the proxy. -/
lemma follows_feed (f : Factory) (ds : List Bytes) : Follows ds (feed f ds) := by
  induction ds using List.reverseRecOn with
  | nil =>
    obtain ⟨hdone, hstatus, hbuffer, hcalls, -⟩ := made_fields f
    refine ⟨fun h => ?_, fun _ => ⟨rfl, ?_, ?_⟩⟩
    · obtain ⟨pre, hpre, hbad⟩ := h
      rw [List.prefix_nil.mp hpre] at hbad
      exact absurd hbad (Nat.not_lt_zero _)
    · rw [Client.failed_iff, Bool.not_eq_true]
      exact hcalls
    · exact .reading _ _ (Nat.zero_le _) hdone hstatus hbuffer
  | append_singleton ds d ih =>
    rw [feed_snoc]
    exact follows_receive ih d

/-- A chunk at whose end the header is bad makes the client fail. -/
lemma failed_iff_badCut (f : Factory) (ds : List Bytes) :
    ((feed f ds).raised = true ∨ (feed f ds).client.Failed) ↔ BadCut ds := by
  refine ⟨fun h => ?_, (follows_feed f ds).failed⟩
  by_contra hcut
  obtain ⟨hraised, hnot, -⟩ := (follows_feed f ds).running hcut
  exact h.elim (fun h => Bool.false_ne_true (hraised.symm.trans h)) hnot

/-! ### A cut inside a line end -/

/-- Two chunks are cut between the CR and the LF that end a line of the header with
`MAX_LINE_LEN` bytes. -/
def TightCut (ds : List Bytes) : Prop :=
  ∃ pre post status lines line rest, ds = pre ++ post ∧ pre.flatten = lines ++ (line ++ [cr]) ∧
    post.flatten = lf :: rest ∧ header lines = .reading status [] ∧ line.length = maxLineLen ∧
    ¬[cr, lf] <:+: line

lemma TightCut.badCut (h : TightCut ds) : BadCut ds := by
  obtain ⟨pre, post, status, lines, line, rest, rfl, hpre, -, hlines, hlen, hline⟩ := h
  refine ⟨pre, List.prefix_append .., ?_⟩
  rw [hpre, header_append, hlines, run_line_start (not_infix_snoc_cr hline)]
  simp [Bad, hlen]

/-- A line that is too long stays so, unless all that is too much is the CR that ends it. -/
lemma bad_run (hl : maxLineLen < l.length) (y : Bytes) :
    Bad (LineScan.run readLine (.reading status l) y) ∨
      ∃ line rest, l = line ++ [cr] ∧ y = lf :: rest ∧ line.length = maxLineLen := by
  rcases run_cases status l y with he | ⟨x, z, rfl, hcr, he⟩
  · left
    rw [he]
    simp [Bad]
    omega
  · obtain ⟨line, hsplit⟩ := List.getLast?_eq_some_iff.mp hcr
    have hlen := congrArg List.length hsplit
    simp only [List.length_append, List.length_singleton] at hlen
    rw [he, hsplit, List.dropLast_concat]
    by_cases hlong : maxLineLen < line.length
    · left
      rw [readLine, if_pos hlong, Answer.state, run_failed]
      trivial
    · right
      have hx : x = [] := List.length_eq_zero_iff.mp (by omega)
      subst hx
      exact ⟨line, z, by simpa using hsplit, rfl, by simp at hlen; omega⟩

/-- The header is bad at the end of a chunk just when it is bad as a whole or is cut tightly. -/
lemma badCut_iff : BadCut ds ↔ Bad (header ds.flatten) ∨ TightCut ds := by
  constructor
  · rintro ⟨pre, ⟨post, rfl⟩, hbad⟩
    rw [List.flatten_append, header_append]
    cases hh : header pre.flatten with
    | failed =>
      rw [run_failed]
      exact Or.inl trivial
    | done rest =>
      rw [hh] at hbad
      exact hbad.elim
    | reading status l =>
      rw [hh] at hbad
      refine (bad_run hbad post.flatten).imp_right ?_
      rintro ⟨line, rest, rfl, hpost, hlen⟩
      obtain ⟨hline, lines, hpre, hlines⟩ := reading_suffix hh
      exact ⟨pre, post, status, lines, line, rest, rfl, hpre, hpost, hlines, hlen,
        fun h => hline (h.trans (List.prefix_append ..).isInfix)⟩
  · rintro (hbad | htight)
    · exact ⟨ds, List.prefix_rfl, hbad⟩
    · exact htight.badCut

end Magicicada.ProxyTunnel
