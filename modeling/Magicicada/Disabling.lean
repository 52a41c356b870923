import Magicicada.Rejecting
import Magicicada.Resets
import Magicicada.Unthrottle

/-!
Turning throttling off. `disable_throttling` cancels the delayed calls of the factory, and then
ends the throttles, which resumes the uploads of the client. Throttling is on until they are
resumed, so what they write may bring the throttle back.
-/

namespace Magicicada.Client

open Pb Errors Bytes Framing Fields Requests Prog

variable {D : Prop} {s t u w : World} {d : Dir} {r p k : ℕ} {func : Func}

/-! ### Runs of a factory and its client -/

/-- The events of a run of a factory with a connected client; the ids of messages fit their
field. -/
def AdmitsFactory (w : World) : FactoryEvent → Prop
  | .client e => AdmitsAny w e ∧ (∀ m raises, e = .message m raises → int32 m.id = true) ∧
    ∀ reason, e ≠ .lost reason
  | _ => True

lemma AdmitsFactory.connected {e : FactoryEvent} (h : AdmitsFactory w e) : Connected e := by
  cases e with
  | client e =>
    cases e with
    | lost reason => exact absurd rfl (h.2.2 reason)
    | _ => trivial
  | _ => trivial

/-- The conditions on acts that may do anything. -/
def Terms.unbound : Terms := ⟨False, True, False⟩

lemma Tidy.step (hw : Tidy False w) {e : Event} (he : AdmitsAny w e)
    (hid : ∀ m raises, e = .message m raises → int32 m.id = true) : Tidy False (w.step e) := by
  refine Tidy.of_acts (T := .unbound) hw ?_
  by_cases hrej : Rejected e
  · exact acts_rejected hrej w
  · exact acts_step (T := .unbound) (R := fun _ _ => False) (fun _ _ _ h => h.elim)
      (fun _ _ _ _ _ _ h => h.elim) hw ⟨he.admits hrej, hid⟩ False.elim (fun _ => trivial)
      False.elim

/-- What the requests and their producers are says nothing of the factory. -/
lemma Tidy.of_factory (hw : Tidy False w) (f : Option Factory) :
    Tidy False { w with factory := f } where
  toRegistry := hw.toRegistry.of_ledger rfl
  owner := hw.owner
  began := hw.began
  scheduled := hw.scheduled
  quiet h := h.elim

lemma tidy_unthrottle (d : Dir) : Within (Keeps (Tidy False)) (Factory.unthrottle d) :=
  fun _ hw => Tidy.of_acts (T := .unbound) hw
    (acts_unthrottle (T := .unbound) d hw (R := fun _ _ => False) (fun _ _ _ h => h.elim)
      (fun _ _ _ _ _ _ h => h.elim) (fun _ => trivial) False.elim)

lemma tidy_cancelDelayedCall (i : Option ℕ) (w : World) :
    Keeps (Tidy False) w (cancelDelayedCall i w) := fun hw =>
  Tidy.of_acts (T := .unbound) hw (acts_cancelDelayedCall i w)

lemma tidy_cancelAll (w : World) : Keeps (Tidy False) w w.cancelAll := fun hw =>
  tidy_cancelDelayedCall _ _ (tidy_cancelDelayedCall _ _ (tidy_cancelDelayedCall _ _
    (tidy_cancelDelayedCall _ _ hw)))

lemma tidy_unthrottleIfThrottling (d : Dir) :
    Within (Keeps (Tidy False)) (unthrottleIfThrottling d) :=
  within_bind within_get fun _ => within_ite (fun _ => tidy_unthrottle d) fun _ => within_pure _

lemma tidy_disableThrottling : Within (Keeps (Tidy False)) disableThrottling := by
  intro w hw
  rw [after_congr (disableThrottling_run w)]
  have hrest : Within (Keeps (Tidy False)) (do
      unthrottleIfThrottling .reads
      unthrottleIfThrottling .writes
      modify (setThrottlingEnabled false) : M PUnit) :=
    within_bind (tidy_unthrottleIfThrottling _) fun _ =>
      within_bind (tidy_unthrottleIfThrottling _) fun _ =>
        within_modify fun _ hw => hw.of_factory _
  exact hrest _ (tidy_cancelAll w hw)

lemma tidy_enableThrottling (w : World) : Keeps (Tidy False) w (enableThrottling w) := by
  have hstart : ∀ (d : Dir) (w : World), Keeps (Tidy False) w (startReset d w) := by
    intro d w hw
    unfold startReset
    split
    · exact Tidy.of_acts (T := .unbound) hw (acts_reset d w)
    · exact hw
  exact fun hw => (hstart .writes _ (hstart .reads w hw)).of_factory _

lemma tidy_setLimit (d : Dir) (limit : Option ℚ) :
    Within (Keeps (Tidy False)) (setLimit d limit) :=
  within_ite (fun _ => within_modify fun _ hw => hw.of_factory _) fun _ => within_throw _

lemma tidy_init (throttlingEnabled : Bool) (readLimit writeLimit : Option ℚ) :
    Within (Keeps (Tidy False)) (Factory.init throttlingEnabled readLimit writeLimit) := by
  refine within_bind (within_modify fun _ hw => hw.of_factory _) fun _ =>
    within_bind (tidy_setLimit _ _) fun _ => within_bind (tidy_setLimit _ _) fun _ =>
      within_bind (within_modify fun _ hw => hw.of_factory _) fun _ => within_ite (fun _ => ?_)
        fun _ => tidy_disableThrottling
  exact within_modify tidy_enableThrottling

/-- A factory and its client, as they are in any run. -/
structure Governed (w : World) : Prop extends Tidy False w where
  clock : Clock Tight w

lemma Governed.step (hw : Governed w) {e : FactoryEvent} (he : AdmitsFactory w e) :
    Governed (w.factoryStep e) := by
  refine ⟨?_, hw.clock.step he.connected⟩
  cases e with
  | client e => exact hw.toTidy.step he.1 he.2.1
  | register d n => exact hw.toTidy.of_slows (slows_register d n w)
  | setLimit d limit => exact tidy_setLimit d limit w hw.toTidy
  | enable => exact tidy_enableThrottling w hw.toTidy
  | disable => exact tidy_disableThrottling w hw.toTidy
  | build =>
    show Tidy False (buildProtocol w)
    unfold buildProtocol
    split
    · exact tidy_enableThrottling w hw.toTidy
    · exact hw.toTidy
  | made =>
    show Tidy False (connectionMade w)
    unfold connectionMade
    split
    · exact hw.toTidy.of_factory _
    · exact hw.toTidy

/-- A state in a run of a factory with a connected client, from its `__init__` on. -/
def FactoryReachable (w : World) : Prop :=
  ∃ w₀ throttlingEnabled readLimit writeLimit es, Initial w₀ ∧ w₀.calls = [] ∧
    Runs.Legal World.factoryStep AdmitsFactory
      (after (Factory.init throttlingEnabled readLimit writeLimit) w₀) es ∧
    Runs.run World.factoryStep
      (after (Factory.init throttlingEnabled readLimit writeLimit) w₀) es = w

lemma FactoryReachable.governed (hw : FactoryReachable w) : Governed w := by
  obtain ⟨w₀, throttlingEnabled, readLimit, writeLimit, es, h₀, hcalls, hes, rfl⟩ := hw
  exact hes.invariant (fun _ _ hw he => hw.step he)
    ⟨tidy_init throttlingEnabled readLimit writeLimit w₀ h₀.tidy,
      clock_init hcalls throttlingEnabled readLimit writeLimit⟩

/-! ### What resuming writes -/

/-- The bytes that these requests write when they are resumed in order, with the files as given.
What raises ends the loop. -/
def resumedBytes (w : World) : (ℕ → File) → List ℕ → ℕ
  | _, [] => 0
  | files, r :: l =>
    match (w.objs r).producer with
    | none => resumedBytes w files l
    | some p =>
      if (w.objs r).cancelled || (w.producers p).finished then resumedBytes w files l
      else
        let fh := (w.producers p).fh
        let size := (w.objs r).kind.maxPayloadSize
        match (w.objs r).id, (files fh).fetch (w.producers p) size with
        | some i, .ok data =>
          if int32 i then
            wireSize (dataMessage i data) + resumedBytes w (Function.update files fh { files fh with
              ops := (files fh).ops ++ fetchOps (w.producers p) size }) l
          else 0
        | _, _ => 0

lemma resumedBytes_congr {l : List ℕ} : ∀ {files : ℕ → File}, (∀ r ∈ l, Alike s t r) →
    resumedBytes t files l = resumedBytes s files l := by
  induction l with
  | nil => exact fun _ => rfl
  | cons r l ih =>
    intro files hl
    have halike := hl r (List.mem_cons_self ..)
    have hrest : ∀ {files}, resumedBytes t files l = resumedBytes s files l :=
      ih fun r' hr' => hl r' (List.mem_cons_of_mem _ hr')
    obtain ⟨hkind, hid, hprod, hcancelled⟩ := halike.request
    unfold resumedBytes
    rw [hprod, hkind, hid, hcancelled]
    cases hp : (s.objs r).producer with
    | none => exact hrest
    | some p =>
      obtain ⟨hfinished, hfh, hfetch, hops⟩ := halike.fetches hp
      simp only [hfinished, hfh, hfetch, hops, hrest]

/-- The first request is skipped. -/
lemma resumedBytes_idle {files : ℕ → File} {l : List ℕ} (hidle : ∀ p,
    (w.objs r).producer = some p → ((w.objs r).cancelled || (w.producers p).finished) = true) :
    resumedBytes w files (r :: l) = resumedBytes w files l := by
  rw [resumedBytes]
  cases hp : (w.objs r).producer with
  | none => rfl
  | some p => simp only [hidle p hp, if_true]

/-- The first request sends what it has read. -/
lemma resumedBytes_live {files : ℕ → File} {l : List ℕ} {i : ℤ} {data : Bytes}
    (hp : (w.objs r).producer = some p) (hc : (w.objs r).cancelled = false)
    (hf : (w.producers p).finished = false) (hid : (w.objs r).id = some i)
    (hi : int32 i = true) (hdata : (files (w.producers p).fh).fetch (w.producers p)
      (w.objs r).kind.maxPayloadSize = .ok data) :
    resumedBytes w files (r :: l) = wireSize (dataMessage i data) +
      resumedBytes w (Function.update files (w.producers p).fh { files (w.producers p).fh with
        ops := (files (w.producers p).fh).ops ++
          fetchOps (w.producers p) (w.objs r).kind.maxPayloadSize }) l := by
  rw [resumedBytes, hp]
  simp only [hc, hf, Bool.or_self, Bool.false_eq_true, if_false, hid, hdata, hi, if_true]

/-! ### The throttle comes back -/

lemma flow_checkBandwidth_of_ne {d' : Dir} (h : d' ≠ d) (w : World) :
    (checkBandwidth d w).flow d' = w.flow d' := by
  rcases checkBandwidth_cases d w with he | ⟨l, -, -, -, -, hfac, -⟩
  · rw [he]
  · rw [flow_congr hfac, flow_setFlow_of_ne h]

/-- Counting in a direction leaves the other one alone. -/
lemma flow_register_of_ne {d' : Dir} (h : d' ≠ d) (n : ℕ) (w : World) :
    (register d n w).flow d' = w.flow d' := by
  unfold register
  split
  · rfl
  · split
    · rw [flow_checkBandwidth_of_ne h, flow_setFlow_of_ne h]
    · rfl

/-- The writes are throttled, and an unthrottle is to come. -/
structure Shut (w : World) : Prop where
  throttling : (w.flow .writes).throttling = true
  unthrottleId : (w.flow .writes).unthrottleId ≠ none

lemma Shut.of_flow (h : Shut s) (hst : (t.flow .writes).throttling = (s.flow .writes).throttling ∧
    (t.flow .writes).unthrottleId = (s.flow .writes).unthrottleId) : Shut t :=
  ⟨hst.1.trans h.throttling, fun hn => h.unthrottleId (hst.2.symm.trans hn)⟩

lemma Shut.of_factory (h : Shut s) (hst : t.factory = s.factory) : Shut t :=
  h.of_flow (by rw [flow_congr hst]; exact ⟨rfl, rfl⟩)

lemma Shut.isSome (h : Shut w) : w.factory.isSome = true := by
  have hon := h.throttling
  unfold World.flow at hon
  cases hw : w.factory with
  | none =>
    rw [hw] at hon
    cases hon
  | some f => rfl

/-- The throttle is not put on twice. -/
lemma Shut.register (h : Shut w) (d : Dir) (n : ℕ) : Shut (register d n w) := by
  cases d with
  | reads =>
    refine h.of_flow ?_
    rw [flow_register_of_ne (by decide)]
    exact ⟨rfl, rfl⟩
  | writes =>
    unfold Client.register
    split
    · exact h
    · split
      · have hcount : Shut (w.setFlow .writes fun f => { f with
            thisSecond := f.thisSecond + n }) := by
          refine h.of_flow ?_
          rw [flow_setFlow_self h.isSome]
          exact ⟨rfl, rfl⟩
        rcases checkBandwidth_cases .writes _ with he | ⟨_, _, _, _, hid, _⟩
        · rwa [he]
        · exact absurd hid hcount.unthrottleId
      · exact h

/-- The writes stay throttled, whatever the client sends. -/
lemma allows_shut : Allows (Keeps Shut) where
  same _ _ hst h := h.of_factory (congrArg Prod.fst hst)
  go _ _ h := h.of_factory rfl
  register _ d n h := h.register d n

/-- Counting what reaches the limit throttles the writes. -/
lemma Open.registerOwn_shut {c n : ℕ} (h : Open w c) (hn : w.reaches (c + n))
    (hpos : ∀ l, (w.flow .writes).limit = some l → 0 < l) : Shut (registerOwn .writes n w) := by
  obtain ⟨f, hf, hon, hself, -, hid, hcount⟩ := h
  obtain ⟨f', l, hf', hl, hle⟩ := hn
  obtain rfl : f = f' := Option.some.inj (hf.symm.trans hf')
  let u := w.setFlow .writes fun f => { f with thisSecond := f.thisSecond + n }
  have hu : u.factory = some (f.setFlow .writes fun f => { f with
      thisSecond := f.thisSecond + n }) := by
    show w.factory.map _ = _
    rw [hf]
    rfl
  have hclient : w.factory.bind Factory.client = some .self := by
    rw [hf]
    exact hself
  have hrun : registerOwn .writes n w = checkBandwidth .writes u := by
    unfold registerOwn
    rw [hclient]
    show register .writes n w = _
    unfold register
    rw [hf]
    exact if_pos hon
  have hlimit : 0 < l := hpos l (by simpa [World.flow, hf, Factory.flow] using hl)
  have hle' : l ≤ (f.writes.thisSecond : ℚ) + n := by
    rw [hcount]
    exact_mod_cast hle
  have hcheck : (f.setFlow .writes fun f => { f with
      thisSecond := f.thisSecond + n }).shouldCheck .writes = true := by
    simp [Factory.shouldCheck, Factory.setFlow, Factory.flow, hl, hon, hid, validLimit, hlimit,
      hle']
  have hsome : ((checkBandwidth .writes u).flow .writes).unthrottleId ≠ none := by
    unfold checkBandwidth
    rw [hu]
    dsimp only
    rw [if_pos hcheck, flow_setFlow_self]
    · exact Option.some_ne_none _
    · rw [factory_maybeCallLater, (throttle_clocks .writes u).2, isSome_setFlow, hu]
      rfl
  rw [hrun]
  rcases checkBandwidth_cases .writes u with he | ⟨_, _, _, _, _, hfac, _⟩
  · rw [he] at hsome
    refine absurd ?_ hsome
    simp [World.flow, hu, Factory.setFlow, Factory.flow, hid]
  · refine ⟨?_, hsome⟩
    have hself' : u.client = some .self := (client_setFlow).trans hclient
    rw [flow_congr hfac, flow_setFlow_self (by rw [hu]; rfl), hself']
    exact Bool.or_true _

lemma limit_of_config (h : t.factory.map Factory.config = s.factory.map Factory.config)
    (d : Dir) : (t.flow d).limit = (s.flow d).limit := by
  have hlimit : ∀ w : World, (w.flow d).limit =
      ((w.factory.map Factory.config).map fun f => (f.flow d).limit).getD none := by
    intro w
    cases hw : w.factory <;> cases d <;> simp [World.flow, hw, Factory.config, Factory.flow]
  rw [hlimit, hlimit, h]

/-- A message that reaches the limit throttles the writes. -/
lemma Open.sendMessage_shut {c : ℕ} (h : Open w c) (m : Message)
    (hm : w.reaches (c + wireSize m)) (hpos : ∀ l, (w.flow .writes).limit = some l → 0 < l) :
    Shut (Client.sendMessage m w) := by
  have hsent : Shut (Client.write (byteSize m) (Client.write sizeFmtSize w)) →
      Shut (Client.sendMessage m w) := fun hs => hs.of_factory rfl
  have hkeep : ∀ {v : World} (n : ℕ), Shut (registerOwn .writes n v) → Shut (Client.write n v) :=
    fun n hs => hs.of_factory (factory_transportWrite _)
  by_cases hsize : w.reaches (c + sizeFmtSize)
  · have hfirst := hkeep _ (h.registerOwn_shut hsize hpos)
    exact hsent (hkeep _ (allows_registerOwn allows_shut .writes _ _ hfirst))
  · have hopen := h.write hsize
    have hconfig := (slows_write sizeFmtSize w).config
    refine hsent (hkeep _ (hopen.registerOwn_shut ?_ fun l hl => hpos l ?_))
    · rw [reaches_of_config hconfig, Nat.add_assoc]
      exact hm
    · rw [← limit_of_config hconfig]
      exact hl

/-! ### Nothing is asked for -/

/-- The reads are as they were, and no call was scheduled or ended but steps of uploads. -/
structure Unasked (s t : World) : Prop where
  reads : t.flow .reads = s.flow .reads
  active : ∀ k func, (∀ p, func ≠ .go p) → (Active t.calls k func ↔ Active s.calls k func)

instance : IsPreorder World Unasked where
  refl _ := ⟨rfl, fun _ _ _ => Iff.rfl⟩
  trans _ _ _ h1 h2 := ⟨h2.reads.trans h1.reads, fun k func hfunc =>
    (h2.active k func hfunc).trans (h1.active k func hfunc)⟩

lemma unasked_of_clocks (h : t.clocks = s.clocks) : Unasked s t := by
  have hcalls : t.calls = s.calls := congrArg Prod.snd h
  exact ⟨flow_congr (congrArg Prod.fst h), fun k func _ => by rw [hcalls]⟩

lemma unasked_go (p : ℕ) (w : World) : Unasked w (callLater 0 (.go p) w) :=
  ⟨rfl, fun _ _ hfunc => (active_append rfl).trans (or_iff_left fun h => hfunc p h.2.symm)⟩

lemma Open.unasked_write {c n : ℕ} (h : Open w c) (hn : ¬w.reaches (c + n)) :
    Unasked w (Client.write n w) := by
  refine trans_of Unasked (b := registerOwn .writes n w) ?_
    (unasked_of_clocks (clocks_transportWrite _))
  rw [h.registerOwn_eq hn]
  exact ⟨flow_setFlow_of_ne (by decide), fun _ _ _ => Iff.rfl⟩

lemma Open.unasked_sendMessage {c : ℕ} (h : Open w c) (m : Message)
    (hm : ¬w.reaches (c + wireSize m)) : Unasked w (Client.sendMessage m w) := by
  have hsize : ¬w.reaches (c + sizeFmtSize) := fun hr => hm (reaches_mono
    (Nat.add_le_add_left (Nat.le_add_right _ _) _) hr)
  have hbody : ¬(Client.write sizeFmtSize w).reaches (c + sizeFmtSize + byteSize m) := by
    rw [reaches_of_config (slows_write _ w).config, Nat.add_assoc]
    exact hm
  exact trans_of Unasked (h.unasked_write hsize) (trans_of Unasked
    ((h.write hsize).unasked_write hbody) (unasked_of_clocks (t := Client.sendMessage m w) rfl))

/-! ### Resuming the uploads -/

/-- What a step of a live producer has sent, and the steps it has asked for. -/
lemma go_sent (hlive : Live w p) (h : (BytesMessageProducer.go p).run w = .ok ⟨⟩ t) :
    ∃ i data a, Went w p t i data ∧ a.clocks = w.clocks ∧
      t.factory = (sendMessage (dataMessage i data) a).factory ∧
      Unasked (sendMessage (dataMessage i data) a) t := by
  obtain ⟨i, data, a, hwent, hfactory, hcalls, rfl | rfl⟩ := go_writes hlive h
  · exact ⟨i, data, a, hwent, Prod.ext hfactory hcalls, rfl, unasked_go p _⟩
  · exact ⟨i, data, a, hwent, Prod.ext hfactory hcalls, rfl, unasked_of_clocks rfl⟩

/-- The state after requests were resumed that write that many bytes: throttled if these reach the
limit, and else with the bytes counted. -/
inductive Resumed (w t : World) (count n : ℕ) : Prop
  | shut (hpos : 0 < n) (hreach : w.reaches (count + n)) (h : Shut t)
  | below (hn : n = 0 ∨ ¬w.reaches (count + n)) (h : Open t (count + n)) (hasked : Unasked w t)

/-- **Resuming a request** writes what it reads. -/
lemma Open.resumed {count : ℕ} {l : List ℕ} (hopen : Open w count) (hw : Tidy False w)
    (hpos : ∀ l, (w.flow .writes).limit = some l → 0 < l) (hnot : r ∉ l)
    (ht : (Request.resumeProducing r).run w = .ok ⟨⟩ t) :
    t.factory.map Factory.config = w.factory.map Factory.config ∧
    ∃ n, resumedBytes w w.files (r :: l) = n + resumedBytes t t.files l ∧
      Resumed w t count n := by
  have halike : ∀ r' ∈ l, Alike w t r' := fun r' hr' =>
    alike_resumed hw ht fun h => hnot (h ▸ hr')
  have hidle : t.clocks = w.clocks → t.files = w.files →
      resumedBytes w w.files (r :: l) = resumedBytes w w.files l →
      t.factory.map Factory.config = w.factory.map Factory.config ∧
      ∃ n, resumedBytes w w.files (r :: l) = n + resumedBytes t t.files l ∧
        Resumed w t count n := by
    intro hclocks hfiles hbytes
    have hfac : t.factory = w.factory := congrArg Prod.fst hclocks
    refine ⟨congrArg _ hfac, 0, ?_, .below (Or.inl rfl) (hopen.of_factory hfac)
      (unasked_of_clocks hclocks)⟩
    rw [hbytes, hfiles, resumedBytes_congr halike, Nat.zero_add]
  rcases resumeRequest_ok ht with ⟨hp, rfl⟩ | ⟨p, u, hp, hgo, rfl⟩
  · exact hidle rfl rfl (resumedBytes_idle fun p hp' => nomatch hp.symm.trans hp')
  let v := w.setProducer p fun q => { q with producing := true }
  have hv : v.producers p = { w.producers p with producing := true } :=
    setProducer_producers_self w p _
  have hreq : (w.producers p).request = r := (hw.owner r p hp).2
  by_cases hlive : Live v p
  · obtain ⟨i, data, a, ⟨hid, hi, hfetch, hfiles, -⟩, ha, hfactory, hasked⟩ := go_sent hlive hgo
    obtain ⟨-, hc, hfin⟩ := hlive
    rw [hv] at hid hfetch hfiles hc hfin
    simp only [hreq] at hid hfetch hfiles hc
    have hfac : a.factory = w.factory := congrArg Prod.fst ha
    have hconfig : a.factory.map Factory.config = w.factory.map Factory.config := congrArg _ hfac
    have hopen' : Open a count := hopen.of_factory hfac
    refine ⟨?_, wireSize (dataMessage i data), ?_, ?_⟩
    · show u.factory.map Factory.config = _
      rw [hfactory, (slows_sendMessage (dataMessage i data) a).config]
      exact hconfig
    · refine (resumedBytes_live hp hc hfin hid hi hfetch).trans ?_
      show _ = _ + resumedBytes _ u.files l
      rw [resumedBytes_congr halike, hfiles]
      rfl
    · by_cases hreach : w.reaches (count + wireSize (dataMessage i data))
      · refine .shut (Nat.lt_add_right _ (by decide)) hreach (Shut.of_factory ?_ hfactory)
        refine hopen'.sendMessage_shut _ ((reaches_of_config hconfig _).mpr hreach) ?_
        rw [limit_of_config hconfig]
        exact hpos
      · have hreach' : ¬a.reaches (count + wireSize (dataMessage i data)) := fun h =>
          hreach ((reaches_of_config hconfig _).mp h)
        refine .below (Or.inr hreach) ((hopen'.sendMessage _ hreach').of_factory hfactory) ?_
        have hsend := hopen'.unasked_sendMessage (dataMessage i data) hreach'
        have hlast : Unasked u (u.setObj r fun q => { q with producing := true }) :=
          unasked_of_clocks rfl
        exact trans_of Unasked (unasked_of_clocks (s := w) ha)
          (trans_of Unasked hsend (trans_of Unasked hasked hlast))
  · have hu : u = v := by
      have := hgo.symm.trans (go_idle hlive)
      cases this
      rfl
    subst hu
    exact hidle rfl rfl (resumedBytes_idle fun _ hp' => idle_of_not_live hp hreq hlive hp')

/-- **Resuming registered requests one after another** writes what they read, and brings the
throttle back if that reaches the limit. -/
lemma Open.resumeAll (l : List ℕ) : ∀ {w t : World} {count : ℕ}, Open w count → Tidy False w →
    (∀ l, (w.flow .writes).limit = some l → 0 < l) → l.Nodup →
    (∀ r ∈ l, ∃ i, w.requests.get? i = some r) →
    (l.forM Request.resumeProducing).run w = .ok ⟨⟩ t →
    Resumed w t count (resumedBytes w w.files l) := by
  induction l with
  | nil =>
    intro w t count hopen _ _ _ _ hrun
    cases hrun
    exact .below (Or.inl rfl) hopen (refl_of Unasked w)
  | cons r l ih =>
    intro w t count hopen hw hpos hnodup hreg hrun
    obtain ⟨hnot, hrest⟩ := List.nodup_cons.mp hnodup
    cases hu : (Request.resumeProducing r).run w with
    | error e u => exact nomatch hrun.symm.trans (run_bind_error hu)
    | ok _ u =>
      obtain ⟨hconfig, n, hn, hstep⟩ := hopen.resumed hw hpos hnot hu
      have hrun' : (l.forM Request.resumeProducing).run u = .ok ⟨⟩ t :=
        (run_bind_ok (f := fun _ => l.forM Request.resumeProducing) hu).symm.trans hrun
      rw [hn]
      cases hstep with
      | shut h0 hreach hshut =>
        -- the rest is resumed all the same, and the throttle stays
        refine .shut (Nat.lt_add_right _ h0) (reaches_mono (by omega) hreach) ?_
        have hkeep := within_forM l (fun r _ => within_resumeRequest allows_shut r) u hshut
        rwa [after_of_ok hrun'] at hkeep
      | below hbelow hopen' hasked =>
        obtain ⟨i, hi⟩ := hreg r (List.mem_cons_self ..)
        have htidy : Tidy False u := by
          have := Tidy.of_acts (T := .unbound) hw
            (acts_resumeRequest (T := .unbound) hw hi False.elim)
          rwa [after_of_ok hu] at this
        have hrequests : u.requests = w.requests :=
          requests_of_ledger (ledger_of_core ((frame_resumeRequest r).ok hu))
        have hnext := ih hopen' htidy (by rwa [limit_of_config hconfig]) hrest
          (fun r' hr' => by rw [hrequests]; exact hreg r' (List.mem_cons_of_mem _ hr')) hrun'
        cases hnext with
        | shut h0 hreach hshut =>
          rw [reaches_of_config hconfig, Nat.add_assoc] at hreach
          exact .shut (by omega) hreach hshut
        | below hbelow' hopen'' hasked' =>
          rw [Nat.add_assoc] at hopen''
          refine .below ?_ hopen'' (trans_of Unasked hasked hasked')
          rcases hbelow' with h0 | hnot'
          · rw [h0, Nat.add_zero]
            exact hbelow
          · rw [reaches_of_config hconfig, Nat.add_assoc] at hnot'
            exact Or.inr hnot'

/-! ### While throttling is off -/

/-- Where throttling is off, the factory stays as it is, and the calls are those of uploads. -/
def Unmetered (s t : World) : Prop :=
  s.enabled = false → t.factory = s.factory ∧ Unasked s t

instance : IsPreorder World Unmetered where
  refl s _ := ⟨rfl, refl_of Unasked s⟩
  trans _ _ _ h1 h2 hoff := by
    obtain ⟨hfac, hasked⟩ := h1 hoff
    obtain ⟨hfac', hasked'⟩ := h2 ((enabled_congr hfac).trans hoff)
    exact ⟨hfac'.trans hfac, trans_of Unasked hasked hasked'⟩

lemma register_off (h : w.enabled = false) (d : Dir) (n : ℕ) : register d n w = w := by
  unfold register
  cases hw : w.factory with
  | none => rfl
  | some f =>
    have hoff : f.throttlingEnabled = false := by simpa [World.enabled, hw] using h
    simp [hoff]

lemma allows_unmetered : Allows Unmetered where
  same _ _ hst _ := ⟨congrArg Prod.fst hst, unasked_of_clocks hst⟩
  go s p _ := ⟨rfl, unasked_go p s⟩
  register s d n hoff := by
    rw [register_off hoff]
    exact ⟨rfl, refl_of Unasked s⟩

/-! ### Turning throttling off -/

/-- Throttling is off, no delayed call of the factory is active, and nothing is throttled. -/
structure Disabled (w : World) : Prop where
  enabled : w.enabled = false
  calls : ∀ d k, ¬Active w.calls k (.reset d) ∧ ¬Active w.calls k (.unthrottle d)
  throttling : ∀ d, (w.flow d).throttling = false

/-- The writes are throttled, and the uploads that are resumed to end that write as much as
reaches the limit. -/
structure Relapses (w : World) : Prop where
  throttling : (w.flow .writes).throttling = true
  enabled : w.enabled = true
  writes : 0 < resumedBytes w w.files w.requests.values
  reaches : w.reaches ((w.flow .writes).thisSecond + resumedBytes w w.files w.requests.values)

/-- What disabling leaves alone before it ends the throttle of the writes. -/
def World.uploads (w : World) : (ℕ → Request) × (ℕ → Producer) × (ℕ → File) × Dict ℤ ℕ :=
  (w.objs, w.producers, w.files, w.requests)

/-- `disable_throttling` up to the end of the throttle of the reads. -/
structure Prepared (w u : World) : Prop extends Tidy False u where
  isSome : u.factory.isSome = true
  uploads : u.uploads = w.uploads
  enabled : u.enabled = w.enabled
  client : u.client = w.client
  writes : u.flow .writes = w.flow .writes
  reads : (u.flow .reads).throttling = false
  config : u.factory.map Factory.config = w.factory.map Factory.config
  calls : ∀ d k, ¬Active u.calls k (.reset d) ∧ ¬Active u.calls k (.unthrottle d)

/-- Ending the throttle of the reads of the client. -/
lemma unthrottleReads_self (hself : w.client = some .self) (hw : w.factory.isSome = true) :
    ∃ u, (unthrottleIfThrottling .reads).run w = .ok ⟨⟩ u ∧ u.uploads = w.uploads ∧
      u.calls = w.calls ∧ (u.flow .reads).throttling = false ∧
      u.factory.map Factory.config = w.factory.map Factory.config := by
  unfold unthrottleIfThrottling
  rw [run_get_bind]
  cases ht : (w.flow .reads).throttling with
  | false => exact ⟨w, rfl, rfl, rfl, ht, rfl⟩
  | true =>
    rw [if_pos rfl, unthrottle_run, if_pos hself]
    refine ⟨_, rfl, rfl, rfl, ?_, (slows_setFlow (f := Flow.unthrottled) fun _ => rfl).config⟩
    show ((w.setFlow .reads Flow.unthrottled).flow .reads).throttling = false
    rw [flow_setFlow_self hw]
    rfl

lemma Governed.prepared (hw : Governed w) (hself : w.client = some .self) : ∃ u, Prepared w u ∧
    disableThrottling.run w = (unthrottleIfThrottling .writes >>= fun _ =>
      modify (setThrottlingEnabled false) : M PUnit).run u := by
  obtain ⟨u, hu, hcalls, hwrites, hclient, hrun⟩ := disableThrottling_after w
  have hfac := factory_cancelAll w
  obtain ⟨u', hu', huploads, -, hreads, hconfig⟩ := unthrottleReads_self (w := w.cancelAll)
    ((client_congr hfac).trans hself) (hfac ▸ hw.clock.made)
  obtain rfl : u = u' := by
    have := hu.symm.trans hu'
    cases this
    rfl
  have hcancel : ∀ (i : Option ℕ) (w : World), (cancelDelayedCall i w).uploads = w.uploads := by
    intro i w
    cases i <;> rfl
  have htidy : Tidy False u := by
    have := tidy_unthrottleIfThrottling .reads _ (tidy_cancelAll w hw.toTidy)
    rwa [after_of_ok hu] at this
  have hsome : u.factory.isSome = true := by
    have := congrArg Option.isSome hconfig
    rw [Option.isSome_map, Option.isSome_map, hfac] at this
    rw [this, hw.clock.made]
  refine ⟨u, ⟨htidy, hsome, huploads.trans ?_, ?_, hclient, hwrites, hreads, ?_, fun d k => ?_⟩,
    hrun⟩
  · simp only [World.cancelAll, hcancel]
  · exact ((sameLoops_unthrottleIfThrottling .reads).ok hu).enabled.trans (enabled_cancelAll w)
  · rw [hconfig, hfac]
  · rw [hcalls]
    exact hw.clock.cancelAll.2 d k

/-- Disabling turns the flag off last. -/
lemma disabled_iff {v : World} (hcalls : ∀ d k, ¬Active v.calls k (.reset d) ∧
    ¬Active v.calls k (.unthrottle d)) (hreads : (v.flow .reads).throttling = false) :
    Disabled (setThrottlingEnabled false v) ↔ (v.flow .writes).throttling = false := by
  constructor
  · intro h
    have := h.throttling .writes
    rwa [flow_setThrottlingEnabled] at this
  · intro h
    refine ⟨enabled_setThrottlingEnabled_false v, hcalls, fun d => ?_⟩
    rw [flow_setThrottlingEnabled]
    cases d
    · exact hreads
    · exact h

lemma open_iff {c : ℕ} : Open w c ↔ w.enabled = true ∧ w.client = some .self ∧
    (w.flow .writes).throttling = false ∧ (w.flow .writes).unthrottleId = none ∧
    (w.flow .writes).thisSecond = c := by
  unfold Open World.enabled World.client World.flow
  cases hw : w.factory with
  | none => simp
  | some f => simp [Factory.flow]

lemma Prepared.config_unthrottled (hu : Prepared w u) :
    (u.setFlow .writes Flow.unthrottled).factory.map Factory.config =
      w.factory.map Factory.config :=
  (slows_setFlow (f := Flow.unthrottled) fun _ => rfl).config.trans hu.config

/-- The uploads that are resumed when the throttle of the writes is ended. -/
lemma Prepared.resumed {v : World} (hu : Prepared w u) (hw : Governed w)
    (hself : w.client = some .self) (hon : w.enabled = true)
    (hrun : (w.requests.values.forM Request.resumeProducing).run
      (u.setFlow .writes Flow.unthrottled) = .ok ⟨⟩ v) :
    Resumed (u.setFlow .writes Flow.unthrottled) v (w.flow .writes).thisSecond
      (resumedBytes w w.files w.requests.values) := by
  have hopen : Open (u.setFlow .writes Flow.unthrottled) (w.flow .writes).thisSecond := by
    rw [open_iff, flow_setFlow_self hu.isSome, enabled_setFlow, client_setFlow, hu.enabled,
      hu.client, hu.writes]
    exact ⟨hon, hself, rfl, rfl, rfl⟩
  have hpos : ∀ l, ((u.setFlow .writes Flow.unthrottled).flow .writes).limit = some l →
      0 < l := by
    rw [limit_of_config hu.config_unthrottled]
    exact (hw.clock.timed .writes).limit
  have hobjs : u.objs = w.objs := congrArg Prod.fst hu.uploads
  have hproducers : u.producers = w.producers := congrArg (fun x => x.2.1) hu.uploads
  have hfiles : u.files = w.files := congrArg (fun x => x.2.2.1) hu.uploads
  have hrequests : u.requests = w.requests := congrArg (fun x => x.2.2.2) hu.uploads
  have halike : ∀ r ∈ w.requests.values, Alike w (u.setFlow .writes Flow.unthrottled) r :=
    fun r _ => ⟨by rw [← hobjs]; rfl, fun p _ => by rw [← hproducers]; rfl⟩
  rw [← resumedBytes_congr halike, ← hfiles]
  refine hopen.resumeAll w.requests.values (hu.toTidy.of_factory _) hpos
    (Dict.nodup_values fun _ _ _ => hw.eq_of_get?) (fun r hr => ?_) hrun
  rw [← hrequests] at hr
  exact Dict.mem_values_iff.mp hr

/-- Where resuming the uploads asks for nothing, what is left to be seen is the throttle of the
writes. -/
lemma Prepared.disabled_iff {v : World} (hu : Prepared w u)
    (h : Unasked (u.setFlow .writes Flow.unthrottled) v) :
    Disabled (setThrottlingEnabled false { v with producing := true }) ↔
      (v.flow .writes).throttling = false := by
  refine Client.disabled_iff (v := { v with producing := true }) (fun d k => ?_) ?_
  · exact ⟨fun hk => (hu.calls d k).1 ((h.active k _ fun _ => Func.noConfusion).mp hk),
      fun hk => (hu.calls d k).2 ((h.active k _ fun _ => Func.noConfusion).mp hk)⟩
  · refine (congrArg Flow.throttling h.reads).trans ?_
    rw [flow_setFlow_of_ne (by decide)]
    exact hu.reads

/-- The rest of `disable_throttling` where the writes are not throttled. -/
lemma Prepared.idle (hu : Prepared w u) (ht : (w.flow .writes).throttling = false)
    (hok : (unthrottleIfThrottling .writes >>= fun _ =>
      modify (setThrottlingEnabled false) : M PUnit).run u = .ok ⟨⟩ t) :
    t = setThrottlingEnabled false u := by
  have hnone : (unthrottleIfThrottling .writes).run u = .ok ⟨⟩ u := by
    unfold unthrottleIfThrottling
    rw [run_get_bind, hu.writes, ht]
    rfl
  rw [run_bind_ok hnone] at hok
  cases hok
  rfl

/-- The rest of `disable_throttling` where the writes are throttled: it returns when all uploads
were resumed. -/
lemma Prepared.released (hu : Prepared w u) (hself : w.client = some .self)
    (ht : (w.flow .writes).throttling = true)
    (hok : (unthrottleIfThrottling .writes >>= fun _ =>
      modify (setThrottlingEnabled false) : M PUnit).run u = .ok ⟨⟩ t) :
    ∃ v, (w.requests.values.forM Request.resumeProducing).run
        (u.setFlow .writes Flow.unthrottled) = .ok ⟨⟩ v ∧
      t = setThrottlingEnabled false { v with producing := true } := by
  have hrequests : (u.setFlow .writes Flow.unthrottled).requests = w.requests :=
    congrArg (fun x => x.2.2.2) hu.uploads
  have hresume : (unthrottleIfThrottling .writes).run u =
      (w.requests.values.forM Request.resumeProducing >>= fun _ =>
        modify fun w => { w with producing := true } : M PUnit).run
          (u.setFlow .writes Flow.unthrottled) := by
    unfold unthrottleIfThrottling
    rw [run_get_bind, hu.writes, ht, if_pos rfl, unthrottle_run, if_pos (hu.client.trans hself),
      ← hrequests]
    rfl
  cases hloop : (w.requests.values.forM Request.resumeProducing).run
      (u.setFlow .writes Flow.unthrottled) with
  | error e v =>
    rw [run_bind_error (hresume.trans (run_bind_error hloop))] at hok
    cases hok
  | ok _ v =>
    refine ⟨v, rfl, ?_⟩
    rw [run_bind_ok (hresume.trans (run_bind_ok hloop))] at hok
    cases hok
    rfl

/-- **`disable_throttling`** turns throttling off, unless the uploads it resumes bring the throttle
back. -/
lemma Governed.stops_iff (hw : Governed w) (hself : w.client = some .self)
    (hok : disableThrottling.run w = .ok ⟨⟩ t) : Disabled t ↔ ¬Relapses w := by
  obtain ⟨u, hu, hrun⟩ := hw.prepared hself
  rw [hrun] at hok
  cases ht : (w.flow .writes).throttling with
  | false =>
    rw [hu.idle ht hok, Client.disabled_iff hu.calls hu.reads, hu.writes]
    refine iff_of_true ht fun h => ?_
    have := ht.symm.trans h.throttling
    cases this
  | true =>
    obtain ⟨v, hloop, rfl⟩ := hu.released hself ht hok
    cases hon : w.enabled with
    | false =>
      have hquiet := within_forM w.requests.values
        (fun r _ => within_resumeRequest allows_unmetered r) (u.setFlow .writes Flow.unthrottled)
      rw [after_of_ok hloop] at hquiet
      obtain ⟨hfac, hasked⟩ := hquiet (by rw [enabled_setFlow, hu.enabled, hon])
      rw [hu.disabled_iff hasked, flow_congr hfac, flow_setFlow_self hu.isSome]
      refine iff_of_true rfl fun h => ?_
      have := hon.symm.trans h.enabled
      cases this
    | true =>
      cases hu.resumed hw hself hon hloop with
      | shut hwrites hreach hshut =>
        rw [reaches_of_config hu.config_unthrottled] at hreach
        refine iff_of_false (fun h => ?_) fun h => h ⟨ht, hon, hwrites, hreach⟩
        have := h.throttling .writes
        rw [flow_setThrottlingEnabled] at this
        exact absurd (hshut.throttling.symm.trans this) (by decide)
      | below hbelow hopen hasked =>
        rw [hu.disabled_iff hasked]
        refine iff_of_true (open_iff.mp hopen).2.2.1 fun h => ?_
        rcases hbelow with h0 | hnot
        · exact absurd h.writes (by rw [h0]; exact lt_irrefl 0)
        · exact hnot ((reaches_of_config hu.config_unthrottled _).mpr h.reaches)

/-- **`disable_throttling` really stops it** exactly when the uploads it resumes do not reach the
limit on writes, in every state of a factory with a connected client. -/
theorem disables_iff (hw : FactoryReachable w) (hself : w.client = some .self)
    (hok : disableThrottling.run w = .ok ⟨⟩ t) : Disabled t ↔ ¬Relapses w :=
  hw.governed.stops_iff hself hok

/-! ### An upload that is throttled -/

/-- A factory with a limit on its writes, and a client that uploads a file. -/
def uploadingUnder (limit : ℚ) (es : List FactoryEvent) : World :=
  Runs.run World.factoryStep
    (after (Factory.init true none (some limit)) (uploading [1, 2, 3, 4, 5])) es

/-- The upload begins. -/
def beginUpload : List FactoryEvent :=
  [.build, .made, .client (.start 0), .client (.message beginContent none)]

lemma beginUpload_legal {limit : ℚ} {es : List FactoryEvent}
    (hid : ((uploadingUnder limit [.build, .made]).objs 0).id = none)
    (hsource : ((uploadingUnder limit [.build, .made]).objs 0).source = none)
    (hes : Runs.Legal World.factoryStep AdmitsFactory (uploadingUnder limit beginUpload) es) :
    FactoryReachable (uploadingUnder limit (beginUpload ++ es)) := by
  refine ⟨_, true, none, some limit, beginUpload ++ es, initial_uploading _, rfl,
    Runs.legal_append.mpr ⟨⟨trivial, trivial, ⟨⟨hid, hsource⟩, ?_, ?_⟩,
      ⟨trivial, ?_, ?_⟩, trivial⟩, hes⟩, rfl⟩
  · simp
  · simp
  · rintro m raises ⟨⟩
    decide
  · simp

/-- The writes are throttled from the first message on, and are unthrottled for the first piece. -/
lemma reachable_throttledUpload :
    FactoryReachable (uploadingUnder 1 (beginUpload ++ [.client (.call 2)])) :=
  beginUpload_legal (by decide +kernel) (by decide +kernel) ⟨⟨trivial, by simp, by simp⟩, trivial⟩

/-- The piece that is sent from inside throttles the writes again. -/
theorem not_disables : ¬∀ w t : World, FactoryReachable w → w.client = some .self →
    disableThrottling.run w = .ok ⟨⟩ t → Disabled t := by
  intro h
  let w := uploadingUnder 1 (beginUpload ++ [.client (.call 2)])
  have hrun : disableThrottling.run w = .ok ⟨⟩ (after disableThrottling w) :=
    run_of_not_raised (by decide +kernel)
  have hdisabled := h w _ reachable_throttledUpload (by decide +kernel) hrun
  have hon : ((after disableThrottling w).flow .writes).throttling = true := by decide +kernel
  exact absurd (hon.symm.trans (hdisabled.throttling .writes)) (by decide)

/-- The writes are throttled by other bytes, and the next second has begun. -/
def nextSecond : List FactoryEvent := [.register .writes 1000, .client (.call 1)]

lemma reachable_nextSecond : FactoryReachable (uploadingUnder 1000 (beginUpload ++ nextSecond)) :=
  beginUpload_legal (by decide +kernel) (by decide +kernel)
    ⟨trivial, ⟨trivial, by simp, by simp⟩, trivial⟩

/-- The piece that is sent from inside does not reach the limit. -/
theorem disables_iff_nextSecond :
    Disabled (after disableThrottling (uploadingUnder 1000 (beginUpload ++ nextSecond))) := by
  let w := uploadingUnder 1000 (beginUpload ++ nextSecond)
  have hrun : disableThrottling.run w = .ok ⟨⟩ (after disableThrottling w) :=
    run_of_not_raised (by decide +kernel)
  refine (disables_iff reachable_nextSecond (by decide +kernel) hrun).mpr fun h => ?_
  obtain ⟨f, l, hf, hl, hle⟩ := h.reaches
  have hlimit : (w.flow .writes).limit = some 1000 := by decide +kernel
  have hcount : (w.flow .writes).thisSecond + resumedBytes w w.files w.requests.values < 1000 := by
    decide +kernel
  have hflow : w.flow .writes = f.writes := by
    unfold World.flow
    rw [hf]
    rfl
  rw [hflow, hl] at hlimit
  cases hlimit
  exact absurd hle (not_le.mpr (by exact_mod_cast hcount))

end Magicicada.Client
