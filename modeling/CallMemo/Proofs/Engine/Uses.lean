import CallMemo.Proofs.Cache.Calls
import CallMemo.Proofs.Engine.Tally

/-!
# The hits of an entry

A lookup counts as a use of the entry it finds before the inputs are compared. If the input is
another one, the entry gives way to the new result and its count is lost with it, unless the handler
fails: then the entry stays and keeps the hit. So the hits of an entry are those it was written
with, the later dispatches of its input and the later failures of other inputs under its
fingerprint.
-/

namespace CallMemo

variable {σ ε : Type}

/-- A result that the cache took. -/
structure Taken where
  /-- The call site. -/
  site : SiteId
  /-- The fingerprint that it stands under. -/
  fingerprint : Fingerprint
  /-- The input values. -/
  input : List UInt64
  /-- The result. -/
  post : PostState
  /-- The hits that the entry starts with. -/
  hits : UInt64
  deriving DecidableEq, Repr

namespace Event

/-- The result that the cache took, if it took one: a new one has no hits, and one from a snapshot
those that stand there. -/
def taken? (ev : Event σ ε) : Option Taken :=
  if ev.stores then
    match ev with
    | .dispatch e _ call => match call.answer.result with
      | .ok post =>
        some ⟨call.site.id, e.codec.encode call.site.id call.input, call.input, post, 0⟩
      | .error _ => none
    | .offer e s => some ⟨s.site, e.codec.encode s.site s.inputs, s.inputs, s.post, s.hits⟩
  else none

/-- Whether the cache took a result for a calling context. -/
def writes (t : SiteId) (g : Fingerprint) (ev : Event σ ε) : Bool :=
  ev.taken?.any fun k => k.site = t ∧ k.fingerprint = g

/-- A dispatch of a site with an input that is recorded. -/
def hits (t : SiteId) (input : List UInt64) (ev : Event σ ε) : Bool :=
  ev.finds .same && match ev with
    | .dispatch _ _ call => call.site.id = t ∧ call.input = input
    | .offer .. => false

/-- A dispatch whose input shares the fingerprint of another one that is recorded, and whose handler
fails. -/
def spoils (t : SiteId) (g : Fingerprint) (ev : Event σ ε) : Bool :=
  ev.finds .other && ev.failed && match ev with
    | .dispatch e _ call => call.site.id = t ∧ e.codec.encode t call.input = g
    | .offer .. => false

end Event

/-- An entry goes on as `x` through an event that writes no other one under its context. -/
structure Carries (ev : Event σ ε) (t : SiteId) (g : Fingerprint) (y x : Entry) : Prop where
  /-- Nothing is written under the context. -/
  unwritten : ev.writes t g = false
  /-- The input stays the same. -/
  rawInput_eq : x.rawInput = y.rawInput
  /-- The result stays the same. -/
  post_eq : x.post = y.post
  /-- A dispatch of the input counts, and so does a failure of another one. -/
  hits_eq : x.usage.hits = y.usage.hits + (if ev.hits t y.rawInput then 1 else 0) +
    if ev.spoils t g then 1 else 0

/-- Where an entry comes from that is found after an event. -/
inductive Arises (e : Engine) (ev : Event σ ε) (t : SiteId) (g : Fingerprint) (x : Entry) : Prop
  /-- The cache took it. -/
  | taken {k} (htaken : ev.taken? = some k) (site_eq : k.site = t)
    (fingerprint_eq : k.fingerprint = g) (rawInput_eq : x.rawInput = k.input)
    (post_eq : x.post = k.post) (hits_eq : x.usage.hits = k.hits)
  /-- It stood there before. -/
  | carried {y} (hy : e.cache.peek? t g = some y) (carries : Carries ev t g y x)

namespace Engine

variable {e e' : Engine} {site : CallSite} {input : List UInt64} {draw : UInt64} {d : Decision}
  {t : SiteId} {g fp : Fingerprint} {x z : Entry} {answer : Dispatched σ ε}

/-- The cache is looked up, with an effect if something is found. -/
theorem Consulting.cache_eq (h : Consulting e site input draw e' d) :
    e'.cache = if e.finding site input = .same ∨ e.finding site input = .other then
      (e.marked site.id (e.codec.encode site.id input)).cache else e.cache := by
  cases h with
  | refuse width => simp [finding_of_width_ne width]
  | bypass width demoted => simp [finding_of_demoted width demoted]
  | miss width memoizable absent => simp [finding_of_absent width memoizable absent]
  | collision width memoizable present other =>
    simp [finding_of_other width memoizable present other]
  | replay width memoizable present same => simp [finding_of_same width memoizable present same]
  | recheck width memoizable present same => simp [finding_of_same width memoizable present same]

/-- An entry that a consultation finds has one more hit, whatever its input is. All others stay as
they are. -/
theorem Consulting.exists_peek? (h : Consulting e site input draw e' d)
    (hz : e'.cache.peek? t g = some z) :
    ∃ y, e.cache.peek? t g = some y ∧ z.rawInput = y.rawInput ∧ z.post = y.post ∧
      z.usage.hits = y.usage.hits +
        if (e.finding site input = .same ∨ e.finding site input = .other) ∧
          site.id = t ∧ e.codec.encode site.id input = g then 1 else 0 := by
  rw [h.cache_eq] at hz
  split at hz
  · next hfinds =>
    rw [marked, Cache.peek?_lookup] at hz
    split at hz
    · next hk =>
      obtain ⟨y, hy, rfl⟩ := Option.map_eq_some_iff.mp hz
      refine ⟨y, hy, rfl, rfl, ?_⟩
      rw [if_pos ⟨hfinds, hk⟩]
      rfl
    · next hk =>
      refine ⟨z, hz, rfl, rfl, ?_⟩
      rw [if_neg fun h => hk h.2, UInt64.add_zero]
  · next hfinds =>
    refine ⟨z, hz, rfl, rfl, ?_⟩
    rw [if_neg fun h => hfinds h.1, UInt64.add_zero]

/-- A dispatch that finds its input recorded finds the entry with that input. -/
theorem WellFiled.finds_iff {y : Entry} (he : WellFiled e) (hsame : e.finding site input = .same)
    (hy : e.cache.peek? t g = some y) :
    site.id = t ∧ input = y.rawInput ↔ site.id = t ∧ e.codec.encode site.id input = g := by
  refine and_congr_right ?_
  rintro rfl
  constructor
  · rintro rfl
    exact (he site.id g y.toHit (by rw [Cache.recorded?, hy, Option.map_some])).2
  · rintro rfl
    obtain ⟨hit, present, rfl⟩ := recorded?_of_finding_same hsame
    rw [Cache.recorded?, hy] at present
    rw [← Option.some.inj present]
    rfl

/-- A consultation carries entries on, if nothing is written afterwards and the handler fails where
another input was found. -/
theorem Consulting.arises (h : Consulting e site input draw e' d) (he : WellFiled e)
    (hz : e'.cache.peek? t g = some z)
    (hunwritten : (Event.dispatch e draw ⟨site, input, answer⟩).writes t g = false)
    (hfailed : site.id = t ∧ e.codec.encode site.id input = g → e.finding site input = .other →
      (Event.dispatch e draw ⟨site, input, answer⟩).failed = true)
    (hraw : x.rawInput = z.rawInput) (hpost : x.post = z.post)
    (hhits : x.usage.hits = z.usage.hits) :
    Arises e (.dispatch e draw ⟨site, input, answer⟩) t g x := by
  obtain ⟨y, hy, hraw', hpost', hhits'⟩ := h.exists_peek? hz
  refine .carried hy ⟨hunwritten, hraw.trans hraw', hpost.trans hpost', ?_⟩
  rw [hhits, hhits']
  cases hfinds : e.finding site input with
  | misfit | demoted | absent => simp [Event.hits, Event.spoils, hfinds]
  | same => simp [Event.hits, Event.spoils, hfinds, he.finds_iff hfinds hy]
  | other =>
    by_cases hk : site.id = t ∧ e.codec.encode site.id input = g
    · have hspoils : (Event.dispatch e draw ⟨site, input, answer⟩).spoils t g = true := by
        rw [Event.spoils, hfailed hk hfinds]
        obtain ⟨rfl, rfl⟩ := hk
        simp [hfinds]
      rw [if_pos ⟨.inr rfl, hk⟩, hspoils]
      simp [Event.hits, hfinds]
    · have hne : ¬ (site.id = t ∧ e.codec.encode t input = g) := by
        rintro ⟨rfl, hfp⟩
        exact hk ⟨rfl, hfp⟩
      rw [if_neg fun h => hk h.2]
      simp [Event.hits, Event.spoils, hfinds, hne]

/-- The cache takes a result under the fingerprint of its input. -/
theorem writes_dispatch_of_ne (hk : ¬ (site.id = t ∧ e.codec.encode site.id input = g)) :
    (Event.dispatch e draw ⟨site, input, answer⟩).writes t g = false := by
  rw [Event.writes, Event.taken?]
  split
  · cases answer.result with
    | ok post => exact decide_eq_false hk
    | error err => rfl
  · rfl

/-- Only what was not found is put to the cache. -/
theorem writes_dispatch_of_finding (habsent : e.finding site input ≠ .absent)
    (hother : e.finding site input ≠ .other) :
    (Event.dispatch e draw ⟨site, input, answer⟩).writes t g = false := by
  simp [Event.writes, Event.taken?, habsent, hother]

/-- A dispatch that fails writes nothing. -/
theorem writes_dispatch_of_error {err : DispatchError ε} (herror : answer.result = .error err) :
    (Event.dispatch e draw ⟨site, input, answer⟩).writes t g = false := by
  simp [Event.writes, Event.taken?, herror]

/-- A result is taken where it was missing, unless there is no room. -/
theorem taken?_dispatch {post : PostState}
    (hfinds : e.finding site input = .absent ∨ e.finding site input = .other)
    (hok : answer.result = .ok post)
    (houtcome : ((e.marked site.id (e.codec.encode site.id input)).cache.insert site.id
      (e.codec.encode site.id input) input post).outcome ≠ .skipped) :
    (Event.dispatch e draw ⟨site, input, answer⟩).taken? =
      some ⟨site.id, e.codec.encode site.id input, input, post, 0⟩ := by
  simp [Event.taken?, hfinds, hok, houtcome]

/-- A new result is put to the cache if nothing or another input was found. -/
theorem Consulting.finding_of_record
    (h : Consulting e site input draw e' (.run (.record fp))) :
    e'.cache = (e.marked site.id fp).cache ∧
      (e.finding site input = .absent ∨ e.finding site input = .other) := by
  cases h with
  | miss width memoizable absent =>
    rw [marked_of_none absent]
    exact ⟨rfl, .inl (finding_of_absent width memoizable absent)⟩
  | collision width memoizable present other =>
    exact ⟨rfl, .inr (finding_of_other width memoizable present other)⟩

/-- What is not recorded was found for the input or not looked for. -/
theorem Consulting.finding_of_not_record (h : Consulting e site input draw e' d)
    (hd : ∀ fp, d ≠ .run (.record fp)) :
    e.finding site input ≠ .absent ∧ e.finding site input ≠ .other := by
  cases h with
  | refuse width => simp [finding_of_width_ne width]
  | bypass width demoted => simp [finding_of_demoted width demoted]
  | miss width memoizable absent => exact absurd rfl (hd _)
  | collision width memoizable present other => exact absurd rfl (hd _)
  | replay width memoizable present same trusted =>
    simp [finding_of_same width memoizable present same]
  | recheck width memoizable present same sampled =>
    simp [finding_of_same width memoizable present same]

/-- If no new result is recorded, entries are carried on. -/
theorem Consulting.arises_of_not_record (h : Consulting e site input draw e' d) (he : WellFiled e)
    (hd : ∀ fp, d ≠ .run (.record fp)) (hz : e'.cache.peek? t g = some z)
    (hraw : x.rawInput = z.rawInput) (hpost : x.post = z.post)
    (hhits : x.usage.hits = z.usage.hits) :
    Arises e (.dispatch e draw ⟨site, input, answer⟩) t g x := by
  obtain ⟨habsent, hother⟩ := h.finding_of_not_record hd
  exact h.arises he hz (writes_dispatch_of_finding habsent hother)
    (fun _ hfinds => absurd hfinds hother) hraw hpost hhits

variable {handler : Handler σ ε} {world : σ}

/-- A contradiction adds no entry and changes none. -/
theorem peek?_of_contradict {v : Violation} (hx : (e.contradict v).1.cache.peek? t g = some x) :
    e.cache.peek? t g = some x := by
  unfold contradict at hx
  cases hconfig : e.config.invalidateOnDemotion with
  | true =>
    rw [hconfig] at hx
    exact Cache.peek?_of_invalidate hx
  | false =>
    rw [hconfig] at hx
    exact hx

/-- Every entry that is found after a dispatch was taken or is carried on. -/
theorem arises_of_dispatch (he : WellFiled e)
    (hx : (e.dispatch site input draw handler world).engine.cache.peek? t g = some x) :
    Arises e (.dispatch e draw ⟨site, input, e.dispatch site input draw handler world⟩) t g x := by
  have hd := dispatch_dispatching e site input draw handler world
  generalize e.dispatch site input draw handler world = d at hd hx ⊢
  cases hd with
  | refused width =>
    exact (Consulting.refuse width).arises_of_not_record he (by simp) hx rfl rfl rfl
  | replayed consulted => exact consulted.arises_of_not_record he (by simp) hx rfl rfl rfl
  | failed consulted outcome =>
    exact consulted.arises he hx (writes_dispatch_of_error rfl) (fun _ _ => rfl) rfl rfl rfl
  | bypassed consulted outcome => exact consulted.arises_of_not_record he (by simp) hx rfl rfl rfl
  | @recorded e' fp post world' events consulted outcome =>
    obtain rfl := consulted.fingerprint_eq rfl
    obtain ⟨hcache, hfinds⟩ := consulted.finding_of_record
    have hx : (e'.cache.step (.insert site.id (e.codec.encode site.id input) input
        post)).peek? t g = some x := by rwa [cache_record] at hx
    cases Cache.stems_of_peek? hx with
    | recorded hop taken =>
      cases hop
      have houtcome : (e'.cache.insert site.id (e.codec.encode site.id input) input post).outcome ≠
          .skipped := fun h => taken (congrArg Cache.Answer.insertion h)
      exact .taken (taken?_dispatch hfinds rfl (hcache ▸ houtcome)) rfl rfl rfl rfl rfl
    | kept away hz =>
      have hne := of_decide_eq_false away
      exact consulted.arises he hz (writes_dispatch_of_ne hne) (fun hk _ => absurd hk hne) rfl rfl
        rfl
    | restored hop | used hop | confirmed hop => cases hop
  | @confirmed e' fp post world' events consulted outcome =>
    rw [Cache.peek?_confirm] at hx
    split at hx
    · obtain ⟨z, hz, rfl⟩ := Option.map_eq_some_iff.mp hx
      exact consulted.arises_of_not_record he (by simp) hz rfl rfl rfl
    · exact consulted.arises_of_not_record he (by simp) hx rfl rfl rfl
  | contradicted consulted outcome differs =>
    exact consulted.arises_of_not_record he (by simp) (peek?_of_contradict hx) rfl rfl rfl

/-- Every entry that is found after an offer was taken or is carried on. -/
theorem arises_of_load {s : SnapshotEntry} (hx : (e.load s).engine.cache.peek? t g = some x) :
    Arises e (.offer e s : Event σ ε) t g x := by
  have carried (hx : e.cache.peek? t g = some x)
      (hunwritten : (Event.offer e s : Event σ ε).writes t g = false) :
      Arises e (.offer e s : Event σ ε) t g x :=
    .carried hx ⟨hunwritten, rfl, rfl, by simp [Event.hits, Event.spoils]⟩
  have hl := load_loads e s
  generalize (e.load s).engine = e', (e.load s).accepted = accepted at hl hx
  cases hl with
  | unfit misfit =>
    refine carried hx ?_
    simp [Event.writes, Event.taken?, admits_eq_false misfit]
  | offered registered memoizable width =>
    have hadmits := admits_eq_true registered memoizable width
    have hx : (e.cache.step (.insertCold s.site (e.codec.encode s.site s.inputs) s.inputs s.post
        s.hits)).peek? t g = some x := by rwa [cache_countInsertion] at hx
    cases Cache.stems_of_peek? hx with
    | restored hop taken =>
      cases hop
      have houtcome : (e.cache.insertCold s.site (e.codec.encode s.site s.inputs) s.inputs s.post
          s.hits).outcome ≠ .skipped := fun h => taken (congrArg Cache.Answer.insertion h)
      have hstores : (Event.offer e s : Event σ ε).stores = true := by simp [hadmits, houtcome]
      exact .taken (if_pos hstores) rfl rfl rfl rfl rfl
    | kept away hz =>
      have hne := of_decide_eq_false away
      refine carried hz ?_
      rw [Event.writes, Event.taken?]
      split
      · exact decide_eq_false hne
      · rfl
    | recorded hop | used hop | confirmed hop => cases hop

end Engine

/-- What has become of a result that the cache took, through later events. -/
structure Served (k : Taken) (later : List (Event σ ε)) (x : Entry) : Prop where
  /-- Nothing was written under its context. -/
  unwritten : ∀ ev ∈ later, ev.writes k.site k.fingerprint = false
  /-- The input is the one that was taken. -/
  rawInput_eq : x.rawInput = k.input
  /-- The result is the one that was taken. -/
  post_eq : x.post = k.post
  /-- The hits are those it started with, those of its input and those that failures of other inputs
  left behind. -/
  hits_eq : x.usage.hits = k.hits + .ofNat (later.countP (Event.hits k.site k.input)) +
    .ofNat (later.countP (Event.spoils k.site k.fingerprint))

variable {k : Taken} {log later : List (Event σ ε)} {ev : Event σ ε} {e e' : Engine} {x y : Entry}

/-- An entry that goes on is served by one event more. -/
theorem Served.snoc (h : Served k later y) (hc : Carries ev k.site k.fingerprint y x) :
    Served k (later ++ [ev]) x where
  unwritten := by
    intro ev' hev
    rcases List.mem_append.mp hev with hev | hev
    · exact h.unwritten ev' hev
    · rw [List.mem_singleton.mp hev]
      exact hc.unwritten
  rawInput_eq := hc.rawInput_eq.trans h.rawInput_eq
  post_eq := hc.post_eq.trans h.post_eq
  hits_eq := by
    rw [hc.hits_eq, h.rawInput_eq, h.hits_eq, List.countP_append, List.countP_append,
      List.countP_singleton, List.countP_singleton, UInt64.ofNat_add, UInt64.ofNat_add]
    cases ev.hits k.site k.input <;> cases ev.spoils k.site k.fingerprint <;> simp <;> grind

/-- Every entry comes from the latest event that wrote it. -/
def Credited (log : List (Event σ ε)) (e : Engine) : Prop :=
  ∀ t g x, e.cache.peek? t g = some x →
    ∃ earlier ev later k, log = earlier ++ ev :: later ∧ ev.taken? = some k ∧ k.site = t ∧
      k.fingerprint = g ∧ Served k later x

/-- Taking entries away leaves the others credited. -/
theorem Credited.mono (h : Credited log e)
    (hold : ∀ t g x, e'.cache.peek? t g = some x → e.cache.peek? t g = some x) :
    Credited log e' :=
  fun t g x hx => h t g x (hold t g x hx)

/-- An event from which every entry arises keeps the entries credited. -/
theorem Credited.snoc (h : Credited log e)
    (hnew : ∀ t g x, e'.cache.peek? t g = some x → Arises e ev t g x) :
    Credited (log ++ [ev]) e' := by
  intro t g x hx
  cases hnew t g x hx with
  | @taken k htaken hsite hfp hraw hpost hhits =>
    refine ⟨log, ev, [], k, rfl, htaken, hsite, hfp, ⟨by simp, hraw, hpost, ?_⟩⟩
    simp [hhits]
  | carried hy hc =>
    obtain ⟨earlier, first, later, k, rfl, htaken, rfl, rfl, hserved⟩ := h t g _ hy
    exact ⟨earlier, first, later ++ [ev], k, by simp, htaken, rfl, rfl, hserved.snoc hc⟩

/-- A warm start is an event for each of its offers. -/
theorem Credited.loadAll (h : Credited log e) (l : List SnapshotEntry) :
    Credited (log ++ e.offers l) (e.loadAll l).engine := by
  induction l generalizing e log with
  | nil =>
    rw [Engine.offers, List.append_nil]
    exact h
  | cons s rest ih =>
    have hfirst : Credited (log ++ [.offer e s]) (e.load s).engine :=
      h.snoc fun t g x => Engine.arises_of_load
    have hrest := ih hfirst
    rw [List.append_assoc] at hrest
    exact hrest

namespace Session

open Engine

variable {s : Session σ}

/-- Every operation keeps the credits. -/
theorem credited_step (h : Credited log s.engine) (hs : WellFiled s.engine)
    (op : Op SiteId σ ε) : Credited (log ++ s.events .own op) (s.step .own op).engine := by
  cases op with
  | register id slots =>
    rw [events, List.append_nil]
    refine h.mono fun t g x hx => ?_
    rcases registered_cases s.engine id slots with heq | ⟨-, readSet, heq⟩ <;>
      rwa [step, heq] at hx
  | dispatch id input draw handler =>
    cases hsite : s.engine.callSite? id with
    | none => simpa [events, step, call?, Resolver.own, hsite] using h
    | some site =>
      have hnext : Credited (log ++ [.dispatch s.engine draw
          ⟨site, input, s.engine.dispatch site input draw handler s.world⟩])
          (s.engine.dispatch site input draw handler s.world).engine :=
        h.snoc fun t g x => arises_of_dispatch hs
      simpa [events, step, call?, Resolver.own, hsite] using hnext
  | exportSnapshot =>
    rw [events, List.append_nil]
    exact h
  | warmStart snapshot => exact h.loadAll snapshot.entries
  | invalidate id =>
    rw [events, List.append_nil]
    exact h.mono fun t g x hx => Cache.peek?_of_invalidate hx
  | clear =>
    rw [events, List.append_nil]
    exact h.mono fun t g x hx => by cases Cache.peek?_clear.symm.trans hx

/-- In every session the entries are credited to the events that wrote them. -/
theorem credited_run (h : Credited log s.engine) (hs : WellFiled s.engine)
    (ops : List (Op SiteId σ ε)) :
    Credited (log ++ s.log .own ops) (s.run .own ops).engine := by
  induction ops generalizing s log with
  | nil =>
    rw [Session.log, List.append_nil]
    exact h
  | cons op rest ih =>
    have hrun := ih (credited_step h hs op) (wellFiled_step hs op)
    rw [List.append_assoc] at hrun
    exact hrun

/-- In every session, whatever the handlers, snapshots, settings, codec, policy and samples are, the
hits of an entry are those it was taken with and the later dispatches of its input, but for the
later dispatches whose input shares its fingerprint and whose handler fails: these count as well. An
export shows the hits of the entries. -/
theorem hits_eq_uses (config : Config) (codec : Codec) (policy : EvictionPolicy) (world : σ)
    (ops : List (Op SiteId σ ε)) :
    let start : Session σ := ⟨fresh config codec policy, world⟩
    let e := (start.run .own ops).engine
    let log := start.log .own ops
    (∀ t g x, e.cache.peek? t g = some x →
      ∃ earlier ev later k, log = earlier ++ ev :: later ∧ ev.taken? = some k ∧ k.site = t ∧
        k.fingerprint = g ∧ Served k later x ∧
        (x.usage.hits = k.hits + .ofNat (later.countP (Event.hits t x.rawInput)) ↔
          2 ^ 64 ∣ later.countP (Event.spoils t g))) ∧
    (∀ s ∈ e.exportSnapshot.entries, ∃ x, e.cache.peek? s.site s.fingerprint = some x ∧
      s.inputs = x.rawInput ∧ s.hits = x.usage.hits) := by
  intro start e log
  have hstart : Credited ([] : List (Event σ ε)) start.engine := fun t g x hx => by
    simp [start, fresh, withPolicy, Cache.peek?, Cache.shard_eq_empty] at hx
  have hcredited : Credited log e := credited_run hstart (wellFiled_fresh config codec policy) ops
  refine ⟨fun t g x hx => ?_, fun s hs => ?_⟩
  · obtain ⟨earlier, ev, later, k, hlog, htaken, rfl, rfl, hserved⟩ := hcredited t g x hx
    refine ⟨earlier, ev, later, k, hlog, htaken, rfl, rfl, hserved, ?_⟩
    rw [hserved.hits_eq, hserved.rawInput_eq, UInt64.add_eq_left, UInt64.ofNat_eq_iff_mod_eq_toNat]
    exact Nat.dvd_iff_mod_eq_zero.symm
  · obtain ⟨-, x, hx, heq⟩ := mem_exportSnapshot_iff.mp hs
    exact ⟨x, hx, congrArg SnapshotEntry.inputs heq, congrArg SnapshotEntry.hits heq⟩

/-- Fails in every run. -/
def trapped : Handler Unit String := fun _ world => (.error "trapped", world)

/-- The handler of an input fails that shares the fingerprint of a recorded one. -/
def spoiled : List (Op SiteId Unit String) :=
  [.register ⟨1⟩ [⟨10⟩], .dispatch ⟨1⟩ [5] 0 (yields { writes := [⟨10, 12⟩], nextPc := 8192 }),
    .dispatch ⟨1⟩ [3] 0 trapped]

/-- No dispatch after the first one finds its input, yet the entry is exported with a hit. -/
theorem hits_ne_uses_spoiled :
    let start : Session Unit := ⟨fresh {} (.constant ⟨0⟩) .leastRecentlyUsed, ()⟩
    let e := (start.run .own spoiled).engine
    ∃ ev later k s, start.log .own spoiled = ev :: later ∧ ev.taken? = some k ∧
      (∀ ev' ∈ later, ev'.writes k.site k.fingerprint = false) ∧
      s ∈ e.exportSnapshot.entries ∧ s.site = k.site ∧ s.fingerprint = k.fingerprint ∧
      s.inputs = k.input ∧
      s.hits ≠ k.hits + .ofNat (later.countP (Event.hits s.site s.inputs)) := by
  refine ⟨_, _, ⟨⟨1⟩, ⟨0⟩, [5], { writes := [⟨10, 12⟩], nextPc := 8192 }, 0⟩,
    ⟨⟨1⟩, 0, [5], [⟨10, 12⟩], 8192, 1⟩, rfl, ?_, ?_, ?_, rfl, rfl, rfl, ?_⟩
  · rfl
  · decide +kernel
  · decide +kernel
  · decide +kernel

end Session

end CallMemo
