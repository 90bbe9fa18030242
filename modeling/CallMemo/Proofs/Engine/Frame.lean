import CallMemo.Proofs.Cache.Run
import CallMemo.Proofs.Engine.Session

/-!
# What operations leave alone

No operation of a session changes the settings or the codec, and none changes the slots that a
registered site declared. The cache goes on by calls of its own, so that whatever holds in all runs
of a cache holds in all sessions.
-/

namespace CallMemo

variable {η σ ε : Type}

namespace Engine

variable {e e' : Engine}

/-- The slots that a site declared, if it is registered. -/
def readSet? (e : Engine) (id : SiteId) : Option ReadSet := e.sites[id]?.map (·.readSet)

/-- A registered site has the slots of its registration. -/
theorem readSet?_of_registered {id : SiteId} {r : Registration} (h : e.sites[id]? = some r) :
    e.readSet? id = some r.readSet := by
  rw [readSet?, h, Option.map_some]

/-- Two engines with the same settings and the same codec. -/
structure SameSettings (e e' : Engine) : Prop where
  /-- The settings agree. -/
  config_eq : e'.config = e.config
  /-- The codecs agree. -/
  codec_eq : e'.codec = e.codec

theorem SameSettings.refl (e : Engine) : SameSettings e e := ⟨rfl, rfl⟩

theorem SameSettings.trans {e₁ e₂ e₃ : Engine} (h : SameSettings e₁ e₂) (h' : SameSettings e₂ e₃) :
    SameSettings e₁ e₃ :=
  ⟨h'.config_eq.trans h.config_eq, h'.codec_eq.trans h.codec_eq⟩

@[simp] theorem config_countInsertion {o : InsertOutcome} :
    (e.countInsertion o).config = e.config := by rw [countInsertion_eq, config_count]

/-- A contradiction changes no settings. -/
theorem sameSettings_contradict (e : Engine) (v : Violation) :
    SameSettings e (e.contradict v).1 := by
  unfold contradict
  cases e.config.invalidateOnDemotion with
  | true => exact ⟨rfl, rfl⟩
  | false => exact ⟨rfl, rfl⟩

/-- A consultation changes no settings, however it ends. -/
theorem Consulting.sameSettings {site : CallSite} {input : List UInt64} {draw : UInt64}
    {d : Decision} (h : Consulting e site input draw e' d) : SameSettings e e' :=
  ⟨h.frame.1, h.frame.2.1⟩

/-- No dispatch changes the settings or the codec. -/
theorem sameSettings_dispatch (e : Engine) (site : CallSite) (input : List UInt64) (draw : UInt64)
    (handler : Handler σ ε) (world : σ) :
    SameSettings e (e.dispatch site input draw handler world).engine := by
  have hd := dispatch_dispatching e site input draw handler world
  generalize e.dispatch site input draw handler world = d at hd ⊢
  cases hd with
  | refused width => exact .refl e
  | replayed consulted => exact consulted.sameSettings
  | failed consulted outcome => exact consulted.sameSettings.trans ⟨rfl, rfl⟩
  | bypassed consulted outcome => exact consulted.sameSettings
  | recorded consulted outcome => exact consulted.sameSettings.trans ⟨by simp [record], by simp⟩
  | confirmed consulted outcome => exact consulted.sameSettings.trans ⟨rfl, rfl⟩
  | @contradicted e₁ fp cached fresh world' events consulted outcome differs =>
    have hdrop := sameSettings_contradict (e₁.count (.validation false))
      ⟨site.id, fp, cached, fresh⟩
    exact consulted.sameSettings.trans ⟨hdrop.config_eq, hdrop.codec_eq⟩

/-- Loading an entry changes no settings. -/
theorem sameSettings_load (e : Engine) (s : SnapshotEntry) : SameSettings e (e.load s).engine := by
  have hl := load_loads e s
  generalize (e.load s).engine = e', (e.load s).accepted = accepted at hl ⊢
  cases hl with
  | unfit misfit => exact .refl e
  | offered registered memoizable width => exact ⟨by simp, by simp⟩

theorem sameSettings_loadAll (e : Engine) (l : List SnapshotEntry) :
    SameSettings e (e.loadAll l).engine := by
  induction l generalizing e with
  | nil => exact .refl e
  | cons s rest ih => exact (sameSettings_load e s).trans (ih _)

theorem sameSettings_registered (e : Engine) (id : SiteId) (slots : List Slot) :
    SameSettings e (e.registered id slots) := by
  rcases registered_cases e id slots with heq | ⟨-, readSet, heq⟩ <;> rw [heq] <;> exact ⟨rfl, rfl⟩

/-- A handler is run for inputs of the right width only. -/
theorem Consulting.width_eq {e' : Engine} {site : CallSite} {input : List UInt64} {draw : UInt64}
    {purpose : Purpose} (h : Consulting e site input draw e' (.run purpose)) :
    input.length = site.readSet.width := by
  cases h with
  | bypass width demoted => exact width
  | miss width memoizable absent => exact width
  | collision width memoizable present other => exact width
  | recheck width memoizable present same sampled => exact width

/-- A registration adds the declared slots of a site that was absent, and changes nothing if the
declaration is refused or the site is there. -/
theorem registered_eq (e : Engine) (id : SiteId) (slots : List Slot) :
    e.registered id slots =
      match ReadSet.declare id slots, e.sites[id]? with
      | .ok readSet, none => { e with sites := e.sites.insert id { readSet } }
      | _, _ => e := by
  unfold registered register
  cases ReadSet.declare id slots with
  | error err => rfl
  | ok readSet =>
    cases hs : e.sites[id]? with
    | none => simp [bind, Except.bind, pure, Except.pure]
    | some r =>
      by_cases hr : r.readSet = readSet <;>
        simp [bind, Except.bind, pure, Except.pure, throw, throwThe, MonadExceptOf.throw, hr]

/-- A demotion leaves the declared slots alone. -/
theorem readSet?_demote {id t : SiteId} : (e.demote id).readSet? t = e.readSet? t := by
  rw [readSet?, sites_demote]
  split
  · rw [Option.map_map]
    rfl
  · rfl

/-- No dispatch changes the slots of a site, not even one that demotes it. -/
theorem readSet?_dispatch (e : Engine) (site : CallSite) (input : List UInt64) (draw : UInt64)
    (handler : Handler σ ε) (world : σ) (t : SiteId) :
    (e.dispatch site input draw handler world).engine.readSet? t = e.readSet? t := by
  have of_sites {e₁ e₂ : Engine} (h : e₂.sites = e₁.sites) : e₂.readSet? t = e₁.readSet? t := by
    rw [readSet?, h, readSet?]
  have hd := dispatch_dispatching e site input draw handler world
  generalize e.dispatch site input draw handler world = d at hd ⊢
  cases hd with
  | refused width => rfl
  | replayed consulted => exact of_sites consulted.frame.2.2.1
  | failed consulted outcome => exact of_sites consulted.frame.2.2.1
  | bypassed consulted outcome => exact of_sites consulted.frame.2.2.1
  | recorded consulted outcome => exact of_sites (sites_record.trans consulted.frame.2.2.1)
  | confirmed consulted outcome => exact of_sites consulted.frame.2.2.1
  | contradicted consulted outcome differs =>
    rw [readSet?_demote]
    exact of_sites ((contradict_frame (count _ _) _).2.1.trans consulted.frame.2.2.1)

/-- Loading an entry changes no registration. -/
theorem sites_load (e : Engine) (s : SnapshotEntry) : (e.load s).engine.sites = e.sites := by
  have hl := load_loads e s
  generalize (e.load s).engine = e', (e.load s).accepted = accepted at hl ⊢
  cases hl with
  | unfit misfit => rfl
  | offered registered memoizable width => exact sites_countInsertion

@[simp] theorem sites_loadAll (e : Engine) (l : List SnapshotEntry) :
    (e.loadAll l).engine.sites = e.sites := by
  induction l generalizing e with
  | nil => rfl
  | cons s rest ih => exact (ih _).trans (sites_load e s)

/-- The cache of `e'` comes from that of `e` by calls of its own. -/
def CacheFollows (e e' : Engine) : Prop := ∃ calls, e'.cache = e.cache.run calls

/-- A cache that is left alone follows by no call. -/
theorem CacheFollows.of_eq (h : e'.cache = e.cache) : CacheFollows e e' := ⟨[], h⟩

/-- One call makes a run of its own. -/
theorem CacheFollows.one (call : Cache.Op) (h : e'.cache = e.cache.step call) :
    CacheFollows e e' :=
  ⟨[call], h⟩

/-- Runs are joined end to end. -/
theorem CacheFollows.trans {e₁ e₂ e₃ : Engine} (h : CacheFollows e₁ e₂)
    (h' : CacheFollows e₂ e₃) : CacheFollows e₁ e₃ := by
  obtain ⟨calls, h⟩ := h
  obtain ⟨more, h'⟩ := h'
  exact ⟨calls ++ more, by rw [h', h, Cache.run, Cache.run, Cache.run, List.foldl_append]⟩

/-- A consultation looks up once at most. -/
theorem Consulting.cacheFollows {site : CallSite} {input : List UInt64} {draw : UInt64}
    {d : Decision} (h : Consulting e site input draw e' d) : CacheFollows e e' := by
  have looked (h : Metrics.Happening) :
      CacheFollows e ((e.marked site.id (e.codec.encode site.id input)).count h) :=
    .one (.lookup site.id (e.codec.encode site.id input)) rfl
  cases h with
  | refuse width => exact .of_eq rfl
  | bypass width demoted => exact .of_eq rfl
  | miss width memoizable absent => exact .of_eq rfl
  | collision width memoizable present other => exact looked .collision
  | replay width memoizable present same trusted => exact looked .hit
  | recheck width memoizable present same sampled => exact looked .hit

/-- A contradiction drops the entries of its site at most. -/
theorem cacheFollows_contradict (e : Engine) (v : Violation) :
    CacheFollows e (e.contradict v).1 := by
  unfold contradict
  cases e.config.invalidateOnDemotion with
  | true => exact .one (.invalidate v.site) rfl
  | false => exact .of_eq rfl

/-- Every way of a dispatch is a run of the cache. -/
theorem cacheFollows_dispatch (e : Engine) (site : CallSite) (input : List UInt64) (draw : UInt64)
    (handler : Handler σ ε) (world : σ) :
    CacheFollows e (e.dispatch site input draw handler world).engine := by
  have hd := dispatch_dispatching e site input draw handler world
  generalize e.dispatch site input draw handler world = d at hd ⊢
  cases hd with
  | refused width => exact .of_eq rfl
  | replayed consulted => exact consulted.cacheFollows
  | failed consulted outcome => exact consulted.cacheFollows.trans (.of_eq rfl)
  | bypassed consulted outcome => exact consulted.cacheFollows
  | @recorded _ fp post _ _ consulted outcome =>
    exact consulted.cacheFollows.trans (.one (.insert site.id fp input post) (by simp; rfl))
  | @confirmed _ fp _ _ _ consulted outcome =>
    exact consulted.cacheFollows.trans (.one (.confirm site.id fp) rfl)
  | @contradicted e₁ fp cached fresh world' events consulted outcome differs =>
    have hdrop := cacheFollows_contradict (e₁.count (.validation false))
      ⟨site.id, fp, cached, fresh⟩
    exact consulted.cacheFollows.trans (hdrop.trans (.of_eq rfl))

/-- A registration leaves the cache alone. -/
theorem cacheFollows_registered (e : Engine) (id : SiteId) (slots : List Slot) :
    CacheFollows e (e.registered id slots) := by
  rcases registered_cases e id slots with heq | ⟨-, readSet, heq⟩ <;> rw [heq] <;> exact .of_eq rfl

/-- Loading an entry is one insertion at most. -/
theorem cacheFollows_load (e : Engine) (s : SnapshotEntry) : CacheFollows e (e.load s).engine := by
  have hl := load_loads e s
  generalize (e.load s).engine = e', (e.load s).accepted = accepted at hl ⊢
  cases hl with
  | unfit misfit => exact .of_eq rfl
  | offered registered memoizable width =>
    exact .one (.insertCold s.site (e.codec.encode s.site s.inputs) s.inputs s.post s.hits)
      cache_countInsertion

/-- Loading them all is a run of insertions. -/
theorem cacheFollows_loadAll (e : Engine) (l : List SnapshotEntry) :
    CacheFollows e (e.loadAll l).engine := by
  induction l generalizing e with
  | nil => exact .of_eq rfl
  | cons s rest ih => exact (cacheFollows_load e s).trans (ih _)

end Engine

namespace Session

open Engine

variable {resolve : Resolver η} {s : Session σ}

/-- No operation changes the settings. -/
theorem sameSettings_step (op : Op η σ ε) : SameSettings s.engine (s.step resolve op).engine := by
  cases op with
  | register id slots => exact sameSettings_registered s.engine id slots
  | dispatch name input draw handler =>
    cases hsite : resolve s.engine name with
    | none => simpa [step, call?, hsite] using SameSettings.refl s.engine
    | some site => simpa [step, call?, hsite] using sameSettings_dispatch ..
  | warmStart snapshot => exact sameSettings_loadAll s.engine snapshot.entries
  | exportSnapshot | invalidate | clear => exact ⟨rfl, rfl⟩

/-- No session changes the settings or the codec. -/
theorem sameSettings_run (ops : List (Op η σ ε)) :
    SameSettings s.engine (s.run resolve ops).engine := by
  induction ops generalizing s with
  | nil => exact .refl s.engine
  | cons op rest ih => exact (sameSettings_step op).trans ih

/-- Every operation is a run of the cache. -/
theorem cacheFollows_step (op : Op η σ ε) : CacheFollows s.engine (s.step resolve op).engine := by
  cases op with
  | register id slots =>
    exact cacheFollows_registered s.engine id slots
  | dispatch name input draw handler =>
    cases hsite : resolve s.engine name with
    | none => exact .of_eq (by simp [step, call?, hsite])
    | some site => simpa [step, call?, hsite] using cacheFollows_dispatch ..
  | exportSnapshot => exact .of_eq rfl
  | warmStart snapshot => exact cacheFollows_loadAll s.engine snapshot.entries
  | invalidate id => exact .one (.invalidate id) rfl
  | clear => exact .one (.clear) rfl

/-- The cache of a session is the cache after some run. -/
theorem cacheFollows_run (ops : List (Op η σ ε)) :
    CacheFollows s.engine (s.run resolve ops).engine := by
  induction ops generalizing s with
  | nil => exact .of_eq rfl
  | cons op rest ih => exact (cacheFollows_step op).trans ih

end Session

end CallMemo
