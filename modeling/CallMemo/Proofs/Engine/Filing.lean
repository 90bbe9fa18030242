import CallMemo.Proofs.Engine.Frame

/-!
# How results are filed

In every session that uses handles of the engine itself, a recorded result stands under a registered
site, its input has the width that the site declared, and its fingerprint is the one that the codec
gives to its input. In particular no input of a site is recorded twice.
-/

namespace CallMemo

variable {σ ε : Type}

namespace Engine

variable {e e' : Engine} {id t : SiteId} {g fp : Fingerprint} {input : List UInt64}

/-- An input belongs under a site and a fingerprint. -/
def Belongs (e : Engine) (t : SiteId) (g : Fingerprint) (input : List UInt64) : Prop :=
  (∃ readSet, e.readSet? t = some readSet ∧ input.length = readSet.width) ∧
    e.codec.encode t input = g

/-- All recorded results stand where their inputs belong. -/
def WellFiled (e : Engine) : Prop :=
  ∀ t g hit, e.cache.recorded? t g = some hit → e.Belongs t g hit.rawInput

/-- The sites of `e` are registered with `e'` as well, with the same slots. -/
def ReadSetsKept (e e' : Engine) : Prop :=
  ∀ t readSet, e.readSet? t = some readSet → e'.readSet? t = some readSet

/-- What belongs somewhere goes on belonging there while the codec and the slots stay. -/
theorem Belongs.mono (h : e.Belongs t g input) (hcodec : e'.codec = e.codec)
    (hsites : ReadSetsKept e e') : e'.Belongs t g input := by
  obtain ⟨⟨readSet, hreadSet, hwidth⟩, hg⟩ := h
  exact ⟨⟨readSet, hsites t readSet hreadSet, hwidth⟩, hcodec ▸ hg⟩

theorem Belongs.width_eq {r : Registration} (h : e.Belongs t g input)
    (hr : e.sites[t]? = some r) : input.length = r.readSet.width := by
  obtain ⟨⟨readSet, hreadSet, hwidth⟩, -⟩ := h
  rw [hwidth, Option.some.inj (hreadSet.symm.trans (readSet?_of_registered hr))]

/-- Nothing is misfiled in a new engine. -/
theorem wellFiled_fresh (config : Config) (codec : Codec) (policy : EvictionPolicy) :
    WellFiled (fresh config codec policy) := by
  intro t g hit hr
  simp [fresh, withPolicy, Cache.recorded?, Cache.peek?, Cache.shard_eq_empty] at hr

/-- An engine that records no more stays well filed. -/
theorem WellFiled.mono (he : WellFiled e) (hcodec : e'.codec = e.codec)
    (hsites : ReadSetsKept e e')
    (hr : ∀ t g hit, e'.cache.recorded? t g = some hit → e.cache.recorded? t g = some hit) :
    WellFiled e' :=
  fun t g hit hit' => (he t g hit (hr t g hit hit')).mono hcodec hsites

/-- A result may be recorded where its input belongs. -/
theorem WellFiled.write (he : WellFiled e) (post : PostState) (hcodec : e'.codec = e.codec)
    (hsites : ReadSetsKept e e') (belongs : e.Belongs id fp input)
    (hr : ∀ t g hit, e'.cache.recorded? t g = some hit →
      (id = t ∧ fp = g) ∧ hit = ⟨input, post⟩ ∨
        ¬ (id = t ∧ fp = g) ∧ e.cache.recorded? t g = some hit) : WellFiled e' := by
  intro t g hit hit'
  rcases hr t g hit hit' with ⟨⟨rfl, rfl⟩, rfl⟩ | ⟨-, hold⟩
  · exact belongs.mono hcodec hsites
  · exact (he t g hit hold).mono hcodec hsites

/-- A dispatch through a handle of the engine keeps it well filed. -/
theorem WellFiled.dispatch (he : WellFiled e) {site : CallSite}
    (hsite : e.callSite? id = some site) {draw : UInt64} {handler : Handler σ ε} {world : σ} :
    WellFiled (e.dispatch site input draw handler world).engine := by
  obtain ⟨rfl, hreg⟩ := registered_of_callSite? hsite
  have hcodec := (sameSettings_dispatch e site input draw handler world).codec_eq
  have hkept : ReadSetsKept e (e.dispatch site input draw handler world).engine :=
    fun t readSet h => (readSet?_dispatch ..).trans h
  have hd := dispatch_dispatching e site input draw handler world
  generalize e.dispatch site input draw handler world = d at hcodec hkept hd ⊢
  cases hd with
  | refused width => exact he
  | replayed consulted =>
    exact he.mono hcodec hkept fun t g hit h => by rwa [← consulted.frame.2.2.2]
  | failed consulted outcome =>
    exact he.mono hcodec hkept fun t g hit h => by rwa [← consulted.frame.2.2.2]
  | bypassed consulted outcome =>
    exact he.mono hcodec hkept fun t g hit h => by rwa [← consulted.frame.2.2.2]
  | @recorded _ _ post _ _ consulted outcome =>
    refine he.write post hcodec hkept
      ⟨⟨site.readSet, readSet?_of_registered hreg, consulted.width_eq⟩,
        consulted.fingerprint_eq rfl⟩
      fun t g hit h => ?_
    rw [cache_record] at h
    rw [← consulted.frame.2.2.2]
    exact (Cache.recorded?_insert h).imp_left And.right
  | confirmed consulted outcome =>
    refine he.mono hcodec hkept fun t g hit h => ?_
    rwa [Cache.recorded?_confirm, consulted.frame.2.2.2] at h
  | contradicted consulted outcome differs =>
    refine he.mono hcodec hkept fun t g hit h => ?_
    have hold := (contradict_frame (count _ _) _).2.2 t g hit h
    rwa [cache_count, consulted.frame.2.2.2] at hold

/-- Offering a snapshot entry keeps an engine well filed. -/
theorem WellFiled.load (he : WellFiled e) (s : SnapshotEntry) : WellFiled (e.load s).engine := by
  have hcodec := (sameSettings_load e s).codec_eq
  have hkept : ReadSetsKept e (e.load s).engine := fun t readSet h => by
    rwa [readSet?, sites_load]
  have hl := load_loads e s
  generalize (e.load s).engine = e', (e.load s).accepted = accepted at hcodec hkept hl ⊢
  cases hl with
  | unfit misfit => exact he
  | @offered r registered memoizable width =>
    have belongs : e.Belongs s.site (e.codec.encode s.site s.inputs) s.inputs :=
      ⟨⟨r.readSet, readSet?_of_registered registered, width⟩, rfl⟩
    refine he.write s.post hcodec hkept belongs fun t g hit h => ?_
    rw [cache_countInsertion] at h
    exact (Cache.recorded?_insertCold h).imp_left And.right

/-- A warm start files by the codec of the engine. -/
theorem WellFiled.loadAll (he : WellFiled e) (l : List SnapshotEntry) :
    WellFiled (e.loadAll l).engine := by
  induction l generalizing e with
  | nil => exact he
  | cons s rest ih => exact ih (he.load s)

/-- A registration keeps the slots of the sites that are there. -/
theorem readSetsKept_registered (e : Engine) (id : SiteId) (slots : List Slot) :
    ReadSetsKept e (e.registered id slots) := by
  rcases registered_cases e id slots with heq | ⟨absent, readSet, heq⟩
  · rw [heq]
    exact fun _ _ h => h
  · rw [heq]
    intro t r hr
    have hne : id ≠ t := by
      rintro rfl
      rw [readSet?, absent, Option.map_none] at hr
      cases hr
    simpa [readSet?, Std.ExtTreeMap.getElem?_insert, Std.LawfulEqOrd.compare_eq_iff_eq, hne]
      using hr

/-- Registering a site moves no result. -/
theorem WellFiled.registered (he : WellFiled e) (id : SiteId) (slots : List Slot) :
    WellFiled (e.registered id slots) := by
  refine he.mono (sameSettings_registered e id slots).codec_eq (readSetsKept_registered e id slots)
    fun t g hit h => ?_
  rcases registered_cases e id slots with heq | ⟨-, readSet, heq⟩ <;> rwa [heq] at h

end Engine

namespace Session

open Engine

variable {s : Session σ}

/-- No operation misfiles a result. -/
theorem wellFiled_step (hs : WellFiled s.engine) (op : Op SiteId σ ε) :
    WellFiled (s.step .own op).engine := by
  cases op with
  | register id slots => exact hs.registered id slots
  | dispatch id input draw handler =>
    cases hsite : s.engine.callSite? id with
    | none => simpa [step, call?, Resolver.own, hsite] using hs
    | some site => simpa [step, call?, Resolver.own, hsite] using hs.dispatch hsite
  | exportSnapshot => exact hs
  | warmStart snapshot => exact hs.loadAll snapshot.entries
  | invalidate id =>
    exact hs.mono rfl (fun _ _ h => h) fun _ _ _ h => Cache.recorded?_of_invalidate h
  | clear =>
    refine hs.mono rfl (fun _ _ h => h) fun t g hit h => ?_
    cases Cache.recorded?_clear.symm.trans h

/-- In every session all recorded results stand where their inputs belong. -/
theorem wellFiled_run (hs : WellFiled s.engine) (ops : List (Op SiteId σ ε)) :
    WellFiled (s.run .own ops).engine := by
  induction ops generalizing s with
  | nil => exact hs
  | cons op rest ih => exact ih (wellFiled_step hs op)

end Session

end CallMemo
