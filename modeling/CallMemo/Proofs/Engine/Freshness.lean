import CallMemo.Proofs.Engine.Session

/-!
# Freshness of replays

Whatever the handlers do, a result that is returned without a run is the last one that was obtained
for the very site and input: never one of another input with the same fingerprint, and never an
older one. The invariant is that each recorded result of a site that may be served from the cache is
the last one obtained for its input, and that it stands under the fingerprint of that input.
-/

namespace CallMemo

variable {σ ε : Type} {past more : List Recording} {id t : SiteId} {input x : List UInt64}
  {post : PostState}

/-- Later results come first. -/
theorem latest?_append :
    latest? (past ++ more) t x = (latest? more t x).or (latest? past t x) := by
  simp only [latest?, List.reverse_append, List.find?_append]
  cases more.reverse.find? fun r => r.site = t ∧ r.input = x <;> simp

/-- Results of other sites or for other inputs are passed over. -/
theorem latest?_append_of_forall_ne (h : ∀ r ∈ more, ¬ (r.site = t ∧ r.input = x)) :
    latest? (past ++ more) t x = latest? past t x := by
  have hn : latest? more t x = none := by
    simp only [latest?, Option.map_eq_none_iff, List.find?_eq_none, List.mem_reverse]
    simpa using h
  rw [latest?_append, hn, Option.none_or]

@[simp] theorem latest?_append_singleton :
    latest? (past ++ [⟨t, x, post⟩]) t x = some post := by
  simp [latest?]

namespace Engine

variable {e e' : Engine} {s : Session σ}

/-- The site was found impure. -/
def Demoted (e : Engine) (t : SiteId) : Prop :=
  ∃ r, e.sites[t]? = some r ∧ r.isMemoizable = false

/-- The recorded results of a site are the last ones obtained for their inputs. -/
def Current (past : List Recording) (e : Engine) (t : SiteId) : Prop :=
  ∀ g hit, e.cache.recorded? t g = some hit →
    e.codec.encode t hit.rawInput = g ∧ latest? past t hit.rawInput = some hit.post

/-- The results of all sites that were not demoted are current. -/
def Fresh (past : List Recording) (e : Engine) : Prop := ∀ t, ¬ e.Demoted t → Current past e t

/-- A new engine has nothing that could be out of date. -/
theorem fresh_initial (config : Config) (codec : Codec) (policy : EvictionPolicy) :
    Fresh [] (fresh config codec policy) := by
  intro t _ g hit hr
  simp [fresh, withPolicy, Cache.recorded?, Cache.peek?, Cache.shard_eq_empty] at hr

/-- A site for which nothing is recorded anew stays current while other sites obtain results. -/
theorem Current.mono (h : Current past e t) (more : List Recording)
    (hcodec : e'.codec = e.codec)
    (hr : ∀ g hit, e'.cache.recorded? t g = some hit → e.cache.recorded? t g = some hit)
    (hmore : ∀ r ∈ more, r.site ≠ t) : Current (past ++ more) e' t := by
  intro g hit hit'
  obtain ⟨hg, hl⟩ := h g hit (hr g hit hit')
  rw [hcodec, latest?_append_of_forall_ne fun r hm hk => hmore r hm hk.1]
  exact ⟨hg, hl⟩

/-- A result that is obtained and written under its own fingerprint is the last one for its input,
and stays apart from the results for other inputs. -/
theorem Current.record (h : Current past e id) (hcodec : e'.codec = e.codec)
    (hr : ∀ g hit, e'.cache.recorded? id g = some hit →
      (e.codec.encode id input = g ∧ hit = ⟨input, post⟩) ∨
        e.codec.encode id input ≠ g ∧ e.cache.recorded? id g = some hit) :
    Current (past ++ [⟨id, input, post⟩]) e' id := by
  intro g hit hit'
  rw [hcodec]
  rcases hr g hit hit' with ⟨hg, rfl⟩ | ⟨hg, hold⟩
  · exact ⟨hg, latest?_append_singleton⟩
  · obtain ⟨hold, hl⟩ := h g hit hold
    have hne : input ≠ hit.rawInput := fun he => hg (he ▸ hold)
    rw [latest?_append_of_forall_ne (by simpa using hne)]
    exact ⟨hold, hl⟩

/-- An engine that records no more results, with the same sites and codec, stays fresh. -/
theorem Fresh.mono (he : Fresh past e) (e' : Engine) (hcodec : e'.codec = e.codec)
    (hsites : e'.sites = e.sites)
    (hr : ∀ t g hit, e'.cache.recorded? t g = some hit → e.cache.recorded? t g = some hit) :
    Fresh past e' := by
  intro t ht
  have hcur := he t (by simpa [Demoted, hsites] using ht)
  simpa using hcur.mono [] hcodec (hr t) (by simp)

/-- Results obtained for one site leave the others fresh, so the site itself is what matters. -/
theorem Fresh.extend (he : Fresh past e) (id : SiteId) (hcodec : e'.codec = e.codec)
    (hsites : ∀ t, t ≠ id → e'.sites[t]? = e.sites[t]?)
    (hr : ∀ t, t ≠ id → ∀ g hit,
      e'.cache.recorded? t g = some hit → e.cache.recorded? t g = some hit)
    (hmore : ∀ r ∈ more, r.site = id)
    (own : ¬ e'.Demoted id → Current (past ++ more) e' id) : Fresh (past ++ more) e' := by
  intro t ht
  by_cases hid : t = id
  · subst hid
    exact own ht
  · have hcur := he t (by simpa [Demoted, hsites t hid] using ht)
    exact hcur.mono more hcodec (hr t hid) fun r hm heq => hid (heq ▸ hmore r hm)

/-- A dispatch through a handle of the engine keeps it fresh. -/
theorem Fresh.dispatch (he : Fresh past e) {site : CallSite} (hsite : e.callSite? id = some site)
    {draw : UInt64} {handler : Handler σ ε} {world : σ} :
    Fresh (past ++ (Call.mk site input
        (e.dispatch site input draw handler world)).recording?.toList)
      (e.dispatch site input draw handler world).engine := by
  obtain ⟨rfl, hreg⟩ := registered_of_callSite? hsite
  have hd := dispatch_dispatching e site input draw handler world
  generalize e.dispatch site input draw handler world = d at hd ⊢
  cases hd with
  | refused width => simpa [Call.recording?] using he
  | replayed consulted =>
    obtain ⟨-, hcodec, hsites, hr⟩ := consulted.frame
    simpa [Call.recording?] using he.mono _ hcodec hsites fun t g hit h => by rwa [← hr]
  | failed consulted outcome =>
    obtain ⟨-, hcodec, hsites, hr⟩ := consulted.frame
    simpa [Call.recording?] using he.mono (Engine.count _ _) hcodec hsites
      fun t g hit h => by rwa [← hr]
  | bypassed consulted outcome =>
    obtain ⟨-, hcodec, hsites, hr⟩ := consulted.frame
    refine he.extend site.id hcodec (by simp [hsites])
      (fun t _ g hit h => by rwa [← hr]) (by simp [Call.recording?]) fun hnot => ?_
    -- the result of a demoted site is not recorded, but the site is not served any more
    cases consulted with
    | bypass width demoted => exact absurd ⟨_, hreg, demoted⟩ hnot
  | @recorded e₁ fp post world' events consulted outcome =>
    obtain ⟨-, hcodec, hsites, hr⟩ := consulted.frame
    obtain rfl := consulted.fingerprint_eq rfl
    have cases_insert {t : SiteId} {g : Fingerprint} {hit : Hit}
        (h : (e₁.record site.id (e.codec.encode site.id input) input post).1.cache.recorded? t g =
          some hit) :
        (site.id = t ∧ e.codec.encode site.id input = g) ∧ hit = ⟨input, post⟩ ∨
          ¬ (site.id = t ∧ e.codec.encode site.id input = g) ∧
            e.cache.recorded? t g = some hit := by
      rw [cache_record] at h
      rw [← hr]
      exact (Cache.recorded?_insert h).imp_left And.right
    refine he.extend site.id (by simp [hcodec]) (by simp [hsites]) (fun t ht g hit h => ?_)
      (by simp [Call.recording?]) fun hnot => ?_
    · rcases cases_insert h with ⟨⟨hid, -⟩, -⟩ | ⟨-, hold⟩
      · exact absurd hid.symm ht
      · exact hold
    · have hcur := he site.id (by simpa [Demoted, hsites] using hnot)
      exact hcur.record (by simp [hcodec]) fun g hit h =>
        (cases_insert h).imp (fun hk => ⟨hk.1.2, hk.2⟩) fun hk => ⟨fun hg => hk.1 ⟨rfl, hg⟩, hk.2⟩
  | @confirmed e₁ fp post world' events consulted outcome =>
    obtain ⟨-, hcodec, hsites, hr⟩ := consulted.frame
    obtain rfl := consulted.fingerprint_eq rfl
    have held := consulted.recorded?_eq rfl
    refine he.extend site.id hcodec (by simp [hsites])
      (fun t _ g hit h => by rwa [Cache.recorded?_confirm, hr] at h)
      (by simp [Call.recording?]) fun hnot => ?_
    have hcur := he site.id (by simpa [Demoted, hsites] using hnot)
    refine hcur.record hcodec fun g hit h => ?_
    rw [Cache.recorded?_confirm, hr] at h
    by_cases hg : e.codec.encode site.id input = g
    · subst hg
      exact .inl ⟨rfl, Option.some.inj (h.symm.trans held)⟩
    · exact .inr ⟨hg, h⟩
  | @contradicted e₁ fp cached fresh world' events consulted outcome differs =>
    obtain ⟨-, hcodec, hsites, hr⟩ := consulted.frame
    obtain ⟨hcodec', hsites', hr'⟩ := contradict_frame (e₁.count (.validation false))
      ⟨site.id, fp, cached, fresh⟩
    refine he.extend site.id (hcodec'.trans hcodec) (fun t ht => ?_)
      (fun t _ g hit h => ?_) (by simp [Call.recording?]) fun hnot => ?_
    · rw [sites_demote, if_neg (Ne.symm ht), hsites', sites_count, hsites]
    · have h' := hr' t g hit h
      rwa [cache_count, hr] at h'
    · refine absurd ⟨{ site.toRegistration with status := .demoted }, ?_, rfl⟩ hnot
      rw [sites_demote, if_pos rfl, hsites', sites_count, hsites, hreg, Option.map_some]

/-- Offering a snapshot entry keeps an engine fresh, if the entry counts when it is loaded. -/
theorem Fresh.load (he : Fresh past e) (s : SnapshotEntry) :
    Fresh (past ++ if (e.load s).accepted then [⟨s.site, s.inputs, s.post⟩] else [])
      (e.load s).engine := by
  have hl := load_loads e s
  generalize (e.load s).engine = e', (e.load s).accepted = accepted at hl ⊢
  cases hl with
  | unfit misfit => simpa using he
  | offered registered memoizable width =>
    have hins (t : SiteId) (g : Fingerprint) (hit : Hit)
        (h : (e.cache.insertCold s.site (e.codec.encode s.site s.inputs) s.inputs s.post
          s.hits).cache.recorded? t g = some hit) := Cache.recorded?_insertCold h
    generalize e.cache.insertCold s.site (e.codec.encode s.site s.inputs) s.inputs s.post
      s.hits = insertion at hins ⊢
    by_cases refused : insertion.outcome = .skipped
    · -- a refused entry writes nothing and counts for nothing
      simp only [refused, bne_self_eq_false, Bool.false_eq_true, if_false, List.append_nil]
      refine he.mono _ (by simp) (by simp) fun t g hit h => ?_
      rcases hins t g hit (by simpa using h) with ⟨kept, -⟩ | ⟨-, hold⟩
      · exact absurd refused kept
      · exact hold
    · simp only [bne_iff_ne, ne_eq, refused, not_false_eq_true, if_true]
      refine he.extend s.site (by simp) (by simp) (fun t ht g hit h => ?_) (by simp)
        fun hnot => ?_
      · rcases hins t g hit (by simpa using h) with ⟨-, ⟨hid, -⟩, -⟩ | ⟨-, hold⟩
        · exact absurd hid.symm ht
        · exact hold
      · have hcur := he s.site (by simpa [Demoted] using hnot)
        refine hcur.record (by simp) fun g hit h => ?_
        exact (hins s.site g hit (by simpa using h)).imp (fun hk => ⟨hk.2.1.2, hk.2.2⟩)
          fun hk => ⟨fun hg => hk.1 ⟨rfl, hg⟩, hk.2⟩

/-- After a warm start the results are up to date with the history that it adds to. -/
theorem Fresh.loadAll (he : Fresh past e) (l : List SnapshotEntry) :
    Fresh (past ++ e.loadedResults l) (e.loadAll l).engine := by
  induction l generalizing e past with
  | nil => simpa [loadedResults, loadAll] using he
  | cons s rest ih =>
    rw [loadedResults, ← List.append_assoc]
    exact ih (he.load s)

/-- A registration adds a site of which nothing is recorded, or changes nothing. -/
theorem Fresh.registered (he : Fresh past e) (id : SiteId) (slots : List Slot) :
    Fresh past (e.registered id slots) := by
  rcases registered_cases e id slots with heq | ⟨absent, readSet, heq⟩
  · rwa [heq]
  · rw [heq]
    intro t ht
    refine he t fun hdemoted => ?_
    obtain ⟨r, hr, hd⟩ := hdemoted
    refine ht ⟨r, ?_, hd⟩
    have hne : id ≠ t := by
      rintro rfl
      rw [absent] at hr
      cases hr
    simpa [Std.ExtTreeMap.getElem?_insert, Std.LawfulEqOrd.compare_eq_iff_eq, hne] using hr

end Engine

namespace Session

open Engine

variable {s : Session σ}

/-- Every operation keeps the engine of a session fresh. -/
theorem fresh_step (hs : Fresh past s.engine) (op : Op SiteId σ ε) :
    Fresh (past ++ s.results .own op) (s.step .own op).engine := by
  cases op with
  | register id slots => simpa [results, step, call?] using hs.registered id slots
  | dispatch id input draw handler =>
    cases hsite : s.engine.callSite? id with
    | none => simpa [results, step, call?, Resolver.own, hsite] using hs
    | some site =>
      simpa [results, step, call?, Resolver.own, hsite] using hs.dispatch hsite
  | exportSnapshot => simpa [results, step, call?] using hs
  | warmStart snapshot => exact hs.loadAll snapshot.entries
  | invalidate id =>
    simpa [results, step, call?] using
      hs.mono { s.engine with cache := (s.engine.cache.invalidate id).2 } rfl rfl
        fun _ _ _ h => Cache.recorded?_of_invalidate h
  | clear =>
    have hclear : Fresh past { s.engine with cache := s.engine.cache.clear } := by
      refine hs.mono _ rfl rfl fun t g hit h => ?_
      rw [Cache.recorded?_clear] at h
      cases h
    simpa [results, step, call?] using hclear

/-- In every session the results are up to date with the history. -/
theorem fresh_run (hs : Fresh past s.engine) (ops : List (Op SiteId σ ε)) :
    Fresh (past ++ s.history .own ops) (s.run .own ops).engine := by
  induction ops generalizing s past with
  | nil => simpa [history, run] using hs
  | cons op rest ih =>
    rw [history, ← List.append_assoc]
    exact ih (fresh_step hs op)

/-- In every session, whatever the handlers, snapshots, settings, codec, policy and samples are: if
a dispatch returns a result without a run of its handler, then results were obtained for the same
site and the same input before, and the last of them is the one returned. -/
theorem replay_eq_latest (config : Config) (codec : Codec) (policy : EvictionPolicy) (world : σ)
    (ops : List (Op SiteId σ ε)) (op : Op SiteId σ ε) (call : Call σ ε) (post : PostState) :
    let start : Session σ := ⟨fresh config codec policy, world⟩
    call ∈ (start.run .own ops).call? .own op → call.answer.ran = false →
      call.answer.result = .ok post →
      latest? (start.history .own ops) call.site.id call.input = some post := by
  intro start hcall unrun returned
  have hs : Fresh (start.history .own ops) (start.run .own ops).engine := by
    simpa using fresh_run (s := start) (fresh_initial config codec policy) ops
  generalize start.run .own ops = s at hcall hs
  obtain ⟨id, input, draw, handler, site, rfl, hsite, rfl⟩ := mem_call?_iff.mp hcall
  obtain ⟨rfl, hreg⟩ := registered_of_callSite? hsite
  have hd := dispatch_dispatching s.engine site input draw handler s.world
  dsimp only at unrun returned ⊢
  generalize s.engine.dispatch site input draw handler s.world = d at hd unrun returned
  cases hd with
  | replayed consulted =>
    obtain rfl := Except.ok.inj returned
    have held := consulted.recorded?_eq rfl
    cases consulted with
    | replay width memoizable present same trusted =>
      refine (hs site.id ?_ _ _ held).2
      rintro ⟨r, hr, hdem⟩
      obtain rfl := Option.some.inj (hreg.symm.trans hr)
      simp [memoizable] at hdem
  | refused width => cases returned
  | _ => cases unrun

/-- A handler that always yields the same result. -/
def yields (post : PostState) : Handler Unit String := fun _ world => (.ok post, world)

/-- Two inputs of a site take turns under one fingerprint. -/
def rivals : List (Op SiteId Unit String) :=
  [.register ⟨1⟩ [⟨10⟩], .dispatch ⟨1⟩ [5] 0 (yields ⟨[], 1⟩),
    .dispatch ⟨1⟩ [3] 0 (yields ⟨[], 2⟩), .dispatch ⟨1⟩ [5] 0 (yields ⟨[], 3⟩)]

/-- Inputs that share a fingerprint take each other's place, and each replay is the last result. -/
theorem replay_eq_latest_rivals :
    let start : Session Unit := ⟨fresh {} (.constant ⟨0⟩) .leastRecentlyUsed, ()⟩
    ∃ call, call ∈ (start.run .own rivals).call? .own (.dispatch ⟨1⟩ [5] (-1) (yields ⟨[], 4⟩)) ∧
      call.answer.ran = false ∧ call.answer.result = .ok ⟨[], 3⟩ ∧
      latest? (start.history .own rivals) call.site.id call.input = some ⟨[], 3⟩ :=
  ⟨_, rfl, rfl, rfl, replay_eq_latest {} (.constant ⟨0⟩) .leastRecentlyUsed () rivals
    (.dispatch ⟨1⟩ [5] (-1) (yields ⟨[], 4⟩)) _ _ rfl rfl rfl⟩

end Session

end CallMemo
