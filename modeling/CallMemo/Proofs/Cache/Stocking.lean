import CallMemo.Proofs.Cache.Stalest

/-!
# Stocking a shard

Entries are added to a shard one by one under new fingerprints. Once it is full, its lowest ranked
entry gives way each time before the next one is added, and the newcomer is not compared with it. So
the shard ends up with the last entry and with the highest ranked ones of all that came before it.
-/

namespace CallMemo

/-- The rank of an entry in its shard. -/
def Rank.ofEntry (p : Fingerprint × Entry) : Rank := ⟨p.2.recency, p.1.val⟩

/-- How many entries of a list rank above an entry. -/
def countAbove (l : List (Fingerprint × Entry)) (p : Fingerprint × Entry) : Nat :=
  l.countP fun q => Rank.ofEntry p < Rank.ofEntry q

/-- The entry is one of the `n` highest ranked ones of a list. -/
def Leads (n : Nat) (l : List (Fingerprint × Entry)) (p : Fingerprint × Entry) : Prop :=
  p ∈ l ∧ countAbove l p < n

variable {n : Nat} {l : List (Fingerprint × Entry)} {p q : Fingerprint × Entry}

/-- A newcomer counts for the entries that it ranks above. -/
theorem countAbove_concat : countAbove (l ++ [q]) p =
    countAbove l p + if Rank.ofEntry p < Rank.ofEntry q then 1 else 0 := by
  simp [countAbove, List.countP_singleton]

/-- What ranks above an entry also ranks above a lower ranked one. -/
theorem countAbove_le (h : Rank.ofEntry p < Rank.ofEntry q) : countAbove l q ≤ countAbove l p :=
  List.countP_mono_left fun _ _ hr => by
    simpa using Rank.lt_trans h (of_decide_eq_true hr)

/-- And so does the entry itself. -/
theorem countAbove_lt (hq : q ∈ l) (h : Rank.ofEntry p < Rank.ofEntry q) :
    countAbove l q < countAbove l p := by
  obtain ⟨l₁, l₂, rfl⟩ := List.append_of_mem hq
  have h₁ := countAbove_le (l := l₁) h
  have h₂ := countAbove_le (l := l₂) h
  simp only [countAbove, List.countP_append, List.countP_cons, h, Rank.lt_irrefl] at h₁ h₂ ⊢
  simp only [decide_true, decide_false, if_true, Bool.false_eq_true, if_false]
  omega

/-- In a short list every entry leads. -/
theorem leads_of_length_le (hp : p ∈ l) (h : l.length ≤ n) : Leads n l p := by
  refine ⟨hp, Nat.lt_of_lt_of_le (List.countP_lt_length_iff.mpr ⟨p, hp, ?_⟩) h⟩
  simp [Rank.lt_irrefl]

/-- What leads with a newcomer led without it. -/
theorem Leads.of_concat (h : Leads n (l ++ [q]) p) (hp : p ∈ l) : Leads n l p := by
  have hlt := h.2
  rw [countAbove_concat] at hlt
  exact ⟨hp, by omega⟩

/-- Of the highest ranked entries and a further one, all lead again but the lowest ranked. -/
theorem leads_concat_of_lt {v : Fingerprint × Entry} (hv : v = q ∨ Leads n l v)
    (hp : p = q ∨ Leads n l p) (hlt : Rank.ofEntry v < Rank.ofEntry p) :
    Leads n (l ++ [q]) p := by
  have hne : v ≠ p := fun heq => Rank.lt_irrefl _ (heq ▸ hlt)
  rcases hp with rfl | ⟨hmem, hcount⟩
  · -- the lower ranked one is another leader, and no less ranks above it
    have hlead := (hv.resolve_left hne).2
    have hle := countAbove_le (l := l) hlt
    refine ⟨by simp, ?_⟩
    rw [countAbove_concat, if_neg (Rank.lt_irrefl _)]
    omega
  · refine ⟨List.mem_append_left _ hmem, ?_⟩
    rw [countAbove_concat]
    split
    · next habove =>
      rcases hv with rfl | hv
      · exact absurd (Rank.lt_trans hlt habove) (Rank.lt_irrefl _)
      · have hlead := countAbove_lt hmem hlt
        have := hv.2
        omega
    · omega

/-- Distinct fingerprints are distinct without the last one. -/
theorem nodup_of_concat (hdistinct : ((l ++ [p]).map Prod.fst).Nodup) : (l.map Prod.fst).Nodup :=
  hdistinct.sublist ((List.sublist_append_left l [p]).map Prod.fst)

/-- The last one is none of the others. -/
theorem not_mem_of_concat (hdistinct : ((l ++ [p]).map Prod.fst).Nodup) :
    p.1 ∉ l.map Prod.fst := by
  rw [List.map_append] at hdistinct
  exact fun hmem => (List.nodup_append.mp hdistinct).2.2 _ hmem _ (by simp) rfl

namespace Shard

open EvictionPolicy (leastRecentlyUsed)

variable {sh : Shard} {v g : Fingerprint} {e x : Entry}

/-- The shard after its lowest ranked entry has given way, if it holds `k` entries. -/
def relieved (k : Nat) (sh : Shard) : Shard :=
  match (if k ≤ sh.size then leastRecentlyUsed.victim? sh else none) with
  | some v => sh.erase v
  | none => sh

/-- The shard after entries were added one by one, with room for `k`. -/
def stocked (k : Nat) (l : List (Fingerprint × Entry)) : Shard :=
  l.foldl (fun sh p => (relieved k sh).insert p.1 p.2) ∅

/-- The newcomer is put in once there is room for it. -/
theorem stocked_concat {k : Nat} :
    stocked k (l ++ [p]) = (relieved k (stocked k l)).insert p.1 p.2 := by
  rw [stocked, List.foldl_append]
  rfl

/-- Where there is room none gives way. -/
theorem relieved_of_lt {k : Nat} (h : sh.size < k) : relieved k sh = sh := by
  rw [relieved, if_neg (Nat.not_le.mpr h)]

theorem relieved_of_le {k : Nat} (h : k ≤ sh.size)
    (named : leastRecentlyUsed.victim? sh = some v) : relieved k sh = sh.erase v := by
  rw [relieved, if_pos h, named]

theorem getElem?_erase_eq_some_iff :
    (sh.erase v)[g]? = some x ↔ v ≠ g ∧ sh[g]? = some x := by
  simp only [Std.ExtTreeMap.getElem?_erase, Std.LawfulEqOrd.compare_eq_iff_eq]
  by_cases hg : v = g <;> simp [hg]

theorem getElem?_insert_eq_some_iff (absent : p.1 ∉ sh) :
    (sh.insert p.1 p.2)[g]? = some x ↔ (g, x) = p ∨ sh[g]? = some x := by
  obtain ⟨f, e⟩ := p
  simp only [Std.ExtTreeMap.getElem?_insert, Std.LawfulEqOrd.compare_eq_iff_eq]
  by_cases hg : f = g
  · subst hg
    have hnone : sh[f]? = none := Std.ExtTreeMap.getElem?_eq_none absent
    simp [hnone, eq_comm]
  · simp [hg, Ne.symm hg]

/-- The victim ranks below all other entries. -/
theorem rank_victim_lt (named : leastRecentlyUsed.victim? sh = some v) (hv : sh[v]? = some e)
    (hg : sh[g]? = some x) (hne : v ≠ g) : Rank.ofEntry (v, e) < Rank.ofEntry (g, x) := by
  obtain ⟨e', he', hle⟩ := EvictionPolicy.rank_victim_le named
  obtain rfl : e' = e := Option.some.inj (he'.symm.trans hv)
  exact Rank.lt_of_le_of_name_ne (hle g x hg) fun hname => hne (congrArg Fingerprint.mk hname)

/-- As many entries as are left without the victim rank above it. -/
theorem size_erase_le_countAbove (named : leastRecentlyUsed.victim? sh = some v)
    (hv : sh[v]? = some e) (hl : ∀ g x, sh[g]? = some x → (g, x) ∈ l) :
    (sh.erase v).size ≤ countAbove l (v, e) := by
  have hkeys : (sh.erase v).keys ⊆
      (l.filter fun q => Rank.ofEntry (v, e) < Rank.ofEntry q).map Prod.fst := by
    intro g hg
    obtain ⟨x, hx⟩ := Option.isSome_iff_exists.mp
      (Std.ExtTreeMap.mem_iff_isSome_getElem?.mp (Std.ExtTreeMap.mem_keys.mp hg))
    obtain ⟨hne, hx⟩ := getElem?_erase_eq_some_iff.mp hx
    exact List.mem_map.mpr ⟨(g, x), List.mem_filter.mpr
      ⟨hl g x hx, by simpa using rank_victim_lt named hv hx hne⟩, rfl⟩
  have hle := (List.subperm_of_subset Std.ExtTreeMap.nodup_keys hkeys).length_le
  rwa [Std.ExtTreeMap.length_keys, List.length_map, ← List.countP_eq_length_filter] at hle

/-- What remains was there. -/
theorem getElem?_of_relieved {k : Nat} (h : (relieved k sh)[g]? = some x) : sh[g]? = some x := by
  unfold relieved at h
  split at h
  · exact (getElem?_erase_eq_some_iff.mp h).2
  · exact h

/-- A shard holds nothing that was not added. -/
theorem mem_of_getElem?_stocked {k : Nat} (h : (stocked k l)[g]? = some x) : (g, x) ∈ l := by
  induction l using List.reverseRecOn with
  | nil => simp [stocked] at h
  | append_singleton l p ih =>
    simp only [stocked_concat, Std.ExtTreeMap.getElem?_insert, Std.LawfulEqOrd.compare_eq_iff_eq]
      at h
    split at h
    · next hg => simp [← hg, ← Option.some.inj h]
    · exact List.mem_append_left _ (ih (getElem?_of_relieved h))

/-- A full shard has a victim. -/
theorem exists_victim_of_le (h : n + 1 ≤ sh.size) :
    ∃ v e, leastRecentlyUsed.victim? sh = some v ∧ sh[v]? = some e := by
  obtain ⟨v, named⟩ := EvictionPolicy.exists_victim_of_size_pos (by omega : 0 < sh.size)
  obtain ⟨e, he, -⟩ := EvictionPolicy.rank_victim_le named
  exact ⟨v, e, named, he⟩

/-- Room for one is made. -/
theorem size_relieved (h : sh.size ≤ n + 1) : (relieved (n + 1) sh).size = min n sh.size := by
  by_cases full : n + 1 ≤ sh.size
  · obtain ⟨v, e, named, he⟩ := exists_victim_of_le full
    have herase := size_erase_of_present
      (Std.ExtTreeMap.mem_iff_isSome_getElem?.mpr (Option.isSome_of_eq_some he))
    rw [relieved_of_le full named]
    omega
  · rw [relieved_of_lt (Nat.not_le.mp full)]
    omega

/-- What a shard holds that was stocked with distinct entries, and what remains there once room is
made for the next one. -/
structure Stocked (n : Nat) (l : List (Fingerprint × Entry)) (sh : Shard) : Prop where
  /-- No entry is given up before the shard is full. -/
  size_eq : sh.size = min (n + 1) l.length
  /-- The highest ranked entries remain. -/
  getElem?_relieved : ∀ g x, (relieved (n + 1) sh)[g]? = some x ↔ Leads n l (g, x)

/-- Nothing is stocked of an empty list. -/
theorem stocked_nil : Stocked n [] ∅ where
  size_eq := by simp
  getElem?_relieved g x := by
    rw [relieved_of_lt (by simp)]
    simp [Leads]

/-- The newcomer is not there yet. -/
theorem Stocked.absent (h : Stocked n l sh) (hdistinct : ((l ++ [p]).map Prod.fst).Nodup) :
    p.1 ∉ relieved (n + 1) sh := by
  intro hmem
  obtain ⟨x, hx⟩ := Option.isSome_iff_exists.mp (Std.ExtTreeMap.mem_iff_isSome_getElem?.mp hmem)
  exact not_mem_of_concat hdistinct
    (List.mem_map.mpr ⟨(p.1, x), ((h.getElem?_relieved p.1 x).mp hx).1, rfl⟩)

/-- The shard holds the newcomer and the highest ranked ones of all that came before. -/
theorem Stocked.getElem?_insert (h : Stocked n l sh)
    (hdistinct : ((l ++ [p]).map Prod.fst).Nodup) :
    ((relieved (n + 1) sh).insert p.1 p.2)[g]? = some x ↔ (g, x) = p ∨ Leads n l (g, x) := by
  rw [getElem?_insert_eq_some_iff (h.absent hdistinct), h.getElem?_relieved]

/-- The newcomer takes the room that was made for it. -/
theorem Stocked.size_insert (h : Stocked n l sh) (hdistinct : ((l ++ [p]).map Prod.fst).Nodup) :
    ((relieved (n + 1) sh).insert p.1 p.2).size = min (n + 1) (l ++ [p]).length := by
  have hsize := h.size_eq
  rw [size_insert_of_absent (h.absent hdistinct), size_relieved (by omega), hsize,
    List.length_append, List.length_singleton]
  omega

/-- The next entry takes its place. -/
theorem Stocked.concat (h : Stocked n l sh) (hdistinct : ((l ++ [p]).map Prod.fst).Nodup) :
    Stocked n (l ++ [p]) ((relieved (n + 1) sh).insert p.1 p.2) where
  size_eq := h.size_insert hdistinct
  getElem?_relieved g x := by
    have hsize := h.size_insert hdistinct
    have hmem {g : Fingerprint} {x : Entry} :=
      h.getElem?_insert (g := g) (x := x) hdistinct
    generalize (relieved (n + 1) sh).insert p.1 p.2 = next at hsize hmem ⊢
    have hin {g : Fingerprint} {x : Entry} (hx : next[g]? = some x) : (g, x) ∈ l ++ [p] := by
      rcases hmem.mp hx with heq | hlead
      · simp [heq]
      · simp [hlead.1]
    have hlead {g : Fingerprint} {x : Entry} (hq : Leads n (l ++ [p]) (g, x)) :
        next[g]? = some x := by
      rcases List.mem_append.mp hq.1 with hl | hp
      · exact hmem.mpr (.inr (hq.of_concat hl))
      · exact hmem.mpr (.inl (List.mem_singleton.mp hp))
    by_cases full : n + 1 ≤ next.size
    · obtain ⟨v, e, named, he⟩ := exists_victim_of_le full
      have herase := size_erase_of_present
        (Std.ExtTreeMap.mem_iff_isSome_getElem?.mpr (Option.isSome_of_eq_some he))
      rw [relieved_of_le full named, getElem?_erase_eq_some_iff]
      constructor
      · rintro ⟨hne, hx⟩
        exact leads_concat_of_lt (hmem.mp he) (hmem.mp hx) (rank_victim_lt named he hx hne)
      · intro hq
        refine ⟨?_, hlead hq⟩
        rintro rfl
        -- all that are left rank above the victim, so it does not lead
        obtain rfl : e = x := Option.some.inj (he.symm.trans (hlead hq))
        have habove := size_erase_le_countAbove named he fun g x => hin
        have := hq.2
        omega
    · have hlength : (l ++ [p]).length ≤ n := by omega
      rw [relieved_of_lt (Nat.not_le.mp full)]
      exact ⟨fun hx => leads_of_length_le (hin hx) hlength, hlead⟩

/-- Putting in entries with distinct fingerprints, one after another, leaves the leading ones. -/
theorem stocked_of_nodup (hdistinct : (l.map Prod.fst).Nodup) :
    Stocked n l (stocked (n + 1) l) := by
  induction l using List.reverseRecOn with
  | nil => exact stocked_nil
  | append_singleton l p ih =>
    rw [stocked_concat]
    exact (ih (nodup_of_concat hdistinct)).concat hdistinct

/-- A shard that was stocked with distinct entries holds the last one and the highest ranked ones of
those before it. -/
theorem getElem?_stocked_concat (hdistinct : ((l ++ [p]).map Prod.fst).Nodup) :
    (stocked (n + 1) (l ++ [p]))[g]? = some x ↔ (g, x) = p ∨ Leads n l (g, x) := by
  rw [stocked_concat]
  exact (stocked_of_nodup (nodup_of_concat hdistinct)).getElem?_insert hdistinct

/-- That is as many as there are places, or all. -/
theorem size_stocked (hdistinct : (l.map Prod.fst).Nodup) :
    (stocked (n + 1) l).size = min (n + 1) l.length :=
  (stocked_of_nodup hdistinct).size_eq

end Shard

namespace Cache

variable {c c' : Cache} {s : SiteId} {f : Fingerprint} {x : Entry} {o : InsertOutcome}

/-- As long as the cache has a free place for a site that is not full, an insertion of a new entry
concerns the shard of that site only. -/
structure Stocking (s : SiteId) (f : Fingerprint) (x : Entry) (c c' : Cache) (o : InsertOutcome) :
    Prop where
  /-- Room is made in the shard of the site, and no other shard changes. -/
  shard_eq : ∀ t, c'.shard t =
    if s = t then (Shard.relieved c.limits.perSite.toNat (c.shard s)).insert f x else c.shard t
  /-- An entry is added, or another one gives way to it. -/
  outcome : o = .inserted ∧ c'.total = c.total + 1 ∨ (∃ v, o = .evicted s v) ∧ c'.total = c.total

/-- An insertion stocks the shard of its site, if the bound in all does not press. -/
theorem Inserting.stocking (h : Inserting s f x c c' o) (hlru : c.policy = .leastRecentlyUsed)
    (absent : f ∉ c.shard s) (hsite : 0 < c.limits.perSite.toNat)
    (spare : c.entryCount s < c.limits.perSite.toNat → c.total ≠ c.limits.total) :
    Stocking s f x c c' o := by
  have hp : c.policy.Decides := hlru ▸ EvictionPolicy.leastRecentlyUsed_decides
  have hshard {sh : Shard} (hpeek : ∀ t g, c'.peek? t g = (c.setShard s sh).peek? t g)
      (t : SiteId) : c'.shard t = if s = t then sh else c.shard t := by
    rw [← shard_setShard]
    exact Std.ExtTreeMap.ext_getElem? (hpeek t)
  cases h with
  | replaced present => exact absurd present absent
  | inserted absent' room peek?_eq total_eq =>
    have hlt : (c.shard s).size < c.limits.perSite.toNat := Nat.not_le.mp (not_tight_iff.mp room).1
    refine ⟨hshard fun t g => ?_, .inl ⟨rfl, total_eq⟩⟩
    rw [Shard.relieved_of_lt hlt, peek?_eq, peek?_setShard_insert]
  | evicted absent' gives peek?_eq total_eq =>
    cases gives with
    | full full named =>
      refine ⟨hshard fun t g => ?_, .inr ⟨⟨_, rfl⟩, total_eq⟩⟩
      rw [Shard.relieved_of_le full (hlru ▸ named), peek?_eq, peek?_setShard_erase_insert]
    | own room crowded => exact absurd crowded (spare room)
    | elsewhere room crowded => exact absurd crowded (spare room)
  | skipped absent' refuses =>
    cases refuses with
    | full full unnamed =>
      rw [entryCount_eq_zero (hp.eq_empty unnamed)] at full
      omega
    | crowded room crowded => exact absurd crowded (spare room)

end Cache

end CallMemo
