import CallMemo.Proofs.Cache.Victims

/-!
# The least recently used entry

The default policy names an entry of every shard that has one, and no entry of the shard was used
longer ago.
-/

namespace CallMemo

namespace EvictionPolicy

/-- The policy names entries of the shard it is given, if it names any. -/
def NamesMembers (p : EvictionPolicy) : Prop :=
  ∀ shard fp, p.victim? shard = some fp → fp ∈ shard

variable {sh : Shard} {v : Fingerprint}

/-- The victim ranks lowest. -/
theorem rank_victim_le (h : leastRecentlyUsed.victim? sh = some v) :
    ∃ e, sh[v]? = some e ∧ ∀ (g : Fingerprint) (x : Entry), sh[g]? = some x →
      (⟨e.recency, v.val⟩ : Rank) ≤ ⟨x.recency, g.val⟩ := by
  obtain ⟨⟨v, e⟩, hmin, rfl⟩ := Option.map_eq_some_iff.mp h
  refine ⟨e, Std.ExtTreeMap.mem_toList_iff_getElem?_eq_some.mp (List.minOn?_mem hmin),
    fun g x hx => ?_⟩
  have hle := List.apply_get_minOn?_le_of_mem
    (f := fun p : Fingerprint × Entry => (⟨p.2.recency, p.1.val⟩ : Rank))
    (Std.ExtTreeMap.mem_toList_iff_getElem?_eq_some.mpr hx)
  simpa only [hmin, Option.get_some] using hle

/-- The victim is the entry that was not used for the longest time. -/
theorem lastUsed_victim_le (h : leastRecentlyUsed.victim? sh = some v) :
    ∃ e, sh[v]? = some e ∧
      ∀ (g : Fingerprint) (x : Entry), sh[g]? = some x → e.usage.lastUsed ≤ x.usage.lastUsed := by
  obtain ⟨e, he, hle⟩ := rank_victim_le h
  refine ⟨e, he, fun g x hx => ?_⟩
  have hrank := hle g x hx
  rw [Rank.le_iff, Rank.lt_iff, Priority.lt_iff] at hrank
  rw [← UInt64.not_lt]
  exact fun hlt => hrank (.inl (.inl hlt))

/-- The policy names entries of the shard. -/
theorem leastRecentlyUsed_namesMembers : leastRecentlyUsed.NamesMembers := by
  intro sh v h
  obtain ⟨e, he, -⟩ := lastUsed_victim_le h
  exact Std.ExtTreeMap.mem_iff_isSome_getElem?.mpr (Option.isSome_of_eq_some he)

/-- A shard with an entry has a victim. -/
theorem exists_victim (h : v ∈ sh) : ∃ w, leastRecentlyUsed.victim? sh = some w := by
  obtain ⟨e, he⟩ := Option.isSome_iff_exists.mp (Std.ExtTreeMap.mem_iff_isSome_getElem?.mp h)
  have hmem : (v, e) ∈ sh.toList := Std.ExtTreeMap.mem_toList_iff_getElem?_eq_some.mpr he
  have hsome : (leastRecentlyUsed.victim? sh).isSome := by
    rw [leastRecentlyUsed, Option.isSome_map]
    exact List.isSome_minOn?_of_mem hmem
  exact Option.isSome_iff_exists.mp hsome

/-- The policy names an entry of every shard that has one, since no two entries rank lowest. -/
theorem exists_victim_of_size_pos (h : 0 < sh.size) :
    ∃ v, leastRecentlyUsed.victim? sh = some v := by
  rw [← Std.ExtTreeMap.length_keys] at h
  obtain ⟨g, hg⟩ := List.exists_mem_of_length_pos h
  exact exists_victim (Std.ExtTreeMap.mem_keys.mp hg)

/-- The victim is the one entry that ranks lowest. -/
theorem victim?_eq_some_iff :
    leastRecentlyUsed.victim? sh = some v ↔ ∃ e, sh[v]? = some e ∧
      ∀ (g : Fingerprint) (x : Entry), sh[g]? = some x →
        (⟨e.recency, v.val⟩ : Rank) ≤ ⟨x.recency, g.val⟩ := by
  constructor
  · exact rank_victim_le
  · rintro ⟨e, he, hle⟩
    obtain ⟨w, hw⟩ := exists_victim
      (Std.ExtTreeMap.mem_iff_isSome_getElem?.mpr (Option.isSome_of_eq_some he))
    obtain ⟨e', he', hle'⟩ := rank_victim_le hw
    have hname : v.val = w.val := Rank.name_eq (hle w e' he') (hle' v e he)
    rw [hw, show v = w from congrArg Fingerprint.mk hname]

end EvictionPolicy

end CallMemo
