import CallMemo.Proofs.Cache.Victims

/-!
# Placing an entry

The attempts of an insertion as a relation with one rule for each way an attempt ends. Invariants of
the cache are proved by induction on its derivations, one case per rule, and never look at the loop
again. The first consequence is what an insertion does to the recorded results: the entry stands
under its own context unless it was refused, and no other result appears or changes.
-/

namespace CallMemo

namespace Cache

/-- An insertion finds no free place: the site or the cache is full. -/
def Tight (c : Cache) (site : SiteId) : Prop :=
  c.limits.perSite.toNat ≤ (c.shard site).size ∨ c.limits.total ≤ c.total

/-- The policy does not name a victim of the requester's own, or is not to be asked for one. -/
def OwnSpared (c : Cache) (site : SiteId) (ownTurn : Bool) : Prop :=
  c.limits.perSite.toNat ≤ (c.shard site).size ∨ ownTurn = true →
    c.policy.victim? (c.shard site) = none

/-- The outcome of taking a free place, which may have been freed by an earlier attempt. -/
def freePlaceOutcome : Option (SiteId × Fingerprint) → InsertOutcome
  | some (site, victim) => .evicted site victim
  | none => .inserted

/-- With `n` attempts left, placing `e` takes the cache to another one with the given outcome.
`reclaimed` and `ownTurn` are what earlier attempts left behind. -/
inductive Placement (site : SiteId) (fp : Fingerprint) (e : Entry) :
    Nat → Option (SiteId × Fingerprint) → Bool → Cache → Cache → InsertOutcome → Prop
  /-- The entry takes the place of the one under the same fingerprint. -/
  | replaced {n reclaimed ownTurn c} (present : fp ∈ c.shard site) :
      Placement site fp e (n + 1) reclaimed ownTurn c
        (c.setShard site ((c.shard site).insert fp e)) .replaced
  /-- Both bounds leave a place free. -/
  | vacant {n reclaimed ownTurn c} (absent : fp ∉ c.shard site) (room : ¬ c.Tight site) :
      Placement site fp e (n + 1) reclaimed ownTurn c
        { c.setShard site ((c.shard site).insert fp e) with total := c.total + 1 }
        (freePlaceOutcome reclaimed)
  /-- The victim of the site itself gives way. -/
  | own {n reclaimed ownTurn c victim} (absent : fp ∉ c.shard site) (tight : c.Tight site)
      (turn : c.limits.perSite.toNat ≤ (c.shard site).size ∨ ownTurn = true)
      (named : c.policy.victim? (c.shard site) = some victim) :
      Placement site fp e (n + 1) reclaimed ownTurn c
        (c.setShard site (((c.shard site).erase victim).insert fp e)) (.evicted site victim)
  /-- An entry of another site gives way and the next attempt goes on from there. -/
  | elsewhere {n reclaimed ownTurn c c' other victim outcome} (absent : fp ∉ c.shard site)
      (tight : c.Tight site) (spared : c.OwnSpared site ownTurn)
      (stalest : c.stalestElsewhere? site (c.victimPriority? (c.shard site)) =
        some (other, victim))
      (rest : Placement site fp e n (some (other, victim)) false (c.evict other victim) c'
        outcome) :
      Placement site fp e (n + 1) reclaimed ownTurn c c' outcome
  /-- No other site has a lower ranked victim, so the next attempt may take the site's own. -/
  | ownNext {n reclaimed ownTurn c c' outcome} (absent : fp ∉ c.shard site)
      (tight : c.Tight site) (spared : c.OwnSpared site ownTurn)
      (stalest : c.stalestElsewhere? site (c.victimPriority? (c.shard site)) = none)
      (ranked : (c.victimPriority? (c.shard site)).isSome)
      (rest : Placement site fp e n reclaimed true c c' outcome) :
      Placement site fp e (n + 1) reclaimed ownTurn c c' outcome
  /-- No site has a victim. -/
  | noRoom {n reclaimed ownTurn c} (absent : fp ∉ c.shard site) (tight : c.Tight site)
      (spared : c.OwnSpared site ownTurn)
      (stalest : c.stalestElsewhere? site (c.victimPriority? (c.shard site)) = none)
      (unranked : c.victimPriority? (c.shard site) = none) :
      Placement site fp e (n + 1) reclaimed ownTurn c c .skipped
  /-- All attempts are used up. -/
  | exhausted {reclaimed ownTurn c} (absent : fp ∉ c.shard site) :
      Placement site fp e 0 reclaimed ownTurn c c .skipped

variable {c : Cache} {site : SiteId} {fp : Fingerprint} {e : Entry}

/-- A place is free if neither bound is reached. -/
theorem not_tight_iff : ¬ c.Tight site ↔
    ¬ c.limits.perSite.toNat ≤ (c.shard site).size ∧ c.total < c.limits.total := by
  simp [Tight]

/-- The loop follows the rules. -/
theorem place_placement (n : Nat) (reclaimed : Option (SiteId × Fingerprint)) (ownTurn : Bool)
    (absent : n = 0 → fp ∉ c.shard site) :
    Placement site fp e n reclaimed ownTurn c (c.place site fp e n reclaimed ownTurn).cache
      (c.place site fp e n reclaimed ownTurn).outcome := by
  induction n generalizing c reclaimed ownTurn with
  | zero => exact .exhausted (absent rfl)
  | succ n ih =>
    unfold place
    dsimp only
    by_cases present : (c.shard site).contains fp = true
    · rw [if_pos present]
      exact .replaced present
    rw [if_neg present]
    by_cases room : c.Tight site
    · rw [if_neg fun h => not_tight_iff.mpr h room]
      cases hv : (if c.limits.perSite.toNat ≤ (c.shard site).size ∨ ownTurn = true
        then c.policy.victim? (c.shard site) else none) with
      | some victim =>
        split at hv
        · next turn => exact .own present room turn hv
        · cases hv
      | none =>
        have spared : c.OwnSpared site ownTurn := fun turn => by rwa [if_pos turn] at hv
        cases hs : c.stalestElsewhere? site (c.victimPriority? (c.shard site)) with
        | some found =>
          obtain ⟨other, victim⟩ := found
          refine .elsewhere present room spared hs (ih _ _ fun _ => ?_)
          rwa [shard_evict_of_ne (ne_of_stalestElsewhere? hs)]
        | none =>
          dsimp only
          by_cases ranked : (c.victimPriority? (c.shard site)).isSome = true
          · rw [if_pos ranked]
            exact .ownNext present room spared hs ranked (ih _ _ fun _ => present)
          · rw [if_neg ranked]
            exact .noRoom present room spared hs (Option.not_isSome_iff_eq_none.mp ranked)
    · rw [if_pos (not_tight_iff.mp room)]
      cases reclaimed <;> exact .vacant present room

/-- No attempt touches the bounds or the policy. -/
theorem Placement.settings_eq {n : Nat} {reclaimed : Option (SiteId × Fingerprint)}
    {ownTurn : Bool} {c' : Cache} {outcome : InsertOutcome}
    (h : Placement site fp e n reclaimed ownTurn c c' outcome) :
    c'.limits = c.limits ∧ c'.policy = c.policy := by
  induction h with
  | elsewhere absent tight spared stalest rest ih => exact ih
  | ownNext absent tight spared stalest ranked rest ih => exact ih
  | _ => exact ⟨rfl, rfl⟩

/-- No attempt reads or moves the clock. -/
theorem Placement.clock_eq {n : Nat} {reclaimed : Option (SiteId × Fingerprint)}
    {ownTurn : Bool} {c' : Cache} {outcome : InsertOutcome}
    (h : Placement site fp e n reclaimed ownTurn c c' outcome) : c'.clock = c.clock := by
  induction h with
  | elsewhere absent tight spared stalest rest ih => exact ih
  | ownNext absent tight spared stalest ranked rest ih => exact ih
  | _ => rfl

theorem freePlaceOutcome_ne_skipped (reclaimed : Option (SiteId × Fingerprint)) :
    freePlaceOutcome reclaimed ≠ .skipped := by
  cases reclaimed <;> simp [freePlaceOutcome]

/-- Placing an entry writes it under its own context, or is refused and leaves that context empty;
all other entries found afterwards were there before. -/
theorem Placement.peek?_cases {n : Nat} {reclaimed : Option (SiteId × Fingerprint)}
    {ownTurn : Bool} {c' : Cache} {outcome : InsertOutcome}
    (h : Placement site fp e n reclaimed ownTurn c c' outcome) {t : SiteId} {g : Fingerprint}
    {x : Entry} (hx : c'.peek? t g = some x) :
    outcome ≠ .skipped ∧ (site = t ∧ fp = g) ∧ x = e ∨
      ¬ (site = t ∧ fp = g) ∧ c.peek? t g = some x := by
  have stays {c : Cache} (absent : fp ∉ c.shard site) (hx : c.peek? t g = some x) :
      ¬ (site = t ∧ fp = g) := by
    rintro ⟨rfl, rfl⟩
    rw [peek?, Std.ExtTreeMap.getElem?_eq_none absent] at hx
    cases hx
  have written {c : Cache}
      (hx : (c.setShard site ((c.shard site).insert fp e)).peek? t g = some x) :
      (site = t ∧ fp = g) ∧ x = e ∨ ¬ (site = t ∧ fp = g) ∧ c.peek? t g = some x := by
    rw [peek?_setShard_insert] at hx
    split at hx
    · next hk => exact .inl ⟨hk, (Option.some.inj hx).symm⟩
    · next hk => exact .inr ⟨hk, hx⟩
  induction h with
  | replaced present => exact (written hx).imp_left fun hk => ⟨by simp, hk⟩
  | vacant absent room =>
    exact (written hx).imp_left fun hk => ⟨freePlaceOutcome_ne_skipped _, hk⟩
  | own absent tight turn named =>
    rw [peek?_setShard_erase_insert] at hx
    split at hx
    · next hk => exact .inl ⟨by simp, hk, (Option.some.inj hx).symm⟩
    · next hk =>
      split at hx
      · cases hx
      · exact .inr ⟨hk, hx⟩
  | elsewhere absent tight spared stalest rest ih =>
    refine (ih hx).imp_right fun hk => ⟨hk.1, ?_⟩
    have hold := hk.2
    rw [peek?_evict] at hold
    split at hold
    · cases hold
    · exact hold
  | ownNext absent tight spared stalest ranked rest ih => exact ih hx
  | noRoom absent tight spared stalest unranked => exact .inr ⟨stays absent hx, hx⟩
  | exhausted absent => exact .inr ⟨stays absent hx, hx⟩

/-- An insertion places its entry in a cache that has a shard for the site and reads the same. -/
theorem insertEntry_placement :
    Placement site fp e attempts none false (c.setShard site (c.shard site))
      (c.insertEntry site fp e).cache (c.insertEntry site fp e).outcome :=
  place_placement attempts none false (by simp [attempts])

/-- Writing a shard back changes nothing that can be seen. -/
theorem peek?_setShard_shard {t : SiteId} {g : Fingerprint} :
    (c.setShard site (c.shard site)).peek? t g = c.peek? t g := by
  rw [peek?_setShard]
  split
  · next hs => rw [peek?, hs]
  · rfl

/-- An insertion for another site may evict entries, and neither adds nor changes one. -/
theorem peek?_of_insertEntry {t : SiteId} {g : Fingerprint} {x : Entry} (hne : site ≠ t)
    (hx : (c.insertEntry site fp e).cache.peek? t g = some x) : c.peek? t g = some x := by
  rcases insertEntry_placement.peek?_cases hx with ⟨-, ⟨hs, -⟩, -⟩ | ⟨-, hold⟩
  · exact absurd hs hne
  · rwa [peek?_setShard_shard] at hold

/-- An insertion adds and changes no entry of another site. -/
theorem peek?_of_insert {t : SiteId} {g : Fingerprint} {x : Entry} {raw : List UInt64}
    {post : PostState} (hne : site ≠ t)
    (hx : (c.insert site fp raw post).cache.peek? t g = some x) : c.peek? t g = some x :=
  peek?_of_insertEntry (c := { c with clock := c.clock + 1 }) hne hx

theorem peek?_of_insertCold {t : SiteId} {g : Fingerprint} {x : Entry} {raw : List UInt64}
    {post : PostState} {hits : UInt64} (hne : site ≠ t)
    (hx : (c.insertCold site fp raw post hits).cache.peek? t g = some x) :
    c.peek? t g = some x :=
  peek?_of_insertEntry hne hx

/-- An entry takes a free place if there is one, without further ado. -/
theorem insertEntry_of_room (absent : fp ∉ c.shard site) (room : ¬ c.Tight site) :
    c.insertEntry site fp e =
      { cache := { c.setShard site ((c.shard site).insert fp e) with total := c.total + 1 }
        outcome := .inserted } := by
  have hroom := not_tight_iff.mp room
  rw [insertEntry, attempts, place]
  simp only [shard_setShard_self, limits_setShard, total_setShard, setShard_setShard,
    Std.ExtTreeMap.contains_iff_mem, absent, if_false, if_pos hroom]

/-- A result found after an insertion is the inserted one under its own context, unless it was
refused, and an old one under any other. -/
theorem recorded?_insertEntry {t : SiteId} {g : Fingerprint} {h : Hit}
    (hr : (c.insertEntry site fp e).cache.recorded? t g = some h) :
    (c.insertEntry site fp e).outcome ≠ .skipped ∧ (site = t ∧ fp = g) ∧ h = e.toHit ∨
      ¬ (site = t ∧ fp = g) ∧ c.recorded? t g = some h := by
  obtain ⟨x, hx, rfl⟩ := Option.map_eq_some_iff.mp hr
  rcases insertEntry_placement.peek?_cases hx with ⟨kept, hk, rfl⟩ | ⟨hk, hold⟩
  · exact .inl ⟨kept, hk, rfl⟩
  · rw [peek?_setShard_shard] at hold
    exact .inr ⟨hk, by rw [recorded?, hold, Option.map_some]⟩

/-- What is recorded after an insertion is the new result or an old one elsewhere. -/
theorem recorded?_insert {t : SiteId} {g : Fingerprint} {h : Hit} {raw : List UInt64}
    {post : PostState} (hr : (c.insert site fp raw post).cache.recorded? t g = some h) :
    (c.insert site fp raw post).outcome ≠ .skipped ∧ (site = t ∧ fp = g) ∧ h = ⟨raw, post⟩ ∨
      ¬ (site = t ∧ fp = g) ∧ c.recorded? t g = some h :=
  recorded?_insertEntry (c := { c with clock := c.clock + 1 }) hr

theorem recorded?_insertCold {t : SiteId} {g : Fingerprint} {h : Hit} {raw : List UInt64}
    {post : PostState} {hits : UInt64}
    (hr : (c.insertCold site fp raw post hits).cache.recorded? t g = some h) :
    (c.insertCold site fp raw post hits).outcome ≠ .skipped ∧ (site = t ∧ fp = g) ∧
        h = ⟨raw, post⟩ ∨
      ¬ (site = t ∧ fp = g) ∧ c.recorded? t g = some h :=
  recorded?_insertEntry hr

end Cache

end CallMemo
