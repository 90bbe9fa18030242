import CallMemo.Proofs.Cache.Placement

/-!
# Runs of a cache

A cache goes on by the calls of its owner, one after another. The bounds and the policy stay the
same in every run.
-/

namespace CallMemo

namespace Cache

/-- A call that may change a cache. -/
inductive Op where
  /-- Records a result, as used now. -/
  | insert (site : SiteId) (fp : Fingerprint) (rawInput : List UInt64) (post : PostState)
  /-- Restores a result with the hits of an earlier run. -/
  | insertCold (site : SiteId) (fp : Fingerprint) (rawInput : List UInt64) (post : PostState)
    (hits : UInt64)
  /-- Looks a calling context up. -/
  | lookup (site : SiteId) (fp : Fingerprint)
  /-- Raises the confidence of an entry. -/
  | confirm (site : SiteId) (fp : Fingerprint)
  /-- Drops the entries of a site. -/
  | invalidate (site : SiteId)
  /-- Drops all entries. -/
  | clear
  deriving DecidableEq, Repr

/-- The cache after one call. -/
def step (c : Cache) : Op → Cache
  | .insert site fp rawInput post => (c.insert site fp rawInput post).cache
  | .insertCold site fp rawInput post hits => (c.insertCold site fp rawInput post hits).cache
  | .lookup site fp => (c.lookup site fp).2
  | .confirm site fp => (c.confirm site fp).2
  | .invalidate site => (c.invalidate site).2
  | .clear => c.clear

/-- The cache after a list of calls. -/
def run (c : Cache) (ops : List Op) : Cache := ops.foldl step c

variable {c : Cache}

/-- An insertion changes neither the bounds nor the policy. -/
theorem insertEntry_settings {site : SiteId} {fp : Fingerprint} {e : Entry} :
    (c.insertEntry site fp e).cache.limits = c.limits ∧
      (c.insertEntry site fp e).cache.policy = c.policy :=
  insertEntry_placement.settings_eq

/-- No call touches the bounds or the policy. -/
theorem step_settings (op : Op) :
    (c.step op).limits = c.limits ∧ (c.step op).policy = c.policy := by
  cases op with
  | insert site fp rawInput post =>
    exact insertEntry_settings (c := { c with clock := c.clock + 1 })
  | insertCold site fp rawInput post hits => exact insertEntry_settings
  | lookup site fp =>
    cases h : c.peek? site fp with
    | none => simp [step, lookup_of_none h]
    | some e => simp [step, lookup_of_some h]
  | confirm site fp =>
    cases h : c.peek? site fp with
    | none => simp [step, confirm_of_none h]
    | some e => simp [step, confirm_of_some h]
  | invalidate site =>
    cases h : c.shards[site]? with
    | none => simp [step, invalidate_of_none h]
    | some sh => simp [step, invalidate_of_some h]
  | clear => exact ⟨rfl, rfl⟩

theorem run_settings (ops : List Op) :
    (c.run ops).limits = c.limits ∧ (c.run ops).policy = c.policy := by
  induction ops generalizing c with
  | nil => exact ⟨rfl, rfl⟩
  | cons op rest ih =>
    obtain ⟨hl, hp⟩ := ih (c := c.step op)
    exact ⟨hl.trans (step_settings op).1, hp.trans (step_settings op).2⟩

end Cache

end CallMemo
