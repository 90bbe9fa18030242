import CallMemo.Config.Environment

/-!
# Accepted settings

Settings are accepted if each of them is. The environment gives settings if each of its variables is
unset or can be read, and the settings are accepted as a whole.
-/

namespace CallMemo

namespace Config

variable {c c' : Config} {env : Environment}

/-- Settings pass their check if no bound is zero and the rate lies between zero and one. -/
theorem validate_eq_ok_iff :
    c.validate = .ok () ↔ c.maxEntriesPerSite ≠ 0 ∧ c.maxTotalEntries ≠ 0 ∧
      (Binary64.zero ≤ c.validationSampleRate ∧ c.validationSampleRate ≤ .one) := by
  unfold validate
  split
  · next hsite => simp [hsite]
  split
  · next htotal => simp [htotal]
  next hsite htotal =>
    split
    · next hrate => simp [hsite, htotal, hrate]
    · next hrate => simp [hrate]

/-- The check hands on what passes it. -/
theorem checked_eq_ok_iff : c.checked = .ok c' ↔ c.validate = .ok () ∧ c = c' := by
  unfold checked
  cases c.validate with
  | error err => simp [Except.map]
  | ok => simp [Except.map]

/-- The bound per site. -/
def perSiteIn (env : Environment) : Except ConfigurationError UInt64 :=
  variableD env perSiteVariable (Text.readUInt64 · |>.toOption) ({} : Config).maxEntriesPerSite

/-- The bound in all. -/
def totalIn (env : Environment) : Except ConfigurationError UInt64 :=
  variableD env totalVariable (Text.readUInt64 · |>.toOption) ({} : Config).maxTotalEntries

/-- The sample rate. -/
def sampleRateIn (env : Environment) : Except ConfigurationError Binary64 :=
  variableD env sampleRateVariable (Binary64.readLiteral · |>.toOption)
    ({} : Config).validationSampleRate

/-- Whether entries of a demoted site are dropped. -/
def invalidateIn (env : Environment) : Except ConfigurationError Bool :=
  variableD env invalidateVariable readBool? ({} : Config).invalidateOnDemotion

/-- The variables are read in declared order, and then the settings are checked. -/
theorem ofEnvironment_eq :
    ofEnvironment env = (do
      let perSite ← perSiteIn env
      let total ← totalIn env
      let rate ← sampleRateIn env
      let invalidate ← invalidateIn env
      checked ⟨perSite, total, rate, invalidate⟩) := rfl

/-- The environment gives settings if each of its variables does and the settings are accepted. -/
theorem ofEnvironment_eq_ok_iff :
    ofEnvironment env = .ok c ↔
      (perSiteIn env = .ok c.maxEntriesPerSite ∧ totalIn env = .ok c.maxTotalEntries ∧
        sampleRateIn env = .ok c.validationSampleRate ∧
        invalidateIn env = .ok c.invalidateOnDemotion) ∧ c.validate = .ok () := by
  rw [ofEnvironment_eq]
  cases perSiteIn env with
  | error err => simp [bind, Except.bind]
  | ok perSite =>
  cases totalIn env with
  | error err => simp [bind, Except.bind]
  | ok total =>
  cases sampleRateIn env with
  | error err => simp [bind, Except.bind]
  | ok rate =>
  cases invalidateIn env with
  | error err => simp [bind, Except.bind]
  | ok invalidate =>
    simp only [bind, Except.bind, checked_eq_ok_iff, Except.ok.injEq]
    constructor
    · rintro ⟨hvalid, rfl⟩
      exact ⟨⟨rfl, rfl, rfl, rfl⟩, hvalid⟩
    · rintro ⟨⟨rfl, rfl, rfl, rfl⟩, hvalid⟩
      exact ⟨hvalid, rfl⟩

end Config

/-- With valid settings both bounds let at least one entry stand. -/
theorem limits_of_validate {config : Config} (hvalid : config.validate = .ok ()) :
    0 < config.limits.perSite.toNat ∧ 0 < config.limits.total.toNat := by
  obtain ⟨hsite, htotal, -⟩ := Config.validate_eq_ok_iff.mp hvalid
  exact ⟨UInt64.lt_iff_toNat_lt.mp (UInt64.pos_iff_ne_zero.mpr hsite),
    UInt64.lt_iff_toNat_lt.mp (UInt64.pos_iff_ne_zero.mpr htotal)⟩

end CallMemo
