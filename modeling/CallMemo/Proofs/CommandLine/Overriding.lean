import CallMemo.CommandLine.Options
import CallMemo.Proofs.Config.Validity

/-!
# Overridden variables

An option overrides the variable of the environment that gives the same setting. The value of an
overridden variable never shows, as long as the overridden variables by themselves would be
accepted. Where they would not, the environment is refused before any option is looked at.
-/

namespace CallMemo

namespace Config

/-- The variables that give settings. -/
def variableNames : List String :=
  [perSiteVariable, totalVariable, sampleRateVariable, invalidateVariable]

/-- A reading depends on its own variable only. -/
theorem variableD_congr {α : Type} {env env' : Environment} {key : String}
    {read : List Char → Option α} {default : α} (h : env key = env' key) :
    variableD env key read default = variableD env' key read default := by
  rw [variableD, h, variableD]

end Config

namespace CommandLine.Options

/-- The options give the setting of a variable. -/
def Overrides (o : Options) (key : String) : Prop :=
  key = Config.perSiteVariable ∧ o.maxPerSite.isSome ∨
    key = Config.totalVariable ∧ o.maxTotal.isSome ∨
    key = Config.sampleRateVariable ∧ o.sampleRate.isSome ∨
    key = Config.invalidateVariable ∧ o.keepDemoted

instance (o : Options) (key : String) : Decidable (o.Overrides key) :=
  inferInstanceAs (Decidable (_ ∨ _ ∨ _ ∨ _))

/-- The variables that are overridden, without the others. -/
def overridden (o : Options) (env : Environment) : Environment :=
  fun key => if o.Overrides key then env key else none

/-- The overridden variables by themselves would be accepted. -/
def Tolerates (o : Options) (env : Environment) : Prop :=
  ∃ c, Config.ofEnvironment (o.overridden env) = .ok c

/-- The given settings in place of those from the environment. -/
def merge (o : Options) (base : Config) : Config where
  maxEntriesPerSite := o.maxPerSite.getD base.maxEntriesPerSite
  maxTotalEntries := o.maxTotal.getD base.maxTotalEntries
  validationSampleRate := o.sampleRate.getD base.validationSampleRate
  invalidateOnDemotion := !o.keepDemoted && base.invalidateOnDemotion

/-- The environment is read first, then overridden, and what comes of it is checked. -/
theorem memoConfig_eq (o : Options) (env : Environment) :
    o.memoConfig env = (do (o.merge (← Config.ofEnvironment env)).checked) := rfl

variable {o : Options} {env env' : Environment} {α β : Type} {given : Prop} {fine : α → Prop}

section

variable (o)

/-- The bound per site is overridden if it is given on the command line. -/
theorem overrides_perSite_iff : o.Overrides Config.perSiteVariable ↔ o.maxPerSite.isSome := by
  simp [Overrides, Config.perSiteVariable, Config.totalVariable, Config.sampleRateVariable,
    Config.invalidateVariable]

theorem overrides_total_iff : o.Overrides Config.totalVariable ↔ o.maxTotal.isSome := by
  simp [Overrides, Config.perSiteVariable, Config.totalVariable, Config.sampleRateVariable,
    Config.invalidateVariable]

theorem overrides_sampleRate_iff : o.Overrides Config.sampleRateVariable ↔ o.sampleRate.isSome := by
  simp [Overrides, Config.perSiteVariable, Config.totalVariable, Config.sampleRateVariable,
    Config.invalidateVariable]

/-- Whether entries are dropped is overridden if they are to be kept. -/
theorem overrides_invalidate_iff : o.Overrides Config.invalidateVariable ↔ o.keepDemoted := by
  simp [Overrides, Config.perSiteVariable, Config.totalVariable, Config.sampleRateVariable,
    Config.invalidateVariable]

end

/-- In the overridden environment a variable that an option hides has its default. -/
theorem variableD_overridden {key : String} {read : List Char → Option α} {default : α} :
    Config.variableD (o.overridden env) key read default =
      if o.Overrides key then Config.variableD env key read default else .ok default := by
  split
  · next h => exact Config.variableD_congr (if_pos h)
  · next h => rw [Config.variableD, overridden, if_neg h]

/-- Two values of a setting between which nothing can tell: they are the same, or the setting is
given and both are fine. -/
def Alike (given : Prop) (fine : α → Prop) (x x' : α) : Prop :=
  x = x' ∨ given ∧ fine x ∧ fine x'

/-- Once an option is applied nothing is left of the difference. -/
theorem Alike.getD_eq {x? : Option α} {x x' : α} (h : Alike x?.isSome fine x x') :
    x?.getD x = x?.getD x' := by
  rcases h with rfl | ⟨hgiven, -, -⟩
  · rfl
  · obtain ⟨y, rfl⟩ := Option.isSome_iff_exists.mp hgiven
    rfl

/-- Of two such bounds both are zero or neither is. -/
theorem Alike.eq_zero_iff {n n' : UInt64} (h : Alike given (· ≠ 0) n n') : n = 0 ↔ n' = 0 := by
  rcases h with rfl | ⟨-, hn, hn'⟩
  · rfl
  · exact iff_of_false hn hn'

/-- Two readings of a setting that fail alike or give values between which nothing can tell. -/
def ReadAlike (given : Prop) (fine : α → Prop) (r r' : Except ConfigurationError α) : Prop :=
  r = r' ∨ given ∧ (∃ x, r = .ok x ∧ fine x) ∧ ∃ x', r' = .ok x' ∧ fine x'

/-- What goes on alike after values that are alike goes on alike after the readings. -/
theorem ReadAlike.bind_eq {r r' : Except ConfigurationError α}
    {f f' : α → Except ConfigurationError β} (h : ReadAlike given fine r r')
    (hf : ∀ x x', Alike given fine x x' → f x = f' x') : r >>= f = r' >>= f' := by
  rcases h with rfl | ⟨hgiven, ⟨x, rfl, hx⟩, x', rfl, hx'⟩
  · cases r with
    | error err => rfl
    | ok x => exact hf x x (.inl rfl)
  · exact hf x x' (.inr ⟨hgiven, hx, hx'⟩)

/-- A variable is read alike in two environments that agree on it, or that give fine values if it is
overridden. -/
theorem readAlike_variableD (fine : α → Prop) {key : String} {read : List Char → Option α}
    {default x x' : α} (hgiven : o.Overrides key ↔ given)
    (agree : ¬ o.Overrides key → env key = env' key)
    (h : Config.variableD (o.overridden env) key read default = .ok x) (hx : fine x)
    (h' : Config.variableD (o.overridden env') key read default = .ok x') (hx' : fine x') :
    ReadAlike given fine (Config.variableD env key read default)
      (Config.variableD env' key read default) := by
  rw [variableD_overridden] at h h'
  by_cases hover : o.Overrides key
  · rw [if_pos hover] at h h'
    exact .inr ⟨hgiven.mp hover, ⟨x, h, hx⟩, x', h', hx'⟩
  · exact .inl (Config.variableD_congr (agree hover))

/-- Settings that are alike lead to the same. -/
theorem checked_bind_eq {c c' : Config}
    (hsite : Alike o.maxPerSite.isSome (· ≠ 0) c.maxEntriesPerSite c'.maxEntriesPerSite)
    (htotal : Alike o.maxTotal.isSome (· ≠ 0) c.maxTotalEntries c'.maxTotalEntries)
    (hrate : Alike o.sampleRate.isSome (fun r => .zero ≤ r ∧ r ≤ .one)
      c.validationSampleRate c'.validationSampleRate)
    (hdrop : Alike o.keepDemoted (fun _ => True) c.invalidateOnDemotion c'.invalidateOnDemotion) :
    (do (o.merge (← c.checked)).checked) = (do (o.merge (← c'.checked)).checked) := by
  have hvalid : c.validate = c'.validate := by
    unfold Config.validate
    simp only [hsite.eq_zero_iff, htotal.eq_zero_iff]
    rcases hrate with hrate | ⟨-, hr, hr'⟩
    · rw [hrate]
    · rw [if_pos hr, if_pos hr']
  have hmerge : o.merge c = o.merge c' := by
    have hkept : (!o.keepDemoted && c.invalidateOnDemotion) =
        (!o.keepDemoted && c'.invalidateOnDemotion) := by
      rcases hdrop with hdrop | ⟨hgiven, -, -⟩
      · rw [hdrop]
      · simp [hgiven]
    simp only [merge, hsite.getD_eq, htotal.getD_eq, hrate.getD_eq, hkept]
  unfold Config.checked
  rw [hvalid]
  cases c'.validate with
  | error err => rfl
  | ok => exact congrArg Config.checked hmerge

/-- An accepted environment is accepted without the variables that are not overridden. -/
theorem tolerates_of_ofEnvironment {base : Config} (h : Config.ofEnvironment env = .ok base) :
    o.Tolerates env := by
  obtain ⟨⟨hsite, htotal, hrate, hdrop⟩, hvalid⟩ := Config.ofEnvironment_eq_ok_iff.mp h
  obtain ⟨hsite0, htotal0, hrange⟩ := Config.validate_eq_ok_iff.mp hvalid
  let c : Config :=
    { maxEntriesPerSite := if o.maxPerSite.isSome then base.maxEntriesPerSite else 256
      maxTotalEntries := if o.maxTotal.isSome then base.maxTotalEntries else 65536
      validationSampleRate :=
        if o.sampleRate.isSome then base.validationSampleRate
        else ({} : Config).validationSampleRate
      invalidateOnDemotion := if o.keepDemoted then base.invalidateOnDemotion else true }
  have hread {α : Type} {key : String} {read : List Char → Option α} {default x : α} {given : Prop}
      [Decidable given] (hgiven : o.Overrides key ↔ given)
      (hx : Config.variableD env key read default = .ok x) :
      Config.variableD (o.overridden env) key read default =
        .ok (if given then x else default) := by
    rw [variableD_overridden, hx]
    by_cases hg : given
    · rw [if_pos (hgiven.mpr hg), if_pos hg]
    · rw [if_neg (mt hgiven.mp hg), if_neg hg]
  have hfine : c.validate = .ok () := by
    refine Config.validate_eq_ok_iff.mpr ⟨?_, ?_, ?_⟩
    · change (if _ then _ else _) ≠ _
      split
      · exact hsite0
      · decide
    · change (if _ then _ else _) ≠ _
      split
      · exact htotal0
      · decide
    · change Binary64.zero ≤ (if _ then _ else _) ∧ (if _ then _ else _) ≤ Binary64.one
      split
      · exact hrange
      · decide
  exact ⟨c, Config.ofEnvironment_eq_ok_iff.mpr ⟨⟨hread o.overrides_perSite_iff hsite,
    hread o.overrides_total_iff htotal, hread o.overrides_sampleRate_iff hrate,
    hread o.overrides_invalidate_iff hdrop⟩, hfine⟩⟩

/-- Environments that agree on all variables that are not overridden give the same settings or the
same error, if each of them would be accepted with the overridden variables only. Otherwise an
environment is refused for itself, whatever the options are. -/
theorem memoConfig_eq_of_agreement (o : Options) (env env' : Environment)
    (agree : ∀ key ∈ Config.variableNames, ¬ o.Overrides key → env key = env' key) :
    (o.Tolerates env → o.Tolerates env' → o.memoConfig env = o.memoConfig env') ∧
      (¬ o.Tolerates env →
        ∃ err, Config.ofEnvironment env = .error err ∧ o.memoConfig env = .error err) := by
  constructor
  · rintro ⟨c, hc⟩ ⟨c', hc'⟩
    obtain ⟨⟨hsite, htotal, hrate, hdrop⟩, hvalid⟩ := Config.ofEnvironment_eq_ok_iff.mp hc
    obtain ⟨⟨hsite', htotal', hrate', hdrop'⟩, hvalid'⟩ := Config.ofEnvironment_eq_ok_iff.mp hc'
    obtain ⟨hs, ht, hr⟩ := Config.validate_eq_ok_iff.mp hvalid
    obtain ⟨hs', ht', hr'⟩ := Config.validate_eq_ok_iff.mp hvalid'
    rw [memoConfig_eq, memoConfig_eq, Config.ofEnvironment_eq, Config.ofEnvironment_eq]
    simp only [bind_assoc]
    refine (readAlike_variableD (· ≠ 0) o.overrides_perSite_iff
      (agree _ (by simp [Config.variableNames])) hsite hs hsite' hs').bind_eq fun p p' hp => ?_
    refine (readAlike_variableD (· ≠ 0) o.overrides_total_iff
      (agree _ (by simp [Config.variableNames])) htotal ht htotal' ht').bind_eq fun n n' hn => ?_
    refine (readAlike_variableD (fun r => .zero ≤ r ∧ r ≤ .one) o.overrides_sampleRate_iff
      (agree _ (by simp [Config.variableNames])) hrate hr hrate' hr').bind_eq fun r r' hr => ?_
    refine (readAlike_variableD (fun _ => True) o.overrides_invalidate_iff
      (agree _ (by simp [Config.variableNames])) hdrop trivial hdrop' trivial).bind_eq
        fun d d' hd => ?_
    exact checked_bind_eq hp hn hr hd
  · intro refused
    cases henv : Config.ofEnvironment env with
    | ok base => exact absurd (tolerates_of_ofEnvironment henv) refused
    | error err => exact ⟨err, rfl, by rw [memoConfig_eq, henv]; rfl⟩

/-- The environment in which the given variables are set. -/
def environment (vars : List (String × String)) : Environment := fun key => vars.lookup key

/-- The two environments set other bounds per site, which an option overrides, and one of them says
what becomes of the entries of a demoted site, which a flag overrides. -/
theorem memoConfig_eq_of_agreement_masked :
    let o : Options := { maxPerSite := some 4, keepDemoted := true }
    let env := environment [(Config.perSiteVariable, "7"), (Config.totalVariable, " 9"),
      (Config.invalidateVariable, "true")]
    let env' := environment [(Config.perSiteVariable, "8"), (Config.totalVariable, " 9")]
    (∀ key ∈ Config.variableNames, ¬ o.Overrides key → env key = env' key) ∧
      o.Tolerates env ∧ o.Tolerates env' ∧ o.memoConfig env = o.memoConfig env' ∧
      o.memoConfig env = .ok ⟨4, 9, ({} : Config).validationSampleRate, false⟩ := by
  intro o env env'
  have agree : ∀ key ∈ Config.variableNames, ¬ o.Overrides key → env key = env' key := by decide
  have tolerated : o.Tolerates env :=
    ⟨⟨7, 65536, ({} : Config).validationSampleRate, true⟩, rfl⟩
  have tolerated' : o.Tolerates env' :=
    ⟨⟨8, 65536, ({} : Config).validationSampleRate, true⟩, rfl⟩
  exact ⟨agree, tolerated, tolerated',
    (memoConfig_eq_of_agreement o env env' agree).1 tolerated tolerated', rfl⟩

/-- A bound of zero in the environment is refused although an option gives another bound, and so
the variable shows. -/
theorem memoConfig_ne_of_refused :
    let o : Options := { maxPerSite := some 4 }
    let env := environment [(Config.perSiteVariable, "0")]
    let env' := environment []
    (∀ key ∈ Config.variableNames, ¬ o.Overrides key → env key = env' key) ∧
      o.memoConfig env = .error .zeroSiteCapacity ∧
      o.memoConfig env' = .ok { maxEntriesPerSite := 4 } ∧
      o.memoConfig env ≠ o.memoConfig env' := by
  intro o env env'
  have refused : o.memoConfig env = .error .zeroSiteCapacity := rfl
  have accepted : o.memoConfig env' = .ok { maxEntriesPerSite := 4 } := rfl
  exact ⟨by decide, refused, accepted, by rw [refused, accepted]; simp⟩

end CommandLine.Options

end CallMemo
