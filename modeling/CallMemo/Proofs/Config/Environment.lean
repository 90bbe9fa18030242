import CallMemo.Proofs.Binary64.Literal
import CallMemo.Proofs.Config.Validity

/-!
# What the environment says

Every variable has texts that it takes. Without the blanks at its ends a bound is an integer of
sixty-four bits, a rate is a floating-point literal, and a flag is one of two words. What the
environment comes to is decided in this order: by the first variable set to a text that it does not
take, by the first fault of the settings that the variables give together with the defaults of those
that are not set, and otherwise by these settings.
-/

namespace CallMemo

/-- The rate is no finite number, or it lies below zero or above one. -/
def Binary64.OutOfRange (x : Binary64) : Prop :=
  x.isNaN = true ∨ x.isInfinite = true ∨ x.position < zero.position ∨ one.position < x.position

/-- An infinity lies below zero or above one. -/
theorem Binary64.position_of_isInfinite {x : Binary64} (h : x.isInfinite = true) :
    x.position < zero.position ∨ one.position < x.position := by
  have hbits : x.magnitudeBits = infinityBits := by simpa [isInfinite] using h
  have hzero : zero.position = 0 := by decide
  have hone : one.position < infinityBits := by decide
  have hpos : 0 < infinityBits := by decide
  rw [position, hbits, hzero]
  split <;> omega

/-- Out of range is whatever does not lie between zero and one. -/
theorem Binary64.not_outOfRange_iff {x : Binary64} :
    ¬ x.OutOfRange ↔ Binary64.zero ≤ x ∧ x ≤ .one := by
  have hle (a b : Binary64) :
      a ≤ b ↔ a.isNaN = false ∧ b.isNaN = false ∧ a.position ≤ b.position := Iff.rfl
  have hzero : zero.isNaN = false := by decide
  have hone : one.isNaN = false := by decide
  simp only [OutOfRange, not_or, hle, hzero, hone, Bool.not_eq_true, not_lt, true_and]
  constructor
  · rintro ⟨hnan, -, hlow, hhigh⟩
    exact ⟨⟨hnan, hlow⟩, hnan, hhigh⟩
  · rintro ⟨⟨hnan, hlow⟩, -, hhigh⟩
    refine ⟨hnan, Bool.eq_false_iff.mpr fun h => ?_, hlow, hhigh⟩
    rcases position_of_isInfinite h with h | h <;> omega

namespace Config

/-- The first fault of the settings. -/
inductive Fault (c : Config) : ConfigurationError → Prop
  | perSite (hsite : c.maxEntriesPerSite = 0) : Fault c .zeroSiteCapacity
  | total (hsite : c.maxEntriesPerSite ≠ 0) (htotal : c.maxTotalEntries = 0) :
      Fault c .zeroTotalCapacity
  | rate (hsite : c.maxEntriesPerSite ≠ 0) (htotal : c.maxTotalEntries ≠ 0)
      (hrate : c.validationSampleRate.OutOfRange) : Fault c (.sampleRate c.validationSampleRate)

variable {c : Config} {err : ConfigurationError} {env : Environment} {α : Type}

/-- The check fails with the first fault in declared order. -/
theorem validate_eq_error_iff : c.validate = .error err ↔ c.Fault err := by
  unfold validate
  constructor
  · intro h
    split at h
    · next hsite =>
      cases h
      exact .perSite hsite
    split at h
    · next hsite htotal =>
      cases h
      exact .total hsite htotal
    split at h
    · cases h
    · next hsite htotal hrate =>
      cases h
      exact .rate hsite htotal (not_not.mp fun h => hrate (Binary64.not_outOfRange_iff.mp h))
  · intro h
    cases h with
    | perSite hsite => rw [if_pos hsite]
    | total hsite htotal => rw [if_neg hsite, if_pos htotal]
    | rate hsite htotal hrate =>
      rw [if_neg hsite, if_neg htotal,
        if_neg fun h => Binary64.not_outOfRange_iff.mpr h hrate]

/-- Settings without a fault are accepted. -/
theorem validate_eq_ok_of_sound (sound : ∀ err, ¬ c.Fault err) : c.validate = .ok () := by
  cases hvalid : c.validate with
  | error err => exact absurd (validate_eq_error_iff.mp hvalid) (sound err)
  | ok => rfl

/-- A variable of the environment: its name, the texts it takes with their values, and the value
that stands if it is not set. -/
structure Variable (α : Type) where
  name : String
  Literal : List Char → α → Prop
  default : α

namespace Variable

/-- The variable is not set and gives its default, or it is set to a text of the value. -/
def Gives (v : Variable α) (env : Environment) (a : α) : Prop :=
  env v.name = none ∧ a = v.default ∨
    ∃ text core, env v.name = some text ∧ Text.Stripped text.toList core ∧ v.Literal core a

/-- The variable is set to a text that it does not take. -/
def Illegible (v : Variable α) (env : Environment) (text : String) : Prop :=
  env v.name = some text ∧ ∀ core, Text.Stripped text.toList core → ∀ a, ¬ v.Literal core a

/-- The reading gives the values of the variable and refuses the texts that it does not take. -/
structure ReadBy (v : Variable α) (env : Environment) (r : Except ConfigurationError α) : Prop where
  gives : ∀ a, r = .ok a ↔ v.Gives env a
  illegible : ∀ err, r = .error err ↔
    ∃ text, v.Illegible env text ∧ err = .invalidValue v.name text

/-- A variable that is not set gives its default. -/
theorem gives_of_none {v : Variable α} {a : α} (h : env v.name = none) :
    v.Gives env a ↔ a = v.default := by
  simp [Gives, h]

/-- A variable that is set gives what its text says, blanks at both ends left out. -/
theorem gives_of_some {v : Variable α} {a : α} {text : String} (h : env v.name = some text) :
    v.Gives env a ↔ v.Literal (Text.trimBlanks text.toList) a := by
  simp [Gives, h, Text.stripped_iff]

/-- A variable that is set is illegible if its text says nothing. -/
theorem illegible_of_some {v : Variable α} {text text' : String} (h : env v.name = some text) :
    v.Illegible env text' ↔ text' = text ∧ ∀ a, ¬ v.Literal (Text.trimBlanks text.toList) a := by
  simp only [Illegible, h, Text.stripped_iff, Option.some.injEq, forall_eq']
  constructor
  · rintro ⟨rfl, hall⟩
    exact ⟨rfl, hall⟩
  · rintro ⟨rfl, hall⟩
    exact ⟨rfl, hall⟩

/-- A reader of the values reads the variable. -/
theorem readBy_variableD (v : Variable α) (env : Environment) {read : List Char → Option α}
    (hread : ∀ cs a, read cs = some a ↔ v.Literal cs a) :
    v.ReadBy env (variableD env v.name read v.default) := by
  cases henv : env v.name with
  | none =>
    have hvalue : variableD env v.name read v.default = .ok v.default := by
      rw [variableD, henv]
    rw [hvalue]
    refine ⟨fun a => ?_, fun err => ?_⟩
    · rw [gives_of_none henv, Except.ok.injEq, eq_comm]
    · simp [Illegible, henv]
  | some text =>
    cases hcore : read (Text.trimBlanks text.toList) with
    | none =>
      have hvalue : variableD env v.name read v.default = .error (.invalidValue v.name text) := by
        rw [variableD, henv]
        simp only [hcore]
      have hnone : ∀ a, ¬ v.Literal (Text.trimBlanks text.toList) a := by simp [← hread, hcore]
      rw [hvalue]
      refine ⟨fun a => ?_, fun err => ?_⟩
      · rw [gives_of_some henv]
        exact iff_of_false (by simp) (hnone a)
      · simp only [illegible_of_some henv, Except.error.injEq]
        constructor
        · rintro rfl
          exact ⟨text, ⟨rfl, hnone⟩, rfl⟩
        · rintro ⟨_, ⟨rfl, -⟩, rfl⟩
          rfl
    | some value =>
      have hvalue : variableD env v.name read v.default = .ok value := by
        rw [variableD, henv]
        simp only [hcore]
      rw [hvalue]
      refine ⟨fun a => ?_, fun err => ?_⟩
      · rw [gives_of_some henv, ← hread, hcore, Except.ok.injEq, Option.some.injEq]
      · simp only [illegible_of_some henv]
        refine iff_of_false (by simp) ?_
        rintro ⟨_, ⟨-, hall⟩, -⟩
        exact hall value ((hread _ _).mp hcore)

end Variable

/-- The words for the truth values. -/
inductive FlagText : List Char → Bool → Prop
  | yes : FlagText "true".toList true
  | no : FlagText "false".toList false

/-- The reader takes exactly the words for flags. -/
theorem readBool?_eq_some_iff {cs : List Char} {b : Bool} :
    readBool? cs = some b ↔ FlagText cs b := by
  constructor
  · intro h
    unfold readBool? at h
    split at h
    · cases h
      exact .yes
    · cases h
      exact .no
    · cases h
  · rintro (_ | _) <;> rfl

/-- The variable for the bound per site. -/
def perSite : Variable UInt64 where
  name := perSiteVariable
  Literal cs n := Text.IntegerLiteral UInt64.size cs n.toNat
  default := ({} : Config).maxEntriesPerSite

/-- The variable for the bound in all. -/
def total : Variable UInt64 where
  name := totalVariable
  Literal cs n := Text.IntegerLiteral UInt64.size cs n.toNat
  default := ({} : Config).maxTotalEntries

/-- The variable for the sample rate. -/
def sampleRate : Variable Binary64 where
  name := sampleRateVariable
  Literal := Binary64.LiteralText
  default := ({} : Config).validationSampleRate

/-- The variable that tells whether entries of a demoted site are dropped. -/
def invalidate : Variable Bool where
  name := invalidateVariable
  Literal := FlagText
  default := ({} : Config).invalidateOnDemotion

theorem toOption_eq_some_iff {ε : Type} {r : Except ε α} {a : α} :
    r.toOption = some a ↔ r = .ok a := by
  cases r <;> simp [Except.toOption]

/-- The bound per site is read as its grammar says. -/
theorem readBy_perSiteIn : perSite.ReadBy env (perSiteIn env) :=
  perSite.readBy_variableD env fun _ _ => toOption_eq_some_iff.trans Text.readUInt64_eq_ok_iff

theorem readBy_totalIn : total.ReadBy env (totalIn env) :=
  total.readBy_variableD env fun _ _ => toOption_eq_some_iff.trans Text.readUInt64_eq_ok_iff

theorem readBy_sampleRateIn : sampleRate.ReadBy env (sampleRateIn env) :=
  sampleRate.readBy_variableD env fun _ _ =>
    toOption_eq_some_iff.trans Binary64.readLiteral_eq_ok_iff

theorem readBy_invalidateIn : invalidate.ReadBy env (invalidateIn env) :=
  invalidate.readBy_variableD env fun _ _ => readBool?_eq_some_iff

/-- The variables in the order in which they are read. -/
def readingOrder : List ((α : Type) × Variable α) :=
  [⟨_, perSite⟩, ⟨_, total⟩, ⟨_, sampleRate⟩, ⟨_, invalidate⟩]

/-- The settings that the variables give. -/
structure GivenBy (c : Config) (env : Environment) : Prop where
  perSite : Config.perSite.Gives env c.maxEntriesPerSite
  total : Config.total.Gives env c.maxTotalEntries
  sampleRate : Config.sampleRate.Gives env c.validationSampleRate
  invalidate : Config.invalidate.Gives env c.invalidateOnDemotion

/-- What an environment comes to. -/
inductive Outcome (env : Environment) : Except ConfigurationError Config → Prop
  /-- A variable is set to a text that it does not take, and no variable before it is. -/
  | illegible (before) {v after text} (split : readingOrder = before ++ v :: after)
      (legible : ∀ u ∈ before, ∃ a, u.2.Gives env a) (bad : v.2.Illegible env text) :
      Outcome env (.error (.invalidValue v.2.name text))
  /-- The variables give settings that have a fault. -/
  | refused {c : Config} {err : ConfigurationError} (given : GivenBy c env) (fault : c.Fault err) :
      Outcome env (.error err)
  /-- The variables give settings without a fault. -/
  | accepted {c : Config} (given : GivenBy c env) (sound : ∀ err, ¬ c.Fault err) :
      Outcome env (.ok c)

/-- Settings that the variables give only have to be checked. -/
theorem ofEnvironment_of_givenBy (given : GivenBy c env) : ofEnvironment env = c.checked := by
  rw [ofEnvironment_eq, (readBy_perSiteIn.gives _).mpr given.perSite,
    (readBy_totalIn.gives _).mpr given.total, (readBy_sampleRateIn.gives _).mpr given.sampleRate,
    (readBy_invalidateIn.gives _).mpr given.invalidate]
  rfl

/-- The reader ends in one of the ways in which reading may end. -/
theorem outcome_ofEnvironment (env : Environment) : Outcome env (ofEnvironment env) := by
  rw [ofEnvironment_eq]
  cases hsite : perSiteIn env with
  | error err =>
    obtain ⟨text, bad, rfl⟩ := (readBy_perSiteIn.illegible err).mp hsite
    exact .illegible [] rfl (by simp) bad
  | ok site =>
  have gsite := (readBy_perSiteIn.gives site).mp hsite
  cases htotal : totalIn env with
  | error err =>
    obtain ⟨text, bad, rfl⟩ := (readBy_totalIn.illegible err).mp htotal
    exact .illegible [⟨_, perSite⟩] rfl (by simpa using ⟨site, gsite⟩) bad
  | ok total =>
  have gtotal := (readBy_totalIn.gives total).mp htotal
  cases hrate : sampleRateIn env with
  | error err =>
    obtain ⟨text, bad, rfl⟩ := (readBy_sampleRateIn.illegible err).mp hrate
    exact .illegible [⟨_, perSite⟩, ⟨_, Config.total⟩] rfl
      (by simpa using ⟨⟨site, gsite⟩, ⟨total, gtotal⟩⟩) bad
  | ok rate =>
  have grate := (readBy_sampleRateIn.gives rate).mp hrate
  cases hdrop : invalidateIn env with
  | error err =>
    obtain ⟨text, bad, rfl⟩ := (readBy_invalidateIn.illegible err).mp hdrop
    exact .illegible [⟨_, perSite⟩, ⟨_, Config.total⟩, ⟨_, sampleRate⟩] rfl
      (by simpa using ⟨⟨site, gsite⟩, ⟨total, gtotal⟩, ⟨rate, grate⟩⟩) bad
  | ok drop =>
  have gdrop := (readBy_invalidateIn.gives drop).mp hdrop
  have given : GivenBy ⟨site, total, rate, drop⟩ env := ⟨gsite, gtotal, grate, gdrop⟩
  change Outcome env (Config.mk site total rate drop).checked
  unfold checked
  cases hvalid : (Config.mk site total rate drop).validate with
  | error err => exact .refused given (validate_eq_error_iff.mp hvalid)
  | ok =>
    refine .accepted given fun err fault => ?_
    cases hvalid.symm.trans (validate_eq_error_iff.mpr fault)

/-- The settings of an environment, or the error that it gives. -/
theorem ofEnvironment_eq_iff {r : Except ConfigurationError Config} :
    ofEnvironment env = r ↔ Outcome env r := by
  refine ⟨fun h => h ▸ outcome_ofEnvironment env, fun h => ?_⟩
  cases h with
  | @illegible before v after text split legible bad =>
    rw [ofEnvironment_eq]
    simp only [readingOrder] at split
    rcases before with _ | ⟨_, _ | ⟨_, _ | ⟨_, _ | ⟨_, before⟩⟩⟩⟩
    · obtain ⟨rfl, -⟩ := List.cons.inj split
      rw [(readBy_perSiteIn.illegible _).mpr ⟨text, bad, rfl⟩]
      rfl
    · simp only [List.cons_append, List.nil_append, List.cons.injEq] at split
      obtain ⟨rfl, rfl, -⟩ := split
      obtain ⟨site, gsite⟩ := legible ⟨_, perSite⟩ (by simp)
      rw [(readBy_perSiteIn.gives _).mpr gsite, (readBy_totalIn.illegible _).mpr ⟨text, bad, rfl⟩]
      rfl
    · simp only [List.cons_append, List.nil_append, List.cons.injEq] at split
      obtain ⟨rfl, rfl, rfl, -⟩ := split
      obtain ⟨site, gsite⟩ := legible ⟨_, perSite⟩ (by simp)
      obtain ⟨n, gtotal⟩ := legible ⟨_, total⟩ (by simp)
      rw [(readBy_perSiteIn.gives _).mpr gsite, (readBy_totalIn.gives _).mpr gtotal,
        (readBy_sampleRateIn.illegible _).mpr ⟨text, bad, rfl⟩]
      rfl
    · simp only [List.cons_append, List.nil_append, List.cons.injEq] at split
      obtain ⟨rfl, rfl, rfl, rfl, -⟩ := split
      obtain ⟨site, gsite⟩ := legible ⟨_, perSite⟩ (by simp)
      obtain ⟨n, gtotal⟩ := legible ⟨_, total⟩ (by simp)
      obtain ⟨rate, grate⟩ := legible ⟨_, sampleRate⟩ (by simp)
      rw [(readBy_perSiteIn.gives _).mpr gsite, (readBy_totalIn.gives _).mpr gtotal,
        (readBy_sampleRateIn.gives _).mpr grate,
        (readBy_invalidateIn.illegible _).mpr ⟨text, bad, rfl⟩]
      rfl
    · simp at split
  | refused given fault =>
    rw [ofEnvironment_of_givenBy given, checked, validate_eq_error_iff.mpr fault]
    rfl
  | accepted given sound =>
    rw [ofEnvironment_of_givenBy given]
    exact checked_eq_ok_iff.mpr ⟨validate_eq_ok_of_sound sound, rfl⟩

end Config

end CallMemo
