import CallMemo.Engine.Shared
import CallMemo.Proofs.Engine.Frame

/-!
# The life of the shared engine

The shared engine comes into being once: by the first configuration that is accepted, or by the
first use. From then on a process is a session with that engine, and configurations are refused.
Before that, a refused configuration changes nothing.
-/

namespace CallMemo

variable {η σ ε : Type}

/-- What a caller does with the shared engine. `η` is the type of the names that callers have for
call sites, `σ` the state of the handlers and `ε` their error type. -/
inductive SharedEngine.Op (η σ ε : Type) where
  /-- Configures the engine. -/
  | configure (config : Config)
  /-- Asks for the engine. -/
  | engine
  /-- Registers a dispatch point with the slots that its handler reads. -/
  | register (id : SiteId) (slots : List Slot)
  /-- Dispatches; `draw` is the word drawn for the sample. -/
  | dispatch (site : η) (input : List UInt64) (draw : UInt64) (handler : Handler σ ε)

namespace SharedEngine.Op

/-- Whether the operation uses the engine. -/
def isUse : Op η σ ε → Bool
  | .configure _ => false
  | _ => true

/-- What the operation does with the engine. -/
def work? : Op η σ ε → Option (Engine.Op η σ ε)
  | .register id slots => some (.register id slots)
  | .dispatch site input draw handler => some (.dispatch site input draw handler)
  | _ => none

end SharedEngine.Op

/-- A process that has a shared engine. -/
structure Process (σ : Type) where
  /-- The shared engine. -/
  shared : SharedEngine := none
  /-- The state of the handlers. -/
  world : σ

namespace Process

open SharedEngine

variable {resolve : Resolver η} {p : Process σ} {s : Session σ}

/-- The process after one operation. Every use creates the engine if it is absent, even one under a
name that stands for no call site. -/
def step (resolve : Resolver η) (p : Process σ) : Op η σ ε → Process σ
  | .configure config =>
    match p.shared.configure config with
    | .ok shared => { p with shared }
    | .error _ => p
  | .engine => { p with shared := some p.shared.engine }
  | .register id slots =>
    match p.shared.register id slots with
    | .ok r => { p with shared := some r.engine }
    | .error _ => { p with shared := some p.shared.engine }
  | .dispatch name input draw handler =>
    match resolve p.shared.engine name with
    | some site =>
      let d := p.shared.dispatch site input draw handler p.world
      { shared := some d.engine, world := d.world }
    | none => { p with shared := some p.shared.engine }

/-- The process after a list of operations. -/
def run (resolve : Resolver η) (p : Process σ) (ops : List (Op η σ ε)) : Process σ :=
  ops.foldl (step resolve) p

/-- The settings that an operation gives to the engine, if it is a configuration that is
accepted. -/
def success? (p : Process σ) : Op η σ ε → Option Config
  | .configure config =>
    match p.shared.configure config with
    | .ok _ => some config
    | .error _ => none
  | _ => none

/-- The settings of the configurations that are accepted, in order. -/
def successes (resolve : Resolver η) (p : Process σ) : List (Op η σ ε) → List Config
  | [] => []
  | op :: rest => (p.success? op).toList ++ (p.step resolve op).successes resolve rest

/-- What the operations do with the engine, in order. -/
def work (ops : List (Op η σ ε)) : List (Engine.Op η σ ε) := ops.filterMap Op.work?

/-- The session that a use of the process goes on with. -/
def session (p : Process σ) : Session σ := ⟨p.shared.engine, p.world⟩

/-- A process that has the engine of a session. -/
def ofSession (s : Session σ) : Process σ := ⟨some s.engine, s.world⟩

/-- How a configuration ends. -/
inductive Configuring (s : SharedEngine) (config : Config) :
    Except ConfigurationError SharedEngine → Prop
  /-- The settings are not accepted. -/
  | invalid {err} (refused : config.validate = .error err) : Configuring s config (.error err)
  /-- The engine exists. -/
  | late {e} (valid : config.validate = .ok ()) (present : s = some e) :
      Configuring s config (.error .alreadyConfigured)
  /-- The engine is created. -/
  | first (valid : config.validate = .ok ()) (absent : s = none) :
      Configuring s config (.ok (some (.ofConfig config)))

/-- There is no other way for a configuration to end. -/
theorem configure_configuring (s : SharedEngine) (config : Config) :
    Configuring s config (s.configure config) := by
  unfold SharedEngine.configure
  cases hvalid : config.validate with
  | error err => exact .invalid hvalid
  | ok _ =>
    cases s with
    | none => exact .first hvalid rfl
    | some e => exact .late hvalid rfl

/-- The check of settings never finds that the engine exists. -/
theorem validate_ne_alreadyConfigured (config : Config) :
    config.validate ≠ .error .alreadyConfigured := by
  unfold Config.validate
  grind

/-- The law of configuration for a process whose engine exists if `taken` holds. -/
structure Configures (resolve : Resolver η) (p : Process σ) (config : Config) (taken : Prop) :
    Prop where
  /-- Settings that are not accepted are refused for what is wrong with them. -/
  invalid_iff : ∀ err, p.shared.configure config = .error err ∧ err ≠ .alreadyConfigured ↔
    config.validate = .error err
  /-- Proper settings are accepted if the engine does not exist. -/
  accepted_iff : (∃ shared, p.shared.configure config = .ok shared) ↔
    config.validate = .ok () ∧ ¬ taken
  /-- Otherwise they come too late. -/
  late_iff : p.shared.configure config = .error .alreadyConfigured ↔
    config.validate = .ok () ∧ taken
  /-- A refusal changes nothing. -/
  refused : ∀ err, p.shared.configure config = .error err →
    p.step resolve (.configure config : Op η σ ε) = p

/-- The law holds wherever it is known whether the engine exists. -/
theorem configures {taken : Prop} (htaken : p.shared ≠ none ↔ taken) (config : Config) :
    Configures (σ := σ) (ε := ε) resolve p config taken := by
  have hvalidate := validate_ne_alreadyConfigured config
  have refused : ∀ err, p.shared.configure config = .error err →
      p.step resolve (.configure config : Op η σ ε) = p := by
    intro err h
    rw [step, h]
  have hc := configure_configuring p.shared config
  generalize heq : p.shared.configure config = answer at hc
  rw [← htaken]
  cases hc with
  | invalid invalid => constructor <;> grind
  | late valid present => constructor <;> grind
  | first valid absent => constructor <;> grind

/-- Nothing is configured once there is an engine. -/
theorem configure_ofSession_ne (config : Config) (shared : SharedEngine) :
    (ofSession s).shared.configure config ≠ .ok shared := by
  intro h
  have hc := configure_configuring (ofSession s).shared config
  rw [h] at hc
  cases hc with
  | first valid absent => cases absent

/-- No configuration is accepted any more once the engine exists. -/
theorem success?_ofSession (op : Op η σ ε) : (ofSession s).success? op = none := by
  cases op with
  | configure config =>
    cases h : (ofSession s).shared.configure config with
    | ok shared => exact absurd h (configure_ofSession_ne config shared)
    | error err => rw [success?, h]
  | _ => rfl

/-- An operation on a process that has an engine is what the session of that engine makes of it. -/
theorem step_ofSession (op : Op η σ ε) :
    (ofSession s).step resolve op = ofSession (s.run resolve op.work?.toList) := by
  cases op with
  | configure config =>
    cases h : (ofSession s).shared.configure config with
    | ok shared => exact absurd h (configure_ofSession_ne config shared)
    | error err =>
      rw [step, h]
      rfl
  | engine => rfl
  | register id slots =>
    simp only [step, ofSession, SharedEngine.register, SharedEngine.engine, Option.getD_some,
      Op.work?, Option.toList_some, Session.run, List.foldl_cons, List.foldl_nil, Session.step,
      Engine.registered]
    cases s.engine.register id slots with
    | ok r => rfl
    | error err => rfl
  | dispatch name input draw handler =>
    simp only [step, ofSession, SharedEngine.dispatch, SharedEngine.engine, Option.getD_some,
      Op.work?, Option.toList_some, Session.run, List.foldl_cons, List.foldl_nil, Session.step,
      Session.call?]
    cases resolve s.engine name with
    | none => rfl
    | some site => rfl

/-- The operations add their work one by one. -/
theorem work_cons (op : Op η σ ε) (ops : List (Op η σ ε)) :
    work (op :: ops) = op.work?.toList ++ work ops := by
  cases hop : op.work? <;> simp [work, hop]

/-- A process that has an engine is a session with it, and no configuration is accepted. -/
theorem run_ofSession (resolve : Resolver η) (s : Session σ) (ops : List (Op η σ ε)) :
    (ofSession s).run resolve ops = ofSession (s.run resolve (work ops)) ∧
      (ofSession s).successes resolve ops = [] := by
  induction ops generalizing s with
  | nil => exact ⟨rfl, rfl⟩
  | cons op rest ih =>
    obtain ⟨hrun, hsuccesses⟩ := ih (s.run resolve op.work?.toList)
    constructor
    · rw [run, List.foldl_cons, ← run, step_ofSession, hrun, work_cons, Session.run, Session.run,
        Session.run, List.foldl_append]
    · rw [successes, success?_ofSession, step_ofSession, hsuccesses]
      rfl

/-- A use creates the engine if it is absent. -/
theorem step_of_isUse (resolve : Resolver η) (p : Process σ) {op : Op η σ ε}
    (h : op.isUse = true) :
    p.step resolve op = (ofSession p.session).step resolve op ∧ p.success? op = none := by
  cases op with
  | configure config => cases h
  | engine | register | dispatch => exact ⟨rfl, rfl⟩

/-- How a process goes on that starts without an engine: the operations, the settings that are
accepted on the way, and the process afterwards. -/
inductive Lived (resolve : Resolver η) (world : σ) (ops : List (Op η σ ε)) :
    List Config → Process σ → Prop
  /-- There is no engine yet. -/
  | untouched (unused : ∀ op ∈ ops, op.isUse = false) : Lived resolve world ops [] { world }
  /-- The engine was created by a configuration. -/
  | configured (config : Config) :
      Lived resolve world ops [config]
        (ofSession ((Session.mk (.ofConfig config) world).run resolve (work ops)))
  /-- The engine was created by a use. -/
  | used (used : ∃ op ∈ ops, op.isUse = true) :
      Lived resolve world ops []
        (ofSession ((Session.mk (.ofConfig {}) world).run resolve (work ops)))

/-- Every process goes on in one of these ways. -/
theorem run_lived (world : σ) (ops : List (Op η σ ε)) :
    Lived resolve world ops (({ world } : Process σ).successes resolve ops)
      (({ world } : Process σ).run resolve ops) := by
  induction ops with
  | nil => exact .untouched (by simp)
  | cons op rest ih =>
    rw [successes, run, List.foldl_cons, ← run]
    cases huse : op.isUse with
    | true =>
      obtain ⟨hstep, hsuccess⟩ := step_of_isUse resolve { world } huse
      obtain ⟨hrun, hsuccesses⟩ := run_ofSession resolve (session { world }) (op :: rest)
      rw [successes, success?_ofSession, ← hstep] at hsuccesses
      rw [run, List.foldl_cons, ← run, ← hstep] at hrun
      rw [hsuccess, hsuccesses, hrun]
      exact .used ⟨op, List.mem_cons_self, huse⟩
    | false =>
      cases op with
      | configure config =>
        have hc := configure_configuring ({ world } : Process σ).shared config
        rw [success?, step]
        generalize ({ world } : Process σ).shared.configure config = answer at hc
        cases hc with
        | invalid refused =>
          generalize ({ world } : Process σ).successes resolve rest = settings,
            ({ world } : Process σ).run resolve rest = q at ih
          cases ih with
          | untouched unused => exact .untouched (by simpa [Op.isUse] using unused)
          | configured config => exact .configured config
          | used used => exact .used (by simpa [Op.isUse] using used)
        | late valid present => cases present
        | first valid absent =>
          obtain ⟨hrun, hsuccesses⟩ := run_ofSession resolve
            ⟨.ofConfig config, world⟩ rest
          simp only [ofSession] at hrun hsuccesses
          rw [hrun, hsuccesses]
          exact .configured config
      | _ => cases huse

/-- An engine that is not used does no work. -/
theorem work_of_unused {ops : List (Op η σ ε)} (h : ∀ op ∈ ops, op.isUse = false) :
    work ops = [] := by
  rw [work, List.filterMap_eq_nil_iff]
  intro op hop
  cases op with
  | configure config => rfl
  | _ => cases h _ hop

/-- A configuration is accepted or the engine is used. -/
def Taken (resolve : Resolver η) (p : Process σ) (ops : List (Op η σ ε)) : Prop :=
  p.successes resolve ops ≠ [] ∨ ∃ op ∈ ops, op.isUse = true

/-- At most one configuration is accepted. -/
theorem Lived.length_le_one {world : σ} {ops : List (Op η σ ε)} {settings : List Config}
    (h : Lived resolve world ops settings p) : settings.length ≤ 1 := by
  cases h <;> simp

/-- There is an engine after an accepted configuration or a use, and only then. -/
theorem Lived.shared_ne_none_iff {world : σ} {ops : List (Op η σ ε)} {settings : List Config}
    (h : Lived resolve world ops settings p) :
    p.shared ≠ none ↔ settings ≠ [] ∨ ∃ op ∈ ops, op.isUse = true := by
  cases h with
  | untouched unused =>
    refine iff_of_false (by simp) ?_
    rintro (h | ⟨op, hop, huse⟩)
    · exact h rfl
    · cases (unused op hop).symm.trans huse
  | configured config => exact iff_of_true (by simp [ofSession]) (.inl (by simp))
  | used used => exact iff_of_true (by simp [ofSession]) (.inr used)

/-- The engine is the one that was created, gone on by what was done with it. -/
theorem Lived.session_eq {world : σ} {ops : List (Op η σ ε)} {settings : List Config}
    (h : Lived resolve world ops settings p) :
    p.session = (Session.mk (.ofConfig (settings.headD {})) world).run resolve (work ops) := by
  cases h with
  | untouched unused =>
    rw [work_of_unused unused]
    rfl
  | configured config | used used => rfl

/-- A process that has its engine is told by its session. -/
theorem ofSession_session (h : p.shared ≠ none) : ofSession p.session = p := by
  obtain ⟨shared, world⟩ := p
  cases shared with
  | none => exact absurd rfl h
  | some e => rfl

/-- In every process, whatever its operations are: at most one configuration is accepted. A
configuration is refused for its settings, which changes nothing, or else because an earlier one was
accepted or the engine was used before, or else it is accepted. All uses see one engine, which has
the settings of the accepted configuration, or else the default ones, and which has gone on by all
registrations and dispatches so far. -/
theorem shared_engine_lifecycle (resolve : Resolver η) (world : σ) (ops : List (Op η σ ε)) :
    let start : Process σ := { world }
    let p := start.run resolve ops
    let settings := (start.successes resolve ops).headD {}
    (start.successes resolve ops).length ≤ 1 ∧
    (∀ config, Configures (σ := σ) (ε := ε) resolve p config (start.Taken resolve ops)) ∧
    p.session = (Session.mk (.ofConfig settings) world).run resolve (work ops) ∧
    p.shared.engine.config = settings ∧
    (start.Taken resolve ops → ∀ later : List (Op η σ ε), p.successes resolve later = [] ∧
      (p.run resolve later).session = p.session.run resolve (work later)) := by
  intro start p settings
  have hlived : Lived resolve world ops (start.successes resolve ops) p := run_lived world ops
  have htaken : p.shared ≠ none ↔ start.Taken resolve ops := hlived.shared_ne_none_iff
  have hsession := hlived.session_eq
  refine ⟨hlived.length_le_one, configures htaken, hsession, ?_, ?_⟩
  · change p.session.engine.config = settings
    rw [hsession]
    exact (Session.sameSettings_run (work ops)).config_eq
  · intro h later
    obtain ⟨hrun, hsuccesses⟩ := run_ofSession resolve p.session later
    rw [ofSession_session (htaken.mpr h)] at hrun hsuccesses
    exact ⟨hsuccesses, congrArg session hrun⟩

end Process

end CallMemo
