import CallMemo.Proofs.Engine.Session

/-!
# Events

The dispatches of a session and the snapshot entries that are offered in it, each with the engine as
it stood before. What an event is counted as is read off the engine, the input and the answer: what
the dispatch found, whether its handler ran and failed, and what became of a result that was offered
to the cache.
-/

namespace CallMemo

/-- What a dispatch finds. -/
inductive Finding where
  /-- The input has the wrong width. -/
  | misfit
  /-- The site is demoted. -/
  | demoted
  /-- Nothing is recorded under the fingerprint of the input. -/
  | absent
  /-- Another input is recorded under the fingerprint. -/
  | other
  /-- The input itself is recorded. -/
  | same
  deriving DecidableEq, Repr

namespace Engine

variable {e : Engine} {site : CallSite} {input : List UInt64} {hit : Hit}

/-- What a dispatch of an input finds. -/
def finding (e : Engine) (site : CallSite) (input : List UInt64) : Finding :=
  if input.length ≠ site.readSet.width then .misfit
  else if site.isMemoizable = false then .demoted
  else match e.cache.recorded? site.id (e.codec.encode site.id input) with
    | none => .absent
    | some hit => if hit.rawInput = input then .same else .other

/-- An input of another width is a misfit, whatever is recorded. -/
theorem finding_of_width_ne (width : input.length ≠ site.readSet.width) :
    e.finding site input = .misfit :=
  if_pos width

/-- Nothing is looked for if the site is demoted. -/
theorem finding_of_demoted (width : input.length = site.readSet.width)
    (demoted : site.isMemoizable = false) : e.finding site input = .demoted := by
  rw [finding, if_neg (not_not_intro width), if_pos demoted]

/-- An empty place is found as such. -/
theorem finding_of_absent (width : input.length = site.readSet.width)
    (memoizable : site.isMemoizable = true)
    (absent : e.cache.recorded? site.id (e.codec.encode site.id input) = none) :
    e.finding site input = .absent := by
  rw [finding, if_neg (not_not_intro width), if_neg (by simp [memoizable]), absent]

/-- The result of another input is told apart by the input that it keeps. -/
theorem finding_of_other (width : input.length = site.readSet.width)
    (memoizable : site.isMemoizable = true)
    (present : e.cache.recorded? site.id (e.codec.encode site.id input) = some hit)
    (other : hit.rawInput ≠ input) : e.finding site input = .other := by
  rw [finding, if_neg (not_not_intro width), if_neg (by simp [memoizable]), present]
  exact if_neg other

/-- The result of the very input is found. -/
theorem finding_of_same (width : input.length = site.readSet.width)
    (memoizable : site.isMemoizable = true)
    (present : e.cache.recorded? site.id (e.codec.encode site.id input) = some hit)
    (same : hit.rawInput = input) : e.finding site input = .same := by
  rw [finding, if_neg (not_not_intro width), if_neg (by simp [memoizable]), present]
  exact if_pos same

/-- What is found for the input was recorded for it. -/
theorem recorded?_of_finding_same (h : e.finding site input = .same) :
    ∃ hit, e.cache.recorded? site.id (e.codec.encode site.id input) = some hit ∧
      hit.rawInput = input := by
  unfold finding at h
  split at h
  · cases h
  split at h
  · cases h
  cases hr : e.cache.recorded? site.id (e.codec.encode site.id input) with
  | none =>
    rw [hr] at h
    cases h
  | some hit =>
    rw [hr] at h
    by_cases same : hit.rawInput = input
    · exact ⟨hit, rfl, same⟩
    · simp [same] at h

/-- Whether a snapshot entry fits a registered site that may be served from the cache. -/
def admits (e : Engine) (s : SnapshotEntry) : Bool :=
  e.sites[s.site]?.any fun r => r.isMemoizable && s.inputs.length = r.readSet.width

/-- A snapshot entry fits a site that takes results of its width. -/
theorem admits_eq_true {s : SnapshotEntry} {r : Registration}
    (registered : e.sites[s.site]? = some r) (memoizable : r.isMemoizable = true)
    (width : s.inputs.length = r.readSet.width) : e.admits s = true := by
  simp [admits, registered, memoizable, width]

/-- A snapshot entry fits no site that is unknown, demoted or of another width. -/
theorem admits_eq_false {s : SnapshotEntry} (misfit : ∀ r, e.sites[s.site]? = some r →
    ¬ (r.isMemoizable = true ∧ s.inputs.length = r.readSet.width)) : e.admits s = false := by
  cases hr : e.sites[s.site]? with
  | none => rw [admits, hr, Option.any_none]
  | some r => simpa [admits, hr] using misfit r hr

end Engine

/-- What happens in a session. -/
inductive Event (σ ε : Type) where
  /-- A dispatch, with the word drawn for the sample. -/
  | dispatch (before : Engine) (draw : UInt64) (call : Call σ ε)
  /-- A snapshot entry is offered. -/
  | offer (before : Engine) (entry : SnapshotEntry)

variable {η σ ε : Type}

namespace Event

/-- A dispatch finds this. -/
@[simp] def finds (f : Finding) : Event σ ε → Bool
  | .dispatch e _ call => e.finding call.site call.input = f
  | .offer .. => false

/-- A dispatch has an input of the right width. -/
@[simp] def fits : Event σ ε → Bool
  | .dispatch _ _ call => call.input.length = call.site.readSet.width
  | .offer .. => false

/-- A handler ran. -/
@[simp] def ran : Event σ ε → Bool
  | .dispatch _ _ call => call.answer.ran
  | .offer .. => false

/-- A handler ran and failed. -/
@[simp] def failed : Event σ ε → Bool
  | .dispatch _ _ call => match call.answer.ran, call.answer.result with
    | true, .error _ => true
    | _, _ => false
  | .offer .. => false

/-- A dispatch reports a contradiction. -/
@[simp] def reports : Event σ ε → Bool
  | .dispatch _ _ call => call.answer.violation.isSome
  | .offer .. => false

/-- A dispatch finds its input recorded, and the sample says to check the result. -/
@[simp] def sampledHit : Event σ ε → Bool
  | .dispatch e draw call =>
    e.finding call.site call.input = .same && isSampled e.config.validationSampleRate draw
  | .offer .. => false

/-- A handler fails while a recorded result is checked. -/
@[simp] def failedRecheck (ev : Event σ ε) : Bool := ev.sampledHit && ev.failed

/-- A handler fails whose result would have been recorded. -/
@[simp] def unrecorded (ev : Event σ ε) : Bool := (ev.finds .absent || ev.finds .other) && ev.failed

/-- An entry is offered that fits a registered site which may be served from the cache. -/
@[simp] def offered : Event σ ε → Bool
  | .dispatch .. => false
  | .offer e s => e.admits s

/-- What became of the result that was put to the cache, if one was. -/
@[simp] def outcome? : Event σ ε → Option InsertOutcome
  | .dispatch e _ call =>
    let fp := e.codec.encode call.site.id call.input
    if e.finding call.site call.input = .absent ∨ e.finding call.site call.input = .other then
      match call.answer.result with
      | .ok post => some ((e.marked call.site.id fp).cache.insert call.site.id fp call.input
          post).outcome
      | .error _ => none
    else none
  | .offer e s =>
    if e.admits s then
      some (e.cache.insertCold s.site (e.codec.encode s.site s.inputs) s.inputs s.post
        s.hits).outcome
    else none

/-- A result was recorded. -/
@[simp] def stores (ev : Event σ ε) : Bool := ev.outcome?.any (· ≠ .skipped)

/-- A result was recorded and another entry gave way. -/
@[simp] def evicts (ev : Event σ ε) : Bool := ev.outcome?.any fun
  | .evicted .. => true
  | .inserted | .replaced | .skipped => false

end Event

/-- Snapshot entries are offered one after another. -/
def Engine.offers (e : Engine) : List SnapshotEntry → List (Event σ ε)
  | [] => []
  | s :: rest => .offer e s :: (e.load s).engine.offers rest

namespace Session

/-- The events of one operation. -/
def events (resolve : Resolver η) (s : Session σ) : Engine.Op η σ ε → List (Event σ ε)
  | .dispatch name input draw handler =>
    (s.call? resolve (.dispatch name input draw handler)).toList.map (.dispatch s.engine draw)
  | .warmStart snapshot => s.engine.offers snapshot.entries
  | .register .. | .exportSnapshot | .invalidate _ | .clear => []

/-- All events of a list of operations, in order. -/
def log (resolve : Resolver η) (s : Session σ) : List (Engine.Op η σ ε) → List (Event σ ε)
  | [] => []
  | op :: rest => s.events resolve op ++ (s.step resolve op).log resolve rest

end Session

end CallMemo
