import CallMemo.Error

/-!
# Call sites

A call site declares the state slots that its handler reads; the declaration names at least one
slot and none twice. A site is memoizable until a purity check fails for it; from then on it is
demoted for good.
-/

namespace CallMemo

/-- The first element that occurs in `seen` or earlier in the list. -/
def firstRepeated? {α : Type} [DecidableEq α] (seen : List α) : List α → Option α
  | [] => none
  | a :: rest => if a ∈ seen then some a else firstRepeated? (a :: seen) rest

/-- Nothing repeats exactly when the list has no duplicates and meets none of the seen elements. -/
theorem firstRepeated?_eq_none_iff {α : Type} [DecidableEq α] {seen l : List α} :
    firstRepeated? seen l = none ↔ l.Nodup ∧ ∀ a ∈ l, a ∉ seen := by
  induction l generalizing seen with
  | nil => simp [firstRepeated?]
  | cons a rest ih =>
    by_cases h : a ∈ seen
    · simp [firstRepeated?, h]
    · simp only [firstRepeated?, h, if_false, ih, List.mem_cons, List.nodup_cons]
      grind

/-- The element that is found is preceded by different elements that were not seen before. -/
theorem firstRepeated?_eq_some_iff {α : Type} [DecidableEq α] {seen l : List α} {a : α} :
    firstRepeated? seen l = some a ↔ ∃ before after, l = before ++ a :: after ∧ before.Nodup ∧
      (∀ b ∈ before, b ∉ seen) ∧ (a ∈ seen ∨ a ∈ before) := by
  induction l generalizing seen with
  | nil => simp [firstRepeated?]
  | cons x rest ih =>
    by_cases hx : x ∈ seen
    · rw [firstRepeated?, if_pos hx]
      constructor
      · intro h
        obtain rfl := Option.some.inj h
        exact ⟨[], rest, rfl, List.nodup_nil, by simp, .inl hx⟩
      · rintro ⟨before, after, heq, -, hbefore, -⟩
        cases before with
        | nil => rw [(List.cons.inj heq).1]
        | cons b before =>
          obtain ⟨rfl, -⟩ := List.cons.inj heq
          exact absurd hx (hbefore x List.mem_cons_self)
    · rw [firstRepeated?, if_neg hx, ih]
      constructor
      · rintro ⟨before, after, rfl, hnodup, hbefore, ha⟩
        refine ⟨x :: before, after, rfl, List.nodup_cons.mpr ⟨?_, hnodup⟩, ?_, ?_⟩
        · exact fun hb => hbefore x hb List.mem_cons_self
        · grind
        · grind
      · rintro ⟨before, after, heq, hnodup, hbefore, ha⟩
        cases before with
        | nil =>
          obtain ⟨rfl, -⟩ := List.cons.inj heq
          exact absurd (ha.resolve_right List.not_mem_nil) hx
        | cons b before =>
          obtain ⟨rfl, rfl⟩ := List.cons.inj heq
          have hx' := (List.nodup_cons.mp hnodup).1
          refine ⟨before, after, rfl, (List.nodup_cons.mp hnodup).2, ?_, ?_⟩
          · grind
          · grind

/-- The slots that a handler reads, in the order in which callers supply their values. -/
structure ReadSet where
  /-- The slots in declared order. -/
  slots : List Slot
  /-- Some slot is read. -/
  slots_ne_nil : slots ≠ []
  /-- No slot is read twice. -/
  nodup_slots : slots.Nodup
  deriving DecidableEq, Repr

namespace ReadSet

/-- Accepts a declaration that names at least one slot and none twice. -/
def declare (site : SiteId) (slots : List Slot) : Except ConfigurationError ReadSet :=
  if h : slots = [] then .error (.emptyReadSet site)
  else match hr : firstRepeated? [] slots with
    | some slot => .error (.duplicateSlot site slot)
    | none => .ok ⟨slots, h, (firstRepeated?_eq_none_iff.mp hr).1⟩

/-- The number of slots. -/
def width (r : ReadSet) : Nat := r.slots.length

/-- The values of the slots in a flat state file, or `none` if a slot lies outside it. -/
def gather (r : ReadSet) (state : List UInt64) : Option (List UInt64) :=
  r.slots.mapM fun s => state[s.val.toNat]?

end ReadSet

/-- Whether a site may be served from the cache. -/
inductive SiteStatus where
  /-- No purity check has failed so far. -/
  | memoizable
  /-- A purity check failed; the handler is called every time. -/
  | demoted
  deriving DecidableEq, Repr

/-- What is known of a registered dispatch point. -/
structure Registration where
  /-- The slots its handler reads. -/
  readSet : ReadSet
  /-- Whether it may be served from the cache. -/
  status : SiteStatus := .memoizable
  deriving DecidableEq, Repr

/-- A registered dispatch point under its name. -/
structure CallSite extends Registration where
  /-- The identity of the site. -/
  id : SiteId
  deriving DecidableEq, Repr

/-- Whether the site may be served from the cache. -/
def Registration.isMemoizable (r : Registration) : Bool := r.status == .memoizable

end CallMemo
