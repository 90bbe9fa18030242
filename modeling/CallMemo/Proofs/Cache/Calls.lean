import CallMemo.Proofs.Cache.Residency

/-!
# Calls

What a call returns and where an entry comes from that is found after it: the call wrote it, used
it or confirmed it, or else the call is not on the context of the entry. The clock ticks once
for each use, so all uses stay behind it until it runs over.
-/

namespace CallMemo

namespace Cache

variable {c : Cache} {t : SiteId} {g : Fingerprint} {x : Entry} {op : Op}

/-- What a call returns. -/
inductive Answer where
  /-- What became of an insertion. -/
  | insertion (outcome : InsertOutcome)
  /-- What a lookup found. -/
  | lookup (hit : Option Hit)
  /-- Whether a check had an entry to confirm. -/
  | confirm (present : Bool)
  /-- How many entries were dropped. -/
  | invalidate (dropped : Nat)
  /-- Nothing. -/
  | clear
  deriving DecidableEq, Repr

/-- What a call returns. -/
def answer (c : Cache) : Op → Answer
  | .insert site fp raw post => .insertion (c.insert site fp raw post).outcome
  | .insertCold site fp raw post hits => .insertion (c.insertCold site fp raw post hits).outcome
  | .lookup site fp => .lookup (c.lookup site fp).1
  | .confirm site fp => .confirm (c.confirm site fp).1
  | .invalidate site => .invalidate (c.invalidate site).1
  | .clear => .clear

/-- Whether a call is on a context: it writes, uses, confirms or drops the entry of the context. -/
def Op.isOn (t : SiteId) (g : Fingerprint) : Op → Bool
  | .insert site fp _ _ | .insertCold site fp _ _ _ | .lookup site fp | .confirm site fp =>
    site = t ∧ fp = g
  | .invalidate site => site = t
  | .clear => true

/-- Where an entry comes from that is found after a call. -/
inductive Stems (c : Cache) (op : Op) (t : SiteId) (g : Fingerprint) : Entry → Prop
  /-- The call recorded it. -/
  | recorded {raw post} (hop : op = .insert t g raw post)
    (taken : c.answer op ≠ .insertion .skipped) : Stems c op t g ⟨raw, post, .fresh c.clock⟩
  /-- The call restored it. -/
  | restored {raw post hits} (hop : op = .insertCold t g raw post hits)
    (taken : c.answer op ≠ .insertion .skipped) : Stems c op t g ⟨raw, post, .cold hits⟩
  /-- The call used it. -/
  | used {y} (hop : op = .lookup t g) (hy : c.peek? t g = some y) : Stems c op t g (y.hit c.clock)
  /-- The call confirmed it. -/
  | confirmed {y} (hop : op = .confirm t g) (hy : c.peek? t g = some y) : Stems c op t g y.confirm
  /-- The call is not on its context. -/
  | kept {y} (away : op.isOn t g = false) (hy : c.peek? t g = some y) : Stems c op t g y

/-- An entry is old or comes of the call. -/
theorem stems_of_peek? (hx : (c.step op).peek? t g = some x) : Stems c op t g x := by
  cases op with
  | insert site fp raw post =>
    have hplace : Placement site fp ⟨raw, post, .fresh c.clock⟩ attempts none false _
        (c.insert site fp raw post).cache (c.insert site fp raw post).outcome :=
      insertEntry_placement (c := { c with clock := c.clock + 1 })
    rcases hplace.peek?_cases hx with ⟨taken, ⟨rfl, rfl⟩, rfl⟩ | ⟨away, hold⟩
    · exact .recorded rfl fun h => taken (Answer.insertion.inj h)
    · exact .kept (decide_eq_false away) (peek?_setShard_shard.symm.trans hold)
  | insertCold site fp raw post hits =>
    rcases insertEntry_placement.peek?_cases hx with ⟨taken, ⟨rfl, rfl⟩, rfl⟩ | ⟨away, hold⟩
    · exact .restored rfl fun h => taken (Answer.insertion.inj h)
    · exact .kept (decide_eq_false away) (peek?_setShard_shard.symm.trans hold)
  | lookup site fp =>
    rw [step, peek?_lookup] at hx
    split at hx
    · next hk =>
      obtain ⟨rfl, rfl⟩ := hk
      obtain ⟨y, hy, rfl⟩ := Option.map_eq_some_iff.mp hx
      exact .used rfl hy
    · next away => exact .kept (decide_eq_false away) hx
  | confirm site fp =>
    rw [step, peek?_confirm] at hx
    split at hx
    · next hk =>
      obtain ⟨rfl, rfl⟩ := hk
      obtain ⟨y, hy, rfl⟩ := Option.map_eq_some_iff.mp hx
      exact .confirmed rfl hy
    · next away => exact .kept (decide_eq_false away) hx
  | invalidate site =>
    rw [step, peek?_invalidate] at hx
    split at hx
    · cases hx
    · next away => exact .kept (decide_eq_false away) hx
  | clear => cases peek?_clear.symm.trans hx

/-- The clock ticks once if the call uses a context. -/
theorem clock_step (op : Op) :
    (c.step op).clock = if (c.touched? op).isSome then c.clock + 1 else c.clock := by
  cases op with
  | insert site fp raw post =>
    exact (insertEntry_placement (c := { c with clock := c.clock + 1 })).clock_eq
  | insertCold site fp raw post hits => exact insertEntry_placement.clock_eq
  | lookup site fp =>
    cases h : c.peek? site fp with
    | none => simp [step, touched?, lookup_of_none h]
    | some e => simp [step, touched?, lookup_of_some h]
  | confirm site fp =>
    cases h : c.peek? site fp with
    | none => simp [step, touched?, confirm_of_none h]
    | some e => simp [step, touched?, confirm_of_some h]
  | invalidate site =>
    cases h : c.shards[site]? with
    | none => simp [step, touched?, invalidate_of_none h]
    | some sh => simp [step, touched?, invalidate_of_some h]
  | clear => rfl

/-- The clock counts the calls that touch an entry, as long as it does not wrap. -/
theorem toNat_clock_step (hfew : c.clock.toNat + (c.touched? op).toList.length < 2 ^ 64) :
    (c.step op).clock.toNat = c.clock.toNat + (c.touched? op).toList.length := by
  rw [clock_step]
  cases h : c.touched? op with
  | none => rfl
  | some y =>
    rw [h, Option.toList_some, List.length_singleton] at hfew
    rw [Option.isSome_some, if_pos rfl, UInt64.toNat_add, UInt64.toNat_one,
      Nat.mod_eq_of_lt hfew]
    rfl

/-- All uses are over, the reading zero included. -/
structure Timely (c : Cache) : Prop where
  /-- The reading zero is over. -/
  clock_ne : c.clock ≠ 0
  /-- All uses are over. -/
  stamp_lt : ∀ t g x, c.peek? t g = some x → x.usage.lastUsed < c.clock

/-- A use is later than all uses before. -/
theorem Timely.lastUsed_hit (h : Timely c) (hx : c.peek? t g = some x) :
    (x.hit c.clock).usage.lastUsed = c.clock :=
  if_pos (UInt64.le_of_lt (h.stamp_lt t g x hx))

/-- Uses stay behind the clock as long as it does not run over. -/
theorem Timely.step (h : Timely c)
    (hfew : c.clock.toNat + (c.touched? op).toList.length < 2 ^ 64) : Timely (c.step op) := by
  have hclock := toNat_clock_step hfew
  have later {n : UInt64} (hn : n < c.clock) : n < (c.step op).clock := by
    rw [UInt64.lt_iff_toNat_lt] at hn ⊢
    omega
  have now (huse : (c.touched? op).isSome) : c.clock < (c.step op).clock := by
    obtain ⟨y, hy⟩ := Option.isSome_iff_exists.mp huse
    rw [hy, Option.toList_some, List.length_singleton] at hclock
    rw [UInt64.lt_iff_toNat_lt]
    omega
  have hpos : 0 < c.clock := UInt64.pos_iff_ne_zero.mpr h.clock_ne
  refine ⟨UInt64.pos_iff_ne_zero.mp (later hpos), fun t g x hx => ?_⟩
  cases stems_of_peek? hx with
  | recorded hop taken => exact now (by rw [hop]; rfl)
  | restored hop taken => exact later hpos
  | @used y hop hy =>
    have huse : (c.touched? op).isSome := by
      rw [hop, touched?, lookup_of_some hy]
      rfl
    rw [h.lastUsed_hit hy]
    exact now huse
  | @confirmed y hop hy =>
    have hold : y.usage.lastUsed < c.clock := h.stamp_lt t g y hy
    exact later hold
  | kept away hy => exact later (h.stamp_lt t g _ hy)

end Cache

end CallMemo
