import CallMemo.Proofs.Cache.View

/-!
# Victims and candidates

Ranks are compared number by number, which is a linear order, so the lowest ranked candidate is well
defined. A candidate for an eviction elsewhere is the victim of another site that ranks below the
requester's own victim; the entry taken is the victim of the lowest ranked candidate.
-/

namespace CallMemo

namespace Priority

theorem lt_iff {p q : Priority} :
    p < q ↔ p.major < q.major ∨ p.major = q.major ∧ p.minor < q.minor := Iff.rfl

theorem lt_irrefl (p : Priority) : ¬ p < p := by
  rw [lt_iff]
  simp

/-- The order of priorities is transitive. -/
theorem lt_trans {p q r : Priority} (hpq : p < q) (hqr : q < r) : p < r := by
  rw [lt_iff] at *
  grind

/-- Priorities of which neither is lower are the same. -/
theorem eq_of_not_lt {p q : Priority} (hpq : ¬ p < q) (hqp : ¬ q < p) : p = q := by
  obtain ⟨a, b⟩ := p
  obtain ⟨a', b'⟩ := q
  simp only [lt_iff] at *
  grind

/-- What is lower than a priority is lower than every one that is not lower than it. -/
theorem lt_of_lt_of_not_lt {p q r : Priority} (hpq : p < q) (hrq : ¬ r < q) : p < r := by
  rw [lt_iff] at *
  grind

end Priority

namespace Rank

variable {a b c : Rank}

theorem lt_iff :
    a < b ↔ a.priority < b.priority ∨ a.priority = b.priority ∧ a.name < b.name := Iff.rfl

/-- A rank is at most another one unless that is lower. -/
theorem le_iff : a ≤ b ↔ ¬ b < a := Iff.rfl

theorem lt_irrefl (a : Rank) : ¬ a < a := by
  simp [lt_iff, Priority.lt_irrefl]

theorem lt_trans (hab : a < b) (hbc : b < c) : a < c := by
  rw [lt_iff] at *
  grind [Priority.lt_trans]

instance : Std.IsLinearPreorder Rank where
  le_refl a := by
    rw [le_iff, lt_iff]
    simp [Priority.lt_irrefl]
  le_trans a b c hab hbc := by
    rw [le_iff, lt_iff] at *
    grind [Priority.lt_trans, Priority.eq_of_not_lt, Priority.lt_irrefl]
  le_total a b := by
    rw [le_iff, le_iff, lt_iff, lt_iff]
    grind [Priority.lt_trans, Priority.eq_of_not_lt, Priority.lt_irrefl]

/-- Two ranks that do not exceed each other have the same name. -/
theorem name_eq (h : a ≤ b) (h' : b ≤ a) : a.name = b.name := by
  simp only [le_iff, lt_iff] at h h'
  grind [Priority.eq_of_not_lt, Priority.lt_irrefl]

/-- Ranks of different names are not the same. -/
theorem lt_of_le_of_name_ne (h : a ≤ b) (hne : a.name ≠ b.name) : a < b :=
  Decidable.byContradiction fun hlt => hne (name_eq h hlt)

end Rank

namespace Cache

variable {c : Cache} {s t : SiteId} {f : Fingerprint} {own : Option Priority} {p : Priority}

/-- A site offers the priority of the entry that the policy names. -/
theorem victimPriority?_eq_some_iff {sh : Shard} :
    c.victimPriority? sh = some p ↔
      ∃ v e, c.policy.victim? sh = some v ∧ sh[v]? = some e ∧ c.policy.priority e = p := by
  simp [victimPriority?, Option.bind_eq_some_iff]

/-- The candidates are the other sites whose victim ranks below the requester's own. -/
theorem mem_candidates_iff :
    (t, p) ∈ c.candidates s own ↔
      t ≠ s ∧ c.victimPriority? (c.shard t) = some p ∧ ∀ q ∈ own, p < q := by
  simp only [candidates, List.mem_filterMap, Prod.exists,
    Std.ExtTreeMap.mem_toList_iff_getElem?_eq_some]
  constructor
  · rintro ⟨u, sh, hsh, h⟩
    rw [← shard_eq_of_getElem? hsh] at h
    split at h
    · cases h
    · next hne =>
      split at h
      · cases h
      · next q hq =>
        split at h
        · next ho =>
          simp only [Option.some.injEq, Prod.mk.injEq] at h
          obtain ⟨rfl, rfl⟩ := h
          exact ⟨hne, hq, by simpa [Option.all_eq_true] using ho⟩
        · cases h
  · rintro ⟨hne, hp, ho⟩
    cases hsh : c.shards[t]? with
    | none =>
      -- an absent shard reads as an empty one, in which no named entry can be found
      obtain ⟨v, e, -, he, -⟩ := victimPriority?_eq_some_iff.mp hp
      rw [shard_eq_empty hsh, Std.ExtTreeMap.getElem?_empty] at he
      cases he
    | some sh =>
      refine ⟨t, sh, hsh, ?_⟩
      have ho' : own.all (p < ·) = true := by simpa [Option.all_eq_true] using ho
      rw [← shard_eq_of_getElem? hsh, if_neg hne, hp]
      simp only [ho', if_true]

/-- The entry taken elsewhere is the victim of the lowest ranked candidate. -/
theorem stalestElsewhere?_eq_some (h : c.stalestElsewhere? s own = some (t, f)) :
    c.policy.victim? (c.shard t) = some f ∧
      ∃ p, (t, p) ∈ c.candidates s own ∧
        ∀ u q, (u, q) ∈ c.candidates s own → (⟨p, t.val⟩ : Rank) ≤ ⟨q, u.val⟩ := by
  simp only [stalestElsewhere?, Option.bind_eq_bind, Option.bind_eq_some_iff, Prod.exists] at h
  obtain ⟨u, p, hmin, v, hv, h⟩ := h
  simp only [Option.pure_def, Option.some.injEq, Prod.mk.injEq] at h
  obtain ⟨rfl, rfl⟩ := h
  refine ⟨hv, p, List.minOn?_mem hmin, fun w q hw => ?_⟩
  have hle := List.apply_get_minOn?_le_of_mem
    (f := fun x : SiteId × Priority => (⟨x.2, x.1.val⟩ : Rank)) hw
  simpa only [hmin, Option.get_some] using hle

/-- Nothing is taken elsewhere exactly when there is no candidate. -/
theorem stalestElsewhere?_eq_none_iff :
    c.stalestElsewhere? s own = none ↔ c.candidates s own = [] := by
  constructor
  · intro h
    rw [List.eq_nil_iff_forall_not_mem]
    intro x hx
    rw [stalestElsewhere?, Option.bind_eq_bind, Option.bind_eq_none_iff] at h
    obtain ⟨⟨t, p⟩, hmin⟩ := Option.isSome_iff_exists.mp (List.isSome_minOn?_of_mem
      (f := fun x : SiteId × Priority => (⟨x.2, x.1.val⟩ : Rank)) hx)
    obtain ⟨-, hp, -⟩ := mem_candidates_iff.mp (List.minOn?_mem hmin)
    obtain ⟨v, -, hv, -⟩ := victimPriority?_eq_some_iff.mp hp
    have hnone := h (t, p) hmin
    simp [hv] at hnone
  · intro h
    simp [stalestElsewhere?, h]

/-- An entry taken elsewhere never belongs to the requester. -/
theorem ne_of_stalestElsewhere? (h : c.stalestElsewhere? s own = some (t, f)) : t ≠ s := by
  obtain ⟨-, p, hp, -⟩ := stalestElsewhere?_eq_some h
  exact (mem_candidates_iff.mp hp).1

end Cache

end CallMemo
