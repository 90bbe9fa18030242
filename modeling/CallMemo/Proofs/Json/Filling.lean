import CallMemo.CallSite
import CallMemo.Proofs.Json.Gathering

/-!
# Filling the draft of a record

The members of an object are put into the draft of its record one after another. A member that the
draft holds already is a fault, and unknown members are passed over. So the fault is the first
member that repeats an earlier one, and a draft that is filled without a fault holds exactly the
members that were given, in whatever order.
-/

namespace CallMemo.Json

/-- How a draft is filled: `δ` is the draft, `β` a member as it is given, and `κ` tells the known
members apart. -/
structure Filling (δ β κ : Type) [DecidableEq κ] where
  /-- The known member that is given. -/
  key? : β → Option κ
  /-- The name of a known member. -/
  name : κ → String
  /-- What the draft holds of a member. -/
  held : δ → κ → Option β
  /-- The draft with a member put in. -/
  put : δ → β → δ
  /-- What is put in is held, and nothing else changes. -/
  held_put : ∀ d b k, held (put d b) k = if key? b = some k then some b else held d k
  /-- Unknown members are passed over. -/
  put_of_key?_eq_none : ∀ d b, key? b = none → put d b = d

namespace Filling

variable {δ β κ : Type} [DecidableEq κ] {f : Filling δ β κ} {d d' : δ} {b : β} {bs : List β} {k : κ}

/-- Puts a member into the draft unless it is held already. -/
def step (f : Filling δ β κ) (d : δ) (b : β) : Except Fault δ :=
  match f.key? b with
  | none => .ok d
  | some k => if (f.held d k).isSome then .error (.repeated (f.name k)) else .ok (f.put d b)

/-- The known members in the order in which they are given. -/
def keys (f : Filling δ β κ) (bs : List β) : List κ := bs.filterMap f.key?

/-- The draft holds no member. -/
def Empty (f : Filling δ β κ) (d : δ) : Prop := ∀ k, f.held d k = none

theorem mem_keys_iff : k ∈ f.keys bs ↔ ∃ b ∈ bs, f.key? b = some k := List.mem_filterMap

/-- The members held in front are those seen before. -/
theorem foldlM_step (seen : List κ) (hseen : ∀ k, k ∈ seen ↔ (f.held d k).isSome = true) :
    bs.foldlM f.step d = match firstRepeated? seen (f.keys bs) with
      | some k => .error (.repeated (f.name k))
      | none => .ok (bs.foldl f.put d) := by
  induction bs generalizing d seen with
  | nil => rfl
  | cons b bs ih =>
    rw [List.foldlM_cons, List.foldl_cons, step]
    cases hkey : f.key? b with
    | none =>
      have hkeys : f.keys (b :: bs) = f.keys bs := List.filterMap_cons_none hkey
      rw [hkeys, f.put_of_key?_eq_none d b hkey]
      exact ih seen hseen
    | some k =>
      have hkeys : f.keys (b :: bs) = k :: f.keys bs := List.filterMap_cons_some hkey
      rw [hkeys, firstRepeated?]
      by_cases hk : k ∈ seen
      · simp only [(hseen k).mp hk, if_true, if_pos hk]
        rfl
      · have hfree : ¬ (f.held d k).isSome = true := fun h => hk ((hseen k).mpr h)
        simp only [if_neg hfree, if_neg hk]
        refine ih (k :: seen) fun j => ?_
        rw [List.mem_cons, f.held_put, hkey]
        by_cases hj : j = k
        · simp [hj]
        · rw [if_neg fun h => hj (Option.some.inj h).symm, ← hseen j]
          simp [hj]

/-- An empty draft is filled if no member is given twice. -/
theorem foldlM_step_eq_ok_iff (empty : f.Empty d) :
    bs.foldlM f.step d = .ok d' ↔ (f.keys bs).Nodup ∧ bs.foldl f.put d = d' := by
  rw [foldlM_step [] fun k => by simp [empty k]]
  have hnone : firstRepeated? [] (f.keys bs) = none ↔ (f.keys bs).Nodup := by
    simp [firstRepeated?_eq_none_iff]
  cases hfirst : firstRepeated? [] (f.keys bs) with
  | none => simp [hnone.mp hfirst]
  | some k =>
    have hrepeats : ¬ (f.keys bs).Nodup := fun h => by
      rw [hnone.mpr h] at hfirst
      cases hfirst
    simp [hrepeats]

/-- The fault is the first member that is given again. -/
theorem foldlM_step_eq_error_iff (empty : f.Empty d) {fault : Fault} :
    bs.foldlM f.step d = .error fault ↔ ∃ before k after, f.keys bs = before ++ k :: after ∧
      before.Nodup ∧ k ∈ before ∧ fault = .repeated (f.name k) := by
  rw [foldlM_step [] fun k => by simp [empty k]]
  have hsome {k : κ} : firstRepeated? [] (f.keys bs) = some k ↔
      ∃ before after, f.keys bs = before ++ k :: after ∧ before.Nodup ∧ k ∈ before := by
    simp [firstRepeated?_eq_some_iff]
  constructor
  · intro h
    cases hfirst : firstRepeated? [] (f.keys bs) with
    | none =>
      rw [hfirst] at h
      cases h
    | some k =>
      rw [hfirst] at h
      cases h
      obtain ⟨before, after, hsplit⟩ := hsome.mp hfirst
      exact ⟨before, k, after, hsplit.1, hsplit.2.1, hsplit.2.2, rfl⟩
  · rintro ⟨before, k, after, hsplit, hnodup, hk, rfl⟩
    rw [hsome.mpr ⟨before, after, hsplit, hnodup, hk⟩]

/-- A member that is not given stays as it was. -/
theorem held_foldl_of_notMem (hk : k ∉ f.keys bs) : f.held (bs.foldl f.put d) k = f.held d k := by
  induction bs generalizing d with
  | nil => rfl
  | cons b bs ih =>
    have hb : f.key? b ≠ some k := fun h => hk (mem_keys_iff.mpr ⟨b, List.mem_cons_self, h⟩)
    have hbs : k ∉ f.keys bs := fun h => by
      obtain ⟨c, hc, hkey⟩ := mem_keys_iff.mp h
      exact hk (mem_keys_iff.mpr ⟨c, List.mem_cons_of_mem _ hc, hkey⟩)
    rw [List.foldl_cons, ih hbs, f.held_put, if_neg hb]

/-- A member that is given once is held as it was given. -/
theorem held_foldl_of_mem (nodup : (f.keys bs).Nodup) (hb : b ∈ bs) (hk : f.key? b = some k) :
    f.held (bs.foldl f.put d) k = some b := by
  induction bs generalizing d with
  | nil => cases hb
  | cons c bs ih =>
    rw [List.foldl_cons]
    rcases List.mem_cons.mp hb with rfl | hb
    · have hkeys : f.keys (b :: bs) = k :: f.keys bs := List.filterMap_cons_some hk
      rw [hkeys, List.nodup_cons] at nodup
      rw [held_foldl_of_notMem nodup.1, f.held_put, if_pos hk]
    · refine ih (nodup.sublist ?_) hb
      exact (List.sublist_cons_self c bs).filterMap f.key?

/-- A filled draft holds what was given. -/
theorem held_foldl_eq_some_iff (empty : f.Empty d) (nodup : (f.keys bs).Nodup)
    (hk : f.key? b = some k) : f.held (bs.foldl f.put d) k = some b ↔ b ∈ bs := by
  refine ⟨fun h => ?_, fun hb => held_foldl_of_mem nodup hb hk⟩
  by_cases hkeys : k ∈ f.keys bs
  · obtain ⟨c, hc, hkey⟩ := mem_keys_iff.mp hkeys
    rw [held_foldl_of_mem nodup hc hkey] at h
    exact Option.some.inj h ▸ hc
  · rw [held_foldl_of_notMem hkeys, empty k] at h
    cases h

/-- A filled draft lacks what was not given. -/
theorem held_foldl_eq_none_iff (empty : f.Empty d) (nodup : (f.keys bs).Nodup) :
    f.held (bs.foldl f.put d) k = none ↔ k ∉ f.keys bs := by
  refine ⟨fun h hkeys => ?_, fun hkeys => (held_foldl_of_notMem hkeys).trans (empty k)⟩
  obtain ⟨c, hc, hkey⟩ := mem_keys_iff.mp hkeys
  rw [held_foldl_of_mem nodup hc hkey] at h
  cases h

variable {α : Type} {r : Record δ α} {m : Member δ} {name s t v w : List Char}

/-- A known member is read as it is put in. -/
theorem readMember_eq_step (found : r.members.find? (·.name.toList = name) = some m)
    (hkey : f.key? b = some k) (hname : m.name = f.name k)
    (hgiven : m.isGiven d = (f.held d k).isSome) (value : Reads (m.read d) t (f.put d b))
    (gap : Blanks v) (blank : Blanks w) (ends : Ends s) :
    r.readMember name d (v ++ ':' :: (w ++ (t ++ s))) = (f.step d b).map (·, s) := by
  rw [Record.readMember_known found gap blank value.gives ends, step, hkey, hname, hgiven]

/-- An unknown member is passed over. -/
theorem readMember_eq_step_of_unknown (unknown : ∀ m ∈ r.members, name ≠ m.name.toList)
    (hkey : f.key? b = none) (value : JsonText .value t) (gap : Blanks v) (blank : Blanks w)
    (ends : Ends s) :
    r.readMember name d (v ++ ':' :: (w ++ (t ++ s))) = (f.step d b).map (·, s) := by
  rw [Record.readMember_unknown unknown gap blank value ends, step, hkey]
  rfl

end Filling

end CallMemo.Json
