import Mathlib.Data.List.Induction
import CallMemo.PostState.Basic

/-!
# The effect of a post-state

A post-state can be asked for the value of a register, which searches its writes from the end, and
it can be applied to a register file, which carries the writes out from the front. Both see the
last write to every register. So the values of the registers are all there is to the effect of a
post-state: two post-states have the same effect on every register file exactly if they give the
same values.
-/

namespace CallMemo.PostState

variable {r : UInt16} {nextPc : UInt64}

/-- The last write hides the others to its register. -/
theorem valueOf_concat (ws : List RegWrite) (w : RegWrite) :
    valueOf ⟨ws ++ [w], nextPc⟩ r =
      if w.reg = r then some w.value else valueOf ⟨ws, nextPc⟩ r := by
  by_cases h : w.reg = r <;> simp [valueOf, h]

/-- The last write is carried out after the others. -/
theorem applyTo_concat (ws : List RegWrite) (w : RegWrite) (regs : List UInt64) :
    applyTo ⟨ws ++ [w], nextPc⟩ regs =
      (applyTo ⟨ws, nextPc⟩ regs).set w.reg.toNat w.value := by
  simp [applyTo]

/-- No register is added or removed. -/
theorem length_applyTo (p : PostState) (regs : List UInt64) :
    (p.applyTo regs).length = regs.length := by
  obtain ⟨ws, nextPc⟩ := p
  induction ws using List.reverseRecOn with
  | nil => rfl
  | append_singleton ws w ih => rw [applyTo_concat, List.length_set, ih]

/-- A slot of a register holds the last value written to the register, or else what it held. -/
theorem getElem?_applyTo (p : PostState) (regs : List UInt64) (r : UInt16) :
    (p.applyTo regs)[r.toNat]? = regs[r.toNat]?.map ((p.valueOf r).getD ·) := by
  obtain ⟨ws, nextPc⟩ := p
  induction ws using List.reverseRecOn with
  | nil => simp [applyTo, valueOf]
  | append_singleton ws w ih =>
    rw [applyTo_concat, valueOf_concat]
    by_cases h : w.reg = r
    · subst h
      rw [if_pos rfl, List.getElem?_set_self', ih, Option.map_eq_map, Option.map_map]
      rfl
    · have hslot : w.reg.toNat ≠ r.toNat := fun hslot => h (UInt16.toNat_inj.mp hslot)
      rw [if_neg h, List.getElem?_set_ne hslot, ih]

/-- Slots past the last register are never written. -/
theorem drop_applyTo (p : PostState) (regs : List UInt64) :
    (p.applyTo regs).drop UInt16.size = regs.drop UInt16.size := by
  obtain ⟨ws, nextPc⟩ := p
  induction ws using List.reverseRecOn with
  | nil => rfl
  | append_singleton ws w ih => rw [applyTo_concat, List.drop_set_of_lt w.reg.toNat_lt, ih]

/-- A register file is the result of applying a post-state if it holds the right values in the slots
of the registers and the old ones behind them. -/
theorem applyTo_eq_of_getElem? {p : PostState} {regs regs' : List UInt64}
    (slots : ∀ r : UInt16, regs'[r.toNat]? = regs[r.toNat]?.map ((p.valueOf r).getD ·))
    (behind : regs'.drop UInt16.size = regs.drop UInt16.size) : regs' = p.applyTo regs := by
  refine List.ext_getElem? fun i => ?_
  rcases Nat.lt_or_ge i UInt16.size with hi | hi
  · have hslot := slots (UInt16.ofNat i)
    have hread := p.getElem?_applyTo regs (UInt16.ofNat i)
    rw [UInt16.toNat_ofNat_of_lt' hi] at hslot hread
    rw [hslot, hread]
  · have hread := congrArg (·[i - UInt16.size]?) (behind.trans (p.drop_applyTo regs).symm)
    simpa [List.getElem?_drop, Nat.add_sub_cancel' hi] using hread

/-- Some default tells two optional words apart. -/
theorem eq_of_getD_eq {a b : Option UInt64} (h : ∀ x, a.getD x = b.getD x) : a = b := by
  cases a with
  | none =>
    cases b with
    | none => rfl
    | some v => exact absurd (h (v + 1)) (by simp)
  | some u =>
    cases b with
    | none => exact absurd (h (u + 1)) (by simp)
    | some v => exact congrArg some (h 0)

/-- Applying a post-state again changes nothing. -/
theorem applyTo_applyTo (p : PostState) (regs : List UInt64) :
    p.applyTo (p.applyTo regs) = p.applyTo regs := by
  refine (applyTo_eq_of_getElem? (fun r => ?_) rfl).symm
  rw [p.getElem?_applyTo, Option.map_map]
  cases p.valueOf r <;> rfl

/-- Post-states have the same effect on every register file exactly if they give every register the
same value. -/
theorem forall_applyTo_eq_iff {p q : PostState} :
    (∀ regs, q.applyTo regs = p.applyTo regs) ↔ ∀ r, q.valueOf r = p.valueOf r := by
  refine ⟨fun same r => eq_of_getD_eq fun x => ?_, fun same regs => ?_⟩
  · -- a register file with every register in it shows the value
    have hslot : (List.replicate UInt16.size x)[r.toNat]? = some x :=
      List.getElem?_replicate_of_lt r.toNat_lt
    have hq := q.getElem?_applyTo (List.replicate UInt16.size x) r
    rw [same, p.getElem?_applyTo, hslot] at hq
    exact (Option.some.inj hq).symm
  · refine applyTo_eq_of_getElem? (fun r => ?_) (q.drop_applyTo regs)
    rw [q.getElem?_applyTo, same]

/-- Applying a post-state keeps the length of a register file and leaves in every slot the value of
its register, or what was there if the register is not written; slots past the last register are
left alone, and applying it again changes nothing. The effect is determined by the values of the
registers, and determines them. -/
theorem applyTo_agrees (p : PostState) :
    (∀ regs : List UInt64,
      (p.applyTo regs).length = regs.length ∧
      (∀ r : UInt16, (p.applyTo regs)[r.toNat]? = regs[r.toNat]?.map ((p.valueOf r).getD ·)) ∧
      (p.applyTo regs).drop UInt16.size = regs.drop UInt16.size ∧
      p.applyTo (p.applyTo regs) = p.applyTo regs) ∧
    ∀ q : PostState, (∀ regs, q.applyTo regs = p.applyTo regs) ↔ ∀ r, q.valueOf r = p.valueOf r :=
  ⟨fun regs => ⟨p.length_applyTo regs, p.getElem?_applyTo regs, p.drop_applyTo regs,
    p.applyTo_applyTo regs⟩, fun _ => forall_applyTo_eq_iff⟩

/-- A register that is written twice, and one outside the file. -/
example : applyTo ⟨[⟨1, 7⟩, ⟨9, 8⟩, ⟨1, 5⟩], 0⟩ [0, 0, 0, 3] = [0, 5, 0, 3] := by decide

end CallMemo.PostState
