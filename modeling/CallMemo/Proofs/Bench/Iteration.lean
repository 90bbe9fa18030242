import CallMemo.Bench.Worker
import CallMemo.Proofs.Engine.Registry
import CallMemo.Proofs.Engine.Restoring
import CallMemo.Proofs.PostState.Application

/-!
# Iterations

Every iteration of a worker is one dispatch through the handle of the routine whose turn it is, with
the argument of the iteration as its only input value. The register file of a worker is used for
nothing but that.
-/

namespace CallMemo.Bench

variable {impure : Bool} {i n : Nat} {s : Shared} {w : Worker}

/-- The slots that every routine reads. -/
def operand : ReadSet := ⟨[accumulator], by simp, by simp⟩

/-- The result of a routine. -/
def Routine.post (r : Routine) (x drift : UInt64) : PostState where
  writes := [{ reg := accumulator.val, value := r.value x drift }]
  nextPc := r.nextPc

theorem Routine.run_singleton (r : Routine) (x drift : UInt64) :
    r.run [x] drift = (.ok (r.post x drift), r.nextDrift drift) := rfl

/-- The routine that is called in an iteration. -/
def turn (impure : Bool) (i : Nat) : Routine :=
  if impure then if i % 3 = 0 then .addSeven else if i % 3 = 1 then .twiddle else .drifting
  else if i % 2 = 0 then .addSeven else .twiddle

/-- The table holds the routine whose turn it is. -/
theorem getElem?_table (impure : Bool) (i : Nat) :
    (Routine.table impure)[i % (Routine.table impure).length]? = some (turn impure i) := by
  cases impure with
  | true =>
    have hi : i % 3 = 0 ∨ i % 3 = 1 ∨ i % 3 = 2 := by omega
    rcases hi with hi | hi | hi <;> simp [Routine.table, turn, hi]
  | false =>
    have hi : i % 2 = 0 ∨ i % 2 = 1 := by omega
    rcases hi with hi | hi <;> simp [Routine.table, turn, hi]

theorem turn_mem_table (impure : Bool) (i : Nat) : turn impure i ∈ Routine.table impure :=
  List.mem_of_getElem? (getElem?_table impure i)

/-- None of the routines is registered with other slots. -/
def Compatible (l : List Routine) (e : Engine) : Prop :=
  ∀ r ∈ l, ∀ readSet, e.readSet? r.site = some readSet → readSet = operand

/-- A read set is told by its slots. -/
theorem readSet_eq_operand {readSet : ReadSet} (h : readSet.slots = [accumulator]) :
    readSet = operand := by
  obtain ⟨slots, _, _⟩ := readSet
  cases h
  rfl

/-- After its registration a routine has its slots, and the others have those they had. -/
theorem readSet?_registered {e : Engine} {r : Routine} (h : Compatible [r] e) (t : SiteId) :
    (e.registered r.site [accumulator]).readSet? t =
      if r.site = t then some operand else e.readSet? t := by
  have hslots := e.slots_registered r.site t [accumulator]
  by_cases ht : r.site = t
  · subst ht
    rw [if_pos ⟨rfl, by simp, by simp⟩] at hslots
    rw [if_pos rfl]
    cases hreadSet : e.readSet? r.site with
    | none =>
      rw [hreadSet, Option.map_none, Option.none_or] at hslots
      obtain ⟨readSet, heq, hreadSet⟩ := Option.map_eq_some_iff.mp hslots
      rw [heq, readSet_eq_operand hreadSet]
    | some readSet =>
      obtain rfl := h r List.mem_cons_self readSet hreadSet
      exact e.readSetsKept_registered r.site [accumulator] r.site operand hreadSet
  · rw [if_neg ht]
    rcases e.registered_cases r.site [accumulator] with heq | ⟨-, readSet, heq⟩
    · rw [heq]
    · rw [heq]
      simp [Engine.readSet?, Std.ExtTreeMap.getElem?_insert, ht]

/-- The declarations of routines. -/
def declarations (l : List Routine) : List (SiteId × List Slot) :=
  l.map fun r => (r.site, [accumulator])

theorem declared_cons (e : Engine) (r : Routine) (l : List Routine) :
    e.declared (declarations (r :: l)) =
      (e.registered r.site [accumulator]).declared (declarations l) := rfl

/-- Declarations leave the slots of the sites that are there alone. -/
theorem readSetsKept_declared (e : Engine) (sites : List (SiteId × List Slot)) :
    e.ReadSetsKept (e.declared sites) := by
  induction sites generalizing e with
  | nil => exact fun _ _ h => h
  | cons d rest ih =>
    exact fun t readSet h => ih _ t readSet (e.readSetsKept_registered d.1 d.2 t readSet h)

/-- Compatible routines are accepted, and have their slots afterwards. -/
theorem register_of_compatible (s : Shared) (l : List Routine) (h : Compatible l s.engine) :
    ∃ s', s.register l = .ok s' ∧ s'.drift = s.drift ∧ s'.calls = s.calls ∧
      s'.engine = s.engine.declared (declarations l) ∧
      ∀ r ∈ l, s'.engine.readSet? r.site = some operand := by
  induction l generalizing s with
  | nil => exact ⟨s, rfl, rfl, rfl, rfl, by simp⟩
  | cons r rest ih =>
    have hr : Compatible [r] s.engine := by
      intro r' hr'
      obtain rfl := List.mem_singleton.mp hr'
      exact h r' List.mem_cons_self
    obtain ⟨registered, hok⟩ := (s.engine.answers r.site [accumulator]).accepted_iff.mpr
      ⟨by simp, by simp, by
        intro earlier hearlier
        obtain ⟨readSet, hreadSet, rfl⟩ := Option.map_eq_some_iff.mp hearlier
        rw [hr r List.mem_cons_self readSet hreadSet]
        rfl⟩
    have hengine : s.engine.registered r.site [accumulator] = registered.engine := by
      rw [Engine.registered, hok]
    have hnow := readSet?_registered hr
    rw [hengine] at hnow
    have hrest : Compatible rest registered.engine := by
      intro r' hr' readSet hreadSet
      rw [hnow] at hreadSet
      split at hreadSet
      · exact (Option.some.inj hreadSet).symm
      · exact h r' (List.mem_cons_of_mem _ hr') readSet hreadSet
    obtain ⟨s', hs', hdrift, hcalls, hdeclared, hready⟩ :=
      ih ({ s with engine := registered.engine }.note registered.events) hrest
    rw [Shared.register, hok, declared_cons, hengine]
    refine ⟨s', hs', hdrift, hcalls, hdeclared, ?_⟩
    intro r' hr'
    rcases List.mem_cons.mp hr' with rfl | hr'
    · rw [hdeclared]
      exact readSetsKept_declared registered.engine _ _ _ (by rw [hnow, if_pos rfl])
    · exact hready r' hr'

/-- The routines of a table are registered. -/
def Ready (impure : Bool) (e : Engine) : Prop :=
  ∀ r ∈ Routine.table impure, e.readSet? r.site = some operand

/-- The handle of the routine whose turn it is. -/
theorem Ready.exists_callSite {e : Engine} (h : Ready impure e) (i : Nat) :
    ∃ site, e.callSite? (turn impure i).site = some site ∧ site.readSet = operand := by
  obtain ⟨r, hr, hreadSet⟩ := Option.map_eq_some_iff.mp (h _ (turn_mem_table impure i))
  exact ⟨{ r with id := (turn impure i).site }, by rw [Engine.callSite?, hr, Option.map_some],
    hreadSet⟩

/-- What was put into the register of the argument is gathered. -/
theorem gather_operand {x : UInt64} {regs : List UInt64}
    (hlen : accumulator.val.toNat < regs.length) :
    operand.gather (regs.set accumulator.val.toNat x) = some [x] := by
  rw [ReadSet.gather, mapM_eq_some_iff]
  simp [operand, hlen]

/-- The dispatch of an iteration through the handle `site`. -/
def dispatch (impure : Bool) (draw : UInt64) (i : Nat) (site : CallSite) (e : Engine)
    (drift : UInt64) : Engine.Dispatched UInt64 Empty :=
  e.dispatch site [argument i] draw (turn impure i).run drift

/-- What an iteration comes to. -/
structure Iterates (impure : Bool) (draw : UInt64) (i : Nat) (s : Shared) (w : Worker)
    (site : CallSite) (s' : Shared) (w' : Worker) : Prop where
  /-- The handle is that of the routine whose turn it is. -/
  handle : s.engine.callSite? (turn impure i).site = some site
  /-- Its slots are those of a routine. -/
  readSet_eq : site.readSet = operand
  /-- The engine goes on by the dispatch. -/
  engine_eq : s'.engine = (dispatch impure draw i site s.engine s.drift).engine
  /-- So does the state of the routines. -/
  drift_eq : s'.drift = (dispatch impure draw i site s.engine s.drift).world
  /-- The register file keeps its length. -/
  length_eq : w'.registers.length = w.registers.length
  /-- The result is added to the sum. -/
  sum_eq : ∀ drift, (dispatch impure draw i site s.engine s.drift).result =
      .ok ((turn impure i).post (argument i) drift) →
    w'.sum = w.sum + (turn impure i).value (argument i) drift

/-- While the routines are registered an iteration is one dispatch. -/
theorem iterate_iterates (hready : Ready impure s.engine) (hlen : w.registers.length = 32)
    (draw : Nat → UInt64) (i : Nat) :
    ∃ site, Iterates impure (draw s.calls) i s w site
      (iterate draw (Routine.table impure) i s w).1
      (iterate draw (Routine.table impure) i s w).2 := by
  obtain ⟨site, hsite, hreadSet⟩ := hready.exists_callSite i
  have hacc : accumulator.val.toNat < w.registers.length := by
    rw [hlen]
    decide
  have hgather : site.readSet.gather (w.registers.set accumulator.val.toNat (argument i)) =
      some [argument i] := by
    rw [hreadSet, gather_operand hacc]
  have heq : iterate draw (Routine.table impure) i s w = call draw site (turn impure i) s
      { w with registers := w.registers.set accumulator.val.toNat (argument i) } := by
    rw [iterate, getElem?_table]
    simp only [hsite]
  rw [heq, call]
  simp only [hgather, Option.getD_some]
  rw [← dispatch]
  cases hresult : (dispatch impure (draw s.calls) i site s.engine s.drift).result with
  | error err =>
    refine ⟨site, hsite, hreadSet, rfl, rfl, List.length_set .., fun drift h => ?_⟩
    cases hresult.symm.trans h
  | ok post =>
    refine ⟨site, hsite, hreadSet, rfl, rfl, ?_, fun drift h => ?_⟩
    · rw [PostState.length_applyTo, List.length_set]
    · cases hresult.symm.trans h
      have hwrite : (((turn impure i).post (argument i) drift).applyTo
          (w.registers.set accumulator.val.toNat (argument i))).getD accumulator.val.toNat 0 =
            (turn impure i).value (argument i) drift := by
        simp [PostState.applyTo, Routine.post, hacc]
      exact congrArg (w.sum + ·) hwrite

/-- What holds of a fresh worker and is kept by every iteration holds after a whole run. -/
theorem runWorker_induction {draw : Nat → UInt64} {table : List Routine}
    (P : Nat → Shared → Worker → Prop) (start : P 0 s {})
    (step : ∀ i s w, i < n → P i s w →
      P (i + 1) (iterate draw table i s w).1 (iterate draw table i s w).2) :
    P n (runWorker draw table n s).1 (runWorker draw table n s).2 := by
  induction n with
  | zero => exact start
  | succ n ih =>
    rw [runWorker, Nat.fold_succ]
    exact step n _ _ (Nat.lt_succ_self n) (ih fun i s w hi => step i s w (by omega))

end CallMemo.Bench
