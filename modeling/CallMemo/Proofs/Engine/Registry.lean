import CallMemo.Proofs.Engine.Demotion
import CallMemo.Proofs.Engine.Survey

/-!
# The registry

Whether a registration is accepted depends on the declaration itself and on the first accepted
declaration of the same site, and on nothing else that happened meanwhile. All handles of a site
name the same slots in the same order and show the same status, and the values that a handle
gathers have the width that its site asks for.
-/

namespace CallMemo

variable {η σ ε : Type}

/-- The slot repeats an earlier one, and no slot before it does. -/
def FirstRepeat (slots : List Slot) (slot : Slot) : Prop :=
  ∃ before after, slots = before ++ slot :: after ∧ before.Nodup ∧ slot ∈ before

/-- The search finds the first slot that repeats an earlier one. -/
theorem firstRepeat_iff {slots : List Slot} {slot : Slot} :
    FirstRepeat slots slot ↔ firstRepeated? [] slots = some slot := by
  simp [firstRepeated?_eq_some_iff, FirstRepeat]

/-- A slot repeats an earlier one unless all are different. -/
theorem exists_firstRepeat_iff {slots : List Slot} :
    (∃ slot, FirstRepeat slots slot) ↔ ¬ slots.Nodup := by
  have hnone : firstRepeated? [] slots = none ↔ slots.Nodup := by
    simp [firstRepeated?_eq_none_iff]
  rw [← hnone, ← ne_eq, Option.ne_none_iff_exists']
  exact exists_congr fun slot => firstRepeat_iff

/-- Slots with a repetition are not distinct. -/
theorem FirstRepeat.not_nodup {slots : List Slot} {slot : Slot} (h : FirstRepeat slots slot) :
    ¬ slots.Nodup :=
  exists_firstRepeat_iff.mp ⟨slot, h⟩

/-- A list of optional values is a list of values if each one is there. -/
theorem mapM_eq_some_iff {α β : Type} {f : α → Option β} {l : List α} {r : List β} :
    l.mapM f = some r ↔ l.map f = r.map some := by
  induction l generalizing r with
  | nil => cases r <;> simp
  | cons a rest ih =>
    cases r with
    | nil => simp [List.mapM_cons, Option.bind_eq_some_iff]
    | cons b r =>
      simp only [List.mapM_cons, Option.bind_eq_bind, Option.pure_def, Option.bind_eq_some_iff, ih,
        Option.some.injEq, List.map_cons, List.cons.injEq]
      constructor
      · rintro ⟨_, hb, _, hr, rfl, rfl⟩
        exact ⟨hb, hr⟩
      · rintro ⟨hb, hr⟩
        exact ⟨b, hb, r, hr, rfl, rfl⟩

theorem mapM_eq_none_iff {α β : Type} {f : α → Option β} {l : List α} :
    l.mapM f = none ↔ ∃ a ∈ l, f a = none := by
  induction l with
  | nil => simp
  | cons a rest ih =>
    cases ha : f a with
    | none => simp [List.mapM_cons, ha]
    | some b =>
      simp only [List.mem_cons, exists_eq_or_imp, ha, reduceCtorEq, false_or, ← ih,
        List.mapM_cons, Option.bind_eq_bind, Option.pure_def, Option.bind_some]
      cases rest.mapM f <;> simp

namespace ReadSet

variable {r : ReadSet} {state input : List UInt64}

/-- What gathering does for the slots of a read set. -/
structure Gathers (r : ReadSet) : Prop where
  /-- Nothing is gathered if a slot lies outside the state. -/
  none_iff : ∀ state, r.gather state = none ↔ ∃ slot ∈ r.slots, state.length ≤ slot.val.toNat
  /-- Otherwise there is a value for each slot. -/
  length_eq : ∀ state input, r.gather state = some input → input.length = r.width
  /-- The value of a slot stands where the slot is declared. -/
  getElem_eq : ∀ state input, r.gather state = some input → ∀ (i : Nat) slot,
    r.slots[i]? = some slot →
      ∃ value, input[i]? = some value ∧ state[slot.val.toNat]? = some value

/-- Every read set gathers so. -/
theorem gathers (r : ReadSet) : r.Gathers where
  none_iff state := by
    rw [gather, mapM_eq_none_iff]
    simp only [List.getElem?_eq_none_iff]
  length_eq state input h := by
    have heq := congrArg List.length (mapM_eq_some_iff.mp h)
    rw [List.length_map, List.length_map] at heq
    exact heq.symm
  getElem_eq state input h i slot hslot := by
    have heq := congrArg (·[i]?) (mapM_eq_some_iff.mp h)
    simp only [List.getElem?_map, hslot, Option.map_some] at heq
    obtain ⟨value, hvalue, hstate⟩ := Option.map_eq_some_iff.mp heq.symm
    exact ⟨value, hvalue, hstate.symm⟩

end ReadSet

namespace Engine

variable {e : Engine} {id : SiteId} {slots : List Slot}

/-- How a registration ends. -/
inductive Registering (e : Engine) (id : SiteId) (slots : List Slot) :
    Except ConfigurationError Registered → Prop
  /-- No slot is declared. -/
  | empty (nothing : slots = []) : Registering e id slots (.error (.emptyReadSet id))
  /-- A slot is declared again. -/
  | duplicate {slot} (repeats : FirstRepeat slots slot) :
      Registering e id slots (.error (.duplicateSlot id slot))
  /-- The site is there with other slots, or with the same ones in another order. -/
  | conflict {earlier} (proper : slots ≠ [] ∧ slots.Nodup) (present : e.readSet? id = some earlier)
      (differs : earlier.slots ≠ slots) : Registering e id slots (.error (.readSetConflict id))
  /-- The site is there with these slots. -/
  | again {site} (present : e.callSite? id = some site) (same : site.readSet.slots = slots) :
      Registering e id slots (.ok { engine := e, site })
  /-- The site is new. -/
  | first {readSet} (absent : e.readSet? id = none) (same : readSet.slots = slots) :
      Registering e id slots (.ok {
        engine := { e with sites := e.sites.insert id { readSet } }
        site := { readSet, id }
        events := [.registered id readSet.width] })

/-- There is no other way for a registration to end. -/
theorem register_registering (e : Engine) (id : SiteId) (slots : List Slot) :
    Registering e id slots (e.register id slots) := by
  unfold register ReadSet.declare
  by_cases hnil : slots = []
  · rw [dif_pos hnil]
    exact .empty hnil
  · rw [dif_neg hnil]
    split
    · next slot hslot => exact .duplicate (firstRepeat_iff.mpr hslot)
    · next hnone =>
      have hnodup := (firstRepeated?_eq_none_iff.mp hnone).1
      cases hreg : e.sites[id]? with
      | none => exact .first (by rw [readSet?, hreg, Option.map_none]) rfl
      | some r =>
        by_cases hsame : r.readSet = ⟨slots, hnil, hnodup⟩
        · simp only [bind, Except.bind, pure, Except.pure, hsame, if_true]
          exact .again (by rw [callSite?, hreg, Option.map_some]) (congrArg ReadSet.slots hsame)
        · simp only [bind, Except.bind, throw, throwThe, MonadExceptOf.throw, hsame, if_false]
          refine .conflict ⟨hnil, hnodup⟩ (readSet?_of_registered hreg) fun h => hsame ?_
          obtain ⟨⟨_, _, _⟩, _⟩ := r
          cases h
          rfl

/-- The law of registration for a site that has the slots `declared`. -/
structure Answers (e : Engine) (id : SiteId) (slots : List Slot) (declared : Option (List Slot)) :
    Prop where
  /-- A declaration without slots is refused. -/
  empty_iff : e.register id slots = .error (.emptyReadSet id) ↔ slots = []
  /-- A declaration is refused for the first slot that repeats an earlier one. -/
  duplicate_iff : ∀ slot, e.register id slots = .error (.duplicateSlot id slot) ↔
    FirstRepeat slots slot
  /-- A proper declaration is refused if the site has other slots or another order. -/
  conflict_iff : e.register id slots = .error (.readSetConflict id) ↔
    slots ≠ [] ∧ slots.Nodup ∧ ∃ earlier, declared = some earlier ∧ earlier ≠ slots
  /-- Every other declaration is accepted. -/
  accepted_iff : (∃ r, e.register id slots = .ok r) ↔
    slots ≠ [] ∧ slots.Nodup ∧ ∀ earlier, declared = some earlier → earlier = slots
  /-- The handle names the site and its slots. -/
  handle_eq : ∀ r, e.register id slots = .ok r →
    r.site.id = id ∧ r.site.readSet.slots = slots ∧ r.engine.callSite? id = some r.site
  /-- A refusal changes nothing. -/
  refused : ∀ err, e.register id slots = .error err → e.registered id slots = e

/-- Every registration follows the law for the slots that its site has. -/
theorem answers (e : Engine) (id : SiteId) (slots : List Slot) :
    Answers e id slots ((e.readSet? id).map (·.slots)) := by
  have none_repeats (hnodup : slots.Nodup) (slot : Slot) : ¬ FirstRepeat slots slot := fun h =>
    h.not_nodup hnodup
  have refused : ∀ err, e.register id slots = .error err → e.registered id slots = e := by
    intro err h
    rw [registered, h]
  have hr := register_registering e id slots
  generalize heq : e.register id slots = answer at hr
  cases hr with
  | empty nothing =>
    have hfirst := none_repeats (nothing ▸ List.nodup_nil)
    constructor <;> simp_all
  | @duplicate slot repeats =>
    have hfirst (other : Slot) : FirstRepeat slots other ↔ slot = other := by
      rw [firstRepeat_iff, firstRepeat_iff.mp repeats, Option.some.injEq]
    have hnodup := repeats.not_nodup
    have hnil : slots ≠ [] := by
      rintro rfl
      exact hnodup List.nodup_nil
    constructor <;> simp_all
  | conflict proper present differs =>
    have hfirst := none_repeats proper.2
    constructor <;> simp_all
  | @again site present same =>
    obtain ⟨rfl, hreg⟩ := registered_of_callSite? present
    have hdeclared := readSet?_of_registered hreg
    have hnil : slots ≠ [] := same ▸ site.readSet.slots_ne_nil
    have hnodup : slots.Nodup := same ▸ site.readSet.nodup_slots
    have hfirst := none_repeats hnodup
    constructor <;> simp_all
  | @first readSet absent same =>
    have hnil : slots ≠ [] := same ▸ readSet.slots_ne_nil
    have hnodup : slots.Nodup := same ▸ readSet.nodup_slots
    have hfirst := none_repeats hnodup
    constructor <;> simp_all [callSite?]

/-- An input of the right width is not refused for its width. -/
theorem dispatch_ne_contextWidth {site : CallSite} {input : List UInt64} {draw : UInt64}
    {handler : Handler σ ε} {world : σ} (width : input.length = site.readSet.width) (t : SiteId)
    (expected found : Nat) :
    (e.dispatch site input draw handler world).result ≠
      .error (.contextWidth t expected found) := by
  have hd := dispatch_dispatching e site input draw handler world
  generalize e.dispatch site input draw handler world = d at hd ⊢
  cases hd with
  | refused other => exact absurd width other
  | _ => simp

/-- The slots that an operation declares for a site, if the declaration is proper. -/
def Op.declares? (id : SiteId) : Op η σ ε → Option (List Slot)
  | .register t slots => if t = id ∧ slots ≠ [] ∧ slots.Nodup then some slots else none
  | _ => none

/-- The slots that a site declares first, by a proper declaration. -/
def firstDeclaration? (ops : List (Op η σ ε)) (id : SiteId) : Option (List Slot) :=
  ops.findSome? (Op.declares? id)

/-- A registration adds nothing but the first proper declaration of its site. -/
theorem slots_registered (e : Engine) (id t : SiteId) (slots : List Slot) :
    ((e.registered id slots).readSet? t).map (·.slots) =
      ((e.readSet? t).map (·.slots)).or
        (if id = t ∧ slots ≠ [] ∧ slots.Nodup then some slots else none) := by
  have hr := register_registering e id slots
  rw [registered]
  generalize e.register id slots = answer at hr
  cases hr with
  | empty nothing => simp [nothing]
  | duplicate repeats => simp [repeats.not_nodup]
  | @conflict earlier proper present differs =>
    by_cases hid : id = t
    · subst hid
      simp [present]
    · simp [hid]
  | @again site present same =>
    by_cases hid : id = t
    · subst hid
      simp [readSet?_of_registered (registered_of_callSite? present).2]
    · simp [hid]
  | @first readSet absent same =>
    have proper : slots ≠ [] ∧ slots.Nodup := same ▸ ⟨readSet.slots_ne_nil, readSet.nodup_slots⟩
    by_cases hid : id = t
    · subst hid
      rw [absent, if_pos ⟨rfl, proper⟩]
      simp [readSet?, same]
    · rw [if_neg fun h => hid h.1]
      simp [readSet?, Std.ExtTreeMap.getElem?_insert, hid]

/-- What a handle is good for in the engine `e`, after the dispatches `calls`. -/
structure Upholds (e : Engine) (calls : List (Call σ ε)) (handle : CallSite) : Prop where
  /-- The handle finds its site, with the slots that it names. -/
  found : ∃ site, e.callSite? handle.id = some site ∧ site.readSet = handle.readSet
  /-- It shows a demotion if one of the dispatches came upon a contradiction. -/
  status_iff : ∀ site, e.callSite? handle.id = some site → (site.isMemoizable = false ↔
    ∃ call ∈ calls, ∃ v, v.site = handle.id ∧ call.answer.violation = some v)
  /-- A handle that is obtained by registering the site again shows the same. -/
  shared : ∀ slots r, e.register handle.id slots = .ok r →
    r.engine = e ∧ e.callSite? handle.id = some r.site
  /-- It gathers the values of its slots. -/
  gathers : handle.readSet.Gathers
  /-- What it gathers has the width that a dispatch asks for. -/
  fits : ∀ state input, handle.readSet.gather state = some input →
    ∀ site, e.callSite? handle.id = some site →
      ∀ {σ ε : Type} (draw : UInt64) (handler : Handler σ ε) (world : σ) t expected found,
        (e.dispatch site input draw handler world).result ≠
          .error (.contextWidth t expected found)

end Engine

namespace Session

open Engine

variable {resolve : Resolver η} {s : Session σ}

/-- The handle that an operation returns, if it is a registration that is accepted. -/
def handle? (s : Session σ) : Op η σ ε → Option CallSite
  | .register id slots =>
    match s.engine.register id slots with
    | .ok r => some r.site
    | .error _ => none
  | _ => none

/-- Handles are given out by registrations that are accepted. -/
theorem mem_handle?_iff {op : Op η σ ε} {handle : CallSite} :
    handle ∈ s.handle? op ↔ ∃ id slots r, op = .register id slots ∧
      s.engine.register id slots = .ok r ∧ r.site = handle := by
  cases op with
  | register id slots =>
    cases hr : s.engine.register id slots with
    | error err => simp [handle?, hr]
    | ok r => simp [handle?, hr]
  | _ => simp [handle?]

/-- The handles that the registrations among the operations return, in order. -/
def handles (resolve : Resolver η) (s : Session σ) : List (Op η σ ε) → List CallSite
  | [] => []
  | op :: rest => (s.handle? op).toList ++ (s.step resolve op).handles resolve rest

/-- An operation adds no slots but those of a first proper declaration. -/
theorem slots_step (op : Op η σ ε) (id : SiteId) :
    ((s.step resolve op).engine.readSet? id).map (·.slots) =
      ((s.engine.readSet? id).map (·.slots)).or (op.declares? id) := by
  cases op with
  | register t slots => exact slots_registered s.engine t id slots
  | dispatch name input draw handler =>
    refine Eq.trans ?_ Option.or_none.symm
    cases hsite : resolve s.engine name with
    | none => simp [step, call?, hsite]
    | some site => simp [step, call?, hsite, readSet?_dispatch]
  | warmStart snapshot =>
    refine Eq.trans ?_ Option.or_none.symm
    rw [step, readSet?, warmStart, sites_loadAll, readSet?]
  | exportSnapshot | invalidate | clear => exact Option.or_none.symm

/-- The slots of a site are those that it had or else those that it declares first. -/
theorem slots_run (resolve : Resolver η) (s : Session σ) (ops : List (Op η σ ε)) (id : SiteId) :
    ((s.run resolve ops).engine.readSet? id).map (·.slots) =
      ((s.engine.readSet? id).map (·.slots)).or (firstDeclaration? ops id) := by
  induction ops generalizing s with
  | nil => exact Option.or_none.symm
  | cons op rest ih =>
    have hrest := ih (s.step resolve op)
    rw [slots_step, Option.or_assoc] at hrest
    refine hrest.trans (congrArg _ ?_)
    rw [firstDeclaration?, firstDeclaration?, List.findSome?_cons]
    cases op.declares? id with
    | none => rfl
    | some slots => rfl

/-- A site keeps its slots for good. -/
theorem readSetsKept_run (ops : List (Op η σ ε)) :
    ReadSetsKept s.engine (s.run resolve ops).engine := by
  intro t readSet h
  have hslots := slots_run resolve s ops t
  rw [h, Option.map_some, Option.some_or] at hslots
  obtain ⟨⟨slots, _, _⟩, hreadSet, rfl⟩ := Option.map_eq_some_iff.mp hslots
  exact hreadSet

/-- A handle names the slots that its site has from then on. -/
theorem readSet?_of_mem_handles {handle : CallSite} {ops : List (Op η σ ε)}
    (h : handle ∈ s.handles resolve ops) :
    (s.run resolve ops).engine.readSet? handle.id = some handle.readSet := by
  induction ops generalizing s with
  | nil => cases h
  | cons op rest ih =>
    rcases List.mem_append.mp h with hnow | hlater
    · refine readSetsKept_run rest _ _ ?_
      obtain ⟨id, slots, r, rfl, hr, rfl⟩ := mem_handle?_iff.mp (Option.mem_toList.mp hnow)
      obtain ⟨rfl, -, hsite⟩ := (answers s.engine id slots).handle_eq r hr
      rw [step, registered, hr]
      exact readSet?_of_registered (registered_of_callSite? hsite).2
    · exact ih hlater

/-- The demoted sites are those of the contradictions that dispatches came upon. -/
theorem demoted_run_iff {s : Session σ} (hs : WellFiled s.engine) (ops : List (Op SiteId σ ε))
    (t : SiteId) : (s.run .own ops).engine.Demoted t ↔ s.engine.Demoted t ∨
      ∃ call ∈ s.calls .own ops, ∃ v, v.site = t ∧ call.answer.violation = some v := by
  induction ops generalizing s with
  | nil => simp [run, calls]
  | cons op rest ih =>
    have hstep : (s.step .own op).engine.Demoted t ↔ s.engine.Demoted t ∨
        ∃ call ∈ s.call? .own op, ∃ v, v.site = t ∧ call.answer.violation = some v := by
      rw [demoted_step_iff hs]
      simp only [contradicts_iff hs]
      grind
    rw [run, List.foldl_cons, ← run, ih (wellFiled_step hs op), hstep, calls, or_assoc]
    simp [or_and_right, exists_or]

/-- No site of a new engine is demoted. -/
theorem not_demoted_fresh (config : Config) (codec : Codec) (policy : EvictionPolicy) (t : SiteId) :
    ¬ (fresh config codec policy).Demoted t := by
  rintro ⟨r, hr, -⟩
  simp [fresh, withPolicy, withCodec, ofConfig] at hr

/-- All handles of a site are as good as the last one. -/
theorem upholds_of_mem_handles {s : Session σ} (hs : WellFiled s.engine)
    (none_demoted : ∀ t, ¬ s.engine.Demoted t) {ops : List (Op SiteId σ ε)} {handle : CallSite}
    (h : handle ∈ s.handles .own ops) :
    Upholds (s.run .own ops).engine (s.calls .own ops) handle := by
  obtain ⟨registration, hreg, hreadSet⟩ := Option.map_eq_some_iff.mp (readSet?_of_mem_handles h)
  have slots_eq {site : CallSite}
      (hsite : (s.run .own ops).engine.callSite? handle.id = some site) :
      site.readSet = handle.readSet := by
    obtain ⟨-, hsite⟩ := registered_of_callSite? hsite
    rw [← hreadSet, Option.some.inj (hreg.symm.trans hsite)]
  exact {
    found := ⟨{ registration with id := handle.id }, by rw [callSite?, hreg, Option.map_some],
      hreadSet⟩
    status_iff := by
      intro site hsite
      obtain ⟨-, hsite⟩ := registered_of_callSite? hsite
      have hdemoted := demoted_run_iff hs ops handle.id
      rw [or_iff_right (none_demoted _)] at hdemoted
      rw [← hdemoted]
      constructor
      · intro hstatus
        exact ⟨_, hsite, hstatus⟩
      · rintro ⟨r, hr, hstatus⟩
        obtain rfl := Option.some.inj (hsite.symm.trans hr)
        exact hstatus
    shared := fun slots r hr => register_of_registered hreg hr
    gathers := handle.readSet.gathers
    fits := by
      intro state input hinput site hsite _ _ draw handler world t expected found
      refine dispatch_ne_contextWidth ?_ t expected found
      rw [handle.readSet.gathers.length_eq state input hinput, slots_eq hsite] }

/-- In every session, whatever the settings, codec, policy, handlers and samples are, and whatever
else happens between the registrations: the answer to a registration depends on the declaration
itself and on the first proper declaration of its site, and a refusal changes nothing. A site keeps
its slots for good. All handles of a site find it, show the same status, and gather values that a
dispatch accepts. In whatever order the registry is walked, the sites are listed in ascending order,
one for each identity with a proper declaration. -/
theorem registry_of_declarations (config : Config) (codec : Codec) (policy : EvictionPolicy)
    (world : σ) (ops : List (Op SiteId σ ε)) :
    let start : Session σ := ⟨fresh config codec policy, world⟩
    let s := start.run .own ops
    (∀ id slots, Answers s.engine id slots (firstDeclaration? ops id)) ∧
    (∀ later : List (Op SiteId σ ε), ReadSetsKept s.engine (s.run .own later).engine) ∧
    (∀ handle ∈ start.handles .own ops, Upholds s.engine (start.calls .own ops) handle) ∧
    (∀ o : Survey s.engine, o.callSites = s.engine.callSites) ∧
    s.engine.callSites.Pairwise (fun a b => a.id.val < b.id.val) ∧
    (∀ id slots, (∃ site ∈ s.engine.callSites, site.id = id ∧ site.readSet.slots = slots) ↔
      firstDeclaration? ops id = some slots) := by
  intro start s
  have hslots : ∀ id, (s.engine.readSet? id).map (·.slots) = firstDeclaration? ops id := by
    intro id
    have hrun := slots_run .own start ops id
    rwa [show start.engine.readSet? id = none by
      simp [start, readSet?, fresh, withPolicy, withCodec, ofConfig], Option.map_none,
      Option.none_or] at hrun
  have hhandles : ∀ handle ∈ start.handles .own ops,
      Upholds s.engine (start.calls .own ops) handle := by
    intro handle h
    apply upholds_of_mem_handles _ _ h
    · exact wellFiled_fresh config codec policy
    · exact not_demoted_fresh config codec policy
  refine ⟨fun id slots => hslots id ▸ answers s.engine id slots,
    fun later => readSetsKept_run later, hhandles, Survey.callSites_eq, pairwise_callSites s.engine,
    ?_⟩
  intro id slots
  rw [← hslots id, Option.map_eq_some_iff]
  constructor
  · rintro ⟨site, hsite, rfl, rfl⟩
    obtain ⟨-, hreg⟩ := registered_of_callSite? (mem_callSites_iff.mp hsite)
    exact ⟨site.readSet, readSet?_of_registered hreg, rfl⟩
  · rintro ⟨readSet, hreadSet, rfl⟩
    obtain ⟨registration, hreg, rfl⟩ := Option.map_eq_some_iff.mp hreadSet
    exact ⟨{ registration with id }, mem_callSites_iff.mpr (by rw [callSite?, hreg]; rfl), rfl, rfl⟩

end Session

end CallMemo
