import CallMemo.Proofs.Json.Filling
import CallMemo.Snapshot.File

/-!
# Snapshot files of any layout

The texts in which the members of writes, entries and snapshots stand in any order, with blanks
wherever they may be and with further members that are not known. Each record takes the members of
its objects for steps in which they are put into its draft.
-/

namespace CallMemo

open Json (ArrayText Blanks Ends Fault Filling JsonText NaturalText ObjectText Part Reads)

theorem Json.required_eq_ok_iff {α : Type} {name : String} {o : Option α} {a : α} :
    required name o = .ok a ↔ o = some a := by
  cases o <;> simp [required]

namespace RegWrite

/-- The known members of a write. -/
inductive Key where
  | reg
  | value
  deriving DecidableEq, Repr

/-- The name of a member. -/
def Key.name : Key → String
  | reg => "reg"
  | value => "val"

/-- A member of a write with its value; of a further member nothing is kept. -/
inductive Field where
  | reg (v : UInt16)
  | value (v : UInt64)
  | other
  deriving DecidableEq, Repr

/-- The known member that is given. -/
def Field.key? : Field → Option Key
  | reg _ => some .reg
  | value _ => some .value
  | other => none

/-- The text of the value of a member with the given name. -/
inductive Field.ValueText : List Char → List Char → Field → Prop
  | reg {t v} (number : NaturalText t v.toNat) : ValueText "reg".toList t (.reg v)
  | value {t v} (number : NaturalText t v.toNat) : ValueText "val".toList t (.value v)
  | other {name t} (unknown : ∀ key : Key, name ≠ key.name.toList) (any : JsonText .value t) :
      ValueText name t .other

/-- What a draft holds of a member. -/
def Draft.held (d : Draft) : Key → Option Field
  | .reg => d.reg.map .reg
  | .value => d.value.map .value

/-- The draft with a member put in. -/
def Draft.put (d : Draft) : Field → Draft
  | .reg v => { d with reg := some v }
  | .value v => { d with value := some v }
  | .other => d

/-- How the draft of a write is filled. -/
def filling : Filling Draft Field Key where
  key? := Field.key?
  name := Key.name
  held := Draft.held
  put := Draft.put
  held_put d b k := by cases b <;> cases k <;> rfl
  put_of_key?_eq_none d b h := by
    cases b with
    | other => rfl
    | reg v => cases h
    | value v => cases h

/-- The members give both parts of a write, and each one once. -/
structure Given (fields : List Field) (w : RegWrite) : Prop where
  distinct : (fields.filterMap Field.key?).Nodup
  reg : .reg w.reg ∈ fields
  value : .value w.value ∈ fields

/-- The text of an object that gives a write. -/
inductive ObjectOf : List Char → RegWrite → Prop
  | mk {t fields w} (object : ObjectText Field.ValueText t fields) (given : Given fields w) :
      ObjectOf t w

/-- The record takes a member for a step. -/
theorem takes_valueText : record.Takes Field.ValueText filling.step := by
  intro name t b hvalue d v w s gap blank ends
  cases hvalue with
  | @reg _ v number =>
    have hread := (Json.Reader.reads_uint16_text number).map fun v => { d with reg := some v }
    exact Filling.readMember_eq_step (f := filling) (k := .reg) rfl rfl rfl
      Option.isSome_map.symm hread gap blank ends
  | @value _ v number =>
    have hread := (Json.Reader.reads_uint64_text number).map fun v => { d with value := some v }
    exact Filling.readMember_eq_step (f := filling) (k := .value) rfl rfl rfl
      Option.isSome_map.symm hread gap blank ends
  | other unknown any =>
    refine Filling.readMember_eq_step_of_unknown (f := filling) ?_ rfl any gap blank ends
    intro m hm
    simp only [record, List.mem_cons, List.not_mem_nil, or_false] at hm
    rcases hm with rfl | rfl
    · exact unknown .reg
    · exact unknown .value

theorem empty_blank : filling.Empty record.blank := fun k => by cases k <;> rfl

/-- A write is read from any object that gives it. -/
theorem reads_objectOf {t : List Char} {w : RegWrite} (h : ObjectOf t w) :
    Reads record.read t w := by
  cases h with
  | @mk fields w object given =>
    have hreg : filling.held (fields.foldl filling.put record.blank) .reg = some (.reg w.reg) :=
      Filling.held_foldl_of_mem given.distinct given.reg rfl
    have hvalue : filling.held (fields.foldl filling.put record.blank) .value =
        some (.value w.value) :=
      Filling.held_foldl_of_mem given.distinct given.value rfl
    have hgives := Json.Record.gives_object takes_valueText object
    rw [(Filling.foldlM_step_eq_ok_iff empty_blank).mpr ⟨given.distinct, rfl⟩] at hgives
    generalize fields.foldl filling.put record.blank = d at hreg hvalue hgives
    have hcomplete : record.complete d = .ok w := by
      obtain ⟨v, hv, ⟨⟩⟩ := Option.map_eq_some_iff.mp hreg
      obtain ⟨u, hu, ⟨⟩⟩ := Option.map_eq_some_iff.mp hvalue
      simp only [record, hv, hu]
      rfl
    exact (hcomplete ▸ hgives : Json.Gives record.read t (.ok w)).reads

end RegWrite

namespace SnapshotEntry

/-- The known members of an entry. -/
inductive Key where
  | site
  | ctxHash
  | inputs
  | writes
  | nextPc
  | hits
  deriving DecidableEq, Repr

/-- The name of a member. -/
def Key.name : Key → String
  | site => "site"
  | ctxHash => "ctx_hash"
  | inputs => "inputs"
  | writes => "writes"
  | nextPc => "next_pc"
  | hits => "hits"

/-- The members that an entry cannot do without, in declared order. -/
def Key.required : List Key := [site, ctxHash, inputs, writes, nextPc]

/-- A member of an entry with its value; of a further member nothing is kept. -/
inductive Field where
  | site (v : UInt64)
  | ctxHash (v : UInt64)
  | inputs (vs : List UInt64)
  | writes (ws : List RegWrite)
  | nextPc (v : UInt64)
  | hits (v : UInt64)
  | other
  deriving DecidableEq, Repr

/-- The known member that is given. -/
def Field.key? : Field → Option Key
  | site _ => some .site
  | ctxHash _ => some .ctxHash
  | inputs _ => some .inputs
  | writes _ => some .writes
  | nextPc _ => some .nextPc
  | hits _ => some .hits
  | other => none

/-- The text of the value of a member with the given name. -/
inductive Field.ValueText : List Char → List Char → Field → Prop
  | site {t v} (number : NaturalText t v.toNat) : ValueText "site".toList t (.site v)
  | ctxHash {t v} (number : NaturalText t v.toNat) : ValueText "ctx_hash".toList t (.ctxHash v)
  | inputs {t vs} (array : ArrayText (fun t (v : UInt64) => NaturalText t v.toNat) t vs) :
      ValueText "inputs".toList t (.inputs vs)
  | writes {t ws} (array : ArrayText RegWrite.ObjectOf t ws) :
      ValueText "writes".toList t (.writes ws)
  | nextPc {t v} (number : NaturalText t v.toNat) : ValueText "next_pc".toList t (.nextPc v)
  | hits {t v} (number : NaturalText t v.toNat) : ValueText "hits".toList t (.hits v)
  | other {name t} (unknown : ∀ key : Key, name ≠ key.name.toList) (any : JsonText .value t) :
      ValueText name t .other

/-- What a draft holds of a member. -/
def Draft.held (d : Draft) : Key → Option Field
  | .site => d.site.map .site
  | .ctxHash => d.ctxHash.map .ctxHash
  | .inputs => d.inputs.map .inputs
  | .writes => d.writes.map .writes
  | .nextPc => d.nextPc.map .nextPc
  | .hits => d.hits.map .hits

/-- The draft with a member put in. -/
def Draft.put (d : Draft) : Field → Draft
  | .site v => { d with site := some v }
  | .ctxHash v => { d with ctxHash := some v }
  | .inputs vs => { d with inputs := some vs }
  | .writes ws => { d with writes := some ws }
  | .nextPc v => { d with nextPc := some v }
  | .hits v => { d with hits := some v }
  | .other => d

/-- How the draft of an entry is filled. -/
def filling : Filling Draft Field Key where
  key? := Field.key?
  name := Key.name
  held := Draft.held
  put := Draft.put
  held_put d b k := by cases b <;> cases k <;> rfl
  put_of_key?_eq_none d b h := by
    cases b with
    | other => rfl
    | _ => cases h

/-- The record takes a member for a step. -/
theorem takes_valueText : record.Takes Field.ValueText filling.step := by
  intro name t b hvalue d v w s gap blank ends
  have known {k : Key} {m : Json.Member Draft} {b : Field} {t : List Char}
      (found : record.members.find? (·.name.toList = k.name.toList) = some m)
      (hname : m.name = k.name) (hkey : b.key? = some k)
      (hgiven : m.isGiven d = (d.held k).isSome) (value : Reads (m.read d) t (d.put b)) :
      record.readMember k.name.toList d (v ++ ':' :: (w ++ (t ++ s))) =
        (filling.step d b).map (·, s) :=
    Filling.readMember_eq_step (f := filling) found hkey hname hgiven value gap blank ends
  have word {t : List Char} {v : UInt64} (number : NaturalText t v.toNat) (f : UInt64 → Field) :=
    (Json.Reader.reads_uint64_text number).map fun v => d.put (f v)
  cases hvalue with
  | site number =>
    exact known (k := .site) rfl rfl rfl Option.isSome_map.symm (word number .site)
  | ctxHash number =>
    exact known (k := .ctxHash) rfl rfl rfl Option.isSome_map.symm (word number .ctxHash)
  | inputs array =>
    have hread := (Json.Reader.reads_arrayText (fun _ _ => Json.Reader.reads_uint64_text) array).map
      fun vs => d.put (.inputs vs)
    exact known (k := .inputs) rfl rfl rfl Option.isSome_map.symm hread
  | writes array =>
    have hread := (Json.Reader.reads_arrayText (fun _ _ => RegWrite.reads_objectOf) array).map
      fun ws => d.put (.writes ws)
    exact known (k := .writes) rfl rfl rfl Option.isSome_map.symm hread
  | nextPc number =>
    exact known (k := .nextPc) rfl rfl rfl Option.isSome_map.symm (word number .nextPc)
  | hits number =>
    exact known (k := .hits) rfl rfl rfl Option.isSome_map.symm (word number .hits)
  | other unknown any =>
    refine Filling.readMember_eq_step_of_unknown (f := filling) ?_ rfl any gap blank ends
    intro m hm
    simp only [record, List.mem_cons, List.not_mem_nil, or_false] at hm
    rcases hm with rfl | rfl | rfl | rfl | rfl | rfl
    · exact unknown .site
    · exact unknown .ctxHash
    · exact unknown .inputs
    · exact unknown .writes
    · exact unknown .nextPc
    · exact unknown .hits

theorem empty_blank : filling.Empty record.blank := fun k => by cases k <;> rfl

/-- What the reader makes of the members of an entry. -/
def outcome (fields : List Field) : Except Fault SnapshotEntry :=
  fields.foldlM filling.step record.blank >>= record.complete

/-- An entry is read by its members. -/
theorem gives_objectText {t : List Char} {fields : List Field}
    (h : ObjectText Field.ValueText t fields) : Json.Gives record.read t (outcome fields) :=
  Json.Record.gives_object takes_valueText h

end SnapshotEntry

namespace Snapshot

/-- A member of a snapshot; of a further member nothing is kept. -/
inductive Field where
  | entries (es : List (List SnapshotEntry.Field))
  | other
  deriving DecidableEq, Repr

/-- The members of the entries, where they are given. -/
def Field.entries? : Field → Option (List (List SnapshotEntry.Field))
  | entries es => some es
  | other => none

/-- The text of the value of a member with the given name. -/
inductive Field.ValueText : List Char → List Char → Field → Prop
  | entries {t es} (array : ArrayText (ObjectText SnapshotEntry.Field.ValueText) t es) :
      ValueText "entries".toList t (.entries es)
  | other {name t} (unknown : name ≠ "entries".toList) (any : JsonText .value t) :
      ValueText name t .other

/-- A snapshot file with one member that holds entries, told by the members of each of them. -/
inductive FileText : String → List (List SnapshotEntry.Field) → Prop
  | mk {text w t v fields es} (layout : text.toList = w ++ (t ++ v)) (before : Blanks w)
      (object : ObjectText Field.ValueText t fields)
      (single : fields.filterMap Field.entries? = [es]) (after : Blanks v) : FileText text es

/-- Puts a member into the draft of a snapshot. -/
def step (d : Option (List SnapshotEntry)) : Field → Except Fault (Option (List SnapshotEntry))
  | .entries es =>
    if d.isSome then .error (.repeated "entries") else some <$> es.mapM SnapshotEntry.outcome
  | .other => .ok d

/-- The record takes a member for a step. -/
theorem takes_valueText : record.Takes Field.ValueText step := by
  intro name t b hvalue d v w s gap blank ends
  cases hvalue with
  | @entries _ es array =>
    have hgives := (Json.Reader.gives_list (fun t fields (ht : ObjectText _ t fields) =>
      SnapshotEntry.gives_objectText ht) array).map some
    have hfound : record.members.find? (·.name.toList = "entries".toList) =
        some ⟨"entries", Option.isSome,
          fun _ => some <$> Json.Reader.list SnapshotEntry.record.read⟩ :=
      rfl
    exact Json.Record.readMember_known hfound gap blank hgives ends
  | other unknown any =>
    refine Json.Record.readMember_unknown (fun m hm => ?_) gap blank any ends
    simp only [record, List.mem_cons, List.not_mem_nil, or_false] at hm
    rw [hm]
    exact unknown

/-- Members that are not known leave the draft as it is. -/
theorem foldlM_step_other {d : Option (List SnapshotEntry)} {fields : List Field}
    (h : fields.filterMap Field.entries? = []) : fields.foldlM step d = .ok d := by
  induction fields with
  | nil => rfl
  | cons b fields ih =>
    cases b with
    | entries es => cases h
    | other => exact ih h

/-- Only the entries matter. -/
theorem foldlM_step_single {fields : List Field} {es : List (List SnapshotEntry.Field)}
    (h : fields.filterMap Field.entries? = [es]) :
    fields.foldlM step none = some <$> es.mapM SnapshotEntry.outcome := by
  induction fields with
  | nil => cases h
  | cons b fields ih =>
    cases b with
    | other => exact ih h
    | entries es' =>
      obtain ⟨rfl, hother⟩ := List.cons.inj h
      rw [List.foldlM_cons]
      change ((some <$> es'.mapM SnapshotEntry.outcome) >>= fun d => fields.foldlM step d) = _
      cases es'.mapM SnapshotEntry.outcome with
      | error e => rfl
      | ok s => exact foldlM_step_other hother

/-- The text is read as its entries, each of which has an outcome of its own. -/
theorem ofText_fileText {text : String} {es : List (List SnapshotEntry.Field)}
    (h : FileText text es) : ofText text = mk <$> es.mapM SnapshotEntry.outcome := by
  cases h with
  | @mk w t v fields es layout before object single after =>
    have hread := (Json.Record.gives_object takes_valueText object).eq_map w v before
      (Json.ends_of_blanks after)
    have hblank : v.all Json.isBlank = true := List.all_eq_true.mpr after
    have houtcome : (fields.foldlM step record.blank >>= record.complete) =
        mk <$> es.mapM SnapshotEntry.outcome := by
      change (fields.foldlM step none >>= record.complete) = _
      rw [foldlM_step_single single]
      cases es.mapM SnapshotEntry.outcome <;> rfl
    rw [houtcome] at hread
    rw [ofText, Json.readText, layout, hread]
    cases es.mapM SnapshotEntry.outcome with
    | error e => rfl
    | ok s =>
      change (if v.all Json.isBlank = true then Except.ok (mk s) else _) = _
      rw [if_pos hblank]
      rfl

end Snapshot

end CallMemo
