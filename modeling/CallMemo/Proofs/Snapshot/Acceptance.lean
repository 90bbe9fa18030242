import Mathlib.Data.List.Nodup
import CallMemo.Proofs.Snapshot.Fields

/-!
# Which snapshot files are accepted

A snapshot file is accepted if each entry gives every required member exactly once and its hits at
most once, in any order and among any further members. The first entry that does not is the fault:
where a member is given again, the first one that is, and otherwise the first required member in
declared order that is not given.
-/

namespace CallMemo

open Json (Fault Filling)

namespace SnapshotEntry

variable {fields fields' : List Field} {d : Draft} {e : SnapshotEntry} {fault : Fault}

/-- The known members in the order in which they are given. -/
def keys (fields : List Field) : List Key := fields.filterMap Field.key?

/-- Every required member is given exactly once, and the hits at most once. -/
structure Complete (fields : List Field) : Prop where
  required : ∀ key ∈ Key.required, (keys fields).count key = 1
  hits : (keys fields).count .hits ≤ 1

/-- The entry has the values that are given; hits that are not given are zero. -/
structure Yields (fields : List Field) (e : SnapshotEntry) : Prop where
  site : .site e.site.val ∈ fields
  ctxHash : .ctxHash e.ctxHash ∈ fields
  inputs : .inputs e.inputs ∈ fields
  writes : .writes e.writes ∈ fields
  nextPc : .nextPc e.nextPc ∈ fields
  hits : .hits e.hits ∈ fields ∨ .hits ∉ keys fields ∧ e.hits = 0

/-- The fault of an entry: the first member that is given again, or else the first required one in
declared order that is not given. -/
inductive Faulty (fields : List Field) : Fault → Prop
  | repeated {before key after} (split : keys fields = before ++ key :: after)
      (distinct : before.Nodup) (again : key ∈ before) : Faulty fields (.repeated key.name)
  | missing {before key after} (distinct : (keys fields).Nodup)
      (split : Key.required = before ++ key :: after) (present : ∀ k ∈ before, k ∈ keys fields)
      (absent : key ∉ keys fields) : Faulty fields (.missing key.name)

/-- To be complete is to give no member twice and no required one never. -/
theorem complete_iff :
    Complete fields ↔ (keys fields).Nodup ∧ ∀ key ∈ Key.required, key ∈ keys fields := by
  constructor
  · rintro ⟨required, hits⟩
    refine ⟨List.nodup_iff_count_le_one.mpr fun key => ?_, fun key hkey => ?_⟩
    · by_cases hkey : key ∈ Key.required
      · exact (required key hkey).le
      · cases key with
        | hits => exact hits
        | _ => exact absurd (by decide) hkey
    · exact List.count_pos_iff.mp (by rw [required key hkey]; exact Nat.one_pos)
  · rintro ⟨distinct, required⟩
    exact ⟨fun key hkey => List.count_eq_one_of_mem distinct (required key hkey),
      List.nodup_iff_count_le_one.mp distinct .hits⟩

/-- The draft holds the members that are given. -/
structure Filled (fields : List Field) (d : Draft) : Prop where
  site : ∀ v, d.site = some v ↔ .site v ∈ fields
  ctxHash : ∀ v, d.ctxHash = some v ↔ .ctxHash v ∈ fields
  inputs : ∀ vs, d.inputs = some vs ↔ .inputs vs ∈ fields
  writes : ∀ ws, d.writes = some ws ↔ .writes ws ∈ fields
  nextPc : ∀ v, d.nextPc = some v ↔ .nextPc v ∈ fields
  hits : ∀ v, d.hits = some v ↔ .hits v ∈ fields
  absent : ∀ key, d.held key = none ↔ key ∉ keys fields

/-- Distinct members fill the draft with just what they give. -/
theorem filled_of_nodup (distinct : (keys fields).Nodup) :
    Filled fields (fields.foldl filling.put record.blank) := by
  have held {b : Field} {key : Key} (hkey : b.key? = some key) :
      (fields.foldl filling.put record.blank).held key = some b ↔ b ∈ fields :=
    Filling.held_foldl_eq_some_iff empty_blank distinct hkey
  have absent {key : Key} :
      (fields.foldl filling.put record.blank).held key = none ↔ key ∉ keys fields :=
    Filling.held_foldl_eq_none_iff empty_blank distinct
  generalize fields.foldl filling.put record.blank = d at held absent
  refine ⟨fun v => ?_, fun v => ?_, fun vs => ?_, fun ws => ?_, fun v => ?_, fun v => ?_,
    fun _ => absent⟩
  all_goals
    refine Iff.trans ?_ (held rfl)
    simp [Draft.held]

theorem Filled.hits_iff (h : Filled fields d) :
    d.hits.getD 0 = e.hits ↔ .hits e.hits ∈ fields ∨ .hits ∉ keys fields ∧ e.hits = 0 := by
  rw [← h.hits, ← h.absent]
  cases hhits : d.hits with
  | none => simp [Draft.held, hhits, eq_comm]
  | some v => simp [Draft.held, hhits]

theorem mem_keys_of_mem {b : Field} {key : Key} (hb : b ∈ fields) (hkey : b.key? = some key) :
    key ∈ keys fields :=
  List.mem_filterMap.mpr ⟨b, hb, hkey⟩

/-- An entry that has its values was given all required members. -/
theorem Yields.mem_keys (h : Yields fields e) : ∀ key ∈ Key.required, key ∈ keys fields := by
  simp only [Key.required, List.forall_mem_cons, List.not_mem_nil, false_imp_iff, implies_true,
    and_true]
  exact ⟨mem_keys_of_mem h.site rfl, mem_keys_of_mem h.ctxHash rfl, mem_keys_of_mem h.inputs rfl,
    mem_keys_of_mem h.writes rfl, mem_keys_of_mem h.nextPc rfl⟩

/-- A draft is an entry if it holds every required member, hits being zero by default. -/
theorem complete_eq_ok_iff :
    record.complete d = .ok e ↔ d.site = some e.site.val ∧ d.ctxHash = some e.ctxHash ∧
      d.inputs = some e.inputs ∧ d.writes = some e.writes ∧ d.nextPc = some e.nextPc ∧
      d.hits.getD 0 = e.hits := by
  simp only [record, Json.bind_eq_ok_iff, Json.required_eq_ok_iff]
  constructor
  · rintro ⟨site, hsite, ctxHash, hctxHash, inputs, hinputs, writes, hwrites, nextPc, hnextPc, ⟨⟩⟩
    exact ⟨hsite, hctxHash, hinputs, hwrites, hnextPc, rfl⟩
  · rintro ⟨hsite, hctxHash, hinputs, hwrites, hnextPc, hhits⟩
    refine ⟨_, hsite, _, hctxHash, _, hinputs, _, hwrites, _, hnextPc, ?_⟩
    rw [hhits]
    rfl

/-- A draft lacks the first required member that it does not hold. -/
theorem complete_eq_error_iff :
    record.complete d = .error fault ↔
      ∃ key, Key.required.find? (fun k => (d.held k).isNone) = some key ∧
        fault = .missing key.name := by
  have missing {k : Key} : (.error (.missing k.name) : Except Fault SnapshotEntry) = .error fault ↔
      ∃ key, some k = some key ∧ fault = .missing key.name := by
    simp [eq_comm]
  obtain ⟨site, ctxHash, inputs, writes, nextPc, hits⟩ := d
  -- The members are asked for in declared order, so the first that is absent decides.
  cases site with
  | none => exact missing (k := .site)
  | some site =>
    cases ctxHash with
    | none => exact missing (k := .ctxHash)
    | some ctxHash =>
      cases inputs with
      | none => exact missing (k := .inputs)
      | some inputs =>
        cases writes with
        | none => exact missing (k := .writes)
        | some writes =>
          cases nextPc with
          | none => exact missing (k := .nextPc)
          | some nextPc =>
            refine ⟨fun h => (by cases h), ?_⟩
            rintro ⟨key, h, -⟩
            cases h

/-- The members can be put in one after another if they are distinct. -/
theorem foldlM_step_eq_ok_iff :
    fields.foldlM filling.step record.blank = .ok d ↔
      (keys fields).Nodup ∧ fields.foldl filling.put record.blank = d :=
  Filling.foldlM_step_eq_ok_iff empty_blank

/-- The first member that is given again is the fault of the draft. -/
theorem foldlM_step_eq_error_iff :
    fields.foldlM filling.step record.blank = .error fault ↔
      ∃ before key after, keys fields = before ++ key :: after ∧ before.Nodup ∧ key ∈ before ∧
        fault = .repeated key.name :=
  Filling.foldlM_step_eq_error_iff empty_blank

/-- An entry is accepted if it is complete, and it is what its members say. -/
theorem outcome_eq_ok_iff : outcome fields = .ok e ↔ Complete fields ∧ Yields fields e := by
  simp only [outcome, Json.bind_eq_ok_iff, foldlM_step_eq_ok_iff, complete_eq_ok_iff, complete_iff]
  constructor
  · rintro ⟨d, ⟨distinct, hd⟩, hsite, hctxHash, hinputs, hwrites, hnextPc, hhits⟩
    have filled := hd ▸ filled_of_nodup distinct
    have yields : Yields fields e :=
      ⟨(filled.site _).mp hsite, (filled.ctxHash _).mp hctxHash, (filled.inputs _).mp hinputs,
        (filled.writes _).mp hwrites, (filled.nextPc _).mp hnextPc, filled.hits_iff.mp hhits⟩
    exact ⟨⟨distinct, yields.mem_keys⟩, yields⟩
  · rintro ⟨⟨distinct, -⟩, yields⟩
    have filled := filled_of_nodup distinct
    exact ⟨_, ⟨distinct, rfl⟩, (filled.site _).mpr yields.site,
      (filled.ctxHash _).mpr yields.ctxHash, (filled.inputs _).mpr yields.inputs,
      (filled.writes _).mpr yields.writes, (filled.nextPc _).mpr yields.nextPc,
      filled.hits_iff.mpr yields.hits⟩

/-- An entry that is not accepted has one fault. -/
theorem outcome_eq_error_iff : outcome fields = .error fault ↔ Faulty fields fault := by
  simp only [outcome, Json.bind_eq_error_iff, foldlM_step_eq_ok_iff, foldlM_step_eq_error_iff,
    complete_eq_error_iff, List.find?_eq_some_iff_append]
  constructor
  · rintro (⟨before, key, after, split, distinct, again, rfl⟩ |
      ⟨d, ⟨distinct, hd⟩, key, ⟨habsent, before, after, split, hpresent⟩, rfl⟩)
    · exact .repeated split distinct again
    · have filled := hd ▸ filled_of_nodup distinct
      refine .missing distinct split (fun k hk => ?_)
        ((filled.absent key).mp (Option.isNone_iff_eq_none.mp habsent))
      by_contra hkeys
      have hnone := (filled.absent k).mpr hkeys
      simpa [hnone] using hpresent k hk
  · rintro (⟨split, distinct, again⟩ | ⟨distinct, split, present, absent⟩)
    · exact .inl ⟨_, _, _, split, distinct, again, rfl⟩
    · have filled := filled_of_nodup distinct
      refine .inr ⟨_, ⟨distinct, rfl⟩, _, ⟨?_, _, _, split, fun k hk => ?_⟩, rfl⟩
      · exact Option.isNone_iff_eq_none.mpr ((filled.absent _).mpr absent)
      · have hheld := mt (filled.absent k).mp (not_not.mpr (present k hk))
        simpa [Option.isSome_iff_ne_none] using hheld

/-- A member that is given again is the fault even where a required one is missing. -/
example : outcome [.hits 2, .nextPc 7, .hits 3] = .error (.repeated "hits") := by rfl

/-- A faulty entry is not complete. -/
theorem Faulty.not_complete (h : Faulty fields fault) : ¬ Complete fields := by
  rw [complete_iff]
  rintro ⟨distinct, required⟩
  cases h with
  | repeated split _ again =>
    rw [split, List.nodup_append] at distinct
    exact distinct.2.2 _ again _ List.mem_cons_self rfl
  | missing _ split _ absent =>
    refine absent (required _ ?_)
    rw [split]
    exact List.mem_append_right _ List.mem_cons_self

/-- Complete entries are accepted. -/
theorem exists_outcome_iff : (∃ e, outcome fields = .ok e) ↔ Complete fields := by
  constructor
  · rintro ⟨e, he⟩
    exact (outcome_eq_ok_iff.mp he).1
  · intro hcomplete
    cases houtcome : outcome fields with
    | ok e => exact ⟨e, rfl⟩
    | error fault => exact absurd hcomplete (outcome_eq_error_iff.mp houtcome).not_complete

/-- The same known members are given with the same values, in any order. -/
def SameMembers (fields fields' : List Field) : Prop :=
  (fields.filter (·.key?.isSome)).Perm (fields'.filter (·.key?.isSome))

/-- The same known members have the same values. -/
theorem SameMembers.mem_iff (h : SameMembers fields fields') {b : Field} {key : Key}
    (hkey : b.key? = some key) : b ∈ fields ↔ b ∈ fields' := by
  simpa [hkey] using List.Perm.mem_iff (a := b) h

/-- Their names are the same up to order. -/
theorem SameMembers.keys_perm (h : SameMembers fields fields') :
    (keys fields).Perm (keys fields') := by
  have hknown (fields : List Field) :
      keys fields = (fields.filter (·.key?.isSome)).filterMap Field.key? := by
    rw [List.filterMap_filter, keys]
    congr
    funext b
    cases b <;> rfl
  rw [hknown, hknown fields']
  exact h.filterMap Field.key?

theorem SameMembers.symm (h : SameMembers fields fields') : SameMembers fields' fields :=
  List.Perm.symm h

/-- Neither the order of the members nor the further members matter for an accepted entry. -/
theorem SameMembers.outcome_eq_ok (h : SameMembers fields fields') (he : outcome fields = .ok e) :
    outcome fields' = .ok e := by
  obtain ⟨⟨required, hits⟩, yields⟩ := outcome_eq_ok_iff.mp he
  have hperm := h.keys_perm
  refine outcome_eq_ok_iff.mpr ⟨⟨fun key hkey => ?_, ?_⟩, ?_⟩
  · rw [← hperm.count_eq, required key hkey]
  · rwa [← hperm.count_eq]
  · refine ⟨(h.mem_iff rfl).mp yields.site, (h.mem_iff rfl).mp yields.ctxHash,
      (h.mem_iff rfl).mp yields.inputs, (h.mem_iff rfl).mp yields.writes,
      (h.mem_iff rfl).mp yields.nextPc, ?_⟩
    rw [← h.mem_iff rfl, ← hperm.mem_iff]
    exact yields.hits

/-- Entries with the same members are read alike, one by one. -/
theorem forall₂_outcome_of_sameMembers {es es' : List (List Field)} {entries : List SnapshotEntry}
    (same : List.Forall₂ SameMembers es es')
    (h : List.Forall₂ (fun fields e => outcome fields = .ok e) es entries) :
    List.Forall₂ (fun fields e => outcome fields = .ok e) es' entries := by
  induction same generalizing entries with
  | nil => exact h
  | cons head _ ih =>
    obtain ⟨e, later, he, htail, rfl⟩ := List.forall₂_cons_left_iff.mp h
    exact .cons (head.outcome_eq_ok he) (ih htail)

end SnapshotEntry

namespace Snapshot

open Json (FieldText JsonText NameText NaturalText ObjectText blanks_nil)
open SnapshotEntry (Complete Yields Faulty SameMembers outcome)

variable {path text : String} {es : List (List SnapshotEntry.Field)} {s : Snapshot}
  {failure : Failure}

/-- A file is read as the outcomes of its entries. -/
theorem ofFile_fileText_eq_ok_iff (h : FileText text es) :
    ofFile path (.ok text) = .ok s ↔
      List.Forall₂ (fun fields e => outcome fields = .ok e) es s.entries := by
  rw [ofFile, ofText_fileText h, ← Json.mapM_eq_ok_iff]
  cases es.mapM outcome with
  | error e =>
    constructor
    · rintro ⟨⟩
    · rintro ⟨⟩
  | ok entries =>
    change Except.ok (mk entries) = .ok s ↔ _
    rw [Except.ok.injEq, Except.ok.injEq]
    exact ⟨fun hs => hs ▸ rfl, fun hs => hs ▸ rfl⟩

/-- A file is accepted if every entry is complete. -/
theorem exists_ofFile_fileText_iff (h : FileText text es) :
    (∃ s, ofFile path (.ok text) = .ok s) ↔ ∀ fields ∈ es, Complete fields := by
  simp only [ofFile_fileText_eq_ok_iff h, ← Json.mapM_eq_ok_iff,
    ← SnapshotEntry.exists_outcome_iff, ← Json.exists_mapM_eq_ok_iff]
  exact ⟨fun ⟨s, hs⟩ => ⟨s.entries, hs⟩, fun ⟨entries, hs⟩ => ⟨⟨entries⟩, hs⟩⟩

/-- The fault of a file is that of the first entry that is not complete. -/
theorem ofFile_fileText_eq_error_iff (h : FileText text es) :
    ofFile path (.ok text) = .error failure ↔ ∃ before fields after fault,
      es = before ++ fields :: after ∧ (∀ fields ∈ before, Complete fields) ∧
        Faulty fields fault ∧ failure = .malformedSnapshot fault := by
  have herror : ofFile path (.ok text) = .error failure ↔
      ∃ fault, es.mapM outcome = .error fault ∧ failure = .malformedSnapshot fault := by
    rw [ofFile, ofText_fileText h]
    cases es.mapM outcome with
    | error fault =>
      change Except.error (Failure.malformedSnapshot fault) = .error failure ↔ _
      simp [eq_comm]
    | ok entries =>
      constructor
      · rintro ⟨⟩
      · rintro ⟨fault, ⟨⟩, -⟩
  rw [herror]
  simp only [Json.mapM_eq_error_iff, SnapshotEntry.exists_outcome_iff,
    SnapshotEntry.outcome_eq_error_iff]
  constructor
  · rintro ⟨fault, ⟨before, fields, after, split, hbefore, hfault⟩, rfl⟩
    exact ⟨before, fields, after, fault, split, hbefore, hfault, rfl⟩
  · rintro ⟨before, fields, after, fault, split, hbefore, hfault, rfl⟩
    exact ⟨fault, ⟨before, fields, after, split, hbefore, hfault⟩, rfl⟩

/-- A snapshot file is accepted if every entry is complete. Then it holds an entry for each one that
is given, with the values of its members. Otherwise the first entry that is not complete is the
fault. Nothing else that the text holds matters, nor does the order of the members. -/
theorem ofFile_fileText (path : String) (h : FileText text es) :
    ((∃ s, ofFile path (.ok text) = .ok s) ↔ ∀ fields ∈ es, Complete fields) ∧
      (∀ s, ofFile path (.ok text) = .ok s ↔
        List.Forall₂ (fun fields e => Complete fields ∧ Yields fields e) es s.entries) ∧
      (∀ failure, ofFile path (.ok text) = .error failure ↔ ∃ before fields after fault,
        es = before ++ fields :: after ∧ (∀ fields ∈ before, Complete fields) ∧
          Faulty fields fault ∧ failure = .malformedSnapshot fault) ∧
      ∀ text' es', FileText text' es' → List.Forall₂ SameMembers es es' →
        ∀ s, ofFile path (.ok text) = .ok s ↔ ofFile path (.ok text') = .ok s := by
  refine ⟨exists_ofFile_fileText_iff h, fun s => ?_, fun failure => ofFile_fileText_eq_error_iff h,
    fun text' es' h' same s => ?_⟩
  · simp only [ofFile_fileText_eq_ok_iff h, SnapshotEntry.outcome_eq_ok_iff]
  · have same' : List.Forall₂ (flip SameMembers) es es' := same.imp fun _ _ => SameMembers.symm
    rw [ofFile_fileText_eq_ok_iff h, ofFile_fileText_eq_ok_iff h']
    exact ⟨SnapshotEntry.forall₂_outcome_of_sameMembers same,
      SnapshotEntry.forall₂_outcome_of_sameMembers same'.flip⟩

/-- An entry whose members stand in no declared order, one of them under an escaped name, with a
member that is not known and without hits. -/
theorem ofFile_fileText_shuffled :
    let text := " \x7b\"entries\":[\x7b\"next_pc\":7,\"s\\u0069te\":4096," ++
      "\"writes\":[\x7b\"val\":9,\"reg\":1\x7d],\"note\":[null]," ++
      "\"inputs\":[5],\"ctx_hash\":0\x7d]\x7d\n"
    let fields : List SnapshotEntry.Field :=
      [.nextPc 7, .site 4096, .writes [⟨1, 9⟩], .other, .inputs [5], .ctxHash 0]
    FileText text [fields] ∧
      ofFile "run.json" (.ok text) = .ok ⟨[⟨⟨4096⟩, 0, [5], [⟨1, 9⟩], 7, 0⟩]⟩ := by
  intro text fields
  have word (n : UInt64) : NaturalText (toString n.toNat).toList n.toNat :=
    Json.naturalText_toString _
  have field {β : Type} {value : List Char → List Char → β → Prop} {name t : List Char} {b : β}
      (found : value name t b) (plain : name.all (Json.Plain ·) = true) :
      FieldText value ('"' :: (name ++ ['"'] ++ ([] ++ ':' :: ([] ++ t)))) b :=
    .mk (Json.nameText_plain (by simpa using plain)) blanks_nil blanks_nil found
  have hunit : Json.UnitText ['0', '0', '6', '9'] (((0 * 16 + 0) * 16 + 6) * 16 + 9) :=
    .mk rfl rfl rfl rfl
  have hname : NameText ('s' :: '\\' :: 'u' :: (['0', '0', '6', '9'] ++ ['t', 'e', '"']))
      "site".toList :=
    .plain (by decide) (.unit hunit (by decide) (.plain (by decide) (.plain (by decide) .close)))
  have hwrite : RegWrite.ObjectOf _ ⟨1, 9⟩ :=
    .mk (.mk (.first blanks_nil (field (.value (word 9)) rfl)
      (.next blanks_nil blanks_nil
        (field (.reg (v := 1) (Json.naturalText_toString 1)) rfl) (.close blanks_nil))))
      ⟨by decide, by decide, by decide⟩
  have hnull : JsonText .value ('[' :: ([] ++ ([] ++ ([] ++ ("null".toList ++ ([] ++ [']'])))))) :=
    .bracket (b := .array)
      (.first blanks_nil .array blanks_nil (.word (by decide)) (.close blanks_nil))
  have hnote : SnapshotEntry.Field.ValueText "note".toList _ .other :=
    .other (by rintro (_ | _) <;> decide) hnull
  have hentry : ObjectText SnapshotEntry.Field.ValueText _ fields :=
    .mk (.first blanks_nil (field (.nextPc (word 7)) rfl)
      (.next blanks_nil blanks_nil (.mk hname blanks_nil blanks_nil (.site (word 4096)))
      (.next blanks_nil blanks_nil
        (field (.writes (.mk (.first blanks_nil hwrite (.close blanks_nil)))) rfl)
      (.next blanks_nil blanks_nil (field hnote rfl)
      (.next blanks_nil blanks_nil
        (field (.inputs (.mk (.first blanks_nil (word 5) (.close blanks_nil)))) rfl)
      (.next blanks_nil blanks_nil (field (.ctxHash (word 0)) rfl)
      (.close blanks_nil)))))))
  have hfile : FileText text [fields] := by
    refine .mk (w := [' ']) (v := ['\n']) ?_ (by decide) (.mk (.first blanks_nil
      (field (.entries (.mk (.first blanks_nil hentry (.close blanks_nil)))) rfl)
      (.close blanks_nil))) rfl (by decide)
    decide +kernel
  refine ⟨hfile, ((ofFile_fileText "run.json" hfile).2.1 _).mpr (.cons ⟨?_, ?_⟩ .nil)⟩
  · exact ⟨by decide, by decide⟩
  · exact ⟨by decide, by decide, by decide, by decide, by decide, by decide⟩

end Snapshot

end CallMemo
