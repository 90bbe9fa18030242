import CallMemo.Proofs.Json.Pretty
import CallMemo.Proofs.Snapshot.Acceptance

/-!
# Snapshot files are read as written

The text of a snapshot is one of the texts in which its members may be laid out: every member of an
entry is there, in declared order. So the reader takes it for that snapshot.
-/

namespace CallMemo

open Json (ArrayText NaturalText ObjectText fieldText_member naturalText_toString)

/-- The text of a write gives that write. -/
theorem RegWrite.objectOf_pretty (depth : Nat) (w : RegWrite) :
    ObjectOf (w.pretty depth).toList w := by
  have hobject : ObjectText Field.ValueText (w.pretty depth).toList [.reg w.reg, .value w.value] :=
    Json.objectText_prettyObject depth
      (.cons (fieldText_member rfl (.reg (naturalText_toString _)))
        (.cons (fieldText_member rfl (.value (naturalText_toString _))) .nil))
  have distinct : [Key.reg, Key.value].Nodup := by decide
  exact .mk hobject ⟨distinct, by simp, by simp⟩

namespace SnapshotEntry

/-- The members of an entry in declared order. -/
def fields (e : SnapshotEntry) : List Field :=
  [.site e.site.val, .ctxHash e.ctxHash, .inputs e.inputs, .writes e.writes, .nextPc e.nextPc,
    .hits e.hits]

/-- The members of an entry give that entry. -/
theorem outcome_fields (e : SnapshotEntry) : outcome e.fields = .ok e := rfl

/-- The text of an entry has these members. -/
theorem objectText_pretty (depth : Nat) (e : SnapshotEntry) :
    ObjectText Field.ValueText (e.pretty depth).toList e.fields := by
  have hinputs : ArrayText (fun t (v : UInt64) => NaturalText t v.toNat)
      (Json.prettyList (depth + 1) (e.inputs.map fun v => toString v.toNat)).toList e.inputs :=
    Json.arrayText_prettyList _ (List.forall₂_map_left_iff.mpr
      (List.forall₂_same.mpr fun v _ => naturalText_toString v.toNat))
  have hwrites : ArrayText RegWrite.ObjectOf
      (Json.prettyList (depth + 1) (e.writes.map (·.pretty (depth + 2)))).toList e.writes :=
    Json.arrayText_prettyList _ (List.forall₂_map_left_iff.mpr
      (List.forall₂_same.mpr fun w _ => w.objectOf_pretty (depth + 2)))
  exact Json.objectText_prettyObject depth
    (.cons (fieldText_member rfl (.site (naturalText_toString _)))
      (.cons (fieldText_member rfl (.ctxHash (naturalText_toString _)))
        (.cons (fieldText_member rfl (.inputs hinputs))
          (.cons (fieldText_member rfl (.writes hwrites))
            (.cons (fieldText_member rfl (.nextPc (naturalText_toString _)))
              (.cons (fieldText_member rfl (.hits (naturalText_toString _))) .nil))))))

end SnapshotEntry

namespace Snapshot

/-- The text of a snapshot is a file that holds its entries. -/
theorem fileText_text (s : Snapshot) : FileText s.text (s.entries.map (·.fields)) := by
  have hentries : ArrayText (ObjectText SnapshotEntry.Field.ValueText)
      (Json.prettyList 1 (s.entries.map (·.pretty 2))).toList (s.entries.map (·.fields)) :=
    Json.arrayText_prettyList _ (List.forall₂_map_left_iff.mpr
      (List.forall₂_map_right_iff.mpr (List.forall₂_same.mpr fun e _ => e.objectText_pretty 2)))
  have hobject : ObjectText Field.ValueText s.text.toList [.entries (s.entries.map (·.fields))] :=
    Json.objectText_prettyObject 0 (.cons (fieldText_member rfl (.entries hentries)) .nil)
  exact .mk (w := []) (v := []) (by simp) Json.blanks_nil hobject rfl Json.blanks_nil

/-- The file of a snapshot is read as that snapshot, and no other snapshot has the same file. -/
theorem ofFile_text (path : String) (s : Snapshot) :
    ofFile path (.ok s.text) = .ok s ∧ ∀ s' : Snapshot, s'.text = s.text → s' = s := by
  have hread (s : Snapshot) : ofFile path (.ok s.text) = .ok s :=
    (ofFile_fileText_eq_ok_iff s.fileText_text).mpr
      (List.forall₂_map_left_iff.mpr (List.forall₂_same.mpr fun e _ => e.outcome_fields))
  refine ⟨hread s, fun s' htext => ?_⟩
  have hread' := hread s'
  rw [htext, hread s] at hread'
  exact (Except.ok.inj hread').symm

end Snapshot

end CallMemo
