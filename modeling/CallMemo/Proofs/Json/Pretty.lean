import Mathlib.Data.List.Forall2
import CallMemo.Json.Printer
import CallMemo.Proofs.Json.Tokens

/-!
# Pretty text follows the grammar

The line ends and the indentation of pretty text are blanks. So written elements make a list of
their form, and written members an object of theirs, whatever the form is.
-/

namespace CallMemo.Json

/-- The blanks in front of a line. -/
def newline (depth : Nat) : List Char := '\n' :: List.replicate (2 * depth) ' '

/-- Line ends and indentation are blanks. -/
theorem blanks_newline (depth : Nat) : Blanks (newline depth) := by
  intro c hc
  rcases List.mem_cons.mp hc with rfl | hc
  · rfl
  · rw [List.eq_of_mem_replicate hc]
    rfl

/-- What stands behind the first part of a pretty text: the other parts, each on a line of its own
behind a comma, and the closing bracket. -/
def remainder (depth : Nat) (closing : List Char) (items : List String) : List Char :=
  items.flatMap (fun item => ',' :: (newline (depth + 1) ++ item.toList)) ++
    (newline depth ++ closing)

theorem remainder_cons (depth : Nat) (closing : List Char) (item : String)
    (items : List String) :
    remainder depth closing (item :: items) =
      ',' :: (newline (depth + 1) ++ (item.toList ++ remainder depth closing items)) := by
  simp [remainder]

/-- A separated row is its first part and the others, each behind a separator. -/
theorem intercalate_cons_eq {sep x : List Char} {xs : List (List Char)} :
    sep.intercalate (x :: xs) = x ++ xs.flatMap (sep ++ ·) := by
  induction xs generalizing x with
  | nil => simp [List.intercalate]
  | cons y ys ih =>
    rw [List.intercalate_cons_cons, ih, List.flatMap_cons, List.append_assoc, List.append_assoc]

theorem toList_pretty_nil (depth : Nat) (opening closing : String) :
    (pretty depth opening closing []).toList = opening.toList ++ closing.toList := by
  rw [pretty, List.isEmpty_nil, if_pos rfl, String.toList_append]

/-- The first part stands on a line of its own, and so do the others. -/
theorem toList_pretty_cons (depth : Nat) (opening closing item : String) (items : List String) :
    (pretty depth opening closing (item :: items)).toList =
      opening.toList ++ (newline (depth + 1) ++
        (item.toList ++ remainder depth closing.toList items)) := by
  have hlater : (items.map fun i => (indent (depth + 1)).toList ++ i.toList).flatMap
        (",\n".toList ++ ·) =
      items.flatMap fun i => ',' :: (newline (depth + 1) ++ i.toList) := by
    rw [List.flatMap_map]
    simp [indent, newline]
  rw [pretty, List.isEmpty_cons, if_neg Bool.false_ne_true, List.map_cons]
  simp only [String.toList_append, String.toList_intercalate, List.map_cons, List.map_map,
    Function.comp_def, intercalate_cons_eq, remainder, hlater]
  simp [indent, newline]

variable {β : Type} {part : List Char → β → Prop} {value : List Char → List Char → β → Prop}
  {items : List String} {bs : List β}

/-- What stands behind the first part goes on by commas up to the closing bracket. -/
theorem separatedText_remainder (depth : Nat) (closing : Char)
    (h : List.Forall₂ (fun item b => part item.toList b) items bs) :
    SeparatedText part closing false (remainder depth [closing] items) bs := by
  induction h with
  | nil => exact .close (blanks_newline depth)
  | cons head _ ih =>
    rw [remainder_cons]
    exact .next (v := []) blanks_nil (blanks_newline _) head ih

/-- Behind its opening bracket a pretty text is a row of its parts. -/
theorem exists_toList_pretty (depth : Nat) (opening closing : Char)
    (h : List.Forall₂ (fun item b => part item.toList b) items bs) :
    ∃ t, (pretty depth (.singleton opening) (.singleton closing) items).toList = opening :: t ∧
      SeparatedText part closing true t bs := by
  cases h with
  | nil =>
    refine ⟨[closing], by simp [toList_pretty_nil], ?_⟩
    exact .close (w := []) blanks_nil
  | @cons item b items bs head tail =>
    refine ⟨newline (depth + 1) ++ (item.toList ++ remainder depth [closing] items), ?_, ?_⟩
    · simp [toList_pretty_cons]
    · exact .first (blanks_newline _) head (separatedText_remainder depth closing tail)

/-- Pretty text of elements of a form is a list of such elements. -/
theorem arrayText_prettyList (depth : Nat)
    (h : List.Forall₂ (fun item b => part item.toList b) items bs) :
    ArrayText part (prettyList depth items).toList bs := by
  obtain ⟨t, htext, helements⟩ := exists_toList_pretty depth '[' ']' h
  exact htext ▸ .mk helements

/-- Pretty text of members of a form is an object with such members. -/
theorem objectText_prettyObject (depth : Nat)
    (h : List.Forall₂ (fun item b => FieldText value item.toList b) items bs) :
    ObjectText value (prettyObject depth items).toList bs := by
  obtain ⟨t, htext, hmembers⟩ := exists_toList_pretty depth '\x7b' '\x7d' h
  exact htext ▸ .mk hmembers

/-- A member is written as its name in quotes, a colon, a blank and the text of its value. -/
theorem fieldText_member {name text : String} {b : β}
    (plain : name.toList.all (Plain ·) = true) (found : value name.toList text.toList b) :
    FieldText value (member name text).toList b := by
  have hplain : ∀ c ∈ name.toList, Plain c := by simpa using plain
  have htext : (member name text).toList =
      '"' :: (name.toList ++ ['"'] ++ ([] ++ ':' :: ([' '] ++ text.toList))) := by
    simp [member, String.toList_append, toString]
  have hblank : Blanks [' '] := by simp [Blanks, isBlank]
  rw [htext]
  exact .mk (nameText_plain hplain) blanks_nil hblank found

end CallMemo.Json
