import Mathlib.Data.List.Forall2
import CallMemo.Proofs.Json.Skipping

/-!
# Lists and objects with faults

A text of a known form need not be acceptable: a list gives the fault of its first faulty element,
and an object the fault of the first member that its record cannot take. So a reader gives for a
text an outcome, a value or a fault. The outcome of a list comes from those of its elements in turn,
and the outcome of an object from the steps by which its members fill the draft of the record.
-/

namespace CallMemo.Json

variable {α β δ : Type} {s s' t u v w : List Char} {first : Bool} {fuel : Nat}

/-- The reader gives the outcome `o` for the text `t` and then stands behind the text. Blanks may
stand in front, and behind it no numeral may go on. -/
structure Gives (r : Reader α) (t : List Char) (o : Except Fault α) : Prop where
  /-- The text starts with a value. -/
  starts : ∃ c u, t = c :: u ∧ isBlank c = false ∧ c ≠ ']'
  /-- The outcome is decided by the text alone. -/
  eq_map : ∀ w s, Blanks w → Ends s → r (w ++ (t ++ s)) = o.map (·, s)

theorem Reads.gives {r : Reader α} {a : α} (h : Reads r t a) : Gives r t (.ok a) :=
  ⟨h.starts, h.eq_ok⟩

theorem Gives.reads {r : Reader α} {a : α} (h : Gives r t (.ok a)) : Reads r t a :=
  ⟨h.starts, h.eq_map⟩

namespace Reader

/-- A fault ends the reading, and behind a value it goes on. -/
theorem bind_of_map {r : Reader α} {k : α → Reader β} {o : Except Fault α}
    (h : r s = o.map (·, s')) : (r >>= k) s = o >>= fun a => k a s' := by
  cases o with
  | error e => simp only [bind, StateT.bind, h, Except.map, Except.bind]
  | ok a => exact bind_of_ok h

end Reader

section

variable {o : Except Fault α} {f : α → Except Fault β} {fault : Fault}

/-- What goes on behind an outcome has a value if both have one. -/
theorem bind_eq_ok_iff {b : β} : (o >>= f) = .ok b ↔ ∃ a, o = .ok a ∧ f a = .ok b := by
  cases o with
  | error e => simp [bind, Except.bind]
  | ok a => simp [bind, Except.bind]

/-- Its fault is that of the outcome, or the one behind its value. -/
theorem bind_eq_error_iff :
    (o >>= f) = .error fault ↔ o = .error fault ∨ ∃ a, o = .ok a ∧ f a = .error fault := by
  cases o with
  | error e => simp [bind, Except.bind]
  | ok a => simp [bind, Except.bind]

end

/-- What is made of a later result is made of the whole. -/
theorem bind_map_eq {γ : Type} {o : Except Fault α} {f : α → Except Fault β} {g : β → γ} :
    (o >>= fun a => (f a).map g) = (o >>= f).map g := by
  cases o <;> rfl

/-- What is made of a value leaves a fault as it is. -/
theorem Gives.map {r : Reader α} {o : Except Fault α} (h : Gives r t o) (f : α → β) :
    Gives (f <$> r) t (f <$> o) where
  starts := h.starts
  eq_map w s blank ends := by
    rw [map_eq_pure_bind, Reader.bind_of_map (h.eq_map w s blank ends)]
    cases o <;> rfl

theorem Gives.length_pos {r : Reader α} {o : Except Fault α} (h : Gives r t o) : 0 < t.length := by
  obtain ⟨c, u, rfl, -, -⟩ := h.starts
  exact Nat.succ_pos _

/-- A part is followed by a blank, a comma or the closing bracket. -/
theorem SeparatedText.ends {part : List Char → β → Prop} {closing : Char} {bs : List β}
    (h : SeparatedText part closing false t bs) (hclosing : closing = ']' ∨ closing = '}') :
    Ends (t ++ s) := by
  cases h with
  | close blank =>
    rw [List.append_assoc]
    exact ends_append_cons blank (.inr hclosing)
  | next gap =>
    rw [List.append_assoc]
    exact ends_append_cons gap (.inl rfl)

section

variable {outcome : β → Except Fault α} {bs : List β} {fault : Fault}

/-- A list of outcomes is a list of values if each one is a value. -/
theorem mapM_eq_ok_iff {as : List α} :
    bs.mapM outcome = .ok as ↔ List.Forall₂ (fun b a => outcome b = .ok a) bs as := by
  induction bs generalizing as with
  | nil =>
    rw [List.mapM_nil, List.forall₂_nil_left_iff]
    exact ⟨fun h => (Except.ok.inj h).symm, fun h => h ▸ rfl⟩
  | cons b bs ih =>
    simp only [List.mapM_cons, List.forall₂_cons_left_iff, bind_eq_ok_iff, ih]
    constructor
    · rintro ⟨a, ha, tail, htail, ⟨⟩⟩
      exact ⟨a, tail, ha, htail, rfl⟩
    · rintro ⟨a, tail, ha, htail, rfl⟩
      exact ⟨a, ha, tail, htail, rfl⟩

/-- There is such a list if each one is a value. -/
theorem exists_mapM_eq_ok_iff :
    (∃ as, bs.mapM outcome = .ok as) ↔ ∀ b ∈ bs, ∃ a, outcome b = .ok a := by
  induction bs with
  | nil => exact ⟨fun _ => by simp, fun _ => ⟨[], rfl⟩⟩
  | cons b bs ih =>
    rw [List.forall_mem_cons, ← ih]
    simp only [List.mapM_cons, bind_eq_ok_iff]
    constructor
    · rintro ⟨_, a, ha, as, has, -⟩
      exact ⟨⟨a, ha⟩, as, has⟩
    · rintro ⟨⟨a, ha⟩, as, has⟩
      exact ⟨a :: as, a, ha, as, has, rfl⟩

/-- The fault of a list of outcomes is the first one. -/
theorem mapM_eq_error_iff :
    bs.mapM outcome = .error fault ↔ ∃ before b after, bs = before ++ b :: after ∧
      (∀ c ∈ before, ∃ a, outcome c = .ok a) ∧ outcome b = .error fault := by
  induction bs with
  | nil =>
    constructor
    · rintro ⟨⟩
    · rintro ⟨before, b, after, heq, -, -⟩
      cases before <;> cases heq
  | cons b bs ih =>
    have hcons : (b :: bs).mapM outcome = .error fault ↔ outcome b = .error fault ∨
        (∃ a, outcome b = .ok a) ∧ bs.mapM outcome = .error fault := by
      simp [List.mapM_cons, bind_eq_error_iff, pure, Except.pure]
    rw [hcons, ih]
    constructor
    · rintro (hb | ⟨hb, before, c, after, rfl, hbefore, hc⟩)
      · exact ⟨[], b, bs, rfl, by simp, hb⟩
      · exact ⟨b :: before, c, after, rfl, List.forall_mem_cons.mpr ⟨hb, hbefore⟩, hc⟩
    · rintro ⟨before, c, after, heq, hbefore, hc⟩
      cases before with
      | nil =>
        obtain ⟨rfl, rfl⟩ := List.cons.inj heq
        exact .inl hc
      | cons x before =>
        obtain ⟨rfl, rfl⟩ := List.cons.inj heq
        obtain ⟨hb, hbefore⟩ := List.forall_mem_cons.mp hbefore
        exact .inr ⟨hb, before, c, after, rfl, hbefore, hc⟩

end

namespace Reader

/-- No element follows where the bracket closes. -/
theorem hasElement_close (blank : Blanks w) :
    hasElement first (w ++ ']' :: s) = .ok (false, ']' :: s) := by
  unfold hasElement
  rw [bind_of_ok (peek_append_cons blank (by decide))]
  rfl

/-- At the front of a list any text but the closing bracket starts an element. -/
theorem hasElement_first (blank : Blanks w)
    (starts : ∃ c u, t = c :: u ∧ isBlank c = false ∧ c ≠ ']') :
    hasElement true (w ++ (t ++ s)) = .ok (true, t ++ s) := by
  obtain ⟨c, u, rfl, hc, hne⟩ := starts
  unfold hasElement
  rw [List.cons_append, bind_of_ok (peek_append_cons blank hc)]
  simp only [if_true]
  generalize hnext : some c = next
  split
  · cases hnext
  · exact absurd (Option.some.inj hnext) hne
  · rfl
  · rfl

/-- Behind an element a comma announces the next one. -/
theorem hasElement_next (gap : Blanks v) (blank : Blanks w)
    (starts : ∃ c u, t = c :: u ∧ isBlank c = false ∧ c ≠ ']') :
    hasElement false (v ++ ',' :: (w ++ (t ++ s))) = .ok (true, t ++ s) := by
  obtain ⟨c, u, rfl, hc, hne⟩ := starts
  unfold hasElement
  rw [bind_of_ok (peek_append_cons gap (by decide))]
  simp only [Bool.false_eq_true, if_false]
  rw [bind_of_ok advance_cons, List.cons_append, bind_of_ok (peek_append_cons blank hc)]
  generalize hnext : some c = next
  split
  · cases hnext
  · exact absurd (Option.some.inj hnext) hne
  · rfl

section

variable {item : Reader α} {part : List Char → β → Prop} {outcome : β → Except Fault α}
  {bs : List β}

/-- Behind an element the loop goes on with the next one. -/
theorem elements_cons {b : β} {taken : List α}
    (helement : hasElement taken.isEmpty s = .ok (true, t ++ u)) (head : Gives item t (outcome b))
    (ends : Ends u)
    (tail : ∀ a, elements item fuel (a :: taken) u =
      (bs.mapM outcome).map fun as => ((a :: taken).reverse ++ as, s')) :
    elements item (fuel + 1) taken s =
      ((b :: bs).mapM outcome).map fun as => (taken.reverse ++ as, s') := by
  have hhead : item (t ++ u) = (outcome b).map (·, u) := head.eq_map [] _ blanks_nil ends
  rw [elements, bind_of_ok helement, if_pos rfl, bind_of_map hhead, List.mapM_cons]
  simp only [tail, List.reverse_cons, List.append_assoc, List.singleton_append]
  cases outcome b with
  | error e => rfl
  | ok a => cases bs.mapM outcome <;> rfl

/-- The elements are read one after another up to the first faulty one; behind the last the bracket
is taken. -/
theorem elements_append (hitem : ∀ t b, part t b → Gives item t (outcome b))
    (h : SeparatedText part ']' first t bs) {taken : List α} (hfirst : taken.isEmpty = first)
    (hfuel : t.length < fuel) :
    elements item fuel taken (t ++ s) =
      (bs.mapM outcome).map fun as => (taken.reverse ++ as, s) := by
  induction h generalizing fuel taken with
  | close blank =>
    obtain ⟨fuel, rfl⟩ := Nat.exists_eq_add_of_le' (Nat.one_le_of_lt hfuel)
    rw [elements, List.append_assoc, List.singleton_append, bind_of_ok (hasElement_close blank)]
    change _ = Except.ok (taken.reverse ++ [], s)
    rw [List.append_nil]
    rfl
  | @first w t u b bs blank head tail ih =>
    obtain ⟨fuel, rfl⟩ := Nat.exists_eq_add_of_le' (Nat.one_le_of_lt hfuel)
    have hb := hitem t b head
    have helement : hasElement taken.isEmpty (w ++ (t ++ (u ++ s))) =
        .ok (true, t ++ (u ++ s)) := by
      rw [hfirst]
      exact hasElement_first blank hb.starts
    simp only [List.append_assoc]
    refine elements_cons helement hb (tail.ends (.inl rfl)) fun a => ih rfl ?_
    have hpos := hb.length_pos
    simp only [List.length_append] at hfuel
    omega
  | @next v w t u b bs gap blank head tail ih =>
    obtain ⟨fuel, rfl⟩ := Nat.exists_eq_add_of_le' (Nat.one_le_of_lt hfuel)
    have hb := hitem t b head
    have helement : hasElement taken.isEmpty (v ++ ',' :: (w ++ (t ++ (u ++ s)))) =
        .ok (true, t ++ (u ++ s)) := by
      rw [hfirst]
      exact hasElement_next gap blank hb.starts
    simp only [List.append_assoc, List.cons_append]
    refine elements_cons helement hb (tail.ends (.inl rfl)) fun a => ih rfl ?_
    simp only [List.length_append, List.length_cons] at hfuel
    omega

/-- A list gives its elements or the fault of the first faulty one. -/
theorem gives_list (hitem : ∀ t b, part t b → Gives item t (outcome b))
    (h : ArrayText part t bs) : Gives (list item) t (bs.mapM outcome) := by
  cases h with
  | @mk t _ helements =>
    refine ⟨⟨'[', t, rfl, by decide, by decide⟩, fun w s blank _ => ?_⟩
    have hfuel : t.length < (t ++ s).length + 1 := by
      rw [List.length_append]
      omega
    unfold list
    rw [List.cons_append, bind_of_ok (peek_append_cons blank (by decide))]
    change (advance >>= fun _ => get >>= fun rest =>
      elements item (rest.length + 1) []) ('[' :: (t ++ s)) = _
    rw [bind_of_ok advance_cons, get_bind, elements_append hitem helements rfl hfuel]
    rfl

/-- A list of elements without a fault is read as the list of their values. -/
theorem reads_arrayText {part : List Char → α → Prop} {as : List α}
    (hitem : ∀ t a, part t a → Reads item t a) (h : ArrayText part t as) :
    Reads (list item) t as := by
  have hgives : Gives (list item) t (as.mapM Except.ok) :=
    gives_list (fun t a ha => (hitem t a ha).gives) h
  have hall : as.mapM Except.ok = (.ok (as.map id) : Except Fault (List α)) := List.mapM_pure
  rw [List.map_id] at hall
  rw [hall] at hgives
  exact hgives.reads

end

end Reader

namespace Record

variable {r : Record δ α} {m : Member δ} {d : δ} {name : List Char}

/-- What the loop over the members does where a name is due. -/
def readNext (r : Record δ α) (fuel : Nat) (d : δ) : Reader δ := do
  match ← Reader.peek with
  | some '"' =>
    Reader.advance
    let name ← Reader.quoted true
    let d ← r.readMember name d
    r.readMembers fuel false d
  | _ => Reader.stop

/-- A name is read with its escapes, and then its member. -/
theorem readNext_quoted {q : List Char} (fuel : Nat) (blank : Blanks w)
    (quoted : NameText q name) :
    r.readNext fuel d (w ++ '"' :: (q ++ s)) =
      (r.readMember name d >>= fun d => r.readMembers fuel false d) s := by
  rw [readNext, Reader.bind_of_ok (Reader.peek_append_cons blank (by decide))]
  change (Reader.advance >>= fun _ => Reader.quoted true >>= fun name =>
    r.readMember name d >>= fun d => r.readMembers fuel false d) _ = _
  rw [Reader.bind_of_ok Reader.advance_cons, Reader.bind_of_ok (Reader.quoted_name quoted)]

theorem readMembers_close (blank : Blanks w) (fuel : Nat) :
    r.readMembers (fuel + 1) first d (w ++ '}' :: s) = .ok (d, s) := by
  rw [readMembers, Reader.bind_of_ok (Reader.peek_append_cons blank (by decide))]
  rfl

theorem readMembers_first (blank : Blanks w) (fuel : Nat) :
    r.readMembers (fuel + 1) true d (w ++ '"' :: s) = r.readNext fuel d ('"' :: s) := by
  rw [readMembers, Reader.bind_of_ok (Reader.peek_append_cons blank (by decide))]
  rfl

theorem readMembers_next (gap : Blanks v) (fuel : Nat) :
    r.readMembers (fuel + 1) false d (v ++ ',' :: s) = r.readNext fuel d s := by
  rw [readMembers, Reader.bind_of_ok (Reader.peek_append_cons gap (by decide))]
  rfl

/-- A member that the record knows is a fault where the draft holds it already, and is read into the
draft otherwise. -/
theorem readMember_known {o : Except Fault δ}
    (found : r.members.find? (·.name.toList = name) = some m) (gap : Blanks v)
    (blank : Blanks w) (value : Gives (m.read d) t o) (ends : Ends s) :
    r.readMember name d (v ++ ':' :: (w ++ (t ++ s))) =
      (if m.isGiven d then .error (.repeated m.name) else o).map (·, s) := by
  rw [readMember, found]
  by_cases hgiven : m.isGiven d = true
  · simp only [hgiven, if_true]
    rfl
  · simp only [hgiven, Bool.false_eq_true, if_false]
    rw [Reader.bind_of_ok (Reader.colon_append gap), value.eq_map w s blank ends]

/-- The value of any other member is skipped. -/
theorem readMember_unknown (unknown : ∀ m ∈ r.members, name ≠ m.name.toList) (gap : Blanks v)
    (blank : Blanks w) (value : JsonText .value t) (ends : Ends s) :
    r.readMember name d (v ++ ':' :: (w ++ (t ++ s))) = .ok (d, s) := by
  have hfind : r.members.find? (·.name.toList = name) = none := by
    rw [List.find?_eq_none]
    intro m hm h
    exact unknown m hm (of_decide_eq_true h).symm
  rw [readMember, hfind]
  change (Reader.colon >>= fun _ => Reader.skipValue >>= fun _ => pure d) _ = _
  rw [Reader.bind_of_ok (Reader.colon_append gap),
    Reader.bind_of_ok ((Reader.reads_skipValue value).eq_ok w s blank ends)]
  rfl

/-- An object gives what its record makes of the draft that the members fill. -/
theorem gives_braces {o : Except Fault δ}
    (members : ∀ s fuel, t.length < fuel →
      r.readMembers fuel true r.blank (t ++ s) = o.map (·, s)) :
    Gives r.read ('{' :: t) (o >>= r.complete) := by
  refine ⟨⟨'{', t, rfl, by decide, by decide⟩, fun w s blank _ => ?_⟩
  have hfuel : t.length < (t ++ s).length + 1 := by
    rw [List.length_append]
    omega
  unfold read
  rw [List.cons_append, Reader.bind_of_ok (Reader.peek_append_cons blank (by decide))]
  change (Reader.advance >>= fun _ => get >>= fun rest =>
    r.readMembers (rest.length + 1) true r.blank >>= fun d => liftM (r.complete d))
      ('{' :: (t ++ s)) = _
  rw [Reader.bind_of_ok Reader.advance_cons, Reader.get_bind,
    Reader.bind_of_map (members s _ hfuel), ← bind_map_eq]
  congr

variable {value : List Char → List Char → β → Prop} {step : δ → β → Except Fault δ} {bs : List β}

/-- The record takes the members of a form for steps of its draft. -/
def Takes (r : Record δ α) (value : List Char → List Char → β → Prop)
    (step : δ → β → Except Fault δ) : Prop :=
  ∀ name t b, value name t b → ∀ d v w s, Blanks v → Blanks w → Ends s →
    r.readMember name d (v ++ ':' :: (w ++ (t ++ s))) = (step d b).map (·, s)

/-- A member of the form is one step of the draft. -/
theorem readNext_field {b : β} (takes : r.Takes value step) (fuel : Nat) (d : δ) (blank : Blanks w)
    (head : FieldText value t b) (ends : Ends s) :
    r.readNext fuel d (w ++ (t ++ s)) = step d b >>= fun d => r.readMembers fuel false d s := by
  cases head with
  | mk quoted gap blank' found =>
    have hmember := takes _ _ _ found d _ _ _ gap blank' ends
    simp only [List.append_assoc, List.cons_append]
    rw [readNext_quoted fuel blank quoted, Reader.bind_of_map hmember]

theorem readMembers_first_field {b : β} (blank : Blanks w) (head : FieldText value t b) :
    r.readMembers (fuel + 1) true d (w ++ (t ++ s)) = r.readNext fuel d (t ++ s) := by
  cases head
  exact readMembers_first blank fuel

/-- The members are read one after another up to the first one that cannot be taken; behind the last
the bracket is taken. -/
theorem readMembers_append (takes : r.Takes value step)
    (h : SeparatedText (FieldText value) '}' first t bs) (hfuel : t.length < fuel) :
    r.readMembers fuel first d (t ++ s) = (bs.foldlM step d).map (·, s) := by
  induction h generalizing fuel d with
  | close blank =>
    obtain ⟨fuel, rfl⟩ := Nat.exists_eq_add_of_le' (Nat.one_le_of_lt hfuel)
    rw [List.append_assoc]
    exact readMembers_close blank _
  | @first w t u b bs blank head tail ih =>
    obtain ⟨fuel, rfl⟩ := Nat.exists_eq_add_of_le' (Nat.one_le_of_lt hfuel)
    have hlater : ∀ d, r.readMembers fuel false d (u ++ s) = (bs.foldlM step d).map (·, s) := by
      refine fun d => ih ?_
      cases head
      simp only [List.length_append, List.length_cons] at hfuel
      omega
    have hnext := readNext_field takes fuel d blanks_nil head (tail.ends (s := s) (.inr rfl))
    rw [List.nil_append] at hnext
    rw [List.append_assoc, List.append_assoc, readMembers_first_field blank head, hnext,
      List.foldlM_cons, ← bind_map_eq]
    simp only [hlater]
  | @next v w t u b bs gap blank head tail ih =>
    obtain ⟨fuel, rfl⟩ := Nat.exists_eq_add_of_le' (Nat.one_le_of_lt hfuel)
    have hlater : ∀ d, r.readMembers fuel false d (u ++ s) = (bs.foldlM step d).map (·, s) := by
      refine fun d => ih ?_
      simp only [List.length_append, List.length_cons] at hfuel
      omega
    simp only [List.append_assoc, List.cons_append]
    rw [readMembers_next gap, readNext_field takes fuel d blank head (tail.ends (.inr rfl)),
      List.foldlM_cons, ← bind_map_eq]
    simp only [hlater]

/-- An object whose members have the form that the record takes is read member by member. -/
theorem gives_object (takes : r.Takes value step) (h : ObjectText value t bs) :
    Gives r.read t (bs.foldlM step r.blank >>= r.complete) := by
  cases h with
  | mk members => exact gives_braces fun s _ hfuel => readMembers_append takes members hfuel

end Record

end CallMemo.Json
