import CallMemo.Proofs.Json.Tokens

/-!
# Skipped values

A value of any form and depth is skipped. The loop comes behind each part of it with the brackets
open that were open in front, in at most two steps for each character, so the fuel that the text
allows is enough.
-/

namespace CallMemo.Json

variable {q s t u v w x k : List Char} {fuel : Nat} {b : Bracket} {open? outer : List Bracket}

namespace Reader

/-- A name is skipped with its colon, whatever it stands for. -/
theorem skipName_append (blank : Blanks w) (h : StringText q) (gap : Blanks v) :
    skipName (w ++ '"' :: (q ++ (v ++ ':' :: s))) = .ok ((), s) := by
  obtain ⟨cs, hcs⟩ := quoted_string (s := v ++ ':' :: s) h
  unfold skipName
  rw [bind_of_ok (peek_append_cons blank (by decide))]
  change (advance >>= fun _ => quoted false >>= fun _ => colon) _ = _
  rw [bind_of_ok advance_cons, bind_of_ok hcs, colon_append gap]

end Reader

/-- A sign or a digit in front tells a numeral from the other values. -/
theorem NumeralText.starts (h : NumeralText t) :
    ∃ c u, t = c :: u ∧ (c = '-' ∨ c.isDigit = true) := by
  cases h with
  | positive whole =>
    obtain ⟨c, cs, rfl⟩ := List.exists_cons_of_ne_nil whole.digits.1
    exact ⟨c, _, rfl, .inr (whole.digits.2 c List.mem_cons_self)⟩
  | negative => exact ⟨_, _, rfl, .inl rfl⟩

/-- A value starts with none of the closing brackets. -/
theorem JsonText.starts (h : JsonText .value t) :
    ∃ c u, t = c :: u ∧ isBlank c = false ∧ ∀ b : Bracket, c ≠ b.closing := by
  cases h with
  | word word =>
    simp only [List.mem_cons, List.not_mem_nil, or_false] at word
    rcases word with rfl | rfl | rfl
    all_goals exact ⟨_, _, rfl, by decide, by rintro (_ | _) <;> decide⟩
  | numeral numeral =>
    obtain ⟨c, u, rfl, rfl | hc⟩ := numeral.starts
    · exact ⟨_, _, rfl, by decide, by rintro (_ | _) <;> decide⟩
    · exact ⟨c, u, rfl, isBlank_of_isDigit hc, by rintro (_ | _) rfl <;> cases hc⟩
  | string => exact ⟨_, _, rfl, by decide, by rintro (_ | _) <;> decide⟩
  | @bracket b => cases b <;> exact ⟨_, _, rfl, by decide, by rintro (_ | _) <;> decide⟩

theorem JsonText.length_pos (h : JsonText .value t) : 0 < t.length := by
  obtain ⟨c, u, rfl, -⟩ := h.starts
  exact Nat.succ_pos _

/-- A closing bracket ends a numeral. -/
theorem Bracket.ends_closing (b : Bracket) (blank : Blanks w) : Ends (w ++ b.closing :: s) := by
  cases b
  · exact ends_append_cons blank (.inr (.inl rfl))
  · exact ends_append_cons blank (.inr (.inr rfl))

/-- What goes on behind a value is no numeral. -/
theorem JsonText.ends {b : Bracket} (h : JsonText (.inside b false) t) : Ends (t ++ s) := by
  cases h with
  | close blank =>
    rw [List.append_assoc]
    exact b.ends_closing blank
  | next before =>
    rw [List.append_assoc]
    exact ends_append_cons before (.inl rfl)

namespace Reader

theorem isBlank_closing (b : Bracket) : isBlank b.closing = false := by cases b <;> decide

theorem closing_ne_comma (b : Bracket) : b.closing ≠ ',' := by cases b <;> decide

/-- Blanks in front of a value are skipped. -/
theorem skipValueStart_blanks {c : Char} (blank : Blanks w) (hc : isBlank c = false) :
    skipValueStart open? (w ++ c :: s) = skipValueStart open? (c :: s) := by
  have hbare : peek (c :: s) = .ok (some c, c :: s) := peek_append_cons blanks_nil hc
  unfold skipValueStart
  rw [bind_of_ok (peek_append_cons blank hc), bind_of_ok hbare]

/-- A word is a whole value. -/
theorem skipValueStart_word (blank : Blanks w)
    (word : t ∈ ["null".toList, "true".toList, "false".toList]) :
    skipValueStart open? (w ++ (t ++ s)) = .ok ((.after, open?), s) := by
  have hword : (expect t >>= fun _ => pure (Place.after, open?) : Reader _) (t ++ s) =
      .ok ((.after, open?), s) := bind_of_ok (expect_append t)
  simp only [List.mem_cons, List.not_mem_nil, or_false] at word
  rcases word with rfl | rfl | rfl
  all_goals exact (skipValueStart_blanks blank (by decide)).trans hword

theorem skipValueStart_string (blank : Blanks w) (string : StringText q) :
    skipValueStart open? (w ++ '"' :: (q ++ s)) = .ok ((.after, open?), s) := by
  obtain ⟨cs, hcs⟩ := quoted_string (s := s) string
  rw [skipValueStart_blanks blank (by decide)]
  change (advance >>= fun _ => quoted false >>= fun _ => pure (Place.after, open?))
    ('"' :: (q ++ s)) = _
  rw [bind_of_ok advance_cons, bind_of_ok hcs]
  rfl

/-- A bracket opens the inside of a value. -/
theorem skipValueStart_bracket (blank : Blanks w) (b : Bracket) :
    skipValueStart open? (w ++ b.opening :: s) = .ok ((.opened, b :: open?), s) := by
  cases b
  all_goals exact skipValueStart_blanks blank (by decide)

/-- A numeral is a whole value if none goes on behind it. -/
theorem skipValueStart_numeral (blank : Blanks w) (h : NumeralText t) (ends : Ends s) :
    skipValueStart open? (w ++ (t ++ s)) = .ok ((.after, open?), s) := by
  obtain ⟨n, hn⟩ := numeral_text h ends
  obtain ⟨c, u, rfl, hc⟩ := h.starts
  have hskip : skipNumeral (c :: u ++ s) = .ok ((), s) := by rw [skipNumeral, hn]
  have hblank : isBlank c = false := by
    rcases hc with rfl | hc
    · decide
    · exact isBlank_of_isDigit hc
  have hbare : peek (c :: (u ++ s)) = .ok (some c, c :: (u ++ s)) :=
    peek_append_cons blanks_nil hblank
  have hletter {d : Char} (hd : ¬ (d = '-' ∨ d.isDigit = true)) (h : some c = some d) : False :=
    hd (Option.some.inj h ▸ hc)
  rw [List.cons_append, skipValueStart_blanks blank hblank]
  unfold skipValueStart
  rw [bind_of_ok hbare]
  generalize hnext : some c = next
  split
  iterate 6 exact (hletter (by decide) hnext).elim
  · cases hnext
    rw [if_pos hc, ← List.cons_append, bind_of_ok hskip]
    rfl
  · cases hnext

/-- The bracket on top of the stack closes. -/
theorem skipInside_close (place : Place) (blank : Blanks w) :
    skipInside place b outer (w ++ b.closing :: s) = .ok ((.after, outer), s) := by
  unfold skipInside
  rw [bind_of_ok (peek_append_cons blank (isBlank_closing b)), if_pos rfl]
  rfl

/-- The name of a member and the colon, where the bracket asks for them. -/
theorem skipKey_append {α : Type} {a : α} (blank : Blanks w) (key : KeyText b k) (gap : Blanks v) :
    ∃ v', Blanks v' ∧ (do
      if b = .object then skipName
      return a : Reader α) (w ++ (k ++ (v ++ s))) = .ok (a, v' ++ s) := by
  cases key with
  | array =>
    refine ⟨w ++ v, blank.append gap, ?_⟩
    rw [if_neg (by decide), List.nil_append, List.append_assoc]
    rfl
  | @object q v₁ name gap₁ =>
    refine ⟨v, gap, ?_⟩
    have hname : skipName (w ++ '"' :: (q ++ (v₁ ++ ':' :: (v ++ s)))) = .ok ((), v ++ s) :=
      skipName_append blank name gap₁
    rw [if_pos rfl]
    simp only [List.cons_append, List.append_assoc, List.nil_append]
    rw [bind_of_ok hname]
    rfl

/-- A comma asks for the next value. -/
theorem skipInside_next (outer : List Bracket) (before : Blanks x) (blank : Blanks w)
    (key : KeyText b k) (gap : Blanks v) :
    ∃ v', Blanks v' ∧ skipInside .after b outer (x ++ ',' :: (w ++ (k ++ (v ++ s)))) =
      .ok ((.value, b :: outer), v' ++ s) := by
  obtain ⟨v', blank', hkey⟩ := skipKey_append (a := (Place.value, b :: outer)) blank key gap
  refine ⟨v', blank', ?_⟩
  have hcomma : some ',' ≠ some b.closing := fun h => closing_ne_comma b (Option.some.inj h).symm
  unfold skipInside
  rw [bind_of_ok (peek_append_cons before (by decide)), if_neg hcomma, if_neg (by decide),
    if_pos rfl, bind_of_ok advance_cons, hkey]

/-- Behind a bracket the first value is due, unless the bracket closes. -/
theorem skipInside_first {c : Char} (outer : List Bracket) (blank : Blanks w)
    (key : KeyText b k) (gap : Blanks v) (hc : isBlank c = false) (hclose : c ≠ b.closing) :
    ∃ v', Blanks v' ∧ skipInside .opened b outer (w ++ (k ++ (v ++ c :: s))) =
      .ok ((.value, b :: outer), v' ++ c :: s) := by
  have hdue {d : Char} {u : List Char} (hd : d ≠ b.closing) (hblank : isBlank d = false)
      {w : List Char} (blank : Blanks w) :
      skipInside .opened b outer (w ++ d :: u) =
        (do
          if b = .object then skipName
          return (Place.value, b :: outer) : Reader _) (d :: u) := by
    unfold skipInside
    rw [bind_of_ok (peek_append_cons blank hblank), if_neg fun h => hd (Option.some.inj h),
      if_pos rfl]
    rfl
  cases key with
  | array =>
    refine ⟨[], blanks_nil, ?_⟩
    rw [List.nil_append, ← List.append_assoc, hdue hclose hc (blank.append gap)]
    rfl
  | object name gap₁ =>
    obtain ⟨v', blank', hkey⟩ := skipKey_append (a := (Place.value, Bracket.object :: outer))
      blanks_nil (.object name gap₁) (s := c :: s) gap
    exact ⟨v', blank', (hdue (by decide) (by decide) blank).trans hkey⟩

/-- What skipping does with a part of a value: it comes behind the part in at most two steps for
each character, with the brackets open that were open in front of the value. -/
def Skipped : Part → List Char → Prop
  | .value, t => ∀ w s open?, Blanks w → Ends s → ∃ k < 2 * t.length, ∀ fuel,
      skipLoop (fuel + k) .value open? (w ++ (t ++ s)) = skipLoop fuel .after open? s
  | .inside b first, t => ∀ s outer, ∃ k ≤ 2 * t.length, ∀ fuel,
      skipLoop (fuel + k) (if first then .opened else .after) (b :: outer) (t ++ s) =
        skipLoop fuel .after outer s

/-- The start of a value is one step. -/
theorem skipLoop_value {place : Place} {open?' : List Bracket}
    (h : skipValueStart open? s = .ok ((place, open?'), t)) :
    skipLoop (fuel + 1) .value open? s = skipLoop fuel place open?' t := by
  rw [skipLoop, bind_of_ok h]
  all_goals simp

theorem skipLoop_inside (first : Bool) {place : Place} {open?' : List Bracket}
    (h : skipInside (if first then .opened else .after) b outer s = .ok ((place, open?'), t)) :
    skipLoop (fuel + 1) (if first then .opened else .after) (b :: outer) s =
      skipLoop fuel place open?' t := by
  cases first
  · exact bind_of_ok h
  · exact bind_of_ok h

/-- A value and what stands behind it are skipped one after the other. -/
theorem skipLoop_element (outer : List Bracket) (head : Skipped .value t)
    (tail : Skipped (.inside b false) u) (blank : Blanks v) (ends : ∀ s, Ends (u ++ s)) :
    ∃ k < 2 * (t.length + u.length), ∀ fuel,
      skipLoop (fuel + k) .value (b :: outer) (v ++ (t ++ (u ++ s))) =
        skipLoop fuel .after outer s := by
  obtain ⟨k₁, hk₁, h₁⟩ := head v (u ++ s) (b :: outer) blank (ends s)
  obtain ⟨k₂, hk₂, h₂⟩ := tail s outer
  refine ⟨k₂ + k₁, by omega, fun fuel => ?_⟩
  rw [← Nat.add_assoc, h₁]
  exact h₂ fuel

/-- Every value is skipped, and so is the rest of every list and object. -/
theorem skipped {p : Part} (h : JsonText p t) : Skipped p t := by
  -- A token takes one step; a value inside brackets takes one for what stands in front of it, its
  -- own steps, and those of what follows.
  induction h with
  | @word t word =>
    intro w s open? blank ends
    have hlength := (JsonText.word word).length_pos
    exact ⟨1, by omega, fun fuel => skipLoop_value (skipValueStart_word blank word)⟩
  | @numeral t numeral =>
    intro w s open? blank ends
    have hlength := (JsonText.numeral numeral).length_pos
    exact ⟨1, by omega, fun fuel => skipLoop_value (skipValueStart_numeral blank numeral ends)⟩
  | @string t string =>
    intro w s open? blank ends
    refine ⟨1, by simp only [List.length_cons]; omega, fun fuel => ?_⟩
    exact skipLoop_value (skipValueStart_string blank string)
  | @bracket b t inside ih =>
    intro w s open? blank ends
    obtain ⟨k, hk, h⟩ := ih s open?
    refine ⟨k + 1, by simp only [List.length_cons]; omega, fun fuel => ?_⟩
    rw [← Nat.add_assoc]
    exact (skipLoop_value (skipValueStart_bracket blank b)).trans (h fuel)
  | @close b first w blank =>
    intro s outer
    refine ⟨1, by simp only [List.length_append, List.length_cons]; omega, fun fuel => ?_⟩
    rw [List.append_assoc]
    exact skipLoop_inside first (skipInside_close _ blank)
  | @first b w k v t u blank key gap head tail ihhead ihtail =>
    intro s outer
    obtain ⟨c, t', rfl, hc, hclose⟩ := head.starts
    obtain ⟨v', blank', hstep⟩ := skipInside_first (s := t' ++ (u ++ s)) outer
      blank key gap hc (hclose b)
    obtain ⟨n, hn, h⟩ := skipLoop_element (s := s) outer ihhead ihtail blank'
      fun s => tail.ends
    refine ⟨n + 1, by simp only [List.length_append]; omega, fun fuel => ?_⟩
    simp only [List.append_assoc, List.cons_append] at h ⊢
    rw [← Nat.add_assoc]
    exact (skipLoop_inside true hstep).trans (h fuel)
  | @next b x w k v t u before blank key gap head tail ihhead ihtail =>
    intro s outer
    obtain ⟨v', blank', hstep⟩ := skipInside_next (s := t ++ (u ++ s)) outer
      before blank key gap
    obtain ⟨n, hn, h⟩ := skipLoop_element (s := s) outer ihhead ihtail blank'
      fun s => tail.ends
    refine ⟨n + 1, by simp only [List.length_append, List.length_cons]; omega, fun fuel => ?_⟩
    simp only [List.append_assoc, List.cons_append] at h ⊢
    rw [← Nat.add_assoc]
    exact (skipLoop_inside false hstep).trans (h fuel)

/-- Any value is skipped, and nothing of it is looked at but its form. -/
theorem reads_skipValue (h : JsonText .value t) : Reads skipValue t () where
  starts := by
    obtain ⟨c, u, rfl, hc, hclose⟩ := h.starts
    exact ⟨c, u, rfl, hc, hclose .array⟩
  eq_ok w s blank ends := by
    obtain ⟨k, hk, hloop⟩ := skipped h w s [] blank ends
    have hfuel : 2 * (w ++ (t ++ s)).length + 2 =
        (2 * (w ++ (t ++ s)).length + 2 - k) + k := by
      simp only [List.length_append]
      omega
    unfold skipValue
    rw [get_bind, hfuel, hloop]
    cases 2 * (w ++ (t ++ s)).length + 2 - k <;> rfl

end Reader

end CallMemo.Json
