import CallMemo.Json.Typed

/-!
# Reading written values

A reader takes a text for a value if it takes exactly that text off the front of any longer one.
Blanks may stand in front of the value, and behind it no numeral may go on.
-/

namespace CallMemo.Json

variable {α β : Type} {s s' t w : List Char}

/-- Nothing but blanks. -/
def Blanks (w : List Char) : Prop := ∀ c ∈ w, isBlank c = true

instance (w : List Char) : Decidable (Blanks w) := List.decidableBAll (isBlank · = true) w

/-- No numeral goes on at the front of the text. -/
def Ends (s : List Char) : Prop :=
  ∀ c ∈ s.head?, c.isDigit = false ∧ c ≠ '.' ∧ c ≠ 'e' ∧ c ≠ 'E'

theorem blanks_nil : Blanks [] := by simp [Blanks]

theorem Blanks.append {v : List Char} (hw : Blanks w) (hv : Blanks v) : Blanks (w ++ v) :=
  fun c hc => (List.mem_append.mp hc).elim (hw c) (hv c)

theorem ends_nil : Ends [] := by simp [Ends]

theorem isDigit_iff {c : Char} : c.isDigit = true ↔ 48 ≤ c.toNat ∧ c.toNat ≤ 57 := by
  simp [Char.isDigit, UInt32.le_iff_toNat_le]

/-- Digits are no blanks. -/
theorem isBlank_of_isDigit {c : Char} (h : c.isDigit = true) : isBlank c = false := by
  have hc := isDigit_iff.mp h
  simp only [isBlank, Bool.or_eq_false_iff, beq_eq_false_iff_ne]
  refine ⟨⟨⟨?_, ?_⟩, ?_⟩, ?_⟩ <;> rintro rfl <;> simp at hc

/-- A blank, a comma or a closing bracket ends a numeral. -/
theorem ends_cons {c : Char} (h : isBlank c = true ∨ c = ',' ∨ c = ']' ∨ c = '}') :
    Ends (c :: s) := by
  intro d hd
  obtain rfl : c = d := by simpa using hd
  rcases h with h | rfl | rfl | rfl
  · refine ⟨Bool.eq_false_iff.mpr fun hc => ?_, ?_, ?_, ?_⟩
    · cases (isBlank_of_isDigit hc).symm.trans h
    all_goals
      rintro rfl
      cases h
  · decide
  · decide
  · decide

/-- Blanks, or the end of the text, end a numeral. -/
theorem ends_of_blanks (blank : Blanks w) : Ends w := by
  cases w with
  | nil => exact ends_nil
  | cons c w => exact ends_cons (.inl (blank c List.mem_cons_self))

/-- A comma or a closing bracket ends a numeral, with blanks in front or without. -/
theorem ends_append_cons {c : Char} (blank : Blanks w) (h : c = ',' ∨ c = ']' ∨ c = '}') :
    Ends (w ++ c :: s) := by
  cases w with
  | nil => exact ends_cons (.inr h)
  | cons d w => exact ends_cons (.inl (blank d List.mem_cons_self))

/-- The reader takes the text `t` for `a`. Blanks may stand in front, and behind it no numeral may
go on. -/
structure Reads (r : Reader α) (t : List Char) (a : α) : Prop where
  /-- The text starts with a value. -/
  starts : ∃ c u, t = c :: u ∧ isBlank c = false ∧ c ≠ ']'
  /-- The reader takes all of it. -/
  eq_ok : ∀ w s, Blanks w → Ends s → r (w ++ (t ++ s)) = .ok (a, s)

namespace Reader

/-- A reader goes on where another one stops. -/
theorem bind_of_ok {r : Reader α} {k : α → Reader β} {a : α} (h : r s = .ok (a, s')) :
    (r >>= k) s = k a s' := by
  simp [bind, StateT.bind, h, Except.bind]

/-- The rest of the text is at hand. -/
theorem get_bind {k : List Char → Reader α} : (get >>= k) s = k s s := rfl

theorem set_bind {k : PUnit → Reader α} : (set s' >>= k : Reader α) s = k ⟨⟩ s' := rfl

/-- Looking ahead skips blanks only. -/
theorem peek_append_cons {c : Char} (blank : Blanks w) (hc : isBlank c = false) :
    peek (w ++ c :: s) = .ok (some c, c :: s) := by
  have h : (w ++ c :: s).dropWhile isBlank = c :: s := by
    rw [List.dropWhile_append_of_pos blank, List.dropWhile_cons_of_neg (by simp [hc])]
  change Except.ok (((w ++ c :: s).dropWhile isBlank).head?, (w ++ c :: s).dropWhile isBlank) = _
  rw [h, List.head?_cons]

theorem advance_cons {c : Char} : advance (c :: s) = .ok ((), s) := rfl

end Reader

/-- What is made of a value is read from the same text. -/
theorem Reads.map {r : Reader α} {a : α} (h : Reads r t a) (f : α → β) :
    Reads (f <$> r) t (f a) where
  starts := h.starts
  eq_ok w s blank ends := by
    rw [map_eq_pure_bind, Reader.bind_of_ok (h.eq_ok w s blank ends)]
    rfl

end CallMemo.Json
