import Mathlib.Data.List.DropRight
import Mathlib.Data.Nat.Digits.Defs
import CallMemo.Text.Blank
import CallMemo.Text.Integer

/-!
# Integers between blanks

What remains of a text without the blanks at its ends, and which texts are integers. A text is an
integer below a limit if it consists of an optional plus sign and one or more digits whose value in
the decimal system is below the limit. The reader gives up at the first digit that carries the value
out of range; as later digits never make the value less, it gives up on no text that it should read,
and zeros in front do no harm.
-/

namespace CallMemo.Text

/-- The text is the core with blanks around it, and the core has no blanks at its ends. -/
structure Stripped (text core : List Char) : Prop where
  exists_eq : ∃ front back, text = front ++ (core ++ back) ∧
    (∀ c ∈ front, isBlank c = true) ∧ ∀ c ∈ back, isBlank c = true
  head : ∀ c ∈ core.head?, isBlank c = false
  last : ∀ c ∈ core.getLast?, isBlank c = false

/-- Nothing is dropped in front of a character that is not blank. -/
theorem dropWhile_isBlank_eq {cs : List Char} (h : ∀ c ∈ cs.head?, isBlank c = false) :
    cs.dropWhile isBlank = cs := by
  cases cs with
  | nil => rfl
  | cons c cs => exact List.dropWhile_cons_of_neg (by simp [h c rfl])

/-- The first character that is left is not blank. -/
theorem head?_dropWhile_isBlank (cs : List Char) :
    ∀ c ∈ (cs.dropWhile isBlank).head?, isBlank c = false := by
  intro c hc
  have h := List.head?_dropWhile_not isBlank cs
  rw [Option.mem_def.mp hc] at h
  exact h

/-- Trimming takes all blanks at both ends and nothing else. -/
theorem stripped_trimBlanks (cs : List Char) : Stripped cs (trimBlanks cs) := by
  have hends : cs = cs.takeWhile isBlank ++
      (trimBlanks cs ++ (cs.dropWhile isBlank).rtakeWhile isBlank) :=
    (List.takeWhile_append_dropWhile.symm).trans
      (congrArg _ List.rdropWhile_append_rtakeWhile.symm)
  refine ⟨⟨_, _, hends, fun c hc => List.mem_takeWhile_imp hc,
    fun c hc => List.mem_rtakeWhile_imp hc⟩, fun c hc => ?_, fun c hc => ?_⟩
  · -- the core starts where the text without its leading blanks starts
    obtain ⟨core, hcore⟩ := List.head?_eq_some_iff.mp hc
    obtain ⟨back, hback⟩ : trimBlanks cs <+: cs.dropWhile isBlank :=
      List.rdropWhile_prefix isBlank _
    refine head?_dropWhile_isBlank cs c ?_
    rw [← hback, hcore]
    rfl
  · have h := head?_dropWhile_isBlank (cs.dropWhile isBlank).reverse c
    rw [trimBlanks, List.getLast?_reverse] at hc
    exact h hc

/-- There is one way to remove the blanks at both ends. -/
theorem stripped_iff {text core : List Char} : Stripped text core ↔ trimBlanks text = core := by
  refine ⟨?_, fun h => h ▸ stripped_trimBlanks text⟩
  rintro ⟨⟨front, back, rfl, hfront, hback⟩, head, last⟩
  have hback' : ∀ c ∈ back.reverse, isBlank c = true :=
    fun c hc => hback c (List.mem_reverse.mp hc)
  have hcore : core.reverse.dropWhile isBlank = core.reverse :=
    dropWhile_isBlank_eq (by rwa [List.head?_reverse])
  rw [trimBlanks, List.dropWhile_append_of_pos hfront]
  cases core with
  | nil =>
    rw [List.nil_append, List.dropWhile_eq_nil_iff.mpr hback]
    rfl
  | cons c core =>
    have hkept : ((c :: core) ++ back).dropWhile isBlank = (c :: core) ++ back :=
      dropWhile_isBlank_eq head
    rw [hkept, List.reverse_append, List.dropWhile_append_of_pos hback', hcore,
      List.reverse_reverse]

/-- The value of a run of digits in the decimal system, the last digit counting once. -/
def decimal (ds : List Char) : Nat := Nat.ofDigits 10 (ds.reverse.map digitValue)

/-- One or more digits. -/
def Digits (ds : List Char) : Prop := ds ≠ [] ∧ ∀ c ∈ ds, c.isDigit = true

/-- An optional plus sign and digits, with their value below the limit. -/
inductive IntegerLiteral (limit : Nat) : List Char → Nat → Prop
  | bare {ds} (digits : Digits ds) (fits : decimal ds < limit) :
      IntegerLiteral limit ds (decimal ds)
  | plus {ds} (digits : Digits ds) (fits : decimal ds < limit) :
      IntegerLiteral limit ('+' :: ds) (decimal ds)

/-- No digit goes on at the front of the text. -/
def Undigited (cs : List Char) : Prop := ∀ c ∈ cs.head?, c.isDigit = false

theorem takeWhile_dropWhile_append {ds cs : List Char} (hds : ∀ c ∈ ds, c.isDigit = true)
    (hcs : Undigited cs) :
    (ds ++ cs).takeWhile Char.isDigit = ds ∧ (ds ++ cs).dropWhile Char.isDigit = cs := by
  rw [List.takeWhile_append_of_pos hds, List.dropWhile_append_of_pos hds]
  cases cs with
  | nil => simp
  | cons c cs => simp [hcs c rfl]

/-- The first digit counts for as many places as follow it. -/
theorem decimal_cons (c : Char) (ds : List Char) :
    decimal (c :: ds) = digitValue c * 10 ^ ds.length + decimal ds := by
  rw [decimal, List.reverse_cons, List.map_append, Nat.ofDigits_append, List.map_singleton,
    Nat.ofDigits_singleton, List.length_map, List.length_reverse, decimal]
  ring

variable {limit m n : Nat} {cs ds : List Char}

/-- A number with further digits behind it is read if all of them are digits and the whole number is
below the limit. -/
theorem appendDigits_eq_ok_iff (hm : m < limit) :
    appendDigits limit m ds = .ok n ↔
      (∀ c ∈ ds, c.isDigit = true) ∧ m * 10 ^ ds.length + decimal ds = n ∧ n < limit := by
  induction ds generalizing m with
  | nil =>
    have hvalue : m * 10 ^ ([] : List Char).length + decimal [] = m := by simp [decimal]
    rw [appendDigits, hvalue]
    constructor
    · rintro ⟨⟩
      exact ⟨by simp, rfl, hm⟩
    · rintro ⟨-, rfl, -⟩
      rfl
  | cons c ds ih =>
    have hvalue : m * 10 ^ (c :: ds).length + decimal (c :: ds) =
        (10 * m + digitValue c) * 10 ^ ds.length + decimal ds := by
      rw [decimal_cons, List.length_cons]
      ring
    rw [appendDigits, hvalue]
    by_cases hc : c.isDigit = true
    · rw [if_neg (by simp [hc])]
      by_cases hnext : 10 * m + digitValue c < limit
      · rw [if_pos hnext, ih hnext]
        simp [hc]
      · -- later digits only add to a number that is out of range
        have hpos : 0 < 10 ^ ds.length := Nat.pow_pos (by decide)
        have hle := Nat.le_mul_of_pos_right (10 * m + digitValue c) hpos
        rw [if_neg hnext]
        refine iff_of_false (by simp) ?_
        rintro ⟨-, rfl, hfits⟩
        omega
    · rw [if_pos (by simpa using hc)]
      exact iff_of_false (by simp) fun h => hc (h.1 c List.mem_cons_self)

/-- The reader takes exactly the integers below the limit, for their value. -/
theorem readInteger_eq_ok_iff (hlimit : 0 < limit) :
    readInteger limit cs = .ok n ↔ IntegerLiteral limit cs n := by
  have hdigits {ds : List Char} : appendDigits limit 0 ds = .ok n ↔
      (∀ c ∈ ds, c.isDigit = true) ∧ decimal ds = n ∧ n < limit := by
    rw [appendDigits_eq_ok_iff hlimit, Nat.zero_mul, Nat.zero_add]
  constructor
  · intro h
    unfold readInteger at h
    split at h
    · cases h
    · cases h
    · next ds hne =>
      obtain ⟨hall, rfl, hfits⟩ := hdigits.mp h
      exact .plus ⟨by simpa using hne, hall⟩ hfits
    · next hne _ _ =>
      obtain ⟨hall, rfl, hfits⟩ := hdigits.mp h
      exact .bare ⟨hne, hall⟩ hfits
  · rintro (⟨⟨hne, hall⟩, hfits⟩ | ⟨⟨hne, hall⟩, hfits⟩)
    · unfold readInteger
      split
      · exact absurd rfl hne
      · cases hall '+' List.mem_cons_self
      · cases hall '+' List.mem_cons_self
      · exact hdigits.mpr ⟨hall, rfl, hfits⟩
    · unfold readInteger
      split
      · next h => cases h
      · next h => exact absurd (List.cons.inj h).2 hne
      · next h =>
        obtain rfl := (List.cons.inj h).2
        exact hdigits.mpr ⟨hall, rfl, hfits⟩
      · next hplus => exact absurd rfl (hplus _)

/-- The reader takes exactly the literals below the word size. -/
theorem readUInt64_eq_ok_iff {v : UInt64} :
    readUInt64 cs = .ok v ↔ IntegerLiteral UInt64.size cs v.toNat := by
  rw [← readInteger_eq_ok_iff (by decide), readUInt64]
  cases h : readInteger UInt64.size cs with
  | error fault => simp [Except.map]
  | ok n =>
    have hfits : n < UInt64.size := by
      cases (readInteger_eq_ok_iff (by decide)).mp h <;> assumption
    simp only [Except.map, Except.ok.injEq]
    constructor
    · rintro rfl
      exact (UInt64.toNat_ofNat_of_lt hfits).symm
    · rintro rfl
      exact UInt64.ofNat_toNat

/-- Zeros in front do not count, and the last number that fits is read. -/
example : readUInt64 "+0018446744073709551615".toList = .ok 18446744073709551615 := by rfl

end CallMemo.Text
