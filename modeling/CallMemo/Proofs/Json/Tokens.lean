import CallMemo.Proofs.Json.Grammar

/-!
# Strings and numerals

The readers take the strings and the numerals that the grammar allows. Of a name the strict reader
gives the characters, and of a natural number written with digits alone its value; whatever else is
written is told apart by its form only.
-/

namespace CallMemo.Json

open Text (Digits Undigited takeWhile_dropWhile_append)

variable {q s t u v w x : List Char} {name taken : List Char} {m n fuel : Nat} {strict : Bool}

/-- A name without escapes stands for itself. -/
theorem nameText_plain {name : List Char} (plain : ∀ c ∈ name, Plain c) :
    NameText (name ++ ['"']) name := by
  induction name with
  | nil => exact .close
  | cons c name ih =>
    exact .plain (plain c List.mem_cons_self) (ih fun d hd => plain d (List.mem_cons_of_mem _ hd))

namespace Reader

/-- An expected word is taken off the front. -/
theorem expect_append (cs : List Char) : expect cs (cs ++ s) = .ok ((), s) := by
  induction cs with
  | nil => rfl
  | cons c cs ih =>
    rw [expect, get_bind, List.cons_append, List.head?_cons, if_pos rfl,
      bind_of_ok advance_cons, ih]

/-- Four hexadecimal digits are read as their value. -/
theorem hexUnit_append (h : UnitText x n) : hexUnit (x ++ s) = .ok (n, s) := by
  cases h with
  | mk h₁ h₂ h₃ h₄ =>
    unfold hexUnit
    rw [get_bind]
    simp only [List.cons_append, List.nil_append, List.take_succ_cons, List.take_zero,
      List.mapM_cons, List.mapM_nil, h₁, h₂, h₃, h₄]
    rfl

/-- A unit that is no half of a surrogate pair names a character. -/
theorem codePoint_unit (h : UnitText x n) (single : ¬ High n ∧ ¬ Low n) :
    codePoint (x ++ s) = .ok (Char.ofNat n, s) := by
  obtain ⟨hhigh, hlow⟩ := single
  unfold High at hhigh
  unfold Low at hlow
  unfold codePoint
  rw [bind_of_ok (hexUnit_append h), if_neg (by omega), if_pos (by omega)]
  rfl

/-- Two units that form a surrogate pair name a character. -/
theorem codePoint_pair {y : List Char} (hm : UnitText x m) (high : High m) (hn : UnitText y n)
    (low : Low n) :
    codePoint (x ++ '\\' :: 'u' :: (y ++ s)) =
      .ok (Char.ofNat ((m - 0xD800) * 0x400 + (n - 0xDC00) + 0x10000), s) := by
  unfold High at high
  unfold Low at low
  have hexpect : expect ['\\', 'u'] ('\\' :: 'u' :: (y ++ s)) = .ok ((), y ++ s) :=
    expect_append ['\\', 'u']
  unfold codePoint
  rw [bind_of_ok (hexUnit_append hm), if_neg (by omega), if_neg (by omega), bind_of_ok hexpect,
    bind_of_ok (hexUnit_append hn), if_pos (by omega)]
  rfl

theorem quotedLoop_plain {c : Char} (plain : Plain c) :
    quotedLoop strict (fuel + 1) taken (c :: s) = quotedLoop strict fuel (c :: taken) s := by
  obtain ⟨hquote, hescape, hcontrol⟩ := plain
  rw [quotedLoop, get_bind, List.head?_cons]
  generalize hnext : some c = next
  split
  · cases hnext
  · exact absurd (Option.some.inj hnext) hquote
  · exact absurd (Option.some.inj hnext) hescape
  · cases hnext
    rw [if_neg (Nat.not_lt.mpr hcontrol), bind_of_ok advance_cons]

/-- An escape is read by its own reader. -/
theorem quotedLoop_escape {c : Char} (h : escape strict t = .ok (c, s)) :
    quotedLoop strict (fuel + 1) taken ('\\' :: t) = quotedLoop strict fuel (c :: taken) s := by
  have hloop : quotedLoop strict (fuel + 1) taken ('\\' :: t) =
      (advance >>= fun _ => escape strict >>= fun c => quotedLoop strict fuel (c :: taken))
        ('\\' :: t) := rfl
  rw [hloop, bind_of_ok advance_cons, bind_of_ok h]

/-- A letter behind the backslash names a character. -/
theorem escape_letter {c d : Char} (letter : unescape? c = some d) :
    escape strict (c :: s) = .ok (d, s) := by
  have hu : c ≠ 'u' := by
    rintro rfl
    cases letter
  unfold escape
  rw [get_bind, List.head?_cons]
  generalize hnext : some c = next
  split
  · cases hnext
  · exact absurd (Option.some.inj hnext) hu
  · cases hnext
    simp only [letter]
    rfl

theorem escape_unit (h : UnitText x n) : escape false ('u' :: (x ++ s)) = .ok ('\x00', s) := by
  have hescape : escape false ('u' :: (x ++ s)) =
      (advance >>= fun _ => hexUnit >>= fun _ => pure '\x00') ('u' :: (x ++ s)) := rfl
  rw [hescape, bind_of_ok advance_cons, bind_of_ok (hexUnit_append h)]
  rfl

theorem escape_codePoint {c : Char} (h : codePoint t = .ok (c, s)) :
    escape true ('u' :: t) = .ok (c, s) := by
  have hescape : escape true ('u' :: t) = (advance >>= fun _ => codePoint) ('u' :: t) := rfl
  rw [hescape, bind_of_ok advance_cons, h]

/-- A name is read as the characters that it stands for. -/
theorem quotedLoop_name (h : NameText q name) (hfuel : q.length ≤ fuel) :
    quotedLoop true fuel taken (q ++ s) = .ok (taken.reverse ++ name, s) := by
  induction h generalizing fuel taken with
  | close =>
    obtain ⟨fuel, rfl⟩ := Nat.exists_eq_add_of_le' hfuel
    rw [List.append_nil]
    rfl
  | @plain c t cs plain tail ih =>
    obtain ⟨fuel, rfl⟩ := Nat.exists_eq_add_of_le' (Nat.le_trans (Nat.le_add_left 1 _) hfuel)
    rw [List.cons_append, quotedLoop_plain plain, ih (Nat.le_of_succ_le_succ hfuel),
      List.reverse_cons, List.append_assoc, List.singleton_append]
  | @escape c d t cs letter tail ih =>
    obtain ⟨fuel, rfl⟩ := Nat.exists_eq_add_of_le' (Nat.le_trans (Nat.le_add_left 1 _) hfuel)
    have htail : t.length ≤ fuel := by
      simp only [List.length_cons] at hfuel
      omega
    rw [List.cons_append, List.cons_append, quotedLoop_escape (escape_letter letter), ih htail,
      List.reverse_cons, List.append_assoc, List.singleton_append]
  | @unit x n t cs unit single tail ih =>
    obtain ⟨fuel, rfl⟩ := Nat.exists_eq_add_of_le' (Nat.le_trans (Nat.le_add_left 1 _) hfuel)
    have htail : t.length ≤ fuel := by
      simp only [List.length_cons, List.length_append] at hfuel
      omega
    have hescape := escape_codePoint (codePoint_unit (s := t ++ s) unit single)
    rw [List.cons_append, List.cons_append, List.append_assoc, quotedLoop_escape hescape, ih htail,
      List.reverse_cons, List.append_assoc, List.singleton_append]
  | @pair x y m n t cs first high second low tail ih =>
    obtain ⟨fuel, rfl⟩ := Nat.exists_eq_add_of_le' (Nat.le_trans (Nat.le_add_left 1 _) hfuel)
    have htail : t.length ≤ fuel := by
      simp only [List.length_cons, List.length_append] at hfuel
      omega
    have hescape := escape_codePoint (codePoint_pair (s := t ++ s) first high second low)
    simp only [List.cons_append, List.append_assoc]
    rw [quotedLoop_escape hescape, ih htail, List.reverse_cons, List.append_assoc,
      List.singleton_append]

/-- The strict reader gives the characters that a string stands for. -/
theorem quoted_name (h : NameText q name) : quoted true (q ++ s) = .ok (name, s) := by
  unfold quoted
  rw [get_bind, quotedLoop_name h (by simp only [List.length_append]; omega)]
  rfl

/-- Any string is skipped up to its closing quote. -/
theorem quotedLoop_string (h : StringText q) (hfuel : q.length ≤ fuel) :
    ∃ cs, quotedLoop false fuel taken (q ++ s) = .ok (cs, s) := by
  induction h generalizing fuel taken with
  | close =>
    obtain ⟨fuel, rfl⟩ := Nat.exists_eq_add_of_le' hfuel
    exact ⟨_, rfl⟩
  | plain plain tail ih =>
    obtain ⟨fuel, rfl⟩ := Nat.exists_eq_add_of_le' (Nat.le_trans (Nat.le_add_left 1 _) hfuel)
    rw [List.cons_append, quotedLoop_plain plain]
    exact ih (Nat.le_of_succ_le_succ hfuel)
  | escape letter tail ih =>
    obtain ⟨fuel, rfl⟩ := Nat.exists_eq_add_of_le' (Nat.le_trans (Nat.le_add_left 1 _) hfuel)
    rw [List.cons_append, List.cons_append, quotedLoop_escape (escape_letter letter)]
    refine ih ?_
    simp only [List.length_cons] at hfuel
    omega
  | unit unit tail ih =>
    obtain ⟨fuel, rfl⟩ := Nat.exists_eq_add_of_le' (Nat.le_trans (Nat.le_add_left 1 _) hfuel)
    rw [List.cons_append, List.cons_append, List.append_assoc, quotedLoop_escape (escape_unit unit)]
    refine ih ?_
    simp only [List.length_cons, List.length_append] at hfuel
    omega

/-- A string is skipped whatever its escapes stand for. -/
theorem quoted_string (h : StringText q) : ∃ cs, quoted false (q ++ s) = .ok (cs, s) := by
  unfold quoted
  rw [get_bind]
  exact quotedLoop_string h (by simp only [List.length_append]; omega)

theorem colon_append (gap : Blanks v) : colon (v ++ ':' :: s) = .ok ((), s) := by
  unfold colon
  rw [bind_of_ok (peek_append_cons gap (by decide))]
  rfl

/-- A run of digits is taken as a whole. -/
theorem digits_append {ds : List Char} (hds : Digits ds) (stop : Undigited s) :
    digits (ds ++ s) = .ok (ds, s) := by
  obtain ⟨hne, hall⟩ := hds
  obtain ⟨htake, hdrop⟩ := takeWhile_dropWhile_append hall stop
  unfold digits
  rw [get_bind, set_bind, htake, hdrop]
  cases ds with
  | nil => exact absurd rfl hne
  | cons c ds => rfl

/-- No fraction follows. -/
theorem fraction_of_ne (hpoint : s.head? ≠ some '.') : fraction s = .ok (none, s) := by
  unfold fraction
  rw [get_bind, if_neg hpoint]
  rfl

/-- No exponent follows. -/
theorem exponent_of_ends (ends : Ends s) : exponent s = .ok (none, s) := by
  have hsmall : s.head? ≠ some 'e' := fun h => (ends 'e' h).2.2.1 rfl
  have hcapital : s.head? ≠ some 'E' := fun h => (ends 'E' h).2.2.2 rfl
  unfold exponent
  rw [get_bind]
  generalize s.head? = next at hsmall hcapital
  split
  · exact absurd rfl hsmall
  · exact absurd rfl hcapital
  · rfl

theorem undigited_of_ends (ends : Ends s) : Undigited s := fun c hc => (ends c hc).1

/-- Neither a digit nor a point goes on where an exponent may stand. -/
theorem stop_exponent {e : List Char} {k : Int} (h : Binary64.ExponentText e k) (ends : Ends s) :
    Undigited (e ++ s) ∧ (e ++ s).head? ≠ some '.' := by
  cases h with
  | absent => exact ⟨undigited_of_ends ends, fun h => (ends '.' h).2.1 rfl⟩
  | marked hmark =>
    rcases hmark with rfl | rfl <;> exact ⟨by rintro _ ⟨⟩; rfl, by simp⟩

/-- The rest of an exponent behind its mark. -/
def exponentDigits : Reader (Option (Bool × List Char)) := do
  match (← get).head? with
  | some '-' =>
    advance
    return some (true, ← digits)
  | some '+' =>
    advance
    return some (false, ← digits)
  | _ => return some (false, ← digits)

theorem exponent_cons {mark : Char} (hmark : mark = 'e' ∨ mark = 'E') :
    exponent (mark :: s) = exponentDigits s := by
  rcases hmark with rfl | rfl <;> rfl

/-- The digits of an exponent are taken up to the end of the numeral. -/
theorem exponentDigits_append {sign ds : List Char} {negative : Bool}
    (hsign : Binary64.SignText sign negative) (hds : Digits ds) (ends : Ends s) :
    exponentDigits (sign ++ (ds ++ s)) = .ok (some (negative, ds), s) := by
  have hdigits : digits (ds ++ s) = .ok (ds, s) := digits_append hds (undigited_of_ends ends)
  cases hsign with
  | absent =>
    obtain ⟨c, cs, rfl⟩ := List.exists_cons_of_ne_nil hds.1
    have hc : c.isDigit = true := hds.2 c List.mem_cons_self
    unfold exponentDigits
    rw [List.nil_append, get_bind, List.cons_append, List.head?_cons]
    generalize hnext : some c = next
    split
    · cases hnext
      cases hc
    · cases hnext
      cases hc
    · rw [← List.cons_append, bind_of_ok hdigits]
      rfl
  | plus =>
    have hread : exponentDigits ('+' :: (ds ++ s)) =
        (advance >>= fun _ => digits >>= fun ds => pure (some (false, ds)))
          ('+' :: (ds ++ s)) := rfl
    rw [List.singleton_append, hread, bind_of_ok advance_cons, bind_of_ok hdigits]
    rfl
  | minus =>
    have hread : exponentDigits ('-' :: (ds ++ s)) =
        (advance >>= fun _ => digits >>= fun ds => pure (some (true, ds)))
          ('-' :: (ds ++ s)) := rfl
    rw [List.singleton_append, hread, bind_of_ok advance_cons, bind_of_ok hdigits]
    rfl

/-- An exponent, or none, is taken off the front. -/
theorem exponent_append {e : List Char} {k : Int} (h : Binary64.ExponentText e k) (ends : Ends s) :
    ∃ o, exponent (e ++ s) = .ok (o, s) := by
  cases h with
  | absent => exact ⟨_, exponent_of_ends ends⟩
  | marked hmark hsign digits =>
    rw [List.cons_append, List.append_assoc, exponent_cons hmark]
    exact ⟨_, exponentDigits_append hsign digits ends⟩

/-- A fraction, or none, is taken off the front. -/
theorem fraction_append {f : List Char} (h : FractionText f)
    (stop : Undigited s ∧ s.head? ≠ some '.') : ∃ o, fraction (f ++ s) = .ok (o, s) := by
  cases h with
  | absent => exact ⟨none, fraction_of_ne stop.2⟩
  | @digits ds hds =>
    have hread : fraction ('.' :: (ds ++ s)) =
        (advance >>= fun _ => digits >>= fun ds => pure (some ds)) ('.' :: (ds ++ s)) := rfl
    refine ⟨some ds, ?_⟩
    rw [List.cons_append, hread, bind_of_ok advance_cons, bind_of_ok (digits_append hds stop.1)]
    rfl

/-- What stands behind the whole digits of a numeral is no digit. -/
theorem stop_fraction {e f : List Char} {k : Int} (hf : FractionText f)
    (he : Binary64.ExponentText e k) (ends : Ends s) : Undigited (f ++ (e ++ s)) := by
  cases hf with
  | absent => exact (stop_exponent he ends).1
  | digits =>
    rintro _ ⟨⟩
    rfl

/-- The parts of a numeral behind its sign. -/
def unsignedNumeral (negative : Bool) : Reader Numeral := do
  let whole ← digits
  if whole.head? = some '0' ∧ whole.length ≠ 1 then throw .malformed
  let fraction ← fraction
  let exponent ← exponent
  return { negative, whole, fraction, exponent }

theorem numeral_of_digits {ds : List Char} (hds : Digits ds) :
    numeral (ds ++ s) = unsignedNumeral false (ds ++ s) := by
  have hsign : ((ds ++ s).head? == some '-') = false := by
    obtain ⟨c, cs, rfl⟩ := List.exists_cons_of_ne_nil hds.1
    rw [List.cons_append, List.head?_cons, beq_eq_false_iff_ne]
    rintro ⟨⟩
    cases hds.2 '-' List.mem_cons_self
  unfold numeral
  rw [get_bind]
  simp only [hsign, Bool.false_eq_true, if_false]
  rfl

/-- The whole digits are taken first. -/
theorem unsignedNumeral_whole {ds : List Char} (negative : Bool) (whole : WholeText ds)
    (stop : Undigited s) :
    unsignedNumeral negative (ds ++ s) =
      (fraction >>= fun f => exponent >>= fun e => pure ⟨negative, ds, f, e⟩) s := by
  unfold unsignedNumeral
  rw [bind_of_ok (digits_append whole.digits stop), if_neg fun h => h.2 (whole.single h.1)]

/-- A numeral of the grammar is taken as a whole. -/
theorem unsignedNumeral_append {ds e f : List Char} {k : Int} (negative : Bool)
    (whole : WholeText ds) (hf : FractionText f) (he : Binary64.ExponentText e k) (ends : Ends s) :
    ∃ n, unsignedNumeral negative (ds ++ (f ++ (e ++ s))) = .ok (n, s) := by
  obtain ⟨o, ho⟩ := fraction_append hf (stop_exponent he ends)
  obtain ⟨p, hp⟩ := exponent_append he ends
  refine ⟨⟨negative, ds, o, p⟩, ?_⟩
  rw [unsignedNumeral_whole negative whole (stop_fraction hf he ends), bind_of_ok ho, bind_of_ok hp]
  rfl

/-- A numeral is taken as a whole. -/
theorem numeral_text (h : NumeralText t) (ends : Ends s) : ∃ n, numeral (t ++ s) = .ok (n, s) := by
  cases h with
  | positive whole hf he =>
    simp only [List.append_assoc]
    rw [numeral_of_digits whole.digits]
    exact unsignedNumeral_append false whole hf he ends
  | @negative ds f e k whole hf he =>
    have hread : numeral ('-' :: (ds ++ (f ++ (e ++ s)))) =
        (advance >>= fun _ => unsignedNumeral true) ('-' :: (ds ++ (f ++ (e ++ s)))) := rfl
    simp only [List.cons_append, List.append_assoc]
    rw [hread, bind_of_ok advance_cons]
    exact unsignedNumeral_append true whole hf he ends

/-- Whole digits are a numeral of their own. -/
theorem numeral_whole {ds : List Char} (whole : WholeText ds) (ends : Ends s) :
    numeral (ds ++ s) = .ok (⟨false, ds, none, none⟩, s) := by
  rw [numeral_of_digits whole.digits, unsignedNumeral_whole false whole (undigited_of_ends ends),
    bind_of_ok (fraction_of_ne fun h => (ends '.' h).2.1 rfl), bind_of_ok (exponent_of_ends ends)]
  rfl

/-- A natural number below the limit is read. -/
theorem reads_nat_text {limit : Nat} (h : NaturalText t n) (hn : n < limit) :
    Reads (nat limit) t n := by
  obtain ⟨whole, rfl⟩ := h
  obtain ⟨c, cs, rfl⟩ := List.exists_cons_of_ne_nil whole.digits.1
  have hc : c.isDigit = true := whole.digits.2 c List.mem_cons_self
  refine ⟨⟨c, cs, rfl, isBlank_of_isDigit hc, ?_⟩, fun w s blank ends => ?_⟩
  · rintro rfl
    cases hc
  · have hnumber : atNumber (w ++ (c :: cs ++ s)) = .ok (true, c :: cs ++ s) := by
      rw [List.cons_append]
      unfold atNumber
      rw [bind_of_ok (peek_append_cons blank (isBlank_of_isDigit hc))]
      simp only [hc, Bool.or_true]
      rfl
    have hvalue : (⟨false, c :: cs, none, none⟩ : Numeral).toNat? =
        some (Text.decimal (c :: cs)) := by
      simp [Numeral.toNat?, Binary64.digitsValue_eq]
    unfold nat
    rw [bind_of_ok hnumber, if_pos rfl, bind_of_ok (numeral_whole whole ends), hvalue]
    simp only [if_pos hn]
    rfl

/-- A word is read as its number. -/
theorem reads_uint64_text {n : UInt64} (h : NaturalText t n.toNat) : Reads uint64 t n := by
  have hword := (reads_nat_text h n.toNat_lt).map Nat.toUInt64
  rwa [Nat.toUInt64, UInt64.ofNat_toNat] at hword

theorem reads_uint16_text {n : UInt16} (h : NaturalText t n.toNat) : Reads uint16 t n := by
  have hword := (reads_nat_text h n.toNat_lt).map Nat.toUInt16
  rwa [Nat.toUInt16, UInt16.ofNat_toNat] at hword

end Reader

/-- The digits of a positive number do not start with a zero. -/
theorem head?_toDigits_ne {n : Nat} (hn : 0 < n) : (Nat.toDigits 10 n).head? ≠ some '0' := by
  induction n using Nat.strongRecOn with
  | ind n ih =>
    rcases Nat.lt_or_ge n 10 with hlt | hge
    · have hdigit : ∀ d < 10, 0 < d → [d.digitChar].head? ≠ some '0' := by decide
      rw [Nat.toDigits_of_lt_base hlt]
      exact hdigit n hlt hn
    · have hne : Nat.toDigits 10 (n / 10) ≠ [] := Nat.toDigits_ne_nil
      obtain ⟨c, cs, hcs⟩ := List.exists_cons_of_ne_nil hne
      have hhigh := ih (n / 10) (by omega) (by omega)
      rw [hcs] at hhigh
      rw [Nat.toDigits_of_base_le (by decide) hge, hcs]
      exact hhigh

/-- Only the number zero is written with a leading zero. -/
theorem length_toDigits_of_head? {n : Nat} (h : (Nat.toDigits 10 n).head? = some '0') :
    (Nat.toDigits 10 n).length = 1 := by
  rcases Nat.eq_zero_or_pos n with rfl | hn
  · rfl
  · exact absurd h (head?_toDigits_ne hn)

theorem digitsValue_toDigits (n : Nat) : Binary64.digitsValue (Nat.toDigits 10 n) = n :=
  Nat.ofDigitChars_eq_foldl.symm.trans Nat.ofDigitChars_ten_toDigits

theorem isDigit_of_mem_toDigits {n : Nat} : ∀ c ∈ Nat.toDigits 10 n, c.isDigit = true :=
  fun _ => Nat.isDigit_of_mem_toDigits (by decide) (by decide)

/-- Numbers are written with their digits. -/
theorem naturalText_toString (n : Nat) : NaturalText (toString n).toList n := by
  have htext : (toString n).toList = Nat.toDigits 10 n := by
    rw [Nat.toString_eq_ofList_toDigits, String.toList_ofList]
  rw [htext]
  exact {
    digits := ⟨Nat.toDigits_ne_nil, isDigit_of_mem_toDigits⟩
    single := length_toDigits_of_head?
    value := by rw [← Binary64.digitsValue_eq, digitsValue_toDigits] }

end CallMemo.Json
