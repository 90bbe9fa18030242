import CallMemo.Binary64.Literal
import CallMemo.Proofs.Text.Literal

/-!
# The forms of a floating-point literal

A literal is an optional sign in front of a word for infinity or for no number, in any case, or in
front of digits with an optional point among them and an optional exponent behind them. The reader
takes exactly the texts of these forms. Their value is the decimal number rounded once.
-/

namespace CallMemo.Binary64

open Text (decimal Digits Undigited takeWhile_dropWhile_append)

/-- An optional sign, and whether it is a minus sign. -/
inductive SignText : List Char → Bool → Prop
  | absent : SignText [] false
  | plus : SignText ['+'] false
  | minus : SignText ['-'] true

/-- The digits before and behind an optional point; one of them is enough. -/
inductive MantissaText : List Char → List Char → List Char → Prop
  | whole {ds} (digits : Digits ds) : MantissaText ds ds []
  | pointed {ds fs} (digits : Digits (ds ++ fs)) : MantissaText (ds ++ '.' :: fs) ds fs

/-- An optional exponent. -/
inductive ExponentText : List Char → Int → Prop
  | absent : ExponentText [] 0
  | marked {mark sign negative ds} (hmark : mark = 'e' ∨ mark = 'E')
      (hsign : SignText sign negative) (digits : Digits ds) :
      ExponentText (mark :: (sign ++ ds)) (if negative then -(decimal ds : Int) else decimal ds)

/-- The text of a floating-point number. -/
inductive LiteralText : List Char → Binary64 → Prop
  | infinity {sign negative word} (hsign : SignText sign negative)
      (hword : word.map Char.toLower = "inf".toList ∨ word.map Char.toLower = "infinity".toList) :
      LiteralText (sign ++ word) (infinity negative)
  | nan {sign negative word} (hsign : SignText sign negative)
      (hword : word.map Char.toLower = "nan".toList) :
      LiteralText (sign ++ word) (if negative then ⟨0xFFF8000000000000⟩ else nan)
  | number {sign negative mantissa ds fs exponent k} (hsign : SignText sign negative)
      (hmantissa : MantissaText mantissa ds fs) (hexponent : ExponentText exponent k) :
      LiteralText (sign ++ (mantissa ++ exponent))
        (ofDecimal negative (decimal (ds ++ fs)) (k - fs.length))

variable {cs ds fs mantissa exponent sign body : List Char} {negative : Bool} {k : Int}
  {x : Binary64}

/-- The reader folds digits to the number that they write in base ten. -/
theorem digitsValue_eq (ds : List Char) : digitsValue ds = decimal ds := by
  have hfold : ∀ n, ds.foldl (fun n c => 10 * n + Text.digitValue c) n =
      n * 10 ^ ds.length + decimal ds := by
    induction ds with
    | nil => simp [decimal]
    | cons c ds ih =>
      intro n
      rw [List.foldl_cons, ih, Text.decimal_cons, List.length_cons]
      ring
  rw [digitsValue, hfold, Nat.zero_mul, Nat.zero_add]

/-- A sign does not start what stands behind it. -/
def Unsigned (cs : List Char) : Prop := ∀ c ∈ cs.head?, c ≠ '+' ∧ c ≠ '-'

/-- A sign in front of a text without one is split off. -/
theorem splitSign_append (hsign : SignText sign negative) (hbody : Unsigned body) :
    splitSign (sign ++ body) = (negative, body) := by
  cases hsign with
  | absent =>
    rw [List.nil_append]
    unfold splitSign
    split
    · exact absurd rfl (hbody _ rfl).2
    · exact absurd rfl (hbody _ rfl).1
    · rfl
  | plus => rfl
  | minus => rfl

/-- What is split off is a sign, and with the rest it makes up the text. -/
theorem signText_splitSign (cs : List Char) :
    ∃ sign, SignText sign (splitSign cs).1 ∧ cs = sign ++ (splitSign cs).2 := by
  unfold splitSign
  split
  · exact ⟨_, .minus, rfl⟩
  · exact ⟨_, .plus, rfl⟩
  · exact ⟨_, .absent, rfl⟩

/-- Digits do not start with a sign. -/
theorem unsigned_of_isDigit {c : Char} (hc : c.isDigit = true) : Unsigned (c :: cs) := by
  rintro _ ⟨⟩
  constructor <;> (rintro rfl; cases hc)

theorem unsigned_of_digits (h : Digits ds) : Unsigned ds := by
  obtain ⟨hne, hall⟩ := h
  obtain ⟨c, ds, rfl⟩ := List.exists_cons_of_ne_nil hne
  exact unsigned_of_isDigit (hall c List.mem_cons_self)

/-- The reader takes exactly the exponents of the grammar, each for its value. -/
theorem readExponent?_eq_some_iff : readExponent? cs = some k ↔ ExponentText cs k := by
  constructor
  · intro h
    cases cs with
    | nil =>
      obtain rfl := Option.some.inj h
      exact .absent
    | cons mark cs =>
      obtain ⟨sign, hsign, hcs⟩ := signText_splitSign cs
      rw [readExponent?] at h
      generalize splitSign cs = split at h hsign hcs
      obtain ⟨negative, ds⟩ := split
      simp only [Option.ite_none_right_eq_some, digitsValue_eq] at h
      obtain ⟨⟨hmark, hne, hall⟩, hk⟩ := h
      subst hcs
      rw [← Option.some.inj hk]
      exact .marked hmark hsign ⟨hne, by simpa using hall⟩
  · intro h
    cases h with
    | absent => rfl
    | @marked mark sign negative ds hmark hsign digits =>
      rw [readExponent?, splitSign_append hsign (unsigned_of_digits digits)]
      simp only [digitsValue_eq]
      rw [if_pos ⟨hmark, digits.1, by simpa using digits.2⟩]

/-- An exponent starts neither with a digit nor with a point. -/
theorem ExponentText.head (h : ExponentText exponent k) :
    Undigited exponent ∧ exponent.head? ≠ some '.' := by
  cases h with
  | absent => exact ⟨by rintro _ ⟨⟩, by simp⟩
  | marked hmark hsign digits =>
    rcases hmark with rfl | rfl <;> exact ⟨by rintro _ ⟨⟩; rfl, by simp⟩

/-- The digits behind a point, if there is one, and what follows. -/
def splitFraction : List Char → List Char × List Char
  | '.' :: rest => (rest.takeWhile Char.isDigit, rest.dropWhile Char.isDigit)
  | rest => ([], rest)

/-- Without a point there is no fraction. -/
theorem splitFraction_of_ne (h : cs.head? ≠ some '.') : splitFraction cs = ([], cs) := by
  unfold splitFraction
  split
  · exact absurd rfl h
  · rfl

/-- The reader splits the text at the first character that is no digit, and at the point. -/
theorem readDigits?_split :
    readDigits? negative cs = some x ↔
      cs.takeWhile Char.isDigit ++ (splitFraction (cs.dropWhile Char.isDigit)).1 ≠ [] ∧
        ∃ k, readExponent? (splitFraction (cs.dropWhile Char.isDigit)).2 = some k ∧
          ofDecimal negative
            (digitsValue
              (cs.takeWhile Char.isDigit ++ (splitFraction (cs.dropWhile Char.isDigit)).1))
            (k - (splitFraction (cs.dropWhile Char.isDigit)).1.length) = x := by
  have hread : readDigits? negative cs = (do
      let split := splitFraction (cs.dropWhile Char.isDigit)
      guard (cs.takeWhile Char.isDigit ++ split.1 ≠ [])
      let k ← readExponent? split.2
      return ofDecimal negative (digitsValue (cs.takeWhile Char.isDigit ++ split.1))
        (k - split.1.length)) := rfl
  rw [hread]
  simp only [guard]
  split <;> simp_all [Option.bind_eq_some_iff]

/-- What is read is digits with an optional point in front of an optional exponent. -/
theorem readDigits?_eq_some_iff :
    readDigits? negative cs = some x ↔
      ∃ mantissa ds fs exponent k, cs = mantissa ++ exponent ∧ MantissaText mantissa ds fs ∧
        ExponentText exponent k ∧ ofDecimal negative (decimal (ds ++ fs)) (k - fs.length) = x := by
  rw [readDigits?_split]
  simp only [digitsValue_eq, readExponent?_eq_some_iff]
  constructor
  · rintro ⟨hne, k, hexponent, hx⟩
    have hcs : cs = cs.takeWhile Char.isDigit ++ cs.dropWhile Char.isDigit :=
      List.takeWhile_append_dropWhile.symm
    have hds : ∀ c ∈ cs.takeWhile Char.isDigit, c.isDigit = true :=
      fun c hc => List.mem_takeWhile_imp hc
    generalize cs.takeWhile Char.isDigit = ds at hne hexponent hx hcs hds
    generalize cs.dropWhile Char.isDigit = rest at hne hexponent hx hcs
    by_cases hpoint : rest.head? = some '.'
    · obtain ⟨rest, rfl⟩ := List.head?_eq_some_iff.mp hpoint
      have hfs : ∀ c ∈ rest.takeWhile Char.isDigit, c.isDigit = true :=
        fun c hc => List.mem_takeWhile_imp hc
      refine ⟨ds ++ '.' :: rest.takeWhile Char.isDigit, ds, rest.takeWhile Char.isDigit,
        rest.dropWhile Char.isDigit, k, ?_, .pointed ⟨hne, ?_⟩, hexponent, hx⟩
      · rw [hcs, List.append_assoc, List.cons_append, List.takeWhile_append_dropWhile]
      · exact fun c hc => (List.mem_append.mp hc).elim (hds c) (hfs c)
    · rw [splitFraction_of_ne hpoint] at hne hexponent hx
      exact ⟨ds, ds, [], rest, k, hcs, .whole ⟨by simpa using hne, hds⟩, hexponent, hx⟩
  · rintro ⟨mantissa, ds, fs, exponent, k, rfl, hmantissa, hexponent, hx⟩
    obtain ⟨hundigited, hpoint⟩ := hexponent.head
    cases hmantissa with
    | whole digits =>
      obtain ⟨htake, hdrop⟩ := takeWhile_dropWhile_append digits.2 hundigited
      rw [htake, hdrop, splitFraction_of_ne hpoint]
      exact ⟨by simpa using digits.1, k, hexponent, hx⟩
    | pointed digits =>
      have hds : ∀ c ∈ ds, c.isDigit = true := fun c hc => digits.2 c (List.mem_append_left _ hc)
      have hfs : ∀ c ∈ fs, c.isDigit = true := fun c hc => digits.2 c (List.mem_append_right _ hc)
      have hrest : Undigited ('.' :: (fs ++ exponent)) := by
        rintro _ ⟨⟩
        rfl
      obtain ⟨htake, hdrop⟩ := takeWhile_dropWhile_append hds hrest
      obtain ⟨htake', hdrop'⟩ := takeWhile_dropWhile_append hfs hundigited
      rw [List.append_assoc, List.cons_append, htake, hdrop, splitFraction, htake', hdrop']
      exact ⟨digits.1, k, hexponent, hx⟩

theorem toLower_of_isDigit {c : Char} (hc : c.isDigit = true) : c.toLower = c := by
  simp only [Char.isDigit, Bool.and_eq_true, decide_eq_true_eq] at hc
  exact dif_neg fun hletter => absurd (UInt32.le_trans hletter.1 hc.2) (by decide)

/-- Digits with a point start with a digit or with the point. -/
theorem MantissaText.exists_cons (h : MantissaText mantissa ds fs) :
    ∃ c rest, mantissa = c :: rest ∧ (c.isDigit = true ∨ c = '.') := by
  cases h with
  | whole digits =>
    obtain ⟨c, ds, rfl⟩ := List.exists_cons_of_ne_nil digits.1
    exact ⟨c, _, rfl, .inl (digits.2 c List.mem_cons_self)⟩
  | pointed digits =>
    cases ds with
    | nil => exact ⟨'.', _, rfl, .inr rfl⟩
    | cons c ds => exact ⟨c, _, rfl, .inl (digits.2 c List.mem_cons_self)⟩

/-- Digits with a point start neither with a sign nor as a word does. -/
theorem MantissaText.starts (h : MantissaText mantissa ds fs) (exponent : List Char) :
    mantissa ++ exponent ≠ [] ∧ Unsigned (mantissa ++ exponent) ∧
      ((mantissa ++ exponent).map Char.toLower).head?.any (fun c => c.isDigit || c == '.') := by
  obtain ⟨c, rest, rfl, hc | rfl⟩ := h.exists_cons
  · refine ⟨by simp, unsigned_of_isDigit hc, ?_⟩
    simp [toLower_of_isDigit hc, hc]
  · refine ⟨by simp, ?_, by simp⟩
    rintro _ ⟨⟩
    decide

/-- A word, in any case, is neither empty nor starts with a sign. -/
theorem unsigned_of_map_toLower {c : Char} {word : List Char}
    (h : body.map Char.toLower = c :: word) (hplus : '+'.toLower ≠ c) (hminus : '-'.toLower ≠ c) :
    body ≠ [] ∧ Unsigned body := by
  cases body with
  | nil => cases h
  | cons d body =>
    obtain ⟨hd, -⟩ := List.cons.inj h
    refine ⟨by simp, ?_⟩
    rintro _ ⟨⟩
    exact ⟨fun heq => hplus (heq ▸ hd), fun heq => hminus (heq ▸ hd)⟩

/-- A word is compared letter by letter, in lower case. -/
theorem ofList_map_toLower_eq_iff {word : String} :
    String.ofList (body.map Char.toLower) = word ↔ body.map Char.toLower = word.toList := by
  rw [← String.toList_inj, String.toList_ofList]

/-- How a text behind an optional sign is read. -/
theorem readLiteral_append (hsign : SignText sign negative) (hne : body ≠ [])
    (hbody : Unsigned body) :
    readLiteral (sign ++ body) =
      if body.map Char.toLower = "inf".toList ∨ body.map Char.toLower = "infinity".toList then
        .ok (infinity negative)
      else if body.map Char.toLower = "nan".toList then
        .ok (if negative then ⟨0xFFF8000000000000⟩ else nan)
      else match readDigits? negative body with
        | some x => .ok x
        | none => .error .invalid := by
  unfold readLiteral
  rw [if_neg (by simp [hne]), splitSign_append hsign hbody]
  refine if_congr (or_congr ofList_map_toLower_eq_iff ofList_map_toLower_eq_iff) rfl ?_
  exact if_congr ofList_map_toLower_eq_iff rfl rfl

/-- The reader takes exactly the texts of floating-point numbers, for their value. -/
theorem readLiteral_eq_ok_iff : readLiteral cs = .ok x ↔ LiteralText cs x := by
  constructor
  · intro h
    obtain ⟨sign, hsign, hcs⟩ := signText_splitSign cs
    unfold readLiteral at h
    split at h
    · cases h
    generalize splitSign cs = split at h hsign hcs
    obtain ⟨negative, body⟩ := split
    simp only [ofList_map_toLower_eq_iff] at h
    subst hcs
    split at h
    · next hword =>
      obtain rfl := Except.ok.inj h
      exact .infinity hsign hword
    split at h
    · next hword =>
      obtain rfl := Except.ok.inj h
      exact .nan hsign hword
    split at h
    · next hread =>
      obtain rfl := Except.ok.inj h
      obtain ⟨mantissa, ds, fs, exponent, k, rfl, hmantissa, hexponent, rfl⟩ :=
        readDigits?_eq_some_iff.mp hread
      exact .number hsign hmantissa hexponent
    · cases h
  · intro h
    cases h with
    | @infinity sign negative word hsign hword =>
      have hspelt : word ≠ [] ∧ Unsigned word := by
        rcases hword with hword | hword
        · exact unsigned_of_map_toLower hword (by decide) (by decide)
        · exact unsigned_of_map_toLower hword (by decide) (by decide)
      rw [readLiteral_append hsign hspelt.1 hspelt.2, if_pos hword]
    | nan hsign hword =>
      obtain ⟨hne, hunsigned⟩ := unsigned_of_map_toLower hword (by decide) (by decide)
      rw [readLiteral_append hsign hne hunsigned, hword, if_neg (by decide), if_pos rfl]
    | @number sign negative mantissa ds fs exponent k hsign hmantissa hexponent =>
      have hread : readDigits? negative (mantissa ++ exponent) = some _ :=
        readDigits?_eq_some_iff.mpr ⟨_, _, _, _, _, rfl, hmantissa, hexponent, rfl⟩
      obtain ⟨hne, hunsigned, hstart⟩ := hmantissa.starts exponent
      have hinf : (mantissa ++ exponent).map Char.toLower ≠ "inf".toList :=
        fun hword => absurd (hword ▸ hstart) (by decide)
      have hinfinity : (mantissa ++ exponent).map Char.toLower ≠ "infinity".toList :=
        fun hword => absurd (hword ▸ hstart) (by decide)
      have hnan : (mantissa ++ exponent).map Char.toLower ≠ "nan".toList :=
        fun hword => absurd (hword ▸ hstart) (by decide)
      rw [readLiteral_append hsign hne hunsigned, if_neg (not_or.mpr ⟨hinf, hinfinity⟩),
        if_neg hnan, hread]

end CallMemo.Binary64
