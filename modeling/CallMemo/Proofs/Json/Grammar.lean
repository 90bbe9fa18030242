import CallMemo.Json.Skip
import CallMemo.Proofs.Binary64.Literal
import CallMemo.Proofs.Json.Reading

/-!
# The grammar of JSON texts

What is JSON is said here by rules alone, without regard to any reader: strings with their escapes,
numerals, values nested to any depth, and blanks wherever they may stand. Lists and objects whose
parts are of a particular form are built from the form of the parts. The name of a member is told by
the characters that it stands for, however they are escaped.
-/

namespace CallMemo.Json

open Text (Digits decimal)

variable {β : Type}

/-- The character stands for itself in a quoted text. -/
def Plain (c : Char) : Prop := c ≠ '"' ∧ c ≠ '\\' ∧ 0x20 ≤ c.toNat

instance (c : Char) : Decidable (Plain c) := inferInstanceAs (Decidable (_ ∧ _))

/-- Four hexadecimal digits and their value. -/
inductive UnitText : List Char → Nat → Prop
  | mk {c₁ c₂ c₃ c₄ d₁ d₂ d₃ d₄} (h₁ : Text.hexDigit? c₁ = some d₁)
      (h₂ : Text.hexDigit? c₂ = some d₂) (h₃ : Text.hexDigit? c₃ = some d₃)
      (h₄ : Text.hexDigit? c₄ = some d₄) :
      UnitText [c₁, c₂, c₃, c₄] (((d₁ * 16 + d₂) * 16 + d₃) * 16 + d₄)

/-- The rest of a string behind its opening quote. -/
inductive StringText : List Char → Prop
  | close : StringText ['"']
  | plain {c t} (plain : Plain c) (tail : StringText t) : StringText (c :: t)
  | escape {c d t} (letter : Reader.unescape? c = some d) (tail : StringText t) :
      StringText ('\\' :: c :: t)
  | unit {x n t} (unit : UnitText x n) (tail : StringText t) : StringText ('\\' :: 'u' :: (x ++ t))

/-- The code unit is the first half of a surrogate pair. -/
def High (n : Nat) : Prop := 0xD800 ≤ n ∧ n < 0xDC00

/-- The code unit is the second half of a surrogate pair. -/
def Low (n : Nat) : Prop := 0xDC00 ≤ n ∧ n ≤ 0xDFFF

instance (n : Nat) : Decidable (High n) := inferInstanceAs (Decidable (_ ∧ _))

instance (n : Nat) : Decidable (Low n) := inferInstanceAs (Decidable (_ ∧ _))

/-- The rest of a string behind its opening quote, and the characters that it stands for. Numeric
escapes name characters, alone or as a surrogate pair. -/
inductive NameText : List Char → List Char → Prop
  | close : NameText ['"'] []
  | plain {c t cs} (plain : Plain c) (tail : NameText t cs) : NameText (c :: t) (c :: cs)
  | escape {c d t cs} (letter : Reader.unescape? c = some d) (tail : NameText t cs) :
      NameText ('\\' :: c :: t) (d :: cs)
  | unit {x n t cs} (unit : UnitText x n) (single : ¬ High n ∧ ¬ Low n) (tail : NameText t cs) :
      NameText ('\\' :: 'u' :: (x ++ t)) (Char.ofNat n :: cs)
  | pair {x y m n t cs} (first : UnitText x m) (high : High m) (second : UnitText y n) (low : Low n)
      (tail : NameText t cs) :
      NameText ('\\' :: 'u' :: (x ++ '\\' :: 'u' :: (y ++ t)))
        (Char.ofNat ((m - 0xD800) * 0x400 + (n - 0xDC00) + 0x10000) :: cs)

/-- Digits of which only a single one is a leading zero. -/
structure WholeText (ds : List Char) : Prop where
  digits : Digits ds
  single : ds.head? = some '0' → ds.length = 1

/-- An optional point with digits behind it. -/
inductive FractionText : List Char → Prop
  | absent : FractionText []
  | digits {ds} (digits : Digits ds) : FractionText ('.' :: ds)

/-- A numeral. -/
inductive NumeralText : List Char → Prop
  | positive {ds f e k} (whole : WholeText ds) (fraction : FractionText f)
      (exponent : Binary64.ExponentText e k) : NumeralText (ds ++ (f ++ e))
  | negative {ds f e k} (whole : WholeText ds) (fraction : FractionText f)
      (exponent : Binary64.ExponentText e k) : NumeralText ('-' :: (ds ++ (f ++ e)))

/-- The numeral of a natural number. -/
structure NaturalText (ds : List Char) (n : Nat) : Prop extends WholeText ds where
  value : decimal ds = n

/-- The bracket that opens. -/
def Bracket.opening : Bracket → Char
  | array => '['
  | object => '{'

/-- What stands in front of a value inside a bracket: nothing, or a name and a colon. -/
inductive KeyText : Bracket → List Char → Prop
  | array : KeyText .array []
  | object {q v} (name : StringText q) (gap : Blanks v) :
      KeyText .object ('"' :: (q ++ (v ++ [':'])))

/-- What a text can be. -/
inductive Part where
  /-- A value. -/
  | value
  /-- The rest of a list or an object up to its closing bracket; `first` tells that nothing stands
  in front of it. -/
  | inside (b : Bracket) (first : Bool)

/-- The text of a value, or of the rest of one. -/
inductive JsonText : Part → List Char → Prop
  | word {t} (word : t ∈ ["null".toList, "true".toList, "false".toList]) : JsonText .value t
  | numeral {t} (numeral : NumeralText t) : JsonText .value t
  | string {t} (string : StringText t) : JsonText .value ('"' :: t)
  | bracket {b t} (inside : JsonText (.inside b true) t) : JsonText .value (b.opening :: t)
  | close {b first w} (blank : Blanks w) : JsonText (.inside b first) (w ++ [b.closing])
  | first {b w k v t u} (blank : Blanks w) (key : KeyText b k) (gap : Blanks v)
      (head : JsonText .value t) (tail : JsonText (.inside b false) u) :
      JsonText (.inside b true) (w ++ (k ++ (v ++ (t ++ u))))
  | next {b x w k v t u} (before : Blanks x) (blank : Blanks w) (key : KeyText b k) (gap : Blanks v)
      (head : JsonText .value t) (tail : JsonText (.inside b false) u) :
      JsonText (.inside b false) (x ++ ',' :: (w ++ (k ++ (v ++ (t ++ u)))))

/-- Parts of a form from some place on, with commas between them, up to the closing bracket. `first`
tells that no part stands in front of the place. -/
inductive SeparatedText (part : List Char → β → Prop) (closing : Char) :
    Bool → List Char → List β → Prop
  | close {first w} (blank : Blanks w) : SeparatedText part closing first (w ++ [closing]) []
  | first {w t u b bs} (blank : Blanks w) (head : part t b)
      (tail : SeparatedText part closing false u bs) :
      SeparatedText part closing true (w ++ (t ++ u)) (b :: bs)
  | next {v w t u b bs} (gap : Blanks v) (blank : Blanks w) (head : part t b)
      (tail : SeparatedText part closing false u bs) :
      SeparatedText part closing false (v ++ ',' :: (w ++ (t ++ u))) (b :: bs)

/-- A list whose elements are of a form. -/
inductive ArrayText (element : List Char → β → Prop) : List Char → List β → Prop
  | mk {t bs} (elements : SeparatedText element ']' true t bs) : ArrayText element ('[' :: t) bs

/-- A member: a name, a colon and a value whose form depends on the name. -/
inductive FieldText (value : List Char → List Char → β → Prop) : List Char → β → Prop
  | mk {q name v w t b} (quoted : NameText q name) (gap : Blanks v) (blank : Blanks w)
      (found : value name t b) : FieldText value ('"' :: (q ++ (v ++ ':' :: (w ++ t)))) b

/-- An object whose members have values of a form. -/
inductive ObjectText (value : List Char → List Char → β → Prop) : List Char → List β → Prop
  | mk {t bs} (members : SeparatedText (FieldText value) '}' true t bs) :
      ObjectText value ('{' :: t) bs

end CallMemo.Json
