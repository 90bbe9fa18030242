import CallMemo.Binary64.Power

/-!
# Binary64 numbers

A floating-point number is kept as its sixty-four bits. A finite one stands for the exact value
`±m * 2 ^ q`, with the natural significand `m` and the integer exponent `q` read off the bits; all
arithmetic of the library goes through these exact values.
-/

namespace CallMemo

/-- A floating-point number in the interchange format of sixty-four bits. -/
structure Binary64 where
  /-- Sign, biased exponent and fraction, from the highest bit down. -/
  bits : UInt64
  deriving DecidableEq, Repr

namespace Binary64

/-- The bits without the sign. -/
def magnitudeBits (x : Binary64) : Nat := x.bits.toNat % twoTo 63

/-- Whether the sign bit is set. -/
def isNegative (x : Binary64) : Bool := twoTo 63 ≤ x.bits.toNat

/-- The bits of infinity, the least magnitude that is no finite number. -/
def infinityBits : Nat := 2047 * twoTo 52

/-- Whether the number is neither finite nor infinite. -/
def isNaN (x : Binary64) : Bool := infinityBits < x.magnitudeBits

/-- Whether the number is infinite. -/
def isInfinite (x : Binary64) : Bool := x.magnitudeBits == infinityBits

/-- Whether the number is finite. -/
def isFinite (x : Binary64) : Bool := x.magnitudeBits < infinityBits

/-- The significand of a finite number: the fraction, with a leading one unless subnormal. -/
def significand (x : Binary64) : Nat :=
  if x.magnitudeBits < twoTo 52 then x.magnitudeBits
  else twoTo 52 + x.magnitudeBits % twoTo 52

/-- The binary exponent that belongs to the significand. -/
def exponent (x : Binary64) : Int :=
  if x.magnitudeBits < twoTo 52 then -1074 else (x.magnitudeBits / twoTo 52 : Nat) - 1075

/-- The magnitude of a finite number as a quotient of natural numbers. -/
def ratio (x : Binary64) : Nat × Nat :=
  (x.significand * twoTo x.exponent.toNat, twoTo (-x.exponent).toNat)

/-- The number with the given sign and magnitude bits. -/
def ofMagnitude (negative : Bool) (magnitude : Nat) : Binary64 :=
  ⟨((if negative then twoTo 63 else 0) + magnitude).toUInt64⟩

/-- Positive zero. -/
def zero : Binary64 := ⟨0⟩

/-- One. -/
def one : Binary64 := ⟨0x3FF0000000000000⟩

/-- One hundred. -/
def hundred : Binary64 := ⟨0x4059000000000000⟩

/-- The default value that is neither finite nor infinite. -/
def nan : Binary64 := ⟨0x7FF8000000000000⟩

/-- Infinity with the given sign. -/
def infinity (negative : Bool) : Binary64 := ofMagnitude negative infinityBits

/-- A position on the number line that orders all numbers but NaN; both zeros share it. -/
def position (x : Binary64) : Int :=
  if x.isNegative then -(x.magnitudeBits : Int) else x.magnitudeBits

/-- The order of the numbers; NaN is comparable to nothing. -/
instance : LE Binary64 where
  le x y := x.isNaN = false ∧ y.isNaN = false ∧ x.position ≤ y.position

instance (x y : Binary64) : Decidable (x ≤ y) :=
  inferInstanceAs (Decidable (_ ∧ _ ∧ _))

end Binary64

end CallMemo
