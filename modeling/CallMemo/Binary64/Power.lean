/-!
# Powers

Powers of the two bases in which numbers are kept and written.
-/

namespace CallMemo

/-- The power of two with exponent `k`. -/
abbrev twoTo (k : Nat) : Nat := Nat.pow 2 k

/-- The power of ten with exponent `k`. -/
abbrev tenTo (k : Nat) : Nat := Nat.pow 10 k

end CallMemo
