/-!
# Post-states

The observable result of a handler: the registers it writes, in order, and the next program
counter. A later write to a register hides an earlier one.
-/

namespace CallMemo

/-- A single register write. -/
structure RegWrite where
  /-- The register written. -/
  reg : UInt16
  /-- The value it receives. -/
  value : UInt64
  deriving DecidableEq, Repr

/-- The register writes of a handler and the program counter it continues at. -/
structure PostState where
  /-- The writes in program order. -/
  writes : List RegWrite := []
  /-- The next program counter. -/
  nextPc : UInt64
  deriving DecidableEq, Repr

namespace PostState

/-- The last value written to a register, if it is written at all. -/
def valueOf (p : PostState) (r : UInt16) : Option UInt64 :=
  (p.writes.reverse.find? (·.reg == r)).map (·.value)

/-- Applies the writes to a register file; registers outside the file are left out. -/
def applyTo (p : PostState) (regs : List UInt64) : List UInt64 :=
  p.writes.foldl (fun regs w => regs.set w.reg.toNat w.value) regs

end PostState

end CallMemo
