import CallMemo.Text.Hex
import Std.Data.ExtTreeMap

/-!
# Names of sites, slots and contexts

Sites and fingerprints are ordered by their numbers, so that tables keyed by them list their
entries in ascending order.
-/

namespace CallMemo

/-- The identity of a static dispatch point: an index of a handler table or an instruction
address. -/
structure SiteId where
  /-- The number that names the site. -/
  val : UInt64
  deriving DecidableEq, Repr

namespace SiteId

instance : Ord SiteId where
  compare a b := compare a.val b.val

instance : Std.TransOrd SiteId where
  eq_swap {a b} := @Std.OrientedCmp.eq_swap UInt64 compare _ a.val b.val
  isLE_trans {a b c} := @Std.TransCmp.isLE_trans UInt64 compare _ a.val b.val c.val

instance : Std.LawfulEqOrd SiteId where
  eq_of_compare {a b} h := by
    cases a; cases b
    exact congrArg _ (@Std.LawfulEqCmp.eq_of_compare UInt64 compare _ _ _ h)

instance : ToString SiteId where
  toString s := Text.hexMarked s.val.toNat

end SiteId

/-- The index of a register or flag in the state file. -/
structure Slot where
  /-- The position in the state file. -/
  val : UInt16
  deriving DecidableEq, Repr

instance : ToString Slot where
  toString s := s!"s{s.val.toNat}"

/-- The fixed-width cache key of a calling context. -/
structure Fingerprint where
  /-- The key itself. -/
  val : UInt64
  deriving DecidableEq, Repr

namespace Fingerprint

instance : Ord Fingerprint where
  compare a b := compare a.val b.val

instance : Std.TransOrd Fingerprint where
  eq_swap {a b} := @Std.OrientedCmp.eq_swap UInt64 compare _ a.val b.val
  isLE_trans {a b c} := @Std.TransCmp.isLE_trans UInt64 compare _ a.val b.val c.val

instance : Std.LawfulEqOrd Fingerprint where
  eq_of_compare {a b} h := by
    cases a; cases b
    exact congrArg _ (@Std.LawfulEqCmp.eq_of_compare UInt64 compare _ _ _ h)

instance : ToString Fingerprint where
  toString f := Text.hexPadded 16 f.val.toNat

end Fingerprint

end CallMemo
