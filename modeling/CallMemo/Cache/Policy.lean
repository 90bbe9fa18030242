import CallMemo.Cache.Entry

/-!
# Eviction policies

A policy picks the entry of a full shard that gives way, and ranks the candidates of different
shards by a priority, the lowest first. Ranks are compared number by number.
-/

namespace CallMemo

/-- The standing of an entry among the candidates of different shards. -/
structure Priority where
  /-- Compared first. -/
  major : UInt64
  /-- Compared among equals. -/
  minor : UInt64
  deriving DecidableEq, Repr

namespace Priority

instance : LT Priority where
  lt p q := p.major < q.major ∨ p.major = q.major ∧ p.minor < q.minor

instance (p q : Priority) : Decidable (p < q) := inferInstanceAs (Decidable (_ ∨ _))

end Priority

/-- A priority and a name that tells candidates of equal priority apart. -/
structure Rank where
  /-- Compared first. -/
  priority : Priority
  /-- Compared among equals. -/
  name : UInt64
  deriving DecidableEq, Repr

namespace Rank

instance : LT Rank where
  lt a b := a.priority < b.priority ∨ a.priority = b.priority ∧ a.name < b.name

instance (a b : Rank) : Decidable (a < b) := inferInstanceAs (Decidable (_ ∨ _))

instance : LE Rank where
  le a b := ¬ b < a

instance (a b : Rank) : Decidable (a ≤ b) := inferInstanceAs (Decidable (¬ _))

end Rank

/-- Recency, then the number of hits. -/
def Entry.recency (e : Entry) : Priority := ⟨e.usage.lastUsed, e.usage.hits⟩

/-- A choice of victims. -/
structure EvictionPolicy where
  /-- The entry of a shard that gives way, if the policy names one. -/
  victim? : Shard → Option Fingerprint
  /-- The standing of an entry among the victims of different shards. -/
  priority : Entry → Priority := Entry.recency

namespace EvictionPolicy

/-- Evicts the least recently used entry; ties go to fewer hits, then to the lower fingerprint. -/
def leastRecentlyUsed : EvictionPolicy where
  victim? shard := (shard.toList.minOn? fun (fp, e) => (⟨e.recency, fp.val⟩ : Rank)).map (·.1)

end EvictionPolicy

end CallMemo
