import CallMemo.Cache.Policy

/-!
# Further eviction policies

Policies beside the default one. Some pick the entry that comes first or last in an order of ranks;
others spare some entries, decline to choose, or name an entry without looking, which a cache has to
cope with.
-/

namespace CallMemo

/-- How often an entry was used, then its recency. -/
def Entry.frequency (e : Entry) : Priority := ⟨e.usage.hits, e.usage.lastUsed⟩

namespace EvictionPolicy

/-- Evicts the most recently used entry; ties go to more hits, then to the higher fingerprint. -/
def mostRecentlyUsed : EvictionPolicy where
  victim? shard := (shard.toList.maxOn? fun (fp, e) => (⟨e.recency, fp.val⟩ : Rank)).map (·.1)

/-- Evicts the least often used entry; ties go to the longer unused one, then to the lower
fingerprint. -/
def leastFrequentlyUsed : EvictionPolicy where
  victim? shard := (shard.toList.minOn? fun (fp, e) => (⟨e.frequency, fp.val⟩ : Rank)).map (·.1)
  priority := Entry.frequency

/-- Evicts the entry with the highest fingerprint. -/
def highestFingerprint : EvictionPolicy where
  victim? shard := shard.maxKey?

/-- Follows a policy but never looks at entries whose fingerprints are to be spared. -/
def sparing (spared : Fingerprint → Bool) (p : EvictionPolicy) : EvictionPolicy :=
  { p with victim? := fun shard => p.victim? (shard.filter fun fp _ => !spared fp) }

/-- Never names an entry. -/
def declining : EvictionPolicy where
  victim? _ := none

/-- Names one fingerprint whenever there are entries, whether or not it is among them. -/
def naming (fp : Fingerprint) : EvictionPolicy where
  victim? shard := if shard.isEmpty then none else some fp

end EvictionPolicy

end CallMemo
