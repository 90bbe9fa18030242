import CallMemo.Cache.Basic
import CallMemo.Log.Event

/-!
# Insertion into the cache

A new entry takes a free place if both bounds allow. In a full shard the policy's victim of that
shard gives way. When only the bound in all is reached, the lowest ranked victim of all shards
gives way: an entry elsewhere that ranks below the shard's own victim, or else that victim. A place
freed elsewhere has to be won again, so an insertion makes a bounded number of attempts.
-/

namespace CallMemo

/-- What became of an insertion. -/
inductive InsertOutcome where
  /-- The entry took a free place. -/
  | inserted
  /-- The entry took the place of one with the same fingerprint. -/
  | replaced
  /-- The entry was added after another one gave way. -/
  | evicted (site : SiteId) (fingerprint : Fingerprint)
  /-- No room could be made and nothing was recorded. -/
  | skipped
  deriving DecidableEq, Repr

namespace Cache

/-- The result of an insertion. -/
structure Insertion where
  /-- The cache afterwards. -/
  cache : Cache
  /-- What became of the entry. -/
  outcome : InsertOutcome
  /-- What happened on the way, in order. -/
  events : List Log.Event := []

/-- The number of attempts that an insertion makes. -/
def attempts : Nat := 4

/-- The priority of the entry that the policy would evict from a shard. -/
def victimPriority? (c : Cache) (shard : Shard) : Option Priority := do
  let victim ← c.policy.victim? shard
  let e ← shard[victim]?
  return c.policy.priority e

/-- The sites that could give an entry up for `requester`, with the priority of that entry: those
whose victim ranks below the requester's own. -/
def candidates (c : Cache) (requester : SiteId) (own : Option Priority) :
    List (SiteId × Priority) :=
  c.shards.toList.filterMap fun (site, shard) =>
    if site = requester then none
    else match c.victimPriority? shard with
      | none => none
      | some p => if own.all (p < ·) then some (site, p) else none

/-- The lowest ranked entry of another site; equal priorities are told apart by site. -/
def stalestElsewhere? (c : Cache) (requester : SiteId) (own : Option Priority) :
    Option (SiteId × Fingerprint) := do
  let (site, _) ← (c.candidates requester own).minOn? fun (site, p) => (⟨p, site.val⟩ : Rank)
  let victim ← c.policy.victim? (c.shard site)
  return (site, victim)

/-- Removes an entry and frees its place. -/
def evict (c : Cache) (site : SiteId) (fp : Fingerprint) : Cache :=
  { c.setShard site ((c.shard site).erase fp) with total := c.total - 1 }

/-- Tries up to `n` times to place an entry. `reclaimed` is the entry that an earlier attempt took
from another site; `ownTurn` tells that no other site has a lower ranked entry. -/
def place (c : Cache) (site : SiteId) (fp : Fingerprint) (e : Entry)
    (n : Nat) (reclaimed : Option (SiteId × Fingerprint)) (ownTurn : Bool) : Insertion :=
  match n with
  | 0 => { cache := c, outcome := .skipped, events := [.noRoom site fp] }
  | n + 1 =>
    let shard := c.shard site
    let siteFull := c.limits.perSite.toNat ≤ shard.size
    if shard.contains fp then
      { cache := c.setShard site (shard.insert fp e), outcome := .replaced }
    else if ¬ siteFull ∧ c.total < c.limits.total then
      { cache := { c.setShard site (shard.insert fp e) with total := c.total + 1 }
        outcome := match reclaimed with
          | some (site, victim) => .evicted site victim
          | none => .inserted }
    else match (if siteFull ∨ ownTurn then c.policy.victim? shard else none) with
      | some victim =>
        { cache := c.setShard site ((shard.erase victim).insert fp e)
          outcome := .evicted site victim
          events := [.evicted site victim] }
      | none =>
        let own := c.victimPriority? shard
        match c.stalestElsewhere? site own with
        | some (other, victim) =>
          let next := (c.evict other victim).place site fp e n (some (other, victim)) false
          { next with events := .reclaimed other victim site :: next.events }
        | none =>
          if own.isSome then c.place site fp e n reclaimed true
          else { cache := c, outcome := .skipped, events := [.noRoom site fp] }

/-- Inserts an entry; its site has a shard afterwards whatever becomes of it. -/
def insertEntry (c : Cache) (site : SiteId) (fp : Fingerprint) (e : Entry) : Insertion :=
  (c.setShard site (c.shard site)).place site fp e attempts none false

/-- Records a result for a calling context, as used now. -/
def insert (c : Cache) (site : SiteId) (fp : Fingerprint) (rawInput : List UInt64)
    (post : PostState) : Insertion :=
  { c with clock := c.clock + 1 }.insertEntry site fp ⟨rawInput, post, .fresh c.clock⟩

/-- Restores a result with the hits of an earlier run; it ranks below all entries in use. -/
def insertCold (c : Cache) (site : SiteId) (fp : Fingerprint) (rawInput : List UInt64)
    (post : PostState) (hits : UInt64) : Insertion :=
  c.insertEntry site fp ⟨rawInput, post, .cold hits⟩

end Cache

end CallMemo
