import CallMemo.Proofs.Engine.Export

/-!
# Walks over the maps of an engine

The registered sites and the entries of a site stand in hash maps, which may be walked in any order.
Whoever lists them sorts what the walk yields, the sites by identity and the entries by fingerprint,
so the order of the walk does not show.
-/

namespace CallMemo

/-- Sorting by distinct keys brings a list into the one order in which the keys ascend, whatever
order it was in. -/
theorem mergeSort_eq_of_perm {α : Type} (key : α → UInt64) {l l' : List α} (h : l.Perm l')
    (ascending : l'.Pairwise fun a b => key a < key b) :
    l.mergeSort (fun a b => decide (key a ≤ key b)) = l' := by
  let le (a b : α) : Bool := decide (key a ≤ key b)
  have trans : ∀ a b c, le a b → le b c → le a c := fun a b c hab hbc =>
    decide_eq_true (UInt64.le_trans (of_decide_eq_true hab) (of_decide_eq_true hbc))
  have total : ∀ a b, le a b || le b a := fun a b => by
    simpa [le] using UInt64.le_total (key a) (key b)
  have hsorted : (l.mergeSort le).Pairwise (le · ·) := List.pairwise_mergeSort trans total l
  have hperm : (l.mergeSort le).Perm l' := (l.mergeSort_perm le).trans h
  refine hperm.eq_of_pairwise (fun a b ha hb hab hba => ?_) hsorted
    (ascending.imp fun hlt => decide_eq_true (UInt64.le_of_lt hlt))
  have hkey : key a = key b :=
    UInt64.le_antisymm (of_decide_eq_true hab) (of_decide_eq_true hba)
  have hdistinct : (l'.map key).Nodup :=
    List.pairwise_map.mpr (ascending.imp fun hlt => UInt64.ne_of_lt hlt)
  exact List.inj_on_of_nodup_map hdistinct (hperm.mem_iff.mp ha) hb hkey

namespace Engine

variable {e : Engine}

/-- The orders in which the hash maps of an engine are walked. -/
structure Survey (e : Engine) where
  /-- The registered sites in the order of a walk. -/
  sites : List (SiteId × Registration)
  /-- Every site is visited once. -/
  sites_perm : sites.Perm e.sites.toList
  /-- The entries of a site in the order of a walk. -/
  entries : SiteId → List (Fingerprint × Entry)
  /-- Every entry is visited once. -/
  entries_perm : ∀ t, (entries t).Perm (e.cache.entries t)

namespace Survey

/-- Walks in descending order. -/
def descending (e : Engine) : Survey e where
  sites := e.sites.toList.reverse
  sites_perm := List.reverse_perm _
  entries t := (e.cache.entries t).reverse
  entries_perm _ := List.reverse_perm _

/-- The registered call sites, sorted by identity. -/
def callSites (o : Survey e) : List CallSite :=
  (o.sites.map fun (id, r) => ({ r with id } : CallSite)).mergeSort fun a b => a.id.val ≤ b.id.val

/-- The entries of a site, sorted by fingerprint. -/
def sortedEntries (o : Survey e) (t : SiteId) : List (Fingerprint × Entry) :=
  (o.entries t).mergeSort fun a b => a.1.val ≤ b.1.val

/-- The export that comes of these walks. -/
def exportSnapshot (o : Survey e) : Snapshot where
  entries := (o.callSites.filter (·.isMemoizable)).flatMap fun site =>
    (o.sortedEntries site.id).map fun (fp, entry) => .ofEntry site.id fp entry

/-- The orders of the walks do not show in the list of call sites. -/
theorem callSites_eq (o : Survey e) : o.callSites = e.callSites :=
  mergeSort_eq_of_perm (fun site : CallSite => site.id.val) (o.sites_perm.map _)
    (pairwise_callSites e)

/-- The orders of the walks do not show in the list of the entries of a site. -/
theorem sortedEntries_eq (o : Survey e) (t : SiteId) : o.sortedEntries t = e.cache.entries t :=
  mergeSort_eq_of_perm (fun entry : Fingerprint × Entry => entry.1.val) (o.entries_perm t)
    (e.cache.pairwise_entries t)

/-- The orders of the walks do not show in an export. -/
theorem exportSnapshot_eq (o : Survey e) : o.exportSnapshot = e.exportSnapshot := by
  rw [exportSnapshot, callSites_eq]
  simp only [sortedEntries_eq]
  rfl

end Survey

end Engine

end CallMemo
