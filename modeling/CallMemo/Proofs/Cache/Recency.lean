import Mathlib.Algebra.BigOperators.Group.Finset.Piecewise
import Mathlib.Algebra.Order.BigOperators.Group.Finset
import Mathlib.Data.List.DropRight
import CallMemo.Identity

/-!
# Recency

What a bounded store keeps of a list of uses if whatever was used longest ago gives way. Both
bounds are taken into account: the oldest context of a full site makes room for a new one of that
site, and otherwise the oldest of all. Going through the uses forward, this is a queue with one
step for each use. Going back from the newest, it is a choice: a context is kept if the kept newer
ones leave it a place. Both descriptions agree, and the second one can be read off in numbers.
-/

namespace CallMemo

/-- A calling context: a site and the fingerprint of an input. -/
abbrev Context := SiteId × Fingerprint

namespace Recency

/-- The number of contexts of a site in a queue. -/
def siteCount (site : SiteId) (q : List Context) : Nat := q.countP (·.1 = site)

/-- Puts an older context in front if the newer ones leave it a place. -/
def accept (perSite total : Nat) (x : Context) (q : List Context) : List Context :=
  if siteCount x.1 q < perSite ∧ q.length < total then x :: q else q

/-- What is kept of a list of uses, the oldest first in both. -/
def kept (perSite total : Nat) : List Context → List Context
  | [] => []
  | x :: newer =>
    if x ∈ newer then kept perSite total newer
    else accept perSite total x (kept perSite total newer)

/-- Makes room for a new context: the oldest one of a full site gives way, or the oldest of all in a
full queue. -/
def makeRoom (perSite total : Nat) (site : SiteId) (q : List Context) : List Context :=
  if perSite ≤ siteCount site q then q.eraseP (·.1 = site)
  else if total ≤ q.length then q.tail
  else q

/-- The queue after a use: the context goes to the back, with room made for it if it is new. -/
def use (perSite total : Nat) (x : Context) (q : List Context) : List Context :=
  (if x ∈ q then q.erase x else makeRoom perSite total x.1 q) ++ [x]

/-- Both bounds hold for a queue. -/
structure Within (perSite total : Nat) (q : List Context) : Prop where
  /-- No site has too many contexts. -/
  siteCount_le : ∀ t, siteCount t q ≤ perSite
  /-- There are not too many contexts in all. -/
  length_le : q.length ≤ total

variable {perSite total : Nat} {s t : SiteId} {x y : Context} {q l : List Context}

theorem siteCount_cons : siteCount t (y :: q) = siteCount t q + if y.1 = t then 1 else 0 := by
  simp [siteCount, List.countP_cons]

/-- The contexts of a site are counted part by part. -/
theorem siteCount_append : siteCount t (q ++ l) = siteCount t q + siteCount t l := by
  simp [siteCount]

/-- Removing a context lowers the number of its site by one. -/
theorem siteCount_erase (hx : x ∈ q) :
    siteCount t (q.erase x) + (if x.1 = t then 1 else 0) = siteCount t q := by
  have hperm : siteCount t q = siteCount t (x :: q.erase x) :=
    (List.perm_cons_erase hx).countP_eq _
  rw [hperm, siteCount_cons]

/-- The oldest context of a site that has one is a member of the queue. -/
theorem exists_eraseP (h : 0 < siteCount s q) :
    ∃ v ∈ q, v.1 = s ∧ q.eraseP (·.1 = s) = q.erase v := by
  induction q with
  | nil => simp [siteCount] at h
  | cons y q ih =>
    by_cases hy : y.1 = s
    · exact ⟨y, List.mem_cons_self, hy, by simp [hy]⟩
    · rw [siteCount_cons, if_neg hy] at h
      obtain ⟨v, hv, hs, herase⟩ := ih h
      have hne : y ≠ v := by
        rintro rfl
        exact hy hs
      refine ⟨v, List.mem_cons_of_mem _ hv, hs, ?_⟩
      rw [List.eraseP_cons_of_neg (by simpa using hy), List.erase_cons_tail (by simpa using hne),
        herase]

/-- A context is accepted within the bounds only. -/
theorem within_accept (h : Within perSite total q) :
    Within perSite total (accept perSite total x q) := by
  rw [accept]
  split
  · next hroom =>
    refine ⟨fun t => ?_, by simp; omega⟩
    have := h.siteCount_le t
    rw [siteCount_cons]
    split
    · next ht => rw [← ht]; omega
    · omega
  · exact h

/-- What is kept is within the bounds. -/
theorem within_kept (l : List Context) : Within perSite total (kept perSite total l) := by
  induction l with
  | nil => exact ⟨by simp [kept, siteCount], by simp [kept]⟩
  | cons x newer ih =>
    rw [kept]
    split
    · exact ih
    · exact within_accept ih

/-- Only what was used is kept. -/
theorem mem_of_mem_kept (h : x ∈ kept perSite total l) : x ∈ l := by
  induction l with
  | nil => exact h
  | cons y newer ih =>
    rw [kept] at h
    split at h
    · exact List.mem_cons_of_mem _ (ih h)
    · rw [accept] at h
      split at h
      · exact (List.mem_cons.mp h).elim (fun e => e ▸ List.mem_cons_self)
          fun h => List.mem_cons_of_mem _ (ih h)
      · exact List.mem_cons_of_mem _ (ih h)

/-- In a full site its oldest context gives way. -/
theorem makeRoom_of_full (h : perSite ≤ siteCount s q) :
    makeRoom perSite total s q = q.eraseP (·.1 = s) := if_pos h

/-- In a full cache the oldest of all gives way. -/
theorem makeRoom_of_crowded (hs : siteCount s q < perSite) (h : total ≤ q.length) :
    makeRoom perSite total s q = q.tail := by
  rw [makeRoom, if_neg (by omega), if_pos h]

theorem makeRoom_of_room (hs : siteCount s q < perSite) (h : q.length < total) :
    makeRoom perSite total s q = q := by
  rw [makeRoom, if_neg (by omega), if_neg (by omega)]

/-- A queue that had room before its oldest context came in gives that one up or nothing. -/
theorem makeRoom_cons (hs : siteCount s q < perSite) :
    makeRoom perSite total s (y :: q) =
      if siteCount s (y :: q) < perSite ∧ q.length + 1 < total then y :: q else q := by
  by_cases hfull : perSite ≤ siteCount s (y :: q)
  · have hy : y.1 = s := by
      by_contra hne
      rw [siteCount_cons, if_neg hne] at hfull
      omega
    rw [makeRoom_of_full hfull, if_neg (by omega), List.eraseP_cons_of_pos (by simpa using hy)]
  rw [Nat.not_le] at hfull
  by_cases hlength : q.length + 1 < total
  · rw [makeRoom_of_room hfull (by simpa using hlength), if_pos ⟨hfull, hlength⟩]
  · rw [makeRoom_of_crowded hfull (by simpa using hlength), List.tail_cons, if_neg (by omega)]

/-- Making room commutes with accepting an older context, which then has to leave a place for the
new one as well. -/
theorem makeRoom_accept (hsite : 0 < perSite) :
    makeRoom perSite total s (accept perSite total y q) =
      if siteCount y.1 (makeRoom perSite total s q) + (if s = y.1 then 1 else 0) < perSite ∧
          (makeRoom perSite total s q).length + 1 < total
      then y :: makeRoom perSite total s q
      else makeRoom perSite total s q := by
  by_cases hfull : perSite ≤ siteCount s q
  · -- the site gives up a context of its own, so the older one finds the same numbers as before
    obtain ⟨v, hv, rfl, herase⟩ := exists_eraseP (Nat.lt_of_lt_of_le hsite hfull)
    have hcount := siteCount_erase (t := y.1) hv
    have hlength := List.length_erase_add_one hv
    rw [makeRoom_of_full hfull, herase, hcount, hlength, accept]
    split
    · next hroom =>
      have hy : y.1 ≠ v.1 := by
        intro hy
        rw [hy] at hroom
        omega
      have hstill : perSite ≤ siteCount v.1 (y :: q) := by
        rw [siteCount_cons]
        omega
      rw [makeRoom_of_full hstill, List.eraseP_cons_of_neg (by simpa using hy), herase]
    · rw [makeRoom_of_full hfull, herase]
  rw [Nat.not_le] at hfull
  by_cases hcrowded : total ≤ q.length
  · -- a full queue refuses the older context with or without the new one
    have hlength : q.tail.length + 1 ≥ total := by
      rw [List.length_tail]
      omega
    rw [makeRoom_of_crowded hfull hcrowded, if_neg (by omega), accept, if_neg (by omega),
      makeRoom_of_crowded hfull hcrowded]
  · -- there is room for one more, so the older context stays if there is room for two
    rw [Nat.not_le] at hcrowded
    rw [makeRoom_of_room hfull hcrowded, accept]
    by_cases hroom : siteCount y.1 q < perSite
    · rw [if_pos ⟨hroom, hcrowded⟩, makeRoom_cons hfull, siteCount_cons]
      by_cases hy : y.1 = s
      · rw [if_pos hy, if_pos hy.symm, hy]
      · rw [if_neg hy, if_neg (Ne.symm hy)]
        simp only [Nat.add_zero, hfull, hroom]
    · rw [if_neg (by omega), if_neg (by omega), makeRoom_of_room hfull hcrowded]

/-- A new context counts for its own site, once there is room. -/
theorem siteCount_use (hx : x ∉ q) :
    siteCount t (use perSite total x q) =
      siteCount t (makeRoom perSite total x.1 q) + if x.1 = t then 1 else 0 := by
  rw [use, if_neg hx, siteCount_append, siteCount_cons]
  simp [siteCount]

/-- Using a context commutes with accepting an older one. -/
theorem use_accept (hsite : 0 < perSite) (hne : y ≠ x) :
    use perSite total x (accept perSite total y q) =
      accept perSite total y (use perSite total x q) := by
  by_cases hx : x ∈ q
  · -- the numbers stay the same when a member goes to the back
    have hperm : (use perSite total x q).Perm q := by
      rw [use, if_pos hx]
      exact (List.perm_append_singleton x _).trans (List.perm_cons_erase hx).symm
    have hcount : siteCount y.1 (use perSite total x q) = siteCount y.1 q := hperm.countP_eq _
    rw [accept, accept, hcount, hperm.length_eq]
    split
    · rw [use, if_pos (List.mem_cons_of_mem _ hx), List.erase_cons_tail (by simpa using hne), use,
        if_pos hx, List.cons_append]
    · rfl
  · have hx' : x ∉ accept perSite total y q := by
      rw [accept]
      split
      · rw [List.mem_cons, not_or]
        exact ⟨hne.symm, hx⟩
      · exact hx
    have hlength : (use perSite total x q).length = (makeRoom perSite total x.1 q).length + 1 := by
      rw [use, if_neg hx, List.length_append, List.length_singleton]
    rw [use, if_neg hx', makeRoom_accept hsite]
    conv_rhs => rw [accept, siteCount_use hx, hlength, use, if_neg hx]
    exact apply_ite (· ++ [x]) _ _ _

/-- A context that was not used since is kept exactly if the newer ones left it a place. -/
theorem mem_kept_cons (hx : x ∉ l) :
    x ∈ kept perSite total (x :: l) ↔
      siteCount x.1 (kept perSite total l) < perSite ∧ (kept perSite total l).length < total := by
  rw [kept, if_neg hx, accept]
  split
  · next hroom => exact iff_of_true List.mem_cons_self hroom
  · next hroom => exact iff_of_false (mt mem_of_mem_kept hx) hroom

/-- Going back from the newest use and going forward by one more use agree. -/
theorem kept_concat (hsite : 0 < perSite) (htotal : 0 < total) :
    kept perSite total (l ++ [x]) = use perSite total x (kept perSite total l) := by
  induction l with
  | nil => simp [kept, use, accept, makeRoom, siteCount, hsite, htotal]
  | cons y newer ih =>
    rw [List.cons_append, kept, ih]
    by_cases hy : y ∈ newer
    · rw [if_pos (List.mem_append_left _ hy), kept, if_pos hy]
    by_cases hxy : y = x
    · -- the earlier use of the same context no longer matters, whether or not it is still kept
      subst hxy
      have hout : y ∉ kept perSite total newer := mt mem_of_mem_kept hy
      rw [if_pos (by simp), kept, if_neg hy, accept]
      split
      · next hroom =>
        rw [use, if_neg hout, makeRoom_of_room hroom.1 hroom.2, use, if_pos List.mem_cons_self,
          List.erase_cons_head]
      · rfl
    · have hy' : y ∉ newer ++ [x] := by
        simp [hy, hxy]
      rw [if_neg hy', kept, if_neg hy, use_accept hsite hxy]

/-- A second context of a site that may hold one makes the first give way. -/
example : kept 1 2 [(⟨1⟩, ⟨1⟩), (⟨2⟩, ⟨1⟩), (⟨1⟩, ⟨2⟩)] = [(⟨2⟩, ⟨1⟩), (⟨1⟩, ⟨2⟩)] := by decide

/-- Older uses do not matter to a context. -/
theorem mem_kept_append {older : List Context} :
    x ∈ kept perSite total (older ++ x :: l) ↔ x ∈ kept perSite total (x :: l) := by
  induction older with
  | nil => rfl
  | cons y older ih =>
    rw [List.cons_append, kept]
    split
    · exact ih
    · next hy =>
      have hne : x ≠ y := by
        rintro rfl
        exact hy (by simp)
      rw [← ih, accept]
      split
      · rw [List.mem_cons, or_iff_right hne]
      · rfl

/-- The number of distinct contexts of a site in a list of uses. -/
def distinct (site : SiteId) (l : List Context) : Nat := (l.toFinset.filter (·.1 = site)).card

/-- A context that is used again later is not counted twice. -/
theorem distinct_cons_of_mem (hx : x ∈ l) : distinct t (x :: l) = distinct t l := by
  rw [distinct, List.toFinset_cons, Finset.insert_eq_of_mem (List.mem_toFinset.mpr hx), distinct]

/-- A context that is not used again later is counted for its site. -/
theorem distinct_cons_of_not_mem (hx : x ∉ l) :
    distinct t (x :: l) = distinct t l + if x.1 = t then 1 else 0 := by
  rw [distinct, List.toFinset_cons, Finset.filter_insert, distinct]
  split
  · rw [Finset.card_insert_of_notMem]
    simp [hx]
  · rfl

/-- A site never keeps more contexts than were used. -/
theorem siteCount_kept_le (l : List Context) (t : SiteId) :
    siteCount t (kept perSite total l) ≤ distinct t l := by
  induction l with
  | nil => simp [kept, siteCount]
  | cons x newer ih =>
    rw [kept]
    split
    · next hx => rwa [distinct_cons_of_mem hx]
    · next hx =>
      rw [distinct_cons_of_not_mem hx, accept]
      split
      · rw [siteCount_cons]
        omega
      · omega

/-- While there is room in all, a site keeps as many contexts as its own bound lets it. -/
theorem siteCount_kept (h : (kept perSite total l).length < total) :
    siteCount t (kept perSite total l) = min perSite (distinct t l) := by
  induction l with
  | nil => simp [kept, siteCount, distinct]
  | cons x newer ih =>
    rw [kept] at h ⊢
    by_cases hx : x ∈ newer
    · rw [if_pos hx] at h ⊢
      rw [ih h, distinct_cons_of_mem hx]
    rw [if_neg hx, accept] at h ⊢
    have hnewer : (kept perSite total newer).length < total := by
      split at h
      · rw [List.length_cons] at h
        omega
      · exact h
    have hcount := ih hnewer
    rw [distinct_cons_of_not_mem hx]
    by_cases hroom : siteCount x.1 (kept perSite total newer) < perSite
    · rw [if_pos ⟨hroom, hnewer⟩, siteCount_cons, hcount]
      split
      · next ht =>
        rw [ht, hcount] at hroom
        omega
      · omega
    · rw [if_neg fun h => hroom h.1, hcount]
      split
      · next ht =>
        rw [ht, hcount] at hroom
        omega
      · omega

/-- Counting site by site gives the length of a queue. -/
theorem sum_siteCount {S : Finset SiteId} (hS : ∀ y ∈ q, y.1 ∈ S) :
    ∑ t ∈ S, siteCount t q = q.length := by
  induction q with
  | nil => simp [siteCount]
  | cons y q ih =>
    have hy : y.1 ∈ S := hS y List.mem_cons_self
    simp only [siteCount_cons, Finset.sum_add_distrib, Finset.sum_ite_eq, if_pos hy,
      ih fun z hz => hS z (List.mem_cons_of_mem _ hz), List.length_cons]

/-- There is room in all exactly if the sites together do not use up the bound. -/
theorem length_kept_lt_iff {S : Finset SiteId} (hS : ∀ y ∈ l, y.1 ∈ S) :
    (kept perSite total l).length < total ↔ ∑ t ∈ S, min perSite (distinct t l) < total := by
  have hsum : ∑ t ∈ S, siteCount t (kept perSite total l) = (kept perSite total l).length :=
    sum_siteCount fun y hy => hS y (mem_of_mem_kept hy)
  constructor
  · intro h
    rwa [← Finset.sum_congr rfl fun t _ => siteCount_kept h, hsum]
  · intro h
    refine Nat.lt_of_le_of_lt ?_ h
    rw [← hsum]
    exact Finset.sum_le_sum fun t _ =>
      le_min ((within_kept l).siteCount_le t) (siteCount_kept_le l t)

/-- The uses after the last use of a context. -/
def since (x : Context) (l : List Context) : List Context := l.rtakeWhile (· ≠ x)

/-- A context that was used splits the uses at its last one. -/
theorem exists_since (hx : x ∈ l) :
    ∃ older, l = older ++ x :: since x l ∧ x ∉ since x l := by
  induction l using List.reverseRecOn with
  | nil => cases hx
  | append_singleton l y ih =>
    by_cases hy : y = x
    · subst hy
      have hsince : since y (l ++ [y]) = [] := List.rtakeWhile_concat_neg _ _ _ (by simp)
      rw [hsince]
      exact ⟨l, rfl, List.not_mem_nil⟩
    · have hsince : since x (l ++ [y]) = since x l ++ [y] :=
        List.rtakeWhile_concat_pos _ _ _ (by simpa using hy)
      have hx' : x ∈ l := by simpa [Ne.symm hy] using hx
      obtain ⟨older, hl, hout⟩ := ih hx'
      refine ⟨older, ?_, by simp [hsince, hout, Ne.symm hy]⟩
      rw [hsince, ← List.cons_append, ← List.append_assoc, ← hl]

/-- A context last used before the uses `l` is kept exactly if neither the contexts of its own site
nor those of all sites, counted up to the bound of each, use up the room. -/
theorem mem_kept_iff {older : List Context} (hx : x ∉ l) :
    x ∈ kept perSite total (older ++ x :: l) ↔
      distinct x.1 l < perSite ∧
        distinct x.1 l + ∑ t ∈ (l.map Prod.fst).toFinset.erase x.1, min perSite (distinct t l) <
          total := by
  let S : Finset SiteId := Insert.insert x.1 (l.map Prod.fst).toFinset
  have hS : ∀ y ∈ l, y.1 ∈ S := fun y hy =>
    Finset.mem_insert_of_mem (List.mem_toFinset.mpr (List.mem_map_of_mem hy))
  have hown : x.1 ∈ S := Finset.mem_insert_self ..
  have hrest : S.erase x.1 = (l.map Prod.fst).toFinset.erase x.1 :=
    Finset.erase_insert_eq_erase ..
  rw [mem_kept_append, mem_kept_cons hx]
  constructor
  · rintro ⟨hsite, hlength⟩
    rw [siteCount_kept hlength] at hsite
    rw [length_kept_lt_iff hS, ← Finset.add_sum_erase S _ hown, hrest] at hlength
    omega
  · rintro ⟨hsite, hlength⟩
    have hroom : (kept perSite total l).length < total := by
      rw [length_kept_lt_iff hS, ← Finset.add_sum_erase S _ hown, hrest]
      omega
    rw [siteCount_kept hroom]
    exact ⟨by omega, hroom⟩

end Recency

end CallMemo
