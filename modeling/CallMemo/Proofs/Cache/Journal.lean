import CallMemo.Proofs.Cache.Calls

/-!
# The journal of a run

A journal keeps every call of a run with its answer and the reading of the clock. It tells what the
cache holds: an entry is the one that the latest call wrote under its context, no call dropped it
since, and its counters are the numbers of lookups and confirmations made since, whatever happened
to other entries.
-/

namespace CallMemo

namespace Cache

/-- A call that was made. -/
structure Call where
  /-- The call. -/
  op : Op
  /-- What it returned. -/
  answer : Answer
  /-- The reading of the clock when it was made. -/
  tick : UInt64
  deriving DecidableEq, Repr

/-- The entry that a call put under a context; a refused one was not put anywhere. -/
def Call.written? (t : SiteId) (g : Fingerprint) (m : Call) : Option Entry :=
  match m.op with
  | .insert site fp raw post =>
    if (site = t ∧ fp = g) ∧ m.answer ≠ .insertion .skipped then
      some ⟨raw, post, { lastUsed := m.tick, hits := 0, confidence := 0 }⟩
    else none
  | .insertCold site fp raw post hits =>
    if (site = t ∧ fp = g) ∧ m.answer ≠ .insertion .skipped then
      some ⟨raw, post, { lastUsed := 0, hits, confidence := 0 }⟩
    else none
  | .lookup .. | .confirm .. | .invalidate .. | .clear => none

/-- Whether a call dropped the entries of a site. -/
def Call.drops (t : SiteId) (m : Call) : Bool := m.op = .invalidate t ∨ m.op = .clear

variable {c : Cache} {t : SiteId} {g : Fingerprint} {e x : Entry} {op : Op} {m : Call}
  {past later : List Call} {ops : List Op}

/-- The call as it was made. -/
def made (c : Cache) (op : Op) : Call := ⟨op, c.answer op, c.clock⟩

/-- The calls of a run. -/
def journal (c : Cache) : List Op → List Call
  | [] => []
  | op :: rest => c.made op :: (c.step op).journal rest

/-- What has become of an entry `e` that was written under a context through the later calls. -/
structure Ages (t : SiteId) (g : Fingerprint) (e : Entry) (later : List Call) (x : Entry) :
    Prop where
  /-- No later call wrote another entry. -/
  unwritten : ∀ m ∈ later, m.written? t g = none
  /-- No later call dropped the entry. -/
  undropped : ∀ m ∈ later, m.drops t = false
  /-- The input is the written one. -/
  rawInput_eq : x.rawInput = e.rawInput
  /-- The result is the written one. -/
  post_eq : x.post = e.post
  /-- Every later lookup counts as a use. -/
  hits_eq : x.usage.hits = e.usage.hits + (later.countP (·.op = .lookup t g)).toUInt64
  /-- Every later confirmation is counted. -/
  confidence_eq :
    x.usage.confidence = e.usage.confidence + (later.countP (·.op = .confirm t g)).toUInt32
  /-- The last use is the latest lookup, or the writing itself. -/
  lastUsed_eq : x.usage.lastUsed =
    ((later.filter (·.op = .lookup t g)).getLast?.map (·.tick)).getD e.usage.lastUsed

/-- Nothing has aged before the next call. -/
theorem ages_refl (t : SiteId) (g : Fingerprint) (e : Entry) : Ages t g e [] e where
  unwritten := by simp
  undropped := by simp
  rawInput_eq := rfl
  post_eq := rfl
  hits_eq := (UInt64.add_zero _).symm
  confidence_eq := (UInt32.add_zero _).symm
  lastUsed_eq := rfl

/-- An entry ages by one more call that neither wrote nor dropped it. -/
theorem Ages.snoc {y : Entry} (h : Ages t g e later y) (hwritten : m.written? t g = none)
    (hdropped : m.drops t = false) (hraw : x.rawInput = y.rawInput) (hpost : x.post = y.post)
    (hhits : x.usage.hits = y.usage.hits + if m.op = .lookup t g then 1 else 0)
    (hconfidence :
      x.usage.confidence = y.usage.confidence + if m.op = .confirm t g then 1 else 0)
    (hlast : x.usage.lastUsed = if m.op = .lookup t g then m.tick else y.usage.lastUsed) :
    Ages t g e (later ++ [m]) x where
  unwritten := by
    intro n hn
    rcases List.mem_append.mp hn with hn | hn
    · exact h.unwritten n hn
    · rwa [List.mem_singleton.mp hn]
  undropped := by
    intro n hn
    rcases List.mem_append.mp hn with hn | hn
    · exact h.undropped n hn
    · rwa [List.mem_singleton.mp hn]
  rawInput_eq := hraw.trans h.rawInput_eq
  post_eq := hpost.trans h.post_eq
  hits_eq := by
    rw [hhits, h.hits_eq, List.countP_append, List.countP_singleton]
    by_cases hop : m.op = .lookup t g <;> simp [hop, UInt64.add_assoc]
  confidence_eq := by
    rw [hconfidence, h.confidence_eq, List.countP_append, List.countP_singleton]
    by_cases hop : m.op = .confirm t g <;> simp [hop, UInt32.add_assoc]
  lastUsed_eq := by
    rw [hlast, List.filter_append, h.lastUsed_eq]
    by_cases hop : m.op = .lookup t g <;> simp [hop]

/-- A call of another context writes nothing under this one. -/
theorem written?_of_not_isOn (away : m.op.isOn t g = false) : m.written? t g = none := by
  unfold Call.written?
  cases hop : m.op with
  | insert site fp raw post =>
    rw [hop] at away
    exact if_neg fun h => of_decide_eq_false away h.1
  | insertCold site fp raw post hits =>
    rw [hop] at away
    exact if_neg fun h => of_decide_eq_false away h.1
  | lookup | confirm | invalidate | clear => rfl

theorem drops_of_not_isOn (away : m.op.isOn t g = false) : m.drops t = false := by
  refine decide_eq_false fun h => ?_
  rcases h with hop | hop
  · rw [hop] at away
    exact of_decide_eq_false away rfl
  · rw [hop] at away
    cases away

/-- Every entry is the one that the latest call wrote under its context. -/
def Told (past : List Call) (c : Cache) : Prop :=
  ∀ t g x, c.peek? t g = some x →
    ∃ before m after e, past = before ++ m :: after ∧ m.written? t g = some e ∧ Ages t g e after x

/-- An entry that goes on as it ages is told by the longer journal. -/
theorem Told.snoc {y : Entry} (h : Told past c) (hy : c.peek? t g = some y)
    (hage : ∀ {e later}, Ages t g e later y → Ages t g e (later ++ [m]) x) :
    ∃ before n after e, past ++ [m] = before ++ n :: after ∧ n.written? t g = some e ∧
      Ages t g e after x := by
  obtain ⟨before, n, after, e, rfl, hwritten, hages⟩ := h t g y hy
  exact ⟨before, n, after ++ [m], e, by simp, hwritten, hage hages⟩

/-- The call just made goes to the end of the journal. -/
theorem Told.step (h : Told past c) (htimely : Timely c) (op : Op) :
    Told (past ++ [c.made op]) (c.step op) := by
  intro t g x hx
  cases stems_of_peek? hx with
  | @recorded raw post hop taken =>
    have hwritten : (c.made op).written? t g = some ⟨raw, post, .fresh c.clock⟩ := by
      subst hop
      exact if_pos ⟨⟨rfl, rfl⟩, taken⟩
    exact ⟨past, _, [], _, rfl, hwritten, ages_refl t g _⟩
  | @restored raw post hits hop taken =>
    have hwritten : (c.made op).written? t g = some ⟨raw, post, .cold hits⟩ := by
      subst hop
      exact if_pos ⟨⟨rfl, rfl⟩, taken⟩
    exact ⟨past, _, [], _, rfl, hwritten, ages_refl t g _⟩
  | @used y hop hy =>
    subst hop
    refine h.snoc hy fun hages => hages.snoc rfl rfl rfl rfl ?_ ?_ ?_
    · rw [made, if_pos rfl]
      rfl
    · exact (UInt32.add_zero _).symm
    · exact (htimely.lastUsed_hit hy).trans (if_pos rfl).symm
  | @confirmed y hop hy =>
    subst hop
    refine h.snoc hy fun hages => hages.snoc rfl rfl rfl rfl ?_ ?_ ?_
    · exact (UInt64.add_zero _).symm
    · rw [made, if_pos rfl]
      rfl
    · rfl
  | kept away hy =>
    have hlookup : op ≠ .lookup t g := by
      rintro rfl
      exact of_decide_eq_false away ⟨rfl, rfl⟩
    have hconfirm : op ≠ .confirm t g := by
      rintro rfl
      exact of_decide_eq_false away ⟨rfl, rfl⟩
    refine h.snoc hy fun hages => hages.snoc (written?_of_not_isOn away) (drops_of_not_isOn away)
      rfl rfl ?_ ?_ ?_
    · simp [made, hlookup]
    · simp [made, hconfirm]
    · exact (if_neg hlookup).symm

/-- The journal of a run tells what the cache holds after it. -/
theorem Told.run (h : Told past c) (htimely : Timely c)
    (hfew : c.clock.toNat + (c.touches ops).length < 2 ^ 64) :
    Told (past ++ c.journal ops) (c.run ops) := by
  induction ops generalizing c past with
  | nil =>
    rw [journal, List.append_nil]
    exact h
  | cons op rest ih =>
    rw [touches, List.length_append] at hfew
    have hfirst : c.clock.toNat + (c.touched? op).toList.length < 2 ^ 64 := by omega
    have hlater : (c.step op).clock.toNat + ((c.step op).touches rest).length < 2 ^ 64 := by
      rw [toNat_clock_step hfirst]
      omega
    have hrun := ih (h.step htimely op) (htimely.step hfirst) hlater
    rw [List.append_assoc] at hrun
    exact hrun

/-- A lookup finds something exactly in a context that has an entry. -/
theorem isSome_lookup : (c.lookup t g).1.isSome = c.contains t g := by
  rw [contains_eq_isSome]
  cases hx : c.peek? t g with
  | none => rw [lookup_of_none hx]; rfl
  | some x => rw [lookup_of_some hx]; rfl

/-- In every run lookups find exactly what the cache contains. Every entry is the one that the
latest call wrote under its context, with the uses and confirmations made since. -/
theorem entry_run_journal (limits : Limits) (policy : EvictionPolicy) (ops : List Op)
    (hfew : (touches { limits, policy } ops).length < 2 ^ 64 - 1) (s : SiteId)
    (f : Fingerprint) :
    let start : Cache := { limits, policy }
    ((start.run ops).lookup s f).1.isSome = (start.run ops).contains s f ∧
      ((start.run ops).contains s f = true →
        ∃ x before m after e, (start.run ops).peek? s f = some x ∧
          start.journal ops = before ++ m :: after ∧ m.written? s f = some e ∧
          Ages s f e after x) := by
  intro start
  have htold : Told [] start := fun t g x hx => by simp [start, peek?, shard_eq_empty] at hx
  have htimely : Timely start :=
    ⟨(by decide : (1 : UInt64) ≠ 0), fun t g x hx => by simp [start, peek?, shard_eq_empty] at hx⟩
  have hticks : start.clock.toNat + (start.touches ops).length < 2 ^ 64 := by
    change 1 + (touches { limits, policy } ops).length < 2 ^ 64
    omega
  refine ⟨isSome_lookup, fun hin => ?_⟩
  rw [contains_eq_isSome, Option.isSome_iff_exists] at hin
  obtain ⟨x, hx⟩ := hin
  obtain ⟨before, m, after, e, hsplit, hwritten, hages⟩ := htold.run htimely hticks s f x hx
  exact ⟨x, before, m, after, e, hx, hsplit, hwritten, hages⟩

/-- Two sites share three places; an entry is restored, used, written anew and confirmed while
others come and go. -/
def rewritten : List Op :=
  [.insertCold ⟨1⟩ ⟨1⟩ [1] { nextPc := 1 } 4, .lookup ⟨1⟩ ⟨1⟩, .insert ⟨2⟩ ⟨1⟩ [2] { nextPc := 2 },
    .insert ⟨1⟩ ⟨1⟩ [3] { nextPc := 3 }, .lookup ⟨1⟩ ⟨1⟩, .insert ⟨2⟩ ⟨2⟩ [4] { nextPc := 4 },
    .insert ⟨1⟩ ⟨2⟩ [5] { nextPc := 5 }, .lookup ⟨1⟩ ⟨1⟩, .confirm ⟨1⟩ ⟨1⟩, .lookup ⟨2⟩ ⟨1⟩,
    .invalidate ⟨2⟩]

/-- The entry was used twice and confirmed once since it was last written. -/
theorem entry_run_journal_rewritten :
    let start : Cache := { limits := ⟨2, 3⟩, policy := .leastRecentlyUsed }
    (start.run rewritten).peek? ⟨1⟩ ⟨1⟩ =
        some ⟨[3], { nextPc := 3 }, { lastUsed := 7, hits := 2, confidence := 1 }⟩ ∧
      ((start.run rewritten).lookup ⟨2⟩ ⟨1⟩).1.isSome = (start.run rewritten).contains ⟨2⟩ ⟨1⟩ ∧
      ∃ x before m after e, (start.run rewritten).peek? ⟨1⟩ ⟨1⟩ = some x ∧
        start.journal rewritten = before ++ m :: after ∧ m.written? ⟨1⟩ ⟨1⟩ = some e ∧
        Ages ⟨1⟩ ⟨1⟩ e after x := by
  intro start
  have hfew : (touches start rewritten).length < 2 ^ 64 - 1 := by decide +kernel
  have hin : (start.run rewritten).contains ⟨1⟩ ⟨1⟩ = true := by decide +kernel
  have law := entry_run_journal ⟨2, 3⟩ .leastRecentlyUsed rewritten hfew
  exact ⟨by decide +kernel, (law ⟨2⟩ ⟨1⟩).1, (law ⟨1⟩ ⟨1⟩).2 hin⟩

end Cache

end CallMemo
