import S3Proxy.Router.Visit

/-!
# The entry that decides

The search is decided by the first entry of the vector that matches the request and does not sort
before it (`HttpRouter.first`).  When there is none, it has missed, or it has ended at once because
every entry sorts before the request.

## Main results

`search_decided`: the first entry that can decide does so, with its handler for the method, unless
the loop runs over its end; then the search has no result if nothing is there to be read
(`search_undefined`).  `search_none` and `search_missed` are the requests that no entry can decide.

`search_sound` is about every request and whatever is read behind an entry: an answer is that of an
entry that matches.

`Records.takes_iff` is what brings the two levels together: an entry takes a request, in the sense
of `Router.Fate`, if it matches and does not sort before it (`Seen`); from there
`Inv.first_eq_taker` and the lemmas about `taker` in `Router.Fate` do the rest.

## Hypotheses

`Inv` of `Router.Table` holds of the router, that is, it was filled by calls whose paths do not have
the marker as a segment.

## Where it is used

`Router.Routes` draws the conclusions for `route`, and `Router.Specificity` compares the entry that
decides with the one that should.
-/

namespace S3Proxy

namespace Router

variable {H π : Type*} {record : π → Bytes → Bytes → π} {start params : π}
  {beyond : Path → List Bytes} {method q : Bytes} {r : HttpRouter H} {calls : List (AddCall H)}
  {p : Path} {handler : Option ℕ}

/-- The entry can decide about the request.  It matches, and if the request has no segments, then it
has the very path of the request. -/
def Seen (q : Bytes) (p : Path) : Prop :=
  Matches p.segments (split q) ∧ (split q ≠ [] ∨ p.path = q)

instance : DecidablePred (Seen q) := fun _ => inferInstanceAs (Decidable (_ ∧ _))

/-- The first entry of the vector that can decide and does not sort before the request. -/
def HttpRouter.first (r : HttpRouter H) (q : Bytes) : Option Path :=
  r.paths.find? fun p => decide (q ≤ p.path) && decide (Seen q p)

/-! ### Entries that decide -/

lemma matches_self {parts : List Bytes} (h : marker ∉ parts) :
    Matches (patternOf parts) parts := by
  induction parts with
  | nil => exact trivial
  | cons part parts ih =>
      rw [List.mem_cons, not_or] at h
      rw [patternOf, List.map_cons]
      rcases segment_cases part with ⟨heq, -⟩ | ⟨-, -, hsegment⟩ | ⟨-, -, hsegment⟩
      · exact absurd heq.symm h.1
      · rw [hsegment]
        exact ih h.2
      · rw [hsegment]
        exact ⟨rfl, ih h.2⟩

/-- **An entry takes a request** if it can decide about it. -/
lemma Records.takes_iff (h : Records calls p) : p.Takes q ↔ Seen q p := by
  have hexact : p.path = q → p.wildcard = false → Matches p.segments (split q) := by
    rintro rfl hwildcard
    rw [← h.parts]
    refine matches_self fun hmem => ?_
    rw [h.wildcard.mpr hmem] at hwildcard
    cases hwildcard
  by_cases hne : split q = []
  · have hwildcard : p.path = q → p.wildcard = false := by
      rintro rfl
      refine Bool.eq_false_of_not_eq_true fun htrue => ?_
      have hmem := h.wildcard.mp htrue
      rw [h.parts, hne] at hmem
      cases hmem
    constructor
    · rintro (hfate | ⟨hpath, hfalse⟩)
      · exact absurd (fate_of_nil hne) hfate
      · exact ⟨hexact hpath hfalse, .inr hpath⟩
    · rintro ⟨-, hnot | hpath⟩
      · exact absurd hne hnot
      · exact .inr ⟨hpath, hwildcard hpath⟩
  · have hfate : p.fate q ≠ .pass ↔ Matches p.segments (split q) := by
      rw [h.fate_eq hne, patternFate, Path.segments]
      split_ifs with hmatch hover
      · exact iff_of_true Fate.noConfusion hmatch
      · exact iff_of_true Fate.noConfusion hmatch
      · exact iff_of_false (not_not.mpr rfl) hmatch
    constructor
    · rintro (h | ⟨hpath, hfalse⟩)
      · exact ⟨hfate.mp h, .inl hne⟩
      · exact ⟨hexact hpath hfalse, .inl hne⟩
    · exact fun hseen => .inl (hfate.mpr hseen.1)

lemma Inv.ordered (hinv : Inv r calls) : r.Ordered :=
  ⟨hinv.sorted, fun p hp => (hinv.records p hp).sound⟩

lemma Inv.first_eq_taker (hinv : Inv r calls) : r.first q = r.taker q := by
  refine List.find?_congr fun p hp => ?_
  rw [decide_eq_decide.mpr (hinv.records p hp).takes_iff.symm]

/-- The entry runs over exactly if the request does. -/
lemma Inv.past_iff (hinv : Inv r calls) (hp : p ∈ r.paths) (hseen : Seen q p) :
    p.fate q = .past ↔ Overrun p.parts (split q) := by
  by_cases hne : split q = []
  · rw [fate_of_nil hne, hne]
    exact iff_of_false Fate.noConfusion fun hover => Nat.not_lt_zero _ hover.1
  · have hmatch := hseen.1
    rw [Path.segments] at hmatch
    rw [(hinv.records p hp).fate_eq hne, patternFate, if_pos hmatch]
    by_cases hover : Overrun p.parts (split q)
    · rw [if_pos hover]
      exact iff_of_true rfl hover
    · rw [if_neg hover]
      exact iff_of_false Fate.noConfusion hover

/-! ### The search -/

/-- The search misses when no entry from the lower bound on can decide. -/
lemma search_missed (hinv : Inv r calls) (hfirst : r.first q = none) (hp : p ∈ r.paths)
    (hle : q ≤ p.path) : r.search record start beyond method q = .missed := by
  rw [hinv.ordered.search_none (hinv.first_eq_taker ▸ hfirst), if_pos ⟨p, hp, hle⟩]

variable (record start beyond method) in
/-- Without an entry that can decide, no entry decides. -/
lemma search_none (hinv : Inv r calls) (hfirst : r.first q = none) :
    r.search record start beyond method q = .ended ∨
      r.search record start beyond method q = .missed := by
  rw [hinv.ordered.search_none (hinv.first_eq_taker ▸ hfirst)]
  split_ifs
  · exact .inr rfl
  · exact .inl rfl

/-- What is known of the first entry that can decide. -/
lemma first_some (hfirst : r.first q = some p) : p ∈ r.paths ∧ q ≤ p.path ∧ Seen q p := by
  have hp := List.find?_some hfirst
  rw [Bool.and_eq_true, decide_eq_true_eq, decide_eq_true_eq] at hp
  exact ⟨List.mem_of_find?_eq_some hfirst, hp⟩

variable (record start beyond method) in
/-- **The first entry that can decide does so**, unless the loop runs over its end. -/
lemma search_decided (hinv : Inv r calls) (hfirst : r.first q = some p)
    (hover : ¬ Overrun p.parts (split q)) :
    ∃ params, r.search record start beyond method q =
      .decided p (p.handlerOf method) params := by
  obtain ⟨hp, -, hseen⟩ := first_some hfirst
  exact hinv.ordered.search_decided record start beyond method (hinv.first_eq_taker ▸ hfirst)
    fun hpast => hover ((hinv.past_iff hp hseen).mp hpast)

lemma search_undefined (hinv : Inv r calls) (hfirst : r.first q = some p)
    (hover : Overrun p.parts (split q)) (hbeyond : beyond p = []) :
    r.search record start beyond method q = .undefined := by
  obtain ⟨hp, -, hseen⟩ := first_some hfirst
  exact hinv.ordered.search_undefined (hinv.first_eq_taker ▸ hfirst)
    ((hinv.past_iff hp hseen).mpr hover) hbeyond

/-- **Whatever is read**, an answer is that of an entry that matches. -/
lemma search_sound (hinv : Inv r calls)
    (h : r.search record start beyond method q = .decided p handler params) :
    p ∈ r.paths ∧ Matches p.segments (split q) ∧ handler = p.handlerOf method := by
  obtain ⟨hp, htakes, hhandler⟩ := hinv.ordered.search_sound h
  exact ⟨hp, ((hinv.records p hp).takes_iff.mp htakes).1, hhandler⟩

end Router

end S3Proxy
