import S3Proxy.Router.Visit

/-!
# The wildcard marker

A final `*` is stored as the segment `~`, which a path may hold on its own.  Then the entry is a
wildcard although no `*` was registered, or has a marker that is not its last segment.  Without such
a segment the marker means what it should.

## Main result

`marksOnlyStars_iff`: after any calls of `add`, the marker stands for final stars only exactly if
none of the calls that returned has it as a segment of its own.  `MarksOnlyStars` has three parts:
an entry is a wildcard exactly if its path was registered with a final `*`, no marker stands before
the last segment, and an entry that is no wildcard reacts to requests with its own segments only.

`mem_stored_iff` says where the marker is in a stored path, and `mem_stored_of_marked` what becomes
of a path that had it before.  `sameSegments_of_reacts` is the third part; it goes by the walk of
`Router.Fate` and not by the pattern, since the entry may hold the marker anywhere.

## Hypotheses

None on the calls, some of which may throw.  `Stateful.run` of `Router.Ledger` says which have
returned.

## Where it is used

`Unmarked`, the condition here, is a hypothesis of the results that speak of patterns, from
`Router.Table` on.  `Router.Bindings` and `Router.SubPath` use `EndsWithStar` and `mem_stored_iff`.
-/

namespace S3Proxy

namespace Router

variable {H : Type*} {sorter : Sorter} {r : HttpRouter H} {c : AddCall H}
  {done : List (AddCall H)} {p : Path} {ps qs : List Bytes} {q : Bytes}

/-- The path ends with a `*` segment. -/
def EndsWithStar (path : Bytes) : Prop := (split path).getLast? = some (bytesOf "*")

instance : DecidablePred EndsWithStar := fun path =>
  inferInstanceAs (Decidable ((split path).getLast? = some (bytesOf "*")))

/-- The request has as many segments as the path, and those that are no parameters. -/
def SameSegments (path q : Bytes) : Prop :=
  List.Forall₂ (fun iview part => part = iview ∨ iview.head? = some (chr '{'))
    (split path) (split q)

/-- The entry has an answer for the request, or is hit by its very path. -/
def Path.Reacts (p : Path) (q : Bytes) : Prop :=
  (∃ beyond method, p.visit Assoc.emplace .none beyond method q ≠ .next) ∨
    (q = p.path ∧ p.wildcard = false)

/-- The marker stands for a final `*` that was registered, and for nothing else. -/
structure MarksOnlyStars (r : HttpRouter H) (done : List (AddCall H)) : Prop where
  wildcard : ∀ p ∈ r.paths, ∀ c ∈ done, p.path = HttpRouter.stored c.path →
    (p.wildcard = true ↔ EndsWithStar c.path)
  last : ∀ p ∈ r.paths, marker ∉ p.parts.dropLast
  reacts : ∀ p ∈ r.paths, ∀ c ∈ done, p.path = HttpRouter.stored c.path →
    ¬ EndsWithStar c.path → ∀ q, p.Reacts q → SameSegments c.path q

/-! ### Stored paths -/

lemma not_endsWithStar {path : Bytes} (h : chr '*' ∉ path) : ¬ EndsWithStar path := fun hends =>
  h (Text.mem_of_mem_split (List.mem_of_getLast? hends) (by decide))

/-- Where the marker can be in a stored path. -/
lemma mem_stored_iff {full : Bytes} (hcheck : HttpRouter.checkWildcard full = .ok ())
    (hunmarked : Unmarked full) :
    marker ∈ split (HttpRouter.stored full) ↔ EndsWithStar full := by
  rcases stored_cases hcheck with ⟨hnone, hstored⟩ | ⟨pre, -, hfull, -, hsplit⟩
  · rw [hstored]
    exact iff_of_false hunmarked (not_endsWithStar hnone)
  · rw [hsplit, EndsWithStar, hfull]
    exact iff_of_true (by simp) List.getLast?_concat

/-- A marker of its own is stored as one. -/
lemma mem_stored_of_marked {full : Bytes} (hcheck : HttpRouter.checkWildcard full = .ok ())
    (hmarked : ¬ Unmarked full) :
    (marker ∈ split (HttpRouter.stored full) ∧ ¬ EndsWithStar full) ∨
      marker ∈ (split (HttpRouter.stored full)).dropLast := by
  rw [Unmarked, not_not] at hmarked
  rcases stored_cases hcheck with ⟨hnone, hstored⟩ | ⟨pre, -, hfull, -, hsplit⟩
  · rw [hstored]
    exact .inl ⟨hmarked, not_endsWithStar hnone⟩
  · rw [hfull, List.mem_append] at hmarked
    rw [hsplit, List.dropLast_concat]
    refine .inr (hmarked.resolve_right ?_)
    decide

/-! ### Requests -/

/-- A walk along an entry of the same length, without a marker, takes each segment. -/
lemma forall₂_of_walk (hmarker : marker ∉ ps) (hlength : qs.length = ps.length)
    (hwalk : walk qs ps ≠ .pass) :
    List.Forall₂ (fun iview part => part = iview ∨ iview.head? = some (chr '{')) ps qs := by
  induction ps generalizing qs with
  | nil =>
      rw [List.eq_nil_of_length_eq_zero hlength]
      exact List.Forall₂.nil
  | cons iview ps ih =>
      obtain ⟨part, parts, rfl⟩ := List.exists_cons_of_length_eq_add_one hlength
      rw [List.mem_cons, not_or] at hmarker
      have hlength : parts.length = ps.length := by simpa using hlength
      have hrest : (if parts = [] then Fate.stop else walk parts ps) ≠ .pass →
          List.Forall₂ (fun iview part => part = iview ∨ iview.head? = some (chr '{'))
            ps parts := by
        intro h
        by_cases hnil : parts = []
        · subst hnil
          rw [List.eq_nil_of_length_eq_zero hlength.symm]
          exact List.Forall₂.nil
        · rw [if_neg hnil] at h
          exact ih hmarker.2 hlength h
      rw [walk] at hwalk
      by_cases heq : part = iview
      · rw [if_pos heq] at hwalk
        exact .cons (.inl heq) (hrest hwalk)
      · rw [if_neg heq, if_neg (Ne.symm hmarker.1)] at hwalk
        by_cases hbrace : iview.head? = some (chr '{')
        · rw [if_pos hbrace] at hwalk
          exact .cons (.inr hbrace) (hrest hwalk)
        · rw [if_neg hbrace] at hwalk
          exact absurd rfl hwalk

/-- An entry without a marker reacts to requests with its segments only. -/
lemma sameSegments_of_reacts (hp : p.Sound) (hmarker : marker ∉ p.parts) (hreacts : p.Reacts q) :
    SameSegments p.path q := by
  have hwildcard : p.wildcard = false :=
    Bool.eq_false_of_not_eq_true fun h => hmarker (hp.wildcard.mp h)
  rw [SameSegments, ← hp.parts]
  rcases hreacts with ⟨beyond, method, hvisit⟩ | ⟨rfl, -⟩
  · have hfate : p.fate q ≠ .pass := fun hpass => hvisit (visit_pass hp hpass)
    rw [Path.fate] at hfate
    split_ifs at hfate with hskip
    · exact absurd rfl hfate
    · have hlength : (split q).length = p.parts.length := by
        by_contra hne
        exact hskip ⟨hne, .inl hwildcard⟩
      exact forall₂_of_walk hmarker hlength hfate
  · rw [← hp.parts]
    exact List.forall₂_same.mpr fun part _ => .inl rfl

/-! ### Runs -/

/-- **The marker stands for final stars only** if no path has it as a segment of its own, and only
then. -/
theorem marksOnlyStars_iff (sorter : Sorter) (error404 error405 : Bool)
    (calls : List (AddCall H)) :
    let after := Stateful.run sorter calls (HttpRouter.make error404 error405)
    MarksOnlyStars after.1 after.2 ↔ ∀ c ∈ after.2, Unmarked c.path := by
  intro after
  have hledger : Ledger after.1 after.2 := ledger_addAll Stateful.run_eq
  constructor
  · intro h c hc
    by_contra hmarked
    obtain ⟨k, hk⟩ := List.mem_iff_getElem?.mp hc
    obtain ⟨p, hp, hpath, -⟩ := hledger.complete k c hk
    have hentry := hledger.entries p hp
    rcases mem_stored_of_marked (hledger.checked c hc) hmarked with ⟨hmem, hends⟩ | hmem
    · rw [← hpath, ← hentry.parts, ← hentry.wildcard] at hmem
      exact hends ((h.wildcard p hp c hc hpath).mp hmem)
    · rw [← hpath, ← hentry.parts] at hmem
      exact h.last p hp hmem
  · intro hunmarked
    have hinv := hledger.inv hunmarked
    have hiff : ∀ p ∈ after.1.paths, ∀ c ∈ after.2, p.path = HttpRouter.stored c.path →
        (marker ∈ p.parts ↔ EndsWithStar c.path) := by
      intro p hp c hc hpath
      rw [(hledger.entries p hp).parts, hpath]
      exact mem_stored_iff (hledger.checked c hc) (hunmarked c hc)
    refine ⟨fun p hp c hc hpath => ?_, fun p hp => (hinv.records p hp).last,
      fun p hp c hc hpath hends q hreacts => ?_⟩
    · rw [(hledger.entries p hp).wildcard]
      exact hiff p hp c hc hpath
    · have hmarker : marker ∉ p.parts := fun hmem => hends ((hiff p hp c hc hpath).mp hmem)
      have hsame := sameSegments_of_reacts (hledger.entries p hp).sound hmarker hreacts
      rcases stored_cases (hledger.checked c hc) with ⟨-, hstored⟩ | ⟨pre, -, hfull, -, -⟩
      · rwa [hpath, hstored] at hsame
      · refine absurd ?_ hends
        rw [EndsWithStar, hfull, List.getLast?_concat]

/-- A path that ends with the marker is taken for a wildcard. -/
theorem not_marksOnlyStars_marked :
    let calls : List (AddCall ℕ) :=
      [{ method := bytesOf "GET", path := bytesOf "/a/~", handler := 0 }]
    let after := Stateful.run Sorter.insertion calls (HttpRouter.make true true)
    after.2 = calls ∧ ¬ MarksOnlyStars after.1 after.2 := by
  intro calls after
  refine ⟨by decide, fun h => ?_⟩
  have hentry : ∃ p ∈ after.1.paths, ∃ c ∈ after.2, p.path = HttpRouter.stored c.path ∧
      p.wildcard = true ∧ ¬ EndsWithStar c.path := by
    decide
  obtain ⟨p, hp, c, hc, hpath, hwildcard, hends⟩ := hentry
  exact hends ((h.wildcard p hp c hc hpath).mp hwildcard)

end Router

end S3Proxy
