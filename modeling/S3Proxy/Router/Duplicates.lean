import S3Proxy.Router.Order

/-!
# Duplicate routes

`addParameter` refuses a route by the methods of one entry, that of its lower bound.  It looks at
them if the entry has the very path, or if any entry has the same `epath` (`HttpRouter.consulted`).
The entry need not be the one that clashes, and it may be the end of the vector.

## Main results

`exactTest_iff`: after any calls of `add`, and for every valid call, the test for duplicates does
what it is for (`ExactTest`: it refuses the duplicates and no others, and looks at an entry with a
route of the same pattern, if at any) exactly if the lower bound of the call is right (`Located`).
The second part is about runs: if each call finds its lower bound right, no route is registered
twice (`DistinctRoutes`).

`exactTest_of_spelled` has a condition on the calls alone.  It is enough that the pattern of the
call is registered under no other path, that this path has no wildcard, and that no other pattern
has the same `epath` (`AddCall.Spelled`); whatever else is registered does not matter.

`refused_iff` computes the refusal from the entry that is consulted, `epathOf_eq` what an `epath`
keeps of a path, and `Ledger.clash_iff` says that each `epath` in the vector is that of a call.

## Hypotheses

The call is `AddCall.Valid`: its path would be accepted by an empty router.  The errors for other
paths come before the test.

## What it rests on

`Ledger` and `Stateful.run` of `Router.Ledger`, the order of the vector in `Router.Fate`, and for
the second result `pairwise_addAll` of `Router.Order`: only the path of a wildcard is repeated.
-/

namespace S3Proxy

namespace Router

variable {H : Type*} {sorter : Sorter} {r r' : HttpRouter H} {c d : AddCall H}
  {calls done : List (AddCall H)} {p : Path} {path full : Bytes} {parts : List Bytes}

/-! ### Valid calls -/

/-- The wildcard and the parameters of the path are as they should be. -/
def AddCall.Valid (c : AddCall H) : Prop :=
  HttpRouter.checkWildcard c.path = .ok () ∧
    ∀ part ∈ split (HttpRouter.stored c.path), ValidPart part

instance : DecidablePred ValidPart := fun _ => inferInstanceAs (Decidable (_ ∧ _))

instance : Decidable c.Valid := inferInstanceAs (Decidable (_ ∧ _))

variable (path) in
lemma scanPart_of_valid {part : Bytes} (h : ValidPart part) (acc : Bytes × Bool) :
    ∃ acc', Path.scanPart path acc part = .ok acc' := by
  have hvalid : ¬ ((part.head? = some (chr '{') ∧ part.getLast? ≠ some (chr '}')) ∨
      part.head? = some (chr ':')) := by
    rintro (⟨hbrace, hlast⟩ | hcolon)
    · exact hlast (h.1 hbrace)
    · exact h.2 hcolon
  rw [Path.scanPart, if_neg hvalid]
  split_ifs
  · exact ⟨_, rfl⟩
  · exact ⟨_, rfl⟩
  · exact ⟨_, rfl⟩

variable (path) in
lemma foldlM_scanPart_of_valid (h : ∀ part ∈ parts, ValidPart part) (acc : Bytes × Bool) :
    ∃ acc', parts.foldlM (Path.scanPart path) acc = .ok acc' := by
  induction parts generalizing acc with
  | nil => exact ⟨acc, rfl⟩
  | cons part parts ih =>
      obtain ⟨acc₁, hscan⟩ := scanPart_of_valid path (h part List.mem_cons_self) acc
      rw [List.foldlM_cons, hscan]
      exact ih (fun part hpart => h part (List.mem_cons_of_mem _ hpart)) acc₁

/-- What `epath` is for a path that is given to `add`. -/
def epathOf (full : Bytes) : Bytes := (split (HttpRouter.stored full)).flatMap erased

/-- **The constructor** of an entry returns for valid paths. -/
lemma AddCall.Valid.make (h : c.Valid) (k : ℕ) :
    ∃ ps, Path.make (HttpRouter.stored c.path) c.method k c.ref = .ok ps ∧
      ps.epath = epathOf c.path := by
  obtain ⟨acc, hfold⟩ := foldlM_scanPart_of_valid (HttpRouter.stored c.path) h.2 ([], false)
  refine ⟨_, by rw [Path.make, hfold]; rfl, ?_⟩
  exact (foldlM_scanPart_ok hfold).2.1

/-- Any call that returns was valid. -/
lemma valid_of_add (hledger : Ledger r done) (hadd : r.add sorter c = .ok r') : c.Valid := by
  have hledger' := hledger.add hadd
  have hlast : (done ++ [c])[done.length]? = some c := List.getElem?_concat_length
  obtain ⟨p, hp, hpath, -⟩ := hledger'.complete done.length c hlast
  refine ⟨hledger'.checked c (by simp), ?_⟩
  rw [← hpath, ← (hledger'.entries p hp).parts]
  exact (hledger'.entries p hp).valid

/-! ### Patterns and `epath` -/

/-- What a segment of a pattern adds to `epath`. -/
def Segment.erased : Segment → Bytes
  | .literal s => Router.erased s
  | .param _ => bytesOf "/{}"
  | .rest => Router.erased marker

lemma erased_of_ne_star {part : Bytes} (h : part ≠ bytesOf "*") :
    (Segment.of (bytesOf "*") part).shape.erased = erased part := by
  rw [Segment.of, if_neg h]
  split_ifs with hbrace
  · rw [erased, if_pos hbrace]
    rfl
  · rfl

/-- **The pattern decides `epath`**, since the names of parameters are not in it. -/
lemma epathOf_eq (hcheck : HttpRouter.checkWildcard full = .ok ()) :
    epathOf full = ((segments full).map Segment.shape).flatMap Segment.erased := by
  have hplain : ∀ {pre : Bytes}, chr '*' ∉ pre →
      (((split pre).map (Segment.of (bytesOf "*"))).map Segment.shape).flatMap Segment.erased =
        (split pre).flatMap erased := by
    intro pre hpre
    rw [List.map_map, List.flatMap_map]
    refine List.flatMap_congr fun part hpart => erased_of_ne_star ?_
    rintro rfl
    exact hpre (Text.mem_of_mem_split hpart (by decide))
  rw [epathOf, segments]
  rcases stored_cases hcheck with ⟨hnone, hstored⟩ | ⟨pre, hpre, hfull, -, hsplit⟩
  · rw [hstored, hplain hnone]
  · rw [hsplit, hfull, List.map_append, List.map_append, List.flatMap_append, List.flatMap_append,
      hplain hpre]
    rfl

lemma epathOf_congr (hc : HttpRouter.checkWildcard c.path = .ok ())
    (hd : HttpRouter.checkWildcard d.path = .ok ()) (hshape : d.shape = c.shape) :
    epathOf d.path = epathOf c.path := by
  rw [epathOf_eq hc, epathOf_eq hd]
  exact congrArg (List.flatMap Segment.erased) hshape

/-- An entry has the `epath` of the calls it was made for. -/
lemma Ledger.epath_eq (h : Ledger r done) (hp : p ∈ r.paths)
    (hpath : p.path = HttpRouter.stored d.path) : p.epath = epathOf d.path := by
  rw [(h.entries p hp).epath, (h.entries p hp).parts, hpath, epathOf]

/-! ### The entry that is looked at -/

/-- Whose methods `addParameter` looks at. -/
inductive Consulted
  | nothing
  | pastEnd
  | entry (p : Path)

/-- Any entry has the `epath` of the call. -/
def HttpRouter.Clash (r : HttpRouter H) (c : AddCall H) : Prop :=
  ∃ p ∈ r.paths, p.epath = epathOf c.path

instance : Decidable (r.Clash c) := inferInstanceAs (Decidable (∃ p ∈ r.paths, _))

/-- The lower bound is looked at if it is hit, or if there is a clash. -/
def HttpRouter.consulted (r : HttpRouter H) (c : AddCall H) : Consulted :=
  match LowerBound.lowerBound Path.path c.path r.paths with
  | [] => if r.Clash c then .pastEnd else .nothing
  | iter :: _ => if c.path = iter.path ∨ r.Clash c then .entry iter else .nothing

/-- What is found there. -/
def Consulted.methods (c : AddCall H) : Consulted → List Bytes
  | .nothing => []
  | .pastEnd => c.beyond
  | .entry p => p.methods

/-- The call throws `DuplicateRouteError`. -/
def AddCall.Refused (sorter : Sorter) (r : HttpRouter H) (c : AddCall H) : Prop :=
  ∃ msg, (Stateful.add sorter c r).1 = .error (.duplicateRoute msg)

lemma refused_iff_add : c.Refused sorter r ↔
    ∃ msg, r.addParameter sorter c = .error (.duplicateRoute msg) := by
  rw [AddCall.Refused, Stateful.add_eq, HttpRouter.add]
  cases r.addParameter sorter c with
  | error e =>
      refine exists_congr fun msg => ⟨fun h => ?_, fun h => ?_⟩
      · exact congrArg Except.error (Except.error.inj h)
      · exact congrArg Except.error (Except.error.inj h)
  | ok paths => exact iff_of_false (by rintro ⟨msg, ⟨⟩⟩) (by rintro ⟨msg, ⟨⟩⟩)

/-- The clash test. -/
lemma addPath_refused_iff (hvalid : c.Valid) {found : List Bytes} :
    (∃ msg, r.addPath sorter c found = .error (.duplicateRoute msg)) ↔
      r.Clash c ∧ c.method ∈ found := by
  obtain ⟨ps, hmake, hepath⟩ := hvalid.make r.handlers.length
  have hfind : (r.paths.find? (·.epath = ps.epath)).isSome ↔ r.Clash c := by
    rw [List.find?_isSome, hepath]
    simp [HttpRouter.Clash]
  rw [HttpRouter.addPath, hvalid.1, hmake, ← hfind]
  dsimp only [bind, Except.bind]
  cases r.paths.find? (·.epath = ps.epath) with
  | none => exact iff_of_false (by rintro ⟨msg, ⟨⟩⟩) fun h => Bool.noConfusion h.1
  | some p =>
      dsimp only
      split_ifs with hmethod
      · exact iff_of_true ⟨_, rfl⟩ ⟨rfl, hmethod⟩
      · exact iff_of_false (by rintro ⟨msg, ⟨⟩⟩) fun h => hmethod h.2

/-- **A valid call is refused** if its method is found at the entry that is looked at. -/
lemma refused_iff (hvalid : c.Valid) :
    c.Refused sorter r ↔ c.method ∈ (r.consulted c).methods c := by
  rw [refused_iff_add, HttpRouter.addParameter, HttpRouter.consulted]
  cases LowerBound.lowerBound Path.path c.path r.paths with
  | nil =>
      dsimp only
      rw [addPath_refused_iff hvalid]
      split_ifs with hclash
      · exact and_iff_right hclash
      · exact iff_of_false (fun h => hclash h.1) (by simp [Consulted.methods])
  | cons iter above =>
      dsimp only
      by_cases hpath : c.path = iter.path
      · have hlooked : c.path = iter.path ∨ r.Clash c := .inl hpath
        rw [if_pos hpath, if_pos hlooked]
        by_cases hmethod : c.method ∈ iter.methods
        · have hsome : (iter.indexOf c.method).isSome = true := List.isSome_idxOf?.mpr hmethod
          rw [if_pos hsome]
          exact iff_of_true ⟨_, rfl⟩ hmethod
        · have hnone : ¬ (iter.indexOf c.method).isSome = true := fun h =>
            hmethod (List.isSome_idxOf?.mp h)
          rw [if_neg hnone]
          exact iff_of_false (by rintro ⟨msg, ⟨⟩⟩) hmethod
      · rw [if_neg hpath, addPath_refused_iff hvalid]
        by_cases hclash : r.Clash c
        · rw [if_pos (.inr hclash)]
          exact and_iff_right hclash
        · rw [if_neg (not_or.mpr ⟨hpath, hclash⟩)]
          exact iff_of_false (fun h => hclash h.1) (by simp [Consulted.methods])

/-! ### One call -/

/-- A registered route has the method and the pattern of the call. -/
def Duplicate (done : List (AddCall H)) (c : AddCall H) : Prop :=
  ∃ d ∈ done, d.method = c.method ∧ d.shape = c.shape

/-- The entry holds a route with the pattern of the call. -/
def Path.Alike (done : List (AddCall H)) (c : AddCall H) (p : Path) : Prop :=
  ∃ d ∈ done, HttpRouter.stored d.path = p.path ∧ d.shape = c.shape

instance : Decidable (Duplicate done c) := inferInstanceAs (Decidable (∃ d ∈ done, _))

instance : Decidable (p.Alike done c) := inferInstanceAs (Decidable (∃ d ∈ done, _))

/-- The test for duplicates does what it is for. -/
structure ExactTest (sorter : Sorter) (r : HttpRouter H) (done : List (AddCall H))
    (c : AddCall H) : Prop where
  refused : c.Refused sorter r ↔ Duplicate done c
  inside : r.consulted c ≠ .pastEnd
  alike : ∀ p, r.consulted c = .entry p → p.Alike done c

/-- The lower bound of the call is right. -/
structure Located (r : HttpRouter H) (done : List (AddCall H)) (c : AddCall H) : Prop where
  /-- If there are routes of the pattern, it is an entry with one of them, which lists the method
  for all of them. -/
  found : (∃ d ∈ done, d.shape = c.shape) →
    ∃ iter above, LowerBound.lowerBound Path.path c.path r.paths = iter :: above ∧
      iter.Alike done c ∧ (c.method ∈ iter.methods ↔ Duplicate done c)
  /-- If there are none, no other pattern has the same `epath`. -/
  absent : (∀ d ∈ done, d.shape ≠ c.shape) → ∀ d ∈ done, epathOf d.path ≠ epathOf c.path

/-- Each `epath` in the vector is that of a call. -/
lemma Ledger.clash_iff (h : Ledger r done) :
    r.Clash c ↔ ∃ d ∈ done, epathOf d.path = epathOf c.path := by
  constructor
  · rintro ⟨p, hp, hepath⟩
    obtain ⟨k, d, -, hd, hpath⟩ := h.exists_call hp
    exact ⟨d, List.mem_of_getElem? hd, (h.epath_eq hp hpath.symm).symm.trans hepath⟩
  · rintro ⟨d, hd, hepath⟩
    obtain ⟨k, hk⟩ := List.mem_iff_getElem?.mp hd
    obtain ⟨p, hp, hpath, -⟩ := h.complete k d hk
    exact ⟨p, hp, (h.epath_eq hp hpath).trans hepath⟩

lemma Ledger.clash_of_shape (h : Ledger r done) (hvalid : c.Valid) (hd : d ∈ done)
    (hshape : d.shape = c.shape) : r.Clash c :=
  h.clash_iff.mpr ⟨d, hd, epathOf_congr hvalid.1 (h.checked d hd) hshape⟩

/-- An entry that is hit clashes. -/
lemma Ledger.clash_of_path (h : Ledger r done) (hp : p ∈ r.paths) (hpath : c.path = p.path) :
    r.Clash c := by
  have hstored : HttpRouter.stored c.path = p.path := by
    rw [stored_eq_self (hpath ▸ (h.entries p hp).star), hpath]
  exact ⟨p, hp, h.epath_eq hp hstored.symm⟩

/-- An exact test finds the lower bound in the right place. -/
lemma ExactTest.located (hledger : Ledger r done) (hvalid : c.Valid)
    (h : ExactTest sorter r done c) : Located r done c := by
  have hiter : r.Clash c → ∃ iter above,
      LowerBound.lowerBound Path.path c.path r.paths = iter :: above ∧
        r.consulted c = .entry iter := by
    intro hclash
    have hinside := h.inside
    rw [HttpRouter.consulted] at hinside ⊢
    cases hbound : LowerBound.lowerBound Path.path c.path r.paths with
    | nil =>
        rw [hbound] at hinside
        exact absurd (if_pos hclash) hinside
    | cons iter above => exact ⟨iter, above, rfl, if_pos (.inr hclash)⟩
  constructor
  · rintro ⟨d, hd, hshape⟩
    obtain ⟨iter, above, hbound, hlooked⟩ := hiter (hledger.clash_of_shape hvalid hd hshape)
    refine ⟨iter, above, hbound, h.alike iter hlooked, ?_⟩
    rw [← h.refused, refused_iff hvalid, hlooked]
    rfl
  · intro hnone d hd hepath
    obtain ⟨iter, above, -, hlooked⟩ := hiter (hledger.clash_iff.mpr ⟨d, hd, hepath⟩)
    obtain ⟨d', hd', -, hshape⟩ := h.alike iter hlooked
    exact hnone d' hd' hshape

variable (sorter) in
/-- A lower bound in the right place makes the test exact. -/
lemma Located.exactTest (hledger : Ledger r done) (hvalid : c.Valid) (h : Located r done c) :
    ExactTest sorter r done c := by
  by_cases hkin : ∃ d ∈ done, d.shape = c.shape
  · obtain ⟨iter, above, hbound, halike, hmethod⟩ := h.found hkin
    obtain ⟨d, hd, hshape⟩ := hkin
    have hlooked : r.consulted c = .entry iter := by
      rw [HttpRouter.consulted, hbound]
      exact if_pos (.inr (hledger.clash_of_shape hvalid hd hshape))
    refine ⟨?_, ?_, ?_⟩
    · rw [refused_iff hvalid, hlooked]
      exact hmethod
    · rw [hlooked]
      exact Consulted.noConfusion
    · rw [hlooked]
      rintro p ⟨⟩
      exact halike
  · have hnone : ∀ d ∈ done, d.shape ≠ c.shape := fun d hd hshape => hkin ⟨d, hd, hshape⟩
    have hclash : ¬ r.Clash c := by
      intro hclash
      obtain ⟨d, hd, hepath⟩ := hledger.clash_iff.mp hclash
      exact h.absent hnone d hd hepath
    have hlooked : r.consulted c = .nothing := by
      rw [HttpRouter.consulted]
      cases hbound : LowerBound.lowerBound Path.path c.path r.paths with
      | nil => exact if_neg hclash
      | cons iter above =>
          refine if_neg (not_or.mpr ⟨fun hpath => hclash ?_, hclash⟩)
          have hiter := (hledger.ordered.mem_of_bound hbound List.mem_cons_self).1
          exact hledger.clash_of_path hiter hpath
    refine ⟨?_, ?_, ?_⟩
    · rw [refused_iff hvalid, hlooked]
      refine iff_of_false (by simp [Consulted.methods]) ?_
      rintro ⟨d, hd, -, hshape⟩
      exact hnone d hd hshape
    · rw [hlooked]
      exact Consulted.noConfusion
    · rw [hlooked]
      rintro p ⟨⟩

/-! ### One path for each pattern -/

/-- The routes with the pattern of the call are under its very path, which is without a wildcard,
and no route with another pattern has the same `epath`. -/
structure AddCall.Spelled (done : List (AddCall H)) (c : AddCall H) : Prop where
  plain : chr '*' ∉ c.path
  spelled : ∀ d ∈ done, d.shape = c.shape → d.path = c.path
  apart : ∀ d ∈ done, d.shape ≠ c.shape → epathOf d.path ≠ epathOf c.path

lemma AddCall.Spelled.mono (h : c.Spelled calls) (hsub : ∀ d ∈ done, d ∈ calls) :
    c.Spelled done where
  plain := h.plain
  spelled d hd := h.spelled d (hsub d hd)
  apart d hd := h.apart d (hsub d hd)

/-- A route that is stored under the path of such a call has been given under it. -/
lemma AddCall.Spelled.of_stored (h : c.Spelled done) (hd : d ∈ done)
    (hpath : HttpRouter.stored d.path = c.path) : d.shape = c.shape ∧ d.path = c.path := by
  have hepath : epathOf d.path = epathOf c.path := by
    rw [epathOf, epathOf, hpath, stored_eq_self h.plain]
  have hshape : d.shape = c.shape := by
    by_contra hne
    exact h.apart d hd hne hepath
  exact ⟨hshape, h.spelled d hd hshape⟩

/-- The lower bound of such a call is right: it is the entry of its path, the only one. -/
lemma AddCall.Spelled.located (hledger : Ledger r done)
    (hpairs : (r.paths.map Path.path).Pairwise (Repeats done)) (h : c.Spelled done) :
    Located r done c := by
  refine ⟨?_, fun hnone d hd => h.apart d hd (hnone d hd)⟩
  rintro ⟨d, hd, hshape⟩
  have hroute : ∀ d ∈ done, d.shape = c.shape →
      ∃ p ∈ r.paths, p.path = c.path ∧ d.method ∈ p.methods := by
    intro d hd hshape
    obtain ⟨k, hk⟩ := List.mem_iff_getElem?.mp hd
    obtain ⟨p, hp, hpath, hzip⟩ := hledger.complete k d hk
    rw [h.spelled d hd hshape, stored_eq_self h.plain] at hpath
    exact ⟨p, hp, hpath, (List.of_mem_zip hzip).1⟩
  obtain ⟨p, hp, hpath, -⟩ := hroute d hd hshape
  obtain ⟨iter, above, hbound, hiter⟩ :=
    LowerBound.exists_lowerBound_eq_cons hledger.sorted hp hpath
  have hmem : iter ∈ r.paths := (hledger.ordered.mem_of_bound hbound List.mem_cons_self).1
  -- only the path of a wildcard can occur at two entries
  have honly : ∀ p ∈ r.paths, p.path = c.path → p = iter := by
    intro p hp hpath
    have hsymm : Std.Symm fun p p' : Path => Repeats done p.path p'.path :=
      ⟨fun _ _ => Repeats.symm⟩
    by_contra hne
    obtain ⟨d, hd, hstar, hdpath⟩ :=
      (List.pairwise_map.mp hpairs).forall hp hmem hne (hpath.trans hiter.symm)
    rw [(h.of_stored hd (hdpath.trans hpath)).2] at hstar
    exact h.plain hstar
  refine ⟨iter, above, hbound, ⟨d, hd, ?_, hshape⟩, fun hmethod => ?_, ?_⟩
  · rw [h.spelled d hd hshape, stored_eq_self h.plain, hiter]
  · have hformed := hledger.entries iter hmem
    have hsome : iter.handlerOf c.method ≠ none := fun hnone =>
      (handlerOf_eq_none_iff hformed.length_eq).mp hnone hmethod
    obtain ⟨k, hk⟩ := Option.ne_none_iff_exists'.mp hsome
    have hzip := (handlerOf_eq_some_iff hformed.methods_nodup).mp hk
    obtain ⟨d', hd', hmethod', hpath'⟩ := hledger.routes iter hmem _ hzip
    exact ⟨d', List.mem_of_getElem? hd', hmethod',
      (h.of_stored (List.mem_of_getElem? hd') (hpath'.trans hiter)).1⟩
  · rintro ⟨d', hd', hmethod, hshape'⟩
    obtain ⟨p', hp', hpath', hlisted⟩ := hroute d' hd' hshape'
    rw [honly p' hp' hpath', hmethod] at hlisted
    exact hlisted

/-! ### Runs -/

/-- No two routes have the same method and the same pattern. -/
def DistinctRoutes (done : List (AddCall H)) : Prop :=
  done.Pairwise fun d c => ¬ (d.method = c.method ∧ d.shape = c.shape)

instance : Decidable (DistinctRoutes done) := inferInstanceAs (Decidable (done.Pairwise _))

/-- A call that returns is no duplicate if the test is exact. -/
lemma DistinctRoutes.add (h : DistinctRoutes done) (htest : ExactTest sorter r done c)
    (hadd : r.add sorter c = .ok r') : DistinctRoutes (done ++ [c]) := by
  refine List.pairwise_append.mpr ⟨h, List.pairwise_singleton _ _, fun d hd c' hc' hsame => ?_⟩
  cases List.mem_singleton.mp hc'
  obtain ⟨msg, hrefused⟩ := htest.refused.mpr ⟨d, hd, hsame⟩
  rw [Stateful.add_eq, hadd] at hrefused
  cases hrefused

/-- **A run** keeps the routes distinct if the lower bound is right at each call. -/
lemma DistinctRoutes.run (hledger : Ledger r done) (h : DistinctRoutes done)
    (hlocated : ∀ before c after, calls = before ++ c :: after → c.Valid →
      Located (Stateful.run sorter before r).1 (done ++ (Stateful.run sorter before r).2) c) :
    DistinctRoutes (done ++ (Stateful.run sorter calls r).2) := by
  induction calls generalizing r done with
  | nil =>
      rw [Stateful.run, List.append_nil]
      exact h
  | cons c calls ih =>
      have hone := Stateful.add_eq sorter r c
      cases hadd : r.add sorter c with
      | error e =>
          rw [hadd] at hone
          rw [Stateful.run, hone]
          refine ih hledger h fun before c' after hcalls hvalid => ?_
          have hnext := hlocated (c :: before) c' after (congrArg (c :: ·) hcalls) hvalid
          rw [Stateful.run, hone] at hnext
          exact hnext
      | ok r₁ =>
          rw [hadd] at hone
          have hvalid := valid_of_add hledger hadd
          have hfirst := hlocated [] c calls rfl hvalid
          rw [Stateful.run, List.append_nil] at hfirst
          have hdistinct := h.add (hfirst.exactTest sorter hledger hvalid) hadd
          have hrun := ih (hledger.add hadd) hdistinct fun before c' after hcalls hvalid' => by
            have hnext := hlocated (c :: before) c' after (congrArg (c :: ·) hcalls) hvalid'
            rw [Stateful.run, hone] at hnext
            rw [List.append_assoc]
            exact hnext
          rw [List.append_assoc] at hrun
          rw [Stateful.run, hone]
          exact hrun

/-- **The test for duplicates is exact** for the calls whose lower bound is right, and for no other
calls.  A run of such calls never registers a route twice. -/
theorem exactTest_iff (sorter : Sorter) (error404 error405 : Bool) (calls : List (AddCall H)) :
    let after := fun calls => Stateful.run sorter calls (HttpRouter.make error404 error405)
    (∀ c : AddCall H, c.Valid →
      (ExactTest sorter (after calls).1 (after calls).2 c ↔
        Located (after calls).1 (after calls).2 c)) ∧
    ((∀ before c rest, calls = before ++ c :: rest → c.Valid →
        Located (after before).1 (after before).2 c) →
      DistinctRoutes (after calls).2) := by
  intro after
  have hledger : Ledger (after calls).1 (after calls).2 := ledger_addAll Stateful.run_eq
  refine ⟨fun c hvalid => ⟨fun h => h.located hledger hvalid, fun h => ?_⟩, fun hlocated => ?_⟩
  · exact h.exactTest sorter hledger hvalid
  · exact DistinctRoutes.run ledger_make List.Pairwise.nil hlocated

/-- **A pattern under one path** makes the test exact, whatever else is registered: it is enough
that the calls give the pattern of `c` no other path, and its `epath` to no other pattern. -/
theorem exactTest_of_spelled (sorter : Sorter) (error404 error405 : Bool)
    {calls : List (AddCall H)} (hvalid : c.Valid) (h : c.Spelled calls) :
    let after := Stateful.run sorter calls (HttpRouter.make error404 error405)
    ExactTest sorter after.1 after.2 c := by
  intro after
  have hpairs : (after.1.paths.map Path.path).Pairwise (Repeats after.2) :=
    pairwise_addAll ledger_make List.Pairwise.nil Stateful.run_eq
  have hledger : Ledger after.1 after.2 := ledger_addAll Stateful.run_eq
  have hsub : ∀ d ∈ after.2, d ∈ calls := fun d hd =>
    (Stateful.run_sublist sorter (HttpRouter.make error404 error405) calls).mem hd
  exact ((h.mono hsub).located hledger hpairs).exactTest sorter hledger hvalid

/-- A route that is added again under its very path is refused. -/
theorem exactTest_again :
    let calls : List (AddCall ℕ) :=
      [{ method := bytesOf "GET", path := bytesOf "/a/{x}", handler := 0 }]
    let c : AddCall ℕ := { method := bytesOf "GET", path := bytesOf "/a/{x}", handler := 1 }
    let after := Stateful.run Sorter.insertion calls (HttpRouter.make true true)
    c.Refused Sorter.insertion after.1 := by
  intro calls c after
  have hduplicate : Duplicate calls c := by decide
  have hlocated : Located after.1 calls c := by
    refine ⟨fun _ => ⟨_, _, rfl, by decide, by decide⟩, fun hnone => ?_⟩
    obtain ⟨d, hd, -, hshape⟩ := hduplicate
    exact absurd hshape (hnone d hd)
  have htest := ((exactTest_iff Sorter.insertion true true calls).1 c (by decide)).mpr hlocated
  exact htest.refused.mpr hduplicate

/-- A test that is made at another entry with the same pattern misses the duplicate. -/
theorem not_exactTest_renamed :
    let calls : List (AddCall ℕ) :=
      [ { method := bytesOf "HEAD", path := bytesOf "/a/{z}", handler := 0 },
        { method := bytesOf "GET", path := bytesOf "/a/{x}", handler := 1 } ]
    let c : AddCall ℕ := { method := bytesOf "GET", path := bytesOf "/a/{y}", handler := 2 }
    let after := fun calls => Stateful.run Sorter.insertion calls (HttpRouter.make true true)
    (after calls).2 = calls ∧ c.Valid ∧
      ¬ ExactTest Sorter.insertion (after calls).1 (after calls).2 c ∧
      ¬ DistinctRoutes (after (calls ++ [c])).2 := by
  intro calls c after
  have hduplicate : Duplicate (after calls).2 c := by decide
  have hadded : (after (calls ++ [c])).2 = calls ++ [c] := by decide
  have hrefused : ¬ c.Refused Sorter.insertion (after calls).1 := by
    rw [refused_iff (by decide)]
    decide
  refine ⟨by decide, by decide, fun h => hrefused (h.refused.mpr hduplicate), ?_⟩
  rw [hadded]
  decide

end Router

end S3Proxy
