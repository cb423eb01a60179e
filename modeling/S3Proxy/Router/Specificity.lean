import S3Proxy.Router.Routes

/-!
# Specificity and the order of the vector

The most specific path that matches should decide, with a literal before a parameter before the
wildcard.  The vector is sorted by the bytes of the path strings instead, and the name of a
parameter takes part in that order.

## Main result

`specific_iff_ordered` is about two routers that differ in the names of parameters only (`Renamed`).
Among paths of several shapes a most specific one decides in the first, whatever a loop reads, and
the second decides by the same call (`Specific`), exactly if both vectors are in the right order for
the request (`Ordered`): the first entry that matches and does not sort before the request is a most
specific one, the first entries of the two routers share a call, and the request does not run over
the entry.

`MostSpecific` compares the ranks of the segments from left to right (`ranks`).  `specificFirst_iff`
says what it means for the first entry, `decides_iff` that the first entry is the one that decides,
and `Inside.renamed` that the second router stays inside its entries where the first one does.

## Hypotheses

Neither router has a path with the marker as a segment, all calls return, and the retry without a
trailing slash does not apply.

## What it rests on

`Router.Search` for the entry that decides, and `find?_kind_iff` of `Library.LowerBound` for the
first entry of a kind in a sorted list.  `not_specific_named` has two routers at which the name of a
parameter makes the difference.
-/

namespace S3Proxy

namespace Router

variable {H : Type*} {sorter sorter' : Sorter} {r r' : HttpRouter H}
  {calls calls' : List (AddCall H)} {c c' : AddCall H} {p e : Path}
  {beyond : Path → List Bytes} {method q : Bytes} {check : Bool}

/-! ### Specificity -/

def Segment.rank : Segment → ℕ
  | .literal _ => 0
  | .param _ => 1
  | .rest => 2

/-- Patterns are compared from the left. -/
def ranks (pattern : List Segment) : List ℕ := pattern.map Segment.rank

/-- No path that matches is more specific than the pattern. -/
def MostSpecific (calls : List (AddCall H)) (q : Bytes) (pattern : List Segment) : Prop :=
  Matches pattern (split q) ∧
    ∀ c ∈ calls, c.Matching q → ranks pattern ≤ ranks (segments c.path)

instance {pattern : List Segment} : Decidable (MostSpecific calls q pattern) :=
  inferInstanceAs (Decidable (_ ∧ ∀ c ∈ calls, _))

/-! ### Renaming -/

def Segment.rename (σ : Bytes → Bytes) : Segment → Segment
  | .param name => .param (σ name)
  | segment => segment

/-- The same call with other names for the parameters of its path. -/
def Renamed (c c' : AddCall H) : Prop :=
  c'.method = c.method ∧ ∃ σ : Bytes → Bytes,
    (∀ n n', .param n ∈ segments c.path → .param n' ∈ segments c.path → σ n = σ n' → n = n') ∧
      segments c'.path = (segments c.path).map (Segment.rename σ)

lemma Renamed.length_eq (h : Renamed c c') :
    (segments c'.path).length = (segments c.path).length := by
  obtain ⟨-, σ, -, hsegments⟩ := h
  rw [hsegments, List.length_map]

/-! ### The entry that decides -/

/-- The entry at which a search ends, if its end is defined. -/
def Search.entry {π : Type*} : Search π → Option (Option Path)
  | .ended => some none
  | .missed => some none
  | .decided iter _ _ => some (some iter)
  | .undefined => none

/-- The entry whose methods `route` looks at. -/
def HttpRouter.routed (r : HttpRouter H) (beyond : Path → List Bytes) (method q : Bytes) :
    Option (Option Path) :=
  (r.search Assoc.emplace (.none : Params) beyond method q).entry

/-- The entry whose methods `canRoute` looks at. -/
def HttpRouter.canRouted (r : HttpRouter H) (beyond : Path → List Bytes) (method q : Bytes) :
    Option (Option Path) :=
  (r.search (fun _ _ _ => ()) () beyond method q).entry

/-- The entry decides about a request, for each method and whatever a loop reads behind an entry. -/
structure Decides (r : HttpRouter H) (q : Bytes) (check : Bool) (e : Path) : Prop where
  routed : ∀ beyond method, r.routed beyond method q = some (some e)
  canRouted : ∀ beyond method, r.canRouted beyond method q = some (some e)
  route : ∀ beyond method, method ≠ [] → ∃ params,
    r.route beyond method q check = r.reply (e.handlerOf method) params
  canRoute : ∀ beyond method, method ≠ [] →
    r.canRoute beyond method q = some (true, (e.handlerOf method).isSome)

/-- The loops do not run over the end of the first entry that can decide. -/
def Inside (r : HttpRouter H) (q : Bytes) : Prop :=
  ∀ p, r.first q = some p → ¬ Overrun p.parts (split q)

/-- Inside its entries, a search ends at the first one that can decide. -/
lemma entry_eq {π : Type*} {record : π → Bytes → Bytes → π} {start : π} (hinv : Inv r calls)
    (hinside : Inside r q) :
    (r.search record start beyond method q).entry = some (r.first q) := by
  cases hfirst : r.first q with
  | some p =>
      obtain ⟨params, hsearch⟩ :=
        search_decided record start beyond method hinv hfirst (hinside p hfirst)
      rw [hsearch]
      rfl
  | none =>
      rcases search_none record start beyond method hinv hfirst with hend | hmiss
      · rw [hend]
        rfl
      · rw [hmiss]
        rfl

/-- A search that ends whatever it reads stays inside. -/
lemma routed_some {s : Option Path} (hinv : Inv r calls)
    (h : r.routed (fun _ => []) method q = some s) : Inside r q ∧ s = r.first q := by
  have hinside : Inside r q := by
    intro p hfirst hover
    rw [HttpRouter.routed, search_undefined hinv hfirst hover rfl] at h
    cases h
  rw [HttpRouter.routed, entry_eq hinv hinside] at h
  exact ⟨hinside, (Option.some.inj h).symm⟩

/-- **The entry that decides** is the first one that can. -/
lemma decides_iff (hinv : Inv r calls) (hcheck : check = true → q.getLast? ≠ some (chr '/')) :
    Decides r q check e ↔ q ≠ [] ∧ r.first q = some e ∧ Inside r q := by
  constructor
  · intro h
    obtain ⟨hinside, hfirst⟩ := routed_some hinv (h.routed (fun _ => []) [])
    refine ⟨?_, hfirst.symm, hinside⟩
    rintro rfl
    have hcan := h.canRoute (fun _ => []) (bytesOf "GET") (by decide)
    rw [HttpRouter.canRoute, if_pos (.inr rfl)] at hcan
    cases hcan
  · rintro ⟨hq, hfirst, hinside⟩
    constructor
    · intro beyond method
      rw [HttpRouter.routed, entry_eq hinv hinside, hfirst]
    · intro beyond method
      rw [HttpRouter.canRouted, entry_eq hinv hinside, hfirst]
    · intro beyond method hmethod
      obtain ⟨params, hsearch⟩ :=
        search_decided Assoc.emplace .none beyond method hinv hfirst (hinside e hfirst)
      refine ⟨params, ?_⟩
      rw [route_eq_of_ne_nil hmethod hq hcheck, HttpRouter.routeParameters, hsearch]
    · intro beyond method hmethod
      obtain ⟨params, hsearch⟩ :=
        search_decided (fun _ _ _ => ()) () beyond method hinv hfirst (hinside e hfirst)
      rw [HttpRouter.canRoute, if_neg (not_or.mpr ⟨hmethod, hq⟩), hsearch]

/-! ### The order of the vector -/

/-- In the order of the vector, a most specific path comes before the others. -/
def SpecificFirst (r : HttpRouter H) (calls : List (AddCall H)) (q : Bytes) : Prop :=
  ∃ p ∈ r.paths, q ≤ p.path ∧ Seen q p ∧ MostSpecific calls q p.segments ∧
    ∀ p' ∈ r.paths, q ≤ p'.path → Seen q p' → ¬ MostSpecific calls q p'.segments →
      p.path < p'.path

instance : Decidable (SpecificFirst r calls q) := inferInstanceAs (Decidable (∃ p ∈ r.paths, _))

/-- **The two orders agree** when the first entry that can decide is a most specific one. -/
lemma specificFirst_iff (hinv : Inv r calls) :
    SpecificFirst r calls q ↔ ∃ p, r.first q = some p ∧ MostSpecific calls q p.segments := by
  have hkind : ∀ a ∈ r.paths, ∀ b ∈ r.paths, a.path = b.path →
      MostSpecific calls q a.segments → MostSpecific calls q b.segments := by
    intro a ha b hb hpath hmost
    have hparts : a.parts = b.parts := by
      rw [(hinv.records a ha).parts, (hinv.records b hb).parts, hpath]
    rw [Path.segments, ← hparts]
    exact hmost
  rw [HttpRouter.first, LowerBound.find?_kind_iff hinv.sorted hkind]
  simp only [Bool.and_eq_true, decide_eq_true_eq, and_imp, and_assoc]
  rfl

/-- Paths of several shapes only match a request with segments. -/
lemma ne_nil_of_not_alike (h : ¬ Alike calls q) : q ≠ [] := by
  rintro rfl
  have hnil : ∀ c : AddCall H, c.Matching [] → c.shape = [] := by
    intro c hmatch
    have hlength : (segments c.path).length = 0 := by
      rcases hmatch.length with hlength | ⟨-, hle⟩
      · exact hlength.symm
      · exact Nat.le_zero.mp hle
    rw [AddCall.shape, List.eq_nil_of_length_eq_zero hlength]
    rfl
  exact h fun c _ c' _ hc hc' => (hnil c hc).trans (hnil c' hc').symm

/-! ### Specificity decides -/

/-- Two entries come from a common call, up to the names of its parameters. -/
def SharesCall (p p' : Path) : Prop := ∃ k ∈ p.handlers, k ∈ p'.handlers

/-- Specificity decides about a request, and the names of the parameters do not. -/
structure Specific (r r' : HttpRouter H) (calls : List (AddCall H)) (q : Bytes) (check : Bool) :
    Prop where
  /-- Among paths of several shapes, a most specific one decides. -/
  decides : ¬ Alike calls q → ∃ e ∈ r.paths, MostSpecific calls q e.segments ∧ Decides r q check e
  /-- The other router takes the same path, or none as well. -/
  renamed : ∀ beyond beyond' method, ∃ s s', r.routed beyond method q = some s ∧
    r.canRouted beyond method q = some s ∧ r'.routed beyond' method q = some s' ∧
    r'.canRouted beyond' method q = some s' ∧ Option.Rel SharesCall s s'

/-- The vectors of both routers are in the right order for a request. -/
structure Ordered (r r' : HttpRouter H) (calls : List (AddCall H)) (q : Bytes) : Prop where
  specific : ¬ Alike calls q → SpecificFirst r calls q
  shared : Option.Rel SharesCall (r.first q) (r'.first q)
  inside : Inside r q

/-- An entry of the renamed router has as many segments as the one that it shares a call with. -/
lemma SharesCall.length_eq (hinv : Inv r calls) (hinv' : Inv r' calls')
    (hrenamed : List.Forall₂ Renamed calls calls') {p' : Path} (hp : p ∈ r.paths)
    (hp' : p' ∈ r'.paths) (h : SharesCall p p') : p'.parts.length = p.parts.length := by
  obtain ⟨k, hk, hk'⟩ := h
  obtain ⟨c, hc, hsegments⟩ := (hinv.records p hp).registered_of_mem hk
  obtain ⟨c', hc', hsegments'⟩ := (hinv'.records p' hp').registered_of_mem hk'
  obtain ⟨hlt, rfl⟩ := List.getElem?_eq_some_iff.mp hc
  obtain ⟨hlt', rfl⟩ := List.getElem?_eq_some_iff.mp hc'
  have hlength := ((List.forall₂_iff_get.mp hrenamed).2 k hlt hlt').length_eq
  rw [List.get_eq_getElem, List.get_eq_getElem, hsegments, hsegments'] at hlength
  rwa [Path.segments, Path.segments, List.length_map, List.length_map] at hlength

/-- Where the routers share the first entry, both searches stay inside. -/
lemma Inside.renamed (hinv : Inv r calls) (hinv' : Inv r' calls')
    (hrenamed : List.Forall₂ Renamed calls calls')
    (hshared : Option.Rel SharesCall (r.first q) (r'.first q)) (hinside : Inside r q) :
    Inside r' q := by
  intro p' hfirst' hover
  rw [hfirst'] at hshared
  cases hfirst : r.first q with
  | none =>
      rw [hfirst] at hshared
      cases hshared
  | some p =>
      rw [hfirst, Option.rel_some_some] at hshared
      have hlength := hshared.length_eq hinv hinv' hrenamed
        (first_some hfirst).1 (first_some hfirst').1
      rw [Overrun, hlength] at hover
      exact hinside p hfirst hover

/-- **Specificity decides, and the names do not, exactly if the order of the vectors allows it.** -/
theorem specific_iff_ordered {error404 error405 : Bool}
    (hunmarked : ∀ c ∈ calls, Unmarked c.path)
    (hadd : (HttpRouter.make error404 error405).addAll sorter calls = .ok r)
    (hunmarked' : ∀ c ∈ calls', Unmarked c.path)
    (hadd' : (HttpRouter.make error404 error405).addAll sorter' calls' = .ok r')
    (hrenamed : List.Forall₂ Renamed calls calls')
    (hcheck : check = true → q.getLast? ≠ some (chr '/')) :
    Specific r r' calls q check ↔ Ordered r r' calls q := by
  obtain ⟨hinv, -, -⟩ := inv_addAll hunmarked hadd
  obtain ⟨hinv', -, -⟩ := inv_addAll hunmarked' hadd'
  constructor
  · intro h
    obtain ⟨s, s', hrouted, -, hrouted', -, hshared⟩ := h.renamed (fun _ => []) (fun _ => []) []
    obtain ⟨hinside, rfl⟩ := routed_some hinv hrouted
    obtain ⟨-, rfl⟩ := routed_some hinv' hrouted'
    refine ⟨fun hseveral => ?_, hshared, hinside⟩
    obtain ⟨e, -, hmost, hdecides⟩ := h.decides hseveral
    obtain ⟨-, hfirst, -⟩ := (decides_iff hinv hcheck).mp hdecides
    exact (specificFirst_iff hinv).mpr ⟨e, hfirst, hmost⟩
  · intro h
    have hinside' : Inside r' q := h.inside.renamed hinv hinv' hrenamed h.shared
    constructor
    · intro hseveral
      obtain ⟨e, hfirst, hmost⟩ := (specificFirst_iff hinv).mp (h.specific hseveral)
      refine ⟨e, (first_some hfirst).1, hmost, (decides_iff hinv hcheck).mpr ?_⟩
      exact ⟨ne_nil_of_not_alike hseveral, hfirst, h.inside⟩
    · intro beyond beyond' method
      exact ⟨r.first q, r'.first q, entry_eq hinv h.inside, entry_eq hinv h.inside,
        entry_eq hinv' hinside', entry_eq hinv' hinside', h.shared⟩

/-- A parameter. -/
def braced (name : Bytes) : Bytes := [chr '{'] ++ name ++ [chr '}']

/-- Two paths that both match requests such as `/k/x`. -/
def namedCalls (name : Bytes) : List (AddCall ℕ) :=
  [ { method := bytesOf "GET", path := bytesOf "/" ++ braced name ++ bytesOf "/{y}", handler := 0 },
    { method := bytesOf "GET", path := bytesOf "/{b}/x", handler := 1 } ]

def namedRouter (name : Bytes) : HttpRouter ℕ :=
  (HttpRouter.make true true).attemptAll Sorter.insertion (namedCalls name)

lemma namedCalls_renamed {a b : Bytes}
    (h : segments (bytesOf "/" ++ braced b ++ bytesOf "/{y}") =
      (segments (bytesOf "/" ++ braced a ++ bytesOf "/{y}")).map
        (Segment.rename (Equiv.swap a b))) :
    List.Forall₂ Renamed (namedCalls a) (namedCalls b) := by
  refine .cons ⟨rfl, Equiv.swap a b, fun _ _ _ _ heq => (Equiv.swap a b).injective heq, h⟩
    (.cons ⟨rfl, id, fun _ _ _ _ heq => heq, ?_⟩ .nil)
  decide

/-- With names that sort behind `b`, the literal decides. -/
theorem specific_named :
    Specific (namedRouter (bytesOf "c")) (namedRouter (bytesOf "d")) (namedCalls (bytesOf "c"))
      (bytesOf "/k/x") false := by
  have hadd : (HttpRouter.make true true).addAll Sorter.insertion (namedCalls (bytesOf "c")) =
      .ok (namedRouter (bytesOf "c")) := rfl
  have hadd' : (HttpRouter.make true true).addAll Sorter.insertion (namedCalls (bytesOf "d")) =
      .ok (namedRouter (bytesOf "d")) := rfl
  refine (specific_iff_ordered (by decide) hadd (by decide) hadd'
    (namedCalls_renamed (by decide)) (by decide)).mpr ⟨fun _ => ?_, ?_, ?_⟩
  · decide
  · exact .some ⟨1, by decide, by decide⟩
  · intro p hfirst
    have hinside : ∀ p ∈ (namedRouter (bytesOf "c")).paths,
        ¬ Overrun p.parts (split (bytesOf "/k/x")) := by decide
    exact hinside p (first_some hfirst).1

/-- With the name `a`, the parameter decides, and with `c` the literal does. -/
theorem not_specific_named :
    (∀ c ∈ namedCalls (bytesOf "a"), Unmarked c.path) ∧
      (HttpRouter.make true true).addAll Sorter.insertion (namedCalls (bytesOf "a")) =
        .ok (namedRouter (bytesOf "a")) ∧
      (HttpRouter.make true true).addAll Sorter.insertion (namedCalls (bytesOf "c")) =
        .ok (namedRouter (bytesOf "c")) ∧
      List.Forall₂ Renamed (namedCalls (bytesOf "a")) (namedCalls (bytesOf "c")) ∧
      ¬ Specific (namedRouter (bytesOf "a")) (namedRouter (bytesOf "c"))
        (namedCalls (bytesOf "a")) (bytesOf "/k/x") false := by
  refine ⟨by decide, rfl, rfl, namedCalls_renamed (by decide), fun h => ?_⟩
  obtain ⟨e, -, hmost, hdecides⟩ := h.decides (by decide)
  have hnot : ∀ e ∈ ((namedRouter (bytesOf "a")).routed (fun _ => []) [] (bytesOf "/k/x")).join,
      ¬ MostSpecific (namedCalls (bytesOf "a")) (bytesOf "/k/x") e.segments := by decide
  rw [hdecides.routed] at hnot
  exact hnot e rfl hmost

end Router

end S3Proxy
