import S3Proxy.Router.Bounds

/-!
# The order of registration

Two orders of the same calls give vectors with the same path strings, so that a request comes to an
entry with the same path string in both.  A wildcard path has one entry for each method, since it is
looked up under one spelling and stored under another, and which of these entries comes first is up
to the order and to the sort.

## Main results

`sameRouting_iff`: a request is routed alike by two orders of the same calls, by any two sorting
functions, exactly if it comes to entries with the same handler for its method (`SameEntry`).  If
that is so for all requests, then also for those that are tried again without the slash at their
end.

`sameRouting_of_plain` has a condition on the calls alone: if no wildcard path is shared by two
routes, and no route is registered twice, all requests that do not run over an entry are routed
alike.

The comparison is symmetric, and `Reordered` has the two routers with what they have in common.
`Reordered.taker_eq` is the first half, by `map_find?_congr` of `Library.LowerBound`: lists with the
same keys have first hits with the same key.  `outcome_answered`, `outcome_missed` and
`outcome_past` say what `routeParameters` gives in terms of the entry, and `Reordered.outcome_eq`
and `Reordered.sameEntry` are the two directions.

## Hypotheses

The calls are the same up to their order, as triples of method, path and handler, and all of them
return in both orders.

## Where it is used

`pairwise_addAll` goes on to `Router.Duplicates`: a call repeats a path of the vector only if it is
that of a wildcard.
-/

namespace S3Proxy

namespace Router

variable {H : Type*} {sorter sorter' : Sorter} {r r' : HttpRouter H} {c d : AddCall H}
  {calls calls' done done' : List (AddCall H)} {beyond : Path → List Bytes} {method q path : Bytes}
  {p p' : Path} {k : ℕ}

/-- What a call registers. -/
def AddCall.route (c : AddCall H) : Bytes × Bytes × H := (c.method, c.path, c.handler)

/-- What becomes of a request. -/
inductive Outcome (H : Type*)
  | handler (f : H)
  | methodNotAllowed
  | notFound
  | nullopt
  deriving DecidableEq

/-- The outcome of a dispatch, with the handler itself in place of its number. -/
def HttpRouter.outcome (r : HttpRouter H) : Option Dispatch → Option (Outcome H)
  | some (.handler k _) => (r.handlers[k]?).map .handler
  | some (.methodNotAllowed _) => some .methodNotAllowed
  | some (.notFound _) => some .notFound
  | some .nullopt => some .nullopt
  | some .undefined => none
  | none => none

/-- Both routers have the same defined outcome for a request, whatever is read behind an entry. -/
structure SameRouting (r r' : HttpRouter H) (method q : Bytes) (check : Bool) : Prop where
  routed : ∀ beyond beyond', ∃ o,
    r.outcome (Indexed.route r beyond method q check) = some o ∧
      r'.outcome (Indexed.route r' beyond' method q check) = some o
  canRouted : ∀ beyond beyond',
    Indexed.canRoute r beyond method q = Indexed.canRoute r' beyond' method q

/-- The handler that an entry has for a method. -/
def HttpRouter.handlerAt (r : HttpRouter H) (p : Path) (method : Bytes) : Option H :=
  (p.handlerOf method).bind (r.handlers[·]?)

/-- The request does not run over the end of the entry it comes to, and in both vectors this entry
has the same handler for the method, or none. -/
def SameEntry (r r' : HttpRouter H) (method q : Bytes) : Prop :=
  ∀ p, r.taker q = some p → ¬ (p.wildcard = true ∧ RunsOver p.parts (split q)) ∧
    ∀ p', r'.taker q = some p' → r.handlerAt p method = r'.handlerAt p' method

/-! ### One router -/

/-- The handler of an entry is that of a call. -/
lemma Ledger.handlerAt_eq_some (h : Ledger r done) (hp : p ∈ r.paths) {f : H}
    (hf : r.handlerAt p method = some f) :
    ∃ k c, p.handlerOf method = some k ∧ done[k]? = some c ∧ c.handler = f ∧ c.method = method ∧
      HttpRouter.stored c.path = p.path := by
  obtain ⟨k, hk, hget⟩ := Option.bind_eq_some_iff.mp hf
  obtain ⟨c, hc, hmethod, hpath⟩ := h.routes p hp _
    ((handlerOf_eq_some_iff (h.entries p hp).methods_nodup).mp hk)
  refine ⟨k, c, hk, hc, ?_, hmethod, hpath⟩
  rw [h.handlers, List.getElem?_map, hc] at hget
  exact Option.some.inj hget

/-- Any number that an entry gives out is that of a handler. -/
lemma Ledger.getElem?_handlers (h : Ledger r done) (hp : p ∈ r.paths)
    (hk : p.handlerOf method = some k) : ∃ f, r.handlers[k]? = some f := by
  obtain ⟨c, hc, -⟩ := h.routes p hp _
    ((handlerOf_eq_some_iff (h.entries p hp).methods_nodup).mp hk)
  refine ⟨c.handler, ?_⟩
  rw [h.handlers, List.getElem?_map, hc]
  rfl

/-- What follows when no entry takes the request. -/
def HttpRouter.missed (r : HttpRouter H) (q : Bytes) : Outcome H :=
  if (∃ p ∈ r.paths, q ≤ p.path) ∧ r.notFound = true then .notFound else .nullopt

/-- What follows at an entry that takes the request. -/
def HttpRouter.answered (r : HttpRouter H) : Option H → Outcome H
  | some f => .handler f
  | none => if r.methodNotAllowed then .methodNotAllowed else .nullopt

lemma answered_inj {f f' : Option H} (h : r.answered f = r.answered f') : f = f' := by
  cases f with
  | some f =>
      cases f' with
      | some f' => exact congrArg some (Outcome.handler.inj h)
      | none =>
          rw [HttpRouter.answered, HttpRouter.answered] at h
          split_ifs at h
  | none =>
      cases f' with
      | some f' =>
          rw [HttpRouter.answered, HttpRouter.answered] at h
          split_ifs at h
      | none => rfl

namespace Indexed

/-- A request that no entry takes. -/
lemma outcome_missed (h : Ledger r done) (htaker : r.taker q = none) :
    r.outcome (routeParameters r beyond method q) = some (r.missed q) := by
  rw [routeParameters_eq h, h.ordered.search_none htaker, HttpRouter.missed]
  by_cases habove : ∃ p ∈ r.paths, q ≤ p.path
  · rw [if_pos habove, concluded, HttpRouter.miss]
    cases r.notFound with
    | true => rw [if_pos rfl, if_pos ⟨habove, rfl⟩]; rfl
    | false => rw [if_neg Bool.false_ne_true, if_neg fun h => Bool.false_ne_true h.2]; rfl
  · rw [if_neg habove, if_neg fun h => habove h.1]
    rfl

/-- A request that an entry takes. -/
lemma outcome_answered (h : Ledger r done) (htaker : r.taker q = some p)
    (hpast : p.fate q ≠ .past) :
    r.outcome (routeParameters r beyond method q) = some (r.answered (r.handlerAt p method)) := by
  obtain ⟨params, hsearch⟩ :=
    h.ordered.search_decided Assoc.emplace .none beyond method htaker hpast
  rw [routeParameters_eq h, hsearch, concluded, HttpRouter.handlerAt]
  cases hk : p.handlerOf method with
  | some k =>
      obtain ⟨f, hf⟩ := h.getElem?_handlers (taker_some htaker).1 hk
      rw [Option.bind_some, hf]
      exact congrArg (Option.map Outcome.handler) hf
  | none =>
      rw [HttpRouter.reply, HttpRouter.refuse, Option.bind_none, HttpRouter.answered]
      split_ifs <;> rfl

/-- A request that runs over has no outcome if nothing is there to be read. -/
lemma outcome_past (h : Ledger r done) (htaker : r.taker q = some p) (hpast : p.fate q = .past) :
    r.outcome (routeParameters r (fun _ => []) method q) = none := by
  rw [routeParameters_eq h, h.ordered.search_undefined htaker hpast rfl]
  rfl

lemma canRoute_missed (h : Ledger r done) (hmethod : method ≠ []) (hq : q ≠ [])
    (htaker : r.taker q = none) : canRoute r beyond method q = some (false, false) := by
  rw [canRoute_concluded beyond h hmethod hq, h.ordered.search_none htaker]
  split_ifs <;> rfl

lemma canRoute_answered (h : Ledger r done) (hmethod : method ≠ []) (hq : q ≠ [])
    (htaker : r.taker q = some p) (hpast : p.fate q ≠ .past) :
    canRoute r beyond method q = some (true, (r.handlerAt p method).isSome) := by
  obtain ⟨params, hsearch⟩ :=
    h.ordered.search_decided Assoc.emplace .none beyond method htaker hpast
  rw [canRoute_concluded beyond h hmethod hq, hsearch, HttpRouter.handlerAt]
  cases hk : p.handlerOf method with
  | some k =>
      obtain ⟨f, hf⟩ := h.getElem?_handlers (taker_some htaker).1 hk
      rw [Option.bind_some, hf]
      rfl
  | none => rfl

end Indexed

/-! ### Two orders -/

/-- Routers with the same routes and the same handlers for errors. -/
structure Reordered (r r' : HttpRouter H) (done done' : List (AddCall H)) : Prop where
  ledger : Ledger r done
  ledger' : Ledger r' done'
  routes : ∀ t, t ∈ done.map AddCall.route ↔ t ∈ done'.map AddCall.route
  notFound : r.notFound = r'.notFound
  methodNotAllowed : r.methodNotAllowed = r'.methodNotAllowed

lemma Reordered.symm (h : Reordered r r' done done') : Reordered r' r done' done :=
  ⟨h.ledger', h.ledger, fun t => (h.routes t).symm, h.notFound.symm, h.methodNotAllowed.symm⟩

/-- Any call has its counterpart in the other order. -/
lemma Reordered.exists_call (h : Reordered r r' done done') (hc : c ∈ done) :
    ∃ c' ∈ done', c'.method = c.method ∧ c'.path = c.path ∧ c'.handler = c.handler := by
  obtain ⟨c', hc', hroute⟩ := List.mem_map.mp ((h.routes _).mp (List.mem_map_of_mem hc))
  obtain ⟨hmethod, hrest⟩ := Prod.mk.inj hroute
  obtain ⟨hpath, hhandler⟩ := Prod.mk.inj hrest
  exact ⟨c', hc', hmethod, hpath, hhandler⟩

/-- Every path string of one vector is in the other. -/
lemma Reordered.exists_path (h : Reordered r r' done done') (hp : p ∈ r.paths) :
    ∃ p' ∈ r'.paths, p'.path = p.path := by
  obtain ⟨k, c, -, hc, hpath⟩ := h.ledger.exists_call hp
  obtain ⟨c', hc', -, hpath', -⟩ := h.exists_call (List.mem_of_getElem? hc)
  obtain ⟨k, hk⟩ := List.mem_iff_getElem?.mp hc'
  obtain ⟨p', hp', hstored, -⟩ := h.ledger'.complete k c' hk
  exact ⟨p', hp', by rw [hstored, hpath', hpath]⟩

/-- **The entries a request comes to** have the same path. -/
lemma Reordered.taker_eq (h : Reordered r r' done done') :
    (r.taker q).map Path.path = (r'.taker q).map Path.path := by
  refine LowerBound.map_find?_congr h.ledger.sorted h.ledger'.sorted (fun p hp => h.exists_path hp)
    (fun p hp => h.symm.exists_path hp) fun p hp p' hp' hpath => ?_
  have htakes := ((h.ledger.entries p hp).sound.takes_congr (q := q)
    (h.ledger'.entries p' hp').sound hpath).2
  rw [hpath, decide_eq_decide.mpr htakes]

lemma Reordered.missed_eq (h : Reordered r r' done done') : r.missed q = r'.missed q := by
  have habove : (∃ p ∈ r.paths, q ≤ p.path) ↔ ∃ p ∈ r'.paths, q ≤ p.path := by
    constructor
    · rintro ⟨p, hp, hle⟩
      obtain ⟨p', hp', hpath⟩ := h.exists_path hp
      exact ⟨p', hp', hpath ▸ hle⟩
    · rintro ⟨p, hp, hle⟩
      obtain ⟨p', hp', hpath⟩ := h.symm.exists_path hp
      exact ⟨p', hp', hpath ▸ hle⟩
  simp only [HttpRouter.missed, habove, h.notFound]

lemma Reordered.answered_eq (h : Reordered r r' done done') (f : Option H) :
    r.answered f = r'.answered f := by
  cases f with
  | some f => rfl
  | none => rw [HttpRouter.answered, HttpRouter.answered, h.methodNotAllowed]

/-- Entries that a request comes to come in pairs. -/
lemma Reordered.taker_cases (h : Reordered r r' done done') (q : Bytes) :
    (r.taker q = none ∧ r'.taker q = none) ∨
      ∃ p p', r.taker q = some p ∧ r'.taker q = some p' ∧ p.path = p'.path ∧
        p.fate q = p'.fate q := by
  have htaker := h.taker_eq (q := q)
  cases hp : r.taker q with
  | none =>
      rw [hp, Option.map_none, eq_comm, Option.map_eq_none_iff] at htaker
      exact .inl ⟨rfl, htaker⟩
  | some p =>
      rw [hp, Option.map_some, eq_comm, Option.map_eq_some_iff] at htaker
      obtain ⟨p', hp', hpath⟩ := htaker
      refine .inr ⟨p, p', rfl, hp', hpath.symm, ?_⟩
      exact ((h.ledger.entries p (taker_some hp).1).sound.takes_congr
        (h.ledger'.entries p' (taker_some hp').1).sound hpath.symm).1

/-- The same entries give the same outcome. -/
lemma Reordered.outcome_eq (h : Reordered r r' done done') (hentry : SameEntry r r' method q) :
    ∃ o, ∀ beyond beyond', r.outcome (Indexed.routeParameters r beyond method q) = some o ∧
      r'.outcome (Indexed.routeParameters r' beyond' method q) = some o := by
  rcases h.taker_cases q with ⟨hnone, hnone'⟩ | ⟨p, p', hp, hp', -, hfate⟩
  · refine ⟨r.missed q, fun beyond beyond' => ⟨Indexed.outcome_missed h.ledger hnone, ?_⟩⟩
    rw [h.missed_eq]
    exact Indexed.outcome_missed h.ledger' hnone'
  · obtain ⟨hover, hsame⟩ := hentry p hp
    have hpast : p.fate q ≠ .past := fun hpast => hover (fate_past_iff.mp hpast)
    refine ⟨r.answered (r.handlerAt p method), fun beyond beyond' =>
      ⟨Indexed.outcome_answered h.ledger hp hpast, ?_⟩⟩
    rw [hsame p' hp', h.answered_eq]
    exact Indexed.outcome_answered h.ledger' hp' (hfate ▸ hpast)

lemma Reordered.canRoute_eq (h : Reordered r r' done done') (hmethod : method ≠ []) (hq : q ≠ [])
    (hentry : SameEntry r r' method q) (beyond beyond' : Path → List Bytes) :
    Indexed.canRoute r beyond method q = Indexed.canRoute r' beyond' method q := by
  rcases h.taker_cases q with ⟨hnone, hnone'⟩ | ⟨p, p', hp, hp', -, hfate⟩
  · rw [Indexed.canRoute_missed h.ledger hmethod hq hnone,
      Indexed.canRoute_missed h.ledger' hmethod hq hnone']
  · obtain ⟨hover, hsame⟩ := hentry p hp
    have hpast : p.fate q ≠ .past := fun hpast => hover (fate_past_iff.mp hpast)
    rw [Indexed.canRoute_answered h.ledger hmethod hq hp hpast,
      Indexed.canRoute_answered h.ledger' hmethod hq hp' (hfate ▸ hpast), hsame p' hp']

/-- Only the same entries give the same outcome. -/
lemma Reordered.sameEntry (h : Reordered r r' done done')
    (hsame : ∀ beyond beyond', ∃ o,
      r.outcome (Indexed.routeParameters r beyond method q) = some o ∧
        r'.outcome (Indexed.routeParameters r' beyond' method q) = some o) :
    SameEntry r r' method q := by
  intro p hp
  obtain ⟨o, ho, ho'⟩ := hsame (fun _ => []) fun _ => []
  have hpast : p.fate q ≠ .past := by
    intro hpast
    rw [Indexed.outcome_past h.ledger hp hpast] at ho
    cases ho
  refine ⟨fun hover => hpast (fate_past_iff.mpr hover), fun p' hp' => ?_⟩
  have hfate : p'.fate q ≠ .past := by
    intro hpast'
    rw [Indexed.outcome_past h.ledger' hp' hpast'] at ho'
    cases ho'
  rw [Indexed.outcome_answered h.ledger hp hpast] at ho
  rw [Indexed.outcome_answered h.ledger' hp' hfate, ← h.answered_eq, ← ho] at ho'
  exact (answered_inj (Option.some.inj ho')).symm

/-- The outcome of `route` is decided by those of `routeParameters`. -/
lemma outcome_route (check : Bool) (hmethod : method ≠ []) (hq : q ≠ []) :
    r.outcome (Indexed.route r beyond method q check) =
      (r.outcome (Indexed.routeParameters r beyond method q)).bind fun o =>
        match o with
        | .nullopt =>
            if check = true ∧ q.getLast? = some (chr '/') then
              r.outcome (Indexed.routeParameters r beyond method q.dropLast)
            else some .nullopt
        | o => some o := by
  rw [Indexed.route, if_neg (not_or.mpr ⟨hmethod, hq⟩)]
  cases Indexed.routeParameters r beyond method q with
  | none => rfl
  | some resp =>
      cases resp with
      | handler k params =>
          have hk : ∀ o : Option H, o.map Outcome.handler = (o.map Outcome.handler).bind fun o =>
              match o with
              | .nullopt =>
                  if check = true ∧ q.getLast? = some (chr '/') then
                    r.outcome (Indexed.routeParameters r beyond method q.dropLast)
                  else some .nullopt
              | o => some o := fun o => by cases o <;> rfl
          exact hk _
      | methodNotAllowed params => rfl
      | notFound params => rfl
      | nullopt =>
          rw [Option.bind_eq_bind, Option.bind_some]
          exact apply_ite r.outcome _ _ _
      | undefined => rfl

/-- A request without a method or a path is not routed. -/
lemma sameRouting_of_empty {check : Bool} (hempty : method = [] ∨ q = []) :
    SameRouting r r' method q check := by
  have hroute : ∀ (r : HttpRouter H) beyond,
      Indexed.route r beyond method q check = some .nullopt := fun r beyond => if_pos hempty
  have hcan : ∀ (r : HttpRouter H) beyond,
      Indexed.canRoute r beyond method q = some (false, false) := fun r beyond => if_pos hempty
  refine ⟨fun beyond beyond' => ⟨.nullopt, ?_, ?_⟩, fun beyond beyond' => ?_⟩
  · rw [hroute]
    rfl
  · rw [hroute]
    rfl
  · rw [hcan, hcan]

/-- The same entries for a request, and for what the retry makes of it. -/
lemma Reordered.sameRouting (h : Reordered r r' done done') {check : Bool}
    (hentry : method ≠ [] → q ≠ [] → SameEntry r r' method q)
    (hretry : check = true → method ≠ [] → SameEntry r r' method q.dropLast) :
    SameRouting r r' method q check := by
  by_cases hempty : method = [] ∨ q = []
  · exact sameRouting_of_empty hempty
  · obtain ⟨hmethod, hq⟩ := not_or.mp hempty
    obtain ⟨o, ho⟩ := h.outcome_eq (hentry hmethod hq)
    refine ⟨fun beyond beyond' => ?_, h.canRoute_eq hmethod hq (hentry hmethod hq)⟩
    rw [outcome_route check hmethod hq, outcome_route check hmethod hq, (ho beyond beyond').1,
      (ho beyond beyond').2, Option.bind_some, Option.bind_some]
    cases o with
    | nullopt =>
        by_cases hslash : check = true ∧ q.getLast? = some (chr '/')
        · obtain ⟨o', ho'⟩ := h.outcome_eq (hretry hslash.1 hmethod)
          dsimp only
          rw [if_pos hslash, if_pos hslash]
          exact ⟨o', ho' beyond beyond'⟩
        · dsimp only
          rw [if_neg hslash, if_neg hslash]
          exact ⟨_, rfl, rfl⟩
    | handler f => exact ⟨_, rfl, rfl⟩
    | methodNotAllowed => exact ⟨_, rfl, rfl⟩
    | notFound => exact ⟨_, rfl, rfl⟩

lemma reordered_of_perm {error404 error405 : Bool}
    (hperm : (calls.map AddCall.route).Perm (calls'.map AddCall.route))
    (hadd : (HttpRouter.make error404 error405).addAll sorter calls = .ok r)
    (hadd' : (HttpRouter.make error404 error405).addAll sorter' calls' = .ok r') :
    Reordered r r' calls calls' := by
  obtain ⟨hledger, hnotFound, hmethod⟩ := ledger_make.addAll hadd
  obtain ⟨hledger', hnotFound', hmethod'⟩ := ledger_make.addAll hadd'
  exact ⟨hledger, hledger', fun t => hperm.mem_iff, hnotFound.trans hnotFound'.symm,
    hmethod.trans hmethod'.symm⟩

/-- **A request is routed alike** by two orders of the same calls if it comes to entries with the
same handler for its method, and only then. -/
theorem sameRouting_iff (error404 error405 : Bool)
    (hperm : (calls.map AddCall.route).Perm (calls'.map AddCall.route))
    (hadd : (HttpRouter.make error404 error405).addAll sorter calls = .ok r)
    (hadd' : (HttpRouter.make error404 error405).addAll sorter' calls' = .ok r') :
    (∀ method q, SameRouting r r' method q false ↔
      (method ≠ [] → q ≠ [] → SameEntry r r' method q)) ∧
    ((∀ method q, method ≠ [] → SameEntry r r' method q) →
      ∀ method q check, SameRouting r r' method q check) := by
  have h := reordered_of_perm hperm hadd hadd'
  refine ⟨fun method q => ⟨fun hsame hmethod hq => ?_, fun hentry => ?_⟩,
    fun hentry method q check => ?_⟩
  · refine h.sameEntry fun beyond beyond' => ?_
    have hrouted := hsame.routed beyond beyond'
    have hne : ¬ (method = [] ∨ q = []) := not_or.mpr ⟨hmethod, hq⟩
    rwa [Indexed.route_false, Indexed.route_false, if_neg hne, if_neg hne] at hrouted
  · exact h.sameRouting hentry fun hcheck => absurd hcheck Bool.false_ne_true
  · exact h.sameRouting (fun hmethod _ => hentry method q hmethod) fun _ hmethod =>
      hentry method q.dropLast hmethod

/-- Two paths without a wildcard. -/
theorem sameRouting_plainPair :
    let get : AddCall ℕ := { method := bytesOf "GET", path := bytesOf "/a", handler := 0 }
    let head : AddCall ℕ := { method := bytesOf "HEAD", path := bytesOf "/a", handler := 1 }
    let r := (HttpRouter.make true true).attemptAll Sorter.insertion [get, head]
    let r' := (HttpRouter.make true true).attemptAll Sorter.insertion [head, get]
    SameRouting r r' (bytesOf "HEAD") (bytesOf "/a") false := by
  intro get head r r'
  have hperm : ([get, head].map AddCall.route).Perm ([head, get].map AddCall.route) :=
    List.Perm.swap _ _ _
  have hadd : (HttpRouter.make true true).addAll Sorter.insertion [get, head] = .ok r := rfl
  have hadd' : (HttpRouter.make true true).addAll Sorter.insertion [head, get] = .ok r' := rfl
  have hplain : ∀ p ∈ r.paths, p.wildcard = false := by decide
  have hsame : ∀ p ∈ r.paths, ∀ p' ∈ r'.paths,
      r.handlerAt p (bytesOf "HEAD") = r'.handlerAt p' (bytesOf "HEAD") := by decide
  refine ((sameRouting_iff true true hperm hadd hadd').1 _ _).mpr fun _ _ p hp => ?_
  have hmem := (taker_some hp).1
  refine ⟨fun hover => ?_, fun p' hp' => hsame p hmem p' (taker_some hp').1⟩
  rw [hplain p hmem] at hover
  exact Bool.false_ne_true hover.1

/-- The wildcard of the server, with one entry for `GET` and one for `HEAD`. -/
theorem not_sameRouting_wildcard :
    let get : AddCall ℕ := { method := bytesOf "GET", path := bytesOf "/*", handler := 0 }
    let head : AddCall ℕ := { method := bytesOf "HEAD", path := bytesOf "/*", handler := 1 }
    let r := (HttpRouter.make true true).attemptAll Sorter.insertion [get, head]
    let r' := (HttpRouter.make true true).attemptAll Sorter.insertion [head, get]
    [get, head].Perm [head, get] ∧ ([get, head].map fun c => (c.method, c.path)).Nodup ∧
      (HttpRouter.make true true).addAll Sorter.insertion [get, head] = .ok r ∧
      (HttpRouter.make true true).addAll Sorter.insertion [head, get] = .ok r' ∧
      ¬ SameRouting r r' (bytesOf "HEAD") (bytesOf "/a") false := by
  intro get head r r'
  refine ⟨List.Perm.swap _ _ _, by decide, rfl, rfl, fun h => ?_⟩
  have hrefused : Indexed.canRoute r (fun _ => []) (bytesOf "HEAD") (bytesOf "/a") =
      some (true, false) := by decide
  have hserved : Indexed.canRoute r' (fun _ => []) (bytesOf "HEAD") (bytesOf "/a") =
      some (true, true) := by decide
  have hsame := h.canRouted (fun _ => []) fun _ => []
  rw [hrefused, hserved] at hsame
  cases hsame

/-! ### Wildcard paths with one method -/

/-- Paths of entries that occur twice are those of wildcards. -/
def Repeats (done : List (AddCall H)) (s s' : Bytes) : Prop :=
  s = s' → ∃ d ∈ done, chr '*' ∈ d.path ∧ HttpRouter.stored d.path = s

lemma Repeats.symm {s s' : Bytes} (h : Repeats done s s') : Repeats done s' s := by
  intro heq
  subst heq
  exact h rfl

/-- A call for a path that is there joins its entry. -/
lemma add_exact (hsorted : LowerBound.Sorted Path.path r.paths) (hp : p ∈ r.paths)
    (hpath : p.path = c.path) (hadd : r.add sorter c = .ok r') :
    r'.paths.map Path.path = r.paths.map Path.path := by
  obtain ⟨iter, above, hbound, hiter⟩ :=
    LowerBound.exists_lowerBound_eq_cons hsorted hp hpath
  have hpaths : r.paths = (r.paths.takeWhile fun p => p.path < c.path) ++ iter :: above := by
    rw [← hbound]
    exact List.takeWhile_append_dropWhile.symm
  rw [HttpRouter.add, HttpRouter.addParameter, hbound] at hadd
  dsimp only at hadd
  rw [if_pos hiter.symm] at hadd
  split_ifs at hadd
  · cases hadd
  · cases hadd
    conv_rhs => rw [hpaths]
    simp

lemma Repeats.mono {s s' : Bytes} (h : Repeats done s s') (c : AddCall H) :
    Repeats (done ++ [c]) s s' := fun heq => by
  obtain ⟨d, hd, hrest⟩ := h heq
  exact ⟨d, List.mem_append_left _ hd, hrest⟩

/-- **One call** only repeats the path of a wildcard. -/
lemma pairwise_add (hledger : Ledger r done)
    (h : (r.paths.map Path.path).Pairwise (Repeats done)) (hadd : r.add sorter c = .ok r') :
    (r'.paths.map Path.path).Pairwise (Repeats (done ++ [c])) := by
  have hmono : (r.paths.map Path.path).Pairwise (Repeats (done ++ [c])) :=
    h.imp fun hrepeats => hrepeats.mono c
  by_cases hexact : ∃ p ∈ r.paths, p.path = c.path
  · obtain ⟨p, hp, hpath⟩ := hexact
    rw [add_exact hledger.sorted hp hpath hadd]
    exact hmono
  · rcases (add_cases hadd).2 with
      ⟨below, iter, above, hpaths, hpath, -, -⟩ | ⟨ps, hmake, hcheck, hpaths'⟩
    · exact absurd ⟨iter, by simp [hpaths], hpath.symm⟩ hexact
    · have hperm : (r'.paths.map Path.path).Perm (r.paths.map Path.path ++ [ps.path]) := by
        rw [hpaths', ← List.map_singleton, ← List.map_append]
        exact (sorter.perm _).map _
      rw [hperm.pairwise_iff Repeats.symm, List.pairwise_append]
      refine ⟨hmono, List.pairwise_singleton _ _, fun s hs s' hs' heq => ?_⟩
      rw [List.mem_singleton.mp hs', (make_ok hmake).1] at heq
      by_cases hstar : chr '*' ∈ c.path
      · exact ⟨c, by simp, hstar, heq.symm⟩
      · obtain ⟨p, hp, rfl⟩ := List.mem_map.mp hs
        rw [stored_eq_self hstar] at heq
        exact absurd ⟨p, hp, heq⟩ hexact

lemma pairwise_addAll (hledger : Ledger r done)
    (h : (r.paths.map Path.path).Pairwise (Repeats done))
    (hadd : r.addAll sorter calls = .ok r') :
    (r'.paths.map Path.path).Pairwise (Repeats (done ++ calls)) := by
  induction calls generalizing r done with
  | nil =>
      cases hadd
      rwa [List.append_nil]
  | cons c calls ih =>
      rw [HttpRouter.addAll, List.foldlM_cons] at hadd
      cases hone : r.add sorter c with
      | error e =>
          rw [hone] at hadd
          cases hadd
      | ok r₁ =>
          rw [hone] at hadd
          have hrun := ih (hledger.add hone) (pairwise_add hledger h hone) hadd
          rwa [List.append_assoc] at hrun

/-- No wildcard path is shared by two routes. -/
def PlainWildcards (calls : List (AddCall H)) : Prop :=
  ∀ c ∈ calls, ∀ d ∈ calls, chr '*' ∈ c.path → HttpRouter.stored d.path = HttpRouter.stored c.path →
    d.method = c.method ∧ d.path = c.path

instance : Decidable (PlainWildcards calls) :=
  inferInstanceAs (Decidable (∀ c ∈ calls, ∀ d ∈ calls, _))

/-- What an entry has for a method, if wildcard paths are not shared. -/
lemma handlerAt_eq_some_iff (hledger : Ledger r calls)
    (hpairs : (r.paths.map Path.path).Pairwise (Repeats calls))
    (hdistinct : (calls.map fun c => (c.method, c.path)).Nodup) (hplain : PlainWildcards calls)
    (hp : p ∈ r.paths) {f : H} :
    r.handlerAt p method = some f ↔
      ∃ c ∈ calls, HttpRouter.stored c.path = p.path ∧ c.method = method ∧ c.handler = f := by
  constructor
  · intro hf
    obtain ⟨k, c, -, hc, hhandler, hmethod, hpath⟩ := hledger.handlerAt_eq_some hp hf
    exact ⟨c, List.mem_of_getElem? hc, hpath, hmethod, hhandler⟩
  · rintro ⟨c, hc, hpath, rfl, rfl⟩
    obtain ⟨k, hk⟩ := List.mem_iff_getElem?.mp hc
    have hroute : (c.method, k) ∈ p.methods.zip p.handlers := by
      by_cases hstar : ∃ d ∈ calls, chr '*' ∈ d.path ∧ HttpRouter.stored d.path = p.path
      · -- whatever the entry lists was registered by the only call for its path
        obtain ⟨d, hd, hdstar, hdpath⟩ := hstar
        obtain ⟨k', c', hroute', hc', hpath'⟩ := hledger.exists_call hp
        have hkey : (c.method, c.path) = (c'.method, c'.path) := by
          obtain ⟨hmethod, hpath₁⟩ := hplain d hd c hc hdstar (hpath.trans hdpath.symm)
          obtain ⟨hmethod', hpath₂⟩ :=
            hplain d hd c' (List.mem_of_getElem? hc') hdstar (hpath'.trans hdpath.symm)
          rw [hmethod, hmethod', hpath₁, hpath₂]
        have hindex : k = k' := by
          refine (List.getElem?_inj ?_ hdistinct).mp ?_
          · rw [List.length_map]
            exact (List.getElem?_eq_some_iff.mp hk).1
          · rw [List.getElem?_map, List.getElem?_map, hk, hc', Option.map_some, Option.map_some,
              hkey]
        rw [hindex, (Prod.mk.inj hkey).1]
        exact hroute'
      · -- no other entry has the path
        obtain ⟨p', hp', hpath', hroute⟩ := hledger.complete k c hk
        have hsymm : Std.Symm fun p p' : Path => Repeats calls p.path p'.path :=
          ⟨fun _ _ => Repeats.symm⟩
        have hsame : p' = p := by
          by_contra hne
          have hrepeats := (List.pairwise_map.mp hpairs).forall hp' hp hne
          obtain ⟨d, hd, hdstar, hdpath⟩ := hrepeats (hpath'.trans hpath)
          exact hstar ⟨d, hd, hdstar, hdpath.trans (hpath'.trans hpath)⟩
        exact hsame ▸ hroute
    rw [HttpRouter.handlerAt,
      (handlerOf_eq_some_iff (hledger.entries p hp).methods_nodup).mpr hroute, Option.bind_some,
      hledger.handlers, List.getElem?_map, hk]
    rfl

/-- **Wildcard paths that are not shared** make the order irrelevant, but for requests that run over
the end of the entry they come to. -/
theorem sameRouting_of_plain (error404 error405 : Bool)
    (hperm : (calls.map AddCall.route).Perm (calls'.map AddCall.route))
    (hdistinct : (calls.map fun c => (c.method, c.path)).Nodup)
    (hplain : PlainWildcards calls)
    (hadd : (HttpRouter.make error404 error405).addAll sorter calls = .ok r)
    (hadd' : (HttpRouter.make error404 error405).addAll sorter' calls' = .ok r')
    (hover : ∀ p, r.taker q = some p → ¬ (p.wildcard = true ∧ RunsOver p.parts (split q))) :
    SameRouting r r' method q false := by
  have h := reordered_of_perm hperm hadd hadd'
  have hpairs := pairwise_addAll ledger_make List.Pairwise.nil hadd
  have hpairs' := pairwise_addAll ledger_make List.Pairwise.nil hadd'
  have hdistinct' : (calls'.map fun c => (c.method, c.path)).Nodup := by
    have hkeys := (hperm.map fun t : Bytes × Bytes × H => (t.1, t.2.1)).nodup_iff
    rw [List.map_map, List.map_map] at hkeys
    exact hkeys.mp hdistinct
  have hplain' : PlainWildcards calls' := by
    intro c hc d hd hstar hpath
    obtain ⟨c₀, hc₀, hcmethod, hcpath, -⟩ := h.symm.exists_call hc
    obtain ⟨d₀, hd₀, hdmethod, hdpath, -⟩ := h.symm.exists_call hd
    rw [← hcmethod, ← hcpath, ← hdmethod, ← hdpath]
    rw [← hcpath] at hstar hpath
    rw [← hdpath] at hpath
    exact hplain c₀ hc₀ d₀ hd₀ hstar hpath
  refine h.sameRouting (fun _ _ p hp => ⟨hover p hp, fun p' hp' => ?_⟩)
    fun hcheck => absurd hcheck Bool.false_ne_true
  have hpath : p.path = p'.path := by
    have htaker := h.taker_eq (q := q)
    rw [hp, hp'] at htaker
    exact Option.some.inj htaker
  ext f
  rw [handlerAt_eq_some_iff h.ledger hpairs hdistinct hplain (taker_some hp).1,
    handlerAt_eq_some_iff h.ledger' hpairs' hdistinct' hplain' (taker_some hp').1, ← hpath]
  constructor
  · rintro ⟨c, hc, hstored, hmethod, hhandler⟩
    obtain ⟨c', hc', hmethod', hpath', hhandler'⟩ := h.exists_call hc
    exact ⟨c', hc', by rw [hpath', hstored], hmethod'.trans hmethod, hhandler'.trans hhandler⟩
  · rintro ⟨c, hc, hstored, hmethod, hhandler⟩
    obtain ⟨c', hc', hmethod', hpath', hhandler'⟩ := h.symm.exists_call hc
    exact ⟨c', hc', by rw [hpath', hstored], hmethod'.trans hmethod, hhandler'.trans hhandler⟩

end Router

end S3Proxy
