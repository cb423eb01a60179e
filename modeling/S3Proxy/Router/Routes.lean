import S3Proxy.Router.Search

/-!
# Which requests are served

A request is sound: the handler that gets it was registered for its method, and for a path that
matches.  It is not always served.  A path that matches may sort before the request, the first entry
that matches may be one of several with the same path and lack the method, and a request that sorts
behind the whole vector does not even get to `notFound`.

## Main results

`route_sound`: only matching handlers are called, after any calls of `add` and whatever a loop reads
behind an entry, and a refusal of the method means that some path matches.

`complete_iff_inOrder`: the requests are served as their routes say (`Complete`) exactly if the
vector is in the right order for them (`InOrder`).  If some route of the method matches, the first
entry that matches and does not sort before the request has to list the method; and if no route
matches, some entry has to be left that does not sort before the request.

`routeParameters_of_first` and `first_of_handler` are the two directions for one entry, from the
lemmas of `Router.Search`; `Inv.exists_call` goes from the entry to the call.  `Complete.listed`,
`Complete.above` and `InOrder.served` are the parts.

## Hypotheses

The calls have no path with the marker as a segment.  For the second result all of them return, and
the retry without a trailing slash does not apply; it is the subject of `Router.Agreement`.

## Where it is used

`Alike` and the notion of a shape go on to `Router.Specificity` and `Router.Duplicates`.
`serverRouter` has the routes of the server, at which other modules show what can happen.
-/

namespace S3Proxy

namespace Router

variable {H : Type*} {sorter : Sorter} {r : HttpRouter H} {calls : List (AddCall H)}
  {c : AddCall H} {p : Path} {beyond : Path → List Bytes} {method q : Bytes} {check : Bool}
  {k : ℕ} {params : Params}

/-- The path of the call matches the request. -/
def AddCall.Matching (c : AddCall H) (q : Bytes) : Prop := Matches (segments c.path) (split q)

instance : Decidable (c.Matching q) :=
  inferInstanceAs (Decidable (Matches (segments c.path) (split q)))

/-- A segment without its name. -/
def Segment.shape : Segment → Segment
  | .param _ => .param []
  | segment => segment

def AddCall.shape (c : AddCall H) : List Segment := (segments c.path).map Segment.shape

/-! ### Entries and calls -/

lemma Inv.exists_call (hinv : Inv r calls) (hp : p ∈ r.paths) (hmethod : method ∈ p.methods) :
    ∃ k c, p.handlerOf method = some k ∧ calls[k]? = some c ∧ c.method = method ∧
      segments c.path = p.segments := by
  have hrecords := hinv.records p hp
  cases hk : p.handlerOf method with
  | none => exact absurd hmethod (hrecords.handlerOf_eq_none_iff.mp hk)
  | some k =>
      obtain ⟨c, hc⟩ := hrecords.registered hk
      exact ⟨k, c, rfl, hc⟩

/-- An entry has the pattern of some call. -/
lemma Inv.exists_segments (hinv : Inv r calls) (hp : p ∈ r.paths) :
    ∃ c ∈ calls, segments c.path = p.segments := by
  obtain ⟨method, hmethod⟩ := List.exists_mem_of_ne_nil _ (hinv.records p hp).methods_ne_nil
  obtain ⟨k, c, -, hc, -, hsegments⟩ := hinv.exists_call hp hmethod
  exact ⟨c, List.mem_of_getElem? hc, hsegments⟩

lemma Inv.handler_eq (hinv : Inv r calls) (hc : calls[k]? = some c) :
    r.handlers[k]? = some c.handler := by
  rw [hinv.handlers, List.getElem?_map, hc]
  rfl

/-! ### Outcomes of a search -/

lemma route_eq_of_ne_nil (hmethod : method ≠ []) (hq : q ≠ [])
    (hcheck : check = true → q.getLast? ≠ some (chr '/')) :
    r.route beyond method q check = r.routeParameters beyond method q := by
  rw [HttpRouter.route, if_neg (not_or.mpr ⟨hmethod, hq⟩)]
  cases hresp : r.routeParameters beyond method q with
  | nullopt => exact if_neg fun h => hcheck h.1 h.2
  | handler k params => rfl
  | methodNotAllowed params => rfl
  | notFound params => rfl
  | undefined => rfl

variable (r beyond method q check) in
/-- Only a request with a method and a path is routed, if need be without its last byte. -/
lemma route_cases :
    r.route beyond method q check = .nullopt ∨
      ∃ q', split q' = split q ∧
        r.route beyond method q check = r.routeParameters beyond method q' := by
  by_cases hempty : method = [] ∨ q = []
  · exact .inl (if_pos hempty)
  · rw [HttpRouter.route, if_neg hempty]
    cases hresp : r.routeParameters beyond method q with
    | nullopt =>
        dsimp only
        split_ifs with hslash
        · refine .inr ⟨q.dropLast, ?_, rfl⟩
          obtain ⟨q', rfl⟩ := List.getLast?_eq_some_iff.mp hslash.2
          rw [List.dropLast_concat, split_append_slash, split_nil, List.append_nil]
        · exact .inl rfl
    | handler k params => exact .inr ⟨q, rfl, hresp.symm⟩
    | methodNotAllowed params => exact .inr ⟨q, rfl, hresp.symm⟩
    | notFound params => exact .inr ⟨q, rfl, hresp.symm⟩
    | undefined => exact .inr ⟨q, rfl, hresp.symm⟩

/-- A handler comes from an entry that matches and lists it. -/
lemma routeParameters_handler (hinv : Inv r calls)
    (h : r.routeParameters beyond method q = .handler k params) :
    ∃ p ∈ r.paths, Matches p.segments (split q) ∧ p.handlerOf method = some k := by
  rw [HttpRouter.routeParameters] at h
  split at h
  · cases h
  · rw [HttpRouter.miss] at h
    split_ifs at h
  · rename_i iter handler params' hsearch
    obtain ⟨hp, hmatch, hhandler⟩ := search_sound hinv hsearch
    cases handler with
    | some k' =>
        cases h
        exact ⟨iter, hp, hmatch, hhandler.symm⟩
    | none =>
        rw [HttpRouter.reply, HttpRouter.refuse] at h
        split_ifs at h
  · cases h

lemma routeParameters_methodNotAllowed (hinv : Inv r calls)
    (h : r.routeParameters beyond method q = .methodNotAllowed params) :
    ∃ p ∈ r.paths, Matches p.segments (split q) := by
  rw [HttpRouter.routeParameters] at h
  split at h
  · cases h
  · rw [HttpRouter.miss] at h
    split_ifs at h
  · rename_i iter handler params' hsearch
    obtain ⟨hp, hmatch, -⟩ := search_sound hinv hsearch
    exact ⟨iter, hp, hmatch⟩
  · cases h

/-! ### Soundness -/

lemma route_handler (hinv : Inv r calls)
    (h : r.route beyond method q check = .handler k params) :
    ∃ p ∈ r.paths, Matches p.segments (split q) ∧ p.handlerOf method = some k := by
  rcases route_cases r beyond method q check with hnull | ⟨q', hsplit, heq⟩
  · rw [hnull] at h
    cases h
  · rw [heq] at h
    rw [← hsplit]
    exact routeParameters_handler hinv h

lemma route_methodNotAllowed (hinv : Inv r calls)
    (h : r.route beyond method q check = .methodNotAllowed params) :
    ∃ p ∈ r.paths, Matches p.segments (split q) := by
  rcases route_cases r beyond method q check with hnull | ⟨q', hsplit, heq⟩
  · rw [hnull] at h
    cases h
  · rw [heq] at h
    rw [← hsplit]
    exact routeParameters_methodNotAllowed hinv h

/-- **Only matching handlers are called**, whatever was added and whatever a loop reads behind an
entry.  A refusal means that some path matches. -/
theorem route_sound {error404 error405 : Bool} (hunmarked : ∀ c ∈ calls, Unmarked c.path) :
    let r : HttpRouter H := (HttpRouter.make error404 error405).attemptAll sorter calls
    (∀ k params, r.route beyond method q check = .handler k params →
      ∃ c ∈ calls, r.handlers[k]? = some c.handler ∧ c.method = method ∧ c.Matching q) ∧
    ∀ params, r.route beyond method q check = .methodNotAllowed params →
      ∃ c ∈ calls, c.Matching q := by
  intro r
  obtain ⟨done, hdone, hadd⟩ := attemptAll_eq sorter (HttpRouter.make error404 error405) calls
  obtain ⟨hinv, -, -⟩ := inv_addAll (fun c hc => hunmarked c (hdone.subset hc)) hadd
  constructor
  · intro k params hroute
    obtain ⟨p, hp, hmatch, hk⟩ := route_handler hinv hroute
    obtain ⟨c, hc, hmethod, hsegments⟩ := (hinv.records p hp).registered hk
    refine ⟨c, hdone.subset (List.mem_of_getElem? hc), hinv.handler_eq hc, hmethod, ?_⟩
    rw [AddCall.Matching, hsegments]
    exact hmatch
  · intro params hroute
    obtain ⟨p, hp, hmatch⟩ := route_methodNotAllowed hinv hroute
    obtain ⟨c, hc, hsegments⟩ := hinv.exists_segments hp
    refine ⟨c, hdone.subset hc, ?_⟩
    rw [AddCall.Matching, hsegments]
    exact hmatch

/-- The handlers of `run`. -/
inductive ServerHandler
  | get
  | clear
  deriving DecidableEq

/-- The routes of `run`. -/
def serverCalls : List (AddCall ServerHandler) :=
  [ { method := bytesOf "GET", path := bytesOf "/", handler := .get },
    { method := bytesOf "HEAD", path := bytesOf "/", handler := .get },
    { method := bytesOf "GET", path := bytesOf "/*", handler := .get },
    { method := bytesOf "HEAD", path := bytesOf "/*", handler := .get },
    { method := bytesOf "DELETE", path := bytesOf "/_proxy/_private/_cache/clear/"
      handler := .clear } ]

def serverRouter : HttpRouter ServerHandler :=
  (HttpRouter.make true true).attemptAll Sorter.insertion serverCalls

/-- A file is served by the handler of `GET /*`. -/
theorem route_sound_server :
    serverRouter.route (fun _ => []) (bytesOf "GET") (bytesOf "/a") false =
        .handler 2 (Assoc.none.emplace wildcardKey (bytesOf "a")) ∧
      ∃ c ∈ serverCalls, serverRouter.handlers[2]? = some c.handler ∧
        c.method = bytesOf "GET" ∧ c.Matching (bytesOf "/a") := by
  have hroute : serverRouter.route (fun _ => []) (bytesOf "GET") (bytesOf "/a") false =
      .handler 2 (Assoc.none.emplace wildcardKey (bytesOf "a")) := by decide
  have hunmarked : ∀ c ∈ serverCalls, Unmarked c.path := by decide
  exact ⟨hroute, (route_sound hunmarked).1 2 _ hroute⟩

/-! ### Completeness -/

/-- All paths that match have the same shape. -/
def Alike (calls : List (AddCall H)) (q : Bytes) : Prop :=
  ∀ c ∈ calls, ∀ c' ∈ calls, c.Matching q → c'.Matching q → c.shape = c'.shape

instance : Decidable (Alike calls q) := inferInstanceAs (Decidable (∀ c ∈ calls, _))

/-- A request is served as its routes say, whatever a loop reads behind an entry. -/
structure Complete (r : HttpRouter H) (calls : List (AddCall H)) (method q : Bytes)
    (check : Bool) : Prop where
  served : Alike calls q → ∀ c ∈ calls, c.Matching q → c.method = method → ∀ beyond,
    ∃ k params c', r.route beyond method q check = .handler k params ∧
      r.handlers[k]? = some c'.handler ∧ calls[k]? = some c' ∧ c'.method = method ∧
      c'.Matching q ∧ c'.shape = c.shape
  refused : Alike calls q → ∀ beyond params,
    r.route beyond method q check = .methodNotAllowed params →
    ∀ c ∈ calls, c.Matching q → c.method ≠ method
  missing : (∀ c ∈ calls, ¬ c.Matching q) → r.notFound = true → ∀ beyond,
    ∃ params, r.route beyond method q check = .notFound params

/-- The vector is in the right order for a request. -/
structure InOrder (r : HttpRouter H) (calls : List (AddCall H)) (method q : Bytes) : Prop where
  /-- The first entry that matches and does not sort before the request lists the method, and no
  segment of the request is taken for its wildcard. -/
  listed : Alike calls q → (∃ c ∈ calls, c.Matching q ∧ c.method = method) →
    method ≠ [] ∧ q ≠ [] ∧
      ∃ p, r.first q = some p ∧ method ∈ p.methods ∧ ¬ Overrun p.parts (split q)
  /-- Some entry does not sort before the request. -/
  above : (∀ c ∈ calls, ¬ c.Matching q) → r.notFound = true →
    method ≠ [] ∧ q ≠ [] ∧ ∃ p ∈ r.paths, q ≤ p.path

/-- An entry that does not match anything the calls match is not found. -/
lemma first_eq_none (hinv : Inv r calls) (hnone : ∀ c ∈ calls, ¬ c.Matching q) :
    r.first q = none := by
  rw [HttpRouter.first, List.find?_eq_none]
  intro p hp hseen
  rw [Bool.and_eq_true, decide_eq_true_eq, decide_eq_true_eq] at hseen
  obtain ⟨c, hc, hsegments⟩ := hinv.exists_segments hp
  apply hnone c hc
  rw [AddCall.Matching, hsegments]
  exact hseen.2.1

/-- A handler is only given out by the first entry that can decide. -/
lemma first_of_handler (hinv : Inv r calls)
    (hroute : ∀ beyond, ∃ k params, r.routeParameters beyond method q = .handler k params) :
    ∃ p, r.first q = some p ∧ method ∈ p.methods ∧ ¬ Overrun p.parts (split q) := by
  cases hfirst : r.first q with
  | none =>
      exfalso
      obtain ⟨k, params, hroute⟩ := hroute fun _ => []
      rw [HttpRouter.routeParameters] at hroute
      rcases search_none Assoc.emplace .none (fun _ => []) method hinv hfirst with hend | hmiss
      · rw [hend] at hroute
        cases hroute
      · rw [hmiss] at hroute
        dsimp only at hroute
        rw [HttpRouter.miss] at hroute
        split_ifs at hroute
  | some p =>
      have hp := (first_some hfirst).1
      obtain ⟨k, params, hroute⟩ := hroute fun _ => []
      rw [HttpRouter.routeParameters] at hroute
      by_cases hover : Overrun p.parts (split q)
      · rw [search_undefined hinv hfirst hover rfl] at hroute
        cases hroute
      · obtain ⟨params', hsearch⟩ := search_decided Assoc.emplace .none (fun _ => []) method
          hinv hfirst hover
        rw [hsearch] at hroute
        refine ⟨p, rfl, ?_, hover⟩
        by_contra hnot
        rw [(hinv.records p hp).handlerOf_eq_none_iff.mpr hnot] at hroute
        dsimp only at hroute
        rw [HttpRouter.reply, HttpRouter.refuse] at hroute
        split_ifs at hroute

variable (beyond) in
/-- The first entry that can decide gives out its handler. -/
lemma routeParameters_of_first (hinv : Inv r calls) (hfirst : r.first q = some p)
    (hmethod : method ∈ p.methods) (hover : ¬ Overrun p.parts (split q)) :
    ∃ k params c, r.routeParameters beyond method q = .handler k params ∧ calls[k]? = some c ∧
      c.method = method ∧ c.Matching q := by
  obtain ⟨hp, -, hseen⟩ := first_some hfirst
  obtain ⟨k, c, hk, hc, hcmethod, hsegments⟩ := hinv.exists_call hp hmethod
  obtain ⟨params, hsearch⟩ := search_decided Assoc.emplace .none beyond method hinv hfirst hover
  refine ⟨k, params, c, ?_, hc, hcmethod, ?_⟩
  · rw [HttpRouter.routeParameters, hsearch, hk]
    rfl
  · rw [AddCall.Matching, hsegments]
    exact hseen.1

lemma ne_nil_of_route (h : r.route beyond method q check ≠ .nullopt) : method ≠ [] ∧ q ≠ [] := by
  rw [← not_or]
  intro hempty
  exact h (if_pos hempty)

/-- Only a vector in order serves what is registered. -/
lemma Complete.listed (hinv : Inv r calls)
    (hcheck : check = true → q.getLast? ≠ some (chr '/'))
    (h : Complete r calls method q check) (halike : Alike calls q)
    (hsome : ∃ c ∈ calls, c.Matching q ∧ c.method = method) :
    method ≠ [] ∧ q ≠ [] ∧
      ∃ p, r.first q = some p ∧ method ∈ p.methods ∧ ¬ Overrun p.parts (split q) := by
  obtain ⟨c, hc, hmatch, hmethod⟩ := hsome
  have hserved := h.served halike c hc hmatch hmethod
  have hne : method ≠ [] ∧ q ≠ [] := by
    obtain ⟨k, params, -, hroute, -⟩ := hserved fun _ => []
    apply ne_nil_of_route
    rw [hroute]
    exact Dispatch.noConfusion
  refine ⟨hne.1, hne.2, first_of_handler hinv fun beyond => ?_⟩
  obtain ⟨k, params, -, hroute, -⟩ := hserved beyond
  rw [route_eq_of_ne_nil hne.1 hne.2 hcheck] at hroute
  exact ⟨k, params, hroute⟩

/-- Only a request that does not sort behind the whole vector gets to `notFound`. -/
lemma Complete.above (hcheck : check = true → q.getLast? ≠ some (chr '/'))
    (h : Complete r calls method q check) (hnone : ∀ c ∈ calls, ¬ c.Matching q)
    (hnotFound : r.notFound = true) :
    method ≠ [] ∧ q ≠ [] ∧ ∃ p ∈ r.paths, q ≤ p.path := by
  obtain ⟨params, hroute⟩ := h.missing hnone hnotFound fun _ => []
  have hne : method ≠ [] ∧ q ≠ [] := by
    apply ne_nil_of_route
    rw [hroute]
    exact Dispatch.noConfusion
  refine ⟨hne.1, hne.2, ?_⟩
  by_contra hbelow
  rw [route_eq_of_ne_nil hne.1 hne.2 hcheck, HttpRouter.routeParameters,
    search_ended fun p hp => Std.not_le.mp fun h => hbelow ⟨p, hp, h⟩] at hroute
  cases hroute

/-- A vector in order serves what is registered. -/
lemma InOrder.served (hinv : Inv r calls)
    (hcheck : check = true → q.getLast? ≠ some (chr '/')) (h : InOrder r calls method q)
    (halike : Alike calls q) (hc : c ∈ calls) (hmatch : c.Matching q) (hmethod : c.method = method)
    (beyond : Path → List Bytes) :
    ∃ k params c', r.route beyond method q check = .handler k params ∧
      r.handlers[k]? = some c'.handler ∧ calls[k]? = some c' ∧ c'.method = method ∧
      c'.Matching q ∧ c'.shape = c.shape := by
  obtain ⟨hmethod', hq, p, hfirst, hlisted, hover⟩ := h.listed halike ⟨c, hc, hmatch, hmethod⟩
  obtain ⟨k, params, c', hroute, hc', hmethod, hmatch'⟩ :=
    routeParameters_of_first beyond hinv hfirst hlisted hover
  refine ⟨k, params, c', ?_, hinv.handler_eq hc', hc', hmethod, hmatch', ?_⟩
  · rw [route_eq_of_ne_nil hmethod' hq hcheck, hroute]
  · exact halike c' (List.mem_of_getElem? hc') c hc hmatch' hmatch

/-- **Exactly the requests for which the vector is in order** are served as their routes say. -/
theorem complete_iff_inOrder {error404 error405 : Bool}
    (hunmarked : ∀ c ∈ calls, Unmarked c.path)
    (hadd : (HttpRouter.make error404 error405).addAll sorter calls = .ok r)
    (hcheck : check = true → q.getLast? ≠ some (chr '/')) :
    Complete r calls method q check ↔ InOrder r calls method q := by
  obtain ⟨hinv, -, -⟩ := inv_addAll hunmarked hadd
  constructor
  · intro h
    exact ⟨h.listed hinv hcheck, h.above hcheck⟩
  · intro h
    constructor
    · exact fun halike c hc hmatch hmethod => h.served hinv hcheck halike hc hmatch hmethod
    · intro halike beyond params hroute c hc hmatch hmethod
      obtain ⟨k, params', -, hroute', -⟩ := h.served hinv hcheck halike hc hmatch hmethod beyond
      rw [hroute] at hroute'
      cases hroute'
    · intro hnone hnotFound beyond
      obtain ⟨hmethod, hq, p, hp, hle⟩ := h.above hnone hnotFound
      refine ⟨.none, ?_⟩
      rw [route_eq_of_ne_nil hmethod hq hcheck, HttpRouter.routeParameters,
        search_missed hinv (first_eq_none hinv hnone) hp hle]
      dsimp only
      rw [HttpRouter.miss, if_pos hnotFound]

/-- `GET` is in order on the routes of the server. -/
theorem complete_server :
    Complete serverRouter serverCalls (bytesOf "GET") (bytesOf "/a") false := by
  have hunmarked : ∀ c ∈ serverCalls, Unmarked c.path := by decide
  have hadd : (HttpRouter.make true true).addAll Sorter.insertion serverCalls =
      .ok serverRouter := rfl
  refine (complete_iff_inOrder hunmarked hadd (by decide)).mpr ⟨fun _ _ => ?_, fun _ _ => ?_⟩
  · exact ⟨by decide, by decide, _, rfl, by decide, by decide⟩
  · exact ⟨by decide, by decide, by decide⟩

/-- The wildcard has an entry for `GET` and another one for `HEAD`, and a request with `HEAD` is
refused at the first. -/
theorem not_complete_server :
    (∀ c ∈ serverCalls, Unmarked c.path) ∧
      (HttpRouter.make true true).addAll Sorter.insertion serverCalls = .ok serverRouter ∧
      ¬ Complete serverRouter serverCalls (bytesOf "HEAD") (bytesOf "/a") false := by
  refine ⟨by decide, rfl, fun h => ?_⟩
  have hroute : serverRouter.route (fun _ => []) (bytesOf "HEAD") (bytesOf "/a") false =
      .methodNotAllowed .none := by decide
  have hnone := h.refused (by decide) (fun _ => []) .none hroute
  exact absurd hnone (by decide)

end Router

end S3Proxy
