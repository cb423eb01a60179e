import S3Proxy.Router.Indexed

/-!
# `canRoute` and `route`

The loops of `canRoute` are those of `routeParameters` with the parameters left out.  `erasePass`
and its kin say what is left of each result, and one lemma for each pair of loops says that the
copies agree (`canPass_eq`, `canGeneral_eq`, `canLonger_eq`, `canSettle_eq`, `canScan_eq`).

The second half is about the retry of `route` without the trailing slash.

## Main results

`canRoute_agrees`: after any calls of `add`, and for every request, `canRoute` tells what `route`
does: whether some path matches, and whether the method has a handler.  Where one of the two is
undefined the other is, too.  Both read the same memory behind an entry, as they are given the same
vector.  `canRoute_eq` is the simulation of one by the other, `matchers_eq` the form for the search.

`retry_iff`: if no path matches a request with a slash at its end, and without the slash it gets to
a handler, then the retry gets there as well exactly if no handler for paths that are not found is
configured, or every entry sorts before the request.  For only `nullopt` is tried again
(`route_true`), and that is what a search gives that has ended at once; otherwise the handler for
paths that are not found answers first (`routeParameters_of_missed`).

## Hypotheses

None but what `retry_iff` says of the request.  The calls may throw, and the paths may be anything.

## What it rests on

The functions of `Router.Indexed`, index by index, and their search.  `Router.Order` and
`Router.Bounds` use `canRoute_concluded`, and with it need no second proof for `canRoute`.
-/

namespace S3Proxy

namespace Router

/-- The same routes with both error handlers configured, so that `std::nullopt` has one meaning. -/
def HttpRouter.observed {H : Type*} (r : HttpRouter H) : HttpRouter H :=
  { r with notFound := true, methodNotAllowed := true }

/-! ### Searches with and without parameters -/

section Forget

variable {H π : Type*} {record : π → Bytes → Bytes → π} {start params : π}
  {beyond : Path → List Bytes} {method path rest : Bytes} {p : Path} {ps qs : List Bytes}

/-- A visit without its parameters. -/
def Visit.forget : Visit π → Visit Unit
  | .next => .next
  | .decided handler _ => .decided handler ()
  | .undefined => .undefined

/-- A search without its parameters. -/
def Search.forget : Search π → Search Unit
  | .ended => .ended
  | .missed => .missed
  | .decided iter handler _ => .decided iter handler ()
  | .undefined => .undefined

lemma forget_answerRest : (p.answerRest record method rest params).forget =
    p.answerRest (fun _ _ _ => ()) method rest () := by
  unfold Path.answerRest
  cases p.handlerOf method <;> rfl

variable (record method rest params p) in
lemma forget_longer (zipped : List (Bytes × Bytes)) :
    (p.longer record method rest zipped params).map Visit.forget (fun _ => ()) =
      p.longer (fun _ _ _ => ()) method rest zipped () := by
  induction zipped generalizing params with
  | nil => rfl
  | cons pair zipped ih =>
      obtain ⟨part, iview⟩ := pair
      rw [Path.longer, Path.longer]
      by_cases heq : part = iview
      · rw [if_pos heq, if_pos heq]
        exact ih params
      · rw [if_neg heq, if_neg heq]
        dsimp only
        by_cases hmarker : iview ≠ marker
        · rw [if_pos hmarker, if_pos hmarker]
          rfl
        · rw [if_neg hmarker, if_neg hmarker, Sum.map_inl, forget_answerRest]

lemma forget_general : (p.general record method rest qs ps params).forget =
    p.general (fun _ _ _ => ()) method rest qs ps () := by
  induction qs generalizing ps params with
  | nil => rfl
  | cons part parts ih =>
      cases ps with
      | nil => rfl
      | cons iview iviews =>
          rw [Path.general, Path.general]
          split_ifs
          · exact ih
          · rfl
          · exact forget_answerRest
          · rfl
          · rfl
          · rfl
          · exact ih

variable (record start) in
lemma forget_visit : (p.visit record start beyond method path).forget =
    p.visit (fun _ _ _ => ()) () beyond method path := by
  unfold Path.visit
  dsimp only
  split_ifs
  · rfl
  · rfl
  · have hlonger := forget_longer record start method (p.remainder path (split path)) p
      ((split path).zip p.parts)
    rw [← hlonger]
    cases p.longer record method (p.remainder path (split path)) ((split path).zip p.parts) start
    · rfl
    · exact forget_general
  · exact forget_general

lemma forget_scan (l : List Path) : (scan record start beyond method path l).forget =
    scan (fun _ _ _ => ()) () beyond method path l := by
  induction l with
  | nil => rfl
  | cons iter above ih =>
      rw [scan, scan, ← forget_visit record start]
      cases iter.visit record start beyond method path with
      | next => exact ih
      | decided handler params => rfl
      | undefined => rfl

variable (record start) in
/-- **The search decides in the same way**, whatever it records. -/
lemma forget_search {r : HttpRouter H} : (r.search record start beyond method path).forget =
    r.search (fun _ _ _ => ()) () beyond method path := by
  rw [HttpRouter.search, HttpRouter.search]
  cases LowerBound.lowerBound Path.path path r.paths with
  | nil => rfl
  | cons iter above =>
      dsimp only
      split_ifs
      · rfl
      · exact forget_scan _

end Forget

namespace Indexed

variable {H : Type*} {sorter : Sorter} {r : HttpRouter H} {beyond : Path → List Bytes}
  {method path : Bytes} {parts : List Bytes} {iter : Path} {done : List (AddCall H)}

/-- What a matcher gives, if it gives anything. -/
def defined : Dispatch → Option Dispatch
  | .undefined => none
  | resp => some resp

variable (r) in
lemma defined_miss : defined r.miss = some r.miss := by
  rw [HttpRouter.miss]
  split_ifs <;> rfl

variable (r) in
lemma defined_reply (handler : Option ℕ) (params : Params) :
    defined (r.reply handler params) = some (r.reply handler params) := by
  cases handler with
  | some k => rfl
  | none =>
      rw [HttpRouter.reply, HttpRouter.refuse]
      split_ifs <;> rfl

/-! ### The copies of the loops -/

/-- What is left of a pass. -/
def erasePass : Dispatch ⊕ Bool × Option ℕ × Params → (Bool × Bool) ⊕ Bool × Option ℕ
  | .inl _ => .inl (true, false)
  | .inr (goesOn, handler, _) => .inr (goesOn, handler)

/-- What is left of the loop over the segments. -/
def eraseGeneral : Dispatch ⊕ Option ℕ × Params → (Bool × Bool) ⊕ Option ℕ
  | .inl _ => .inl (true, false)
  | .inr (handler, _) => .inr handler

/-- What is left of an answer, if both error handlers are configured. -/
def eraseAnswer : Dispatch → Bool × Bool
  | .handler _ _ => (true, true)
  | .methodNotAllowed _ => (true, false)
  | .notFound _ => (false, false)
  | .nullopt => (false, false)
  | .undefined => (false, false)

variable (r) in
lemma canPass_eq (hle : iter.parts.length ≤ (split path).length) {i : ℕ} {handler : Option ℕ}
    (params : Params) : canPass beyond method (split path) iter i handler =
      (pass r beyond method path (split path) iter i handler params).map erasePass := by
  rw [canPass, pass]
  cases hseg : segmentAt beyond iter i with
  | none => rfl
  | some iview =>
      cases hpart : (split path)[i]? with
      | none => rfl
      | some part =>
          have hlt := (List.getElem?_eq_some_iff.mp hpart).1
          have hsub : subPath path (split path) iter =
              some (iter.remainder path (split path)) := subPath_eq (by omega)
          rw [hsub]
          simp only [Option.bind_eq_bind, Option.bind_some]
          by_cases hgo : part = iview ∧ i ≠ (split path).length - 1
          · rw [if_pos hgo, if_pos hgo]
            rfl
          rw [if_neg hgo, if_neg hgo]
          by_cases hrefuse : part = iview ∧ iter.indexOf method = none
          · rw [if_pos hrefuse, if_pos hrefuse]
            rfl
          rw [if_neg hrefuse, if_neg hrefuse]
          -- from here on both copies have the same handler at hand
          cases compared method iter part iview handler with
          | none => rfl
          | some handler' =>
              simp only [Option.bind_some]
              by_cases hmarker : iview = marker ∧ iter.wildcard = true
              · rw [if_pos hmarker, if_pos hmarker]
                cases iter.indexOf method with
                | none => rfl
                | some midx => cases hget : iter.handlers[midx]? <;> simp [hget, erasePass]
              rw [if_neg hmarker, if_neg hmarker]
              by_cases hbrace : iview.head? ≠ some (chr '{')
              · rw [if_pos hbrace, if_pos hbrace]
                rfl
              rw [if_neg hbrace, if_neg hbrace]
              by_cases hlast : i = (split path).length - 1
              · rw [if_pos hlast, if_pos hlast]
                cases iter.indexOf method with
                | none => rfl
                | some midx => cases hget : iter.handlers[midx]? <;> simp [hget, erasePass]
              · rw [if_neg hlast, if_neg hlast]
                rfl

variable (r) in
lemma canGeneral_eq (hle : iter.parts.length ≤ (split path).length) {left i : ℕ}
    {handler : Option ℕ} (params : Params) :
    canGeneral beyond method (split path) iter left i handler =
      (general r beyond method path (split path) iter left i handler params).map eraseGeneral := by
  induction left generalizing i handler params with
  | zero => rfl
  | succ left ih =>
      rw [canGeneral, general, canPass_eq r hle params]
      cases pass r beyond method path (split path) iter i handler params with
      | none => rfl
      | some found =>
          rcases found with answer | ⟨goesOn, handler', params'⟩
          · rfl
          · cases goesOn with
            | true => exact ih params'
            | false => rfl

lemma Fits.observed (hfits : Fits r iter) : Fits r.observed iter :=
  ⟨hfits.sound, hfits.length_eq, hfits.range⟩

lemma canLonger_eq (hfits : Fits r iter) (hlt : iter.parts.length < (split path).length)
    {left i : ℕ} (params : Params) (hi : i + left = iter.parts.length) :
    canLonger beyond method (split path) iter left i =
      (longer r.observed beyond method path (split path) iter left i params).map
        fun found => found.elim (fun answer => some (eraseAnswer answer)) fun _ => none := by
  induction left generalizing i params with
  | zero => rfl
  | succ left ih =>
      have hi' : i < iter.parts.length := by omega
      have hi'' : i < (split path).length := by omega
      rw [canLonger, longer, segmentAt_of_lt hi', List.getElem?_eq_getElem hi'']
      simp only [Option.bind_eq_bind, Option.bind_some]
      by_cases heq : (split path)[i] = iter.parts[i]
      · rw [if_pos heq, if_pos heq]
        exact ih params (by omega)
      · rw [if_neg heq, if_neg heq]
        by_cases hmarker : iter.parts[i] = marker
        · rw [if_neg (not_not.mpr hmarker), if_neg (not_not.mpr hmarker), answerRest]
          rcases hfits.cases method with ⟨hidx, -⟩ | ⟨midx, h, hidx, hget, hhandler, -⟩
          · rw [hidx]
            rfl
          · rw [hidx, subPath_eq (by omega)]
            simp only [Option.bind_eq_bind, Option.bind_some]
            rw [hget, Option.bind_some, hfits.observed.invoke_eq hhandler.symm]
            rfl
        · rw [if_pos hmarker, if_pos hmarker]
          rfl

variable (beyond method) in
/-- Both loops over the segments, and what follows. -/
lemma canSettle_eq (hfits : Fits r iter) (hle : iter.parts.length ≤ (split path).length)
    (params : Params) {next : Option (Bool × Bool)} {next' : Option Dispatch}
    (hnext : next = next'.map eraseAnswer) :
    (canGeneral beyond method (split path) iter (split path).length 0 none).bind (canSettle next) =
      ((general r.observed beyond method path (split path) iter (split path).length 0 none
        params).bind (settle r.observed next')).map eraseAnswer := by
  have hreach := general_reaches beyond method hfits.observed hle params
    (Nat.zero_add _)
  rw [canGeneral_eq r.observed hle params]
  cases hvisit : iter.general Assoc.emplace method (iter.remainder path (split path))
      ((split path).drop 0) ((iter.parts ++ beyond iter).drop 0) params with
  | next =>
      rw [hvisit] at hreach
      obtain ⟨params', hgeneral⟩ := hreach
      rw [hgeneral]
      exact hnext
  | decided handler params' =>
      rw [hvisit] at hreach
      cases handler with
      | none =>
          have hgeneral : general _ _ _ _ _ _ _ _ _ _ = _ := hreach
          rw [hgeneral]
          rfl
      | some h =>
          have hgeneral : general _ _ _ _ _ _ _ _ _ _ = _ := hreach
          rw [hgeneral]
          simp only [Option.map_some, eraseGeneral, Option.bind_some, settle]
          rw [hfits.observed.invoke_eq (general_sound hvisit)]
          rfl
  | undefined =>
      rw [hvisit] at hreach
      have hgeneral : general _ _ _ _ _ _ _ _ _ _ = _ := hreach
      rw [hgeneral]
      rfl

lemma canScan_eq {l : List Path} (hfits : ∀ p ∈ l, Fits r p) (params : Params) :
    canScan beyond method (split path) l =
      (scan r.observed beyond method path (split path) l params).map eraseAnswer := by
  induction l generalizing params with
  | nil => rfl
  | cons iter above ih =>
      have hiter := hfits iter List.mem_cons_self
      have ih := ih fun p hp => hfits p (List.mem_cons_of_mem _ hp)
      rw [canScan, scan]
      by_cases hplain : (split path).length ≠ iter.parts.length ∧ iter.wildcard = false
      · rw [if_pos hplain, if_pos hplain]
        exact ih params
      rw [if_neg hplain, if_neg hplain]
      by_cases hshort : (split path).length ≠ iter.parts.length ∧
          (split path).length < iter.parts.length
      · rw [if_pos hshort, if_pos hshort]
        exact ih params
      rw [if_neg hshort, if_neg hshort]
      have hle : iter.parts.length ≤ (split path).length := by
        by_contra hlt
        exact hshort ⟨by omega, by omega⟩
      have hsettle := fun params' => canSettle_eq beyond method hiter hle
        params' (ih .none)
      by_cases hlength : (split path).length ≠ iter.parts.length
      · rw [if_pos hlength, if_pos hlength,
          canLonger_eq hiter (by omega) params (Nat.zero_add _)]
        cases longer r.observed beyond method path (split path) iter iter.parts.length 0 params with
        | none => rfl
        | some found =>
            cases found with
            | inl answer => rfl
            | inr params' => exact hsettle params'
      · rw [if_neg hlength, if_neg hlength]
        exact hsettle params

/-- **`canRoute` erases** what `routeParameters` does with both error handlers. -/
theorem canRoute_eq (h : Ledger r done) (hmethod : method ≠ []) (hpath : path ≠ []) :
    canRoute r beyond method path =
      (routeParameters r.observed beyond method path).map eraseAnswer := by
  rw [canRoute, if_neg (not_or.mpr ⟨hmethod, hpath⟩), routeParameters]
  have hobserved : r.observed.paths = r.paths := rfl
  rw [hobserved]
  cases hbound : LowerBound.lowerBound Path.path path r.paths with
  | nil => rfl
  | cons iter above =>
      have hfits : ∀ p ∈ iter :: above, Fits r p := fun p hp =>
        fits_of_ledger r h (h.ordered.mem_of_bound hbound hp).1
      dsimp only
      by_cases hexact : path = iter.path ∧ iter.wildcard = false
      · rw [if_pos hexact, if_pos hexact]
        have hiter := hfits iter List.mem_cons_self
        rcases hiter.cases method with
          ⟨hidx, -⟩ | ⟨midx, k, hidx, hget, hhandler, -⟩
        · rw [hidx]
          rfl
        · rw [hidx]
          dsimp only
          rw [hget, Option.bind_eq_bind, Option.bind_some,
            hiter.observed.invoke_eq hhandler.symm]
          rfl
      · rw [if_neg hexact, if_neg hexact]
        exact canScan_eq hfits .none

lemma Ledger.observed (h : Ledger r done) : Ledger r.observed done :=
  { h with }

variable (beyond) in
/-- **`canRoute`** by what the search comes to. -/
lemma canRoute_concluded (h : Ledger r done) (hmethod : method ≠ []) (hpath : path ≠ []) :
    canRoute r beyond method path =
      (concluded r.observed (r.search Assoc.emplace .none beyond method path)).map eraseAnswer := by
  rw [canRoute_eq h hmethod hpath, routeParameters_eq (Ledger.observed h)]
  rfl

variable (beyond) in
lemma route_concluded (h : Ledger r done) (hmethod : method ≠ []) (hpath : path ≠ []) :
    route r beyond method path false =
      concluded r (r.search Assoc.emplace .none beyond method path) := by
  rw [route_false, if_neg (not_or.mpr ⟨hmethod, hpath⟩), routeParameters_eq h]

/-- **The matchers of the search** are those of the source. -/
theorem matchers_eq (h : Ledger r done) :
    routeParameters r beyond method path = defined (r.routeParameters beyond method path) ∧
      canRoute r beyond method path = r.canRoute beyond method path := by
  constructor
  · rw [routeParameters_eq h, HttpRouter.routeParameters]
    cases r.search Assoc.emplace .none beyond method path with
    | ended => rfl
    | missed => exact (defined_miss r).symm
    | decided iter handler params => exact (defined_reply r handler params).symm
    | undefined => rfl
  · by_cases hempty : method = [] ∨ path = []
    · rw [canRoute, HttpRouter.canRoute, if_pos hempty, if_pos hempty]
    · obtain ⟨hmethod, hpath⟩ := not_or.mp hempty
      rw [canRoute_concluded beyond h hmethod hpath, HttpRouter.canRoute, if_neg hempty,
        ← forget_search Assoc.emplace .none]
      cases r.search Assoc.emplace .none beyond method path with
      | ended => rfl
      | missed => rfl
      | decided iter handler params => cases handler <;> rfl
      | undefined => rfl

lemma refuse_ne_handler {params params' : Params} {h : ℕ} :
    r.refuse params ≠ .handler h params' := by
  rw [HttpRouter.refuse]
  split_ifs <;> exact Dispatch.noConfusion

lemma miss_ne_handler {params : Params} {h : ℕ} : r.miss ≠ .handler h params := by
  rw [HttpRouter.miss]
  split_ifs <;> exact Dispatch.noConfusion

/-- `canRoute` and `route` agree on a request.  Which outcome `route` takes is seen where both error
handlers are configured; on the router itself it calls the one that is configured, if any. -/
structure Agree (r : HttpRouter H) (beyond : Path → List Bytes) (method path : Bytes) : Prop where
  handled : canRoute r beyond method path = some (true, true) ↔
    ∃ h params, route r beyond method path false = some (.handler h params)
  refused : canRoute r beyond method path = some (true, false) ↔
    ∃ params, route r.observed beyond method path false = some (.methodNotAllowed params)
  missed : canRoute r beyond method path = some (false, false) ↔
    (∃ params, route r.observed beyond method path false = some (.notFound params)) ∨
      route r.observed beyond method path false = some .nullopt
  refuse : ∀ params, route r.observed beyond method path false = some (.methodNotAllowed params) →
    route r beyond method path false = some (r.refuse params)
  miss : ∀ params, route r.observed beyond method path false = some (.notFound params) →
    route r beyond method path false = some r.miss
  ended : route r.observed beyond method path false = some .nullopt →
    route r beyond method path false = some .nullopt
  undefined : canRoute r beyond method path = none ↔ route r beyond method path false = none

/-- **`canRoute` and `route` agree** on every request, after any calls of `add`.  Both scan the
vector of the same router, so both read the same memory (`beyond`) where they run behind the last
segment of an entry. -/
theorem canRoute_agrees (sorter : Sorter) (error404 error405 : Bool) (calls : List (AddCall H))
    (beyond : Path → List Bytes) (method path : Bytes) :
    Agree ((HttpRouter.make error404 error405).attemptAll sorter calls) beyond method path := by
  obtain ⟨done, -, hadd⟩ := attemptAll_eq sorter (HttpRouter.make error404 error405) calls
  have hledger := ledger_addAll hadd
  generalize (HttpRouter.make error404 error405 : HttpRouter H).attemptAll sorter calls = r
    at hledger
  by_cases hempty : method = [] ∨ path = []
  · have hcan : canRoute r beyond method path = some (false, false) := if_pos hempty
    have hroute : ∀ r' : HttpRouter H, route r' beyond method path false = some .nullopt :=
      fun r' => if_pos hempty
    constructor <;> simp [hcan, hroute]
  · obtain ⟨hmethod, hpath⟩ := not_or.mp hempty
    have hcan := canRoute_concluded beyond hledger hmethod hpath
    have hroute := route_concluded beyond hledger hmethod hpath
    have hobserved := route_concluded beyond (Ledger.observed hledger) hmethod hpath
    have hsearch : r.observed.search Assoc.emplace .none beyond method path =
        r.search Assoc.emplace .none beyond method path := rfl
    rw [hsearch] at hobserved
    cases hcase : r.search Assoc.emplace .none beyond method path with
    | ended =>
        rw [hcase] at hcan hroute hobserved
        constructor <;> simp [hcan, hroute, hobserved, concluded, eraseAnswer]
    | missed =>
        rw [hcase] at hcan hroute hobserved
        have hmiss : r.observed.miss = .notFound .none := rfl
        constructor <;>
          simp [hcan, hroute, hobserved, concluded, eraseAnswer, hmiss, miss_ne_handler]
    | decided iter handler params =>
        rw [hcase] at hcan hroute hobserved
        cases handler with
        | some k =>
            constructor <;> simp [hcan, hroute, hobserved, concluded, eraseAnswer, HttpRouter.reply]
        | none =>
            have hrefuse : r.observed.refuse params = .methodNotAllowed params := rfl
            constructor <;>
              simp [hcan, hroute, hobserved, concluded, eraseAnswer, HttpRouter.reply, hrefuse,
                refuse_ne_handler]
    | undefined =>
        rw [hcase] at hcan hroute hobserved
        constructor <;> simp [hcan, hroute, hobserved, concluded]

/-! ### The retry without the trailing slash -/

/-- Only `nullopt` is retried. -/
lemma route_true {resp : Dispatch} (hmethod : method ≠ [])
    (hresp : routeParameters r beyond method (path ++ [chr '/']) = some resp) :
    route r beyond method (path ++ [chr '/']) true =
      if resp = .nullopt then routeParameters r beyond method path else some resp := by
  have hne : path ++ [chr '/'] ≠ [] := by simp
  have hlast : (path ++ [chr '/']).getLast? = some (chr '/') := List.getLast?_concat
  rw [route, if_neg (not_or.mpr ⟨hmethod, hne⟩), hresp, Option.bind_eq_bind, Option.bind_some,
    List.dropLast_concat]
  cases resp with
  | nullopt =>
      rw [if_pos rfl]
      exact if_pos ⟨rfl, hlast⟩
  | handler h params => rfl
  | methodNotAllowed params => rfl
  | notFound params => rfl
  | undefined => rfl

/-- A request that no entry decides about gets `nullopt` at the end of the vector, and the handler
for paths that are not found elsewhere. -/
lemma routeParameters_of_missed (h : Ledger r done) (hmethod : method ≠ []) (hpath : path ≠ [])
    (hcan : canRoute r beyond method path = some (false, false)) :
    routeParameters r beyond method path =
      some (if ∀ p ∈ r.paths, p.path < path then .nullopt else r.miss) := by
  rw [canRoute_concluded beyond h hmethod hpath] at hcan
  rw [routeParameters_eq h]
  by_cases hbelow : ∀ p ∈ r.paths, p.path < path
  · rw [search_ended hbelow, if_pos hbelow]
    rfl
  · rw [if_neg hbelow]
    cases hsearch : r.search Assoc.emplace .none beyond method path with
    | ended => exact absurd (search_ended_iff.mp hsearch) hbelow
    | missed => rfl
    | decided iter handler params =>
        rw [hsearch] at hcan
        cases handler <;> cases hcan
    | undefined =>
        rw [hsearch] at hcan
        cases hcan

/-- **The retry reaches its handler** unless a handler for paths that are not found is in its way,
which is called if some entry does not sort before the request. -/
theorem retry_iff (sorter : Sorter) (error404 error405 : Bool) (calls : List (AddCall H))
    (beyond : Path → List Bytes) (method path : Bytes) (h : ℕ) (params : Params) :
    let r := (HttpRouter.make error404 error405).attemptAll sorter calls
    canRoute r beyond method (path ++ [chr '/']) = some (false, false) →
    route r beyond method path false = some (.handler h params) →
    (route r beyond method (path ++ [chr '/']) true = some (.handler h params) ↔
      error404 = false ∨ ∀ p ∈ r.paths, p.path < path ++ [chr '/']) := by
  intro r hcan hroute
  obtain ⟨done, -, hadd⟩ := attemptAll_eq sorter (HttpRouter.make error404 error405) calls
  obtain ⟨hledger, hnotFound, -⟩ := ledger_make.addAll hadd
  have hempty : ¬ (method = [] ∨ path = []) := by
    intro hempty
    rw [route_false, if_pos hempty] at hroute
    cases hroute
  obtain ⟨hmethod, -⟩ := not_or.mp hempty
  rw [route_false, if_neg hempty] at hroute
  have hmissed := routeParameters_of_missed hledger hmethod (by simp) hcan
  rw [route_true hmethod hmissed, hroute]
  have hnotFound : r.notFound = error404 := hnotFound
  by_cases hbelow : ∀ p ∈ r.paths, p.path < path ++ [chr '/']
  · rw [if_pos hbelow, if_pos rfl]
    exact iff_of_true rfl (.inr hbelow)
  · rw [if_neg hbelow, HttpRouter.miss, hnotFound]
    cases error404 with
    | false => exact iff_of_true rfl (.inl rfl)
    | true => exact iff_of_false (by simp) (by simp [hbelow])

/-- Two routes of which the second one sorts behind the request `/a/`. -/
def twoCalls : List (AddCall ℕ) :=
  [ { method := bytesOf "GET", path := bytesOf "/a", handler := 0 },
    { method := bytesOf "GET", path := bytesOf "/b", handler := 1 } ]

/-- Without a handler for paths that are not found, the retry is made. -/
theorem retry_plain :
    let r := (HttpRouter.make false true).attemptAll Sorter.insertion twoCalls
    route r (fun _ => []) (bytesOf "GET") (bytesOf "/a" ++ [chr '/']) true =
      some (.handler 0 .none) := by
  intro r
  have hcan : canRoute r (fun _ => []) (bytesOf "GET") (bytesOf "/a" ++ [chr '/']) =
      some (false, false) := by decide
  have hroute : route r (fun _ => []) (bytesOf "GET") (bytesOf "/a") false =
      some (.handler 0 .none) := by decide
  exact (retry_iff Sorter.insertion false true twoCalls (fun _ => []) (bytesOf "GET")
    (bytesOf "/a") 0 .none hcan hroute).mpr (.inl rfl)

/-- With one, it is called in place of the retry. -/
theorem not_retry_notFound :
    let r := (HttpRouter.make true true).attemptAll Sorter.insertion twoCalls
    canRoute r (fun _ => []) (bytesOf "GET") (bytesOf "/a/") = some (false, false) ∧
      route r (fun _ => []) (bytesOf "GET") (bytesOf "/a") false = some (.handler 0 .none) ∧
      route r (fun _ => []) (bytesOf "GET") (bytesOf "/a/") true = some (.notFound .none) := by
  decide

end Indexed

end Router

end S3Proxy
