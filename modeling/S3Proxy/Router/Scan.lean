import S3Proxy.Router.Table

/-!
# Routing a request

`routeParameters` and `canRoute` search the vector in the same way.  They start at the lower bound
of the request path, take an entry with that very path at once, and otherwise go through the entries
until one decides.  What `routeParameters` records on the way is a parameter here, so that
`canRoute` is the same search with nothing recorded.

A request with more segments than the entry can make the loops read behind the last segment of the
entry; `beyond` is what they find there.  Handlers are numbered from 0, and the numbers are small
enough for the `int` that they pass through.

## Main notions

`Visit` is what one entry makes of a request: the next entry is looked at, or the search is over
with the handler of the entry, or there is no telling.  `Path.visit` has the two loops of the
source, one for requests that are longer than the entry (`longer`) and one over all segments of the
request (`general`).  `scan` goes through the entries, and `HttpRouter.search` begins at the lower
bound.  `Dispatch` is what `route` answers, where a search that has missed and one that has ended at
once are told apart, as they are in the source.

## Where it is used

There are no results here.  That these functions are the loops of the source, with every access in
range, is `routeParameters_eq` and the lemmas around it in `Router.Indexed`; what the search comes
to is described in `Router.Fate` and `Router.Search`.
-/

namespace S3Proxy

namespace Router

/-- The parameters that a handler is given. -/
abbrev Params := Assoc Bytes Bytes

/-- `HttpRouter::WildcardKey`. -/
def wildcardKey : Bytes := bytesOf "_wildcard_"

/-- What happens at one entry. -/
inductive Visit (π : Type*)
  /-- The loop goes on. -/
  | next
  /-- The entry has a handler for the method, or it has none and the method is refused. -/
  | decided (handler : Option ℕ) (params : π)
  | undefined
  deriving DecidableEq

/-- What a search comes to. -/
inductive Search (π : Type*)
  /-- The lower bound is the end of the vector. -/
  | ended
  /-- No entry has decided. -/
  | missed
  | decided (iter : Path) (handler : Option ℕ) (params : π)
  | undefined
  deriving DecidableEq

section Loops

variable {π : Type*} (record : π → Bytes → Bytes → π) (start : π)

namespace Path

def answer (p : Path) (method : Bytes) (params : π) : Visit π :=
  .decided (p.handlerOf method) params

/-- The answer at a wildcard that stands for `rest`. -/
def answerRest (p : Path) (method rest : Bytes) (params : π) : Visit π :=
  match p.handlerOf method with
  | some k => .decided (some k) (record params wildcardKey rest)
  | none => .decided none params

/-- The part of the request that a final wildcard stands for. -/
def remainder (p : Path) (path : Bytes) (parts : List Bytes) : Bytes :=
  let idx := ((parts.take (p.parts.length - 1)).map fun part => 1 + part.length).sum
  path.drop (idx + 1)

/-- The loop for requests that are longer than a wildcard entry.  It is left with the parameters
that have been recorded, or with an answer. -/
def longer (p : Path) (method rest : Bytes) : List (Bytes × Bytes) → π → Visit π ⊕ π
  | [], params => .inr params
  | (part, iview) :: zipped, params =>
      if part = iview then longer p method rest zipped params
      else
        let params :=
          if iview.head? = some (chr '{') then record params (paramKey iview) part else params
        if iview ≠ marker then .inr params
        else .inl (p.answerRest record method rest params)

/-- The loop over the segments of the request. -/
def general (p : Path) (method rest : Bytes) : List Bytes → List Bytes → π → Visit π
  | [], _, _ => .next
  | _ :: _, [], _ => .undefined
  | part :: parts, iview :: iviews, params =>
      if part = iview ∧ parts ≠ [] then general p method rest parts iviews params
      else if part = iview ∧ p.handlerOf method = none then .decided none params
      else if iview = marker ∧ p.wildcard = true then p.answerRest record method rest params
      else if iview.head? ≠ some (chr '{') then
        if part = iview then p.answer method params else .next
      else
        let params := record params (paramKey iview) part
        if parts = [] then p.answer method params
        else general p method rest parts iviews params

/-- One pass through the loop over the entries. -/
def visit (beyond : Path → List Bytes) (method path : Bytes) (p : Path) : Visit π :=
  let parts := split path
  let rest := p.remainder path parts
  if parts.length ≠ p.parts.length then
    if p.wildcard = false then .next
    else if parts.length < p.parts.length then .next
    else
      match p.longer record method rest (parts.zip p.parts) start with
      | .inl v => v
      | .inr params => p.general record method rest parts (p.parts ++ beyond p) params
  else p.general record method rest parts (p.parts ++ beyond p) start

end Path

/-- The loop over the entries. -/
def scan (beyond : Path → List Bytes) (method path : Bytes) : List Path → Search π
  | [] => .missed
  | iter :: above =>
      match iter.visit record start beyond method path with
      | .next => scan beyond method path above
      | .decided handler params => .decided iter handler params
      | .undefined => .undefined

/-- The search of `routeParameters` and of `canRoute`. -/
def HttpRouter.search {H : Type*} (r : HttpRouter H) (beyond : Path → List Bytes)
    (method path : Bytes) : Search π :=
  match LowerBound.lowerBound Path.path path r.paths with
  | [] => .ended
  | iter :: above =>
      if path = iter.path ∧ iter.wildcard = false then
        .decided iter (iter.handlerOf method) start
      else scan record start beyond method path (iter :: above)

end Loops

/-- What is done with a request.  The handler is given by its number. -/
inductive Dispatch
  | handler (k : ℕ) (params : Params)
  | methodNotAllowed (params : Params)
  | notFound (params : Params)
  | nullopt
  | undefined
  deriving DecidableEq

namespace HttpRouter

variable {H : Type*} (r : HttpRouter H) (beyond : Path → List Bytes) (method path : Bytes)

/-- What follows when the method is not configured for the path. -/
def refuse (params : Params) : Dispatch :=
  if r.methodNotAllowed then .methodNotAllowed params else .nullopt

/-- What follows when an entry has decided. -/
def reply (handler : Option ℕ) (params : Params) : Dispatch :=
  match handler with
  | some k => .handler k params
  | none => r.refuse params

/-- What follows when no entry has decided. -/
def miss : Dispatch := if r.notFound then .notFound .none else .nullopt

def routeParameters : Dispatch :=
  match r.search Assoc.emplace .none beyond method path with
  | .ended => .nullopt
  | .missed => r.miss
  | .decided _ handler params => r.reply handler params
  | .undefined => .undefined

def route (checkWithoutTrailingSlash : Bool) : Dispatch :=
  if method = [] ∨ path = [] then .nullopt
  else
    match r.routeParameters beyond method path with
    | .nullopt =>
        if checkWithoutTrailingSlash = true ∧ path.getLast? = some (chr '/') then
          r.routeParameters beyond method path.dropLast
        else .nullopt
    | resp => resp

/-- `none` stands for an undefined result. -/
def canRoute : Option (Bool × Bool) :=
  if method = [] ∨ path = [] then some (false, false)
  else
    match r.search (fun _ _ _ => ()) () beyond method path with
    | .ended => some (false, false)
    | .missed => some (false, false)
    | .decided _ handler _ => some (true, handler.isSome)
    | .undefined => none

end HttpRouter

end Router

end S3Proxy
