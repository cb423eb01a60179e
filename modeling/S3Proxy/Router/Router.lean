import S3Proxy.Library.Assoc
import S3Proxy.Library.LowerBound
import S3Proxy.Library.Split
import S3Proxy.Model.Text

/-!
# The HTTP router

`HttpRouter` keeps its paths in a vector that is sorted by the bytes of the path string.  A final
`*` is stored as `~`.  A path that is added again, for another method, goes to the entry that has
the same string, if the search for it arrives there; otherwise it becomes an entry of its own, and
the vector is sorted again.  `std::sort` is not stable: `Sorter` is any function that sorts.

`addParameter` looks at the methods of the entry that its search arrived at, even if that is the end
of the vector; what it finds there is a parameter, `beyond`.

## Main notions

`HttpRouter.add` is one call, with its errors.  A router is filled by a list of calls, either all of
which return (`addAll`) or some of which throw and are caught by the caller (`attemptAll`); the
results about routers are about all lists of calls.

The meaning of a path does not depend on the vector.  `segments` reads it as a list of `Segment`s (a
literal, a parameter or the wildcard), and `Matches` says which requests fit them; this is what the
router is for, and the rest of the directory compares the search with it.

## The modules

`Router.Ledger` and `Router.Table` say what the calls make of the vector, `Router.Scan` and
`Router.Indexed` are the matchers, once as a search and once index by index, and `Router.Fate`,
`Router.Visit` and `Router.Search` say what the search comes to.  The results about requests are in
`Router.Routes`, `Router.Specificity`, `Router.Order`, `Router.Bindings`, `Router.SubPath`,
`Router.Agreement` and `Router.Bounds`, those about registration in `Router.Ledger`,
`Router.Duplicates` and `Router.Marker`.
-/

namespace S3Proxy

namespace Router

/-- `util::split`. -/
def split (csv : Bytes) : List Bytes := Text.split (· = chr '/') csv

inductive RouterError
  | duplicateRoute (msg : Bytes)
  | invalidParameter (msg : Bytes)
  | invalidWildcard (msg : Bytes)
  deriving DecidableEq

/-- `HttpRouter::Path`. -/
structure Path where
  path : Bytes
  epath : Bytes
  ref : Bytes
  parts : List Bytes
  methods : List Bytes
  /-- Positions in the handlers of the router, one for each method. -/
  handlers : List ℕ
  wildcard : Bool
  deriving DecidableEq

/-- The segment that a final `*` is stored as. -/
def marker : Bytes := bytesOf "~"

namespace Path

/-- One pass through the loop of the constructor, which builds `epath`. -/
def scanPart (path : Bytes) (acc : Bytes × Bool) (part : Bytes) :
    Except RouterError (Bytes × Bool) :=
  if (part.head? = some (chr '{') ∧ part.getLast? ≠ some (chr '}')) ∨
      part.head? = some (chr ':') then
    .error (.invalidParameter
      (bytesOf "Path " ++ path ++ bytesOf " has invalid parameter " ++ part))
  else if part.head? = some (chr '{') then .ok (acc.1 ++ bytesOf "/{}", acc.2)
  else if part = marker then .ok (acc.1 ++ bytesOf "/" ++ bytesOf "*", true)
  else .ok (acc.1 ++ bytesOf "/" ++ part, acc.2)

/-- The constructor. -/
def make (p m : Bytes) (h : ℕ) (r : Bytes) : Except RouterError Path := do
  let acc ← (split p).foldlM (scanPart p) ([], false)
  return { path := p, epath := acc.1, ref := r, parts := split p, methods := [m], handlers := [h],
           wildcard := acc.2 }

def indexOf (p : Path) (method : Bytes) : Option ℕ := p.methods.idxOf? method

/-- `handlers[*midx]`, if the method is there. -/
def handlerOf (p : Path) (method : Bytes) : Option ℕ := (p.indexOf method).bind (p.handlers[·]?)

end Path

/-- The handlers have type `H`; of the error handlers it matters whether they are configured. -/
structure HttpRouter (H : Type*) where
  handlers : List H := []
  paths : List Path := []
  notFound : Bool := false
  methodNotAllowed : Bool := false
  deriving DecidableEq

/-- A function that sorts entries by path, and may do anything with equal paths. -/
structure Sorter where
  sort : List Path → List Path
  perm : ∀ l, (sort l).Perm l
  sorted : ∀ l, LowerBound.Sorted Path.path (sort l)

/-- The arguments of `add`, and what its search finds behind the end of the vector. -/
structure AddCall (H : Type*) where
  method : Bytes
  path : Bytes
  handler : H
  ref : Bytes := []
  beyond : List Bytes := []
  deriving DecidableEq

namespace HttpRouter

variable {H : Type*}

/-- The constructor. -/
def make (error404 error405 : Bool) : HttpRouter H :=
  { notFound := error404, methodNotAllowed := error405 }

/-- The checks of the wildcard character. -/
def checkWildcard (full : Bytes) : Except RouterError Unit :=
  match full.idxOf? (chr '*') with
  | none => .ok ()
  | some idx =>
      if idx ≠ full.length - 1 then
        .error (.invalidWildcard (bytesOf "Wildcard character at invalid position"))
      else if 0 < idx ∧ full[idx - 1]? ≠ some (chr '/') then
        .error (.invalidWildcard (bytesOf "Wildcard character not preceded by /"))
      else .ok ()

/-- A final `*` becomes `~`. -/
def stored (full : Bytes) : Bytes :=
  if full.getLast? = some (chr '*') then full.dropLast ++ marker else full

/-- `addParameter` for a path that the search does not arrive at; `found` are the methods of the
entry that it arrives at instead. -/
def addPath (sorter : Sorter) (r : HttpRouter H) (c : AddCall H) (found : List Bytes) :
    Except RouterError (List Path) := do
  checkWildcard c.path
  let ps ← Path.make (stored c.path) c.method r.handlers.length c.ref
  match r.paths.find? (·.epath = ps.epath) with
  | some p =>
      if c.method ∈ found then
        .error (.duplicateRoute
          (bytesOf "Duplicate path " ++ ps.path ++ bytesOf " clashes with " ++ p.path))
      else .ok (sorter.sort (r.paths ++ [ps]))
  | none => .ok (sorter.sort (r.paths ++ [ps]))

def addParameter (sorter : Sorter) (r : HttpRouter H) (c : AddCall H) :
    Except RouterError (List Path) :=
  match LowerBound.lowerBound Path.path c.path r.paths with
  | [] => r.addPath sorter c c.beyond
  | iter :: above =>
      if c.path = iter.path then
        if (iter.indexOf c.method).isSome then
          .error (.duplicateRoute
            (bytesOf "Duplicate path " ++ c.path ++ bytesOf " for method " ++ c.method))
        else
          let below := r.paths.takeWhile fun p => p.path < c.path
          .ok (below ++ { iter with
            methods := iter.methods ++ [c.method]
            handlers := iter.handlers ++ [r.handlers.length] } :: above)
      else r.addPath sorter c iter.methods

def add (sorter : Sorter) (r : HttpRouter H) (c : AddCall H) :
    Except RouterError (HttpRouter H) :=
  (r.addParameter sorter c).map fun paths =>
    { r with paths, handlers := r.handlers ++ [c.handler] }

/-- A sequence of calls that all return. -/
def addAll (sorter : Sorter) (r : HttpRouter H) (calls : List (AddCall H)) :
    Except RouterError (HttpRouter H) :=
  calls.foldlM (add sorter) r

/-- A sequence of calls whose exceptions are caught. -/
def attemptAll (sorter : Sorter) (r : HttpRouter H) (calls : List (AddCall H)) : HttpRouter H :=
  calls.foldl
    (fun r c =>
      match r.add sorter c with
      | .ok r' => r'
      | .error _ => r)
    r

end HttpRouter

/-- Insertion sort. -/
def Sorter.insertion : Sorter where
  sort := List.insertionSort fun a b => a.path ≤ b.path
  perm l := List.perm_insertionSort _ l
  sorted l :=
    have : Std.Total fun a b : Path => a.path ≤ b.path := ⟨fun _ _ => Std.le_total⟩
    have : IsTrans Path fun a b => a.path ≤ b.path := ⟨fun _ _ _ => Std.le_trans⟩
    List.pairwise_insertionSort _ l

/-! ### Patterns -/

/-- What a segment of a registered path stands for. -/
inductive Segment
  | literal (s : Bytes)
  | param (name : Bytes)
  /-- The rest of the request, at least one segment. -/
  | rest
  deriving DecidableEq

/-- The name between braces. -/
def paramKey (part : Bytes) : Bytes := part.tail.dropLast

/-- The meaning of a segment; `star` is how the wildcard is written. -/
def Segment.of (star part : Bytes) : Segment :=
  if part = star then .rest
  else if part.head? = some (chr '{') then .param (paramKey part)
  else .literal part

/-- The pattern of a path as it is given to `add`. -/
def segments (path : Bytes) : List Segment := (split path).map (Segment.of (bytesOf "*"))

/-- The pattern of an entry. -/
def Path.segments (p : Path) : List Segment := p.parts.map (Segment.of marker)

/-- A pattern matches the segments of a request. -/
def Matches : List Segment → List Bytes → Prop
  | [], [] => True
  | .literal s :: ps, part :: parts => part = s ∧ Matches ps parts
  | .param _ :: ps, _ :: parts => Matches ps parts
  | [.rest], _ :: _ => True
  | _, _ => False

instance : ∀ ps parts, Decidable (Matches ps parts)
  | [], [] => isTrue trivial
  | [], _ :: _ => isFalse id
  | .literal _ :: _, [] => isFalse id
  | .literal s :: ps, part :: parts =>
      have := instDecidableMatches ps parts
      inferInstanceAs (Decidable (part = s ∧ Matches ps parts))
  | .param _ :: _, [] => isFalse id
  | .param _ :: ps, _ :: parts => instDecidableMatches ps parts
  | [.rest], [] => isFalse id
  | [.rest], _ :: _ => isTrue trivial
  | .rest :: _ :: _, [] => isFalse id
  | .rest :: _ :: _, _ :: _ => isFalse id

end Router

end S3Proxy
