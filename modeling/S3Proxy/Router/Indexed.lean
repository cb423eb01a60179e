import S3Proxy.Router.Fate

/-!
# The matchers, index by index

`routeParameters` and `canRoute` as they are written: two copies of the same loops over indices,
where each access `iter->parts[i]`, `parts[i]`, `iter->handlers[k]`, `handlers[h]` and each offset
given to `substr` may be out of range.  Such an access has no result (`none`), but for the segments
of the entry, where `beyond` may know what is found behind the last one.

## Main result

`routeParameters_eq`: for every vector that `add` has filled, `routeParameters` does what the search
of `Router.Scan` says.  In particular every access but that one is in range.  The copy in `canRoute`
is compared with this one in `Router.Agreement`.

There is one lemma for each loop (`longer_eq`, `pass_eq`, `general_reaches`, `settle_general`,
`scan_eq`), by induction on what is left to be done, which goes along with the index.  `Fits` has
what they need to know of an entry: its methods have handlers at the same places, the numbers of
these are inside the table of handlers, and it has a segment wherever the loops ask for the last
one.  `fits_of_ledger` is where this comes from.

`subPath_eq` and `offset_eq` are about the offset of the sub-path, which is added up in a loop of
its own; that it leads inside the path is `offset_le_length` of `Library.Split`.

## Hypotheses

The router has a `Ledger`, so that it was filled by calls of `add`.  Nothing is asked of the paths.

## Where it is used

`Router.Agreement`, `Router.Bounds`, `Router.Order`, `Router.Bindings` and `Router.SubPath` state
their results about these functions, and prove them about the search.
-/

namespace S3Proxy

namespace Router

namespace Indexed

variable {H : Type*} (r : HttpRouter H) (beyond : Path → List Bytes) (method path : Bytes)
  (parts : List Bytes) (iter : Path)

/-! ### Accesses -/

/-- `iter->parts[i]`. -/
def segmentAt (i : ℕ) : Option Bytes := (iter.parts ++ beyond iter)[i]?

/-- `handlers[h]( request, params )`. -/
def invoke (h : ℕ) (params : Params) : Option Dispatch :=
  if h < r.handlers.length then some (.handler h params) else none

/-- `path.substr( pos )`. -/
def substr (pos : ℕ) : Option Bytes := if pos ≤ path.length then some (path.drop pos) else none

/-- The loop that adds up `idx`, with the number of passes that are left. -/
def offset : ℕ → ℕ → ℕ → Option ℕ
  | 0, _, idx => some idx
  | left + 1, j, idx => do
      let part ← parts[j]?
      offset left (j + 1) (idx + (1 + part.length))

/-- The part of the request that is bound to `WildcardKey`. -/
def subPath : Option Bytes := do
  let idx ← offset parts (iter.parts.length - 1) 0 0
  substr path (idx + 1)

/-- The handler behind the comparison, at the last segment of the request. -/
def compared (part iview : Bytes) (handler : Option ℕ) : Option (Option ℕ) :=
  if part = iview then (iter.indexOf method).bind fun midx => (iter.handlers[midx]?).map some
  else some handler

/-! ### `routeParameters` -/

/-- The answer of the first loop at a wildcard. -/
def answerRest (params : Params) : Option Dispatch :=
  match iter.indexOf method with
  | some midx => do
      let rest ← subPath path parts iter
      let h ← iter.handlers[midx]?
      invoke r h (params.emplace wildcardKey rest)
  | none => some (r.refuse params)

/-- The loop for requests that are longer than a wildcard entry: an answer, or the parameters with
which the loop is left. -/
def longer : ℕ → ℕ → Params → Option (Dispatch ⊕ Params)
  | 0, _, params => some (.inr params)
  | left + 1, i, params => do
      let iview ← segmentAt beyond iter i
      let part ← parts[i]?
      if part = iview then longer left (i + 1) params
      else
        let params :=
          if iview.head? = some (chr '{') then params.emplace (paramKey iview) part else params
        if iview ≠ marker then some (.inr params)
        else (answerRest r method path parts iter params).map .inl

/-- One pass through the loop over the segments of the request: an answer, or whether the loop goes
on, with the handler that has been found, if any, and the parameters. -/
def pass (i : ℕ) (handler : Option ℕ) (params : Params) :
    Option (Dispatch ⊕ Bool × Option ℕ × Params) := do
  let iview ← segmentAt beyond iter i
  let part ← parts[i]?
  if part = iview ∧ i ≠ parts.length - 1 then some (.inr (true, handler, params))
  else if part = iview ∧ iter.indexOf method = none then some (.inl (r.refuse params))
  else
    let handler ← compared method iter part iview handler
    if iview = marker ∧ iter.wildcard = true then
      match iter.indexOf method with
      | some midx => do
          let h ← iter.handlers[midx]?
          let rest ← subPath path parts iter
          some (.inr (false, some h, params.emplace wildcardKey rest))
      | none => some (.inl (r.refuse params))
    else if iview.head? ≠ some (chr '{') then some (.inr (false, handler, params))
    else
      let params := params.emplace (paramKey iview) part
      if i = parts.length - 1 then
        match iter.indexOf method with
        | some midx => do
            let h ← iter.handlers[midx]?
            some (.inr (true, some h, params))
        | none => some (.inl (r.refuse params))
      else some (.inr (true, handler, params))

/-- The loop over the segments of the request: an answer, or the handler that has been found, if
any, and the parameters. -/
def general : ℕ → ℕ → Option ℕ → Params → Option (Dispatch ⊕ Option ℕ × Params)
  | 0, _, handler, params => some (.inr (handler, params))
  | left + 1, i, handler, params => do
      match ← pass r beyond method path parts iter i handler params with
      | .inl answer => some (.inl answer)
      | .inr (true, handler, params) => general left (i + 1) handler params
      | .inr (false, handler, params) => some (.inr (handler, params))

/-- What follows when the loop over the segments is left: an answer, the handler that has been
found, or the next entry. -/
def settle (next : Option Dispatch) : Dispatch ⊕ Option ℕ × Params → Option Dispatch
  | .inl answer => some answer
  | .inr (some h, params) => invoke r h params
  | .inr (none, _) => next

/-- The loop over the entries. -/
def scan : List Path → Params → Option Dispatch
  | [], params => some (if r.notFound then .notFound params else .nullopt)
  | iter :: above, params =>
      if parts.length ≠ iter.parts.length ∧ iter.wildcard = false then scan above params
      else if parts.length ≠ iter.parts.length ∧ parts.length < iter.parts.length then
        scan above params
      else do
        let first ←
          if parts.length ≠ iter.parts.length then
            longer r beyond method path parts iter iter.parts.length 0 params
          else some (.inr params)
        match first with
        | .inl answer => some answer
        | .inr params =>
            let found ← general r beyond method path parts iter parts.length 0 none params
            settle r (scan above .none) found

def routeParameters : Option Dispatch :=
  match LowerBound.lowerBound Path.path path r.paths with
  | [] => some .nullopt
  | iter :: above =>
      if path = iter.path ∧ iter.wildcard = false then
        match iter.indexOf method with
        | some midx => do
            let h ← iter.handlers[midx]?
            invoke r h .none
        | none => some (r.refuse .none)
      else scan r beyond method path (split path) (iter :: above) .none

def route (checkWithoutTrailingSlash : Bool) : Option Dispatch :=
  if method = [] ∨ path = [] then some .nullopt
  else do
    match ← routeParameters r beyond method path with
    | .nullopt =>
        if checkWithoutTrailingSlash = true ∧ path.getLast? = some (chr '/') then
          routeParameters r beyond method path.dropLast
        else some .nullopt
    | resp => some resp

/-! ### `canRoute` -/

/-- The loop for requests that are longer than a wildcard entry: an answer, if there is one. -/
def canLonger : ℕ → ℕ → Option (Option (Bool × Bool))
  | 0, _ => some none
  | left + 1, i => do
      let iview ← segmentAt beyond iter i
      let part ← parts[i]?
      if part = iview then canLonger left (i + 1)
      else if iview ≠ marker then some none
      else some (some (true, (iter.indexOf method).isSome))

/-- One pass through the loop over the segments of the request: an answer, or whether the loop goes
on, with the handler that has been found, if any. -/
def canPass (i : ℕ) (handler : Option ℕ) : Option ((Bool × Bool) ⊕ Bool × Option ℕ) := do
  let iview ← segmentAt beyond iter i
  let part ← parts[i]?
  if part = iview ∧ i ≠ parts.length - 1 then some (.inr (true, handler))
  else if part = iview ∧ iter.indexOf method = none then some (.inl (true, false))
  else
    let handler ← compared method iter part iview handler
    if iview = marker ∧ iter.wildcard = true then
      match iter.indexOf method with
      | some midx => do
          let h ← iter.handlers[midx]?
          some (.inr (false, some h))
      | none => some (.inl (true, false))
    else if iview.head? ≠ some (chr '{') then some (.inr (false, handler))
    else if i = parts.length - 1 then
      match iter.indexOf method with
      | some midx => do
          let h ← iter.handlers[midx]?
          some (.inr (true, some h))
      | none => some (.inl (true, false))
    else some (.inr (true, handler))

/-- The loop over the segments of the request: an answer, or the handler that has been found, if
any. -/
def canGeneral : ℕ → ℕ → Option ℕ → Option ((Bool × Bool) ⊕ Option ℕ)
  | 0, _, handler => some (.inr handler)
  | left + 1, i, handler => do
      match ← canPass beyond method parts iter i handler with
      | .inl answer => some (.inl answer)
      | .inr (true, handler) => canGeneral left (i + 1) handler
      | .inr (false, handler) => some (.inr handler)

/-- What follows when the loop over the segments is left. -/
def canSettle (next : Option (Bool × Bool)) : (Bool × Bool) ⊕ Option ℕ → Option (Bool × Bool)
  | .inl answer => some answer
  | .inr (some _) => some (true, true)
  | .inr none => next

/-- The loop over the entries. -/
def canScan : List Path → Option (Bool × Bool)
  | [] => some (false, false)
  | iter :: above =>
      if parts.length ≠ iter.parts.length ∧ iter.wildcard = false then canScan above
      else if parts.length ≠ iter.parts.length ∧ parts.length < iter.parts.length then canScan above
      else do
        let first ←
          if parts.length ≠ iter.parts.length then
            canLonger beyond method parts iter iter.parts.length 0
          else some none
        match first with
        | some answer => some answer
        | none =>
            let found ← canGeneral beyond method parts iter parts.length 0 none
            canSettle (canScan above) found

def canRoute : Option (Bool × Bool) :=
  if method = [] ∨ path = [] then some (false, false)
  else
    match LowerBound.lowerBound Path.path path r.paths with
    | [] => some (false, false)
    | iter :: above =>
        if path = iter.path ∧ iter.wildcard = false then
          some (true, (iter.indexOf method).isSome)
        else canScan beyond method (split path) (iter :: above)

/-! ### Entries that fit -/

/-- What `add` sees to: there is a handler for each method, and it exists. -/
structure Fits (r : HttpRouter H) (iter : Path) : Prop where
  sound : iter.Sound
  length_eq : iter.methods.length = iter.handlers.length
  range : ∀ h ∈ iter.handlers, h < r.handlers.length

lemma fits_of_ledger {done : List (AddCall H)} {p : Path} (h : Ledger r done) (hp : p ∈ r.paths) :
    Fits r p where
  sound := (h.entries p hp).sound
  length_eq := (h.entries p hp).length_eq
  range := fun k hk => by
    have hmem : k ∈ r.paths.flatMap Path.handlers := List.mem_flatMap.mpr ⟨p, hp, hk⟩
    rw [h.indices.mem_iff, List.mem_range] at hmem
    rw [h.handlers, List.length_map]
    exact hmem

variable {r beyond method path parts iter}

variable (method) in
/-- A method that is listed has a handler. -/
lemma Fits.cases (hfits : Fits r iter) :
    (iter.indexOf method = none ∧ iter.handlerOf method = none) ∨
      ∃ midx h, iter.indexOf method = some midx ∧ iter.handlers[midx]? = some h ∧
        iter.handlerOf method = some h ∧ h < r.handlers.length := by
  cases hidx : iter.indexOf method with
  | none =>
      refine .inl ⟨rfl, ?_⟩
      rw [Path.handlerOf, hidx]
      rfl
  | some midx =>
      obtain ⟨hlt, -⟩ := List.idxOf?_eq_some_iff.mp hidx
      rw [hfits.length_eq] at hlt
      have hget := List.getElem?_eq_getElem hlt
      refine .inr ⟨midx, _, rfl, hget, ?_, hfits.range _ (List.getElem_mem hlt)⟩
      rw [Path.handlerOf, hidx]
      exact hget

lemma offset_eq {left j idx : ℕ} (hle : j + left ≤ parts.length) :
    offset parts left j idx =
      some (idx + (((parts.drop j).take left).map fun part => 1 + part.length).sum) := by
  induction left generalizing j idx with
  | zero => simp [offset]
  | succ left ih =>
      have hlt : j < parts.length := by omega
      rw [offset, List.getElem?_eq_getElem hlt]
      dsimp only [bind, Option.bind]
      rw [ih (by omega), List.drop_eq_getElem_cons hlt, List.take_succ_cons, List.map_cons,
        List.sum_cons, Nat.add_assoc]

/-- **The sub-path exists** for a request that is as long as the entry. -/
lemma subPath_eq (hlt : iter.parts.length - 1 < (split path).length) :
    subPath path (split path) iter = some (iter.remainder path (split path)) := by
  have hoffset : (((split path).take (iter.parts.length - 1)).map fun part => 1 + part.length).sum
      + 1 ≤ path.length := Text.offset_le_length hlt
  rw [subPath, offset_eq (by omega)]
  dsimp only [bind, Option.bind]
  rw [List.drop_zero, Nat.zero_add, substr, if_pos hoffset]
  rfl

lemma segmentAt_of_lt {i : ℕ} (hi : i < iter.parts.length) :
    segmentAt beyond iter i = some iter.parts[i] := by
  rw [segmentAt, List.getElem?_append_left hi, List.getElem?_eq_getElem hi]

/-! ### `routeParameters` does what the search does -/

/-- How the loop for longer requests is left. -/
def leave (r : HttpRouter H) : Visit Params ⊕ Params → Option (Dispatch ⊕ Params)
  | .inl (.decided handler params) => some (.inl (r.reply handler params))
  | .inl _ => none
  | .inr params => some (.inr params)

lemma answerRest_eq (hfits : Fits r iter) (hlt : iter.parts.length - 1 < (split path).length)
    (params : Params) :
    (answerRest r method path (split path) iter params).map .inl =
      leave r (.inl
        (iter.answerRest Assoc.emplace method (iter.remainder path (split path)) params)) := by
  rw [answerRest, Path.answerRest]
  rcases hfits.cases method with ⟨hidx, hhandler⟩ | ⟨midx, h, hidx, hget, hhandler, hlt'⟩
  · rw [hidx, hhandler]
    rfl
  · rw [hidx, hhandler, subPath_eq hlt]
    dsimp only [bind, Option.bind]
    rw [hget]
    dsimp only
    rw [invoke, if_pos hlt']
    rfl

lemma longer_eq (hfits : Fits r iter) (hlt : iter.parts.length < (split path).length) {left i : ℕ}
    {params : Params} (hi : i + left = iter.parts.length) :
    longer r beyond method path (split path) iter left i params =
      leave r (iter.longer Assoc.emplace method (iter.remainder path (split path))
        (((split path).drop i).zip (iter.parts.drop i)) params) := by
  induction left generalizing i params with
  | zero =>
      have hnil : iter.parts.drop i = [] := List.drop_eq_nil_iff.mpr hi.ge
      rw [hnil, List.zip_nil_right]
      rfl
  | succ left ih =>
      have hi' : i < iter.parts.length := by omega
      have hi'' : i < (split path).length := by omega
      rw [longer, segmentAt_of_lt hi', List.getElem?_eq_getElem hi'',
        List.drop_eq_getElem_cons hi', List.drop_eq_getElem_cons hi'', List.zip_cons_cons,
        Path.longer]
      dsimp only [bind, Option.bind]
      by_cases heq : (split path)[i] = iter.parts[i]
      · rw [if_pos heq, if_pos heq]
        exact ih (by omega)
      · rw [if_neg heq, if_neg heq]
        by_cases hmarker : iter.parts[i] = marker
        · rw [if_neg (not_not.mpr hmarker), if_neg (not_not.mpr hmarker)]
          exact answerRest_eq hfits (by omega) _
        · rw [if_pos hmarker, if_pos hmarker]
          rfl

/-- What the loop over the segments comes to, when that of the search comes to the given visit. -/
def Reaches (r : HttpRouter H) : Visit Params → Option (Dispatch ⊕ Option ℕ × Params) → Prop
  | .next, x => ∃ params, x = some (.inr (none, params))
  | .decided (some h) params, x => x = some (.inr (some h, params))
  | .decided none params, x => x = some (.inl (r.refuse params))
  | .undefined, x => x = none

/-- What a pass at the end comes to: the handler of the entry, or a refusal. -/
def ended (r : HttpRouter H) (goesOn : Bool) (refused params : Params) :
    Option ℕ → Dispatch ⊕ Bool × Option ℕ × Params
  | some h => .inr (goesOn, some h, params)
  | none => .inl (r.refuse refused)

/-- **One pass** through the loop, with the handler of the entry for its method. -/
lemma pass_eq (hfits : Fits r iter) (hle : iter.parts.length ≤ (split path).length) {i : ℕ}
    {part iview : Bytes} (hpart : (split path)[i]? = some part)
    (hiview : segmentAt beyond iter i = some iview) (params : Params) :
    pass r beyond method path (split path) iter i none params = some
      (if part = iview ∧ i ≠ (split path).length - 1 then .inr (true, none, params)
      else if part = iview ∧ iter.handlerOf method = none then .inl (r.refuse params)
      else if iview = marker ∧ iter.wildcard = true then
        ended r false params (params.emplace wildcardKey (iter.remainder path (split path)))
          (iter.handlerOf method)
      else if iview.head? ≠ some (chr '{') then
        .inr (false, if part = iview then iter.handlerOf method else none, params)
      else if i = (split path).length - 1 then
        ended r true (params.emplace (paramKey iview) part) (params.emplace (paramKey iview) part)
          (iter.handlerOf method)
      else .inr (true, none, params.emplace (paramKey iview) part)) := by
  have hlt := (List.getElem?_eq_some_iff.mp hpart).1
  have hsub : subPath path (split path) iter = some (iter.remainder path (split path)) :=
    subPath_eq (by omega)
  have hnone : iter.indexOf method = none ↔ iter.handlerOf method = none := by
    rcases hfits.cases method with ⟨hidx, hhandler⟩ | ⟨midx, h, hidx, -, hhandler, -⟩
    · simp [hidx, hhandler]
    · simp [hidx, hhandler]
  rw [pass, hiview, hpart, hsub]
  simp only [Option.bind_eq_bind, Option.bind_some, hnone]
  by_cases hcontinue : part = iview ∧ i ≠ (split path).length - 1
  · rw [if_pos hcontinue, if_pos hcontinue]
  rw [if_neg hcontinue, if_neg hcontinue]
  by_cases hrefused : part = iview ∧ iter.handlerOf method = none
  · rw [if_pos hrefused, if_pos hrefused]
  rw [if_neg hrefused, if_neg hrefused]
  have hcompared : compared method iter part iview none =
      some (if part = iview then iter.handlerOf method else none) := by
    rw [compared]
    by_cases heq : part = iview
    · rcases hfits.cases method with ⟨-, hhandler⟩ | ⟨midx, h, hidx, hget, hhandler, -⟩
      · exact absurd ⟨heq, hhandler⟩ hrefused
      · rw [if_pos heq, if_pos heq, hidx, hhandler, Option.bind_some, hget]
        rfl
    · rw [if_neg heq, if_neg heq]
  rw [hcompared, Option.bind_some]
  by_cases hmarker : iview = marker ∧ iter.wildcard = true
  · rw [if_pos hmarker, if_pos hmarker]
    rcases hfits.cases method with ⟨hidx, hhandler⟩ | ⟨midx, h, hidx, hget, hhandler, -⟩
    · rw [hidx, hhandler]
      rfl
    · rw [hidx, hhandler]
      dsimp only
      rw [hget]
      rfl
  rw [if_neg hmarker, if_neg hmarker]
  by_cases hbrace : iview.head? ≠ some (chr '{')
  · rw [if_pos hbrace, if_pos hbrace]
  rw [if_neg hbrace, if_neg hbrace]
  by_cases hend : i = (split path).length - 1
  · rw [if_pos hend, if_pos hend]
    rcases hfits.cases method with ⟨hidx, hhandler⟩ | ⟨midx, h, hidx, hget, hhandler, -⟩
    · rw [hidx, hhandler]
      rfl
    · rw [hidx, hhandler]
      dsimp only
      rw [hget]
      rfl
  · -- before the end, only a segment that differs gets here
    have hne : part ≠ iview := fun h => hcontinue ⟨h, hend⟩
    rw [if_neg hend, if_neg hend, if_neg hne]

variable (beyond method) in
/-- **The loop over the segments** does what that of the search does. -/
lemma general_reaches (hfits : Fits r iter) (hle : iter.parts.length ≤ (split path).length)
    {left i : ℕ} (params : Params) (hi : i + left = (split path).length) :
    Reaches r
      (iter.general Assoc.emplace method (iter.remainder path (split path))
        ((split path).drop i) ((iter.parts ++ beyond iter).drop i) params)
      (general r beyond method path (split path) iter left i none params) := by
  induction left generalizing i params with
  | zero =>
      have hnil : (split path).drop i = [] := List.drop_eq_nil_iff.mpr hi.ge
      rw [hnil]
      exact ⟨params, rfl⟩
  | succ left ih =>
      have hlt : i < (split path).length := by omega
      have hpart := List.getElem?_eq_getElem hlt
      cases hseg : segmentAt beyond iter i with
      | none =>
          have hnil : (iter.parts ++ beyond iter).drop i = [] :=
            List.drop_eq_nil_iff.mpr (List.getElem?_eq_none_iff.mp hseg)
          rw [general, pass, hseg, hnil, List.drop_eq_getElem_cons hlt]
          rfl
      | some iview =>
          obtain ⟨hi', hget⟩ := List.getElem?_eq_some_iff.mp hseg
          have hlast : (split path).drop (i + 1) = [] ↔ i = (split path).length - 1 := by
            rw [List.drop_eq_nil_iff]
            omega
          have ih := fun params => ih (i := i + 1) params (by omega)
          rw [List.drop_eq_getElem_cons hi', hget, List.drop_eq_getElem_cons hlt, general,
            pass_eq hfits hle hpart hseg params, Path.general]
          generalize (split path)[i] = part
          by_cases hcontinue : part = iview ∧ i ≠ (split path).length - 1
          · rw [if_pos hcontinue, if_pos ⟨hcontinue.1, mt hlast.mp hcontinue.2⟩]
            exact ih params
          have hstay : ¬ (part = iview ∧ (split path).drop (i + 1) ≠ []) := fun h =>
            hcontinue ⟨h.1, mt hlast.mpr h.2⟩
          rw [if_neg hcontinue, if_neg hstay]
          by_cases hrefused : part = iview ∧ iter.handlerOf method = none
          · rw [if_pos hrefused, if_pos hrefused]
            rfl
          rw [if_neg hrefused, if_neg hrefused]
          by_cases hmarker : iview = marker ∧ iter.wildcard = true
          · rw [if_pos hmarker, if_pos hmarker, Path.answerRest]
            cases iter.handlerOf method <;> exact rfl
          rw [if_neg hmarker, if_neg hmarker]
          by_cases hbrace : iview.head? ≠ some (chr '{')
          · rw [if_pos hbrace, if_pos hbrace]
            by_cases heq : part = iview
            · rw [if_pos heq, if_pos heq, Path.answer]
              cases hhandler : iter.handlerOf method with
              | some h => exact rfl
              | none => exact absurd ⟨heq, hhandler⟩ hrefused
            · rw [if_neg heq, if_neg heq]
              exact ⟨params, rfl⟩
          rw [if_neg hbrace, if_neg hbrace]
          by_cases hend : i = (split path).length - 1
          · -- the last pass
            obtain rfl : left = 0 := by omega
            rw [if_pos hend, if_pos (hlast.mpr hend), Path.answer]
            cases iter.handlerOf method <;> exact rfl
          · rw [if_neg hend, if_neg (mt hlast.mp hend)]
            exact ih _

/-- What the loop over the entries comes to. -/
def concluded (r : HttpRouter H) : Search Params → Option Dispatch
  | .ended => some .nullopt
  | .missed => some r.miss
  | .decided _ handler params => some (r.reply handler params)
  | .undefined => none

/-- A handler that an entry gives out can be called. -/
lemma Fits.invoke_eq (hfits : Fits r iter) {h : ℕ} (hhandler : some h = iter.handlerOf method)
    (params : Params) : invoke r h params = some (.handler h params) := by
  rcases hfits.cases method with ⟨-, hnone⟩ | ⟨midx, h', -, -, hsome, hlt⟩
  · rw [hnone] at hhandler
    cases hhandler
  · rw [hsome] at hhandler
    cases hhandler
    exact if_pos hlt

/-- How the search goes on after a visit. -/
def afterVisit {π : Type*} (iter : Path) (rest : Search π) : Visit π → Search π
  | .next => rest
  | .decided handler params => .decided iter handler params
  | .undefined => .undefined

lemma scan_cons {π : Type*} {record : π → Bytes → Bytes → π} {start : π} {above : List Path} :
    Router.scan record start beyond method path (iter :: above) =
      afterVisit iter (Router.scan record start beyond method path above)
        (iter.visit record start beyond method path) := by
  rw [Router.scan]
  cases iter.visit record start beyond method path <;> rfl

variable (beyond method) in
lemma settle_general (hfits : Fits r iter) (hle : iter.parts.length ≤ (split path).length)
    (params : Params) {next : Option Dispatch} {rest : Search Params}
    (hnext : next = concluded r rest) :
    (general r beyond method path (split path) iter (split path).length 0 none params).bind
        (settle r next) =
      concluded r (afterVisit iter rest
        (iter.general Assoc.emplace method (iter.remainder path (split path)) (split path)
          (iter.parts ++ beyond iter) params)) := by
  have hreach := general_reaches beyond method hfits hle params
    (Nat.zero_add _)
  rw [List.drop_zero, List.drop_zero] at hreach
  cases hvisit : iter.general Assoc.emplace method (iter.remainder path (split path)) (split path)
      (iter.parts ++ beyond iter) params with
  | next =>
      rw [hvisit] at hreach
      obtain ⟨params', hgeneral⟩ := hreach
      rw [hgeneral]
      exact hnext
  | decided handler params' =>
      rw [hvisit] at hreach
      cases handler with
      | none =>
          have hgeneral :
              general r beyond method path (split path) iter _ 0 none params = _ := hreach
          rw [hgeneral]
          rfl
      | some h =>
          have hgeneral :
              general r beyond method path (split path) iter _ 0 none params = _ := hreach
          rw [hgeneral]
          exact hfits.invoke_eq (general_sound hvisit) params'
  | undefined =>
      rw [hvisit] at hreach
      have hgeneral : general r beyond method path (split path) iter _ 0 none params = _ := hreach
      rw [hgeneral]
      rfl

lemma concluded_eq_none_iff {s : Search Params} : concluded r s = none ↔ s = .undefined := by
  cases s <;> simp [concluded]

/-- What happens at a wildcard entry that the request is longer than. -/
lemma visit_longer (hwildcard : ¬ iter.wildcard = false)
    (hlt : iter.parts.length < (split path).length) :
    iter.visit Assoc.emplace .none beyond method path =
      (iter.longer Assoc.emplace method (iter.remainder path (split path))
        ((split path).zip iter.parts) .none).elim id fun params =>
          iter.general Assoc.emplace method (iter.remainder path (split path)) (split path)
            (iter.parts ++ beyond iter) params := by
  rw [Path.visit, if_pos hlt.ne', if_neg hwildcard, if_neg hlt.not_gt]
  cases iter.longer Assoc.emplace method (iter.remainder path (split path))
    ((split path).zip iter.parts) Assoc.none <;> rfl

/-- **The loop over the entries** does what that of the search does. -/
lemma scan_eq {l : List Path} (hfits : ∀ p ∈ l, Fits r p) :
    scan r beyond method path (split path) l .none =
      concluded r (Router.scan Assoc.emplace .none beyond method path l) := by
  induction l with
  | nil => rfl
  | cons iter above ih =>
      have hiter := hfits iter List.mem_cons_self
      have ih := ih fun p hp => hfits p (List.mem_cons_of_mem _ hp)
      have hsettle := fun (hle : iter.parts.length ≤ (split path).length) params =>
        settle_general beyond method hiter hle params ih
      rw [scan, scan_cons]
      by_cases hlength : (split path).length = iter.parts.length
      · have hequal := not_not.mpr hlength
        have hvisit : iter.visit Assoc.emplace .none beyond method path = iter.general Assoc.emplace
            method (iter.remainder path (split path)) (split path) (iter.parts ++ beyond iter)
            .none := if_neg hequal
        rw [if_neg fun h => h.1 hlength, if_neg fun h => h.1 hlength, if_neg hequal, hvisit,
          Option.bind_eq_bind, Option.bind_some]
        exact hsettle hlength.ge .none
      · by_cases hwildcard : iter.wildcard = false
        · have hvisit : iter.visit Assoc.emplace .none beyond method path = .next :=
            (if_pos hlength).trans (if_pos hwildcard)
          rw [if_pos ⟨hlength, hwildcard⟩, hvisit]
          exact ih
        · rw [if_neg fun h => hwildcard h.2]
          by_cases hshort : (split path).length < iter.parts.length
          · have hvisit : iter.visit Assoc.emplace .none beyond method path = .next :=
              (if_pos hlength).trans ((if_neg hwildcard).trans (if_pos hshort))
            rw [if_pos ⟨hlength, hshort⟩, hvisit]
            exact ih
          · have hlt : iter.parts.length < (split path).length := by omega
            have hlonger : longer r beyond method path (split path) iter iter.parts.length 0 .none =
                leave r (iter.longer Assoc.emplace method (iter.remainder path (split path))
                  ((split path).zip iter.parts) .none) := longer_eq hiter hlt (Nat.zero_add _)
            rw [if_neg fun h => hshort h.2, if_pos hlength, hlonger, visit_longer hwildcard hlt,
              Option.bind_eq_bind]
            cases hleft : iter.longer Assoc.emplace method (iter.remainder path (split path))
                ((split path).zip iter.parts) Assoc.none with
            | inl v =>
                obtain ⟨-, params, hdecided⟩ := longer_walk hlt hleft
                subst hdecided
                rfl
            | inr params =>
                rw [leave, Option.bind_some]
                exact hsettle hlt.le params

/-- **`routeParameters`** does what the search says. -/
theorem routeParameters_eq {done : List (AddCall H)} (h : Ledger r done) :
    routeParameters r beyond method path =
      concluded r (r.search Assoc.emplace .none beyond method path) := by
  rw [routeParameters, HttpRouter.search]
  cases hbound : LowerBound.lowerBound Path.path path r.paths with
  | nil => rfl
  | cons iter above =>
      have hfits : ∀ p ∈ iter :: above, Fits r p := fun p hp =>
        fits_of_ledger r h (h.ordered.mem_of_bound hbound hp).1
      dsimp only
      split_ifs with hexact
      · have hiter := hfits iter List.mem_cons_self
        rcases hiter.cases method with
          ⟨hidx, hhandler⟩ | ⟨midx, k, hidx, hget, hhandler, -⟩
        · rw [hidx, hhandler]
          rfl
        · rw [hidx, hhandler]
          dsimp only [bind, Option.bind]
          rw [hget]
          exact hiter.invoke_eq hhandler.symm .none
      · exact scan_eq hfits

/-- Without the retry, `route` is `routeParameters`. -/
lemma route_false : route r beyond method path false =
    if method = [] ∨ path = [] then some .nullopt else routeParameters r beyond method path := by
  rw [route]
  by_cases hempty : method = [] ∨ path = []
  · rw [if_pos hempty, if_pos hempty]
  · rw [if_neg hempty, if_neg hempty]
    cases routeParameters r beyond method path with
    | none => rfl
    | some resp => cases resp <;> rfl

end Indexed

end Router

end S3Proxy
