import S3Proxy.Router.Bounds
import S3Proxy.Router.Marker

/-!
# Path parameters

`captures` lists what the loops bind on the way to a handler: a segment for each parameter, unless
the segment is the parameter's own text, and the rest of the request for the wildcard.  The map that
a handler gets holds these bindings, where the first one for a name counts.  An exact hit binds
nothing.

## Main result

`boundExactly_iff`: a handler gets each parameter of its path bound to the segment in its place, and
nothing else (`BoundExactly`), exactly if the parameters are `Legible` in the path that is looked
up.  A path that is found as it is must have no parameters, no parameter may have its own text in
its place, unless the end of the walk binds it after all, and none may have the name of the wildcard
in a path without one.

There are two steps.  `search_captures` says that the map holds the captures of the entry that
decides (`general_captures` and `longer_captures` are the two loops), and `handler_captures` goes
back from the entry to the call that registered it.  Then `first_captures` says what a name is
looked up as: the first segment that is read for it (`firstRead`), or else what the end of the walk
binds (`lastBinding`).  `exact_captures_iff` compares this with the segments of the path.

## Hypotheses

The calls that returned have no marker as a segment, a handler was given out, and nothing is read
behind an entry.  `lookedUp` is the path of the request, or what the retry has made of it.

## Where it is used

`Router.SubPath` uses `captures`, `first_captures` and `handler_captures` for the binding of the
wildcard.  What it rests on is `routeParameters_eq` of `Router.Indexed` and the laws of the map in
`Library.Assoc`.
-/

namespace S3Proxy

namespace Router

variable {H : Type*} {sorter : Sorter} {r : HttpRouter H} {c : AddCall H}
  {calls done : List (AddCall H)} {method rest q name key : Bytes} {p : Path} {ps qs : List Bytes}
  {part iview : Bytes} {parts : List Bytes} {params params' : Params} {k : ℕ}

/-! ### What is bound -/

/-- The bindings of the loop over the segments of the request. -/
def captures (rest : Bytes) : List Bytes → List Bytes → List (Bytes × Bytes)
  | part :: parts, iview :: iviews =>
      if part = iview ∧ parts ≠ [] then captures rest parts iviews
      else if iview = marker then [(wildcardKey, rest)]
      else if iview.head? = some (chr '{') then
        (paramKey iview, part) :: captures rest parts iviews
      else []
  | _, _ => []

/-- The loop over the segments binds the captures. -/
lemma general_captures (hwildcard : marker ∈ ps → p.wildcard = true)
    (h : p.general Assoc.emplace method rest qs ps params = .decided (some k) params') :
    params' = params.emplaceAll (captures rest qs ps) := by
  induction ps generalizing qs params with
  | nil =>
      cases qs with
      | nil => cases h
      | cons part parts => cases h
  | cons iview ps ih =>
      cases qs with
      | nil => cases h
      | cons part parts =>
          have ih : ∀ params, p.general Assoc.emplace method rest parts ps params =
              .decided (some k) params' →
                params' = params.emplaceAll (captures rest parts ps) := fun params =>
            ih fun h => hwildcard (List.mem_cons_of_mem _ h)
          rw [Path.general] at h
          rw [captures]
          by_cases hcontinue : part = iview ∧ parts ≠ []
          · rw [if_pos hcontinue] at h ⊢
            exact ih params h
          rw [if_neg hcontinue] at h ⊢
          by_cases hrefused : part = iview ∧ p.handlerOf method = none
          · rw [if_pos hrefused] at h
            cases h
          rw [if_neg hrefused] at h
          by_cases hmarker : iview = marker
          · rw [if_pos ⟨hmarker, hwildcard (hmarker ▸ List.mem_cons_self)⟩, Path.answerRest] at h
            rw [if_pos hmarker]
            cases hhandler : p.handlerOf method with
            | none =>
                rw [hhandler] at h
                cases h
            | some k' =>
                rw [hhandler] at h
                cases h
                rfl
          rw [if_neg fun h => hmarker h.1] at h
          rw [if_neg hmarker]
          by_cases hbrace : iview.head? = some (chr '{')
          · rw [if_neg (not_not.mpr hbrace)] at h
            rw [if_pos hbrace]
            dsimp only at h
            by_cases hlast : parts = []
            · subst hlast
              rw [if_pos rfl, Path.answer] at h
              exact (Visit.decided.inj h).2.symm
            · rw [if_neg hlast] at h
              exact ih _ h
          · rw [if_pos hbrace] at h
            rw [if_neg hbrace]
            split_ifs at h
            exact (Visit.decided.inj h).2.symm

variable (method rest p params k) in
/-- The loop for longer requests binds what the other one would, or the first of it. -/
lemma longer_captures (hlength : ps.length < qs.length) :
    (∀ params', p.longer Assoc.emplace method rest (qs.zip ps) params =
        .inl (.decided (some k) params') → params' = params.emplaceAll (captures rest qs ps)) ∧
      ∀ params', p.longer Assoc.emplace method rest (qs.zip ps) params = .inr params' →
        params'.emplaceAll (captures rest qs ps) = params.emplaceAll (captures rest qs ps) := by
  induction ps generalizing qs with
  | nil =>
      rw [List.zip_nil_right]
      refine ⟨fun params' h => ?_, fun params' h => ?_⟩
      · cases h
      · cases h
        rfl
  | cons iview ps ih =>
      cases qs with
      | nil => exact absurd hlength (by simp)
      | cons part parts =>
          rw [List.length_cons, List.length_cons, Nat.add_lt_add_iff_right] at hlength
          have hparts : parts ≠ [] := List.ne_nil_of_length_pos (Nat.zero_lt_of_lt hlength)
          rw [List.zip_cons_cons, Path.longer, captures]
          by_cases heq : part = iview
          · rw [if_pos heq, if_pos ⟨heq, hparts⟩]
            exact ih hlength
          have hne : ¬ (part = iview ∧ parts ≠ []) := fun h => heq h.1
          rw [if_neg heq, if_neg hne]
          by_cases hmarker : iview = marker
          · have hbrace : iview.head? ≠ some (chr '{') := fun h => marker_ne_of_brace h hmarker
            rw [if_neg (not_not.mpr hmarker), if_pos hmarker, if_neg hbrace]
            refine ⟨fun params' h => ?_, fun params' h => ?_⟩
            · rw [Path.answerRest] at h
              cases hhandler : p.handlerOf method with
              | none =>
                  rw [hhandler] at h
                  cases h
              | some k' =>
                  rw [hhandler] at h
                  cases h
                  rfl
            · cases h
          · rw [if_pos hmarker, if_neg hmarker]
            refine ⟨fun params' h => ?_, fun params' h => ?_⟩
            · cases h
            · by_cases hbrace : iview.head? = some (chr '{')
              · rw [if_pos hbrace] at h ⊢
                cases h
                rw [Assoc.emplaceAll, List.foldl_cons, Assoc.emplace_emplace]
                rfl
              · rw [if_neg hbrace] at h
                cases h
                rfl

/-- **One entry** binds the captures. -/
lemma visit_captures (hp : p.Sound)
    (h : p.visit Assoc.emplace .none (fun _ => []) method q = .decided (some k) params) :
    params = Assoc.none.emplaceAll
      (captures (p.remainder q (split q)) (split q) p.parts) := by
  have hwildcard := hp.wildcard.mpr
  unfold Path.visit at h
  dsimp only at h
  rw [List.append_nil] at h
  by_cases hlength : (split q).length = p.parts.length
  · rw [if_neg (not_not.mpr hlength)] at h
    exact general_captures hwildcard h
  · rw [if_pos hlength] at h
    split_ifs at h with hfalse hshort
    have hlonger := longer_captures method (p.remainder q (split q)) p .none k
      (show p.parts.length < (split q).length by omega)
    split at h
    · rename_i v hleft
      subst h
      exact hlonger.1 params hleft
    · rename_i params' hleft
      rw [← hlonger.2 params' hleft]
      exact general_captures hwildcard h

/-- The request hits the entry by its very path. -/
def Path.Hit (p : Path) (q : Bytes) : Prop := p.path = q ∧ p.wildcard = false

/-- **The search** gives out nothing for an exact hit, and the captures otherwise. -/
lemma search_captures (h : r.Ordered)
    (hsearch : r.search Assoc.emplace .none (fun _ => []) method q = .decided p (some k) params) :
    p ∈ r.paths ∧ p.handlerOf method = some k ∧
      ((p.Hit q ∧ params = .none) ∨
        (¬ p.Hit q ∧ p.fate q = .stop ∧ params = Assoc.none.emplaceAll
          (captures (p.remainder q (split q)) (split q) p.parts))) := by
  obtain ⟨hp, -, hhandler⟩ := h.search_sound hsearch
  refine ⟨hp, hhandler.symm, ?_⟩
  rcases h.search_taker Assoc.emplace .none (fun _ => []) method (q := q) with
    ⟨-, ⟨-, heq⟩ | ⟨-, heq⟩⟩ | ⟨p', htaker, ⟨hpath, hwildcard, heq⟩ | ⟨hhit, hfate, above, heq⟩⟩
  · rw [hsearch] at heq
    cases heq
  · rw [hsearch] at heq
    cases heq
  · rw [hsearch] at heq
    obtain ⟨rfl, -, rfl⟩ := Search.decided.inj heq
    exact .inl ⟨⟨hpath, hwildcard⟩, rfl⟩
  · have hp' := h.entries p' (taker_some htaker).1
    rw [hsearch] at heq
    cases hcase : p'.fate q with
    | pass => exact absurd hcase hfate
    | past =>
        rw [scan, visit_past hp' hcase rfl] at heq
        cases heq
    | stop =>
        obtain ⟨params', hvisit⟩ := visit_stop Assoc.emplace .none (fun _ => []) method hp' hcase
        rw [scan, hvisit] at heq
        obtain ⟨rfl, -, rfl⟩ := Search.decided.inj heq
        refine .inr ⟨fun hexact => ?_, hcase, ?_⟩
        · exact Bool.false_ne_true (hexact.2.symm.trans (hhit hexact.1))
        · rw [← hhandler] at hvisit
          exact visit_captures hp' hvisit

/-! ### Names -/

/-- The text of a parameter. -/
def paramText (name : Bytes) : Bytes := chr '{' :: (name ++ [chr '}'])

lemma head?_paramText : (paramText name).head? = some (chr '{') := rfl

lemma paramKey_paramText : paramKey (paramText name) = name := List.dropLast_concat

lemma paramText_ne_marker : paramText name ≠ marker := marker_ne_of_brace head?_paramText

lemma paramText_ne_star : paramText name ≠ bytesOf "*" := by
  intro h
  have hstar : (bytesOf "*").head? ≠ some (chr '{') := by decide
  exact hstar (h ▸ head?_paramText)

/-- A valid parameter is its name in braces. -/
lemma eq_paramText {part : Bytes} (hvalid : ValidPart part) (hbrace : part.head? = some (chr '{')) :
    part = paramText (paramKey part) := by
  obtain ⟨rest, rfl⟩ := List.head?_eq_some_iff.mp hbrace
  have hlast := hvalid.1 hbrace
  cases rest with
  | nil => exact absurd hlast (by decide)
  | cons c rest =>
      rw [List.getLast?_cons_cons] at hlast
      obtain ⟨init, hinit⟩ := List.getLast?_eq_some_iff.mp hlast
      rw [hinit, paramKey, List.tail_cons, List.dropLast_concat, paramText]

variable (name) in
/-- Different parameters have different names. -/
lemma paramKey_eq_iff {part : Bytes} (hvalid : ValidPart part)
    (hbrace : part.head? = some (chr '{')) : paramKey part = name ↔ part = paramText name := by
  constructor
  · rintro rfl
    exact eq_paramText hvalid hbrace
  · rintro rfl
    exact paramKey_paramText

/-! ### Lookups -/

/-- The parameter has a segment that is not its own text. -/
def Read (name : Bytes) (pair : Bytes × Bytes) : Prop :=
  pair.1 = paramText name ∧ pair.2 ≠ paramText name

instance : DecidablePred (Read name) := fun _ => inferInstanceAs (Decidable (_ ∧ _))

/-- A walk that stops behind a segment has another one to go to. -/
lemma ne_nil_of_walk (hparts : parts ≠ []) (hwalk : walk parts ps = .stop) : ps ≠ [] := by
  rintro rfl
  obtain ⟨part, parts, rfl⟩ := List.exists_cons_of_ne_nil hparts
  cases hwalk

/-- Only the wildcard stops a walk before the last segment of the request. -/
lemma walk_rest (hmarker : iview ≠ marker) (hparts : parts ≠ [])
    (hwalk : walk (part :: parts) (iview :: ps) = .stop) : walk parts ps = .stop := by
  rw [walk, if_neg hparts] at hwalk
  split_ifs at hwalk
  · exact hwalk
  · exact hwalk

lemma walk_literal (hmarker : iview ≠ marker) (hbrace : iview.head? ≠ some (chr '{'))
    (hwalk : walk (part :: parts) (iview :: ps) = .stop) : part = iview := by
  by_contra hne
  rw [walk, if_neg hne, if_neg hmarker, if_neg hbrace] at hwalk
  cases hwalk

variable (rest name ps) in
/-- What is bound at the end of an entry: its last parameter, even to its own text, or the rest. -/
def lastBinding : Option Bytes :=
  if ps.getLast? = some (paramText name) then some (paramText name)
  else if name = wildcardKey ∧ marker ∈ ps then some rest else none

lemma lastBinding_cons (hne : iview ≠ marker) (hps : ps ≠ []) :
    lastBinding rest name (iview :: ps) = lastBinding rest name ps := by
  obtain ⟨next, ps, rfl⟩ := List.exists_cons_of_ne_nil hps
  have hmem : marker ∈ iview :: next :: ps ↔ marker ∈ next :: ps := by
    rw [List.mem_cons, or_iff_right hne.symm]
  simp only [lastBinding, List.getLast?_cons_cons, hmem]

lemma lastBinding_marker :
    lastBinding rest name [marker] = Assoc.first [(wildcardKey, rest)] name := by
  rw [lastBinding, List.getLast?_singleton,
    if_neg fun h => paramText_ne_marker (Option.some.inj h).symm]
  by_cases hname : name = wildcardKey
  · rw [if_pos ⟨hname, List.mem_singleton_self _⟩, Assoc.first_cons_of_eq hname.symm]
  · rw [if_neg fun h => hname h.1, Assoc.first_cons_of_ne (Ne.symm hname)]
    rfl

lemma lastBinding_param : lastBinding rest name [paramText name] = some (paramText name) := by
  rw [lastBinding, List.getLast?_singleton, if_pos rfl]

lemma lastBinding_literal (hne : iview ≠ marker) (hname : iview ≠ paramText name) :
    lastBinding rest name [iview] = none := by
  rw [lastBinding, List.getLast?_singleton, if_neg fun h => hname (Option.some.inj h),
    if_neg fun h => hne (List.mem_singleton.mp h.2).symm]

/-- What the loop looks like at a segment that is the one of the request. -/
lemma captures_continue (hparts : parts ≠ []) :
    captures rest (part :: parts) (part :: ps) = captures rest parts ps := by
  rw [captures, if_pos ⟨rfl, hparts⟩]

lemma captures_marker (hstop : part ≠ marker ∨ parts = []) :
    captures rest (part :: parts) (marker :: ps) = [(wildcardKey, rest)] := by
  rw [captures, if_neg, if_pos rfl]
  rintro ⟨rfl, hparts⟩
  exact hstop.elim (fun h => h rfl) hparts

lemma captures_param (hbrace : iview.head? = some (chr '{')) (hstop : part ≠ iview ∨ parts = []) :
    captures rest (part :: parts) (iview :: ps) =
      (paramKey iview, part) :: captures rest parts ps := by
  rw [captures, if_neg, if_neg (marker_ne_of_brace hbrace), if_pos hbrace]
  rintro ⟨rfl, hparts⟩
  exact hstop.elim (fun h => h rfl) hparts

lemma captures_literal (hmarker : iview ≠ marker) (hbrace : iview.head? ≠ some (chr '{')) :
    captures rest [iview] (iview :: ps) = [] := by
  rw [captures, if_neg fun h => h.2 rfl, if_neg hmarker, if_neg hbrace]

variable (ps qs name) in
/-- What the first segment that is read for a parameter is. -/
def firstRead : Option Bytes :=
  ((ps.zip qs).find? fun pair => decide (Read name pair)).map Prod.snd

lemma firstRead_of_read (hread : Read name (iview, part)) :
    firstRead name (iview :: ps) (part :: parts) = some part := by
  rw [firstRead, List.zip_cons_cons, List.find?_cons_of_pos (by simpa using hread)]
  rfl

lemma firstRead_of_not_read (hread : ¬ Read name (iview, part)) :
    firstRead name (iview :: ps) (part :: parts) = firstRead name ps parts := by
  rw [firstRead, List.zip_cons_cons, List.find?_cons_of_neg (by simpa using hread)]
  rfl

/-- At a parameter. -/
lemma first_captures_param (hvalid : ValidPart iview) (hbrace : iview.head? = some (chr '{'))
    (hnil : parts = [] → ps = [])
    (hrest : parts ≠ [] → Assoc.first (captures rest parts ps) name =
      (firstRead name ps parts).or (lastBinding rest name (iview :: ps))) :
    Assoc.first (captures rest (part :: parts) (iview :: ps)) name =
      (firstRead name (iview :: ps) (part :: parts)).or (lastBinding rest name (iview :: ps)) := by
  have hkey := paramKey_eq_iff name hvalid hbrace
  by_cases hname : iview = paramText name
  · subst hname
    by_cases heq : part = paramText name
    · -- the text of the parameter is only bound at the end
      subst heq
      have hread : ¬ Read name (paramText name, paramText name) := fun h => h.2 rfl
      rw [firstRead_of_not_read hread]
      by_cases hparts : parts = []
      · rw [captures_param hbrace (.inr hparts), Assoc.first_cons_of_eq paramKey_paramText,
          hnil hparts, lastBinding_param]
        rfl
      · rw [captures_continue hparts]
        exact hrest hparts
    · have hread : Read name (paramText name, part) := ⟨rfl, heq⟩
      rw [captures_param hbrace (.inl heq), Assoc.first_cons_of_eq paramKey_paramText,
        firstRead_of_read hread]
      rfl
  · have hread : ¬ Read name (iview, part) := fun h => hname h.1
    rw [firstRead_of_not_read hread]
    by_cases hcontinue : part = iview ∧ parts ≠ []
    · obtain ⟨rfl, hparts⟩ := hcontinue
      rw [captures_continue hparts]
      exact hrest hparts
    · have hstop : part ≠ iview ∨ parts = [] := by
        rwa [← not_and_or.trans (or_congr_right not_not)]
      rw [captures_param hbrace hstop, Assoc.first_cons_of_ne (mt hkey.mp hname)]
      by_cases hparts : parts = []
      · rw [hnil hparts, hparts, lastBinding_literal (marker_ne_of_brace hbrace) hname]
        rfl
      · exact hrest hparts

/-- **What a parameter is looked up as**, when the wildcard is the last segment. -/
lemma first_captures (hlast : marker ∉ ps.dropLast) (hvalid : ∀ part ∈ ps, ValidPart part)
    (hle : ps.length ≤ qs.length) (hwalk : walk qs ps = .stop) :
    Assoc.first (captures rest qs ps) name =
      (firstRead name ps qs).or (lastBinding rest name ps) := by
  induction ps generalizing qs with
  | nil => cases qs <;> cases hwalk
  | cons iview ps ih =>
      cases qs with
      | nil => cases hwalk
      | cons part parts =>
          have hvalid' := fun part hpart => hvalid part (List.mem_cons_of_mem _ hpart)
          rw [List.length_cons, List.length_cons, Nat.add_le_add_iff_right] at hle
          have hnil : parts = [] → ps = [] := by
            rintro rfl
            exact List.eq_nil_of_length_eq_zero (Nat.le_zero.mp hle)
          by_cases hmarker : iview = marker
          · -- the rest is taken
            subst hmarker
            have hps : ps = [] := by
              by_contra hne
              rw [List.dropLast_cons_of_ne_nil hne] at hlast
              exact hlast List.mem_cons_self
            subst hps
            have hstop : part ≠ marker ∨ parts = [] := by
              by_contra hgoes
              obtain ⟨hpart, hparts⟩ := not_or.mp hgoes
              rw [walk, if_pos (not_not.mp hpart), if_neg hparts] at hwalk
              exact ne_nil_of_walk hparts hwalk rfl
            have hread : ¬ Read name (marker, part) := fun h => paramText_ne_marker h.1.symm
            rw [captures_marker hstop, firstRead_of_not_read hread, lastBinding_marker]
            rfl
          · -- behind a segment that is not the last one, everything is as it was
            have hrest : parts ≠ [] → Assoc.first (captures rest parts ps) name =
                (firstRead name ps parts).or (lastBinding rest name (iview :: ps)) := by
              intro hparts
              have hwalk := walk_rest hmarker hparts hwalk
              have hps := ne_nil_of_walk hparts hwalk
              rw [List.dropLast_cons_of_ne_nil hps, List.mem_cons, not_or] at hlast
              rw [lastBinding_cons hmarker hps]
              exact ih hlast.2 hvalid' hle hwalk
            by_cases hbrace : iview.head? = some (chr '{')
            · exact first_captures_param (hvalid iview List.mem_cons_self) hbrace hnil hrest
            · obtain rfl := walk_literal hmarker hbrace hwalk
              have hname : part ≠ paramText name := by
                rintro rfl
                exact hbrace head?_paramText
              have hread : ¬ Read name (part, part) := fun h => hname h.1
              rw [firstRead_of_not_read hread]
              by_cases hparts : parts = []
              · rw [hparts, captures_literal hmarker hbrace, hnil hparts,
                  lastBinding_literal hmarker hname]
                rfl
              · rw [captures_continue hparts]
                exact hrest hparts

/-- What is read is not the text of the parameter. -/
lemma firstRead_some (h : firstRead name ps qs = some part) :
    part ≠ paramText name ∧ paramText name ∈ ps := by
  obtain ⟨pair, hfind, rfl⟩ := Option.map_eq_some_iff.mp h
  have hread : Read name pair := by simpa using List.find?_some hfind
  have hmem := (List.of_mem_zip (List.mem_of_find?_eq_some hfind)).1
  rw [hread.1] at hmem
  exact ⟨hread.2, hmem⟩

/-- The first place of a parameter is read if something else is there. -/
lemma firstRead_eq {i : ℕ} (hfirst : ps[i]? = some (paramText name))
    (hbefore : ∀ j < i, ps[j]? ≠ some (paramText name)) (hpart : qs[i]? = some part)
    (hne : part ≠ paramText name) : firstRead name ps qs = some part := by
  have hget : (ps.zip qs)[i]? = some (paramText name, part) :=
    List.getElem?_zip_eq_some.mpr ⟨hfirst, hpart⟩
  obtain ⟨hi, hget⟩ := List.getElem?_eq_some_iff.mp hget
  have hfind : (ps.zip qs).find? (fun pair => decide (Read name pair)) =
      some (paramText name, part) := by
    rw [List.find?_eq_some_iff_getElem]
    refine ⟨decide_eq_true ⟨rfl, hne⟩, i, hi, hget, fun j hj => ?_⟩
    have hnot : ¬ Read name (ps.zip qs)[j] := by
      rintro ⟨hread, -⟩
      rw [List.getElem_zip] at hread
      exact hbefore j hj (List.getElem?_eq_some_iff.mpr ⟨_, hread⟩)
    rw [decide_eq_false hnot]
    rfl
  rw [firstRead, hfind]
  rfl

/-- No segment is read if the request has the text of the parameter in all its places. -/
lemma firstRead_eq_none_iff (hle : ps.length ≤ qs.length) :
    firstRead name ps qs = none ↔
      ∀ j : ℕ, ps[j]? = some (paramText name) → qs[j]? = some (paramText name) := by
  rw [firstRead, Option.map_eq_none_iff, List.find?_eq_none]
  constructor
  · intro h j hj
    have hlt : j < qs.length := (List.getElem?_eq_some_iff.mp hj).1.trans_le hle
    have hpart := List.getElem?_eq_getElem hlt
    have hmem : (paramText name, qs[j]) ∈ ps.zip qs :=
      List.mem_of_getElem? (List.getElem?_zip_eq_some.mpr ⟨hj, hpart⟩)
    have hnot := h _ hmem
    rw [decide_eq_true_eq] at hnot
    rw [hpart]
    by_contra hne
    exact hnot ⟨rfl, fun heq => hne (congrArg some heq)⟩
  · rintro h ⟨iview, part⟩ hmem hread
    rw [decide_eq_true_eq] at hread
    obtain ⟨rfl, hne⟩ := hread
    obtain ⟨j, hj⟩ := List.mem_iff_getElem?.mp hmem
    obtain ⟨hj, hpart⟩ := List.getElem?_zip_eq_some.mp hj
    rw [h j hj] at hpart
    exact hne (Option.some.inj hpart).symm

/-! ### Exact bindings -/

/-- The parameter is at the position, and not before it. -/
def FirstAt (path name : Bytes) (i : ℕ) : Prop :=
  (split path)[i]? = some (paramText name) ∧ ∀ j < i, (split path)[j]? ≠ some (paramText name)

/-- The map holds each parameter of the path with the segment in its place, the wildcard if there is
one, and nothing else. -/
structure BoundExactly (path : Bytes) (parts : List Bytes) (params : Params) : Prop where
  named : ∀ name i, FirstAt path name i →
    ∃ part, parts[i]? = some part ∧ params.find name = some part
  wildcard : (params.find wildcardKey).isSome = true ↔ EndsWithStar path
  others : ∀ key, (params.find key).isSome = true → key = wildcardKey ∨ paramText key ∈ split path

/-- The part of the request that is bound for a wildcard behind `n` segments. -/
def restAt (n : ℕ) (q : Bytes) : Bytes :=
  q.drop ((((split q).take n).map fun part => 1 + part.length).sum + 1)

lemma exists_firstAt {path : Bytes} (hmem : paramText name ∈ split path) :
    ∃ i, FirstAt path name i := by
  cases hidx : (split path).idxOf? (paramText name) with
  | none => exact absurd hmem (List.idxOf?_eq_none_iff.mp hidx)
  | some i =>
      obtain ⟨hi, hget, hbefore⟩ := List.idxOf?_eq_some_iff.mp hidx
      refine ⟨i, List.getElem?_eq_some_iff.mpr ⟨hi, hget⟩, fun j hj hsome => ?_⟩
      obtain ⟨hj', hget'⟩ := List.getElem?_eq_some_iff.mp hsome
      exact hbefore j hj hget'

/-- The request is the path itself, and is found without a look at its segments. -/
def Exact (path q : Bytes) : Prop := path = q ∧ ¬ EndsWithStar path

/-- Although the request has the text of the parameter in its place, the parameter is bound to it:
the request has it in all places, and at the end the last one is bound, or the rest. -/
def BoundLate (path q name : Bytes) : Prop :=
  (∀ j : ℕ, (split path)[j]? = some (paramText name) → (split q)[j]? = some (paramText name)) ∧
    ((split path).getLast? = some (paramText name) ∨
      name = wildcardKey ∧ EndsWithStar path ∧ restAt ((split path).length - 1) q = paramText name)

/-- The parameters of the path can be read off the request. -/
structure Legible (path q : Bytes) : Prop where
  /-- A path that is found as it is has no parameters. -/
  exact : Exact path q → ∀ name, paramText name ∉ split path
  /-- No parameter has its own text in its place. -/
  named : ¬ Exact path q → ∀ name i, FirstAt path name i →
    (split q)[i]? = some (paramText name) → BoundLate path q name
  /-- No parameter has the name of the wildcard. -/
  wildcard : paramText wildcardKey ∈ split path → EndsWithStar path

/-- Both spellings of the wildcard aside, the segments of an entry are those of the path. -/
lemma getElem?_stored {full : Bytes} (hcheck : HttpRouter.checkWildcard full = .ok ()) {i : ℕ} :
    (split (HttpRouter.stored full))[i]? = some (paramText name) ↔
      (split full)[i]? = some (paramText name) := by
  rcases stored_cases hcheck with ⟨-, hstored⟩ | ⟨pre, -, hfull, -, hsplit⟩
  · rw [hstored]
  · rw [hsplit, hfull]
    rcases Nat.lt_or_ge i (split pre).length with hlt | hge
    · rw [List.getElem?_append_left hlt, List.getElem?_append_left hlt]
    · have hne : ∀ s : Bytes, s ≠ paramText name →
          [s][i - (split pre).length]? ≠ some (paramText name) := fun s hs h =>
        hs (List.mem_singleton.mp (List.mem_of_getElem? h)).symm
      rw [List.getElem?_append_right hge, List.getElem?_append_right hge]
      exact iff_of_false (hne _ paramText_ne_marker.symm) (hne _ paramText_ne_star.symm)

lemma length_stored {full : Bytes} (hcheck : HttpRouter.checkWildcard full = .ok ()) :
    (split (HttpRouter.stored full)).length = (split full).length := by
  rcases stored_cases hcheck with ⟨-, hstored⟩ | ⟨pre, -, hfull, -, hsplit⟩
  · rw [hstored]
  · rw [hsplit, hfull, List.length_append, List.length_append]
    rfl

lemma fate_stop (h : p.fate q = .stop) :
    p.parts.length ≤ (split q).length ∧ walk (split q) p.parts = .stop := by
  rw [Path.fate] at h
  split_ifs at h with hskip
  refine ⟨?_, h⟩
  by_contra hlt
  exact hskip ⟨by omega, .inr (by omega)⟩

/-- An entry without other markers, and the call it was made for. -/
structure MadeFor (p : Path) (c : AddCall H) : Prop where
  wellFormed : p.WellFormed
  last : marker ∉ p.parts.dropLast
  segment : ∀ name (i : ℕ), p.parts[i]? = some (paramText name) ↔
    (split c.path)[i]? = some (paramText name)
  length : p.parts.length = (split c.path).length
  star : marker ∈ p.parts ↔ EndsWithStar c.path
  path : ¬ EndsWithStar c.path → p.path = c.path

lemma madeFor (hledger : Ledger r done) (hunmarked : ∀ c ∈ done, Unmarked c.path)
    (hp : p ∈ r.paths) (hc : c ∈ done) (hpath : HttpRouter.stored c.path = p.path) :
    MadeFor p c := by
  have hentry := hledger.entries p hp
  have hcheck := hledger.checked c hc
  have hstar : marker ∈ p.parts ↔ EndsWithStar c.path := by
    rw [hentry.parts, ← hpath]
    exact mem_stored_iff hcheck (hunmarked c hc)
  constructor
  · exact hentry
  · exact ((hledger.inv hunmarked).records p hp).last
  · intro name i
    rw [hentry.parts, ← hpath]
    exact getElem?_stored hcheck
  · rw [hentry.parts, ← hpath]
    exact length_stored hcheck
  · exact hstar
  · intro hends
    rcases stored_cases hcheck with ⟨-, hstored⟩ | ⟨pre, -, hfull, -, -⟩
    · rw [← hpath, hstored]
    · refine absurd ?_ hends
      rw [EndsWithStar, hfull, List.getLast?_concat]

namespace MadeFor

lemma hit_iff (h : MadeFor p c) : p.Hit q ↔ Exact c.path q := by
  have hwildcard : p.wildcard = false ↔ ¬ EndsWithStar c.path := by
    rw [← h.star, ← h.wellFormed.wildcard, Bool.not_eq_true]
  rw [Path.Hit, Exact, hwildcard]
  refine and_congr_left fun hends => ?_
  rw [h.path hends]

lemma mem_iff (h : MadeFor p c) : paramText name ∈ p.parts ↔ paramText name ∈ split c.path := by
  rw [List.mem_iff_getElem?, List.mem_iff_getElem?]
  exact exists_congr fun i => h.segment name i

lemma getLast?_iff (h : MadeFor p c) :
    p.parts.getLast? = some (paramText name) ↔ (split c.path).getLast? = some (paramText name) := by
  rw [List.getLast?_eq_getElem?, List.getLast?_eq_getElem?, ← h.length]
  exact h.segment name _

/-- What a parameter is looked up as. -/
lemma find_eq (h : MadeFor p c) (hfate : p.fate q = .stop) (name : Bytes) :
    (Assoc.none.emplaceAll (captures (p.remainder q (split q)) (split q) p.parts)).find name =
      (firstRead name p.parts (split q)).or
        (lastBinding (restAt ((split c.path).length - 1) q) name p.parts) := by
  obtain ⟨hle, hwalk⟩ := fate_stop hfate
  have hrest : p.remainder q (split q) = restAt ((split c.path).length - 1) q := by
    rw [← h.length]
    rfl
  rw [Assoc.find_emplaceAll, Assoc.find_none, Option.none_or, hrest,
    first_captures h.last h.wellFormed.valid hle hwalk]

/-- The bindings of a hit are exact if there are no parameters. -/
lemma exact_none_iff (hexact : Exact c.path q) :
    BoundExactly c.path (split q) .none ↔ Legible c.path q := by
  constructor
  · intro hbound
    have hnone : ∀ name, paramText name ∉ split c.path := by
      intro name hmem
      obtain ⟨i, hfirst⟩ := exists_firstAt hmem
      obtain ⟨part, -, hfind⟩ := hbound.named name i hfirst
      cases hfind
    exact ⟨fun _ => hnone, fun hnot => absurd hexact hnot, fun hmem => absurd hmem (hnone _)⟩
  · intro hlegible
    have hnone := hlegible.exact hexact
    refine ⟨fun name i hfirst => ?_, ?_, fun key hkey => ?_⟩
    · exact absurd (List.mem_of_getElem? hfirst.1) (hnone name)
    · exact iff_of_false Bool.false_ne_true hexact.2
    · cases hkey

variable {rest : Bytes}

/-- A parameter that is found has been read, or is bound at the end. -/
lemma mem_of_isSome (h : MadeFor p c)
    (hsome : ((firstRead name p.parts (split q)).or
      (lastBinding rest name p.parts)).isSome = true) :
    paramText name ∈ split c.path ∨ name = wildcardKey ∧ EndsWithStar c.path := by
  cases hread : firstRead name p.parts (split q) with
  | some part => exact .inl (h.mem_iff.mp (firstRead_some hread).2)
  | none =>
      rw [hread, Option.none_or, lastBinding] at hsome
      split_ifs at hsome with hlast hrest
      · exact .inl (h.mem_iff.mp (List.mem_of_getLast? hlast))
      · exact .inr ⟨hrest.1, h.star.mp hrest.2⟩
      · cases hsome

/-- The bindings that are read off the segments are exact if they can be read. -/
lemma exact_captures_iff (h : MadeFor p c) (hexact : ¬ Exact c.path q) (hfate : p.fate q = .stop)
    (hparams : params = Assoc.none.emplaceAll
      (captures (p.remainder q (split q)) (split q) p.parts)) :
    BoundExactly c.path (split q) params ↔ Legible c.path q := by
  obtain ⟨hle, -⟩ := fate_stop hfate
  have hfind := fun name => (congrArg (Assoc.find · name) hparams).trans (h.find_eq hfate name)
  have hverbatim : ∀ name,
      firstRead name p.parts (split q) = none ↔
        ∀ j : ℕ, (split c.path)[j]? = some (paramText name) →
          (split q)[j]? = some (paramText name) := by
    intro name
    rw [firstRead_eq_none_iff hle]
    exact forall_congr' fun j => by rw [h.segment name j]
  constructor
  · intro hbound
    refine ⟨fun hnot => absurd hnot hexact, fun _ name i hfirst htext => ?_, fun hmem => ?_⟩
    · obtain ⟨part, hpart, hname⟩ := hbound.named name i hfirst
      rw [htext] at hpart
      obtain rfl := Option.some.inj hpart
      rw [hfind name] at hname
      cases hread : firstRead name p.parts (split q) with
      | some part =>
          rw [hread] at hname
          exact absurd (Option.some.inj hname) (firstRead_some hread).1
      | none =>
          rw [hread, Option.none_or, lastBinding] at hname
          refine ⟨(hverbatim name).mp hread, ?_⟩
          split_ifs at hname with hlast hrest
          · exact .inl (h.getLast?_iff.mp hlast)
          · exact .inr ⟨hrest.1, h.star.mp hrest.2, Option.some.inj hname⟩
    · obtain ⟨i, hfirst⟩ := exists_firstAt hmem
      obtain ⟨part, -, hname⟩ := hbound.named _ i hfirst
      exact hbound.wildcard.mp (by rw [hname]; rfl)
  · intro hlegible
    refine ⟨fun name i hfirst => ?_, ⟨fun hsome => ?_, fun hends => ?_⟩, fun key hsome => ?_⟩
    · have hi : i < (split q).length := by
        have hi := (List.getElem?_eq_some_iff.mp hfirst.1).1
        rw [← h.length] at hi
        exact hi.trans_le hle
      have hpart := List.getElem?_eq_getElem hi
      refine ⟨_, hpart, ?_⟩
      rw [hfind name]
      by_cases htext : (split q)[i] = paramText name
      · rw [htext] at hpart ⊢
        obtain ⟨hall, hlate⟩ := hlegible.named hexact name i hfirst hpart
        rw [(hverbatim name).mpr hall, Option.none_or, lastBinding]
        by_cases hlast : p.parts.getLast? = some (paramText name)
        · rw [if_pos hlast]
        · rw [if_neg hlast]
          rcases hlate with hlate | ⟨hname, hends, hrest⟩
          · exact absurd (h.getLast?_iff.mpr hlate) hlast
          · rw [if_pos ⟨hname, h.star.mpr hends⟩, hrest]
      · rw [firstRead_eq ((h.segment name i).mpr hfirst.1)
          (fun j hj hsome => hfirst.2 j hj ((h.segment name j).mp hsome)) hpart htext]
        rfl
    · rw [hfind] at hsome
      rcases h.mem_of_isSome hsome with hmem | ⟨-, hends⟩
      · exact hlegible.wildcard hmem
      · exact hends
    · rw [hfind, lastBinding, if_pos (c := wildcardKey = wildcardKey ∧ marker ∈ p.parts)
        ⟨rfl, h.star.mpr hends⟩]
      cases firstRead wildcardKey p.parts (split q) with
      | some part => rfl
      | none =>
          rw [Option.none_or]
          split_ifs <;> rfl
    · rw [hfind] at hsome
      rcases h.mem_of_isSome hsome with hmem | ⟨hname, -⟩
      · exact .inr hmem
      · exact .inl hname

end MadeFor

/-! ### Dispatches -/

namespace Indexed

variable {beyond : Path → List Bytes} {check : Bool}

/-- The path that `route` has its answer for: the request, or what the retry makes of it. -/
def lookedUp (r : HttpRouter H) (beyond : Path → List Bytes) (method q : Bytes) (check : Bool) :
    Bytes :=
  if check = true ∧ q.getLast? = some (chr '/') ∧
      routeParameters r beyond method q = some .nullopt then q.dropLast
  else q

lemma lookedUp_false : lookedUp r beyond method q false = q :=
  if_neg fun h => Bool.false_ne_true h.1

variable (r method q beyond check) in
lemma split_lookedUp : split (lookedUp r beyond method q check) = split q := by
  rw [lookedUp]
  split_ifs with hretry
  · obtain ⟨q', rfl⟩ := List.getLast?_eq_some_iff.mp hretry.2.1
    rw [List.dropLast_concat, split_append_slash, split_nil, List.append_nil]
  · rfl

/-- A handler is given out for the path that has been looked up. -/
lemma routeParameters_lookedUp
    (hroute : route r beyond method q check = some (.handler k params)) :
    routeParameters r beyond method (lookedUp r beyond method q check) =
      some (.handler k params) := by
  have hne : ¬ (method = [] ∨ q = []) := by
    intro hempty
    rw [route, if_pos hempty] at hroute
    cases hroute
  rw [route, if_neg hne] at hroute
  rw [lookedUp]
  cases hresp : routeParameters r beyond method q with
  | none =>
      rw [hresp] at hroute
      cases hroute
  | some resp =>
      rw [hresp] at hroute
      cases resp with
      | nullopt =>
          rw [Option.bind_eq_bind, Option.bind_some] at hroute
          dsimp only at hroute
          split_ifs at hroute with hretry
          · rw [if_pos ⟨hretry.1, hretry.2, rfl⟩]
            exact hroute
          · cases hroute
      | handler k' params' =>
          have hfirst : ¬ (check = true ∧ q.getLast? = some (chr '/') ∧
              some (Dispatch.handler k' params') = some .nullopt) := by
            rintro ⟨-, -, ⟨⟩⟩
          rw [if_neg hfirst, hresp]
          exact hroute
      | methodNotAllowed params' => cases hroute
      | notFound params' => cases hroute
      | undefined => cases hroute

/-- **A handler** is that of a call, and is given out with nothing or with the captures. -/
lemma handler_captures (h : Ledger r done)
    (hresp : routeParameters r (fun _ => []) method q = some (.handler k params)) :
    ∃ p ∈ r.paths, ∃ c, done[k]? = some c ∧ c.method = method ∧
      HttpRouter.stored c.path = p.path ∧
      ((p.Hit q ∧ params = .none) ∨
        (¬ p.Hit q ∧ p.fate q = .stop ∧ params = Assoc.none.emplaceAll
          (captures (p.remainder q (split q)) (split q) p.parts))) := by
  rw [routeParameters_eq h] at hresp
  cases hsearch : r.search Assoc.emplace .none (fun _ => []) method q with
  | ended =>
      rw [hsearch] at hresp
      cases hresp
  | missed =>
      rw [hsearch] at hresp
      exact absurd (Option.some.inj hresp) miss_ne_handler
  | undefined =>
      rw [hsearch] at hresp
      cases hresp
  | decided p handler params' =>
      rw [hsearch] at hresp
      cases handler with
      | none => exact absurd (Option.some.inj hresp) refuse_ne_handler
      | some k' =>
          obtain ⟨rfl, rfl⟩ := Dispatch.handler.inj (Option.some.inj hresp)
          obtain ⟨hp, hhandler, hparams⟩ := search_captures h.ordered hsearch
          obtain ⟨c, hc, hmethod, hpath⟩ := h.routes p hp _
            ((handlerOf_eq_some_iff (h.entries p hp).methods_nodup).mp hhandler)
          exact ⟨p, hp, c, hc, hmethod, hpath, hparams⟩

/-- **The parameters are bound exactly** if they can be read off the path that is looked up, and
only then. -/
theorem boundExactly_iff (sorter : Sorter) (error404 error405 : Bool) (calls : List (AddCall H))
    (method q : Bytes) (check : Bool) (k : ℕ) (params : Params) (c : AddCall H) :
    let after := Stateful.run sorter calls (HttpRouter.make error404 error405)
    (∀ c ∈ after.2, Unmarked c.path) →
    route after.1 (fun _ => []) method q check = some (.handler k params) →
    after.2[k]? = some c →
    (BoundExactly c.path (split q) params ↔
      Legible c.path (lookedUp after.1 (fun _ => []) method q check)) := by
  intro after hunmarked hroute hc
  have hledger : Ledger after.1 after.2 := ledger_addAll Stateful.run_eq
  obtain ⟨p, hp, c', hc', -, hpath, hcase⟩ :=
    handler_captures hledger (routeParameters_lookedUp hroute)
  obtain rfl := Option.some.inj (hc.symm.trans hc')
  have hmade := madeFor hledger hunmarked hp (List.mem_of_getElem? hc) hpath
  rw [← split_lookedUp after.1 method q (fun _ => []) check]
  rcases hcase with ⟨hhit, rfl⟩ | ⟨hhit, hfate, hparams⟩
  · exact MadeFor.exact_none_iff (hmade.hit_iff.mp hhit)
  · exact hmade.exact_captures_iff (fun hexact => hhit (hmade.hit_iff.mpr hexact)) hfate hparams

/-- A path with a parameter and a request that has something else in its place. -/
theorem boundExactly_user :
    let calls : List (AddCall ℕ) :=
      [{ method := bytesOf "GET", path := bytesOf "/u/{name}", handler := 0 }]
    let params : Params := Assoc.none.emplace (bytesOf "name") (bytesOf "x")
    route (Stateful.run Sorter.insertion calls (HttpRouter.make true true)).1 (fun _ => [])
        (bytesOf "GET") (bytesOf "/u/x") false = some (.handler 0 params) ∧
      BoundExactly (bytesOf "/u/{name}") (split (bytesOf "/u/x")) params := by
  intro calls params
  have hroute : route (Stateful.run Sorter.insertion calls (HttpRouter.make true true)).1
      (fun _ => []) (bytesOf "GET") (bytesOf "/u/x") false = some (.handler 0 params) := by decide
  refine ⟨hroute, (boundExactly_iff Sorter.insertion true true calls (bytesOf "GET")
    (bytesOf "/u/x") false 0 params _ (by decide) hroute rfl).mpr
      ⟨fun hexact => ?_, fun _ name i _ htext => ?_, fun hmem => ?_⟩⟩
  · exact absurd hexact.1 (by decide)
  · have hplain : ∀ part ∈ split (bytesOf "/u/x"), part.head? ≠ some (chr '{') := by decide
    exact absurd head?_paramText (hplain _ (List.mem_of_getElem? htext))
  · exact absurd hmem (by decide)

/-- A segment that is the text of the parameter is not bound, and neither is anything if the whole
request is the path. -/
theorem not_boundExactly_text :
    let calls : List (AddCall ℕ) :=
      [{ method := bytesOf "GET", path := bytesOf "/{a}/{b}", handler := 0 }]
    let after := Stateful.run Sorter.insertion calls (HttpRouter.make true true)
    after.2 = calls ∧ (∀ c ∈ after.2, Unmarked c.path) ∧
      (∃ params, route after.1 (fun _ => []) (bytesOf "GET") (bytesOf "/{a}/x") false =
          some (.handler 0 params) ∧
        ¬ BoundExactly (bytesOf "/{a}/{b}") (split (bytesOf "/{a}/x")) params) ∧
      ∃ params, route after.1 (fun _ => []) (bytesOf "GET") (bytesOf "/{a}/{b}") false =
          some (.handler 0 params) ∧
        ¬ BoundExactly (bytesOf "/{a}/{b}") (split (bytesOf "/{a}/{b}")) params := by
  intro calls after
  have hfirst : FirstAt (bytesOf "/{a}/{b}") (bytesOf "a") 0 :=
    ⟨by decide, fun j hj => absurd hj (Nat.not_lt_zero j)⟩
  refine ⟨by decide, by decide, ⟨Assoc.none.emplace (bytesOf "b") (bytesOf "x"), by decide,
    fun h => ?_⟩, .none, by decide, fun h => ?_⟩
  · obtain ⟨part, -, hfind⟩ := h.named _ 0 hfirst
    have hnone : (Assoc.none.emplace (bytesOf "b") (bytesOf "x")).find (bytesOf "a") = none := by
      decide
    rw [hnone] at hfind
    cases hfind
  · obtain ⟨part, -, hfind⟩ := h.named _ 0 hfirst
    cases hfind

end Indexed

end Router

end S3Proxy
