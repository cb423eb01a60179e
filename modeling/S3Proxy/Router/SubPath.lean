import S3Proxy.Router.Bindings

/-!
# The sub-path of a wildcard

The offset of the sub-path is added up from the lengths of the segments in front of it, with one
slash for each.  It leads to the segment at the wildcard if there are no other slashes, and the
binding is made unless a parameter has taken the name of the wildcard.

## Main result

`wildcard_iff`: the handler of a wildcard path gets the path of the request from the segment at the
wildcard on, as it was written, exactly if the offset is right (`OffsetExact`).  There is one slash
in front of each segment up to this one and no other; or a parameter has the name of the wildcard
and has taken the very same text.

`restAt_eq_iff` is the arithmetic, from `drop_offset_eq_iff` of `Library.Split`: skipping one slash
for each segment leads to a segment if there is not more than one in front of any.
`first_wildcardKey` says what the name of the wildcard is looked up as, by induction along the walk,
where `taken` is what a parameter of that name has read.

## Hypotheses

A handler was given out by any router that calls of `add` have filled, and its path ends with a
star.  Nothing is asked of the other paths; in particular they may have the marker as a segment.

## What it rests on

`handler_captures` and `first_captures` of `Router.Bindings`.  `not_wildcard_slash` is a request
with two slashes in a row.
-/

namespace S3Proxy

namespace Router

variable {H : Type*} {r : HttpRouter H} {c : AddCall H} {done : List (AddCall H)} {p : Path}
  {rest q full part iview : Bytes} {ps qs parts : List Bytes}

/-- The loop goes on behind a marker that the request has as well. -/
def GoesOn (pair : Bytes × Bytes) : Prop := pair.1 = marker → pair.2 = marker

instance : DecidablePred GoesOn := fun _ => inferInstanceAs (Decidable (_ → _))

/-- What a parameter with the name of the wildcard takes, if it comes before the wildcard. -/
def taken (ps qs : List Bytes) : Option Bytes :=
  (((ps.zip qs).takeWhile fun pair => decide (GoesOn pair)).find? fun pair =>
    decide (Read wildcardKey pair)).map Prod.snd

lemma taken_cons (hgoes : GoesOn (iview, part)) :
    taken (iview :: ps) (part :: qs) =
      if Read wildcardKey (iview, part) then some part else taken ps qs := by
  rw [taken, List.zip_cons_cons, List.takeWhile_cons_of_pos (by simpa using hgoes)]
  split_ifs with hread
  · rw [List.find?_cons_of_pos (by simpa using hread)]
    rfl
  · rw [List.find?_cons_of_neg (by simpa using hread)]
    rfl

/-- Behind a marker that stops the loop, nothing is taken. -/
lemma taken_marker (hstop : part ≠ marker ∨ parts = []) :
    taken (marker :: ps) (part :: parts) = none := by
  by_cases hgoes : GoesOn (marker, part)
  · obtain rfl := hstop.resolve_left (not_not.mpr (hgoes rfl))
    have hread : ¬ Read wildcardKey (marker, part) := fun h => paramText_ne_marker h.1.symm
    rw [taken_cons hgoes, if_neg hread, taken, List.zip_nil_right]
    rfl
  · rw [taken, List.zip_cons_cons, List.takeWhile_cons_of_neg (by simpa using hgoes)]
    rfl

/-- **What the wildcard is looked up as**, when the entry ends with it. -/
lemma first_wildcardKey (hlast : ps.getLast? = some marker)
    (hvalid : ∀ part ∈ ps, ValidPart part) (hle : ps.length ≤ qs.length)
    (hwalk : walk qs ps = .stop) :
    Assoc.first (captures rest qs ps) wildcardKey = some ((taken ps qs).getD rest) := by
  induction ps generalizing qs with
  | nil => cases hlast
  | cons iview ps ih =>
      cases qs with
      | nil => cases hwalk
      | cons part parts =>
          have hvalid' := fun part hpart => hvalid part (List.mem_cons_of_mem _ hpart)
          rw [List.length_cons, List.length_cons, Nat.add_le_add_iff_right] at hle
          have hnil : parts = [] → iview = marker := by
            rintro rfl
            obtain rfl := List.eq_nil_of_length_eq_zero (Nat.le_zero.mp hle)
            exact Option.some.inj hlast
          have hrest : parts ≠ [] → walk parts ps = .stop →
              Assoc.first (captures rest parts ps) wildcardKey =
                some ((taken ps parts).getD rest) := by
            intro hparts hwalk
            obtain ⟨next, ps, rfl⟩ := List.exists_cons_of_ne_nil (ne_nil_of_walk hparts hwalk)
            rw [List.getLast?_cons_cons] at hlast
            exact ih hlast hvalid' hle hwalk
          by_cases hcontinue : part = iview ∧ parts ≠ []
          · obtain ⟨rfl, hparts⟩ := hcontinue
            rw [walk, if_pos rfl, if_neg hparts] at hwalk
            have hread : ¬ Read wildcardKey (part, part) := fun h => h.2 h.1
            rw [captures_continue hparts, taken_cons fun h => h, if_neg hread]
            exact hrest hparts hwalk
          have hstop : part ≠ iview ∨ parts = [] := by
            rwa [← not_and_or.trans (or_congr_right not_not)]
          by_cases hmarker : iview = marker
          · subst hmarker
            rw [captures_marker hstop, taken_marker hstop, Assoc.first_cons_of_eq rfl]
            rfl
          · have hparts : parts ≠ [] := fun h => hmarker (hnil h)
            have hbrace : iview.head? = some (chr '{') := by
              by_contra hbrace
              exact hcontinue ⟨walk_literal hmarker hbrace hwalk, hparts⟩
            have hkey := paramKey_eq_iff wildcardKey (hvalid iview List.mem_cons_self) hbrace
            rw [captures_param hbrace hstop, taken_cons fun h => absurd h hmarker]
            by_cases hname : iview = paramText wildcardKey
            · have hread : Read wildcardKey (iview, part) :=
                ⟨hname, hname ▸ hstop.resolve_right hparts⟩
              rw [Assoc.first_cons_of_eq (hkey.mpr hname), if_pos hread]
              rfl
            · have hread : ¬ Read wildcardKey (iview, part) := fun h => hname h.1
              rw [Assoc.first_cons_of_ne (mt hkey.mp hname), if_neg hread]
              exact hrest hparts (walk_rest hmarker hparts hwalk)

/-- The request from a segment on. -/
def fromSegment (n : ℕ) (q : Bytes) : Bytes := Text.suffixFrom (· = chr '/') n q

/-- What comes before the segment. -/
def beforeSegment (n : ℕ) (q : Bytes) : Bytes := Text.before (· = chr '/') n q

/-- The number of segments in front of the wildcard. -/
def segmentsBefore (path : Bytes) : ℕ := (split path).length - 1

/-- The offset leads to the segment at the wildcard, or does not matter. -/
structure OffsetExact (path q : Bytes) : Prop where
  /-- In front of the segment at the wildcard there is one slash for each segment, and one for this
  segment itself. -/
  slashes : taken (split (HttpRouter.stored path)) (split q) = none →
    (beforeSegment (segmentsBefore path) q).count (chr '/') = segmentsBefore path + 1
  /-- What a parameter with the name of the wildcard has taken is the sub-path by chance. -/
  taken : ∀ part, taken (split (HttpRouter.stored path)) (split q) = some part →
    part = fromSegment (segmentsBefore path) q

lemma restAt_eq_iff {n : ℕ} (hn : n < (split q).length) :
    restAt n q = fromSegment n q ↔ (beforeSegment n q).count (chr '/') = n + 1 := by
  have hcount : (beforeSegment n q).count (chr '/') =
      (beforeSegment n q).countP fun c => decide (c = chr '/') := by
    rw [List.count]
    exact List.countP_congr fun c _ => by simp
  rw [hcount]
  exact Text.drop_offset_eq_iff hn

/-- A wildcard entry ends with the marker. -/
lemma getLast?_stored (hcheck : HttpRouter.checkWildcard full = .ok ())
    (hstar : EndsWithStar full) : (split (HttpRouter.stored full)).getLast? = some marker := by
  rcases stored_cases hcheck with ⟨hnone, -⟩ | ⟨pre, -, -, -, hsplit⟩
  · exact absurd hstar (not_endsWithStar hnone)
  · rw [hsplit, List.getLast?_concat]

namespace Indexed

/-- **The wildcard is bound to the sub-path** of the path that is looked up if there are no other
slashes in front of it, and only then, but for a parameter that has the name of the wildcard. -/
theorem wildcard_iff (sorter : Sorter) (error404 error405 : Bool) (calls : List (AddCall H))
    (method q : Bytes) (check : Bool) (k : ℕ) (params : Params) (c : AddCall H) :
    let after := Stateful.run sorter calls (HttpRouter.make error404 error405)
    let q' := lookedUp after.1 (fun _ => []) method q check
    route after.1 (fun _ => []) method q check = some (.handler k params) →
    after.2[k]? = some c → EndsWithStar c.path →
    (params.find wildcardKey = some (fromSegment (segmentsBefore c.path) q') ↔
      OffsetExact c.path q') := by
  intro after q' hroute hc hstar
  have hledger : Ledger after.1 after.2 := ledger_addAll Stateful.run_eq
  obtain ⟨p, hp, c', hc', -, hpath, hcase⟩ :=
    handler_captures hledger (routeParameters_lookedUp hroute)
  obtain rfl := Option.some.inj (hc.symm.trans hc')
  have hentry := hledger.entries p hp
  have hcheck := hledger.checked c (List.mem_of_getElem? hc)
  have hparts : p.parts = split (HttpRouter.stored c.path) := by rw [hentry.parts, hpath]
  have hlast : p.parts.getLast? = some marker := by
    rw [hparts]
    exact getLast?_stored hcheck hstar
  have hlength : p.parts.length - 1 = segmentsBefore c.path := by
    rw [hparts, length_stored hcheck, segmentsBefore]
  rcases hcase with ⟨hhit, -⟩ | ⟨-, hfate, rfl⟩
  · have hwildcard := hentry.wildcard.mpr (List.mem_of_getLast? hlast)
    rw [hhit.2] at hwildcard
    cases hwildcard
  · obtain ⟨hle, hwalk⟩ := fate_stop hfate
    have hpos : 0 < p.parts.length := List.length_pos_of_mem (List.mem_of_getLast? hlast)
    have hrest : p.remainder q' (split q') = restAt (segmentsBefore c.path) q' := by
      rw [← hlength]
      rfl
    rw [Assoc.find_emplaceAll, Assoc.find_none, Option.none_or, hrest,
      first_wildcardKey hlast hentry.valid hle hwalk, hparts, Option.some_inj]
    have hn : segmentsBefore c.path < (split q').length := by
      rw [← hlength]
      exact (Nat.sub_lt hpos Nat.one_pos).trans_le hle
    have hiff := restAt_eq_iff hn
    cases htaken : taken (split (HttpRouter.stored c.path)) (split q') with
    | none =>
        rw [Option.getD_none, hiff]
        refine ⟨fun h => ⟨fun _ => h, fun part hpart => ?_⟩, fun h => h.slashes htaken⟩
        rw [htaken] at hpart
        cases hpart
    | some part =>
        rw [Option.getD_some]
        refine ⟨fun h => ⟨fun hnone => ?_, fun part' hpart => ?_⟩, fun h => h.taken part htaken⟩
        · rw [htaken] at hnone
          cases hnone
        · rw [htaken] at hpart
          cases hpart
          exact h

/-- A sub-path of two segments. -/
theorem wildcard_plain :
    let calls : List (AddCall ℕ) :=
      [{ method := bytesOf "GET", path := bytesOf "/a/*", handler := 0 }]
    let after := Stateful.run Sorter.insertion calls (HttpRouter.make true true)
    ∃ params, route after.1 (fun _ => []) (bytesOf "GET") (bytesOf "/a/b/c") false =
        some (.handler 0 params) ∧
      params.find wildcardKey = some (fromSegment 1 (bytesOf "/a/b/c")) := by
  intro calls after
  have hroute : route after.1 (fun _ => []) (bytesOf "GET") (bytesOf "/a/b/c") false =
      some (.handler 0 (Assoc.none.emplace wildcardKey (bytesOf "b/c"))) := by decide
  have hnone : taken (split (HttpRouter.stored (bytesOf "/a/*"))) (split (bytesOf "/a/b/c")) =
      none := by decide
  have hbound : OffsetExact (bytesOf "/a/*") (bytesOf "/a/b/c") := by
    refine ⟨fun _ => by decide, fun part hpart => ?_⟩
    rw [hnone] at hpart
    cases hpart
  have hiff := wildcard_iff Sorter.insertion true true calls (bytesOf "GET")
    (bytesOf "/a/b/c") false 0 _ _ hroute rfl (by decide)
  rw [lookedUp_false] at hiff
  exact ⟨_, hroute, hiff.mpr hbound⟩

/-- Another slash in front is bound with the sub-path. -/
theorem not_wildcard_slash :
    let calls : List (AddCall ℕ) :=
      [{ method := bytesOf "GET", path := bytesOf "/*", handler := 0 }]
    let after := Stateful.run Sorter.insertion calls (HttpRouter.make true true)
    after.2 = calls ∧
      ∃ params, route after.1 (fun _ => []) (bytesOf "GET") (bytesOf "//a") false =
          some (.handler 0 params) ∧
        params.find wildcardKey = some (bytesOf "/a") ∧
        params.find wildcardKey ≠
          some (fromSegment (segmentsBefore (bytesOf "/*")) (bytesOf "//a")) := by
  intro calls after
  exact ⟨by decide, Assoc.none.emplace wildcardKey (bytesOf "/a"), by decide, by decide, by decide⟩

end Indexed

end Router

end S3Proxy
