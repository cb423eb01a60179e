import S3Proxy.Router.Agreement
import S3Proxy.Router.Routes

/-!
# Accesses out of range

The matchers stay inside their vectors and inside the path, with one exception.  A request that is
longer than a wildcard entry and has the marker itself at the place of the wildcard is compared with
the entry segment by segment (`RunsOver`), and the loop reads on behind the last segment.

## Main result

`inRange_iff`: no access of `routeParameters` or of `canRoute` is out of range (`InRange`) exactly
if the request does not run over the end of the entry that it comes to.  This covers the accesses to
the segments, to the handlers and to the path, offsets included: all of them are partial in
`Router.Indexed`.

`fate_past_iff` is the exact description of the requests that run over, by an induction along the
segments (`walk_past_iff`).  For the other direction `search_undefined_iff` of `Router.Fate` says
that nothing but this leaves the search without a result, if nothing is there to be read.

## Hypotheses

None.  The router was filled by any calls of `add`, some of which may have thrown; methods and paths
of requests are arbitrary.

## Where it is used

`Router.Order` takes `RunsOver` and `fate_past_iff` from here, since a request that runs over has no
outcome that could be compared.  `not_inRange_server` is such a request for the routes of the
server.
-/

namespace S3Proxy

namespace Router

variable {H : Type*} {r : HttpRouter H} {method path q : Bytes} {p : Path} {ps qs : List Bytes}
  {done : List (AddCall H)}

/-- The request goes on behind the entry, and has each segment of the entry, the marker included,
in its place, if that is no parameter. -/
def RunsOver (ps qs : List Bytes) : Prop :=
  ps.length < qs.length ∧
    List.Forall₂ (fun iview part => part = iview ∨ iview.head? = some (chr '{')) ps
      (qs.take ps.length)

/-- **The walk runs over the end** of an entry that the request follows to the end. -/
lemma walk_past_iff : walk qs ps = .past ↔ RunsOver ps qs := by
  induction ps generalizing qs with
  | nil =>
      cases qs with
      | nil => exact iff_of_false Fate.noConfusion fun h => absurd h.1 (Nat.lt_irrefl _)
      | cons part parts => exact iff_of_true rfl ⟨by simp, List.Forall₂.nil⟩
  | cons iview ps ih =>
      cases qs with
      | nil => exact iff_of_false Fate.noConfusion fun h => absurd h.1 (Nat.not_lt_zero _)
      | cons part parts =>
          have hcons : RunsOver (iview :: ps) (part :: parts) ↔
              (part = iview ∨ iview.head? = some (chr '{')) ∧ RunsOver ps parts := by
            rw [RunsOver, RunsOver, List.length_cons, List.length_cons, List.take_succ_cons,
              List.forall₂_cons, Nat.add_lt_add_iff_right]
            tauto
          have hstep : (if parts = [] then Fate.stop else walk parts ps) = .past ↔
              RunsOver ps parts := by
            by_cases hnil : parts = []
            · subst hnil
              rw [if_pos rfl]
              exact iff_of_false Fate.noConfusion fun h => absurd h.1 (Nat.not_lt_zero _)
            · rw [if_neg hnil]
              exact ih
          rw [walk, hcons]
          by_cases heq : part = iview
          · rw [if_pos heq, hstep]
            simp [heq]
          · rw [if_neg heq]
            by_cases hmarker : iview = marker
            · rw [if_pos hmarker]
              refine iff_of_false Fate.noConfusion fun h => ?_
              rcases h.1 with h | h
              · exact heq h
              · exact marker_ne_of_brace h hmarker
            · rw [if_neg hmarker]
              by_cases hbrace : iview.head? = some (chr '{')
              · rw [if_pos hbrace, hstep]
                simp [hbrace]
              · rw [if_neg hbrace]
                exact iff_of_false Fate.noConfusion fun h => h.1.elim heq hbrace

lemma fate_past_iff : p.fate q = .past ↔ p.wildcard = true ∧ RunsOver p.parts (split q) := by
  rw [Path.fate]
  by_cases hskip : (split q).length ≠ p.parts.length ∧
      (p.wildcard = false ∨ (split q).length < p.parts.length)
  · rw [if_pos hskip]
    refine iff_of_false Fate.noConfusion fun h => ?_
    obtain ⟨hwildcard, hover⟩ := h
    rcases hskip.2 with hfalse | hlt
    · rw [hfalse] at hwildcard
      cases hwildcard
    · exact absurd hover.1 (not_lt.mpr hlt.le)
  · rw [if_neg hskip, walk_past_iff]
    refine ⟨fun hover => ⟨?_, hover⟩, And.right⟩
    by_contra hfalse
    exact hskip ⟨hover.1.ne', .inl (Bool.eq_false_of_not_eq_true hfalse)⟩

/-- Both matchers stay in range. -/
def InRange (r : HttpRouter H) (method path : Bytes) : Prop :=
  Indexed.routeParameters r (fun _ => []) method path ≠ none ∧
    Indexed.canRoute r (fun _ => []) method path ≠ none

/-- **The matchers stay in range** for a request that does not run over the end of the entry that it
comes to, and for no other. -/
theorem inRange_iff (sorter : Sorter) (error404 error405 : Bool) (calls : List (AddCall H))
    (method path : Bytes) :
    let r := (HttpRouter.make error404 error405).attemptAll sorter calls
    InRange r method path ↔
      ∀ p, r.taker path = some p → ¬ (p.wildcard = true ∧ RunsOver p.parts (split path)) := by
  intro r
  obtain ⟨done, -, hadd⟩ := attemptAll_eq sorter (HttpRouter.make error404 error405) calls
  have hledger : Ledger r done := ledger_addAll hadd
  have hordered := hledger.ordered
  have hroute : Indexed.routeParameters r (fun _ => []) method path = none ↔
      ∃ p, r.taker path = some p ∧ p.fate path = .past := by
    rw [Indexed.routeParameters_eq hledger, Indexed.concluded_eq_none_iff,
      hordered.search_undefined_iff]
  have hcan : Indexed.canRoute r (fun _ => []) method path = none →
      ∃ p, r.taker path = some p ∧ p.fate path = .past := by
    intro hnone
    by_cases hempty : method = [] ∨ path = []
    · rw [Indexed.canRoute, if_pos hempty] at hnone
      cases hnone
    · obtain ⟨hmethod, hpath⟩ := not_or.mp hempty
      rw [Indexed.canRoute_concluded (fun _ => []) hledger hmethod hpath, Option.map_eq_none_iff,
        Indexed.concluded_eq_none_iff, hordered.search_undefined_iff] at hnone
      exact hnone
  constructor
  · intro h p htaker hover
    exact h.1 (hroute.mpr ⟨p, htaker, fate_past_iff.mpr hover⟩)
  · intro h
    refine ⟨fun hnone => ?_, fun hnone => ?_⟩
    · obtain ⟨p, htaker, hpast⟩ := hroute.mp hnone
      exact h p htaker (fate_past_iff.mp hpast)
    · obtain ⟨p, htaker, hpast⟩ := hcan hnone
      exact h p htaker (fate_past_iff.mp hpast)

/-- A request that the table of the server cannot take. -/
theorem not_inRange_server :
    serverRouter = (HttpRouter.make true true).attemptAll Sorter.insertion serverCalls ∧
      ¬ InRange serverRouter (bytesOf "GET") (bytesOf "//~/x") := by
  refine ⟨rfl, fun h => h.1 ?_⟩
  decide

end Router

end S3Proxy
