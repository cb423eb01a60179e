import S3Proxy.Router.Fate
import S3Proxy.Router.Table

/-!
# One entry

The fate of a request at an entry whose only marker is the final wildcard.  An entry that does not
match the segments of the request is passed over, and one that matches decides.  The exception is
`Overrun`, where a loop takes the wildcard of the entry for a literal and reads on behind it.

## Main result

`Records.fate_eq`: the fate of a request at an entry goes by the pattern of the entry
(`patternFate`), for every request with a segment at all; one without passes (`fate_of_nil`).  So
the loops of the source may be forgotten from here on.

`walk_eq` is the induction, along the segments of the entry and of the request together.
`matches_cons` says that a pattern matches segment by segment, `patternFate_cons` and `overrun_cons`
that a segment which is taken leaves the rest to be decided.  `Matches.length` is what remains of
the lengths: only a wildcard matches a request of another length.

## Hypotheses

The marker is the last segment of the entry or none of them, which `Records` of `Router.Table` has
for a vector that was filled by paths without the marker.  For other entries there is `Router.Fate`.

## Where it is used

`Router.Search` finds the entry that decides with it.  `Overrun` goes on to `Router.Routes` and
`Router.Specificity`, whose conditions have to leave out the requests that run over.
-/

namespace S3Proxy

namespace Router

variable {H : Type*} {calls : List (AddCall H)} {p : Path} {ps qs : List Bytes} {q : Bytes}

/-! ### Matching -/

/-- The pattern of the segments of an entry. -/
abbrev patternOf (ps : List Bytes) : List Segment := ps.map (Segment.of marker)

/-- What a segment can be. -/
lemma segment_cases (part : Bytes) :
    (part = marker ∧ Segment.of marker part = .rest) ∨
    (part ≠ marker ∧ part.head? = some (chr '{') ∧
      Segment.of marker part = .param (paramKey part)) ∨
    (part ≠ marker ∧ part.head? ≠ some (chr '{') ∧ Segment.of marker part = .literal part) := by
  by_cases hmarker : part = marker
  · exact .inl ⟨hmarker, if_pos hmarker⟩
  · by_cases hbrace : part.head? = some (chr '{')
    · refine .inr (.inl ⟨hmarker, hbrace, ?_⟩)
      rw [Segment.of, if_neg hmarker, if_pos hbrace]
    · refine .inr (.inr ⟨hmarker, hbrace, ?_⟩)
      rw [Segment.of, if_neg hmarker, if_neg hbrace]

/-- Only a wildcard matches a request of another length. -/
lemma Matches.length {segments : List Segment} {parts : List Bytes} (h : Matches segments parts) :
    parts.length = segments.length ∨
      (.rest ∈ segments ∧ segments.length ≤ parts.length) := by
  induction segments generalizing parts with
  | nil =>
      cases parts with
      | nil => exact .inl rfl
      | cons part parts => exact h.elim
  | cons segment segments ih =>
      cases parts with
      | nil =>
          cases segment with
          | literal s => exact h.elim
          | param name => exact h.elim
          | rest => cases segments <;> exact h.elim
      | cons part parts =>
          cases segment with
          | literal s =>
              rcases ih h.2 with hlength | ⟨hmem, hle⟩
              · exact .inl (by simp [hlength])
              · exact .inr ⟨List.mem_cons_of_mem _ hmem, by simpa using hle⟩
          | param name =>
              have h : Matches segments parts := h
              rcases ih h with hlength | ⟨hmem, hle⟩
              · exact .inl (by simp [hlength])
              · exact .inr ⟨List.mem_cons_of_mem _ hmem, by simpa using hle⟩
          | rest =>
              cases segments with
              | nil => exact .inr ⟨List.mem_singleton_self _, by simp⟩
              | cons _ _ => exact h.elim

/-- A request has a segment that is written as the wildcard of the entry, and does not end there. -/
def Overrun (ps qs : List Bytes) : Prop :=
  ps.length < qs.length ∧ qs[ps.length - 1]? = some marker

instance : Decidable (Overrun ps qs) := inferInstanceAs (Decidable (_ ∧ _))

/-- A pattern matches segment by segment. -/
lemma matches_cons {iview part : Bytes} :
    Matches (patternOf (iview :: ps)) (part :: qs) ↔
      (iview = marker ∧ ps = []) ∨
        (iview ≠ marker ∧ (part = iview ∨ iview.head? = some (chr '{')) ∧
          Matches (patternOf ps) qs) := by
  rw [patternOf, List.map_cons]
  rcases segment_cases iview with ⟨heq, hsegment⟩ | ⟨hne, hbrace, hsegment⟩ |
    ⟨hne, hbrace, hsegment⟩
  · rw [hsegment]
    cases ps with
    | nil => exact iff_of_true trivial (.inl ⟨heq, rfl⟩)
    | cons _ _ => simp [heq, Matches]
  · rw [hsegment]
    simp [hne, hbrace, Matches]
  · rw [hsegment]
    simp [hne, hbrace, Matches]

/-- The wildcard is the last segment. -/
lemma eq_nil_of_marker (hlast : marker ∉ (marker :: ps).dropLast) : ps = [] := by
  cases ps with
  | nil => rfl
  | cons iview ps =>
      rw [List.dropLast_cons_cons] at hlast
      exact absurd List.mem_cons_self hlast

lemma not_mem_dropLast {iview : Bytes} (hlast : marker ∉ (iview :: ps).dropLast) :
    marker ∉ ps.dropLast := by
  cases ps with
  | nil => exact List.not_mem_nil
  | cons iview' ps =>
      rw [List.dropLast_cons_cons] at hlast
      exact fun h => hlast (List.mem_cons_of_mem _ h)

lemma overrun_cons {iview part : Bytes} (hne : ps ≠ []) :
    Overrun (iview :: ps) (part :: qs) ↔ Overrun ps qs := by
  cases ps with
  | nil => exact absurd rfl hne
  | cons iview' ps => simp [Overrun]

/-! ### The walk -/

/-- The fate of a request by the pattern. -/
def patternFate (ps qs : List Bytes) : Fate :=
  if Matches (patternOf ps) qs then if Overrun ps qs then .past else .stop else .pass

/-- A segment that is taken leaves the rest to be matched. -/
lemma patternFate_cons {iview part : Bytes} (hmarker : iview ≠ marker)
    (htake : part = iview ∨ iview.head? = some (chr '{')) (hps : ps ≠ []) :
    patternFate (iview :: ps) (part :: qs) = patternFate ps qs := by
  have hmatches : Matches (patternOf (iview :: ps)) (part :: qs) ↔ Matches (patternOf ps) qs := by
    rw [matches_cons]
    simp [hmarker, htake]
  rw [patternFate, patternFate, if_congr hmatches rfl rfl, if_congr (overrun_cons hps) rfl rfl]

/-- **The walk goes by the pattern** of the segments, if these end with the only marker. -/
lemma walk_eq (hne : qs ≠ []) (hlast : marker ∉ ps.dropLast) (hlength : ps.length ≤ qs.length)
    (hlonger : ps.length < qs.length → marker ∈ ps) : walk qs ps = patternFate ps qs := by
  induction ps generalizing qs with
  | nil => exact absurd (hlonger (List.length_pos_of_ne_nil hne)) List.not_mem_nil
  | cons iview ps ih =>
      obtain ⟨part, parts, rfl⟩ := List.exists_cons_of_ne_nil hne
      rw [walk]
      by_cases hmarker : iview = marker
      · subst hmarker
        have hps := eq_nil_of_marker hlast
        subst hps
        have hmatches : Matches (patternOf [marker]) (part :: parts) :=
          matches_cons.mpr (.inl ⟨rfl, rfl⟩)
        rw [patternFate, if_pos hmatches, if_pos rfl]
        by_cases hparts : parts = []
        · subst hparts
          rw [if_pos rfl, ite_self, if_neg fun hover => absurd hover.1 (by simp)]
        · obtain ⟨part', parts, rfl⟩ := List.exists_cons_of_ne_nil hparts
          rw [if_neg (List.cons_ne_nil _ _)]
          refine if_congr ⟨fun heq => ⟨by simp, by simp [heq]⟩, fun hover => ?_⟩ rfl rfl
          simpa using hover.2
      · rw [if_neg hmarker]
        by_cases htake : part = iview ∨ iview.head? = some (chr '{')
        · have hstep : (if part = iview then if parts = [] then Fate.stop else walk parts ps
              else if iview.head? = some (chr '{') then
                if parts = [] then Fate.stop else walk parts ps
              else .pass) = if parts = [] then .stop else walk parts ps := by
            by_cases heq : part = iview
            · rw [if_pos heq]
            · rw [if_neg heq, if_pos (htake.resolve_left heq)]
          rw [hstep]
          by_cases hparts : parts = []
          · subst hparts
            have hps : ps = [] := by simpa using hlength
            subst hps
            have hmatches : Matches (patternOf [iview]) [part] :=
              matches_cons.mpr (.inr ⟨hmarker, htake, trivial⟩)
            rw [if_pos rfl, patternFate, if_pos hmatches,
              if_neg fun hover => absurd hover.1 (by simp)]
          · have hlonger' : ps.length < parts.length → marker ∈ ps := by
              intro hlt
              rcases List.mem_cons.mp (hlonger (by simpa using hlt)) with heq | hmem
              · exact absurd heq.symm hmarker
              · exact hmem
            have hps : ps ≠ [] := by
              rintro rfl
              exact absurd (hlonger' (List.length_pos_of_ne_nil hparts)) List.not_mem_nil
            rw [if_neg hparts, patternFate_cons hmarker htake hps]
            exact ih hparts (not_mem_dropLast hlast) (by simpa using hlength) hlonger'
        · rw [not_or] at htake
          rw [if_neg htake.1, if_neg htake.2, patternFate, if_neg]
          rw [matches_cons]
          rintro (⟨heq, -⟩ | ⟨-, h, -⟩)
          · exact hmarker heq
          · exact h.elim htake.1 htake.2

/-! ### The entry -/

lemma Records.sound (h : Records calls p) : p.Sound := ⟨h.parts, h.wildcard⟩

/-- **The fate of a request at an entry** goes by the pattern of the entry. -/
lemma Records.fate_eq (h : Records calls p) (hne : split q ≠ []) :
    p.fate q = patternFate p.parts (split q) := by
  rw [Path.fate]
  by_cases hlength : (split q).length = p.parts.length
  · rw [if_neg fun h => h.1 hlength]
    exact walk_eq hne h.last hlength.ge fun hlt => absurd hlength hlt.ne'
  · by_cases hshort : p.wildcard = false ∨ (split q).length < p.parts.length
    · rw [if_pos ⟨hlength, hshort⟩, patternFate, if_neg]
      intro hmatch
      rcases hmatch.length with heq | ⟨hmem, hle⟩
      · rw [patternOf, List.length_map] at heq
        exact hlength heq
      · rw [patternOf, List.length_map] at hle
        rcases hshort with hwildcard | hlt
        · obtain ⟨part, hpart, hrest⟩ := List.mem_map.mp hmem
          rcases segment_cases part with ⟨heq, -⟩ | ⟨-, -, hsegment⟩ | ⟨-, -, hsegment⟩
          · rw [h.wildcard.mpr (heq ▸ hpart)] at hwildcard
            cases hwildcard
          · rw [hsegment] at hrest
            cases hrest
          · rw [hsegment] at hrest
            cases hrest
        · exact absurd hle (not_le.mpr hlt)
    · rw [if_neg fun h => hshort h.2]
      rw [not_or, Bool.not_eq_false, not_lt] at hshort
      exact walk_eq hne h.last hshort.2 fun _ => h.wildcard.mp hshort.1

/-- A request without segments passes. -/
lemma fate_of_nil (hnil : split q = []) : p.fate q = .pass := by
  rw [Path.fate, hnil]
  split_ifs <;> rfl

end Router

end S3Proxy
