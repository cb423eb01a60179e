import S3Proxy.Router.Ledger
import S3Proxy.Router.Scan

/-!
# The fate of a request at an entry

What the loops of the search do at one entry is decided by the segments alone.  The request passes
the entry, stops there and gets the answer of the entry for its method, or makes the loop read on
behind the last segment of the entry: these are the three values of `Fate`.  Nothing is asked of the
entry, which may hold the wildcard marker in any place.

## Main results

`visit_fate`: one entry does what its fate says, for both of the loops (`general_walk`,
`longer_walk`), where `walk` is the recursion along the segments that replaces them.

The search comes to an end at the first entry, from the lower bound on, that does not let the
request pass (`HttpRouter.taker`).  `search_taker` is the case distinction, and `search_decided`,
`search_none` and `search_undefined_iff` are its parts.  An entry with the very path of the request
is taken at once, before any other; `exact_of_bound` says why that makes no difference to the order.
`search_sound` holds whatever is read behind an entry.

`Path.Sound.takes_congr` says that whether an entry takes a request depends on its path alone, and
not on its methods.

## Hypotheses

Entries are `Path.Sound`: their segments and the mark for wildcards are those of their path.  The
vector is sorted and its entries are sound (`HttpRouter.Ordered`), which follows from the `Ledger`
of the router.

## Where it is used

`Router.Visit` and `Router.Search` go on from here to patterns, for vectors without the marker.  The
results that are about all vectors use this module directly: `Router.Indexed`, `Router.Bounds`,
`Router.Order`, `Router.Marker` and `Router.Bindings`.
-/

namespace S3Proxy

namespace Router

variable {H π : Type*} {record : π → Bytes → Bytes → π} {start params : π}
  {beyond : Path → List Bytes} {method path rest q : Bytes} {p : Path}
  {ps qs extra : List Bytes} {r : HttpRouter H} {l : List Path} {handler : Option ℕ}

/-- What becomes of a request at an entry. -/
inductive Fate
  | pass
  | stop
  /-- The loop runs over the end of the entry. -/
  | past
  deriving DecidableEq

/-- The loop over the segments of the request. -/
def walk : List Bytes → List Bytes → Fate
  | [], _ => .pass
  | _ :: _, [] => .past
  | part :: parts, iview :: iviews =>
      if part = iview then if parts = [] then .stop else walk parts iviews
      else if iview = marker then .stop
      else if iview.head? = some (chr '{') then if parts = [] then .stop else walk parts iviews
      else .pass

/-- An entry without a wildcard takes requests of its own length, the others longer ones too. -/
def Path.fate (p : Path) (q : Bytes) : Fate :=
  if (split q).length ≠ p.parts.length ∧
      (p.wildcard = false ∨ (split q).length < p.parts.length) then .pass
  else walk (split q) p.parts

/-! ### The general loop -/

lemma answerRest_decided :
    ∃ params', p.answerRest record method rest params = .decided (p.handlerOf method) params' := by
  unfold Path.answerRest
  cases p.handlerOf method with
  | some k => exact ⟨_, rfl⟩
  | none => exact ⟨_, rfl⟩

lemma marker_ne_of_brace {part : Bytes} (h : part.head? = some (chr '{')) : part ≠ marker := by
  rintro rfl
  exact absurd h (by decide)

/-- A pass that goes on to the next segment. -/
lemma general_continue {iview : Bytes} (hne : qs ≠ []) :
    p.general record method rest (iview :: qs) (iview :: ps) params =
      p.general record method rest qs ps params := by
  rw [Path.general, if_pos ⟨rfl, hne⟩]

variable (record params) in
/-- A parameter takes any segment, and the loop goes on. -/
lemma general_param (part : Bytes) {iview : Bytes} (hbrace : iview.head? = some (chr '{'))
    (hne : qs ≠ []) :
    ∃ params', p.general record method rest (part :: qs) (iview :: ps) params =
      p.general record method rest qs ps params' := by
  by_cases heq : part = iview
  · subst heq
    exact ⟨params, general_continue hne⟩
  · refine ⟨record params (paramKey iview) part, ?_⟩
    rw [Path.general, if_neg fun h => heq h.1, if_neg fun h => heq h.1,
      if_neg fun h => marker_ne_of_brace hbrace h.1, if_neg fun h => h hbrace, if_neg hne]

/-- The last segment of the request is the last one of a pattern. -/
lemma general_last {part iview : Bytes}
    (h : part = iview ∨ iview.head? = some (chr '{') ∨ iview = marker ∧ p.wildcard = true) :
    ∃ params', p.general record method rest [part] (iview :: ps) params =
      .decided (p.handlerOf method) params' := by
  rw [Path.general, if_neg fun h => h.2 rfl]
  split_ifs with hrefused hmarker hbrace hpart hnil
  · exact ⟨params, by rw [hrefused.2]⟩
  · exact answerRest_decided
  · exact ⟨params, rfl⟩
  · rcases h with h | h | h
    · exact absurd h hpart
    · exact absurd h hbrace
    · exact absurd h hmarker
  · exact ⟨_, rfl⟩
  · exact absurd rfl hnil

/-- A wildcard takes the rest of the request. -/
lemma general_marker {part : Bytes} (hne : part ≠ marker) (hwildcard : p.wildcard = true) :
    ∃ params', p.general record method rest (part :: qs) (marker :: ps) params =
      .decided (p.handlerOf method) params' := by
  rw [Path.general, if_neg fun h => hne h.1, if_neg fun h => hne h.1, if_pos ⟨rfl, hwildcard⟩]
  exact answerRest_decided

/-- A literal that differs ends the pass. -/
lemma general_literal {part iview : Bytes} (hne : part ≠ iview) (hmarker : iview ≠ marker)
    (hbrace : iview.head? ≠ some (chr '{')) :
    p.general record method rest (part :: qs) (iview :: ps) params = .next := by
  rw [Path.general, if_neg fun h => hne h.1, if_neg fun h => hne h.1, if_neg fun h => hmarker h.1,
    if_pos hbrace, if_neg hne]

/-- What a loop over `qs` and `ps` comes to, when the walk comes to the given fate. -/
def Fate.Explains (p : Path) (method : Bytes) : Fate → List Bytes → Visit π → Prop
  | .pass, _, v => v = .next
  | .stop, _, v => ∃ params, v = .decided (p.handlerOf method) params
  | .past, extra, v => extra = [] → v = .undefined

/-- **The general loop** does what the walk says. -/
lemma general_walk (hwildcard : marker ∈ ps → p.wildcard = true) :
    (walk qs ps).Explains p method extra
      (p.general record method rest qs (ps ++ extra) params) := by
  induction ps generalizing qs params with
  | nil =>
      cases qs with
      | nil => exact rfl
      | cons part parts =>
          rintro rfl
          rfl
  | cons iview ps ih =>
      cases qs with
      | nil => exact rfl
      | cons part parts =>
          have ih' : ∀ params, (walk parts ps).Explains p method extra
              (p.general record method rest parts (ps ++ extra) params) := fun params =>
            ih fun h => hwildcard (List.mem_cons_of_mem _ h)
          rw [walk, List.cons_append]
          by_cases hlast : parts = []
          · subst hlast
            rw [if_pos rfl]
            split_ifs with heq hmarker hbrace
            · exact general_last (.inl heq)
            · exact general_last (.inr (.inr ⟨hmarker, hwildcard (hmarker ▸ List.mem_cons_self)⟩))
            · exact general_last (.inr (.inl hbrace))
            · exact general_literal heq hmarker hbrace
          · rw [if_neg hlast]
            split_ifs with heq hmarker hbrace
            · subst heq
              rw [general_continue hlast]
              exact ih' params
            · subst hmarker
              exact general_marker heq (hwildcard List.mem_cons_self)
            · obtain ⟨params', hstep⟩ := general_param record params part hbrace hlast
              rw [hstep]
              exact ih' params'
            · exact general_literal heq hmarker hbrace

/-- Whatever is read, an answer is that of the entry. -/
lemma general_sound {params' : π} {handler : Option ℕ}
    (h : p.general record method rest qs ps params = .decided handler params') :
    handler = p.handlerOf method := by
  induction qs generalizing ps params with
  | nil => cases h
  | cons part parts ih =>
      cases ps with
      | nil => cases h
      | cons iview ps =>
          rw [Path.general] at h
          split_ifs at h with hcontinue hrefused hmarker hbrace hpart hlast
          · exact ih h
          · cases h
            exact hrefused.2.symm
          · obtain ⟨params'', hanswer⟩ : ∃ params'', p.answerRest record method rest params =
                .decided (p.handlerOf method) params'' := answerRest_decided
            rw [hanswer] at h
            cases h
            rfl
          · cases h
            rfl
          · cases h
            rfl
          · exact ih h

/-! ### The loop for longer requests -/

/-- An answer of this loop is one that the walk stops for. -/
lemma longer_walk {v : Visit π} (hlength : ps.length < qs.length)
    (h : p.longer record method rest (qs.zip ps) params = .inl v) :
    walk qs ps = .stop ∧ ∃ params', v = .decided (p.handlerOf method) params' := by
  induction ps generalizing qs with
  | nil =>
      rw [List.zip_nil_right] at h
      cases h
  | cons iview ps ih =>
      cases qs with
      | nil => exact absurd hlength (by simp)
      | cons part parts =>
          rw [List.length_cons, List.length_cons, Nat.add_lt_add_iff_right] at hlength
          have hparts : parts ≠ [] := List.ne_nil_of_length_pos (Nat.zero_lt_of_lt hlength)
          rw [List.zip_cons_cons, Path.longer] at h
          by_cases heq : part = iview
          · rw [if_pos heq] at h
            rw [walk, if_pos heq, if_neg hparts]
            exact ih hlength h
          · rw [if_neg heq] at h
            dsimp only at h
            by_cases hmarker : iview = marker
            · rw [if_neg (not_not.mpr hmarker)] at h
              rw [walk, if_neg heq, if_pos hmarker]
              refine ⟨rfl, ?_⟩
              rw [← Sum.inl.inj h]
              exact answerRest_decided
            · rw [if_pos hmarker] at h
              cases h

/-! ### One entry -/

/-- The segments of an entry are those of its path, and it knows of its wildcard. -/
structure Path.Sound (p : Path) : Prop where
  parts : p.parts = split p.path
  wildcard : p.wildcard = true ↔ marker ∈ p.parts

lemma Path.WellFormed.sound (h : p.WellFormed) : p.Sound := ⟨h.parts, h.wildcard⟩

variable (record start beyond method) in
/-- **One entry** does what its fate says. -/
lemma visit_fate (hp : p.Sound) :
    (p.fate q).Explains p method (beyond p) (p.visit record start beyond method q) := by
  have hgeneral : ∀ params, (walk (split q) p.parts).Explains p method (beyond p)
      (p.general record method (p.remainder q (split q)) (split q) (p.parts ++ beyond p) params) :=
    fun params => general_walk hp.wildcard.mpr
  unfold Path.visit Path.fate
  dsimp only
  by_cases hlength : (split q).length = p.parts.length
  · rw [if_neg (not_not.mpr hlength), if_neg fun h => h.1 hlength]
    exact hgeneral start
  · rw [if_pos hlength]
    by_cases hwildcard : p.wildcard = false
    · rw [if_pos hwildcard, if_pos ⟨hlength, .inl hwildcard⟩]
      exact rfl
    · rw [if_neg hwildcard]
      by_cases hshort : (split q).length < p.parts.length
      · rw [if_pos hshort, if_pos ⟨hlength, .inr hshort⟩]
        exact rfl
      · rw [if_neg hshort, if_neg fun h => h.2.elim hwildcard hshort]
        cases hlonger : p.longer record method (p.remainder q (split q))
            ((split q).zip p.parts) start with
        | inl v =>
            obtain ⟨hwalk, hdecided⟩ := longer_walk (by omega) hlonger
            rw [hwalk]
            exact hdecided
        | inr params => exact hgeneral params

lemma visit_pass (hp : p.Sound) (hfate : p.fate q = .pass) :
    p.visit record start beyond method q = .next := by
  have hvisit := visit_fate record start beyond method (q := q) hp
  rw [hfate] at hvisit
  exact hvisit

variable (record start beyond method) in
lemma visit_stop (hp : p.Sound) (hfate : p.fate q = .stop) :
    ∃ params, p.visit record start beyond method q = .decided (p.handlerOf method) params := by
  have hvisit := visit_fate record start beyond method (q := q) hp
  rw [hfate] at hvisit
  exact hvisit

lemma visit_past (hp : p.Sound) (hfate : p.fate q = .past) (hbeyond : beyond p = []) :
    p.visit record start beyond method q = .undefined := by
  have hvisit := visit_fate record start beyond method (q := q) hp
  rw [hfate] at hvisit
  exact hvisit hbeyond

/-- Whatever is read, an answer is that of an entry that does not let the request pass. -/
lemma visit_sound (hp : p.Sound)
    (h : p.visit record start beyond method q = .decided handler params) :
    p.fate q ≠ .pass ∧ handler = p.handlerOf method := by
  have hpass : p.fate q ≠ .pass := by
    intro hpass
    rw [visit_pass hp hpass] at h
    cases h
  refine ⟨hpass, ?_⟩
  unfold Path.visit at h
  dsimp only at h
  by_cases hlength : (split q).length = p.parts.length
  · rw [if_neg (not_not.mpr hlength)] at h
    exact general_sound h
  · rw [if_pos hlength] at h
    split_ifs at h with hwildcard hshort
    split at h
    · rename_i v hlonger
      obtain ⟨-, params', hdecided⟩ := longer_walk (by omega) hlonger
      rw [hdecided] at h
      cases h
      rfl
    · exact general_sound h

/-! ### The search -/

/-- The entry does not let the request pass, or has its very path. -/
def Path.Takes (p : Path) (q : Bytes) : Prop :=
  p.fate q ≠ .pass ∨ (p.path = q ∧ p.wildcard = false)

instance (p : Path) (q : Bytes) : Decidable (p.Takes q) := inferInstanceAs (Decidable (_ ∨ _ ∧ _))

/-- The entry that a request comes to. -/
def HttpRouter.taker (r : HttpRouter H) (q : Bytes) : Option Path :=
  r.paths.find? fun p => decide (q ≤ p.path) && decide (p.Takes q)

/-- What is known of the entry that a request comes to. -/
lemma taker_some (htaker : r.taker q = some p) : p ∈ r.paths ∧ q ≤ p.path ∧ p.Takes q := by
  have hp := List.find?_some htaker
  rw [Bool.and_eq_true, decide_eq_true_eq, decide_eq_true_eq] at hp
  exact ⟨List.mem_of_find?_eq_some htaker, hp⟩

/-- Whether an entry takes a request depends on its path alone. -/
lemma Path.Sound.takes_congr {p' : Path} (h : p.Sound) (h' : p'.Sound)
    (hpath : p.path = p'.path) : p.fate q = p'.fate q ∧ (p.Takes q ↔ p'.Takes q) := by
  have hparts : p.parts = p'.parts := by rw [h.parts, h'.parts, hpath]
  have hwildcard : p.wildcard = p'.wildcard := by
    rw [Bool.eq_iff_iff, h.wildcard, h'.wildcard, hparts]
  have hfate : p.fate q = p'.fate q := by rw [Path.fate, Path.fate, hparts, hwildcard]
  refine ⟨hfate, ?_⟩
  rw [Path.Takes, Path.Takes, hfate, hwildcard, hpath]

/-- A walk along the segments themselves does not run over the end. -/
lemma walk_self (ps : List Bytes) : walk ps ps ≠ .past := by
  induction ps with
  | nil => exact Fate.noConfusion
  | cons part parts ih =>
      rw [walk, if_pos rfl]
      split_ifs
      · exact Fate.noConfusion
      · exact ih

/-- An exact hit is inside the entry. -/
lemma fate_ne_past_of_exact (hp : p.Sound) (hpath : p.path = q) : p.fate q ≠ .past := by
  rw [Path.fate, ← hpath, ← hp.parts, if_neg fun h => h.1 rfl]
  exact walk_self p.parts

lemma scan_pass (hentries : ∀ p ∈ l, p.Sound) (hpass : ∀ p ∈ l, p.fate q = .pass) :
    scan record start beyond method q l = .missed := by
  induction l with
  | nil => rfl
  | cons p l ih =>
      rw [scan, visit_pass (hentries p List.mem_cons_self) (hpass p List.mem_cons_self)]
      exact ih (fun p hp => hentries p (List.mem_cons_of_mem _ hp))
        fun p hp => hpass p (List.mem_cons_of_mem _ hp)

/-- The entries that let the request pass are passed over. -/
lemma scan_taker (hentries : ∀ p ∈ l, p.Sound)
    (htaker : l.find? (fun p => decide (p.fate q ≠ .pass)) = some p) :
    ∃ above, scan record start beyond method q l =
      scan record start beyond method q (p :: above) := by
  induction l with
  | nil => cases htaker
  | cons p' l ih =>
      by_cases hfate : p'.fate q = .pass
      · rw [List.find?_cons_of_neg (by simpa using hfate)] at htaker
        rw [scan, visit_pass (hentries p' List.mem_cons_self) hfate]
        exact ih (fun p hp => hentries p (List.mem_cons_of_mem _ hp)) htaker
      · rw [List.find?_cons_of_pos (by simpa using hfate)] at htaker
        cases htaker
        exact ⟨l, rfl⟩

/-- Whatever is read, an answer is that of an entry that does not let the request pass. -/
lemma scan_sound (hentries : ∀ p ∈ l, p.Sound)
    (h : scan record start beyond method q l = .decided p handler params) :
    p ∈ l ∧ p.fate q ≠ .pass ∧ handler = p.handlerOf method := by
  induction l with
  | nil => cases h
  | cons p' l ih =>
      rw [scan] at h
      cases hvisit : p'.visit record start beyond method q with
      | next =>
          rw [hvisit] at h
          obtain ⟨hmem, hrest⟩ := ih (fun p hp => hentries p (List.mem_cons_of_mem _ hp)) h
          exact ⟨List.mem_cons_of_mem _ hmem, hrest⟩
      | decided handler' params' =>
          rw [hvisit] at h
          cases h
          exact ⟨List.mem_cons_self, visit_sound (hentries p List.mem_cons_self) hvisit⟩
      | undefined =>
          rw [hvisit] at h
          cases h

/-- A vector that can be searched. -/
structure HttpRouter.Ordered (r : HttpRouter H) : Prop where
  sorted : LowerBound.Sorted Path.path r.paths
  entries : ∀ p ∈ r.paths, p.Sound

lemma Ledger.ordered {done : List (AddCall H)} (h : Ledger r done) : r.Ordered :=
  ⟨h.sorted, fun p hp => (h.entries p hp).sound⟩

lemma search_ended (h : ∀ p ∈ r.paths, p.path < q) :
    r.search record start beyond method q = .ended := by
  rw [HttpRouter.search, LowerBound.lowerBound_eq_nil_iff.mpr h]

lemma scan_ne_ended : scan record start beyond method q l ≠ .ended := by
  intro h
  induction l with
  | nil => cases h
  | cons p l ih =>
      rw [scan] at h
      cases hvisit : p.visit record start beyond method q with
      | next =>
          rw [hvisit] at h
          exact ih h
      | decided handler params =>
          rw [hvisit] at h
          cases h
      | undefined =>
          rw [hvisit] at h
          cases h

/-- The search ends at once if every entry sorts before the request, and only then. -/
lemma search_ended_iff :
    r.search record start beyond method q = .ended ↔ ∀ p ∈ r.paths, p.path < q := by
  refine ⟨fun hended => ?_, search_ended⟩
  rw [← LowerBound.lowerBound_eq_nil_iff]
  rw [HttpRouter.search] at hended
  cases hbound : LowerBound.lowerBound Path.path q r.paths with
  | nil => rfl
  | cons iter above =>
      rw [hbound] at hended
      dsimp only at hended
      by_cases hexact : q = iter.path ∧ iter.wildcard = false
      · rw [if_pos hexact] at hended
        cases hended
      · rw [if_neg hexact] at hended
        exact absurd hended scan_ne_ended

namespace HttpRouter.Ordered

/-- The entries from the lower bound on. -/
lemma mem_of_bound (h : r.Ordered)
    (hbound : LowerBound.lowerBound Path.path q r.paths = l) (hp : p ∈ l) :
    p ∈ r.paths ∧ q ≤ p.path :=
  (LowerBound.mem_lowerBound h.sorted).mp (hbound ▸ hp)

/-- Behind an entry with the very path of the request, only entries that are taken exactly have
it. -/
lemma exact_of_bound (h : r.Ordered) {iter : Path} {above : List Path}
    (hbound : LowerBound.lowerBound Path.path q r.paths = iter :: above)
    (hp : p ∈ iter :: above) (hpath : p.path = q) : iter.path = q ∧ iter.wildcard = p.wildcard := by
  have hsorted := LowerBound.sorted_lowerBound (x := q) h.sorted
  obtain ⟨hiter, hle⟩ := h.mem_of_bound hbound List.mem_cons_self
  have hmem := (h.mem_of_bound hbound hp).1
  rw [hbound] at hsorted
  have hle' : iter.path ≤ p.path := by
    rcases List.mem_cons.mp hp with rfl | hp
    · exact Std.le_refl _
    · exact (List.pairwise_cons.mp hsorted).1 p hp
  have hiterPath : iter.path = q := Std.le_antisymm (hpath ▸ hle') hle
  refine ⟨hiterPath, ?_⟩
  rw [Bool.eq_iff_iff, (h.entries iter hiter).wildcard, (h.entries p hmem).wildcard,
    (h.entries iter hiter).parts, (h.entries p hmem).parts, hiterPath, hpath]

variable (record start beyond method) in
/-- **What the search comes to**, by the entry that takes the request. -/
lemma search_taker (h : r.Ordered) :
    (r.taker q = none ∧ ((∀ p ∈ r.paths, p.path < q) ∧
        r.search record start beyond method q = .ended ∨
      (∃ p ∈ r.paths, q ≤ p.path) ∧ r.search record start beyond method q = .missed)) ∨
    ∃ p, r.taker q = some p ∧
      ((p.path = q ∧ p.wildcard = false ∧
          r.search record start beyond method q = .decided p (p.handlerOf method) start) ∨
        (p.path = q → p.wildcard = true) ∧ p.fate q ≠ .pass ∧ ∃ above,
          r.search record start beyond method q =
            scan record start beyond method q (p :: above)) := by
  rw [HttpRouter.taker, ← LowerBound.find?_lowerBound h.sorted]
  cases hbound : LowerBound.lowerBound Path.path q r.paths with
  | nil =>
      have hbelow := LowerBound.lowerBound_eq_nil_iff.mp hbound
      exact .inl ⟨rfl, .inl ⟨hbelow, search_ended hbelow⟩⟩
  | cons iter above =>
      obtain ⟨hiter, hle⟩ := h.mem_of_bound hbound List.mem_cons_self
      rw [HttpRouter.search, hbound]
      dsimp only
      by_cases hexact : q = iter.path ∧ iter.wildcard = false
      · rw [if_pos hexact]
        refine .inr ⟨iter, ?_, .inl ⟨hexact.1.symm, hexact.2, rfl⟩⟩
        exact List.find?_cons_of_pos (decide_eq_true (.inr ⟨hexact.1.symm, hexact.2⟩))
      · rw [if_neg hexact]
        have hentries : ∀ p ∈ iter :: above, p.Sound := fun p hp =>
          h.entries p (h.mem_of_bound hbound hp).1
        have hwildcard : ∀ p ∈ iter :: above, p.path = q → p.wildcard = true := by
          intro p hp hpath
          obtain ⟨hiterPath, heq⟩ := h.exact_of_bound hbound hp hpath
          rw [← heq]
          exact Bool.eq_true_of_not_eq_false fun hfalse => hexact ⟨hiterPath.symm, hfalse⟩
        have htakes : ∀ p ∈ iter :: above, p.Takes q ↔ p.fate q ≠ .pass := by
          intro p hp
          refine ⟨fun h => ?_, .inl⟩
          rcases h with hfate | ⟨hpath, hfalse⟩
          · exact hfate
          · rw [hwildcard p hp hpath] at hfalse
            cases hfalse
        have hcongr : (iter :: above).find? (fun p => decide (p.Takes q)) =
            (iter :: above).find? fun p => decide (p.fate q ≠ .pass) :=
          List.find?_congr fun p hp => decide_eq_decide.mpr (htakes p hp)
        rw [hcongr]
        cases hfind : (iter :: above).find? fun p => decide (p.fate q ≠ .pass) with
        | none =>
            rw [List.find?_eq_none] at hfind
            refine .inl ⟨rfl, .inr ⟨⟨iter, hiter, hle⟩, ?_⟩⟩
            exact scan_pass hentries fun p hp => by simpa using hfind p hp
        | some p =>
            have hp := List.mem_of_find?_eq_some hfind
            have hfate : p.fate q ≠ .pass := by simpa using List.find?_some hfind
            exact .inr ⟨p, rfl, .inr ⟨hwildcard p hp, hfate, scan_taker hentries hfind⟩⟩

/-- Without an entry that takes the request, no entry decides. -/
lemma search_none (h : r.Ordered) (htaker : r.taker q = none) :
    r.search record start beyond method q =
      if ∃ p ∈ r.paths, q ≤ p.path then .missed else .ended := by
  rcases search_taker record start beyond method (q := q) h with
    ⟨-, ⟨hbelow, heq⟩ | ⟨hle, heq⟩⟩ | ⟨p, hp, -⟩
  · rw [heq, if_neg]
    rintro ⟨p, hp, hle⟩
    exact Std.not_le.mpr (hbelow p hp) hle
  · rw [heq, if_pos hle]
  · rw [htaker] at hp
    cases hp

variable (record start beyond method) in
/-- **The entry that takes the request decides**, unless the loop runs over its end. -/
lemma search_decided (h : r.Ordered) (htaker : r.taker q = some p) (hpast : p.fate q ≠ .past) :
    ∃ params, r.search record start beyond method q =
      .decided p (p.handlerOf method) params := by
  have hp := h.entries p (taker_some htaker).1
  rcases search_taker record start beyond method (q := q) h with
    ⟨hnone, -⟩ | ⟨p', hp', ⟨-, -, heq⟩ | ⟨-, hfate, above, heq⟩⟩
  · rw [htaker] at hnone
    cases hnone
  · cases htaker.symm.trans hp'
    exact ⟨start, heq⟩
  · cases htaker.symm.trans hp'
    have hstop : p.fate q = .stop := by
      cases hcase : p.fate q with
      | pass => exact absurd hcase hfate
      | stop => rfl
      | past => exact absurd hcase hpast
    obtain ⟨params, hvisit⟩ := visit_stop record start beyond method hp hstop
    refine ⟨params, ?_⟩
    rw [heq, scan, hvisit]

/-- The other case, when nothing is there to be read. -/
lemma search_undefined (h : r.Ordered) (htaker : r.taker q = some p)
    (hpast : p.fate q = .past) (hbeyond : beyond p = []) :
    r.search record start beyond method q = .undefined := by
  have hp := h.entries p (taker_some htaker).1
  rcases search_taker record start beyond method (q := q) h with
    ⟨hnone, -⟩ | ⟨p', hp', ⟨hpath, -, -⟩ | ⟨-, -, above, heq⟩⟩
  · rw [htaker] at hnone
    cases hnone
  · cases htaker.symm.trans hp'
    exact absurd hpast (fate_ne_past_of_exact hp hpath)
  · cases htaker.symm.trans hp'
    rw [heq, scan, visit_past hp hpast hbeyond]

/-- With nothing to be read, the search is undefined for the requests that run over. -/
lemma search_undefined_iff (h : r.Ordered) :
    r.search record start (fun _ => []) method q = .undefined ↔
      ∃ p, r.taker q = some p ∧ p.fate q = .past := by
  cases htaker : r.taker q with
  | none =>
      rw [h.search_none htaker]
      refine iff_of_false ?_ (by simp)
      split_ifs <;> simp
  | some p =>
      by_cases hpast : p.fate q = .past
      · exact iff_of_true (h.search_undefined htaker hpast rfl) ⟨p, rfl, hpast⟩
      · obtain ⟨params, hdecided⟩ := h.search_decided record start (fun _ => []) method htaker hpast
        rw [hdecided]
        refine iff_of_false (by simp) ?_
        rintro ⟨p', hp', hpast'⟩
        cases hp'
        exact hpast hpast'

/-- **Whatever is read**, an answer is that of an entry that takes the request. -/
lemma search_sound (h : r.Ordered)
    (hsearch : r.search record start beyond method q = .decided p handler params) :
    p ∈ r.paths ∧ p.Takes q ∧ handler = p.handlerOf method := by
  cases hbound : LowerBound.lowerBound Path.path q r.paths with
  | nil =>
      rw [HttpRouter.search, hbound] at hsearch
      cases hsearch
  | cons iter above =>
      rw [HttpRouter.search, hbound] at hsearch
      dsimp only at hsearch
      split_ifs at hsearch with hexact
      · cases hsearch
        exact ⟨(h.mem_of_bound hbound List.mem_cons_self).1, .inr ⟨hexact.1.symm, hexact.2⟩, rfl⟩
      · obtain ⟨hp, hfate, heq⟩ := scan_sound
          (fun p hp => h.entries p (h.mem_of_bound hbound hp).1) hsearch
        exact ⟨(h.mem_of_bound hbound hp).1, .inl hfate, heq⟩

end HttpRouter.Ordered

end Router

end S3Proxy
