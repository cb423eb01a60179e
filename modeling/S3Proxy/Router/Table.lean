import S3Proxy.Router.Ledger

/-!
# The route table

What the vector of a router says about the calls that filled it.  `Records` is about one entry: the
methods it lists were registered for the pattern of the entry, each with the handler at its side.
`Inv` adds that the vector is sorted and that no call is missing.

The wildcard marker `~` is a segment like any other.  `Unmarked` excludes it from the paths that are
registered, so that in the vector it can only come from a final `*`.

## Main result

`inv_addAll`: after a list of calls that return, `Inv` holds of the router and these calls, and the
handlers for errors are the configured ones.  `Ledger.inv` derives it from the ledger of the router,
and adds the one thing that the ledger leaves open: the pattern of an entry is that of the paths it
was registered with (`segments_stored`), although a final `*` is spelled differently in the vector.

`Records.registered` and `Records.registered_of_mem` read an entry backwards, from a handler to the
call that registered it.

## Hypotheses

The calls have no path with the marker as a segment.  `Router.Marker` shows that this is needed, and
what holds without it is in `Router.Ledger`.

## Where it is used

Every module that speaks of patterns: `Router.Visit`, `Router.Search`, `Router.Routes` and
`Router.Specificity`.
-/

namespace S3Proxy

namespace Router

variable {H : Type*} {sorter : Sorter} {r : HttpRouter H}
  {calls : List (AddCall H)} {p : Path}

/-- No segment is written as the wildcard marker. -/
def Unmarked (path : Bytes) : Prop := marker ∉ split path

instance : DecidablePred Unmarked := fun path => inferInstanceAs (Decidable (marker ∉ split path))

/-- What an entry records of the calls. -/
structure Records (calls : List (AddCall H)) (p : Path) : Prop where
  parts : p.parts = split p.path
  star : chr '*' ∉ p.path
  wildcard : p.wildcard = true ↔ marker ∈ p.parts
  last : marker ∉ p.parts.dropLast
  methods_ne_nil : p.methods ≠ []
  methods_nodup : p.methods.Nodup
  length_eq : p.methods.length = p.handlers.length
  routes : ∀ t ∈ p.methods.zip p.handlers,
    ∃ c, calls[t.2]? = some c ∧ c.method = t.1 ∧ segments c.path = p.segments

/-- The router after some calls. -/
structure Inv (r : HttpRouter H) (calls : List (AddCall H)) : Prop where
  sorted : LowerBound.Sorted Path.path r.paths
  handlers : r.handlers = calls.map AddCall.handler
  records : ∀ p ∈ r.paths, Records calls p
  complete : ∀ k c, calls[k]? = some c →
    ∃ p ∈ r.paths, segments c.path = p.segments ∧ (c.method, k) ∈ p.methods.zip p.handlers

/-! ### The wildcard -/

/-- Both spellings of the wildcard aside, a segment is read in one way. -/
lemma segment_of_congr {part : Bytes} (hmarker : part ≠ marker) (hstar : part ≠ bytesOf "*") :
    Segment.of marker part = Segment.of (bytesOf "*") part := by
  rw [Segment.of, Segment.of, if_neg hmarker, if_neg hstar]

lemma map_segment_of {path : Bytes} (hunmarked : Unmarked path) (hstar : chr '*' ∉ path) :
    (split path).map (Segment.of marker) = (split path).map (Segment.of (bytesOf "*")) := by
  refine List.map_congr_left fun part hpart => segment_of_congr ?_ ?_
  · rintro rfl
    exact hunmarked hpart
  · rintro rfl
    exact hstar (Text.mem_of_mem_split hpart (by decide))

/-- Storing a path turns the wildcard into the marker and keeps the pattern. -/
lemma segments_stored {full : Bytes} (hcheck : HttpRouter.checkWildcard full = .ok ())
    (hunmarked : Unmarked full) :
    marker ∉ (split (HttpRouter.stored full)).dropLast ∧
      (split (HttpRouter.stored full)).map (Segment.of marker) = segments full := by
  rcases stored_cases hcheck with ⟨hnone, hstored⟩ | ⟨pre, hpre, hfull, -, hsplit⟩
  · rw [hstored]
    exact ⟨fun h => hunmarked (List.mem_of_mem_dropLast h), map_segment_of hunmarked hnone⟩
  · rw [Unmarked, hfull, List.mem_append, not_or] at hunmarked
    rw [segments, hfull, hsplit]
    refine ⟨?_, ?_⟩
    · rw [List.dropLast_concat]
      exact hunmarked.1
    · rw [List.map_append, List.map_append, map_segment_of hunmarked.1 hpre]
      rfl

/-! ### The invariant -/

/-- The table of a ledger without the marker. -/
lemma Ledger.inv (h : Ledger r calls) (hunmarked : ∀ c ∈ calls, Unmarked c.path) : Inv r calls := by
  have hpattern : ∀ {k : ℕ} {c : AddCall H} {p : Path}, p ∈ r.paths → calls[k]? = some c →
      HttpRouter.stored c.path = p.path →
      marker ∉ p.parts.dropLast ∧ segments c.path = p.segments := by
    intro k c p hp hc hpath
    have hc := List.mem_of_getElem? hc
    obtain ⟨hlast, hsegments⟩ := segments_stored (h.checked c hc) (hunmarked c hc)
    rw [hpath, ← (h.entries p hp).parts] at hlast hsegments
    exact ⟨hlast, hsegments.symm⟩
  refine ⟨h.sorted, h.handlers, fun p hp => ?_, fun k c hc => ?_⟩
  · have hentry := h.entries p hp
    refine
      { parts := hentry.parts
        star := hentry.star
        wildcard := hentry.wildcard
        last := ?_
        methods_ne_nil := hentry.methods_ne_nil
        methods_nodup := hentry.methods_nodup
        length_eq := hentry.length_eq
        routes := fun t ht => ?_ }
    · obtain ⟨t, ht⟩ : ∃ t, t ∈ p.methods.zip p.handlers := by
        refine List.exists_mem_of_ne_nil _ fun hnil => ?_
        have hlength := congrArg List.length hnil
        rw [List.length_zip, ← hentry.length_eq, min_self, List.length_nil] at hlength
        exact hentry.methods_ne_nil (List.eq_nil_of_length_eq_zero hlength)
      obtain ⟨c, hc, -, hpath⟩ := h.routes p hp t ht
      exact (hpattern hp hc hpath).1
    · obtain ⟨c, hc, hmethod, hpath⟩ := h.routes p hp t ht
      exact ⟨c, hc, hmethod, (hpattern hp hc hpath).2⟩
  · obtain ⟨p, hp, hpath, hroute⟩ := h.complete k c hc
    exact ⟨p, hp, (hpattern hp hc hpath.symm).2, hroute⟩

/-- **All calls** that have filled a router are in its table. -/
lemma inv_addAll {error404 error405 : Bool} (hunmarked : ∀ c ∈ calls, Unmarked c.path)
    (hadd : (HttpRouter.make error404 error405).addAll sorter calls = .ok r) :
    Inv r calls ∧ r.notFound = error404 ∧ r.methodNotAllowed = error405 := by
  obtain ⟨hledger, hconfigured⟩ := ledger_make.addAll hadd
  exact ⟨hledger.inv hunmarked, hconfigured⟩

/-! ### The methods of an entry -/

lemma Records.handlerOf_eq_none_iff (h : Records calls p) {method : Bytes} :
    p.handlerOf method = none ↔ method ∉ p.methods :=
  Router.handlerOf_eq_none_iff h.length_eq

/-- A handler that an entry gives out was registered for its pattern. -/
lemma Records.registered (h : Records calls p) {method : Bytes} {k : ℕ}
    (hk : p.handlerOf method = some k) :
    ∃ c, calls[k]? = some c ∧ c.method = method ∧ segments c.path = p.segments :=
  h.routes _ ((handlerOf_eq_some_iff h.methods_nodup).mp hk)

/-- Each handler of an entry was registered for its pattern. -/
lemma Records.registered_of_mem (h : Records calls p) {k : ℕ} (hk : k ∈ p.handlers) :
    ∃ c, calls[k]? = some c ∧ segments c.path = p.segments := by
  obtain ⟨i, hi, hget⟩ := List.getElem_of_mem hk
  have hlt : i < p.methods.length := h.length_eq ▸ hi
  have hzip : (p.methods.zip p.handlers)[i]? = some (p.methods[i], k) := by
    rw [List.getElem?_zip_eq_some]
    exact ⟨List.getElem?_eq_getElem hlt, List.getElem?_eq_some_iff.mpr ⟨hi, hget⟩⟩
  obtain ⟨c, hc, -, hsegments⟩ := h.routes _ (List.mem_of_getElem? hzip)
  exact ⟨c, hc, hsegments⟩

end Router

end S3Proxy
