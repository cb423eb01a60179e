import S3Proxy.Router.Router

/-!
# What `add` does to a router

`Ledger` says of a router which calls of `add` have filled it: the entries are in order, each method
of an entry has the index of the handler it was registered with, and no index is missing or used
twice.  It asks nothing of the paths; `Router.Table` draws on it for paths without the wildcard
marker.

`Stateful` is `add` statement by statement, on a router that each statement changes in place.

## Main result

`represents_run`: after any sequence of calls, whichever of them throw, the router represents the
calls that have returned, in five parts (`Represents`): the vector is sorted by its paths, each
entry has as many handlers as methods, no method is listed twice in an entry, the indices in the
entries are those of the handlers, each once, and each call that returned is found under its path
and method.  A call that throws has left the router as it was.

That last part is `Stateful.add_eq`: a call that throws has changed nothing, and one that returns
has done what the function `add` says.  So everything else may be about the function.  `add_cases`
says once what a call that returns does, which is to join an entry or to insert one; `Ledger.join`
and `Ledger.insert` keep the ledger in the two cases, and `Ledger.addAll` goes through all calls.

## Hypotheses

The sorting function sorts; that it is stable is not assumed.  An exception is one of those that
`add` throws, allocation does not fail.

## Where it is used

All of `Router` from here on.  `attemptAll_eq` reduces a run in which some calls throw to the calls
that return, and `make_ok` and `stored_cases` are what is known of an entry and of the path it is
stored under.
-/

namespace S3Proxy

namespace Router

variable {H : Type*} {sorter : Sorter} {r r' : HttpRouter H} {c : AddCall H}
  {calls done : List (AddCall H)} {p ps : Path} {method path part : Bytes} {k : ℕ}

/-! ### The constructor of an entry -/

/-- A parameter is closed, and does not have the other form. -/
def ValidPart (part : Bytes) : Prop :=
  (part.head? = some (chr '{') → part.getLast? = some (chr '}')) ∧
    part.head? ≠ some (chr ':')

/-- What a segment adds to `epath`. -/
def erased (part : Bytes) : Bytes :=
  if part.head? = some (chr '{') then bytesOf "/{}"
  else if part = marker then bytesOf "/" ++ bytesOf "*"
  else bytesOf "/" ++ part

lemma scanPart_ok {acc acc' : Bytes × Bool} (h : Path.scanPart path acc part = .ok acc') :
    ValidPart part ∧ acc'.1 = acc.1 ++ erased part ∧
      (acc'.2 = true ↔ acc.2 = true ∨ part = marker) := by
  unfold Path.scanPart at h
  split_ifs at h with hinvalid hbrace hmarker
  all_goals
    rw [not_or, not_and, not_not] at hinvalid
    cases h
  · have hne : part ≠ marker := by
      rintro rfl
      exact absurd hbrace (by decide)
    refine ⟨hinvalid, ?_, by simp [hne]⟩
    rw [erased, if_pos hbrace]
  · refine ⟨hinvalid, ?_, by simp [hmarker]⟩
    rw [erased, if_neg hbrace, if_pos hmarker, List.append_assoc]
  · refine ⟨hinvalid, ?_, by simp [hmarker]⟩
    rw [erased, if_neg hbrace, if_neg hmarker, List.append_assoc]

lemma foldlM_scanPart_ok {parts : List Bytes} {acc acc' : Bytes × Bool}
    (h : parts.foldlM (Path.scanPart path) acc = .ok acc') :
    (∀ part ∈ parts, ValidPart part) ∧ acc'.1 = acc.1 ++ parts.flatMap erased ∧
      (acc'.2 = true ↔ acc.2 = true ∨ marker ∈ parts) := by
  induction parts generalizing acc with
  | nil =>
      cases h
      simp
  | cons part parts ih =>
      rw [List.foldlM_cons] at h
      cases hscan : Path.scanPart path acc part with
      | error e =>
          rw [hscan] at h
          cases h
      | ok acc₁ =>
          rw [hscan] at h
          obtain ⟨hvalid, hepath, hwildcard⟩ := scanPart_ok hscan
          obtain ⟨hvalids, hepaths, hwildcards⟩ := ih h
          refine ⟨List.forall_mem_cons.mpr ⟨hvalid, hvalids⟩, ?_, ?_⟩
          · rw [hepaths, hepath, List.append_assoc, List.flatMap_cons]
          · rw [hwildcards, hwildcard, List.mem_cons, or_assoc, @eq_comm _ part marker]

/-- An entry as the constructor and the calls that join it leave it. -/
structure Path.WellFormed (p : Path) : Prop where
  parts : p.parts = split p.path
  epath : p.epath = p.parts.flatMap erased
  valid : ∀ part ∈ p.parts, ValidPart part
  wildcard : p.wildcard = true ↔ marker ∈ p.parts
  star : chr '*' ∉ p.path
  methods_ne_nil : p.methods ≠ []
  methods_nodup : p.methods.Nodup
  length_eq : p.methods.length = p.handlers.length

/-- What a constructed entry looks like. -/
lemma make_ok {m ref : Bytes} (h : Path.make path m k ref = .ok ps) :
    ps.path = path ∧ ps.methods = [m] ∧ ps.handlers = [k] ∧
      (chr '*' ∉ path → ps.WellFormed) := by
  rw [Path.make] at h
  cases hfold : (split path).foldlM (Path.scanPart path) ([], false) with
  | error e =>
      rw [hfold] at h
      cases h
  | ok acc =>
      rw [hfold] at h
      cases h
      obtain ⟨hvalid, hepath, hwildcard⟩ := foldlM_scanPart_ok hfold
      refine ⟨rfl, rfl, rfl, fun hstar => ?_⟩
      exact
        { parts := rfl
          epath := by rw [hepath, List.nil_append]
          valid := hvalid
          wildcard := by simpa using hwildcard
          star := hstar
          methods_ne_nil := by simp
          methods_nodup := by simp
          length_eq := rfl }

/-! ### The wildcard -/

lemma split_nil : split [] = [] := rfl

lemma split_append_slash (l l' : Bytes) : split (l ++ chr '/' :: l') = split l ++ split l' :=
  Text.split_append_delim (decide_eq_true rfl)

/-- A `*` is the last byte, behind a slash or alone. -/
lemma checkWildcard_ok {full : Bytes} (h : HttpRouter.checkWildcard full = .ok ()) :
    chr '*' ∉ full ∨ ∃ pre, full = pre ++ [chr '*'] ∧ chr '*' ∉ pre ∧
      (pre = [] ∨ ∃ pre', pre = pre' ++ [chr '/']) := by
  unfold HttpRouter.checkWildcard at h
  cases hidx : full.idxOf? (chr '*') with
  | none => exact .inl (List.idxOf?_eq_none_iff.mp hidx)
  | some idx =>
      obtain ⟨hlt, hget, hbefore⟩ := List.idxOf?_eq_some_iff.mp hidx
      rw [hidx] at h
      dsimp only at h
      split_ifs at h with hlast hslash
      refine .inr ⟨full.take idx, ?_, ?_, ?_⟩
      · rw [← hget, List.take_append_getElem hlt, List.take_of_length_le (by omega)]
      · intro hmem
        obtain ⟨j, hj, hjget⟩ := List.getElem_of_mem hmem
        rw [List.getElem_take] at hjget
        rw [List.length_take] at hj
        exact hbefore j (by omega) hjget
      · cases idx with
        | zero => exact .inl rfl
        | succ i =>
            have hslash : full[i]? = some (chr '/') := by
              by_contra hne
              exact hslash ⟨Nat.succ_pos i, hne⟩
            obtain ⟨hi, hgeti⟩ := List.getElem?_eq_some_iff.mp hslash
            refine .inr ⟨full.take i, ?_⟩
            rw [← hgeti, List.take_append_getElem hi]

lemma stored_eq_self {full : Bytes} (h : chr '*' ∉ full) : HttpRouter.stored full = full :=
  if_neg fun hlast => h (List.mem_of_getLast? hlast)

/-- **Storing a path** turns a wildcard, which is its last segment, into the marker. -/
lemma stored_cases {full : Bytes} (h : HttpRouter.checkWildcard full = .ok ()) :
    (chr '*' ∉ full ∧ HttpRouter.stored full = full) ∨
      ∃ pre, chr '*' ∉ pre ∧ split full = split pre ++ [bytesOf "*"] ∧
        HttpRouter.stored full = pre ++ marker ∧
        split (HttpRouter.stored full) = split pre ++ [marker] := by
  rcases checkWildcard_ok h with hnone | ⟨pre, rfl, hpre, hslash⟩
  · exact .inl ⟨hnone, stored_eq_self hnone⟩
  · have hstored : HttpRouter.stored (pre ++ [chr '*']) = pre ++ marker := by
      rw [HttpRouter.stored, List.getLast?_concat, if_pos rfl, List.dropLast_concat]
    have hsplit : ∀ s : Bytes, split (pre ++ s) = split pre ++ split s := by
      intro s
      rcases hslash with rfl | ⟨pre', rfl⟩
      · rfl
      · have hpre' : split (pre' ++ [chr '/']) = split pre' := by
          rw [split_append_slash, split_nil, List.append_nil]
        rw [hpre', List.append_assoc, List.singleton_append, split_append_slash]
    have hmarker : split marker = [marker] := by decide
    have hstar : split [chr '*'] = [bytesOf "*"] := by decide
    refine .inr ⟨pre, hpre, ?_, hstored, ?_⟩
    · rw [hsplit, hstar]
    · rw [hstored, hsplit, hmarker]

lemma star_not_mem_stored {full : Bytes} (h : HttpRouter.checkWildcard full = .ok ()) :
    chr '*' ∉ HttpRouter.stored full := by
  rcases stored_cases h with ⟨hnone, hstored⟩ | ⟨pre, hpre, -, hstored, -⟩
  · rwa [hstored]
  · rw [hstored, List.mem_append, not_or]
    exact ⟨hpre, by decide⟩

/-! ### What a call of `add` does -/

/-- The entry that a call joins. -/
def Path.join (iter : Path) (method : Bytes) (k : ℕ) : Path :=
  { iter with methods := iter.methods ++ [method], handlers := iter.handlers ++ [k] }

/-- A call that returns has joined an entry of the same path, or has made a new one. -/
lemma add_cases (h : r.add sorter c = .ok r') :
    r'.handlers = r.handlers ++ [c.handler] ∧
      ((∃ below iter above, r.paths = below ++ iter :: above ∧ c.path = iter.path ∧
          c.method ∉ iter.methods ∧
          r'.paths = below ++ iter.join c.method r.handlers.length :: above) ∨
        ∃ ps, Path.make (HttpRouter.stored c.path) c.method r.handlers.length c.ref = .ok ps ∧
          HttpRouter.checkWildcard c.path = .ok () ∧
          r'.paths = sorter.sort (r.paths ++ [ps])) := by
  have hnew : ∀ {found paths}, r.addPath sorter c found = .ok paths →
      ∃ ps, Path.make (HttpRouter.stored c.path) c.method r.handlers.length c.ref = .ok ps ∧
        HttpRouter.checkWildcard c.path = .ok () ∧ paths = sorter.sort (r.paths ++ [ps]) := by
    intro found paths h
    unfold HttpRouter.addPath at h
    cases hcheck : HttpRouter.checkWildcard c.path with
    | error e =>
        rw [hcheck] at h
        cases h
    | ok u =>
        cases hmake : Path.make (HttpRouter.stored c.path) c.method r.handlers.length c.ref with
        | error e =>
            rw [hcheck, hmake] at h
            cases h
        | ok ps =>
            rw [hcheck, hmake] at h
            refine ⟨ps, rfl, rfl, ?_⟩
            dsimp only [bind, Except.bind] at h
            split at h
            · split_ifs at h
              cases h
              rfl
            · cases h
              rfl
  rw [HttpRouter.add] at h
  cases hparam : r.addParameter sorter c with
  | error e =>
      rw [hparam] at h
      cases h
  | ok paths =>
      rw [hparam] at h
      cases h
      refine ⟨rfl, ?_⟩
      unfold HttpRouter.addParameter at hparam
      split at hparam
      · exact .inr (hnew hparam)
      · rename_i iter above hbound
        split_ifs at hparam with hpath hmethod
        · cases hparam
          refine .inl ⟨_, iter, above, ?_, hpath, ?_, rfl⟩
          · rw [← hbound]
            exact List.takeWhile_append_dropWhile.symm
          · rw [Path.indexOf, List.isSome_idxOf?] at hmethod
            exact hmethod
        · exact .inr (hnew hparam)

/-! ### The methods of an entry -/

/-- The handler of a method stands at its side. -/
lemma handlerOf_eq_some_iff (hnodup : p.methods.Nodup) :
    p.handlerOf method = some k ↔ (method, k) ∈ p.methods.zip p.handlers := by
  rw [Path.handlerOf, Path.indexOf, Option.bind_eq_some_iff]
  constructor
  · rintro ⟨i, hi, hk⟩
    obtain ⟨hlt, hmethod, -⟩ := List.idxOf?_eq_some_iff.mp hi
    have hzip : (p.methods.zip p.handlers)[i]? = some (method, k) := by
      rw [List.getElem?_zip_eq_some]
      exact ⟨List.getElem?_eq_some_iff.mpr ⟨hlt, hmethod⟩, hk⟩
    exact List.mem_of_getElem? hzip
  · intro hmem
    obtain ⟨i, hi⟩ := List.mem_iff_getElem?.mp hmem
    rw [List.getElem?_zip_eq_some] at hi
    obtain ⟨hlt, hmethod⟩ := List.getElem?_eq_some_iff.mp hi.1
    refine ⟨i, List.idxOf?_eq_some_iff.mpr ⟨hlt, hmethod, fun j hj heq => ?_⟩, hi.2⟩
    exact hj.ne (hnodup.getElem_inj_iff.mp (heq.trans hmethod.symm))

lemma handlerOf_eq_none_iff (hlength : p.methods.length = p.handlers.length) :
    p.handlerOf method = none ↔ method ∉ p.methods := by
  rw [Path.handlerOf, Path.indexOf, Option.bind_eq_none_iff]
  constructor
  · intro hnone hmem
    cases hi : p.methods.idxOf? method with
    | none => exact List.idxOf?_eq_none_iff.mp hi hmem
    | some i =>
        obtain ⟨hlt, -⟩ := List.idxOf?_eq_some_iff.mp hi
        have hge : p.methods.length ≤ i := by
          rw [hlength]
          exact List.getElem?_eq_none_iff.mp (hnone i hi)
        exact absurd hlt (not_lt.mpr hge)
  · intro hnot i hi
    rw [List.idxOf?_eq_none_iff.mpr hnot] at hi
    cases hi

/-! ### The ledger -/

/-- The calls that have returned, as the router shows them. -/
structure Ledger (r : HttpRouter H) (done : List (AddCall H)) : Prop where
  sorted : LowerBound.Sorted Path.path r.paths
  handlers : r.handlers = done.map AddCall.handler
  entries : ∀ p ∈ r.paths, p.WellFormed
  /-- Each index is used once. -/
  indices : (r.paths.flatMap Path.handlers).Perm (List.range done.length)
  checked : ∀ c ∈ done, HttpRouter.checkWildcard c.path = .ok ()
  routes : ∀ p ∈ r.paths, ∀ t ∈ p.methods.zip p.handlers,
    ∃ c, done[t.2]? = some c ∧ c.method = t.1 ∧ HttpRouter.stored c.path = p.path
  complete : ∀ k c, done[k]? = some c →
    ∃ p ∈ r.paths, p.path = HttpRouter.stored c.path ∧ (c.method, k) ∈ p.methods.zip p.handlers

lemma Path.WellFormed.zip_ne_nil (h : p.WellFormed) : p.methods.zip p.handlers ≠ [] := by
  rw [Ne, List.zip_eq_nil_iff, not_or]
  refine ⟨h.methods_ne_nil, fun hnil => h.methods_ne_nil ?_⟩
  rw [← List.length_eq_zero_iff, h.length_eq, hnil, List.length_nil]

/-- Every entry was made for a call. -/
lemma Ledger.exists_call (h : Ledger r done) (hp : p ∈ r.paths) :
    ∃ k c, (c.method, k) ∈ p.methods.zip p.handlers ∧ done[k]? = some c ∧
      HttpRouter.stored c.path = p.path := by
  obtain ⟨t, ht⟩ := List.exists_mem_of_ne_nil _ (h.entries p hp).zip_ne_nil
  obtain ⟨c, hc, hmethod, hpath⟩ := h.routes p hp t ht
  refine ⟨t.2, c, ?_, hc, hpath⟩
  rw [hmethod]
  exact ht

/-- Any call is one of the earlier ones or the new one. -/
private lemma getElem?_concat {c' : AddCall H} (h : (done ++ [c])[k]? = some c') :
    done[k]? = some c' ∨ k = done.length ∧ c' = c := by
  rcases Nat.lt_or_ge k done.length with hlt | hge
  · rw [List.getElem?_append_left hlt] at h
    exact .inl h
  · obtain ⟨hlt, -⟩ := List.getElem?_eq_some_iff.mp h
    have hk : k = done.length := by
      rw [List.length_append, List.length_singleton] at hlt
      omega
    subst hk
    rw [List.getElem?_concat_length] at h
    exact .inr ⟨rfl, (Option.some.inj h).symm⟩

/-- An entry keeps its routes when a call is added. -/
private lemma routes_mono
    (h : ∀ t ∈ p.methods.zip p.handlers,
      ∃ c, done[t.2]? = some c ∧ c.method = t.1 ∧ HttpRouter.stored c.path = p.path) :
    ∀ t ∈ p.methods.zip p.handlers,
      ∃ c', (done ++ [c])[t.2]? = some c' ∧ c'.method = t.1 ∧
        HttpRouter.stored c'.path = p.path := by
  intro t ht
  obtain ⟨c', hc', hrest⟩ := h t ht
  refine ⟨c', ?_, hrest⟩
  rw [List.getElem?_append_left (List.getElem?_eq_some_iff.mp hc').1, hc']

lemma Path.WellFormed.join (h : p.WellFormed) (hmethod : method ∉ p.methods) :
    (p.join method k).WellFormed :=
  { h with
    methods_ne_nil := by simp [Path.join]
    methods_nodup := by
      rw [Path.join, List.nodup_append']
      exact ⟨h.methods_nodup, List.nodup_singleton _, by simpa using hmethod⟩
    length_eq := by simp [Path.join, h.length_eq] }

lemma Path.WellFormed.zip_join (h : p.WellFormed) :
    (p.join method k).methods.zip (p.join method k).handlers =
      p.methods.zip p.handlers ++ [(method, k)] :=
  List.zip_append h.length_eq

/-- A call that joins an entry. -/
lemma Ledger.join (h : Ledger r done) (hhandlers : r'.handlers = (done ++ [c]).map AddCall.handler)
    {below above : List Path} {iter : Path} (hpaths : r.paths = below ++ iter :: above)
    (hpath : c.path = iter.path) (hmethod : c.method ∉ iter.methods)
    (hpaths' : r'.paths = below ++ iter.join c.method done.length :: above) :
    Ledger r' (done ++ [c]) := by
  have hiter := h.entries iter (by simp [hpaths])
  have hstar : chr '*' ∉ c.path := hpath ▸ hiter.star
  have hzip : (iter.join c.method done.length).methods.zip
      (iter.join c.method done.length).handlers =
        iter.methods.zip iter.handlers ++ [(c.method, done.length)] := hiter.zip_join
  have hcases : ∀ p ∈ r'.paths, p ∈ r.paths ∨ p = iter.join c.method done.length := by
    intro p hp
    rw [hpaths', List.mem_append, List.mem_cons] at hp
    rw [hpaths, List.mem_append, List.mem_cons]
    tauto
  constructor
  · have hmap : r'.paths.map Path.path = r.paths.map Path.path := by
      rw [hpaths', hpaths]
      simp [Path.join]
    have hsorted := h.sorted
    rw [LowerBound.Sorted, ← List.pairwise_map] at hsorted ⊢
    rw [hmap]
    exact hsorted
  · exact hhandlers
  · intro p hp
    rcases hcases p hp with hp | rfl
    · exact h.entries p hp
    · exact hiter.join hmethod
  · have hindices := h.indices
    rw [hpaths, List.flatMap_append, List.flatMap_cons] at hindices
    rw [hpaths', List.flatMap_append, List.flatMap_cons, List.length_append,
      List.length_singleton, List.range_succ, Path.join, List.append_assoc iter.handlers]
    refine List.Perm.trans ?_ (hindices.append_right _)
    rw [List.append_assoc, List.append_assoc]
    exact ((List.perm_append_comm.append_left _).append_left _)
  · intro c' hc'
    rcases List.mem_append.mp hc' with hc' | hc'
    · exact h.checked c' hc'
    · rw [List.mem_singleton.mp hc', HttpRouter.checkWildcard, List.idxOf?_eq_none_iff.mpr hstar]
  · intro p hp
    rcases hcases p hp with hp | rfl
    · exact routes_mono (h.routes p hp)
    · intro t ht
      rw [hzip] at ht
      rcases List.mem_append.mp ht with ht | ht
      · exact routes_mono (h.routes iter (by simp [hpaths])) t ht
      · rw [List.mem_singleton.mp ht]
        refine ⟨c, by simp, rfl, ?_⟩
        rw [stored_eq_self hstar]
        exact hpath
  · intro k c' hc'
    rw [hpaths']
    rcases getElem?_concat hc' with hc' | ⟨rfl, rfl⟩
    · obtain ⟨p, hp, hroute⟩ := h.complete k c' hc'
      rw [hpaths, List.mem_append, List.mem_cons] at hp
      rcases hp with hp | rfl | hp
      · exact ⟨p, by simp [hp], hroute⟩
      · refine ⟨p.join c.method done.length, by simp, hroute.1, ?_⟩
        rw [hzip]
        exact List.mem_append_left _ hroute.2
      · exact ⟨p, by simp [hp], hroute⟩
    · refine ⟨iter.join c'.method done.length, by simp, ?_, ?_⟩
      · rw [stored_eq_self hstar]
        exact hpath.symm
      · rw [hzip]
        exact List.mem_append_right _ (List.mem_singleton_self _)

/-- A call that makes an entry. -/
lemma Ledger.insert (h : Ledger r done)
    (hhandlers : r'.handlers = (done ++ [c]).map AddCall.handler)
    (hmake : Path.make (HttpRouter.stored c.path) c.method done.length c.ref = .ok ps)
    (hcheck : HttpRouter.checkWildcard c.path = .ok ())
    (hpaths' : r'.paths = sorter.sort (r.paths ++ [ps])) : Ledger r' (done ++ [c]) := by
  obtain ⟨hpath, hmethods, hhandler, hps⟩ := make_ok hmake
  have hzip : ps.methods.zip ps.handlers = [(c.method, done.length)] := by
    rw [hmethods, hhandler]
    rfl
  have hmem : ∀ p, p ∈ r'.paths ↔ p ∈ r.paths ∨ p = ps := by
    intro p
    rw [hpaths', (sorter.perm _).mem_iff, List.mem_append, List.mem_singleton]
  constructor
  · rw [hpaths']
    exact sorter.sorted _
  · exact hhandlers
  · intro p hp
    rcases (hmem p).mp hp with hp | rfl
    · exact h.entries p hp
    · exact hps (star_not_mem_stored hcheck)
  · rw [hpaths', List.length_append, List.length_singleton, List.range_succ]
    refine ((sorter.perm _).flatMap_right _).trans ?_
    rw [List.flatMap_append, List.flatMap_singleton, hhandler]
    exact h.indices.append_right _
  · intro c' hc'
    rcases List.mem_append.mp hc' with hc' | hc'
    · exact h.checked c' hc'
    · rw [List.mem_singleton.mp hc']
      exact hcheck
  · intro p hp
    rcases (hmem p).mp hp with hp | rfl
    · exact routes_mono (h.routes p hp)
    · intro t ht
      rw [hzip] at ht
      rw [List.mem_singleton.mp ht]
      exact ⟨c, by simp, rfl, hpath.symm⟩
  · intro k c' hc'
    rcases getElem?_concat hc' with hc' | ⟨rfl, rfl⟩
    · obtain ⟨p, hp, hroute⟩ := h.complete k c' hc'
      exact ⟨p, (hmem p).mpr (.inl hp), hroute⟩
    · refine ⟨ps, (hmem ps).mpr (.inr rfl), hpath, ?_⟩
      rw [hzip]
      exact List.mem_singleton_self _

/-- **One call** of `add` that returns enters itself. -/
lemma Ledger.add (h : Ledger r done) (hadd : r.add sorter c = .ok r') :
    Ledger r' (done ++ [c]) := by
  have hlength : r.handlers.length = done.length := by rw [h.handlers, List.length_map]
  obtain ⟨hhandlers, hcases⟩ := add_cases hadd
  rw [hlength] at hcases
  have hhandlers' : r'.handlers = (done ++ [c]).map AddCall.handler := by
    rw [hhandlers, h.handlers, List.map_append]
    rfl
  rcases hcases with ⟨below, iter, above, hpaths, hpath, hmethod, hpaths'⟩ |
    ⟨ps, hmake, hcheck, hpaths'⟩
  · exact h.join hhandlers' hpaths hpath hmethod hpaths'
  · exact h.insert hhandlers' hmake hcheck hpaths'

lemma ledger_make {error404 error405 : Bool} :
    Ledger (HttpRouter.make error404 error405 : HttpRouter H) [] where
  sorted := List.Pairwise.nil
  handlers := rfl
  entries := fun _ hp => by cases hp
  indices := List.Perm.nil
  checked := fun _ hc => by cases hc
  routes := fun _ hp => by cases hp
  complete := fun _ _ hc => by cases hc

/-- The handlers for errors are not touched. -/
lemma add_configured (h : r.add sorter c = .ok r') :
    r'.notFound = r.notFound ∧ r'.methodNotAllowed = r.methodNotAllowed := by
  rw [HttpRouter.add] at h
  cases hpaths : r.addParameter sorter c with
  | error e =>
      rw [hpaths] at h
      cases h
  | ok paths =>
      rw [hpaths] at h
      cases h
      exact ⟨rfl, rfl⟩

/-- A sequence of calls that return. -/
lemma Ledger.addAll (h : Ledger r done) (hadd : r.addAll sorter calls = .ok r') :
    Ledger r' (done ++ calls) ∧ r'.notFound = r.notFound ∧
      r'.methodNotAllowed = r.methodNotAllowed := by
  induction calls generalizing r done with
  | nil =>
      cases hadd
      rw [List.append_nil]
      exact ⟨h, rfl, rfl⟩
  | cons c calls ih =>
      rw [HttpRouter.addAll, List.foldlM_cons] at hadd
      cases hone : r.add sorter c with
      | error e =>
          rw [hone] at hadd
          cases hadd
      | ok r₁ =>
          rw [hone] at hadd
          obtain ⟨hledger, hnotFound, hmethod⟩ := ih (h.add hone) hadd
          obtain ⟨hnotFound₁, hmethod₁⟩ := add_configured hone
          rw [List.append_assoc, List.singleton_append] at hledger
          exact ⟨hledger, hnotFound.trans hnotFound₁, hmethod.trans hmethod₁⟩

/-- **All calls** that have filled a router are in its ledger. -/
lemma ledger_addAll {error404 error405 : Bool}
    (hadd : (HttpRouter.make error404 error405).addAll sorter calls = .ok r) : Ledger r calls :=
  (ledger_make.addAll hadd).1

variable (sorter r calls) in
/-- A call that throws leaves the router as it was, so the calls that return make the same one. -/
lemma attemptAll_eq :
    ∃ done, done.Sublist calls ∧ r.addAll sorter done = .ok (r.attemptAll sorter calls) := by
  induction calls generalizing r with
  | nil => exact ⟨[], List.Sublist.refl _, rfl⟩
  | cons c calls ih =>
      rw [HttpRouter.attemptAll, List.foldl_cons]
      cases hone : r.add sorter c with
      | error e =>
          obtain ⟨done, hdone, heq⟩ := ih r
          exact ⟨done, hdone.cons c, heq⟩
      | ok r₁ =>
          obtain ⟨done, hdone, heq⟩ := ih r₁
          refine ⟨c :: done, hdone.cons_cons c, ?_⟩
          rw [HttpRouter.addAll, List.foldlM_cons, hone]
          exact heq

/-! ### `add`, statement by statement -/

/-- What a function throws, and the router that it leaves. -/
abbrev Effect (H : Type*) := Except RouterError Unit × HttpRouter H

namespace Stateful

/-- `iter->methods.push_back`. -/
def pushMethod (iter : ℕ) (m : Bytes) (r : HttpRouter H) : HttpRouter H :=
  { r with paths := r.paths.modify iter fun p => { p with methods := p.methods ++ [m] } }

/-- `iter->handlers.push_back`. -/
def pushIndex (iter k : ℕ) (r : HttpRouter H) : HttpRouter H :=
  { r with paths := r.paths.modify iter fun p => { p with handlers := p.handlers ++ [k] } }

/-- `paths.push_back`. -/
def pushPath (ps : Path) (r : HttpRouter H) : HttpRouter H := { r with paths := r.paths ++ [ps] }

/-- `std::sort`. -/
def sortPaths (sorter : Sorter) (r : HttpRouter H) : HttpRouter H :=
  { r with paths := sorter.sort r.paths }

/-- `handlers.push_back`. -/
def pushHandler (handler : H) (r : HttpRouter H) : HttpRouter H :=
  { r with handlers := r.handlers ++ [handler] }

/-- The second half of `addParameter`, with the methods that the clash test looks at. -/
def addPath (sorter : Sorter) (c : AddCall H) (found : List Bytes) (r : HttpRouter H) : Effect H :=
  match HttpRouter.checkWildcard c.path with
  | .error e => (.error e, r)
  | .ok () =>
      match Path.make (HttpRouter.stored c.path) c.method r.handlers.length c.ref with
      | .error e => (.error e, r)
      | .ok ps =>
          match r.paths.find? (·.epath = ps.epath) with
          | some p =>
              if c.method ∈ found then
                (.error (.duplicateRoute
                  (bytesOf "Duplicate path " ++ ps.path ++ bytesOf " clashes with " ++ p.path)), r)
              else (.ok (), sortPaths sorter (pushPath ps r))
          | none => (.ok (), sortPaths sorter (pushPath ps r))

def addParameter (sorter : Sorter) (c : AddCall H) (r : HttpRouter H) : Effect H :=
  match LowerBound.lowerBound Path.path c.path r.paths with
  | [] => addPath sorter c c.beyond r
  | p :: _ =>
      if c.path = p.path then
        if (p.indexOf c.method).isSome then
          (.error (.duplicateRoute
            (bytesOf "Duplicate path " ++ c.path ++ bytesOf " for method " ++ c.method)), r)
        else
          let iter := (r.paths.takeWhile fun p => p.path < c.path).length
          let r := pushMethod iter c.method r
          (.ok (), pushIndex iter r.handlers.length r)
      else addPath sorter c p.methods r

def add (sorter : Sorter) (c : AddCall H) (r : HttpRouter H) : Effect H :=
  match addParameter sorter c r with
  | (.error e, r) => (.error e, r)
  | (.ok (), r) => (.ok (), pushHandler c.handler r)

/-- A sequence of calls whose exceptions are caught; with the router come the calls that have
returned, in order. -/
def run (sorter : Sorter) : List (AddCall H) → HttpRouter H → HttpRouter H × List (AddCall H)
  | [], r => (r, [])
  | c :: calls, r =>
      match add sorter c r with
      | (.ok (), r) => ((run sorter calls r).1, c :: (run sorter calls r).2)
      | (.error _, r) => run sorter calls r

/-- What a function does that gives a new vector or throws. -/
def effect (r : HttpRouter H) : Except RouterError (List Path) → Effect H
  | .ok paths => (.ok (), { r with paths })
  | .error e => (.error e, r)

lemma addPath_eq (found : List Bytes) :
    addPath sorter c found r = effect r (r.addPath sorter c found) := by
  unfold addPath HttpRouter.addPath
  cases HttpRouter.checkWildcard c.path with
  | error e => rfl
  | ok u =>
      cases Path.make (HttpRouter.stored c.path) c.method r.handlers.length c.ref with
      | error e => rfl
      | ok ps =>
          dsimp only [bind, Except.bind]
          cases r.paths.find? (·.epath = ps.epath) with
          | none => rfl
          | some p =>
              dsimp only
              split_ifs <;> rfl

private lemma modify_append_length {α : Type*} {f : α → α} {a : α} (l l' : List α) :
    (l ++ a :: l').modify l.length f = l ++ f a :: l' := by
  induction l with
  | nil => rfl
  | cons b l ih =>
      rw [List.cons_append, List.length_cons, List.modify_succ_cons, ih]
      rfl

lemma addParameter_eq : addParameter sorter c r = effect r (r.addParameter sorter c) := by
  unfold addParameter HttpRouter.addParameter
  cases hbound : LowerBound.lowerBound Path.path c.path r.paths with
  | nil => exact addPath_eq c.beyond
  | cons p above =>
      dsimp only
      split_ifs with hpath hmethod
      · rfl
      · have hpaths : r.paths = (r.paths.takeWhile fun p => p.path < c.path) ++ p :: above := by
          rw [← hbound]
          exact List.takeWhile_append_dropWhile.symm
        generalize (r.paths.takeWhile fun p => p.path < c.path) = below at hpaths ⊢
        dsimp only [pushIndex, pushMethod]
        rw [hpaths, modify_append_length, modify_append_length]
        rfl
      · exact addPath_eq p.methods

variable (sorter r c) in
/-- **A call that throws has changed nothing**, and one that returns has done what `add` says. -/
lemma add_eq : add sorter c r =
    match r.add sorter c with
    | .ok r' => (.ok (), r')
    | .error e => (.error e, r) := by
  rw [add, addParameter_eq, HttpRouter.add]
  cases r.addParameter sorter c with
  | error e => rfl
  | ok paths => rfl

/-- The run makes the router of the calls that have returned. -/
lemma run_eq : r.addAll sorter (run sorter calls r).2 = .ok (run sorter calls r).1 := by
  induction calls generalizing r with
  | nil => rfl
  | cons c calls ih =>
      rw [run, add_eq]
      cases hadd : r.add sorter c with
      | error e => exact ih
      | ok r₁ =>
          rw [HttpRouter.addAll, List.foldlM_cons, hadd]
          exact ih

variable (sorter r calls) in
/-- The calls that have returned are among those that were made. -/
lemma run_sublist : (run sorter calls r).2.Sublist calls := by
  induction calls generalizing r with
  | nil => exact List.Sublist.slnil
  | cons c calls ih =>
      rw [run, add_eq]
      cases r.add sorter c with
      | error e => exact (ih r).cons c
      | ok r₁ => exact (ih r₁).cons_cons c

end Stateful

/-! ### The representation invariant -/

/-- A router represents the calls that have returned. -/
structure Represents (r : HttpRouter H) (done : List (AddCall H)) : Prop where
  sorted : LowerBound.Sorted Path.path r.paths
  lengths : ∀ p ∈ r.paths, p.methods.length = p.handlers.length ∧ 0 < p.methods.length
  methods : ∀ p ∈ r.paths, p.methods.Nodup
  indices : (r.paths.flatMap Path.handlers).Perm (List.range r.handlers.length)
  found : ∀ k c, done[k]? = some c →
    ∃ p ∈ r.paths, p.path = HttpRouter.stored c.path ∧
      ∃ i, p.indexOf c.method = some i ∧ p.handlers[i]? = some k ∧ r.handlers[k]? = some c.handler

lemma Ledger.represents (h : Ledger r done) : Represents r done where
  sorted := h.sorted
  lengths := fun p hp => ⟨(h.entries p hp).length_eq,
    List.length_pos_of_ne_nil (h.entries p hp).methods_ne_nil⟩
  methods := fun p hp => (h.entries p hp).methods_nodup
  indices := by
    rw [h.handlers, List.length_map]
    exact h.indices
  found := fun k c hc => by
    obtain ⟨p, hp, hpath, hroute⟩ := h.complete k c hc
    have hentry := h.entries p hp
    have hk := (handlerOf_eq_some_iff hentry.methods_nodup).mpr hroute
    rw [Path.handlerOf, Option.bind_eq_some_iff] at hk
    obtain ⟨i, hi, hget⟩ := hk
    refine ⟨p, hp, hpath, i, hi, hget, ?_⟩
    rw [h.handlers, List.getElem?_map, hc]
    rfl

/-- **The representation invariant** holds after any calls of `add`, whichever of them throw, and a
call that throws leaves the router as it was. -/
theorem represents_run (sorter : Sorter) (error404 error405 : Bool) (calls : List (AddCall H)) :
    let after := Stateful.run sorter calls (HttpRouter.make error404 error405)
    Represents after.1 after.2 ∧
      ∀ c e r', Stateful.add sorter c after.1 = (.error e, r') → r' = after.1 := by
  intro after
  refine ⟨(ledger_addAll Stateful.run_eq).represents, fun c e r' hthrow => ?_⟩
  rw [Stateful.add_eq] at hthrow
  cases hadd : after.1.add sorter c with
  | ok r₁ =>
      rw [hadd] at hthrow
      cases hthrow
  | error e' =>
      rw [hadd] at hthrow
      exact (Prod.mk.inj hthrow).2.symm

end Router

end S3Proxy
