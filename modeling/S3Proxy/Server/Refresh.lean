import S3Proxy.Server.Triple

/-!
# Failing refreshes

`AllOrNothing` is what a refresh should do whichever of its operations fails: leave the triple of
the object as it was, or bring all of it to the new version, and return an object only in the second
case.

The stream that writes the temporary raises no exception, and the `.gz` file is replaced before the
plain file.  `Recoverable` says which outcomes the refresh survives all the same, in terms of the
triple before, the content of the temporary, and how the operations go.

## Main result

`S3Util.allOrNothing_get_iff`: a call that gets a version from the bucket does all of its work on
the triple, or nothing, exactly if it is recoverable.  That is the case if the compressed file
cannot be refreshed, if everything is renamed and the temporary holds the whole version, or if
nothing is renamed, and either the compressed file stays what it was or the other artefacts were
those of the version already.

`allOrNothing_download_iff` is the same for a download on a triple, where the three cases of
`Triple.download` are the three cases of the condition.  `describes_renamed_iff` says when the
triple after a rename describes the version, and `map_gz_eq_iff` and `describes_map_gz_iff` the same
for a triple of which only the compressed file is new.

## Hypotheses

The lookup finds nothing and the bucket answers with the version.  The triple before may be any,
also one that no run leads to.

## Where it is used

`S3Util.newObject_describes` goes on to `Server.Site`, `Server.Interleaving` and
`Server.Consistency`.  What the result rests on is `download_triple` of `Server.Triple`.
-/

namespace S3Proxy

/-- The refresh did all of its work on the triple, or nothing. -/
def AllOrNothing (gzip : Gzip) (v : Version) (before after : Triple)
    (result : Option S3Object) : Prop :=
  (after = before ∨ after.Describes gzip v) ∧ (result.isSome → after.Describes gzip v)

/-- The refresh is not left half done.  Either the compression throws, before anything is
published; or the temporary holds the whole body and is renamed; or it is not renamed, and the
`.gz` file either is not there, or has that content already, or is the last part that the triple
needs to describe the new version. -/
def Recoverable (gzip : Gzip) (v : Version) (t : Triple) (temp : Option Bytes)
    (compress : CompressOutcome) (renames : Bool) : Prop :=
  (t.gz.isSome ∧ compress ≠ .completes) ∨
  (renames ∧ temp = some v.body) ∨
  ((renames = false ∨ temp = none) ∧
    (t.gz = none ∨ t.gz = some (gzip.compress (temp.getD [])) ∨
      (temp.getD [] = v.body ∧ t.plain = some v.body ∧
        ∃ obj, t.entry = some obj ∧ obj.Describes v)))

namespace Triple

variable {gzip : Gzip} {v : Version} {t : Triple} {obj : S3Object} {temp : Option Bytes}
  {compress : CompressOutcome} {renames : Bool}

/-- The triple after a rename describes the new version exactly if all of it was renamed. -/
lemma describes_renamed_iff (hobj : obj.Describes v) {b : Bytes} :
    Describes gzip ⟨some obj, some b, t.gz.map fun _ => gzip.compress b⟩ v ↔ b = v.body := by
  constructor
  · exact fun h => Option.some.inj h.plain
  · rintro rfl
    refine ⟨⟨obj, rfl, hobj⟩, rfl, fun g hg => ?_⟩
    obtain ⟨g', -, rfl⟩ := Option.map_eq_some_iff.mp hg
    exact gzip.decompress_compress _

/-- A new `.gz` file makes no difference exactly if it replaces the same content, or none. -/
lemma map_gz_eq_iff {b : Bytes} :
    ({ t with gz := t.gz.map fun _ => b } : Triple) = t ↔ t.gz = none ∨ t.gz = some b := by
  rw [Triple.ext_iff]
  cases t.gz with
  | none => simp
  | some g => simp [eq_comm]

/-- A triple with a new `.gz` file describes the version if its other parts do, and the gzip is
that of the body. -/
lemma describes_map_gz_iff {b : Bytes} :
    Describes gzip { t with gz := t.gz.map fun _ => gzip.compress b } v ↔
      (t.gz.isSome → b = v.body) ∧ t.plain = some v.body ∧
        ∃ obj, t.entry = some obj ∧ obj.Describes v := by
  constructor
  · intro h
    refine ⟨fun hgz => ?_, h.plain, h.entry⟩
    obtain ⟨g, hg⟩ := Option.isSome_iff_exists.mp hgz
    rw [← gzip.decompress_compress b]
    exact h.gz _ (by simp only [hg, Option.map_some])
  · rintro ⟨hb, hplain, hentry⟩
    refine ⟨hentry, hplain, fun g hg => ?_⟩
    obtain ⟨g', hg', rfl⟩ := Option.map_eq_some_iff.mp hg
    rw [gzip.decompress_compress, hb (by rw [hg', Option.isSome_some])]

/-- The refresh of a triple is all or nothing exactly if it is recoverable. -/
lemma allOrNothing_download_iff (hobj : obj.Describes v) :
    AllOrNothing gzip v t (t.download gzip obj temp compress renames).2
        (t.download gzip obj temp compress renames).1 ↔
      Recoverable gzip v t temp compress renames := by
  by_cases hthrows : t.gz.isSome ∧ compress ≠ .completes
  · rw [download_of_throws hthrows.1 hthrows.2]
    exact ⟨fun _ => .inl hthrows, fun _ => ⟨.inl rfl, fun h => absurd h (by simp)⟩⟩
  have hc : t.gz.isSome → compress = .completes := fun h => not_not.mp fun hne => hthrows ⟨h, hne⟩
  by_cases hstuck : renames = false ∨ temp = none
  · rw [download_of_stuck hc hstuck]
    have hren : ¬ (renames = true ∧ temp = some v.body) := by
      rintro ⟨rfl, rfl⟩
      simp at hstuck
    simp only [AllOrNothing, Recoverable, hthrows, hren, hstuck, map_gz_eq_iff,
      describes_map_gz_iff, Option.isSome_none, Bool.false_eq_true, false_implies, and_true,
      false_or, true_and]
    cases hgz : t.gz with
    | none => simp
    | some g => simp
  · rw [not_or, Bool.not_eq_false] at hstuck
    obtain ⟨rfl, htemp⟩ := hstuck
    obtain ⟨b, rfl⟩ := Option.ne_none_iff_exists'.mp htemp
    rw [download_of_renamed hc]
    simp only [AllOrNothing, Recoverable, hthrows, describes_renamed_iff hobj, Option.isSome_some,
      true_implies, Option.some.injEq, Bool.true_eq_false, reduceCtorEq, or_self, false_and,
      or_false, false_or, true_and]
    exact ⟨And.right, fun h => ⟨.inr h, h⟩⟩

end Triple

variable {p : Platform} {conf : Configuration} {env : Fetch} {name : String} {w : World}

lemma S3Util.newObject_describes (v : Version) : (newObject p conf env name v).Describes v :=
  ⟨rfl, rfl, v.contentLength_eq⟩

/-- **Failing refreshes.**  A call that gets a version from the bucket does all of its work on
the triple, or nothing, exactly if its outcome is recoverable. -/
theorem S3Util.allOrNothing_get_iff {v : Version} (hlookup : lookup env.lookupTime name w = none)
    (hanswer : env.answer = .success v) :
    AllOrNothing p.gzip v (w.triple p conf name)
        ((get p conf env name w).2.triple p conf name) (get p conf env name w).1 ↔
      Recoverable p.gzip v (w.triple p conf name)
        (env.write.stored v.body (w.files (targetName (fileName p conf name) env.targetTime)))
        env.compress env.renames := by
  rw [get_of_success hlookup hanswer]
  obtain ⟨hres, hafter⟩ := Prod.mk.inj (download_triple p conf env name w v)
  rw [hres, hafter]
  exact Triple.allOrNothing_download_iff (newObject_describes v)

/-- On an empty directory a rename that fails leaves nothing behind. -/
theorem S3Util.allOrNothing_get_without_rename :
    AllOrNothing Gzip.framed (.plainText [1, 2, 3] "e" 0) (World.init.triple .sample {} "/a")
      ((get .sample {} { Fetch.at 0 (.plainText [1, 2, 3] "e" 0) with renames := false }
        "/a" .init).2.triple .sample {} "/a")
      (get .sample {} { Fetch.at 0 (.plainText [1, 2, 3] "e" 0) with renames := false }
        "/a" .init).1 :=
  (allOrNothing_get_iff (by decide) rfl).mpr (.inr (.inr ⟨.inl rfl, .inl rfl⟩))

/-- A short write is published: one byte of three under the etag of the new version. -/
theorem S3Util.not_allOrNothing_get_short :
    ¬ AllOrNothing Gzip.framed (.plainText [1, 2, 3] "e" 0)
      (World.init.triple .sample {} "/a")
      ((get .sample {} { Fetch.at 0 (.plainText [1, 2, 3] "e" 0) with write := .short 1 }
        "/a" .init).2.triple .sample {} "/a")
      (get .sample {} { Fetch.at 0 (.plainText [1, 2, 3] "e" 0) with write := .short 1 }
        "/a" .init).1 := by
  intro h
  have hplain := (h.2 (by decide)).plain
  exact absurd hplain (by decide)

end S3Proxy
