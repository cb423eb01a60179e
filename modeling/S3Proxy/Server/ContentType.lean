import S3Proxy.Library.Split
import S3Proxy.Server.Resource

/-!
# Content types by extension

`mime_type` and `should_compress` get the cache directory and the path of the resource in one text,
and take the extension from its last dot.  A dot in front of the last segment does no harm: the
extension then has a `/`, which no listed one has (`extension_pathCat_of_plain`).

Eight extensions of `mime_type` are written without their dots.  As the extension it compares them
with begins with one, these tests never succeed; for `flv` there is another one.

## Main result

`typed_iff`: a resource has the type of its extension, as `Typed` says, exactly unless its last
segment ends in one of the extensions that are only listed without a dot (`undotted`).  `Typed` also
says that only the last segment of the path counts, whatever the cache directory is called, and that
a segment without a dot has the default type and is not compressed.

`extension_pathCat` and `extension_pathCat_of_plain` are the two cases of where the last dot is.
From there on everything is about the extension alone: `mimeType_eq` and `shouldCompress_eq` say so,
and `typeOf_listed` and `typeOf_undotted` go through the tables of the source by evaluation.  Letter
case is taken care of once, in `iequals_congr`.

## Hypotheses

The path has a `/`, which every path that the handler does not refuse has (`Server.Target`).

## Where it is used

`mimeType` and `shouldCompress` are those of `Server.Resource`, which asks the second before it
looks for a compressed file.
-/

namespace S3Proxy

namespace Impl

/-! ### What is expected -/

/-- What stands behind the last `/`. -/
def lastSegment (path : String) : List Char := path.toList.rtakeWhile (· ≠ '/')

/-- The extensions that `mime_type` lists, without the dots, and the types. -/
def listed : List (List Char × String) :=
  mimeTypes.map fun e =>
    (if e.1.toList.head? = some '.' then e.1.toList.tail else e.1.toList, e.2)

/-- The segment ends in a dot and the extension, in any letter case. -/
def EndsIn (segment ext : List Char) : Prop :=
  ∃ tail ∈ segment.tails, tail.head? = some '.' ∧ iequals tail.tail ext

instance (segment ext : List Char) : Decidable (EndsIn segment ext) :=
  inferInstanceAs (Decidable (∃ tail ∈ segment.tails, tail.head? = some '.' ∧
    iequals tail.tail ext))

/-- The content type and the compression depend on the extension of the last segment only: it has
the type it is listed with, and without a dot there is none. -/
structure Typed (cacheDir path : String) : Prop where
  segment : mimeType (pathCat cacheDir path) = mimeType (String.ofList (lastSegment path)) ∧
    shouldCompress (pathCat cacheDir path) = shouldCompress (String.ofList (lastSegment path))
  listed : ∀ e ∈ listed, EndsIn (lastSegment path) e.1 →
    mimeType (pathCat cacheDir path) = e.2
  plain : '.' ∉ lastSegment path → mimeType (pathCat cacheDir path) = "application/text" ∧
    shouldCompress (pathCat cacheDir path) = false

/-- The extensions that are only listed without their dots. -/
def undotted : List (List Char) :=
  ["webm".toList, "m4v".toList, "mng".toList, "asf".toList, "asx".toList, "wmv".toList,
    "avi".toList]

/-! ### The extension of a path -/

variable {cacheDir path : String} {a b l p q : List Char}

lemma extension_of_mem (h : '.' ∈ path.toList) :
    extension path = '.' :: path.toList.rtakeWhile (· ≠ '.') := by
  rw [extension, if_pos h]
  rfl

/-- The extension begins at the last dot. -/
lemma extension_of_append (h : path.toList = p ++ '.' :: q) (hq : '.' ∉ q) :
    extension path = '.' :: q := by
  have hmem : '.' ∈ path.toList := by simp [h]
  rw [extension_of_mem hmem, h, Text.rtakeWhile_append_cons hq]

lemma toList_pathCat (cacheDir path : String) :
    ∃ base, (pathCat cacheDir path).toList = base ++ path.toList := by
  unfold pathCat
  split_ifs with hempty hslash
  · exact ⟨[], rfl⟩
  · exact ⟨cacheDir.toList.dropLast, by rw [String.toList_append, String.toList_ofList]⟩
  · exact ⟨cacheDir.toList, String.toList_append⟩

/-- The last segment of the path is behind a `/` in the text that the two functions get. -/
lemma pathCat_eq_append (cacheDir : String) (hpath : '/' ∈ path.toList) :
    ∃ dir, (pathCat cacheDir path).toList = dir ++ '/' :: lastSegment path := by
  obtain ⟨base, hbase⟩ := toList_pathCat cacheDir path
  obtain ⟨p, hp⟩ := Text.exists_append_rtakeWhile hpath
  refine ⟨base ++ p, ?_⟩
  rw [hbase, List.append_assoc]
  exact congrArg (base ++ ·) hp

/-- A dot in the last segment is behind all dots of the directories. -/
lemma extension_pathCat (hpath : '/' ∈ path.toList) (hdot : '.' ∈ lastSegment path) :
    extension (pathCat cacheDir path) =
      '.' :: (lastSegment path).rtakeWhile (· ≠ '.') := by
  obtain ⟨dir, hdir⟩ := pathCat_eq_append cacheDir hpath
  obtain ⟨p, hp⟩ := Text.exists_append_rtakeWhile hdot
  have hfull : (pathCat cacheDir path).toList =
      (dir ++ '/' :: p) ++ '.' :: (lastSegment path).rtakeWhile (· ≠ '.') := by
    rw [hdir, List.append_assoc, List.cons_append, ← hp]
  exact extension_of_append hfull Text.not_mem_rtakeWhile

/-- **Without a dot in the last segment**, there is no extension, or one with a `/`. -/
lemma extension_pathCat_of_plain (cacheDir : String) (hpath : '/' ∈ path.toList)
    (hdot : '.' ∉ lastSegment path) : extension (pathCat cacheDir path) = [] ∨
      '/' ∈ extension (pathCat cacheDir path) := by
  obtain ⟨dir, hdir⟩ := pathCat_eq_append cacheDir hpath
  by_cases hdir' : '.' ∈ dir
  · right
    obtain ⟨p, hp⟩ := Text.exists_append_rtakeWhile hdir'
    have hfull : (pathCat cacheDir path).toList =
        p ++ '.' :: (dir.rtakeWhile (· ≠ '.') ++ '/' :: lastSegment path) := by
      rw [hdir, ← List.cons_append, ← List.append_assoc, ← hp]
    have hnot : '.' ∉ dir.rtakeWhile (· ≠ '.') ++ '/' :: lastSegment path := by
      rw [List.mem_append, List.mem_cons]
      rintro (h | h | h)
      · exact Text.not_mem_rtakeWhile h
      · exact absurd h (by decide)
      · exact hdot h
    rw [extension_of_append hfull hnot]
    simp
  · left
    have hnot : '.' ∉ (pathCat cacheDir path).toList := by
      rw [hdir, List.mem_append, List.mem_cons]
      rintro (h | h | h)
      · exact hdir' h
      · exact absurd h (by decide)
      · exact hdot h
    rw [extension, if_neg hnot]

/-! ### The tests for extensions -/

lemma iequals_iff : iequals a b = true ↔ a.map Char.toLower = b.map Char.toLower := beq_iff_eq

/-- A text that is compared counts only up to letter case. -/
lemma iequals_congr (h : iequals a b = true) (l : List Char) : iequals a l = iequals b l := by
  rw [iequals, iequals, iequals_iff.mp h]

/-- The part of `mime_type` behind the extension. -/
def typeOf (ext : List Char) : String :=
  match mimeTypes.find? fun e => iequals ext e.1.toList with
  | some e => e.2
  | none => "application/text"

/-- The part of `should_compress` behind the extension. -/
def isCompressible (ext : List Char) : Bool := compressible.any fun e => iequals ext e.toList

lemma mimeType_eq (path : String) : mimeType path = typeOf (extension path) := rfl

lemma shouldCompress_eq (path : String) : shouldCompress path = isCompressible (extension path) :=
  rfl

lemma typeOf_congr (h : iequals a b = true) : typeOf a = typeOf b := by
  simp only [typeOf, iequals_congr h]

/-- No test is for an empty extension, or for one with a `/`. -/
lemma shape_of_tested : ((mimeTypes.map (·.1) ++ compressible).all fun e =>
    !e.toList.isEmpty && !(e.toList.map Char.toLower).contains '/') = true := by
  decide

lemma iequals_eq_false (h : a = [] ∨ '/' ∈ a) {e : String}
    (he : e ∈ mimeTypes.map (·.1) ++ compressible) : iequals a e.toList = false := by
  have hshape := List.all_eq_true.mp shape_of_tested e he
  rw [← Bool.not_eq_true, iequals_iff]
  intro heq
  rcases h with rfl | h
  · have hnil : e.toList = [] := by simpa using heq.symm
    simp [hnil] at hshape
  · have hslash : '/' ∈ e.toList.map Char.toLower := heq ▸ List.mem_map_of_mem h
    simp only [List.contains_iff_mem.mpr hslash] at hshape
    simp at hshape

/-- **Without an extension**, or with a `/` in it, there is no type. -/
lemma untyped (h : a = [] ∨ '/' ∈ a) :
    typeOf a = "application/text" ∧ isCompressible a = false := by
  constructor
  · have hnone : (mimeTypes.find? fun e => iequals a e.1.toList) = none := by
      rw [List.find?_eq_none]
      intro e he
      rw [iequals_eq_false h (List.mem_append_left _ (List.mem_map_of_mem he))]
      exact Bool.false_ne_true
    rw [typeOf, hnone]
  · rw [isCompressible, List.any_eq_false]
    intro e he
    rw [iequals_eq_false h (List.mem_append_right _ he)]
    exact Bool.false_ne_true

/-! ### Where a listed extension leads -/

lemma listed_shape : (listed.all fun e => !(e.1.map Char.toLower).contains '.') = true := by
  decide

/-- Behind a dot, each extension has the type it is listed with, or is only listed without. -/
lemma typeOf_listed : (listed.all fun e =>
    undotted.contains e.1 || typeOf ('.' :: e.1) == e.2) = true := by
  decide +kernel

/-- The extensions that are only listed without their dots have no type behind one. -/
lemma typeOf_undotted : (undotted.all fun e => typeOf ('.' :: e) == "application/text" &&
    listed.any fun l => l.1 == e && l.2 != "application/text") = true := by
  decide +kernel

/-- The extension that a segment ends in is the one behind its last dot. -/
lemma EndsIn.extension (h : EndsIn a b) (hb : '.' ∉ b.map Char.toLower) :
    '.' ∈ a ∧ iequals ('.' :: a.rtakeWhile (· ≠ '.')) ('.' :: b) = true := by
  obtain ⟨tail, htail, hhead, heq⟩ := h
  obtain ⟨rest, rfl⟩ := List.head?_eq_some_iff.mp hhead
  obtain ⟨stem, rfl⟩ := (List.mem_tails _ _).mp htail
  rw [List.tail_cons, iequals_iff] at heq
  have hrest : '.' ∉ rest := by
    intro hmem
    have hlower : Char.toLower '.' ∈ b.map Char.toLower := heq ▸ List.mem_map_of_mem hmem
    exact hb hlower
  refine ⟨by simp, ?_⟩
  rw [Text.rtakeWhile_append_cons hrest, iequals_iff, List.map_cons, List.map_cons, heq]

/-- The type of a resource whose last segment ends in an extension. -/
lemma mimeType_of_endsIn (hpath : '/' ∈ path.toList) (hends : EndsIn (lastSegment path) b)
    (hb : '.' ∉ b.map Char.toLower) : mimeType (pathCat cacheDir path) = typeOf ('.' :: b) := by
  obtain ⟨hdot, heq⟩ := hends.extension hb
  rw [mimeType_eq, extension_pathCat hpath hdot, typeOf_congr heq]

/-- Only the last segment counts. -/
lemma pathCat_eq_lastSegment (hpath : '/' ∈ path.toList) :
    mimeType (pathCat cacheDir path) = mimeType (String.ofList (lastSegment path)) ∧
      shouldCompress (pathCat cacheDir path) =
        shouldCompress (String.ofList (lastSegment path)) := by
  simp only [mimeType_eq, shouldCompress_eq]
  have hlist : (String.ofList (lastSegment path)).toList = lastSegment path := String.toList_ofList
  by_cases hdot : '.' ∈ lastSegment path
  · have hext : extension (String.ofList (lastSegment path)) =
        '.' :: (lastSegment path).rtakeWhile (· ≠ '.') := by
      rw [extension_of_mem (by rw [hlist]; exact hdot), hlist]
    rw [extension_pathCat hpath hdot, hext]
    exact ⟨rfl, rfl⟩
  · have hnil : extension (String.ofList (lastSegment path)) = [] := by
      rw [extension, if_neg (by rw [hlist]; exact hdot)]
    obtain ⟨htype, hcompress⟩ := untyped (extension_pathCat_of_plain cacheDir hpath hdot)
    obtain ⟨htype', hcompress'⟩ := untyped (a := []) (.inl rfl)
    rw [hnil, htype, hcompress, htype', hcompress']
    exact ⟨rfl, rfl⟩

/-- **A resource has the type of its extension**, unless this is one that is only listed without
its dot. -/
theorem typed_iff (hpath : '/' ∈ path.toList) :
    Typed cacheDir path ↔ ∀ e ∈ undotted, ¬ EndsIn (lastSegment path) e := by
  have hlower : ∀ e ∈ listed, '.' ∉ e.1.map Char.toLower := by
    intro e he
    simpa using List.all_eq_true.mp listed_shape e he
  constructor
  · intro h e he hends
    have hundotted := List.all_eq_true.mp typeOf_undotted e he
    rw [Bool.and_eq_true, beq_iff_eq, List.any_eq_true] at hundotted
    obtain ⟨hdefault, entry, hentry, hne⟩ := hundotted
    rw [Bool.and_eq_true, beq_iff_eq, bne_iff_ne] at hne
    obtain ⟨rfl, hne⟩ := hne
    apply hne
    rw [← h.listed entry hentry hends, mimeType_of_endsIn hpath hends (hlower entry hentry),
      hdefault]
  · intro h
    refine ⟨pathCat_eq_lastSegment hpath, fun entry hentry hends => ?_, fun hdot => ?_⟩
    · have htype := List.all_eq_true.mp typeOf_listed entry hentry
      rw [Bool.or_eq_true, beq_iff_eq] at htype
      rw [mimeType_of_endsIn hpath hends (hlower entry hentry)]
      refine htype.resolve_left fun hundotted => ?_
      exact h entry.1 (List.contains_iff_mem.mp hundotted) hends
    · rw [mimeType_eq, shouldCompress_eq]
      exact untyped (extension_pathCat_of_plain cacheDir hpath hdot)

theorem typed_index : Typed "/tmp/site.d" "/v1.2/Index.HTML" :=
  (typed_iff (by decide)).mpr (by decide)

/-- A film in a format that is listed without its dot. -/
theorem not_typed_webm : ¬ Typed "/tmp/site" "/film.webm" := by
  intro h
  have htype := h.listed ("webm".toList, "video/webm") (by decide) (by decide)
  exact absurd htype (by decide)

end Impl

end S3Proxy
