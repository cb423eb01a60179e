import S3Proxy.Server.Serving

/-!
# Clearing the cache

`clear` is for whoever has the key that the proxy is configured with (`Holder`).  The key that a
request presents is what follows `Bearer ` in its header, and it is compared with the configured
one, which is the empty string if none was given: then an empty key opens (`Unlocked`).

## Main result

`guarded_iff`: the cache is guarded exactly unless no key is configured and the request presents an
empty one.  `Guarded` says both what happens for a holder, who finds the cache empty, and for
others, for whom nothing changes and who are told so.

`clear_spec` is the handler read off for every request, and `bearer_iff` the comparison: a text that
begins with the prefix and ends with the key is made of these two.

## Hypotheses

None: it is about every configuration, every request and every world.  Whether the server in front
of the handler lets a header with an empty key through is not part of the repository.

## What it rests on

`clear_world_cases` of `Server.Serving`, and the reading of headers in `Server.Handlers`.  What the
other threads see of a clear is in `Server.Lookup`.
-/

namespace S3Proxy

namespace Resource

variable {conf : Configuration} {origins : List String} {req : Request} {w : World}

/-- The authorization of the request, if it has one. -/
def authorization? (req : Request) : Option String :=
  HeaderMap.findEither req.header "authorization" "Authorization"

/-- The request presents the key that is configured, and there is one. -/
def Holder (conf : Configuration) (req : Request) : Prop :=
  conf.authKey ≠ "" ∧ authorization? req = some ("Bearer " ++ conf.authKey)

instance : Decidable (Holder conf req) := inferInstanceAs (Decidable (_ ∧ _))

/-- The cache is cleared for whoever holds the key, and nobody else. -/
structure Guarded (conf : Configuration) (origins : List String) (req : Request) (w : World) :
    Prop where
  clears : ((clear conf origins req w).1.status = 304 ∧
    ∀ name, (clear conf origins req w).2.cache.get name = none) ↔ Holder conf req
  refuses : ¬ Holder conf req → (clear conf origins req w).2 = w ∧
    ((clear conf origins req w).1.status = 403 ∨ (clear conf origins req w).1.status = 400)

/-- No key is configured, and the request presents an empty one. -/
def Unlocked (conf : Configuration) (req : Request) : Prop :=
  conf.authKey = "" ∧ authorization? req = some "Bearer "

instance : Decidable (Unlocked conf req) := inferInstanceAs (Decidable (_ ∧ _))

/-! ### What the request presents -/

/-- The key behind the prefix. -/
lemma bearer_iff (bearer key : String) :
    "Bearer ".toList.isPrefixOf bearer.toList = true ∧ String.ofList (bearer.toList.drop 7) = key ↔
      bearer = "Bearer " ++ key := by
  have hlength : "Bearer ".toList.length = 7 := by decide
  constructor
  · rintro ⟨hbearer, rfl⟩
    obtain ⟨rest, hrest⟩ := List.isPrefixOf_iff_prefix.mp hbearer
    apply String.toList_inj.mp
    rw [String.toList_append, ← hrest, ← hlength, List.drop_left]
    exact congrArg ("Bearer ".toList ++ ·) String.toList_ofList.symm
  · rintro rfl
    rw [String.toList_append, ← hlength, List.drop_left, String.ofList_toList]
    exact ⟨List.isPrefixOf_iff_prefix.mpr (List.prefix_append _ _), rfl⟩

/-- A header with a key in it is not empty. -/
lemma authorise_eq_iff {key : String} :
    req.authorise = "Bearer " ++ key ↔ authorization? req = some ("Bearer " ++ key) := by
  have hne : "Bearer " ++ key ≠ "" := by
    intro h
    have hlength := congrArg (fun s => s.toList.length) h
    simp [String.toList_append] at hlength
  rw [Request.authorise, Request.headerOrEmpty, authorization?]
  cases HeaderMap.findEither req.header "authorization" "Authorization" with
  | none => simp [hne.symm]
  | some value => simp

variable (conf origins req w) in
/-- **What `clear` does**: it clears the cache if the request presents the configured key, and
refuses otherwise. -/
lemma clear_spec :
    (authorization? req = some ("Bearer " ++ conf.authKey) →
      (clear conf origins req w).1.status = 304 ∧
        (clear conf origins req w).2 = { w with cache := w.cache.clear }) ∧
    (authorization? req ≠ some ("Bearer " ++ conf.authKey) →
      ((clear conf origins req w).1.status = 403 ∨ (clear conf origins req w).1.status = 400) ∧
        (clear conf origins req w).2 = w) := by
  rw [← authorise_eq_iff, Ne, ← authorise_eq_iff]
  have hpresents := bearer_iff req.authorise conf.authKey
  unfold clear S3Util.clear
  dsimp only
  by_cases hempty : req.authorise = ""
  · have hno : ¬ "" = "Bearer " ++ conf.authKey := by
      intro h
      rw [hempty, ← h] at hpresents
      exact absurd (hpresents.mpr rfl).1 (by decide)
    rw [if_pos hempty, hempty]
    exact ⟨fun h => absurd h hno, fun _ => ⟨.inl rfl, rfl⟩⟩
  rw [if_neg hempty]
  by_cases hbearer : "Bearer ".toList.isPrefixOf req.authorise.toList = true
  · rw [hbearer, Bool.not_true, if_neg Bool.false_ne_true]
    by_cases hkey : conf.authKey = String.ofList (req.authorise.toList.drop 7)
    · rw [if_pos hkey]
      exact ⟨fun _ => ⟨rfl, rfl⟩, fun h => absurd (hpresents.mp ⟨hbearer, hkey.symm⟩) h⟩
    · rw [if_neg hkey]
      exact ⟨fun h => absurd (hpresents.mpr h).2.symm hkey, fun _ => ⟨.inl rfl, rfl⟩⟩
  · rw [Bool.not_eq_true] at hbearer
    rw [hbearer, Bool.not_false, if_pos rfl]
    refine ⟨fun h => ?_, fun _ => ⟨.inr rfl, rfl⟩⟩
    rw [(hpresents.mpr h).1] at hbearer
    cases hbearer

/-! ### Who may clear the cache -/

/-- **The cache is guarded** unless no key is configured and the request presents an empty one. -/
theorem guarded_iff : Guarded conf origins req w ↔ ¬ Unlocked conf req := by
  obtain ⟨hclears, hrefuses⟩ := clear_spec conf origins req w
  constructor
  · rintro h ⟨hkey, hheader⟩
    have hpresented : authorization? req = some ("Bearer " ++ conf.authKey) := by
      rw [hheader, hkey]
      rfl
    obtain ⟨hstatus, hworld⟩ := hclears hpresented
    have hholder : Holder conf req := by
      apply h.clears.mp
      rw [hworld]
      exact ⟨hstatus, fun name => rfl⟩
    exact hholder.1 hkey
  · intro hlocked
    have hholder : Holder conf req ↔ authorization? req = some ("Bearer " ++ conf.authKey) := by
      refine ⟨And.right, fun h => ⟨fun hkey => hlocked ⟨hkey, ?_⟩, h⟩⟩
      rw [h, hkey]
      rfl
    constructor
    · rw [hholder]
      constructor
      · rintro ⟨hstatus, -⟩
        by_contra hno
        have hstatus' := (hrefuses hno).1
        omega
      · intro h
        obtain ⟨hstatus, hworld⟩ := hclears h
        rw [hworld]
        exact ⟨hstatus, fun name => rfl⟩
    · intro hno
      rw [hholder] at hno
      exact (hrefuses hno).symm

/-- No key is configured: whoever presents an empty one clears the cache. -/
theorem not_guarded_unset :
    let req : Request :=
      ⟨"DELETE", "/_proxy/_private/_cache/clear/", [("authorization", "Bearer ")]⟩
    ¬ Holder {} req ∧
      ∀ w : World, (clear {} [] req w).1.status = 304 ∧
        (clear {} [] req w).2 = { w with cache := w.cache.clear } ∧ ¬ Guarded {} [] req w := by
  intro req
  have hholder : ¬ Holder {} req := by decide
  refine ⟨hholder, fun w => ?_⟩
  obtain ⟨hstatus, hworld⟩ := (clear_spec {} [] req w).1 (by decide)
  refine ⟨hstatus, hworld, fun h => hholder (h.clears.mp ⟨hstatus, ?_⟩)⟩
  rw [hworld]
  exact fun name => rfl

end Resource

end S3Proxy
