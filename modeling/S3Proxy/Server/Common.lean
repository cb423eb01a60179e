import S3Proxy.Server.Response

/-!
# The preflight answer

`cors` is what the framework answers to an `OPTIONS` request.  The decision whether an origin is
allowed is taken here and once more in `Response.set`, and the two differ on an empty list, on the
wildcard and on an empty origin.  `OriginsAgree` says exactly when they agree.

## Main result

`cors_eq_set_iff`: for a request that carries an origin, the preflight answer and the actual answer
announce it alike, both or neither, exactly if `OriginsAgree` holds of the configured list and the
origin.

Each side is computed on its own.  `equalRange_allowOrigin_cors` is the preflight, where the origin
has to be in the list or the list has to be the wildcard (`allows_iff`); the other side is
`equalRange_allowOrigin_set` of `Server.Response`, where an empty list allows everything and the
wildcard is an origin like any other.

## Hypotheses

The request carries an origin; without one neither answer announces anything.  The configured list
is arbitrary, and so is the rest of the actual response.

## Where it is used

The result stands by itself.  The other modules about responses (`Server.Head`, `Server.Serving`) go
on from `Server.Response`.
-/

namespace S3Proxy

/-- The part of `framework::Configuration` that `cors` reads. -/
structure CorsConfiguration where
  origins : List String
  corsMethods : List String
  deriving DecidableEq, Repr

namespace CorsConfiguration

/-- The condition on which `framework::cors` announces an origin. -/
def allows (c : CorsConfiguration) (origin : String) : Bool :=
  c.origins.contains origin || (c.origins.length == 1 && c.origins.head? == some "*")

lemma allows_iff (c : CorsConfiguration) (origin : String) :
    c.allows origin = true ↔ origin ∈ c.origins ∨ c.origins = ["*"] := by
  have hstar : (c.origins.length = 1 ∧ c.origins.head? = some "*") ↔ c.origins = ["*"] := by
    constructor
    · rintro ⟨hlen, hhead⟩
      obtain ⟨o, ho⟩ := List.length_eq_one_iff.mp hlen
      rw [ho, List.head?_cons, Option.some.injEq] at hhead
      rw [ho, hhead]
    · intro h
      simp [h]
  simp [allows, hstar]

end CorsConfiguration

/-- The headers of the 204 answer of `framework::cors`. -/
def cors (header : HeaderMap) (configuration : CorsConfiguration) : HeaderMap :=
  let hdrs : HeaderMap := [
    ("Access-Control-Allow-Methods", String.intercalate ", " configuration.corsMethods),
    ("Access-Control-Allow-Headers", "*, authorization"),
    ("content-length", "0")]
  match HeaderMap.findEither header "origin" "Origin" with
  | some origin =>
      if configuration.allows origin then
        (hdrs.emplace "Access-Control-Allow-Origin" origin).emplace "Vary" "Origin"
      else hdrs
  | none => hdrs

variable {header : HeaderMap} {origin : String}

lemma equalRange_allowOrigin_cors (h : HeaderMap.findEither header "origin" "Origin" = some origin)
    (c : CorsConfiguration) :
    (cors header c).equalRange "Access-Control-Allow-Origin" =
      if c.allows origin then [origin] else [] := by
  unfold cors
  rw [h]
  dsimp only
  split_ifs <;> rfl

lemma Response.origin_ofHeaders (h : HeaderMap.findEither header "origin" "Origin" = some origin) :
    (Response.ofHeaders header).origin = origin := by
  rw [Response.ofHeaders, h]

/-- The configurations and origins on which preflight and actual answer treat the origin alike:
a request that names an origin needs a non-empty list, and gets past the wildcard `["*"]` only
if it names that; a request with an empty origin needs a list that has neither. -/
def OriginsAgree (origins : List String) (origin : String) : Prop :=
  if origin = "" then "" ∉ origins ∧ origins ≠ ["*"]
  else origins ≠ [] ∧ (origins = ["*"] → origin = "*")

instance (origins : List String) (origin : String) : Decidable (OriginsAgree origins origin) :=
  inferInstanceAs (Decidable (if origin = "" then _ else _))

/-- **Preflight and actual answer.**  For a request that carries an origin, the preflight answer
announces it as the actual answer does, both or neither and with the same value, exactly if
`OriginsAgree` holds of the configured list. -/
theorem cors_eq_set_iff (h : HeaderMap.findEither header "origin" "Origin" = some origin)
    (origins corsMethods methods : List String) (r : Response) :
    (cors header ⟨origins, corsMethods⟩).equalRange "Access-Control-Allow-Origin" =
        (Response.set methods origins
          { r with origin := (Response.ofHeaders header).origin }).headers.equalRange
          "Access-Control-Allow-Origin" ↔
      OriginsAgree origins origin := by
  rw [equalRange_allowOrigin_cors h, Response.equalRange_allowOrigin_set,
    Response.origin_ofHeaders h]
  have hcors := CorsConfiguration.allows_iff ⟨origins, corsMethods⟩ origin
  have hset : Response.allows origins origin = true ↔ origins = [] ∨ origin ∈ origins := by
    simp [Response.allows]
  -- both sides are the singleton or empty, so only the two conditions are compared
  have hkey : ∀ P Q : Prop, [Decidable P] → [Decidable Q] →
      ((if P then [origin] else []) = (if Q then [origin] else []) ↔ (P ↔ Q)) := by
    intro P Q _ _
    by_cases hP : P <;> by_cases hQ : Q <;> simp [hP, hQ]
  rw [hkey, hcors, hset, OriginsAgree]
  dsimp only
  split_ifs with horigin
  · simp [horigin]
  · constructor
    · intro hiff
      refine ⟨?_, fun hstar => ?_⟩
      · rintro rfl
        simp [horigin] at hiff
      · simpa [hstar, horigin] using hiff
    · rintro ⟨hne, hstar⟩
      simp only [hne, horigin, ne_eq, not_false_eq_true, true_and, false_or]
      constructor
      · rintro (hmem | hwild)
        · exact hmem
        · rw [hwild, hstar hwild]
          exact List.mem_singleton_self _
      · exact .inl

/-- A configured list that names the origin. -/
theorem cors_eq_set_listed :
    (cors [("origin", "http://127.0.0.1:8080")] ⟨["http://127.0.0.1:8080"], ["GET"]⟩).equalRange
        "Access-Control-Allow-Origin" =
      (Response.set ["GET"] ["http://127.0.0.1:8080"]
        { origin := (Response.ofHeaders [("origin", "http://127.0.0.1:8080")]).origin
        }).headers.equalRange "Access-Control-Allow-Origin" :=
  have horigin : HeaderMap.findEither [("origin", "http://127.0.0.1:8080")] "origin" "Origin" =
      some "http://127.0.0.1:8080" := by decide
  (cors_eq_set_iff horigin ["http://127.0.0.1:8080"] ["GET"] ["GET"] {}).mpr (by decide)

/-- With no origins configured the actual answer announces every origin, the preflight none. -/
theorem cors_ne_set_unconfigured :
    (cors [("origin", "http://127.0.0.1:8080")] ⟨[], ["GET"]⟩).equalRange
        "Access-Control-Allow-Origin" ≠
      (Response.set ["GET"] []
        { origin := (Response.ofHeaders [("origin", "http://127.0.0.1:8080")]).origin
        }).headers.equalRange "Access-Control-Allow-Origin" := by
  decide

end S3Proxy
