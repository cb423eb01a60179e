import S3Proxy.Server.Response

/-!
# Request headers

The headers that the handlers read, each under a lower-case and a capitalised spelling.  An absent
header reads as the empty string (`headerOrEmpty`), and no handler can tell the two apart; where
that matters is worked out in `Server.Conditional` for the validators and in `Server.Clear` for the
key.

`Unconditional` are the requests without either validator.  `Unconditional.ifNoneMatch` and
`Unconditional.ifModifiedSince` say that both then read as empty, which is how `Server.Head` uses
it.

`authorise`, `ifNoneMatch`, `ifModifiedSince` and `shouldCompress` keep the names of the source.
The last one is about what the client accepts; its namesake in `Server.Resource` is about the
resource.
-/

namespace S3Proxy

namespace Request

variable (req : Request)

def headerOrEmpty (lower upper : String) : String :=
  (HeaderMap.findEither req.header lower upper).getD ""

def authorise : String := req.headerOrEmpty "authorization" "Authorization"

def ifNoneMatch : String := req.headerOrEmpty "if-none-match" "If-None-Match"

def ifModifiedSince : String := req.headerOrEmpty "if-modified-since" "If-Modified-Since"

/-- `framework::shouldCompress`: the client names gzip among the encodings it accepts. -/
def shouldCompress : Bool :=
  match HeaderMap.findEither req.header "accept-encoding" "Accept-Encoding" with
  | some value => decide ("gzip".toList <:+: value.toList)
  | none => false

/-- The request carries neither `If-None-Match` nor `If-Modified-Since`. -/
def Unconditional : Prop :=
  HeaderMap.findEither req.header "if-none-match" "If-None-Match" = none ∧
    HeaderMap.findEither req.header "if-modified-since" "If-Modified-Since" = none

instance : Decidable req.Unconditional := inferInstanceAs (Decidable (_ ∧ _))

variable {req}

lemma Unconditional.ifNoneMatch (h : req.Unconditional) : req.ifNoneMatch = "" := by
  rw [Request.ifNoneMatch, headerOrEmpty, h.1, Option.getD_none]

lemma Unconditional.ifModifiedSince (h : req.Unconditional) : req.ifModifiedSince = "" := by
  rw [Request.ifModifiedSince, headerOrEmpty, h.2, Option.getD_none]

example : Request.shouldCompress ⟨"GET", "/", [("accept-encoding", "br, gzip")]⟩ = true := by decide

end Request

end S3Proxy
