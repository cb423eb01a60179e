import S3Proxy.Library.Inet
import S3Proxy.Library.Split
import S3Proxy.Server.Handlers

/-!
# The address of the client

Behind a proxy the address of the client is in a header.  `ipaddress` takes the first part of the
header, as it is or up to its first colon, if one of these is an address, and the other end of the
connection otherwise.  An IPv6 address with a port has neither form.

## Main result

`ipaddress_iff` has two parts.  Whatever the headers are, the answer is an address or the other end
of the connection (`ipaddress_valid`).  And if the header `Announces` an address, with or without a
port, between white space and in front of those of other proxies, then this address is the answer
exactly unless it is `Bracketed`: an IPv6 address with a port is written in brackets, and then the
answer is the other end of the connection.

`firstPart_eq` is the parsing of the header: what is written in front is the first part, because no
character of an address is white space or a separator (`Solid`).  `ipaddress_of_announces` computes
the answer from there.

## Hypotheses

The function that makes an address of a text is a parameter, and the result assumes that it accepts
the texts that `Inet.isAddress` of `Library.Inet` accepts.  `ipaddress_valid` holds of any function.

## Where it is used

`Queue.Mongo` puts the address into the metric of a request.
-/

namespace S3Proxy

/-- A request with what the framework knows about its connection. -/
structure FrameworkRequest extends Request where
  remoteEndpoint : String := ""
  timestamp : TimePoint := 0
  deriving DecidableEq

namespace FrameworkRequest

/-- `std::isspace`, of a character. -/
def isspace (c : Char) : Bool := c = ' ' || (9 ≤ c.toNat && c.toNat ≤ 13)

/-- Where the header is split. -/
def isSeparator (c : Char) : Bool := c = ',' || c = ' '

/-- The header that a proxy puts the address into. -/
def forwarded (req : FrameworkRequest) : Option String :=
  HeaderMap.findEither req.header "x-real-ip" "x-forwarded-for"

/-- `parts[0]`. -/
def firstPart (value : String) : String :=
  String.ofList ((Text.trim isspace value.toList).takeWhile fun c => !isSeparator c)

/-- The text up to its first colon. -/
def withoutPort (part : String) : String := String.ofList (part.toList.takeWhile (· ≠ ':'))

/-- `framework::ipaddress`; `makeAddress` tells whether `make_address` succeeds. -/
def ipaddress (makeAddress : String → Bool) (req : FrameworkRequest) : String :=
  match req.forwarded with
  | none => req.remoteEndpoint
  | some value =>
      let part := firstPart value
      if makeAddress part then part
      else if ':' ∈ part.toList && makeAddress (withoutPort part) then withoutPort part
      else req.remoteEndpoint

/-- An address as it is written with a port. -/
def written (a : List Char) : Option (List Char) → List Char
  | none => a
  | some port => if Inet.isV4 a then a ++ ':' :: port else '[' :: a ++ ']' :: ':' :: port

/-- The header holds the address, with or without a port, between white space and in front of other
addresses. -/
structure Announces (req : FrameworkRequest) (a : List Char) (port : Option (List Char)) :
    Prop where
  address : Inet.isAddress a = true
  digits : ∀ digits ∈ port, digits ≠ [] ∧ digits.all Char.isDigit = true
  header : ∃ front rest back, (∀ c ∈ front, isspace c = true) ∧ (∀ c ∈ back, isspace c = true) ∧
    (∀ c ∈ rest.head?, isSeparator c = true) ∧
    req.forwarded = some (String.ofList (front ++ (written a port ++ (rest ++ back))))

variable {makeAddress : String → Bool} {req : FrameworkRequest} {a : List Char}
  {port : Option (List Char)}

/-! ### The first part of the header -/

/-- No white space and no separator. -/
def Solid (c : Char) : Prop := isspace c = false ∧ isSeparator c = false

lemma solid_of_legal {c : Char} (h : Inet.Legal c) : Solid c := by
  have hrange := Inet.toNat_of_legal h
  have hspace : ' '.toNat = 32 := rfl
  have hcomma : ','.toNat = 44 := rfl
  have hne : c ≠ ' ' ∧ c ≠ ',' := by
    constructor <;> rintro rfl <;> omega
  constructor
  · simp only [isspace, hne.1, Bool.or_eq_false_iff, Bool.and_eq_false_iff, decide_eq_false_iff_not]
    exact ⟨not_false, .inr (by omega)⟩
  · simp [isSeparator, hne]

lemma solid_written (ha : Inet.isAddress a = true)
    (hport : ∀ digits ∈ port, digits ≠ [] ∧ digits.all Char.isDigit = true) :
    written a port ≠ [] ∧ ∀ c ∈ written a port, Solid c := by
  have haddress : ∀ c ∈ a, Solid c := fun c hc => solid_of_legal (Inet.legal_of_isAddress ha c hc)
  cases port with
  | none =>
      refine ⟨?_, haddress⟩
      rintro rfl
      exact absurd ha (by decide)
  | some digits =>
      have hdigits : ∀ c ∈ ':' :: digits, Solid c := by
        intro c hc
        rcases List.mem_cons.mp hc with rfl | hc
        · exact ⟨by decide, by decide⟩
        · have hdigit := List.all_eq_true.mp (hport digits rfl).2 c hc
          exact solid_of_legal (.inl (by simp [Inet.isHex, hdigit]))
      rw [written]
      split_ifs
      · exact ⟨by simp, List.forall_mem_append.mpr ⟨haddress, hdigits⟩⟩
      · refine ⟨by simp, List.forall_mem_append.mpr ⟨?_, ?_⟩⟩
        · exact List.forall_mem_cons.mpr ⟨⟨by decide, by decide⟩, haddress⟩
        · exact List.forall_mem_cons.mpr ⟨⟨by decide, by decide⟩, hdigits⟩

/-- What is written in front is the first part. -/
lemma firstPart_eq {front w rest back : List Char} (hfront : ∀ c ∈ front, isspace c = true)
    (hback : ∀ c ∈ back, isspace c = true) (hrest : ∀ c ∈ rest.head?, isSeparator c = true)
    (hne : w ≠ []) (hw : ∀ c ∈ w, Solid c) :
    firstPart (String.ofList (front ++ (w ++ (rest ++ back)))) = String.ofList w := by
  have htrim := Text.trim_append_append (l := rest ++ back) hfront hne fun c hc => (hw c hc).1
  -- what is left of the rest begins with a separator, if there is anything left
  have htail : ((rest ++ back).rdropWhile isspace).takeWhile (fun c => !isSeparator c) = [] := by
    have hstart := List.rdropWhile_prefix isspace (rest ++ back)
    cases rest with
    | nil =>
        rw [List.nil_append, List.rdropWhile_eq_nil_iff.mpr hback]
        rfl
    | cons c rest =>
        cases htail : (c :: rest ++ back).rdropWhile isspace with
        | nil => rfl
        | cons d tail =>
            rw [htail, List.cons_append, List.cons_prefix_cons] at hstart
            rw [hstart.1]
            exact List.takeWhile_cons_of_neg (by simp [hrest c rfl])
  rw [firstPart, String.toList_ofList, htrim,
    List.takeWhile_append_of_pos fun c hc => by simp [(hw c hc).2], htail, List.append_nil]

/-! ### The address -/

/-- An IPv6 address with a port is written in brackets. -/
def Bracketed (a : List Char) (port : Option (List Char)) : Prop :=
  port.isSome = true ∧ Inet.isV4 a = false

instance : Decidable (Bracketed a port) := inferInstanceAs (Decidable (_ ∧ _))

/-- The answer is an address or the other end of the connection. -/
lemma ipaddress_valid (makeAddress : String → Bool) (req : FrameworkRequest) :
    makeAddress (req.ipaddress makeAddress) = true ∨
      req.ipaddress makeAddress = req.remoteEndpoint := by
  unfold ipaddress
  cases req.forwarded with
  | none => exact .inr rfl
  | some value =>
      dsimp only
      split_ifs with hpart hval
      · exact .inl hpart
      · exact .inl (Bool.and_eq_true_iff.mp hval).2
      · exact .inr rfl

/-- What becomes of the address that is written in the header. -/
lemma ipaddress_of_announces (hmake : ∀ s, makeAddress s = Inet.isAddress s.toList)
    (h : Announces req a port) : req.ipaddress makeAddress =
      if Bracketed a port then req.remoteEndpoint else String.ofList a := by
  obtain ⟨hne, hsolid⟩ := solid_written h.address h.digits
  obtain ⟨front, rest, back, hfront, hback, hrest, hvalue⟩ := h.header
  unfold ipaddress
  rw [hvalue]
  dsimp only
  rw [firstPart_eq hfront hback hrest hne hsolid]
  simp only [withoutPort, hmake, String.toList_ofList]
  cases hport : port with
  | none => simp [written, h.address, Bracketed]
  | some digits =>
      have hcolon : ':' ∉ digits := by
        intro hmem
        exact absurd (List.all_eq_true.mp (h.digits digits hport).2 _ hmem) (by decide)
      cases hv4 : Inet.isV4 a with
      | true =>
          have htake : (a ++ ':' :: digits).takeWhile (· ≠ ':') = a := by
            rw [List.takeWhile_append_of_pos, List.takeWhile_cons_of_neg (by simp), List.append_nil]
            intro c hc
            rw [decide_eq_true_eq]
            rintro rfl
            exact Inet.colon_notMem_of_isV4 hv4 hc
          rw [written, if_pos hv4, Inet.isAddress_append_of_isV4 hv4 hcolon, htake, h.address]
          simp [Bracketed, hv4]
      | false =>
          rw [written, hv4, if_neg Bool.false_ne_true, List.cons_append,
            Inet.isAddress_bracket_cons, List.takeWhile_cons_of_pos (by decide),
            Inet.isAddress_bracket_cons]
          simp [Bracketed, hv4]

/-- **The address of the client.**  The answer is always an address or the other end of the
connection.  It is the address that is written in the header unless that is an IPv6 address with a
port, and the other end of the connection has another one. -/
theorem ipaddress_iff (hmake : ∀ s, makeAddress s = Inet.isAddress s.toList) :
    (∀ req : FrameworkRequest, Inet.isAddress (req.ipaddress makeAddress).toList = true ∨
        req.ipaddress makeAddress = req.remoteEndpoint) ∧
      ∀ (req : FrameworkRequest) (a : List Char) (port : Option (List Char)),
        Announces req a port → (req.ipaddress makeAddress = String.ofList a ↔
          ¬ Bracketed a port ∨ req.remoteEndpoint = String.ofList a) := by
  refine ⟨fun req => ?_, fun req a port h => ?_⟩
  · rw [← hmake]
    exact ipaddress_valid makeAddress req
  · rw [ipaddress_of_announces hmake h]
    split_ifs with hbracketed
    · simp [hbracketed]
    · simp [hbracketed]

/-- An IPv4 address with a port, in front of that of a proxy. -/
theorem ipaddress_v4 :
    let req : FrameworkRequest :=
      { method := "GET", path := "/", header := [("x-real-ip", "192.0.2.1:443, 10.0.0.1")] }
    req.ipaddress (fun s => Inet.isAddress s.toList) = "192.0.2.1" := by
  intro req
  have hannounces : Announces req "192.0.2.1".toList (some "443".toList) :=
    ⟨by decide, by decide, [], ", 10.0.0.1".toList, [], nofun, nofun, by simp [isSeparator],
      by decide⟩
  exact ((ipaddress_iff fun _ => rfl).2 req _ _ hannounces).mpr (by decide)

/-- An IPv6 address with a port: the answer is the address of the proxy. -/
theorem ipaddress_ne_bracketed :
    let req : FrameworkRequest :=
      { method := "GET", path := "/", header := [("x-forwarded-for", "[2001:db8::1]:443")]
        remoteEndpoint := "10.0.0.1" }
    Announces req "2001:db8::1".toList (some "443".toList) ∧
      req.ipaddress (fun s => Inet.isAddress s.toList) = "10.0.0.1" ∧
      req.ipaddress (fun s => Inet.isAddress s.toList) ≠ "2001:db8::1" := by
  intro req
  exact ⟨⟨by decide, by decide, [], [], [], nofun, nofun, nofun, by decide⟩, by decide⟩

end FrameworkRequest

end S3Proxy
