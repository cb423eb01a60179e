import S3Proxy.Client.Mmdb

/-!
# The properties of an address

`fields` splits the answer of the service into lines, and a line at every colon; the first two parts
are the key and the value.  Empty parts are dropped, so a line without two parts leads to an access
behind the end of the vector (`Readable`), and a value with a colon is cut there.

## Main results

`isSome_fields_iff`: no access fails exactly if the answer, where there is one, is the address
itself, or each of its lines has something on both sides of a colon.

`find_fields_iff`: properties that are listed line by line are read back as they are exactly if no
value has a colon.  `property?_line` is one line, whose value is read up to its first colon, and
`cut_eq_self_iff` says when that is all of it; `foldlM_enter` puts the lines together.

## Hypotheses

The first result has none: it is about every query, every connection and whatever the socket does.
For the second the properties are `Listable` (a key or a value is not empty, has no line feed and no
white space at its ends, and a key has no colon), the answer is written from their lines, and it is
not the address itself, which the code takes for "nothing known".

## What it rests on

`split_of_written` and `two_le_length_split_iff` of `Library.Split` for the lines and the parts, and
`find_mapValues_eq_iff` of `Library.Assoc` for the properties as a map.  Whether the answer is that
of the query is a matter of `Client.Mmdb`.
-/

namespace S3Proxy

namespace Client

namespace MMDBConnection

def isColon (b : UInt8) : Bool := b = chr ':'

/-- The parts of a line that `fields` reads. -/
def property? (line : Bytes) : Option (Bytes × Bytes) :=
  match Mmdb.split line (bytesOf ":") with
  | key :: value :: _ => some (Text.trim isspace key, Text.trim isspace value)
  | _ => none

/-- There is something in front of a colon, and something behind it. -/
def Readable (line : Bytes) : Prop :=
  ∃ p l, line = p ++ chr ':' :: l ∧ (∃ b ∈ p, b ≠ chr ':') ∧ ∃ b ∈ l, b ≠ chr ':'

/-- A key and a value as a line. -/
def line (pair : Bytes × Bytes) : Bytes := pair.1 ++ bytesOf ": " ++ pair.2

/-- No white space at either end. -/
def Unpadded (text : Bytes) : Prop := Text.trim isspace text = text

instance : DecidablePred Unpadded := fun _ => inferInstanceAs (Decidable (_ = _))

/-- The properties can be listed line by line. -/
structure Listable (m : Properties) : Prop where
  key : ∀ pair ∈ m.entries, pair.1 ≠ [] ∧ chr ':' ∉ pair.1 ∧ chr '\n' ∉ pair.1 ∧ Unpadded pair.1
  value : ∀ pair ∈ m.entries, pair.2 ≠ [] ∧ chr '\n' ∉ pair.2 ∧ Unpadded pair.2

/-! ### The lines -/

lemma split_colon (text : Bytes) : Mmdb.split text (bytesOf ":") = Text.split isColon text := by
  have hdelims : (fun b => decide (b ∈ bytesOf ":")) = isColon := by
    funext b
    exact decide_eq_decide.mpr (by simp [bytesOf_eq])
  rw [Mmdb.split, hdelims]

lemma split_lf (text : Bytes) : Mmdb.split text (bytesOf "\n") = Text.split isLfByte text := by
  have hdelims : (fun b => decide (b ∈ bytesOf "\n")) = isLfByte := by
    funext b
    exact decide_eq_decide.mpr (by simp [bytesOf_eq])
  rw [Mmdb.split, hdelims]

/-- The parts of a line are accessed inside the vector. -/
lemma isSome_property?_iff {line : Bytes} : (property? line).isSome ↔ Readable line := by
  have hlength : (property? line).isSome ↔ 2 ≤ (Text.split isColon line).length := by
    rw [property?, split_colon]
    rcases Text.split isColon line with _ | ⟨key, _ | ⟨value, rest⟩⟩ <;> simp
  rw [hlength, Text.two_le_length_split_iff]
  simp only [isColon, decide_eq_true_eq, decide_eq_false_iff_not]
  constructor
  · rintro ⟨p, a, l, hline, rfl, hp, hl⟩
    exact ⟨p, l, hline, hp, hl⟩
  · rintro ⟨p, l, hline, hp, hl⟩
    exact ⟨p, _, l, hline, rfl, hp, hl⟩

/-- One line of the answer is entered. -/
def enter (props : Properties) (line : Bytes) : Option Properties :=
  (property? line).map fun pair => props.emplace pair.1 pair.2

lemma parse_eq (text ip : Bytes) : parse text ip =
    if text = ip then some .none else (Text.split isLfByte text).foldlM enter Assoc.none := by
  rw [parse, split_lf]
  split_ifs
  · rfl
  · refine congrArg (fun f => List.foldlM f Assoc.none _) (funext₂ fun props line => ?_)
    rw [enter, property?]
    rcases Mmdb.split line (bytesOf ":") with _ | ⟨key, _ | ⟨value, rest⟩⟩ <;> rfl

/-- All lines are read, or an access fails. -/
lemma isSome_foldlM_enter_iff {lines : List Bytes} {props : Properties} :
    (lines.foldlM enter props).isSome ↔ ∀ line ∈ lines, Readable line := by
  induction lines generalizing props with
  | nil => exact iff_of_true rfl nofun
  | cons line lines ih =>
      rw [List.foldlM_cons, List.forall_mem_cons, ← isSome_property?_iff, enter]
      cases property? line with
      | none => simp
      | some pair => simpa using ih

lemma foldlM_enter {lines : List Bytes} {pairs : List (Bytes × Bytes)} {props : Properties}
    (h : lines.map property? = pairs.map some) :
    lines.foldlM enter props = some (props.emplaceAll pairs) := by
  induction lines generalizing pairs props with
  | nil =>
      obtain rfl : pairs = [] := by simpa using h.symm
      rfl
  | cons line lines ih =>
      cases pairs with
      | nil => cases h
      | cons pair pairs =>
          obtain ⟨hline, hlines⟩ := List.cons.inj h
          rw [List.foldlM_cons, enter, hline]
          exact ih hlines

/-- **No access fails** precisely if the answer, where there is one, is the address, or each of its
lines has something on both sides of a colon. -/
theorem isSome_fields_iff (n : ℕ) (c : MMDBConnection) (ip : Bytes) (io : Io) :
    (c.fields n ip io).1.isSome ↔ ∀ text ∈ (c.execute n ip io).text,
      text.map Octet.byte = ip ∨
        ∀ line ∈ Text.split isLfByte (text.map Octet.byte), Readable line := by
  rw [fields]
  cases (c.execute n ip io).text with
  | none => simp
  | some text =>
      simp only [parse_eq, Option.mem_some_iff, forall_eq']
      by_cases hip : text.map Octet.byte = ip
      · simp [hip]
      · simp only [hip, if_false, false_or]
        exact isSome_foldlM_enter_iff

/-- A text without a colon: the program looks for the second part of its only one. -/
theorem not_isSome_fields_message :
    let io : Io := { send := some 10, arrived := bytesOf "not found\n\n" }
    (({} : MMDBConnection).execute 0 (bytesOf "1.1.1.1") io).text =
        some (got 0 (bytesOf "not found")) ∧
      (({} : MMDBConnection).fields 0 (bytesOf "1.1.1.1") io).1 = none := by
  decide

/-! ### Listed properties -/

/-- What `fields` makes of a value. -/
def cut (value : Bytes) : Bytes := Text.trim isspace (value.takeWhile (· ≠ chr ':'))

/-- A listed pair is read with its value cut at the first colon. -/
lemma property?_line {pair : Bytes × Bytes} (hne : pair.1 ≠ []) (hcolon : chr ':' ∉ pair.1)
    (hpadded : Unpadded pair.1) : property? (line pair) = some (pair.1, cut pair.2) := by
  have hkey : ∀ b ∈ pair.1, isColon b = false := by
    intro b hb
    rw [isColon, decide_eq_false_iff_not]
    rintro rfl
    exact hcolon hb
  have hsplit : Text.split isColon (line pair) =
      pair.1 :: (chr ' ' :: pair.2.takeWhile fun b => !isColon b) ::
        Text.split isColon (pair.2.dropWhile fun b => !isColon b) := by
    have hline : line pair = pair.1 ++ chr ':' :: chr ' ' :: pair.2 := by
      simp [line, bytesOf_eq]
    rw [hline, Text.split_append_delim (by decide), Text.split_of_forall hne hkey,
      Text.split_cons_of_not_delim (by decide)]
    rfl
  have htake : (pair.2.takeWhile fun b => !isColon b) = pair.2.takeWhile (· ≠ chr ':') := by
    simp [isColon]
  have hblank : Text.trim isspace (chr ' ' :: pair.2.takeWhile fun b => !isColon b) =
      cut pair.2 := by
    rw [Text.trim, List.dropWhile_cons_of_pos (by decide), cut, Text.trim, htake]
  rw [property?, split_colon, hsplit]
  dsimp only
  rw [hblank, hpadded]

/-- A value comes through precisely if it has no colon. -/
lemma cut_eq_self_iff {value : Bytes} (hpadded : Unpadded value) :
    cut value = value ↔ chr ':' ∉ value := by
  constructor
  · intro h hmem
    have hlength := congrArg List.length h
    have htrim : (cut value).length ≤ (value.takeWhile (· ≠ chr ':')).length := Text.length_trim_le
    have hfront := List.takeWhile_prefix (l := value) (· ≠ chr ':')
    have hwhole := hfront.eq_of_length (by have := hfront.length_le; omega)
    have hcolon := List.takeWhile_eq_self_iff.mp hwhole _ hmem
    simp at hcolon
  · intro h
    have htake : value.takeWhile (· ≠ chr ':') = value := by
      rw [List.takeWhile_eq_self_iff]
      intro b hb
      rw [decide_eq_true_eq]
      rintro rfl
      exact h hb
    rw [cut, htake, hpadded]

variable {n : ℕ} {c : MMDBConnection} {ip : Bytes} {io : Io} {text : List Octet}

/-- **Listed properties** are read back as they are precisely if no value has a colon. -/
theorem find_fields_iff {m : Properties} (hm : Listable m)
    (htext : (c.execute n ip io).text = some text)
    (hlines : Text.Written isLfByte (m.entries.map line) (text.map Octet.byte))
    (hip : text.map Octet.byte ≠ ip) :
    (∃ props, (c.fields n ip io).1 = some props ∧ ∀ key, props.find key = m.find key) ↔
      ∀ pair ∈ m.entries, chr ':' ∉ pair.2 := by
  have hread : (m.entries.map line).foldlM enter Assoc.none =
      some (Assoc.none.emplaceAll (m.mapValues cut).entries) := by
    apply foldlM_enter
    rw [Assoc.mapValues, List.map_map, List.map_map]
    refine List.map_congr_left fun pair hpair => ?_
    obtain ⟨hne, hcolon, -, hpadded⟩ := hm.key pair hpair
    exact property?_line hne hcolon hpadded
  have hfields : (c.fields n ip io).1 = some (Assoc.none.emplaceAll (m.mapValues cut).entries) := by
    rw [fields, htext]
    dsimp only
    rw [parse_eq, if_neg hip, Text.split_of_written hlines, hread]
  have hvalues : (∀ pair ∈ m.entries, cut pair.2 = pair.2) ↔
      ∀ pair ∈ m.entries, chr ':' ∉ pair.2 :=
    forall₂_congr fun pair hpair => cut_eq_self_iff (hm.value pair hpair).2.2
  rw [hfields, ← hvalues, ← Assoc.find_mapValues_eq_iff]
  simp [Assoc.find_emplaceAll_entries]

/-- The city and the country of an address. -/
theorem find_fields_cityAndCountry :
    let m : Properties :=
      ⟨[(bytesOf "city", bytesOf "Paris"), (bytesOf "country", bytesOf "France")], by decide⟩
    let io : Io := { send := some 10, arrived := bytesOf "city: Paris\ncountry: France\n\n" }
    ∃ props, (({} : MMDBConnection).fields 0 (bytesOf "1.1.1.1") io).1 = some props ∧
      ∀ key, props.find key = m.find key := by
  intro m io
  have hlistable : Listable m := ⟨by decide, by decide⟩
  have htext : (({} : MMDBConnection).execute 0 (bytesOf "1.1.1.1") io).text =
      some (got 0 (bytesOf "city: Paris\ncountry: France")) := by decide
  have hcountry : Text.Written isLfByte [bytesOf "country: France"] (bytesOf "country: France") :=
    Text.written_single (by decide) (by decide)
  have hcity : ((bytesOf "city: Paris").all fun a => !isLfByte a) = true := by decide
  have hwritten : Text.Written isLfByte [bytesOf "city: Paris", bytesOf "country: France"]
      (bytesOf "city: Paris" ++ chr '\n' :: bytesOf "country: France") := by
    refine .piece (by decide) (fun a ha => ?_) (by decide) hcountry
    simpa using List.all_eq_true.mp hcity a ha
  exact (find_fields_iff hlistable htext hwritten (by decide)).mpr (by decide)

/-- The service gives back an IPv6 address: the value ends at its first colon. -/
theorem not_find_fields_ipv6 :
    let m : Properties := ⟨[(bytesOf "ip_address", bytesOf "2001:db8::1")], by decide⟩
    let io : Io := { send := some 14, arrived := bytesOf "ip_address: 2001:db8::1\n\n" }
    Listable m ∧
      (({} : MMDBConnection).execute 0 (bytesOf "2001:db8::1") io).text =
        some (got 0 (bytesOf "ip_address: 2001:db8::1")) ∧
      Text.Written isLfByte (m.entries.map line) (bytesOf "ip_address: 2001:db8::1") ∧
      ¬ ∃ props, (({} : MMDBConnection).fields 0 (bytesOf "2001:db8::1") io).1 = some props ∧
        ∀ key, props.find key = m.find key := by
  intro m io
  refine ⟨⟨by decide, by decide⟩, by decide, Text.written_single (by decide) (by decide), ?_⟩
  rintro ⟨props, hprops, hfind⟩
  have hcut : ((({} : MMDBConnection).fields 0 (bytesOf "2001:db8::1") io).1.bind
      (·.find (bytesOf "ip_address"))) = some (bytesOf "2001") := by decide
  rw [hprops, Option.bind_some, hfind] at hcut
  exact absurd hcut (by decide)

end MMDBConnection

end Client

end S3Proxy
