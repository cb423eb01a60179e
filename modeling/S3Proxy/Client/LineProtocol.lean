import S3Proxy.Client.Builder
import S3Proxy.Library.Quoting

/-!
# The line protocol

What the text of the builder means.  `read` is a reader that knows nothing of the builder: a
backslash quotes the next byte, lines end at a line feed and fall into three sections at spaces,
both outside double quotes, and items and their keys end at commas and `=`.

## Main result

`read_finish`: decoding undoes the encoder.  For every list of records, and whatever the order of
the calls that fill each of them, the text of the builder is read as exactly these records, with
their types.

The proof follows the levels of the format, from the outside in: lines (`read_lines`), the sections
of a line (`line_eq`, `readRecord_line`), the items of a section (`items_joined`), and key and text
of an item (`readPair_item`, with `readTag_item` and `readValue_item`).  At each level the pieces
have to be closed under the cut of that level.  The encoder and the reader meet in `Respected`,
which says what a cut must leave alone for the escapes of `clean` to be enough; four cuts have it,
and `closed_clean`, `closed_string` and `closed_plain` then hold of any of them.  `readField_format`
reads the type of a value off its text.

## Hypotheses

Each record is `Record.WellFormed`: it has a tag and a value, and its name and its keys are `Plain`,
since the builder writes these as they are.  Tag values and strings are arbitrary.

## Where it is used

`Queue.Tsdb` cites `read_lines` for the record that a metric stands for, and `Client.Ilp` uses
`closed_line_lf`: a line has no end but its own.  Quoting and its laws are in `Library.Quoting`,
what the builder writes in `Client.Builder`.
-/

namespace S3Proxy

namespace Client

namespace LineProtocol

open Quoting

/-- A record with values of type `V`. -/
structure Record (V : Type*) where
  name : Bytes
  tags : List (Bytes × Bytes)
  values : List (Bytes × V)
  timestamp : TimePoint
  deriving DecidableEq

/-- What the text of a value says; it does not tell the widths of integers apart. -/
inductive Field
  | bool (v : Bool)
  | signed (n : ℤ)
  | unsigned (n : ℕ)
  | string (v : Bytes)
  deriving DecidableEq

/-- The value that an overload of `addValue` is given. -/
def field : Value → Field
  | .bool v => .bool v
  | .int32 v => .signed v.toInt
  | .uint32 v => .unsigned v.toNat
  | .int64 v => .signed v.toInt
  | .uint64 v => .unsigned v.toNat
  | .string v => .string v

/-- Forget the widths of integers. -/
def Record.fields (r : Record Value) : Record Field :=
  ⟨r.name, r.tags, r.values.map fun t => (t.1, field t.2), r.timestamp⟩

/-- Free of the bytes that mean something between names, keys and values. -/
def Plain (b : Bytes) : Prop := ∀ c ∈ b, c ∉ bytesOf ",= \"\\\r\n"

instance : DecidablePred Plain := fun b =>
  List.decidableBAll (fun c => c ∉ bytesOf ",= \"\\\r\n") b

/-- A record that the line protocol can express. -/
structure Record.WellFormed {V : Type*} (r : Record V) : Prop where
  name : Plain r.name
  tags_ne_nil : r.tags ≠ []
  tags : ∀ t ∈ r.tags, Plain t.1
  values_ne_nil : r.values ≠ []
  values : ∀ t ∈ r.values, Plain t.1

/-! ### The reader -/

/-- Backslash and double quote. -/
def marks : Marks UInt8 := ⟨chr '\\', chr '"', by decide⟩

/-- The two sides of `=`; the key is unquoted. -/
def readPair (item : Bytes) : Option (Bytes × Bytes) :=
  match marks.split (unescapedAt (chr '=')) {} item with
  | [key, text] => some (marks.unescape key, text)
  | _ => none

def readTag (item : Bytes) : Option (Bytes × Bytes) :=
  (readPair item).map fun t => (t.1, marks.unescape t.2)

/-- Numbers end in a letter and strings in a double quote. -/
def readField (text : Bytes) : Option Field :=
  match text.getLast? with
  | none => none
  | some c =>
      if c = chr 'i' then (Decimal.readInt (asciiOf text.dropLast)).map .signed
      else if c = chr 'u' then (Decimal.readNat (asciiOf text.dropLast)).map .unsigned
      else if c = chr '"' then
        match text.dropLast with
        | [] => none
        | d :: v => if d = chr '"' then some (.string (marks.unescape v)) else none
      else if text = bytesOf "true" then some (.bool true)
      else if text = bytesOf "false" then some (.bool false)
      else none

def readValue (item : Bytes) : Option (Bytes × Field) :=
  (readPair item).bind fun t => (readField t.2).map fun f => (t.1, f)

/-- The items between unquoted commas. -/
def items (text : Bytes) : List Bytes := marks.split (unescapedAt (chr ',')) {} text

def readRecord (line : Bytes) : Option (Record Field) :=
  match marks.split (unquotedAt (chr ' ')) {} line with
  | [series, values, time] =>
      match items series with
      | [] => none
      | name :: tags => do
          let tags ← tags.mapM readTag
          let values ← (items values).mapM readValue
          let timestamp ← Decimal.readInt (asciiOf time)
          return ⟨marks.unescape name, tags, values, timestamp⟩
  | _ => none

/-- The lines of a text in which every line is ended. -/
def lines (text : Bytes) : Option (List Bytes) :=
  let pieces := marks.split (unquotedAt (chr '\n')) {} text
  if pieces.getLast? = some [] then some pieces.dropLast else none

def read (text : Bytes) : Option (List (Record Field)) := (lines text).bind (·.mapM readRecord)

/-! ### What the encoder escapes -/

/-- The bytes before which `clean` puts a backslash. -/
def special (space : Bool) (c : UInt8) : Bool :=
  c ∈ bytesOf ",\"=\n\r\\" || (space && c = chr ' ')

lemma clean_eq_escape (view : Bytes) (space : Bool) :
    clean view space = marks.escape (special space) view := by
  have hbyte : ∀ c, cleanByte space c = if special space c then [chr '\\', c] else [c] := by
    intro c
    unfold cleanByte
    split_ifs <;> simp_all [special, bytesOf_eq, chr]
  rw [clean, Marks.escape]
  exact congrArg (fun f => view.flatMap f) (funext hbyte)

lemma special_esc (space : Bool) : special space marks.esc = true := by
  cases space <;> decide

lemma special_quote (space : Bool) : special space marks.quote = true := by
  cases space <;> decide

lemma special_of_plain {b : Bytes} (h : Plain b) : ∀ c ∈ b, special true c = false := by
  intro c hc
  have := h c hc
  simp only [special, Bool.or_eq_false_iff, Bool.and_eq_false_iff, decide_eq_false_iff_not]
  simp_all [bytesOf_eq]

lemma escape_plain {b : Bytes} (h : Plain b) : marks.escape (special true) b = b :=
  Marks.escape_eq_self (special_of_plain h)

lemma unescape_plain {b : Bytes} (h : Plain b) : marks.unescape b = b := by
  have := Marks.unescape_escape (l := b) (special_esc true)
  rwa [escape_plain h] at this

lemma unescape_clean (v : Bytes) (space : Bool) : marks.unescape (clean v space) = v := by
  rw [clean_eq_escape, Marks.unescape_escape (special_esc space)]

/-! ### What a cut must leave alone -/

/-- A cut that looks, outside double quotes and inside, for bytes that are escaped there. -/
structure Respected (cut : Mode → UInt8 → Bool) : Prop where
  escaped : ∀ s a, s.escaped = true → cut s a = false
  tag : ∀ a, special true a = false → cut {} a = false
  string : ∀ a, special false a = false → cut { quoted := true } a = false
  esc : ∀ s, cut s marks.esc = false
  quote : ∀ s, cut s marks.quote = false

/-- A separator that is looked for outside double quotes only. -/
lemma respected_unquotedAt {sep : UInt8} (hsep : special true sep = true)
    (hesc : sep ≠ marks.esc) (hquote : sep ≠ marks.quote) : Respected (unquotedAt sep) where
  escaped s a h := by simp [unquotedAt, h]
  tag a h := by
    have hne : a ≠ sep := by
      intro heq
      subst heq
      rw [hsep] at h
      cases h
    simp [unquotedAt, hne]
  string a h := by simp [unquotedAt]
  esc s := by simp [unquotedAt, hesc.symm]
  quote s := by simp [unquotedAt, hquote.symm]

/-- A separator that is escaped between double quotes, too. -/
lemma respected_unescapedAt {sep : UInt8} (hsep : special false sep = true)
    (hesc : sep ≠ marks.esc) (hquote : sep ≠ marks.quote) : Respected (unescapedAt sep) := by
  have htag : special true sep = true := by
    simp only [special, Bool.false_and, Bool.or_false] at hsep ⊢
    rw [hsep, Bool.true_or]
  have hne : ∀ {space} a, special space sep = true → special space a = false → a ≠ sep := by
    intro space a hs ha heq
    subst heq
    rw [hs] at ha
    cases ha
  constructor
  · intro s a h
    simp [unescapedAt, h]
  · intro a h
    simp [unescapedAt, hne a htag h]
  · intro a h
    simp [unescapedAt, hne a hsep h]
  · intro s
    simp [unescapedAt, hesc.symm]
  · intro s
    simp [unescapedAt, hquote.symm]

lemma respected_lf : Respected (unquotedAt (chr '\n')) :=
  respected_unquotedAt (by decide) (by decide) (by decide)

lemma respected_space : Respected (unquotedAt (chr ' ')) :=
  respected_unquotedAt (by decide) (by decide) (by decide)

lemma respected_comma : Respected (unescapedAt (chr ',')) :=
  respected_unescapedAt (by decide) (by decide) (by decide)

lemma respected_eq : Respected (unescapedAt (chr '=')) :=
  respected_unescapedAt (by decide) (by decide) (by decide)

namespace Respected

variable {cut : Mode → UInt8 → Bool} (hcut : Respected cut)
include hcut

lemma closed_clean (v : Bytes) : marks.Closed cut (clean v true) := by
  rw [clean_eq_escape]
  exact Marks.closed_escape (special_esc true) (special_quote true) hcut.escaped hcut.tag
    (hcut.esc _)

lemma closed_plain {b : Bytes} (h : Plain b) : marks.Closed cut b := by
  have := hcut.closed_clean b
  rwa [clean_eq_escape, escape_plain h] at this

lemma closed_string (v : Bytes) : marks.Closed cut (Value.string v).format := by
  have hformat : (Value.string v).format =
      marks.quote :: marks.escape (special false) v ++ [marks.quote] := by
    rw [Value.format, clean_eq_escape]
    rfl
  rw [hformat]
  exact Marks.closed_quoted (special_esc false) (special_quote false) hcut.escaped hcut.string
    (hcut.esc _) (hcut.quote _) (hcut.quote _)

end Respected

lemma Plain.append {b c : Bytes} (hb : Plain b) (hc : Plain c) : Plain (b ++ c) := by
  intro x hx
  rcases List.mem_append.mp hx with h | h
  · exact hb x h
  · exact hc x h

/-- Numerals are plain. -/
lemma plain_formatInt (n : ℤ) : Plain (formatInt n) := by
  intro b hb hmem
  obtain ⟨c, hc, hcb⟩ := mem_formatInt hb
  subst hcb
  have hnat : (chr c).toNat ∈ [44, 61, 32, 34, 92, 13, 10] := List.mem_map_of_mem hmem
  rcases hc with hdigit | rfl
  · have hlow := (Char.isDigit_iff_toNat.mp hdigit).1
    have hlow' : '0'.toNat = 48 := rfl
    have hhigh := (Char.isDigit_iff_toNat.mp hdigit).2
    have hhigh' : '9'.toNat = 57 := rfl
    have hchr : (chr c).toNat = c.toNat := by
      rw [chr, UInt8.toNat_ofNat', Nat.mod_eq_of_lt (toNat_lt_of_isDigit hdigit)]
    rw [hchr] at hnat
    simp only [List.mem_cons, List.not_mem_nil, or_false] at hnat
    omega
  · exact absurd hnat (by decide)

lemma plain_formatNat (n : ℕ) : Plain (formatNat n) := plain_formatInt n

namespace Respected

variable {cut : Mode → UInt8 → Bool} (hcut : Respected cut)
include hcut

lemma closed_format (v : Value) : marks.Closed cut v.format := by
  cases v with
  | bool v => cases v <;> exact hcut.closed_plain (by decide)
  | int32 v => exact hcut.closed_plain ((plain_formatInt _).append (by decide))
  | uint32 v => exact hcut.closed_plain ((plain_formatNat _).append (by decide))
  | int64 v => exact hcut.closed_plain ((plain_formatInt _).append (by decide))
  | uint64 v => exact hcut.closed_plain ((plain_formatNat _).append (by decide))
  | string v => exact hcut.closed_string v

lemma closed_item (heq : marks.Closed cut (bytesOf "=")) {key text : Bytes} (hkey : Plain key)
    (htext : marks.Closed cut text) : marks.Closed cut (Builder.item key text) :=
  ((hcut.closed_plain hkey).append heq).append htext

end Respected

/-! ### Reading what the builder writes -/

open Builder (item joined Script)

lemma readPair_item {key text : Bytes} (hkey : Plain key)
    (htext : marks.Closed (unescapedAt (chr '=')) text) :
    readPair (item key text) = some (key, text) := by
  have hclosed := respected_eq.closed_plain hkey
  have hitem : item key text = key ++ chr '=' :: text := by simp [item, bytesOf, chr]
  have hnext : marks.next {} (chr '=') = {} := by decide
  rw [readPair, hitem, Marks.split_append_cons hclosed.passes (by rw [hclosed.after]; decide),
    hclosed.after, hnext, Marks.split_of_passes htext.passes]
  dsimp only
  rw [unescape_plain hkey]

lemma readTag_item {key : Bytes} (hkey : Plain key) (v : Bytes) :
    readTag (item key (clean v true)) = some (key, v) := by
  rw [readTag, readPair_item hkey (respected_eq.closed_clean v), Option.map_some, unescape_clean]

/-- The text of a value says what the value is. -/
lemma readField_format (v : Value) : readField v.format = some (field v) := by
  have hint : ∀ n : ℤ, readField (formatInt n ++ [chr 'i']) = some (.signed n) := by
    intro n
    rw [readField, List.getLast?_concat, List.dropLast_concat]
    dsimp only
    rw [if_pos rfl, asciiOf_formatInt, Decimal.readInt_toString]
    rfl
  have hnat : ∀ n : ℕ, readField (formatNat n ++ [chr 'u']) = some (.unsigned n) := by
    intro n
    rw [readField, List.getLast?_concat, List.dropLast_concat]
    dsimp only
    rw [if_neg (by decide), if_pos rfl, asciiOf_formatNat, Decimal.readNat_toString]
    rfl
  cases v with
  | bool v => cases v <;> decide
  | int32 v => exact hint _
  | uint32 v => exact hnat _
  | int64 v => exact hint _
  | uint64 v => exact hnat _
  | string v =>
      have hformat : (Value.string v).format = (chr '"' :: clean v false) ++ [chr '"'] := rfl
      rw [hformat, readField, List.getLast?_concat, List.dropLast_concat]
      dsimp only
      rw [if_neg (by decide), if_neg (by decide), if_pos rfl, if_pos rfl, unescape_clean]
      rfl

lemma readValue_item {key : Bytes} (hkey : Plain key) (v : Value) :
    readValue (item key v.format) = some (key, field v) := by
  rw [readValue, readPair_item hkey (respected_eq.closed_format v), Option.bind_some,
    readField_format, Option.map_some]

/-- Items between commas. -/
lemma items_joined {xs : List Bytes} (hne : xs ≠ [])
    (hxs : ∀ x ∈ xs, marks.Closed (unescapedAt (chr ',')) x) : items (joined xs) = xs :=
  Marks.split_intercalate (by decide) (by decide) hne hxs

private lemma mapM_map {α β γ : Type*} {f : α → β} {g : β → Option γ} {h : α → γ} {l : List α}
    (hgf : ∀ a ∈ l, g (f a) = some (h a)) : (l.map f).mapM g = some (l.map h) := by
  induction l with
  | nil => rfl
  | cons a l ih =>
      rw [List.map_cons, List.mapM_cons, hgf a List.mem_cons_self,
        ih fun b hb => hgf b (List.mem_cons_of_mem a hb)]
      rfl

/-- The record that a script is made for. -/
def record (s : Script) : Record Value := ⟨s.name, s.tags, s.values, s.time⟩

/-- The pieces of a line that are joined by commas. -/
lemma Respected.closed_sections {cut : Mode → UInt8 → Bool} (hcut : Respected cut)
    (heq : marks.Closed cut (bytesOf "=")) {s : Script} (hs : (record s).WellFormed) :
    (∀ x ∈ s.name :: s.tags.map fun t => item t.1 (clean t.2 true), marks.Closed cut x) ∧
      ∀ x ∈ s.values.map fun t => item t.1 t.2.format, marks.Closed cut x := by
  constructor
  · intro x hx
    rcases List.mem_cons.mp hx with rfl | hx
    · exact hcut.closed_plain hs.name
    · obtain ⟨t, ht, rfl⟩ := List.mem_map.mp hx
      exact hcut.closed_item heq (hs.tags t ht) (hcut.closed_clean _)
  · intro x hx
    obtain ⟨t, ht, rfl⟩ := List.mem_map.mp hx
    exact hcut.closed_item heq (hs.values t ht) (hcut.closed_format _)

/-- The sections of a line that are separated by spaces. -/
lemma line_eq (s : Script) : s.line = (bytesOf " ").intercalate
    [joined (s.name :: s.tags.map fun t => item t.1 (clean t.2 true)),
      joined (s.values.map fun t => item t.1 t.2.format), formatInt s.time] := by
  rw [List.intercalate_cons_cons, List.intercalate_cons_cons, List.intercalate_singleton,
    Script.line]
  simp only [List.append_assoc]

lemma closed_line {cut : Mode → UInt8 → Bool} (hcut : Respected cut)
    (heq : marks.Closed cut (bytesOf "=")) (hcomma : marks.Closed cut (bytesOf ",")) {s : Script}
    (hs : (record s).WellFormed) :
    ∀ x ∈ [joined (s.name :: s.tags.map fun t => item t.1 (clean t.2 true)),
      joined (s.values.map fun t => item t.1 t.2.format), formatInt s.time],
      marks.Closed cut x := by
  obtain ⟨hseries, hvalues⟩ := hcut.closed_sections heq hs
  intro x hx
  simp only [List.mem_cons, List.not_mem_nil, or_false] at hx
  rcases hx with rfl | rfl | rfl
  · exact Marks.closed_intercalate hcomma hseries
  · exact Marks.closed_intercalate hcomma hvalues
  · exact hcut.closed_plain (plain_formatInt _)

private lemma closed_byte {cut : Mode → UInt8 → Bool} {c : UInt8} (hcut : cut {} c = false)
    (hnext : marks.next {} c = {}) : marks.Closed cut [c] :=
  Marks.closed_singleton hcut hnext

/-- **One line** is read as the record that it was written for. -/
lemma readRecord_line {s : Script} (hs : (record s).WellFormed) :
    readRecord s.line = some (record s).fields := by
  have hsections : marks.split (unquotedAt (chr ' ')) {} s.line =
      [joined (s.name :: s.tags.map fun t => item t.1 (clean t.2 true)),
        joined (s.values.map fun t => item t.1 t.2.format), formatInt s.time] := by
    rw [line_eq]
    exact Marks.split_intercalate (by decide) (by decide) (List.cons_ne_nil _ _)
      (closed_line respected_space (closed_byte (by decide) (by decide))
        (closed_byte (by decide) (by decide)) hs)
  obtain ⟨hseries, hvalues⟩ :=
    respected_comma.closed_sections (closed_byte (by decide) (by decide)) hs
  have hvalues_ne : s.values.map (fun t => item t.1 t.2.format) ≠ [] :=
    mt List.map_eq_nil_iff.mp hs.values_ne_nil
  have htags : (s.tags.map fun t => item t.1 (clean t.2 true)).mapM readTag = some s.tags := by
    have := mapM_map (h := id) fun t ht => readTag_item (hs.tags t ht) t.2
    rwa [List.map_id] at this
  have hfields : (s.values.map fun t => item t.1 t.2.format).mapM readValue =
      some (s.values.map fun t => (t.1, field t.2)) :=
    mapM_map fun t ht => readValue_item (hs.values t ht) t.2
  have hname : marks.unescape s.name = s.name := unescape_plain hs.name
  rw [readRecord, hsections]
  dsimp only
  rw [items_joined (List.cons_ne_nil _ _) hseries, items_joined hvalues_ne hvalues]
  dsimp only
  rw [htags, hfields, asciiOf_formatInt, Decimal.readInt_toString, hname]
  rfl

/-- A line has no end of its own. -/
lemma closed_line_lf {s : Script} (hs : (record s).WellFormed) :
    marks.Closed (unescapedAt (chr '\n')) s.line := by
  rw [line_eq]
  exact Marks.closed_intercalate (closed_byte (by decide) (by decide))
    (closed_line (respected_unescapedAt (by decide) (by decide) (by decide))
      (closed_byte (by decide) (by decide)) (closed_byte (by decide) (by decide)) hs)

/-- A text of whole lines is read line by line. -/
lemma read_lines {scripts : List Script} (hs : ∀ s ∈ scripts, (record s).WellFormed) :
    read (scripts.flatMap fun s => s.line ++ bytesOf "\n") =
      some (scripts.map fun s => (record s).fields) := by
  have hclosed : ∀ x ∈ scripts.map Script.line, marks.Closed (unquotedAt (chr '\n')) x := by
    intro x hx
    obtain ⟨s, hmem, rfl⟩ := List.mem_map.mp hx
    rw [line_eq]
    exact Marks.closed_intercalate (closed_byte (by decide) (by decide))
      (closed_line respected_lf (closed_byte (by decide) (by decide))
        (closed_byte (by decide) (by decide)) (hs s hmem))
  have hcut : unquotedAt (chr '\n') {} (chr '\n') = true := by decide
  have hsplit := Marks.split_terminated hcut (by decide) hclosed
  rw [List.flatMap_map] at hsplit
  have hlines : lines (scripts.flatMap fun s => s.line ++ bytesOf "\n") =
      some (scripts.map Script.line) := by
    have hbytes : bytesOf "\n" = [chr '\n'] := rfl
    rw [lines, hbytes, hsplit, List.getLast?_concat, if_pos rfl, List.dropLast_concat]
  rw [read, hlines, Option.bind_some]
  exact mapM_map fun s hmem => readRecord_line (hs s hmem)

/-! ### The round trip -/

/-- The calls that fill a record, tags first. -/
def Record.script (r : Record Value) (now : TimePoint) : Script where
  name := r.name
  now := now
  calls := r.tags.map (fun t => .addTag t.1 t.2) ++ r.values.map (fun t => .addValue t.1 t.2) ++
    [.timestamp r.timestamp]

/-- **Decoding undoes the encoder.**  Whatever the order of the calls that fill the records, the
text of the builder is read as exactly these records. -/
theorem read_finish {records : List (Record Value)} {scripts : List Script}
    (hfeed : scripts.map record = records) (hwf : ∀ r ∈ records, r.WellFormed) :
    ∃ b, scripts.foldlM Builder.put {} = some b ∧
      read b.finish = some (records.map Record.fields) := by
  subst hfeed
  have hs : ∀ s ∈ scripts, (record s).WellFormed :=
    fun s hmem => hwf _ (List.mem_map_of_mem hmem)
  obtain ⟨b, hput, hvalue⟩ := Builder.value_foldlM_put scripts
    (fun s hmem => (hs s hmem).tags_ne_nil) {}
  refine ⟨b, hput, ?_⟩
  rw [Builder.finish, hvalue, List.nil_append, read_lines hs, List.map_map]
  rfl

lemma record_script (r : Record Value) (now : TimePoint) : record (r.script now) = r := by
  have htags : (r.script now).tags = r.tags := by
    simp only [Script.tags, Record.script, List.filterMap_append, List.filterMap_map]
    simp [Function.comp_def, Builder.Call.tag?]
  have hvalues : (r.script now).values = r.values := by
    simp only [Script.values, Record.script, List.filterMap_append, List.filterMap_map]
    simp [Function.comp_def, Builder.Call.value?]
  have htime : (r.script now).time = r.timestamp := by
    simp only [Script.time, Record.script, List.filterMap_append, List.filterMap_map]
    simp [Function.comp_def, Builder.Call.timestamp?]
  rw [record, htags, hvalues, htime]
  rfl

/-- A record whose tag value and string are made of separators. -/
def Record.sample : Record Value where
  name := bytesOf "request"
  tags := [(bytesOf "resource", bytesOf "/a,b=c \"d\"\\\n"), (bytesOf "city", [])]
  values := [(bytesOf "size", .uint64 7), (bytesOf "status", .int32 (-1)),
    (bytesOf "ok", .bool true), (bytesOf "latitude", .string (bytesOf "x y\n\",z=1i"))]
  timestamp := 1591908061657005325

/-- The records that the sample stands for are read back, twice in a row. -/
theorem read_finish_sample : ∃ b,
    [Record.sample.script 0, Record.sample.script 0].foldlM Builder.put {} = some b ∧
      read b.finish = some [Record.sample.fields, Record.sample.fields] := by
  have hfeed : [Record.sample.script 0, Record.sample.script 0].map record =
      [Record.sample, Record.sample] := by simp [record_script]
  have hwf : Record.sample.WellFormed := ⟨by decide, by decide, by decide, by decide, by decide⟩
  exact read_finish hfeed (by simpa using hwf)

end LineProtocol

end Client

end S3Proxy
