import S3Proxy.Library.Calendar
import S3Proxy.Log.Line

/-!
# Writing a line of the log

`stringify` reads back what a `NanoLogLine` holds and writes it as text.  A string ends at its first
NUL byte there.  The stream and the C library are behind `Runtime`: how a floating point number or
an identifier of a thread is written, what a string literal at an address is, and what the clock
shows.

## Main results

`NanoLogLine.stringify_write` is the round trip: a line is written as it was logged, its header and
then the texts of its arguments, and the stream is flushed from the level `INFO` on, if no string
has a NUL byte in it.

`NanoLogLine.stringify_trailingNuls` is exact about the strings that end with NUL bytes.  The first
of them ends the string, and the others are read two by two, as a character and its type; so with an
even number of them the line is written, with half as many NUL characters at its end, and with an
odd number `stringify` runs past the end of the line and is not heard of again.

`stringifyArgs_record` is the step of the first, `stringifyArgs_nuls` of the second.
`stringifyArgs_past` says that a line is never found to end once its end has been passed, since
nothing but fresh cells comes behind it.

## Hypotheses

`Arg.NulFree` of every argument but, for the second result, of the last.  What is left over of the
block holds zeros or nothing, which `Log.Line` proves of every line.

## What it rests on

`Log.Line` for what a line holds, `Library.Cells` for reading it, `Library.Calendar` for the time of
the header.  `Log.NanoLogger` hands the lines to the writer, one at a time.
-/

namespace S3Proxy

namespace Log

/-- What the text of a line depends on besides the line: the text at an address, how the standard
library writes thread ids and floating point numbers, and the time of writing in UTC. -/
structure Runtime where
  textAt : UInt64 → Bytes
  threadText : UInt64 → Bytes
  doubleText : UInt64 → Bytes
  now : Calendar.Moment

/-- `format_timestamp`. -/
def formatTimestamp (t : Calendar.Moment) : Bytes :=
  bytesOf "[" ++ formatNat t.year ++ bytesOf "-" ++ (Decimal.padded 2 t.month).map chr ++
    bytesOf "-" ++ (Decimal.padded 2 t.day).map chr ++ bytesOf " " ++
    (Decimal.padded 2 t.hour).map chr ++ bytesOf ":" ++ (Decimal.padded 2 t.minute).map chr ++
    bytesOf ":" ++ (Decimal.padded 2 t.second).map chr ++ bytesOf "." ++
    (Decimal.padded 6 (1000 * t.milli + t.micro)).map chr ++ bytesOf "]"

/-- `to_string` of a log level, as it is read from the line. -/
def levelText (level : ℕ) : Bytes :=
  match level with
  | 0 => bytesOf "DEBUG"
  | 1 => bytesOf "INFO"
  | 2 => bytesOf "WARN"
  | 3 => bytesOf "CRIT"
  | _ => bytesOf "XXXX"

/-- `decode` of a value of `k` bytes. -/
def decodeValue (k : ℕ) (text : ℕ → Bytes) (b : List Cell) : Option (Bytes × List Cell) :=
  (Cells.load k b).map fun r => (text (LittleEndian.decode r.1), r.2)

/-- `decode` of a `char *`. -/
def decodeCString : List Cell → Option (Bytes × List Cell)
  | some c :: b => if c = 0 then some ([], b) else (decodeCString b).map fun r => (c :: r.1, r.2)
  | none :: _ => none
  | [] => none

/-- The cases of the `switch` over the types. -/
def decode (rt : Runtime) (typeId : ℕ) : Option (List Cell → Option (Bytes × List Cell)) :=
  match typeId with
  | 0 => some (decodeValue 1 fun n => [UInt8.ofNat n])
  | 1 => some (decodeValue 4 formatNat)
  | 2 => some (decodeValue 8 formatNat)
  | 3 => some (decodeValue 4 fun n => formatInt (UInt32.ofNat n).toInt32.toInt)
  | 4 => some (decodeValue 8 fun n => formatInt (UInt64.ofNat n).toInt64.toInt)
  | 5 => some (decodeValue 8 fun n => rt.doubleText (UInt64.ofNat n))
  | 6 => some (decodeValue 8 fun n => rt.textAt (UInt64.ofNat n))
  | 7 => some decodeCString
  | _ => none

lemma length_of_decodeValue {k : ℕ} {text : ℕ → Bytes} {b b' : List Cell} {t : Bytes}
    (h : decodeValue k text b = some (t, b')) : b.length = k + b'.length := by
  obtain ⟨⟨bs, rest⟩, hload, heq⟩ := Option.map_eq_some_iff.mp h
  obtain rfl : rest = b' := congrArg Prod.snd heq
  exact (Cells.length_of_load hload).2

lemma length_of_decodeCString {b b' : List Cell} {t : Bytes}
    (h : decodeCString b = some (t, b')) : b'.length < b.length := by
  induction b generalizing t with
  | nil => simp [decodeCString] at h
  | cons c b ih =>
      cases c with
      | none => simp [decodeCString] at h
      | some c =>
          rw [decodeCString] at h
          split at h
          · simp only [Option.some.injEq, Prod.mk.injEq] at h
            simp [h.2]
          · obtain ⟨⟨t', rest⟩, hrest, heq⟩ := Option.map_eq_some_iff.mp h
            obtain rfl : rest = b' := congrArg Prod.snd heq
            have hlt := ih hrest
            simp only [List.length_cons]
            omega

/-- Every `decode` goes forward. -/
lemma length_le_of_decode {rt : Runtime} {typeId : ℕ}
    {d : List Cell → Option (Bytes × List Cell)} {b b' : List Cell} {t : Bytes}
    (hd : decode rt typeId = some d) (h : d b = some (t, b')) : b'.length ≤ b.length := by
  have hvalue (k : ℕ) (text : ℕ → Bytes) (hk : d = decodeValue k text) : b'.length ≤ b.length := by
    have hlength := length_of_decodeValue (hk ▸ h)
    omega
  unfold decode at hd
  split at hd
  case h_8 =>
    obtain rfl := (Option.some.inj hd).symm
    exact (length_of_decodeCString h).le
  case h_9 => cases hd
  all_goals exact hvalue _ _ (Option.some.inj hd).symm

/-- The arguments from a pointer on.  The end of the line is `past` cells before that of the block,
and the loop looks for it only between two arguments. -/
def stringifyArgs (rt : Runtime) (past : ℕ) (start : List Cell) : Option Bytes :=
  if start.length = past then some []
  else match start with
    | [] => none
    | none :: _ => none
    | some typeId :: b =>
      match _hd : decode rt typeId.toNat with
      | none => some []
      | some d =>
        match _hb : d b with
        | none => none
        | some (t, b') => (stringifyArgs rt past b').map (t ++ ·)
termination_by start.length
decreasing_by
  have hle := length_le_of_decode _hd _hb
  simp only [List.length_cons]
  omega

/-- `stringify`: the text, and whether the stream is flushed afterwards. -/
def NanoLogLine.stringify (rt : Runtime) (l : NanoLogLine) : Option (Bytes × Bool) := do
  let past := l.block.length - l.bytesUsed
  let b := l.block.drop 8
  let (threadId, b) ← Cells.load 8 b
  let (file, b) ← Cells.load 8 b
  let (function, b) ← Cells.load 8 b
  let (line, b) ← Cells.load 4 b
  let (logLevel, b) ← Cells.load 1 b
  let args ← stringifyArgs rt past b
  let value (bs : Bytes) := LittleEndian.decode bs
  some (formatTimestamp rt.now ++
    bytesOf "[" ++ levelText (value logLevel) ++ bytesOf "]" ++
    bytesOf "[" ++ rt.threadText (UInt64.ofNat (value threadId)) ++ bytesOf "]" ++
    bytesOf "[" ++ rt.textAt (UInt64.ofNat (value file)) ++ bytesOf ":" ++
    rt.textAt (UInt64.ofNat (value function)) ++ bytesOf ":" ++ formatNat (value line) ++
    bytesOf "] " ++ args ++ bytesOf "\n", decide (1 ≤ value logLevel))

/-! ### What is written -/

/-- The text of an argument. -/
def Arg.text (rt : Runtime) : Arg → Bytes
  | .char c => [c]
  | .uint32 n => formatNat n.toNat
  | .uint64 n => formatNat n.toNat
  | .int32 n => formatInt n.toInt
  | .int64 n => formatInt n.toInt
  | .double bits => rt.doubleText bits
  | .literal address => rt.textAt address
  | .pointer none => []
  | .pointer (some s) => s.text
  | .string s => s
  | .stringView s => s

/-- No NUL byte is logged as part of a string. -/
def Arg.NulFree : Arg → Prop
  | .string s => 0 ∉ s
  | .stringView s => 0 ∉ s
  | _ => True

instance : DecidablePred Arg.NulFree
  | .string s => inferInstanceAs (Decidable (0 ∉ s))
  | .stringView s => inferInstanceAs (Decidable (0 ∉ s))
  | .char _ | .uint32 _ | .uint64 _ | .int32 _ | .int64 _ | .double _ | .literal _ | .pointer _ =>
    .isTrue trivial

/-- The beginning of a line. -/
def Header.text (rt : Runtime) (h : Header) : Bytes :=
  formatTimestamp rt.now ++ bytesOf "[" ++ levelText h.level.value ++ bytesOf "]" ++
    bytesOf "[" ++ rt.threadText h.threadId ++ bytesOf "]" ++
    bytesOf "[" ++ rt.textAt h.file ++ bytesOf ":" ++ rt.textAt h.function ++ bytesOf ":" ++
    formatNat h.line.toNat ++ bytesOf "] "

variable {rt : Runtime} {b rest : List Cell} {bs : Bytes} {past : ℕ}

lemma decodeCString_of_notMem {s : Bytes} (h : 0 ∉ s) :
    decodeCString (Cells.holding (s ++ [0]) ++ rest) = some (s, rest) := by
  induction s with
  | nil => rfl
  | cons c s ih =>
      rw [List.mem_cons, not_or] at h
      have hc : c ≠ 0 := fun heq => h.1 heq.symm
      show decodeCString (some c :: (Cells.holding (s ++ [0]) ++ rest)) = _
      rw [decodeCString, if_neg hc, ih h.2, Option.map_some]

lemma load_encode {k n : ℕ} :
    Cells.load k (Cells.holding (LittleEndian.encode k n) ++ rest) =
      some (LittleEndian.encode k n, rest) := by
  have hload := Cells.load_holding (LittleEndian.encode k n) rest
  rwa [LittleEndian.length_encode] at hload

lemma decodeValue_encode {k n : ℕ} {text : ℕ → Bytes} (hn : n < 256 ^ k) :
    decodeValue k text (Cells.holding (LittleEndian.encode k n) ++ rest) = some (text n, rest) := by
  rw [decodeValue, load_encode, Option.map_some, LittleEndian.decode_encode_of_lt hn]

lemma stringifyArgs_end (h : b.length = past) : stringifyArgs rt past b = some [] := by
  unfold stringifyArgs
  exact if_pos h

/-- One argument, and then the others. -/
lemma stringifyArgs_cons {typeId : UInt8} {d : List Cell → Option (Bytes × List Cell)}
    (hpast : b.length + 1 ≠ past) (hd : decode rt typeId.toNat = some d) :
    stringifyArgs rt past (some typeId :: b) =
      (d b).bind fun r => (stringifyArgs rt past r.2).map (r.1 ++ ·) := by
  rw [stringifyArgs.eq_def, if_neg (by simpa using hpast)]
  simp only
  split
  next hnone => simp [hd] at hnone
  next d' hd' =>
    obtain rfl : d = d' := Option.some.inj (hd.symm.trans hd')
    split
    next hb => rw [hb, Option.bind_none]
    next t b' hb => rw [hb, Option.bind_some]

/-- **One argument** is written as it was logged. -/
lemma stringifyArgs_record {a : Arg} (ha : a.NulFree) (hpast : past ≤ rest.length) :
    stringifyArgs rt past (Cells.holding a.record ++ rest) =
      (stringifyArgs rt past rest).map (a.text rt ++ ·) := by
  have hskip : stringifyArgs rt past rest = (stringifyArgs rt past rest).map ([] ++ ·) := by
    simp
  have hvalue (typeId : UInt8) (k n : ℕ) (text : ℕ → Bytes) (hn : n < 256 ^ k)
      (hd : decode rt typeId.toNat = some (decodeValue k text)) :
      stringifyArgs rt past (Cells.holding (typeId :: LittleEndian.encode k n) ++ rest) =
        (stringifyArgs rt past rest).map (text n ++ ·) := by
    rw [Cells.holding_cons, List.cons_append, stringifyArgs_cons _ hd, decodeValue_encode hn,
      Option.bind_some]
    simp only [List.length_append, Cells.length_holding, LittleEndian.length_encode]
    omega
  have hstring (s : Bytes) (hs : 0 ∉ s) :
      stringifyArgs rt past (Cells.holding (7 :: s ++ [0]) ++ rest) =
        (stringifyArgs rt past rest).map (s ++ ·) := by
    rw [List.cons_append, Cells.holding_cons, List.cons_append,
      stringifyArgs_cons (d := decodeCString) _ rfl, decodeCString_of_notMem hs, Option.bind_some]
    simp only [List.length_append, Cells.length_holding]
    omega
  cases a with
  | char c =>
      have htext := hvalue 0 1 c.toNat (fun n => [UInt8.ofNat n]) c.toNat_lt rfl
      simpa [Arg.record, Arg.text] using htext
  | uint32 n => exact hvalue 1 4 n.toNat formatNat n.toNat_lt rfl
  | uint64 n => exact hvalue 2 8 n.toNat formatNat n.toNat_lt rfl
  | int32 n =>
      have htext := hvalue 3 4 n.toUInt32.toNat _ n.toUInt32.toNat_lt rfl
      simpa [Arg.record, Arg.text] using htext
  | int64 n =>
      have htext := hvalue 4 8 n.toUInt64.toNat _ n.toUInt64.toNat_lt rfl
      simpa [Arg.record, Arg.text] using htext
  | double bits =>
      have htext := hvalue 5 8 bits.toNat _ bits.toNat_lt rfl
      simpa [Arg.record, Arg.text] using htext
  | literal address =>
      have htext := hvalue 6 8 address.toNat _ address.toNat_lt rfl
      simpa [Arg.record, Arg.text] using htext
  | pointer s =>
      cases s with
      | none => exact hskip
      | some s =>
          by_cases hempty : s.text = []
          · simp [Arg.record, Arg.text, hempty, Cells.holding]
          · rw [Arg.record, if_neg hempty]
            exact hstring s.text s.terminated
  | string s =>
      by_cases hempty : s = []
      · simp [Arg.record, Arg.text, hempty, Cells.holding]
      · rw [Arg.record, if_neg hempty]
        exact hstring s ha
  | stringView s => exact hstring s ha

/-- Any number of arguments. -/
lemma stringifyArgs_flatMap {args : List Arg} (hargs : ∀ a ∈ args, a.NulFree)
    (hpast : past ≤ rest.length) :
    stringifyArgs rt past (Cells.holding (args.flatMap Arg.record) ++ rest) =
      (stringifyArgs rt past rest).map (args.flatMap (Arg.text rt) ++ ·) := by
  induction args with
  | nil => simp [Cells.holding]
  | cons a args ih =>
      rw [List.forall_mem_cons] at hargs
      have hpast' : past ≤ (Cells.holding (args.flatMap Arg.record) ++ rest).length := by
        rw [List.length_append]
        omega
      rw [List.flatMap_cons, List.flatMap_cons, Cells.holding_append, List.append_assoc,
        stringifyArgs_record hargs.1 hpast', ih hargs.2, Option.map_map]
      congr 1
      funext t
      simp

/-! ### Whole lines -/

lemma levelText_value (level : LogLevel) :
    LittleEndian.decode (LittleEndian.encode 1 level.value) = level.value := by
  apply LittleEndian.decode_encode_of_lt
  cases level <;> decide

/-- The header is written, and then the arguments. -/
lemma NanoLogLine.Holds.stringify {l : NanoLogLine} {h : Header} {needed : ℕ}
    (hl : Holds l (h.bytes ++ bs) needed) :
    l.stringify rt = (stringifyArgs rt (l.block.length - l.bytesUsed)
      (Cells.holding bs ++ l.block.drop (h.bytes ++ bs).length)).map fun args =>
        (h.text rt ++ args ++ bytesOf "\n", decide (h.level ≠ .debug)) := by
  have hblock : l.block = Cells.holding (LittleEndian.encode 8 h.timestamp.toNat) ++
      (Cells.holding (LittleEndian.encode 8 h.threadId.toNat) ++
      (Cells.holding (LittleEndian.encode 8 h.file.toNat) ++
      (Cells.holding (LittleEndian.encode 8 h.function.toNat) ++
      (Cells.holding (LittleEndian.encode 4 h.line.toNat) ++
      (Cells.holding (LittleEndian.encode 1 h.level.value) ++
      (Cells.holding bs ++ l.block.drop (h.bytes ++ bs).length)))))) := by
    conv_lhs => rw [← List.take_append_drop (h.bytes ++ bs).length l.block, hl.take]
    simp [Header.bytes, Header.fields, Cells.holding]
  have hflush : decide (1 ≤ h.level.value) = decide (h.level ≠ .debug) := by
    cases h.level <;> rfl
  have hskip : l.block.drop 8 = _ := hblock ▸ List.drop_left' (by simp)
  unfold NanoLogLine.stringify
  rw [hskip]
  simp only [load_encode, Option.bind_eq_bind, Option.bind_some, levelText_value, hflush,
    LittleEndian.decode_encode_of_lt (k := 8) h.threadId.toNat_lt,
    LittleEndian.decode_encode_of_lt (k := 8) h.file.toNat_lt,
    LittleEndian.decode_encode_of_lt (k := 8) h.function.toNat_lt,
    LittleEndian.decode_encode_of_lt (k := 4) h.line.toNat_lt, UInt64.ofNat_toNat]
  exact (Option.map_eq_bind).symm

/-- **A line is written as it was logged**: its header and then the texts of what was logged, if no
string has a NUL byte in it.  The stream is flushed from the level `INFO` on. -/
theorem NanoLogLine.stringify_write (rt : Runtime) (h : Header) (args : List Arg)
    (hargs : ∀ a ∈ args, a.NulFree) :
    (write h args).bind (stringify rt) =
      some (h.text rt ++ args.flatMap (Arg.text rt) ++ bytesOf "\n", decide (h.level ≠ .debug)) := by
  obtain ⟨l, hwrite, hl⟩ := holds_write h args
  have hpast : (l.block.drop (h.bytes ++ args.flatMap Arg.record).length).length =
      l.block.length - l.bytesUsed := by
    rw [List.length_drop, hl.used]
  rw [hwrite, Option.bind_some, hl.stringify, stringifyArgs_flatMap hargs hpast.ge,
    stringifyArgs_end hpast]
  simp

/-- A runtime in which every literal is `GET`, on a day in 2020. -/
def sampleRuntime : Runtime where
  textAt _ := bytesOf "GET "
  threadText n := formatNat n.toNat
  doubleText n := formatNat n.toNat
  now := { year := 2020, month := 2, day := 29, month_pos := by decide, month_le := by decide
           day_pos := by decide, day_le := by decide, hour := 12, minute := 0, second := 0
           milli := 0, micro := 0, hour_lt := by decide, minute_lt := by decide
           second_lt := by decide, milli_lt := by decide, micro_lt := by decide }

def sampleHeader : Header := ⟨0, 1, 4096, 4160, 42, .info⟩

theorem NanoLogLine.stringify_write_request :
    (write sampleHeader [.literal 4096, .string (bytesOf "/a"), .uint32 404]).bind
        (stringify sampleRuntime) =
      some (sampleHeader.text sampleRuntime ++
        [Arg.literal 4096, .string (bytesOf "/a"), .uint32 404].flatMap (Arg.text sampleRuntime) ++
        bytesOf "\n", decide (sampleHeader.level ≠ .debug)) :=
  stringify_write sampleRuntime sampleHeader _ (by decide)

/-- A NUL byte in the place of a type is the type of a character. -/
lemma stringifyArgs_zero (hpast : b.length + 1 ≠ past)
    (hrest : ∀ c b', b = some c :: b' → stringifyArgs rt past b' = none) :
    stringifyArgs rt past (some 0 :: b) = none := by
  have hd : decode rt (0 : UInt8).toNat = some (decodeValue 1 fun n => [UInt8.ofNat n]) := rfl
  rw [stringifyArgs_cons hpast hd]
  match b with
  | [] => rfl
  | none :: b => rfl
  | some c :: b =>
      show (stringifyArgs rt past b).map _ = none
      rw [hrest c b rfl, Option.map_none]

/-- Behind its end a line is never found to end: two NUL bytes after the other are read as an
argument, until the block ends or a cell comes that was never written. -/
lemma stringifyArgs_past (hlt : b.length < past) (hfresh : ∀ c ∈ b, c = none ∨ c = some 0) :
    stringifyArgs rt past b = none := by
  induction hn : b.length using Nat.strong_induction_on generalizing b with
  | _ n ih =>
      subst hn
      match b with
      | [] => rw [stringifyArgs.eq_def, if_neg hlt.ne]
      | none :: b => rw [stringifyArgs.eq_def, if_neg hlt.ne]
      | some c :: b =>
          obtain rfl : c = 0 := by simpa using hfresh (some c) (by simp)
          apply stringifyArgs_zero hlt.ne
          rintro c b' rfl
          simp only [List.length_cons] at hlt ih
          exact ih b'.length (by omega) (by omega) (fun d hd => hfresh d (by simp [hd])) rfl

/-- NUL bytes at the end of a line are read two by two, as a character and its type. -/
lemma stringifyArgs_nuls (hpast : b.length = past) (hfresh : ∀ c ∈ b, c = none ∨ c = some 0)
    (k : ℕ) : stringifyArgs rt past (Cells.holding (List.replicate k 0) ++ b) =
      if Even k then some (List.replicate (k / 2) 0) else none := by
  induction k using Nat.twoStepInduction with
  | zero => exact stringifyArgs_end hpast
  | one =>
      show stringifyArgs rt past (some 0 :: b) = none
      apply stringifyArgs_zero (by omega)
      intro c b' hb'
      have hlength := congrArg List.length hb'
      rw [List.length_cons] at hlength
      exact stringifyArgs_past (by omega) fun d hd => hfresh d (by rw [hb']; simp [hd])
  | more k ih _ =>
      have hd : decode rt (0 : UInt8).toNat = some (decodeValue 1 fun n => [UInt8.ofNat n]) := rfl
      have hcells : Cells.holding (List.replicate (k + 2) 0) ++ b =
          some 0 :: (Cells.holding (LittleEndian.encode 1 0) ++
            (Cells.holding (List.replicate k 0) ++ b)) := by
        simp [List.replicate_succ, Cells.holding, LittleEndian.encode]
      have hlong : (Cells.holding (LittleEndian.encode 1 0) ++
          (Cells.holding (List.replicate k 0) ++ b)).length + 1 ≠ past := by
        rw [List.length_append, List.length_append]
        omega
      rw [hcells, stringifyArgs_cons hlong hd, decodeValue_encode (by norm_num), Option.bind_some,
        ih, Nat.add_div_right k Nat.two_pos, List.replicate_succ]
      have hiff : Even (k + 2) ↔ Even k := by simp [Nat.even_add]
      by_cases hk : Even k
      · rw [if_pos hk, if_pos (hiff.mpr hk)]
        rfl
      · rw [if_neg hk, if_neg (mt hiff.mp hk)]
        rfl

/-- **A string that ends with NUL bytes** is written without them if their number is even, but for
one NUL character for two of them.  If it is odd `stringify` reads on behind the end of the line,
out of its block or up to a cell that was never written. -/
theorem NanoLogLine.stringify_trailingNuls (rt : Runtime) (h : Header) (args : List Arg)
    (s : Bytes) (k : ℕ) (hargs : ∀ a ∈ args, a.NulFree) (hs : 0 ∉ s) :
    (write h (args ++ [.string (s ++ List.replicate k 0)])).bind (stringify rt) =
      if Even k then
        some (h.text rt ++ (args.flatMap (Arg.text rt) ++ s ++ List.replicate (k / 2) 0) ++
          bytesOf "\n", decide (h.level ≠ .debug))
      else none := by
  by_cases hempty : s ++ List.replicate k 0 = []
  · -- Of an empty string nothing is stored.
    obtain ⟨rfl, hk⟩ := List.append_eq_nil_iff.mp hempty
    obtain rfl : k = 0 := by simpa using hk
    have hall : ∀ a ∈ args ++ [Arg.string ([] ++ List.replicate 0 0)], a.NulFree :=
      List.forall_mem_append.mpr ⟨hargs, List.forall_mem_singleton.mpr hs⟩
    rw [stringify_write rt h _ hall]
    simp [Arg.text]
  · obtain ⟨l, hwrite, hl⟩ := holds_write h (args ++ [.string (s ++ List.replicate k 0)])
    obtain ⟨rest, hrest⟩ : ∃ rest, rest = l.block.drop
        (h.bytes ++ (args ++ [Arg.string (s ++ List.replicate k 0)]).flatMap Arg.record).length :=
      ⟨_, rfl⟩
    have hpast : rest.length = l.block.length - l.bytesUsed := by
      rw [hrest, List.length_drop, hl.used]
    have hfresh : ∀ c ∈ rest, c = none ∨ c = some 0 := hrest ▸ hl.fresh
    -- The text ends at the first NUL byte, and as many are left.
    have hrecords : Cells.holding
        ((args ++ [Arg.string (s ++ List.replicate k 0)]).flatMap Arg.record) ++ rest =
          Cells.holding (args.flatMap Arg.record) ++
            (Cells.holding (Arg.stringView s).record ++
              (Cells.holding (List.replicate k 0) ++ rest)) := by
      have hrecord : (Arg.string (s ++ List.replicate k 0)).record =
          (Arg.stringView s).record ++ List.replicate k 0 := by
        rw [Arg.record, if_neg hempty, Arg.record, List.cons_append, List.append_assoc,
          List.cons_append, List.cons_append, List.append_assoc, ← List.replicate_succ',
          List.replicate_succ]
        rfl
      rw [List.flatMap_append, List.flatMap_singleton, hrecord, Cells.holding_append,
        Cells.holding_append, List.append_assoc, List.append_assoc]
    have hlong : l.block.length - l.bytesUsed ≤
        (Cells.holding (List.replicate k 0) ++ rest).length := by
      rw [List.length_append]
      omega
    rw [hwrite, Option.bind_some, hl.stringify, ← hrest, hrecords, stringifyArgs_flatMap hargs,
      stringifyArgs_record (a := .stringView s) hs hlong, stringifyArgs_nuls hpast hfresh]
    · by_cases hk : Even k
      · simp [hk, Arg.text]
      · simp [hk]
    · rw [List.length_append]
      omega

/-- A path with a NUL byte at its end. -/
theorem NanoLogLine.stringify_trailingNuls_path :
    (write sampleHeader
        ([.literal 4096] ++ [.string (bytesOf "/a" ++ List.replicate 1 0)])).bind
      (stringify sampleRuntime) =
      if Even 1 then
        some (sampleHeader.text sampleRuntime ++ ([Arg.literal 4096].flatMap (Arg.text sampleRuntime)
          ++ bytesOf "/a" ++ List.replicate (1 / 2) 0) ++ bytesOf "\n",
          decide (sampleHeader.level ≠ .debug))
      else none :=
  stringify_trailingNuls sampleRuntime sampleHeader [.literal 4096] (bytesOf "/a") 1 (by decide)
    (by decide)

end Log

end S3Proxy
