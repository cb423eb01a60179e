import S3Proxy.Library.Calendar
import S3Proxy.Model.Text

/-!
# The files of the log

`FileWriter` appends every line to the file of the day.  It reads the clock to see whether the day
is still the one whose file is open, and reads it again to name the next file.  With `echo` a line
goes to the console as well, through a stream that writes each character to both.  Nothing looks
whether a file could be opened: the lines of a file that could not go nowhere, and with `echo` the
first character of the first of them is all that the console shows.

## Main results

* `FileWriter.foldl_write`: a sequence of writes leaves behind what its `sessions` show, a session
  being the time from one opening to the next.
* `FileWriter.files_write`: what is in each file and on the console after any sequence of writes,
  whichever openings fail.  A line goes to the file of the day that its session is named after,
  behind what was there before, and to no other file.

`FileWriter.stream_on` is a line within a session and `FileWriter.rollFile_on` the opening of the
next; `Session.shown` is what comes out of one.  That different days have different files is
`logFile_injective`.

## Hypotheses

Nothing is assumed about the clock, which may go back between two reads, nor about which files can
be opened: each `Entry` says what the clock shows and whether an opening at that time succeeds.  An
open file and the console take every character; what a full disk does is not modelled.

## What it rests on

The lines come from `NanoLogger.pop`, which the module `Log.NanoLogger` follows up to its calls of
`write`; their texts are those of `Log.Stringify`.  Names are made of numerals, and
`padded_injective` of `Library.Decimal` keeps them apart.
-/

namespace S3Proxy

namespace Log

deriving instance DecidableEq for Calendar.Date

/-- `operator<<` of a `Day`. -/
def dayText (day : Calendar.Date) : List Char :=
  (toString day.year).toList ++ '-' :: Decimal.padded 2 day.month ++
    '-' :: Decimal.padded 2 day.day

/-- The file that `roll_file` opens. -/
def logFile (name : Bytes) (day : Calendar.Date) : Bytes :=
  name ++ bytesOf "-" ++ (dayText day).map chr ++ bytesOf ".log"

structure FileWriter where
  name : Bytes
  day : Calendar.Date
  /-- The file that `m_os` has open; none if it could not be opened. -/
  file : Option Bytes
  /-- The stream that `write` chooses is in no error state. -/
  good : Bool
  echo : Bool

/-- Where a line can go. -/
structure Output where
  files : Bytes → Bytes
  console : Bytes

/-- A call of `write`: what the clock says at the comparison and in `roll_file`, whether the file
can be opened there, and the text of the line. -/
structure Entry where
  compared : Calendar.Date
  rolled : Calendar.Date
  opens : Bool
  text : Bytes

/-- `roll_file`.  An `open` that fails sets the error state of `m_os`; the stream that writes to
both is a new one and knows nothing of it. -/
def FileWriter.rollFile (w : FileWriter) (today : Calendar.Date) (opens : Bool) : FileWriter :=
  { w with
    day := today
    file := if opens then some (logFile w.name today) else none
    good := opens || w.echo }

/-- The constructor of `FileWriter`. -/
def FileWriter.create (logDirectory logFileName : Bytes) (echo : Bool) (today : Calendar.Date)
    (opens : Bool) : FileWriter :=
  let unopened : FileWriter :=
    { name := logDirectory ++ logFileName, day := today, file := none, good := false, echo }
  unopened.rollFile today opens

/-- `if (day != Day()) roll_file();` -/
def FileWriter.rollIfNeeded (w : FileWriter) (e : Entry) : FileWriter :=
  if w.day ≠ e.compared then w.rollFile e.rolled e.opens else w

/-- A text in the stream that `write` chooses.  `teebuf::overflow` puts a character into the console
before it sees that the file does not take it, and then the stream is in error. -/
def FileWriter.stream (w : FileWriter) (out : Output) (text : Bytes) : FileWriter × Output :=
  if w.good then
    match w.file with
    | some file =>
        (w,
          { files := Function.update out.files file (out.files file ++ text)
            console := if w.echo then out.console ++ text else out.console })
    | none => ({ w with good := text.isEmpty }, { out with console := out.console ++ text.take 1 })
  else (w, out)

/-- `write`. -/
def FileWriter.write (w : FileWriter × Output) (e : Entry) : FileWriter × Output :=
  (w.1.rollIfNeeded e).stream w.2 e.text

/-! ### The names of the files -/

lemma toNat_lt_of_mem_dayText {day : Calendar.Date} {c : Char} (h : c ∈ dayText day) :
    c.toNat < 256 := by
  have hdigit : c.isDigit ∨ c = '-' := by
    simp only [dayText, List.mem_append, List.mem_cons] at h
    rcases h with (hyear | rfl | hmonth) | rfl | hday
    · exact .inl (Decimal.isDigit_of_mem_toString_nat hyear)
    · exact .inr rfl
    · exact .inl (Decimal.isDigit_of_mem_padded hmonth)
    · exact .inr rfl
    · exact .inl (Decimal.isDigit_of_mem_padded hday)
  rcases hdigit with hd | rfl
  · exact toNat_lt_of_isDigit hd
  · decide

lemma dayText_injective : Function.Injective dayText := by
  intro d e h
  have hday (d : Calendar.Date) : (Decimal.padded 2 d.day).length = 2 := by
    have hle := d.day_le.trans Calendar.monthLength_le
    exact Decimal.length_padded (by omega) (by omega)
  have hmonth (d : Calendar.Date) : (Decimal.padded 2 d.month).length = 2 := by
    have hle := d.month_le
    exact Decimal.length_padded (by omega) (by omega)
  obtain ⟨hfront, hdays⟩ := List.append_inj' h (by simp [hday])
  obtain ⟨hyears, hmonths⟩ := List.append_inj' hfront (by simp [hmonth])
  have hyear : d.year = e.year :=
    Decimal.toString_nat_injective (String.toList_inj.mp hyears)
  have hmonth' : d.month = e.month := Decimal.padded_injective 2 (List.tail_eq_of_cons_eq hmonths)
  have hday' : d.day = e.day := Decimal.padded_injective 2 (List.tail_eq_of_cons_eq hdays)
  cases d
  cases e
  simp_all

/-- Each day has a file of its own. -/
lemma logFile_injective (name : Bytes) : Function.Injective (logFile name) := by
  intro d e h
  have htext : (dayText d).map chr = (dayText e).map chr := by
    simpa [logFile] using h
  have hascii := congrArg asciiOf htext
  rw [asciiOf_map_chr fun _ => toNat_lt_of_mem_dayText,
    asciiOf_map_chr fun _ => toNat_lt_of_mem_dayText] at hascii
  exact dayText_injective hascii

/-! ### Runs of the writer -/

/-- The time from one opening to the next: the day that it was named after, whether the file could
be opened, and the lines that were written in it. -/
structure Session where
  day : Calendar.Date
  opened : Bool
  text : Bytes

/-- The sessions of a sequence of lines, of which the first has begun already. -/
def sessions (s : Session) : List Entry → List Session
  | [] => [s]
  | e :: es =>
      if s.day ≠ e.compared then s :: sessions ⟨e.rolled, e.opens, e.text⟩ es
      else sessions { s with text := s.text ++ e.text } es

/-- What the sessions of a day put into its file. -/
def textOf (day : Calendar.Date) (ss : List Session) : Bytes :=
  (ss.filter fun s => s.opened ∧ s.day = day).flatMap Session.text

/-- What a session puts on the console. -/
def Session.shown (s : Session) : Bytes := if s.opened then s.text else s.text.take 1

@[simp] lemma textOf_nil (day : Calendar.Date) : textOf day [] = [] := rfl

lemma textOf_cons (day : Calendar.Date) (s : Session) (ss : List Session) :
    textOf day (s :: ss) = (if s.opened ∧ s.day = day then s.text else []) ++ textOf day ss := by
  by_cases hs : s.opened ∧ s.day = day
  · simp [textOf, hs]
  · rw [if_neg hs, List.nil_append, textOf, List.filter_cons_of_neg (by simpa using hs), textOf]

/-- Every line is in one session, in the order of the calls. -/
lemma flatMap_sessions (s : Session) (es : List Entry) :
    (sessions s es).flatMap Session.text = s.text ++ es.flatMap Entry.text := by
  induction es generalizing s with
  | nil => simp [sessions]
  | cons e es ih =>
      rw [sessions]
      split
      · rw [List.flatMap_cons, ih, List.flatMap_cons]
      · rw [ih, List.flatMap_cons, List.append_assoc]

/-- The writer in a session. -/
def FileWriter.on (w : FileWriter) (s : Session) : FileWriter :=
  { w with
    day := s.day
    file := if s.opened then some (logFile w.name s.day) else none
    good := s.opened || (w.echo && s.text.isEmpty) }

/-- What has come out when a session has been written. -/
def Output.after (out : Output) (w : FileWriter) (s : Session) : Output where
  files :=
    if s.opened then
      Function.update out.files (logFile w.name s.day) (out.files (logFile w.name s.day) ++ s.text)
    else out.files
  console := if w.echo then out.console ++ s.shown else out.console

/-- Nothing has come out of a session that has no line yet. -/
lemma Output.after_nil (out : Output) (w : FileWriter) (day : Calendar.Date) (opened : Bool) :
    out.after w ⟨day, opened, []⟩ = out := by
  cases opened <;> simp [after, Session.shown]

lemma FileWriter.rollFile_on (w : FileWriter) (s : Session) (day : Calendar.Date) (opens : Bool) :
    (w.on s).rollFile day opens = w.on ⟨day, opens, []⟩ := by
  simp [rollFile, on]

/-- A line is one more in its session. -/
lemma FileWriter.stream_on (w : FileWriter) (out : Output) (s : Session) (text : Bytes) :
    (w.on s).stream (out.after w s) text =
      (w.on { s with text := s.text ++ text }, out.after w { s with text := s.text ++ text }) := by
  obtain ⟨day, opened, before⟩ := s
  cases opened with
  | true =>
      -- the file is open, and both take the whole text
      cases hecho : w.echo <;> simp [stream, on, Output.after, Session.shown, hecho]
  | false =>
      cases hecho : w.echo with
      | false => simp [stream, on, Output.after, hecho]
      | true =>
          -- only the first character that is tried gets to the console
          cases before with
          | nil => simp [stream, on, Output.after, Session.shown, hecho]
          | cons c before => simp [stream, on, Output.after, Session.shown, hecho]

/-- What a sequence of writes leaves behind is what its sessions show. -/
lemma FileWriter.foldl_write (w : FileWriter) (out : Output) (s : Session) (es : List Entry) :
    (es.foldl write (w.on s, out.after w s)).2 =
      (sessions s es).foldl (fun out s => out.after w s) out := by
  induction es generalizing out s with
  | nil => rfl
  | cons e es ih =>
      rw [List.foldl_cons, write, rollIfNeeded, sessions]
      by_cases hday : s.day ≠ e.compared
      · rw [if_pos hday, if_pos (show (w.on s).day ≠ e.compared from hday), w.rollFile_on,
          List.foldl_cons, ← ih (out.after w s)]
        have hstream := w.stream_on (out.after w s) ⟨e.rolled, e.opens, []⟩ e.text
        rw [Output.after_nil] at hstream
        rw [hstream]
        rfl
      · rw [if_neg hday, if_neg (show ¬ (w.on s).day ≠ e.compared from hday), w.stream_on, ih]

/-- What sessions leave behind, file by file. -/
lemma Output.foldl_after (w : FileWriter) (out : Output) (ss : List Session) :
    let out' := ss.foldl (fun out s => out.after w s) out
    (∀ d, out'.files (logFile w.name d) = out.files (logFile w.name d) ++ textOf d ss) ∧
    (∀ file, (∀ d, file ≠ logFile w.name d) → out'.files file = out.files file) ∧
    out'.console = out.console ++ if w.echo then ss.flatMap Session.shown else [] := by
  induction ss generalizing out with
  | nil => simp
  | cons s ss ih =>
      obtain ⟨hfiles, hother, hconsole⟩ := ih (out.after w s)
      refine ⟨fun d => ?_, fun file hfile => ?_, ?_⟩
      · rw [List.foldl_cons, hfiles d, textOf_cons, ← List.append_assoc]
        congr 1
        by_cases hopened : s.opened
        · by_cases hd : s.day = d
          · subst hd
            simp [after, hopened]
          · have hfile : logFile w.name d ≠ logFile w.name s.day :=
              fun heq => hd (logFile_injective w.name heq).symm
            simp [after, hopened, hd, hfile]
        · simp [after, hopened]
      · rw [List.foldl_cons, hother file hfile]
        by_cases hopened : s.opened
        · simp [after, hopened, hfile s.day]
        · simp [after, hopened]
      · rw [List.foldl_cons, hconsole]
        show (if w.echo then out.console ++ s.shown else out.console) ++ _ = _
        cases w.echo <;> simp

/-- **A line goes to the file of the day that its session is named after**, if that file could be
opened, in the order of the calls and to no other file; if it could not, the line is in no file.
With `echo` the console shows the lines of the sessions whose file is open, and of each other
session the first character. -/
theorem FileWriter.files_write (logDirectory logFileName : Bytes) (echo : Bool)
    (today : Calendar.Date) (opens : Bool) (out : Output) (es : List Entry) :
    let name := logDirectory ++ logFileName
    let ss := sessions ⟨today, opens, []⟩ es
    let out' := (es.foldl write (create logDirectory logFileName echo today opens, out)).2
    ss.flatMap Session.text = es.flatMap Entry.text ∧
    (∀ d, out'.files (logFile name d) = out.files (logFile name d) ++ textOf d ss) ∧
    (∀ file, (∀ d, file ≠ logFile name d) → out'.files file = out.files file) ∧
    out'.console = out.console ++ if echo then ss.flatMap Session.shown else [] := by
  have hcreate : create logDirectory logFileName echo today opens =
      (create logDirectory logFileName echo today opens).on ⟨today, opens, []⟩ := by
    simp [create, rollFile, on]
  have hrun := (create logDirectory logFileName echo today opens).foldl_write out
    ⟨today, opens, []⟩ es
  rw [Output.after_nil, ← hcreate] at hrun
  refine ⟨flatMap_sessions ⟨today, opens, []⟩ es, ?_⟩
  rw [hrun]
  exact Output.foldl_after (create logDirectory logFileName echo today opens) out _

end Log

end S3Proxy
