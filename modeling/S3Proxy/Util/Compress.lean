import S3Proxy.Library.FileStore
import S3Proxy.Library.Decimal
import S3Proxy.Model.Configuration

/-!
# Compressing a cached file

`util::compress` writes the gzip of a file to a temporary, named after the source and the clock, and
renames the temporary onto the output.  It may throw at any point before the rename; what the
temporary holds then is up to the failure, and is part of the `CompressOutcome` that resolves it.

## Main results

`compress_eq_ok_iff` says when a compression succeeds and what the store of files is then: the gzip
of the source is the output, and the temporary is gone.  `compress_of_fresh` adds that, if the name
of the temporary was fresh, this is a single write of the output.  `compress_error_frame` is the
other case: after an exception no file but the temporary has changed.

The last section says when two derived names differ.  Numerals end in a digit and the name of a
compressed file ends in `z`, so no temporary is ever a compressed file
(`temporaryName_ne_compressedFileName`), and `compressedFileName_injective` keeps the compressed
files of two sources apart.

## Hypotheses

The codec is that of the `Platform`.  A source that cannot be opened reads as an empty one, as in
the source, so it makes no failure of its own.

## Where it is used

`Server.S3Util` compresses after a download, and `Server.Triple` follows the store of files through
both.  `Server.Serving` reads back what was compressed, and `Server.Site` needs the names to differ.
-/

namespace S3Proxy

/-- The cache directory, by path. -/
abbrev Files := FileStore String Bytes

/-- How one call of `util::compress` goes. -/
inductive CompressOutcome
  | completes
  /-- An exception, with what the temporary holds at that point. -/
  | throws (leftover : Option Bytes)
  deriving DecidableEq, Repr

namespace Util

def compressedFileName (file : String) : String := file ++ ".gz"

/-- The temporary of `compress`. -/
def temporaryName (source : String) (now : TimePoint) : String := source ++ toString now

/-- `util::compress`; `error` is an exception, with the files as it leaves them.  A source that
cannot be opened reads as an empty one. -/
def compress (p : Platform) (source output : String) (now : TimePoint)
    (outcome : CompressOutcome) (fs : Files) : Except Files Files :=
  let tgz := temporaryName source now
  match outcome with
  | .throws none => .error fs
  | .throws (some leftover) => .error (fs.write tgz leftover)
  | .completes =>
      let fs := fs.write tgz (p.gzip.compress ((fs source).getD []))
      match fs.rename tgz output with
      | some fs => .ok fs
      | none => .error fs

variable {p : Platform} {source output : String} {now : TimePoint} {outcome : CompressOutcome}
  {fs fs' : Files}

/-- A completed compression moves the gzip of the source onto the output. -/
lemma compress_completes : compress p source output now .completes fs =
    .ok ((fs.remove (temporaryName source now)).write output
      (p.gzip.compress ((fs source).getD []))) := by
  simp [compress, FileStore.rename, FileStore.write, FileStore.remove, Function.update_idem]

/-- An exception touches nothing but the temporary. -/
lemma compress_error_frame (h : compress p source output now outcome fs = .error fs')
    {n : String} (hn : n ≠ temporaryName source now) : fs' n = fs n := by
  cases outcome with
  | completes => simp [compress_completes] at h
  | throws leftover =>
      cases leftover with
      | none =>
          have heq : fs = fs' := by simpa [compress] using h
          subst heq
          rfl
      | some b =>
          have heq : fs.write (temporaryName source now) b = fs' := by simpa [compress] using h
          subst heq
          exact FileStore.write_of_ne hn

lemma compress_eq_ok_iff : compress p source output now outcome fs = .ok fs' ↔
    outcome = .completes ∧ fs' = (fs.remove (temporaryName source now)).write output
      (p.gzip.compress ((fs source).getD [])) := by
  cases outcome with
  | completes => simp [compress_completes, eq_comm]
  | throws leftover => cases leftover <;> simp [compress]

/-- With a temporary of a fresh name, a completed compression is one write of the output. -/
lemma compress_of_fresh (hfresh : fs (temporaryName source now) = none) :
    compress p source output now .completes fs =
      .ok (fs.write output (p.gzip.compress ((fs source).getD []))) := by
  simp only [compress, FileStore.rename_write_of_fresh hfresh]

/-! ### Names -/

/-- No temporary has the name of a compressed file. -/
lemma temporaryName_ne_compressedFileName (source file : String) (now : TimePoint) :
    temporaryName source now ≠ compressedFileName file := by
  intro h
  obtain ⟨l, c, hnow, hc⟩ := Decimal.isDigit_getLast_toString now
  have h' := congrArg String.toList h
  have hgz : (compressedFileName file).toList = (file.toList ++ ['.', 'g']) ++ ['z'] := by
    simp [compressedFileName, String.toList_append]
  rw [temporaryName, String.toList_append, hnow, ← List.append_assoc, hgz] at h'
  obtain ⟨-, hz⟩ := List.append_inj' h' rfl
  have heq : c = 'z' := by simpa using hz
  subst heq
  exact absurd hc (by decide)

/-- The temporary of `compress` is not its source. -/
lemma temporaryName_ne_source (source : String) (now : TimePoint) :
    temporaryName source now ≠ source := by
  intro h
  obtain ⟨l, c, hnow, -⟩ := Decimal.isDigit_getLast_toString now
  have h' := congrArg String.toList h
  rw [temporaryName, String.toList_append, List.append_right_eq_self, hnow] at h'
  exact absurd h' (by simp)

lemma compressedFileName_ne (file : String) : compressedFileName file ≠ file := by
  intro h
  have hlength := congrArg (fun s => s.toList.length) h
  simp [compressedFileName, String.toList_append] at hlength

lemma compressedFileName_injective : Function.Injective compressedFileName := by
  intro a b h
  have h' := congrArg String.toList h
  simp only [compressedFileName, String.toList_append] at h'
  exact String.toList_inj.mp (List.append_cancel_right h')

end Util

end S3Proxy
