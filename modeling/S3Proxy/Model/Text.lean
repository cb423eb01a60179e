import S3Proxy.Library.Decimal
import S3Proxy.Model.Configuration

/-!
# Bytes as text

The strings of the program are bytes.  `chr` and `bytesOf` write characters as bytes; numbers are
formatted in decimal (`formatNat`, `formatInt`), and `asciiOf` reads bytes back as characters.

## Main results

`asciiOf_map_chr` is the round trip, for characters that are a byte.  `asciiOf_formatNat` and
`asciiOf_formatInt` are its cases for numerals, so that a number that was formatted can be read with
the readers of `Library.Decimal`.  `mem_formatInt` says which bytes a formatted number has in it:
those of digits and of a sign, and therefore none that has a meaning in a format built around it.

## Where it is used

`Client.LineProtocol` and `Client.Builder` format the numbers of a record, and the proof that
records are read back rests on `asciiOf_formatInt` and `mem_formatInt`.  `Util.Date`,
`Log.Stringify` and `Log.FileWriter` write numbers into texts, and the modules of `Router` write
patterns and paths as bytes.
-/

namespace S3Proxy

/-- The byte of an ASCII character. -/
def chr (c : Char) : UInt8 := UInt8.ofNat c.toNat

lemma bytesOf_eq (s : String) : bytesOf s = s.toList.map chr := rfl

/-- `fmt::format( "{}", n )` of an unsigned number. -/
def formatNat (n : ℕ) : Bytes := bytesOf (toString n)

/-- `fmt::format( "{}", n )` of a signed number. -/
def formatInt (n : ℤ) : Bytes := bytesOf (toString n)

/-- The characters of an ASCII text. -/
def asciiOf (b : Bytes) : List Char := b.map fun c => Char.ofNat c.toNat

lemma asciiOf_map_chr {l : List Char} (h : ∀ c ∈ l, c.toNat < 256) : asciiOf (l.map chr) = l := by
  have hchar : ∀ c ∈ l, Char.ofNat (chr c).toNat = c := by
    intro c hc
    rw [chr, UInt8.toNat_ofNat', Nat.mod_eq_of_lt (h c hc), Char.ofNat_toNat]
  rw [asciiOf, List.map_map]
  exact (List.map_congr_left hchar).trans (List.map_id _)

lemma toNat_lt_of_isDigit {c : Char} (h : c.isDigit) : c.toNat < 256 := by
  have hle := (Char.isDigit_iff_toNat.mp h).2
  have h9 : '9'.toNat = 57 := rfl
  omega

lemma toNat_lt_of_mem_toString {n : ℤ} {c : Char} (h : c ∈ (toString n).toList) :
    c.toNat < 256 := by
  rcases Decimal.mem_toString_int h with hd | rfl
  · exact toNat_lt_of_isDigit hd
  · decide

lemma asciiOf_formatNat (n : ℕ) : asciiOf (formatNat n) = (toString n).toList :=
  asciiOf_map_chr fun _ hc => toNat_lt_of_isDigit (Decimal.isDigit_of_mem_toString_nat hc)

lemma asciiOf_formatInt (n : ℤ) : asciiOf (formatInt n) = (toString n).toList :=
  asciiOf_map_chr fun _ hc => toNat_lt_of_mem_toString hc

/-- A character of a numeral is the byte of a digit or of a sign. -/
lemma mem_formatInt {n : ℤ} {b : UInt8} (h : b ∈ formatInt n) :
    ∃ c : Char, (c.isDigit ∨ c = '-') ∧ chr c = b := by
  obtain ⟨c, hc, hb⟩ := List.mem_map.mp h
  exact ⟨c, Decimal.mem_toString_int hc, hb⟩

end S3Proxy
