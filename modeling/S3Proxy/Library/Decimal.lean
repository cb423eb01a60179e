import Mathlib.Tactic

/-!
# Decimal numerals as strings

What names built from numbers rely on: a number can be read back from its numeral, a numeral of a
natural number consists of digits only, and every numeral ends in a digit.  `readNat` and `readInt`
are readers for numerals; `padded` is a numeral with zeros in front, up to a width.

## Main results

`toString_nat_injective` and `padded_injective` are what makes names unique.  They come from the
readers, through `readNat_toString`, `readInt_toString` and `readNat_padded`: a text that can be
read back determines the number.

`isDigit_of_mem_toString_nat`, `mem_toString_int` and `isDigit_of_mem_padded` say which characters a
numeral is made of, so that a separator cannot occur in it, and `isDigit_getLast_toString` that its
last character is a digit, so that a suffix put behind it is not taken for a part of it.
`length_toString_nat` and `length_padded` give the number of digits.

## Where it is used

The names of temporary files (`Server.S3Util`) and of log files (`Log.FileWriter`) are unique by the
injectivity, and `Util.Compress` tells a temporary from a compressed file by its last character.
`Model.Text` turns the facts about characters into facts about fields of records,
`Client.LineProtocol` and `Util.Clara` read numbers with the readers, and `Util.Date` prints with
`padded`.
-/

namespace Decimal

lemma toList_toString_nat (n : ℕ) : (toString n).toList = Nat.toDigits 10 n := by
  rw [Nat.toString_eq_repr, Nat.toList_repr]

/-- Different numbers have different numerals. -/
lemma toString_nat_injective : Function.Injective (toString : ℕ → String) := by
  intro m n h
  have h' : Nat.toDigits 10 m = Nat.toDigits 10 n := by
    rw [← toList_toString_nat, ← toList_toString_nat, h]
  rw [← Nat.ofDigitChars_ten_toDigits (n := m), h', Nat.ofDigitChars_ten_toDigits]

lemma isDigit_of_mem_toString_nat {n : ℕ} {c : Char} (h : c ∈ (toString n).toList) :
    c.isDigit := by
  rw [toList_toString_nat] at h
  exact Nat.isDigit_of_mem_toDigits (by decide) (by decide) h

lemma toString_nat_ne_nil (n : ℕ) : (toString n).toList ≠ [] := by
  rw [toList_toString_nat]
  exact Nat.toDigits_ne_nil

/-- The last character of a numeral, signed or not, is a digit. -/
lemma isDigit_getLast_toString (n : ℤ) :
    ∃ l c, (toString n).toList = l ++ [c] ∧ c.isDigit := by
  have key : ∀ m : ℕ, ∃ l c, (toString m).toList = l ++ [c] ∧ c.isDigit := by
    intro m
    obtain ⟨l, c, h⟩ := List.eq_nil_or_concat (toString m).toList |>.resolve_left
      (toString_nat_ne_nil m)
    refine ⟨l, c, by simpa using h, isDigit_of_mem_toString_nat (n := m) ?_⟩
    rw [h]
    simp
  cases n with
  | ofNat m => exact key m
  | negSucc m =>
      obtain ⟨l, c, h, hc⟩ := key (m + 1)
      refine ⟨'-' :: l, c, ?_, hc⟩
      have : toString (Int.negSucc m) = "-" ++ toString (m + 1) := rfl
      rw [this, String.toList_append, h]
      rfl

/-! ### Numerals of a fixed width -/

/-- The numeral with zeros in front, so that it has `w` digits at least. -/
def padded (w n : ℕ) : List Char := (toString n).toList.leftpad w '0'

lemma padded_eq (w n : ℕ) :
    padded w n = List.replicate (w - (toString n).toList.length) '0' ++ (toString n).toList :=
  rfl

/-- A number from `10 ^ k` on has more than `k` digits. -/
lemma lt_length_toString_nat {n k : ℕ} (hle : k = 0 ∨ 10 ^ k ≤ n) :
    k < (toString n).toList.length := by
  rw [toList_toString_nat]
  have hpos : 0 < (Nat.toDigits 10 n).length := Nat.length_toDigits_pos
  rcases Nat.eq_zero_or_pos k with rfl | hk
  · exact hpos
  · have hlower := Nat.length_toDigits_le_iff (b := 10) (n := n) (by omega) hk
    omega

/-- A number below `10 ^ (k + 1)`, but not below `10 ^ k`, has `k + 1` digits. -/
lemma length_toString_nat {n k : ℕ} (hlt : n < 10 ^ (k + 1)) (hle : k = 0 ∨ 10 ^ k ≤ n) :
    (toString n).toList.length = k + 1 := by
  have hlower := lt_length_toString_nat hle
  rw [toList_toString_nat] at hlower ⊢
  have hupper := (Nat.length_toDigits_le_iff (by omega) (Nat.succ_pos k)).mpr hlt
  omega

/-! ### Reading numerals -/

/-- The number that a non-empty sequence of digits stands for. -/
def readNat (l : List Char) : Option ℕ :=
  if l ≠ [] ∧ l.all Char.isDigit then some (Nat.ofDigitChars 10 l 0) else none

/-- A numeral with or without a minus sign. -/
def readInt : List Char → Option ℤ
  | [] => none
  | c :: l =>
      if c = '-' then (readNat l).map fun n => -(n : ℤ) else (readNat (c :: l)).map Int.ofNat

lemma readNat_toString (n : ℕ) : readNat (toString n).toList = some n := by
  have hdigits : (toString n).toList.all Char.isDigit :=
    List.all_eq_true.mpr fun c hc => isDigit_of_mem_toString_nat hc
  rw [readNat, if_pos ⟨toString_nat_ne_nil n, hdigits⟩, toList_toString_nat,
    Nat.ofDigitChars_ten_toDigits]

lemma readInt_toString (n : ℤ) : readInt (toString n).toList = some n := by
  cases n with
  | ofNat m =>
      have hstr : toString (Int.ofNat m) = toString m := rfl
      rw [hstr]
      cases hm : (toString m).toList with
      | nil => exact absurd hm (toString_nat_ne_nil m)
      | cons c l =>
          have hdigit : c.isDigit := isDigit_of_mem_toString_nat (n := m) (hm ▸ List.mem_cons_self)
          have hne : c ≠ '-' := by
            intro h
            subst h
            exact absurd hdigit (by decide)
          rw [readInt, if_neg hne, ← hm, readNat_toString]
          rfl
  | negSucc m =>
      have hstr : toString (Int.negSucc m) = "-" ++ toString (m + 1) := rfl
      have hlist : "-".toList = ['-'] := rfl
      rw [hstr, String.toList_append, hlist, List.singleton_append, readInt, if_pos rfl,
        readNat_toString]
      rfl

/-- A numeral consists of digits and signs. -/
lemma mem_toString_int {n : ℤ} {c : Char} (h : c ∈ (toString n).toList) : c.isDigit ∨ c = '-' := by
  cases n with
  | ofNat m => exact .inl (isDigit_of_mem_toString_nat (n := m) h)
  | negSucc m =>
      have hstr : toString (Int.negSucc m) = "-" ++ toString (m + 1) := rfl
      have hlist : "-".toList = ['-'] := rfl
      rw [hstr, String.toList_append, hlist, List.singleton_append, List.mem_cons] at h
      rcases h with rfl | h
      · exact .inr rfl
      · exact .inl (isDigit_of_mem_toString_nat h)

/-- A numeral with zeros in front is read as the number. -/
lemma readNat_padded (w n : ℕ) : readNat (padded w n) = some n := by
  have hne : padded w n ≠ [] := by
    rw [padded_eq]
    exact List.append_ne_nil_of_right_ne_nil _ (toString_nat_ne_nil n)
  have hdigits : (padded w n).all Char.isDigit := by
    rw [padded_eq, List.all_append, List.all_replicate]
    have htext : (toString n).toList.all Char.isDigit :=
      List.all_eq_true.mpr fun c hc => isDigit_of_mem_toString_nat hc
    simp only [htext, Bool.and_true]
    split <;> rfl
  rw [readNat, if_pos ⟨hne, hdigits⟩, padded_eq, Nat.ofDigitChars_append,
    Nat.ofDigitChars_replicate_zero, Nat.mul_zero, toList_toString_nat,
    Nat.ofDigitChars_ten_toDigits]

lemma padded_injective (w : ℕ) : Function.Injective (padded w) := by
  intro m n h
  have hread := readNat_padded w m
  rw [h, readNat_padded] at hread
  exact (Option.some.inj hread).symm

/-- A number of at most `w` digits takes `w` digits. -/
lemma length_padded {w n : ℕ} (hw : 0 < w) (hn : n < 10 ^ w) : (padded w n).length = w := by
  have hlength := (Nat.length_toDigits_le_iff (b := 10) (n := n) (by omega) hw).mpr hn
  rw [padded_eq, List.length_append, List.length_replicate, toList_toString_nat]
  omega

lemma isDigit_of_mem_padded {w n : ℕ} {c : Char} (h : c ∈ padded w n) : c.isDigit := by
  rw [padded_eq, List.mem_append] at h
  rcases h with hzero | hdigit
  · rw [List.eq_of_mem_replicate hzero]
    rfl
  · exact isDigit_of_mem_toString_nat hdigit

end Decimal
