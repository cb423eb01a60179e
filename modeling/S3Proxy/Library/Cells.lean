import Mathlib.Tactic

/-!
# Blocks of memory

A block is a list of cells.  A cell that was never written holds no byte, and a pointer into a block
is the rest of the block from there.  `poke` copies cells into a block and `load` reads bytes; each
of them gives `none` where a program would leave the block, and `load` also where it would read a
cell without a byte.

`LittleEndian` writes a number as a given number of bytes, the lowest first.

## Main results

`load_holding` reads back what was written, and `poke_holding` adds cells behind the bytes that a
block holds already; its hypothesis is that they fit.  `poke_replicate` is the copy to the front of
a new block.  `length_of_load` gives what every successful load has in common: it takes as many
cells as it gives bytes.

For numbers the round trip is `decode_encode`, up to the numbers that fit, and `decode_encode_of_lt`
for one that does.

## What is left out

There is one block at a time and no address arithmetic between blocks.  A program that keeps several
blocks has several lists, and what it may reach from one of them is the rest of that list.

## Where it is used

`Log.Line` writes the arguments of a log line into its buffer with `poke`, and `Log.Stringify` reads
them back with `load`; the theorems on both sides are stated about the same cells.
-/

namespace LittleEndian

/-- The low `k` bytes of a number. -/
def encode : ℕ → ℕ → List UInt8
  | 0, _ => []
  | k + 1, n => UInt8.ofNat n :: encode k (n / 256)

/-- The number with the given bytes. -/
def decode : List UInt8 → ℕ
  | [] => 0
  | b :: bs => b.toNat + 256 * decode bs

@[simp] lemma length_encode (k n : ℕ) : (encode k n).length = k := by
  induction k generalizing n with
  | zero => rfl
  | succ k ih => rw [encode, List.length_cons, ih]

lemma decode_encode (k n : ℕ) : decode (encode k n) = n % 256 ^ k := by
  induction k generalizing n with
  | zero => simp [encode, decode, Nat.mod_one]
  | succ k ih =>
      have hlow : (UInt8.ofNat n).toNat = n % 256 := UInt8.toNat_ofNat'
      rw [encode, decode, ih, hlow, pow_succ', Nat.mod_mul]

/-- A number that fits is read back. -/
lemma decode_encode_of_lt {k n : ℕ} (h : n < 256 ^ k) : decode (encode k n) = n := by
  rw [decode_encode, Nat.mod_eq_of_lt h]

end LittleEndian

/-- A byte of memory, or one that was never written. -/
abbrev Cell := Option UInt8

namespace Cells

/-- The cells that hold the given bytes. -/
def holding (bs : List UInt8) : List Cell := bs.map some

/-- Copies `src` into a block, from position `i` on. -/
def poke (i : ℕ) (src block : List Cell) : Option (List Cell) :=
  if i + src.length ≤ block.length then
    some (block.take i ++ src ++ block.drop (i + src.length))
  else none

/-- Reads `n` bytes, and moves on behind them. -/
def load : ℕ → List Cell → Option (List UInt8 × List Cell)
  | 0, rest => some ([], rest)
  | n + 1, some b :: rest => (load n rest).map fun r => (b :: r.1, r.2)
  | _ + 1, none :: _ => none
  | _ + 1, [] => none

variable {bs cs : List UInt8} {block block' rest src : List Cell} {i n : ℕ}

@[simp] lemma length_holding : (holding bs).length = bs.length := List.length_map _

lemma holding_append : holding (bs ++ cs) = holding bs ++ holding cs := List.map_append

lemma holding_cons {b : UInt8} : holding (b :: bs) = some b :: holding bs := rfl

/-- What `poke` does in the bounds of the block. -/
lemma poke_of_le (h : i + src.length ≤ block.length) :
    poke i src block = some (block.take i ++ src ++ block.drop (i + src.length)) := if_pos h

/-- Bytes are added behind those that a block holds. -/
lemma poke_holding (hfits : bs.length + src.length ≤ (holding bs ++ rest).length) :
    poke bs.length src (holding bs ++ rest) = some (holding bs ++ src ++ rest.drop src.length) := by
  have hdrop : (holding bs ++ rest).drop (bs.length + src.length) = rest.drop src.length := by
    rw [← List.drop_drop, List.drop_left' length_holding]
  rw [poke_of_le hfits, hdrop, List.take_left' length_holding]

/-- Bytes are copied to the front of a new block. -/
lemma poke_replicate {c : Cell} (hfits : bs.length ≤ n) :
    poke 0 (holding bs) (List.replicate n c) =
      some (holding bs ++ List.replicate (n - bs.length) c) := by
  rw [poke_of_le (by simpa using hfits)]
  simp

/-- Bytes that were written are loaded. -/
lemma load_holding (bs : List UInt8) (rest : List Cell) :
    load bs.length (holding bs ++ rest) = some (bs, rest) := by
  induction bs with
  | nil => rfl
  | cons b bs ih => rw [holding_cons, List.cons_append, List.length_cons, load, ih, Option.map_some]

lemma length_of_load (h : load n block = some (bs, rest)) :
    bs.length = n ∧ block.length = n + rest.length := by
  induction n generalizing block bs with
  | zero =>
      simp only [load, Option.some.injEq, Prod.mk.injEq] at h
      obtain ⟨rfl, rfl⟩ := h
      simp
  | succ n ih =>
      match block, h with
      | some b :: block, h =>
          obtain ⟨⟨bs', rest'⟩, hload, heq⟩ := Option.map_eq_some_iff.mp h
          simp only [Prod.mk.injEq] at heq
          obtain ⟨rfl, rfl⟩ := heq
          obtain ⟨hbytes, hrest⟩ := ih hload
          constructor
          · rw [List.length_cons, hbytes]
          · rw [List.length_cons, hrest]
            omega

end Cells
