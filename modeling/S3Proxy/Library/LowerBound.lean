import Mathlib.Data.List.TakeWhile
import Mathlib.Tactic

/-!
# Scanning a sorted list from a lower bound

`lowerBound key x l` is what `std::lower_bound` leaves of a list that is sorted by `key`: everything
from the first element on whose key is not below `x`.  The lemmas say which elements these are, and
which of them a scan with `find?` meets first.

## Main results

`mem_lowerBound` is the meaning of a lower bound, and `lowerBound_eq_nil_iff` the case where nothing
is left.  `exists_lowerBound_eq_cons` says that a key that occurs is the key of the first element
from the bound on, `find?_lowerBound` that a scan from the bound is a scan of the whole list that
leaves out what is below.

The scans have two rules.  By `map_find?_congr` two lists with the same keys have first hits with
the same key, if the key decides what is hit, whatever the order of elements of one key.  By
`find?_kind_iff` the first hit is of a certain kind exactly when some element of this kind lies
before all the hits of another kind.

## Hypotheses

Keys are linearly ordered and the list is sorted by them, which is a hypothesis of each lemma:
`std::lower_bound` on a list that is not sorted is not described.

## Where it is used

`Router.Table` keeps its entries sorted and `Router.Fate` looks them up with the first group of
lemmas.  `Router.Order` compares two routers through `map_find?_congr`, `Router.Specificity` finds
the more specific entry with `find?_kind_iff`, and `Router.Duplicates` uses
`exists_lowerBound_eq_cons`.
-/

namespace LowerBound

variable {α κ : Type*} [LT κ] [LE κ] [DecidableLT κ] [Std.IsLinearOrder κ] [Std.LawfulOrderLT κ]

/-- In the order of the keys. -/
def Sorted (key : α → κ) (l : List α) : Prop := l.Pairwise fun a b => key a ≤ key b

def lowerBound (key : α → κ) (x : κ) (l : List α) : List α := l.dropWhile fun a => key a < x

variable {key : α → κ} {x : κ} {l : List α} {a : α}

/-- **What is left** are the elements that are not below the bound. -/
lemma mem_lowerBound (hsorted : Sorted key l) : a ∈ lowerBound key x l ↔ a ∈ l ∧ x ≤ key a := by
  induction l with
  | nil => simp [lowerBound]
  | cons b l ih =>
      obtain ⟨hb, hl⟩ := List.pairwise_cons.mp hsorted
      by_cases hlt : key b < x
      · have hdrop : lowerBound key x (b :: l) = lowerBound key x l :=
          List.dropWhile_cons_of_pos (by simpa using hlt)
        rw [hdrop, ih hl, List.mem_cons]
        constructor
        · exact fun h => ⟨.inr h.1, h.2⟩
        · rintro ⟨rfl | hmem, hle⟩
          · exact absurd (Std.not_lt.mpr hle hlt) id
          · exact ⟨hmem, hle⟩
      · have hdrop : lowerBound key x (b :: l) = b :: l :=
          List.dropWhile_cons_of_neg (by simpa using hlt)
        have hle : x ≤ key b := Std.not_lt.mp hlt
        rw [hdrop]
        refine ⟨fun h => ⟨h, ?_⟩, And.left⟩
        rcases List.mem_cons.mp h with rfl | hmem
        · exact hle
        · exact Std.le_trans hle (hb a hmem)

omit [Std.IsLinearOrder κ] [Std.LawfulOrderLT κ] in
lemma sorted_lowerBound (hsorted : Sorted key l) : Sorted key (lowerBound key x l) :=
  List.Pairwise.sublist (List.dropWhile_suffix _).sublist hsorted

/-- A key that occurs is that of the first element at or above it. -/
lemma exists_lowerBound_eq_cons (hsorted : Sorted key l) (ha : a ∈ l) (hkey : key a = x) :
    ∃ b above, lowerBound key x l = b :: above ∧ key b = x := by
  have hmem : a ∈ lowerBound key x l :=
    (mem_lowerBound hsorted).mpr ⟨ha, hkey ▸ Std.le_refl _⟩
  have hsorted' := sorted_lowerBound (x := x) hsorted
  cases hbound : lowerBound key x l with
  | nil =>
      rw [hbound] at hmem
      cases hmem
  | cons b above =>
      have hb : b ∈ lowerBound key x l := hbound ▸ List.mem_cons_self
      rw [hbound] at hmem hsorted'
      refine ⟨b, above, rfl, Std.le_antisymm ?_ ((mem_lowerBound hsorted).mp hb).2⟩
      rw [← hkey]
      rcases List.mem_cons.mp hmem with rfl | hmem
      · exact Std.le_refl _
      · exact (List.pairwise_cons.mp hsorted').1 a hmem

omit [LE κ] [Std.IsLinearOrder κ] [Std.LawfulOrderLT κ] in
/-- Nothing is left of a list that is below the bound. -/
lemma lowerBound_eq_nil_iff : lowerBound key x l = [] ↔ ∀ a ∈ l, key a < x := by
  rw [lowerBound, List.dropWhile_eq_nil_iff]
  simp only [decide_eq_true_eq]

/-- A scan from the lower bound is one of the whole list that leaves out what is below. -/
lemma find?_lowerBound [DecidableLE κ] {p : α → Bool} (hsorted : Sorted key l) :
    (lowerBound key x l).find? p = l.find? fun a => decide (x ≤ key a) && p a := by
  induction l with
  | nil => rfl
  | cons b l ih =>
      obtain ⟨hb, hl⟩ := List.pairwise_cons.mp hsorted
      by_cases hlt : key b < x
      · have hnot : ¬ x ≤ key b := Std.not_le.mpr hlt
        rw [lowerBound, List.dropWhile_cons_of_pos (by simpa using hlt),
          List.find?_cons_of_neg (by simp [hnot])]
        exact ih hl
      · rw [lowerBound, List.dropWhile_cons_of_neg (by simpa using hlt)]
        refine List.find?_congr fun a ha => ?_
        have hle : x ≤ key a := by
          rcases List.mem_cons.mp ha with rfl | hmem
          · exact Std.not_lt.mp hlt
          · exact Std.le_trans (Std.not_lt.mp hlt) (hb a hmem)
        simp [hle]

omit [LT κ] [DecidableLT κ] [Std.LawfulOrderLT κ] in
/-- The first hit of a scan comes before the others. -/
lemma le_of_find? {p : α → Bool} (hsorted : Sorted key l) (hfind : l.find? p = some a) {b : α}
    (hb : b ∈ l) (hp : p b = true) : key a ≤ key b := by
  induction l with
  | nil => cases hb
  | cons c l ih =>
      obtain ⟨hc, hl⟩ := List.pairwise_cons.mp hsorted
      by_cases hpc : p c = true
      · rw [List.find?_cons_of_pos hpc] at hfind
        cases hfind
        rcases List.mem_cons.mp hb with rfl | hmem
        · exact Std.le_refl _
        · exact hc b hmem
      · rw [List.find?_cons_of_neg hpc] at hfind
        rcases List.mem_cons.mp hb with rfl | hmem
        · exact absurd hp hpc
        · exact ih hl hfind hmem

omit [LT κ] [DecidableLT κ] [Std.LawfulOrderLT κ] in
/-- **Lists with the same keys** have first hits with the same key, if the key decides what is
hit. -/
lemma map_find?_congr {p : α → Bool} {l' : List α} (hsorted : Sorted key l)
    (hsorted' : Sorted key l') (hkeys : ∀ a ∈ l, ∃ b ∈ l', key b = key a)
    (hkeys' : ∀ b ∈ l', ∃ a ∈ l, key a = key b)
    (hp : ∀ a ∈ l, ∀ b ∈ l', key a = key b → p a = p b) :
    (l.find? p).map key = (l'.find? p).map key := by
  cases hfind : l.find? p with
  | none =>
      have hnone : l'.find? p = none := by
        rw [List.find?_eq_none] at hfind ⊢
        intro b hb
        obtain ⟨a, ha, hkey⟩ := hkeys' b hb
        rw [← hp a ha b hb hkey]
        exact hfind a ha
      rw [hnone]
  | some a =>
      have ha := List.mem_of_find?_eq_some hfind
      obtain ⟨b, hb, hkey⟩ := hkeys a ha
      have hpb : p b = true := (hp a ha b hb hkey.symm) ▸ List.find?_some hfind
      obtain ⟨b', hfind'⟩ := Option.isSome_iff_exists.mp (List.find?_isSome.mpr ⟨b, hb, hpb⟩)
      have hb' := List.mem_of_find?_eq_some hfind'
      obtain ⟨a', ha', hkey'⟩ := hkeys' b' hb'
      have hpa' : p a' = true := (hp a' ha' b' hb' hkey') ▸ List.find?_some hfind'
      rw [hfind']
      refine congrArg some (Std.le_antisymm ?_ ?_)
      · rw [← hkey']
        exact le_of_find? hsorted hfind ha' hpa'
      · rw [← hkey]
        exact le_of_find? hsorted' hfind' hb hpb

omit [DecidableLT κ] in
/-- **Which kind of element is hit first**, when equal keys have equal kinds. -/
lemma find?_kind_iff {p : α → Bool} {Kind : α → Prop} (hsorted : Sorted key l)
    (hkind : ∀ a ∈ l, ∀ b ∈ l, key a = key b → Kind a → Kind b) :
    (∃ a, l.find? p = some a ∧ Kind a) ↔
      ∃ a ∈ l, p a = true ∧ Kind a ∧ ∀ b ∈ l, p b = true → ¬ Kind b → key a < key b := by
  constructor
  · rintro ⟨a, hfind, ha⟩
    have hmem := List.mem_of_find?_eq_some hfind
    refine ⟨a, hmem, List.find?_some hfind, ha, fun b hb hpb hnot => ?_⟩
    have hle := le_of_find? hsorted hfind hb hpb
    refine Std.not_le.mp fun hge => ?_
    exact hnot (hkind a hmem b hb (Std.le_antisymm hle hge) ha)
  · rintro ⟨a, ha, hpa, hkinda, hfirst⟩
    obtain ⟨b, hfind⟩ : ∃ b, l.find? p = some b :=
      Option.isSome_iff_exists.mp (List.find?_isSome.mpr ⟨a, ha, hpa⟩)
    refine ⟨b, hfind, ?_⟩
    by_contra hnot
    have hmem := List.mem_of_find?_eq_some hfind
    have hlt := hfirst b hmem (List.find?_some hfind) hnot
    exact Std.not_le.mpr hlt (le_of_find? hsorted hfind ha hpa)

end LowerBound
