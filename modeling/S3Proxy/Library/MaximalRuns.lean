import S3Proxy.Library.Split

/-!
# Maximal runs

The maximal runs of a text are its stretches without a delimiter that cannot be made longer, given
by the positions where they begin and end.  `IsRun` is the property of one stretch, and `Runs` that
of a list of them: it has all of the runs, each once, from left to right.

This is what splitting a text at its delimiters is for, said without an algorithm.  `Library.Split`
has the algorithm, with the pieces as lists and not as positions; the two are brought together here.

## Main results

`written_runs` finds the maximal runs of a text that is written from pieces: they are the pieces, in
the same order.  `written_split` says that every text is written from the pieces it is split into.
Together they make `split` a correct way of finding all maximal runs.

The way there is `isRun_append_iff`: a run lies on one side of any delimiter.  The lemmas about
`shift` move the positions of the part behind it, and `isRun_of_forall_iff` settles a part that has
no delimiter at all.

## Hypotheses

None: the alphabet is any type, and what is a delimiter is any Boolean test.

## Where it is used

`Util.Split` states with `Runs` what the three copies of the program's loop have to find, and proves
it with the two results.
-/

namespace Text

variable {α : Type*}

/-- The part of the text from one position up to another. -/
def slice (text : List α) (i j : ℕ) : List α := (text.drop i).take (j - i)

/-- From position `i` up to `j` there is no delimiter, and there is one, or the end of the text, on
either side. -/
structure IsRun (delim : α → Bool) (text : List α) (i j : ℕ) : Prop where
  lt : i < j
  le : j ≤ text.length
  inside : ∀ k, i ≤ k → k < j → text[k]?.any delim = false
  left : i = 0 ∨ text[i - 1]?.any delim = true
  right : j = text.length ∨ text[j]?.any delim = true

/-- All maximal runs of the text, from left to right. -/
structure Runs (delim : α → Bool) (text : List α) (spans : List (ℕ × ℕ)) : Prop where
  sorted : spans.Pairwise fun s t => s.2 < t.1
  mem_iff : ∀ i j, (i, j) ∈ spans ↔ IsRun delim text i j

variable {delim : α → Bool} {l p text : List α}

lemma slice_append_cons {a : α} (i j : ℕ) :
    slice (p ++ a :: l) (i + (p.length + 1)) (j + (p.length + 1)) = slice l i j := by
  have hdrop : (p ++ a :: l).drop (i + (p.length + 1)) = l.drop i := by
    rw [Nat.add_comm, ← List.drop_drop, ← List.drop_drop, List.drop_left]
    rfl
  rw [slice, hdrop, Nat.add_sub_add_right]
  rfl

private lemma getElem?_left {a : α} {k : ℕ} (hk : k < p.length) : (p ++ a :: l)[k]? = p[k]? :=
  List.getElem?_append_left hk

private lemma getElem?_middle {a : α} : (p ++ a :: l)[p.length]? = some a := by simp

private lemma getElem?_right {a : α} (k : ℕ) :
    (p ++ a :: l)[k + (p.length + 1)]? = l[k]? := by
  rw [List.getElem?_append_right (by omega)]
  have hk : k + (p.length + 1) - p.length = k + 1 := by omega
  rw [hk, List.getElem?_cons_succ]

private lemma length_append_cons {a : α} :
    (p ++ a :: l).length = l.length + (p.length + 1) := by
  simp
  omega

/-- In front of a delimiter, runs are not affected by what is behind it. -/
private lemma isRun_left_iff {a : α} (ha : delim a = true) {i j : ℕ} (hj : j ≤ p.length) :
    IsRun delim (p ++ a :: l) i j ↔ IsRun delim p i j := by
  have hlength := length_append_cons (p := p) (a := a) (l := l)
  have hat : ∀ k, k < p.length → (p ++ a :: l)[k]?.any delim = p[k]?.any delim := fun k hk => by
    rw [getElem?_left hk]
  have hright : (j = (p ++ a :: l).length ∨ (p ++ a :: l)[j]?.any delim = true) ↔
      (j = p.length ∨ p[j]?.any delim = true) := by
    rcases hj.lt_or_eq with hj | rfl
    · rw [hat j hj, or_iff_right (by omega), or_iff_right (by omega)]
    · rw [getElem?_middle, Option.any_some]
      exact iff_of_true (.inr ha) (.inl rfl)
  constructor
  · intro h
    have hlt := h.lt
    refine ⟨hlt, hj, fun k hk hk' => ?_, ?_, hright.mp h.right⟩
    · rw [← hat k (by omega)]
      exact h.inside k hk hk'
    · rw [← hat (i - 1) (by omega)]
      exact h.left
  · intro h
    have hlt := h.lt
    refine ⟨hlt, by omega, fun k hk hk' => ?_, ?_, hright.mpr h.right⟩
    · rw [hat k (by omega)]
      exact h.inside k hk hk'
    · rw [hat (i - 1) (by omega)]
      exact h.left

/-- Behind a delimiter, runs are moved by what is in front. -/
private lemma isRun_right_iff {a : α} (ha : delim a = true) {i j : ℕ} :
    IsRun delim (p ++ a :: l) (i + (p.length + 1)) (j + (p.length + 1)) ↔ IsRun delim l i j := by
  have hlength := length_append_cons (p := p) (a := a) (l := l)
  have hleft : (i + (p.length + 1) = 0 ∨
      (p ++ a :: l)[i + (p.length + 1) - 1]?.any delim = true) ↔
      (i = 0 ∨ l[i - 1]?.any delim = true) := by
    rcases Nat.eq_zero_or_pos i with rfl | hi
    · have heq : 0 + (p.length + 1) - 1 = p.length := by omega
      rw [heq, getElem?_middle, Option.any_some]
      exact iff_of_true (.inr ha) (.inl rfl)
    · have heq : i + (p.length + 1) - 1 = i - 1 + (p.length + 1) := by omega
      rw [heq, getElem?_right, or_iff_right (by omega), or_iff_right (by omega)]
  have hright : (j + (p.length + 1) = (p ++ a :: l).length ∨
      (p ++ a :: l)[j + (p.length + 1)]?.any delim = true) ↔
      (j = l.length ∨ l[j]?.any delim = true) := by
    rw [getElem?_right, hlength, Nat.add_right_cancel_iff]
  constructor
  · intro h
    have hlt := h.lt
    have hle := h.le
    refine ⟨by omega, by omega, fun k hk hk' => ?_, hleft.mp h.left, hright.mp h.right⟩
    rw [← getElem?_right (p := p) (a := a)]
    exact h.inside _ (by omega) (by omega)
  · intro h
    have hlt := h.lt
    have hle := h.le
    refine ⟨by omega, by omega, fun k hk hk' => ?_, hleft.mpr h.left, hright.mpr h.right⟩
    obtain ⟨k, rfl⟩ := Nat.exists_eq_add_of_le' (show p.length + 1 ≤ k by omega)
    rw [getElem?_right]
    exact h.inside k (by omega) (by omega)

/-- **A run lies on one side** of a delimiter. -/
lemma isRun_append_iff {a : α} (ha : delim a = true) {i j : ℕ} :
    IsRun delim (p ++ a :: l) i j ↔ IsRun delim p i j ∨
      ∃ i' j', i = i' + (p.length + 1) ∧ j = j' + (p.length + 1) ∧ IsRun delim l i' j' := by
  constructor
  · intro h
    have hlt := h.lt
    rcases Nat.lt_or_ge p.length j with hj | hj
    · -- the run does not contain the delimiter, so it begins behind it
      have hi : p.length < i := by
        by_contra hi
        have hmiddle := h.inside p.length (by omega) hj
        rw [getElem?_middle, Option.any_some, ha] at hmiddle
        cases hmiddle
      obtain ⟨i, rfl⟩ := Nat.exists_eq_add_of_le' hi
      obtain ⟨j, rfl⟩ := Nat.exists_eq_add_of_le' hj
      exact .inr ⟨i, j, rfl, rfl, (isRun_right_iff ha).mp h⟩
    · exact .inl ((isRun_left_iff ha hj).mp h)
  · rintro (h | ⟨i, j, rfl, rfl, h⟩)
    · exact (isRun_left_iff ha h.le).mpr h
    · exact (isRun_right_iff ha).mpr h

private lemma any_getElem?_of_forall {k : ℕ} (hp : ∀ a ∈ p, delim a = false) :
    p[k]?.any delim = false := by
  cases hk : p[k]? with
  | none => rfl
  | some a => exact hp a (List.mem_of_getElem? hk)

/-- A text without a delimiter is a run as a whole, unless it is empty. -/
lemma isRun_of_forall_iff (hp : ∀ a ∈ p, delim a = false) {i j : ℕ} :
    IsRun delim p i j ↔ p ≠ [] ∧ i = 0 ∧ j = p.length := by
  constructor
  · intro h
    have hlt := h.lt
    have hle := h.le
    refine ⟨List.ne_nil_of_length_pos (by omega), h.left.resolve_right fun hleft => ?_,
      h.right.resolve_right fun hright => ?_⟩
    · rw [any_getElem?_of_forall hp] at hleft
      cases hleft
    · rw [any_getElem?_of_forall hp] at hright
      cases hright
  · rintro ⟨hne, rfl, rfl⟩
    exact ⟨List.length_pos_of_ne_nil hne, le_rfl, fun k _ _ => any_getElem?_of_forall hp,
      .inl rfl, .inl rfl⟩

/-- The positions behind the first `n`. -/
private def shift (n : ℕ) (spans : List (ℕ × ℕ)) : List (ℕ × ℕ) :=
  spans.map fun s => (s.1 + n, s.2 + n)

private lemma mem_shift_iff {n i j : ℕ} {spans : List (ℕ × ℕ)} :
    (i, j) ∈ shift n spans ↔ ∃ i' j', i = i' + n ∧ j = j' + n ∧ (i', j') ∈ spans := by
  simp only [shift, List.mem_map, Prod.mk.injEq, Prod.exists]
  constructor
  · rintro ⟨i', j', h, rfl, rfl⟩
    exact ⟨i', j', rfl, rfl, h⟩
  · rintro ⟨i', j', rfl, rfl, h⟩
    exact ⟨i', j', h, rfl, rfl⟩

private lemma sorted_shift {n : ℕ} {spans : List (ℕ × ℕ)}
    (h : spans.Pairwise fun s t => s.2 < t.1) :
    (shift n spans).Pairwise fun s t => s.2 < t.1 := by
  rw [shift, List.pairwise_map]
  exact h.imp fun hlt => by omega

private lemma map_slice_shift {a : α} (spans : List (ℕ × ℕ)) :
    ((shift (p.length + 1) spans).map fun s => slice (p ++ a :: l) s.1 s.2) =
      spans.map fun s => slice l s.1 s.2 := by
  rw [shift, List.map_map]
  exact List.map_congr_left fun s _ => slice_append_cons s.1 s.2

/-- **The pieces that were written** are the maximal runs of the text. -/
theorem written_runs {pieces : List (List α)} (h : Written delim pieces text) :
    ∃ spans, Runs delim text spans ∧ pieces = spans.map fun s => slice text s.1 s.2 := by
  induction h with
  | nil =>
      refine ⟨[], ⟨.nil, fun i j => iff_of_false (List.not_mem_nil) fun h => ?_⟩, rfl⟩
      exact absurd (h.lt.trans_le h.le) (Nat.not_lt_zero _)
  | @last piece hne hpiece =>
      refine ⟨[(0, piece.length)], ⟨List.pairwise_singleton _ _, fun i j => ?_⟩, ?_⟩
      · rw [isRun_of_forall_iff hpiece, List.mem_singleton, Prod.mk.injEq, and_iff_right hne]
      · simp [slice]
  | @delim a pieces text ha h ih =>
      obtain ⟨spans, hruns, hpieces⟩ := ih
      refine ⟨shift 1 spans, ⟨sorted_shift hruns.sorted, fun i j => ?_⟩, ?_⟩
      · have hnil : ¬ IsRun delim ([] : List α) i j := fun h =>
          absurd (h.lt.trans_le h.le) (Nat.not_lt_zero _)
        have hiff := isRun_append_iff (p := []) (l := text) ha (i := i) (j := j)
        rw [List.nil_append, or_iff_right hnil] at hiff
        rw [mem_shift_iff, hiff]
        simp only [hruns.mem_iff, List.length_nil, Nat.zero_add]
      · rw [hpieces]
        exact (map_slice_shift (p := []) spans).symm
  | @piece a piece pieces text hne hpiece ha h ih =>
      obtain ⟨spans, hruns, hpieces⟩ := ih
      refine ⟨(0, piece.length) :: shift (piece.length + 1) spans, ⟨?_, fun i j => ?_⟩, ?_⟩
      · refine List.pairwise_cons.mpr ⟨fun s hs => ?_, sorted_shift hruns.sorted⟩
        obtain ⟨i, j, hi, -, -⟩ := mem_shift_iff.mp (show (s.1, s.2) ∈ _ from hs)
        show piece.length < s.1
        omega
      · rw [isRun_append_iff ha, isRun_of_forall_iff hpiece, and_iff_right hne, List.mem_cons,
          Prod.mk.injEq, mem_shift_iff]
        simp only [hruns.mem_iff]
      · rw [List.map_cons, map_slice_shift, ← hpieces]
        simp [slice]

/-- **Every text** is written from the pieces it is split into. -/
theorem written_split (delim : α → Bool) (text : List α) :
    Written delim (split delim text) text := by
  induction hn : text.length using Nat.strong_induction_on generalizing text with
  | _ n ih =>
      subst hn
      cases text with
      | nil => exact .nil
      | cons c rest =>
          cases hc : delim c with
          | true =>
              rw [split_cons_of_delim hc]
              exact .delim hc (ih rest.length (by simp) rest rfl)
          | false =>
              rw [split_cons_of_not_delim hc]
              have hpiece : ∀ a ∈ c :: rest.takeWhile (fun c => !delim c), delim a = false := by
                intro a ha
                rcases List.mem_cons.mp ha with rfl | ha
                · exact hc
                · simpa using List.mem_takeWhile_imp ha
              have hrest : rest.takeWhile (fun c => !delim c) ++
                  rest.dropWhile (fun c => !delim c) = rest := List.takeWhile_append_dropWhile
              cases htail : rest.dropWhile fun c => !delim c with
              | nil =>
                  rw [htail, List.append_nil] at hrest
                  conv_rhs => rw [← hrest]
                  exact .last (List.cons_ne_nil _ _) hpiece
              | cons a l =>
                  have ha : delim a = true := by
                    have hhead := List.head?_dropWhile_not (fun c => !delim c) rest
                    rw [htail] at hhead
                    simpa using hhead
                  have hlt : l.length < (c :: rest).length := by
                    have hlength := congrArg List.length hrest
                    rw [htail, List.length_append, List.length_cons] at hlength
                    rw [List.length_cons]
                    omega
                  rw [split_cons_of_delim ha]
                  have htext : c :: rest =
                      (c :: rest.takeWhile fun c => !delim c) ++ a :: l := by
                    rw [List.cons_append, ← htail, hrest]
                  rw [htext]
                  exact .piece (List.cons_ne_nil _ _) hpiece ha (ih l.length hlt l rfl)

end Text
