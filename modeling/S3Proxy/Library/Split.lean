import Mathlib.Data.List.DropRight
import Mathlib.Tactic

/-!
# Splitting and trimming

`split` cuts a text at delimiters and drops the empty pieces; `trim` takes what `blank` selects off
both ends; `blankLine` finds the end of the first two line feeds in a row.

## Splitting

`split_eq_push` and `split_eq_cons` say how the first piece is found, and `split_append_delim` that
a text falls apart at every delimiter.  `Written` is the relation between pieces and the texts that
are written from them, with any number of delimiters between the pieces; `split_of_written` is the
main result, that the pieces are found again.  `split_eq_nil_iff` and `two_le_length_split_iff`
count the pieces.

A program may come back to a piece by its position in the text.  `before` and `suffixFrom` are the
text in front of a piece and from it on, `length_before` says how long the first is, and
`drop_offset_eq_iff` when skipping one delimiter for each piece leads to the right place: if there
is not more than one between any two of them.  `offset_le_length` says that it leads inside the text
in any case.

## Trimming

`trim_append_of_blank`, `exists_trim_append` and `trim_append_append` are the three cases of what
may stand behind a text before it is trimmed.  The lemmas about `rtakeWhile` are for the part behind
the last of some character.

## Where it is used

The paths of requests are split in `Router.Routes`, and `Router.SubPath` is where
`drop_offset_eq_iff` is needed.  `Client.Mmdb` and `Client.Fields` split and trim the lines of a
response whose end `blankLine` finds, `Server.Address` trims an announced address, and
`Library.MaximalRuns` goes on from here to positions.
-/

namespace Text

variable {α : Type*}

/-- The piece that has been read, unless it is empty. -/
def push (piece : List α) : List (List α) := if piece.isEmpty then [] else [piece]

/-- Go on splitting, with `piece` read since the last delimiter. -/
def splitFrom (delim : α → Bool) : List α → List α → List (List α)
  | piece, [] => push piece
  | piece, c :: rest =>
      if delim c then push piece ++ splitFrom delim [] rest
      else splitFrom delim (piece ++ [c]) rest

/-- The maximal non-empty pieces without a delimiter. -/
def split (delim : α → Bool) (text : List α) : List (List α) := splitFrom delim [] text

/-- The text in front of its piece number `k`, counted from 0. -/
def before (delim : α → Bool) : ℕ → List α → List α
  | 0, text => text.takeWhile delim
  | k + 1, text =>
      let piece := text.dropWhile delim
      text.takeWhile delim ++ piece.takeWhile (fun c => !delim c) ++
        before delim k (piece.dropWhile fun c => !delim c)

/-- The text from the first element of its piece number `k` on. -/
def suffixFrom (delim : α → Bool) : ℕ → List α → List α
  | 0, text => text.dropWhile delim
  | k + 1, text => suffixFrom delim k ((text.dropWhile delim).dropWhile fun c => !delim c)

def trim (blank : α → Bool) (text : List α) : List α := (text.dropWhile blank).rdropWhile blank

/-- The length of the text up to the end of the first two line feeds in a row. -/
def blankLine (lf : α → Bool) : List α → Option ℕ
  | [] => none
  | [_] => none
  | a :: b :: l => if lf a && lf b then some 2 else (blankLine lf (b :: l)).map (· + 1)

variable {delim blank lf : α → Bool} {l p piece rest text : List α}

/-! ### Splitting -/

lemma eq_of_mem_push {x : List α} (h : x ∈ push p) : x = p := by
  unfold push at h
  split_ifs at h with hp
  · cases h
  · exact List.mem_singleton.mp h

private lemma splitFrom_append_delim {a : α} (ha : delim a = true) :
    splitFrom delim piece (p ++ a :: l) = splitFrom delim piece p ++ splitFrom delim [] l := by
  induction p generalizing piece with
  | nil => simp only [List.nil_append, splitFrom, ha, if_true]
  | cons b p ih =>
      rw [List.cons_append, splitFrom, splitFrom]
      split_ifs with hb
      · rw [ih, List.append_assoc]
      · exact ih

/-- A text falls apart at every delimiter. -/
lemma split_append_delim {a : α} (ha : delim a = true) :
    split delim (p ++ a :: l) = split delim p ++ split delim l :=
  splitFrom_append_delim ha

private lemma mem_of_mem_splitFrom {x : List α} {a : α} (h : x ∈ splitFrom delim piece rest)
    (ha : a ∈ x) : a ∈ piece ++ rest := by
  induction rest generalizing piece with
  | nil =>
      rw [List.append_nil]
      exact eq_of_mem_push h ▸ ha
  | cons c rest ih =>
      rw [splitFrom] at h
      split_ifs at h with hc
      · rcases List.mem_append.mp h with h | h
        · exact List.mem_append_left _ (eq_of_mem_push h ▸ ha)
        · exact List.mem_append_right _ (List.mem_cons_of_mem c (by simpa using ih h))
      · simpa using ih h

/-- The pieces are made of the text. -/
lemma mem_of_mem_split {x : List α} {a : α} (h : x ∈ split delim text) (ha : a ∈ x) : a ∈ text := by
  simpa using mem_of_mem_splitFrom h ha

/-- A piece is read up to the next delimiter. -/
private lemma splitFrom_eq : splitFrom delim piece text =
    push (piece ++ text.takeWhile fun c => !delim c) ++
      split delim (text.dropWhile fun c => !delim c) := by
  induction text generalizing piece with
  | nil => simp [splitFrom, split, push]
  | cons c rest ih =>
      by_cases hc : delim c = true
      · rw [splitFrom, if_pos hc, List.takeWhile_cons_of_neg (by simpa using hc),
          List.dropWhile_cons_of_neg (by simpa using hc), List.append_nil, split, splitFrom,
          if_pos hc]
        rfl
      · rw [splitFrom, if_neg hc, ih, List.takeWhile_cons_of_pos (by simpa using hc),
          List.dropWhile_cons_of_pos (by simpa using hc), List.append_assoc,
          List.singleton_append]

/-- **The part up to the first delimiter** is a piece, unless it is empty; the text goes on behind
the delimiter. -/
lemma split_eq_push : split delim text = push (text.take (text.findIdx delim)) ++
    split delim (text.drop (text.findIdx delim + 1)) := by
  have htake : (text.takeWhile fun c => !delim c) = text.take (text.findIdx delim) := by
    simp [List.takeWhile_eq_take_findIdx_not]
  have hdrop : (text.dropWhile fun c => !delim c) = text.drop (text.findIdx delim) := by
    simp [List.dropWhile_eq_drop_findIdx_not]
  have htail : split delim (text.drop (text.findIdx delim)) =
      split delim (text.drop (text.findIdx delim + 1)) := by
    rcases Nat.lt_or_ge (text.findIdx delim) text.length with hlt | hge
    · rw [List.drop_eq_getElem_cons hlt]
      exact split_append_delim (p := []) List.findIdx_getElem
    · rw [List.drop_eq_nil_of_le hge, List.drop_eq_nil_of_le (by omega)]
  conv_lhs => rw [split, splitFrom_eq, List.nil_append, htake, hdrop]
  rw [htail]

lemma split_cons_of_delim {c : α} (hc : delim c = true) :
    split delim (c :: text) = split delim text :=
  split_append_delim (p := []) hc

/-- A piece goes up to the next delimiter. -/
lemma split_cons_of_not_delim {c : α} (hc : delim c = false) : split delim (c :: text) =
    (c :: text.takeWhile fun c => !delim c) :: split delim (text.dropWhile fun c => !delim c) := by
  have hc' : (!delim c) = true := by rw [hc]; rfl
  conv_lhs => rw [split, splitFrom_eq, List.nil_append]
  rw [List.takeWhile_cons_of_pos (p := fun c => !delim c) hc',
    List.dropWhile_cons_of_pos (p := fun c => !delim c) hc', push]
  rfl

/-- Delimiters in front make no piece. -/
lemma split_dropWhile : split delim (text.dropWhile delim) = split delim text := by
  induction text with
  | nil => rfl
  | cons c rest ih =>
      by_cases hc : delim c = true
      · rw [List.dropWhile_cons_of_pos hc, ih, split_cons_of_delim hc]
      · rw [List.dropWhile_cons_of_neg hc]

/-- **The first piece** and the others. -/
lemma split_eq_cons (h : split delim text ≠ []) :
    split delim text = (text.dropWhile delim).takeWhile (fun c => !delim c) ::
      split delim ((text.dropWhile delim).dropWhile fun c => !delim c) := by
  induction text with
  | nil => exact absurd rfl h
  | cons c rest ih =>
      cases hc : delim c with
      | true =>
          rw [split_cons_of_delim hc] at h ⊢
          rw [List.dropWhile_cons_of_pos hc]
          exact ih h
      | false =>
          have hc' : (!delim c) = true := by rw [hc]; rfl
          rw [split_cons_of_not_delim hc, List.dropWhile_cons_of_neg (by simp [hc]),
            List.takeWhile_cons_of_pos (p := fun c => !delim c) hc',
            List.dropWhile_cons_of_pos (p := fun c => !delim c) hc']

/-- Pieces without a delimiter, written one after another: at least one delimiter follows each of
them but the last, and there may be more in front and behind. -/
inductive Written (delim : α → Bool) : List (List α) → List α → Prop
  | nil : Written delim [] []
  | last {piece : List α} (hne : piece ≠ []) (hpiece : ∀ a ∈ piece, delim a = false) :
      Written delim [piece] piece
  | delim {a : α} {pieces : List (List α)} {text : List α} (ha : delim a = true)
      (h : Written delim pieces text) : Written delim pieces (a :: text)
  | piece {a : α} {piece : List α} {pieces : List (List α)} {text : List α} (hne : piece ≠ [])
      (hpiece : ∀ a ∈ piece, delim a = false) (ha : delim a = true)
      (h : Written delim pieces text) : Written delim (piece :: pieces) (piece ++ a :: text)

lemma written_single (hne : text ≠ []) (htext : (text.all fun a => !delim a) = true) :
    Written delim [text] text :=
  .last hne (by simpa using htext)

/-- A piece is not split any further. -/
lemma split_of_forall (hne : p ≠ []) (hp : ∀ a ∈ p, delim a = false) : split delim p = [p] := by
  have htake : (p.takeWhile fun c => !delim c) = p :=
    List.takeWhile_eq_self_iff.mpr fun a ha => by rw [hp a ha]; rfl
  have hdrop : (p.dropWhile fun c => !delim c) = [] :=
    List.dropWhile_eq_nil_iff.mpr fun a ha => by rw [hp a ha]; rfl
  rw [split, splitFrom_eq, htake, hdrop, List.nil_append, push, if_neg (by simpa using hne)]
  rfl

/-- **The pieces that were written** are found again. -/
lemma split_of_written {pieces : List (List α)} (h : Written delim pieces text) :
    split delim text = pieces := by
  induction h with
  | nil => rfl
  | last hne hpiece => exact split_of_forall hne hpiece
  | delim ha h ih => rw [split_cons_of_delim ha, ih]
  | piece hne hpiece ha h ih =>
      rw [split_append_delim ha, split_of_forall hne hpiece, ih]
      rfl

/-- There are no pieces in a text of delimiters, and in no other. -/
lemma split_eq_nil_iff : split delim text = [] ↔ ∀ a ∈ text, delim a = true := by
  induction text with
  | nil => exact iff_of_true rfl nofun
  | cons c text ih =>
      cases hc : delim c with
      | true => rw [split_cons_of_delim hc, ih, List.forall_mem_cons, and_iff_right hc]
      | false =>
          rw [split_cons_of_not_delim hc]
          refine iff_of_false (List.cons_ne_nil _ _) fun h => ?_
          rw [h c List.mem_cons_self] at hc
          cases hc

/-- There are two pieces at least if a delimiter has something on both of its sides. -/
lemma two_le_length_split_iff : 2 ≤ (split delim text).length ↔
    ∃ p a l, text = p ++ a :: l ∧ delim a = true ∧ (∃ b ∈ p, delim b = false) ∧
      ∃ b ∈ l, delim b = false := by
  constructor
  · intro h
    induction text with
    | nil => exact absurd h (by simp [split, splitFrom, push])
    | cons c text ih =>
        cases hc : delim c with
        | true =>
            rw [split_cons_of_delim hc] at h
            obtain ⟨p, a, l, rfl, ha, ⟨b, hb, hp⟩, hl⟩ := ih h
            exact ⟨c :: p, a, l, rfl, ha, ⟨b, List.mem_cons_of_mem c hb, hp⟩, hl⟩
        | false =>
            rw [split_cons_of_not_delim hc, List.length_cons] at h
            have hsplit : split delim (text.dropWhile fun c => !delim c) ≠ [] :=
              List.ne_nil_of_length_pos (by omega)
            rw [Ne, split_eq_nil_iff] at hsplit
            push Not at hsplit
            obtain ⟨b, hb, hdelim⟩ := hsplit
            rw [ne_eq, Bool.not_eq_true] at hdelim
            cases hrest : text.dropWhile fun c => !delim c with
            | nil =>
                rw [hrest] at hb
                cases hb
            | cons a l =>
                -- the second piece is behind the delimiter that ends the first
                have ha : delim a = true := by
                  have hhead := List.head?_dropWhile_not (fun c => !delim c) text
                  rw [hrest] at hhead
                  simpa using hhead
                refine ⟨c :: text.takeWhile fun c => !delim c, a, l, ?_, ha,
                  ⟨c, List.mem_cons_self, hc⟩, b, ?_, hdelim⟩
                · rw [List.cons_append, ← hrest, List.takeWhile_append_dropWhile]
                · rw [hrest] at hb
                  rcases List.mem_cons.mp hb with rfl | hb
                  · rw [ha] at hdelim
                    cases hdelim
                  · exact hb
  · rintro ⟨p, a, l, rfl, ha, ⟨b, hb, hp⟩, b', hb', hl⟩
    have hne : ∀ {text : List α} {b : α}, b ∈ text → delim b = false → split delim text ≠ [] := by
      intro text b hb hdelim h
      rw [split_eq_nil_iff.mp h b hb] at hdelim
      cases hdelim
    have hleft := List.length_pos_of_ne_nil (hne hb hp)
    have hright := List.length_pos_of_ne_nil (hne hb' hl)
    rw [split_append_delim ha, List.length_append]
    omega

lemma before_append_suffixFrom (k : ℕ) (text : List α) :
    before delim k text ++ suffixFrom delim k text = text := by
  induction k generalizing text with
  | zero => exact List.takeWhile_append_dropWhile
  | succ k ih =>
      rw [before, suffixFrom, List.append_assoc, ih, List.append_assoc,
        List.takeWhile_append_dropWhile, List.takeWhile_append_dropWhile]

/-- **The length in front of a piece**: the pieces before it and the delimiters. -/
lemma length_before {k : ℕ} (hk : k ≤ (split delim text).length) :
    (before delim k text).length =
      (((split delim text).take k).map List.length).sum + (before delim k text).countP delim := by
  have hdelims : ∀ text : List α, (text.takeWhile delim).countP delim =
      (text.takeWhile delim).length := fun text =>
    List.countP_eq_length.mpr fun a ha => List.mem_takeWhile_imp ha
  induction k generalizing text with
  | zero => simp [before, hdelims]
  | succ k ih =>
      have hne : split delim text ≠ [] := List.ne_nil_of_length_pos (Nat.zero_lt_of_lt hk)
      have hpiece : ((text.dropWhile delim).takeWhile fun c => !delim c).countP delim = 0 := by
        rw [List.countP_eq_zero]
        intro a ha
        simpa using List.mem_takeWhile_imp ha
      rw [split_eq_cons hne] at hk ⊢
      rw [List.length_cons, Nat.add_le_add_iff_right] at hk
      rw [before, List.length_append, List.length_append, ih hk, List.countP_append,
        List.countP_append, hdelims, hpiece, List.take_succ_cons, List.map_cons, List.sum_cons]
      omega

/-- In front of a piece there is a delimiter for each piece before it, and one more if the text
begins with a delimiter. -/
lemma le_countP_before {k : ℕ} (hk : k < (split delim text).length) :
    k ≤ (before delim k text).countP delim ∧
      (text.head?.any delim = true → k + 1 ≤ (before delim k text).countP delim) := by
  have hhead : ∀ text : List α, text.head?.any delim = true →
      1 ≤ (text.takeWhile delim).countP delim := by
    intro text h
    cases text with
    | nil => cases h
    | cons c rest =>
        have hc : delim c = true := h
        rw [List.takeWhile_cons_of_pos hc, List.countP_cons_of_pos hc]
        exact Nat.le_add_left 1 _
  induction k generalizing text with
  | zero => exact ⟨Nat.zero_le _, hhead text⟩
  | succ k ih =>
      have hne : split delim text ≠ [] := List.ne_nil_of_length_pos (Nat.zero_lt_of_lt hk)
      rw [split_eq_cons hne, List.length_cons, Nat.add_lt_add_iff_right] at hk
      rw [before, List.countP_append, List.countP_append]
      -- the piece ends at a delimiter, since another one follows
      obtain ⟨-, hnext⟩ := ih hk
      have hdelim : (((text.dropWhile delim).dropWhile fun c => !delim c)).head?.any delim =
          true := by
        cases hrest : (text.dropWhile delim).dropWhile fun c => !delim c with
        | nil =>
            rw [hrest] at hk
            exact absurd hk (Nat.not_lt_zero _)
        | cons c rest =>
            have hne' : ((text.dropWhile delim).dropWhile fun c => !delim c) ≠ [] := by
              rw [hrest]
              exact List.cons_ne_nil _ _
            have hc := List.head_dropWhile_not (fun c => !delim c) hne'
            simp only [hrest, List.head_cons] at hc
            simpa using hc
      have hk' := hnext hdelim
      refine ⟨by omega, fun h => ?_⟩
      have hone := hhead text h
      omega

lemma split_suffixFrom {k : ℕ} (hk : k ≤ (split delim text).length) :
    split delim (suffixFrom delim k text) = (split delim text).drop k := by
  induction k generalizing text with
  | zero => exact split_dropWhile
  | succ k ih =>
      have hne : split delim text ≠ [] := List.ne_nil_of_length_pos (Nat.zero_lt_of_lt hk)
      rw [split_eq_cons hne] at hk ⊢
      rw [List.length_cons, Nat.add_le_add_iff_right] at hk
      rw [suffixFrom, ih hk, List.drop_succ_cons]

private lemma sum_succ_length (l : List (List α)) :
    (l.map fun piece => 1 + piece.length).sum = l.length + (l.map List.length).sum := by
  induction l with
  | nil => rfl
  | cons piece l ih =>
      rw [List.map_cons, List.sum_cons, List.map_cons, List.sum_cons, List.length_cons, ih]
      omega

/-- The start of a piece is inside the text. -/
private lemma length_before_lt {k : ℕ} (hk : k < (split delim text).length) :
    (before delim k text).length < text.length := by
  have htext : (before delim k text ++ suffixFrom delim k text).length = text.length :=
    congrArg List.length (before_append_suffixFrom k text)
  rw [List.length_append] at htext
  have hne : suffixFrom delim k text ≠ [] := by
    intro hnil
    have hdrop := split_suffixFrom hk.le
    rw [hnil] at hdrop
    exact absurd (List.drop_eq_nil_iff.mp hdrop.symm) (not_le.mpr hk)
  have hpos := List.length_pos_of_ne_nil hne
  omega

/-- The pieces in front of a piece, and a delimiter for each, are in front of its start. -/
private lemma sum_le_length_before {k : ℕ} (hk : k < (split delim text).length) :
    (((split delim text).take k).map fun piece => 1 + piece.length).sum ≤
      (before delim k text).length := by
  have hcount := (le_countP_before hk).1
  rw [sum_succ_length, length_before hk.le, List.length_take, min_eq_left hk.le]
  omega

/-- One element for each piece and its delimiter, and one more, are inside the text. -/
lemma offset_le_length {k : ℕ} (hk : k < (split delim text).length) :
    (((split delim text).take k).map fun piece => 1 + piece.length).sum + 1 ≤ text.length :=
  Nat.succ_le_of_lt ((sum_le_length_before hk).trans_lt (length_before_lt hk))

/-- **Skipping one delimiter for a piece** leads to the piece if there are no others. -/
lemma drop_offset_eq_iff {k : ℕ} (hk : k < (split delim text).length) :
    text.drop ((((split delim text).take k).map fun piece => 1 + piece.length).sum + 1) =
        suffixFrom delim k text ↔
      (before delim k text).countP delim = k + 1 := by
  have hwhole : before delim k text ++ suffixFrom delim k text = text :=
    before_append_suffixFrom k text
  have hsuffix : suffixFrom delim k text = text.drop (before delim k text).length := by
    conv_rhs =>
      arg 2
      rw [← hwhole]
    exact List.drop_left.symm
  have hlength := length_before hk.le
  have hoffset := offset_le_length hk
  have hlt := length_before_lt hk
  rw [hsuffix, List.drop_eq_drop_iff, min_eq_left hoffset, min_eq_left hlt.le, sum_succ_length,
    List.length_take, min_eq_left hk.le]
  omega

/-! ### Trimming -/

lemma trim_subset : trim blank text ⊆ text := fun _ h =>
  (List.dropWhile_suffix blank).subset ((List.rdropWhile_prefix blank _).subset h)

lemma length_trim_le : (trim blank text).length ≤ text.length :=
  (List.rdropWhile_prefix blank _).length_le.trans (List.dropWhile_suffix blank).length_le

lemma trim_map {β : Type*} {f : β → α} {text : List β} :
    trim blank (text.map f) = (trim (fun b => blank (f b)) text).map f := by
  rw [trim, trim, List.rdropWhile, List.rdropWhile, List.dropWhile_map, ← List.map_reverse,
    List.dropWhile_map, ← List.map_reverse]
  rfl

private lemma dropWhile_ne_nil (hl : ¬ ∀ a ∈ l, blank a = true) :
    (l.reverse.dropWhile blank).isEmpty = false := by
  by_contra hnil
  have hnil : l.reverse.dropWhile blank = [] := by simpa using hnil
  refine hl fun a ha => ?_
  exact List.dropWhile_eq_nil_iff.mp hnil a (List.mem_reverse.mpr ha)

/-- Blanks behind a text go with what is trimmed off it. -/
lemma trim_append_of_blank (hl : ∀ a ∈ l, blank a = true) : trim blank (p ++ l) = trim blank p := by
  rw [trim, trim, List.dropWhile_append]
  by_cases hempty : (p.dropWhile blank).isEmpty = true
  · have hl' : l.dropWhile blank = [] := List.dropWhile_eq_nil_iff.mpr hl
    rw [if_pos hempty, hl', List.isEmpty_iff.mp hempty]
  · rw [if_neg hempty, List.rdropWhile, List.reverse_append,
      List.dropWhile_append_of_pos fun a ha => hl a (List.mem_reverse.mp ha), List.rdropWhile]

/-- With something behind it that stays, a text is only trimmed in front. -/
lemma exists_trim_append (hl : ¬ ∀ a ∈ l, blank a = true) :
    ∃ l', l' ⊆ l ∧ trim blank (p ++ l) = p.dropWhile blank ++ l' := by
  rw [trim, List.dropWhile_append]
  by_cases hempty : (p.dropWhile blank).isEmpty = true
  · rw [if_pos hempty, List.isEmpty_iff.mp hempty]
    exact ⟨trim blank l, trim_subset, rfl⟩
  · refine ⟨l.rdropWhile blank, (List.rdropWhile_prefix blank _).subset, ?_⟩
    rw [if_neg hempty, List.rdropWhile, List.reverse_append, List.dropWhile_append,
      dropWhile_ne_nil hl, List.rdropWhile]
    simp

/-- What stands between blanks, and ends in something else, is only trimmed behind. -/
lemma trim_append_append {w : List α} (hp : ∀ a ∈ p, blank a = true) (hne : w ≠ [])
    (hw : ∀ a ∈ w, blank a = false) :
    trim blank (p ++ (w ++ l)) = w ++ l.rdropWhile blank := by
  have hhead : ∀ l' : List α, (w ++ l').dropWhile blank = w ++ l' := by
    intro l'
    obtain ⟨a, w', rfl⟩ := List.exists_cons_of_ne_nil hne
    exact List.dropWhile_cons_of_neg (by simp [hw a List.mem_cons_self])
  have hlast : w.reverse.dropWhile blank = w.reverse := by
    obtain ⟨a, w', hrev⟩ := List.exists_cons_of_ne_nil (List.reverse_ne_nil_iff.mpr hne)
    have ha : a ∈ w := List.mem_reverse.mp (hrev ▸ List.mem_cons_self)
    rw [hrev]
    exact List.dropWhile_cons_of_neg (by simp [hw a ha])
  rw [trim, List.dropWhile_append_of_pos hp, hhead, List.rdropWhile, List.rdropWhile,
    List.reverse_append, List.dropWhile_append, hlast]
  split_ifs with hempty
  · rw [List.isEmpty_iff.mp hempty]
    simp
  · simp

/-! ### What stands behind the last occurrence of an element -/

lemma rtakeWhile_append_cons [DecidableEq α] {a : α} (ha : a ∉ l) :
    (p ++ a :: l).rtakeWhile (· ≠ a) = l := by
  have hrev : ∀ b ∈ l.reverse, decide (b ≠ a) = true := by
    intro b hb
    rw [decide_eq_true_eq]
    rintro rfl
    exact ha (List.mem_reverse.mp hb)
  rw [List.rtakeWhile, List.reverse_append, List.reverse_cons, List.append_assoc,
    List.takeWhile_append_of_pos hrev, List.singleton_append,
    List.takeWhile_cons_of_neg (by simp), List.append_nil, List.reverse_reverse]

lemma not_mem_rtakeWhile [DecidableEq α] {a : α} : a ∉ text.rtakeWhile (· ≠ a) := by
  intro h
  have hne := List.mem_rtakeWhile_imp h
  exact of_decide_eq_true hne rfl

lemma exists_append_rtakeWhile [DecidableEq α] {a : α} (ha : a ∈ text) :
    ∃ p, text = p ++ a :: text.rtakeWhile (· ≠ a) := by
  have hne : text.rdropWhile (· ≠ a) ≠ [] := by
    intro hnil
    exact absurd rfl (of_decide_eq_true (List.rdropWhile_eq_nil_iff.mp hnil a ha))
  have hlast : (text.rdropWhile (· ≠ a)).getLast hne = a := by
    simpa using List.rdropWhile_last_not (· ≠ a) text hne
  refine ⟨(text.rdropWhile (· ≠ a)).dropLast, ?_⟩
  have hprefix := List.dropLast_append_getLast hne
  rw [hlast] at hprefix
  rw [← List.singleton_append, ← List.append_assoc, hprefix, List.rdropWhile_append_rtakeWhile]

/-! ### Blank lines -/

lemma blankLine_le {n : ℕ} (h : blankLine lf text = some n) : n ≤ text.length := by
  induction text using blankLine.induct lf generalizing n with
  | case1 => cases h
  | case2 => cases h
  | case3 a b l hlf =>
      rw [blankLine, if_pos hlf] at h
      cases h
      simp
  | case4 a b l hlf ih =>
      rw [blankLine, if_neg hlf] at h
      obtain ⟨m, hm, rfl⟩ := Option.map_eq_some_iff.mp h
      simpa using ih hm

/-- What follows a blank line does not move it. -/
lemma blankLine_append {n : ℕ} (h : blankLine lf text = some n) :
    blankLine lf (text ++ rest) = some n := by
  induction text using blankLine.induct lf generalizing n with
  | case1 => cases h
  | case2 => cases h
  | case3 a b l hlf =>
      rw [blankLine, if_pos hlf] at h
      rw [List.cons_append, List.cons_append, blankLine, if_pos hlf, h]
  | case4 a b l hlf ih =>
      rw [blankLine, if_neg hlf] at h
      obtain ⟨m, hm, rfl⟩ := Option.map_eq_some_iff.mp h
      rw [List.cons_append, List.cons_append, blankLine, if_neg hlf, ← List.cons_append, ih hm]
      rfl

lemma blankLine_map {β : Type*} {f : β → α} {text : List β} :
    blankLine lf (text.map f) = blankLine (fun b => lf (f b)) text := by
  induction text using blankLine.induct (fun b => lf (f b)) with
  | case1 => rfl
  | case2 => rfl
  | case3 a b l hlf => simp [blankLine, hlf]
  | case4 a b l hlf ih =>
      have hlf' : ¬ (lf (f a) && lf (f b)) = true := hlf
      rw [List.map_cons, List.map_cons, blankLine, blankLine, if_neg hlf', if_neg hlf,
        ← List.map_cons, ih]

end Text
