import Mathlib.Tactic

/-!
# Pieces over channels

The concatenation of a list of pieces is sent over several channels, one after another; the list of
channels begins with the newest one.  `carried` is what all of them have carried, and `Whole` says
of a text that it ends between two pieces.  `Aligned` says that every channel that carries something
starts with a piece.

## Main results

`Aligned.whole` is what alignment is for: no piece is cut in two by a change of the channel.  A
channel behind which others carry something has carried some of the pieces, one after another, and
nothing else.

Alignment can be kept up step by step.  A channel is extended at its end (`aligned_append_iff`),
where the condition is that a channel that carries nothing yet starts between two pieces; a new
channel carries nothing yet (`aligned_nil_cons`), nor do several (`aligned_replicate_nil_append`);
and further pieces change nothing about what has been sent (`aligned_more_iff`).  `whole_iff_rest`
states the condition by what is still to be sent.

## Hypotheses

What has been carried, with the rest that is still to be sent, is the concatenation of the pieces;
the lemmas that need this say so.

## Where it is used

`Client.Ilp` has the sockets of a client that reconnects as channels and the records it was given as
pieces.  Each of its steps is one of the lemmas above, and `Aligned.whole` is what a reader at the
other end relies on.
-/

namespace Segments

variable {α : Type*}

/-- What has gone over the channels. -/
def carried (channels : List (List α)) : List α := channels.reverse.flatten

/-- The text is made of the first of the pieces. -/
def Whole (pieces : List (List α)) (text : List α) : Prop :=
  ∃ first, first <+: pieces ∧ first.flatten = text

/-- Every channel that carries something starts with a piece. -/
def Aligned (pieces : List (List α)) : List (List α) → Prop
  | [] => True
  | channel :: older => (channel ≠ [] → Whole pieces (carried older)) ∧ Aligned pieces older

variable {pieces more channels older newer : List (List α)} {channel text rest : List α}

@[simp] lemma carried_cons : carried (channel :: older) = carried older ++ channel := by
  simp [carried]

lemma carried_append : carried (newer ++ older) = carried older ++ carried newer := by
  simp [carried]

lemma carried_replicate_nil_append {k : ℕ} :
    carried (List.replicate k [] ++ older) = carried older := by
  simp [carried]

instance [DecidableEq α] : Decidable (Whole pieces text) :=
  decidable_of_iff (∃ first ∈ pieces.inits, first.flatten = text) (by simp [Whole])

/-- What is left over is made of the last of the pieces. -/
lemma whole_iff_rest (h : text ++ rest = pieces.flatten) :
    Whole pieces text ↔ ∃ last, last <:+ pieces ∧ last.flatten = rest := by
  constructor
  · rintro ⟨first, ⟨last, rfl⟩, rfl⟩
    rw [List.flatten_append, List.append_cancel_left_eq] at h
    exact ⟨last, List.suffix_append _ _, h.symm⟩
  · rintro ⟨last, ⟨first, rfl⟩, rfl⟩
    rw [List.flatten_append, List.append_cancel_right_eq] at h
    exact ⟨first, List.prefix_append _ _, h.symm⟩

/-- Further pieces make no difference to a text that is within the first ones. -/
lemma whole_more_iff (h : text ++ rest = pieces.flatten) :
    Whole (pieces ++ more) text ↔ Whole pieces text := by
  constructor
  · rintro ⟨first, hfirst, rfl⟩
    rcases List.prefix_or_prefix_of_prefix hfirst (List.prefix_append pieces more) with hle | hge
    · exact ⟨first, hle, rfl⟩
    · -- the text takes in all the pieces, so the further ones among `first` are empty
      obtain ⟨extra, rfl⟩ := hge
      rw [List.flatten_append, List.append_assoc, List.append_right_eq_self] at h
      refine ⟨pieces, List.prefix_rfl, ?_⟩
      rw [List.flatten_append, (List.append_eq_nil_iff.mp h).1, List.append_nil]
  · rintro ⟨first, hfirst, rfl⟩
    exact ⟨first, hfirst.trans (List.prefix_append _ _), rfl⟩

/-! ### What happens to the channels -/

/-- A new channel carries nothing yet. -/
@[simp] lemma aligned_nil_cons : Aligned pieces ([] :: older) ↔ Aligned pieces older := by
  simp [Aligned]

lemma aligned_replicate_nil_append {k : ℕ} :
    Aligned pieces (List.replicate k [] ++ older) ↔ Aligned pieces older := by
  induction k with
  | zero => rfl
  | succ k ih => rw [List.replicate_succ, List.cons_append, aligned_nil_cons, ih]

/-- A channel starts with the first text that it carries. -/
lemma aligned_append_iff : Aligned pieces ((channel ++ text) :: older) ↔
    Aligned pieces (channel :: older) ∧
      (channel = [] → text ≠ [] → Whole pieces (carried older)) := by
  cases channel with
  | nil => simp [Aligned, and_comm]
  | cons a channel => simp [Aligned]

lemma aligned_more_iff {channels : List (List α)} (h : carried channels ++ rest = pieces.flatten) :
    Aligned (pieces ++ more) channels ↔ Aligned pieces channels := by
  induction channels generalizing rest with
  | nil => exact Iff.rfl
  | cons channel older ih =>
      rw [carried_cons, List.append_assoc] at h
      rw [Aligned, Aligned, ih h, whole_more_iff h]

lemma Aligned.whole_carried (h : Aligned pieces (newer ++ older)) (hnewer : carried newer ≠ []) :
    Whole pieces (carried older) := by
  induction newer with
  | nil => exact absurd rfl hnewer
  | cons channel newer ih =>
      rw [List.cons_append, Aligned] at h
      obtain ⟨hchannel, h⟩ := h
      by_cases hempty : carried newer = []
      · rw [carried_cons, hempty, List.nil_append] at hnewer
        have hwhole := hchannel hnewer
        rw [carried_append, hempty, List.append_nil] at hwhole
        exact hwhole
      · exact ih h hempty

/-- **No piece is cut in two**: a channel behind which others carry something has carried some of
the pieces. -/
lemma Aligned.whole (h : Aligned pieces (newer ++ channel :: older)) (hnewer : carried newer ≠ []) :
    ∃ ps, ps <:+: pieces ∧ ps.flatten = channel := by
  by_cases hempty : channel = []
  · exact ⟨[], List.nil_infix, hempty.symm⟩
  have hchannel : carried (newer ++ [channel]) ≠ [] := by
    simp [carried_append, hempty]
  obtain ⟨upto, hupto, hend⟩ := h.whole_carried hnewer
  rw [List.append_cons] at h
  obtain ⟨before, hbefore, hstart⟩ := h.whole_carried hchannel
  rw [carried_cons, ← hstart] at hend
  rcases List.prefix_or_prefix_of_prefix hbefore hupto with ⟨ps, rfl⟩ | ⟨ps, rfl⟩
  · rw [List.flatten_append, List.append_cancel_left_eq] at hend
    exact ⟨ps, (List.suffix_append before ps).isInfix.trans hupto.isInfix, hend⟩
  · rw [List.flatten_append, List.append_assoc, List.self_eq_append_right] at hend
    exact absurd (List.append_eq_nil_iff.mp hend).2 hempty

end Segments
