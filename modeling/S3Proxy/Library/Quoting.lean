import Mathlib.Tactic

/-!
# Quoted text

A text over any alphabet in which `esc` takes the next symbol literally and `quote` opens and closes
a quoted part.  A reader goes through the text from left to right in a `Mode`, and cuts it where a
`cut` of its choice says so.

A piece is `Closed` for a cut if a reader that enters it in the initial mode leaves it in the
initial mode and does not cut on the way.  Closed pieces that are put together with a separator are
found again by `split`.  `escape` makes any text harmless, and `unescape` undoes it.

## Main results

`split_intercalate` finds separated pieces again and `split_terminated` terminated ones.  Their
hypotheses are that the separator is cut at in the initial mode and leaves it, and that each piece
is closed.

So the work is in showing that pieces are closed, and there is a rule for each way of making one:
`closed_nil`, `closed_singleton` and `Closed.append` for parts put together, `closed_escape` for an
escaped text, `closed_quoted` for a text between quotes.  The cut is a parameter of all of them: one
that looks at escaped symbols does not satisfy their hypotheses.

`unescape_escape` is the round trip of a single text, for every set of special symbols that has
`esc` in it.

## Where it is used

`Client.LineProtocol` instantiates the library with the alphabet of the line protocol, once for each
level of its grammar (records, their parts, the fields in a part, key and value), and proves that
what is written is read back.  `Client.Ilp` uses the closedness of a record to say where a stream of
records may be cut.
-/

namespace Quoting

/-- The two symbols with a meaning of their own. -/
structure Marks (α : Type*) where
  esc : α
  quote : α
  esc_ne_quote : esc ≠ quote

/-- Where a reader stands: behind `esc`, and between two `quote`s. -/
structure Mode where
  escaped : Bool := false
  quoted : Bool := false
  deriving DecidableEq, Repr

variable {α : Type*} [DecidableEq α]

/-- Cut at a symbol that is not escaped. -/
def unescapedAt (sep : α) (s : Mode) (a : α) : Bool := !s.escaped && a = sep

/-- Cut at a symbol that is neither escaped nor between quotes. -/
def unquotedAt (sep : α) (s : Mode) (a : α) : Bool := !s.escaped && !s.quoted && a = sep

namespace Marks

variable (m : Marks α)

/-- The mode behind one more symbol. -/
def next (s : Mode) (a : α) : Mode :=
  if s.escaped then { s with escaped := false }
  else if a = m.esc then { s with escaped := true }
  else if a = m.quote then { s with quoted := !s.quoted }
  else s

def after (s : Mode) (l : List α) : Mode := l.foldl m.next s

/-- The pieces between the cuts. -/
def split (cut : Mode → α → Bool) : Mode → List α → List (List α)
  | _, [] => [[]]
  | s, a :: l =>
      if cut s a then [] :: split cut (m.next s a) l
      else (split cut (m.next s a) l).modifyHead (a :: ·)

/-- A reader in mode `s` does not cut the piece. -/
def Passes (cut : Mode → α → Bool) : Mode → List α → Prop
  | _, [] => True
  | s, a :: l => cut s a = false ∧ Passes cut (m.next s a) l

/-- Not cut, and left as it was entered. -/
structure Closed (cut : Mode → α → Bool) (l : List α) : Prop where
  passes : m.Passes cut {} l
  after : m.after {} l = {}

/-- Put `esc` before the symbols that `special` selects. -/
def escape (special : α → Bool) (l : List α) : List α :=
  l.flatMap fun a => if special a then [m.esc, a] else [a]

/-- Take every symbol behind an `esc` literally. -/
def unescape : List α → List α
  | [] => []
  | [a] => [a]
  | a :: b :: l => if a = m.esc then b :: unescape l else a :: unescape (b :: l)

variable {m} {cut : Mode → α → Bool} {s : Mode} {a sep : α} {l p q : List α}

@[simp] lemma after_nil : m.after s [] = s := rfl

@[simp] lemma after_cons : m.after s (a :: l) = m.after (m.next s a) l := rfl

lemma after_append : m.after s (p ++ q) = m.after (m.after s p) q := List.foldl_append

lemma next_of_ne (hesc : a ≠ m.esc) (hquote : a ≠ m.quote) (hs : s.escaped = false) :
    m.next s a = s := by
  simp [next, hs, hesc, hquote]

lemma passes_append :
    m.Passes cut s (p ++ q) ↔ m.Passes cut s p ∧ m.Passes cut (m.after s p) q := by
  induction p generalizing s with
  | nil => simp [Passes]
  | cons a p ih => simp [Passes, ih, and_assoc]

/-! ### Splitting -/

lemma split_ne_nil : m.split cut s l ≠ [] := by
  induction l generalizing s with
  | nil => simp [split]
  | cons a l ih =>
      rw [split]
      split_ifs
      · exact List.cons_ne_nil _ _
      · cases h : m.split cut (m.next s a) l with
        | nil => exact absurd h ih
        | cons x xs => simp

/-- A piece without a cut goes to the front of what follows. -/
lemma split_append (h : m.Passes cut s p) :
    m.split cut s (p ++ l) = (m.split cut (m.after s p) l).modifyHead (p ++ ·) := by
  induction p generalizing s with
  | nil =>
      cases hl : m.split cut s l with
      | nil => exact absurd hl split_ne_nil
      | cons x xs => simp [hl]
  | cons a p ih =>
      obtain ⟨hcut, hp⟩ := h
      rw [List.cons_append, split, if_neg (by simp [hcut]), ih hp, List.modifyHead_modifyHead]
      rfl

lemma split_of_passes (h : m.Passes cut s p) : m.split cut s p = [p] := by
  have := split_append (l := []) h
  simpa [split] using this

/-- The first piece ends at the first cut. -/
lemma split_append_cons (h : m.Passes cut s p) (hcut : cut (m.after s p) a = true) :
    m.split cut s (p ++ a :: l) = p :: m.split cut (m.next (m.after s p) a) l := by
  rw [split_append h, split, if_pos hcut]
  simp

/-- **Separated pieces** are found again. -/
lemma split_intercalate (hcut : cut {} sep = true) (hsep : m.next {} sep = {}) :
    ∀ {ps : List (List α)}, ps ≠ [] → (∀ p ∈ ps, m.Closed cut p) →
      m.split cut {} ([sep].intercalate ps) = ps
  | [], h, _ => absurd rfl h
  | [p], _, hps => by
      have hp := hps p (List.mem_singleton_self p)
      simpa using split_of_passes hp.passes
  | p :: q :: ps, _, hps => by
      have hp := hps p List.mem_cons_self
      have hrest := split_intercalate hcut hsep (List.cons_ne_nil q ps)
        fun r hr => hps r (List.mem_cons_of_mem p hr)
      rw [List.intercalate_cons_cons, List.append_assoc, List.singleton_append,
        split_append_cons hp.passes (by rw [hp.after]; exact hcut), hp.after, hsep, hrest]

/-- **Terminated pieces** are found again, with an empty rest. -/
lemma split_terminated (hcut : cut {} sep = true) (hsep : m.next {} sep = {}) :
    ∀ {ps : List (List α)}, (∀ p ∈ ps, m.Closed cut p) →
      m.split cut {} (ps.flatMap (· ++ [sep])) = ps ++ [[]]
  | [], _ => rfl
  | p :: ps, hps => by
      have hp := hps p List.mem_cons_self
      have hrest := split_terminated hcut hsep fun r hr => hps r (List.mem_cons_of_mem p hr)
      rw [List.flatMap_cons, List.append_assoc, List.singleton_append,
        split_append_cons hp.passes (by rw [hp.after]; exact hcut), hp.after, hsep, hrest]
      rfl

/-! ### Closed pieces -/

lemma closed_nil : m.Closed cut [] := ⟨trivial, rfl⟩

lemma Closed.append (hp : m.Closed cut p) (hq : m.Closed cut q) : m.Closed cut (p ++ q) where
  passes := passes_append.mpr ⟨hp.passes, by rw [hp.after]; exact hq.passes⟩
  after := by rw [after_append, hp.after, hq.after]

lemma closed_singleton (hcut : cut {} a = false) (hnext : m.next {} a = {}) : m.Closed cut [a] :=
  ⟨⟨hcut, trivial⟩, hnext⟩

lemma closed_intercalate (hsep : m.Closed cut [sep]) :
    ∀ {ps : List (List α)}, (∀ p ∈ ps, m.Closed cut p) → m.Closed cut ([sep].intercalate ps)
  | [], _ => closed_nil
  | [p], hps => by simpa using hps p (List.mem_singleton_self p)
  | p :: q :: ps, hps => by
      rw [List.intercalate_cons_cons]
      exact ((hps p List.mem_cons_self).append hsep).append
        (closed_intercalate hsep fun r hr => hps r (List.mem_cons_of_mem p hr))

/-! ### Escaping -/

variable {special : α → Bool}

omit [DecidableEq α] in
@[simp] lemma escape_nil : m.escape special [] = [] := rfl

omit [DecidableEq α] in
lemma escape_cons : m.escape special (a :: l) =
    (if special a then [m.esc, a] else [a]) ++ m.escape special l := rfl

omit [DecidableEq α] in
lemma escape_eq_self (h : ∀ a ∈ l, special a = false) : m.escape special l = l := by
  induction l with
  | nil => rfl
  | cons a l ih =>
      rw [escape_cons, h a List.mem_cons_self, ih fun b hb => h b (List.mem_cons_of_mem a hb)]
      rfl

lemma unescape_esc_cons : m.unescape (m.esc :: a :: l) = a :: m.unescape l := by simp [unescape]

lemma unescape_cons_of_ne (h : a ≠ m.esc) : m.unescape (a :: l) = a :: m.unescape l := by
  cases l with
  | nil => rfl
  | cons b l => simp [unescape, h]

/-- **Unescaping undoes escaping**, as soon as `esc` itself is escaped. -/
lemma unescape_escape (hesc : special m.esc = true) : m.unescape (m.escape special l) = l := by
  induction l with
  | nil => rfl
  | cons a l ih =>
      rw [escape_cons]
      cases ha : special a with
      | true => simpa [unescape_esc_cons] using ih
      | false =>
          have hne : a ≠ m.esc := by
            rintro rfl
            rw [hesc] at ha
            cases ha
          simpa [unescape_cons_of_ne hne] using ih

variable (hesc : special m.esc = true) (hquote : special m.quote = true)
include hesc hquote

private lemma next_of_not_special (ha : special a = false) (hs : s.escaped = false) :
    m.next s a = s := by
  apply next_of_ne _ _ hs
  · rintro rfl
    rw [hesc] at ha
    cases ha
  · rintro rfl
    rw [hquote] at ha
    cases ha

/-- An escaped text leaves the mode as it was. -/
lemma after_escape (hs : s.escaped = false) : m.after s (m.escape special l) = s := by
  induction l with
  | nil => rfl
  | cons a l ih =>
      rw [escape_cons, after_append]
      cases ha : special a with
      | true =>
          have hnext : m.next (m.next s m.esc) a = s := by
            cases s
            simp_all [next]
          simpa [hnext] using ih
      | false => simpa [next_of_not_special hesc hquote ha hs] using ih

/-- A cut that leaves escaped symbols alone and looks for special symbols only passes over an
escaped text. -/
lemma passes_escape (hs : s.escaped = false) (hcut : ∀ s a, s.escaped = true → cut s a = false)
    (hplain : ∀ a, special a = false → cut s a = false) (hcutEsc : cut s m.esc = false) :
    m.Passes cut s (m.escape special l) := by
  induction l with
  | nil => trivial
  | cons a l ih =>
      rw [escape_cons, passes_append]
      cases ha : special a with
      | true =>
          have hnext : m.next (m.next s m.esc) a = s := by
            cases s
            simp_all [next]
          have hescaped : (m.next s m.esc).escaped = true := by simp [next, hs]
          exact ⟨⟨hcutEsc, hcut _ _ hescaped, trivial⟩, by simpa [hnext] using ih⟩
      | false =>
          refine ⟨⟨hplain a ha, trivial⟩, ?_⟩
          simpa [next_of_not_special hesc hquote ha hs] using ih

lemma closed_escape (hcut : ∀ s a, s.escaped = true → cut s a = false)
    (hplain : ∀ a, special a = false → cut {} a = false) (hcutEsc : cut {} m.esc = false) :
    m.Closed cut (m.escape special l) :=
  ⟨passes_escape hesc hquote rfl hcut hplain hcutEsc, after_escape hesc hquote rfl⟩

/-- A text between quotes is closed, even where its cuts are not escaped. -/
lemma closed_quoted (hcut : ∀ s a, s.escaped = true → cut s a = false)
    (hplain : ∀ a, special a = false → cut { quoted := true } a = false)
    (hcutEsc : cut { quoted := true } m.esc = false)
    (hopen : cut {} m.quote = false) (hclose : cut { quoted := true } m.quote = false) :
    m.Closed cut (m.quote :: m.escape special l ++ [m.quote]) := by
  have hnext : m.next {} m.quote = { quoted := true } := by
    simp [next, m.esc_ne_quote.symm]
  have hafter : m.after {} (m.quote :: m.escape special l) = { quoted := true } := by
    rw [after_cons, hnext, after_escape hesc hquote rfl]
  have hnext' : m.next { quoted := true } m.quote = {} := by
    simp [next, m.esc_ne_quote.symm]
  constructor
  · rw [passes_append, hafter]
    refine ⟨⟨hopen, ?_⟩, hclose, trivial⟩
    rw [hnext]
    exact passes_escape hesc hquote rfl hcut hplain hcutEsc
  · rw [after_append, hafter, after_cons, hnext', after_nil]

end Marks

end Quoting
