import Mathlib.Data.List.TakeWhile
import Mathlib.Tactic

/-!
# The tokens of a command line

`TokenStream` walks over the arguments of the program and cuts each into tokens: `--port=80` is an
option and an argument, `-ab` two options.  It buffers the tokens of one argument at a time, and
fills the buffer again when it is empty and there is an argument left.

## Main results

What a stream delivers is the list of all tokens, `TokenStream.tokens`, and nothing about the buffer
can be seen: `front_eq` is its first element, `tokens_next` says that moving on drops that element,
and `more_iff` that the stream ends where the list does.  `tokens_load` gives the list for a command
line, the tokens of one argument after those of another.

`tokensOf_ne_nil` is what keeps the stream going: an argument that is not empty has a token, so an
empty buffer means that there is nothing left but empty arguments.

## Where it is used

`Util.Clara` reads its tokens from such a stream and replaces it, through these lemmas, by the list;
`Util.CommandLine` says for which arguments `tokensOf` gives which tokens.
-/

namespace S3Proxy

namespace Clara

inductive TokenType
  | option | argument
  deriving DecidableEq, Repr

/-- A character of a text stands for a byte. -/
structure Token where
  type : TokenType
  token : List Char
  deriving DecidableEq, Repr

def isOptPrefix (c : Char) : Bool := c = '-'

/-- What `find_first_of( " :=" )` looks for. -/
def isDelimiter (c : Char) : Bool := c = ' ' || c = ':' || c = '='

/-- The tokens that `loadBuffer` reads from an argument. -/
def tokensOf (next : List Char) : List Token :=
  match next with
  | [] => []
  | c :: cs =>
      if isOptPrefix c then
        match next.findIdx? isDelimiter with
        | some delimiterPos =>
            [⟨.option, next.take delimiterPos⟩, ⟨.argument, next.drop (delimiterPos + 1)⟩]
        | none =>
            if cs.head? ≠ some '-' ∧ next.length > 2 then cs.map fun c => ⟨.option, ['-', c]⟩
            else [⟨.option, next⟩]
      else [⟨.argument, next⟩]

lemma tokensOf_ne_nil {next : List Char} (h : next ≠ []) : tokensOf next ≠ [] := by
  obtain ⟨c, cs, rfl⟩ := List.exists_cons_of_ne_nil h
  intro hnil
  simp only [tokensOf] at hnil
  split at hnil
  · split at hnil
    · simp at hnil
    · split at hnil
      · rename_i hbundle
        have hempty := List.map_eq_nil_iff.mp hnil
        simp [hempty] at hbundle
      · simp at hnil
  · simp at hnil

structure TokenStream where
  /-- `m_tokenBuffer`. -/
  buffer : List Token
  /-- The arguments from `it` to `itEnd`; the tokens in the buffer are from the first of them. -/
  args : List (List Char)
  loaded : buffer = [] ↔ args = []

namespace TokenStream

/-- The constructor, and `loadBuffer`, which skips any empty strings. -/
def load (args : List (List Char)) : TokenStream :=
  match h : args.dropWhile List.isEmpty with
  | [] => ⟨[], [], by simp⟩
  | next :: rest =>
      ⟨tokensOf next, next :: rest, by
        have hnext := List.head?_dropWhile_not List.isEmpty args
        rw [h] at hnext
        have hne : next ≠ [] := by simpa using hnext
        simp [tokensOf_ne_nil hne]⟩

/-- `operator bool`. -/
def more (s : TokenStream) : Bool := s.buffer ≠ [] || s.args ≠ []

/-- `operator*`. -/
def front (s : TokenStream) : Option Token := s.buffer.head?

/-- `operator++`. -/
def next (s : TokenStream) : TokenStream :=
  if h : 2 ≤ s.buffer.length then
    ⟨s.buffer.tail, s.args, by
      have hargs : s.args ≠ [] := fun hnil => by simp [s.loaded.mpr hnil] at h
      have hlength : s.buffer.tail.length ≠ 0 := by
        rw [List.length_tail]
        omega
      simpa [hargs] using fun hnil => hlength (by simp [hnil])⟩
  else load s.args.tail

/-! ### What a stream delivers -/

/-- All the tokens of a stream. -/
def tokens (s : TokenStream) : List Token := s.buffer ++ s.args.tail.flatMap tokensOf

lemma tokens_load (args : List (List Char)) : (load args).tokens = args.flatMap tokensOf := by
  have hskip : (args.dropWhile List.isEmpty).flatMap tokensOf = args.flatMap tokensOf := by
    induction args with
    | nil => rfl
    | cons a as ih =>
        rw [List.dropWhile_cons]
        split
        · rename_i ha
          rw [ih, List.isEmpty_iff.mp ha]
          rfl
        · rfl
  rw [← hskip]
  unfold load
  split
  · rename_i h
    conv_rhs => rw [h]
    rfl
  · rename_i h
    conv_rhs => rw [h]
    rfl

lemma buffer_eq_nil_iff (s : TokenStream) : s.buffer = [] ↔ s.tokens = [] := by
  constructor
  · intro h
    have hargs := s.loaded.mp h
    simp [tokens, h, hargs]
  · intro h
    exact (List.append_eq_nil_iff.mp h).1

@[simp] lemma more_iff (s : TokenStream) : s.more ↔ s.tokens ≠ [] := by
  rw [Ne, ← s.buffer_eq_nil_iff]
  have hloaded := s.loaded
  simp only [more, ne_eq, Bool.or_eq_true, decide_eq_true_eq]
  tauto

@[simp] lemma front_eq (s : TokenStream) : s.front = s.tokens.head? := by
  cases h : s.buffer with
  | nil =>
      rw [front, s.buffer_eq_nil_iff.mp h, h]
  | cons t ts =>
      simp [front, tokens, h]

@[simp] lemma tokens_next (s : TokenStream) : s.next.tokens = s.tokens.tail := by
  unfold next
  split
  · rename_i h
    have hne : s.buffer ≠ [] := fun hnil => by simp [hnil] at h
    show s.buffer.tail ++ _ = (s.buffer ++ _).tail
    rw [List.tail_append_of_ne_nil hne]
  · rename_i h
    rw [tokens_load, tokens]
    match hbuffer : s.buffer with
    | [] => simp [s.loaded.mp hbuffer]
    | [t] => rfl
    | t :: u :: ts => simp [hbuffer] at h

end TokenStream

end Clara

end S3Proxy
