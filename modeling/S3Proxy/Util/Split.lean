import S3Proxy.Client.Mmdb
import S3Proxy.Library.Loop
import S3Proxy.Library.MaximalRuns
import S3Proxy.Router.Router

/-!
# The splitters

The program has three copies of `split`, with different delimiters as their defaults.  `Split.pass`
is one pass of their loop, which works with positions; `Split.State` is what it changes.  The size
hint only reserves memory.

## Main results

`correct_splitLoop` is about all three copies: each of them ends, yields exactly the maximal runs of
its text without a delimiter, finds the pieces of any text that is written from pieces again, and
they agree with each other on every text and every set of delimiters.  `Correct` is the first part,
as a property of a function, and the pieces may be made into anything (`make`), as the template of
the router's copy has it.

The proof is one `Sound` for the loop (`sound`): what has been put out is what the text in front of
the position is split into, and every pass brings the position forward.  `pass_eq` is the body of
it.

## Hypotheses

None but on the number of passes: one more than the text is long is enough, for any text.

## Where it is used

The models of the router and of the MMDB client split in one recursion over the text.
`Router.splitLoop_eq` and `Client.Mmdb.splitLoop_eq` say that the loop has the same result, so that
the theorems of those parts are about the program's loop.  What a maximal run is comes from
`Library.MaximalRuns`, and the rule for the loop from `Library.Loop`.
-/

namespace S3Proxy

namespace Split

/-- The iterator `first`, as a position, and the `output`. -/
structure State (σ : Type*) where
  first : ℕ
  output : List σ

variable {σ : Type*}

/-- `std::find_first_of`: the next position that holds a delimiter, or the end. -/
def findFirstOf (csv delims : Bytes) (first : ℕ) : ℕ :=
  first + (csv.drop first).findIdx (· ∈ delims)

/-- `substr`. -/
def substr (csv : Bytes) (pos n : ℕ) : Bytes := (csv.drop pos).take n

/-- One pass of the loop; `make` is the constructor that `emplace_back` calls. -/
def pass (make : Bytes → σ) (csv delims : Bytes) (s : State σ) : State σ ⊕ List σ :=
  if s.first = csv.length then .inr s.output
  else
    let second := findFirstOf csv delims s.first
    let output :=
      if s.first ≠ second then s.output ++ [make (substr csv s.first (second - s.first))]
      else s.output
    if second = csv.length then .inr output else .inl ⟨second + 1, output⟩

end Split

/-- `util::split` of the router. -/
def Router.splitLoop {σ : Type*} (make : Bytes → σ) (fuel : ℕ) (csv : Bytes)
    (delims : Bytes := bytesOf "/") : Option (List σ) :=
  Loop.run (Split.pass make csv delims) fuel ⟨0, []⟩

/-- `util::split`. -/
def Util.splitLoop (fuel : ℕ) (csv : Bytes) (delims : Bytes := bytesOf ",") :
    Option (List Bytes) :=
  Loop.run (Split.pass id csv delims) fuel ⟨0, []⟩

/-- `pmmdb::split`. -/
def Client.Mmdb.splitLoop (fuel : ℕ) (text : Bytes) (delims : Bytes := bytesOf "\n") :
    Option (List Bytes) :=
  Loop.run (Split.pass id text delims) fuel ⟨0, []⟩

namespace Split

variable {σ : Type*} {make : Bytes → σ} {csv delims : Bytes}

/-- `first` is a position of the text; what has been put out and what the rest is split into are
the pieces of the whole text. -/
structure Inv (make : Bytes → σ) (csv delims : Bytes) (s : State σ) : Prop where
  inside : s.first ≤ csv.length
  pieces : s.output ++ (Text.split (· ∈ delims) (csv.drop s.first)).map make =
    (Text.split (· ∈ delims) csv).map make

lemma findFirstOf_le (delims : Bytes) {first : ℕ} (hfirst : first ≤ csv.length) :
    findFirstOf csv delims first ≤ csv.length := by
  have hle : (csv.drop first).findIdx (· ∈ delims) ≤ (csv.drop first).length :=
    List.findIdx_le_length
  rw [List.length_drop] at hle
  rw [findFirstOf]
  omega

/-- **One pass** puts out the part up to the next delimiter, unless it is empty. -/
lemma pass_eq {s : State σ} (hfirst : s.first ≤ csv.length) : pass make csv delims s =
    if s.first = csv.length then .inr s.output
    else
      let second := findFirstOf csv delims s.first
      let output := s.output ++ (Text.push
        ((csv.drop s.first).take ((csv.drop s.first).findIdx (· ∈ delims)))).map make
      if second = csv.length then .inr output else .inl ⟨second + 1, output⟩ := by
  have hle := findFirstOf_le delims hfirst
  have hlength : findFirstOf csv delims s.first - s.first =
      (csv.drop s.first).findIdx (· ∈ delims) := by
    rw [findFirstOf, Nat.add_sub_cancel_left]
  have houtput : (if s.first ≠ findFirstOf csv delims s.first then
      s.output ++ [make (substr csv s.first (findFirstOf csv delims s.first - s.first))]
      else s.output) = s.output ++ (Text.push
        ((csv.drop s.first).take ((csv.drop s.first).findIdx (· ∈ delims)))).map make := by
    by_cases hempty : s.first = findFirstOf csv delims s.first
    · have hzero : (csv.drop s.first).findIdx (· ∈ delims) = 0 := by omega
      rw [if_neg (not_not.mpr hempty), hzero, List.take_zero]
      simp [Text.push]
    · have hne : (csv.drop s.first).take ((csv.drop s.first).findIdx (· ∈ delims)) ≠ [] := by
        apply List.ne_nil_of_length_pos
        rw [List.length_take, List.length_drop]
        rw [findFirstOf] at hempty hle
        omega
      rw [if_pos hempty, substr, hlength, Text.push, if_neg (by simpa using hne)]
      rfl
  rw [pass]
  dsimp only
  rw [houtput]

/-- What the rest of the text is split into: what one pass puts out, and what comes behind. -/
lemma split_drop (first : ℕ) : Text.split (· ∈ delims) (csv.drop first) =
    Text.push ((csv.drop first).take ((csv.drop first).findIdx (· ∈ delims))) ++
      Text.split (· ∈ delims) (csv.drop (findFirstOf csv delims first + 1)) := by
  conv_lhs => rw [Text.split_eq_push, List.drop_drop]
  rfl

/-- **The loop** goes on behind each delimiter, and leaves with the pieces of the text. -/
lemma sound : Loop.Sound (pass make csv delims) (Inv make csv delims)
    (fun s => csv.length - s.first) fun out =>
      out = (Text.split (· ∈ delims) csv).map make := by
  constructor
  · intro s t hs hpass
    have hfirst := hs.inside
    have hle := findFirstOf_le delims hfirst
    have hlt : s.first ≤ findFirstOf csv delims s.first := Nat.le_add_right _ _
    rw [pass_eq hfirst] at hpass
    dsimp only at hpass
    split_ifs at hpass with hend hsecond
    cases hpass
    refine ⟨⟨?_, ?_⟩, ?_⟩
    · show findFirstOf csv delims s.first + 1 ≤ csv.length
      omega
    · rw [← hs.pieces, split_drop s.first, List.map_append, List.append_assoc]
    · show csv.length - (findFirstOf csv delims s.first + 1) < csv.length - s.first
      omega
  · intro s out hs hpass
    have hpieces := hs.pieces
    rw [pass_eq hs.inside] at hpass
    dsimp only at hpass
    split_ifs at hpass with hend hsecond
    · cases hpass
      rw [hend, List.drop_length] at hpieces
      rw [← hpieces]
      exact (List.append_nil _).symm
    · cases hpass
      have hnil : csv.drop (findFirstOf csv delims s.first + 1) = [] :=
        List.drop_eq_nil_of_le (by omega)
      rw [split_drop s.first, hnil, List.map_append, ← List.append_assoc] at hpieces
      rw [← hpieces]
      exact (List.append_nil _).symm

/-- The loop ends within one pass more than the text is long. -/
lemma run_pass {fuel : ℕ} (hfuel : csv.length < fuel) :
    Loop.run (pass make csv delims) fuel ⟨0, []⟩ =
      some ((Text.split (· ∈ delims) csv).map make) := by
  have hinit : Inv make csv delims ⟨0, []⟩ := ⟨Nat.zero_le _, rfl⟩
  obtain ⟨out, rfl, hrun⟩ := sound.exists_run hinit
  exact hrun fuel hfuel

/-! ### The three copies -/

/-- A splitter ends on every text and with every set of delimiters.  It finds the maximal runs, from
left to right, and so the segments that a text is written from. -/
structure Correct (make : Bytes → σ) (split : ℕ → Bytes → Bytes → Option (List σ)) : Prop where
  runs : ∀ csv delims, ∃ spans, Text.Runs (· ∈ delims) csv spans ∧ ∀ fuel, csv.length < fuel →
    split fuel csv delims = some (spans.map fun s => make (Text.slice csv s.1 s.2))
  written : ∀ csv delims segments, Text.Written (· ∈ delims) segments csv →
    ∀ fuel, csv.length < fuel → split fuel csv delims = some (segments.map make)

lemma correct_run :
    Correct make fun fuel csv delims => Loop.run (pass make csv delims) fuel ⟨0, []⟩ := by
  constructor
  · intro csv delims
    obtain ⟨spans, hruns, hpieces⟩ :=
      Text.written_runs (Text.written_split (· ∈ delims) csv)
    refine ⟨spans, hruns, fun fuel hfuel => ?_⟩
    rw [run_pass hfuel, hpieces, List.map_map]
    rfl
  · intro csv delims segments hwritten fuel hfuel
    rw [run_pass hfuel, Text.split_of_written hwritten]

/-- **Each of the three copies** yields exactly the maximal runs, and they agree. -/
theorem correct_splitLoop {σ : Type*} (make : Bytes → σ) :
    Correct make (@Router.splitLoop σ make) ∧ Correct id @Util.splitLoop ∧
      Correct id @Client.Mmdb.splitLoop ∧
      ∀ fuel csv delims, Router.splitLoop id fuel csv delims = Util.splitLoop fuel csv delims ∧
        Util.splitLoop fuel csv delims = Client.Mmdb.splitLoop fuel csv delims :=
  ⟨correct_run, correct_run, correct_run, fun _ _ _ => ⟨rfl, rfl⟩⟩

end Split

/-! ### The splitters of the other modules -/

lemma Router.splitLoop_eq {fuel : ℕ} {csv : Bytes} (hfuel : csv.length < fuel) :
    Router.splitLoop id fuel csv = some (Router.split csv) := by
  have hdelims : (fun c : UInt8 => decide (c ∈ bytesOf "/")) = fun c => decide (c = chr '/') := by
    funext c
    exact decide_eq_decide.mpr List.mem_singleton
  rw [Router.splitLoop, Split.run_pass hfuel, List.map_id, hdelims]
  rfl

lemma Client.Mmdb.splitLoop_eq {fuel : ℕ} {text delims : Bytes} (hfuel : text.length < fuel) :
    Client.Mmdb.splitLoop fuel text delims = some (Client.Mmdb.split text delims) := by
  rw [Client.Mmdb.splitLoop, Split.run_pass hfuel, List.map_id]
  rfl

example : Util.splitLoop 9 (bytesOf ",a,,bc,") = some [bytesOf "a", bytesOf "bc"] := by decide

end S3Proxy
