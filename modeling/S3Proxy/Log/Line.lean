import S3Proxy.Library.Cells
import S3Proxy.Model.Text

/-!
# A line of the log

A `NanoLogLine` serialises what is logged into a buffer of its own: 224 bytes inside the object, and
a block on the heap once these are too few.  Each argument is a byte with the number of its type,
followed by its value; a string literal is logged by its address, any other string by its text and a
NUL byte.

The blocks are `Cells`: every store of the source checks in the model that it stays in its block, so
that a line is `none` from the first store on that does not.  The offsets are those of a platform
with pointers, `size_t` and `std::thread::id` of eight bytes.

## Main result

`NanoLogLine.write_inBuffer`: whatever is logged, every store of a line stays in its buffer.  The
bytes used are those of the header and of the records of the arguments, they fit, the block on the
heap is there exactly when the object is too small, and it is at most twice as large as needed, or
512 bytes.

`Holds` is the invariant: what the line holds so far, the size of its block, and that the cells
behind are fresh.  `Holds.resizeBufferIfNeeded` makes room and loses nothing, `Holds.log` is one
argument of any type, and `Holds.foldlM_log` any number of them.  `NanoLogLine.holds_write` is the
whole line: its header and then its records (`Arg.record`).

## Hypotheses

None: any header, any arguments, any number of them.  Allocation succeeds.

## Where it is used

`Log.Stringify` reads what `NanoLogLine.holds_write` says is there.  `LogLevel` is also the level
that `Main` sets.
-/

namespace S3Proxy

namespace Log

/-- `LogLevel`. -/
inductive LogLevel where
  | debug
  | info
  | warn
  | crit
  deriving DecidableEq, Repr

/-- The `uint8_t` of an enumerator. -/
def LogLevel.value : LogLevel → ℕ
  | .debug => 0
  | .info => 1
  | .warn => 2
  | .crit => 3

/-- What a `char const *` points to: the characters before the NUL byte. -/
structure CString where
  text : Bytes
  terminated : 0 ∉ text

/-- What is logged: the overloads of `operator<<`.  An address stands for a string literal, the bits
of a `double` for the number, and `none` for a null pointer. -/
inductive Arg where
  | char (c : UInt8)
  | uint32 (n : UInt32)
  | uint64 (n : UInt64)
  | int32 (n : Int32)
  | int64 (n : Int64)
  | double (bits : UInt64)
  | literal (address : UInt64)
  | pointer (s : Option CString)
  | string (s : Bytes)
  | stringView (s : Bytes)

/-- `sizeof(m_stack_buffer)`. -/
def stackSize : ℕ := 256 - 2 * 8 - 8 - 8

structure NanoLogLine where
  bytesUsed : ℕ
  bufferSize : ℕ
  stack : List Cell
  heap : Option (List Cell)

namespace NanoLogLine

/-- The block that `buffer` points into. -/
def block (l : NanoLogLine) : List Cell := l.heap.getD l.stack

def setBlock (l : NanoLogLine) (block : List Cell) : NanoLogLine :=
  match l.heap with
  | none => { l with stack := block }
  | some _ => { l with heap := some block }

/-- Stores bytes at `buffer`, and counts them as used. -/
def store (bs : Bytes) (l : NanoLogLine) : Option NanoLogLine :=
  (Cells.poke l.bytesUsed (Cells.holding bs) l.block).map fun block =>
    { l.setBlock block with bytesUsed := l.bytesUsed + bs.length }

/-- `resize_buffer_if_needed`.  `make_unique` clears the new block, `new` does not. -/
def resizeBufferIfNeeded (additionalBytes : ℕ) (l : NanoLogLine) : Option NanoLogLine :=
  let requiredSize := l.bytesUsed + additionalBytes
  if requiredSize ≤ l.bufferSize then some l
  else match l.heap with
    | none =>
      let size := max 512 requiredSize
      (Cells.poke 0 (l.stack.take l.bytesUsed) (List.replicate size (some 0))).map fun block =>
        { l with bufferSize := size, heap := some block }
    | some heap =>
      let size := max (2 * l.bufferSize) requiredSize
      (Cells.poke 0 (heap.take l.bytesUsed) (List.replicate size none)).map fun block =>
        { l with bufferSize := size, heap := some block }

/-- `encode< Arg >( arg, type_id )`, for an argument of `k` bytes. -/
def encode (typeId : UInt8) (k n : ℕ) (l : NanoLogLine) : Option NanoLogLine :=
  (l.resizeBufferIfNeeded (k + 1)).bind fun l =>
    (l.store [typeId]).bind fun l => l.store (LittleEndian.encode k n)

/-- The text of a string with its length, and a NUL byte behind it. -/
def encodeText (text : Bytes) (l : NanoLogLine) : Option NanoLogLine :=
  (l.resizeBufferIfNeeded (1 + text.length + 1)).bind fun l => l.store (7 :: text ++ [0])

/-- `encode_c_string`. -/
def encodeCString (text : Bytes) (l : NanoLogLine) : Option NanoLogLine :=
  if text.length = 0 then some l else l.encodeText text

/-- `operator<<`. -/
def log (l : NanoLogLine) : Arg → Option NanoLogLine
  | .char c => l.encode 0 1 c.toNat
  | .uint32 n => l.encode 1 4 n.toNat
  | .uint64 n => l.encode 2 8 n.toNat
  | .int32 n => l.encode 3 4 n.toUInt32.toNat
  | .int64 n => l.encode 4 8 n.toUInt64.toNat
  | .double bits => l.encode 5 8 bits.toNat
  | .literal address => l.encode 6 8 address.toNat
  | .pointer none => some l
  | .pointer (some s) => l.encodeCString s.text
  | .string s => l.encodeCString s
  | .stringView s => l.encodeText s

end NanoLogLine

/-- What the constructor writes. -/
structure Header where
  timestamp : UInt64
  threadId : UInt64
  file : UInt64
  function : UInt64
  line : UInt32
  level : LogLevel

/-- The `encode`s of the constructor. -/
def Header.fields (h : Header) : List Bytes :=
  [LittleEndian.encode 8 h.timestamp.toNat, LittleEndian.encode 8 h.threadId.toNat,
    LittleEndian.encode 8 h.file.toNat, LittleEndian.encode 8 h.function.toNat,
    LittleEndian.encode 4 h.line.toNat, LittleEndian.encode 1 h.level.value]

/-- The constructor of `NanoLogLine`, which does not ask for room. -/
def NanoLogLine.create (h : Header) : Option NanoLogLine :=
  h.fields.foldlM (fun l bs => l.store bs)
    ⟨0, stackSize, List.replicate stackSize none, none⟩

/-- The line of a statement with `NANO_LOG`, once everything is logged. -/
def NanoLogLine.write (h : Header) (args : List Arg) : Option NanoLogLine :=
  (create h).bind fun l => args.foldlM log l

/-! ### What a line holds -/

/-- The bytes that an argument adds. -/
def Arg.record : Arg → Bytes
  | .char c => 0 :: LittleEndian.encode 1 c.toNat
  | .uint32 n => 1 :: LittleEndian.encode 4 n.toNat
  | .uint64 n => 2 :: LittleEndian.encode 8 n.toNat
  | .int32 n => 3 :: LittleEndian.encode 4 n.toUInt32.toNat
  | .int64 n => 4 :: LittleEndian.encode 8 n.toUInt64.toNat
  | .double bits => 5 :: LittleEndian.encode 8 bits.toNat
  | .literal address => 6 :: LittleEndian.encode 8 address.toNat
  | .pointer none => []
  | .pointer (some s) => if s.text = [] then [] else 7 :: s.text ++ [0]
  | .string s => if s = [] then [] else 7 :: s ++ [0]
  | .stringView s => 7 :: s ++ [0]

variable {l l' : NanoLogLine} {bs cs : Bytes} {n : ℕ}

/-- The line holds the given bytes, in a block whose size it knows and that was made for at most
`needed` bytes: the one inside the object, or one on the heap of no more than twice the need.
Behind them the block is as it was made. -/
structure NanoLogLine.Holds (l : NanoLogLine) (bs : Bytes) (needed : ℕ) : Prop where
  used : l.bytesUsed = bs.length
  size : l.block.length = l.bufferSize
  le : bs.length ≤ l.bufferSize
  take : l.block.take bs.length = Cells.holding bs
  fresh : ∀ c ∈ l.block.drop bs.length, c = none ∨ c = some 0
  onStack : l.heap = none → l.bufferSize = stackSize
  onHeap : l.heap.isSome → stackSize < needed ∧ l.bufferSize ≤ max 512 (2 * needed)

namespace NanoLogLine

variable {needed : ℕ} {block : List Cell}

/-! The fields of a line after a store. -/

lemma block_setBlock : (l.setBlock block).block = block := by
  unfold setBlock NanoLogLine.block
  cases l.heap <;> simp

lemma isSome_heap_setBlock (l : NanoLogLine) (block : List Cell) :
    (l.setBlock block).heap.isSome = l.heap.isSome := by
  unfold setBlock
  cases l.heap <;> simp

lemma bufferSize_setBlock : (l.setBlock block).bufferSize = l.bufferSize := by
  unfold setBlock
  cases l.heap <;> rfl

/-- A line with more bytes in a block of the same size. -/
lemma Holds.setBlock (h : Holds l bs needed) (hlength : block.length = l.bufferSize)
    (hle : bs.length + cs.length ≤ l.bufferSize)
    (htake : block.take (bs.length + cs.length) = Cells.holding (bs ++ cs))
    (hfresh : ∀ c ∈ block.drop (bs.length + cs.length), c = none ∨ c = some 0) :
    Holds { l.setBlock block with bytesUsed := l.bytesUsed + cs.length } (bs ++ cs) needed where
  used := by simp [h.used]
  size := (congrArg List.length block_setBlock).trans (hlength.trans bufferSize_setBlock.symm)
  le := by
    show _ ≤ (l.setBlock block).bufferSize
    rw [bufferSize_setBlock, List.length_append]
    exact hle
  take := by
    show (l.setBlock block).block.take _ = _
    rw [block_setBlock, List.length_append]
    exact htake
  fresh := by
    show ∀ c ∈ (l.setBlock block).block.drop _, _
    rw [block_setBlock, List.length_append]
    exact hfresh
  onStack hheap := by
    have hsome := isSome_heap_setBlock l block
    rw [show (l.setBlock block).heap = none from hheap] at hsome
    show (l.setBlock block).bufferSize = _
    rw [bufferSize_setBlock]
    apply h.onStack
    simpa using hsome.symm
  onHeap hheap := by
    show _ ∧ (l.setBlock block).bufferSize ≤ _
    rw [bufferSize_setBlock]
    apply h.onHeap
    rw [← isSome_heap_setBlock l block]
    exact hheap

/-- A store that fits adds its bytes. -/
lemma Holds.store (h : Holds l bs needed) (hfits : bs.length + cs.length ≤ l.bufferSize) :
    ∃ l', l.store cs = some l' ∧ Holds l' (bs ++ cs) needed ∧ l'.bufferSize = l.bufferSize := by
  obtain ⟨rest, hblock⟩ : ∃ rest, l.block = Cells.holding bs ++ rest :=
    ⟨l.block.drop bs.length, by rw [← h.take, List.take_append_drop]⟩
  have hsize : bs.length + rest.length = l.bufferSize := by
    rw [← h.size, hblock, List.length_append, Cells.length_holding]
  have hin : bs.length + (Cells.holding cs).length ≤ (Cells.holding bs ++ rest).length := by
    rw [List.length_append, Cells.length_holding, Cells.length_holding]
    omega
  have hpoke : Cells.poke l.bytesUsed (Cells.holding cs) l.block = _ :=
    h.used ▸ hblock ▸ Cells.poke_holding hin
  refine ⟨_, congrArg (Option.map _) hpoke, ?_, bufferSize_setBlock⟩
  apply h.setBlock
  · simp only [List.length_append, Cells.length_holding, List.length_drop]
    omega
  · exact hfits
  · rw [← Cells.holding_append]
    exact List.take_left' (by simp)
  · have hrest : l.block.drop bs.length = rest := by rw [hblock, List.drop_left' (by simp)]
    rw [← Cells.holding_append, List.drop_left' (by simp), Cells.length_holding]
    exact fun c hc => h.fresh c (hrest ▸ List.mem_of_mem_drop hc)

/-- A block on the heap that takes over what the line holds. -/
lemma holds_of_grown {size : ℕ} {c : Cell} (hc : c = none ∨ c = some 0)
    (hused : l.bytesUsed = bs.length) (hle : bs.length ≤ size) (hneeded : stackSize < needed)
    (hsize : size ≤ max 512 (2 * needed)) :
    Holds { l with
      bufferSize := size
      heap := some (Cells.holding bs ++ List.replicate (size - bs.length) c) } bs needed where
  used := hused
  size := by
    show (Cells.holding bs ++ _).length = size
    rw [List.length_append, Cells.length_holding, List.length_replicate]
    omega
  le := hle
  take := List.take_left' Cells.length_holding
  fresh d hd := by
    have hdrop : (Cells.holding bs ++ List.replicate (size - bs.length) c).drop bs.length = _ :=
      List.drop_left' Cells.length_holding
    rw [NanoLogLine.block, Option.getD_some, hdrop] at hd
    exact List.eq_of_mem_replicate hd ▸ hc
  onStack hheap := by simp at hheap
  onHeap _ := ⟨hneeded, hsize⟩

/-- After `resize_buffer_if_needed` there is room, and nothing is lost. -/
lemma Holds.resizeBufferIfNeeded (h : Holds l bs bs.length) (n : ℕ) :
    ∃ l', l.resizeBufferIfNeeded n = some l' ∧ Holds l' bs (bs.length + n) ∧
      bs.length + n ≤ l'.bufferSize := by
  have hused := h.used
  have hle := h.le
  unfold NanoLogLine.resizeBufferIfNeeded
  by_cases hroom : l.bytesUsed + n ≤ l.bufferSize
  · refine ⟨l, if_pos hroom, { h with onHeap := ?_ }, hused ▸ hroom⟩
    intro hheap
    have hbound := h.onHeap hheap
    exact ⟨by omega, by omega⟩
  · simp only [if_neg hroom]
    have hcopy := h.take
    cases hheap : l.heap with
    | none =>
        rw [NanoLogLine.block, hheap, Option.getD_none, ← hused] at hcopy
        have hsize := h.onStack hheap
        have hgrown : bs.length ≤ max 512 (l.bytesUsed + n) := by omega
        refine ⟨_, ?_, holds_of_grown (.inr rfl) hused hgrown (by omega) (by omega), ?_⟩
        · show Option.map _ (Cells.poke 0 (l.stack.take l.bytesUsed) _) = _
          rw [hcopy, Cells.poke_replicate hgrown, Option.map_some]
        · show _ ≤ max 512 (l.bytesUsed + n)
          omega
    | some heap =>
        obtain ⟨hneeded, hbound⟩ := h.onHeap (by simp [hheap])
        rw [NanoLogLine.block, hheap, Option.getD_some, ← hused] at hcopy
        have hgrown : bs.length ≤ max (2 * l.bufferSize) (l.bytesUsed + n) := by omega
        refine ⟨_, ?_, holds_of_grown (.inl rfl) hused hgrown (by omega) (by omega), ?_⟩
        · show Option.map _ (Cells.poke 0 (heap.take l.bytesUsed) _) = _
          rw [hcopy, Cells.poke_replicate hgrown, Option.map_some]
        · show _ ≤ max (2 * l.bufferSize) (l.bytesUsed + n)
          omega

lemma Holds.encode (h : Holds l bs bs.length) (typeId : UInt8) (k n : ℕ) :
    ∃ l', l.encode typeId k n = some l' ∧
      Holds l' (bs ++ typeId :: LittleEndian.encode k n) (bs.length + (k + 1)) := by
  obtain ⟨l₁, hresize, h₁, hroom⟩ := h.resizeBufferIfNeeded (k + 1)
  have hfits : bs.length + [typeId].length ≤ l₁.bufferSize := by
    simp only [List.length_singleton]
    omega
  obtain ⟨l₂, htype, h₂, hsize⟩ := h₁.store hfits
  have hfits' : (bs ++ [typeId]).length + (LittleEndian.encode k n).length ≤ l₂.bufferSize := by
    simp only [List.length_append, List.length_singleton, LittleEndian.length_encode]
    omega
  obtain ⟨l₃, hvalue, h₃, -⟩ := h₂.store hfits'
  refine ⟨l₃, ?_, by simpa using h₃⟩
  rw [NanoLogLine.encode, hresize, Option.bind_some, htype, Option.bind_some, hvalue]

lemma Holds.encodeText (h : Holds l bs bs.length) (text : Bytes) :
    ∃ l', l.encodeText text = some l' ∧
      Holds l' (bs ++ (7 :: text ++ [0])) (bs.length + (1 + text.length + 1)) := by
  obtain ⟨l₁, hresize, h₁, hroom⟩ := h.resizeBufferIfNeeded (1 + text.length + 1)
  have hfits : bs.length + (7 :: text ++ [0]).length ≤ l₁.bufferSize := by
    simp only [List.length_append, List.length_cons, List.length_nil]
    omega
  obtain ⟨l₂, hstore, h₂, -⟩ := h₁.store hfits
  refine ⟨l₂, ?_, h₂⟩
  rw [NanoLogLine.encodeText, hresize, Option.bind_some, hstore]

lemma Holds.encodeCString (h : Holds l bs bs.length) (text : Bytes) :
    ∃ l', l.encodeCString text = some l' ∧
      Holds l' (bs ++ if text = [] then [] else 7 :: text ++ [0])
        (bs ++ if text = [] then [] else 7 :: text ++ [0]).length := by
  unfold NanoLogLine.encodeCString
  by_cases hempty : text = []
  · subst hempty
    exact ⟨l, rfl, by simpa using h⟩
  · obtain ⟨l', hl', h'⟩ := h.encodeText text
    have hlength : text.length ≠ 0 := by simpa using hempty
    rw [if_neg hempty, if_neg hlength]
    refine ⟨l', hl', ?_⟩
    simpa [Nat.add_comm, Nat.add_left_comm] using h'

/-- **One argument** adds its record. -/
lemma Holds.log (h : Holds l bs bs.length) (a : Arg) :
    ∃ l', l.log a = some l' ∧ Holds l' (bs ++ a.record) (bs ++ a.record).length := by
  have hnumber (typeId : UInt8) (k n : ℕ) : ∃ l', l.encode typeId k n = some l' ∧
      Holds l' (bs ++ typeId :: LittleEndian.encode k n)
        (bs ++ typeId :: LittleEndian.encode k n).length := by
    simpa using h.encode typeId k n
  cases a with
  | char c => exact hnumber 0 1 c.toNat
  | uint32 n => exact hnumber 1 4 n.toNat
  | uint64 n => exact hnumber 2 8 n.toNat
  | int32 n => exact hnumber 3 4 n.toUInt32.toNat
  | int64 n => exact hnumber 4 8 n.toUInt64.toNat
  | double bits => exact hnumber 5 8 bits.toNat
  | literal address => exact hnumber 6 8 address.toNat
  | pointer s =>
      cases s with
      | none => exact ⟨l, rfl, by simpa [Arg.record] using h⟩
      | some s => exact h.encodeCString s.text
  | string s => exact h.encodeCString s
  | stringView s =>
      obtain ⟨l', hl', h'⟩ := h.encodeText s
      exact ⟨l', hl', by simpa [Arg.record, Nat.add_comm, Nat.add_left_comm] using h'⟩

/-- Any number of arguments. -/
lemma Holds.foldlM_log (h : Holds l bs bs.length) (args : List Arg) :
    ∃ l', args.foldlM NanoLogLine.log l = some l' ∧
      Holds l' (bs ++ args.flatMap Arg.record) (bs ++ args.flatMap Arg.record).length := by
  induction args generalizing l bs with
  | nil => exact ⟨l, rfl, by simpa using h⟩
  | cons a args ih =>
      obtain ⟨l₁, hlog, h₁⟩ := h.log a
      obtain ⟨l', hrest, h'⟩ := ih h₁
      refine ⟨l', ?_, by simpa using h'⟩
      rw [List.foldlM_cons, hlog]
      exact hrest

end NanoLogLine

/-- The bytes of the header. -/
def Header.bytes (h : Header) : Bytes := h.fields.flatten

lemma Header.length_bytes (h : Header) : h.bytes.length = 37 := by
  simp [Header.bytes, Header.fields]

lemma NanoLogLine.Holds.foldlM_store {needed : ℕ} (h : Holds l bs needed) (fields : List Bytes)
    (hfits : bs.length + fields.flatten.length ≤ l.bufferSize) :
    ∃ l', fields.foldlM (fun l bs => NanoLogLine.store bs l) l = some l' ∧
      Holds l' (bs ++ fields.flatten) needed := by
  induction fields generalizing l bs with
  | nil => exact ⟨l, rfl, by simpa using h⟩
  | cons field fields ih =>
      rw [List.flatten_cons, List.length_append] at hfits
      have hfield : bs.length + field.length ≤ l.bufferSize := by omega
      obtain ⟨l₁, hstore, h₁, hsize⟩ := h.store hfield
      obtain ⟨l', hrest, h'⟩ := ih h₁ (by rw [List.length_append, hsize]; omega)
      refine ⟨l', ?_, by simpa using h'⟩
      rw [List.foldlM_cons, hstore]
      exact hrest

/-- The header fits into the object. -/
lemma NanoLogLine.holds_create (h : Header) :
    ∃ l, create h = some l ∧ Holds l h.bytes h.bytes.length := by
  have hnew : Holds ⟨0, stackSize, List.replicate stackSize none, none⟩ [] h.bytes.length :=
    ⟨rfl, List.length_replicate, Nat.zero_le _, rfl,
      fun _ hc => .inl (List.eq_of_mem_replicate (List.mem_of_mem_drop hc)), fun _ => rfl, nofun⟩
  apply hnew.foldlM_store
  show 0 + h.bytes.length ≤ stackSize
  rw [h.length_bytes]
  decide

/-- A line holds its header and then the records of what was logged. -/
lemma NanoLogLine.holds_write (h : Header) (args : List Arg) :
    ∃ l, write h args = some l ∧ Holds l (h.bytes ++ args.flatMap Arg.record) l.bytesUsed := by
  obtain ⟨l, hcreate, hl⟩ := holds_create h
  obtain ⟨l', hlog, hl'⟩ := hl.foldlM_log args
  refine ⟨l', ?_, hl'.used ▸ hl'⟩
  rw [write, hcreate, Option.bind_some, hlog]

/-- **Every store of a line stays in its buffer**, whatever is logged.  The buffer is the one inside
the object as long as that has room, and else a block of at most 512 bytes or twice the bytes used.
-/
theorem NanoLogLine.write_inBuffer (h : Header) (args : List Arg) :
    ∃ l, write h args = some l ∧
      l.bytesUsed = 37 + (args.map fun a => a.record.length).sum ∧
      l.bytesUsed ≤ l.bufferSize ∧ l.block.length = l.bufferSize ∧
      (l.heap.isSome ↔ stackSize < l.bytesUsed) ∧
      (l.heap.isSome → l.bufferSize ≤ max 512 (2 * l.bytesUsed)) := by
  obtain ⟨l, hwrite, hl⟩ := holds_write h args
  have hle := hl.used ▸ hl.le
  refine ⟨l, hwrite, ?_, hle, hl.size, ⟨fun hheap => (hl.onHeap hheap).1, fun hlt => ?_⟩,
    fun hheap => (hl.onHeap hheap).2⟩
  · rw [hl.used, List.length_append, h.length_bytes, List.length_flatMap]
  · by_contra hheap
    have hsize := hl.onStack (by simpa using hheap)
    omega

end Log

end S3Proxy
