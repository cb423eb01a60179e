import S3Proxy.Library.Rings
import S3Proxy.Library.Run
import S3Proxy.Library.Threads
import S3Proxy.Library.Tickets

/-!
# A producer of the concurrent queue

`ConcurrentQueue` keeps a sub-queue for each thread that enqueues.  `ImplicitProducer` is that
sub-queue: its own thread enqueues, and any threads dequeue.  An element gets the next index; it
lies in the block of its 32 indices, which the block index finds.  The block index is a ring of
entries, and when its next entry is in use a ring of twice the size takes its place, with the same
entries.  A block goes back to the pool, and may come back with other contents, when its 32 elements
are out.

Every step of the model is one access to what the threads share, as if it came at once into effect
for all of them.  Indices and counts are words of 64 bits.  `others` stands for the rest of the
queue, which shares the pool.  A step that would follow a null pointer, or move out of a place where
no element is, does not exist; that no thread ever comes to such a place is a result and not an
assumption (`safe_of_run` in `Queue.SubQueue`).

The fields of `BlockIndex` from `inserted` on, and those of `State` from `fates` on, are not the
program's: they record what has happened.

## The modules

The model is `produce`, `dequeue` and `step`, as the code computes them.  `Moves` is what a step can
do as long as the words do not wrap around, one constructor for each kind of step; the invariants
are kept by `Moves` and do not look into the code.

* `Queue.Counts`: no more consumers take an index than there are elements.
* `Queue.Holding`: who holds which index, and who closes a block.
* `Queue.BlockIndex`: a consumer finds the entry of its block, also while the ring grows.
* `Queue.Storage`: an element stays at its place until it is taken out.
* `Queue.SubQueue`: every step is one of `Moves`, and so the invariants hold in every run; the
  code's assertions hold and no block is lost.
* `Queue.Fifo`: every element is taken out once, in order for each thread.

## What is assumed

Memory is sequentially consistent, where the source has acquire and release; a run has fewer than
`2 ^ 62` steps; allocation succeeds and moving an element throws nothing.  What the source does in
those cases is not in the model.
-/

namespace S3Proxy

namespace Queue

namespace ImplicitProducer

/-- `BLOCK_SIZE`. -/
abbrev blockSize : ℕ := 32

/-- `a - b` of words. -/
def sub (a b : ℕ) : ℕ := (a + 2 ^ 64 - b) % 2 ^ 64

/-- `fetch_add( 1 )` on a word. -/
def increment (a : ℕ) : ℕ := (a + 1) % 2 ^ 64

def circularLessThan (a b : ℕ) : Bool := 2 ^ 63 < sub a b

structure Block (α : Type*) where
  /-- What has been constructed at each place. -/
  elements : ℕ → Option α
  elementsCompletelyDequeued : ℕ

structure BlockIndexEntry where
  key : ℕ
  value : Option ℕ

/-- `INVALID_BLOCK_BASE`. -/
abbrev invalidBlockBase : ℕ := 1

/-- Capacities are powers of two, so that the masks of the source are remainders. -/
structure BlockIndexHeader where
  capacity : ℕ
  tail : ℕ
  index : ℕ → ℕ

/-- Who may use a block. -/
inductive Owner
  | pool | mine | others
  deriving DecidableEq, Repr

/-- Where the thread is in `enqueue`. -/
inductive Producer (α : Type*)
  | idle
  /-- At the end of a block. -/
  | atBoundary (element : α)
  /-- In `insert_block_index_entry`. -/
  | inserting (element : α)
  | keying (element : α) (newTail entry : ℕ)
  | advancing (element : α) (newTail entry : ℕ)
  /-- Before `requisition_block`. -/
  | requisitioning (element : α) (entry : ℕ)
  | linking (element : α) (entry block : ℕ)
  | constructing (element : α)
  /-- Before `tailIndex.store`. -/
  | publishing (element : α)

/-- Where a thread is in `dequeue`, with its local variables. -/
inductive Consumer
  | idle
  | loaded (tail : ℕ)
  | comparing (tail overcommit : ℕ)
  | claiming (overcommit : ℕ)
  | claimed (overcommit myDequeueCount : ℕ)
  | givingBack
  | taking
  | took (index : ℕ)
  | atHeader (index header : ℕ)
  | atTail (index header tail : ℕ)
  | atEntry (index entry : ℕ)
  | atBlock (index entry block : ℕ)
  /-- The element is out; before `set_empty`. -/
  | moved (index entry block : ℕ)
  | unlinking (index entry block : ℕ)
  | releasing (index block : ℕ)
  deriving DecidableEq, Repr

/-- `get_block_index_index_for_index`, with what was loaded from the header and its last entry.  The
signed difference is a word again when it is divided by a `size_t`. -/
def blockIndexIndex (index tail tailBase capacity : ℕ) : ℕ :=
  let offset := sub (index / blockSize * blockSize) tailBase / blockSize
  (tail + offset) % 2 ^ 64 % capacity

structure BlockIndex where
  nextBlockIndexCapacity : ℕ
  /-- Headers are named in the order in which they are made. -/
  blockIndex : ℕ := 0
  headers : ℕ → BlockIndexHeader
  /-- How many entries have been made. -/
  entryCount : ℕ
  entries : ℕ → BlockIndexEntry
  /-- How many blocks have been entered, and how many are linked. -/
  inserted : ℕ := 0
  linked : ℕ := 0
  /-- The blocks whose entry was cleared. -/
  unlinked : Finset ℕ := ∅
  /-- The entry and the block of the indices from `32 * n` on. -/
  entryOf : ℕ → ℕ := fun _ => 0
  blockOf : ℕ → ℕ := fun _ => 0
  /-- Where in a header the entries begin, and how many blocks were entered through it. -/
  shift : ℕ → ℕ := fun _ => 0
  reach : ℕ → ℕ := fun _ => 0

namespace BlockIndex

/-- `idxEntry->key.store`. -/
def setKey (x : BlockIndex) (e key : ℕ) : BlockIndex :=
  { x with entries := Function.update x.entries e { x.entries e with key := key } }

/-- `localBlockIndex->tail.store`: the entry is that of the next block. -/
def insert (x : BlockIndex) (newTail e : ℕ) : BlockIndex :=
  { x with
    headers := Function.update x.headers x.blockIndex
      { x.headers x.blockIndex with tail := newTail }
    inserted := x.inserted + 1
    reach := Function.update x.reach x.blockIndex (x.inserted + 1)
    entryOf := Function.update x.entryOf x.inserted e }

/-- `idxEntry->value.store( newBlock )`. -/
def link (x : BlockIndex) (e b : ℕ) : BlockIndex :=
  { x with
    entries := Function.update x.entries e { x.entries e with value := some b }
    linked := x.linked + 1
    blockOf := Function.update x.blockOf x.linked b }

/-- `entry->value.store( nullptr )`. -/
def unlink (x : BlockIndex) (n e : ℕ) : BlockIndex :=
  { x with
    entries := Function.update x.entries e { x.entries e with value := none }
    unlinked := Insert.insert n x.unlinked }

/-- `new_block_index`, which copies the ring from its oldest entry on. -/
def newBlockIndex (x : BlockIndex) : BlockIndex :=
  let prev := x.headers x.blockIndex
  { x with
    headers := Function.update x.headers (x.blockIndex + 1)
      { capacity := x.nextBlockIndexCapacity
        tail := prev.capacity - 1
        index := fun i =>
          if i < prev.capacity then prev.index ((prev.tail + 1 + i) % prev.capacity)
          else x.entryCount + (i - prev.capacity) }
    blockIndex := x.blockIndex + 1
    nextBlockIndexCapacity := 2 * x.nextBlockIndexCapacity
    entries := fun e =>
      if x.entryCount ≤ e ∧ e < x.entryCount + prev.capacity then
        { x.entries e with key := invalidBlockBase }
      else x.entries e
    entryCount := x.entryCount + prev.capacity
    shift := Function.update x.shift (x.blockIndex + 1)
      (Rings.doubledShift prev.capacity x.inserted)
    reach := Function.update x.reach (x.blockIndex + 1) x.inserted }

/-- `newTail` of `insert_block_index_entry`. -/
def newTail (x : BlockIndex) : ℕ :=
  ((x.headers x.blockIndex).tail + 1) % (x.headers x.blockIndex).capacity

/-- `idxEntry` of `insert_block_index_entry`. -/
def idxEntry (x : BlockIndex) : ℕ := (x.headers x.blockIndex).index x.newTail

end BlockIndex

structure State (ι α : Type*) extends BlockIndex where
  tailIndex : ℕ := 0
  headIndex : ℕ := 0
  dequeueOptimisticCount : ℕ := 0
  dequeueOvercommit : ℕ := 0
  tailBlock : Option ℕ := none
  blocks : ℕ → Block α
  owner : ℕ → Owner
  producer : Producer α := .idle
  consumers : ι → Consumer := fun _ => .idle
  /-- What became of the values of `dequeueOptimisticCount`. -/
  fates : List Tickets.Fate := []
  /-- Who is about to raise `headIndex`, and `dequeueOvercommit`. -/
  takers : Finset ι := ∅
  givers : Finset ι := ∅
  enqueued : List α := []
  /-- Which element each thread moved out, with its index. -/
  taken : List (ι × ℕ × α) := []
  /-- The indices that `set_empty` was called for. -/
  emptied : Finset ℕ := ∅
  /-- The blocks that went back to the pool. -/
  released : Finset ℕ := ∅

/-- The constructor, with the block index that `new_block_index` makes; the values of the entries
are not initialised. -/
def start {ι α : Type*} (values : ℕ → Option ℕ) (blocks : ℕ → Block α) (owner : ℕ → Owner) :
    State ι α where
  nextBlockIndexCapacity := 64
  headers _ := { capacity := 32, tail := 31, index := id }
  entryCount := 32
  entries e := { key := invalidBlockBase, value := values e }
  blocks := blocks
  owner b := if owner b = .mine then .others else owner b

inductive Label (ι α : Type*)
  | enqueue (element : α)
  /-- The next step of the thread that enqueues. -/
  | produce
  | requisition (block : ℕ)
  /-- The next step of a thread that dequeues; the first one is the call. -/
  | dequeue (i : ι)
  /-- The rest of the queue takes a block from the pool, gives it back, or works on it. -/
  | othersTake (block : ℕ)
  | othersGive (block : ℕ)
  | othersUse (block : ℕ) (contents : Block α)

variable {ι α : Type*}

/-! ### Steps of the producer -/

/-- The next step of the thread that enqueues, up to `requisition_block`. -/
def produce (s : State ι α) : Option (State ι α) :=
  match s.producer with
  | .idle | .requisitioning .. => none
  | .atBoundary x =>
      if circularLessThan s.headIndex ((s.tailIndex + blockSize) % 2 ^ 64) then
        some { s with producer := .inserting x }
      else some { s with producer := .idle }
  | .inserting x =>
      let entry := s.entries s.idxEntry
      if entry.key = invalidBlockBase ∨ entry.value = none then
        some { s with producer := .keying x s.newTail s.idxEntry }
      else
        let table := s.newBlockIndex
        some { s with
          toBlockIndex := table, producer := .keying x table.newTail table.idxEntry }
  | .keying x newTail e =>
      some { s with
        toBlockIndex := s.setKey e s.tailIndex, producer := .advancing x newTail e }
  | .advancing x newTail e =>
      some { s with toBlockIndex := s.insert newTail e, producer := .requisitioning x e }
  | .linking x e b =>
      some { s with
        toBlockIndex := s.link e b, tailBlock := some b, producer := .constructing x }
  | .constructing x =>
      s.tailBlock.map fun b =>
        { s with
          blocks := Function.update s.blocks b { s.blocks b with
            elements := Function.update (s.blocks b).elements (s.tailIndex % blockSize) (some x) }
          producer := .publishing x }
  | .publishing x =>
      some { s with
        tailIndex := increment s.tailIndex
        producer := .idle
        enqueued := s.enqueued ++ [x] }

/-- `requisition_block`, and `reset_empty` on the block that it gives. -/
def requisition (s : State ι α) (b : ℕ) : Option (State ι α) :=
  match s.producer with
  | .requisitioning x e =>
      if s.owner b = .pool then
        some { s with
          owner := Function.update s.owner b .mine
          blocks := Function.update s.blocks b
            { s.blocks b with elementsCompletelyDequeued := 0 }
          producer := .linking x e b }
      else none
  | _ => none

/-! ### Steps of a consumer -/

variable [DecidableEq ι]

def State.goto (s : State ι α) (i : ι) (q : Consumer) : State ι α :=
  { s with consumers := Function.update s.consumers i q }

/-- The next step of a thread that dequeues. -/
def dequeue (s : State ι α) (i : ι) : Option (State ι α) :=
  match s.consumers i with
  | .idle => some (s.goto i (.loaded s.tailIndex))
  | .loaded tail => some (s.goto i (.comparing tail s.dequeueOvercommit))
  | .comparing tail overcommit =>
      if circularLessThan (sub s.dequeueOptimisticCount overcommit) tail then
        some (s.goto i (.claiming overcommit))
      else some (s.goto i .idle)
  | .claiming overcommit =>
      some ({ s with
        dequeueOptimisticCount := increment s.dequeueOptimisticCount
        fates := s.fates ++ [Tickets.Fate.held] }.goto i
          (.claimed overcommit s.dequeueOptimisticCount))
  | .claimed overcommit count =>
      if circularLessThan (sub count overcommit) s.tailIndex then
        some ({ s with fates := s.fates.set count .won, takers := insert i s.takers }.goto i .taking)
      else
        some ({ s with fates := s.fates.set count .lost, givers := insert i s.givers }.goto i
          .givingBack)
  | .givingBack =>
      some ({ s with
        dequeueOvercommit := increment s.dequeueOvercommit
        givers := s.givers.erase i }.goto i .idle)
  | .taking =>
      some ({ s with
        headIndex := increment s.headIndex
        takers := s.takers.erase i }.goto i (.took s.headIndex))
  | .took index => some (s.goto i (.atHeader index s.blockIndex))
  | .atHeader index header => some (s.goto i (.atTail index header (s.headers header).tail))
  | .atTail index header tail =>
      let local' := s.headers header
      let idx := blockIndexIndex index tail (s.entries (local'.index tail)).key local'.capacity
      some (s.goto i (.atEntry index (local'.index idx)))
  | .atEntry index entry =>
      (s.entries entry).value.map fun block => s.goto i (.atBlock index entry block)
  | .atBlock index entry block =>
      ((s.blocks block).elements (index % blockSize)).map fun x =>
        { s with
          blocks := Function.update s.blocks block { s.blocks block with
            elements := Function.update (s.blocks block).elements (index % blockSize) none }
          taken := s.taken ++ [(i, index, x)] }.goto i (.moved index entry block)
  | .moved index entry block =>
      let prevVal := (s.blocks block).elementsCompletelyDequeued
      some ({ s with
        blocks := Function.update s.blocks block
          { s.blocks block with elementsCompletelyDequeued := prevVal + 1 }
        emptied := insert index s.emptied }.goto i
        (if prevVal = blockSize - 1 then .unlinking index entry block else .idle))
  | .unlinking index entry block =>
      some ({ s with toBlockIndex := s.unlink (index / blockSize) entry }.goto i
        (.releasing index block))
  | .releasing index block =>
      some ({ s with
        owner := Function.update s.owner block .pool
        released := insert (index / blockSize) s.released }.goto i .idle)

def step : PartialStep (State ι α) (Label ι α)
  | s, .enqueue x =>
      match s.producer with
      | .idle =>
          some { s with
            producer := if s.tailIndex % blockSize = 0 then .atBoundary x else .constructing x }
      | _ => none
  | s, .produce => produce s
  | s, .requisition b => requisition s b
  | s, .dequeue i => dequeue s i
  | s, .othersTake b =>
      if s.owner b = .pool then some { s with owner := Function.update s.owner b .others } else none
  | s, .othersGive b =>
      if s.owner b = .others then some { s with owner := Function.update s.owner b .pool } else none
  | s, .othersUse b contents =>
      if s.owner b = .others then some { s with blocks := Function.update s.blocks b contents }
      else none

/-! ### What a step does -/

/-- The steps without wrapping words, and with the entry and the block that the lookup is to find.
-/
inductive Moves (s : State ι α) : Label ι α → State ι α → Prop
  | enqueue {x : α} (h : s.producer = .idle) (hfull : s.tailIndex % blockSize = 0) :
      Moves s (.enqueue x) { s with producer := .atBoundary x }
  | enqueueInside {x : α} (h : s.producer = .idle) (hroom : s.tailIndex % blockSize ≠ 0) :
      Moves s (.enqueue x) { s with producer := .constructing x }
  | checked {x : α} (h : s.producer = .atBoundary x) :
      Moves s .produce { s with producer := .inserting x }
  | reuse {x : α} (h : s.producer = .inserting x)
      (hfree : (s.entries s.idxEntry).key = invalidBlockBase ∨ (s.entries s.idxEntry).value = none) :
      Moves s .produce { s with producer := .keying x s.newTail s.idxEntry }
  | grow {x : α} (h : s.producer = .inserting x)
      (hkey : (s.entries s.idxEntry).key ≠ invalidBlockBase)
      (hvalue : (s.entries s.idxEntry).value ≠ none) :
      Moves s .produce { s with
        toBlockIndex := s.newBlockIndex
        producer := .keying x s.newBlockIndex.newTail s.newBlockIndex.idxEntry }
  | key {x : α} {newTail e : ℕ} (h : s.producer = .keying x newTail e) :
      Moves s .produce { s with
        toBlockIndex := s.setKey e s.tailIndex, producer := .advancing x newTail e }
  | advance {x : α} {newTail e : ℕ} (h : s.producer = .advancing x newTail e) :
      Moves s .produce { s with
        toBlockIndex := s.insert newTail e, producer := .requisitioning x e }
  | requisition {x : α} {e b : ℕ} (h : s.producer = .requisitioning x e)
      (hb : s.owner b = .pool) :
      Moves s (.requisition b) { s with
        owner := Function.update s.owner b .mine
        blocks := Function.update s.blocks b
          { s.blocks b with elementsCompletelyDequeued := 0 }
        producer := .linking x e b }
  | link {x : α} {e b : ℕ} (h : s.producer = .linking x e b) :
      Moves s .produce { s with
        toBlockIndex := s.link e b, tailBlock := some b, producer := .constructing x }
  | construct {x : α} {b : ℕ} (h : s.producer = .constructing x) (hb : s.tailBlock = some b) :
      Moves s .produce { s with
        blocks := Function.update s.blocks b { s.blocks b with
          elements := Function.update (s.blocks b).elements (s.tailIndex % blockSize) (some x) }
        producer := .publishing x }
  | publish {x : α} (h : s.producer = .publishing x) :
      Moves s .produce { s with
        tailIndex := s.tailIndex + 1
        producer := .idle
        enqueued := s.enqueued ++ [x] }
  | call {i : ι} (h : s.consumers i = .idle) :
      Moves s (.dequeue i) (s.goto i (.loaded s.tailIndex))
  | overcommit {i : ι} {tail : ℕ} (h : s.consumers i = .loaded tail) :
      Moves s (.dequeue i) (s.goto i (.comparing tail s.dequeueOvercommit))
  | goOn {i : ι} {tail o : ℕ} (h : s.consumers i = .comparing tail o)
      (hlt : s.dequeueOptimisticCount < tail + o) : Moves s (.dequeue i) (s.goto i (.claiming o))
  | miss {i : ι} {tail o : ℕ} (h : s.consumers i = .comparing tail o)
      (hle : tail + o ≤ s.dequeueOptimisticCount) : Moves s (.dequeue i) (s.goto i .idle)
  | claim {i : ι} {o : ℕ} (h : s.consumers i = .claiming o) :
      Moves s (.dequeue i) ({ s with
        dequeueOptimisticCount := s.dequeueOptimisticCount + 1
        fates := s.fates ++ [Tickets.Fate.held] }.goto i (.claimed o s.dequeueOptimisticCount))
  | win {i : ι} {o count : ℕ} (h : s.consumers i = .claimed o count)
      (hlt : count < s.tailIndex + o) :
      Moves s (.dequeue i)
        ({ s with fates := s.fates.set count .won, takers := insert i s.takers }.goto i .taking)
  | lose {i : ι} {o count : ℕ} (h : s.consumers i = .claimed o count)
      (hle : s.tailIndex + o ≤ count) :
      Moves s (.dequeue i)
        ({ s with fates := s.fates.set count .lost, givers := insert i s.givers }.goto i
          .givingBack)
  | giveBack {i : ι} (h : s.consumers i = .givingBack) :
      Moves s (.dequeue i) ({ s with
        dequeueOvercommit := s.dequeueOvercommit + 1
        givers := s.givers.erase i }.goto i .idle)
  | take {i : ι} (h : s.consumers i = .taking) :
      Moves s (.dequeue i) ({ s with
        headIndex := s.headIndex + 1
        takers := s.takers.erase i }.goto i (.took s.headIndex))
  | header {i : ι} {k : ℕ} (h : s.consumers i = .took k) :
      Moves s (.dequeue i) (s.goto i (.atHeader k s.blockIndex))
  | headerTail {i : ι} {k hd : ℕ} (h : s.consumers i = .atHeader k hd) :
      Moves s (.dequeue i) (s.goto i (.atTail k hd (s.headers hd).tail))
  | entry {i : ι} {k hd tail : ℕ} (h : s.consumers i = .atTail k hd tail) :
      Moves s (.dequeue i) (s.goto i (.atEntry k (s.entryOf (k / blockSize))))
  | block {i : ι} {k e : ℕ} (h : s.consumers i = .atEntry k e) :
      Moves s (.dequeue i) (s.goto i (.atBlock k e (s.blockOf (k / blockSize))))
  | move {i : ι} {k e b : ℕ} {x : α} (h : s.consumers i = .atBlock k e b)
      (hx : (s.blocks b).elements (k % blockSize) = some x) :
      Moves s (.dequeue i) ({ s with
        blocks := Function.update s.blocks b { s.blocks b with
          elements := Function.update (s.blocks b).elements (k % blockSize) none }
        taken := s.taken ++ [(i, k, x)] }.goto i (.moved k e b))
  | empty {i : ι} {k e b : ℕ} (h : s.consumers i = .moved k e b) :
      Moves s (.dequeue i) ({ s with
        blocks := Function.update s.blocks b { s.blocks b with
          elementsCompletelyDequeued := (s.blocks b).elementsCompletelyDequeued + 1 }
        emptied := insert k s.emptied }.goto i
        (if (s.blocks b).elementsCompletelyDequeued = blockSize - 1 then .unlinking k e b
          else .idle))
  | unlink {i : ι} {k e b : ℕ} (h : s.consumers i = .unlinking k e b) :
      Moves s (.dequeue i)
        ({ s with toBlockIndex := s.unlink (k / blockSize) e }.goto i (.releasing k b))
  | release {i : ι} {k b : ℕ} (h : s.consumers i = .releasing k b) :
      Moves s (.dequeue i) ({ s with
        owner := Function.update s.owner b .pool
        released := insert (k / blockSize) s.released }.goto i .idle)
  | othersTake {b : ℕ} (hb : s.owner b = .pool) :
      Moves s (.othersTake b) { s with owner := Function.update s.owner b .others }
  | othersGive {b : ℕ} (hb : s.owner b = .others) :
      Moves s (.othersGive b) { s with owner := Function.update s.owner b .pool }
  | othersUse {b : ℕ} {contents : Block α} (hb : s.owner b = .others) :
      Moves s (.othersUse b contents) { s with blocks := Function.update s.blocks b contents }

end ImplicitProducer

end Queue

end S3Proxy
