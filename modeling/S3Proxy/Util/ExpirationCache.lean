import Mathlib.Tactic

/-!
# The expiration cache

`util::ExpirationCache` is a map behind a shared mutex.  Every member function holds the mutex for
its whole body, so each is one atomic operation here.

`find` hands out an iterator, which outlives the lock.  To say what an iterator designates, an
element of the map carries the identity of its node: assigning to a present key keeps the node,
inserting a key allocates a new one (a rehash moves none of the others), and `clearAll` frees them
all.  An iterator is `Alive` while its node is still the one in the map; `deref` gives nothing for
one that is not, and what the program does with it then is undefined.

## Main results

`deref_find` and `find_eq_some_iff` say that an iterator is alive when it is handed out and
designates what `get` answers.  `alive_put` keeps every iterator alive over an assignment or an
insertion, and `not_alive_clear` says that clearing leaves none of them alive: between these two
lies the difference between using an iterator beside writers and beside a clear.

`get_put_self`, `get_put_of_ne`, `get_empty` and `get_clear` are the map itself, for those who never
see an iterator.

## Hypotheses

Equality of keys is decidable.  Keys and values are arbitrary, as in the template of the source.

## Where it is used

`Server.S3Util` looks an object up through an iterator and assigns through the map.  `Server.Lookup`
has the threads that look up and clear, and its result is about iterators that are dereferenced
alive; `Server.Frame`, `Server.Site` and `Server.Triple` only use the lemmas about `get`.
-/

namespace S3Proxy

/-- One node of the map. -/
structure Element (ValueType : Type*) where
  node : ℕ
  value : ValueType
  deriving DecidableEq, Repr

/-- A dereferenceable iterator; `none` plays the part of `end()`. -/
structure Iterator (KeyType : Type*) where
  key : KeyType
  node : ℕ
  deriving DecidableEq, Repr

structure ExpirationCache (KeyType ValueType : Type*) where
  map : KeyType → Option (Element ValueType)
  nextNode : ℕ

namespace ExpirationCache

variable {KeyType ValueType : Type*}

def empty : ExpirationCache KeyType ValueType := ⟨fun _ => none, 0⟩

def find (c : ExpirationCache KeyType ValueType) (ky : KeyType) : Option (Iterator KeyType) :=
  (c.map ky).map fun e => ⟨ky, e.node⟩

/-- `get`, with `none` for the `out_of_range` exception. -/
def get (c : ExpirationCache KeyType ValueType) (ky : KeyType) : Option ValueType :=
  (c.map ky).map Element.value

def clearAll (c : ExpirationCache KeyType ValueType) : ExpirationCache KeyType ValueType :=
  { c with map := fun _ => none }

def clear (c : ExpirationCache KeyType ValueType) : ExpirationCache KeyType ValueType := c.clearAll

/-- The element the iterator designates is still in the map. -/
def Alive (c : ExpirationCache KeyType ValueType) (it : Iterator KeyType) : Prop :=
  (c.map it.key).map Element.node = some it.node

instance (c : ExpirationCache KeyType ValueType) (it : Iterator KeyType) :
    Decidable (c.Alive it) := inferInstanceAs (Decidable (_ = _))

/-- `it->second`, or `none` when the element is gone. -/
def deref (c : ExpirationCache KeyType ValueType) (it : Iterator KeyType) : Option ValueType :=
  if c.Alive it then c.get it.key else none

variable (c : ExpirationCache KeyType ValueType) (ky : KeyType) (val : ValueType)

@[simp] lemma get_clear : c.clear.get ky = none := rfl

@[simp] lemma get_empty : (empty : ExpirationCache KeyType ValueType).get ky = none := rfl

lemma find_eq_some_iff {it : Iterator KeyType} :
    c.find ky = some it ↔ it.key = ky ∧ c.Alive it := by
  constructor
  · intro h
    obtain ⟨e, he, rfl⟩ := Option.map_eq_some_iff.mp h
    exact ⟨rfl, by rw [Alive, he, Option.map_some]⟩
  · rintro ⟨rfl, h⟩
    obtain ⟨e, he, hnode⟩ := Option.map_eq_some_iff.mp h
    rw [find, he, Option.map_some, hnode]

/-- What `find` returns can be dereferenced at once. -/
lemma deref_find {it : Iterator KeyType} (h : c.find ky = some it) : c.deref it = c.get ky := by
  obtain ⟨rfl, halive⟩ := (c.find_eq_some_iff ky).mp h
  rw [deref, if_pos halive]

lemma find_eq_none_iff : c.find ky = none ↔ c.get ky = none := by
  simp [find, get]

/-- Clearing leaves no iterator alive. -/
lemma not_alive_clear (it : Iterator KeyType) : ¬ c.clear.Alive it := by
  simp [clear, clearAll, Alive]

/-! ### Assignment -/

variable [DecidableEq KeyType]

def put (c : ExpirationCache KeyType ValueType) (ky : KeyType) (val : ValueType) :
    ExpirationCache KeyType ValueType :=
  match c.map ky with
  | some e => { c with map := Function.update c.map ky (some { e with value := val }) }
  | none => ⟨Function.update c.map ky (some ⟨c.nextNode, val⟩), c.nextNode + 1⟩

@[simp] lemma get_put_self : (c.put ky val).get ky = some val := by
  unfold put
  split <;> simp [get]

lemma get_put_of_ne {ky ky' : KeyType} (h : ky' ≠ ky) : (c.put ky val).get ky' = c.get ky' := by
  unfold put
  split <;> simp [get, Function.update_of_ne h]

/-- Assignment and insertion keep every element where it is. -/
lemma alive_put {it : Iterator KeyType} (h : c.Alive it) : (c.put ky val).Alive it := by
  obtain ⟨e, he, hnode⟩ := Option.map_eq_some_iff.mp h
  unfold put Alive
  by_cases hk : it.key = ky
  · subst hk
    rw [he]
    simp [hnode]
  · split <;> simp [Function.update_of_ne hk, he, hnode]

end ExpirationCache

end S3Proxy
