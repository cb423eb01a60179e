import Mathlib.Tactic

/-!
# Maps with distinct keys

An association list whose keys are distinct, as a map of the standard library is filled with
`emplace` and `try_emplace`: a key that is there already keeps its value.  Distinctness is a field
of `Assoc`, so a map with a repeated key cannot be built.

## Main results

`find_emplace` says what `find` answers after an insertion: what it answered before, or else the new
value.  `find_emplaceAll` is the same for a list of insertions one after another, and
`find_emplaceAll_entries` the case of copying a map into an empty one, which loses nothing.
`emplace_emplace` says that a second insertion of the same key does nothing.

`find_eq_some_of_mem` reads an entry of the list as an answer of `find`; it is where the
distinctness of the keys is needed.  `find_mapValues_eq_iff` is about a map whose values are all
rewritten: no answer changes exactly when no entry does.

## Hypotheses

Equality of keys is decidable.  Nothing is assumed of the values.

## Where it is used

`Client.Mmdb` collects the fields of a response in such a map, and `Client.Fields` compares it with
the map that was sent through `find_mapValues_eq_iff` and `find_emplaceAll_entries`.  The bindings
of a route's parameters are one as well: the scans of the router take the insertion as a parameter,
and `Router.SubPath` and `Router.Bindings` read what was bound with `find_emplaceAll`.
-/

structure Assoc (κ ν : Type*) where
  entries : List (κ × ν)
  nodup : (entries.map Prod.fst).Nodup
  deriving DecidableEq

namespace Assoc

variable {κ ν : Type*} [DecidableEq κ]

/-- No entries. -/
def none : Assoc κ ν := ⟨[], List.nodup_nil⟩

def isEmpty (m : Assoc κ ν) : Bool := m.entries.isEmpty

def find (m : Assoc κ ν) (key : κ) : Option ν := m.entries.lookup key

def emplace (m : Assoc κ ν) (key : κ) (value : ν) : Assoc κ ν :=
  if h : key ∈ m.entries.map Prod.fst then m
  else
    { entries := m.entries ++ [(key, value)]
      nodup := by
        rw [List.map_append, List.nodup_append']
        exact ⟨m.nodup, List.nodup_singleton _, by simpa using h⟩ }

lemma find_of_isEmpty {m : Assoc κ ν} (h : m.isEmpty = true) (key : κ) : m.find key = .none := by
  have hentries : m.entries = [] := List.isEmpty_iff.mp h
  rw [find, hentries, List.lookup_nil]

/-- The first value of a key in a list of entries. -/
def first (l : List (κ × ν)) (key : κ) : Option ν := l.lookup key

/-- Several entries, one after the other. -/
def emplaceAll (m : Assoc κ ν) (l : List (κ × ν)) : Assoc κ ν :=
  l.foldl (fun m pair => m.emplace pair.1 pair.2) m

variable {m : Assoc κ ν} {key key' : κ} {value : ν} {l : List (κ × ν)}

lemma find_none : (none : Assoc κ ν).find key = .none := rfl

lemma first_cons_of_eq (h : key = key') : first ((key, value) :: l) key' = some value := by
  rw [h]
  exact List.lookup_cons_self

lemma first_cons_of_ne (h : key ≠ key') : first ((key, value) :: l) key' = first l key' := by
  rw [first, List.lookup_cons, beq_false_of_ne (Ne.symm h)]
  rfl

lemma mem_keys_iff : key ∈ m.entries.map Prod.fst ↔ (m.find key).isSome = true := by
  rw [find, List.lookup_isSome_iff, List.mem_map]
  refine exists_congr fun pair => and_congr_right fun _ => ?_
  rw [beq_iff_eq, eq_comm]

/-- The value of a key is the one it is listed with. -/
lemma find_eq_some_of_mem (h : (key, value) ∈ m.entries) : m.find key = some value := by
  obtain ⟨before, after, hentries⟩ := List.append_of_mem h
  have hnodup := m.nodup
  rw [hentries, List.map_append, List.nodup_append'] at hnodup
  rw [find, List.lookup_eq_some_iff]
  refine ⟨before, after, hentries, fun pair hpair => ?_⟩
  rw [bne_iff_ne]
  rintro rfl
  exact List.disjoint_left.mp hnodup.2.2 (List.mem_map_of_mem hpair) List.mem_cons_self

/-- Other values for the same keys. -/
def mapValues {ν' : Type*} (m : Assoc κ ν) (f : ν → ν') : Assoc κ ν' where
  entries := m.entries.map fun pair => (pair.1, f pair.2)
  nodup := by simpa [Function.comp_def] using m.nodup

lemma find_mapValues_eq_iff {f : ν → ν} :
    (∀ key, (m.mapValues f).find key = m.find key) ↔ ∀ pair ∈ m.entries, f pair.2 = pair.2 := by
  constructor
  · intro h pair hpair
    have hmem : (pair.1, f pair.2) ∈ (m.mapValues f).entries := List.mem_map_of_mem hpair
    have hfind := h pair.1
    rw [find_eq_some_of_mem hmem, find_eq_some_of_mem hpair] at hfind
    exact Option.some.inj hfind
  · intro h key
    have hsame : (m.mapValues f).entries = m.entries := by
      refine (List.map_congr_left fun pair hpair => ?_).trans (List.map_id _)
      rw [h pair hpair]
      rfl
    rw [find, hsame, find]

/-- **A key keeps its value.** -/
lemma find_emplace :
    (m.emplace key value).find key' = (m.find key').or (first [(key, value)] key') := by
  rw [emplace]
  split_ifs with hmem
  · by_cases hkey : key = key'
    · obtain ⟨value', hvalue⟩ := Option.isSome_iff_exists.mp (mem_keys_iff.mp hmem)
      rw [← hkey, hvalue]
      rfl
    · rw [first_cons_of_ne hkey]
      exact Option.or_none.symm
  · exact List.lookup_append

lemma find_emplaceAll : (m.emplaceAll l).find key = (m.find key).or (first l key) := by
  induction l generalizing m with
  | nil => exact Option.or_none.symm
  | cons pair l ih =>
      have hlookup : first ([pair] ++ l) key = (first [pair] key).or (first l key) :=
        List.lookup_append
      rw [List.singleton_append] at hlookup
      rw [emplaceAll, List.foldl_cons, ← emplaceAll, ih, find_emplace, hlookup, Option.or_assoc]

/-- Entering everything that a map has into an empty one. -/
lemma find_emplaceAll_entries : (none.emplaceAll m.entries).find key = m.find key := by
  rw [find_emplaceAll, find_none, Option.none_or]
  rfl

/-- Entering a pair again changes nothing. -/
lemma emplace_emplace {value' : ν} :
    (m.emplace key value).emplace key value' = m.emplace key value := by
  have hmem : key ∈ (m.emplace key value).entries.map Prod.fst := by
    rw [mem_keys_iff, find_emplace, first_cons_of_eq rfl]
    cases m.find key <;> rfl
  rw [emplace, dif_pos hmem]

end Assoc
