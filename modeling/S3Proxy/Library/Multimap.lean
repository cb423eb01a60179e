import Mathlib.Tactic

/-!
# Multimaps

A multimap is the list of its entries in the order of insertion.  Keys may repeat: `equalRange` has
the values of a key in the order in which they were entered, and `find` answers with the first of
them.

`equalRange_append` says that the values of a key in two maps put together are those of the first,
and then those of the second.  It is what the proofs need about a header that is entered behind
others.

The headers of a response are such a map.  `Server.Response` has the program's functions on it, and
`Server.Common`, `Server.Head` and `Server.Serving` state with `equalRange` which values a header is
sent with.
-/

abbrev Multimap (κ α : Type*) := List (κ × α)

namespace Multimap

variable {κ α : Type*} [DecidableEq κ]

def emplace (m : Multimap κ α) (k : κ) (a : α) : Multimap κ α := m ++ [(k, a)]

/-- The values of a key, in order. -/
def equalRange (m : Multimap κ α) (k : κ) : List α := (m.filter fun e => e.1 = k).map Prod.snd

def find (m : Multimap κ α) (k : κ) : Option α := (m.equalRange k).head?

lemma equalRange_append (m m' : Multimap κ α) (k : κ) :
    equalRange (m ++ m') k = m.equalRange k ++ m'.equalRange k := by
  simp [equalRange]

end Multimap
