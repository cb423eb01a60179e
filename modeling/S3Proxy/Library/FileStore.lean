import Mathlib.Tactic

/-!
# Stores of named files

A store maps a name to the content of the file of that name, if there is one.  `write` creates or
replaces a file, `remove` deletes it, and `rename` moves it over the target atomically; like the
system call it fails when there is nothing to move.

## Main results

`rename_write_of_fresh` is the publishing idiom: a temporary of a fresh name, written and renamed
over the target, leaves the store as if the target had been written in one step.  Its one hypothesis
is that the name is fresh.

`rename_eq_some_iff` and `rename_eq_none_iff` say when a rename takes place and what it does.  The
frame lemmas `write_of_ne`, `remove_of_ne` and `rename_of_ne` say which names an operation leaves
alone, and `eqOn_write`, `eqOn_remove` and `eqOn_rename` that two stores that agree on a set of
names still agree on it when the same is done to both.

## What is left out

Permissions, directories and a full disk are not part of a store.  A write that stops halfway is a
`write` of what had been written.

## Where it is used

`Util.Compress` publishes a compressed file with `rename_write_of_fresh`.  A refresh changes a store
in single steps, and `Server.Triple` uses the frame lemmas for what each of them leaves alone.
`Server.Frame` carries agreement on a set of names through a request with `eqOn_write`,
`eqOn_remove` and `eqOn_rename`.
-/

/-- The content of each file, by name. -/
abbrev FileStore (ν α : Type*) := ν → Option α

namespace FileStore

variable {ν α : Type*} [DecidableEq ν]

def write (fs : FileStore ν α) (n : ν) (a : α) : FileStore ν α := Function.update fs n (some a)

def remove (fs : FileStore ν α) (n : ν) : FileStore ν α := Function.update fs n none

def rename (fs : FileStore ν α) (src dst : ν) : Option (FileStore ν α) :=
  (fs src).map fun a => (fs.remove src).write dst a

variable {fs fs' : FileStore ν α} {n m src dst : ν} {a : α}

@[simp] lemma write_self : fs.write n a n = some a := Function.update_self ..

lemma write_of_ne (h : m ≠ n) : fs.write n a m = fs m := Function.update_of_ne h ..

@[simp] lemma remove_self : fs.remove n n = none := Function.update_self ..

lemma remove_of_ne (h : m ≠ n) : fs.remove n m = fs m := Function.update_of_ne h ..

/-- Removing a file makes no other one appear. -/
lemma eq_some_of_remove (h : fs.remove n m = some a) : fs m = some a := by
  by_cases hm : m = n
  · subst hm
    rw [remove_self] at h
    cases h
  · rwa [remove_of_ne hm] at h

/-- A rename takes place exactly when there is a file to move. -/
lemma rename_eq_some_iff :
    fs.rename src dst = some fs' ↔ ∃ a, fs src = some a ∧ fs' = (fs.remove src).write dst a := by
  simp [rename, Option.map_eq_some_iff, eq_comm]

lemma rename_eq_none_iff : fs.rename src dst = none ↔ fs src = none := by
  simp [rename]

/-- A rename touches no third name. -/
lemma rename_of_ne (h : fs.rename src dst = some fs') (hsrc : m ≠ src) (hdst : m ≠ dst) :
    fs' m = fs m := by
  obtain ⟨a, -, rfl⟩ := rename_eq_some_iff.mp h
  rw [write_of_ne hdst, remove_of_ne hsrc]

/-- **Publishing.**  Writing a temporary of a fresh name and renaming it over the target is one
write of the target. -/
lemma rename_write_of_fresh (hfresh : fs src = none) :
    (fs.write src a).rename src dst = some (fs.write dst a) := by
  have hback : (fs.write src a).remove src = fs := by
    rw [write, remove, Function.update_idem, Function.update_eq_self_iff, hfresh]
  rw [rename, write_self, Option.map_some, hback]

/-! ### Stores that agree on a set of names -/

variable {gs : FileStore ν α} {F : Set ν}

lemma eqOn_write (h : Set.EqOn gs fs F) : Set.EqOn (gs.write n a) (fs.write n a) F := by
  intro m hm
  by_cases hmn : m = n
  · rw [hmn, write_self, write_self]
  · rw [write_of_ne hmn, write_of_ne hmn, h hm]

lemma eqOn_remove (h : Set.EqOn gs fs F) : Set.EqOn (gs.remove n) (fs.remove n) F := by
  intro m hm
  by_cases hmn : m = n
  · rw [hmn, remove_self, remove_self]
  · rw [remove_of_ne hmn, remove_of_ne hmn, h hm]

variable (dst) in
/-- A rename of a name in the set succeeds in both stores or in neither. -/
lemma eqOn_rename (h : Set.EqOn gs fs F) (hsrc : src ∈ F) :
    (fs.rename src dst = none ∧ gs.rename src dst = none) ∨
      ∃ fs' gs', fs.rename src dst = some fs' ∧ gs.rename src dst = some gs' ∧
        Set.EqOn gs' fs' F := by
  rw [rename, rename, h hsrc]
  cases fs src with
  | none => exact .inl ⟨rfl, rfl⟩
  | some a => exact .inr ⟨_, _, rfl, rfl, eqOn_write (eqOn_remove h)⟩

end FileStore
