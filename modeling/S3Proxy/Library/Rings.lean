import Mathlib.Tactic

/-!
# Items in a ring

Item number `t` lies at place `(t + shift) % cap` of a ring of `cap` places.  Items fewer than `cap`
apart lie at different places.  A ring with `u` as its next item can be copied, from its oldest
place on, into the first half of one of twice the size; the items keep their numbers, and only the
shift changes.

## Main results

`eq_of_place_eq` is the injectivity on items fewer than `cap` apart, through `dvd_of_place_eq`, and
`place_add_cap` says that the items of one place are all those a multiple of `cap` away.

`place_next` and `place_newest` are for a ring that is kept by the place of its newest item and not
by a counter.  `place_doubled` says where the items around `u` lie after the copy into the ring of
twice the size, `place_copied` that what is copied there was at the old place of the same item, and
`place_doubled_newest` where the newest item is then.

## Hypotheses

The ring has a place, and the items a lemma speaks of lie within one turn of `u`.  Places are
natural numbers: a program with indices of a fixed width has to know that they do not overflow
between two turns.

## Where it is used

`Queue.BlockIndex` has the index of the blocks of a sub-queue in such a ring, proves with
`eq_of_place_eq` that an entry is not written while it is in use, and with the lemmas about doubling
that a larger index answers as the old one did.
-/

namespace Rings

def place (cap shift t : ℕ) : ℕ := (t + shift) % cap

variable {cap shift t u : ℕ}

lemma place_lt (hcap : 0 < cap) : place cap shift t < cap := Nat.mod_lt _ hcap

lemma place_add_cap : place cap shift (t + cap) = place cap shift t := by
  rw [place, Nat.add_right_comm, Nat.add_mod_right, place]

/-- Items at the same place are a multiple of the size apart. -/
lemma dvd_of_place_eq (hle : t ≤ u) (h : place cap shift t = place cap shift u) :
    cap ∣ u - t := by
  have hmod : t + shift ≡ u + shift [MOD cap] := h
  exact (Nat.modEq_iff_dvd' hle).mp (Nat.ModEq.add_right_cancel' shift hmod)

lemma eq_of_place_eq (hle : t ≤ u) (hlt : u < t + cap)
    (h : place cap shift t = place cap shift u) : t = u := by
  have hzero : u - t = 0 := Nat.eq_zero_of_dvd_of_lt (dvd_of_place_eq hle h) (by omega)
  omega

/-- The place after that of the newest item is that of the next one. -/
lemma place_next (hcap : 0 < cap) :
    (place cap shift (u + cap - 1) + 1) % cap = place cap shift u := by
  have heq : u + cap - 1 + shift + 1 = u + shift + cap := by omega
  rw [place, Nat.mod_add_mod, heq, Nat.add_mod_right, place]

/-- The place of the newest item, if there is one. -/
lemma place_newest (hpos : 0 < u) : place cap shift (u + cap - 1) = place cap shift (u - 1) := by
  have heq : u + cap - 1 = u - 1 + cap := by omega
  rw [heq, place_add_cap]

/-! ### A ring of twice the size -/

/-- The shift of a ring whose first half holds the items before `u`. -/
def doubledShift (cap u : ℕ) : ℕ := cap + u * (2 * cap - 1)

/-- Where the items around `u` lie in the ring of twice the size. -/
lemma place_doubled (hcap : 0 < cap) (hle : u ≤ t + cap) (hlt : t < u + cap) :
    place (2 * cap) (doubledShift cap u) t = t + cap - u := by
  have hmul : u * (2 * cap - 1) + u = u * (2 * cap) := by
    rw [← Nat.mul_succ]
    congr 1
    omega
  have heq : t + doubledShift cap u = (t + cap - u) + u * (2 * cap) := by
    unfold doubledShift
    omega
  rw [place, heq, Nat.add_mul_mod_self_right, Nat.mod_eq_of_lt (by omega)]

lemma place_doubled_newest (hcap : 0 < cap) :
    place (2 * cap) (doubledShift cap u) (u + 2 * cap - 1) = cap - 1 := by
  by_cases hu : u = 0
  · subst hu
    have heq : 0 + 2 * cap - 1 + doubledShift cap 0 = (cap - 1) + 2 * cap := by
      unfold doubledShift
      omega
    rw [place, heq, Nat.add_mod_right, Nat.mod_eq_of_lt (by omega)]
  · rw [place_newest (by omega), place_doubled hcap (by omega) (by omega)]
    omega

/-- What is copied to the new place of an item is what was at its old one. -/
lemma place_copied (hle : u ≤ t + cap) (hcap : 0 < cap) :
    (place cap shift (u + cap - 1) + 1 + (t + cap - u)) % cap = place cap shift t := by
  have heq : u + cap - 1 + shift + (1 + (t + cap - u)) = t + shift + 2 * cap := by omega
  rw [place, Nat.add_assoc, Nat.mod_add_mod, heq, Nat.add_mul_mod_self_right, place]

end Rings
