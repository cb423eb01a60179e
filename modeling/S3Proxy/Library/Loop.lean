import Mathlib.Tactic

/-!
# Loops

A loop is given by its body: one pass goes on in a new state, or leaves with a result.  `run` makes
a bounded number of passes, and gives `none` if that was not enough.

## Main results

`Sound` is the argument for total correctness: an invariant that every pass keeps, a variant that
every pass decreases, and a postcondition that holds on leaving.  `Sound.exists_run` draws the
conclusion: from a state with the invariant there is one result, the postcondition holds of it, and
every number of passes above the variant finds it.  So the result does not depend on the bound, and
termination is proved and not assumed.

## Where it is used

`Util.Split` proves the program's three copies of a splitting loop right with one `Sound`, and
`Util.Date` the loop that counts the years down.
-/

namespace Loop

variable {σ β : Type*}

/-- The result, if the loop is left within so many passes. -/
def run (body : σ → σ ⊕ β) : ℕ → σ → Option β
  | 0, _ => none
  | fuel + 1, s =>
      match body s with
      | .inl t => run body fuel t
      | .inr b => some b

/-- The invariant `I` and the variant `v` lead to the postcondition `Q`. -/
structure Sound (body : σ → σ ⊕ β) (I : σ → Prop) (v : σ → ℕ) (Q : β → Prop) : Prop where
  next : ∀ {s t}, I s → body s = .inl t → I t ∧ v t < v s
  leave : ∀ {s b}, I s → body s = .inr b → Q b

variable {body : σ → σ ⊕ β} {I : σ → Prop} {v : σ → ℕ} {Q : β → Prop}

/-- **Total correctness**: as many passes as the variant says, and one more, are enough. -/
theorem Sound.exists_run (h : Sound body I v Q) {s : σ} (hs : I s) :
    ∃ b, Q b ∧ ∀ fuel, v s < fuel → run body fuel s = some b := by
  induction hn : v s using Nat.strong_induction_on generalizing s with
  | _ n ih =>
      subst hn
      cases hbody : body s with
      | inr b =>
          refine ⟨b, h.leave hs hbody, fun fuel hfuel => ?_⟩
          obtain ⟨k, rfl⟩ := Nat.exists_eq_add_of_lt hfuel
          rw [run, hbody]
      | inl t =>
          obtain ⟨ht, hlt⟩ := h.next hs hbody
          obtain ⟨b, hb, hrun⟩ := ih (v t) hlt ht rfl
          refine ⟨b, hb, fun fuel hfuel => ?_⟩
          obtain ⟨k, rfl⟩ := Nat.exists_eq_add_of_lt hfuel
          rw [run, hbody]
          exact hrun _ (by omega)

end Loop
