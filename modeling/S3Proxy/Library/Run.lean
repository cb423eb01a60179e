import Mathlib.Tactic

/-!
# Runs of partial, labelled steps

A system is given by a *partial step* `σ → ε → Option σ`: the label resolves every choice (which
thread moves, what the environment answers), and `none` says that the label is not enabled.  A run
is a list of labels.

Two ways of talking about a whole run are fixed here.  `Visits Q s es` says that every state the run
reaches satisfies `Q`; `Along P s es` says that every step the run takes starts in a state, and with
a label, that `P` allows.

## Main results

The rules derive statements about runs from statements about one step.

* `exec_induction` carries an invariant along the allowed steps to the end of a run, and
  `visits_of_along` turns it into a statement about every state on the way.
* `visits_iff_along` is the exact form, for a property that each step keeps if and only if `P`
  allows the step: the run stays in the property precisely when all of its steps are allowed.
* `along_or_trapped` is for a property of the last state: a step that is not allowed leads into a
  trap that nothing leaves.
* `exec_record_of` adds up what the steps write to a record, in the order of the run.

`Along.mono`, `Along.and`, `Along.and_mem` and `along_append_iff` are for putting conditions on
steps together and for cutting a run in two.

## Hypotheses

None beyond the step lemmas that each rule asks for.  States, labels and the step are arbitrary, and
a run need not be possible: `Visits` and `Along` are about as much of it as is.

## Where it is used

The theorems about runs in this development are stated in these terms, and most are an instance of
one of the rules: those about the file cache (`Server.Lookup`, `Server.Site`, `Server.Consistency`,
`Server.Interleaving`), about connections (`Client.Pool`, `Client.Limit`, `Client.Expiry`,
`Client.Session`, `Client.Ilp`), about the queues (`Queue.Poller`, `Queue.Shutdown`,
`Queue.SubQueue`) and about the logger (`Log.Release`, `Log.Delivery`, `Log.Shutdown`).
-/

/-- One step of a system, as a partial function of the state and a label. -/
abbrev PartialStep (σ ε : Type*) := σ → ε → Option σ

namespace PartialStep

variable {σ ε : Type*} (step : PartialStep σ ε)

/-- The state after the given labels, if every one of them is enabled in its turn. -/
def exec : σ → List ε → Option σ
  | s, [] => some s
  | s, e :: es => (step s e).bind fun t => exec t es

/-- Every step that the run takes is allowed by `P`. -/
def Along (P : σ → ε → Prop) : σ → List ε → Prop
  | _, [] => True
  | s, e :: es => ∀ t, step s e = some t → P s e ∧ Along P t es

/-- Every state that the run reaches, the first one included, satisfies `Q`. -/
def Visits (Q : σ → Prop) : σ → List ε → Prop
  | s, [] => Q s
  | s, e :: es => Q s ∧ ∀ t, step s e = some t → Visits Q t es

variable {step}

@[simp] lemma exec_nil (s : σ) : exec step s [] = some s := rfl

@[simp] lemma exec_cons (s : σ) (e : ε) (es : List ε) :
    exec step s (e :: es) = (step s e).bind fun t => exec step t es := rfl

/-- A run splits at any point. -/
lemma exec_append (s : σ) (es fs : List ε) :
    exec step s (es ++ fs) = (exec step s es).bind fun t => exec step t fs := by
  induction es generalizing s with
  | nil => simp
  | cons e es ih =>
      rw [List.cons_append, exec_cons, exec_cons]
      cases step s e with
      | none => rfl
      | some t => simpa using ih t

lemma exec_append_of {s t u : σ} {es fs : List ε} (h : exec step s es = some t)
    (h' : exec step t fs = some u) : exec step s (es ++ fs) = some u := by
  rw [exec_append, h]
  exact h'

/-- A run of allowed steps splits at any point. -/
lemma along_append_iff {P : σ → ε → Prop} {s t : σ} {es fs : List ε}
    (hrun : exec step s es = some t) :
    Along step P s (es ++ fs) ↔ Along step P s es ∧ Along step P t fs := by
  induction es generalizing s with
  | nil =>
      have heq : s = t := by simpa using hrun
      subst heq
      exact ⟨fun h => ⟨trivial, h⟩, And.right⟩
  | cons e es ih =>
      obtain ⟨u, hu, hrun⟩ := Option.bind_eq_some_iff.mp hrun
      constructor
      · intro h
        obtain ⟨hP, h⟩ := h u hu
        obtain ⟨hes, hfs⟩ := (ih hrun).mp h
        refine ⟨fun u' hu' => ?_, hfs⟩
        have heq : u = u' := Option.some.inj (hu.symm.trans hu')
        subst heq
        exact ⟨hP, hes⟩
      · rintro ⟨hes, hfs⟩ u' hu'
        have heq : u = u' := Option.some.inj (hu.symm.trans hu')
        subst heq
        exact ⟨(hes u hu).1, (ih hrun).mpr ⟨(hes u hu).2, hfs⟩⟩

lemma Along.mono {P P' : σ → ε → Prop} (himp : ∀ s e, P s e → P' s e) {s : σ} {es : List ε}
    (h : Along step P s es) : Along step P' s es := by
  induction es generalizing s with
  | nil => trivial
  | cons e es ih => exact fun t ht => ⟨himp s e (h t ht).1, ih (h t ht).2⟩

lemma along_true (s : σ) (es : List ε) : Along step (fun _ _ => True) s es := by
  induction es generalizing s with
  | nil => trivial
  | cons e es ih => exact fun t _ => ⟨trivial, ih t⟩

lemma Along.and {P P' : σ → ε → Prop} {s : σ} {es : List ε} (h : Along step P s es)
    (h' : Along step P' s es) : Along step (fun s e => P s e ∧ P' s e) s es := by
  induction es generalizing s with
  | nil => trivial
  | cons e es ih =>
      exact fun t ht => ⟨⟨(h t ht).1, (h' t ht).1⟩, ih (h t ht).2 (h' t ht).2⟩

lemma Visits.head {Q : σ → Prop} {s : σ} {es : List ε} (h : Visits step Q s es) : Q s := by
  cases es with
  | nil => exact h
  | cons e es => exact h.1

/-- The labels of a run are those of its list. -/
lemma Along.and_mem {P : σ → ε → Prop} {s : σ} {es : List ε} (h : Along step P s es) :
    Along step (fun s e => P s e ∧ e ∈ es) s es := by
  induction es generalizing s with
  | nil => trivial
  | cons e es ih =>
      exact fun t ht => ⟨⟨(h t ht).1, List.mem_cons_self⟩,
        (ih (h t ht).2).mono fun _ _ hP => ⟨hP.1, List.mem_cons_of_mem e hP.2⟩⟩

/-- **The invariant rule.**  What every allowed step keeps holds at the end of every run of
allowed steps. -/
lemma exec_induction {P : σ → ε → Prop} {I : σ → Prop}
    (hstep : ∀ s e t, I s → P s e → step s e = some t → I t)
    {s t : σ} {es : List ε} (hs : I s) (halong : Along step P s es)
    (hrun : exec step s es = some t) : I t := by
  induction es generalizing s with
  | nil =>
      have heq : s = t := by simpa using hrun
      subst heq
      exact hs
  | cons e es ih =>
      obtain ⟨u, hu, hrun⟩ := Option.bind_eq_some_iff.mp hrun
      obtain ⟨hP, halong⟩ := halong u hu
      exact ih (hstep s e u hs hP hu) halong hrun

/-- What each step adds to a record, a run adds in the order of its steps, as long as `D` holds,
which no step brings back. -/
lemma exec_record_of {β : Type*} {f : σ → List β} {g : ε → List β} {D : σ → Prop}
    (hback : ∀ s e t, step s e = some t → D t → D s)
    (hstep : ∀ s e t, step s e = some t → D t → f t = f s ++ g e) {s t : σ} {es : List ε}
    (hrun : exec step s es = some t) (ht : D t) : D s ∧ f t = f s ++ es.flatMap g := by
  induction es generalizing s with
  | nil =>
      have heq : s = t := by simpa using hrun
      rw [heq, List.flatMap_nil, List.append_nil]
      exact ⟨ht, rfl⟩
  | cons e es ih =>
      obtain ⟨u, hu, hrun⟩ := Option.bind_eq_some_iff.mp hrun
      obtain ⟨hD, hrecord⟩ := ih hrun
      refine ⟨hback s e u hu hD, ?_⟩
      rw [hrecord, hstep s e u hu hD, List.flatMap_cons, List.append_assoc]

/-- The invariant rule, for every state on the way. -/
lemma visits_of_along {P : σ → ε → Prop} {I Q : σ → Prop}
    (hstep : ∀ s e t, I s → P s e → step s e = some t → I t) (hQ : ∀ s, I s → Q s)
    {s : σ} {es : List ε} (hs : I s) (halong : Along step P s es) : Visits step Q s es := by
  induction es generalizing s with
  | nil => exact hQ s hs
  | cons e es ih =>
      refine ⟨hQ s hs, fun t ht => ?_⟩
      obtain ⟨hP, halong⟩ := halong t ht
      exact ih (hstep s e t hs hP ht) halong

/-- The exact form: if every step from a good state keeps `Q` precisely when `P` allows it,
then a run stays in `Q` precisely when `P` allows all of its steps. -/
lemma visits_iff_along {P : σ → ε → Prop} {I Q : σ → Prop}
    (hinv : ∀ s e t, I s → Q s → step s e = some t → Q t → I t)
    (hexact : ∀ s e t, I s → Q s → step s e = some t → (Q t ↔ P s e))
    {s : σ} {es : List ε} (hs : I s) (hQ : Q s) :
    Visits step Q s es ↔ Along step P s es := by
  induction es generalizing s with
  | nil => exact ⟨fun _ => trivial, fun _ => hQ⟩
  | cons e es ih =>
      constructor
      · rintro ⟨-, h⟩ t ht
        have hQt : Q t := (h t ht).head
        exact ⟨(hexact s e t hs hQ ht).mp hQt, (ih (hinv s e t hs hQ ht hQt) hQt).mp (h t ht)⟩
      · intro h
        refine ⟨hQ, fun t ht => ?_⟩
        obtain ⟨hP, h⟩ := h t ht
        have hQt : Q t := (hexact s e t hs hQ ht).mpr hP
        exact (ih (hinv s e t hs hQ ht hQt) hQt).mpr h

/-- **The fork rule.**  As long as `P` allows the steps of a run the invariant `I` holds; from the
first step on that it does not allow, the run is in the trap `D`. -/
lemma along_or_trapped {H P : σ → ε → Prop} {I D : σ → Prop}
    (hkeep : ∀ s e t, I s → H s e → P s e → step s e = some t → I t)
    (hbreak : ∀ s e t, I s → H s e → ¬ P s e → step s e = some t → D t)
    (htrap : ∀ s e t, D s → step s e = some t → D t)
    {s t : σ} {es : List ε} (hs : I s) (hH : Along step H s es) (hrun : exec step s es = some t) :
    Along step P s es ∧ I t ∨ D t := by
  induction es generalizing s with
  | nil =>
      have heq : s = t := by simpa using hrun
      subst heq
      exact .inl ⟨trivial, hs⟩
  | cons e es ih =>
      obtain ⟨u, hu, hrun⟩ := Option.bind_eq_some_iff.mp hrun
      obtain ⟨hHe, hH⟩ := hH u hu
      by_cases hP : P s e
      · rcases ih (hkeep s e u hs hHe hP hu) hH hrun with ⟨halong, ht⟩ | ht
        · refine .inl ⟨fun u' hu' => ?_, ht⟩
          have heq : u = u' := Option.some.inj (hu.symm.trans hu')
          subst heq
          exact ⟨hP, halong⟩
        · exact .inr ht
      · exact .inr (exec_induction (P := fun _ _ => True) (fun s e t hD _ => htrap s e t hD)
          (hbreak s e u hs hHe hP hu) (along_true u es) hrun)

instance {P : σ → ε → Prop} [∀ s e, Decidable (P s e)] :
    ∀ (s : σ) (es : List ε), Decidable (Along step P s es)
  | _, [] => .isTrue trivial
  | s, e :: es =>
      match h : step s e with
      | none => .isTrue fun t ht => by rw [h] at ht; cases ht
      | some u =>
          have := instDecidableAlong (P := P) u es
          decidable_of_iff (P s e ∧ Along step P u es)
            ⟨fun hu t ht => by obtain rfl : u = t := by rwa [h, Option.some.injEq] at ht
                               exact hu,
              fun hu => hu u h⟩

end PartialStep
