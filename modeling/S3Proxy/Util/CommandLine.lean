import S3Proxy.Util.Clara

/-!
# The command lines that the parser accepts

A `Setting` gives one option an argument, and `Setting.Writes` are the ways in which it can stand on
a command line: as two arguments, or joined to the name of the option by one of the delimiters.  The
parser takes settings for as long as each is of an option that it has not taken before, and stops at
the end of the command line, at an option that shows the help, or at the first token that has no
place in a setting (`Stops`).

## Main results

`Parser.parse_eq_iff` is exact for every command line and every result, errors included: the command
line is a list of settings, each option in one of them at most, and the result is what the rest
makes the parser stop with.  `Parser.parse_eq_ok_iff` states the successful case in terms of the
arguments as they were typed, without the empty ones, which are skipped.

Both directions are proved separately.  `consume_append` and `consume_of_stops` follow the parser
over settings and to its stop; `exists_stops` says that every list of tokens falls into settings and
a rest to stop at, by recursion on the tokens.  `exists_writes` goes from the tokens back to the
arguments.  `assign_get_of_mem` and `assign_get_of_forall_ne` say what the variables hold
afterwards.

## Hypotheses

The options form a `Table`: their names are such that the tokenizer reads them as names, and no name
is that of two options.  `Main` proves this of the options of the proxy (`table`).

## Where it is used

`Main` has its three results about the command line of the proxy from the two equivalences.
-/

namespace S3Proxy

namespace Clara

variable {Var : Type} [DecidableEq Var] {kind : Var → Kind}

/-- A name that a command line can use: a longer one with two dashes in front is not read as several
options. -/
structure WellNamed (name : List Char) : Prop where
  dash : name.head? = some '-'
  whole : ∀ c ∈ name, isDelimiter c = false
  single : name.tail.head? = some '-' ∨ name.length ≤ 2

/-- The options of a program: their names can be used, and tell them apart. -/
structure Table (options : List (Opt Var)) : Prop where
  named : ∀ o ∈ options, o.names ≠ []
  wellNamed : ∀ o ∈ options, ∀ name ∈ o.names, WellNamed name
  disjoint : options.Pairwise fun o o' => ∀ name ∈ o.names, name ∉ o'.names

/-- An option with an argument that converts. -/
structure Setting (options : List (Opt Var)) (kind : Var → Kind) where
  opt : Opt Var
  mem : opt ∈ options
  x : Var
  ref : opt.ref = .value x
  name : List Char
  named : name ∈ opt.names
  text : List Char
  value : (kind x).Value
  converts : convertInto (kind x) text = .ok value

def Setting.tokens {options : List (Opt Var)} (b : Setting options kind) : List Token :=
  [⟨.option, b.name⟩, ⟨.argument, b.text⟩]

/-- What a sequence of settings leaves in the variables. -/
def assign {options : List (Opt Var)} (bs : List (Setting options kind)) (v : Values kind) :
    Values kind :=
  bs.foldl (fun v b => v.set b.x b.value) v

omit [DecidableEq Var] in
lemma Values.ext_get {v w : Values kind} (hhelp : v.help = w.help) (h : ∀ x, v.get x = w.get x) :
    v = w := by
  cases v
  cases w
  simp_all [funext_iff]

lemma assign_help {options : List (Opt Var)} (bs : List (Setting options kind)) (v : Values kind) :
    (assign bs v).help = v.help := by
  induction bs generalizing v with
  | nil => rfl
  | cons b bs ih => exact ih (v.set b.x b.value)

/-- A variable that no setting is for keeps its value. -/
lemma assign_get_of_forall_ne {options : List (Opt Var)} {bs : List (Setting options kind)}
    {x : Var} (h : ∀ b ∈ bs, b.x ≠ x) (v : Values kind) : (assign bs v).get x = v.get x := by
  induction bs generalizing v with
  | nil => rfl
  | cons b bs ih =>
      have hrest := ih (fun b' hb' => h b' (by simp [hb'])) (v.set b.x b.value)
      have hset : (v.set b.x b.value).get x = v.get x :=
        Function.update_of_ne (h b (by simp)).symm ..
      exact hrest.trans hset

/-- A variable that one setting is for has the value of the setting. -/
lemma assign_get_of_mem {options : List (Opt Var)} {bs : List (Setting options kind)}
    (hnodup : (bs.map Setting.x).Nodup) {b : Setting options kind} (hb : b ∈ bs)
    (v : Values kind) : (assign bs v).get b.x = b.value := by
  induction bs generalizing v with
  | nil => cases hb
  | cons b' bs ih =>
      rw [List.map_cons, List.nodup_cons] at hnodup
      rcases List.mem_cons.mp hb with rfl | hb
      · have hother : ∀ b' ∈ bs, b'.x ≠ b.x := fun b' hb' heq =>
          hnodup.1 (heq ▸ List.mem_map_of_mem hb')
        have hrest := assign_get_of_forall_ne hother (v.set b.x b.value)
        have hset : (v.set b.x b.value).get b.x = b.value := Function.update_self ..
        exact hrest.trans hset
      · exact ih hnodup.2 hb (v.set b'.x b'.value)

/-- An argument that is not read as options. -/
def IsArgument (text : List Char) : Prop := text ≠ [] ∧ text.head? ≠ some '-'

/-- The arguments of the program that give a setting. -/
inductive Setting.Writes {options : List (Opt Var)} (b : Setting options kind) :
    List (List Char) → Prop
  | separate (h : IsArgument b.text) : Writes b [b.name, b.text]
  | joined (d : Char) (h : isDelimiter d) : Writes b [b.name ++ d :: b.text]

/-- Where the parser stops, and with which result. -/
inductive Stops (unused : List (Opt Var)) :
    List Token → Values kind → Except Error (Values kind) → Prop
  | finished (v : Values kind) : Stops unused [] v (.ok v)
  | help {o : Opt Var} {name : List Char} (mem : o ∈ unused) (named : name ∈ o.names)
      (ref : o.ref = .help) (rest : List Token) (v : Values kind) :
      Stops unused (⟨.option, name⟩ :: rest) v (.ok v.showHelp)
  | unrecognised {t : Token} (h : t.type = .option → ∀ o ∈ unused, t.token ∉ o.names)
      (rest : List Token) (v : Values kind) :
      Stops unused (t :: rest) v (.error (.unrecognised t.token))
  | expectedArgument {o : Opt Var} {name : List Char} {x : Var} (mem : o ∈ unused)
      (named : name ∈ o.names) (ref : o.ref = .value x) {rest : List Token}
      (h : ∀ t ∈ rest.head?, t.type ≠ .argument) (v : Values kind) :
      Stops unused (⟨.option, name⟩ :: rest) v (.error (.expectedArgument name))
  | conversion {o : Opt Var} {name text : List Char} {x : Var} {e : Error} (mem : o ∈ unused)
      (named : name ∈ o.names) (ref : o.ref = .value x)
      (h : convertInto (kind x) text = .error e) (rest : List Token) (v : Values kind) :
      Stops unused (⟨.option, name⟩ :: ⟨.argument, text⟩ :: rest) v (.error e)

/-! ### Tokens of an argument -/

lemma tokensOf_of_isArgument {text : List Char} (h : IsArgument text) :
    tokensOf text = [⟨.argument, text⟩] := by
  obtain ⟨c, cs, rfl⟩ := List.exists_cons_of_ne_nil h.1
  have hc : c ≠ '-' := by simpa using h.2
  simp [tokensOf, isOptPrefix, hc]

lemma tokensOf_name {name : List Char} (h : WellNamed name) :
    tokensOf name = [⟨.option, name⟩] := by
  match name with
  | [] => exact absurd h.dash (by simp)
  | c :: cs =>
      have hdash := h.dash
      have hc : c = '-' := by simpa using hdash
      have hfind : (c :: cs).findIdx? isDelimiter = none :=
        List.findIdx?_eq_none_iff.mpr h.whole
      have hsingle : ¬ (cs.head? ≠ some '-' ∧ (c :: cs).length > 2) := by
        rintro ⟨hhead, hlength⟩
        rcases h.single with hs | hs
        · exact hhead hs
        · omega
      simp only [tokensOf, hfind, if_neg hsingle]
      simp [isOptPrefix, hc]

lemma findIdx?_joined {name : List Char} (text : List Char) {d : Char}
    (hname : ∀ c ∈ name, isDelimiter c = false) (hd : isDelimiter d) :
    (name ++ d :: text).findIdx? isDelimiter = some name.length := by
  rw [List.findIdx?_append, List.findIdx?_eq_none_iff.mpr hname, List.findIdx?_cons, if_pos hd]
  simp

lemma tokensOf_joined {name text : List Char} {d : Char} (h : WellNamed name)
    (hd : isDelimiter d) :
    tokensOf (name ++ d :: text) = [⟨.option, name⟩, ⟨.argument, text⟩] := by
  match name with
  | [] => exact absurd h.dash (by simp)
  | c :: cs =>
      have hdash := h.dash
      have hc : c = '-' := by simpa using hdash
      have hfind := findIdx?_joined text h.whole hd
      rw [List.cons_append] at hfind ⊢
      simp only [tokensOf, hfind]
      simp [isOptPrefix, hc]

/-- What the tokens of an argument can be. -/
lemma tokensOf_cases {arg : List Char} (h : arg ≠ []) :
    (IsArgument arg ∧ tokensOf arg = [⟨.argument, arg⟩]) ∨
    (∃ name d text, arg = name ++ d :: text ∧ isDelimiter d ∧
      tokensOf arg = [⟨.option, name⟩, ⟨.argument, text⟩]) ∨
    (∃ t u ts, tokensOf arg = ⟨.option, t⟩ :: ⟨.option, u⟩ :: ts) ∨
    tokensOf arg = [⟨.option, arg⟩] := by
  obtain ⟨c, cs, rfl⟩ := List.exists_cons_of_ne_nil h
  by_cases hc : c = '-'
  · right
    subst hc
    cases hfind : ('-' :: cs).findIdx? isDelimiter with
    | some i =>
        left
        obtain ⟨hi, hd, -⟩ := List.findIdx?_eq_some_iff_getElem.mp hfind
        refine ⟨('-' :: cs).take i, ('-' :: cs)[i], ('-' :: cs).drop (i + 1), ?_, hd, ?_⟩
        · rw [List.cons_getElem_drop_succ, List.take_append_drop]
        · simp only [tokensOf, hfind]
          rfl
    | none =>
        right
        simp only [tokensOf, hfind]
        by_cases hbundle : cs.head? ≠ some '-' ∧ ('-' :: cs).length > 2
        · left
          obtain ⟨a, b, ds, rfl⟩ : ∃ a b ds, cs = a :: b :: ds := by
            rcases cs with _ | ⟨a, _ | ⟨b, ds⟩⟩
            · simp at hbundle
            · simp at hbundle
            · exact ⟨a, b, ds, rfl⟩
          exact ⟨['-', a], ['-', b], _, by rw [if_pos hbundle]; rfl⟩
        · right
          rw [if_neg hbundle]
          rfl
  · left
    have harg : IsArgument (c :: cs) := ⟨by simp, by simpa using hc⟩
    exact ⟨harg, tokensOf_of_isArgument harg⟩

/-! ### Settings as tokens -/

variable {options : List (Opt Var)}

omit [DecidableEq Var] in
lemma Table.validate (table : Table options) : ∀ o ∈ options, o.validate = .ok () := by
  intro o ho
  have hnames : ∀ names : List (List Char), (∀ name ∈ names, WellNamed name) →
      (names.forM fun name =>
        if name = [] then .error .emptyName
        else if name.head? ≠ some '-' then .error .badName
        else (.ok () : Except Error Unit)) = .ok () := by
    intro names h
    induction names with
    | nil => rfl
    | cons name names ih =>
        have hdash := (h name (by simp)).dash
        have hne : name ≠ [] := fun hnil => by simp [hnil] at hdash
        have hrest := ih fun name' hname' => h name' (by simp [hname'])
        rw [List.forM, if_neg hne, if_neg (not_not.mpr hdash)]
        exact hrest
  rw [Opt.validate, if_neg (table.named o ho)]
  exact hnames _ (table.wellNamed o ho)

omit [DecidableEq Var] in
lemma Table.nodup (table : Table options) : options.Nodup := by
  refine (List.pairwise_iff_forall_sublist.mpr fun {o o'} hsub => ?_ : options.Pairwise (· ≠ ·))
  rintro rfl
  have hdisjoint := List.pairwise_iff_forall_sublist.mp table.disjoint hsub
  have hmem : o ∈ options := hsub.subset (by simp)
  obtain ⟨name, hname⟩ := List.exists_mem_of_ne_nil _ (table.named o hmem)
  exact hdisjoint name hname hname

omit [DecidableEq Var] in
/-- A name finds its option. -/
lemma Table.find? (table : Table options) {unused : List (Opt Var)}
    (hsub : List.Sublist unused options) {o : Opt Var} (ho : o ∈ unused) {name : List Char}
    (hname : name ∈ o.names) : unused.find? (·.isMatch name) = some o := by
  have hdisjoint := table.disjoint.sublist hsub
  clear hsub
  induction unused with
  | nil => cases ho
  | cons p ps ih =>
      rw [List.pairwise_cons] at hdisjoint
      rw [List.find?_cons]
      rcases List.mem_cons.mp ho with rfl | ho
      · simp [Opt.isMatch, hname]
      · have hp : name ∉ p.names := fun h => hdisjoint.1 o ho name h hname
        simpa [Opt.isMatch, hp] using ih ho hdisjoint.2

lemma consume_cons (table : Table options) {unused : List (Opt Var)}
    (hsub : List.Sublist unused options) {b : Setting options kind} (hb : b.opt ∈ unused)
    (rest : List Token) (v : Values kind) :
    consume unused (b.tokens ++ rest) v =
      consume (unused.erase b.opt) rest (v.set b.x b.value) := by
  show consume unused (⟨.option, b.name⟩ :: ⟨.argument, b.text⟩ :: rest) v = _
  rw [consume, table.find? hsub hb b.named]
  simp only [b.ref, b.converts]

lemma consume_append (table : Table options) {unused : List (Opt Var)}
    (hsub : List.Sublist unused options) {bs : List (Setting options kind)}
    (hnodup : (bs.map Setting.opt).Nodup) (hbs : ∀ b ∈ bs, b.opt ∈ unused)
    (rest : List Token) (v : Values kind) :
    consume unused (bs.flatMap Setting.tokens ++ rest) v =
      consume (unused.diff (bs.map Setting.opt)) rest (assign bs v) := by
  induction bs generalizing unused v with
  | nil => rfl
  | cons b bs ih =>
      rw [List.map_cons, List.nodup_cons] at hnodup
      have hrest : ∀ b' ∈ bs, b'.opt ∈ unused.erase b.opt := by
        intro b' hb'
        have hne : b'.opt ≠ b.opt := fun h => hnodup.1 (h ▸ List.mem_map_of_mem hb')
        exact (List.mem_erase_of_ne hne).mpr (hbs b' (by simp [hb']))
      rw [List.flatMap_cons, List.append_assoc, consume_cons table hsub (hbs b (by simp)),
        ih (List.erase_sublist.trans hsub) hnodup.2 hrest, List.map_cons, List.diff_cons]
      rfl

lemma consume_of_stops (table : Table options) {unused : List (Opt Var)}
    (hsub : List.Sublist unused options) {tokens : List Token} {v : Values kind}
    {r : Except Error (Values kind)} (h : Stops unused tokens v r) :
    consume unused tokens v = r := by
  cases h with
  | finished => rfl
  | help mem named ref => simp only [consume, table.find? hsub mem named, ref]
  | @unrecognised t h =>
      obtain ⟨type, token⟩ := t
      cases type with
      | argument => rfl
      | option =>
          have hnone : unused.find? (·.isMatch token) = none :=
            List.find?_eq_none.mpr fun o ho => by simpa [Opt.isMatch] using h rfl o ho
          simp only [consume, hnone]
  | @expectedArgument o name x mem named ref rest h =>
      simp only [consume, table.find? hsub mem named, ref]
      rcases rest with _ | ⟨⟨_ | _, text⟩, rest⟩
      · rfl
      · rfl
      · exact absurd rfl (h ⟨.argument, text⟩ rfl)
  | conversion mem named ref h => simp only [consume, table.find? hsub mem named, ref, h]

/-- Every list of tokens is a sequence of settings, and where the parser stops after them. -/
lemma exists_stops (table : Table options) {unused : List (Opt Var)} 
    (hsub : List.Sublist unused options) (tokens : List Token) (v : Values kind) :
    ∃ (bs : List (Setting options kind)) (rest : List Token),
      (bs.map Setting.opt).Nodup ∧ (∀ b ∈ bs, b.opt ∈ unused) ∧
      tokens = bs.flatMap Setting.tokens ++ rest ∧
      ∃ r, Stops (unused.diff (bs.map Setting.opt)) rest (assign bs v) r := by
  induction hlength : tokens.length using Nat.strong_induction_on
    generalizing unused tokens v with
  | _ n ih =>
      match tokens with
      | [] => exact ⟨[], _, by simp, by simp, rfl, _, .finished v⟩
      | t :: rest =>
          by_cases hmatch : t.type = .option → ∀ o ∈ unused, t.token ∉ o.names
          · exact ⟨[], _, by simp, by simp, rfl, _, .unrecognised hmatch rest v⟩
          · push Not at hmatch
            obtain ⟨htype, o, ho, hname⟩ := hmatch
            obtain ⟨_, name⟩ := t
            subst htype
            cases href : o.ref with
            | help => exact ⟨[], _, by simp, by simp, rfl, _, .help ho hname href rest v⟩
            | value x =>
                match rest with
                | [] =>
                    exact ⟨[], _, by simp, by simp, rfl, _,
                      .expectedArgument ho hname href (by simp) v⟩
                | ⟨.option, _⟩ :: _ =>
                    exact ⟨[], _, by simp, by simp, rfl, _,
                      .expectedArgument ho hname href (by simp) v⟩
                | ⟨.argument, text⟩ :: rest =>
                    cases hconv : convertInto (kind x) text with
                    | error e =>
                        exact ⟨[], _, by simp, by simp, rfl, _,
                          .conversion ho hname href hconv rest v⟩
                    | ok value =>
                        let b : Setting options kind :=
                          ⟨o, hsub.subset ho, x, href, name, hname, text, value, hconv⟩
                        have hless : rest.length < n := by
                          rw [← hlength, List.length_cons, List.length_cons]
                          omega
                        have hnot : o ∉ unused.erase o := (table.nodup.sublist hsub).not_mem_erase
                        obtain ⟨bs, rest', hnodup, hbs, htokens, r, hr⟩ :=
                          ih rest.length hless (List.erase_sublist.trans hsub) rest
                            (v.set x value) rfl
                        refine ⟨b :: bs, rest', ?_, ?_, ?_, r, ?_⟩
                        · rw [List.map_cons, List.nodup_cons]
                          refine ⟨fun h => ?_, hnodup⟩
                          obtain ⟨b', hb', heq⟩ := List.mem_map.mp h
                          have hmem : b'.opt ∈ unused.erase o := hbs b' hb'
                          rw [heq] at hmem
                          exact hnot hmem
                        · intro b' hb'
                          rcases List.mem_cons.mp hb' with rfl | hb'
                          · exact ho
                          · exact List.mem_of_mem_erase (hbs b' hb')
                        · rw [List.flatMap_cons, List.append_assoc, ← htokens]
                          rfl
                        · rw [List.map_cons, List.diff_cons]
                          exact hr

/-- The parser gives a result exactly when it stops with it, after some settings of different
options. -/
lemma Parser.parse_eq_iff (table : Table options) (args : List (List Char)) (v : Values kind)
    (r : Except Error (Values kind)) :
    Parser.parse options args v = r ↔
      ∃ (bs : List (Setting options kind)) (rest : List Token),
        (bs.map Setting.opt).Nodup ∧
        args.flatMap tokensOf = bs.flatMap Setting.tokens ++ rest ∧
        Stops (options.diff (bs.map Setting.opt)) rest (assign bs v) r := by
  have hconsume {bs : List (Setting options kind)} (hnodup : (bs.map Setting.opt).Nodup)
      {rest : List Token} {r : Except Error (Values kind)}
      (hstops : Stops (options.diff (bs.map Setting.opt)) rest (assign bs v) r) :
      consume options (bs.flatMap Setting.tokens ++ rest) v = r := by
    rw [consume_append table (.refl _) hnodup fun b _ => b.mem]
    exact consume_of_stops table (List.diff_sublist _ _) hstops
  rw [Parser.parse_eq_consume table.validate]
  constructor
  · rintro rfl
    obtain ⟨bs, rest, hnodup, -, htokens, r, hstops⟩ :=
      exists_stops table (.refl options) (args.flatMap tokensOf) v
    refine ⟨bs, rest, hnodup, htokens, ?_⟩
    rw [htokens, hconsume hnodup hstops]
    exact hstops
  · rintro ⟨bs, rest, hnodup, htokens, hstops⟩
    rw [htokens, hconsume hnodup hstops]

/-! ### Settings as arguments -/

omit [DecidableEq Var] in
lemma Setting.Writes.flatMap_tokensOf (table : Table options) {b : Setting options kind}
    {group : List (List Char)} (h : b.Writes group) : group.flatMap tokensOf = b.tokens := by
  have hname := table.wellNamed b.opt b.mem b.name b.named
  cases h with
  | separate h =>
      simp [tokensOf_name hname, tokensOf_of_isArgument h, tokens]
  | joined d h =>
      simp [tokensOf_joined hname h, tokens]

omit [DecidableEq Var] in
lemma flatMap_tokensOf_of_writes (table : Table options) {bs : List (Setting options kind)}
    {groups : List (List (List Char))} (h : List.Forall₂ Setting.Writes bs groups) :
    groups.flatten.flatMap tokensOf = bs.flatMap Setting.tokens := by
  induction h with
  | nil => rfl
  | cons hb _ ih =>
      rw [List.flatten_cons, List.flatMap_append, hb.flatMap_tokensOf table, ih, List.flatMap_cons]

omit [DecidableEq Var] in
/-- Arguments that are read as settings are written as settings. -/
lemma exists_writes {bs : List (Setting options kind)} {args : List (List Char)}
    (hargs : ∀ arg ∈ args, arg ≠ []) {rest : List Token}
    (h : args.flatMap tokensOf = bs.flatMap Setting.tokens ++ rest) :
    ∃ (groups : List (List (List Char))) (last : List (List Char)),
      List.Forall₂ Setting.Writes bs groups ∧ args = groups.flatten ++ last ∧
      last.flatMap tokensOf = rest := by
  induction bs generalizing args with
  | nil => exact ⟨[], args, .nil, rfl, h⟩
  | cons b bs ih =>
      rw [List.flatMap_cons, List.append_assoc] at h
      match args with
      | [] => simp [Setting.tokens] at h
      | a :: as =>
          rw [List.flatMap_cons] at h
          rcases tokensOf_cases (hargs a (by simp)) with
            ⟨-, htokens⟩ | ⟨name, d, text, rfl, hd, htokens⟩ | ⟨t, u, ts, htokens⟩ | htokens
          · simp [htokens, Setting.tokens] at h
          · -- The option and its argument are one argument of the program.
            rw [htokens] at h
            simp only [Setting.tokens, List.cons_append, List.nil_append, List.cons.injEq,
              Token.mk.injEq, true_and] at h
            obtain ⟨hname, htext, hrest⟩ := h
            obtain ⟨groups, last, hgroups, has, hlast⟩ :=
              ih (fun arg harg => hargs arg (by simp [harg])) hrest
            refine ⟨[name ++ d :: text] :: groups, last, .cons ?_ hgroups, ?_, hlast⟩
            · rw [hname, htext]
              exact .joined d hd
            · rw [has]
              rfl
          · simp [htokens, Setting.tokens] at h
          · -- The argument of the option is the next one of the program.
            rw [htokens] at h
            simp only [Setting.tokens, List.cons_append, List.nil_append, List.cons.injEq,
              Token.mk.injEq, true_and] at h
            obtain ⟨hname, h⟩ := h
            match as with
            | [] => simp at h
            | a' :: as =>
                rw [List.flatMap_cons] at h
                rcases tokensOf_cases (hargs a' (by simp)) with
                  ⟨harg, htokens'⟩ | ⟨_, _, _, -, -, htokens'⟩ | ⟨_, _, _, htokens'⟩ | htokens'
                · rw [htokens'] at h
                  simp only [List.cons_append, List.nil_append, List.cons.injEq, Token.mk.injEq,
                    true_and] at h
                  obtain ⟨htext, hrest⟩ := h
                  obtain ⟨groups, last, hgroups, has, hlast⟩ :=
                    ih (fun arg harg => hargs arg (by simp [harg])) hrest
                  refine ⟨[a, a'] :: groups, last, .cons ?_ hgroups, ?_, hlast⟩
                  · rw [hname, htext]
                    exact .separate (htext ▸ harg)
                  · rw [has]
                    rfl
                · simp [htokens'] at h
                · simp [htokens'] at h
                · simp [htokens'] at h

/-- The empty arguments of a program are skipped. -/
lemma flatMap_tokensOf_filter (args : List (List Char)) :
    (args.filter fun arg => arg ≠ []).flatMap tokensOf = args.flatMap tokensOf := by
  induction args with
  | nil => rfl
  | cons a as ih =>
      by_cases ha : a = []
      · rw [List.filter_cons_of_neg (by simp [ha]), ih, ha]
        rfl
      · rw [List.filter_cons_of_pos (by simp [ha]), List.flatMap_cons, List.flatMap_cons, ih]

omit [DecidableEq Var] in
lemma Stops.ok_cases {unused : List (Opt Var)} {tokens : List Token} {v w : Values kind}
    (h : Stops unused tokens v (.ok w)) :
    tokens = [] ∧ w = v ∨
      ∃ o ∈ unused, o.ref = .help ∧ ∃ name ∈ o.names,
        tokens.head? = some ⟨.option, name⟩ ∧ w = v.showHelp := by
  cases h with
  | finished => exact .inl ⟨rfl, rfl⟩
  | help mem named ref => exact .inr ⟨_, mem, ref, _, named, rfl, rfl⟩

/-- An argument that shows the help. -/
def AsksHelp (options : List (Opt Var)) (arg : List Char) : Prop :=
  ∃ o ∈ options, o.ref = .help ∧ ∃ name ∈ o.names, (tokensOf arg).head? = some ⟨.option, name⟩

/-- The command lines that the parser accepts, and what it makes of them. -/
lemma Parser.parse_eq_ok_iff (table : Table options) (args : List (List Char))
    (v w : Values kind) :
    Parser.parse options args v = .ok w ↔
      ∃ (bs : List (Setting options kind)) (groups : List (List (List Char)))
        (last : List (List Char)),
        (bs.map Setting.opt).Nodup ∧ List.Forall₂ Setting.Writes bs groups ∧
        (args.filter fun arg => arg ≠ []) = groups.flatten ++ last ∧
        (last = [] ∧ w = assign bs v ∨
          (∃ arg, last.head? = some arg ∧ AsksHelp options arg) ∧ w = (assign bs v).showHelp) := by
  rw [Parser.parse_eq_iff table]
  constructor
  · rintro ⟨bs, rest, hnodup, htokens, hstops⟩
    rw [← flatMap_tokensOf_filter] at htokens
    have hne : ∀ arg ∈ args.filter fun arg => arg ≠ [], arg ≠ [] := by
      intro arg harg
      simpa using (List.mem_filter.mp harg).2
    obtain ⟨groups, last, hgroups, hargs, hlast⟩ := exists_writes hne htokens
    refine ⟨bs, groups, last, hnodup, hgroups, hargs, ?_⟩
    have hlast_ne : ∀ arg ∈ last, arg ≠ [] := fun arg harg =>
      hne arg (by rw [hargs]; exact List.mem_append_right _ harg)
    rw [← hlast] at hstops
    match last with
    | [] =>
        rcases hstops.ok_cases with ⟨-, hw⟩ | ⟨_, _, _, _, _, hhead, _⟩
        · exact .inl ⟨rfl, hw⟩
        · simp at hhead
    | arg :: last =>
        obtain ⟨t, ts, harg⟩ := List.exists_cons_of_ne_nil (tokensOf_ne_nil (hlast_ne arg (by simp)))
        rw [List.flatMap_cons, harg] at hstops
        rcases hstops.ok_cases with ⟨hnil, -⟩ | ⟨o, ho, href, name, hname, hhead, hw⟩
        · simp at hnil
        · refine .inr ⟨⟨arg, rfl, o, List.diff_subset _ _ ho, href, name, hname, ?_⟩, hw⟩
          rw [harg]
          exact hhead
  · rintro ⟨bs, groups, last, hnodup, hgroups, hargs, hlast⟩
    have htokens : args.flatMap tokensOf =
        bs.flatMap Setting.tokens ++ last.flatMap tokensOf := by
      rw [← flatMap_tokensOf_filter, hargs, List.flatMap_append,
        flatMap_tokensOf_of_writes table hgroups]
    refine ⟨bs, _, hnodup, htokens, ?_⟩
    rcases hlast with ⟨rfl, rfl⟩ | ⟨⟨arg, hhead, o, ho, href, name, hname, harg⟩, rfl⟩
    · exact .finished _
    · obtain ⟨last, rfl⟩ : ∃ last', last = arg :: last' := by
        cases last with
        | nil => simp at hhead
        | cons a l => exact ⟨l, by simpa using hhead⟩
      obtain ⟨ts, hts⟩ : ∃ ts, tokensOf arg = ⟨.option, name⟩ :: ts := by
        cases htoken : tokensOf arg with
        | nil => simp [htoken] at harg
        | cons t ts => exact ⟨ts, by simpa [htoken] using harg⟩
      rw [List.flatMap_cons, hts]
      -- No setting takes the option away that shows the help.
      have hunused : o ∈ options.diff (bs.map Setting.opt) := by
        refine List.mem_diff_of_mem ho fun h => ?_
        obtain ⟨b, -, rfl⟩ := List.mem_map.mp h
        have hvalue := b.ref
        rw [href] at hvalue
        cases hvalue
      exact .help hunused hname href _ _

end Clara

end S3Proxy
