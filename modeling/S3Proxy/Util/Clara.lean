import S3Proxy.Library.Decimal
import S3Proxy.Util.TokenStream

/-!
# Parsing the command line

The parser of `clara.hpp`, over any variables: each option is bound to a variable whose type says
how the argument is converted, or shows the help.  An option is taken once.

The model keeps the structure of the source.  `Parser.loop` asks the options that are not used up
for the next token, in their order (`tryEach`), and goes on with what the one that took it left
(`Opt.parse`); it ends with an error where none does.  The values travel along, so that what was set
before an error is known.

## Main results

`Parser.parse_eq_consume`: what the parser does depends on the tokens of the command line only, and
`consume` is the same computation as a recursion on the list of tokens.  The step of it is
`Opt.parse_of_isMatch`, and `tryEach_of_find` says that the loop over the options comes to the first
one that takes the token.  `tryEach_remaining` is why the loop of the parser ends: an option that
matches takes a token at least.

`convertInto_write` is the round trip of a single argument: a value that fits its type, written as
the type writes it, is converted into itself.

## Hypotheses

The options are valid in the sense of the library (`Opt.validate`), which is what its own check
before parsing asks for.

## Where it is used

`Util.CommandLine` goes from the tokens to the command lines, and needs `Parser.parse_eq_consume`
for it.  The options of the proxy and their variables are in `Main`.
-/

namespace S3Proxy

namespace Clara

/-- The types of the variables that the options of the program are bound to. -/
inductive Kind
  | text | int | bool
  deriving DecidableEq, Repr

abbrev Kind.Value : Kind → Type
  | .text => String
  | .int => ℤ
  | .bool => Bool

/-- The errors of the parser. -/
inductive Error
  | noOptions
  | emptyName
  | badName
  | notConverted (source : List Char)
  | notBoolean (source : List Char)
  | expectedArgument (name : List Char)
  | unrecognised (token : List Char)
  deriving DecidableEq, Repr

/-- `errorMessage()`. -/
def Error.message : Error → List Char
  | .noOptions => "No options supplied to Opt".toList
  | .emptyName => "Option name cannot be empty".toList
  | .badName => "Option name must begin with '-'".toList
  | .notConverted source =>
      "Unable to convert '".toList ++ source ++ "' to destination type".toList
  | .notBoolean source =>
      "Expected a boolean value but did not recognise: '".toList ++ source ++ "'".toList
  | .expectedArgument name => "Expected argument following ".toList ++ name
  | .unrecognised token => "Unrecognised token: ".toList ++ token

/-! ### Conversion of arguments -/

/-- `std::isspace` in the classic locale. -/
def isSpace (c : Char) : Bool := c = ' ' || (9 ≤ c.toNat && c.toNat ≤ 13)

/-- A number with the sign in front of it. -/
def extractSigned : List Char → Option ℤ
  | '-' :: l => (Decimal.readNat (l.takeWhile Char.isDigit)).map fun n => -(n : ℤ)
  | '+' :: l => (Decimal.readNat (l.takeWhile Char.isDigit)).map Int.ofNat
  | l => (Decimal.readNat (l.takeWhile Char.isDigit)).map Int.ofNat

/-- `operator>>` of an `int`: what follows the digits is left in the stream, a number outside the
range of an `int` is a failure. -/
def extractInt (source : List Char) : Option ℤ :=
  match extractSigned (source.dropWhile isSpace) with
  | some n => if -2 ^ 31 ≤ n ∧ n < 2 ^ 31 then some n else none
  | none => none

/-- `convertInto`. -/
def convertInto : (kind : Kind) → List Char → Except Error kind.Value
  | .text, source => .ok (String.ofList source)
  | .int, source =>
      match extractInt source with
      | some n => .ok n
      | none => .error (.notConverted source)
  | .bool, source =>
      let srcLC := source.map Char.toLower
      if srcLC ∈ ["y".toList, "1".toList, "true".toList, "yes".toList, "on".toList] then .ok true
      else if srcLC ∈ ["n".toList, "0".toList, "false".toList, "no".toList, "off".toList] then
        .ok false
      else .error (.notBoolean source)

/-- A text that converts to a value. -/
def Kind.write : (kind : Kind) → kind.Value → List Char
  | .text, s => s.toList
  | .int, n => (toString (n : ℤ)).toList
  | .bool, true => "true".toList
  | .bool, false => "false".toList

/-- What a variable of the type can hold. -/
def Kind.Fits : (kind : Kind) → kind.Value → Prop
  | .int, n => -2 ^ 31 ≤ (n : ℤ) ∧ (n : ℤ) < 2 ^ 31
  | _, _ => True

instance : (kind : Kind) → (value : kind.Value) → Decidable (kind.Fits value)
  | .int, n => inferInstanceAs (Decidable (-2 ^ 31 ≤ (n : ℤ) ∧ (n : ℤ) < 2 ^ 31))
  | .text, _ => inferInstanceAs (Decidable True)
  | .bool, _ => inferInstanceAs (Decidable True)

lemma extractSigned_toString (n : ℤ) : extractSigned (toString n).toList = some n := by
  have htake (m : ℕ) : (toString m).toList.takeWhile Char.isDigit = (toString m).toList :=
    List.takeWhile_eq_self_iff.2 fun c hc => Decimal.isDigit_of_mem_toString_nat hc
  cases n with
  | ofNat m =>
      show extractSigned (toString m).toList = _
      unfold extractSigned
      split
      · rename_i l heq
        have hminus := Decimal.isDigit_of_mem_toString_nat (n := m) (heq ▸ List.mem_cons_self)
        exact absurd hminus (by decide)
      · rename_i l heq
        have hplus := Decimal.isDigit_of_mem_toString_nat (n := m) (heq ▸ List.mem_cons_self)
        exact absurd hplus (by decide)
      · rw [htake, Decimal.readNat_toString]
        rfl
  | negSucc m =>
      have hstr : (toString (Int.negSucc m)).toList = '-' :: (toString (m + 1)).toList := by
        show ("-" ++ toString (m + 1)).toList = _
        rw [String.toList_append]
        rfl
      rw [hstr, extractSigned, htake, Decimal.readNat_toString]
      rfl

lemma dropWhile_isSpace_toString (n : ℤ) :
    (toString n).toList.dropWhile isSpace = (toString n).toList := by
  cases h : (toString n).toList with
  | nil => rfl
  | cons c l =>
      have hc : isSpace c = false := by
        rcases Decimal.mem_toString_int (h ▸ List.mem_cons_self) with hdigit | rfl
        · have hrange := Char.isDigit_iff_toNat.mp hdigit
          have hne : c ≠ ' ' := by
            rintro rfl
            exact absurd hdigit (by decide)
          have h0 : '0'.toNat = 48 := rfl
          simp only [isSpace, hne, decide_false, Bool.false_or, Bool.and_eq_false_iff,
            decide_eq_false_iff_not]
          omega
        · rfl
      rw [List.dropWhile_cons, hc]
      rfl

lemma convertInto_write {kind : Kind} {value : kind.Value} (h : kind.Fits value) :
    convertInto kind (kind.write value) = .ok value := by
  match kind, value with
  | .text, s => exact congrArg Except.ok (String.ofList_toList)
  | .bool, true => rfl
  | .bool, false => rfl
  | .int, n =>
      have hrange : -2 ^ 31 ≤ (n : ℤ) ∧ (n : ℤ) < 2 ^ 31 := h
      have hextract : extractInt (toString (n : ℤ)).toList = some n := by
        rw [extractInt, dropWhile_isSpace_toString, extractSigned_toString]
        exact if_pos hrange
      show (match extractInt (toString (n : ℤ)).toList with
        | some n => Except.ok n
        | none => _) = _
      rw [hextract]

/-! ### Options -/

variable {Var : Type} [DecidableEq Var] {kind : Var → Kind}

/-- What an option is bound to: a variable, or the lambda of `Help`. -/
inductive BoundRef (Var : Type)
  | value (x : Var)
  | help
  deriving DecidableEq, Repr

structure Opt (Var : Type) where
  names : List (List Char)
  ref : BoundRef Var
  deriving DecidableEq, Repr

/-- The variables, and the flag that `Help` sets. -/
structure Values (kind : Var → Kind) where
  help : Bool
  get : (x : Var) → (kind x).Value

def Values.set (v : Values kind) (x : Var) (value : (kind x).Value) : Values kind :=
  { v with get := Function.update v.get x value }

def Values.showHelp (v : Values kind) : Values kind := { v with help := true }

inductive ParseResultType
  | matched | noMatch | shortCircuitAll
  deriving DecidableEq, Repr

structure ParseState where
  type : ParseResultType
  remainingTokens : TokenStream

/-- `Opt::validate`. -/
def Opt.validate (o : Opt Var) : Except Error Unit :=
  if o.names = [] then .error .noOptions
  else
    o.names.forM fun name =>
      if name = [] then .error .emptyName
      else if name.head? ≠ some '-' then .error .badName
      else .ok ()

def Opt.isMatch (o : Opt Var) (optToken : List Char) : Bool := optToken ∈ o.names

/-- `Opt::parse`. -/
def Opt.parse (o : Opt Var) (tokens : TokenStream) (v : Values kind) :
    Except Error (ParseState × Values kind) :=
  match o.validate with
  | .error e => .error e
  | .ok () =>
      match tokens.front with
      | some ⟨.option, token⟩ =>
          if o.isMatch token then
            match o.ref with
            | .help => .ok (⟨.shortCircuitAll, tokens⟩, v.showHelp)
            | .value x =>
                match tokens.next.front with
                | some ⟨.argument, argToken⟩ =>
                    match convertInto (kind x) argToken with
                    | .ok value => .ok (⟨.matched, tokens.next.next⟩, v.set x value)
                    | .error e => .error e
                | _ => .error (.expectedArgument token)
          else .ok (⟨.noMatch, tokens⟩, v)
      | _ => .ok (⟨.noMatch, tokens⟩, v)

/-! ### The parser -/

structure ParserInfo (Var : Type) where
  parser : Opt Var
  count : ℕ

/-- The `for` loop of `Parser::parse`, which ends at the first option that takes the token. -/
def tryEach : List (ParserInfo Var) → TokenStream → Values kind →
    Except Error (ParseState × Values kind × List (ParserInfo Var))
  | [], tokens, v => .ok (⟨.noMatch, tokens⟩, v, [])
  | p :: ps, tokens, v =>
      if p.count < 1 then
        match p.parser.parse tokens v with
        | .error e => .error e
        | .ok (r, v') =>
            if r.type ≠ .noMatch then .ok (r, v', { p with count := p.count + 1 } :: ps)
            else
              match tryEach ps r.remainingTokens v' with
              | .error e => .error e
              | .ok (r', v'', ps') => .ok (r', v'', p :: ps')
      else
        match tryEach ps tokens v with
        | .error e => .error e
        | .ok (r', v'', ps') => .ok (r', v'', p :: ps')

lemma Opt.parse_remaining {o : Opt Var} {s : TokenStream} {v v' : Values kind} {r : ParseState}
    (h : o.parse s v = .ok (r, v')) :
    (r.type = .noMatch → r.remainingTokens = s) ∧
    (r.type = .matched → r.remainingTokens.tokens.length < s.tokens.length) := by
  unfold parse at h
  split at h
  · cases h
  · split at h
    · rename_i token hfront
      rw [s.front_eq] at hfront
      split at h
      · split at h
        · cases h
          simp
        · split at h
          · split at h
            · cases h
              have hpos := List.length_pos_of_mem (List.mem_of_mem_head? hfront)
              refine ⟨nofun, fun _ => ?_⟩
              simp only [TokenStream.tokens_next, List.length_tail]
              omega
            · cases h
          · cases h
      · cases h
        simp
    · cases h
      simp

lemma tryEach_remaining {infos infos' : List (ParserInfo Var)} {s : TokenStream}
    {v v' : Values kind} {r : ParseState} (h : tryEach infos s v = .ok (r, v', infos'))
    (hr : r.type = .matched) : r.remainingTokens.tokens.length < s.tokens.length := by
  induction infos generalizing s v infos' with
  | nil =>
      cases h
      cases hr
  | cons p ps ih =>
      simp only [tryEach] at h
      split at h
      · split at h
        · cases h
        · rename_i r₁ v₁ hparse
          obtain ⟨hsame, hless⟩ := Opt.parse_remaining hparse
          split at h
          · cases h
            exact hless hr
          · rename_i hmatch
            rw [hsame (not_not.mp hmatch)] at h
            split at h
            · cases h
            · rename_i hrest
              cases h
              exact ih hrest
      · split at h
        · cases h
        · rename_i hrest
          cases h
          exact ih hrest

/-- The `while` loop of `Parser::parse`. -/
def Parser.loop (infos : List (ParserInfo Var)) (tokens : TokenStream) (v : Values kind) :
    Except Error (Values kind) :=
  if tokens.more then
    match _h : tryEach infos tokens v with
    | .error e => .error e
    | .ok (r, v', infos') =>
        match _hr : r.type with
        | .shortCircuitAll => .ok v'
        | .noMatch => .error (.unrecognised ((r.remainingTokens.front.map Token.token).getD []))
        | .matched => Parser.loop infos' r.remainingTokens v'
  else .ok v
termination_by tokens.tokens.length
decreasing_by exact tryEach_remaining ‹_› ‹_›

/-- `Parser::parse`, on the arguments of the program after its name. -/
def Parser.parse (options : List (Opt Var)) (args : List (List Char)) (v : Values kind) :
    Except Error (Values kind) :=
  Parser.loop (options.map fun o => ⟨o, 0⟩) (TokenStream.load args) v

/-! ### The parser on a list of tokens -/

/-- Whether the first token is one of the names of the option. -/
def Opt.isNext (o : Opt Var) : List Token → Bool
  | ⟨.option, token⟩ :: _ => o.isMatch token
  | _ => false

/-- The parser on the tokens of a command line, with the options that it has not taken yet. -/
def consume (unused : List (Opt Var)) : List Token → Values kind → Except Error (Values kind)
  | [], v => .ok v
  | ⟨.argument, token⟩ :: _, _ => .error (.unrecognised token)
  | ⟨.option, token⟩ :: rest, v =>
      match unused.find? (·.isMatch token) with
      | none => .error (.unrecognised token)
      | some o =>
          match o.ref with
          | .help => .ok v.showHelp
          | .value x =>
              match rest with
              | ⟨.argument, argToken⟩ :: rest =>
                  match convertInto (kind x) argToken with
                  | .ok value => consume (unused.erase o) rest (v.set x value)
                  | .error e => .error e
              | _ => .error (.expectedArgument token)

/-- The options that the parser has not taken yet. -/
def unusedOf (infos : List (ParserInfo Var)) : List (Opt Var) :=
  (infos.filter fun p => p.count < 1).map ParserInfo.parser

omit [DecidableEq Var] in
lemma unusedOf_cons_of_lt {p : ParserInfo Var} (hp : p.count < 1) (ps : List (ParserInfo Var)) :
    unusedOf (p :: ps) = p.parser :: unusedOf ps := by
  rw [unusedOf, List.filter_cons_of_pos (by simpa using hp)]
  rfl

omit [DecidableEq Var] in
lemma unusedOf_cons_of_not_lt {p : ParserInfo Var} (hp : ¬ p.count < 1)
    (ps : List (ParserInfo Var)) : unusedOf (p :: ps) = unusedOf ps := by
  rw [unusedOf, List.filter_cons_of_neg (by simpa using hp)]
  rfl

lemma Opt.parse_of_not_isNext {o : Opt Var} (hvalid : o.validate = .ok ()) {s : TokenStream}
    (h : o.isNext s.tokens = false) (v : Values kind) :
    o.parse s v = .ok (⟨.noMatch, s⟩, v) := by
  simp only [parse, hvalid, s.front_eq]
  match htokens : s.tokens with
  | [] => rfl
  | ⟨.argument, token⟩ :: rest => rfl
  | ⟨.option, token⟩ :: rest =>
      have hmatch : o.isMatch token = false := by
        rw [htokens] at h
        exact h
      simp [hmatch]

lemma Opt.parse_of_isNext {o : Opt Var} (hvalid : o.validate = .ok ()) {s : TokenStream}
    (h : o.isNext s.tokens) {v v' : Values kind} {r : ParseState}
    (hparse : o.parse s v = .ok (r, v')) : r.type ≠ .noMatch := by
  simp only [parse, hvalid, s.front_eq] at hparse
  match htokens : s.tokens with
  | [] => simp [htokens, isNext] at h
  | ⟨.argument, token⟩ :: rest => simp [htokens, isNext] at h
  | ⟨.option, token⟩ :: rest =>
      have hmatch : o.isMatch token := by
        rw [htokens] at h
        exact h
      simp only [htokens, List.head?_cons, if_pos hmatch] at hparse
      split at hparse
      · cases hparse
        nofun
      · split at hparse
        · split at hparse
          · cases hparse
            nofun
          · cases hparse
        · cases hparse

lemma tryEach_of_none {infos : List (ParserInfo Var)}
    (hvalid : ∀ o ∈ unusedOf infos, o.validate = .ok ()) {s : TokenStream}
    (h : ∀ o ∈ unusedOf infos, o.isNext s.tokens = false) (v : Values kind) :
    tryEach infos s v = .ok (⟨.noMatch, s⟩, v, infos) := by
  induction infos with
  | nil => rfl
  | cons p ps ih =>
      have hrest : tryEach ps s v = .ok (⟨.noMatch, s⟩, v, ps) := by
        refine ih (fun o ho => hvalid o ?_) (fun o ho => h o ?_) <;>
          exact List.map_subset _ (fun _ hq => by simp_all) ho
      by_cases hp : p.count < 1
      · have hmem : p.parser ∈ unusedOf (p :: ps) := by simp [unusedOf_cons_of_lt hp]
        simp [tryEach, hp, Opt.parse_of_not_isNext (hvalid _ hmem) (h _ hmem), hrest]
      · simp [tryEach, hp, hrest]

/-- The loop over the options is the first unused option that takes the token. -/
lemma tryEach_of_find {infos : List (ParserInfo Var)}
    (hvalid : ∀ o ∈ unusedOf infos, o.validate = .ok ()) {s : TokenStream} {o : Opt Var}
    (h : (unusedOf infos).find? (·.isNext s.tokens) = some o) (v : Values kind) :
    ∃ infos', unusedOf infos' = (unusedOf infos).erase o ∧
      tryEach infos s v = (o.parse s v).map fun r => (r.1, r.2, infos') := by
  induction infos with
  | nil => simp [unusedOf] at h
  | cons p ps ih =>
      by_cases hp : p.count < 1
      · have hunused := unusedOf_cons_of_lt hp ps
        rw [hunused, List.find?_cons] at h
        by_cases hnext : p.parser.isNext s.tokens
        · rw [hnext] at h
          cases h
          refine ⟨{ p with count := p.count + 1 } :: ps, ?_, ?_⟩
          · rw [hunused, List.erase_cons_head, unusedOf_cons_of_not_lt (by simp)]
          · rw [tryEach, if_pos hp]
            cases hparse : p.parser.parse s v with
            | error e => rfl
            | ok r =>
                have htype := Opt.parse_of_isNext (hvalid _ (by simp [hunused])) hnext hparse
                simp [Except.map, htype]
        · rw [Bool.not_eq_true] at hnext
          rw [hnext] at h
          obtain ⟨infos', herase, htry⟩ := ih (fun o ho => hvalid o (by simp [hunused, ho])) h
          have hne : p.parser ≠ o := by
            rintro rfl
            have hsome := List.find?_some h
            simp [hnext] at hsome
          refine ⟨p :: infos', ?_, ?_⟩
          · rw [hunused, unusedOf_cons_of_lt hp, herase, List.erase_cons_tail (by simpa using hne)]
          · have hparse := Opt.parse_of_not_isNext (hvalid p.parser (by simp [hunused])) hnext v
            simp only [tryEach, if_pos hp, hparse, htry, ne_eq, not_true_eq_false, if_false]
            cases o.parse s v <;> rfl
      · have hunused := unusedOf_cons_of_not_lt hp ps
        rw [hunused] at h hvalid ⊢
        obtain ⟨infos', herase, htry⟩ := ih hvalid h
        refine ⟨p :: infos', ?_, ?_⟩
        · rw [unusedOf_cons_of_not_lt hp, herase]
        · rw [tryEach, if_neg hp, htry]
          cases o.parse s v <;> rfl

lemma Parser.loop_of_error {infos : List (ParserInfo Var)} {s : TokenStream} {v : Values kind}
    {e : Error} (hmore : s.more) (htry : tryEach infos s v = .error e) :
    Parser.loop infos s v = .error e := by
  rw [Parser.loop, if_pos hmore]
  split
  · rename_i heq
    rw [htry] at heq
    cases heq
    rfl
  · rename_i heq
    rw [htry] at heq
    cases heq

lemma Parser.loop_of_ok {infos infos' : List (ParserInfo Var)} {s s' : TokenStream}
    {v v' : Values kind} {type : ParseResultType} (hmore : s.more)
    (htry : tryEach infos s v = .ok (⟨type, s'⟩, v', infos')) :
    Parser.loop infos s v = match type with
      | .shortCircuitAll => .ok v'
      | .noMatch => .error (.unrecognised ((s'.front.map Token.token).getD []))
      | .matched => Parser.loop infos' s' v' := by
  rw [Parser.loop, if_pos hmore]
  split
  · rename_i heq
    rw [htry] at heq
    cases heq
  · rename_i heq
    rw [htry] at heq
    cases heq
    cases type <;> rfl

lemma Opt.parse_of_isMatch {o : Opt Var} (hvalid : o.validate = .ok ()) {s : TokenStream}
    {token : List Char} {rest : List Token} (htokens : s.tokens = ⟨.option, token⟩ :: rest)
    (hmatch : o.isMatch token) (v : Values kind) :
    o.parse s v = match o.ref with
      | .help => .ok (⟨.shortCircuitAll, s⟩, v.showHelp)
      | .value x =>
          match rest with
          | ⟨.argument, argToken⟩ :: _ =>
              match convertInto (kind x) argToken with
              | .ok value => .ok (⟨.matched, s.next.next⟩, v.set x value)
              | .error e => .error e
          | _ => .error (.expectedArgument token) := by
  have hfront : s.front = some ⟨.option, token⟩ := by simp [htokens]
  have hsecond : s.next.front = rest.head? := by simp [htokens]
  simp only [parse, hvalid, hfront, if_pos hmatch, hsecond]
  match rest with
  | [] => rfl
  | ⟨.option, _⟩ :: _ => rfl
  | ⟨.argument, _⟩ :: _ => rfl

lemma Parser.loop_eq_consume {infos : List (ParserInfo Var)}
    (hvalid : ∀ o ∈ unusedOf infos, o.validate = .ok ()) (s : TokenStream) (v : Values kind) :
    Parser.loop infos s v = consume (unusedOf infos) s.tokens v := by
  generalize htokens : s.tokens = tokens
  -- The induction follows the tokens that are left, of which an option takes one or two.
  induction hlength : tokens.length using Nat.strong_induction_on generalizing infos s v tokens with
  | _ n ih =>
      match tokens with
      | [] =>
          rw [Parser.loop]
          simp [htokens, consume]
      | ⟨.argument, token⟩ :: rest =>
          have hnone : ∀ o ∈ unusedOf infos, o.isNext s.tokens = false := by
            intro o _
            rw [htokens]
            rfl
          rw [Parser.loop_of_ok (by simp [htokens]) (tryEach_of_none hvalid hnone v)]
          simp [htokens, consume]
      | ⟨.option, token⟩ :: rest =>
          have hmore : s.more := by simp [htokens]
          rw [consume]
          cases hfind : (unusedOf infos).find? (·.isMatch token) with
          | none =>
              have hnone : ∀ o ∈ unusedOf infos, o.isNext s.tokens = false := by
                intro o ho
                rw [htokens]
                exact Bool.not_eq_true _ ▸ List.find?_eq_none.mp hfind o ho
              rw [Parser.loop_of_ok hmore (tryEach_of_none hvalid hnone v)]
              simp [htokens]
          | some o =>
              have hnext : (unusedOf infos).find? (·.isNext s.tokens) = some o := by
                rw [htokens]
                exact hfind
              obtain ⟨infos', herase, htry⟩ := tryEach_of_find hvalid hnext v
              have hmatch : o.isMatch token := by simpa using List.find?_some hfind
              have hparse := Opt.parse_of_isMatch (hvalid o (List.mem_of_find?_eq_some hfind))
                htokens hmatch v
              show _ = match o.ref with
                | .help => _
                | .value x => _
              cases href : o.ref with
              | help =>
                  rw [href] at hparse
                  rw [hparse] at htry
                  exact Parser.loop_of_ok hmore htry
              | value x =>
                  rw [href] at hparse
                  match rest with
                  | [] =>
                      rw [hparse] at htry
                      exact Parser.loop_of_error hmore htry
                  | ⟨.option, _⟩ :: _ =>
                      rw [hparse] at htry
                      exact Parser.loop_of_error hmore htry
                  | ⟨.argument, argToken⟩ :: rest =>
                      cases hconv : convertInto (kind x) argToken with
                      | error e =>
                          simp only [hconv] at hparse
                          rw [hparse] at htry
                          simpa only [hconv] using Parser.loop_of_error hmore htry
                      | ok value =>
                          simp only [hconv] at hparse
                          rw [hparse] at htry
                          have hrest : s.next.next.tokens = rest := by simp [htokens]
                          have hvalid' : ∀ o' ∈ unusedOf infos', o'.validate = .ok () := by
                            rw [herase]
                            exact fun o' ho' => hvalid o' (List.mem_of_mem_erase ho')
                          have hless : rest.length < n := by
                            rw [← hlength, List.length_cons, List.length_cons]
                            omega
                          have hloop := ih rest.length hless hvalid' s.next.next (v.set x value)
                            rest hrest rfl
                          rw [herase] at hloop
                          rw [Parser.loop_of_ok hmore htry]
                          simpa only [hconv] using hloop

/-- **The parser reads the tokens of the command line** one after the other. -/
lemma Parser.parse_eq_consume {options : List (Opt Var)}
    (hvalid : ∀ o ∈ options, o.validate = .ok ()) (args : List (List Char)) (v : Values kind) :
    Parser.parse options args v = consume options (args.flatMap tokensOf) v := by
  have hunused : unusedOf (options.map fun o => (⟨o, 0⟩ : ParserInfo Var)) = options := by
    simp [unusedOf, List.filter_map, Function.comp_def]
  rw [Parser.parse, Parser.loop_eq_consume (by rwa [hunused]), hunused, TokenStream.tokens_load]

end Clara

end S3Proxy
