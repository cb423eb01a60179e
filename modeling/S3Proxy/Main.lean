import S3Proxy.Log.Line
import S3Proxy.Util.CommandLine

/-!
# The command line of the proxy

`main` binds an option to each member of the configuration, and three to variables of its own.  It
ends at once with an error or with the help; otherwise it tells the configuration and starts with
the values of the command line, and with the defaults for what the command line leaves out.  What it
tells needs the parts of the MongoDB URI, and where the driver takes the text for no URI its
exception ends the program before it has started.

## Main results

* `started_iff`: for which command lines the proxy starts, what it tells and with which values, and
  for which the driver's exception ends it.
* `help_iff_and_failed_iff`: for which it shows the help, and for which it fails and how.
* `started_of_written`: values that are written on a command line, in any order and form, are those
  that the proxy starts with.

`Sets` is the condition of the first: the command line consists of settings, no option in two of
them, and every variable has the value of its setting or its default.  `greeting_eq_none_iff` says
when the configuration cannot be told, and `greeting_of_eq_off_secrets` that neither the secret of
the account nor the token of the management API is.

## Hypotheses

The driver's parser of URIs is the parameter `parseUri`, of which nothing is assumed; the third
result asks that it takes the URI, if one is written.  The number of processors, which is the
default for the number of threads, is a parameter of `main` as well.

## What it rests on

`Parser.parse_eq_iff` and `Parser.parse_eq_ok_iff` of `Util.CommandLine`, at the table of the
options of `main`; `table` is the proof that they form one.  The levels of the log come from
`Log.Line`.
-/

namespace S3Proxy

namespace Main

open Clara

/-- The variables that `main` binds options to. -/
inductive Var
  | authKey | key | secret | port | threads | rejectQueryStrings | console | logLevel | ttl
  | cacheDir | region | bucket | mmdbHost | mmdbPort | ilpHost | ilpSeries | ilpPort | mongoUri
  | mongoDatabase | mongoCollection | dir
  deriving DecidableEq, Repr

@[simp] def kind : Var → Kind
  | .port | .threads | .ttl | .mmdbPort | .ilpPort => .int
  | .rejectQueryStrings | .console => .bool
  | _ => .text

/-- An option with a value, under its short and its long name. -/
def opt (x : Var) (short long : String) : Opt Var := ⟨[short.toList, long.toList], .value x⟩

/-- `clara::Help`. -/
def help : Opt Var := ⟨["-?".toList, "-h".toList, "--help".toList], .help⟩

def options : List (Opt Var) :=
  [help,
    opt .authKey "-a" "--auth-key",
    opt .key "-k" "--key",
    opt .secret "-s" "--secret",
    opt .port "-p" "--port",
    opt .threads "-n" "--threads",
    opt .rejectQueryStrings "-j" "--reject-query-strings",
    opt .console "-c" "--console",
    opt .logLevel "-l" "--log-level",
    opt .ttl "-t" "--ttl",
    opt .cacheDir "-d" "--cache-dir",
    opt .region "-r" "--region",
    opt .bucket "-b" "--bucket",
    opt .mmdbHost "-m" "--mmdb-host",
    opt .mmdbPort "-x" "--mmdb-port",
    opt .ilpHost "-y" "--ilp-host",
    opt .ilpSeries "-e" "--ilp-series-name",
    opt .ilpPort "-z" "--ilp-port",
    opt .mongoUri "-f" "--mongo-uri",
    opt .mongoDatabase "-g" "--mongo-database",
    opt .mongoCollection "-i" "--mongo-collection",
    opt .dir "-o" "--dir"]

/-- What the variables are initialised with; `threads` is `std::thread::hardware_concurrency()`. -/
def defaults (hardwareConcurrency : ℤ) : Values kind where
  help := false
  get
    | .authKey => ""
    | .key => ""
    | .secret => ""
    | .port => (8000 : ℤ)
    | .threads => hardwareConcurrency
    | .rejectQueryStrings => false
    | .console => false
    | .logLevel => "info"
    | .ttl => (300 : ℤ)
    | .cacheDir => "/tmp"
    | .region => ""
    | .bucket => ""
    | .mmdbHost => ""
    | .mmdbPort => (8010 : ℤ)
    | .ilpHost => ""
    | .ilpSeries => "request"
    | .ilpPort => (9009 : ℤ)
    | .mongoUri => ""
    | .mongoDatabase => "metrics"
    | .mongoCollection => "request"
    | .dir => "logs/"

/-- What `str` reads of a `mongocxx::uri`: the hosts with their ports, and the database. -/
structure MongoUri where
  hosts : List (String × ℕ)
  database : String

/-- The MongoDB URI as `str` writes it: without its user, and with what it asks for after `?`. -/
def MongoUri.str (u : MongoUri) (mongoUri : String) : String :=
  "mongodb://" ++ ",".intercalate (u.hosts.map fun host => host.1 ++ ":" ++ toString host.2) ++
    "/" ++ u.database ++ String.ofList (mongoUri.toList.dropWhile fun c => c ≠ '?')

/-- `operator<<` of a variable, with `std::boolalpha`. -/
def told (v : Values kind) (x : Var) : String :=
  match kind x, v.get x with
  | .text, value => value
  | .int, value => toString (show ℤ from value)
  | .bool, value => toString (show Bool from value)

def mongoUri (v : Values kind) : String := v.get .mongoUri

/-- `Configuration::str`; none where the constructor of `mongocxx::uri` throws. -/
def str (parseUri : String → Option MongoUri) (v : Values kind) : Option String :=
  let uri : Option String :=
    if mongoUri v = "" then some ""
    else (parseUri (mongoUri v)).map fun u => u.str (mongoUri v)
  uri.map fun moss =>
    "\x7b\"key\": \"" ++ told v .key ++
    "\", \"region\": \"" ++ told v .region ++
    "\", \"bucket\": \"" ++ told v .bucket ++
    "\", \"cacheDir\": \"" ++ told v .cacheDir ++
    "\", \"cacheTTL\": " ++ told v .ttl ++
    ", \"port\": " ++ told v .port ++
    ", \"threads\": " ++ told v .threads ++
    ", \"rejectQueryStrings\": \"" ++ told v .rejectQueryStrings ++
    "\", \"logLevel\": \"" ++ told v .logLevel ++
    "\", \"mmdb\": \x7b\"host\": \"" ++ told v .mmdbHost ++
    "\", \"port\": " ++ told v .mmdbPort ++ "\x7d" ++
    ", \"ilp\": \x7b\"host\": \"" ++ told v .ilpHost ++
    "\", \"series\": \"" ++ told v .ilpSeries ++
    -- the source writes the host where the port belongs
    "\", \"port\": " ++ told v .ilpHost ++ "\x7d" ++
    ", \"mongo\": \x7b\"uri\": \"" ++ moss ++
    "\", \"database\": \"" ++ told v .mongoDatabase ++
    "\", \"collection\": \"" ++ told v .mongoCollection ++ "\"\x7d\x7d"

/-- What `main` writes to the standard output before it starts. -/
def greeting (parseUri : String → Option MongoUri) (v : Values kind) : Option String :=
  (str parseUri v).map fun config =>
    "Starting daemon with options\nconfiguration: " ++ config ++ "\nconsole: " ++
      told v .console ++ "\ndir: " ++ told v .dir ++ "\n"

/-- The level that `main` sets; with another text it stays at its initial value. -/
def levelOf (logLevel : String) : Log.LogLevel :=
  if logLevel = "debug" then .debug
  else if logLevel = "info" then .info
  else if logLevel = "warn" then .warn
  else if logLevel = "critical" then .crit
  else .debug

/-- How `main` goes on after the command line. -/
inductive Outcome
  | failed (message : List Char)
  | help
  /-- An exception that nothing catches. -/
  | terminated
  | started (text : String) (v : Values kind) (level : Log.LogLevel)

/-- `main`. -/
def main (parseUri : String → Option MongoUri) (args : List (List Char))
    (hardwareConcurrency : ℤ) : Outcome :=
  match Parser.parse options args (defaults hardwareConcurrency) with
  | .error e => .failed ("Error in command line: ".toList ++ e.message)
  | .ok v =>
      if v.help then .help
      else
        match greeting parseUri v with
        | none => .terminated
        | some text => .started text v (levelOf (v.get .logLevel))

variable {parseUri : String → Option MongoUri}

/-- Only the MongoDB URI can keep the configuration from being told. -/
lemma greeting_eq_none_iff {v : Values kind} :
    greeting parseUri v = none ↔ mongoUri v ≠ "" ∧ parseUri (mongoUri v) = none := by
  unfold greeting str
  rw [Option.map_eq_none_iff, Option.map_eq_none_iff]
  by_cases huri : mongoUri v = ""
  · simp [huri]
  · rw [if_neg huri, Option.map_eq_none_iff]
    exact ⟨fun h => ⟨huri, h⟩, And.right⟩

/-- Neither the secret of the account nor the token of the management API is told. -/
lemma greeting_of_eq_off_secrets {v w : Values kind}
    (h : ∀ x, x ≠ .secret → x ≠ .authKey → v.get x = w.get x) :
    greeting parseUri v = greeting parseUri w := by
  have htold (x : Var) (hsecret : x ≠ .secret) (hkey : x ≠ .authKey) : told v x = told w x := by
    rw [told, told, h x hsecret hkey]
  have huri : mongoUri v = mongoUri w := h .mongoUri (by decide) (by decide)
  unfold greeting str
  rw [huri]
  simp (disch := decide) only [htold]

lemma main_of_error {args : List (List Char)} {n : ℤ} {e : Error}
    (h : Parser.parse options args (defaults n) = .error e) :
    main parseUri args n = .failed ("Error in command line: ".toList ++ e.message) := by
  rw [main, h]

lemma main_of_ok {args : List (List Char)} {n : ℤ} {v : Values kind}
    (h : Parser.parse options args (defaults n) = .ok v) :
    main parseUri args n =
      if v.help then .help
      else
        match greeting parseUri v with
        | none => .terminated
        | some text => .started text v (levelOf (v.get .logLevel)) := by
  rw [main, h]

lemma table : Table options where
  named := by decide
  wellNamed o ho name hname := by
    have hdash : ∀ o ∈ options, ∀ name ∈ o.names, name.head? = some '-' := by decide
    have hall : options.all fun o => o.names.all fun name => !name.any isDelimiter := by decide
    have hwhole : ∀ c ∈ name, isDelimiter c = false := by
      have hname' := List.all_eq_true.mp (List.all_eq_true.mp hall o ho) name hname
      simpa using hname'
    have hsingle : ∀ o ∈ options, ∀ name ∈ o.names,
        name.tail.head? = some '-' ∨ name.length ≤ 2 := by decide
    exact ⟨hdash o ho name hname, hwhole, hsingle o ho name hname⟩
  disjoint := by decide

lemma ref_injOn : ∀ o ∈ options, ∀ o' ∈ options, o.ref = o'.ref → o = o' := by decide

lemma x_nodup {bs : List (Setting options kind)} (h : (bs.map Setting.opt).Nodup) :
    (bs.map Setting.x).Nodup := by
  have hrefs : ((bs.map Setting.opt).map Opt.ref).Nodup := by
    refine h.map_on fun o ho o' ho' heq => ?_
    obtain ⟨b, -, rfl⟩ := List.mem_map.mp ho
    obtain ⟨b', -, rfl⟩ := List.mem_map.mp ho'
    exact ref_injOn _ b.mem _ b'.mem heq
  have hvalues : (bs.map Setting.opt).map Opt.ref = (bs.map Setting.x).map BoundRef.value := by
    rw [List.map_map, List.map_map]
    exact List.map_congr_left fun b _ => b.ref
  rw [hvalues] at hrefs
  exact hrefs.of_map _

/-- The values after a sequence of settings. -/
lemma eq_assign_iff {bs : List (Setting options kind)} (h : (bs.map Setting.opt).Nodup)
    {v w : Values kind} :
    w = assign bs v ↔
      w.help = v.help ∧ (∀ b ∈ bs, w.get b.x = b.value) ∧
        ∀ x, (∀ b ∈ bs, b.x ≠ x) → w.get x = v.get x := by
  constructor
  · rintro rfl
    exact ⟨assign_help bs v, fun b hb => assign_get_of_mem (x_nodup h) hb v,
      fun x hx => assign_get_of_forall_ne hx v⟩
  · rintro ⟨hhelp, hset, hother⟩
    refine Values.ext_get (hhelp.trans (assign_help bs v).symm) fun x => ?_
    by_cases hx : ∃ b ∈ bs, b.x = x
    · obtain ⟨b, hb, rfl⟩ := hx
      rw [hset b hb, assign_get_of_mem (x_nodup h) hb]
    · push Not at hx
      rw [hother x hx, assign_get_of_forall_ne hx]

/-- The arguments are settings of different options, each written as one argument or as two, and
each variable has the value of its setting, or else its default. -/
def Sets (args : List (List Char)) (n : ℤ) (v : Values kind) : Prop :=
  ∃ (bs : List (Setting options kind)) (groups : List (List (List Char))),
    (bs.map Setting.opt).Nodup ∧ List.Forall₂ Setting.Writes bs groups ∧
    (args.filter fun arg => arg ≠ []) = groups.flatten ∧
    v.help = false ∧ (∀ b ∈ bs, v.get b.x = b.value) ∧
    ∀ x, (∀ b ∈ bs, b.x ≠ x) → v.get x = (defaults n).get x

/-- What the parser makes of settings alone. -/
lemma parse_eq_ok_iff_sets {args : List (List Char)} {n : ℤ} {v : Values kind} :
    Parser.parse options args (defaults n) = .ok v ∧ v.help = false ↔ Sets args n v := by
  rw [Parser.parse_eq_ok_iff table]
  constructor
  · rintro ⟨⟨bs, groups, last, hnodup, hgroups, hargs, hlast⟩, hhelp⟩
    rcases hlast with ⟨rfl, hv⟩ | ⟨-, rfl⟩
    · obtain ⟨-, hset, hother⟩ := (eq_assign_iff hnodup).mp hv
      rw [List.append_nil] at hargs
      exact ⟨bs, groups, hnodup, hgroups, hargs, hhelp, hset, hother⟩
    · cases hhelp
  · rintro ⟨bs, groups, hnodup, hgroups, hargs, hhelp, hset, hother⟩
    have hv : v = assign bs (defaults n) := (eq_assign_iff hnodup).mpr ⟨hhelp, hset, hother⟩
    refine ⟨⟨bs, groups, [], hnodup, hgroups, ?_, .inl ⟨rfl, hv⟩⟩, hhelp⟩
    rw [List.append_nil]
    exact hargs

/-- **The proxy starts** exactly when the command line consists of settings and what they give can
be told; **an exception ends it** exactly when the settings give a MongoDB URI that is none. -/
theorem started_iff (parseUri : String → Option MongoUri) (args : List (List Char)) (n : ℤ) :
    (∀ text v level, main parseUri args n = .started text v level ↔
      Sets args n v ∧ greeting parseUri v = some text ∧ level = levelOf (v.get .logLevel)) ∧
    (main parseUri args n = .terminated ↔
      ∃ v, Sets args n v ∧ mongoUri v ≠ "" ∧ parseUri (mongoUri v) = none) := by
  simp only [← parse_eq_ok_iff_sets, ← greeting_eq_none_iff]
  cases hparse : Parser.parse options args (defaults n) with
  | error e => simp [main_of_error hparse]
  | ok w =>
      rw [main_of_ok hparse]
      cases hhelp : w.help with
      | true =>
          simp only [if_true, reduceCtorEq, Except.ok.injEq, false_iff]
          constructor
          · rintro text v level ⟨⟨rfl, hv⟩, -, -⟩
            exact absurd (hhelp.symm.trans hv) (by decide)
          · rintro ⟨v, ⟨rfl, hv⟩, -⟩
            exact absurd (hhelp.symm.trans hv) (by decide)
      | false =>
          cases htext : greeting parseUri w with
          | none =>
              simp only [Bool.false_eq_true, if_false, reduceCtorEq, Except.ok.injEq, false_iff,
                true_iff]
              constructor
              · rintro text v level ⟨⟨rfl, -⟩, hv, -⟩
                exact absurd (htext.symm.trans hv) (by simp)
              · exact ⟨w, ⟨rfl, hhelp⟩, htext⟩
          | some told =>
              simp only [Bool.false_eq_true, if_false, Outcome.started.injEq, reduceCtorEq,
                Except.ok.injEq, false_iff]
              constructor
              · intro text v level
                constructor
                · rintro ⟨rfl, rfl, rfl⟩
                  exact ⟨⟨rfl, hhelp⟩, htext, rfl⟩
                · rintro ⟨⟨rfl, -⟩, hv, rfl⟩
                  exact ⟨Option.some.inj (htext.symm.trans hv), rfl, rfl⟩
              · rintro ⟨v, ⟨rfl, -⟩, hv⟩
                exact absurd (htext.symm.trans hv) (by simp)

/-- **The proxy does not start** with the help exactly when an option that shows it is the first
thing after some settings; and it fails exactly where the settings end otherwise, with the error of
that place. -/
theorem help_iff_and_failed_iff (parseUri : String → Option MongoUri) (args : List (List Char))
    (n : ℤ) (message : List Char) :
    (main parseUri args n = .help ↔
      ∃ (bs : List (Setting options kind)) (groups : List (List (List Char)))
        (arg : List Char) (last : List (List Char)),
        (bs.map Setting.opt).Nodup ∧ List.Forall₂ Setting.Writes bs groups ∧
        (args.filter fun arg => arg ≠ []) = groups.flatten ++ arg :: last ∧
        AsksHelp options arg) ∧
    (main parseUri args n = .failed message ↔
      ∃ (bs : List (Setting options kind)) (rest : List Token) (e : Error),
        (bs.map Setting.opt).Nodup ∧
        args.flatMap tokensOf = bs.flatMap Setting.tokens ++ rest ∧
        Stops (options.diff (bs.map Setting.opt)) rest (assign bs (defaults n)) (.error e) ∧
        message = "Error in command line: ".toList ++ e.message) := by
  constructor
  · have hhelp : main parseUri args n = .help ↔
        ∃ v, Parser.parse options args (defaults n) = .ok v ∧ v.help = true := by
      cases hparse : Parser.parse options args (defaults n) with
      | error e => simp [main_of_error hparse]
      | ok w =>
          rw [main_of_ok hparse]
          cases hw : w.help <;> cases greeting parseUri w <;> simp [hw]
    rw [hhelp]
    constructor
    · rintro ⟨v, hparse, hv⟩
      obtain ⟨bs, groups, last, hnodup, hgroups, hargs, hlast⟩ :=
        (Parser.parse_eq_ok_iff table args _ _).mp hparse
      rcases hlast with ⟨-, rfl⟩ | ⟨⟨arg, hhead, harg⟩, -⟩
      · rw [assign_help] at hv
        cases hv
      · match last with
        | [] => cases hhead
        | a :: last =>
            cases hhead
            exact ⟨bs, groups, arg, last, hnodup, hgroups, hargs, harg⟩
    · rintro ⟨bs, groups, arg, last, hnodup, hgroups, hargs, harg⟩
      exact ⟨_, (Parser.parse_eq_ok_iff table args _ _).mpr
        ⟨bs, groups, _, hnodup, hgroups, hargs, .inr ⟨⟨arg, rfl, harg⟩, rfl⟩⟩, rfl⟩
  · have hfailed : main parseUri args n = .failed message ↔
        ∃ e, Parser.parse options args (defaults n) = .error e ∧
          message = "Error in command line: ".toList ++ e.message := by
      cases hparse : Parser.parse options args (defaults n) with
      | error e => simp [main_of_error hparse, eq_comm]
      | ok w =>
          rw [main_of_ok hparse]
          cases w.help <;> cases greeting parseUri w <;> simp
    rw [hfailed]
    simp only [Parser.parse_eq_iff table]
    constructor
    · rintro ⟨e, ⟨bs, rest, hnodup, htokens, hstops⟩, hmessage⟩
      exact ⟨bs, rest, e, hnodup, htokens, hstops, hmessage⟩
    · rintro ⟨bs, rest, e, hnodup, htokens, hstops, hmessage⟩
      exact ⟨e, ⟨bs, rest, hnodup, htokens, hstops⟩, hmessage⟩

/-! ### Writing a command line -/

/-- The arguments that give a variable its value. -/
inductive Written (w : Values kind) (x : Var) : List (List Char) → Prop
  | separate {o : Opt Var} {name : List Char} (mem : o ∈ options) (ref : o.ref = .value x)
      (named : name ∈ o.names) (h : IsArgument ((kind x).write (w.get x))) :
      Written w x [name, (kind x).write (w.get x)]
  | joined {o : Opt Var} {name : List Char} (mem : o ∈ options) (ref : o.ref = .value x)
      (named : name ∈ o.names) {d : Char} (h : isDelimiter d) :
      Written w x [name ++ d :: (kind x).write (w.get x)]

lemma Written.exists_setting {w : Values kind} {x : Var} {group : List (List Char)}
    (h : Written w x group) (hfits : (kind x).Fits (w.get x)) :
    ∃ b : Setting options kind, b.x = x ∧ b.Writes group ∧ b.value ≍ w.get x := by
  cases h with
  | separate mem ref named h =>
      exact ⟨⟨_, mem, x, ref, _, named, _, _, convertInto_write hfits⟩, rfl, .separate h, .rfl⟩
  | joined mem ref named h =>
      exact ⟨⟨_, mem, x, ref, _, named, _, _, convertInto_write hfits⟩, rfl, .joined _ h, .rfl⟩

lemma exists_settings {w : Values kind} (hfits : ∀ x, (kind x).Fits (w.get x)) {xs : List Var}
    {groups : List (List (List Char))} (h : List.Forall₂ (Written w) xs groups) :
    ∃ bs : List (Setting options kind), bs.map Setting.x = xs ∧
      List.Forall₂ Setting.Writes bs groups ∧ ∀ b ∈ bs, b.value = w.get b.x := by
  induction h with
  | nil => exact ⟨[], rfl, .nil, by simp⟩
  | @cons x group xs groups hx _ ih =>
      obtain ⟨bs, hbs, hgroups, hvalues⟩ := ih
      obtain ⟨b, rfl, hb, hvalue⟩ := hx.exists_setting (hfits x)
      refine ⟨b :: bs, by rw [List.map_cons, hbs], .cons hb hgroups, fun b' hb' => ?_⟩
      rcases List.mem_cons.mp hb' with rfl | hb'
      · exact eq_of_heq hvalue
      · exact hvalues b' hb'

/-- **Values that are written on a command line are those that the proxy starts with**: any of the
variables, in any order and form, if the driver takes the MongoDB URI among them. -/
theorem started_of_written {w : Values kind} (hfits : ∀ x, (kind x).Fits (w.get x))
    {xs : List Var} (hxs : xs.Nodup) {groups : List (List (List Char))}
    (hgroups : List.Forall₂ (Written w) xs groups) {args : List (List Char)}
    (hargs : (args.filter fun arg => arg ≠ []) = groups.flatten)
    {parseUri : String → Option MongoUri}
    (huri : .mongoUri ∈ xs → mongoUri w ≠ "" → (parseUri (mongoUri w)).isSome) (n : ℤ) :
    ∃ text v level, main parseUri args n = .started text v level ∧
      (∀ x ∈ xs, v.get x = w.get x) ∧ (∀ x ∉ xs, v.get x = (defaults n).get x) ∧
      greeting parseUri v = some text ∧ level = levelOf (v.get .logLevel) := by
  obtain ⟨bs, hbs, hwrites, hvalues⟩ := exists_settings hfits hgroups
  have hnodup : (bs.map Setting.opt).Nodup := by
    have hrefs : ((bs.map Setting.opt).map Opt.ref).Nodup := by
      have hmap : (bs.map Setting.opt).map Opt.ref = xs.map BoundRef.value := by
        rw [← hbs, List.map_map, List.map_map]
        exact List.map_congr_left fun b _ => b.ref
      rw [hmap]
      exact hxs.map fun _ _ h => BoundRef.value.inj h
    exact hrefs.of_map _
  have hsets : Sets args n (assign bs (defaults n)) :=
    ⟨bs, groups, hnodup, hwrites, hargs, assign_help bs _, ((eq_assign_iff hnodup).mp rfl).2⟩
  have hset : ∀ x ∈ xs, (assign bs (defaults n)).get x = w.get x := by
    intro x hx
    rw [← hbs] at hx
    obtain ⟨b, hb, rfl⟩ := List.mem_map.mp hx
    rw [assign_get_of_mem (x_nodup hnodup) hb, hvalues b hb]
  have hother : ∀ x ∉ xs, (assign bs (defaults n)).get x = (defaults n).get x := by
    intro x hx
    refine assign_get_of_forall_ne (fun b hb heq => hx ?_) _
    rw [← hbs, ← heq]
    exact List.mem_map_of_mem hb
  cases htext : greeting parseUri (assign bs (defaults n)) with
  | none =>
      obtain ⟨hne, hnone⟩ := greeting_eq_none_iff.mp htext
      by_cases hx : Var.mongoUri ∈ xs
      · have hw : mongoUri (assign bs (defaults n)) = mongoUri w := hset .mongoUri hx
        rw [hw] at hne hnone
        have hsome := huri hx hne
        rw [hnone] at hsome
        cases hsome
      · exact absurd (hother .mongoUri hx) hne
  | some text =>
      exact ⟨text, _, _, ((started_iff parseUri args n).1 _ _ _).mpr ⟨hsets, htext, rfl⟩, hset,
        hother, htext, rfl⟩

/-- The defaults, with a port, a secret and a MongoDB URI. -/
def sampleValues : Values kind :=
  (((defaults 4).set .port (8443 : ℤ)).set .secret "x=y z").set .mongoUri
    "mongodb://proxy@mongo/?tls=true"

/-- What the driver makes of that URI. -/
def sampleUri (uri : String) : Option MongoUri :=
  if uri = "mongodb://proxy@mongo/?tls=true" then some ⟨[("mongo", 27017)], ""⟩ else none

theorem started_of_written_portSecretAndUri :
    ∃ text v level,
      main sampleUri ["-s".toList, "x=y z".toList, [], "--port:8443".toList, "--mongo-uri".toList,
        "mongodb://proxy@mongo/?tls=true".toList] 4 = .started text v level ∧
      v.get .port = (8443 : ℤ) ∧ v.get .secret = "x=y z" ∧ v.get .ttl = (300 : ℤ) ∧
      mongoUri v = "mongodb://proxy@mongo/?tls=true" ∧ level = .info := by
  have hfits : ∀ x, (kind x).Fits (sampleValues.get x) := by
    intro x
    cases x <;> decide
  have hsecret : Written sampleValues .secret ["-s".toList, "x=y z".toList] :=
    .separate (o := opt .secret "-s" "--secret") (by decide) rfl (by decide)
      ⟨by decide, by decide⟩
  have hport : Written sampleValues .port ["--port:8443".toList] :=
    .joined (o := opt .port "-p" "--port") (by decide) rfl (.tail _ (.head _)) (d := ':') rfl
  have huri : Written sampleValues .mongoUri
      ["--mongo-uri".toList, "mongodb://proxy@mongo/?tls=true".toList] :=
    .separate (o := opt .mongoUri "-f" "--mongo-uri") (by decide) rfl (by decide)
      ⟨by decide, by decide⟩
  have hnodup : [Var.secret, Var.port, Var.mongoUri].Nodup := by decide
  have hargs : (["-s".toList, "x=y z".toList, [], "--port:8443".toList, "--mongo-uri".toList,
      "mongodb://proxy@mongo/?tls=true".toList].filter fun arg => arg ≠ []) =
      [["-s".toList, "x=y z".toList], ["--port:8443".toList],
        ["--mongo-uri".toList, "mongodb://proxy@mongo/?tls=true".toList]].flatten := by
    decide
  have htaken : Var.mongoUri ∈ [Var.secret, Var.port, Var.mongoUri] →
      mongoUri sampleValues ≠ "" → (sampleUri (mongoUri sampleValues)).isSome := fun _ _ => rfl
  obtain ⟨text, v, level, hmain, hset, hother, -, hlevel⟩ :=
    started_of_written hfits hnodup (.cons hsecret (.cons hport (.cons huri .nil))) hargs htaken 4
  refine ⟨text, v, level, hmain, hset .port (by decide), hset .secret (by decide),
    hother .ttl (by decide), hset .mongoUri (by decide), ?_⟩
  rw [hlevel, hother .logLevel (by decide)]
  rfl

end Main

end S3Proxy
