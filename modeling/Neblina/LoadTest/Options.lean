import Neblina.LoadTest.Getopt

/-!
# `LoadTest.Options` — the command line of the load test

`parse_args` asks `ya_getopt_long` for one option after the other. What it makes of a command line is what
`interpret` makes of the options in it (`parse_args_means`): the scanner's state and the words it moves do not
show.

`--run-server` is declared with `required_argument`, unlike `-r` and unlike what the help says: it takes the next
word for itself, and as the last word it does nothing (`run_server_takes_a_word`).
-/

namespace Neblina

namespace LoadTest

open YaGetopt

inductive ClientType where
  | none
  | tcp
  | ssl
  deriving DecidableEq, Repr

structure Config where
  clientType : ClientType := .none
  nAttempts  : Nat := 1
  nThreads   : Nat := 1
  runServer  : Bool := false
  deriving DecidableEq, Repr

/-- The places where `parse_args` ends the program, all with `EXIT_FAILURE`: also `show_help`, so that the
    `EXIT_SUCCESS` behind it is never reached. -/
inductive Goodbye where
  | onlyOne
  | help
  | required
  deriving DecidableEq, Repr

/-- What is printed to `stderr`. -/
def Goodbye.text : Goodbye → String
  | .onlyOne => "Only one of --tcp or --ssl may be specified\n"
  | .required => "Error: one of --tcp or --ssl is required\n"
  | .help =>
      "Usage: neblina-load-test [--tcp|--ssl] [--attempts N] [--threads N] [--run-server]\n" ++
      "  -t, --tcp          Use TCP client\n" ++
      "  -s, --ssl          Use SSL client\n" ++
      "  -a, --attempts     Number of attempts (default 1)\n" ++
      "  -n, --threads      Number of threads  (default 1)\n" ++
      "  -r, --run-server   Execute server\n"

/-- `isspace` in the C locale. -/
def isSpace (c : Char) : Bool := c ∈ [' ', '\t', '\n', '\x0b', '\x0c', '\r']

/-- The number the first digits of a string stand for. -/
def digits (s : Word) : Nat := (s.takeWhile Char.isDigit).foldl (fun n c => 10 * n + (c.toNat - '0'.toNat)) 0

def ullongMax : Nat := 18446744073709551615

/-- A number that fits, negated modulo `2^64` behind a minus sign; one that does not is `ULLONG_MAX` with either
    sign. -/
def ranged (negative : Bool) (n : Nat) : Nat :=
  if ullongMax < n then ullongMax
  else if negative ∧ n ≠ 0 then ullongMax + 1 - n
  else n

/-- `strtoull(s, nullptr, 10)`. -/
def strtoull (s : Word) : Nat :=
  match s.dropWhile isSpace with
  | '-' :: s => ranged true (digits s)
  | '+' :: s => ranged false (digits s)
  | s => ranged false (digits s)

/-- `"tsa:n:rh"` and `long_opts`. -/
def options (posixEnv : Bool) : Table where
  optstring := "tsa:n:rh".toList
  longopts  :=
    [⟨"tcp".toList, .noArgument, 't'⟩, ⟨"ssl".toList, .noArgument, 's'⟩,
      ⟨"attempts".toList, .requiredArgument, 'a'⟩, ⟨"threads".toList, .requiredArgument, 'n'⟩,
      ⟨"run-server".toList, .requiredArgument, 'r'⟩, ⟨"help".toList, .noArgument, 'h'⟩]
  posixEnv  := posixEnv

namespace Config

/-- `-t` and `-s`. -/
def choose (cfg : Config) (type : ClientType) : Except Goodbye Config :=
  if cfg.clientType ≠ .none then .error .onlyOne else .ok { cfg with clientType := type }

/-- The `switch` of `parse_args`, on the option and `optarg`; `none` is a null pointer handed to `strtoull`. -/
def take (cfg : Config) (e : Event) : Option (Except Goodbye Config) :=
  match e.opt with
  | 't' => some (cfg.choose .tcp)
  | 's' => some (cfg.choose .ssl)
  | 'a' => e.optarg.map fun s => .ok { cfg with nAttempts := strtoull s }
  | 'n' => e.optarg.map fun s => .ok { cfg with nThreads := strtoull s }
  | 'r' => some (.ok { cfg with runServer := true })
  | '?' => some (.ok cfg)
  | _ => some (.error .help)

end Config

/-- How `parse_args` ends, `running` apart: then the number of calls was too small. -/
inductive Parsed where
  | config (cfg : Config)
  | exits (bye : Goodbye)
  | running
  deriving DecidableEq, Repr

/-- Behind the loop of `parse_args`. -/
def Config.checked (cfg : Config) : Parsed :=
  if cfg.clientType = .none then .exits .required else .config cfg

/-- The loop of `parse_args`, with at most `n` calls of `getopt_long`; `none` is a read outside of `argv` or
    through a null pointer. -/
def parseLoop (T : Table) : Nat → Config → State → Option (Parsed × State)
  | 0, _, g => some (.running, g)
  | n + 1, cfg, g =>
      match getoptLong T g with
      | none => none
      | some (none, g) => some (cfg.checked, g)
      | some (some e, g) =>
          match cfg.take e with
          | none => none
          | some (.error bye) => some (.exits bye, g)
          | some (.ok cfg) => parseLoop T n cfg g

/-- `parse_args`. -/
def parseArgs (posixEnv : Bool) (calls : Nat) (argv : List Word) : Option (Parsed × State) :=
  parseLoop (options posixEnv) calls {} (State.init argv)

/-! ## What the options mean -/

/-- The argument of an option as a number. -/
def value (e : Event) : Nat := strtoull (e.optarg.getD [])

/-- An option that is known. -/
def Config.apply (cfg : Config) (e : Event) : Except Goodbye Config :=
  match e.opt with
  | 't' => cfg.choose .tcp
  | 's' => cfg.choose .ssl
  | 'a' => .ok { cfg with nAttempts := value e }
  | 'n' => .ok { cfg with nThreads := value e }
  | 'r' => .ok { cfg with runServer := true }
  | '?' => .ok cfg
  | _ => .error .help

/-- What `parse_args` makes of the options of a command line. -/
def interpret : Config → List Event → Parsed
  | cfg, [] => cfg.checked
  | cfg, e :: es =>
      match cfg.apply e with
      | .ok cfg => interpret cfg es
      | .error bye => .exits bye

/-- The options with a number have one. -/
def Numbered (e : Event) : Prop := e.opt = 'a' ∨ e.opt = 'n' → e.optarg.isSome

theorem Config.take_eq {e : Event} (h : Numbered e) (cfg : Config) : cfg.take e = some (cfg.apply e) := by
  unfold Numbered at h
  unfold Config.take Config.apply value
  split
  · rfl
  · rfl
  · next ha =>
      obtain ⟨s, hs⟩ := Option.isSome_iff_exists.mp (h (Or.inl ha))
      rw [hs]
      rfl
  · next hn =>
      obtain ⟨s, hs⟩ := Option.isSome_iff_exists.mp (h (Or.inr hn))
      rw [hs]
      rfl
  · rfl
  · rfl
  · rfl

/-! ## The numbers are there -/

variable {posixEnv : Bool} {name : Word}

theorem letters_numbered (posixEnv : Bool) {opt : Char} (h : opt = 'a' ∨ opt = 'n') :
    ∃ os, (options posixEnv).letters.dropWhile (· ≠ opt) = opt :: ':' :: os ∧ os.head? ≠ some ':' := by
  rcases h with rfl | rfl
  · exact ⟨_, rfl, by decide⟩
  · exact ⟨_, rfl, by decide⟩

theorem missing_numbered (posixEnv : Bool) :
    ¬ (missing (options posixEnv) = 'a' ∨ missing (options posixEnv) = 'n') := by
  show ¬ ('?' = 'a' ∨ '?' = 'n')
  decide

theorem longopts_numbered : ∀ o ∈ (options posixEnv).longopts, o.val = 'a' ∨ o.val = 'n' →
    o.hasArg = .requiredArgument := by
  show ∀ o ∈ (options false).longopts, o.val = 'a' ∨ o.val = 'n' → o.hasArg = .requiredArgument
  decide

theorem findLong_mem {os : List LongOption} {arg : Word} {o : LongOption} {v : Option Word}
    (h : findLong os arg = some (o, v)) : o ∈ os := by
  induction os with
  | nil => cases h
  | cons o' os ih =>
      unfold findLong at h
      split at h
      · split at h
        · cases h
          exact List.mem_cons_self
        · cases h
          exact List.mem_cons_self
        · exact List.mem_cons_of_mem _ (ih h)
      · exact List.mem_cons_of_mem _ (ih h)

/-- An option without an argument is none of those with a number. -/
theorem numbered_of_ne {opt : Char} (h : ¬ (opt = 'a' ∨ opt = 'n')) (error : Option Word) :
    Numbered ⟨opt, none, error⟩ := fun hopt => absurd hopt h

theorem numbered_some (opt : Char) (s : Word) : Numbered ⟨opt, some s, none⟩ := fun _ => rfl

/-- The options of a word that are complete, and the error if the last one is not. -/
def ReadingNumbered (r : Reading) : Prop := (∀ e ∈ r.1, Numbered e) ∧ ∀ opt m, r.2 = some (opt, m) → Numbered m

theorem readingNumbered_single {e : Event} (h : Numbered e) : ReadingNumbered ([e], none) :=
  ⟨by simpa using h, fun _ _ hm => nomatch hm⟩

theorem readingNumbered_pending {opt : Char} {m : Event} (h : Numbered m) : ReadingNumbered ([], some (opt, m)) := by
  refine ⟨fun e he => absurd he List.not_mem_nil, ?_⟩
  rintro _ _ ⟨⟩
  exact h

theorem cluster_numbered (rest : Word) : ReadingNumbered (cluster (options posixEnv) name rest) := by
  induction rest with
  | nil => exact ⟨fun e he => absurd he List.not_mem_nil, fun opt m h => nomatch h⟩
  | cons opt rest ih =>
      unfold cluster
      split
      · refine ⟨List.forall_mem_cons.mpr ⟨?_, ih.1⟩, ih.2⟩
        exact numbered_of_ne (by decide) _
      · next os hos =>
          split
          · split
            · next hhead =>
                apply readingNumbered_single
                apply numbered_of_ne
                intro hopt
                obtain ⟨os', hos', hne⟩ := letters_numbered posixEnv hopt
                rw [hos'] at hos
                cases hos
                exact hne hhead
            · exact readingNumbered_pending (numbered_of_ne (missing_numbered posixEnv) _)
          · exact readingNumbered_single (numbered_some opt rest)
      · next hnone hcolon =>
          refine ⟨List.forall_mem_cons.mpr ⟨?_, ih.1⟩, ih.2⟩
          apply numbered_of_ne
          intro hopt
          obtain ⟨os', hos', _⟩ := letters_numbered posixEnv hopt
          exact hcolon _ _ hos'

theorem long_numbered (word : Word) : ReadingNumbered (long (options posixEnv) name word) := by
  unfold long
  split
  · exact readingNumbered_single (numbered_of_ne (by decide) _)
  · next o hfind =>
      split
      · exact readingNumbered_pending (numbered_of_ne (missing_numbered posixEnv) _)
      · next hreq =>
          apply readingNumbered_single
          apply numbered_of_ne
          intro hval
          exact hreq (longopts_numbered o (findLong_mem hfind) hval)
  · next o val hfind =>
      split
      · exact readingNumbered_single (numbered_of_ne (by decide) _)
      · exact readingNumbered_single (numbered_some o.val val)

theorem reading_numbered (posixEnv : Bool) (name word : Word) : ReadingNumbered (reading (options posixEnv) name word) := by
  unfold reading
  split
  · exact long_numbered word
  · exact cluster_numbered _

theorem scan_numbered (ws : List Word) : ∀ e ∈ scan (options posixEnv) name ws, Numbered e := by
  fun_induction scan (options posixEnv) name ws with
  | case1 => exact fun e he => absurd he List.not_mem_nil
  | case2 => exact fun e he => absurd he List.not_mem_nil
  | case3 w ws _ _ ih ihNext =>
      obtain ⟨hcomplete, hmissing⟩ := reading_numbered posixEnv name w
      intro e he
      rcases List.mem_append.mp he with he | he
      · exact hcomplete e he
      · split at he
        · exact ih e he
        · next opt m hpending =>
            split at he
            · rw [List.mem_singleton.mp he]
              exact hmissing opt m hpending
            · rcases List.mem_cons.mp he with rfl | he
              · exact numbered_some opt _
              · exact ihNext e he
  | case4 w ws _ _ ih => exact List.forall_mem_cons.mpr ⟨numbered_some _ w, ih⟩
  | case5 => exact fun e he => absurd he List.not_mem_nil
  | case6 w ws _ _ _ ih => exact ih

/-! ## The whole command line -/

/-- The loop reads one option after the other: with enough calls it comes to the end of them. -/
theorem parseLoop_eq (es : List Event) : ∀ (n : Nat) (cfg : Config) (g : State),
    es.length < n → Inv (options posixEnv) name g → g.left (options posixEnv) name = es →
    (∀ e ∈ es, Numbered e) →
    ∃ g', parseLoop (options posixEnv) n cfg g = some (interpret cfg es, g') ∧ g'.argv.Perm g.argv := by
  induction es with
  | nil =>
      intro n cfg g hn hinv hleft _
      obtain ⟨n, rfl⟩ := Nat.exists_eq_succ_of_ne_zero (Nat.ne_of_gt hn)
      obtain ⟨r, g', hcall, hstep, hperm⟩ := getoptLong_step hinv
      rw [hleft] at hstep
      cases r with
      | some e => cases hstep.1
      | none =>
          refine ⟨g', ?_, hperm⟩
          rw [Nat.succ_eq_add_one, parseLoop, hcall]
          rfl
  | cons e es ih =>
      intro n cfg g hn hinv hleft hnumbered
      obtain ⟨hnum, hnums⟩ := List.forall_mem_cons.mp hnumbered
      obtain ⟨n, rfl⟩ := Nat.exists_eq_succ_of_ne_zero (Nat.ne_of_gt (Nat.lt_of_le_of_lt (Nat.zero_le _) hn))
      obtain ⟨r, g', hcall, hstep, hperm⟩ := getoptLong_step hinv
      rw [hleft] at hstep
      cases r with
      | none => cases hstep
      | some e' =>
          obtain ⟨hcons, hinv'⟩ := hstep
          obtain ⟨rfl, hes⟩ := List.cons.inj hcons
          rw [Nat.succ_eq_add_one, parseLoop, hcall]
          dsimp only
          rw [Config.take_eq hnum, interpret]
          cases happly : cfg.apply e with
          | error bye => exact ⟨g', rfl, hperm⟩
          | ok cfg' =>
              obtain ⟨g'', hloop, hperm'⟩ := ih n cfg' g' (Nat.lt_of_succ_lt_succ hn) hinv' hes.symm hnums
              exact ⟨g'', hloop, hperm'.trans hperm⟩

/-- **`parse_args` reads a command line from left to right.** For every command line, in any order of options
    and other words, and with and without `POSIXLY_CORRECT`: after at most one call of `getopt_long` for each
    option and one more, none of which reads a word outside of `argv`, and without handing a null pointer to
    `strtoull`, it ends with what the options in `scan` mean. `argv` is then a permutation of what it was. -/
theorem parse_args_means (posixEnv : Bool) (name : Word) (args : List Word) (n : Nat)
    (hn : (scan (options posixEnv) name args).length < n) :
    ∃ g, parseArgs posixEnv n (name :: args) = some (interpret {} (scan (options posixEnv) name args), g) ∧
      g.argv.Perm (name :: args) :=
  parseLoop_eq _ n {} (State.init (name :: args)) hn (inv_init _ rfl) rfl (scan_numbered args)

/-- `x -t y -a 3`: the other words are moved behind the options. -/
theorem parse_args_means_mixed :
    (scan (options false) "p".toList ["x".toList, "-t".toList, "y".toList, "-a".toList, "3".toList]).length < 3 ∧
      ∃ g, parseArgs false 3 ["p".toList, "x".toList, "-t".toList, "y".toList, "-a".toList, "3".toList] =
          some (.config ⟨.tcp, 3, 1, false⟩, g) ∧
        g.argv.Perm ["p".toList, "x".toList, "-t".toList, "y".toList, "-a".toList, "3".toList] := by
  have hn : (scan (options false) "p".toList ["x".toList, "-t".toList, "y".toList, "-a".toList, "3".toList]).length <
      3 := by decide
  have hmeans : interpret {} (scan (options false) "p".toList
      ["x".toList, "-t".toList, "y".toList, "-a".toList, "3".toList]) = .config ⟨.tcp, 3, 1, false⟩ := by decide
  obtain ⟨g, hparse, hperm⟩ := parse_args_means false _ _ 3 hn
  rw [hmeans] at hparse
  exact ⟨hn, g, hparse, hperm⟩

/-! ## Which command lines are accepted -/

/-- The client an option asks for. -/
def clientOf (e : Event) : Option ClientType :=
  match e.opt with
  | 't' => some .tcp
  | 's' => some .ssl
  | _ => none

/-- The number of the last option `opt`. -/
def latest (opt : Char) (default : Nat) (es : List Event) : Nat :=
  es.foldl (fun n e => if e.opt = opt then value e else n) default

/-- The client that was asked for before. -/
def Config.chosen (cfg : Config) : List ClientType := if cfg.clientType = .none then [] else [cfg.clientType]

/-- The options lead from `cfg` to `c`: each is known, or an error of `getopt_long`; with those before they ask
    for exactly one client; and of several numbers the last one counts. -/
def Accepts (cfg : Config) (es : List Event) (c : Config) : Prop :=
  (∀ e ∈ es, e.opt ∈ ['t', 's', 'a', 'n', 'r', '?']) ∧ cfg.chosen ++ es.filterMap clientOf = [c.clientType] ∧
    c.nAttempts = latest 'a' cfg.nAttempts es ∧ c.nThreads = latest 'n' cfg.nThreads es ∧
    c.runServer = (cfg.runServer || es.any fun e => e.opt = 'r')

theorem accepts_nil (cfg c : Config) : cfg.checked = .config c ↔ Accepts cfg [] c := by
  obtain ⟨type, nAttempts, nThreads, runServer⟩ := cfg
  obtain ⟨type', nAttempts', nThreads', runServer'⟩ := c
  cases type <;> simp [Config.checked, Accepts, Config.chosen, latest, eq_comm]

section Accepts

variable {cfg c : Config} {e : Event} {es : List Event}

/-- An option that leads from `cfg` to `cfg'`. -/
theorem accepts_cons {cfg' : Config} (hknown : e.opt ∈ ['t', 's', 'a', 'n', 'r', '?'])
    (hclient : cfg'.chosen = cfg.chosen ++ (clientOf e).toList)
    (ha : cfg'.nAttempts = if e.opt = 'a' then value e else cfg.nAttempts)
    (hn : cfg'.nThreads = if e.opt = 'n' then value e else cfg.nThreads)
    (hr : cfg'.runServer = (cfg.runServer || e.opt = 'r')) : Accepts cfg' es c ↔ Accepts cfg (e :: es) c := by
  have hclients : (clientOf e).toList ++ es.filterMap clientOf = (e :: es).filterMap clientOf := by
    cases hc : clientOf e <;> simp [hc]
  unfold Accepts latest
  rw [List.forall_mem_cons, hclient, ha, hn, hr, List.append_assoc, ← hclients, List.any_cons, ← Bool.or_assoc]
  exact ⟨fun ⟨h, hrest⟩ => ⟨⟨hknown, h⟩, hrest⟩, fun ⟨h, hrest⟩ => ⟨h.2, hrest⟩⟩

/-- A second client is refused. -/
theorem not_accepts_second (hchosen : cfg.clientType ≠ .none) {type : ClientType} (hclient : clientOf e = some type) :
    ¬ Accepts cfg (e :: es) c := by
  rintro ⟨_, hone, _⟩
  unfold Config.chosen at hone
  rw [if_neg hchosen, List.filterMap_cons_some hclient] at hone
  exact absurd (congrArg List.length hone) (by simp)

/-- `-t` and `-s` are accepted when no client was asked for before. -/
theorem accepts_choose {cfg' : Config} {type : ClientType} (hclient : clientOf e = some type) (htype : type ≠ .none)
    (hknown : e.opt = 't' ∨ e.opt = 's') (h : cfg.choose type = .ok cfg') :
    Accepts cfg' es c ↔ Accepts cfg (e :: es) c := by
  unfold Config.choose at h
  split at h
  · cases h
  · next hnone =>
      cases h
      have hchosen : cfg.chosen = [] := if_pos (by simpa using hnone)
      apply accepts_cons
      · rcases hknown with h | h <;> simp [h]
      · rw [hchosen, hclient]
        exact if_neg htype
      · rcases hknown with h | h <;> simp [h]
      · rcases hknown with h | h <;> simp [h]
      · rcases hknown with h | h <;> simp [h]

theorem accepts_of_apply_ok {cfg' : Config} (h : cfg.apply e = .ok cfg') :
    Accepts cfg' es c ↔ Accepts cfg (e :: es) c := by
  unfold Config.apply at h
  split at h
  · next hopt => exact accepts_choose (by simp [clientOf, hopt]) (by decide) (Or.inl hopt) h
  · next hopt => exact accepts_choose (by simp [clientOf, hopt]) (by decide) (Or.inr hopt) h
  · next hopt =>
      cases h
      apply accepts_cons <;> simp [hopt, clientOf, Config.chosen]
  · next hopt =>
      cases h
      apply accepts_cons <;> simp [hopt, clientOf, Config.chosen]
  · next hopt =>
      cases h
      apply accepts_cons <;> simp [hopt, clientOf, Config.chosen]
  · next hopt =>
      cases h
      apply accepts_cons <;> simp [hopt, clientOf]
  · cases h

theorem not_accepts_of_apply_error {bye : Goodbye} (h : cfg.apply e = .error bye) : ¬ Accepts cfg (e :: es) c := by
  have hchoose : ∀ type, cfg.choose type = .error bye → cfg.clientType ≠ .none := by
    intro type hc
    unfold Config.choose at hc
    split at hc
    · next hne => exact hne
    · cases hc
  unfold Config.apply at h
  split at h
  · next hopt =>
      have htcp : clientOf e = some .tcp := by simp [clientOf, hopt]
      exact not_accepts_second (hchoose _ h) htcp
  · next hopt =>
      have hssl : clientOf e = some .ssl := by simp [clientOf, hopt]
      exact not_accepts_second (hchoose _ h) hssl
  · cases h
  · cases h
  · cases h
  · cases h
  · next ht hs ha hn hr hq =>
      -- `-h`, and what else `getopt_long` can return
      rintro ⟨hknown, _⟩
      have hmem := hknown e List.mem_cons_self
      simp only [List.mem_cons, List.not_mem_nil, or_false] at hmem
      rcases hmem with h | h | h | h | h | h
      · exact ht h
      · exact hs h
      · exact ha h
      · exact hn h
      · exact hr h
      · exact hq h

end Accepts

theorem interpret_eq_config_iff (es : List Event) (c : Config) : ∀ cfg : Config,
    interpret cfg es = .config c ↔ Accepts cfg es c := by
  induction es with
  | nil =>
      intro cfg
      exact accepts_nil cfg c
  | cons e es ih =>
      intro cfg
      rw [interpret]
      cases happly : cfg.apply e with
      | ok cfg' => exact (ih cfg').trans (accepts_of_apply_ok happly)
      | error bye => exact iff_of_false (by simp) (not_accepts_of_apply_error happly)

/-- **Which command lines the load test accepts.** It starts with the configuration `c` if and only if every
    option on the command line is one of its own other than `-h` and `--help`, or an error of `getopt_long`,
    which is ignored; exactly one of them asks for a client; and `c` has that client, the last number of each
    kind, and the server if `-r` or `--run-server` is among them. -/
theorem parse_args_accepts_iff (posixEnv : Bool) (name : Word) (args : List Word) (n : Nat)
    (hn : (scan (options posixEnv) name args).length < n) (c : Config) :
    (∃ g, parseArgs posixEnv n (name :: args) = some (.config c, g)) ↔
      Accepts {} (scan (options posixEnv) name args) c := by
  obtain ⟨g, hparse, _⟩ :=
    parseLoop_eq _ n {} (State.init (name :: args)) hn (inv_init _ rfl) rfl (scan_numbered args)
  rw [← interpret_eq_config_iff]
  unfold parseArgs
  rw [hparse]
  constructor
  · rintro ⟨g', h⟩
    exact congrArg Prod.fst (Option.some.inj h)
  · intro h
    rw [h]
    exact ⟨g, rfl⟩

/-- `-s --threads 2 -zn4` is accepted, with the error about `-z` ignored; with `-t` and `-s` nothing is. -/
theorem parse_args_accepts_iff_last_number :
    (∃ g, parseArgs false 5 ["p".toList, "-s".toList, "--threads".toList, "2".toList, "-zn4".toList] =
        some (.config ⟨.ssl, 1, 4, false⟩, g)) ∧
      ∀ c, ¬ ∃ g, parseArgs false 5 ["p".toList, "-t".toList, "-s".toList] = some (.config c, g) := by
  refine ⟨?_, ?_⟩
  · apply (parse_args_accepts_iff false _ _ 5 (by decide) _).mpr
    unfold Accepts
    decide
  · intro c hparse
    obtain ⟨_, hone, _⟩ := (parse_args_accepts_iff false _ _ 5 (by decide) c).mp hparse
    have htwo : (2 : Nat) = [c.clientType].length := congrArg List.length hone
    cases htwo

/-! ## `--run-server` -/

/-- How `parse_args` ends. -/
def outcome (posixEnv : Bool) (n : Nat) (argv : List Word) : Option Parsed := (parseArgs posixEnv n argv).map Prod.fst

theorem outcome_eq {args : List Word} {n : Nat} (hn : (scan (options posixEnv) name args).length < n) :
    outcome posixEnv n (name :: args) = some (interpret {} (scan (options posixEnv) name args)) := by
  obtain ⟨g, hparse, _⟩ :=
    parseLoop_eq _ n {} (State.init (name :: args)) hn (inv_init _ rfl) rfl (scan_numbered args)
  unfold outcome parseArgs
  rw [hparse]
  rfl

/-- `--run-server`. -/
def runServerLong : Word := "--run-server".toList

/-- `-r`. -/
def runServerShort : Word := "-r".toList

theorem scan_runServerLong (posixEnv : Bool) (name w : Word) (ws : List Word) :
    scan (options posixEnv) name (runServerLong :: w :: ws) =
      ⟨'r', some w, none⟩ :: scan (options posixEnv) name ws := by
  rw [scan_option rfl (by decide)]
  rfl

theorem scan_runServerShort (posixEnv : Bool) (name : Word) (ws : List Word) :
    scan (options posixEnv) name (runServerShort :: ws) = ⟨'r', none, none⟩ :: scan (options posixEnv) name ws := by
  rw [scan_option rfl (by decide)]
  rfl

/-- Words behind which `getopt_long` still reads options: none of them ends the options, and an option that
    wants an argument has it among them. -/
def whole (posixEnv : Bool) (name : Word) : List Word → Bool
  | [] => true
  | w :: ws =>
      if isOption w then
        if w = ['-', '-'] then false
        else
          match (reading (options posixEnv) name w).2 with
          | none => whole posixEnv name ws
          | some _ =>
              match ws with
              | [] => false
              | _ :: ws => whole posixEnv name ws
      else if posixEnv then false
      else whole posixEnv name ws

theorem scan_append (pre : List Word) (hpre : whole posixEnv name pre = true) (ws : List Word) :
    scan (options posixEnv) name (pre ++ ws) =
      scan (options posixEnv) name pre ++ scan (options posixEnv) name ws := by
  fun_induction whole posixEnv name pre with
  | case1 => rfl
  | case2 => cases hpre
  | case3 w pre hopt hw hnone ih =>
      rw [List.cons_append, scan_option hopt hw, scan_option hopt hw]
      unfold after
      rw [hnone]
      simp only [ih hpre, List.append_assoc]
  | case4 => cases hpre
  | case5 w hopt hw r hsome a pre ih =>
      rw [List.cons_append, List.cons_append, scan_option hopt hw, scan_option hopt hw]
      unfold after
      rw [hsome]
      simp only [ih hpre, List.append_assoc, List.cons_append]
  | case6 => cases hpre
  | case7 w pre hopt hposix ih =>
      have hpermutes : (options posixEnv).posixlyCorrect = false := Bool.eq_false_iff.mpr hposix
      have hskip : ∀ vs, scan (options posixEnv) name (w :: vs) = scan (options posixEnv) name vs := fun vs =>
        scan_operands rfl hpermutes [w] (by simpa using hopt)
      rw [List.cons_append, hskip, hskip, ih hpre]

/-- As the last word it wants an argument that is not there. -/
theorem scan_runServerLong_last (posixEnv : Bool) (name : Word) :
    scan (options posixEnv) name [runServerLong] =
      [longRequiresArgument (options posixEnv) name ⟨"run-server".toList, .requiredArgument, 'r'⟩] := by
  rw [scan_option rfl (by decide)]
  rfl

/-- The events are taken from left to right. -/
theorem interpret_append {fs fs' : List Event} (h : ∀ cfg, interpret cfg fs = interpret cfg fs') (es : List Event) :
    ∀ cfg : Config, interpret cfg (es ++ fs) = interpret cfg (es ++ fs') := by
  induction es with
  | nil => exact h
  | cons e es ih =>
      intro cfg
      rw [List.cons_append, List.cons_append, interpret, interpret]
      cases cfg.apply e with
      | ok cfg' => exact ih cfg'
      | error bye => rfl

/-- An error of `getopt_long` is ignored. -/
theorem interpret_error {e : Event} (he : e.opt = '?') (cfg : Config) : interpret cfg [e] = interpret cfg [] := by
  have hignored : cfg.apply e = .ok cfg := by
    unfold Config.apply
    rw [he]
    rfl
  simp only [interpret, hignored]

/-- **`--run-server` takes a word.** Unlike `-r`, and unlike what the help says: wherever it is read as an
    option, whatever stands behind it, also an option, is its argument and is not looked at; and as the last
    word it starts no server, and changes nothing else. -/
theorem run_server_takes_a_word (posixEnv : Bool) (name : Word) (pre ws : List Word) (n : Nat)
    (hpre : whole posixEnv name pre = true)
    (hn : (scan (options posixEnv) name (pre ++ ws)).length + 1 < n) :
    (∀ w, outcome posixEnv n (name :: (pre ++ runServerLong :: w :: ws)) =
      outcome posixEnv n (name :: (pre ++ runServerShort :: ws))) ∧
      outcome posixEnv n (name :: (pre ++ [runServerLong])) = outcome posixEnv n (name :: pre) := by
  rw [scan_append pre hpre, List.length_append] at hn
  refine ⟨?_, ?_⟩
  · intro w
    have hlong := scan_append pre hpre (runServerLong :: w :: ws)
    have hshort := scan_append pre hpre (runServerShort :: ws)
    rw [scan_runServerLong] at hlong
    rw [scan_runServerShort] at hshort
    rw [outcome_eq (by rw [hlong, List.length_append]; exact hn),
      outcome_eq (by rw [hshort, List.length_append]; exact hn), hlong, hshort]
    have hsame : ∀ cfg, interpret cfg (⟨'r', some w, none⟩ :: scan (options posixEnv) name ws) =
        interpret cfg (⟨'r', none, none⟩ :: scan (options posixEnv) name ws) := fun _ => rfl
    rw [interpret_append hsame]
  · have hlong := scan_append pre hpre [runServerLong]
    rw [scan_runServerLong_last] at hlong
    have hlength : (scan (options posixEnv) name (pre ++ [runServerLong])).length < n := by
      rw [hlong, List.length_append, List.length_singleton]
      omega
    rw [outcome_eq hlength, outcome_eq (by omega), hlong, interpret_append (interpret_error rfl), List.append_nil]

/-- `-a 5 --tcp --run-server` starts the load test without a server, and `-a 5 --run-server --tcp` asks for no
    client. -/
theorem run_server_takes_a_word_last :
    outcome false 9 ["p".toList, "-a".toList, "5".toList, "--tcp".toList, runServerLong] =
        some (.config ⟨.tcp, 5, 1, false⟩) ∧
      outcome false 9 ["p".toList, "-a".toList, "5".toList, runServerLong, "--tcp".toList] =
        some (.exits .required) := by
  have hlast := (run_server_takes_a_word false "p".toList ["-a".toList, "5".toList, "--tcp".toList] [] 9
    (by decide) (by decide)).2
  have hmid := (run_server_takes_a_word false "p".toList ["-a".toList, "5".toList] [] 9
    (by decide) (by decide)).1 "--tcp".toList
  simp only [List.cons_append, List.nil_append] at hlast hmid
  rw [hlast, hmid]
  decide

end LoadTest

end Neblina
