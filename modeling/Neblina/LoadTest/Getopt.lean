import Mathlib.Data.List.Induction

/-!
# `LoadTest.Getopt` — `ya_getopt_long`

The scanner of the command line. It keeps its position in global variables and hands out one option at a time;
words that are not options it moves behind the options it has read, in `argv` itself and one call late: `start`
and `end` say which words are to be moved.

`scan` is what the scanner is for: the options of a command line, read from left to right, with nothing moved.
`getoptLong_step` says that a call hands out the first of the options that are left, that it reads no word outside
`argv`, and that it only permutes `argv`.
-/

namespace Neblina

namespace YaGetopt

/-- A C string, without the terminating zero. -/
abbrev Word := List Char

/-- `has_arg` of a `struct option`. -/
inductive HasArg where
  | noArgument
  | requiredArgument
  | optionalArgument
  deriving DecidableEq, Repr

/-- A `struct option`, with `flag` a null pointer. -/
structure LongOption where
  name   : Word
  hasArg : HasArg
  val    : Char
  deriving DecidableEq, Repr

/-- What the program asks for, and whether `POSIXLY_CORRECT` is in the environment. -/
structure Table where
  optstring : Word
  longopts  : List LongOption
  posixEnv  : Bool
  deriving DecidableEq, Repr

namespace Table

/-- `posixly_correct`, as `check_gnu_extension` sets it at the first call. -/
def posixlyCorrect (T : Table) : Bool := T.optstring.head? = some '+' || T.posixEnv

/-- `handle_nonopt_argv`. -/
def handleNonoptArgv (T : Table) : Bool := T.optstring.head? = some '-'

/-- `optstring` behind the first `+` or `-`. -/
def letters (T : Table) : Word :=
  match T.optstring with
  | '+' :: os => os
  | '-' :: os => os
  | os => os

end Table

/-- What a call hands out: the value it returns, `optarg`, and what it prints to `stderr`. -/
structure Event where
  opt    : Char
  optarg : Option Word
  error  : Option Word
  deriving DecidableEq, Repr

/-- The variables of the scanner. `optnext` is the rest of the word at `optind` that is left to be read. -/
structure State where
  argv    : List Word
  optind  : Nat
  optnext : Option Word
  start   : Nat
  stop    : Int
  deriving DecidableEq, Repr

/-- Before the first call. -/
def State.init (argv : List Word) : State := ⟨argv, 1, none, 0, 0⟩

def isOption : Word → Bool
  | '-' :: _ :: _ => true
  | _ => false

/-! ## Errors -/

/-- `ya_getopt_error`. -/
def complain (T : Table) (text : Word) : Option Word := if T.letters.head? = some ':' then none else some text

/-- A missing argument is a `:` if the letters start with one. -/
def missing (T : Table) : Char := if T.letters.head? = some ':' then ':' else '?'

def invalidOption (T : Table) (name : Word) (opt : Char) : Event :=
  ⟨'?', none, complain T (name ++ ": invalid option -- '".toList ++ [opt] ++ "'\n".toList)⟩

def requiresArgument (T : Table) (name : Word) (opt : Char) : Event :=
  ⟨missing T, none, complain T (name ++ ": option requires an argument -- '".toList ++ [opt] ++ "'\n".toList)⟩

def longRequiresArgument (T : Table) (name : Word) (o : LongOption) : Event :=
  ⟨missing T, none, complain T (name ++ ": option '--".toList ++ o.name ++ "' requires an argument\n".toList)⟩

def allowsNoArgument (T : Table) (name : Word) (o : LongOption) : Event :=
  ⟨'?', none, complain T (name ++ ": option '--".toList ++ o.name ++ "' doesn't allow an argument\n".toList)⟩

def unrecognizedOption (T : Table) (name word : Word) : Event :=
  ⟨'?', none, complain T (name ++ ": unrecognized option '".toList ++ word ++ "'\n".toList)⟩

/-! ## The scanner

A result `none` stands for a read outside of `argv` or of a word. -/

/-- `for (i = end; i < last_pos; i++) argv[i] = argv[i + 1]`. -/
def shift (argv : List Word) (i : Nat) : Nat → Option (List Word)
  | 0 => some argv
  | n + 1 => do
      let next ← argv[i + 1]?
      shift (argv.set i next) (i + 1) n

/-- `while (start < end--)`: each skipped word, the last one first, goes behind the words that were read. -/
def rotate (start : Nat) : Nat → Nat → List Word → Option (List Word)
  | 0, _, argv => some argv
  | stop + 1, last, argv =>
      if start < stop + 1 then do
        let arg ← argv[stop]?
        let shifted ← shift argv stop (last - stop)
        rotate start stop (last - 1) (shifted.set (max stop last) arg)
      else some argv

/-- `ya_optind -= end - start`, and `1` if that is too far. -/
def State.back (g : State) : Nat :=
  if (g.optind : Int) - (g.stop - g.start) ≤ 0 then 1 else ((g.optind : Int) - (g.stop - g.start)).toNat

/-- The first lines of `ya_getopt_internal`: the words skipped by an earlier call are moved. -/
def settle (g : State) : Option State :=
  if g.optnext = none ∧ g.start ≠ 0 then do
    let argv ← rotate g.start g.stop.toNat (g.optind - 1) g.argv
    return ⟨argv, g.back, none, 0, min g.stop g.start - 1⟩
  else some g

/-- The loop of `ya_getopt_longopts`: the option `arg` names, and what stands behind a `=`. -/
def findLong : List LongOption → Word → Option (LongOption × Option Word)
  | [], _ => none
  | o :: os, arg =>
      if o.name.isPrefixOf arg then
        match arg.drop o.name.length with
        | [] => some (o, none)
        | '=' :: val => some (o, some val)
        | _ => findLong os arg
      else findLong os arg

/-- What `ya_getopt_longopts` does with the option it found. -/
def named (T : Table) (g : State) (name word : Word) : Option (LongOption × Option Word) → Option (Event × State)
  | none => some (unrecognizedOption T name word, { g with optind := g.optind + 1 })
  | some (o, none) =>
      if o.hasArg = .requiredArgument then
        if g.optind + 1 = g.argv.length then
          some (longRequiresArgument T name o, { g with optind := g.optind + 1 })
        else do
          let val ← g.argv[g.optind + 1]?
          return (⟨o.val, some val, none⟩, { g with optind := g.optind + 2 })
      else some (⟨o.val, none, none⟩, { g with optind := g.optind + 1 })
  | some (o, some val) =>
      if o.hasArg = .noArgument then some (allowsNoArgument T name o, { g with optind := g.optind + 1 })
      else some (⟨o.val, some val, none⟩, { g with optind := g.optind + 1 })

/-- `ya_getopt_longopts` on the word at `optind`. -/
def longopts (T : Table) (g : State) (word : Word) : Option (Event × State) := do
  let name ← g.argv[0]?
  named T g name word (findLong T.longopts (word.drop 2))

/-- The position behind the letters that were read: in the same word, or at the next one. -/
def advance (g : State) : Word → State
  | [] => { g with optind := g.optind + 1, optnext := none }
  | c :: cs => { g with optnext := some (c :: cs) }

/-- One letter, with the rest of the word. -/
def letter (T : Table) (g : State) (name : Word) (opt : Char) (rest : Word) : Option (Event × State) :=
  -- `strchr(optstring, opt)`, and the characters behind it
  match T.letters.dropWhile (· ≠ opt) with
  | [] => some (invalidOption T name opt, advance g rest)
  | _ :: ':' :: os =>
      if rest = [] then
        if os.head? = some ':' then
          some (⟨opt, none, none⟩, { g with optind := g.optind + 1, optnext := none })
        else if g.optind + 1 = g.argv.length then
          some (requiresArgument T name opt, { g with optind := g.optind + 1, optnext := none })
        else do
          let val ← g.argv[g.optind + 1]?
          return (⟨opt, some val, none⟩, { g with optind := g.optind + 2, optnext := none })
      else some (⟨opt, some rest, none⟩, { g with optind := g.optind + 1, optnext := none })
  | _ => some (⟨opt, none, none⟩, advance g rest)

/-- `ya_getopt_shortopts`, with the rest of the word at `optind`. -/
def shortopts (T : Table) (g : State) : Word → Option (Event × State)
  | [] => none
  | opt :: rest => do
      let name ← g.argv[0]?
      letter T g name opt rest

/-- The word at `optind` is an option. -/
def option (T : Table) (g : State) (arg : Word) : Option (Option Event × State) :=
  if arg = ['-', '-'] then some (none, { g with optind := g.optind + 1 })
  else if arg[1]? = some '-' then do
    let (e, g) ← longopts T g arg
    return (some e, g)
  else do
    let (e, g) ← shortopts T g (arg.drop 1)
    return (some e, g)

/-- The word at `optind` is not an option. -/
def operand (T : Table) (g : State) (arg : Word) : Option (Option Event × State) :=
  if T.handleNonoptArgv then
    some (some ⟨'\x01', some arg, none⟩, { g with optind := g.optind + 1, start := 0 })
  else if T.posixlyCorrect then some (none, g)
  else
    match (g.argv.drop (g.optind + 1)).findIdx? isOption with
    | none => some (none, { g with start := g.optind })
    | some n => do
        let i := g.optind + 1 + n
        let arg ← g.argv[i]?
        option T { g with start := g.optind, stop := i, optind := i } arg

/-- `ya_getopt_long`: the next option, or `none` for a result of `-1`. -/
def getoptLong (T : Table) (g : State) : Option (Option Event × State) := do
  let g ← settle g
  if g.argv.length ≤ g.optind then return (none, g)
  else
    match g.optnext with
    | some rest => do
        let (e, g) ← shortopts T g rest
        return (some e, g)
    | none => do
        let arg ← g.argv[g.optind]?
        if isOption arg then option T g arg else operand T g arg

/-! ## What a command line means -/

/-- What a word of options stands for: the options that are complete, and the last one if it wants the next word
    as its argument, with the error if there is none. -/
abbrev Reading := List Event × Option (Char × Event)

/-- The letters of a word. -/
def cluster (T : Table) (name : Word) : Word → Reading
  | [] => ([], none)
  | opt :: rest =>
      match T.letters.dropWhile (· ≠ opt) with
      | [] => (invalidOption T name opt :: (cluster T name rest).1, (cluster T name rest).2)
      | _ :: ':' :: os =>
          if rest = [] then
            if os.head? = some ':' then ([⟨opt, none, none⟩], none)
            else ([], some (opt, requiresArgument T name opt))
          else ([⟨opt, some rest, none⟩], none)
      | _ => (⟨opt, none, none⟩ :: (cluster T name rest).1, (cluster T name rest).2)

/-- A long option. -/
def long (T : Table) (name word : Word) : Reading :=
  match findLong T.longopts (word.drop 2) with
  | none => ([unrecognizedOption T name word], none)
  | some (o, none) =>
      if o.hasArg = .requiredArgument then ([], some (o.val, longRequiresArgument T name o))
      else ([⟨o.val, none, none⟩], none)
  | some (o, some val) =>
      if o.hasArg = .noArgument then ([allowsNoArgument T name o], none) else ([⟨o.val, some val, none⟩], none)

def reading (T : Table) (name word : Word) : Reading :=
  if word[1]? = some '-' then long T name word else cluster T name (word.drop 1)

/-- **The options of a command line**, from left to right. -/
def scan (T : Table) (name : Word) : List Word → List Event
  | [] => []
  | w :: ws =>
      if isOption w then
        if w = ['-', '-'] then []
        else
          (reading T name w).1 ++
            match (reading T name w).2 with
            | none => scan T name ws
            | some (opt, missing) =>
                match ws with
                | [] => [missing]
                | a :: ws => ⟨opt, some a, none⟩ :: scan T name ws
      else if T.handleNonoptArgv then ⟨'\x01', some w, none⟩ :: scan T name ws
      else if T.posixlyCorrect then []
      else scan T name ws

/-- The options of a word and of those behind it. -/
def after (T : Table) (name : Word) (r : Reading) (ws : List Word) : List Event :=
  r.1 ++
    match r.2, ws with
    | none, ws => scan T name ws
    | some (_, missing), [] => [missing]
    | some (opt, _), a :: ws => ⟨opt, some a, none⟩ :: scan T name ws

variable {T : Table} {name w : Word} {ws : List Word}

theorem scan_option (ho : isOption w = true) (hw : w ≠ ['-', '-']) :
    scan T name (w :: ws) = after T name (reading T name w) ws := by
  unfold scan after
  rw [if_pos ho, if_neg hw]
  rcases (reading T name w).2 with _ | ⟨opt, missing⟩ <;> cases ws <;> rfl

theorem scan_operands (hnon : T.handleNonoptArgv = false) (hposix : T.posixlyCorrect = false) (xs : List Word)
    (hxs : ∀ x ∈ xs, isOption x = false) : scan T name (xs ++ ws) = scan T name ws := by
  induction xs with
  | nil => rfl
  | cons x xs ih =>
      have hx : isOption x = false := hxs x List.mem_cons_self
      have hskip : scan T name (x :: (xs ++ ws)) = scan T name (xs ++ ws) := by
        simp [scan, hx, hnon, hposix]
      rw [List.cons_append, hskip]
      exact ih fun y hy => hxs y (List.mem_cons_of_mem _ hy)

/-- The options that are left. -/
def State.left (T : Table) (name : Word) (g : State) : List Event :=
  match g.optnext with
  | none => scan T name (g.argv.drop g.optind)
  | some rest => after T name (cluster T name rest) (g.argv.drop (g.optind + 1))

/-! ## Moving words in `argv` -/

/-- The words behind `x` move to the front by one. -/
theorem shift_eq (ys b : List Word) : ∀ (a : List Word) (x : Word),
    ∃ z, shift (a ++ x :: (ys ++ b)) a.length ys.length = some (a ++ (ys ++ z :: b)) := by
  induction ys with
  | nil =>
      intro a x
      exact ⟨x, rfl⟩
  | cons y ys ih =>
      intro a x
      have hnext : (a ++ x :: (y :: ys ++ b))[a.length + 1]? = some y := by simp
      have hset : (a ++ x :: (y :: ys ++ b)).set a.length y = (a ++ [y]) ++ y :: (ys ++ b) := by simp
      obtain ⟨z, hz⟩ := ih (a ++ [y]) y
      refine ⟨z, ?_⟩
      rw [List.length_append, List.length_singleton] at hz
      rw [List.length_cons, shift, hnext, Option.bind_eq_bind, Option.bind_some, hset, hz]
      simp

/-- **The skipped words go behind the words that were read**, both in their order. -/
theorem rotate_eq (a ys : List Word) (hys : ys ≠ []) (xs : List Word) : ∀ b : List Word,
    rotate a.length (a.length + xs.length) (a.length + xs.length + ys.length - 1) (a ++ (xs ++ (ys ++ b))) =
      some (a ++ (ys ++ (xs ++ b))) := by
  have hpos : 0 < ys.length := List.length_pos_iff.mpr hys
  -- the last of the skipped words is moved first
  induction xs using List.reverseRecOn with
  | nil =>
      intro b
      cases a with
      | nil => rfl
      | cons c a => simp [rotate]
  | append_singleton xs x ih =>
      intro b
      have hlen : a.length + (xs ++ [x]).length = (a.length + xs.length) + 1 := by
        rw [List.length_append, List.length_singleton, Nat.add_assoc]
      have hsplit : a ++ (xs ++ [x] ++ (ys ++ b)) = (a ++ xs) ++ x :: (ys ++ b) := by simp
      have hword : ((a ++ xs) ++ x :: (ys ++ b))[a.length + xs.length]? = some x := by
        rw [← List.length_append]
        simp
      obtain ⟨z, hz⟩ := shift_eq ys b (a ++ xs) x
      rw [List.length_append] at hz
      have hset : ((a ++ xs) ++ (ys ++ z :: b)).set (a.length + xs.length + ys.length) x =
          a ++ (xs ++ (ys ++ x :: b)) := by
        rw [← List.length_append, ← List.length_append, ← List.append_assoc]
        simp
      have hlast : a.length + xs.length + 1 + ys.length - 1 = a.length + xs.length + ys.length := by omega
      have hcount : a.length + xs.length + ys.length - (a.length + xs.length) = ys.length := by omega
      have hmax : max (a.length + xs.length) (a.length + xs.length + ys.length) =
          a.length + xs.length + ys.length := by omega
      rw [hlen, hsplit, hlast, rotate, if_pos (by omega), hword, Option.bind_eq_bind, Option.bind_some, hcount, hz,
        Option.bind_eq_bind, Option.bind_some, hmax, hset, ih (x :: b)]
      simp

/-! ## The position of the scanner -/

variable {g g' : State}

/-- `start` and `end` enclose words that are no options, all of them before `optind`. -/
def Skipped (T : Table) (g : State) : Prop :=
  T.handleNonoptArgv = false ∧ T.posixlyCorrect = false ∧
    ∃ a xs rest : List Word, g.argv = a ++ (xs ++ rest) ∧ g.start = a.length ∧
      g.stop = ((a.length + xs.length : Nat) : Int) ∧ a.length + xs.length ≤ g.optind ∧
      ∀ x ∈ xs, isOption x = false

/-- The scanner stands at a word of `argv`, or at its end. -/
structure Placed (T : Table) (name : Word) (g : State) : Prop where
  head    : g.argv[0]? = some name
  pos     : 1 ≤ g.optind
  le      : g.optind ≤ g.argv.length
  skipped : g.start ≠ 0 → Skipped T g

/-- What holds between two calls. -/
structure Inv (T : Table) (name : Word) (g : State) : Prop extends Placed T name g where
  next  : ∀ rest, g.optnext = some rest → rest ≠ [] ∧ g.optind < g.argv.length
  moved : g.start ≠ 0 → g.optnext = none → g.stop < g.optind

theorem inv_init (argv : List Word) (h : argv[0]? = some name) : Inv T name (State.init argv) := by
  refine ⟨⟨h, Nat.le_refl 1, ?_, fun hs => absurd rfl hs⟩, ?_, fun hs => absurd rfl hs⟩
  · cases argv with
    | nil => cases h
    | cons w ws => simp [State.init]
  · intro rest hr
    cases hr

/-- **Moving the skipped words changes nothing about what is left to be read.** -/
theorem settle_spec (h : Inv T name g) :
    ∃ g', settle g = some g' ∧ Inv T name g' ∧ g'.left T name = g.left T name ∧ g'.argv.Perm g.argv ∧
      (g'.optnext = none → g'.start = 0) := by
  by_cases hdue : g.optnext = none ∧ g.start ≠ 0
  · obtain ⟨hnext, hstart⟩ := hdue
    obtain ⟨hnon, hposix, a, xs, rest, hargv, ha, hstop, hle, hxs⟩ := h.skipped hstart
    have hmoved := h.moved hstart hnext
    have hlen : g.argv.length = a.length + (xs.length + rest.length) := by
      rw [hargv, List.length_append, List.length_append]
    -- the words that were read, and those that are left
    obtain ⟨ys, b, hrest, hys⟩ :
        ∃ ys b : List Word, rest = ys ++ b ∧ g.optind = a.length + xs.length + ys.length := by
      refine ⟨rest.take (g.optind - (a.length + xs.length)), rest.drop (g.optind - (a.length + xs.length)),
        (List.take_append_drop _ _).symm, ?_⟩
      have := h.le
      rw [List.length_take]
      omega
    subst hrest
    have hne : ys ≠ [] := by
      rintro rfl
      rw [hstop, hys] at hmoved
      simp at hmoved
    have hpos : 0 < a.length := by omega
    have hrotate := rotate_eq a ys hne xs b
    have hdrop : g.argv.drop g.optind = b := by
      rw [hargv, hys, ← List.length_append, ← List.length_append, ← List.append_assoc, ← List.append_assoc,
        List.drop_left]
    have hdrop' : (a ++ (ys ++ (xs ++ b))).drop (a.length + ys.length) = xs ++ b := by
      rw [← List.length_append, ← List.append_assoc, List.drop_left]
    refine ⟨⟨a ++ (ys ++ (xs ++ b)), a.length + ys.length, none, 0, min g.stop g.start - 1⟩, ?_, ?_, ?_, ?_, ?_⟩
    · have hback : g.back = a.length + ys.length := by
        unfold State.back
        split <;> omega
      have htoNat : g.stop.toNat = a.length + xs.length := by omega
      unfold settle
      rw [if_pos ⟨hnext, hstart⟩, hback, htoNat, hargv, ha, hys, hrotate]
      rfl
    · refine ⟨⟨?_, ?_, ?_, fun hs => absurd rfl hs⟩, (fun r hr => nomatch hr), fun hs => absurd rfl hs⟩
      · have hhead := h.head
        rw [hargv, List.getElem?_append_left hpos] at hhead
        rw [List.getElem?_append_left hpos, hhead]
      · exact Nat.le_add_right_of_le hpos
      · simp only [List.length_append]
        omega
    · show scan T name ((a ++ (ys ++ (xs ++ b))).drop (a.length + ys.length)) = g.left T name
      unfold State.left
      rw [hnext, hdrop', hdrop, scan_operands hnon hposix xs hxs]
    · rw [hargv]
      exact List.Perm.append_left a (List.perm_append_comm_assoc ys xs b)
    · intro _
      rfl
  · refine ⟨g, if_neg hdue, h, rfl, List.Perm.refl _, ?_⟩
    intro hnext
    by_contra hstart
    exact hdue ⟨hnext, hstart⟩

/-! ## One call -/

/-- The scanner has read the first of the options `todo`. -/
structure Reads (T : Table) (name : Word) (g : State) (todo : List Event) (e : Event) (g' : State) : Prop where
  argv  : g'.argv = g.argv
  start : g'.start = g.start
  stop  : g'.stop = g.stop
  ge    : g.optind ≤ g'.optind
  le    : g'.optind ≤ g.argv.length
  next  : ∀ rest, g'.optnext = some rest → rest ≠ [] ∧ g'.optind < g'.argv.length
  moved : g'.optnext = none → g.optind < g'.optind
  left  : todo = e :: g'.left T name

theorem Reads.inv {todo : List Event} {e : Event} (h : Reads T name g todo e g') (hg : Placed T name g) :
    Inv T name g' := by
  have hskipped : g'.start ≠ 0 → Skipped T g' := by
    intro hs
    rw [h.start] at hs
    obtain ⟨hnon, hposix, a, xs, rest, hargv, ha, hstop, hle, hxs⟩ := hg.skipped hs
    exact ⟨hnon, hposix, a, xs, rest, h.argv.trans hargv, h.start.trans ha, h.stop.trans hstop,
      Nat.le_trans hle h.ge, hxs⟩
  refine ⟨⟨?_, Nat.le_trans hg.pos h.ge, ?_, hskipped⟩, h.next, ?_⟩
  · rw [h.argv, hg.head]
  · rw [h.argv]
    exact h.le
  · intro hs hnext
    obtain ⟨_, _, a, xs, rest, _, _, hstop, hle, _⟩ := hskipped hs
    rw [h.start] at hs
    obtain ⟨_, _, a', xs', _, _, _, hstop', hle', _⟩ := hg.skipped hs
    have hlt := h.moved hnext
    rw [h.stop, hstop']
    omega

/-- The words up to the `n`-th are read. -/
theorem reads_words {todo : List Event} {e : Event} {n : Nat} (hn : g.optind < n) (hle : n ≤ g.argv.length)
    (htodo : todo = e :: scan T name (g.argv.drop n)) :
    Reads T name g todo e { g with optind := n, optnext := none } :=
  ⟨rfl, rfl, rfl, Nat.le_of_lt hn, hle, (fun _ hr => nomatch hr), fun _ => hn, htodo⟩

theorem reads_advance {todo : List Event} {e : Event} {rest : Word} (hlt : g.optind < g.argv.length)
    (htodo : todo = e :: after T name (cluster T name rest) (g.argv.drop (g.optind + 1))) :
    Reads T name g todo e (advance g rest) := by
  cases rest with
  | nil => exact reads_words (Nat.lt_succ_self _) hlt htodo
  | cons c cs =>
      refine ⟨rfl, rfl, rfl, Nat.le_refl _, Nat.le_of_lt hlt, ?_, (fun hn => nomatch hn), htodo⟩
      rintro _ ⟨⟩
      exact ⟨List.cons_ne_nil c cs, hlt⟩

theorem drop_eq_cons {ws : List Word} {i : Nat} {w : Word} (h : ws[i]? = some w) : ws.drop i = w :: ws.drop (i + 1) := by
  obtain ⟨hi, rfl⟩ := List.getElem?_eq_some_iff.mp h
  exact List.drop_eq_getElem_cons hi

section Argument

variable {opt : Char} {m : Event}

/-- An option at the end of `argv` goes without its argument. -/
theorem reads_missing (h : g.optind + 1 = g.argv.length) :
    Reads T name g (after T name ([], some (opt, m)) (g.argv.drop (g.optind + 1))) m
      { g with optind := g.optind + 1, optnext := none } := by
  refine reads_words (Nat.lt_succ_self _) (Nat.le_of_eq h) ?_
  rw [h, List.drop_length]
  rfl

/-- Else the next word is its argument. -/
theorem reads_argument {val : Word} (h : g.argv[g.optind + 1]? = some val) :
    Reads T name g (after T name ([], some (opt, m)) (g.argv.drop (g.optind + 1))) ⟨opt, some val, none⟩
      { g with optind := g.optind + 2, optnext := none } := by
  obtain ⟨hlt, _⟩ := List.getElem?_eq_some_iff.mp h
  refine reads_words (by omega) hlt ?_
  rw [drop_eq_cons h]
  rfl

end Argument

theorem shortopts_spec (hg : Placed T name g) (hlt : g.optind < g.argv.length) {rest : Word} (hne : rest ≠ []) :
    ∃ e g', shortopts T g rest = some (e, g') ∧
      Reads T name g (after T name (cluster T name rest) (g.argv.drop (g.optind + 1))) e g' := by
  cases rest with
  | nil => exact absurd rfl hne
  | cons opt rest =>
      have hletter : shortopts T g (opt :: rest) = letter T g name opt rest := by
        rw [shortopts, hg.head]
        rfl
      rw [hletter]
      unfold letter cluster
      split
      · exact ⟨_, _, rfl, reads_advance hlt rfl⟩
      · next os _ =>
          by_cases hrest : rest = []
          · rw [if_pos hrest, if_pos hrest]
            by_cases hos : os.head? = some ':'
            · rw [if_pos hos, if_pos hos]
              exact ⟨_, _, rfl, reads_words (Nat.lt_succ_self _) hlt rfl⟩
            · rw [if_neg hos, if_neg hos]
              by_cases hend : g.optind + 1 = g.argv.length
              · rw [if_pos hend]
                exact ⟨_, _, rfl, reads_missing hend⟩
              · rw [if_neg hend]
                have hval : g.argv[g.optind + 1]? = some g.argv[g.optind + 1] := List.getElem?_eq_getElem (by omega)
                rw [hval]
                exact ⟨_, _, rfl, reads_argument hval⟩
          · rw [if_neg hrest, if_neg hrest]
            exact ⟨_, _, rfl, reads_words (Nat.lt_succ_self _) hlt rfl⟩
      · exact ⟨_, _, rfl, reads_advance hlt rfl⟩

theorem longopts_spec (hg : Placed T name g) (hnext : g.optnext = none) (hlt : g.optind < g.argv.length)
    (word : Word) :
    ∃ e g', longopts T g word = some (e, g') ∧
      Reads T name g (after T name (long T name word) (g.argv.drop (g.optind + 1))) e g' := by
  have hnamed : longopts T g word = named T g name word (findLong T.longopts (word.drop 2)) := by
    rw [longopts, hg.head]
    rfl
  -- `optnext` is a null pointer and stays one
  have hword : ∀ n, { g with optind := n } = { g with optind := n, optnext := none } := by
    intro n
    rw [hnext]
  rw [hnamed]
  unfold long
  rcases findLong T.longopts (word.drop 2) with _ | ⟨o, _ | val⟩
  · refine ⟨_, _, rfl, ?_⟩
    rw [hword]
    exact reads_words (Nat.lt_succ_self _) hlt rfl
  · dsimp only [named]
    by_cases hreq : o.hasArg = .requiredArgument
    · rw [if_pos hreq, if_pos hreq]
      by_cases hend : g.optind + 1 = g.argv.length
      · rw [if_pos hend]
        refine ⟨_, _, rfl, ?_⟩
        rw [hword]
        exact reads_missing hend
      · rw [if_neg hend]
        have hval : g.argv[g.optind + 1]? = some g.argv[g.optind + 1] := List.getElem?_eq_getElem (by omega)
        rw [hval]
        refine ⟨_, _, rfl, ?_⟩
        rw [hword]
        exact reads_argument hval
    · rw [if_neg hreq, if_neg hreq]
      refine ⟨_, _, rfl, ?_⟩
      rw [hword]
      exact reads_words (Nat.lt_succ_self _) hlt rfl
  · dsimp only [named]
    by_cases hno : o.hasArg = .noArgument
    · rw [if_pos hno, if_pos hno]
      refine ⟨_, _, rfl, ?_⟩
      rw [hword]
      exact reads_words (Nat.lt_succ_self _) hlt rfl
    · rw [if_neg hno, if_neg hno]
      refine ⟨_, _, rfl, ?_⟩
      rw [hword]
      exact reads_words (Nat.lt_succ_self _) hlt rfl

/-- What a call comes to: `-1` when no option is left, else the first of those that are. -/
def Handed (T : Table) (name : Word) (g : State) (todo : List Event) : Option Event → State → Prop
  | none, g' => todo = [] ∧ g'.argv = g.argv
  | some e, g' => Reads T name g todo e g'

theorem option_spec (hg : Placed T name g) (hnext : g.optnext = none) {arg : Word}
    (harg : g.argv[g.optind]? = some arg) (hopt : isOption arg = true) :
    ∃ r g', option T g arg = some (r, g') ∧ Handed T name g (scan T name (g.argv.drop g.optind)) r g' := by
  obtain ⟨hlt, _⟩ := List.getElem?_eq_some_iff.mp harg
  rw [drop_eq_cons harg]
  unfold option
  by_cases hend : arg = ['-', '-']
  · rw [if_pos hend]
    refine ⟨_, _, rfl, ?_, rfl⟩
    rw [hend]
    simp [scan, isOption]
  · rw [if_neg hend, scan_option hopt hend]
    unfold reading
    by_cases hlong : arg[1]? = some '-'
    · rw [if_pos hlong, if_pos hlong]
      obtain ⟨e, g', hcall, hreads⟩ := longopts_spec hg hnext hlt arg
      rw [hcall]
      exact ⟨_, _, rfl, hreads⟩
    · rw [if_neg hlong, if_neg hlong]
      have hne : arg.drop 1 ≠ [] := by
        unfold isOption at hopt
        split at hopt
        · exact List.cons_ne_nil _ _
        · cases hopt
      obtain ⟨e, g', hcall, hreads⟩ := shortopts_spec hg hlt hne
      rw [hcall]
      exact ⟨_, _, rfl, hreads⟩

/-- The loop that looks for the next option: the words before it are none. -/
theorem findIdx?_split {p : Word → Bool} {n : Nat} (ws : List Word) (h : ws.findIdx? p = some n) :
    ∃ pre w post, ws = pre ++ w :: post ∧ pre.length = n ∧ (∀ x ∈ pre, p x = false) ∧ p w = true := by
  obtain ⟨hn, hw, hpre⟩ := List.findIdx?_eq_some_iff_getElem.mp h
  refine ⟨ws.take n, ws[n], ws.drop (n + 1), ?_, ?_, ?_, hw⟩
  · rw [← List.drop_eq_getElem_cons hn, List.take_append_drop]
  · rw [List.length_take]
    omega
  · intro x hx
    obtain ⟨j, hj, rfl⟩ := List.getElem_of_mem hx
    rw [List.length_take] at hj
    rw [List.getElem_take]
    simpa using hpre j (by omega)

/-- What holds after a call. -/
def Stepped (T : Table) (name : Word) (todo : List Event) : Option Event → State → Prop
  | none, _ => todo = []
  | some e, g' => todo = e :: g'.left T name ∧ Inv T name g'

theorem Handed.stepped {todo : List Event} {r : Option Event} (h : Handed T name g todo r g')
    (hg : Placed T name g) : Stepped T name todo r g' ∧ g'.argv = g.argv := by
  cases r with
  | none => exact h
  | some e => exact ⟨⟨h.left, h.inv hg⟩, h.argv⟩

theorem operand_spec (hg : Placed T name g) (hnext : g.optnext = none) (hstart : g.start = 0) {arg : Word}
    (harg : g.argv[g.optind]? = some arg) (hopt : isOption arg = false) :
    ∃ r g', operand T g arg = some (r, g') ∧ Stepped T name (scan T name (g.argv.drop g.optind)) r g' ∧
      g'.argv = g.argv := by
  obtain ⟨hlt, _⟩ := List.getElem?_eq_some_iff.mp harg
  have hdrop := drop_eq_cons harg
  unfold operand
  by_cases hnon : T.handleNonoptArgv = true
  · rw [if_pos hnon]
    have hsame : { g with optind := g.optind + 1, start := 0 } =
        { g with optind := g.optind + 1, optnext := none } := by
      rw [hnext, hstart]
    have hreads : Reads T name g (scan T name (g.argv.drop g.optind)) ⟨'\x01', some arg, none⟩
        { g with optind := g.optind + 1, optnext := none } := by
      refine reads_words (Nat.lt_succ_self _) hlt ?_
      rw [hdrop]
      simp [scan, hopt, hnon]
    rw [hsame]
    exact ⟨_, _, rfl, ⟨hreads.left, hreads.inv hg⟩, rfl⟩
  · rw [if_neg hnon]
    by_cases hposix : T.posixlyCorrect = true
    · rw [if_pos hposix]
      refine ⟨_, _, rfl, ?_, rfl⟩
      show scan T name (g.argv.drop g.optind) = []
      rw [hdrop]
      simp [scan, hopt, hnon, hposix]
    · rw [if_neg hposix]
      have hnon' : T.handleNonoptArgv = false := by simpa using hnon
      have hposix' : T.posixlyCorrect = false := by simpa using hposix
      cases hfind : (g.argv.drop (g.optind + 1)).findIdx? isOption with
      | none =>
          -- only operands are left
          refine ⟨_, _, rfl, ?_, rfl⟩
          have hall := List.findIdx?_eq_none_iff.mp hfind
          have hskip : scan T name (arg :: g.argv.drop (g.optind + 1) ++ []) = scan T name [] :=
            scan_operands hnon' hposix' _ (List.forall_mem_cons.mpr ⟨hopt, hall⟩)
          rw [List.append_nil, ← hdrop] at hskip
          exact hskip
      | some n =>
          obtain ⟨pre, w, post, hsplit, hlen, hpre, hw⟩ := findIdx?_split _ hfind
          have hskipped : ∀ x ∈ arg :: pre, isOption x = false := List.forall_mem_cons.mpr ⟨hopt, hpre⟩
          have hargv : g.argv = g.argv.take g.optind ++ ((arg :: pre) ++ w :: post) := by
            rw [List.cons_append, ← hsplit, ← hdrop, List.take_append_drop]
          have htake : (g.argv.take g.optind).length = g.optind := by
            rw [List.length_take]
            omega
          have hplace : (g.argv.take g.optind).length + (arg :: pre).length = g.optind + 1 + n := by
            rw [htake, List.length_cons, hlen]
            omega
          have hdropw : g.argv.drop (g.optind + 1 + n) = w :: post := by
            rw [← List.drop_drop, hsplit, ← hlen, List.drop_left]
          have hword : g.argv[g.optind + 1 + n]? = some w := by
            have hfirst : (g.argv.drop (g.optind + 1 + n))[0]? = some w := by
              rw [hdropw]
              rfl
            rwa [List.getElem?_drop, Nat.add_zero] at hfirst
          obtain ⟨hin, _⟩ := List.getElem?_eq_some_iff.mp hword
          have hplaced : Placed T name
              { g with start := g.optind, stop := ((g.optind + 1 + n : Nat) : Int), optind := g.optind + 1 + n } :=
            ⟨hg.head, Nat.le_add_right_of_le (Nat.le_add_left 1 _), Nat.le_of_lt hin,
              fun _ => ⟨hnon', hposix', _, _, _, hargv, htake.symm, by rw [hplace], Nat.le_of_eq hplace, hskipped⟩⟩
          obtain ⟨r, g', hcall, hhanded⟩ := option_spec hplaced hnext hword hw
          have hsame : scan T name (g.argv.drop g.optind) = scan T name (g.argv.drop (g.optind + 1 + n)) := by
            rw [hdropw, hdrop, hsplit]
            exact scan_operands hnon' hposix' (arg :: pre) hskipped
          rw [hsame]
          refine ⟨r, g', ?_, hhanded.stepped hplaced⟩
          dsimp only
          rw [hword]
          exact hcall

/-- **One call of `ya_getopt_long`** reads no word outside of `argv`, hands out the first of the options that
    are left, or `-1` if there is none, and only permutes `argv`. -/
theorem getoptLong_step (h : Inv T name g) :
    ∃ r g', getoptLong T g = some (r, g') ∧ Stepped T name (g.left T name) r g' ∧ g'.argv.Perm g.argv := by
  obtain ⟨g₁, hsettle, hinv, hleft, hperm, hstart⟩ := settle_spec h
  have hplaced : Placed T name g₁ := hinv.toPlaced
  unfold getoptLong
  rw [hsettle, Option.bind_eq_bind, Option.bind_some, ← hleft]
  by_cases hend : g₁.argv.length ≤ g₁.optind
  · rw [if_pos hend]
    refine ⟨_, _, rfl, ?_, hperm⟩
    show g₁.left T name = []
    unfold State.left
    cases hnext : g₁.optnext with
    | some rest => exact absurd (hinv.next rest hnext).2 (by omega)
    | none =>
        dsimp only
        rw [List.drop_eq_nil_of_le hend]
        rfl
  · rw [if_neg hend]
    have hlt : g₁.optind < g₁.argv.length := by omega
    unfold State.left
    cases hnext : g₁.optnext with
    | some rest =>
        obtain ⟨e, g', hcall, hreads⟩ := shortopts_spec hplaced hlt (hinv.next rest hnext).1
        dsimp only
        rw [hcall]
        exact ⟨_, _, rfl, ⟨hreads.left, hreads.inv hplaced⟩, hreads.argv ▸ hperm⟩
    | none =>
        have harg : g₁.argv[g₁.optind]? = some g₁.argv[g₁.optind] := List.getElem?_eq_getElem hlt
        dsimp only
        rw [harg, Option.bind_eq_bind, Option.bind_some]
        cases hopt : isOption g₁.argv[g₁.optind] with
        | true =>
            obtain ⟨r, g', hcall, hhanded⟩ := option_spec hplaced hnext harg hopt
            rw [if_pos rfl]
            exact ⟨r, g', hcall, (hhanded.stepped hplaced).1, (hhanded.stepped hplaced).2 ▸ hperm⟩
        | false =>
            obtain ⟨r, g', hcall, hstepped, hargv⟩ := operand_spec hplaced hnext (hstart hnext) harg hopt
            rw [if_neg (by simp)]
            exact ⟨r, g', hcall, hstepped, hargv ▸ hperm⟩

end YaGetopt

end Neblina
