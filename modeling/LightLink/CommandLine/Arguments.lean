import LightLink.Text.Decimal

/-!
# Command-line arguments

A command takes switches, with or without a value, and operands in a fixed order. Switches are
written

    --name value   --name=value   -n value   -nvalue   -n=value   -ab

and may stand anywhere between the operands; behind `--` there are operands only. A switch is given
at most once. A value that begins with a hyphen has to be attached to its switch, and an operand may
begin with one only where its command says so.

Each switch and operand says how it changes the options of its command, so that a command line is
read into options. It is read from left to right, and the first thing that is wrong or asks for help
decides (`Stop`).

* `Grammar.read`: the options of a command, and the arguments of the command that follows it;
* `choose`: the command that a name stands for.
-/

namespace LightLink.CommandLine

/-- Why a command line is not carried out. -/
inductive Stop where
  /-- It does not fit the grammar. -/
  | usage
  /-- It asks how the program is used. -/
  | help
  /-- It asks for the program's version. -/
  | version
  deriving DecidableEq, Repr

/-! ## Grammars -/

/-- What a switch does. -/
inductive Effect (σ : Type) where
  /-- It has no value and changes the options. -/
  | flag (set : σ → σ)
  /-- It has a value and changes the options by it, unless the value is refused. -/
  | value (set? : String → Option (σ → σ))
  | stop (reason : Stop)

/-- A switch of a command. -/
structure Switch (σ : Type) where
  name : String
  letter : Option Char := none
  /-- It has to be given. -/
  required : Bool := false
  effect : Effect σ

/-- An operand changes the options, unless it is refused. -/
abbrev Operand (σ : Type) := String → Option (σ → σ)

/-- What the arguments of a command may be. -/
structure Grammar (σ : Type) where
  switches : List (Switch σ) := []
  /-- The operands, all of which have to be given. -/
  operands : List (Operand σ) := []
  /-- Operands may begin with a hyphen. -/
  hyphens : Bool := false
  /-- Another command follows. -/
  leads : Bool := false

namespace Grammar

variable {σ : Type}

/-- Asks for help. -/
def helpSwitch : Switch σ := { name := "help", letter := 'h', effect := .stop .help }

/-- Asks for the version. -/
def versionSwitch : Switch σ := { name := "version", letter := 'V', effect := .stop .version }

/-- The switches of a command, all of which can be asked for help. -/
def allSwitches (g : Grammar σ) : List (Switch σ) := helpSwitch :: g.switches

/-- The switch that has a name. -/
def named? (g : Grammar σ) (name : String) : Option (Switch σ) :=
  g.allSwitches.find? (·.name == name)

/-- The switch that has a letter. -/
def lettered? (g : Grammar σ) (c : Char) : Option (Switch σ) :=
  g.allSwitches.find? (·.letter == some c)

end Grammar

/-! ## Single arguments -/

/-- What an argument looks like. -/
inductive Shape where
  /-- Two hyphens and nothing else. -/
  | divider
  /-- A name behind two hyphens, and the value that is attached to it. -/
  | long (name : String) (attached : Option String)
  /-- Letters behind a hyphen, the last of them possibly with a value. -/
  | letters (letters : List Char)
  | plain
  deriving DecidableEq, Repr

/-- A name, and what follows it behind an equals sign. -/
def splitName (cs : List Char) : String × Option String :=
  let name := cs.takeWhile (· != '=')
  (String.ofList name, (cs.drop name.length).tail?.map String.ofList)

/-- What an argument looks like; a hyphen alone is like any other text. -/
def Shape.of (argument : String) : Shape :=
  match argument.toList with
  | '-' :: '-' :: [] => .divider
  | '-' :: '-' :: cs => .long (splitName cs).1 (splitName cs).2
  | '-' :: c :: cs => .letters (c :: cs)
  | _ => .plain

/-- The value behind a letter, with or without an equals sign in front of it. -/
def attached? : List Char → Option String
  | [] => none
  | '=' :: cs => some (String.ofList cs)
  | cs => some (String.ofList cs)

/-! ## Reading -/

/-- How far the arguments of a command have been read. -/
structure Progress (σ : Type) where
  options : σ
  /-- The operands that are still to come. -/
  operands : List (Operand σ)
  /-- The names of the switches that have been given. -/
  given : List String := []
  /-- The switch whose value has to come next. -/
  pending : Option (Switch σ) := none
  /-- Only operands are still to come. -/
  divided : Bool := false

namespace Progress

variable {σ : Type}

/-- A switch has been given, as is possible once. -/
def give (p : Progress σ) (s : Switch σ) (options : σ) : Except Stop (Progress σ) :=
  if s.name ∈ p.given then .error .usage
  else .ok { p with options, given := s.name :: p.given, pending := none }

/-- Gives a switch its value. -/
def giveValue (p : Progress σ) (s : Switch σ) (text : String) : Except Stop (Progress σ) :=
  match s.effect with
  | .value set? =>
    match set? text with
    | some set => p.give s (set p.options)
    | none => .error .usage
  | _ => .error .usage

/-- Gives a switch, with its value if one is attached to it. -/
def giveSwitch (p : Progress σ) (s : Switch σ) (attached : Option String) :
    Except Stop (Progress σ) :=
  match attached, s.effect with
  | some text, _ => p.giveValue s text
  | none, .flag set => p.give s (set p.options)
  | none, .value _ => .ok { p with pending := some s }
  | none, .stop reason => .error reason

/-- Gives the next operand. -/
def giveOperand (p : Progress σ) (text : String) : Except Stop (Progress σ) :=
  match p.operands with
  | [] => .error .usage
  | set? :: operands =>
    match set? text with
    | some set => .ok { p with options := set p.options, operands }
    | none => .error .usage

/-- Gives switches by their letters. What is behind the letter of a switch that has a value is that
value. -/
def giveLetters (g : Grammar σ) (p : Progress σ) : List Char → Except Stop (Progress σ)
  | [] => .ok p
  | c :: cs =>
    match g.lettered? c with
    | none => .error .usage
    | some s =>
      match s.effect with
      | .value _ => p.giveSwitch s (attached? cs)
      | _ => do giveLetters g (← p.giveSwitch s none) cs

/-- The next operand may begin with a hyphen. -/
def takesHyphen (g : Grammar σ) (p : Progress σ) : Bool := g.hyphens && !p.operands.isEmpty

/-- Reads an argument. -/
def step (g : Grammar σ) (p : Progress σ) (argument : String) : Except Stop (Progress σ) :=
  if p.divided then p.giveOperand argument
  else
    match p.pending, Shape.of argument with
    | some s, .plain => p.giveValue s argument
    | some _, _ => .error .usage
    | none, .divider => .ok { p with divided := true }
    | none, .long name attached =>
      match g.named? name with
      | some s => p.giveSwitch s attached
      | none => if p.takesHyphen g then p.giveOperand argument else .error .usage
    | none, .letters cs =>
      if p.takesHyphen g && !cs.all fun c => (g.lettered? c).isSome then p.giveOperand argument
      else p.giveLetters g cs
    | none, .plain => p.giveOperand argument

/-- The next argument names another command. -/
def leaves (g : Grammar σ) (p : Progress σ) (argument : String) : Bool :=
  g.leads && p.operands.isEmpty && p.pending.isNone && !p.divided && Shape.of argument == .plain

/-- All that is needed has been given. -/
def complete (g : Grammar σ) (p : Progress σ) : Bool :=
  p.operands.isEmpty && p.pending.isNone &&
    g.switches.all fun s => !s.required || p.given.contains s.name

end Progress

namespace Grammar

variable {σ : Type}

/-- Reads arguments up to the name of another command. -/
def readFrom (g : Grammar σ) (p : Progress σ) :
    List String → Except Stop (Progress σ × List String)
  | [] => .ok (p, [])
  | a :: rest => if p.leaves g a then .ok (p, a :: rest) else do readFrom g (← p.step g a) rest

/-- The options that arguments give, beginning with `options`, the names of the switches among them,
and the arguments from the name of another command on. -/
def read (g : Grammar σ) (options : σ) (arguments : List String) :
    Except Stop (σ × List String × List String) := do
  let (p, rest) ← g.readFrom { options, operands := g.operands } arguments
  if p.complete g then .ok (p.options, p.given, rest) else .error .usage

/-- Gives the switches that were not given the values they have in the environment. -/
def fromEnvironment (g : Grammar σ) (environment : List (String × String)) (given : List String)
    (options : σ) : Except Stop σ :=
  environment.foldlM (fun options (name, text) =>
    match given.contains name, g.named? name with
    | false, some s =>
      Progress.options <$> Progress.giveValue { options, operands := [] } s text
    | _, _ => .ok options) options

end Grammar

/-! ## Commands -/

/-- A command among others. -/
structure Subcommand (α : Type) where
  name : String
  read : List String → Except Stop α

/-- The command with a grammar, beginning with `options`. -/
def Subcommand.of {σ α : Type} (name : String) (g : Grammar σ) (options : σ) (finish : σ → α) :
    Subcommand α where
  name
  read arguments := (fun r => finish r.1) <$> g.read options arguments

/-- The name that asks for help on another command. -/
def helpName : String := "help"

/-- Asks for help on the command that is named, if one is. -/
def chooseHelp (known : List String) : List String → Stop
  | [] => .help
  | [name] => if name ∈ helpName :: known then .help else .usage
  | _ => .usage

/-- The command that arguments name, with its own arguments. -/
def choose {α : Type} (commands : List (Subcommand α)) : List String → Except Stop α
  | [] => .error .usage
  | name :: arguments =>
    if name = helpName then .error (chooseHelp (commands.map (·.name)) arguments)
    else
      match commands.find? (·.name == name) with
      | some c => c.read arguments
      | none => .error .usage

/-! ## Values -/

/-- A switch whose value is read by `read?`. -/
def Switch.valued {σ α : Type} (name : String) (letter : Option Char) (read? : String → Option α)
    (set : α → σ → σ) : Switch σ where
  name
  letter
  effect := .value fun text => set <$> read? text

/-- An operand that is read by `read?`. -/
def Operand.valued {σ α : Type} (read? : String → Option α) (set : α → σ → σ) : Operand σ :=
  fun text => set <$> read? text

/-- Any text but an empty one. -/
def path? (text : String) : Option String := if text.isEmpty then none else some text

/-- A whole number from `low` to `high`. -/
def integer? (low high : Int) (text : String) : Option Int :=
  match Decimal.intBetween 0x8000000000000000 0x7FFFFFFFFFFFFFFF text.toList with
  | .ok n => if low ≤ n ∧ n ≤ high then some n else none
  | .error _ => none

/-- A whole number of eight bits. -/
def byte? (text : String) : Option UInt8 := (fun n => UInt8.ofNat n.toNat) <$> integer? 0 0xFF text

/-- A whole number of 16 bits. -/
def word? (text : String) : Option UInt16 :=
  (fun n => UInt16.ofNat n.toNat) <$> integer? 0 0xFFFF text

/-- A whole number of 32 bits. -/
def long? (text : String) : Option UInt32 :=
  (fun n => UInt32.ofNat n.toNat) <$> integer? 0 0xFFFFFFFF text

/-- A whole number of 16 bits with a sign. -/
def signed? (text : String) : Option Int16 :=
  Int16.ofInt <$> integer? (-0x8000) 0x7FFF text

/-- A whole number of 64 bits. -/
def count? (text : String) : Option Nat :=
  (Decimal.natUpTo 0xFFFFFFFFFFFFFFFF text.toList).toOption

end LightLink.CommandLine
