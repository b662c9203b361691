import CodeAtlas.Text.Split

/-!
# Command lines

Reading the arguments of a command by a table of its options. An option is given by its name behind
two hyphens; its value is the next argument, or stands behind an equals sign. Everything behind a
bare double hyphen is an operand. What the options are for is not known here.

## Main definitions

* `Flag`, `Grammar`: an option, and what a command understands.
* `Line`: the options and operands of a command.
* `Grammar.scan`: read the arguments of a command, up to the name of a subcommand.
-/
namespace CodeAtlas.Command

/-- An option that a command understands. -/
structure Flag where
  name : String
  /-- Which values the option takes, if it takes one. -/
  value : Option (String → Bool) := none
  /-- The option may be given more than once. -/
  repeats : Bool := false

/-- What a command understands. -/
structure Grammar where
  flags : List Flag
  subcommands : List String := []
  /-- The number of operands. -/
  operands : Nat := 0
  /-- The command tells its version when asked to. -/
  hasVersion : Bool := false

/-- The options and operands of a command, in the order in which they are given. -/
structure Line where
  options : List (String × String) := []
  operands : List String := []

/-- Where the reading of arguments stops. -/
inductive Stop where
  /-- There are no more arguments. -/
  | finished
  /-- The name of a subcommand, with the arguments that follow it. -/
  | subcommand (name : String) (arguments : List String)
  | help
  | version

namespace Line

/-- The value of an option. -/
def value? (l : Line) (name : String) : Option String := l.options.lookup name

/-- All values of an option. -/
def values (l : Line) (name : String) : List String :=
  (l.options.filter (·.1 = name)).map (·.2)

/-- Whether an option is given. -/
def has (l : Line) (name : String) : Bool := (l.value? name).isSome

/-- The line with one more option, unless it is given already and may not be repeated or does not
take the value. -/
def give (l : Line) (f : Flag) (value : String) : Option Line :=
  if !f.repeats && l.has f.name then none
  else if f.value.all (· value) then
    some { l with options := l.options ++ [(f.name, value)] }
  else none

/-- The line with more operands, unless these become too many. -/
def addOperands (l : Line) (limit : Nat) (more : List String) : Option Line :=
  if l.operands.length + more.length ≤ limit then
    some { l with operands := l.operands ++ more }
  else none

end Line

/-- An argument by its form. -/
inductive Argument where
  /-- A bare double hyphen. -/
  | separator
  /-- A name behind two hyphens, with a value if there is an equals sign. -/
  | long (name : String) (value : Option String)
  /-- A letter behind one hyphen. -/
  | short (letter : Char)
  /-- Anything else, a bare hyphen included. -/
  | word

/-- The form of an argument. -/
def Argument.ofString (s : String) : Argument :=
  match s.toList with
  | ['-', '-'] => separator
  | '-' :: '-' :: rest =>
    match Text.cutFirst '=' rest with
    | some (name, value) => long (String.ofList name) (some (String.ofList value))
    | none => long (String.ofList rest) none
  | '-' :: letter :: _ => short letter
  | _ => word

/-- Whether an argument can be the value of an option. -/
def isWord (s : String) : Bool :=
  match Argument.ofString s with
  | .word => true
  | _ => false

namespace Grammar

/-- Read arguments in addition to a line, up to the end, the name of a subcommand or a request that
is met at once. There is no line if the command does not understand an argument. -/
def scan (g : Grammar) : List String → Line → Option (Line × Stop)
  | [], l => some (l, .finished)
  | argument :: rest, l =>
    match Argument.ofString argument with
    | .separator => (l.addOperands g.operands rest).map (·, .finished)
    | .short 'h' => some (l, .help)
    | .short letter => if g.hasVersion && letter = 'V' then some (l, .version) else none
    | .word =>
      if argument ∈ g.subcommands then some (l, .subcommand argument rest)
      else (l.addOperands g.operands [argument]).bind (g.scan rest)
    | .long "help" none => some (l, .help)
    | .long name value =>
      if g.hasVersion && name = "version" && value.isNone then some (l, .version)
      else
        match g.flags.find? (·.name = name), value with
        | none, _ => none
        | some f, some v => if f.value.isSome then (l.give f v).bind (g.scan rest) else none
        | some f, none =>
          if f.value.isNone then (l.give f "").bind (g.scan rest)
          else
            match rest with
            | [] => none
            | v :: rest => if isWord v then (l.give f v).bind (g.scan rest) else none

end Grammar
end CodeAtlas.Command
