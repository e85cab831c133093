import TeamRouting.Dictionary

/-!
# Arguments

The command line as a list of words. The first word names a command, the others are its options:
long ones with two dashes, short ones with one, where several short ones may share a dash. A value
is the next word, or it is attached to its option. No option may be given twice.

* `Command` — what can be asked for;
* `Options.step` — one word behind a command;
* `Command.ofArguments` — the command of a whole line.
-/

namespace TeamRouting.CommandLine

/-! ## Commands -/

/-- Finds the members to whom a booking would go. Trees, bindings and settings are named by the
files that hold them. -/
structure EvaluateCommand where
  catalog : String
  query : Option String
  fallback : Option String
  operands : Option String
  troubleshoot : Bool
  config : Option String
deriving DecidableEq

/-- Checks a tree against a catalog. -/
structure ValidateCommand where
  catalog : String
  query : String
  operands : Option String
  config : Option String
deriving DecidableEq

/-- What can be asked for. -/
inductive Command where
  | evaluate (command : EvaluateCommand)
  | validate (command : ValidateCommand)
  | help
  | version
deriving DecidableEq

/-! ## Options -/

/-- An option of a command. -/
inductive Switch where
  | catalog
  | query
  | fallback
  | operands
  | troubleshoot
  | config
deriving DecidableEq

/-- Whether an option comes with a value. -/
def Switch.takesValue (s : Switch) : Bool := s != .troubleshoot

/-- The option of a long name. -/
def Switch.ofLong? : String → Option Switch
  | "catalog" => some .catalog
  | "query" => some .query
  | "fallback" => some .fallback
  | "operands" => some .operands
  | "troubleshoot" => some .troubleshoot
  | "config" => some .config
  | _ => none

/-- The option of a short name. -/
def Switch.ofShort? : Char → Option Switch
  | 'c' => some .catalog
  | 'q' => some .query
  | 'f' => some .fallback
  | 'o' => some .operands
  | 't' => some .troubleshoot
  | _ => none

/-- The options of `evaluate`. -/
def evaluateSwitches : List Switch :=
  [.catalog, .query, .fallback, .operands, .troubleshoot, .config]

/-- The options of `validate`. -/
def validateSwitches : List Switch := [.catalog, .query, .operands, .config]

/-- Why words are not read to their end. -/
inductive Halt where
  /-- help is asked for -/
  | help
  /-- the words make no sense -/
  | misuse
deriving DecidableEq

/-- The options read so far. -/
structure Options where
  given : Dictionary Switch String := ∅
  /-- an option whose value comes next -/
  pending : Option Switch := none
  /-- nothing more may come -/
  ended : Bool := false

namespace Options

/-- An option with its value. -/
def give (options : Options) (s : Switch) (value : String) : Except Halt Options :=
  if (options.given.find? s).isSome then .error .misuse
  else .ok { options with given := options.given.insert s value, pending := none }

/-- An option that stands for itself, or whose value comes next. -/
def announce (options : Options) (s : Switch) : Except Halt Options :=
  if s.takesValue then .ok { options with pending := some s } else options.give s ""

/-- The characters behind an equals sign, if they begin with one. -/
def dropEquals : List Char → List Char
  | '=' :: cs => cs
  | cs => cs

/-- Short options behind one dash. What follows an option with a value is its value. -/
def short (allowed : List Switch) (options : Options) : List Char → Except Halt Options
  | [] => .ok options
  | c :: rest =>
    if c = 'h' then .error .help
    else
      match (Switch.ofShort? c).filter allowed.contains with
      | none => .error .misuse
      | some s =>
        if s.takesValue && !rest.isEmpty then
          options.give s (String.ofList (dropEquals rest))
        else
          match options.announce s with
          | .ok options => short allowed options rest
          | .error halt => .error halt

/-- A long option, which may have its value attached behind an equals sign. -/
def long (allowed : List Switch) (options : Options) (cs : List Char) : Except Halt Options :=
  let name := String.ofList (cs.takeWhile (· != '='))
  let attached := cs.dropWhile (· != '=')
  if name = "help" && attached.isEmpty then .error .help
  else
    match (Switch.ofLong? name).filter allowed.contains with
    | none => .error .misuse
    | some s =>
      if attached.isEmpty then options.announce s
      else if s.takesValue then options.give s (String.ofList (dropEquals attached))
      else .error .misuse

/-- Whether a word can be the value of an option in front of it. -/
def isValue : List Char → Bool
  | ['-'] => true
  | '-' :: _ => false
  | _ => true

/-- One word. -/
def step (allowed : List Switch) (options : Options) (word : String) : Except Halt Options :=
  match options.ended, options.pending, word.toList with
  | true, _, _ => .error .misuse
  | false, some s, cs => if isValue cs then options.give s word else .error .misuse
  | false, none, ['-', '-'] => .ok { options with ended := true }
  | false, none, '-' :: '-' :: cs => options.long allowed cs
  | false, none, ['-'] => .error .misuse
  | false, none, '-' :: cs => options.short allowed cs
  | false, none, _ => .error .misuse

/-- The options that words give. The last option must not lack its value. -/
def ofWords (allowed : List Switch) (words : List String) :
    Except Halt (Dictionary Switch String) :=
  match words.foldlM (step allowed) {} with
  | .error halt => .error halt
  | .ok options => if options.pending.isSome then .error .misuse else .ok options.given

end Options

/-! ## Lines -/

/-- The command `evaluate` with its options. -/
def EvaluateCommand.ofOptions? (given : Dictionary Switch String) : Option EvaluateCommand :=
  (given.find? .catalog).map fun catalog => {
    catalog
    query := given.find? .query
    fallback := given.find? .fallback
    operands := given.find? .operands
    troubleshoot := (given.find? .troubleshoot).isSome
    config := given.find? .config }

/-- The command `validate` with its options. -/
def ValidateCommand.ofOptions? (given : Dictionary Switch String) : Option ValidateCommand :=
  match given.find? .catalog, given.find? .query with
  | some catalog, some query =>
    some { catalog, query, operands := given.find? .operands, config := given.find? .config }
  | _, _ => none

namespace Command

/-- The command that options make, unless help is asked for. -/
def ofOptions? (command? : Dictionary Switch String → Option Command) :
    Except Halt (Dictionary Switch String) → Option Command
  | .ok given => command? given
  | .error .help => some help
  | .error .misuse => none

/-- Whether words name a command to be helped with. -/
def isHelpTopic : List String → Bool
  | [] => true
  | [word] => word = "evaluate" || word = "validate" || word = "help"
  | _ => false

/-- The command of a line, if the line makes sense. -/
def ofArguments? : List String → Option Command
  | "evaluate" :: words =>
    ofOptions? (fun given => (EvaluateCommand.ofOptions? given).map evaluate)
      (Options.ofWords evaluateSwitches words)
  | "validate" :: words =>
    ofOptions? (fun given => (ValidateCommand.ofOptions? given).map validate)
      (Options.ofWords validateSwitches words)
  | "help" :: words => if isHelpTopic words then some help else none
  | word :: _ =>
    if word = "--help" || word.startsWith "-h" then some help
    else if word = "--version" || word.startsWith "-V" then some version
    else none
  | [] => none

/-- The files that a command names. -/
def paths : Command → List String
  | evaluate c =>
    [c.catalog] ++ c.query.toList ++ c.fallback.toList ++ c.operands.toList ++ c.config.toList
  | validate c => [c.catalog, c.query] ++ c.operands.toList ++ c.config.toList
  | help => []
  | version => []

end Command

end TeamRouting.CommandLine
