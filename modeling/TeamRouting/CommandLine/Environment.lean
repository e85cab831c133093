import TeamRouting.Dictionary
import TeamRouting.Text.Blank
import TeamRouting.Text.CaseTable

/-!
# Environments

The variables that a program is given, and the file that may add to them. Each line of the file
sets one variable, unless the variable is set already. A value may be quoted and may refer to
other variables. Reading stops at the first line that makes no sense; what was set before stays.

* `Environment.find?` — the value of a variable;
* `Value.step` — the machine that reads a value;
* `Environment.extend` — the environment with what a file adds;
* `Environment.mentioned` — the names that matter to it.
-/

namespace TeamRouting.CommandLine

/-- The variables that are set. -/
structure Environment where
  values : Dictionary String String := ∅
deriving DecidableEq, Inhabited

namespace Environment

/-- The value of a variable. -/
def find? (env : Environment) (name : String) : Option String := env.values.find? name

/-- Sets a variable, unless it is set already. -/
def offer (env : Environment) (name value : String) : Environment :=
  if (env.find? name).isSome then env else ⟨env.values.insert name value⟩

end Environment

/-! ## Values -/

/-- The quotes around a part of a value. -/
inductive Quotes where
  | none
  | single
  | double
deriving DecidableEq

/-- Where the machine stands. Letters are listed backwards. -/
inductive Place where
  | text
  /-- behind a backslash -/
  | escape
  /-- in the name of a variable -/
  | name (letters : List Char)
  /-- in the name of a variable, between braces -/
  | braced (letters : List Char)
  /-- in the blanks behind the value -/
  | behind
  | comment

/-- A value under construction, with its letters backwards. -/
structure Value where
  letters : List Char := []
  quotes : Quotes := .none
  place : Place := .text

namespace Value

/-- The value with one more character. -/
def push (v : Value) (c : Char) : Value := { v with letters := c :: v.letters, place := .text }

/-- The value with what a variable stands for; one that is not set stands for nothing. -/
def substitute (v : Value) (env : Environment) (name : List Char) : Value :=
  let found := (env.find? (String.ofList name.reverse)).getD ""
  { v with letters := found.toList.reverse ++ v.letters, place := .text }

/-- The characters that a backslash may stand in front of to take away their meaning. -/
def escapable : List Char := "\\\x27\"$ ".toList

/-- A character behind a backslash. -/
def escaped? (v : Value) (c : Char) : Option Value :=
  if escapable.contains c then some (v.push c)
  else if c = 'n' then some (v.push '\n')
  else none

/-- Whether a character can be part of a name without braces: the digits, and the letters that
have a case. -/
def isNameLetter (c : Char) : Bool := c.isAlphanum || Text.casedRanges.contains c

/-- A character behind the name of a variable. -/
def behindName (v : Value) (env : Environment) (name : List Char) (c : Char) : Value :=
  let v := v.substitute env name
  if c = '$' then { v with place := .name [] } else v.push c

/-- A character of the text itself. -/
def inText (v : Value) (c : Char) : Value :=
  match v.quotes with
  | .single => if c = '\x27' then { v with quotes := .none } else v.push c
  | .double =>
    if c = '$' then { v with place := .name [] }
    else if c = '"' then { v with quotes := .none }
    else if c = '\\' then { v with place := .escape }
    else v.push c
  | .none =>
    if c = '$' then { v with place := .name [] }
    else if c = '\x27' then { v with quotes := .single }
    else if c = '"' then { v with quotes := .double }
    else if c = '\\' then { v with place := .escape }
    else if c = ' ' || c = '\t' then { v with place := .behind }
    else v.push c

/-- One character. Nothing but a comment may follow a value behind blanks. -/
def step (env : Environment) (v : Value) (c : Char) : Option Value :=
  match v.place with
  | .text => some (v.inText c)
  | .escape => v.escaped? c
  | .name letters =>
    if isNameLetter c then some { v with place := .name (c :: letters) }
    else if c = '\x7b' && letters.isEmpty then some { v with place := .braced [] }
    else some (v.behindName env letters c)
  | .braced letters =>
    if c = '\x7d' then some (v.substitute env letters)
    else some { v with place := .braced (c :: letters) }
  | .behind =>
    if c = ' ' || c = '\t' then some v
    else if c = '#' then some { v with place := .comment }
    else none
  | .comment => some v

/-- The end of the value. Quotes and braces must be closed. -/
def finish? (env : Environment) (v : Value) : Option String :=
  match v.quotes, v.place with
  | .none, .braced _ => none
  | .none, .name letters => some (String.ofList (v.substitute env letters).letters.reverse)
  | .none, _ => some (String.ofList v.letters.reverse)
  | _, _ => none

/-- The value that a text stands for. -/
def ofChars? (env : Environment) (cs : List Char) : Option String :=
  (cs.foldlM (step env) {}).bind (finish? env)

end Value

/-! ## Lines -/

/-- Whether a character can be part of the name of a variable that is set. -/
def isKeyLetter (c : Char) : Bool := c.isAlphanum || c = '_' || c = '.'

/-- The name at the beginning of a text, and the text behind the blanks that follow it. -/
def name? (cs : List Char) : Option (String × List Char) :=
  match cs with
  | c :: _ =>
    if c.isAlpha || c = '_' then
      some (String.ofList (cs.takeWhile isKeyLetter), Text.trimStart (cs.dropWhile isKeyLetter))
    else
      none
  | [] => none

/-- The text behind an equals sign. -/
def behindEquals? : List Char → Option (List Char)
  | '=' :: cs => some (Text.trimStart cs)
  | _ => none

/-- The variable that a text sets, and the text of its value. The word `export` may stand in
front. -/
def target? (cs : List Char) : Option (String × List Char) := do
  let (name, rest) ← name? cs
  match behindEquals? rest with
  | some value => return (name, value)
  | none =>
    if name = "export" then
      let (name, rest) ← name? rest
      return (name, ← behindEquals? rest)
    else
      none

/-- Whether nothing, or nothing but a comment, is left of a text. -/
def isVoid : List Char → Bool
  | [] => true
  | c :: _ => c = '#'

namespace Environment

/-- The environment with what a line adds. -/
def extendLine? (env : Environment) (line : List Char) : Option Environment :=
  let cs := Text.trimChars line
  if isVoid cs then
    some env
  else do
    let (name, value) ← target? cs
    if isVoid value then
      return env.offer name ""
    else
      return env.offer name (← Value.ofChars? env value)

/-- The environment with what lines add, up to the first that makes no sense. -/
def extendLines (env : Environment) : List (List Char) → Environment
  | [] => env
  | line :: rest =>
    match env.extendLine? line with
    | some env => extendLines env rest
    | none => env

/-- The environment with what a file adds. -/
def extend (env : Environment) (text : String) : Environment :=
  env.extendLines (text.toList.splitOn '\n')

/-- The runs of characters of a class in a text. -/
def runs (isMember : Char → Bool) (text : String) : List String :=
  (text.toList.splitBy fun c d => isMember c == isMember d).map String.ofList

/-- All names of variables that a file may set or refer to, and other parts of its text. -/
def mentioned (text : String) : List String :=
  (runs Value.isNameLetter text ++ runs isKeyLetter text ++
    runs (fun c => c != '\x7b' && c != '\x7d') text).eraseDups

end Environment

end TeamRouting.CommandLine
