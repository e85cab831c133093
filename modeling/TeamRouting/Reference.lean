import TeamRouting.Text.Blank

/-!
# References

A rule may leave its value open and name instead where the value comes from when a booking is
made: a source, such as the fields of a form, and a field of it. Such a reference is written as a
template, `{source:field}`, with blanks allowed around the braces and around both names.

* `Reference.ofText?` — the reference that a text stands for;
* `Reference.text` — its template, without blanks.
-/

namespace TeamRouting

/-- A reference to a value that is supplied when a booking is made. -/
structure Reference where
  source : String
  field : String
deriving DecidableEq, Inhabited

namespace Reference

/-- The template of a reference. -/
def text (r : Reference) : String := "\x7b" ++ r.source ++ ":" ++ r.field ++ "\x7d"

/-- The characters of names: ASCII letters and digits, `_`, `-` and `.`. -/
def isNameChar (c : Char) : Bool := c.isAlphanum || c = '_' || c = '-' || c = '.'

/-- Whether a text can be the name of a source or field. -/
def isName (cs : List Char) : Bool := !cs.isEmpty && cs.all isNameChar

/-- The text between braces. -/
def inner? : List Char → Option (List Char)
  | '\x7b' :: cs =>
    match cs.reverse with
    | '\x7d' :: rest => some rest.reverse
    | _ => none
  | _ => none

/-- The text before the first colon and the text behind it. -/
def splitColon? : List Char → Option (List Char × List Char)
  | [] => none
  | c :: cs => if c = ':' then some ([], cs) else (splitColon? cs).map fun p => (c :: p.1, p.2)

/-- The reference that a template stands for; any other text is no reference. -/
def ofChars? (cs : List Char) : Option Reference := do
  let inside ← inner? (Text.trimChars cs)
  let (before, behind) ← splitColon? inside
  let source := Text.trimChars before
  let field := Text.trimChars behind
  if isName source && isName field then
    some ⟨String.ofList source, String.ofList field⟩
  else
    none

/-- The reference that a text stands for. -/
def ofText? (s : String) : Option Reference := ofChars? s.toList

end Reference

end TeamRouting
