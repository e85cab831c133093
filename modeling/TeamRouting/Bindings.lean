import TeamRouting.Dictionary
import TeamRouting.Document
import TeamRouting.Operand

/-!
# Bindings

The answers of one booking: values by source and field. A blank answer is no answer.

* `Bindings.get?` — the value that a reference is bound to;
* `Bindings.insert` — one more answer;
* `Bindings.ofDocument?` — reads answers.
-/

namespace TeamRouting

/-- The values of references, by source and field. -/
structure Bindings where
  sources : Dictionary String (Dictionary String Literal) := ∅
deriving DecidableEq, Inhabited

namespace Bindings

/-- The value that a reference is bound to; blank values do not count. -/
def get? (b : Bindings) (r : Reference) : Option Literal :=
  ((b.sources.find? r.source).bind (·.find? r.field)).filter fun value => !value.isBlank

/-- The bindings with one value set. -/
def insert (b : Bindings) (source field : String) (value : Literal) : Bindings :=
  ⟨b.sources.insert source (((b.sources.find? source).getD ∅).insert field value)⟩

/-- What is bound is never blank. -/
theorem not_isBlank_of_get? {b : Bindings} {r : Reference} {value : Literal}
    (h : b.get? r = some value) : value.isBlank = false := by
  have := (Option.filter_eq_some_iff.1 h).2
  simpa using this

/-! ## Reading -/

/-- The fields of one source. -/
def fieldsOfJson? : Json → Option (Dictionary String Literal)
  | .object fields => do
    let values ← fields.mapM fun field => (Literal.ofJson? field.2).map (field.1, ·)
    return .ofList values
  | _ => none

/-- Reads bindings: a map of sources to maps of fields. -/
def ofDocument? {δ : Type} [Document δ] (d : δ) : Option Bindings := do
  let sources ← Document.entries? d
  let values ← sources.mapM fun source => (fieldsOfJson? source.2).map (source.1, ·)
  return ⟨.ofList values⟩

end Bindings

end TeamRouting
