import TeamRouting.Bindings
import TeamRouting.Misconfiguration

/-!
# Resolution

Replaces every reference of an authored tree by the value that a booking supplies for it. This
happens once for a tree, before any member is looked at, and what is put in is never looked into
for further references. A reference without an answer is kept as indeterminate; a reference to a
source that does not exist is a misconfiguration, whatever the answers are.

* `resolveOperand`, `resolveRule` — one operand, one rule;
* `Query.resolve` — a tree;
* `Resolution.warnings` — what is said about references without an answer.
-/

namespace TeamRouting

/-- The source of answers that are known unless the settings say otherwise: the fields of the
booking form. -/
def formSource : String := "field"

/-- Resolves an operand. Notes the reference if there is no value for it. -/
def resolveOperand (known : NameSet) (bindings : Bindings) :
    Operand → Except Misconfiguration (ResolvedOperand × List Reference)
  | .literal value => .ok (.static value, [])
  | .dynamic reference =>
    if known.contains reference.source then
      match bindings.get? reference with
      | some value => .ok (.bound value reference, [])
      | none => .ok (.indeterminate reference, [reference])
    else
      .error (.unknownSource reference)

/-- Resolves the operand of a rule, if it has one. -/
def resolveRule (known : NameSet) (bindings : Bindings) (r : Rule Operand) :
    Except Misconfiguration (Rule ResolvedOperand × List Reference) :=
  match r.operand with
  | none => .ok (⟨r.attributeId, r.operator, none⟩, [])
  | some operand =>
    match resolveOperand known bindings operand with
    | .ok (resolved, unbound) => .ok (⟨r.attributeId, r.operator, some resolved⟩, unbound)
    | .error e => .error e

/-- A resolved tree and the references for which there was no value, each of them once, in
document order. -/
structure Resolution where
  tree : Query ResolvedOperand
  unbound : List Reference

/-- What is said about a reference without a value. -/
def Reference.unboundWarning (r : Reference) : String :=
  "dynamic operand " ++ r.text ++ " has no bound value"

/-- What is said about the references without a value. -/
def Resolution.warnings (r : Resolution) : List String :=
  r.unbound.map Reference.unboundWarning

/-- Resolves a tree against the sources that exist and the answers of a booking. -/
def Query.resolve (known : NameSet) (bindings : Bindings) (query : Query Operand) :
    Except Misconfiguration Resolution :=
  match query.traverse (resolveRule known bindings) with
  | .ok (tree, unbound) => .ok ⟨tree, unbound.eraseDups⟩
  | .error e => .error e

end TeamRouting
