import TeamRouting.Json.Token

/-!
# Reading JSON

From tokens to a value. The machine keeps the containers that are still open, the innermost first,
and what may come next; each token closes, opens or fills one.

* `Build.step` — the machine;
* `Json.scan?` — a text that is JSON, in which some parts may be illegible;
* `Json.parse?` — a text that is JSON and legible throughout.
-/

namespace TeamRouting.Json

/-! ## The machine -/

/-- An open container with its contents so far, backwards. A key that cannot be read is `none`. -/
inductive Frame where
  | items (done : List Json)
  | fields (done : List (Option String × Json)) (key : Option String)

/-- What may come next. -/
inductive Slot where
  | value
  | firstItem
  | firstKey
  | key
  | colon
  | next
  | finished
deriving DecidableEq

/-- A value under construction. -/
structure Build where
  frames : List Frame
  slot : Slot
  result : Option Json

/-- The deepest nesting of containers that can be read. -/
def nestingLimit : Nat := 127

/-- Whether a value may come next. -/
def Slot.takesValue (slot : Slot) : Bool := slot = .value || slot = .firstItem

/-- A value is complete and goes into the innermost container. -/
def Build.complete (value : Json) : List Frame → Build
  | [] => ⟨[], .finished, some value⟩
  | .items done :: rest => ⟨.items (value :: done) :: rest, .next, none⟩
  | .fields done key :: rest => ⟨.fields ((key, value) :: done) none :: rest, .next, none⟩

/-- Fields whose keys can all be read. -/
def legibleFields? : List (Option String × Json) → Option (List (String × Json))
  | [] => some []
  | (none, _) :: _ => none
  | (some key, value) :: rest => (legibleFields? rest).map ((key, value) :: ·)

/-- The value of a closed container. -/
def Frame.value : Frame → Json
  | .items done => list done.reverse
  | .fields done _ => ((legibleFields? done.reverse).map object).getD illegible

/-- The innermost container is closed. -/
def Build.close (frame : Frame) (rest : List Frame) : Build :=
  Build.complete (if rest.length < nestingLimit then frame.value else illegible) rest

/-- A mark. -/
def Build.mark (build : Build) (c : Char) : Option Build :=
  match c, build.slot, build.frames with
  | '[', slot, frames =>
    if slot.takesValue then some ⟨.items [] :: frames, .firstItem, none⟩ else none
  | '\x7b', slot, frames =>
    if slot.takesValue then some ⟨.fields [] none :: frames, .firstKey, none⟩ else none
  | ']', slot, .items done :: rest =>
    if slot = .firstItem || slot = .next then some (Build.close (.items done) rest) else none
  | '\x7d', slot, .fields done key :: rest =>
    if slot = .firstKey || slot = .next then some (Build.close (.fields done key) rest) else none
  | ':', .colon, frames => some ⟨frames, .value, none⟩
  | ',', .next, .items done :: rest => some ⟨.items done :: rest, .value, none⟩
  | ',', .next, .fields done key :: rest => some ⟨.fields done key :: rest, .key, none⟩
  | _, _, _ => none

/-- One token. -/
def Build.step (build : Build) : Token → Option Build
  | .mark c => build.mark c
  | .word value => if build.slot.takesValue then some (Build.complete value build.frames) else none
  | .quoted s =>
    match build.slot, build.frames with
    | .firstKey, .fields done _ :: rest => some ⟨.fields done s :: rest, .colon, none⟩
    | .key, .fields done _ :: rest => some ⟨.fields done s :: rest, .colon, none⟩
    | slot, frames =>
      if slot.takesValue then
        some (Build.complete ((s.map text).getD illegible) frames)
      else
        none

/-! ## Texts -/

/-- The value of a JSON text, in which some parts may be illegible. -/
def scan? (s : String) : Option Json := do
  let tokens ← Token.ofChars? s.toList
  let build ← tokens.foldlM Build.step ⟨[], .value, none⟩
  build.result

/-- The value of a JSON text all of whose parts can be read. -/
def parse? (s : String) : Option Json := (scan? s).filter isLegible

end TeamRouting.Json
