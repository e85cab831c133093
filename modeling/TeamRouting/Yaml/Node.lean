import TeamRouting.Yaml.Token

/-!
# YAML nodes

From tokens to the nodes of a document. The machine keeps the collections that are still open, the
innermost first, and what may come next. An item or a value that is not written is an empty plain
scalar.

* `Node` — what a document holds;
* `Build.step` — the machine;
* `Node.ofText?` — the only document of a text.
-/

namespace TeamRouting.Yaml

/-- A node of a document. -/
inductive Node where
  | scalar (text : String) (plain : Bool)
  | list (items : List Node)
  | map (entries : List (Node × Node))
  /-- Stands for a collection that is nested too deep. It can be skipped, not read. -/
  | illegible
deriving Inhabited

/-- A node that is not written. -/
def Node.empty : Node := .scalar "" true

/-! ## The machine -/

/-- An entry of a map under construction. -/
inductive Entry where
  | absent
  /-- its key comes next -/
  | awaited
  | keyed (key : Node)

/-- An open collection with its contents so far, backwards. -/
inductive Frame where
  | blockList (done : List Node)
  /-- a list whose dashes stand no deeper than the entries of the map around it -/
  | flushList (done : List Node)
  | blockMap (done : List (Node × Node)) (entry : Entry)
  | flowList (done : List Node)
  | flowMap (done : List (Node × Node)) (entry : Entry)
  /-- a map of one entry without brackets, inside a flow list -/
  | pair (entry : Entry)

/-- What may come next. -/
inductive Slot where
  /-- a document -/
  | document
  /-- the content of a document behind its mark -/
  | content
  | node
  | colon
  /-- whatever follows a node of the innermost collection -/
  | next
  | finished
deriving DecidableEq

/-- A document under construction. -/
structure Build where
  frames : List Frame := []
  slot : Slot := .document
  result : Node := .empty

/-- The deepest nesting of collections that can be read. -/
def nestingLimit : Nat := 128

/-- A collection, given the number of collections around it. -/
def Node.within (depth : Nat) (node : Node) : Node :=
  if depth < nestingLimit then node else .illegible

namespace Build

/-- A node is complete and goes into the innermost collection. -/
def complete (node : Node) : List Frame → Build
  | [] => ⟨[], .finished, node⟩
  | .blockList done :: rest => ⟨.blockList (node :: done) :: rest, .next, .empty⟩
  | .flushList done :: rest => ⟨.flushList (node :: done) :: rest, .next, .empty⟩
  | .flowList done :: rest => ⟨.flowList (node :: done) :: rest, .next, .empty⟩
  | .blockMap done (.keyed key) :: rest =>
    ⟨.blockMap ((key, node) :: done) .absent :: rest, .next, .empty⟩
  | .blockMap done _ :: rest => ⟨.blockMap done (.keyed node) :: rest, .colon, .empty⟩
  | .flowMap done (.keyed key) :: rest =>
    ⟨.flowMap ((key, node) :: done) .absent :: rest, .next, .empty⟩
  | .flowMap done .awaited :: rest => ⟨.flowMap done (.keyed node) :: rest, .colon, .empty⟩
  | .flowMap done .absent :: rest =>
    ⟨.flowMap ((node, .empty) :: done) .absent :: rest, .next, .empty⟩
  | .pair (.keyed key) :: rest => complete (Node.within rest.length (.map [(key, node)])) rest
  | .pair _ :: rest => ⟨.pair (.keyed node) :: rest, .colon, .empty⟩

/-- The innermost collection is over. -/
def close (node : Node) (rest : List Frame) : Build := complete (node.within rest.length) rest

/-- Whether a token tells that the node in front of it is not written. -/
def isOmitted : List Frame → Token → Bool
  | .blockList _ :: _, .dash => true
  | .blockList _ :: _, .finish => true
  | .flushList _ :: _, .dash => true
  | .flushList _ :: _, .key => true
  | .flushList _ :: _, .finish => true
  | .blockMap _ (.keyed _) :: _, .key => true
  | .blockMap _ (.keyed _) :: _, .finish => true
  | .flowMap _ (.keyed _) :: _, .comma => true
  | .flowMap _ (.keyed _) :: _, .closeMap => true
  | .pair (.keyed _) :: _, .comma => true
  | .pair (.keyed _) :: _, .closeList => true
  | _, _ => false

/-- Fills in a node that is not written. -/
def fill (build : Build) (t : Token) : Build :=
  if build.slot = .node && isOmitted build.frames t then complete .empty build.frames else build

/-- A list without an indentation of its own is over at anything but a dash. -/
def endFlushList (build : Build) (t : Token) : Build :=
  match build.slot, build.frames, t with
  | .next, .flushList _ :: _, .dash => build
  | .next, .flushList done :: rest, _ => close (.list done.reverse) rest
  | _, _, _ => build

/-- A token where a node is expected. -/
def node? : List Frame → Token → Option Build
  | frames, .scalar text plain => some (complete (.scalar text plain) frames)
  | frames, .beginList => some ⟨.blockList [] :: frames, .next, .empty⟩
  | frames, .beginMap => some ⟨.blockMap [] .absent :: frames, .next, .empty⟩
  | frames, .openList => some ⟨.flowList [] :: frames, .node, .empty⟩
  | frames, .openMap => some ⟨.flowMap [] .absent :: frames, .node, .empty⟩
  | .blockMap done (.keyed key) :: rest, .dash =>
    some ⟨.flushList [] :: .blockMap done (.keyed key) :: rest, .node, .empty⟩
  | .flowList done :: rest, .key => some ⟨.pair .awaited :: .flowList done :: rest, .node, .empty⟩
  | .flowList done :: rest, .closeList => some (close (.list done.reverse) rest)
  | .flowMap done .absent :: rest, .key => some ⟨.flowMap done .awaited :: rest, .node, .empty⟩
  | .flowMap done .absent :: rest, .closeMap => some (close (.map done.reverse) rest)
  | _, _ => none

/-- A token behind a node. -/
def next? : List Frame → Token → Option Build
  | .blockList done :: rest, .dash => some ⟨.blockList done :: rest, .node, .empty⟩
  | .blockList done :: rest, .finish => some (close (.list done.reverse) rest)
  | .flushList done :: rest, .dash => some ⟨.flushList done :: rest, .node, .empty⟩
  | .blockMap done .absent :: rest, .key => some ⟨.blockMap done .awaited :: rest, .node, .empty⟩
  | .blockMap done .absent :: rest, .finish => some (close (.map done.reverse) rest)
  | .flowList done :: rest, .comma => some ⟨.flowList done :: rest, .node, .empty⟩
  | .flowList done :: rest, .closeList => some (close (.list done.reverse) rest)
  | .flowMap done .absent :: rest, .comma => some ⟨.flowMap done .absent :: rest, .node, .empty⟩
  | .flowMap done .absent :: rest, .closeMap => some (close (.map done.reverse) rest)
  | _, _ => none

/-- One token. -/
def step (build : Build) (t : Token) : Option Build :=
  let build := (build.fill t).endFlushList t
  match build.slot, t with
  | .document, .documentStart => some { build with slot := .content }
  | .document, t => node? [] t
  | .content, .documentEnd => some (complete .empty [])
  | .content, t => node? [] t
  | .node, t => node? build.frames t
  | .colon, .value => some { build with slot := .node }
  | .next, t => next? build.frames t
  | .finished, .documentEnd => some build
  | _, _ => none

/-- The document at the end of the tokens. Without tokens it is empty. -/
def document? (build : Build) : Option Node :=
  match build.slot with
  | .document => some .empty
  | .content => some .empty
  | .finished => some build.result
  | _ => none

end Build

/-- The only document of a text. -/
def Node.ofText? (s : String) : Option Node := do
  let tokens ← Token.ofText? s
  let build ← tokens.foldlM Build.step {}
  build.document?

end TeamRouting.Yaml
