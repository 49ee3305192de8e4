import StateAtlas.Yaml.Layout
import StateAtlas.Yaml.Tag

set_option autoImplicit false

/-!
# The tree of a document

A node is a scalar, a sequence of nodes, or a mapping of nodes to nodes, each with a tag. An alias
stands for the node with its anchor; inside this node itself it stands for what is around it.

## Main definitions

* `StateAtlas.Node` — a node of a document.
* `StateAtlas.NodeReader` — the tokens still to be read, the handles of tags, and the anchors.
* `StateAtlas.Node.ofText` — the tree of a document with at most one node at its root.

## Design

Every function takes fuel that is more than the number of tokens, and each call of a node costs
one unit; running out of fuel counts as a malformed document.
-/

namespace StateAtlas

/-- A node of a document. -/
inductive Node where
  | scalar (tag : Tag) (text : String)
  | sequence (tag : Tag) (items : List Node)
  | mapping (tag : Tag) (entries : List (Node × Node))
  /-- A sequence, or a mapping, around this place. -/
  | enclosing (isMapping : Bool)
  deriving Inhabited

/-- The tokens still to be read, the handles of tags with what they stand for, and the nodes of
the anchors. -/
structure NodeReader where
  tokens : List Token
  /-- What is wrong after the last token. -/
  fault : Option DocumentFault
  handles : List (String × String)
  anchors : List (String × Node)

/-- Something made of tokens, with the reader after it. -/
abbrev Parsed (α : Type) := Except DocumentFault (α × NodeReader)

namespace NodeReader

/-- The handles that need no declaration. -/
def standardHandles : List (String × String) := [("!", "!"), ("!!", Tag.standard)]

/-- The fault of a token that does not belong here, or of what ended the tokens. -/
def misplaced (r : NodeReader) : DocumentFault :=
  match r.tokens with
  | [] => r.fault.getD .malformed
  | _ => .malformed

/-- Goes past a token. -/
def skip (r : NodeReader) : NodeReader := { r with tokens := r.tokens.drop 1 }

/-- Whether the next token is one of some. -/
def isAt (r : NodeReader) (ts : List Token) : Bool := r.tokens.head?.any ts.contains

/-- Whether no token is left, so that reading fails here. -/
def isBroken (r : NodeReader) : Bool := r.tokens.isEmpty

/-- Goes past a token that must be there. -/
def expect (r : NodeReader) (t : Token) : Except DocumentFault NodeReader :=
  if r.isAt [t] then .ok r.skip else .error r.misplaced

/-- Notes the node of an anchor. -/
def note (r : NodeReader) (anchor : Option String) (n : Node) : NodeReader :=
  match anchor with
  | some name => { r with anchors := (name, n) :: r.anchors }
  | none => r

/-- The anchor and the tag before a node. -/
structure Properties where
  anchor : Option String
  tag : Option String

/-- The name that a tag with a handle stands for. -/
def expand (r : NodeReader) (handle : Option String) (suffix : String) :
    Except DocumentFault String :=
  match handle with
  | none => .ok suffix
  | some h =>
    match r.handles.find? fun e => e.1 == h with
    | some (_, expansion) => .ok (expansion ++ suffix)
    | none => .error .malformed

/-- The anchor and the tag before a node, in any order. -/
def properties (r : NodeReader) : Parsed Properties :=
  let tagged (anchor : Option String) (handle : Option String) (suffix : String)
      (r : NodeReader) : Parsed Properties :=
    (r.expand handle suffix).map fun t => (⟨anchor, some t⟩, r)
  match r.tokens with
  | .anchor a :: .tag handle suffix :: rest =>
    tagged (some a) handle suffix { r with tokens := rest }
  | .tag handle suffix :: .anchor a :: rest =>
    tagged (some a) handle suffix { r with tokens := rest }
  | .anchor a :: rest => .ok (⟨some a, none⟩, { r with tokens := rest })
  | .tag handle suffix :: rest => tagged none handle suffix { r with tokens := rest }
  | _ => .ok (⟨none, none⟩, r)

/-- The given tag of a node; an exclamation mark alone gives none. -/
def Properties.given? (p : Properties) : Option Tag :=
  match p.tag with
  | none | some "!" => none
  | some uri => some (.ofUri uri)

/-- The node that is not written. -/
def empty : Node := .scalar .null ""

/-- A scalar. Without a tag its form decides if it is plain; an exclamation mark lets its form
decide always. -/
def Properties.scalar (p : Properties) (text : String) (isPlain : Bool) : Node :=
  match p.given? with
  | some t => .scalar t text
  | none => .scalar (if isPlain || p.tag.isSome then .ofPlain text else .str) text

end NodeReader

namespace Node

open NodeReader

/-- What may follow a key that has no node. -/
def keyEnds : List Token := [.key, .value, .blockEnd]

mutual

/-- A node. In blocks, a sequence may stand for a value without indentation of its own. -/
def parse (fuel : Nat) (inBlock unindented : Bool) (r : NodeReader) : Parsed Node :=
  match fuel with
  | 0 => .error .malformed
  | fuel + 1 =>
    match r.tokens with
    | .alias name :: rest =>
      match r.anchors.find? fun e => e.1 == name with
      | some (_, n) => .ok (n, { r with tokens := rest })
      | none => .error .malformed
    | _ =>
      match r.properties with
      | .error e => .error e
      | .ok (p, r) => parseContent fuel inBlock unindented p r

/-- A node after its properties. -/
def parseContent (fuel : Nat) (inBlock unindented : Bool) (p : Properties) (r : NodeReader) :
    Parsed Node :=
  match fuel with
  | 0 => .error .malformed
  | fuel + 1 =>
    if p.anchor.any fun a => r.anchors.any fun e => e.1 == a then .error .malformed
    else
      let sequence (result : Parsed (List Node)) : Parsed Node :=
        result.map fun (items, r) =>
          let n := Node.sequence (p.given?.getD .seq) items
          (n, r.note p.anchor n)
      let mapping (result : Parsed (List (Node × Node))) : Parsed Node :=
        result.map fun (entries, r) =>
          let n := Node.mapping (p.given?.getD .map) entries
          (n, r.note p.anchor n)
      let openSequence := r.skip.note p.anchor (.enclosing false)
      let openMapping := r.skip.note p.anchor (.enclosing true)
      match r.tokens, inBlock with
      | .blockEntry :: _, true =>
        if unindented then
          sequence (parseUnindented fuel (r.note p.anchor (.enclosing false)))
        else if p.anchor.isSome || p.tag.isSome then
          let n := p.scalar "" true
          .ok (n, r.note p.anchor n)
        else .error .malformed
      | .scalar text isPlain :: _, _ =>
        let n := p.scalar text isPlain
        .ok (n, r.skip.note p.anchor n)
      | .flowSequenceStart :: _, _ => sequence (parseFlowSequence fuel true openSequence)
      | .flowMappingStart :: _, _ => mapping (parseFlowMapping fuel true openMapping)
      | .blockSequenceStart :: _, true => sequence (parseBlockSequence fuel openSequence)
      | .blockMappingStart :: _, true => mapping (parseBlockMapping fuel openMapping)
      | _, _ =>
        if r.isBroken then .error r.misplaced
        else if p.anchor.isSome || p.tag.isSome then
          let n := p.scalar "" true
          .ok (n, r.note p.anchor n)
        else .error .malformed

/-- A node, unless one of some tokens shows that it is not written. -/
def parseUnless (fuel : Nat) (ends : List Token) (inBlock unindented : Bool) (r : NodeReader) :
    Parsed Node :=
  match fuel with
  | 0 => .error .malformed
  | fuel + 1 =>
    if r.isAt ends then .ok (NodeReader.empty, r) else parse fuel inBlock unindented r

/-- The entries of an indented sequence. -/
def parseBlockSequence (fuel : Nat) (r : NodeReader) : Parsed (List Node) :=
  match fuel with
  | 0 => .error .malformed
  | fuel + 1 =>
    if r.isAt [.blockEntry] then
      match parseUnless fuel [.blockEntry, .blockEnd] true false r.skip with
      | .error e => .error e
      | .ok (n, r) => (parseBlockSequence fuel r).map fun (ns, r) => (n :: ns, r)
    else (r.expect .blockEnd).map fun r => ([], r)

/-- The entries of a sequence without indentation of its own. -/
def parseUnindented (fuel : Nat) (r : NodeReader) : Parsed (List Node) :=
  match fuel with
  | 0 => .error .malformed
  | fuel + 1 =>
    if r.isAt [.blockEntry] then
      match parseUnless fuel (.blockEntry :: keyEnds) true false r.skip with
      | .error e => .error e
      | .ok (n, r) => (parseUnindented fuel r).map fun (ns, r) => (n :: ns, r)
    else .ok ([], r)

/-- The entries of an indented mapping. -/
def parseBlockMapping (fuel : Nat) (r : NodeReader) : Parsed (List (Node × Node)) :=
  match fuel with
  | 0 => .error .malformed
  | fuel + 1 =>
    if r.isAt [.key] then
      match parseUnless fuel keyEnds true true r.skip with
      | .error e => .error e
      | .ok (k, r) =>
        match parseValue fuel keyEnds true true r with
        | .error e => .error e
        | .ok (v, r) => (parseBlockMapping fuel r).map fun (es, r) => ((k, v) :: es, r)
    else (r.expect .blockEnd).map fun r => ([], r)

/-- The value of a key, if there is one. -/
def parseValue (fuel : Nat) (ends : List Token) (inBlock unindented : Bool) (r : NodeReader) :
    Parsed Node :=
  match fuel with
  | 0 => .error .malformed
  | fuel + 1 =>
    if r.isAt [.value] then parseUnless fuel ends inBlock unindented r.skip
    else .ok (NodeReader.empty, r)

/-- The entries of a sequence between brackets; those with a key are mappings of one entry. -/
def parseFlowSequence (fuel : Nat) (isFirst : Bool) (r : NodeReader) : Parsed (List Node) :=
  match fuel with
  | 0 => .error .malformed
  | fuel + 1 =>
    if r.isAt [.flowSequenceEnd] then .ok ([], r.skip)
    else
      match if isFirst then .ok r else r.expect .flowEntry with
      | .error e => .error e
      | .ok r =>
        if r.isAt [.flowSequenceEnd] then .ok ([], r.skip)
        else
          let ends : List Token := [.flowEntry, .flowSequenceEnd]
          let item : Parsed Node :=
            if r.isAt [.key] then
              match parseUnless fuel (.value :: ends) false false r.skip with
              | .error e => .error e
              | .ok (k, r) =>
                (parseValue fuel ends false false r).map fun (v, r) => (.mapping .map [(k, v)], r)
            else parse fuel false false r
          match item with
          | .error e => .error e
          | .ok (n, r) => (parseFlowSequence fuel false r).map fun (ns, r) => (n :: ns, r)

/-- The entries of a mapping between braces. -/
def parseFlowMapping (fuel : Nat) (isFirst : Bool) (r : NodeReader) :
    Parsed (List (Node × Node)) :=
  match fuel with
  | 0 => .error .malformed
  | fuel + 1 =>
    if r.isAt [.flowMappingEnd] then .ok ([], r.skip)
    else
      match if isFirst then .ok r else r.expect .flowEntry with
      | .error e => .error e
      | .ok r =>
        if r.isAt [.flowMappingEnd] then .ok ([], r.skip)
        else
          let ends : List Token := [.flowEntry, .flowMappingEnd]
          let entry : Parsed (Node × Node) :=
            if r.isAt [.key] then
              match parseUnless fuel (.value :: ends) false false r.skip with
              | .error e => .error e
              | .ok (k, r) => (parseValue fuel ends false false r).map fun (v, r) => ((k, v), r)
            else (parse fuel false false r).map fun (k, r) => ((k, NodeReader.empty), r)
          match entry with
          | .error e => .error e
          | .ok (e, r) => (parseFlowMapping fuel false r).map fun (es, r) => (e :: es, r)

end

/-! ### Documents -/

/-- The directives before a document: at most one version, which must begin with one, and every
handle only once. -/
def directives : List Token → Bool → List (String × String) →
    Except DocumentFault (List Token × List (String × String))
  | .directive (.version major _) :: ts, seen, handles =>
    if seen || major != 1 then .error .malformed else directives ts true handles
  | .directive (.handle name expansion) :: ts, seen, handles =>
    if handles.any fun e => e.1 == name then .error .malformed
    else directives ts seen ((name, expansion) :: handles)
  | .directive .other :: ts, seen, handles => directives ts seen handles
  | ts, _, handles => .ok (ts, handles)

/-- Whether a token is a directive. -/
def isDirective : Token → Bool
  | .directive _ => true
  | _ => false

/-- The node of a document with its start marked, after the marks of ends before it; `none` if
there is no document. -/
def parseMarked (fuel : Nat) (r : NodeReader) : Parsed (Option Node) :=
  let r := { r with tokens := r.tokens.dropWhile (· == .documentEnd) }
  if r.isAt [.streamEnd] then .ok (none, r)
  else
    match directives r.tokens false [] with
    | .error e => .error e
    | .ok (tokens, handles) =>
      match { r with tokens, handles := handles ++ standardHandles }.expect .documentStart with
      | .error e => .error e
      | .ok r =>
        if r.isAt [.documentStart, .documentEnd, .streamEnd] || r.tokens.head?.any isDirective then
          .ok (some NodeReader.empty, r)
        else (parse fuel true false r).map fun (n, r) => (some n, r)

/-- The node of the first document, if there is one. -/
def parseFirst (fuel : Nat) (r : NodeReader) : Parsed (Option Node) :=
  if r.isAt [.documentStart, .streamEnd] || r.tokens.head?.any isDirective then
    parseMarked fuel r
  else (parse fuel true false r).map fun (n, r) => (some n, r)

/-- The node of a single document; there must be no second one. -/
def parseDocument (fuel : Nat) (r : NodeReader) : Except DocumentFault (Option Node) :=
  match parseFirst fuel r with
  | .error e => .error e
  | .ok (none, _) => .ok none
  | .ok (some n, r) =>
    let r := if r.isAt [.documentEnd] then r.skip else r
    match parseMarked fuel { r with anchors := [] } with
    | .error e => .error e
    | .ok (none, _) => .ok (some n)
    | .ok (some _, _) => .error .malformed

/-- The tree of a document, if it is not empty. -/
def ofText (s : String) : Except DocumentFault (Option Node) :=
  let (tokens, fault) := Layout.tokensOf s
  parseDocument (8 * tokens.length + 8) ⟨tokens, fault, standardHandles, []⟩

end Node

end StateAtlas
