import StateAtlas.Yaml.Cursor
import StateAtlas.Yaml.Token

set_option autoImplicit false

/-!
# Directives, anchors and tags

## Main definitions

* `StateAtlas.Cursor.directive` — a line for the reader of a document.
* `StateAtlas.Cursor.anchorName` — the name of an anchor or of an alias.
* `StateAtlas.Cursor.tag` — a tag with its handle.
-/

namespace StateAtlas

/-- Something read from a document, with the position after it. -/
abbrev Reading (α : Type) := Except DocumentFault (α × Cursor)

namespace Cursor

/-- The name at a position, which must not be empty. -/
def nonEmptyName (c : Cursor) : Reading String :=
  match c.span isNameChar with
  | ([], _) => .error .malformed
  | (cs, c) => .ok (String.ofList cs, c)

/-! ### Tags -/

/-- Whether a character may stand in a tag as it is. -/
def isTagChar (c : Char) : Bool :=
  isNameChar c || ";/?:@&=+$,.!~*'()[]".toList.contains c

/-- Bytes written as percent signs with two digits each; `fuel` bounds their number. -/
def escapedBytes : Nat → Cursor → Reading (List UInt8)
  | 0, c => .ok ([], c)
  | fuel + 1, c =>
    if c.peek == '%' then
      match hexDigit? (c.peekAt 1), hexDigit? (c.peekAt 2) with
      | some a, some b =>
        match escapedBytes fuel (c.forward 3) with
        | .ok (bs, c) => .ok ((a * 16 + b).toUInt8 :: bs, c)
        | .error e => .error e
      | _, _ => .error .malformed
    else .ok ([], c)

/-- The pieces of a tag; `fuel` bounds their number. -/
def tagPieces : Nat → Cursor → Reading String
  | 0, c => .ok ("", c)
  | fuel + 1, c =>
    let (cs, c) := c.span isTagChar
    if c.peek == '%' then
      match escapedBytes c.rest.length c with
      | .error e => .error e
      | .ok (bs, c) =>
        match String.fromUTF8? ⟨bs.toArray⟩, tagPieces fuel c with
        | some s, .ok (rest, c) => .ok (String.ofList cs ++ s ++ rest, c)
        | none, _ => .error .malformed
        | _, .error e => .error e
    else .ok (String.ofList cs, c)

/-- The part of a tag after its handle, which must not be empty. -/
def tagSuffix (c : Cursor) : Reading String :=
  if isTagChar c.peek || c.peek == '%' then tagPieces (c.rest.length + 1) c else .error .malformed

/-- The handle of a tag: an exclamation mark, or a name between two. -/
def tagHandle (c : Cursor) : Reading String :=
  if c.peek != '!' then .error .malformed
  else if c.peekAt 1 == ' ' then .ok ("!", c.step)
  else
    let (cs, c) := c.step.span isNameChar
    if c.peek == '!' then .ok (String.ofList ('!' :: cs ++ ['!']), c.step) else .error .malformed

/-- Whether the word at a position holds a second exclamation mark. -/
def hasHandle (c : Cursor) : Bool := (c.step.rest.takeWhile (!endsField ·)).contains '!'

/-- A tag without the check of what follows it. -/
def tagBody (c : Cursor) : Reading (Option String × String) :=
  let next := c.peekAt 1
  if next == '<' then
    match (c.forward 2).tagSuffix with
    | .error e => .error e
    | .ok (suffix, c) => if c.peek == '>' then .ok ((none, suffix), c.step) else .error .malformed
  else if endsWord next then .ok ((none, "!"), c.step)
  else
    match if c.hasHandle then c.tagHandle else .ok ("!", c.step) with
    | .error e => .error e
    | .ok (handle, c) =>
      match c.tagSuffix with
      | .error e => .error e
      | .ok (suffix, c) => .ok ((some handle, suffix), c)

/-- A tag with its handle. -/
def tag (c : Cursor) : Reading Token :=
  match c.tagBody with
  | .error e => .error e
  | .ok ((handle, suffix), c) =>
    if endsField c.peek then .ok (.tag handle suffix, c) else .error .malformed

/-! ### Anchors -/

/-- The name of an anchor or of an alias, after its sign. -/
def anchorName (c : Cursor) : Reading String :=
  match c.step.nonEmptyName with
  | .error e => .error e
  | .ok (name, c) =>
    if endsWord c.peek || "?:,]\x7d%@\x60".toList.contains c.peek then .ok (name, c)
    else .error .malformed

/-! ### Directives -/

/-- A number of a version. -/
def versionNumber (c : Cursor) : Reading Nat :=
  match c.span Char.isDigit with
  | ([], _) => .error .malformed
  | (cs, c) => .ok (cs.foldl (fun n d => 10 * n + (d.toNat - 48)) 0, c)

/-- The two numbers of a version with a point between them. -/
def version (c : Cursor) : Reading Directive :=
  match c.skipSpaces.versionNumber with
  | .error e => .error e
  | .ok (major, c) =>
    if c.peek != '.' then .error .malformed
    else
      match c.step.versionNumber with
      | .error e => .error e
      | .ok (minor, c) =>
        if endsField c.peek then .ok (.version major minor, c) else .error .malformed

/-- A handle and what it stands for. -/
def handleMeaning (c : Cursor) : Reading Directive :=
  match c.skipSpaces.tagHandle with
  | .error e => .error e
  | .ok (handle, c) =>
    if c.peek != ' ' then .error .malformed
    else
      match c.skipSpaces.tagSuffix with
      | .error e => .error e
      | .ok (expansion, c) =>
        if endsField c.peek then .ok (.handle handle expansion, c) else .error .malformed

/-- The rest of a line that holds nothing but a comment. -/
def emptyLine (c : Cursor) : Except DocumentFault Cursor :=
  let c := c.skipSpaces.skipComment
  if endsLine c.peek then .ok c.lineBreak.2 else .error .malformed

/-- A line for the reader of a document. -/
def directive (c : Cursor) : Reading Token :=
  match c.step.nonEmptyName with
  | .error e => .error e
  | .ok (name, c) =>
    if !endsField c.peek then .error .malformed
    else
      let body : Reading Directive :=
        match name with
        | "YAML" => c.version
        | "TAG" => c.handleMeaning
        | _ => .ok (.other, c.skip (!endsLine ·))
      match body with
      | .error e => .error e
      | .ok (d, c) => c.emptyLine.map fun c => (.directive d, c)

end Cursor

end StateAtlas
