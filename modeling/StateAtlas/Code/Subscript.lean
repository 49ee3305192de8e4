import StateAtlas.Code.Iteration
import StateAtlas.Data.Nth

set_option autoImplicit false

/-!
# Items of containers

The items of sequences have numbers, which may count from the end; those of mappings have keys.

## Main definitions

* `StateAtlas.Heap.item` — the item of a container under an index or a key.
* `StateAtlas.Heap.setItem` — replaces the item of a container.
* `StateAtlas.Heap.contains?` — whether a value is in a container.
* `StateAtlas.Heap.mapOf` — a mapping of keys and values.
-/

namespace StateAtlas

/-- The exception for a value that cannot be a key. -/
def unhashable (type : String) : Raised :=
  .ofText "TypeError" ("unhashable type: " ++ Quoted.text type)

namespace Heap

/-- The position of an index among some items, where values of the kind `kind` have items. -/
def position (h : Heap) (kind action : String) (index : Value) (size : Nat) : Except Raised Nat :=
  match index.index? with
  | none =>
    .error (.ofText "TypeError" (kind ++ " indices must be integers" ++
      (if kind == "string" then "" else " or slices") ++ ", not " ++
      (if kind == "string" then Quoted.text (h.typeNameFor index) else h.typeNameFor index)))
  | some i =>
    match place? size i with
    | some k => .ok k
    | none => .error (.ofText "IndexError" (kind ++ " " ++ action ++ " out of range"))

/-- The item of a container under an index or a key. -/
def item (h : Heap) (container index : Value) : Except Raised Value :=
  match container.content with
  | .tuple items =>
    (h.position "tuple" "index" index items.length).map fun k => items[k]?.getD .none
  | .str s =>
    (h.position "string" "index" index s.length).map fun k =>
      .str (String.ofList (s.toList[k]?).toList)
  | .bytes bs =>
    (h.position "byte" "index" index bs.length).map fun k => .int (bs[k]?.getD 0).toNat
  | _ =>
    match h.object? container with
    | some (.list items) =>
      (h.position "list" "index" index items.size).map fun k => items[k]?.getD .none
    | some (.range start stop step) =>
      (h.position "range" "object index" index (rangeLength start stop step)).map fun k =>
        .int (start + k * step)
    | some (.dict entries) =>
      match h.unhashable? index with
      | some type => .error (unhashable type)
      | none =>
        match (h.findEntry? entries index).bind (entries[·]?) with
        | some (_, v) => .ok v
        | none => .error ⟨.ofType "KeyError", [index]⟩
    | _ =>
      let name :=
        if h.isType container then "type " ++ Quoted.text (h.typeName container)
        else Quoted.text (h.typeNameFor container) ++ " object"
      .error (.ofText "TypeError" (name ++ " is not subscriptable"))

/-- Replaces the item of a container. -/
def setItem (h : Heap) (container index v : Value) : Except Raised Heap :=
  match h.object? container, container.content with
  | some (.list items), .ref a =>
    (h.position "list" "assignment index" index items.size).map fun k =>
      h.set a (.list (items.setIfInBounds k v))
  | some (.dict entries), .ref a =>
    match h.unhashable? index with
    | some type => .error (unhashable type)
    | none => .ok (h.set a (.dict (h.setEntry entries index v)))
  | _, _ =>
    .error (.ofText "TypeError" (Quoted.text (h.typeNameFor container) ++
      " object does not support item assignment"))

/-- Whether a text occurs in another. -/
def occurs (piece : List Char) : List Char → Bool
  | [] => piece.isEmpty
  | c :: cs => piece.isPrefixOf (c :: cs) || occurs piece cs

/-- Whether a value is in a container; `none` if its items have to be asked for. -/
def contains? (h : Heap) (container v : Value) : Except Raised (Option Bool) :=
  match container.content with
  | .tuple items => .ok (some (items.any (h.matching v)))
  | .str s =>
    match v.text? with
    | some piece => .ok (some (occurs piece.toList s.toList))
    | none =>
      .error (.ofText "TypeError" ("'in <string>' requires string as left operand, not " ++
        h.typeNameFor v))
  | _ =>
    match h.object? container with
    | some (.list items) => .ok (some (items.any (h.matching v)))
    | some (.set _ items) =>
      match h.unhashable? v with
      | some type => .error (unhashable type)
      | none => .ok (some (items.any (h.matching v)))
    | some (.dict entries) =>
      match h.unhashable? v with
      | some type => .error (unhashable type)
      | none => .ok (some (h.findEntry? entries v).isSome)
    | some (.range ..) | some (.iterator ..) | some (.generator _) => .ok none
    | _ =>
      .error (.ofText "TypeError" ("argument of type " ++ Quoted.text (h.typeNameFor container) ++
        " is not iterable"))

/-- A mapping of keys and values, a later one replacing an earlier one. -/
def mapOf (h : Heap) (entries : List (Value × Value)) : Except Raised (Value × Heap) :=
  match entries.findSome? fun e => h.unhashable? e.1 with
  | some type => .error (unhashable type)
  | none =>
    let (a, h) := h.allocate (.dict (entries.foldl (fun es e => h.setEntry es e.1 e.2) #[]))
    .ok (.ref a, h)

/-- Whether two values are one and the same. Values that cannot be changed are the same if they
are equal and of one type. -/
def identical (h : Heap) (a b : Value) : Bool :=
  match a, b with
  | .ref x, .ref y => x == y
  | .ref _, _ | _, .ref _ => false
  | .nan i _, .nan j _ => i == j
  | .float x, .float y => x.toBits == y.toBits
  | a, b => h.typeNameOf a == h.typeNameOf b && h.equal a b

end Heap

end StateAtlas
