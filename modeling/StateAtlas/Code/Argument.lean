import StateAtlas.Code.Process

set_option autoImplicit false

/-!
# Binding arguments

The arguments of a call are bound to the parameters of a function: positional ones in order, named
ones by name, defaults for those that are missing, and collections for those that are too many.

## Main definitions

* `StateAtlas.CodeObject.bindArguments` — the values of the parameters.
-/

namespace StateAtlas

/-- The values of parameters while arguments are bound. -/
structure ParameterValues where
  values : Array (Option Value)
  /-- Named arguments without a parameter of their name. -/
  extra : List (String × Value)
  deriving Inhabited

namespace CodeObject

/-- An ending for a number of things. -/
def plural (n : Nat) : String := if n == 1 then "" else "s"

/-- Names in quotes, joined as in a sentence. -/
def nameList (names : List String) : String :=
  match names.map Quoted.text with
  | [] => ""
  | [a] => a
  | [a, b] => a ++ " and " ++ b
  | qs => String.intercalate ", " qs.dropLast ++ ", and " ++ qs.getLast?.getD ""

/-- An exception of a call. -/
def callError (c : CodeObject) (text : String) : Raised :=
  .ofText "TypeError" (c.qualname ++ "() " ++ text)

/-- Binds named arguments. -/
def bindNamed (c : CodeObject) (ps : ParameterValues) :
    List (String × Value) → Except Raised ParameterValues
  | [] => .ok ps
  | (name, v) :: rest =>
    let parameters := c.variableNames.take (c.argCount + c.keywordOnlyCount)
    match parameters.findIdx? (· == name) with
    | some i =>
      match ps.values[i]? with
      | some (some _) =>
        .error (c.callError ("got multiple values for argument " ++ Quoted.text name))
      | _ => c.bindNamed { ps with values := ps.values.setIfInBounds i (some v) } rest
    | none =>
      if c.collectsKeywords then c.bindNamed { ps with extra := ps.extra ++ [(name, v)] } rest
      else .error (c.callError ("got an unexpected keyword argument " ++ Quoted.text name))

/-- The exception for too many positional arguments. -/
def tooMany (c : CodeObject) (given defaults keywordOnly : Nat) : Raised :=
  let few := toString (c.argCount - defaults)
  let many := toString c.argCount
  let takes :=
    if defaults == 0 then many ++ " positional argument" ++ plural c.argCount
    else "from " ++ few ++ " to " ++ many ++ " positional arguments"
  let only :=
    if keywordOnly == 0 then ""
    else " positional argument" ++ plural given ++ " (and " ++ toString keywordOnly ++
      " keyword-only argument" ++ plural keywordOnly ++ ")"
  c.callError ("takes " ++ takes ++ " but " ++ toString given ++ only ++
    (if given == 1 && keywordOnly == 0 then " was given" else " were given"))

/-- The exception for missing arguments. -/
def missing (c : CodeObject) (kind : String) (names : List String) : Raised :=
  c.callError ("missing " ++ toString names.length ++ " required " ++ kind ++ " argument" ++
    plural names.length ++ ": " ++ nameList names)

/-- The names of the parameters of a range that have no value. -/
def unbound (c : CodeObject) (values : Array (Option Value)) (start stop : Nat) : List String :=
  ((c.variableNames.zip values.toList).take stop).drop start |>.filterMap fun (n, v) =>
    if v.isSome then none else some n

/-- Fills parameters that have no value with the defaults of the last positional ones. -/
def fillDefaults (c : CodeObject) (values : Array (Option Value)) (defaults : List Value) :
    Array (Option Value) :=
  let start := c.argCount - defaults.length
  (List.range defaults.length).foldl (fun vs k =>
    match vs[start + k]? with
    | some none => vs.setIfInBounds (start + k) defaults[k]?
    | _ => vs) values

/-- The values of the parameters, in the order of the variables of the function, with the mapping
of further named arguments last. -/
def bindArguments (c : CodeObject) (defaults arguments : List Value)
    (named : List (String × Value)) : Except Raised (List Value × List (String × Value)) :=
  let count := c.argCount + c.keywordOnlyCount
  let start := (arguments.take c.argCount).map some
  let empty : ParameterValues :=
    ⟨(start ++ List.replicate (count - start.length) none).toArray, []⟩
  match c.bindNamed empty named with
  | .error r => .error r
  | .ok ps =>
    let keywordOnly := (ps.values.toList.drop c.argCount).filter Option.isSome
    if c.argCount < arguments.length && !c.collectsArguments then
      .error (c.tooMany arguments.length defaults.length keywordOnly.length)
    else
      let values := c.fillDefaults ps.values defaults
      let lacking := c.unbound values 0 c.argCount
      let lackingNamed := c.unbound values c.argCount count
      if !lacking.isEmpty then .error (c.missing "positional" lacking)
      else if !lackingNamed.isEmpty then .error (c.missing "keyword-only" lackingNamed)
      else
        let own := values.toList.map fun v => v.getD .none
        let collected :=
          if c.collectsArguments then [Value.tuple (arguments.drop c.argCount)] else []
        .ok (own ++ collected, ps.extra)

end CodeObject

end StateAtlas
