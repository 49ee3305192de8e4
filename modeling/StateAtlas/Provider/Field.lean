import StateAtlas.Number.Decimal
import StateAtlas.Provider.Kind
import StateAtlas.Provider.Signature

set_option autoImplicit false

/-!
# Providers for fields

States are labelled by the values of watched fields. A boundary falls right after an instruction
that stores to a watched field and changes what the field says, so that every new value gets a
state of its own.

## Main definitions

* `StateAtlas.FieldReading` — what a field says: a truth value or an integer.
* `StateAtlas.FieldReading.texts` — how a label writes it.
* `StateAtlas.FieldProvider` — the watched fields, and what they said before the instruction that
  is running.
-/

namespace StateAtlas

/-- What a watched field says. -/
inductive FieldReading where
  | bool (b : Bool)
  /-- An integer, with the text it has by itself, if this is not the text of its digits. -/
  | int (i : Int) (text : Option String)
  deriving DecidableEq, Repr

namespace FieldReading

/-- What a truth value says of a field for truth values. -/
def ofBoolean? (v : Value) : Option FieldReading := v.boolean?.map .bool

/-- What an integer says of a field for integers. -/
def ofInteger? (v : Value) : Option FieldReading := v.integer?.map (.int · v.ownText?)

/-- What counts of a reading when it is compared: the text of an integer does not. -/
def plain : FieldReading → FieldReading
  | .bool b => .bool b
  | .int i _ => .int i none

/-- The word for a truth value in a label. -/
def booleanWord (b : Bool) : String := if b then "true" else "false"

/-- The text of a truth value. -/
def booleanText (b : Bool) : String := if b then "True" else "False"

/-- The word for an integer in a label: the sign is spelled out. An integer that is not negative is
written as the text it has by itself, if it has one. -/
def integerWord? (i : Int) (text : Option String) : Option String :=
  if i < 0 then (integerText? i.natAbs).map ("minus" ++ ·) else text <|> integerText? i

/-- The word and the text of a reading. -/
def texts : FieldReading → Except Fault (String × String)
  | .bool b => .ok (booleanWord b, booleanText b)
  | .int i text =>
    match integerWord? i text, text <|> integerText? i with
    | some word, some text => .ok (word, text)
    | _, _ => .error .integerTooLong

end FieldReading

/-- The watched fields, and what they said before the instruction that is running. -/
structure FieldProvider where
  /-- Whether the fields hold truth values, rather than integers. -/
  boolean : Bool
  fields : List FieldSpec
  previous : Bindings (Option FieldReading)

namespace FieldProvider

/-- What a value says. -/
def reading? (p : FieldProvider) (v : Value) : Option FieldReading :=
  if p.boolean then FieldReading.ofBoolean? v else FieldReading.ofInteger? v

/-- What a field says now. -/
def current? (p : FieldProvider) (s : Scene) (spec : FieldSpec) : Option FieldReading :=
  (s.resolve? spec.signature).bind p.reading?

/-- The label of a field that says something. -/
def label (spec : FieldSpec) (r : FieldReading) : Except Fault Label :=
  match r.texts with
  | .ok (word, text) =>
    .ok ⟨word ++ "__" ++ mangle spec.signature, spec.signature ++ " = " ++ text⟩
  | .error f => .error f

/-- The labels of fields. -/
def labelsOf (p : FieldProvider) (s : Scene) : List FieldSpec → Except Fault (List Label)
  | [] => .ok []
  | spec :: rest =>
    match p.current? s spec with
    | none => p.labelsOf s rest
    | some r =>
      match label spec r, p.labelsOf s rest with
      | .ok l, .ok ls => .ok (l :: ls)
      | .error f, _ => .error f
      | _, .error f => .error f

/-- The labels of all watched fields. -/
def stateLabels (p : FieldProvider) (s : Scene) : Opinion :=
  match p.labelsOf s p.fields with
  | .ok ls => .ok (some ls)
  | .error f => .error f

/-- Notes what the fields say that an instruction may store to. -/
def beforeInstruction (p : FieldProvider) (s : Scene) (i : Instruction) : FieldProvider :=
  let watched := p.fields.filter (·.covers s i)
  { p with previous := .ofList (watched.map fun spec => (spec.signature, p.current? s spec)) }

/-- Whether a watched field says something else than before the instruction that is running; its
text does not count. -/
def differs (p : FieldProvider) (s : Scene) (spec : FieldSpec) : Bool :=
  (p.current? s spec).map FieldReading.plain !=
    (p.previous.get? spec.signature).join.map FieldReading.plain

/-- Whether an instruction stored to a watched field and changed what it says. -/
def breakAfter (p : FieldProvider) (s : Scene) (i : Instruction) : Opinion :=
  if p.fields.any fun spec => spec.covers s i && p.differs s spec then .ok (some [])
  else .ok none

end FieldProvider

end StateAtlas
