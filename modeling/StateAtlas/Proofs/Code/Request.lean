import Mathlib.Tactic.Common
import StateAtlas.Code.Program
import StateAtlas.Code.Source

set_option autoImplicit false

/-!
# Values that code asks for

Where code pauses at a choice it waits for the answer to a request, and the alternatives of the
choice are the values of the request in their natural order.

## Main definitions

* `StateAtlas.ChoiceRequest.values` — the values of a request, in their natural order.
* `StateAtlas.CodeProgram.ofSteps`, `StateAtlas.CodeProgram.asking`,
  `StateAtlas.CodeProgram.catching` — programs given by their steps.

## Main results

* `StateAtlas.ChoiceRequest.pick?_eq_values` — the alternatives of a request are its values.
* `StateAtlas.CodeProgram.step_eq_choice` — code pauses at a choice to wait for an answer.
* `StateAtlas.CodeProgram.resume_choose` — code goes on with the value of the alternative.
-/

namespace StateAtlas

/-! ## The values of a request -/

namespace ChoiceRequest

variable {α : Type}

/-- The values of a request, in their natural order: false before true, the integers of a range
upwards, and the items of a sequence from the front. -/
def values : ChoiceRequest α → List (Choice α)
  | .boolean => [.boolean false, .boolean true]
  | .within low high => (List.range (high - low + 1).toNat).map fun i : Nat => .integer (low + i)
  | .among items => items.map .item

/-- A request has as many values as alternatives. -/
lemma length_values {r : ChoiceRequest α} {n : Int} (h : r.count = .ok n) :
    r.values.length = n.toNat := by
  cases r with
  | boolean =>
    obtain rfl : 2 = n := by simpa [count] using h
    rfl
  | within low high =>
    simp only [count] at h
    split at h
    · simp at h
    · obtain rfl : high - low + 1 = n := by simpa using h
      simp [values]
  | among items =>
    simp only [count] at h
    split at h
    · simp at h
    · obtain rfl : (items.length : Int) = n := by simpa using h
      simp [values]

/-- The value of an alternative is the value at its place. -/
lemma pick?_eq_values {r : ChoiceRequest α} {n : Int} (h : r.count = .ok n) {a : Nat}
    (ha : (a : Int) < n) : r.pick? a = r.values[a]? := by
  cases r with
  | boolean =>
    obtain rfl : 2 = n := by simpa [count] using h
    obtain rfl | rfl : a = 0 ∨ a = 1 := by omega
    · rfl
    · rfl
  | within low high =>
    have hlen := length_values h
    have ha' : a < (high - low + 1).toNat := by
      simp only [values, List.length_map, List.length_range] at hlen
      omega
    simp [pick?, values, ha']
  | among items => simp [pick?, values, nth?]

end ChoiceRequest

/-- The value that an answer gives to code. -/
def Choice.value : Choice Value → Value
  | .boolean b => .bool b
  | .integer i => .int i
  | .item v => v

/-! ## Programs given by their steps -/

namespace CodeProgram

/-- The program that consists of a module with some steps. -/
def ofSteps (name : String) (handlers : List Handler) (steps : List CodeStep) : CodeProgram where
  name := name
  codes := #[{ Source.moduleOf [] with handlers, steps := ⟨steps⟩ }]

/-- The steps with which a module begins that has a name from another module:
`from module import name as given`. -/
def importSteps (module name given : String) : List CodeStep :=
  [⟨0, "RESUME", .number 0, .resume⟩,
   ⟨2, "LOAD_CONST", .constant (.int 0), .loadConstant (.int 0)⟩,
   ⟨4, "LOAD_CONST", .constant (.tuple [.str name]), .loadConstant (.tuple [.str name])⟩,
   ⟨6, "IMPORT_NAME", .text module, .importModule module⟩,
   ⟨8, "IMPORT_FROM", .text name, .importFrom name⟩,
   ⟨10, "STORE_NAME", .text given, .storeName given⟩,
   ⟨12, "POP_TOP", .absent, .popTop⟩]

/-- The steps that ask for a truth value, `verify.get_boolean()`, from an offset on. -/
def askSteps (verify : String) (offset : Nat) : List CodeStep :=
  [⟨offset, "PUSH_NULL", .absent, .pushNull⟩,
   ⟨offset + 2, "LOAD_NAME", .text verify, .loadName verify⟩,
   ⟨offset + 4, "LOAD_ATTR", .text "get_boolean", .loadAttribute "get_boolean"⟩,
   ⟨offset + 14, "PRECALL", .number 0, .idle⟩,
   ⟨offset + 18, "CALL", .number 0, .call 0⟩]

/-- The steps that end a module, from an offset on. -/
def leaveSteps (offset : Nat) : List CodeStep :=
  [⟨offset, "LOAD_CONST", .constant .none, .loadConstant .none⟩,
   ⟨offset + 2, "RETURN_VALUE", .absent, .return⟩]

/-- The program that consists of a module that asks for values. -/
def asking (name : String) (handlers : List Handler) (steps : List CodeStep) : CodeProgram :=
  ofSteps name handlers (importSteps "statelabel.verify" "Verify" "Verify" ++ steps)

/-- The program that asks for a truth value, catches whatever comes of it, and takes some steps then,
before an offset: `try: Verify.get_boolean()` and `except BaseException`. -/
def catching (name : String) (offset : Nat) (steps : List CodeStep) : CodeProgram :=
  asking name [⟨16, 46, 50, 0, false⟩, ⟨50, offset + 2, offset + 2, 1, true⟩]
    ([⟨14, "NOP", .absent, .idle⟩] ++ askSteps "Verify" 16 ++ [⟨44, "POP_TOP", .absent, .popTop⟩] ++
      leaveSteps 46 ++
      [⟨50, "PUSH_EXC_INFO", .absent, .pushHandled⟩,
       ⟨52, "LOAD_NAME", .text "BaseException", .loadName "BaseException"⟩,
       ⟨54, "CHECK_EXC_MATCH", .absent, .matchException⟩,
       ⟨56, "POP_JUMP_FORWARD_IF_FALSE", .number offset, .jumpWhen false offset⟩,
       ⟨58, "POP_TOP", .absent, .popTop⟩] ++ steps ++
      [⟨offset, "RERAISE", .number 0, .reraise⟩,
       ⟨offset + 2, "COPY", .number 3, .copy 3⟩,
       ⟨offset + 4, "POP_EXCEPT", .absent, .popHandled⟩,
       ⟨offset + 6, "RERAISE", .number 1, .reraise⟩])

end CodeProgram

/-! ## Choices of code -/

/-- A move that pauses at a choice waits for the answer to a request. -/
def Move.Requests (m : Move Process) : Prop :=
  ∀ n q, m = .choice n q → ∃ r, q.mode = .choosing r ∧ r.count = .ok n

namespace Process

lemma requests_internal (p : Process) : (Move.internal p).Requests := by
  simp [Move.Requests]

/-- A request pauses for its answer, unless there is nothing to choose from. -/
lemma requests_request (p : Process) (r : ChoiceRequest Value) : (p.request r).Requests := by
  intro n q h
  unfold request at h
  split at h
  · rename_i hn
    obtain ⟨rfl, rfl⟩ := Move.choice.inj h
    exact ⟨r, rfl, hn⟩
  · simp at h

/-- The end of the search is not a choice. -/
lemma requests_terminate (p : Process) (arguments : List Value) :
    (p.terminate arguments).Requests := by
  unfold terminate
  split
  · split
    · simp [Move.Requests]
    · exact requests_internal _
  · exact requests_internal _

/-- Of all built-in functions, only those that ask for a value pause at a choice. -/
lemma requests_callFunction (p : Process) (codes : Array CodeObject) (file name : String)
    (arguments : List Value) (named : List (String × Value)) :
    (p.callFunction codes file name arguments named).Requests := by
  unfold callFunction
  split
  case h_1 =>
    unfold print
    split
    · exact requests_internal _
    · split
      · exact requests_internal _
      · exact requests_internal _
      · exact requests_internal _
      · simp [Move.Requests]
  all_goals try exact requests_internal _
  · split
    · exact requests_request _ _
    · exact requests_internal _
  · split
    · exact requests_request _ _
    · exact requests_internal _
  · split <;> exact requests_internal _
  · exact requests_terminate _ _

/-- A call pauses at a choice only to ask for a value. -/
lemma requests_call (p : Process) (codes : Array CodeObject) (file : String) (callee : Value)
    (arguments : List Value) (named : List (String × Value)) :
    (p.call codes file callee arguments named).Requests := by
  unfold call
  split
  · exact requests_callFunction _ _ _ _ _ _
  · exact requests_internal _
  · split
    · exact requests_internal _
    · exact requests_internal _
    · exact requests_internal _
    · split <;> exact requests_internal _
    · exact requests_internal _

/-- A collection pauses at a choice only to ask for one of its items. -/
lemma requests_receiveEnd (p : Process) (codes : Array CodeObject) :
    (p.receiveEnd codes).Requests := by
  unfold receiveEnd
  split
  · exact requests_internal _
  · exact requests_internal _
  · unfold finishCollection
    split
    all_goals try exact requests_internal _
    exact requests_request _ _
  · exact requests_internal _
  · exact requests_internal _

end Process

/-- No operation pauses at a choice by itself. -/
lemma CodeContext.requests_execute (x : CodeContext) (op : Operation) :
    (x.execute op).Requests := by
  unfold execute
  split
  · exact Process.requests_internal _
  · exact Process.requests_internal _
  · split
    all_goals try exact Process.requests_internal _
    simp [leave, Move.Requests]

namespace CodeProgram

variable (source : CodeProgram)

/-- Code pauses at a choice to wait for the answer to a request.

**Proof sketch.** One case for each mode of the process. Only a call and the end of a collection
can ask for a value. -/
theorem step_eq_choice {p q : Process} {n : Int} (h : source.program.next p = .choice n q) :
    ∃ r, q.mode = .choosing r ∧ r.count = .ok n := by
  have hreq : (source.step p).Requests := by
    unfold step
    split
    all_goals try exact Process.requests_internal _
    · unfold advance
      split
      · simp only
        split
        · split
          · simp [Move.Requests]
          · exact Process.requests_internal _
        · exact Process.requests_internal _
      · exact Process.requests_internal _
    · unfold execute
      split
      · split
        · split
          · exact CodeContext.requests_execute _ _
          · exact Process.requests_internal _
        · exact Process.requests_internal _
      · exact Process.requests_internal _
    · exact Process.requests_call _ _ _ _ _ _
    · exact Process.requests_receiveEnd _ _
    · unfold unwind
      split
      · exact Process.requests_internal _
      · exact Process.requests_internal _
      · simp [Move.Requests]
      · exact Process.requests_internal _
    · simp [Move.Requests]
  exact hreq n q h

/-- Code that waits for the answer to a request goes on with the value of the alternative that is
followed. -/
theorem resume_choose {p : Process} {r : ChoiceRequest Value} (hp : p.mode = .choosing r) {n : Int}
    (hn : r.count = .ok n) {a : Nat} {v : Choice Value} (ha : r.values[a]? = some v) :
    source.program.reply p (.choose a) = p.deliver v.value := by
  have hlt : (a : Int) < n := by
    have hlen := ChoiceRequest.length_values hn
    have ha' := (List.getElem?_eq_some_iff.mp ha).1
    omega
  change resume p (.choose a) = _
  simp only [resume, hp, ChoiceRequest.pick?_eq_values hn hlt, ha]
  cases v <;> rfl

end CodeProgram

end StateAtlas
