import StateAtlas.Program.Literal

set_option autoImplicit false

/-!
# Commands

A script is a list of commands on the variables of one module. Commands are numbered from zero;
running past the last one ends the script.

## Main definitions

* `StateAtlas.Command` — one command.
* `StateAtlas.ScriptFailure` — the exceptions a script can raise on purpose.
-/

namespace StateAtlas

/-- The exceptions a script can raise on purpose. -/
inductive ScriptFailure where
  | value
  | runtime
  | exit
  | interrupt
  deriving DecidableEq, Repr

/-- The name of the class of an exception. -/
def ScriptFailure.typeName : ScriptFailure → String
  | .value => "ValueError"
  | .runtime => "RuntimeError"
  | .exit => "SystemExit"
  | .interrupt => "KeyboardInterrupt"

/-- The exception of a class. -/
def ScriptFailure.ofName? (name : String) : Option ScriptFailure :=
  [ScriptFailure.value, .runtime, .exit, .interrupt].find? fun f => f.typeName == name

/-- One command of a script. -/
inductive Command where
  /-- Binds a variable to a fresh value. -/
  | assign (name : String) (value : Literal)
  /-- Adds a value to a variable. -/
  | add (name : String) (amount : Literal)
  /-- Reduces a variable to its remainder. -/
  | reduce (name : String) (modulus : Literal)
  /-- Appends a fresh value to the list that a variable is bound to. -/
  | append (name : String) (value : Literal)
  /-- Binds a variable to the value of another one. -/
  | copy (name source : String)
  | delete (name : String)
  /-- Binds a variable to a truth value, an integer or an item that is left open. -/
  | chooseBoolean (name : String)
  | chooseInteger (name : String) (low high : Int)
  | chooseItem (name : String) (items : List Literal)
  /-- Binds a variable to the number of an alternative. -/
  | chooseNumber (name : String) (options : Int)
  | jump (target : Nat)
  | jumpIfEqual (name : String) (value : Literal) (target : Nat)
  | jumpIfLess (name : String) (value : Literal) (target : Nat)
  /-- Jumps when the search has executed the script at least this many times before. -/
  | jumpIfExecutions (count : Int) (target : Nat)
  /-- Asks for a boundary after the command. -/
  | boundary
  | raise (failure : ScriptFailure) (text : String)
  /-- Ends the whole search before the next command. -/
  | terminate
  | finish

end StateAtlas
