import Traceback.CommandLine.Options

/-! # Invocations

Arguments are read from left to right: first options, then the name of a command, then the command's own
options and operands. A parameter takes its value from behind an equals sign or from the next argument, and
is assigned when the next option or operand is met; so the first fault decides.

* `Argument`: what an argument looks like.
* `Level`: what has been read before or after the name of the command.
* `Invocation.ofArguments`: what a program is asked to do.
-/

namespace Traceback.CommandLine
set_option autoImplicit false

/-! ## Arguments -/

inductive Argument where
  | long (name : Text) (value : Option Text)
  | letters (t : Text)
  /-- A value, an operand or the name of a command. -/
  | plain (t : Text)
  deriving DecidableEq, Repr

/-- After this argument all others are operands. -/
def separator : Text := ['-', '-']

def Argument.ofText : Text → Argument
  | '-' :: '-' :: rest =>
    match rest.dropWhile (· != '=') with
    | [] => .long rest none
    | _ :: value => .long (rest.takeWhile (· != '=')) (some value)
  | '-' :: c :: rest => .letters (c :: rest)
  | t => .plain t

inductive Command where
  | render | last | help
  deriving DecidableEq, Repr

namespace Command

def all : List Command := [render, last, help]

def name : Command → String
  | render => "render"
  | last => "last"
  | help => "help"

def ofName? (t : Text) : Option Command := all.find? fun c => c.name.toList = t

/-- How many operands the command takes. -/
def arity : Command → Nat
  | render => 1
  | last | help => 0

end Command

/-- Why nothing is done. -/
inductive Stop where
  | misuse
  /-- The version of the program, or of a command, is asked for. -/
  | version (c : Option Command)
  | help
  deriving DecidableEq, Repr

/-! ## Levels -/

structure Level where
  /-- The command, once its name has been read. -/
  command : Option Command := none
  options : Options := {}
  /-- A parameter that has not been assigned yet, with its value if that is known. -/
  pending : Option (Parameter × Option Text) := none
  operands : List Text := []
  deriving DecidableEq, Repr

namespace Level

/-- Whether the next argument may be the value of a parameter. -/
def awaitsValue (l : Level) : Bool :=
  match l.pending with
  | some (_, none) => true
  | _ => false

/-- The level with its pending parameter assigned. -/
def settled (l : Level) : Except Stop Level :=
  match l.pending with
  | none => .ok l
  | some (_, none) => .error .misuse
  | some (p, some value) =>
    match l.options.assign? p value with
    | none => .error .misuse
    | some options => .ok { l with options, pending := none }

def parameter (l : Level) (p : Parameter) (value : Option Text) : Except Stop Level :=
  match l.settled with
  | .error s => .error s
  | .ok l =>
    let l := { l with pending := some (p, value) }
    if value.isSome then l.settled else .ok l

def switch (l : Level) (s : Switch) : Except Stop Level :=
  match l.settled with
  | .error s => .error s
  | .ok l =>
    match s with
    | .version => .error (.version l.command)
    | .help => .error .help
    | s =>
      match l.options.turnOn? s with
      | none => .error .misuse
      | some options => .ok { l with options }

def letter (l : Level) (c : Char) : Except Stop Level :=
  match Switch.ofLetter? c with
  | none => .error .misuse
  | some s => l.switch s

def arity (l : Level) : Nat := (l.command.map Command.arity).getD 0

def operand (l : Level) (t : Text) : Except Stop Level :=
  match l.settled with
  | .error s => .error s
  | .ok l => if l.operands.length < l.arity then .ok { l with operands := l.operands ++ [t] } else .error .misuse

def take (l : Level) : Argument → Except Stop Level
  | .long name value =>
    match Parameter.ofName? name, Switch.ofName? name, value with
    | some p, _, value => l.parameter p value
    | none, some s, none => l.switch s
    | none, _, _ => .error .misuse
  | .letters t => t.foldlM letter l
  | .plain t =>
    match l.pending with
    | some (p, none) => .ok { l with pending := some (p, some t) }
    | _ => l.operand t

/-- The level after all arguments. -/
def takeAll (l : Level) : List Text → Except Stop Level
  | [] => l.settled
  | a :: rest =>
    if a = separator then
      match rest.foldlM operand l with
      | .error s => .error s
      | .ok l => l.settled
    else
      match l.take (.ofText a) with
      | .error s => .error s
      | .ok l => takeAll l rest

/-- The level up to the name of a command, that command, and the arguments after it. -/
def takeToCommand (l : Level) : List Text → Except Stop (Level × Command × List Text)
  | [] => .error .misuse
  | a :: rest =>
    match if l.awaitsValue then none else Command.ofName? a with
    | some c => .ok (l, c, rest)
    | none =>
      if a = separator then .error .misuse
      else
        match l.take (.ofText a) with
        | .error s => .error s
        | .ok l => takeToCommand l rest

end Level

/-! ## Invocations -/

inductive Task where
  /-- To show the exception of a record and to keep its report. -/
  | render (record : Text)
  /-- To show the report that was kept last. -/
  | last
  deriving DecidableEq, Repr

structure Invocation where
  task : Task
  options : Options
  deriving DecidableEq, Repr

/-- The task of a command with these operands. -/
def Task.ofCommand? : Command → List Text → Option Task
  | .render, [record] => some (.render record)
  | .last, [] => some .last
  | _, _ => none

/-- Whether there is help on these words: none of them, or the name of one command. -/
def hasHelp : List Text → Bool
  | [] => true
  | [topic] => (Command.ofName? topic).isSome
  | _ => false

/-- What the arguments ask for. The options of the command are settled before those in front of it. -/
def Invocation.ofArguments (arguments : List Text) : Except Stop Invocation :=
  match Level.takeToCommand {} arguments with
  | .error s => .error s
  | .ok (_, .help, topics) => .error (if hasHelp topics then .help else .misuse)
  | .ok (outer, c, rest) =>
    match Level.takeAll { command := some c } rest with
    | .error s => .error s
    | .ok inner =>
      match outer.settled, Task.ofCommand? c inner.operands with
      | .ok outer, some task => .ok ⟨task, inner.options.overriding outer.options⟩
      | _, _ => .error .misuse

end Traceback.CommandLine
