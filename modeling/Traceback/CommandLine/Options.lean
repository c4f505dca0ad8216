import Traceback.Log
import Traceback.Settings

/-! # Options of the command line

* `Parameter`, `Switch`: options with a value and options without one.
* `Options`: the options that were given.
* `Options.assign?`, `Options.turnOn?`: one more option; most may be given once.
* `Options.settings`, `Options.level`: the settings that they ask for, and how much is told in the log.
-/

namespace Traceback.CommandLine
set_option autoImplicit false

/-! ## Names -/

/-- An option with a value. -/
inductive Parameter where
  | limit | format | indent | boundary | store
  deriving DecidableEq, Repr

namespace Parameter

def all : List Parameter := [limit, format, indent, boundary, store]

def name : Parameter → String
  | limit => "limit"
  | format => "format"
  | indent => "indent"
  | boundary => "boundary"
  | store => "store"

def ofName? (t : Text) : Option Parameter := all.find? fun p => p.name.toList = t

end Parameter

/-- An option without a value. -/
inductive Switch where
  | keepRaises | color | showAll | verbose | version | help
  deriving DecidableEq, Repr

namespace Switch

def all : List Switch := [keepRaises, color, showAll, verbose, version, help]

def name : Switch → String
  | keepRaises => "keep-raise-frames"
  | color => "color"
  | showAll => "show-all-if-boundary-missing"
  | verbose => "verbose"
  | version => "version"
  | help => "help"

def ofName? (t : Text) : Option Switch := all.find? fun s => s.name.toList = t

def ofLetter? : Char → Option Switch
  | 'v' => some verbose
  | 'V' => some version
  | 'h' => some help
  | _ => none

end Switch

/-! ## Values -/

/-- Numbers are below this one. -/
def bound : Nat := UInt64.size

/-- The number written in decimal digits, which may have a plus sign in front. -/
def number? (t : Text) : Option Nat :=
  let digits := (Text.dropPrefix? ['+'] t).getD t
  if digits.isEmpty || !digits.all Char.isDigit then none
  else
    let n := digits.foldl (fun n c => 10 * n + (c.toNat - '0'.toNat)) 0
    if n < bound then some n else none

/-- The empty text is no path. -/
def path? (t : Text) : Option Text := if t.isEmpty then none else some t

structure Options where
  limit : Option Nat := none
  format : Option Text := none
  indent : Option Nat := none
  boundary : Option Text := none
  store : Option Text := none
  keepRaises : Bool := false
  color : Bool := false
  showAll : Bool := false
  /-- How often more of the log was asked for. -/
  verbose : Nat := 0
  deriving DecidableEq, Repr

namespace Options

/-- The options with a value for `p`, unless it has one already or the value is unsuitable. -/
def assign? (o : Options) (p : Parameter) (value : Text) : Option Options :=
  match p with
  | .limit => if o.limit.isSome then none else (number? value).map fun n => { o with limit := some n }
  | .format => if o.format.isSome then none else some { o with format := some value }
  | .indent => if o.indent.isSome then none else (number? value).map fun n => { o with indent := some n }
  | .boundary => if o.boundary.isSome then none else (path? value).map fun t => { o with boundary := some t }
  | .store => if o.store.isSome then none else (path? value).map fun t => { o with store := some t }

/-- The options with a switch on, which may be said again only of the log. -/
def turnOn? (o : Options) (s : Switch) : Option Options :=
  match s with
  | .keepRaises => if o.keepRaises then none else some { o with keepRaises := true }
  | .color => if o.color then none else some { o with color := true }
  | .showAll => if o.showAll then none else some { o with showAll := true }
  | .verbose => some { o with verbose := o.verbose + 1 }
  | .version | .help => some o

/-- The options of a command together with those before its name, which it overrides. -/
def overriding (inner outer : Options) : Options where
  limit := inner.limit <|> outer.limit
  format := inner.format <|> outer.format
  indent := inner.indent <|> outer.indent
  boundary := inner.boundary <|> outer.boundary
  store := inner.store <|> outer.store
  keepRaises := inner.keepRaises || outer.keepRaises
  color := inner.color || outer.color
  showAll := inner.showAll || outer.showAll
  verbose := if inner.verbose = 0 then outer.verbose else inner.verbose

def template (o : Options) : Except Template.Fault Template :=
  match o.format with
  | none => .ok .standard
  | some source => Template.read source

/-- What was not given is as in the standard settings. -/
def settings (o : Options) : Except Template.Fault Settings :=
  let standard : Settings := {}
  o.template.map fun template =>
    { template
      indent := o.indent.getD standard.indent
      color := o.color
      limit := o.limit.getD standard.limit
      hideRaises := !o.keepRaises
      boundary := o.boundary
      missing := if o.showAll then .showAll else .hideAll }

def level (o : Options) : LogLevel :=
  match o.verbose with
  | 0 => .warning
  | 1 => .debug
  | _ => .trace

end Options
end Traceback.CommandLine
