import Traceback.Exception.TypeName
import Traceback.Rule

/-! # The catalog

The rules for the messages of the interpreter itself. Where the messages of one kind include those of
another the narrower rule stands first.
-/

namespace Traceback
set_option autoImplicit false

namespace Catalog

open Pattern

/-! ## Parts of restatements -/

/-- The user's name of the type in a group. -/
def typeIn (g : Groups) (name : String) : Text := userTypeName (g.get name)

/-- A type between angle brackets. -/
def angled (g : Groups) (name : String) : Text := '<' :: typeIn g name ++ ['>']

/-- An operator without the functions that share its message. -/
def operatorName (t : Text) : Text :=
  if t = "** or pow()".toList then "**".toList
  else if t = "divmod()".toList then "divmod".toList
  else t

def plural (count : Text) (noun : String) : Text :=
  count ++ ' ' :: noun.toList ++ if count = ['1'] then [] else ['s']

def didYouMean (g : Groups) : Text :=
  if g.contains "suggestion" then " (did you mean ".toList ++ g.get "suggestion" ++ "?)".toList else []

/-! ## Parts of patterns -/

def anything : Pattern := zeroOrMore .any

def something : Pattern := oneOrMore .any

def digits : Pattern := oneOrMore .digit

def unquoted : Pattern := zeroOrMore (.noneOf ['\''])

/-- A name with the quotes around it. -/
def quotedName (group : String) : Pattern :=
  Pattern.group group (all [literal "'", unquoted, literal "'"])

def suggestion : Pattern :=
  optional (all [literal ". Did you mean: ", quotedName "suggestion", literal "?"])

/-! ## Rules -/

def intConversion : Rule where
  name := "int-conversion".toList
  kind := .valueError
  pattern := all [literal "invalid literal for int() with base ", group "base" digits, literal ": ",
    group "value" anything]
  restate g := "cannot convert ".toList ++ g.get "value" ++ " to int (base ".toList ++ g.get "base" ++ [')']

def floatConversion : Rule where
  name := "float-conversion".toList
  kind := .valueError
  pattern := all [literal "could not convert string to float: ", group "value" anything]
  restate g := "cannot convert ".toList ++ g.get "value" ++ " to float".toList

def binaryOperand : Rule where
  name := "binary-operand".toList
  kind := .typeError
  pattern := all [literal "unsupported operand type(s) for ", group "op" something, literal ": '",
    group "left" anything, literal "' and '", group "right" anything, literal "'"]
  restate g := "cannot do `".toList ++ angled g "left" ++ ' ' :: operatorName (g.get "op") ++ ' ' ::
    angled g "right" ++ "`".toList

def concatenation : Rule where
  name := "concatenation".toList
  kind := .typeError
  pattern := all [literal "can only concatenate ", anything, literal " (not \"", group "right" anything,
    literal "\") to ", group "left" anything]
  restate g := "cannot do `".toList ++ angled g "left" ++ " + ".toList ++ angled g "right" ++ "`".toList

def unaryOperand : Rule where
  name := "unary-operand".toList
  kind := .typeError
  pattern := all [literal "bad operand type for unary ", group "op" (oneOrMore .visible), literal ": '",
    group "operand" anything, literal "'"]
  restate g := "cannot do `".toList ++ g.get "op" ++ angled g "operand" ++ "`".toList

def notSubscriptable : Rule where
  name := "not-subscriptable".toList
  kind := .typeError
  pattern := all [literal "'", group "type" anything, literal "' object is not subscriptable"]
  restate g := "`".toList ++ angled g "type" ++ "` values cannot be indexed".toList

def indexType : Rule where
  name := "index-type".toList
  kind := .typeError
  pattern := all [group "container" (oneOrMore .word), literal " indices must be integers",
    optional (literal " or slices"), literal ", not ", optional (literal "'"), group "index" unquoted,
    optional (literal "'")]
  restate g := "cannot index `".toList ++ angled g "container" ++ "` with `".toList ++ angled g "index" ++ "`".toList

def sliceIndex : Rule where
  name := "slice-index".toList
  kind := .typeError
  pattern := literal "slice indices must be integers or None or have an __index__ method"
  restate _ := "slice bounds must be int or None".toList

def notCallable : Rule where
  name := "not-callable".toList
  kind := .typeError
  pattern := all [literal "'", group "type" anything, literal "' object is not callable"]
  restate g := "`".toList ++ angled g "type" ++ "` values cannot be called".toList

def argumentCount : Rule where
  name := "argument-count".toList
  kind := .typeError
  pattern := all [group "func" (oneOrMore .visible), literal "() takes ",
    group "expected" (all [optional (all [literal "from ", digits, literal " to "]), digits]),
    literal " positional argument", optional (literal "s"), literal " but ", group "given" digits,
    literal " ", alt (literal "was") (literal "were"), literal " given"]
  restate g := "`".toList ++ g.get "func" ++ "()` expects ".toList ++ plural (g.get "expected") "argument" ++
    ", got ".toList ++ g.get "given"

def missingArgument : Rule where
  name := "missing-argument".toList
  kind := .typeError
  pattern := all [group "func" (oneOrMore .visible), literal "() missing ", group "count" digits,
    literal " required ", alt (literal "positional") (literal "keyword-only"), literal " argument",
    optional (literal "s"), literal ": ", group "names" anything]
  restate g := "`".toList ++ g.get "func" ++ "()` is missing ".toList ++ g.get "names"

def unboundLocal : Rule where
  name := "unbound-local".toList
  kind := .unboundLocalError
  pattern := alt
    (all [literal "cannot access local variable ", quotedName "name",
      literal " where it is not associated with a value"])
    (all [literal "local variable ", quotedName "legacy", literal " referenced before assignment"])
  restate g := (if g.contains "name" then g.get "name" else g.get "legacy") ++
    " was used before it was assigned".toList

def undefinedName : Rule where
  name := "undefined-name".toList
  kind := .nameError
  pattern := all [literal "name ", quotedName "name", literal " is not defined", suggestion]
  restate g := g.get "name" ++ " is not defined".toList ++ didYouMean g

def moduleAttribute : Rule where
  name := "module-attribute".toList
  kind := .attributeError
  pattern := all [literal "module '", group "module" unquoted, literal "' has no attribute '",
    group "attr" unquoted, literal "'", suggestion]
  restate g := "module '".toList ++ g.get "module" ++ "' has no member named '".toList ++ g.get "attr" ++
    '\'' :: didYouMean g

def missingAttribute : Rule where
  name := "missing-attribute".toList
  kind := .attributeError
  pattern := all [literal "'", group "type" unquoted, literal "' object has no attribute '",
    group "attr" unquoted, literal "'", suggestion]
  restate g := "`".toList ++ angled g "type" ++ "` values have no attribute '".toList ++ g.get "attr" ++
    '\'' :: didYouMean g

def indexRange : Rule where
  name := "index-range".toList
  kind := .indexError
  pattern := all [group "container" (oneOrMore .word), optional (literal " assignment"),
    literal " index out of range"]
  restate g := "index out of range for this ".toList ++ typeIn g "container"

def missingKey : Rule where
  name := "missing-key".toList
  kind := .keyError
  pattern := group "key" something
  restate g := "key ".toList ++ g.get "key" ++ " not found".toList

def zeroDivision : Rule where
  name := "zero-division".toList
  kind := .zeroDivisionError
  pattern := all [anything, literal "by zero"]
  restate _ := "cannot divide by zero".toList

def moduleNotFound : Rule where
  name := "module-not-found".toList
  kind := .moduleNotFoundError
  pattern := all [literal "No module named '", group "module" unquoted, literal "'"]
  restate g := "module '".toList ++ g.get "module" ++ "' could not be found".toList

def importName : Rule where
  name := "import-name".toList
  kind := .importError
  pattern := all [literal "cannot import name '", group "name" unquoted, literal "' from ",
    optional (group "partial" (literal "partially initialized module ")), literal "'",
    group "module" unquoted, literal "'", anything]
  restate g :=
    if g.contains "partial" then
      "cannot import '".toList ++ g.get "name" ++ "' from '".toList ++ g.get "module" ++
        "' while it is still being imported (circular import?)".toList
    else '\'' :: g.get "module" ++ "' has no member named '".toList ++ g.get "name" ++ ['\'']

/-- The place of the error is dropped from the message. -/
def syntaxMessage : Rule where
  name := "syntax".toList
  kind := .syntaxError
  pattern := all [group "msg" (many false 0 .any),
    optional (all [literal " (", group "file" (zeroOrMore (.noneOf ['(', ')'])), literal ", line ",
      group "line" digits, literal ")"])]
  restate g := g.get "msg"

end Catalog

open Catalog in
def RuleSet.builtin : RuleSet :=
  ⟨[intConversion, floatConversion, binaryOperand, concatenation, unaryOperand, notSubscriptable, indexType,
    sliceIndex, notCallable, argumentCount, missingArgument, unboundLocal, undefinedName, moduleAttribute,
    missingAttribute, indexRange, missingKey, zeroDivision, moduleNotFound, importName, syntaxMessage]⟩

end Traceback
