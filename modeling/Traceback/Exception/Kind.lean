import Traceback.Text.Basic

/-! # Kinds of exceptions

The exception classes built into the interpreter, as a tree below `baseException`.

* `Kind.name`, `Kind.ofName?`: the class name of a kind, and the kind of a class name.
* `Kind.parent?`: the class that a kind directly extends.
* `Kind.lineage`: a kind and all it extends, nearest first.
* `Kind.isA`: what a handler for another kind would catch.
-/

namespace Traceback
set_option autoImplicit false

inductive Kind where
  | baseException | exception | systemExit | keyboardInterrupt | generatorExit
  | arithmeticError | floatingPointError | overflowError | zeroDivisionError
  | lookupError | indexError | keyError
  | runtimeError | notImplementedError | recursionError
  | nameError | unboundLocalError
  | valueError | unicodeError | unicodeDecodeError | unicodeEncodeError
  | importError | moduleNotFoundError
  | osError | fileNotFoundError | fileExistsError | isADirectoryError | notADirectoryError
  | permissionError | timeoutError
  | syntaxError | indentationError | tabError
  | assertionError | attributeError | bufferError | eofError | memoryError | referenceError
  | stopAsyncIteration | stopIteration | typeError
  deriving DecidableEq, Repr

namespace Kind

def all : List Kind :=
  [baseException, exception, systemExit, keyboardInterrupt, generatorExit,
    arithmeticError, floatingPointError, overflowError, zeroDivisionError,
    lookupError, indexError, keyError,
    runtimeError, notImplementedError, recursionError,
    nameError, unboundLocalError,
    valueError, unicodeError, unicodeDecodeError, unicodeEncodeError,
    importError, moduleNotFoundError,
    osError, fileNotFoundError, fileExistsError, isADirectoryError, notADirectoryError,
    permissionError, timeoutError,
    syntaxError, indentationError, tabError,
    assertionError, attributeError, bufferError, eofError, memoryError, referenceError,
    stopAsyncIteration, stopIteration, typeError]

/-! ## Names -/

def label : Kind → String
  | baseException => "BaseException"
  | exception => "Exception"
  | systemExit => "SystemExit"
  | keyboardInterrupt => "KeyboardInterrupt"
  | generatorExit => "GeneratorExit"
  | arithmeticError => "ArithmeticError"
  | floatingPointError => "FloatingPointError"
  | overflowError => "OverflowError"
  | zeroDivisionError => "ZeroDivisionError"
  | lookupError => "LookupError"
  | indexError => "IndexError"
  | keyError => "KeyError"
  | runtimeError => "RuntimeError"
  | notImplementedError => "NotImplementedError"
  | recursionError => "RecursionError"
  | nameError => "NameError"
  | unboundLocalError => "UnboundLocalError"
  | valueError => "ValueError"
  | unicodeError => "UnicodeError"
  | unicodeDecodeError => "UnicodeDecodeError"
  | unicodeEncodeError => "UnicodeEncodeError"
  | importError => "ImportError"
  | moduleNotFoundError => "ModuleNotFoundError"
  | osError => "OSError"
  | fileNotFoundError => "FileNotFoundError"
  | fileExistsError => "FileExistsError"
  | isADirectoryError => "IsADirectoryError"
  | notADirectoryError => "NotADirectoryError"
  | permissionError => "PermissionError"
  | timeoutError => "TimeoutError"
  | syntaxError => "SyntaxError"
  | indentationError => "IndentationError"
  | tabError => "TabError"
  | assertionError => "AssertionError"
  | attributeError => "AttributeError"
  | bufferError => "BufferError"
  | eofError => "EOFError"
  | memoryError => "MemoryError"
  | referenceError => "ReferenceError"
  | stopAsyncIteration => "StopAsyncIteration"
  | stopIteration => "StopIteration"
  | typeError => "TypeError"

def name (k : Kind) : Text := k.label.toList

def ofName? (t : Text) : Option Kind := all.find? fun k => k.name = t

/-! ## The tree -/

def parent? : Kind → Option Kind
  | baseException => none
  | exception | systemExit | keyboardInterrupt | generatorExit => some baseException
  | floatingPointError | overflowError | zeroDivisionError => some arithmeticError
  | indexError | keyError => some lookupError
  | notImplementedError | recursionError => some runtimeError
  | unboundLocalError => some nameError
  | unicodeError => some valueError
  | unicodeDecodeError | unicodeEncodeError => some unicodeError
  | moduleNotFoundError => some importError
  | fileNotFoundError | fileExistsError | isADirectoryError | notADirectoryError | permissionError
  | timeoutError => some osError
  | indentationError => some syntaxError
  | tabError => some indentationError
  | _ => some exception

/-- The kinds met on the way up, at most `n` steps. -/
def climb : Nat → Kind → List Kind
  | 0, k => [k]
  | n + 1, k =>
    match k.parent? with
    | none => [k]
    | some p => k :: climb n p

/-- A kind and all it extends; no kind lies more than four steps below the root. -/
def lineage (k : Kind) : List Kind := climb 4 k

/-- Whether a handler for `handled` catches exceptions of kind `k`. -/
def isA (k handled : Kind) : Bool := k.lineage.contains handled

end Kind
end Traceback
