import Traceback.Text.Basic

/-! # Names of types as users write them -/

namespace Traceback
set_option autoImplicit false

/-- The spellings that the interpreter has for one type of the user's, and the user's. -/
def typeSpellings : List (List String × String) :=
  [(["builtin_function_or_method", "builtin_function", "function"], "function"),
    (["method", "method-wrapper", "method_descriptor", "wrapper_descriptor", "classmethod_descriptor"], "method"),
    (["NoneType"], "None"),
    (["type"], "class"),
    (["string"], "str"),
    (["dict_keys"], "dict keys"),
    (["dict_values"], "dict values"),
    (["dict_items"], "dict items"),
    (["list_iterator", "tuple_iterator", "str_ascii_iterator", "range_iterator"], "iterator")]

/-- What a user calls the type that the interpreter calls `t`. -/
def userTypeName (t : Text) : Text :=
  match typeSpellings.find? fun entry => entry.1.any fun spelling => spelling.toList = t with
  | some entry => entry.2.toList
  | none => t

end Traceback
