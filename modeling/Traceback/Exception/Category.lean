import Traceback.Exception.Kind

/-! # Categories

What is known of the class of an exception: its name and the names of the classes it extends, of which
only some are built in.
-/

namespace Traceback
set_option autoImplicit false

/-- The class of an exception; `bases` are the names of what it extends, nearest first. -/
structure Category where
  name : Text
  bases : List Text
  deriving DecidableEq, Repr

namespace Category

def ofKind (k : Kind) : Category := ⟨k.name, []⟩

/-- The built-in kinds that the class or one of its bases names. -/
def kinds (c : Category) : List Kind := (c.name :: c.bases).filterMap Kind.ofName?

/-- The kind that the class itself names. -/
def kind? (c : Category) : Option Kind := Kind.ofName? c.name

/-- Whether a handler for `handled` catches exceptions of this class. -/
def isA (c : Category) (handled : Kind) : Bool := c.kinds.any fun k => k.isA handled

end Category
end Traceback
