import Traceback.Exception.Category
import Traceback.Exception.Linked
import Traceback.Frame

/-! # Exceptions

An exception as the interpreter reports it when nothing has caught it.
-/

namespace Traceback
set_option autoImplicit false

/-- An exception apart from its links; `frames` begins with the outermost call. -/
structure Raised where
  typeName : Text
  bases : List Text := []
  message : Text := []
  frames : List Frame := []
  /-- Where the source code is at fault, when that is what the exception is about. -/
  location : Option SyntaxLocation := none
  deriving DecidableEq, Repr

abbrev Exception := Linked Raised

namespace Raised

def category (r : Raised) : Category := ⟨r.typeName, r.bases⟩

/-- The frames, that of the faulty source code last. -/
def allFrames (r : Raised) : List Frame :=
  match r.location with
  | none => r.frames
  | some l => r.frames ++ [Frame.ofSyntaxLocation l]

end Raised

namespace Exception

/-- The exception raised from `cause`, which hides what was being handled. -/
def withCause (e cause : Exception) : Exception := { e with cause := cause.link, hidesContext := true }

/-- The exception raised while `context` was being handled. -/
def withContext (e context : Exception) : Exception := { e with context := context.link }

end Exception
end Traceback
