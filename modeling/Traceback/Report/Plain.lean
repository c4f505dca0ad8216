import Traceback.Exception.Raised

/-! # The interpreter's own layout

How exceptions are shown while no other display is in place: the outermost call first under a heading, the
class and message last, errors that led to it before.

* `Exception.plain`: an exception in that layout.
-/

namespace Traceback
set_option autoImplicit false

/-- What the interpreter says between an error and the one it is tied to. -/
def Tie.plainConnective : Tie → Text
  | .cause => "The above exception was the direct cause of the following exception:".toList
  | .context => "During handling of the above exception, another exception occurred:".toList

/-- The place of a frame and, where its source line was captured, that line. -/
def Frame.plain (f : Frame) : Text :=
  let place := "  File \"".toList ++ f.file ++ "\", line ".toList ++ Text.ofNat f.line.toNat ++
    ", in ".toList ++ f.scope ++ ['\n']
  let line := (f.source.getD []).trim
  if line.isEmpty then place else place ++ "    ".toList ++ line ++ ['\n']

namespace Raised

def heading : Text := "Traceback (most recent call last):\n".toList

/-- The frames, under a heading if there are any, and the class with the message. -/
def plain (r : Raised) : Text :=
  (if r.frames.isEmpty then [] else heading ++ r.frames.flatMap Frame.plain) ++
    (if r.message.isEmpty then r.typeName else r.typeName ++ ": ".toList ++ r.message) ++ ['\n']

end Raised

namespace Exception

def plain (e : Exception) : Text :=
  e.recount fun raised earlier =>
    match earlier with
    | some (text, tie) => text ++ '\n' :: tie.plainConnective ++ '\n' :: '\n' :: raised.plain
    | none => raised.plain

end Exception
end Traceback
