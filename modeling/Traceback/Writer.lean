import Traceback.FileTree

/-! # Writers

Where a program writes text, which may fail.

* `Writer`: what becomes of a text that is written.
* `Writer.say`: a text is written unless there is none.
-/

namespace Traceback
set_option autoImplicit false

structure Writer where
  /-- What arrives of a text, and whether writing it failed. -/
  write : Text → Text × Except FileFault Unit
  whole : ∀ t, (write t).2 = .ok () → (write t).1 = t

namespace Writer

/-- Everything arrives. -/
def steady : Writer := ⟨fun t => (t, .ok ()), fun _ _ => rfl⟩

/-- Nothing arrives. -/
def broken (f : FileFault) : Writer := ⟨fun _ => ([], .error f), fun _ h => nomatch h⟩

/-- Nothing is written of an empty text, so that cannot fail. -/
def say (w : Writer) (t : Text) : Text × Except FileFault Unit := if t.isEmpty then ([], .ok ()) else w.write t

end Writer
end Traceback
