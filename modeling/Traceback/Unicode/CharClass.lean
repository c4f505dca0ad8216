/-! # Classes of characters

A class is given by the code points at which membership changes, in ascending order and beginning outside
the class; a character belongs to it when an odd number of them are not above it.
-/

namespace Traceback.Unicode
set_option autoImplicit false

structure CharClass where
  changes : List Nat

namespace CharClass

/-- Membership of `n`, given the changes still ahead and the membership before them. -/
def memFrom (n : Nat) : Bool → List Nat → Bool
  | inside, [] => inside
  | inside, change :: changes => if n < change then inside else memFrom n (!inside) changes

def mem (k : CharClass) (c : Char) : Bool := memFrom c.toNat false k.changes

end CharClass
end Traceback.Unicode
