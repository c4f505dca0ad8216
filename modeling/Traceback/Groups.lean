import Traceback.Text.Basic

/-! # Named groups

The parts of a message that a pattern has named, in the order of the pattern.

* `Groups.insert`: a part under a name; a name keeps its first place and takes its last text.
* `Groups.get`: the text under a name, empty without one.
-/

namespace Traceback
set_option autoImplicit false

structure Groups where
  pairs : List (Text × Text) := []
  nodup : (pairs.map (·.1)).Nodup := by simp
  deriving DecidableEq, Repr

namespace Groups

/-! ## Insertion -/

/-- The pairs with `text` under `name`. -/
def put (name text : Text) : List (Text × Text) → List (Text × Text)
  | [] => [(name, text)]
  | pair :: rest => if pair.1 = name then (name, text) :: rest else pair :: put name text rest

theorem mem_put_names {name text x : Text} : ∀ {l : List (Text × Text)},
    x ∈ (put name text l).map (·.1) ↔ x = name ∨ x ∈ l.map (·.1)
  | [] => by simp [put]
  | pair :: rest => by
    unfold put
    split
    next h => simp [h]
    next h =>
      rw [List.map_cons, List.mem_cons, mem_put_names, List.map_cons, List.mem_cons]
      exact or_left_comm

theorem nodup_put {name text : Text} : ∀ {l : List (Text × Text)},
    (l.map (·.1)).Nodup → ((put name text l).map (·.1)).Nodup
  | [], _ => by simp [put]
  | pair :: rest, h => by
    rw [List.map_cons, List.nodup_cons] at h
    unfold put
    split
    next e => simpa [← e] using h
    next e =>
      rw [List.map_cons, List.nodup_cons, mem_put_names]
      exact ⟨fun hor => hor.elim e h.1, nodup_put h.2⟩

def insert (g : Groups) (name text : Text) : Groups := ⟨put name text g.pairs, nodup_put g.nodup⟩

def ofPairs (pairs : List (Text × Text)) : Groups := pairs.foldl (fun g pair => g.insert pair.1 pair.2) {}

/-! ## Lookup -/

def get? (g : Groups) (name : Text) : Option Text := g.pairs.lookup name

def get (g : Groups) (name : String) : Text := (g.get? name.toList).getD []

def contains (g : Groups) (name : String) : Bool := (g.get? name.toList).isSome

def isEmpty (g : Groups) : Bool := g.pairs.isEmpty

end Groups
end Traceback
