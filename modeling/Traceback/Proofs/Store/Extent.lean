import Mathlib
import Traceback.Proofs.Store.Shrinking
import Traceback.Proofs.Text.Pieces

/-! # How much a record can hold

Everything that is counted in a record is there, so no count can announce more than there are bytes.

* `Report.extent`: the errors, frames, bases, groups and bytes of text of a report.
* `Codec.extent_le_length_report`: each of them takes a byte at least.
* `Record.decode_shrinks`: a report that was read is no more than the bytes that it was read from.
-/

namespace Traceback
set_option autoImplicit false

/-! ## How much a report is -/

/-- The bytes of a text. -/
def Text.extent (t : Text) : Nat := (Utf8.encode t).length

def Category.extent (c : Category) : Nat := c.name.extent + (c.bases.map fun t => Text.extent t + 1).sum

def Groups.extent (g : Groups) : Nat := (g.pairs.map fun p => Text.extent p.1 + Text.extent p.2 + 1).sum

def Frame.extent (f : Frame) : Nat := f.file.extent + f.scope.extent + f.source.elim 0 Text.extent

def Restated.extent (r : Restated) : Nat :=
  r.category.extent + r.received.extent + r.rule.elim 0 Text.extent + r.groups.extent + r.message.extent +
    (r.frames.map fun f => f.extent + 1).sum

/-- The errors from the end of a link on, shown or not, each counted with what `w` counts in it. -/
def Link.extent {α : Type} (w : α → Nat) : Link α → Nat
  | absent => 0
  | back error _ cause context => w error + 1 + cause.extent w + context.extent w

/-- The errors, frames, bases, groups and bytes of text of a report, all together. -/
def Report.extent (r : Report) : Nat := r.link.extent Restated.extent

namespace Codec

variable {α : Type} {c : Codec α}

theorem extent_lt_length_text (t : Text) : t.extent < (text.write t).length := by
  have hsize := length_writeNat_pos (Utf8.encode t).length
  simp only [text, nat, List.length_append, Text.extent]
  omega

theorem extent_lt_length_option_text (o : Option Text) : o.elim 0 Text.extent < (text.option.write o).length := by
  cases o with
  | none => exact Nat.one_pos
  | some t =>
    have ht := extent_lt_length_text t
    simp only [option, List.length_append, Option.elim_some]
    omega

theorem sum_lt_length_list {w : α → Nat} (hw : ∀ a, w a ≤ (c.write a).length) (l : List α) :
    (l.map w).sum < (c.list.write l).length := by
  have hsize := length_writeNat_pos l.length
  have hsum : (l.map w).sum ≤ (l.flatMap c.write).length := by
    clear hsize
    induction l with
    | nil => exact Nat.le_refl 0
    | cons a l ih =>
      rw [List.map_cons, List.sum_cons, List.flatMap_cons, List.length_append]
      exact Nat.add_le_add (hw a) ih
  simp only [list, nat, List.length_append]
  omega

theorem extent_lt_length_frame (f : Frame) : f.extent < (frame.write f).length := by
  have hfile := extent_lt_length_text f.file
  have hscope := extent_lt_length_text f.scope
  have hsource := extent_lt_length_option_text f.source
  simp only [frame, iso, pair, List.length_append, Frame.extent]
  omega

theorem extent_lt_length_category (c : Category) : c.extent < (category.write c).length := by
  have hname := extent_lt_length_text c.name
  have hbases : (c.bases.map fun t => Text.extent t + 1).sum < (text.list.write c.bases).length :=
    sum_lt_length_list extent_lt_length_text c.bases
  simp only [category, iso, pair, List.length_append, Category.extent]
  omega

theorem extent_lt_length_groups (g : Groups) : g.extent < (groups.write g).length :=
  sum_lt_length_list (c := text.pair text) (fun p => by
    have hname := extent_lt_length_text p.1
    have htext := extent_lt_length_text p.2
    simp only [pair, List.length_append]
    omega) g.pairs

theorem extent_lt_length_restated (r : Restated) : r.extent < (restated.write r).length := by
  have hcategory := extent_lt_length_category r.category
  have hreceived := extent_lt_length_text r.received
  have hrule := extent_lt_length_option_text r.rule
  have hgroups := extent_lt_length_groups r.groups
  have hmessage := extent_lt_length_text r.message
  have hframes : (r.frames.map fun f => f.extent + 1).sum < (frame.list.write r.frames).length :=
    sum_lt_length_list extent_lt_length_frame r.frames
  simp only [restated, iso, pair, List.length_append, Restated.extent]
  omega

theorem extent_le_length_link {w : α → Nat} (hw : ∀ a, w a ≤ (c.write a).length) (k : Link α) :
    k.extent w ≤ (writeLink c k).length := by
  induction k with
  | absent => exact Nat.zero_le _
  | back error hidesContext cause context ihCause ihContext =>
    have herror := hw error
    have htag : ((tag .badOption).write true).length = 1 := rfl
    simp only [writeLink, Link.extent, List.length_append, htag]
    omega

theorem extent_le_length_report (r : Report) : r.extent ≤ (report.write r).length := by
  have hw : ∀ a : Restated, a.extent ≤ (restated.write a).length := fun a => Nat.le_of_lt (extent_lt_length_restated a)
  have herror := extent_lt_length_restated r.error
  have hcause := extent_le_length_link hw r.cause
  have hcontext := extent_le_length_link hw r.context
  simp only [report, linked, Report.extent, Linked.link, Link.extent, List.length_append]
  omega

end Codec

/-! ## Records -/

namespace Record

/-- **Reading a record comes to an end and makes no more of it.** Errors are read at no greater depth than the bytes
allow, so that looking deeper changes nothing. The record of what was read is no longer than what it was read
from, and has a byte at least for each error, frame, base and group and for each byte of text. -/
theorem decode_shrinks (bytes : Bytes) :
    (∀ payload depth, bytes = mark ++ payload → 2 * payload.length + 2 ≤ depth →
      Codec.readLinked Codec.restated depth payload = Codec.report.read payload) ∧
    ∀ r : Report, decode bytes = .ok r → (encode r).length ≤ bytes.length ∧ r.extent + 8 ≤ bytes.length := by
  refine ⟨fun payload depth _ hdepth => Codec.readLinked_stable Codec.restated_shrinks hdepth, fun r h => ?_⟩
  unfold decode at h
  split at h
  next => cases h
  next payload hpayload =>
    split at h
    next => cases h
    next rest hread =>
      cases h
      have hshrinks := Codec.report_shrinks hread
      have hextent := Codec.extent_le_length_report r
      have hmark : mark.length = 8 := by decide
      rw [Text.eq_append_of_dropPrefix? hpayload, encode, List.length_append, List.length_append, hmark]
      exact ⟨by omega, by omega⟩

/-- Numbers with bytes to spare, a group that is named twice, and bytes that follow. -/
def looseSample : Bytes :=
  mark ++ [0x81, 0x00, 69, 0x80, 0x00, 0, 0, 2, 1, 97, 1, 98, 1, 97, 0, 0, 0, 0, 0, 0, 0xFF]

def looseReport : Report where
  error := ⟨⟨['E'], []⟩, [], none, .ofPairs [(['a'], [])], [], []⟩

theorem decode_shrinks_looseSample :
    decode looseSample = .ok looseReport ∧ (encode looseReport).length ≤ looseSample.length ∧
      looseReport.extent + 8 ≤ looseSample.length ∧
      Codec.readLinked Codec.restated 100 (looseSample.drop 8) = Codec.report.read (looseSample.drop 8) := by
  have hread : decode looseSample = .ok looseReport := by rfl
  obtain ⟨hdepth, hshrinks⟩ := decode_shrinks looseSample
  obtain ⟨hlength, hextent⟩ := hshrinks looseReport hread
  exact ⟨hread, hlength, hextent, hdepth _ 100 (by decide) (by decide)⟩

end Record
end Traceback
