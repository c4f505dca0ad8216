import Traceback.Disk
import Traceback.Proofs.Report.Flattening

/-! # What a trace depends on

A formatter looks at the files of the frames it shows and at the boundary. Formatters that learn the same about
these show the same.

* `Formatter.Agree`: that two formatters learn the same about some files.
* `Formatter.Agree.format_eq`, `Formatter.Agree.shown_eq`: then they show frames the same way, and the same frames.
* `Formatter.Agree.trace_eq`, `Formatter.Agree.display_eq`: and reports the same way.
* `Disk.Agree`: that two disks hold the same at some paths.
-/

namespace Traceback
set_option autoImplicit false

/-! ## Stacks -/

theorem after?_congr {α : Type} {p q : α → Bool} {l : List α} (h : ∀ a ∈ l, p a = q a) : after? p l = after? q l := by
  induction l with
  | nil => rfl
  | cons a l ih =>
    rw [List.forall_mem_cons] at h
    rw [after?, after?, h.1, ih h.2]

theorem mem_of_mem_after? {α : Type} {p : α → Bool} {l inner : List α} (h : after? p l = some inner) {a : α}
    (ha : a ∈ inner) : a ∈ l := by
  induction l with
  | nil => cases h
  | cons b l ih =>
    rw [after?] at h
    split at h
    · cases h
      exact List.mem_cons_of_mem _ ha
    · exact List.mem_cons_of_mem _ (ih h)

theorem mem_of_mem_innermost {α : Type} {limit : Nat} {l : List α} {a : α} (h : a ∈ innermost limit l) : a ∈ l := by
  unfold innermost at h
  split at h
  · exact h
  · exact List.mem_of_mem_drop h

namespace Formatter

theorem mem_of_mem_withoutRaises {m : Formatter} {stack : List Frame} {f : Frame} (h : f ∈ m.withoutRaises stack) :
    f ∈ stack := by
  unfold withoutRaises at h
  split at h
  · exact List.mem_of_mem_filter h
  · exact h

/-- Only frames of the stack are shown. -/
theorem mem_of_mem_shown {m : Formatter} {stack : List Frame} {f : Frame} (h : f ∈ m.shown stack) : f ∈ stack := by
  unfold shown at h
  split at h
  · exact mem_of_mem_withoutRaises h
  next boundary _ =>
    unfold afterBoundary at h
    split at h
    next inner _ hinner => exact mem_of_mem_withoutRaises (mem_of_mem_after? hinner h)
    next => exact mem_of_mem_withoutRaises h
    next => cases h

/-! ## Formatters -/

/-- The settings are the same, and so is what can be learned of `files`. -/
structure Agree (files : List Text) (m m' : Formatter) : Prop where
  settings : m.settings = m'.settings
  directory : m.directory = m'.directory
  resolveDirectory : m.resolve m.directory = m'.resolve m'.directory
  lines : ∀ file ∈ files, m.lines file = m'.lines file
  resolve : ∀ file ∈ files, m.resolve file = m'.resolve file

namespace Agree

variable {files : List Text} {m m' : Formatter} {f : Frame}

theorem location_eq (h : Agree files m m') (hf : f.file ∈ files) : m.location f = m'.location f := by
  have hpath : m.shortPath f.file = m'.shortPath f.file := by
    rw [shortPath, shortPath, h.resolveDirectory, h.directory, h.resolve _ hf]
  have hfield : m.field f = m'.field f := by
    funext field
    cases field with
    | file => exact hpath
    | _ => rfl
  rw [location, location, h.settings, hfield]

theorem format_eq (h : Agree files m m') (hf : f.file ∈ files) : m.format f = m'.format f := by
  have hraw : m.rawLine f = m'.rawLine f := by rw [rawLine, rawLine, h.lines _ hf]
  have hcode : m.codeBlock f = m'.codeBlock f := by rw [codeBlock, codeBlock, hraw, h.settings]
  rw [format, format, hcode, h.location_eq hf]

theorem raises_eq (h : Agree files m m') (hf : f.file ∈ files) : m.raises f = m'.raises f := by
  have hstatement : m.statement? f = m'.statement? f := by rw [statement?, statement?, h.lines _ hf]
  rw [raises, raises, hstatement]

theorem liesIn_eq (h : Agree files m m') (hf : f.file ∈ files) {boundary : Text} (hboundary : boundary ∈ files) :
    m.liesIn boundary f = m'.liesIn boundary f := by
  rw [liesIn, liesIn, h.resolve _ hf, h.resolve _ hboundary]

theorem withoutRaises_eq (h : Agree files m m') {stack : List Frame} (hstack : ∀ f ∈ stack, f.file ∈ files) :
    m.withoutRaises stack = m'.withoutRaises stack := by
  have hfilter : stack.filter (fun f => !m.raises f) = stack.filter fun f => !m'.raises f :=
    List.filter_congr fun f hf => by rw [h.raises_eq (hstack f hf)]
  rw [withoutRaises, withoutRaises, h.settings, hfilter]

theorem afterBoundary_eq (h : Agree files m m') {stack : List Frame} (hstack : ∀ f ∈ stack, f.file ∈ files)
    {boundary : Text} (hboundary : boundary ∈ files) :
    m.afterBoundary boundary stack = m'.afterBoundary boundary stack := by
  have hafter : after? (m.liesIn boundary) stack = after? (m'.liesIn boundary) stack :=
    after?_congr fun f hf => h.liesIn_eq (hstack f hf) hboundary
  rw [afterBoundary, afterBoundary, hafter, h.settings]

theorem shown_eq (h : Agree files m m') (hboundary : ∀ b ∈ m.settings.boundary, b ∈ files) {stack : List Frame}
    (hstack : ∀ f ∈ stack, f.file ∈ files) : m.shown stack = m'.shown stack := by
  have hkept : ∀ f ∈ m'.withoutRaises stack, f.file ∈ files := fun f hf => hstack f (mem_of_mem_withoutRaises hf)
  rw [shown, shown, h.withoutRaises_eq hstack, ← h.settings]
  cases hb : m.settings.boundary with
  | none => rfl
  | some boundary => exact h.afterBoundary_eq hkept (hboundary boundary hb)

theorem frameTexts_eq (h : Agree files m m') (hboundary : ∀ b ∈ m.settings.boundary, b ∈ files) (limit : Nat)
    {r : Restated} (hr : ∀ f ∈ r.frames, f.file ∈ files) : r.frameTexts m limit = r.frameTexts m' limit := by
  rw [Restated.frameTexts, Restated.frameTexts, h.shown_eq hboundary hr]
  apply List.map_congr_left
  intro f hf
  exact h.format_eq (hr f (mem_of_mem_shown (mem_of_mem_innermost hf)))

/-- A trace depends on the boundary and on the files of the errors that are shown. -/
theorem trace_eq (h : Agree files m m') (hboundary : ∀ b ∈ m.settings.boundary, b ∈ files) (limit : Nat) {r : Report}
    (hr : ∀ p ∈ r.history, ∀ f ∈ p.1.frames, f.file ∈ files) : r.trace m limit = r.trace m' limit := by
  rw [Report.trace_eq_paragraphs, Report.trace_eq_paragraphs]
  congr 1
  apply List.flatMap_congr
  intro p hp
  rw [Report.statements, Report.statements, h.frameTexts_eq hboundary limit (hr p hp)]

theorem display_eq (h : Agree files m m') (hboundary : ∀ b ∈ m.settings.boundary, b ∈ files) {r : Report}
    (hr : ∀ p ∈ r.history, ∀ f ∈ p.1.frames, f.file ∈ files) : r.display m = r.display m' := by
  unfold Report.display
  rw [h.trace_eq hboundary _ hr, h.settings]

end Agree
end Formatter

/-! ## Disks -/

/-- The same is found at each of `paths`, seen from the same working directory. -/
structure Disk.Agree (paths : List Text) (d d' : Disk) : Prop where
  directory : d.directory = d'.directory
  resolveDirectory : d.resolve d.directory = d'.resolve d'.directory
  read : ∀ path ∈ paths, d.read path = d'.read path
  resolve : ∀ path ∈ paths, d.resolve path = d'.resolve path

/-- How frames are shown when their lines are those on a disk. -/
def Disk.formatter (d : Disk) (settings : Settings) : Formatter := ⟨settings, d.line, d.resolve, d.directory⟩

theorem Disk.Agree.formatter {paths : List Text} {d d' : Disk} (h : d.Agree paths d') (settings : Settings) :
    Formatter.Agree paths (d.formatter settings) (d'.formatter settings) where
  settings := rfl
  directory := h.directory
  resolveDirectory := h.resolveDirectory
  lines file hfile := by
    funext n
    have hlines : d.lines? file = d'.lines? file := by rw [lines?, lines?, h.read _ hfile]
    show d.line file n = d'.line file n
    rw [line, line, hlines]
  resolve := h.resolve

end Traceback
