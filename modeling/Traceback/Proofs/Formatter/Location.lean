import Mathlib
import Traceback.Host
import Traceback.Proofs.Path

/-! # The shown path of a file

A file is shown as its path below the working directory, or else as its absolute path. The directory is tried as it
is resolved and as it is written, since the path of a missing file is not resolved either.

* `Formatter.Resolves`: how paths are made absolute.
* `Formatter.leadsTo_of_under`, `Formatter.leadsTo_of_under_directory`, `Formatter.shortPath_of_outside`: the shown path
  of a file below either directory, and of one that lies elsewhere.
* `Formatter.shown_path_names_file`: the shown path leads to the frame's file.
-/

namespace Traceback
set_option autoImplicit false

namespace Formatter

variable {m : Formatter} {canonical? : Text → Option Text} {file : Text}

/-- What exists has a path without links, and every other path is made absolute by its text. -/
structure Resolves (m : Formatter) (canonical? : Text → Option Text) : Prop where
  directory : Path.isAbsolute m.directory = true
  canonical : ∀ path found, canonical? path = some found → Path.isAbsolute found = true
  resolve : ∀ path, m.resolve path = (canonical? path).getD (Path.absolute m.directory path)

theorem Resolves.isAbsolute_resolve (h : m.Resolves canonical?) {path : Text} (hpath : path ≠ []) :
    Path.isAbsolute (m.resolve path) = true := by
  rw [h.resolve]
  cases hfound : canonical? path with
  | none => exact Path.isAbsolute_absolute h.directory hpath
  | some found => exact h.canonical path found hfound

theorem Resolves.resolve_of_none (h : m.Resolves canonical?) (hnone : canonical? file = none) :
    m.resolve file = Path.absolute m.directory file := by
  rw [h.resolve, hnone]
  rfl

/-! ## The two directories -/

/-- The first of the two that the file lies below is left out of its path. -/
theorem shortPath_eq (hfile : isPseudoFile file = false) :
    m.shortPath file = ((Path.relativeTo? (m.resolve m.directory) (m.resolve file)).or
      (Path.relativeTo? m.directory (m.resolve file))).getD (m.resolve file) := by
  rw [shortPath, hfile, if_neg Bool.false_ne_true]
  simp only [List.findSome?]
  cases Path.relativeTo? (m.resolve m.directory) (m.resolve file) with
  | some rest => rfl
  | none => cases Path.relativeTo? m.directory (m.resolve file) <;> rfl

theorem shortPath_of_outside (hfile : isPseudoFile file = false)
    (hnot : ¬ Path.Under (m.resolve m.directory) (m.resolve file))
    (hnot' : ¬ Path.Under m.directory (m.resolve file)) : m.shortPath file = m.resolve file := by
  rw [shortPath_eq hfile, Path.relativeTo?_eq_none hnot, Path.relativeTo?_eq_none hnot']
  rfl

/-- `shown` is relative, and seen from `base` it is `p`. -/
def LeadsTo (base shown p : Text) : Prop :=
  Path.isAbsolute shown = false ∧ Path.components (Path.join base shown) = Path.components p

section Inside
variable (hm : m.Resolves canonical?) (hfile : file ≠ []) (hpseudo : isPseudoFile file = false)
include hm hfile hpseudo

theorem leadsTo_of_under (h : Path.Under (m.resolve m.directory) (m.resolve file)) :
    LeadsTo (m.resolve m.directory) (m.shortPath file) (m.resolve file) := by
  have hbase := hm.isAbsolute_resolve (Path.ne_nil_of_isAbsolute hm.directory)
  obtain ⟨rest, hrest, hleads⟩ := Path.exists_relativeTo?_eq hbase (hm.isAbsolute_resolve hfile) h
  rw [shortPath_eq hpseudo, hrest]
  exact hleads

theorem leadsTo_of_under_directory (hnot : ¬ Path.Under (m.resolve m.directory) (m.resolve file))
    (h : Path.Under m.directory (m.resolve file)) : LeadsTo m.directory (m.shortPath file) (m.resolve file) := by
  obtain ⟨rest, hrest, hleads⟩ := Path.exists_relativeTo?_eq hm.directory (hm.isAbsolute_resolve hfile) h
  rw [shortPath_eq hpseudo, Path.relativeTo?_eq_none hnot, hrest]
  exact hleads

theorem isAbsolute_shortPath_iff : Path.isAbsolute (m.shortPath file) = false ↔
    Path.Under (m.resolve m.directory) (m.resolve file) ∨ Path.Under m.directory (m.resolve file) := by
  by_cases h : Path.Under (m.resolve m.directory) (m.resolve file)
  · exact ⟨fun _ => .inl h, fun _ => (leadsTo_of_under hm hfile hpseudo h).1⟩
  · by_cases h' : Path.Under m.directory (m.resolve file)
    · exact ⟨fun _ => .inr h', fun _ => (leadsTo_of_under_directory hm hfile hpseudo h h').1⟩
    · have hshown : Path.isAbsolute (m.shortPath file) = true := by
        rw [shortPath_of_outside hpseudo h h', hm.isAbsolute_resolve hfile]
      simp [hshown, h, h']

end Inside

/-- **The shown path leads to the frame's file.** It is relative exactly when the file lies below the working
directory, be it resolved or as it is written, and then the file is found from that directory, the resolved one
first. Otherwise the path is shown as it is, also when it only begins with the text of the directory. -/
theorem shown_path_names_file (hm : m.Resolves canonical?) (f : Frame) (hfile : f.file ≠ [])
    (hpseudo : isPseudoFile f.file = false) :
    let p := (canonical? f.file).getD (Path.absolute m.directory f.file)
    let resolved := (canonical? m.directory).getD (Path.absolute m.directory m.directory)
    let shown := m.field f .file
    (canonical? f.file = none → Path.components p = Path.components (Path.join m.directory f.file)) ∧
    (Path.isAbsolute shown = false ↔ Path.Under resolved p ∨ Path.Under m.directory p) ∧
    (Path.Under resolved p → Path.components (Path.join resolved shown) = Path.components p) ∧
    (¬ Path.Under resolved p → Path.Under m.directory p →
      Path.components (Path.join m.directory shown) = Path.components p) ∧
    (¬ Path.Under resolved p → ¬ Path.Under m.directory p → shown = p) ∧
    ∀ base ∈ [resolved, m.directory], Path.Beside base p → ¬ Path.Under base p := by
  intro p resolved shown
  have hp : p = m.resolve f.file := (hm.resolve f.file).symm
  have hresolved : resolved = m.resolve m.directory := (hm.resolve m.directory).symm
  rw [hp, hresolved]
  refine ⟨fun hnone => ?_, isAbsolute_shortPath_iff hm hfile hpseudo,
    fun h => (leadsTo_of_under hm hfile hpseudo h).2,
    fun hnot h => (leadsTo_of_under_directory hm hfile hpseudo hnot h).2,
    shortPath_of_outside hpseudo, fun base hbase => ?_⟩
  · rw [hm.resolve_of_none hnone, Path.components_absolute hm.directory hfile]
  · apply Path.not_under_of_beside
    rcases List.mem_pair.mp hbase with rfl | rfl
    · exact hm.isAbsolute_resolve (Path.ne_nil_of_isAbsolute hm.directory)
    · exact hm.directory

end Formatter

/-! ## Hosts -/

theorem FileTree.isAbsolute_textOf (p : Place) : Path.isAbsolute (textOf p) = true := by
  cases p <;> rfl

theorem FileTree.isAbsolute_of_canonical? {t : FileTree} {path found : Text} (h : t.canonical? path = some found) :
    Path.isAbsolute found = true := by
  rw [canonical?] at h
  split at h
  next place _ _ =>
    cases h
    exact isAbsolute_textOf place
  next => cases h

theorem Host.formatter_resolves (h : Host) (e : Engine) : (h.formatter e).Resolves h.files.canonical? where
  directory := FileTree.isAbsolute_textOf h.files.directory
  canonical _ _ := FileTree.isAbsolute_of_canonical?
  resolve path := by
    change h.files.resolve path = _
    rw [FileTree.resolve]
    cases h.files.canonical? path <;> rfl

namespace Formatter

/-- A working directory that is reached through a link. -/
def linkedHost : Host where
  files :=
    { entries :=
        [(["link".toList], .link "/real".toList), (["real".toList], .directory),
          (["real".toList, "a.py".toList], .file [])]
      directory := ["link".toList] }

def frameIn (file : String) : Frame where
  file := file.toList
  line := 1
  scope := "f".toList

theorem shown_path_names_file_linked :
    let linked := linkedHost.formatter { lines := .memory {} }
    linked.Resolves linkedHost.files.canonical? ∧
    (isPseudoFile (frameIn "/real/a.py").file = false ∧
      Path.components (Path.join "/real".toList (linked.field (frameIn "/real/a.py") .file)) =
        Path.components "/real/a.py".toList) ∧
    (isPseudoFile (frameIn "b.py").file = false ∧
      Path.components (Path.join "/link".toList (linked.field (frameIn "b.py") .file)) =
        Path.components "/link/b.py".toList) ∧
    isPseudoFile (frameIn "/realm/c.py").file = false ∧
      linked.field (frameIn "/realm/c.py") .file = "/realm/c.py".toList := by
  intro linked
  have hm : linked.Resolves linkedHost.files.canonical? := linkedHost.formatter_resolves _
  have hdirectory : linkedHost.files.canonical? linked.directory = some "/real".toList := by cbv
  have hfound : linkedHost.files.canonical? (frameIn "/real/a.py").file = some "/real/a.py".toList := by cbv
  have hmissing : linkedHost.files.canonical? (frameIn "b.py").file = none := by cbv
  have houtside : linkedHost.files.canonical? (frameIn "/realm/c.py").file = none := by cbv
  obtain ⟨-, -, hfirst, -⟩ := shown_path_names_file hm (frameIn "/real/a.py") (by decide) (by decide)
  obtain ⟨-, -, -, hsecond, -⟩ := shown_path_names_file hm (frameIn "b.py") (by decide) (by decide)
  obtain ⟨-, -, -, -, hneither, -⟩ := shown_path_names_file hm (frameIn "/realm/c.py") (by decide) (by decide)
  rw [hdirectory, hfound] at hfirst
  rw [hdirectory, hmissing] at hsecond
  rw [hdirectory, houtside] at hneither
  exact ⟨hm, ⟨by decide, hfirst (by decide +kernel)⟩,
    ⟨by decide, hsecond (by decide +kernel) (by decide +kernel)⟩,
    by decide, hneither (by decide +kernel) (by decide +kernel)⟩

end Formatter
end Traceback
