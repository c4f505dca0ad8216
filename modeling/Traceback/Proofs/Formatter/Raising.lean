import Traceback.Proofs.Code.Raising
import Traceback.Proofs.Formatter.Statement
import Traceback.Proofs.Text.Utf8

/-! # Frames that only raise

* `Formatter.statement?_eq`: the statement of a frame is made of the lines of its source.
* `Formatter.raises_in_block_iff`: when a `raise` statement of an indented block is known to be one.
* `Formatter.raises_not_always_in_block`: it may not be where a line that continues it is indented less.
-/

namespace Traceback.Formatter
set_option autoImplicit false

open Text (isMarginChar isHollow ofLines)

theorem lastLine_toNat {f : Frame} {last : UInt64} (hend : f.endLine = some last) (hle : f.line.toNat ≤ last.toNat) :
    f.lastLine.toNat = last.toNat := by
  rw [Frame.lastLine, hend]
  show (if last ≤ f.line then f.line else last).toNat = last.toNat
  split
  next h => exact Nat.le_antisymm hle (UInt64.le_iff_toNat_le.mp h)
  next => rfl

/-- A statement is made of the lines of its source from the frame's first up to its last one. -/
theorem statement?_eq {m : Formatter} {f : Frame} {first : Text} {rest : List Text} {last : UInt64}
    (hlines : ∀ i line, (first :: rest)[i]? = some line → (m.lines f.file (f.line.toNat + i)).map Utf8.lossy = some line)
    (hend : f.endLine = some last) (hcount : last.toNat = f.line.toNat + rest.length) :
    m.statement? f = some (first :: rest) := by
  have hlength : (first :: rest).length = f.lastLine.toNat - f.line.toNat + 1 := by
    rw [lastLine_toNat hend (by omega), hcount, Nat.add_sub_cancel_left, List.length_cons]
  refine statement?_eq_some_iff.mpr ⟨hlength, fun i line hi => ?_⟩
  rw [textAt, hlines i line hi, Option.some_or]

/-- **A `raise` statement of an indented block is known to be one** if and only if all lines that continue it begin with
the block's indentation, those of white space alone left aside, or its first line holds no code. -/
theorem raises_in_block_iff {m : Formatter} {f : Frame} {w first : Text} {rest : List Text} {last : UInt64}
    (hw : ∀ c ∈ w, isMarginChar c = true) (hfirst : ∀ c ∈ first.head?, Code.isBlank c = false)
    (hlines : ∀ line ∈ first :: rest, '\n' ∉ line) (hraise : Code.raises (ofLines (first :: rest)) = true)
    (hsource : ∀ i line, ((w ++ first) :: rest)[i]? = some line →
      (m.lines f.file (f.line.toNat + i)).map Utf8.lossy = some line)
    (hend : f.endLine = some last) (hcount : last.toNat = f.line.toNat + rest.length) :
    m.raises f = true ↔
      (∀ line ∈ rest, isHollow line = false → w <+: line) ∨ Code.opensWithCode (ofLines (first :: rest)) = false := by
  obtain ⟨hline, hrest⟩ := List.forall_mem_cons.mp hlines
  obtain ⟨residue, u, hdedent, hnarrowed, hresidue, hnil⟩ :=
    Text.dedent_indented hw (fun c hc => Code.isMarginChar_of_isBlank (hfirst c hc)) hline hrest
  have hhead : ∀ c ∈ (ofLines (first :: rest)).head?, Code.isBlank c = false := by
    rw [Text.ofLines_cons]
    cases first with
    | nil => exact fun c hc => by cases hc; rfl
    | cons c first => exact hfirst
  have hempty : first = [] → Code.opensWithCode (ofLines (first :: rest)) = false := by
    rintro rfl
    rfl
  unfold raises
  rw [statement?_eq hsource hend hcount]
  show Code.raises (Text.dedent (ofLines ((w ++ first) :: rest))) = true ↔ _
  rw [hdedent, Code.raises_indented_iff hresidue hhead (Code.ended_ofLines _) hnarrowed hraise, hnil]
  tauto

/-! ## Blocks -/

theorem lines_ofSource {lines : List String} {file : Text} {n : Nat} {block : List Text}
    (h : block <+: (lines.drop n).map String.toList) :
    ∀ i line, block[i]? = some line → ((ofSource lines).lines file (n + 1 + i)).map Utf8.lossy = some line := by
  intro i line hline
  obtain ⟨more, hmore⟩ := h
  have hheld : ((lines.drop n).map String.toList)[i]? = some line := by
    rw [← hmore, List.getElem?_append_left (List.getElem?_eq_some_iff.mp hline).1, hline]
  rw [List.getElem?_map, List.getElem?_drop] at hheld
  obtain ⟨held, hs, rfl⟩ := Option.map_eq_some_iff.mp hheld
  rw [Nat.add_right_comm]
  show ((lines.map fun line => Utf8.encode line.toList)[n + i]?).map Utf8.lossy = some held.toList
  rw [List.getElem?_map, hs]
  exact congrArg some (Utf8.lossy_encode _)

/-- A call over three lines, the last of which is indented no more than the block. -/
theorem raises_in_block_iff_call :
    let m := ofSource ["def f():", "    raise ValueError(", "        'x'", "    )"]
    let f : Frame := { file := [], line := 2, endLine := some 4, scope := [] }
    Code.raises (ofLines ["raise ValueError(".toList, "        'x'".toList, "    )".toList]) = true ∧ m.raises f = true := by
  intro m f
  have hraise : Code.raises (ofLines ["raise ValueError(".toList, "        'x'".toList, "    )".toList]) = true := by
    decide +kernel
  have hindented : ∀ line ∈ ["        'x'".toList, "    )".toList], isHollow line = false → "    ".toList <+: line := by
    decide
  have hw : ∀ c ∈ "    ".toList, isMarginChar c = true := List.all_eq_true.mp rfl
  exact ⟨hraise, (raises_in_block_iff (m := m) (f := f) hw (fun c hc => by cases hc; rfl) (by decide) hraise
    (lines_ofSource (n := 1) (List.prefix_refl _)) rfl rfl).mpr (.inl hindented)⟩

/-- **A `raise` statement of an indented block may not be known to be one**: inside brackets, a line may be indented less
than the block. -/
theorem raises_not_always_in_block :
    ¬ ∀ (m : Formatter) (f : Frame) (w first : Text) (rest : List Text) (last : UInt64),
      (∀ c ∈ w, isMarginChar c = true) → (∀ c ∈ first.head?, Code.isBlank c = false) →
      (∀ line ∈ first :: rest, '\n' ∉ line) → Code.raises (ofLines (first :: rest)) = true →
      (∀ i line, ((w ++ first) :: rest)[i]? = some line →
        (m.lines f.file (f.line.toNat + i)).map Utf8.lossy = some line) →
      f.endLine = some last → last.toNat = f.line.toNat + rest.length → m.raises f = true := by
  intro h
  have hraises := h (ofSource ["    raise ValueError(", "'x'", ")"]) { file := [], line := 1, endLine := some 3, scope := [] }
    "    ".toList "raise ValueError(".toList ["'x'".toList, ")".toList] 3 (List.all_eq_true.mp rfl)
    (fun c hc => by cases hc; rfl) (by decide) (by decide +kernel) (lines_ofSource (n := 0) (List.prefix_refl _)) rfl rfl
  have hnot : (ofSource ["    raise ValueError(", "'x'", ")"]).raises
      { file := [], line := 1, endLine := some 3, scope := [] } = false := by decide +kernel
  rw [hnot] at hraises
  cases hraises

end Traceback.Formatter
