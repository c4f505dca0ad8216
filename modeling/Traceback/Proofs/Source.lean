import Mathlib.Data.List.Basic
import Traceback.Proofs.Text.Pieces
import Traceback.Report
import Traceback.Source

/-! # Files and their lines

A file is joined from lines, each with a line feed after it that a carriage return may precede. Splitting it gives the
lines back, and not what ended them.

* `splitLines_joinLines`, `splitLines_joinLines_append`: a file whose last line is ended, and one whose last line is not.
* `Sources.line_insert`, `Sources.line_insert_of_ne`: a file in memory has the lines that were put there last.
* `Sources.lines_restored`: so it has the lines it was joined from, and what ends them is never seen.
-/

namespace Traceback
set_option autoImplicit false

/-! ## Last elements -/

section Last
variable {α : Type} [DecidableEq α] {a : α}

theorem dropLastIf_concat (l : List α) : dropLastIf a (l ++ [a]) = l := by
  induction l with
  | nil => exact if_pos rfl
  | cons b l ih =>
    cases l with
    | nil => exact congrArg (b :: ·) ih
    | cons c l => exact congrArg (b :: ·) ih

theorem dropLastIf_of_getLast?_ne {l : List α} (h : l.getLast? ≠ some a) : dropLastIf a l = l := by
  induction l with
  | nil => rfl
  | cons b l ih =>
    cases l with
    | nil => exact if_neg fun hb => h (congrArg some hb)
    | cons c l => exact congrArg (b :: ·) (ih h)

end Last

/-! ## Joined lines -/

/-- A line of a file. A line feed would end it, and a carriage return at its end would be taken for a part of what
ends it. -/
structure SourceLine where
  bytes : Bytes
  noFeed : lineFeed ∉ bytes := by decide
  noReturn : bytes.getLast? ≠ some carriageReturn := by decide

/-- What ends a line. -/
inductive LineEnd where
  | feed
  | returnFeed
  deriving DecidableEq, Repr

/-- What stands before the line feed. -/
def LineEnd.lead : LineEnd → Bytes
  | feed => []
  | returnFeed => [carriageReturn]

def LineEnd.bytes (e : LineEnd) : Bytes := e.lead ++ [lineFeed]

/-- The file of these lines, each followed by what ends it. -/
def joinLines (lines : List (SourceLine × LineEnd)) : Bytes := lines.flatMap fun l => l.1.bytes ++ l.2.bytes

theorem lineFeed_notMem_lead (l : SourceLine) (e : LineEnd) : lineFeed ∉ l.bytes ++ e.lead := by
  rw [List.mem_append, not_or]
  exact ⟨l.noFeed, by cases e <;> decide⟩

theorem dropLastIf_lead (l : SourceLine) (e : LineEnd) : dropLastIf carriageReturn (l.bytes ++ e.lead) = l.bytes := by
  cases e with
  | feed => exact (List.append_nil l.bytes).symm ▸ dropLastIf_of_getLast?_ne l.noReturn
  | returnFeed => exact dropLastIf_concat l.bytes

theorem joinLines_concat (lines : List (SourceLine × LineEnd)) (l : SourceLine) (e : LineEnd) :
    joinLines (lines ++ [(l, e)]) = joinLines lines ++ (l.bytes ++ e.lead) ++ [lineFeed] := by
  simp [joinLines, LineEnd.bytes]

theorem cut_joinLines_append (lines : List (SourceLine × LineEnd)) (rest : Bytes) :
    Text.cut lineFeed (joinLines lines ++ rest) =
      lines.map (fun l => l.1.bytes ++ l.2.lead) ++ Text.cut lineFeed rest := by
  induction lines with
  | nil => rfl
  | cons l lines ih =>
    have hfile : joinLines (l :: lines) ++ rest = l.1.bytes ++ l.2.lead ++ lineFeed :: (joinLines lines ++ rest) := by
      simp [joinLines, LineEnd.bytes]
    rw [hfile, Text.cut_append (lineFeed_notMem_lead l.1 l.2), ih]
    rfl

/-! ## Splitting -/

/-- What follows the lines is one more line, whether a line feed ends it or not. -/
theorem splitLines_of_dropLastIf {file rest : Bytes} {lines : List (SourceLine × LineEnd)} (hfile : file ≠ [])
    (hdrop : dropLastIf lineFeed file = joinLines lines ++ rest) (hrest : lineFeed ∉ rest) :
    splitLines file = lines.map (·.1.bytes) ++ [dropLastIf carriageReturn rest] := by
  have hsplit : splitLines file = (Text.cut lineFeed (dropLastIf lineFeed file)).map (dropLastIf carriageReturn) := by
    cases file with
    | nil => exact absurd rfl hfile
    | cons => rfl
  have hlines : (lines.map fun l => l.1.bytes ++ l.2.lead).map (dropLastIf carriageReturn) = lines.map (·.1.bytes) := by
    rw [List.map_map]
    exact List.map_congr_left fun l _ => dropLastIf_lead l.1 l.2
  rw [hsplit, hdrop, cut_joinLines_append, Text.cut_of_notMem hrest, List.map_append, hlines]
  rfl

theorem splitLines_joinLines (lines : List (SourceLine × LineEnd)) :
    splitLines (joinLines lines) = lines.map (·.1.bytes) := by
  rcases List.eq_nil_or_concat lines with rfl | ⟨init, ⟨last, e⟩, rfl⟩
  · rfl
  · have hfile := joinLines_concat init last e
    rw [List.concat_eq_append, hfile,
      splitLines_of_dropLastIf (by simp) (dropLastIf_concat _) (lineFeed_notMem_lead last e), dropLastIf_lead,
      List.map_append]
    rfl

/-- The last line need not be ended, unless it is empty. -/
theorem splitLines_joinLines_append (lines : List (SourceLine × LineEnd)) {last : SourceLine}
    (hlast : last.bytes ≠ []) : splitLines (joinLines lines ++ last.bytes) = lines.map (·.1.bytes) ++ [last.bytes] := by
  have hdrop : dropLastIf lineFeed (joinLines lines ++ last.bytes) = joinLines lines ++ last.bytes := by
    apply dropLastIf_of_getLast?_ne
    intro h
    rw [List.getLast?_append_of_ne_nil _ hlast] at h
    exact last.noFeed (List.mem_of_getLast? h)
  rw [splitLines_of_dropLastIf (by simp [hlast]) hdrop last.noFeed, dropLastIf_of_getLast?_ne last.noReturn]

theorem lineAt_of_lt {lines : List Bytes} {i : Nat} (hi : i < lines.length) : lineAt lines (i + 1) = some lines[i] :=
  List.getElem?_eq_getElem hi

theorem lineAt_eq_none {lines : List Bytes} {n : Nat} (h : n = 0 ∨ lines.length < n) : lineAt lines n = none := by
  cases n with
  | zero => rfl
  | succ n => exact List.getElem?_eq_none (by omega)

/-! ## Files in memory -/

namespace Sources

variable {s : Sources} {name other : Text}

theorem lookup_set (name other : Text) (lines : List Bytes) (files : List (Text × List Bytes)) :
    (set name lines files).lookup other = if other = name then some lines else files.lookup other := by
  induction files with
  | nil =>
    by_cases h : other = name
    · rw [set, h, List.lookup_cons_self, if_pos rfl]
    · rw [set, List.lookup_cons, beq_false_of_ne h, if_neg h]
  | cons entry files ih =>
    obtain ⟨held, old⟩ := entry
    rw [set]
    by_cases hheld : held = name
    · rw [if_pos hheld, hheld]
      by_cases h : other = name
      · rw [h, List.lookup_cons_self, if_pos rfl]
      · rw [List.lookup_cons, List.lookup_cons, beq_false_of_ne h, if_neg h]
    · rw [if_neg hheld]
      by_cases h : other = held
      · rw [h, List.lookup_cons_self, List.lookup_cons_self, if_neg hheld]
      · rw [List.lookup_cons, List.lookup_cons, beq_false_of_ne h, ih]

theorem line_insert (s : Sources) (name : Text) (content : Bytes) (n : Nat) :
    (s.insert name content).line name n = lineAt (splitLines content) n := by
  rw [line, insert, lookup_set, if_pos rfl]

theorem line_insert_of_ne (h : other ≠ name) (content : Bytes) : (s.insert other content).line name = s.line name := by
  funext n
  rw [line, line, insert, lookup_set, if_neg (Ne.symm h)]

/-- Files put there one after the other. -/
def insertAll (s : Sources) (files : List (Text × Bytes)) : Sources := files.foldl (fun s f => s.insert f.1 f.2) s

theorem line_insertAll {files : List (Text × Bytes)} (h : ∀ f ∈ files, f.1 ≠ name) :
    (s.insertAll files).line name = s.line name := by
  induction files generalizing s with
  | nil => rfl
  | cons f files ih =>
    rw [List.forall_mem_cons] at h
    exact (ih h.2).trans (line_insert_of_ne h.1 f.2)

end Sources

/-- The formatter when its source lines are those of files in memory. -/
def Formatter.over (m : Formatter) (s : Sources) : Formatter := { m with lines := s.line }

namespace Sources

/-- **A file has the lines it was joined from**, numbered from 1, whatever ends each of them and whatever other files
are put beside it. The last line need not be ended unless it is empty, and the file is replaced as a whole when it is
put there again. So another choice of what ends the lines gives the same sources, and nothing that is shown of a frame
or a report is another. -/
theorem lines_restored (s : Sources) (name : Text) (lines : List (SourceLine × LineEnd)) (later : List (Text × Bytes))
    (hlater : ∀ f ∈ later, f.1 ≠ name) :
    let held (content : Bytes) := (s.insert name content).insertAll later
    (∀ i (hi : i < lines.length), (held (joinLines lines)).line name (i + 1) = some lines[i].1.bytes) ∧
    (∀ n, n = 0 ∨ lines.length < n → (held (joinLines lines)).line name n = none) ∧
    (∀ init last e, lines = init ++ [(last, e)] → last.bytes ≠ [] →
      held (joinLines init ++ last.bytes) = held (joinLines lines)) ∧
    (∀ content n,
      ((held (joinLines lines)).insert name content).line name n = (Sources.insert {} name content).line name n) ∧
    ∀ lines' : List (SourceLine × LineEnd), lines'.map Prod.fst = lines.map Prod.fst →
      held (joinLines lines') = held (joinLines lines) ∧
      ∀ (m : Formatter) (f : Frame) (r : Report),
        (m.over (held (joinLines lines'))).rawLine f = (m.over (held (joinLines lines))).rawLine f ∧
        (m.over (held (joinLines lines'))).format f = (m.over (held (joinLines lines))).format f ∧
        r.display (m.over (held (joinLines lines'))) = r.display (m.over (held (joinLines lines))) := by
  intro held
  have hline (n : Nat) : (held (joinLines lines)).line name n = lineAt (lines.map (·.1.bytes)) n := by
    rw [line_insertAll hlater, line_insert, splitLines_joinLines]
  -- Files that are split alike are held alike.
  have hsame {content content' : Bytes} (h : splitLines content = splitLines content') : held content = held content' :=
    congrArg (fun lines => (Sources.mk (set name lines s.files)).insertAll later) h
  refine ⟨fun i hi => ?_, fun n hn => ?_, fun init last e hlines hlast => ?_, fun content n => ?_,
    fun lines' hlines' => ?_⟩
  · have hi' : i < (lines.map (·.1.bytes)).length := by rwa [List.length_map]
    rw [hline, lineAt_of_lt hi', List.getElem_map]
  · rw [hline, lineAt_eq_none (by rwa [List.length_map])]
  · apply hsame
    rw [splitLines_joinLines_append init hlast, splitLines_joinLines, hlines, List.map_append]
    rfl
  · rw [line_insert, line_insert]
  · have hlike : held (joinLines lines') = held (joinLines lines) := by
      apply hsame
      have hbytes := congrArg (List.map SourceLine.bytes) hlines'
      rw [List.map_map, List.map_map] at hbytes
      rw [splitLines_joinLines, splitLines_joinLines]
      exact hbytes
    refine ⟨hlike, fun m f r => ?_⟩
    rw [hlike]
    exact ⟨rfl, rfl, rfl⟩

/-- Three lines, the second of which is empty. -/
def threeLines (e : LineEnd) : List (SourceLine × LineEnd) :=
  [({ bytes := Utf8.encode "x = 1".toList }, .returnFeed), ({ bytes := [] }, .feed),
    ({ bytes := Utf8.encode "raise x".toList }, e)]

theorem lines_restored_threeLines :
    let held (content : Bytes) := (insert {} ['m'] content).insertAll [(['n'], Utf8.encode "y\n".toList)]
    (∀ f ∈ [((['n'] : Text), Utf8.encode "y\n".toList)], f.1 ≠ ['m']) ∧
      (held (joinLines (threeLines .feed))).line ['m'] 2 = some [] ∧
      (held (joinLines (threeLines .feed))).line ['m'] 4 = none ∧
      held (Utf8.encode "x = 1\r\n\nraise x".toList) = held (joinLines (threeLines .feed)) ∧
      held (joinLines (threeLines .returnFeed)) = held (joinLines (threeLines .feed)) := by
  intro held
  have hother : ∀ f ∈ [((['n'] : Text), Utf8.encode "y\n".toList)], f.1 ≠ ['m'] := by decide
  obtain ⟨hlines, hnone, hlast, -, hends⟩ := lines_restored {} ['m'] (threeLines .feed) _ hother
  refine ⟨hother, hlines 1 (by decide), hnone 4 (.inr (by decide)), ?_, (hends (threeLines .returnFeed) rfl).1⟩
  exact hlast [({ bytes := Utf8.encode "x = 1".toList }, .returnFeed), ({ bytes := [] }, .feed)]
    { bytes := Utf8.encode "raise x".toList } .feed rfl (by decide)

end Sources
end Traceback
