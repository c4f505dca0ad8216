import Traceback.Looks
import Traceback.Source

/-! # Reading a statement

The lines of a statement are read one by one, from the frame's line on, until the last one has been read or one is
missing.

* `Formatter.readStatement`: the reading with the looks that it takes.
* `Formatter.readStatement_run`: it finds the statement and takes the looks that are counted on.
* `Formatter.length_statementLooks_le`: these are at most two more than the file has lines.
* `Formatter.statement?_eq_some_iff`, `Formatter.statement?_eq_none_iff`: what is found, and when nothing is.
* `Formatter.statement_needs_every_line`: the looks, and what is parsed.
-/

namespace Traceback.Formatter
set_option autoImplicit false

variable {m : Formatter} {f : Frame}

/-! ## The loop -/

/-- The line as it is read; the captured one stands in for the frame's own line and for no other. -/
def textAt (m : Formatter) (f : Frame) (n : Nat) : Option Text :=
  ((m.lines f.file n).map Utf8.lossy).or (if n = f.line.toNat then f.source else none)

/-- A look at a line, put down after the looks before it. -/
def note (m : Formatter) (file : Text) (n : Nat) : StateM (List Look) (Option Bytes) :=
  fun looks => (m.lines file n, looks ++ [(file, n)])

/-- Reads `count` lines from line `n` on, each of them after a look at it. -/
def readLines (m : Formatter) (f : Frame) : (count n : Nat) → StateM (List Look) (Option (List Text))
  | 0, _ => return some []
  | count + 1, n => do
    let found ← m.note f.file n
    match (found.map Utf8.lossy).or (if n = f.line.toNat then f.source else none) with
    | none => return none
    | some text => return (← readLines m f count (n + 1)).map (text :: ·)

def readStatement (m : Formatter) (f : Frame) : StateM (List Look) (Option (List Text)) :=
  m.readLines f (f.lastLine.toNat - f.line.toNat + 1) f.line.toNat

section Steps
variable {count n : Nat} {looks : List Look}

/-- A missing line ends the reading, and after any other it goes on with the next one. -/
theorem readLines_succ :
    (m.readLines f (count + 1) n).run looks =
      (m.textAt f n).elim (none, looks ++ [(f.file, n)]) fun text =>
        (((m.readLines f count (n + 1)).run (looks ++ [(f.file, n)])).1.map (text :: ·),
          ((m.readLines f count (n + 1)).run (looks ++ [(f.file, n)])).2) := by
  show (match m.textAt f n with
    | none => (return none : StateM (List Look) (Option (List Text)))
    | some text => return (← m.readLines f count (n + 1)).map (text :: ·)).run (looks ++ [(f.file, n)]) = _
  cases m.textAt f n <;> rfl

theorem textAt_of_lt (h : f.line.toNat < n) : m.textAt f n = (m.lines f.file n).map Utf8.lossy := by
  rw [textAt, if_neg (Nat.ne_of_gt h), Option.or_none]

theorem textAt_line : m.textAt f f.line.toNat = ((m.lines f.file f.line.toNat).map Utf8.lossy).or f.source := by
  rw [textAt, if_pos rfl]

end Steps

theorem readLines_run {n : Nat} (hn : f.line.toNat < n) (count : Nat) (looks : List Look) :
    (m.readLines f count n).run looks =
      (linesFrom (m.lines f.file) count n, looks ++ m.looksFrom f.file count n) := by
  induction count generalizing n looks with
  | zero => exact congrArg (some [], ·) (List.append_nil looks).symm
  | succ count ih =>
    have htext := textAt_of_lt (m := m) hn
    rw [linesFrom, looksFrom]
    cases hline : m.lines f.file n with
    | none =>
      rw [readLines_succ, htext, hline]
      rfl
    | some line =>
      rw [readLines_succ, htext, hline, ih (Nat.lt_succ_of_lt hn), List.append_assoc]
      rfl

/-- What is read is the statement, and the looks are those that it takes. -/
theorem readStatement_run : (m.readStatement f).run [] = (m.statement? f, m.statementLooks f) := by
  rw [readStatement, readLines_succ, textAt_line, readLines_run (Nat.lt_succ_self _), statement?, statementLooks]
  cases m.lines f.file f.line.toNat with
  | some line => rfl
  | none => cases f.source <;> rfl

/-! ## Looks -/

/-- The lines are looked at in order, and all but the last are found. -/
theorem exists_looksFrom_eq (m : Formatter) (file : Text) (count n : Nat) :
    ∃ k ≤ count, m.looksFrom file count n = (List.range' n k).map (file, ·) ∧
      ∀ i, n ≤ i → i + 1 < n + k → (m.lines file i).isSome = true := by
  induction count generalizing n with
  | zero => exact ⟨0, Nat.le_refl 0, rfl, by omega⟩
  | succ count ih =>
    rw [looksFrom]
    cases hline : (m.lines file n).isSome with
    | false => exact ⟨1, by omega, rfl, by omega⟩
    | true =>
      obtain ⟨k, hk, hlooks, hfound⟩ := ih (n + 1)
      refine ⟨k + 1, by omega, ?_, fun i hi hlt => ?_⟩
      · rw [if_pos rfl, hlooks, List.range'_succ]
        rfl
      · rcases Nat.eq_or_lt_of_le hi with rfl | hi
        · exact hline
        · exact hfound i hi (by omega)

/-- The looks are at lines in a row, from the frame's line up to its last one at most; all but the first and the last
are found. -/
theorem exists_statementLooks_eq (m : Formatter) (f : Frame) :
    ∃ k ≤ f.lastLine.toNat - f.line.toNat, m.statementLooks f = (List.range' f.line.toNat (k + 1)).map (f.file, ·) ∧
      ∀ i, f.line.toNat < i → i < f.line.toNat + k → (m.lines f.file i).isSome = true := by
  rw [statementLooks]
  split
  · obtain ⟨k, hk, hlooks, hfound⟩ :=
      exists_looksFrom_eq m f.file (f.lastLine.toNat - f.line.toNat) (f.line.toNat + 1)
    refine ⟨k, hk, ?_, fun i hi hlt => hfound i hi (by omega)⟩
    rw [hlooks, List.range'_succ]
    rfl
  · exact ⟨0, Nat.zero_le _, rfl, by omega⟩

/-- A file has as many lines to find as it has lines; the first look and the last may be in vain. -/
theorem length_statementLooks_le {count : Nat}
    (hcount : ∀ n, (m.lines f.file n).isSome = true → 1 ≤ n ∧ n ≤ count) :
    (m.statementLooks f).length ≤ count + 2 := by
  obtain ⟨k, -, hlooks, hfound⟩ := exists_statementLooks_eq m f
  rw [hlooks, List.length_map, List.length_range']
  by_cases hk : k ≤ 1
  · omega
  · -- The last look but one is at a line that is found.
    have hlast := hcount (f.line.toNat + k - 1) (hfound _ (by omega) (by omega))
    omega

/-! ## Lines -/

theorem linesFrom_eq_some_iff {lines : Nat → Option Bytes} {count n : Nat} {texts : List Text} :
    linesFrom lines count n = some texts ↔
      texts.length = count ∧ ∀ i text, texts[i]? = some text → (lines (n + i)).map Utf8.lossy = some text := by
  induction count generalizing n texts with
  | zero =>
    constructor
    · intro h
      cases h
      exact ⟨rfl, fun i text hi => by cases hi⟩
    · rintro ⟨hlength, -⟩
      rw [List.length_eq_zero_iff.mp hlength]
      rfl
  | succ count ih =>
    rw [linesFrom]
    constructor
    · intro h
      split at h
      · cases h
      next line hline =>
        obtain ⟨later, hlater, rfl⟩ := Option.map_eq_some_iff.mp h
        obtain ⟨hlength, htexts⟩ := ih.mp hlater
        refine ⟨congrArg (· + 1) hlength, fun i text hi => ?_⟩
        cases i with
        | zero =>
          cases hi
          rw [Nat.add_zero, hline]
          rfl
        | succ i =>
          rw [← Nat.add_assoc, Nat.add_right_comm]
          exact htexts i text hi
    · rintro ⟨hlength, htexts⟩
      obtain ⟨text, later, rfl⟩ := List.exists_cons_of_length_eq_add_one hlength
      obtain ⟨line, hline, rfl⟩ := Option.map_eq_some_iff.mp (htexts 0 text rfl)
      have hlater : linesFrom lines count (n + 1) = some later :=
        ih.mpr ⟨Nat.succ.inj hlength, fun i t ht => by
          rw [Nat.add_right_comm]
          exact htexts (i + 1) t ht⟩
      rw [show lines n = some line from hline, hlater]
      rfl

theorem linesFrom_eq_none_iff {lines : Nat → Option Bytes} {count n : Nat} :
    linesFrom lines count n = none ↔ ∃ i, n ≤ i ∧ i < n + count ∧ lines i = none := by
  induction count generalizing n with
  | zero => exact ⟨fun h => (by cases h), fun ⟨i, hi, hlt, _⟩ => (by omega)⟩
  | succ count ih =>
    rw [linesFrom]
    cases hline : lines n with
    | none => exact ⟨fun _ => ⟨n, Nat.le_refl n, by omega, hline⟩, fun _ => rfl⟩
    | some line =>
      dsimp only
      rw [Option.map_eq_none_iff, ih]
      constructor
      · rintro ⟨i, hi, hlt, hnone⟩
        exact ⟨i, by omega, by omega, hnone⟩
      · rintro ⟨i, hi, hlt, hnone⟩
        rcases Nat.eq_or_lt_of_le hi with rfl | hi
        · rw [hline] at hnone
          cases hnone
        · exact ⟨i, hi, by omega, hnone⟩

/-! ## The statement -/

theorem line_le_lastLine (f : Frame) : f.line.toNat ≤ f.lastLine.toNat := by
  show f.line.toNat ≤ (if f.endLine.getD f.line ≤ f.line then f.line else f.endLine.getD f.line).toNat
  split
  next => exact Nat.le_refl _
  next h => exact Nat.le_of_lt (UInt64.lt_iff_toNat_lt.mp (UInt64.not_le.mp h))

theorem statement?_eq_bind (m : Formatter) (f : Frame) :
    m.statement? f = (m.textAt f f.line.toNat).bind fun first =>
      (linesFrom (m.lines f.file) (f.lastLine.toNat - f.line.toNat) (f.line.toNat + 1)).map (first :: ·) := by
  rw [statement?, textAt_line]
  cases m.lines f.file f.line.toNat with
  | some line => rfl
  | none => cases f.source <;> rfl

/-- A line of the statement is missing, and no captured one stands in for it. -/
def Lacks (m : Formatter) (f : Frame) : Prop :=
  (∃ n, f.line.toNat < n ∧ n ≤ f.lastLine.toNat ∧ m.lines f.file n = none) ∨
    (m.lines f.file f.line.toNat = none ∧ f.source = none)

theorem statement?_eq_none_iff : m.statement? f = none ↔ m.Lacks f := by
  have hlast := line_le_lastLine f
  have hfirst : m.textAt f f.line.toNat = none ↔ m.lines f.file f.line.toNat = none ∧ f.source = none := by
    rw [textAt_line, Option.or_eq_none_iff, Option.map_eq_none_iff]
  have hlater : linesFrom (m.lines f.file) (f.lastLine.toNat - f.line.toNat) (f.line.toNat + 1) = none ↔
      ∃ n, f.line.toNat < n ∧ n ≤ f.lastLine.toNat ∧ m.lines f.file n = none := by
    rw [linesFrom_eq_none_iff]
    constructor
    · rintro ⟨n, hn, hlt, hnone⟩
      exact ⟨n, hn, by omega, hnone⟩
    · rintro ⟨n, hn, hle, hnone⟩
      exact ⟨n, hn, by omega, hnone⟩
  rw [Lacks, ← hlater, ← hfirst, statement?_eq_bind]
  cases m.textAt f f.line.toNat with
  | none => simp
  | some first => simp

/-- The statement has the lines from the frame's own up to its last one. -/
theorem statement?_eq_some_iff {texts : List Text} :
    m.statement? f = some texts ↔ texts.length = f.lastLine.toNat - f.line.toNat + 1 ∧
      ∀ i text, texts[i]? = some text → m.textAt f (f.line.toNat + i) = some text := by
  have hlater (i : Nat) :
      m.textAt f (f.line.toNat + 1 + i) = (m.lines f.file (f.line.toNat + 1 + i)).map Utf8.lossy :=
    textAt_of_lt (by omega)
  rw [statement?_eq_bind, Option.bind_eq_some_iff]
  simp only [Option.map_eq_some_iff, linesFrom_eq_some_iff, ← hlater]
  constructor
  · rintro ⟨first, hfirst, later, ⟨hlength, htexts⟩, rfl⟩
    refine ⟨congrArg (· + 1) hlength, fun i text hi => ?_⟩
    cases i with
    | zero =>
      cases hi
      exact hfirst
    | succ i =>
      rw [← Nat.add_assoc, Nat.add_right_comm]
      exact htexts i text hi
  · rintro ⟨hlength, htexts⟩
    obtain ⟨first, later, rfl⟩ := List.exists_cons_of_length_eq_add_one hlength
    refine ⟨first, htexts 0 first rfl, later, ⟨Nat.succ.inj hlength, fun i text hi => ?_⟩, rfl⟩
    rw [Nat.add_right_comm]
    exact htexts (i + 1) text hi

/-- **A statement is read line by line and needs every line.** The looks are at lines in a row from the frame's own up
to its last one at most, and there are at most two more of them than the file has lines, whatever last line the frame
names. When a line is missing, and it is not the frame's own with a captured one in its place, the frame is not known to
raise. Else what is parsed are the lines from the frame's own up to its last one, each ended by a line feed and all of
them without their margin. -/
theorem statement_needs_every_line (m : Formatter) (f : Frame) :
    (∃ k ≤ f.lastLine.toNat - f.line.toNat,
      ((m.readStatement f).run []).2 = (List.range' f.line.toNat (k + 1)).map (f.file, ·)) ∧
    (∀ count, (∀ n, (m.lines f.file n).isSome = true → 1 ≤ n ∧ n ≤ count) →
      ((m.readStatement f).run []).2.length ≤ count + 2) ∧
    (m.Lacks f → ((m.readStatement f).run []).1 = none ∧ m.raises f = false) ∧
    (¬ m.Lacks f → ∃ texts, ((m.readStatement f).run []).1 = some texts ∧
      texts.length = f.lastLine.toNat - f.line.toNat + 1 ∧
      (∀ i text, texts[i]? = some text → m.textAt f (f.line.toNat + i) = some text) ∧
      m.raises f = Code.raises (Text.dedent (texts.flatMap fun text => text ++ ['\n']))) := by
  rw [readStatement_run]
  refine ⟨?_, fun count hcount => length_statementLooks_le hcount, fun hlacks => ?_, fun hholds => ?_⟩
  · obtain ⟨k, hk, hlooks, -⟩ := exists_statementLooks_eq m f
    exact ⟨k, hk, hlooks⟩
  · have hnone := statement?_eq_none_iff.mpr hlacks
    exact ⟨hnone, by rw [raises, hnone]⟩
  · cases hstatement : m.statement? f with
    | none => exact absurd (statement?_eq_none_iff.mp hstatement) hholds
    | some texts =>
      obtain ⟨hlength, htexts⟩ := statement?_eq_some_iff.mp hstatement
      exact ⟨texts, rfl, hlength, htexts, by rw [raises, hstatement]⟩

/-- A formatter to which every file has these lines. -/
def ofSource (lines : List String) : Formatter :=
  ⟨{}, fun _ n => lineAt (lines.map fun line => Utf8.encode line.toList) n, fun path => path, []⟩

/-- A frame from a line that no file has up to the last number there is. -/
def boundless : Frame where
  file := ['f']
  line := 0
  endLine := some 18446744073709551615
  scope := ['f']
  source := some "raise".toList

def raising : Frame where
  file := ['f']
  line := 1
  scope := ['f']

theorem statement_needs_every_line_boundless :
    (∀ n, ((ofSource ["raise x"]).lines ['f'] n).isSome = true → 1 ≤ n ∧ n ≤ 1) ∧
      (((ofSource ["raise x"]).readStatement boundless).run []).2.length ≤ 3 ∧
      (ofSource ["raise x"]).Lacks boundless ∧ (ofSource ["raise x"]).raises boundless = false ∧
      ¬ (ofSource ["raise x"]).Lacks raising ∧
      (ofSource ["raise x"]).raises raising = Code.raises "raise x\n".toList := by
  have hfound : ∀ n, ((ofSource ["raise x"]).lines ['f'] n).isSome = true → 1 ≤ n ∧ n ≤ 1
    | 0, h => by cases h
    | 1, _ => ⟨Nat.le_refl 1, Nat.le_refl 1⟩
    | n + 2, h => by cases h
  have hlacks : (ofSource ["raise x"]).Lacks boundless := .inl ⟨2, by decide, by decide, rfl⟩
  have hholds : ¬ (ofSource ["raise x"]).Lacks raising := by
    rintro (⟨n, hlt, hle, -⟩ | ⟨hnone, -⟩)
    · exact absurd (Nat.lt_of_lt_of_le hlt hle) (by decide)
    · cases hnone
  obtain ⟨texts, hread, hlength, htexts, hraises⟩ :=
    (statement_needs_every_line (ofSource ["raise x"]) raising).2.2.2 hholds
  obtain ⟨text, rfl⟩ := List.length_eq_one_iff.mp hlength
  have htext : some "raise x".toList = some text := htexts 0 text rfl
  cases htext
  exact ⟨hfound, (statement_needs_every_line _ boundless).2.1 1 hfound, hlacks,
    ((statement_needs_every_line _ boundless).2.2.1 hlacks).2, hholds, hraises⟩

end Traceback.Formatter
