import Traceback.Proofs.Underline.Focus

/-! # Subscripts that are singled out

What is singled out of a subscript begins where its value stops. Brackets around the value are not counted to it, nor
are blanks in front of the brackets of the subscript, so that both are covered as well.

* `Underline.MarksSubscript`: what the primary span of a subscript covers.
* `Underline.brackets_singled_out`: the primary span ends with the closing bracket, and it begins with the opening one
  when that stands right behind the value, and only then.
* `Underline.brackets_not_always_first`: with a blank between them it does not.
-/

namespace Traceback
set_option autoImplicit false

namespace Underline

theorem ofSegmentBy_max (read : Text → Option Code.Outline) (line : Text) (start stop : Nat) :
    ofSegmentBy read line (max 1 start) stop = ofSegmentBy read line start stop := by
  rw [ofSegmentBy, ofSegmentBy, Nat.max_eq_right (Nat.le_max_left 1 start)]

/-- The primary span of `u` begins where the value of a subscript stops, which begins at `start`, and it ends with the
closing bracket. What closes groupings of the value, and the blanks between, are covered too, so that the opening
bracket comes first when there is nothing of that, and only then. -/
structure MarksSubscript (u : Underline) (line : Text) (start : Nat) (value : Text) (gaps : List Text) (inside : Text) :
    Prop where
  start_eq : u.start + line.leadingBlanks = start + value.length
  stop_eq : u.stop + line.leadingBlanks =
    start + (value ++ Text.joined [')'] gaps ++ '[' :: inside ++ [']']).length
  covered : line.slice (u.start + line.leadingBlanks - 1) (u.stop + line.leadingBlanks - 1) =
    Text.joined [')'] gaps ++ '[' :: inside ++ [']']
  opens_iff : u.start + line.leadingBlanks = start + (value ++ Text.joined [')'] gaps).length ↔
    Text.joined [')'] gaps = []

/-- **What is singled out of a subscript ends with its closing bracket and begins where its value stops.** Of what tells
the outlines it is asked that it gives the range of the value without the brackets that group it, and that the subscript
ends with its closing bracket. -/
theorem brackets_singled_out (line : Text) (start stop base close : Nat) :
    (∀ (read : Text → Option Code.Outline) (value : Text) (gaps : List Text) (inside after : Text),
      read (line.slice (max 1 start - 1) (stop - 1)) = some (.subscript base close) →
      Code.SubscriptAt (line.slice (max 1 start - 1) (stop - 1)) base close value gaps inside after →
      (ofSegmentBy read line start stop).MarksSubscript line (max 1 start) value gaps inside) ∧
    (Code.outline? (line.slice (max 1 start - 1) (stop - 1)) = some (.subscript base close) →
      ∃ value gaps inside after,
        Code.SubscriptAt (line.slice (max 1 start - 1) (stop - 1)) base close value gaps inside after ∧
        (ofSegment line start stop).MarksSubscript line (max 1 start) value gaps inside) := by
  have hmarks : ∀ (read : Text → Option Code.Outline) (value : Text) (gaps : List Text) (inside after : Text),
      read (line.slice (max 1 start - 1) (stop - 1)) = some (.subscript base close) →
      Code.SubscriptAt (line.slice (max 1 start - 1) (stop - 1)) base close value gaps inside after →
      (ofSegmentBy read line start stop).MarksSubscript line (max 1 start) value gaps inside := by
    intro read value gaps inside after hparse hat
    obtain ⟨hbase, hclose, hvisible⟩ := Code.of_subscript_fits hat.fits
    obtain ⟨htext, rfl, hstop, -, -, -⟩ := hat
    have hspan : max 1 start < stop := by
      rw [Text.length_slice] at hclose
      omega
    have hcovers := ofSegmentBy_focus (Nat.le_max_left 1 start) hspan hparse rfl hvisible hbase.le hclose
    rw [ofSegmentBy_max] at hcovers
    obtain ⟨hfirst, hlast, hcovered⟩ := hcovers
    have hlength : close = value.length + (Text.joined [')'] gaps ++ '[' :: inside ++ [']']).length := by
      simp only [List.length_append, List.length_cons, List.length_nil]
      omega
    have hmiddle : (line.slice (max 1 start - 1) (stop - 1)).slice value.length close =
        Text.joined [')'] gaps ++ '[' :: inside ++ [']'] := by
      have hsplit : line.slice (max 1 start - 1) (stop - 1) =
          value ++ (Text.joined [')'] gaps ++ '[' :: inside ++ [']']) ++ after := by
        rw [htext]
        simp only [List.append_assoc, List.cons_append, List.nil_append]
      rw [hsplit, hlength]
      exact Text.slice_append ..
    refine ⟨hfirst, ?_, hcovered.trans hmiddle, ?_⟩
    · rw [hlast, hlength]
      simp only [List.append_assoc, List.length_append]
    · rw [← List.length_eq_zero_iff, List.length_append]
      omega
  refine ⟨hmarks, fun hparse => ?_⟩
  obtain ⟨value, gaps, inside, after, hat⟩ := Code.subscript_written hparse
  exact ⟨value, gaps, inside, after, hat, hmarks Code.outline? value gaps inside after hparse hat⟩

/-- `((é) ) [0]` in an indented line, read by the parser and by something else. -/
theorem brackets_singled_out_grouped :
    let line : Text := "  ((é) ) [0]".toList
    let read : Text → Option Code.Outline := fun _ => some (.subscript 3 10)
    Code.outline? (line.slice 2 12) = some (.subscript 3 10) ∧
      Code.SubscriptAt (line.slice 2 12) 3 10 "((é".toList [[], " ".toList, " ".toList] "0".toList [] ∧
      (ofSegment line 3 13).start + line.leadingBlanks = 6 ∧
      (ofSegmentBy read line 3 13).start + line.leadingBlanks = 6 ∧ line.slice 5 12 = ") ) [0]".toList := by
  intro line read
  have hparse : Code.outline? (line.slice 2 12) = some (.subscript 3 10) := by decide +kernel
  have hgap : Code.Gap " ".toList := .blank (.inl rfl) .nil
  have hat : Code.SubscriptAt (line.slice 2 12) 3 10 "((é".toList [[], " ".toList, " ".toList] "0".toList [] :=
    ⟨by decide +kernel, rfl, rfl, List.cons_ne_nil _ _, by simpa using ⟨Code.Gap.nil, hgap⟩, 'é', by decide, by decide⟩
  obtain ⟨hmarks, hown⟩ := brackets_singled_out line 3 13 3 10
  obtain ⟨value, gaps, inside, after, hat', hsubscript⟩ := hown hparse
  have hstart := hsubscript.start_eq
  rw [hat'.base_eq] at hstart
  exact ⟨hparse, hat, hstart, (hmarks read _ _ _ _ rfl hat).start_eq, by decide⟩

/-- Beneath `x [0]` the first marker of the brackets stands beneath the blank. -/
theorem brackets_not_always_first : ¬ ∀ (line : Text) (start stop base close : Nat), start < stop →
    Code.outline? (line.slice (max 1 start - 1) (stop - 1)) = some (.subscript base close) →
    ((line.drop ((ofSegment line start stop).start + line.leadingBlanks - 1)).head? = some '[') := by
  intro h
  let line : Text := "x [0]".toList
  have hparse : Code.outline? (line.slice 0 5) = some (.subscript 1 5) := by decide +kernel
  have hbracket := h line 1 6 1 5 (by decide) hparse
  revert hbracket
  decide +kernel

end Underline
end Traceback
