import Traceback.Exception.Json
import Traceback.Proofs.Exception.Lineage
import Traceback.Proofs.Json.Record

/-! # Exceptions as they are written

An exception is read from every text that is written for it, whatever the order of the members, with members of other
names among them, with or without those that have their defaults. Without a required member no text is read at all.

* `Frame.slots`, `SyntaxLocation.slots`, `Exception.slots`: the members of the records and their defaults.
* `Exception.writing`: the texts for an exception, brackets being nested up to a level.
* `Exception.exists_writing`: every exception has one, as deep as its links need it.
* `Exception.follows_json`: the reader follows them, by induction on the level.
* `Exception.ofJson_of_writing`: what becomes of a text with nothing but white space around it.
-/

namespace Traceback
set_option autoImplicit false

open Json

namespace Frame

def slots : List (Slot Frame) :=
  [{ name := "file_path", get := file, put := fun f v => { f with file := v }, default? := none, writing := .text },
    { name := "line_number", get := line, put := fun f v => { f with line := v }, default? := none,
      writing := .word64 },
    { name := "end_line_number", get := endLine, put := fun f v => { f with endLine := v }, default? := some none,
      writing := .option .word64 },
    { name := "column", get := column, put := fun f v => { f with column := v }, default? := some none,
      writing := .option .word64 },
    { name := "end_column", get := endColumn, put := fun f v => { f with endColumn := v }, default? := some none,
      writing := .option .word64 },
    { name := "scope_name", get := scope, put := fun f v => { f with scope := v }, default? := none, writing := .text },
    { name := "source_text", get := source, put := fun f v => { f with source := v }, default? := some none,
      writing := .option .text }]

theorem lawful : Lawful slots ⟨[], 0, none, none, none, [], none⟩ where
  nodup := by decide
  get_put := by
    intro f hf g hg r e
    simp only [slots, List.mem_cons, List.not_mem_nil, or_false] at hf hg
    rcases hf with rfl | rfl | rfl | rfl | rfl | rfl | rfl <;>
      rcases hg with rfl | rfl | rfl | rfl | rfl | rfl | rfl <;> rfl
  ext := by
    intro r e h
    simp only [slots, List.forall_mem_cons] at h
    cases r
    cases e
    obtain ⟨⟨⟩, ⟨⟩, ⟨⟩, ⟨⟩, ⟨⟩, ⟨⟩, ⟨⟩, -⟩ := h
    rfl
  get_empty := by
    intro f hf d hd
    simp only [slots, List.mem_cons, List.not_mem_nil, or_false] at hf
    rcases hf with rfl | rfl | rfl | rfl | rfl | rfl | rfl <;> cases hd <;> rfl

theorem follows_json (levels : Nat) : Follows (json levels) (Writing.record levels slots) := by
  have hnumber := follows_option follows_word64 opens_word64
  refine follows_record ?_ lawful "Frame" levels
  exact .cons ⟨_, follows_text, rfl⟩ <| .cons ⟨_, follows_word64, rfl⟩ <| .cons ⟨_, hnumber, rfl⟩ <|
    .cons ⟨_, hnumber, rfl⟩ <| .cons ⟨_, hnumber, rfl⟩ <| .cons ⟨_, follows_text, rfl⟩ <|
    .cons ⟨_, follows_option follows_text opens_text, rfl⟩ .nil

end Frame

namespace SyntaxLocation

def slots : List (Slot SyntaxLocation) :=
  [{ name := "filename", get := file, put := fun l v => { l with file := v }, default? := none, writing := .text },
    { name := "lineno", get := line, put := fun l v => { l with line := v }, default? := none, writing := .word64 },
    { name := "end_lineno", get := endLine, put := fun l v => { l with endLine := v }, default? := some none,
      writing := .option .word64 },
    { name := "offset", get := offset, put := fun l v => { l with offset := v }, default? := some none,
      writing := .option .word64 },
    { name := "end_offset", get := endOffset, put := fun l v => { l with endOffset := v }, default? := some none,
      writing := .option .word64 },
    { name := "text", get := text, put := fun l v => { l with text := v }, default? := some none,
      writing := .option .text }]

theorem lawful : Lawful slots ⟨[], 0, none, none, none, none⟩ where
  nodup := by decide
  get_put := by
    intro f hf g hg r e
    simp only [slots, List.mem_cons, List.not_mem_nil, or_false] at hf hg
    rcases hf with rfl | rfl | rfl | rfl | rfl | rfl <;> rcases hg with rfl | rfl | rfl | rfl | rfl | rfl <;> rfl
  ext := by
    intro r e h
    simp only [slots, List.forall_mem_cons] at h
    cases r
    cases e
    obtain ⟨⟨⟩, ⟨⟩, ⟨⟩, ⟨⟩, ⟨⟩, ⟨⟩, -⟩ := h
    rfl
  get_empty := by
    intro f hf d hd
    simp only [slots, List.mem_cons, List.not_mem_nil, or_false] at hf
    rcases hf with rfl | rfl | rfl | rfl | rfl | rfl <;> cases hd <;> rfl

theorem follows_json (levels : Nat) : Follows (json levels) (Writing.record levels slots) := by
  have hnumber := follows_option follows_word64 opens_word64
  refine follows_record ?_ lawful "SyntaxLocation" levels
  exact .cons ⟨_, follows_text, rfl⟩ <| .cons ⟨_, follows_word64, rfl⟩ <| .cons ⟨_, hnumber, rfl⟩ <|
    .cons ⟨_, hnumber, rfl⟩ <| .cons ⟨_, hnumber, rfl⟩ <| .cons ⟨_, follows_option follows_text opens_text, rfl⟩ .nil

end SyntaxLocation

namespace Exception

/-- The members of an exception, with `levels` levels of brackets left inside it. -/
def slots (levels : Nat) (link : Writing Exception) : List (Slot Exception) :=
  [{ name := "type_name", get := fun e => e.error.typeName,
      put := fun e v => { e with error := { e.error with typeName := v } }, default? := none, writing := .text },
    { name := "bases", get := fun e => e.error.bases, put := fun e v => { e with error := { e.error with bases := v } },
      default? := some [], writing := .list levels .text },
    { name := "message", get := fun e => e.error.message,
      put := fun e v => { e with error := { e.error with message := v } }, default? := some [], writing := .text },
    { name := "frames", get := fun e => e.error.frames,
      put := fun e v => { e with error := { e.error with frames := v } }, default? := some [],
      writing := .list levels (.record (levels - 1) Frame.slots) },
    { name := "cause", get := fun e => Linked.ofLink? e.cause, put := fun e v => { e with cause := linkOf v },
      default? := some none, writing := .option link },
    { name := "context", get := fun e => Linked.ofLink? e.context, put := fun e v => { e with context := linkOf v },
      default? := some none, writing := .option link },
    { name := "suppress_context", get := fun e => e.hidesContext, put := fun e v => { e with hidesContext := v },
      default? := some false, writing := .bool },
    { name := "syntax", get := fun e => e.error.location,
      put := fun e v => { e with error := { e.error with location := v } }, default? := some none,
      writing := .option (.record levels SyntaxLocation.slots) }]

/-- The texts for an exception. Of its own brackets at most `levels` are open at once; those in values nobody asks for do
not count. -/
def writing : (levels : Nat) → Writing Exception
  | 0 => fun _ _ _ => False
  | levels + 1 => .record (levels + 1) (slots levels (writing levels))

theorem ofLink?_linkOf (o : Option Exception) : Linked.ofLink? (linkOf o) = o := by
  cases o <;> rfl

theorem linkOf_ofLink? (l : Link Raised) : linkOf (Linked.ofLink? l) = l := by
  cases l <;> rfl

theorem lawful (levels : Nat) (link : Writing Exception) :
    Lawful (slots levels link) ⟨⟨[], [], [], [], none⟩, false, .absent, .absent⟩ where
  nodup := by simp [slots]
  get_put := by
    intro f hf g hg r e
    simp only [slots, List.mem_cons, List.not_mem_nil, or_false] at hf hg
    rcases hf with rfl | rfl | rfl | rfl | rfl | rfl | rfl | rfl <;>
      rcases hg with rfl | rfl | rfl | rfl | rfl | rfl | rfl | rfl <;> first | rfl | exact ofLink?_linkOf _
  ext := by
    intro r e h
    simp only [slots, List.forall_mem_cons] at h
    -- A link is not read off itself but as the exception behind it, which determines it.
    have hinjective := Function.LeftInverse.injective linkOf_ofLink?
    obtain ⟨⟨⟩, hides, cause, context⟩ := r
    obtain ⟨⟨⟩, hides', cause', context'⟩ := e
    obtain ⟨⟨⟩, ⟨⟩, ⟨⟩, ⟨⟩, hcause, hcontext, ⟨⟩, ⟨⟩, -⟩ := h
    cases hinjective hcause
    cases hinjective hcontext
    rfl
  get_empty := by
    intro f hf d hd
    simp only [slots, List.mem_cons, List.not_mem_nil, or_false] at hf
    rcases hf with rfl | rfl | rfl | rfl | rfl | rfl | rfl | rfl <;> cases hd <;> rfl

theorem opens_writing (levels : Nat) : Opens (writing levels) := by
  cases levels with
  | zero => exact fun h => h.elim
  | succ levels => exact opens_record

theorem follows_json (levels : Nat) : Follows (json (levels + 1)) (writing levels) := by
  induction levels with
  | zero => exact ⟨fun h => h.elim, fun h => h.elim⟩
  | succ levels ih =>
    have htexts := follows_list follows_text opens_text levels
    have hframes := follows_list (Frame.follows_json (levels - 1)) opens_record levels
    -- A link is read with one level less, which is what the hypothesis is about.
    have hlink := follows_option ih (opens_writing levels)
    have hlocation := follows_option (SyntaxLocation.follows_json levels) opens_record
    refine follows_record ?_ (lawful levels (writing levels)) "RawException" (levels + 1)
    exact .cons ⟨_, follows_text, rfl⟩ <| .cons ⟨_, htexts, rfl⟩ <| .cons ⟨_, follows_text, rfl⟩ <|
      .cons ⟨_, hframes, rfl⟩ <| .cons ⟨_, hlink, rfl⟩ <| .cons ⟨_, hlink, rfl⟩ <| .cons ⟨_, follows_bool, rfl⟩ <|
      .cons ⟨_, hlocation, rfl⟩ .nil

/-! ## Texts for every exception -/

theorem exists_frame {levels : Nat} (hlevels : 0 < levels) (f : Frame) :
    ∃ t, Writing.record levels Frame.slots 0 f t := by
  refine exists_record hlevels Frame.lawful.nodup ?_
  simp only [Frame.slots, List.forall_mem_cons]
  have hnumber : ∀ o, ∃ t, Writing.option .word64 0 o t := fun _ => exists_option fun n _ => exists_word64 n
  exact ⟨exists_text _, exists_word64 _, hnumber _, hnumber _, hnumber _, exists_text _,
    exists_option fun t _ => exists_text t, List.forall_mem_nil _⟩

theorem exists_syntaxLocation {levels : Nat} (hlevels : 0 < levels) (l : SyntaxLocation) :
    ∃ t, Writing.record levels SyntaxLocation.slots 0 l t := by
  refine exists_record hlevels SyntaxLocation.lawful.nodup ?_
  simp only [SyntaxLocation.slots, List.forall_mem_cons]
  have hnumber : ∀ o, ∃ t, Writing.option .word64 0 o t := fun _ => exists_option fun n _ => exists_word64 n
  exact ⟨exists_text _, exists_word64 _, hnumber _, hnumber _, hnumber _, exists_option fun t _ => exists_text t,
    List.forall_mem_nil _⟩

/-- Every exception has a text as soon as there are levels enough for its links. -/
theorem exists_writing (e : Exception) : ∃ n, ∀ levels, n ≤ levels → ∃ t, writing levels 0 e t := by
  have hlink : ∀ l : Link Raised, ∃ n, ∀ levels, n ≤ levels →
      ∀ e ∈ Linked.ofLink? l, ∃ t, writing levels 0 e t := by
    intro l
    induction l with
    | absent => exact ⟨0, fun _ _ _ he => nomatch he⟩
    | back error hides cause context ihcause ihcontext =>
      obtain ⟨m, hcause⟩ := ihcause
      obtain ⟨n, hcontext⟩ := ihcontext
      -- Three levels: the exception, its list of frames, a frame.
      refine ⟨m + n + 3, ?_⟩
      rintro levels hlevels e ⟨⟩
      obtain ⟨levels, rfl⟩ : ∃ k, levels = k + 1 := ⟨levels - 1, by omega⟩
      have hpositive : 0 < levels := by omega
      refine exists_record (Nat.succ_pos levels) (lawful levels (writing levels)).nodup ?_
      simp only [slots, List.forall_mem_cons]
      exact ⟨exists_text _, exists_list hpositive fun t _ => exists_text t, exists_text _,
        exists_list hpositive fun f _ => exists_frame (by omega) f, exists_option (hcause levels (by omega)),
        exists_option (hcontext levels (by omega)), ⟨_, rfl, rfl⟩,
        exists_option fun l _ => exists_syntaxLocation hpositive l, List.forall_mem_nil _⟩
  obtain ⟨n, hn⟩ := hlink e.link
  exact ⟨n, fun levels hlevels => hn levels hlevels e rfl⟩

/-! ## Reading them -/

section Texts
variable {gaps : Nat} {e : Exception} {t before after : Text}

/-- A text in which nothing required is left out is read as the exception that it is written for; any other text is
refused. -/
theorem ofJson_of_writing (h : writing deepest gaps e t) (hbefore : Spaces before) (hafter : Spaces after) :
    (gaps = 0 → ofJson (before ++ (t ++ after)) = .ok e) ∧
      (gaps ≠ 0 → ∃ f, ofJson (before ++ (t ++ after)) = .error f) := by
  have hfollows := follows_json deepest
  constructor
  · rintro rfl
    exact parse_ok (hfollows.reads h) hbefore hafter
  · intro hgaps
    exact parse_error (hfollows.refuses h hgaps) hbefore hafter

end Texts

/-! ## A sample -/

def sampleCause : Exception := ⟨⟨['K'], [], [], [], none⟩, false, .absent, .absent⟩

def sample : Exception := ⟨⟨"VA".toList, [], [], [], none⟩, false, sampleCause.link, .absent⟩

theorem default_sampleCause (levels : Nat) (link : Writing Exception) :
    ∀ f ∈ slots levels link, f.default? = none ∨ f.default? = some (f.get sampleCause) := by
  intro f hf
  simp only [slots, List.mem_cons, List.not_mem_nil, or_false] at hf
  rcases hf with rfl | rfl | rfl | rfl | rfl | rfl | rfl | rfl
  · exact .inl rfl
  all_goals exact .inr rfl

theorem writing_sampleCause (levels : Nat) :
    writing (levels + 1) 0 sampleCause "\x7b\"type_name\":\"K\"\x7d".toList := by
  have hname : WritesText ['K'] ['"', 'K', '"'] := writesText_of_plain (by decide)
  refine @Writing.record.braces _ (levels + 1) (slots levels (writing levels)) sampleCause
    [⟨"type_name".toList, 0, ⟨"\"type_name\"".toList, [], [], ['"', 'K', '"']⟩⟩] "\"type_name\":\"K\"".toList
    (Nat.succ_pos levels) ?_ (List.pairwise_singleton _ _) ?_ (.row (.last spaces_nil spaces_nil))
  · intro x hx
    obtain rfl := List.mem_singleton.mp hx
    exact .known (List.mem_cons_self ..) (writesText_of_plain (by decide)) ⟨spaces_nil, spaces_nil⟩ ⟨rfl, hname⟩
  · exact fun f hf _ => default_sampleCause _ _ f hf

/-- Nothing is written of the cause, not even the name that is required. -/
theorem writing_sampleCause_nameless (levels : Nat) : writing (levels + 1) 1 sampleCause "\x7b\x7d".toList :=
  @Writing.record.braces _ (levels + 1) (slots levels (writing levels)) sampleCause [] [] (Nat.succ_pos levels)
    (List.forall_mem_nil _) .nil (fun f hf _ => default_sampleCause _ _ f hf) (.empty spaces_nil)

def sampleMentions (gaps : Nat) (cause : Text) : List Mention :=
  [⟨"cause".toList, gaps, ⟨"\"cause\"".toList, [' '], [' '], cause⟩⟩,
    ⟨"x".toList, 0, ⟨"\"x\"".toList, [], [], "[1]".toList⟩⟩,
    ⟨"type_name".toList, 0, ⟨"\"type_name\"".toList, [], [], "\"V\\u0041\"".toList⟩⟩]

def sampleBody (cause : Text) : Text :=
  "\"cause\" : ".toList ++ cause ++ ", \"x\":[1],\"type_name\":\"V\\u0041\"".toList

/-- The members are out of order, there is an unknown one, and a letter is escaped. -/
theorem writing_sample {levels gaps : Nat} {cause : Text} (h : writing levels gaps sampleCause cause) :
    writing (levels + 1) gaps sample ('{' :: (sampleBody cause ++ ['}'])) := by
  have hspace : Spaces [' '] := by decide
  have hcause : WritesText "cause".toList "\"cause\"".toList := writesText_of_plain (by decide)
  have hletters : WritesChars "VA".toList "V\\u0041".toList :=
    .cons (.plain (by decide)) <|
      .cons (.code _ (.digits '0' '0' '4' '1' (.inl rfl) (.inl rfl) (.inl rfl) (.inl rfl))) .nil
  have hnumber : IsNumber ['1'] :=
    @IsNumber.parts [] ['1'] [] [] (by decide) ⟨⟨by decide, by simp⟩, by decide⟩ .absent .absent
  have hvalue : IsValue "[1]".toList := by
    refine @IsValue.list [['1']] ['1'] (.row (.last spaces_nil spaces_nil)) fun t ht => ?_
    obtain rfl := List.mem_singleton.mp ht
    exact .number hnumber
  have hbody : Body ((sampleMentions gaps cause).map fun x => x.pair.text) (sampleBody cause) :=
    .row (.next spaces_nil spaces_nil (@Row.next [' '] _ [] _ _ hspace spaces_nil (.last spaces_nil spaces_nil)))
  refine @Writing.record.braces _ (levels + 1) (slots levels (writing levels)) sample (sampleMentions gaps cause)
    (sampleBody cause) (Nat.succ_pos levels) ?_ ?_ ?_ hbody
  · simp only [sampleMentions, List.forall_mem_cons]
    refine ⟨?_, ?_, ?_, List.forall_mem_nil _⟩
    · exact .known (.tail _ (.tail _ (.tail _ (.tail _ (.head _))))) hcause ⟨hspace, hspace⟩ (Writing.option.value h)
    · refine .unknown ?_ (writesText_of_plain (by decide)) ⟨spaces_nil, spaces_nil⟩ hvalue
      simp [slots]
    · exact .known (.head _) (writesText_of_plain (by decide)) ⟨spaces_nil, spaces_nil⟩ ⟨rfl, .quoted hletters⟩
  · simp [sampleMentions]
  · intro f hf habsent
    simp only [slots, List.mem_cons, List.not_mem_nil, or_false] at hf
    rcases hf with rfl | rfl | rfl | rfl | rfl | rfl | rfl | rfl
    case inr.inr.inr.inr.inl => exact absurd rfl (habsent _ (.head _))
    · exact .inl rfl
    all_goals exact .inr rfl

theorem ofJson_of_writing_sample :
    ofJson "\n\x7b\"cause\" : \x7b\"type_name\":\"K\"\x7d, \"x\":[1],\"type_name\":\"V\\u0041\"\x7d ".toList =
        .ok sample ∧
      ∃ f, ofJson "\x7b\"cause\" : \x7b\x7d, \"x\":[1],\"type_name\":\"V\\u0041\"\x7d".toList = .error f := by
  have hcomplete := writing_sample (writing_sampleCause 125)
  have hgap := writing_sample (writing_sampleCause_nameless 125)
  constructor
  · exact (@ofJson_of_writing 0 sample _ ['\n'] [' '] hcomplete (by decide) (by decide)).1 rfl
  · exact (@ofJson_of_writing 1 sample _ [] [] hgap spaces_nil spaces_nil).2 Nat.one_ne_zero

end Exception
end Traceback
