import Mathlib.Data.List.Basic
import Traceback.Path
import Traceback.Proofs.Text.Pieces

/-! # Paths and their components

What a path names is said by its components, and a directory holds what its components are a prefix of.

* `components_join`: the components of a path that is seen from a directory.
* `components_absolute`: making a path absolute by its text keeps what it names.
* `components_join_of_relativeTo?`: what remains below a directory leads back to where it comes from.
* `not_under_of_beside`: a path that goes on inside the last name of a directory lies outside of it.
-/

namespace Traceback.Path
set_option autoImplicit false

variable {base p piece rest : Text} {c : Component} {cs : List Component}

/-- `p` seen from `directory`. -/
def join (directory p : Text) : Text := if isAbsolute p then p else below directory p

/-! ## Names -/

/-- The components of a path behind its front. -/
def names (p : Text) : List Component := (Text.cut '/' p).filterMap component?

theorem names_of_notMem (h : '/' ∉ p) : names p = (component? p).toList := by
  rw [names, Text.cut_of_notMem h]
  cases hp : component? p with
  | none => exact List.filterMap_cons_none hp
  | some c => exact List.filterMap_cons_some hp

theorem names_append_cons (p t : Text) : names (p ++ '/' :: t) = names p ++ names t := by
  rw [names, Text.cut_append_cons, List.filterMap_append]
  rfl

theorem names_concat (p : Text) : names (p ++ ['/']) = names p :=
  (names_append_cons p []).trans (List.append_nil _)

theorem names_below (p piece : Text) : names (below p piece) = names p ++ names piece := by
  by_cases h : p.getLast? = some '/'
  · obtain ⟨above, rfl⟩ := List.getLast?_eq_some_iff.mp h
    rw [below, if_pos h, List.append_assoc, names_concat]
    exact names_append_cons above piece
  · rw [below, if_neg h, names_append_cons]

theorem components_of_isAbsolute (h : isAbsolute p = true) : components p = .root :: names p := if_pos h

theorem ne_nil_of_isAbsolute (h : isAbsolute p = true) : p ≠ [] := by
  rintro rfl
  exact absurd h (by decide)

theorem isAbsolute_append (h : p ≠ []) (t : Text) : isAbsolute (p ++ t) = isAbsolute p := by
  rw [isAbsolute, isAbsolute, List.head?_append_of_ne_nil _ h]

theorem isAbsolute_below (h : p ≠ []) (piece : Text) : isAbsolute (below p piece) = isAbsolute p := by
  rw [below]
  split <;> exact isAbsolute_append h _

theorem isAbsolute_join (h : isAbsolute base = true) (p : Text) : isAbsolute (join base p) = true := by
  rw [join]
  split
  next hp => exact hp
  next => rw [isAbsolute_below (ne_nil_of_isAbsolute h), h]

theorem components_join (hbase : isAbsolute base = true) (hp : isAbsolute p = false) :
    components (join base p) = components base ++ names p := by
  rw [components_of_isAbsolute (isAbsolute_join hbase p), join, hp, if_neg Bool.false_ne_true, names_below,
    components_of_isAbsolute hbase, List.cons_append]

/-! ## Components as texts -/

theorem text_of_component? (h : component? piece = some c) : c.text = piece := by
  rw [component?] at h
  split at h
  next => cases h
  next =>
    split at h
    next hup =>
      cases h
      exact hup.symm
    next =>
      cases h
      rfl

/-- A component that may stand anywhere in a path: its text is its own and no other piece. -/
def Inner (c : Component) : Prop := component? c.text = some c ∧ '/' ∉ c.text

theorem inner_of_mem_names (h : c ∈ names p) : Inner c := by
  obtain ⟨piece, hpiece, hc⟩ := List.mem_filterMap.mp h
  rw [Inner, text_of_component? hc]
  exact ⟨hc, Text.notMem_of_mem_cut hpiece⟩

theorem Inner.names_text (h : Inner c) : names c.text = [c] := by
  rw [names_of_notMem h.2, h.1]
  rfl

theorem Inner.text_ne_nil (h : Inner c) : c.text ≠ [] := by
  intro hnil
  have hc := h.1
  rw [hnil] at hc
  cases hc

theorem Inner.isAbsolute_text (h : Inner c) : isAbsolute c.text = false := by
  rw [isAbsolute, beq_eq_false_iff_ne]
  exact fun hhead => h.2 (List.mem_of_head? hhead)

theorem names_descend (start : Text) (h : ∀ c ∈ cs, Inner c) : names (descend start cs) = names start ++ cs := by
  induction cs generalizing start with
  | nil => exact (List.append_nil _).symm
  | cons c cs ih =>
    rw [List.forall_mem_cons] at h
    calc names (descend start (c :: cs))
        = names (below start c.text) ++ cs := ih _ h.2
      _ = names start ++ [c] ++ cs := by rw [names_below, h.1.names_text]
      _ = names start ++ c :: cs := List.append_assoc _ _ _

theorem isAbsolute_descend {start : Text} (h : start ≠ []) (cs : List Component) :
    isAbsolute (descend start cs) = isAbsolute start := by
  induction cs generalizing start with
  | nil => rfl
  | cons c cs ih =>
    have hbelow : below start c.text ≠ [] := by
      rw [below]
      split <;> exact List.append_ne_nil_of_left_ne_nil h _
    exact (ih hbelow).trans (isAbsolute_below h c.text)

theorem ofComponents_cons (h : Inner c) (cs : List Component) : ofComponents (c :: cs) = descend c.text cs := by
  cases c with
  | root => exact absurd (List.mem_singleton_self _) h.2
  | here | up | name => rfl

theorem names_ofComponents (h : ∀ c ∈ cs, Inner c) : names (ofComponents cs) = cs := by
  cases cs with
  | nil => rfl
  | cons c cs =>
    rw [List.forall_mem_cons] at h
    rw [ofComponents_cons h.1, names_descend _ h.2, h.1.names_text]
    rfl

theorem isAbsolute_ofComponents (h : ∀ c ∈ cs, Inner c) : isAbsolute (ofComponents cs) = false := by
  cases cs with
  | nil => rfl
  | cons c cs =>
    rw [List.forall_mem_cons] at h
    rw [ofComponents_cons h.1, isAbsolute_descend h.1.text_ne_nil, h.1.isAbsolute_text]

/-! ## Absolute paths -/

/-- Where an absolute path for `p` begins. -/
def front (directory p : Text) : Text :=
  if isAbsolute p then if p.take 2 = ['/', '/'] ∧ p.take 3 ≠ ['/', '/', '/'] then ['/', '/'] else ['/'] else directory

theorem isAbsolute_front (h : isAbsolute base = true) (p : Text) : isAbsolute (front base p) = true := by
  rw [front]
  split
  next => split <;> rfl
  next => exact h

theorem filter_components (p : Text) : (components p).filter (fun c => c != .here && c != .root) = names p := by
  have hnames : (names p).filter (fun c => c != .here && c != .root) = names p := by
    apply List.filter_eq_self.mpr
    intro c hc
    obtain ⟨hown, hsep⟩ := inner_of_mem_names hc
    cases c with
    | root => exact absurd (List.mem_singleton_self _) hsep
    | here => cases hown
    | up | name => rfl
  rw [components]
  split
  next => exact hnames
  next => split <;> exact hnames

theorem exists_absolute_eq (base : Text) (hp : p ≠ []) :
    ∃ tail, (tail = [] ∨ tail = ['/']) ∧ absolute base p = descend (front base p) (names p) ++ tail := by
  rw [absolute, if_neg hp, filter_components]
  let whole := descend (front base p) (names p)
  change ∃ tail, _ ∧ (if p.getLast? = some '/' ∧ whole.getLast? ≠ some '/' then whole ++ ['/'] else whole) = _
  split
  next => exact ⟨['/'], .inr rfl, rfl⟩
  next => exact ⟨[], .inl rfl, (List.append_nil whole).symm⟩

theorem isAbsolute_absolute (hbase : isAbsolute base = true) (hp : p ≠ []) : isAbsolute (absolute base p) = true := by
  obtain ⟨tail, -, h⟩ := exists_absolute_eq base hp
  have hfront := isAbsolute_front hbase p
  have hwhole : isAbsolute (descend (front base p) (names p)) = true :=
    (isAbsolute_descend (ne_nil_of_isAbsolute hfront) _).trans hfront
  rw [h, isAbsolute_append (ne_nil_of_isAbsolute hwhole), hwhole]

theorem names_absolute (hp : p ≠ []) : names (absolute base p) = names (front base p) ++ names p := by
  obtain ⟨tail, htail, h⟩ := exists_absolute_eq base hp
  rw [h, ← names_descend _ fun c => inner_of_mem_names]
  rcases htail with rfl | rfl
  · rw [List.append_nil]
  · exact names_concat _

theorem components_absolute (hbase : isAbsolute base = true) (hp : p ≠ []) :
    components (absolute base p) = components (join base p) := by
  rw [components_of_isAbsolute (isAbsolute_absolute hbase hp), components_of_isAbsolute (isAbsolute_join hbase p),
    names_absolute hp, front, join]
  split
  next => split <;> rfl
  next => rw [names_below]

/-! ## Directories above -/

/-- `base` is `p` or a directory on the way to it. -/
def Under (base p : Text) : Prop := components base <+: components p

instance (base p : Text) : Decidable (Under base p) := inferInstanceAs (Decidable (components base <+: components p))

theorem relativeTo?_eq_some (h : components p = components base ++ cs) : relativeTo? base p = some (ofComponents cs) := by
  rw [relativeTo?, h, Text.dropPrefix?_append]
  rfl

theorem relativeTo?_eq_none (h : ¬ Under base p) : relativeTo? base p = none := by
  rw [relativeTo?, Option.map_eq_none_iff, Option.eq_none_iff_forall_ne_some]
  exact fun cs hcs => h ⟨cs, (Text.eq_append_of_dropPrefix? hcs).symm⟩

/-- What remains of a path below a directory is relative, and seen from the directory it is the path again. -/
theorem exists_relativeTo?_eq (hbase : isAbsolute base = true) (hp : isAbsolute p = true) (h : Under base p) :
    ∃ rest, relativeTo? base p = some rest ∧ isAbsolute rest = false ∧
      components (join base rest) = components p := by
  obtain ⟨cs, hcs⟩ := h
  have hinner : ∀ c ∈ cs, Inner c := by
    rw [components_of_isAbsolute hbase, components_of_isAbsolute hp, List.cons_append, List.cons.injEq] at hcs
    intro c hc
    apply inner_of_mem_names (p := p)
    rw [← hcs.2]
    exact List.mem_append_right _ hc
  have hrelative := isAbsolute_ofComponents hinner
  refine ⟨ofComponents cs, relativeTo?_eq_some hcs.symm, hrelative, ?_⟩
  rw [components_join hbase hrelative, names_ofComponents hinner, hcs]

/-! ## Directories beside -/

/-- `p` begins with the text of `base` and goes on inside the last name of it. -/
def Beside (base p : Text) : Prop :=
  ∃ above name more, base = above ++ '/' :: name ∧ '/' ∉ name ∧ component? name ≠ none ∧
    p = base ++ more ∧ more ≠ [] ∧ more.head? ≠ some '/'

/-- A name that goes on is another name. -/
theorem exists_component?_append {name more : Text} (hname : component? name = some c) (hmore : more ≠ []) :
    ∃ d, component? (name ++ more) = some d ∧ d ≠ c := by
  have hlong : ¬ (name ++ more = [] ∨ name ++ more = ['.']) := by
    have hnil : name ≠ [] := by
      rintro rfl
      cases hname
    rintro (h | h)
    · exact hmore (List.append_eq_nil_iff.mp h).2
    · have hlength := congrArg List.length h
      rw [List.length_append, List.length_singleton] at hlength
      have := List.length_pos_of_ne_nil hnil
      have := List.length_pos_of_ne_nil hmore
      omega
  have hother {d : Component} (hd : component? (name ++ more) = some d) : d ≠ c := by
    rintro rfl
    have htext := (text_of_component? hd).symm.trans (text_of_component? hname)
    exact hmore (List.append_right_eq_self.mp htext)
  rw [component?, if_neg hlong] at hother ⊢
  split
  next h => exact ⟨.up, rfl, hother (if_pos h)⟩
  next h => exact ⟨.name (name ++ more), rfl, hother (if_neg h)⟩

/-- The name goes on up to the next separator. -/
theorem exists_names_append_eq {name more : Text} (hname : '/' ∉ name) (hmore : more ≠ [])
    (hhead : more.head? ≠ some '/') :
    ∃ longer further, longer ≠ [] ∧ names (name ++ more) = (component? (name ++ longer)).toList ++ further := by
  by_cases h : '/' ∈ more
  · obtain ⟨longer, after, rfl, hlonger⟩ := List.eq_append_cons_of_mem h
    have hnil : longer ≠ [] := by
      rintro rfl
      exact hhead rfl
    have hown : '/' ∉ name ++ longer := List.not_mem_append hname hlonger
    exact ⟨longer, names after, hnil, by rw [← List.append_assoc, names_append_cons, names_of_notMem hown]⟩
  · have hown : '/' ∉ name ++ more := List.not_mem_append hname h
    exact ⟨more, [], hmore, by rw [names_of_notMem hown, List.append_nil]⟩

theorem not_under_of_beside (hbase : isAbsolute base = true) (h : Beside base p) : ¬ Under base p := by
  obtain ⟨above, name, more, rfl, hsep, hname, rfl, hmore, hhead⟩ := h
  obtain ⟨c, hc⟩ := Option.ne_none_iff_exists'.mp hname
  obtain ⟨longer, further, hlonger, hnames⟩ := exists_names_append_eq hsep hmore hhead
  obtain ⟨d, hd, hne⟩ := exists_component?_append hc hlonger
  have hinside : names (above ++ '/' :: name) = names above ++ [c] := by
    rw [names_append_cons, names_of_notMem hsep, hc]
    rfl
  have hbeyond : names (above ++ '/' :: name ++ more) = names above ++ d :: further := by
    rw [List.append_assoc, List.cons_append, names_append_cons, hnames, hd]
    rfl
  have hp := (isAbsolute_append (ne_nil_of_isAbsolute hbase) more).trans hbase
  rintro ⟨cs, hcs⟩
  rw [components_of_isAbsolute hbase, components_of_isAbsolute hp, hinside, hbeyond] at hcs
  have hcons : [c] ++ cs = d :: further := by
    apply List.append_cancel_left
    rw [← List.append_assoc]
    exact (List.cons.inj hcs).2
  exact hne (List.cons.inj hcons).1.symm

end Traceback.Path
