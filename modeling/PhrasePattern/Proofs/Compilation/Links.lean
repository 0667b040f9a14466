import PhrasePattern.Proofs.GroupTable
import PhrasePattern.Proofs.Text.Marks

/-! Where groups are referred to and where they are defined in a text that rules put together. A text
has links: with the groups bound before it and after it, its back-references are to groups of before
or to groups that it has defined, and it defines the groups that are new. Or else it has lost one, which
no text after it can make up for. -/
namespace PhrasePattern

open Text (namedMark Sealed Unmarked Balanced)

def referenceOpening : List Char := ['\\', 'k', '<']

def definitionOpening : List Char := ['(', '?', 'P', '<']

theorem toList_backreferenceTo (group : String) :
    (backreferenceTo group).toList = namedMark referenceOpening group.toList := by
  simp [backreferenceTo, namedMark, referenceOpening]

theorem toList_capture (group fragment : String) :
    (Rule.capture group fragment).toList =
      namedMark definitionOpening group.toList ++ (fragment.toList ++ [')']) := by
  simp [Rule.capture, namedMark, definitionOpening]

/-- The text has a definition of the group, from its parenthesis to the one that closes it. -/
def Defines (group : String) (text : List Char) : Prop :=
  ∃ before body after, Balanced body ∧
    text = before ++ (Rule.capture group (String.ofList body)).toList ++ after

/-- Every back-reference comes after a definition of its group. -/
def RefersBack (text : List Char) : Prop :=
  ∀ before group after, '>' ∉ group.toList →
    text = before ++ (backreferenceTo group).toList ++ after → Defines group before

theorem Defines.append_left {group : String} {text : List Char} (h : Defines group text)
    (front : List Char) : Defines group (front ++ text) := by
  obtain ⟨before, body, after, hbody, rfl⟩ := h
  exact ⟨front ++ before, body, after, hbody, by simp⟩

theorem Defines.append_right {group : String} {text : List Char} (h : Defines group text)
    (rest : List Char) : Defines group (text ++ rest) := by
  obtain ⟨before, body, after, hbody, rfl⟩ := h
  exact ⟨before, body, after ++ rest, hbody, by simp⟩

theorem Defines.occurs {group : String} {text : List Char} (h : Defines group text) :
    namedMark definitionOpening group.toList <:+: text := by
  obtain ⟨before, body, after, -, rfl⟩ := h
  rw [toList_capture]
  exact ⟨before, body ++ ([')'] ++ after), by simp⟩

namespace GroupTable

theorem group?_bind_eq_none_iff {table : GroupTable} {symbol other : String} :
    (table.bind other).2.group? symbol = none ↔ table.group? symbol = none ∧ symbol ≠ other := by
  cases h : table.group? other with
  | some group =>
    rw [bind_of_group? h]
    refine ⟨fun hnone => ⟨hnone, ?_⟩, fun hnone => hnone.1⟩
    rintro rfl
    rw [h] at hnone
    cases hnone
  | none =>
    rw [bind_of_group?_none h, group?_eq_none_iff, group?_eq_none_iff]
    simp

theorem group?_bindAll_eq_none_iff {table : GroupTable} {symbols : List String} {symbol : String} :
    (table.bindAll symbols).group? symbol = none ↔
      table.group? symbol = none ∧ symbol ∉ symbols := by
  induction symbols generalizing table with
  | nil => simp
  | cons other symbols ih =>
    rw [bindAll_cons, ih, group?_bind_eq_none_iff, List.mem_cons, not_or, and_assoc]

theorem bindAll_eq_self {table : GroupTable} {symbols : List String}
    (h : ∀ s ∈ symbols, table.group? s ≠ none) : table.bindAll symbols = table := by
  induction symbols with
  | nil => rfl
  | cons symbol symbols ih =>
    obtain ⟨group, hgroup⟩ := Option.ne_none_iff_exists'.mp (h symbol List.mem_cons_self)
    rw [bindAll_cons, bind_of_group? hgroup]
    exact ih fun s hs => h s (List.mem_cons_of_mem _ hs)

theorem exists_new_name {table : GroupTable} {symbols : List String} {symbol : String}
    (hmem : symbol ∈ symbols) (hfree : table.group? symbol = none) :
    ∃ group ∈ (table.bindAll symbols).names, group ∉ table.names := by
  induction symbols with
  | nil => cases hmem
  | cons first symbols ih =>
    cases hfirst : table.group? first with
    | some group =>
      rw [bindAll_cons, bind_of_group? hfirst]
      refine ih ((List.mem_cons.mp hmem).resolve_left ?_)
      rintro rfl
      rw [hfirst] at hfree
      cases hfree
    | none =>
      refine ⟨table.newName first, ?_, newName_not_mem_names table first⟩
      rw [bindAll_cons]
      refine names_subset_bindAll _ symbols ?_
      rw [names_bind_of_group?_none hfirst]
      simp

end GroupTable

/-- Text of a rule between operands: it neither refers to a group nor defines one. -/
structure Glue (text : List Char) : Prop where
  references : Unmarked referenceOpening text
  definitions : Unmarked definitionOpening text

theorem Glue.append {first second : List Char} (h : Glue first) (h' : Glue second) :
    Glue (first ++ second) :=
  ⟨h.references.append h'.references, h.definitions.append h'.definitions⟩

theorem glue_of_not_mem {text : List Char} (href : '\\' ∉ text) (hdef : '(' ∉ text) : Glue text :=
  ⟨Text.unmarked_of_not_mem href, Text.unmarked_of_not_mem hdef⟩

theorem glue_nonWords : Glue "\\W+".toList := by
  refine ⟨?_, Text.unmarked_of_not_mem (by decide)⟩
  refine @Text.unmarked_cons '\\' ['k', '<'] ['W', '+'] (by decide) ?_ ?_ <;> simp

theorem glue_open {c : Char} (hc : c ≠ 'P') (hopen : c ≠ '(') (hslash : c ≠ '\\') :
    Glue ['(', '?', c] := by
  refine ⟨Text.unmarked_of_not_mem ?_, ?_⟩
  · simpa using hslash.symm
  · refine @Text.unmarked_cons '(' ['?', 'P', '<'] ['?', c] ?_ ?_ ?_
    · simpa using hopen.symm
    · simp [hc]
    · simp [Ne.symm hc]

theorem glue_lazyAny : Glue ".*?".toList := glue_of_not_mem (by decide) (by decide)

theorem glue_close : Glue [')'] := glue_of_not_mem (by decide) (by decide)

inductive Assembled : List (List Char) → List Char → Prop
  | nil : Assembled [] []
  | glue {front text : List Char} {fragments : List (List Char)} (hfront : Glue front)
      (h : Assembled fragments text) : Assembled fragments (front ++ text)
  | operand {fragment text : List Char} {fragments : List (List Char)}
      (h : Assembled fragments text) : Assembled (fragment :: fragments) (fragment ++ text)

theorem Assembled.append {first second : List Char} {fragments others : List (List Char)}
    (h : Assembled fragments first) (h' : Assembled others second) :
    Assembled (fragments ++ others) (first ++ second) := by
  induction h with
  | nil => exact h'
  | glue hfront _ ih =>
    rw [List.append_assoc]
    exact .glue hfront ih
  | operand _ ih =>
    rw [List.append_assoc]
    exact .operand ih

theorem Assembled.of_glue {text : List Char} (h : Glue text) : Assembled [] text := by
  have htext := Assembled.glue h .nil
  rwa [List.append_nil] at htext

theorem Assembled.single (fragment : List Char) : Assembled [fragment] fragment := by
  have htext : Assembled [fragment] (fragment ++ []) := .operand .nil
  rwa [List.append_nil] at htext

theorem Assembled.append_glue {text rest : List Char} {fragments : List (List Char)}
    (h : Assembled fragments text) (hrest : Glue rest) : Assembled fragments (text ++ rest) := by
  have htext := h.append (.of_glue hrest)
  rwa [List.append_nil] at htext

section rules
variable (fragments : List String)

theorem assembled_intercalate {separator : String} (h : Glue separator.toList) :
    Assembled (fragments.map String.toList) (separator.intercalate fragments).toList := by
  induction fragments with
  | nil => exact .nil
  | cons first others ih =>
    cases others with
    | nil =>
      rw [String.intercalate_singleton]
      exact .single first.toList
    | cons second others =>
      rw [String.intercalate_cons_cons, String.toList_append, String.toList_append,
        List.append_assoc]
      exact .operand (.glue h ih)

theorem assembled_flexible :
    Assembled (fragments.map String.toList) (Rule.flexible fragments).toList := by
  rw [Rule.toList_flexible]
  exact .glue glue_lazyAny
    ((assembled_intercalate fragments glue_lazyAny).append_glue glue_lazyAny)

theorem assembled_conjunction :
    Assembled (fragments.map String.toList) (Rule.conjunction fragments).toList := by
  have hfront : Glue (".*?".toList ++ (['(', '?', '='] ++ ".*?".toList)) :=
    glue_lazyAny.append ((glue_open (by decide) (by decide) (by decide)).append glue_lazyAny)
  induction fragments with
  | nil => exact .of_glue (glue_of_not_mem (by decide) (by decide))
  | cons first others ih =>
    have htext : (Rule.conjunction (first :: others)).toList =
        (".*?".toList ++ (['(', '?', '='] ++ ".*?".toList)) ++ (first.toList ++ ([')'] ++
          (Rule.conjunction others).toList)) := by
      simp [Rule.toList_conjunction_cons]
    rw [htext]
    exact .glue hfront (.operand (.glue glue_close ih))

theorem assembled_disjunction :
    Assembled (fragments.map String.toList) (Rule.disjunction fragments).toList := by
  rw [Rule.toList_disjunction]
  refine .glue (glue_open (c := ':') (by decide) (by decide) (by decide)) ?_
  exact (assembled_intercalate fragments
    (glue_of_not_mem (by decide) (by decide))).append_glue glue_close

theorem assembled_bracket (form : Bracket) :
    Assembled (fragments.map String.toList) (Rule.bracket form fragments).toList := by
  cases form with
  | flexible => exact assembled_flexible fragments
  | rigid => exact assembled_intercalate fragments glue_nonWords
  | conjunction => exact assembled_conjunction fragments
  | disjunction => exact assembled_disjunction fragments

theorem assembled_negation (fragment : String) :
    Assembled [fragment.toList] (Rule.negation fragment).toList := by
  have hopen : ∀ {c : Char}, c ≠ 'P' → c ≠ '(' → c ≠ '\\' → Glue ['(', '?', c] := glue_open
  have hfront : Glue (['(', '?', ':'] ++ (['(', '?', ':'] ++ (['(', '?', '!'] ++ ['.', '*']))) :=
    (hopen (by decide) (by decide) (by decide)).append
      ((hopen (by decide) (by decide) (by decide)).append
        ((hopen (by decide) (by decide) (by decide)).append
          (glue_of_not_mem (by decide) (by decide))))
  have htext : (Rule.negation fragment).toList =
      (['(', '?', ':'] ++ (['(', '?', ':'] ++ (['(', '?', '!'] ++ ['.', '*']))) ++
        (fragment.toList ++ ".*$).)+)".toList) := by
    simp [Rule.negation]
  rw [htext]
  exact .glue hfront (.operand (.of_glue (glue_of_not_mem (by decide) (by decide))))

end rules

/-- What becomes of groups in a text, with `before` bound when it begins and `after` when it ends:
every back-reference is to a group of `before` or one that the text has defined, and the groups that
are new in `after` are defined. -/
structure Complete (before : GroupTable) (text : List Char) (after : GroupTable) : Prop where
  refers : ∀ front group rest, '>' ∉ group.toList →
    text = front ++ namedMark referenceOpening group.toList ++ rest →
      group ∈ before.names ∨ Defines group front
  defined : ∀ group ∈ after.names, group ∈ before.names ∨ Defines group text

def Lossy (before : GroupTable) (text : List Char) (after : GroupTable) : Prop :=
  ∃ group ∈ after.names, '>' ∉ group.toList ∧ group ∉ before.names ∧
    ¬ namedMark definitionOpening group.toList <:+: text

/-- What the text of a term does with groups; `kept` says whether it keeps its bindings. -/
structure Links (kept : Prop) (before : GroupTable) (text : List Char) (after : GroupTable) :
    Prop where
  references : Sealed referenceOpening text
  definitions : Sealed definitionOpening text
  grows : before.names ⊆ after.names
  defines : ∀ group : String, '>' ∉ group.toList →
    namedMark definitionOpening group.toList <:+: text →
      group ∈ after.names ∧ group ∉ before.names
  complete : kept → Complete before text after
  lossy : ¬ kept → Lossy before text after

section links
variable {kept : Prop} {before after : GroupTable} {text : List Char}

theorem Glue.links (h : Glue text) (groups : GroupTable) : Links True groups text groups where
  references := h.references.isSealed
  definitions := h.definitions.isSealed
  grows := List.Subset.refl _
  defines := fun group hgroup hin => absurd hin (h.definitions.absent _ hgroup)
  complete := fun _ => by
    refine ⟨fun front group rest hgroup heq => ?_, fun group hmem => .inl hmem⟩
    exact absurd ⟨front, rest, heq.symm⟩ (h.references.absent _ hgroup)
  lossy := fun hkept => absurd trivial hkept

theorem Links.glue {front : List Char} (hfront : Glue front) (h : Links kept before text after) :
    Links kept before (front ++ text) after where
  references := hfront.references.isSealed.append h.references
  definitions := hfront.definitions.isSealed.append h.definitions
  grows := h.grows
  defines := by
    intro group hgroup hin
    rcases hfront.definitions.isSealed.infix_cases hgroup hin with hfirst | hsecond
    · exact absurd hfirst (hfront.definitions.absent _ hgroup)
    · exact h.defines group hgroup hsecond
  complete := by
    intro hkept
    have hcomplete := h.complete hkept
    constructor
    · intro prior group rest hgroup heq
      rcases hfront.references.isSealed.mark_cases hgroup heq with ⟨more, hmore⟩ | ⟨inner, rfl, hinner⟩
      · exact absurd ⟨prior, more, hmore.symm⟩ (hfront.references.absent _ hgroup)
      · exact (hcomplete.refers inner group rest hgroup hinner).imp_right fun hdefines =>
          hdefines.append_left front
    · intro group hmem
      exact (hcomplete.defined group hmem).imp_right fun hdefines => hdefines.append_left front
  lossy := by
    intro hkept
    obtain ⟨group, hafter, hgroup, hbefore, habsent⟩ := h.lossy hkept
    refine ⟨group, hafter, hgroup, hbefore, fun hin => ?_⟩
    rcases hfront.definitions.isSealed.infix_cases hgroup hin with hfirst | hsecond
    · exact hfront.definitions.absent _ hgroup hfirst
    · exact habsent hsecond

/-- One text after the other. A group that the one loses is not defined by the other, since that
defines only groups of its own. -/
theorem Links.append {kept' : Prop} {between : GroupTable} {second : List Char}
    (h : Links kept before text between) (h' : Links kept' between second after) :
    Links (kept ∧ kept') before (text ++ second) after where
  references := h.references.append h'.references
  definitions := h.definitions.append h'.definitions
  grows := List.Subset.trans h.grows h'.grows
  defines := by
    intro group hgroup hin
    rcases h.definitions.infix_cases hgroup hin with hfirst | hsecond
    · obtain ⟨hbetween, hbefore⟩ := h.defines group hgroup hfirst
      exact ⟨h'.grows hbetween, hbefore⟩
    · obtain ⟨hafter, hbetween⟩ := h'.defines group hgroup hsecond
      exact ⟨hafter, fun hbefore => hbetween (h.grows hbefore)⟩
  complete := by
    rintro ⟨hkept, hkept'⟩
    have hfirst := h.complete hkept
    have hsecond := h'.complete hkept'
    have hbetween : ∀ group ∈ between.names, ∀ front : List Char,
        group ∈ before.names ∨ Defines group (text ++ front) := fun group hmem front =>
      (hfirst.defined group hmem).imp_right fun hdefines => hdefines.append_right front
    constructor
    -- no reference lies across the seam
    · intro front group rest hgroup heq
      rcases h.references.mark_cases hgroup heq with ⟨more, hmore⟩ | ⟨inner, rfl, hinner⟩
      · exact hfirst.refers front group more hgroup hmore
      · rcases hsecond.refers inner group rest hgroup hinner with hmem | hdefines
        · exact hbetween group hmem inner
        · exact .inr (hdefines.append_left text)
    · intro group hmem
      rcases hsecond.defined group hmem with hmem | hdefines
      · exact hbetween group hmem second
      · exact .inr (hdefines.append_left text)
  lossy := by
    intro hlost
    by_cases hkept : kept
    · obtain ⟨group, hafter, hgroup, hbetween, habsent⟩ := h'.lossy fun hkept' => hlost ⟨hkept, hkept'⟩
      refine ⟨group, hafter, hgroup, fun hbefore => hbetween (h.grows hbefore), fun hin => ?_⟩
      rcases h.definitions.infix_cases hgroup hin with hfirst | hsecond
      · exact hbetween (h.defines group hgroup hfirst).1
      · exact habsent hsecond
    · obtain ⟨group, hbetween, hgroup, hbefore, habsent⟩ := h.lossy hkept
      refine ⟨group, h'.grows hbetween, hgroup, hbefore, fun hin => ?_⟩
      rcases h.definitions.infix_cases hgroup hin with hfirst | hsecond
      · exact habsent hfirst
      · exact (h'.defines group hgroup hsecond).2 hbetween

theorem Links.append_glue {rest : List Char} (h : Links kept before text after)
    (hrest : Glue rest) : Links kept before (text ++ rest) after := by
  have htext := h.append (hrest.links after)
  rwa [and_true] at htext

theorem not_mem_mark {lead : Char} {opening : List Char} {group : String}
    (hchars : ∀ c ∈ group.toList, GroupTable.isNameChar c = true)
    (hlead : GroupTable.isNameChar lead = false) (hopening : lead ∉ opening) (hclose : lead ≠ '>') :
    lead ∉ namedMark opening group.toList := by
  intro hmem
  simp only [namedMark, List.mem_append, List.mem_singleton] at hmem
  rcases hmem with (hmem | hmem) | hmem
  · exact hopening hmem
  · rw [hchars _ hmem] at hlead
    cases hlead
  · exact hclose hmem

theorem not_mem_name {lead : Char} {group : String}
    (hchars : ∀ c ∈ group.toList, GroupTable.isNameChar c = true)
    (hlead : GroupTable.isNameChar lead = false) : lead ∉ group.toList := by
  intro hmem
  rw [hchars _ hmem] at hlead
  cases hlead

theorem links_backreference {groups : GroupTable} (h : groups.HasNames) {group : String}
    (hgroup : group ∈ groups.names) :
    Links True groups (namedMark referenceOpening group.toList) groups := by
  have hchars := h.chars group hgroup
  have hslash : '\\' ∉ group.toList := not_mem_name hchars (by decide)
  have hunmarked : Unmarked definitionOpening (namedMark referenceOpening group.toList) :=
    Text.unmarked_of_not_mem (not_mem_mark hchars (by decide) (by decide) (by decide))
  refine ⟨?_, hunmarked.isSealed, List.Subset.refl _, ?_, fun _ => ⟨?_, fun _ hmem => .inl hmem⟩,
    fun hkept => absurd trivial hkept⟩
  · exact Text.sealed_mark (by decide) hslash (by decide)
  · intro other hother hin
    exact absurd hin (hunmarked.absent _ hother)
  · intro front other rest hother heq
    have hname := Text.name_eq_of_occurs (by decide) hslash (by decide)
      (not_mem_name hchars (by decide)) ⟨front, rest, heq.symm⟩
    exact .inl (String.toList_inj.mp hname ▸ hgroup)

theorem Links.capture {group : String} {between : GroupTable}
    (h : Links kept before text between) (hbalanced : Balanced text)
    (hchars : ∀ c ∈ group.toList, GroupTable.isNameChar c = true)
    (hnew : group ∉ between.names) (hafter : after.names = between.names ++ [group]) :
    Links kept before (namedMark definitionOpening group.toList ++ (text ++ [')'])) after := by
  have hbody := h.append_glue glue_close
  have hopen : '(' ∉ group.toList := not_mem_name hchars (by decide)
  have hclose : '>' ∉ group.toList := not_mem_name hchars (by decide)
  have href : Unmarked referenceOpening (namedMark definitionOpening group.toList) :=
    Text.unmarked_of_not_mem (not_mem_mark hchars (by decide) (by decide) (by decide))
  have hdef : Sealed definitionOpening (namedMark definitionOpening group.toList) :=
    Text.sealed_mark (by decide) hopen (by decide)
  have hinside : ∀ other : String, '>' ∉ other.toList → other ≠ group →
      namedMark definitionOpening other.toList <:+:
        namedMark definitionOpening group.toList ++ (text ++ [')']) →
      namedMark definitionOpening other.toList <:+: text ++ [')'] := by
    intro other hother hne hin
    refine (hdef.infix_cases hother hin).resolve_left fun hfirst => hne ?_
    exact String.toList_inj.mp (Text.name_eq_of_occurs (by decide) hopen (by decide) hclose hfirst)
  have hmem : ∀ other, other ∈ after.names ↔ other ∈ between.names ∨ other = group := by
    intro other
    rw [hafter, List.mem_append, List.mem_singleton]
  refine ⟨href.isSealed.append hbody.references, hdef.append hbody.definitions, ?_, ?_, ?_, ?_⟩
  · exact fun other hother => (hmem other).mpr (.inl (h.grows hother))
  · intro other hother hin
    by_cases heq : other = group
    · exact ⟨(hmem other).mpr (.inr heq), fun hbefore => hnew (heq ▸ h.grows hbefore)⟩
    · obtain ⟨hbetween, hbefore⟩ := hbody.defines other hother (hinside other hother heq hin)
      exact ⟨(hmem other).mpr (.inl hbetween), hbefore⟩
  · intro hkept
    have hcomplete := hbody.complete hkept
    constructor
    · intro front other rest hother heq
      rcases href.isSealed.mark_cases hother heq with ⟨more, hmore⟩ | ⟨inner, rfl, hinner⟩
      · exact absurd ⟨front, more, hmore.symm⟩ (href.absent _ hother)
      · exact (hcomplete.refers inner other rest hother hinner).imp_right fun hdefines =>
          hdefines.append_left _
    · intro other hother
      rcases (hmem other).mp hother with hother | rfl
      · exact (hcomplete.defined other hother).imp_right fun hdefines => hdefines.append_left _
      · exact .inr ⟨[], text, [], hbalanced, by simp [toList_capture]⟩
  · intro hkept
    obtain ⟨other, hbetween, hother, hbefore, habsent⟩ := hbody.lossy hkept
    refine ⟨other, (hmem other).mpr (.inl hbetween), hother, hbefore, fun hin => ?_⟩
    exact habsent (hinside other hother (fun heq => hnew (heq ▸ hbetween)) hin)

/-- A repeated assignment: the groups that its operand binds are lost with the operand. -/
theorem Links.drop {group : String} {symbols : List String}
    (h : Links kept before text (before.bindAll symbols)) (hnames : (before.bindAll symbols).HasNames)
    (hgroup : group ∈ (before.bindAll symbols).names) :
    Links (kept ∧ ∀ s ∈ symbols, before.group? s ≠ none) before
      (namedMark referenceOpening group.toList) (before.bindAll symbols) := by
  have hreference := links_backreference hnames hgroup
  have habsent : ∀ other : String, '>' ∉ other.toList → ¬ namedMark definitionOpening other.toList <:+:
      namedMark referenceOpening group.toList := fun other hother hin => by
    obtain ⟨hafter, hbefore⟩ := hreference.defines other hother hin
    exact hbefore hafter
  refine ⟨hreference.references, hreference.definitions, h.grows, ?_, ?_, ?_⟩
  · exact fun other hother hin => absurd hin (habsent other hother)
  · rintro ⟨-, hbound⟩
    rw [GroupTable.bindAll_eq_self hbound] at hreference ⊢
    exact hreference.complete trivial
  · intro hlost
    have hnew : ∃ other ∈ (before.bindAll symbols).names, other ∉ before.names := by
      by_cases hkept : kept
      · have hfree : ∃ s ∈ symbols, before.group? s = none := by
          by_contra hnone
          exact hlost ⟨hkept, fun s hs hfree => hnone ⟨s, hs, hfree⟩⟩
        obtain ⟨s, hs, hfree⟩ := hfree
        exact GroupTable.exists_new_name hs hfree
      · obtain ⟨other, hother, -, hbefore, -⟩ := h.lossy hkept
        exact ⟨other, hother, hbefore⟩
    obtain ⟨other, hother, hbefore⟩ := hnew
    have hclose : '>' ∉ other.toList := not_mem_name (hnames.chars other hother) (by decide)
    exact ⟨other, hother, hclose, hbefore, habsent other hclose⟩

inductive Chain : Prop → GroupTable → List (List Char) → GroupTable → Prop
  | nil (groups : GroupTable) : Chain True groups [] groups
  | cons {kept kept' : Prop} {before between after : GroupTable} {text : List Char}
      {texts : List (List Char)} (h : Links kept before text between)
      (hrest : Chain kept' between texts after) : Chain (kept ∧ kept') before (text :: texts) after

theorem Assembled.links {texts : List (List Char)} (h : Assembled texts text)
    (hchain : Chain kept before texts after) : Links kept before text after := by
  induction h generalizing kept before with
  | nil =>
    cases hchain
    exact (glue_of_not_mem List.not_mem_nil List.not_mem_nil).links _
  | glue hfront _ ih => exact (ih hchain).glue hfront
  | operand _ ih =>
    cases hchain with
    | cons hlinks hrest => exact hlinks.append (ih hrest)

end links

section balance
variable {fragments : List String}

theorem balanced_intercalate {separator : String} (hseparator : Balanced separator.toList)
    (h : ∀ f ∈ fragments, Balanced f.toList) : Balanced (separator.intercalate fragments).toList := by
  induction fragments with
  | nil => exact Text.balanced_nil
  | cons first others ih =>
    have hfirst := h first List.mem_cons_self
    have hothers := ih fun f hf => h f (List.mem_cons_of_mem _ hf)
    cases others with
    | nil => rwa [String.intercalate_singleton]
    | cons second others =>
      rw [String.intercalate_cons_cons, String.toList_append, String.toList_append]
      exact (hfirst.append hseparator).append hothers

theorem balanced_join (h : ∀ f ∈ fragments, Balanced f.toList) : Balanced (String.join fragments).toList := by
  rw [String.toList_join]
  induction fragments with
  | nil => exact Text.balanced_nil
  | cons first others ih =>
    rw [List.flatMap_cons]
    exact (h first List.mem_cons_self).append (ih fun f hf => h f (List.mem_cons_of_mem _ hf))

theorem balanced_bracket (form : Bracket) (h : ∀ f ∈ fragments, Balanced f.toList) :
    Balanced (Rule.bracket form fragments).toList := by
  have hlazy : Balanced ".*?".toList := Text.balanced_of_not_mem (by decide) (by decide)
  cases form with
  | flexible =>
    rw [Rule.bracket, Rule.toList_flexible]
    exact hlazy.append ((balanced_intercalate hlazy h).append hlazy)
  | rigid => exact balanced_intercalate (Text.balanced_of_not_mem (by decide) (by decide)) h
  | conjunction =>
    rw [Rule.bracket, Rule.conjunction, String.toList_append]
    refine (balanced_join fun text htext => ?_).append
      (Text.balanced_of_not_mem (by decide) (by decide))
    obtain ⟨f, hf, rfl⟩ := List.mem_map.mp htext
    intro n
    simp [Text.level_append, Text.level, h f hf (n + 1)]
  | disjunction =>
    have hbar : Balanced "|".toList := Text.balanced_of_not_mem (by decide) (by decide)
    have hinner := balanced_intercalate hbar h
    rw [Rule.bracket, Rule.disjunction]
    generalize "|".intercalate fragments = inner at hinner ⊢
    intro n
    simp [Text.level_append, Text.level, hinner (n + 1)]

theorem balanced_negation {fragment : String} (h : Balanced fragment.toList) :
    Balanced (Rule.negation fragment).toList := by
  intro n
  simp [Rule.negation, Text.level_append, Text.level, h (n + 1 + 1 + 1)]

theorem balanced_capture {group fragment : String}
    (hchars : ∀ c ∈ group.toList, GroupTable.isNameChar c = true) (h : Balanced fragment.toList) :
    Balanced (Rule.capture group fragment).toList := by
  have hname : Balanced group.toList :=
    Text.balanced_of_not_mem (not_mem_name hchars (by decide)) (not_mem_name hchars (by decide))
  intro n
  simp [Rule.capture, Text.level_append, Text.level, h (n + 1), hname (n + 1)]

end balance

end PhrasePattern
