import PhrasePattern.Proofs.Term.PostOrder
import PhrasePattern.Proofs.Term.RoundTrip

/-! Nodes of a term shown as other texts. Writing a term with texts for some of its paths is the same
as putting literals in their place and writing the term that results. Only the outermost of such paths
count, and all nodes that are not at or below one of them are kept, which determines the result. Texts
for all other paths have no effect. -/
namespace PhrasePattern.Term

inductive SameHead : Term → Term → Prop
  | group (form : Bracket) {items items' : List Term} (length : items.length = items'.length) :
      SameHead (group form items) (group form items')
  | negation (operand operand' : Term) : SameHead (negation operand) (negation operand')
  | regex (body : String) : SameHead (regex body) (regex body)
  | reference (symbol : String) : SameHead (reference symbol) (reference symbol)
  | assignment (symbol : String) (operand operand' : Term) :
      SameHead (assignment symbol operand) (assignment symbol operand')
  | macroCall (name : String) {arguments arguments' : List Term}
      (length : arguments.length = arguments'.length) :
      SameHead (macroCall name arguments) (macroCall name arguments')
  | literal (text : String) : SameHead (literal text) (literal text)
  | concatenation {items items' : List Term} (length : items.length = items'.length) :
      SameHead (concatenation items) (concatenation items')

theorem SameHead.length_children {t u : Term} (h : SameHead t u) :
    t.children.length = u.children.length := by
  cases h with
  | group _ length | macroCall _ length | concatenation length => exact length
  | _ => rfl

theorem SameHead.eq_of_children {t u v : Term} (h : SameHead t u) (h' : SameHead t v)
    (children_eq : u.children = v.children) : u = v := by
  cases h <;> cases h' <;> simp_all [children]

/-- The term `u` is `t` with a literal in the place of each node at a path that has a text, unless a
node above it has one. -/
structure Substituted (texts : Path → Option String) (t u : Term) : Prop where
  shown : ∀ path node text, t.at? path = some node → texts path = some text →
    (∀ above, above <+: path → above ≠ path → texts above = none) →
      u.at? path = some (literal text)
  kept : ∀ path, (∀ above, above <+: path → texts above = none) →
    Option.Rel SameHead (t.at? path) (u.at? path)

mutual

/-- The term with literals in the place of the outermost nodes that have a text. -/
def substitute (texts : Path → Option String) (t : Term) : Term :=
  match texts [] with
  | some text => literal text
  | none =>
    match t with
    | group form items => group form (substituteAll texts 0 items)
    | negation operand => negation (substitute (fun p => texts (0 :: p)) operand)
    | regex body => regex body
    | reference symbol => reference symbol
    | assignment symbol operand =>
        assignment symbol (substitute (fun p => texts (0 :: p)) operand)
    | macroCall name arguments => macroCall name (substituteAll texts 0 arguments)
    | literal text => literal text
    | concatenation items => concatenation (substituteAll texts 0 items)

def substituteAll (texts : Path → Option String) (index : Nat) : List Term → List Term
  | [] => []
  | t :: others =>
      substitute (fun p => texts (index :: p)) t :: substituteAll texts (index + 1) others

end

section
variable {texts : Path → Option String} {t u : Term}

theorem substitute_of_some {text : String} (h : texts [] = some text) :
    t.substitute texts = literal text := by
  rw [substitute.eq_def, h]

theorem getElem?_substituteAll (index : Nat) (items : List Term) (i : Nat) :
    (substituteAll texts index items)[i]? =
      items[i]?.map fun child => child.substitute fun p => texts ((index + i) :: p) := by
  induction items generalizing index i with
  | nil => simp [substituteAll]
  | cons t others ih =>
    rw [substituteAll]
    cases i with
    | zero => rfl
    | succ i =>
      rw [List.getElem?_cons_succ, List.getElem?_cons_succ, ih, Nat.add_assoc, Nat.add_comm 1 i]

theorem length_substituteAll (index : Nat) (items : List Term) :
    (substituteAll texts index items).length = items.length := by
  induction items generalizing index with
  | nil => rw [substituteAll]
  | cons t others ih => rw [substituteAll, List.length_cons, ih, List.length_cons]

theorem children_substitute (h : texts [] = none) :
    (t.substitute texts).children = substituteAll texts 0 t.children := by
  cases t <;> simp [substitute, h, children, substituteAll]

theorem sameHead_substitute (h : texts [] = none) : SameHead t (t.substitute texts) := by
  rw [substitute.eq_def, h]
  cases t with
  | group form items => exact .group form (length_substituteAll 0 items).symm
  | negation operand => exact .negation _ _
  | regex body => exact .regex body
  | reference symbol => exact .reference symbol
  | assignment symbol operand => exact .assignment symbol _ _
  | macroCall name arguments => exact .macroCall name (length_substituteAll 0 arguments).symm
  | literal text => exact .literal text
  | concatenation items => exact .concatenation (length_substituteAll 0 items).symm

end

theorem surfacesWith_eq_of_forall {items : List Term}
    (ih : ∀ t ∈ items, ∀ texts : Path → Option String,
      (t.substitute texts).surface = t.surfaceWith texts)
    (texts : Path → Option String) (index : Nat) :
    surfacesWith texts index items = (substituteAll texts index items).map surface := by
  induction items generalizing index with
  | nil => rw [surfacesWith, substituteAll, List.map_nil]
  | cons t others ihs =>
    rw [surfacesWith, substituteAll, List.map_cons, ih t List.mem_cons_self,
      ihs fun s hs => ih s (List.mem_cons_of_mem _ hs)]

/-- Writing with texts for some nodes is writing the term that has literals instead. -/
theorem surface_substitute (t : Term) (texts : Path → Option String) :
    (t.substitute texts).surface = t.surfaceWith texts := by
  induction t using induction_children generalizing texts with
  | node t ih =>
    have hitems := surfacesWith_eq_of_forall ih texts 0
    rw [substitute.eq_def, surfaceWith.eq_def]
    cases texts [] with
    | some text => exact surface_literal text
    | none =>
      cases t with
      | group form items =>
        rw [children] at hitems
        rw [surface_group, surfaces, ← hitems]
      | negation operand => rw [surface_negation, ih operand List.mem_cons_self]
      | regex body => exact surface_regex body
      | reference symbol => exact surface_reference symbol
      | assignment symbol operand => rw [surface_assignment, ih operand List.mem_cons_self]
      | macroCall name arguments =>
        cases arguments with
        | nil => exact surface_macroName name
        | cons first others =>
          rw [children, substituteAll, surfacesWith] at hitems
          dsimp only
          rw [substituteAll, surface_macroCall, surfaces, ← hitems]
      | literal text => exact surface_literal text
      | concatenation items =>
        rw [children] at hitems
        rw [surface_concatenation, ← hitems]

section
variable {texts : Path → Option String} {t u : Term}

theorem forall_prefix_cons_iff {p : Path → Prop} {index : Nat} {rest : Path} :
    (∀ above, above <+: index :: rest → p above) ↔
      p [] ∧ ∀ above, above <+: rest → p (index :: above) := by
  constructor
  · intro h
    exact ⟨h [] List.nil_prefix, fun above hprefix => h _ (List.cons_prefix_cons.mpr ⟨rfl, hprefix⟩)⟩
  · rintro ⟨hroot, hrest⟩ above hprefix
    rcases List.prefix_cons_iff.mp hprefix with rfl | ⟨lower, rfl, hlower⟩
    · exact hroot
    · exact hrest lower hlower

theorem substituted_iff_of_some {text : String} (h : texts [] = some text) :
    t.Substituted texts u ↔ u = literal text := by
  constructor
  · intro hsubstituted
    have hroot := hsubstituted.shown [] t text (at?_nil t) h fun above hprefix hne =>
      absurd (List.prefix_nil.mp hprefix) hne
    simpa using hroot
  · rintro rfl
    refine ⟨fun path node other _ hother habove => ?_, fun path habove => ?_⟩
    · cases path with
      | nil =>
        rw [h, Option.some.injEq] at hother
        rw [at?_nil, hother]
      | cons index rest =>
        have hnone := habove [] List.nil_prefix (List.cons_ne_nil index rest).symm
        rw [h] at hnone
        cases hnone
    · have hnone := habove [] List.nil_prefix
      rw [h] at hnone
      cases hnone

theorem Substituted.child (h : t.Substituted texts u) (hroot : texts [] = none) {index : Nat}
    {child child' : Term} (hchild : t.children[index]? = some child)
    (hchild' : u.children[index]? = some child') :
    child.Substituted (fun p => texts (index :: p)) child' := by
  have hat : ∀ rest, t.at? (index :: rest) = child.at? rest := by
    intro rest
    rw [at?_cons, hchild, Option.bind_some]
  have hat' : ∀ rest, u.at? (index :: rest) = child'.at? rest := by
    intro rest
    rw [at?_cons, hchild', Option.bind_some]
  refine ⟨fun path node text hnode htext habove => ?_, fun path habove => ?_⟩
  · rw [← hat']
    refine h.shown _ node text ((hat path).trans hnode) htext ?_
    refine forall_prefix_cons_iff.mpr ⟨fun _ => hroot, fun above hprefix hne => ?_⟩
    exact habove above hprefix fun heq => hne (congrArg (index :: ·) heq)
  · rw [← hat, ← hat']
    exact h.kept _ (forall_prefix_cons_iff.mpr ⟨hroot, habove⟩)

theorem SameHead.getElem?_children_eq_none_iff (h : SameHead t u) (index : Nat) :
    t.children[index]? = none ↔ u.children[index]? = none := by
  rw [List.getElem?_eq_none_iff, List.getElem?_eq_none_iff, h.length_children]

theorem SameHead.exists_getElem?_children (h : SameHead t u) {index : Nat} {child : Term}
    (hchild : t.children[index]? = some child) : ∃ child', u.children[index]? = some child' := by
  rw [← Option.ne_none_iff_exists', ne_eq, ← h.getElem?_children_eq_none_iff, hchild]
  exact Option.some_ne_none child

theorem substituted_of_children (hroot : texts [] = none) (hhead : SameHead t u)
    (h : ∀ (index : Nat) (child child' : Term), t.children[index]? = some child →
      u.children[index]? = some child' → child.Substituted (fun p => texts (index :: p)) child') :
    t.Substituted texts u := by
  refine ⟨fun path node text hnode htext habove => ?_, fun path habove => ?_⟩
  · cases path with
    | nil =>
      rw [hroot] at htext
      cases htext
    | cons index rest =>
      rw [at?_cons] at hnode ⊢
      obtain ⟨child, hchild, hat⟩ := Option.bind_eq_some_iff.mp hnode
      obtain ⟨child', hchild'⟩ := hhead.exists_getElem?_children hchild
      obtain ⟨-, hrest⟩ := forall_prefix_cons_iff.mp habove
      rw [hchild', Option.bind_some]
      refine (h index child child' hchild hchild').shown rest node text hat htext ?_
      exact fun above hprefix hne => hrest above hprefix fun heq => hne (List.cons.inj heq).2
  · cases path with
    | nil =>
      rw [at?_nil, at?_nil]
      exact .some hhead
    | cons index rest =>
      rw [at?_cons, at?_cons]
      cases hchild : t.children[index]? with
      | none =>
        rw [(hhead.getElem?_children_eq_none_iff index).mp hchild]
        exact .none
      | some child =>
        obtain ⟨child', hchild'⟩ := hhead.exists_getElem?_children hchild
        obtain ⟨-, hrest⟩ := forall_prefix_cons_iff.mp habove
        rw [hchild']
        exact (h index child child' hchild hchild').kept rest hrest

theorem substituted_iff (t : Term) (texts : Path → Option String) (u : Term) :
    t.Substituted texts u ↔ u = t.substitute texts := by
  induction t using induction_children generalizing texts u with
  | node t ih =>
    cases hroot : texts [] with
    | some text => rw [substituted_iff_of_some hroot, substitute_of_some hroot]
    | none =>
      have hhead := sameHead_substitute (t := t) hroot
      have hchildren : ∀ index, (t.substitute texts).children[index]? = t.children[index]?.map
          (substitute fun p => texts (index :: p)) := by
        intro index
        rw [children_substitute hroot, getElem?_substituteAll, Nat.zero_add]
      constructor
      -- below a root without a text, the terms at the same places are told apart one by one
      · intro h
        have hsame : SameHead t u := by
          have hkept := h.kept [] fun above hprefix => List.prefix_nil.mp hprefix ▸ hroot
          rw [at?_nil, at?_nil] at hkept
          cases hkept with
          | some hsame => exact hsame
        refine hsame.eq_of_children hhead (List.ext_getElem? fun index => ?_)
        rw [hchildren]
        cases hchild : t.children[index]? with
        | none => exact (hsame.getElem?_children_eq_none_iff index).mp hchild
        | some child =>
          obtain ⟨child', hchild'⟩ := hsame.exists_getElem?_children hchild
          have heq := (ih child (List.mem_of_getElem? hchild) _ child').mp
            (h.child hroot hchild hchild')
          rw [hchild', heq, Option.map_some]
      · rintro rfl
        refine substituted_of_children hroot hhead fun index child child' hchild hchild' => ?_
        rw [hchildren, hchild, Option.map_some, Option.some.injEq] at hchild'
        exact (ih child (List.mem_of_getElem? hchild) _ child').mpr hchild'.symm

end

/-- The path leads to a node, and no node above it has a text. -/
def IsExposed (t : Term) (texts : Path → Option String) (path : Path) : Prop :=
  (∃ node, t.at? path = some node) ∧ ∀ above, above <+: path → above ≠ path → texts above = none

section
variable {t : Term} {texts texts' : Path → Option String}

theorem isExposed_nil : t.IsExposed texts [] :=
  ⟨⟨t, at?_nil t⟩, fun _ hprefix hne => absurd (List.prefix_nil.mp hprefix) hne⟩

theorem IsExposed.of_child {index : Nat} {rest : Path} {child : Term}
    (h : child.IsExposed (fun p => texts (index :: p)) rest) (hroot : texts [] = none)
    (hchild : t.children[index]? = some child) : t.IsExposed texts (index :: rest) := by
  obtain ⟨⟨node, hnode⟩, habove⟩ := h
  refine ⟨⟨node, ?_⟩, forall_prefix_cons_iff.mpr ⟨fun _ => hroot, fun above hprefix hne => ?_⟩⟩
  · rw [at?_cons, hchild, Option.bind_some, hnode]
  · exact habove above hprefix fun heq => hne (congrArg (index :: ·) heq)

/-- Texts for other paths than the exposed ones have no part in the result. -/
theorem substitute_congr (h : ∀ path, t.IsExposed texts path → texts' path = texts path) :
    t.substitute texts' = t.substitute texts := by
  induction t using induction_children generalizing texts texts' with
  | node t ih =>
    have hroot' := h [] isExposed_nil
    cases hroot : texts [] with
    | some text => rw [substitute_of_some hroot, substitute_of_some (hroot'.trans hroot)]
    | none =>
      rw [hroot] at hroot'
      refine (sameHead_substitute hroot').eq_of_children (sameHead_substitute hroot)
        (List.ext_getElem? fun index => ?_)
      rw [children_substitute hroot', children_substitute hroot, getElem?_substituteAll,
        getElem?_substituteAll, Nat.zero_add]
      cases hchild : t.children[index]? with
      | none => rfl
      | some child =>
        rw [Option.map_some, Option.map_some, ih child (List.mem_of_getElem? hchild)]
        exact fun rest hrest => h _ (hrest.of_child hroot hchild)

theorem partialSurface_congr {compiled compiled' : List (Path × String)}
    (h : ∀ path, t.IsExposed (lookupPath compiled) path →
      lookupPath compiled' path = lookupPath compiled path) :
    t.partialSurface compiled' = t.partialSurface compiled := by
  unfold partialSurface
  rw [← surface_substitute, ← surface_substitute, substitute_congr h]

end

theorem lookupPath_concat (compiled : List (Path × String)) (path : Path) (text : String)
    (other : Path) : lookupPath (compiled ++ [(path, text)]) other =
      if path = other then some text else lookupPath compiled other := by
  unfold lookupPath
  rw [List.reverse_concat, List.find?_cons]
  by_cases h : path = other
  · rw [if_pos h, beq_iff_eq.mpr h, Option.map_some]
  · rw [if_neg h, beq_eq_false_iff_ne.mpr h]

theorem lookupPath_eq_some_iff {compiled : List (Path × String)} {path : Path} {text : String} :
    lookupPath compiled path = some text ↔
      ∃ before after, compiled = before ++ (path, text) :: after ∧ path ∉ after.map (·.1) := by
  rw [lookupPath, Option.map_eq_some_iff]
  constructor
  · rintro ⟨⟨other, text⟩, hfind, rfl⟩
    obtain ⟨hpath, after, before, hsplit, hafter⟩ := List.find?_eq_some_iff_append.mp hfind
    obtain rfl := eq_of_beq hpath
    refine ⟨before.reverse, after.reverse, ?_, ?_⟩
    · rw [← List.reverse_reverse compiled, hsplit]
      simp
    · rw [List.map_reverse, List.mem_reverse]
      rintro hmem
      obtain ⟨entry, hentry, heq⟩ := List.mem_map.mp hmem
      exact absurd (hafter entry hentry) (by simp [heq])
  · rintro ⟨before, after, rfl, hafter⟩
    refine ⟨(path, text), List.find?_eq_some_iff_append.mpr
      ⟨beq_self_eq_true path, after.reverse, before.reverse, by simp, ?_⟩, rfl⟩
    intro entry hentry
    have hne : entry.1 ≠ path := fun heq => hafter (heq ▸ List.mem_map_of_mem (List.mem_reverse.mp hentry))
    simpa using hne

/-- A partly compiled term is written like the one term that has literals for the exposed nodes with
a text; of several entries for a path the last one counts. Entries for paths that lead to no node, or to
one below another entry, can be added, and all of them changed or left out, with no effect; with no
entries the term is written as it is. -/
theorem partialSurface_eq_surface_substituted (t : Term) (compiled : List (Path × String)) :
    (∀ path text, lookupPath compiled path = some text ↔
      ∃ before after, compiled = before ++ (path, text) :: after ∧ path ∉ after.map (·.1)) ∧
    (∃ u, (∀ v, t.Substituted (lookupPath compiled) v ↔ v = u) ∧
      t.partialSurface compiled = u.surface) ∧
    (∀ path text, (t.at? path = none ∨ ∃ above other, above <+: path ∧ above ≠ path ∧
        lookupPath compiled above = some other) →
      t.partialSurface (compiled ++ [(path, text)]) = t.partialSurface compiled) ∧
    (∀ compiled', (∀ path, t.IsExposed (lookupPath compiled) path →
        lookupPath compiled' path = lookupPath compiled path) →
      t.partialSurface compiled' = t.partialSurface compiled) ∧
    t.partialSurface [] = t.surface := by
  refine ⟨fun path text => lookupPath_eq_some_iff,
    ⟨t.substitute (lookupPath compiled), t.substituted_iff _, ?_⟩, ?_, ?_, rfl⟩
  · exact (surface_substitute t _).symm
  · intro path text hidden
    refine partialSurface_congr fun other hother => ?_
    rw [lookupPath_concat, if_neg]
    rintro rfl
    obtain ⟨⟨node, hnode⟩, habove⟩ := hother
    rcases hidden with hnone | ⟨above, shown, hprefix, hne, hshown⟩
    · rw [hnode] at hnone
      cases hnone
    · rw [habove above hprefix hne] at hshown
      cases hshown
  · exact fun compiled' h => partialSurface_congr h

example :
    (group .flexible [negation (literal "a"), literal "b"]).partialSurface
      [([0, 0], "x"), ([0], "(?!a)"), ([1], "y"), ([1, 3], "z"), ([1], "w")] = "[(?!a), w]" := by
  decide

end PhrasePattern.Term
