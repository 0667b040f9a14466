import PhrasePattern.Proofs.Compilation.Definedness
import PhrasePattern.Proofs.Compilation.Meaning
import PhrasePattern.Proofs.Regex.Passage

/-! What a term compiles to is a regular expression. The texts of the rules are passed by a reader that
knows the groups bound before; a value that was checked behind these groups alone is passed too if it is
portable. Values that are not checked in this way do not get into the text. -/
namespace PhrasePattern

open Regex (Ahead Anything Firm Gentle Sign)
open Regex.Reader (IsGroupName Passes)

def Tame (chars : List Char) : Prop := ∀ c ∈ chars, c ∉ Regex.Reader.special ∨ c = '.'

theorem Tame.head {c : Char} {chars : List Char} (h : Tame (c :: chars)) : c ≠ '(' ∧ c ≠ '?' ∧ c ≠ '+' := by
  rcases h c List.mem_cons_self with hc | rfl
  · refine ⟨?_, ?_, ?_⟩ <;>
    · rintro rfl
      exact hc (by decide)
  · decide

section texts
variable [Regex.Engine]

/-- The text is passed wherever groups of such names are known and firm text follows. -/
structure Passable (names names' : List String) (text : List Char) : Prop where
  gentle : ∀ rest, Firm false rest → Gentle (text ++ rest)
  passes : Passes (Firm false) names names' text

inductive Passables : List String → List String → List String → Prop
  | nil (names : List String) : Passables names [] names
  | cons {names names' names'' fragments : List String} {fragment : String}
      (first : Passable names names' fragment.toList) (others : Passables names' fragments names'') :
      Passables names (fragment :: fragments) names''

variable {names names' : List String} {text : List Char} {fragments : List String}

theorem passable_nil : Passable names names [] :=
  ⟨fun _ hrest => hrest.gentle, Regex.Reader.passes_nil⟩

theorem passable_cons {c : Char} (hc : c ≠ '(' ∧ c ≠ '?' ∧ c ≠ '+')
    (h : Passes (Firm false) names names' (c :: text)) : Passable names names' (c :: text) :=
  ⟨fun rest _ => Regex.gentle_cons hc (text ++ rest), h⟩

theorem passable_open {c : Char} (hc : c ≠ '#')
    (h : Passes (Firm false) names names' ('(' :: '?' :: c :: text)) :
    Passable names names' ('(' :: '?' :: c :: text) :=
  ⟨fun rest _ => Regex.gentle_open hc (text ++ rest), h⟩

theorem Passable.behind {gap : List Char} (hgap : Passes Gentle names names gap)
    (h : Passable names names' text) : Passes (Firm false) names names' (gap ++ text) :=
  hgap.append h.passes h.gentle

theorem passes_firmly (h : Passes Anything names names' text) : Passes (Firm false) names names' text :=
  h.imp fun _ _ => trivial

theorem Passables.intercalate (h : Passables names fragments names') (separator : String)
    (hgap : ∀ names, Passes Gentle names names separator.toList)
    (hfirm : ∀ rest, Firm false (separator.toList ++ rest)) :
    Passable names names' (separator.intercalate fragments).toList := by
  induction h with
  | nil names => exact passable_nil
  | @cons names names' names'' fragments fragment first others ih =>
    cases others with
    | nil =>
      rw [String.intercalate_singleton]
      exact first
    | cons second others =>
      rw [String.intercalate_cons_cons, String.toList_append, String.toList_append, List.append_assoc]
      have hseam : ∀ more rest, Firm false ((separator.toList ++ more) ++ rest) := by
        intro more rest
        rw [List.append_assoc]
        exact hfirm (more ++ rest)
      refine ⟨fun rest _ => ?_, first.passes.append (ih.behind (hgap _)) fun rest _ => hseam _ rest⟩
      rw [List.append_assoc]
      exact first.gentle _ (hseam _ rest)

theorem Passables.flexible (h : Passables names fragments names') :
    Passable names names' (Rule.flexible fragments).toList := by
  have hinner := h.intercalate ".*?" (fun _ => Regex.Reader.passes_lazyAny)
    fun rest => Regex.firm_cons (c := '.') (by decide) ('*' :: '?' :: rest)
  have hbehind : Passes Gentle names names' ((".*?".intercalate fragments).toList ++ ".*?".toList) :=
    hinner.passes.append Regex.Reader.passes_lazyAny
      fun rest _ => Regex.firm_cons (c := '.') (by decide) ('*' :: '?' :: rest)
  rw [Rule.toList_flexible]
  refine passable_cons (by decide) ((Regex.Reader.passes_lazyAny.append hbehind fun rest _ => ?_).imp
    fun rest hrest => hrest.gentle)
  rw [List.append_assoc]
  exact hinner.gentle _ (Regex.firm_cons (c := '.') (by decide) ('*' :: '?' :: rest))

theorem Passables.rigid (h : Passables names fragments names') :
    Passable names names' (Rule.rigid fragments).toList :=
  h.intercalate "\\W+" (fun _ => Regex.Reader.passes_nonWords)
    fun rest => Regex.firm_cons (c := '\\') (by decide) ('W' :: '+' :: rest)

theorem Passables.concatenation (h : Passables names fragments names') :
    Passable names names' (" ".intercalate fragments).toList :=
  h.intercalate " " (fun _ => (Regex.Reader.passes_ordinary (by decide)).imp fun _ _ => trivial)
    fun rest => Regex.firm_cons (c := ' ') (by decide) rest

theorem Passables.conjunction (h : Passables names fragments names') :
    Passable names names' (Rule.conjunction fragments).toList := by
  induction h with
  | nil names => exact passable_cons (by decide) (Regex.Reader.passes_any.imp fun _ h => h.gentle)
  | @cons names names' names'' fragments fragment first others ih =>
    have hahead := Regex.Reader.opens_lookAhead.passes (first.behind Regex.Reader.passes_lazyAny)
    rw [List.append_nil] at hahead
    have hfirst : Passes Anything names names' (".*?".toList ++
        (['(', '?', '='] ++ ((".*?".toList ++ fragment.toList) ++ [')']))) :=
      Regex.Reader.passes_lazyAny.append hahead fun rest _ => Regex.gentle_open (by decide) _
    rw [Rule.toList_conjunction_cons]
    exact passable_cons (by decide) (hfirst.append ih.passes fun _ _ => trivial)

theorem Passables.passes_disjunction (h : Passables names fragments names') :
    Passes Anything names names' (Rule.disjunction fragments).toList := by
  have hinner := h.intercalate "|"
    (fun _ => Regex.Reader.passes_bar.imp fun _ _ => trivial)
    fun rest => Regex.firm_cons (c := '|') (by decide) rest
  have hgroup := Regex.Reader.opens_plain.passes hinner.passes
  rw [List.append_nil] at hgroup
  rw [Rule.toList_disjunction]
  exact hgroup

theorem Passables.disjunction (h : Passables names fragments names') :
    Passable names names' (Rule.disjunction fragments).toList := by
  have hpasses := passes_firmly h.passes_disjunction
  rw [Rule.toList_disjunction] at hpasses ⊢
  exact passable_open (by decide) hpasses

theorem Passables.bracket (h : Passables names fragments names') (form : Bracket) :
    Passable names names' (Rule.bracket form fragments).toList := by
  cases form with
  | flexible => exact h.flexible
  | rigid => exact h.rigid
  | conjunction => exact h.conjunction
  | disjunction => exact h.disjunction

theorem Passable.negation {fragment : String} (h : Passable names names' fragment.toList) :
    Passable names names' (Rule.negation fragment).toList := by
  have hline : Passes Anything names' names' (".*".toList ++ ['$']) :=
    Regex.Reader.passes_any.append Regex.Reader.passes_dollar
      fun rest _ => Regex.gentle_cons (by decide) rest
  have hoperand : Passes Anything names names' (fragment.toList ++ (".*".toList ++ ['$'])) :=
    h.passes.append hline fun rest _ => Regex.firm_cons (c := '.') (by decide) ('*' :: '$' :: rest)
  have hbody : Passes Anything names names' (".*".toList ++ (fragment.toList ++ (".*".toList ++ ['$']))) := by
    refine Regex.Reader.passes_any.append hoperand fun rest _ => ?_
    rw [List.append_assoc]
    exact h.gentle _ (Regex.firm_cons (c := '.') (by decide) ('*' :: '$' :: rest))
  have hrepeated := Regex.Reader.passes_unmatched (passes_firmly hbody)
  have hgroup := Regex.Reader.opens_plain.passes (hrepeated.imp fun _ hrest => hrest.gentle)
  rw [List.append_nil] at hgroup
  rw [Rule.toList_negation]
  exact passable_open (by decide) (passes_firmly hgroup)

theorem Passable.capture {group fragment : String} (h : Passable names names' fragment.toList)
    (hgroup : IsGroupName group) :
    Passable names (names' ++ [group]) (Rule.capture group fragment).toList := by
  have hcapture := (Regex.Reader.opens_capture hgroup).passes h.passes
  rw [toList_capture, Text.namedMark_eq]
  exact passable_open (by decide) (passes_firmly hcapture)

theorem Tame.passable {chars : List Char} (h : Tame chars) : Passable names names chars := by
  have hpasses : Passes Anything names names chars := by
    induction chars with
    | nil => exact Regex.Reader.passes_nil
    | cons c chars ih =>
      have hfirst : Passes Anything names names [c] := by
        rcases h c List.mem_cons_self with hc | rfl
        · exact Regex.Reader.passes_ordinary hc
        · exact Regex.Reader.passes_dot
      exact hfirst.append (ih fun d hd => h d (List.mem_cons_of_mem c hd)) fun _ _ => trivial
  cases chars with
  | nil => exact passable_nil
  | cons c chars => exact passable_cons h.head (passes_firmly hpasses)

end texts

section names

theorem isNameChar_of_isNameChar {c : Char} (h : GroupTable.isNameChar c = true) :
    Regex.Escape.isNameChar c = true := by
  rw [GroupTable.isNameChar, Bool.or_eq_true] at h
  rw [Regex.Escape.isNameChar, Bool.or_eq_true]
  refine h.imp_left fun halphanum => ?_
  have hascii : Text.isAscii c = true := by
    have hrange := toNat_of_isAlphanum halphanum
    simp only [Text.isAscii, decide_eq_true_eq]
    omega
  rw [Text.isAlphanumeric, if_pos hascii]
  exact halphanum

theorem toList_newName_ne_nil (table : GroupTable) (symbol : String) :
    (table.newName symbol).toList ≠ [] := by
  have hgenerated : ∀ n, (GroupTable.generatedName n).toList ≠ [] := by
    simp [GroupTable.generatedName]
  have hfresh : ∀ n tries, (table.freshName n tries).toList ≠ [] := by
    intro n tries
    induction tries generalizing n with
    | zero => exact hgenerated n
    | succ tries ih =>
      rw [GroupTable.freshName]
      split
      · exact ih (n + 1)
      · exact hgenerated n
  unfold GroupTable.newName
  split
  · rename_i h
    rintro hnil
    rw [Bool.and_eq_true, GroupTable.isIdentifier, hnil] at h
    cases h.1
  · exact hfresh _ _

theorem isGroupName_newName (table : GroupTable) (symbol : String) : IsGroupName (table.newName symbol) :=
  ⟨toList_newName_ne_nil table symbol, fun c hc =>
    isNameChar_of_isNameChar (GroupTable.isNameChar_newName table symbol c hc)⟩

def Nameable (groups : GroupTable) : Prop := ∀ name ∈ groups.names, IsGroupName name

theorem nameable_empty : Nameable .empty := by simp [Nameable, GroupTable.names, GroupTable.empty]

theorem Nameable.bind {groups : GroupTable} (h : Nameable groups) (symbol : String) :
    Nameable (groups.bind symbol).2 := by
  cases hgroup : groups.group? symbol with
  | some group =>
    rw [GroupTable.bind_of_group? hgroup]
    exact h
  | none =>
    intro name hname
    rw [GroupTable.names_bind_of_group?_none hgroup, List.mem_append, List.mem_singleton] at hname
    rcases hname with hname | rfl
    · exact h name hname
    · exact isGroupName_newName groups symbol

theorem Nameable.bindAll {groups : GroupTable} (h : Nameable groups) (symbols : List String) :
    Nameable (groups.bindAll symbols) := by
  induction symbols generalizing groups with
  | nil => exact h
  | cons symbol symbols ih => exact ih (h.bind symbol)

end names

section values

theorem toList_join_emptyGroups (groups : GroupTable) :
    (String.join (groups.entries.map fun entry => "(?P<" ++ entry.1 ++ ">)")).toList =
      Regex.Reader.emptyGroups groups.names := by
  simp [Regex.Reader.emptyGroups, GroupTable.names, String.toList_join, List.flatMap_map]

theorem tame_of_isSymbolChar {chars : List Char} (h : chars.all isSymbolChar = true) : Tame chars := by
  intro c hc
  have hsymbol := List.all_eq_true.mp h c hc
  simp only [isSymbolChar, Bool.or_eq_true, beq_iff_eq] at hsymbol
  rcases hsymbol with (hc | rfl) | rfl
  · exact .inl (not_mem_special_of_isAlphanum hc)
  · exact .inl (by decide)
  · exact .inr rfl

theorem all_isSymbolChar_sentinel {name suffix : String} (hname : IsRun isSymbolChar name)
    (hsuffix : suffix.toList.all isSymbolChar = true) :
    ("_" ++ name ++ suffix).toList.all isSymbolChar = true := by
  rw [String.toList_append, String.toList_append, List.all_append, List.all_append, hsuffix,
    List.all_eq_true.mpr hname.2]
  decide

theorem tame_sentinel {name suffix : String} (hname : IsRun isSymbolChar name)
    (hsuffix : suffix.toList.all isSymbolChar = true) : Tame ("_" ++ name ++ suffix).toList :=
  tame_of_isSymbolChar (all_isSymbolChar_sentinel hname hsuffix)

theorem tame_literal {text : String} (h : (Term.literal text).IsSpelled) : Tame text.toList :=
  fun c hc => .inl <| (h c hc).elim not_mem_special_of_isAlphanum not_mem_special_of_isSpace

variable [Regex.Engine]

/-- What the value is read as does not depend on the place where it is pasted: it neither begins with a
quantifier nor counts groups nor makes blanks be skipped. -/
def Value.IsPortable (value : Value) : Prop := Ahead Sign.IsPortable false true value.fragment.toList

end values

section terms
variable {env : Environment}

namespace Term

theorem assignedSymbols_eq (t : Term) :
    t.assignedSymbols = t.children.flatMap assignedSymbols ++ t.assigned?.toList := by
  rw [assignedSymbols, postOrder_eq, assigned_append,
    assigned_postOrders_eq fun child _ path => assigned_postOrder child path]
  cases h : t.assigned? <;> simp [h]

end Term

def boundNames (symbols : List String) : List String := (GroupTable.empty.bindAll symbols).names

theorem boundNames_concat {symbols : List String} {symbol : String} (h : symbol ∉ symbols) :
    boundNames (symbols ++ [symbol]) =
      boundNames symbols ++ [(GroupTable.empty.bindAll symbols).newName symbol] := by
  rw [boundNames, GroupTable.bindAll_append, GroupTable.bindAll_cons, GroupTable.bindAll_nil]
  exact GroupTable.names_bind_of_group?_none (GroupTable.group?_bindAll_empty_eq_none_iff.mpr h)

variable [Regex.Engine]

def Accepted (env : Environment) (symbols : List String) (t : Term) : Prop :=
  ∀ path bound, bound ++ t.assignedSymbols <+: symbols →
    Passable (boundNames bound) (boundNames (bound ++ t.assignedSymbols))
      (ruling env path (GroupTable.empty.bindAll bound) t).value.fragment.toList

theorem Accepted.negation {symbols : List String} {operand : Term} (h : Accepted env symbols operand) :
    Accepted env symbols (.negation operand) := by
  intro path bound hbound
  have heq : (Term.negation operand).assignedSymbols = operand.assignedSymbols := by
    rw [Term.assignedSymbols_eq]
    simp [Term.children, Term.assigned?]
  rw [heq] at hbound ⊢
  rw [ruling_negation]
  exact (h (path ++ [0]) bound hbound).negation

theorem Accepted.assignment {symbols : List String} (hnodup : symbols.Nodup) {symbol : String}
    {operand : Term} (h : Accepted env symbols operand) :
    Accepted env symbols (.assignment symbol operand) := by
  intro path bound hbound
  have heq : (Term.assignment symbol operand).assignedSymbols = operand.assignedSymbols ++ [symbol] := by
    rw [Term.assignedSymbols_eq]
    simp [Term.children, Term.assigned?]
  rw [heq, ← List.append_assoc] at hbound ⊢
  have hoperand := h (path ++ [0]) bound ((List.prefix_append _ _).trans hbound)
  -- the symbol is assigned only here, so that it is not bound yet
  have hfresh : symbol ∉ bound ++ operand.assignedSymbols := by
    have hdisjoint := List.disjoint_of_nodup_append (hnodup.sublist hbound.sublist)
    exact fun hmem => hdisjoint hmem List.mem_cons_self
  have hgroups : (ruling env (path ++ [0]) (GroupTable.empty.bindAll bound) operand).groups =
      GroupTable.empty.bindAll (bound ++ operand.assignedSymbols) := by
    rw [← groups_ruling, groups_reduce_eq, GroupTable.bindAll_append]
  have hgroup : (GroupTable.empty.bindAll (bound ++ operand.assignedSymbols)).group? symbol = none :=
    GroupTable.group?_bindAll_empty_eq_none_iff.mpr hfresh
  rw [ruling_assignment, hgroups, Rule.assignment, hgroup, boundNames_concat hfresh,
    GroupTable.bind_of_group?_none hgroup]
  exact hoperand.capture (isGroupName_newName _ symbol)

end terms

/-- A text that is passed where nothing is known is a regular expression, as long as its groups are not too
deep and its program not too large. -/
theorem isWellFormed_of_passes [Regex.Engine] {source : String} {names : List String}
    (h : Passes Anything [] names source.toList) :
    ∃ n, Regex.nesting? source = some n ∧ (Regex.isWellFormed source = true ↔
      n ≤ Regex.Reader.depthLimit ∧ Regex.Engine.fits source = true) := by
  obtain ⟨r, hrun, hready, hclosed⟩ := h [] {} [] Regex.Reader.ready_nil trivial
  rw [List.append_nil] at hrun
  have hread : ({} : Regex.Reader).run 0 source.toList = some r := hrun
  refine ⟨r.deepest, by rw [Regex.nesting?, hread]; rfl, ?_⟩
  have hfinish : r.finish? = if r.deepest ≤ Regex.Reader.depthLimit then some r.parts.node else none := by
    rw [Regex.Reader.finish?, Regex.Reader.node?_of_numbered hready.numbered, hclosed]
    simp
  rw [Regex.isWellFormed, Regex.build?, Regex.read?, hread]
  dsimp only
  rw [hfinish]
  by_cases hdeep : r.deepest ≤ Regex.Reader.depthLimit <;>
    by_cases hfits : Regex.Engine.fits source = true <;> simp [hdeep, hfits]

/-- The anchors make a regular expression of a text that is passed where nothing is known. -/
theorem isWellFormed_anchored [Regex.Engine] {c : CompiledPattern} {names : List String}
    (h : Passable [] names c.source.toList) :
    ∃ n, Regex.nesting? c.anchored = some n ∧ (Regex.isWellFormed c.anchored = true ↔
      n ≤ Regex.Reader.depthLimit ∧ Regex.Engine.fits c.anchored = true) := by
  have hgroup := Regex.Reader.opens_plain.passes h.passes
  rw [List.append_nil] at hgroup
  have hpasses : Passes Anything [] names c.anchored.toList := by
    rw [toList_anchored]
    exact Regex.Reader.passes_caret.append
      (hgroup.append Regex.Reader.passes_dollar fun _ _ => trivial) fun _ _ => trivial
  exact isWellFormed_of_passes hpasses

section
open scoped Regex.Engine

/-- A quantifier alone is accepted behind a group, but not where it is pasted. -/
example : isWellFormed (GroupTable.empty.bindAll ["x"]) (.text "*") = true ∧
    Regex.isWellFormed (⟨"(?P<x>a) (?:b|*)", .empty, none⟩ : CompiledPattern).anchored = false := by decide

end

end PhrasePattern
