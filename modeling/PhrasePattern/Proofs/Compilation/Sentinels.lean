import Mathlib.Data.List.Basic
import PhrasePattern.Proofs.Compilation.Acceptance
import PhrasePattern.Proofs.Compilation.Consultation

/-! A macro that fails might as well return its sentinel. A registry is completed by letting every
macro return the sentinel where it fails, and by putting a macro that returns its sentinel under every
name that is called and not known. Nothing that is compiled depends on the difference, and nothing a
macro does keeps an expression from being compiled. -/
namespace PhrasePattern

/-- The macro, with its sentinel in place of a failure. -/
def Macro.contained (name : String) (run : Macro) : Macro := fun ngrams vars arguments =>
  match run ngrams vars arguments with
  | .returned value => .returned value
  | .failed _ | .crashed _ => .returned (.text (failedMacro name))

/-- A macro to put under a name that is not known. -/
def Macro.standIn (name : String) : Macro := fun _ _ _ => .returned (.text (unknownMacro name))

namespace Registry

def contained (registry : Registry) : Registry where
  entries := registry.entries.map fun entry => (entry.1, Macro.contained entry.1 entry.2)
  ascending := by
    unfold Ascending
    rw [List.pairwise_map]
    exact registry.ascending

/-- No failures, and none of the names unknown. -/
def completed (registry : Registry) (names : List String) : Registry :=
  registry.contained.insertAll
    ((names.filter fun name => !registry.contains name).map fun name => (name, Macro.standIn name))

theorem get?_contained (registry : Registry) (name : String) :
    registry.contained.get? name = (registry.get? name).map (Macro.contained name) := by
  unfold contained Dict.get?
  dsimp only
  induction registry.entries with
  | nil => rfl
  | cons entry others ih =>
    rw [List.map_cons, List.lookup_cons, List.lookup_cons, ih]
    by_cases hname : name = entry.1
    · rw [← hname, beq_self_eq_true]
      rfl
    · rw [beq_eq_false_iff_ne.mpr hname]

theorem get?_completed_of_some {registry : Registry} {name : String} {run : Macro}
    (h : registry.get? name = some run) (names : List String) :
    (registry.completed names).get? name = some (Macro.contained name run) := by
  have hnone : (((names.filter fun name => !registry.contains name).map
      fun name => (name, Macro.standIn name)).reverse).lookup name = none := by
    rw [List.lookup_eq_none_iff]
    rintro ⟨other, stand⟩ hmem
    obtain ⟨known, hknown, heq⟩ := List.mem_map.mp (List.mem_reverse.mp hmem)
    obtain ⟨rfl, -⟩ := Prod.mk.inj heq
    have hmissing := (List.mem_filter.mp hknown).2
    rw [bne_iff_ne]
    rintro rfl
    simp [Dict.contains, h] at hmissing
  rw [completed, Dict.get?_insertAll, hnone, get?_contained, h]
  rfl

theorem get?_completed_of_none {registry : Registry} {name : String}
    (h : registry.get? name = none) {names : List String} (hname : name ∈ names) :
    (registry.completed names).get? name = some (Macro.standIn name) := by
  have hmissing : name ∈ (names.filter fun name => !registry.contains name).reverse := by
    rw [List.mem_reverse, List.mem_filter]
    exact ⟨hname, by simp [Dict.contains, h]⟩
  rw [completed, Dict.get?_insertAll, ← List.map_reverse, List.lookup_graph _ hmissing]
  rfl

/-- A call has the same value, whether it fails or returns the sentinel. -/
theorem invoke_completed (registry : Registry) {name : String} {names : List String}
    (hname : name ∈ names) (ngrams : Ngrams) (vars : Vars) (arguments : List Value) :
    ((registry.completed names).invoke name ngrams vars arguments).1 =
      (registry.invoke name ngrams vars arguments).1 := by
  unfold invoke
  cases hrun : registry.get? name with
  | none =>
    rw [get?_completed_of_none hrun hname]
    rfl
  | some run =>
    rw [get?_completed_of_some hrun]
    dsimp only
    rw [Macro.contained]
    cases run ngrams vars arguments with
    | returned value => rfl
    | failed error => rfl
    | crashed message? => rfl

end Registry

namespace Term

def called? : Term → Option String
  | macroCall name _ => some name
  | _ => none

def calledNames (t : Term) : List String := (t.postOrder []).filterMap (·.2.called?)

end Term

/-- With the registry completed, every node gets the same answers. -/
theorem Environment.agreeThrough_completed (env : Environment) (t : Term) :
    env.AgreeThrough { env with macros := env.macros.completed t.calledNames } .empty
      (t.postOrder []) := by
  refine Environment.agreeThrough_of_forall fun before node after heq => ?_
  obtain ⟨path, node⟩ := node
  cases node with
  | reference symbol => exact fun _ => rfl
  | macroCall name arguments =>
    have hmem : (path, Term.macroCall name arguments) ∈ t.postOrder [] := by
      rw [heq]
      exact List.mem_append_right before List.mem_cons_self
    have hname : name ∈ t.calledNames := List.mem_filterMap.mpr ⟨_, hmem, rfl⟩
    exact fun values => (env.macros.invoke_completed hname env.ngrams env.vars values).symm
  | _ => trivial

section sentinels

/-- The engine has room for any word behind the empty groups of bound symbols. -/
def AdmitsWords [Regex.Engine] : Prop :=
  ∀ (symbols : List String) (word : String), word.toList.all isSymbolChar = true →
    Regex.Engine.fits (String.join ((GroupTable.empty.bindAll symbols).names.map fun name =>
      "(?P<" ++ name ++ ">)") ++ word) = true

variable [Regex.Engine]

theorem exists_run_of_tame {chars : List Char} (h : Tame chars) {r : Regex.Reader}
    (hr : r.IsDefault) :
    ∃ r' : Regex.Reader, r'.IsDefault ∧ r'.enclosing = r.enclosing ∧ r'.deepest = r.deepest ∧
      r.run 0 chars = some r' := by
  induction chars generalizing r with
  | nil => exact ⟨r, hr, rfl, rfl, rfl⟩
  | cons c chars ih =>
    have hstep : ∃ node, r.step c chars = some (r.add node, 0) := by
      rcases h c List.mem_cons_self with hc | rfl
      · exact ⟨_, Regex.Reader.step_ordinary hr hc chars⟩
      · exact ⟨_, Regex.Reader.step_dot hr chars⟩
    obtain ⟨node, hnode⟩ := hstep
    have hdefault : (r.add node).IsDefault := (Regex.Reader.becomes_add hr node).isDefault
    obtain ⟨r', hr', henclosing, hdeepest, hrun⟩ :=
      ih (fun d hd => h d (List.mem_cons_of_mem c hd)) hdefault
    exact ⟨r', hr', henclosing, hdeepest, (Regex.Reader.run_of_step hnode).trans hrun⟩

theorem isWellFormed_of_admitsWords (hadmits : AdmitsWords) {symbols : List String} {word : String}
    (hword : word.toList.all isSymbolChar = true) :
    isWellFormed (GroupTable.empty.bindAll symbols) (.text word) = true := by
  have hnames : Nameable (GroupTable.empty.bindAll symbols) := nameable_empty.bindAll symbols
  have hfits : Regex.Engine.fits (String.join ((GroupTable.empty.bindAll symbols).entries.map fun entry =>
      "(?P<" ++ entry.1 ++ ">)") ++ word) = true := by
    have hroom := hadmits symbols word hword
    rwa [GroupTable.names, List.map_map] at hroom
  obtain ⟨r, honly, hdefault, hdeepest, hbehind⟩ := Regex.Reader.exists_run_emptyGroups hnames
    Regex.Reader.only_nil ⟨rfl, rfl⟩ word.toList
  obtain ⟨r', hdefault', henclosing, hsame, hrun⟩ := exists_run_of_tame (tame_of_isSymbolChar hword) hdefault
  have hfinish : r'.finish? = some r'.parts.node := by
    rw [Regex.Reader.finish?, henclosing, honly.closed, Regex.Reader.node?_of_isDefault hdefault']
    exact if_pos ⟨rfl, hsame ▸ hdeepest.trans (by decide)⟩
  unfold isWellFormed
  dsimp only
  rw [Value.fragment, Regex.isWellFormed, Regex.build?, if_pos hfits, Regex.read?, String.toList_append,
    toList_join_emptyGroups, hbehind, hrun]
  dsimp only
  rw [hfinish]
  rfl

variable {env : Environment} {groups : GroupTable} {name : String}

theorem value_macroCall_of_unknown (hadmits : AdmitsWords) {symbols : List String}
    (hname : IsRun isSymbolChar name) (h : env.macros.get? name = none) (operands : List Value) :
    (Rule.macroCall env (GroupTable.empty.bindAll symbols) name operands).value =
      .text (unknownMacro name) := by
  have hword : (unknownMacro name).toList.all isSymbolChar = true := all_isSymbolChar_sentinel hname (by decide)
  simp [Rule.macroCall, Registry.invoke, h, isWellFormed_of_admitsWords hadmits hword]

theorem value_macroCall_of_failing {run : Macro} {operands : List Value}
    (h : env.macros.get? name = some run)
    (hfails : ∀ value, run env.ngrams env.vars operands ≠ .returned value) :
    (Rule.macroCall env groups name operands).value = .text (failedMacro name) := by
  unfold Rule.macroCall Registry.invoke
  rw [h]
  dsimp only
  cases hresult : run env.ngrams env.vars operands with
  | returned value => exact absurd hresult (hfails value)
  | failed error =>
    dsimp only
    split <;> rfl
  | crashed message? =>
    dsimp only
    split <;> rfl

end sentinels

namespace Compilation

theorem hasFragment_of_no_value [Regex.Engine] {expression : String} {t : Term}
    (hparse : parse expression = .ok t) (env : Environment) {path : Path} {name : String}
    {arguments : List Term} (h : t.at? path = some (.macroCall name arguments)) :
    (env.macros.get? name = none → AdmitsWords →
      (ofTerm env t).HasFragment path (.macroCall name arguments) (unknownMacro name)) ∧
    ∀ run, env.macros.get? name = some run →
      (∀ operands value, run env.ngrams env.vars operands ≠ .returned value) →
        (ofTerm env t).HasFragment path (.macroCall name arguments) (failedMacro name) := by
  have hname : IsRun isSymbolChar name := Term.everywhere_isSpelled_of_parse hparse path _ h
  obtain ⟨before, after, hsplit⟩ := List.append_of_mem ((Term.mem_postOrder_iff t path _).mpr h)
  obtain ⟨first, -, hfragment⟩ := exists_hasFragment env hsplit
  rw [Rule.apply] at hfragment
  refine ⟨fun hunknown hadmits => ?_, fun run hrun hfails => ?_⟩
  · rw [value_macroCall_of_unknown hadmits hname hunknown] at hfragment
    exact hfragment
  · rw [value_macroCall_of_failing hrun (hfails _)] at hfragment
    exact hfragment

end Compilation

/-- An expression that is parsed compiles whatever the macros do, and to the same pattern, with the
same groups and the same trace, as with a registry in which failures and unknown names are replaced by
macros that return the sentinel. The sentinel is what stands in the place of such a call; for a name that
is unknown it is checked first, so the engine must have room for it. Compiling fails only if parsing fails,
with the same error. -/
theorem compile_completed [Regex.Engine] (p : Pattern) (ngrams : Ngrams) (vars : Vars)
    (extra : Option Registry) (debug : Bool) :
    (∀ t, parse p.expression = .ok t →
      (∃ c, (p.compile ngrams vars extra debug).1 = .ok c ∧
        (Pattern.compile ⟨p.expression, (p.registry extra).completed t.calledNames⟩ ngrams vars none
          debug).1 = .ok c) ∧
      ∀ path name arguments, t.at? path = some (.macroCall name arguments) →
        ((p.registry extra).get? name = none → AdmitsWords →
          (Compilation.ofTerm ⟨vars, p.registry extra, ngrams⟩ t).HasFragment path
            (.macroCall name arguments) (unknownMacro name)) ∧
        ∀ run, (p.registry extra).get? name = some run →
          (∀ operands value, run ngrams vars operands ≠ .returned value) →
            (Compilation.ofTerm ⟨vars, p.registry extra, ngrams⟩ t).HasFragment path
              (.macroCall name arguments) (failedMacro name)) ∧
    ∀ e, (p.compile ngrams vars extra debug).1 = .error e ↔
      ∃ fault, parse p.expression = .error fault ∧ e = .expression fault := by
  refine ⟨fun t hparse => ⟨?_, fun path name arguments h => ?_⟩,
    fun e => Pattern.compile_eq_error_iff⟩
  · have hagree := Environment.agreeThrough_completed ⟨vars, p.registry extra, ngrams⟩ t
    refine ⟨_, Pattern.compile_of_parse hparse, ?_⟩
    rw [hagree.pattern_eq debug]
    exact Pattern.compile_of_parse (p := ⟨p.expression, _⟩) hparse
  · exact Compilation.hasFragment_of_no_value hparse ⟨vars, p.registry extra, ngrams⟩ h

end PhrasePattern
