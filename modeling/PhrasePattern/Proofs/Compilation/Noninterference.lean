import PhrasePattern.CommandLine
import PhrasePattern.Proofs.Compilation.Consultation

/-! Which parts of its surroundings the compiled text of a node can depend on: the values of the symbols
that are referred to below the node where nothing has bound them, and the results of the macros that
are called below it. This holds of every node, also when the surroundings make a difference elsewhere
in the term, because the groups that are bound before a node depend on the term alone. -/
namespace PhrasePattern

theorem exists_visit_child [Regex.Engine] {items : List Term} {i : Nat} {child : Term}
    (h : items[i]? = some child)
    (path : Path) (index : Nat) (groups : GroupTable) :
    ∃ before after, Term.postOrders path index items =
        before ++ child.postOrder (path ++ [index + i]) ++ after ∧
      ∀ env, (reduce env (path ++ [index + i]) (groups.bindAll (Term.assigned before))
        child).reductions ⊆ (reduceAll env path index groups items).reductions := by
  induction items generalizing i index groups with
  | nil => cases h
  | cons t others ih =>
    cases i with
    | zero =>
      obtain rfl := Option.some.inj h
      refine ⟨[], _, Term.postOrders_cons path index t others, fun env => ?_⟩
      rw [reduceAll_cons]
      exact List.subset_append_left _ _
    | succ i =>
      have hindex : index + (i + 1) = index + 1 + i := by omega
      obtain ⟨before, after, hsplit, hvisit⟩ := ih h (index + 1)
        (groups.bindAll (Term.assigned (t.postOrder (path ++ [index]))))
      rw [hindex]
      refine ⟨t.postOrder (path ++ [index]) ++ before, after, ?_, fun env => ?_⟩
      · rw [Term.postOrders_cons, hsplit, List.append_assoc, List.append_assoc, List.append_assoc]
      · have hreductions := hvisit env
        rw [Term.assigned_append, GroupTable.bindAll_append, reduceAll_cons]
        rw [← groups_reduce env] at hreductions
        rw [← groups_reduce env]
        exact List.Subset.trans hreductions (List.subset_append_right _ _)

theorem exists_visit_at [Regex.Engine] {t node : Term} {q : Path} (h : t.at? q = some node) (path : Path)
    (groups : GroupTable) :
    ∃ before after, t.postOrder path = before ++ node.postOrder (path ++ q) ++ after ∧
      ∀ env, (reduce env (path ++ q) (groups.bindAll (Term.assigned before)) node).reductions ⊆
        (reduce env path groups t).reductions := by
  induction q generalizing t path groups with
  | nil =>
    obtain rfl := Option.some.inj ((Term.at?_nil t).symm.trans h)
    exact ⟨[], [], by simp, fun env => by simp⟩
  | cons i q ih =>
    rw [Term.at?_cons] at h
    obtain ⟨child, hchild, hnode⟩ := Option.bind_eq_some_iff.mp h
    obtain ⟨before, after, hsplit, hvisit⟩ := exists_visit_child hchild path 0 groups
    obtain ⟨before', after', hsplit', hvisit'⟩ := ih hnode (path ++ [0 + i])
      (groups.bindAll (Term.assigned before))
    have hpath : path ++ [0 + i] ++ q = path ++ i :: q := by simp
    rw [hpath] at hsplit' hvisit'
    refine ⟨before ++ before', after' ++ after ++ [(path, t)], ?_, fun env => ?_⟩
    · rw [Term.postOrder_eq, hsplit, hsplit']
      simp only [List.append_assoc]
    · rw [Term.assigned_append, GroupTable.bindAll_append, reduce_eq_conclude env path,
        reductions_conclude]
      exact List.Subset.trans (hvisit' env)
        (List.Subset.trans (hvisit env) (List.subset_append_left _ _))

/-- What an expression is compiled with: the macros of its pattern, those of the caller, the variables
and the phrases of the utterance. -/
structure Setting where
  macros : Registry
  extra : Option Registry
  vars : Vars
  ngrams : Ngrams

namespace Setting

def pattern (s : Setting) (expression : String) : Pattern := ⟨expression, s.macros⟩

def environment (s : Setting) : Environment := ⟨s.vars, (s.pattern "").registry s.extra, s.ngrams⟩

def compile [Regex.Engine] (s : Setting) (expression : String) (debug : Bool) :
    Except PatternError CompiledPattern :=
  ((s.pattern expression).compile s.ngrams s.vars s.extra debug).1

def resolve? (s : Setting) (name : String) : Option Macro :=
  (s.extra.bind (·.get? name)).or (s.macros.get? name)

/-- In both settings the name is unknown, or the macros it stands for give the same results there. -/
def SameMacro (a b : Setting) (name : String) : Prop :=
  (a.resolve? name = none ∧ b.resolve? name = none) ∨
    ∃ run run', a.resolve? name = some run ∧ b.resolve? name = some run' ∧
      ∀ arguments, run a.ngrams a.vars arguments = run' b.ngrams b.vars arguments

/-- The settings have the same value for every symbol that a reference at or below the path takes from
the variables, and the same macro under every name that is called there. -/
structure AgreeBelow (a b : Setting) (t : Term) (path : Path) : Prop where
  vars : ∀ before q symbol after, t.postOrder [] = before ++ (q, .reference symbol) :: after →
    path <+: q → symbol ∉ Term.assigned before → a.vars.get? symbol = b.vars.get? symbol
  macros : ∀ q name arguments, t.at? q = some (.macroCall name arguments) → path <+: q →
    a.SameMacro b name

variable {a b : Setting} {t node : Term} {path : Path}

theorem get?_environment (s : Setting) (name : String) :
    s.environment.macros.get? name = s.resolve? name := by
  unfold environment Pattern.registry resolve?
  cases s.extra with
  | none => rfl
  | some callers => exact Dict.get?_overlay s.macros callers name

theorem SameMacro.called {name : String} (h : a.SameMacro b name) (arguments : List Value) :
    a.environment.called name arguments = b.environment.called name arguments := by
  unfold Environment.called Registry.invoke
  rw [get?_environment, get?_environment]
  rcases h with ⟨hnone, hnone'⟩ | ⟨run, run', hrun, hrun', hsame⟩
  · rw [hnone, hnone']
  · have hresult : run a.environment.ngrams a.environment.vars arguments =
        run' b.environment.ngrams b.environment.vars arguments := hsame arguments
    rw [hrun, hrun']
    dsimp only
    rw [hresult]

theorem AgreeBelow.agreeThrough (h : a.AgreeBelow b t path) {before after : List (Path × Term)}
    (hsplit : t.postOrder [] = before ++ node.postOrder path ++ after) :
    a.environment.AgreeThrough b.environment (GroupTable.empty.bindAll (Term.assigned before))
      (node.postOrder path) := by
  refine Environment.agreeThrough_of_forall fun first below last heq => ?_
  obtain ⟨q, below⟩ := below
  have hmem : (q, below) ∈ node.postOrder path := by
    rw [heq]
    exact List.mem_append_right first List.mem_cons_self
  obtain ⟨rest, hq⟩ := Term.prefix_of_mem_postOrder hmem
  have hbelow : path <+: q := ⟨rest, hq.symm⟩
  have hwhole : t.postOrder [] = (before ++ first) ++ (q, below) :: (last ++ after) := by
    rw [hsplit, heq]
    simp only [List.append_assoc, List.cons_append]
  cases below with
  | reference symbol =>
    intro hfree
    rw [← GroupTable.bindAll_append, ← Term.assigned_append,
      GroupTable.group?_bindAll_empty_eq_none_iff] at hfree
    exact h.vars _ q symbol _ hwhole hbelow hfree
  | macroCall name arguments =>
    have hat : t.at? q = some (.macroCall name arguments) := by
      rw [← Term.mem_postOrder_iff, hwhole]
      exact List.mem_append_right _ List.mem_cons_self
    exact (h.macros q name arguments hat hbelow).called
  | _ => trivial

theorem AgreeBelow.exists_hasFragment [Regex.Engine] (h : a.AgreeBelow b t path)
    (hat : t.at? path = some node) :
    ∃ fragment, (Compilation.ofTerm a.environment t).HasFragment path node fragment ∧
      (Compilation.ofTerm b.environment t).HasFragment path node fragment := by
  obtain ⟨before, after, hsplit, hvisit⟩ := exists_visit_at hat [] .empty
  rw [List.nil_append] at hsplit
  have hvalue := (h.agreeThrough hsplit).reduce_eq.1
  refine ⟨_, Compilation.hasFragment_of_subset (hvisit a.environment), ?_⟩
  have hfragment := Compilation.hasFragment_of_subset (hvisit b.environment)
  rw [List.nil_append, ← hvalue] at hfragment
  exact hfragment

theorem compile_of_parse [Regex.Engine] (s : Setting) {expression : String}
    (hparse : parse expression = .ok t)
    (debug : Bool) :
    s.compile expression debug = .ok ((Compilation.ofTerm s.environment t).pattern t debug) :=
  Pattern.compile_of_parse (p := s.pattern expression) hparse

/-- Settings that agree on the whole term give the same pattern. -/
theorem AgreeBelow.compile_eq [Regex.Engine] (h : a.AgreeBelow b t []) {expression : String}
    (hparse : parse expression = .ok t) (debug : Bool) :
    a.compile expression debug = b.compile expression debug := by
  have hagree : a.environment.AgreeThrough b.environment .empty (t.postOrder []) :=
    h.agreeThrough (show t.postOrder [] = [] ++ t.postOrder [] ++ [] by simp)
  rw [compile_of_parse a hparse, compile_of_parse b hparse, hagree.pattern_eq debug]

theorem agreeBelow_of_unknown (s : Setting)
    (h : ∀ q name arguments, t.at? q = some (.macroCall name arguments) → s.resolve? name = none)
    (ngrams : Ngrams) (path : Path) : AgreeBelow { s with ngrams := ngrams } s t path where
  vars := fun _ _ _ _ _ _ _ => rfl
  macros := fun q name arguments hat _ => .inl ⟨h q name arguments hat, h q name arguments hat⟩

theorem compile_extra_empty [Regex.Engine] (s : Setting) (expression : String) (debug : Bool) :
    { s with extra := some .empty }.compile expression debug =
      { s with extra := none }.compile expression debug := rfl

end Setting

variable [Regex.Engine]

namespace CommandLine

/-- What both commands print for an expression that is parsed. Only the command that matches can still
fail, and then it names the same pattern. -/
structure PrintSamePattern (color : Bool) (expression utterance : String) (vars : Vars)
    (debug : Bool) (c : CompiledPattern) : Prop where
  compiled : runCompile color expression vars debug =
    ⟨0, traceText color c.trace ++
      lines [paint color .bold "Output:", "  " ++ paint color .green c.source], ""⟩
  matched : (∃ code rest, runMatch color expression utterance vars debug =
      ⟨code, traceText color c.trace ++
        lines ["  Pattern:   " ++ paint color .cyan c.source,
          "  Utterance: " ++ paint color .yellow utterance, ""] ++ rest, ""⟩) ∨
    ∃ stage, runMatch color expression utterance vars debug =
      patternFailure color (.regex stage c.anchored)

variable {color debug : Bool} {expression utterance : String} {vars : Vars} {c : CompiledPattern}

theorem runCompile_of_compile
    (h : ((Pattern.mk expression .empty).compile .none vars none debug).1 = .ok c) :
    runCompile color expression vars debug =
      ⟨0, traceText color c.trace ++
        lines [paint color .bold "Output:", "  " ++ paint color .green c.source], ""⟩ := by
  unfold runCompile
  split
  · rename_i hcompile
    rw [hcompile] at h
    cases h
  · rename_i hcompile
    rw [hcompile] at h
    obtain rfl := Except.ok.inj h
    rfl

theorem exists_of_fullMatch_eq_error {e : PatternError} (h : c.fullMatch utterance = .error e) :
    ∃ stage, e = .regex stage c.anchored := by
  rcases c.fullMatch_cases utterance with ⟨stage, herror⟩ | ⟨regex, answer, -, -, hok⟩
  · exact ⟨stage, Except.error.inj (h.symm.trans herror)⟩
  · rw [hok] at h
    cases h

theorem runMatch_of_compile
    (h : ((Pattern.mk expression .empty).compile (.ofUtterance utterance) vars none debug).1 = .ok c) :
    (∃ code rest, runMatch color expression utterance vars debug =
      ⟨code, traceText color c.trace ++
        lines ["  Pattern:   " ++ paint color .cyan c.source,
          "  Utterance: " ++ paint color .yellow utterance, ""] ++ rest, ""⟩) ∨
    ∃ stage, runMatch color expression utterance vars debug =
      patternFailure color (.regex stage c.anchored) := by
  unfold runMatch Pattern.matchUtterance
  cases hcompile : (Pattern.mk expression .empty).compile (.ofUtterance utterance) vars none debug with
  | mk compiled log =>
    rw [hcompile] at h
    dsimp only at h
    subst h
    cases hmatch : c.fullMatch utterance with
    | error e =>
      obtain ⟨stage, rfl⟩ := exists_of_fullMatch_eq_error hmatch
      exact .inr ⟨stage, by simp only [hmatch]⟩
    | ok captured =>
      simp only [hmatch]
      split
      · exact .inl ⟨_, _, rfl⟩
      · exact .inl ⟨_, _, rfl⟩

theorem exists_printSamePattern {t : Term} (h : parse expression = .ok t) :
    ∃ c, PrintSamePattern color expression utterance vars debug c := by
  let s : Setting := ⟨.empty, none, vars, .none⟩
  have hsame : { s with ngrams := .ofUtterance utterance }.compile expression debug =
      s.compile expression debug :=
    (s.agreeBelow_of_unknown (fun _ _ _ _ => rfl) (.ofUtterance utterance) []).compile_eq h debug
  have hcompile := s.compile_of_parse h debug
  exact ⟨_, runCompile_of_compile hcompile, runMatch_of_compile (hsame.trans hcompile)⟩

theorem runMatch_eq_runCompile_of_error {fault : SyntaxError} (h : parse expression = .error fault) :
    runMatch color expression utterance vars debug = runCompile color expression vars debug := by
  unfold runMatch runCompile Pattern.matchUtterance Pattern.compile
  dsimp only
  rw [h]

end CommandLine

/-- Two settings that agree on the symbols and macros consulted below a node of a parsed term compile
the node to the same text, whatever they do elsewhere; agreeing on the whole term, they give the same
pattern. In particular an empty registry of the caller is as good as none, the utterance makes no
difference where no known macro is called, and so the commands that compile and that match print the
same pattern. -/
theorem compile_noninterference (expression utterance : String) (a b : Setting) (color debug : Bool)
    (vars : Vars) :
    (∀ t, parse expression = .ok t →
      (∀ path node, t.at? path = some node → a.AgreeBelow b t path →
        ∃ fragment, (Compilation.ofTerm a.environment t).HasFragment path node fragment ∧
          (Compilation.ofTerm b.environment t).HasFragment path node fragment) ∧
      (a.AgreeBelow b t [] → a.compile expression debug = b.compile expression debug) ∧
      ((∀ q name arguments, t.at? q = some (.macroCall name arguments) → a.resolve? name = none) →
        ∀ ngrams, { a with ngrams := ngrams }.compile expression debug = a.compile expression debug) ∧
      ∃ c, CommandLine.PrintSamePattern color expression utterance vars debug c) ∧
    { a with extra := some .empty }.compile expression debug =
      { a with extra := none }.compile expression debug ∧
    ∀ fault, parse expression = .error fault →
      CommandLine.runMatch color expression utterance vars debug =
        CommandLine.runCompile color expression vars debug := by
  refine ⟨fun t hparse => ⟨?_, ?_, ?_, ?_⟩, a.compile_extra_empty expression debug, ?_⟩
  · intro path node hat hagree
    exact hagree.exists_hasFragment hat
  · intro hagree
    exact hagree.compile_eq hparse debug
  · intro hunknown ngrams
    exact (a.agreeBelow_of_unknown hunknown ngrams []).compile_eq hparse debug
  · exact CommandLine.exists_printSamePattern hparse
  · intro fault hparse
    exact CommandLine.runMatch_eq_runCompile_of_error hparse

end PhrasePattern
