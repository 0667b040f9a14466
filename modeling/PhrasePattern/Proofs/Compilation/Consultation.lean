import PhrasePattern.Pattern
import PhrasePattern.Proofs.Compilation.Binding

/-! What a compilation takes from its environment. Only references that nothing binds and calls of
macros consult it, and which references these are depends on the term alone. So two environments that
give the same answers to the nodes of a term lead to the same values and the same reductions, though
what they report may differ. -/
namespace PhrasePattern

namespace Environment

/-- The value of a call, whatever is reported about it. -/
def called (env : Environment) (name : String) (arguments : List Value) : Value :=
  (env.macros.invoke name env.ngrams env.vars arguments).1

/-- The environments answer the node alike, where these groups are bound before it. -/
def AgreeAt (env env' : Environment) (groups : GroupTable) : Term → Prop
  | .reference symbol => groups.group? symbol = none → env.vars.get? symbol = env'.vars.get? symbol
  | .macroCall name _ => ∀ arguments, env.called name arguments = env'.called name arguments
  | .group _ _ | .negation _ | .regex _ | .assignment _ _ | .literal _ | .concatenation _ => True

def AgreeThrough (env env' : Environment) : GroupTable → List (Path × Term) → Prop
  | _, [] => True
  | groups, node :: others =>
    env.AgreeAt env' groups node.2 ∧
      env.AgreeThrough env' (groups.bindAll node.2.assigned?.toList) others

variable {env env' : Environment} {groups : GroupTable}

theorem agreeThrough_append {first second : List (Path × Term)} :
    env.AgreeThrough env' groups (first ++ second) ↔ env.AgreeThrough env' groups first ∧
      env.AgreeThrough env' (groups.bindAll (Term.assigned first)) second := by
  induction first generalizing groups with
  | nil => simp [AgreeThrough]
  | cons node others ih =>
    rw [List.cons_append, AgreeThrough, AgreeThrough, ih, and_assoc, Term.assigned_cons,
      GroupTable.bindAll_append]

theorem agreeThrough_of_forall {nodes : List (Path × Term)}
    (h : ∀ (before : List (Path × Term)) (node : Path × Term) (after : List (Path × Term)),
      nodes = before ++ node :: after →
        env.AgreeAt env' (groups.bindAll (Term.assigned before)) node.2) :
    env.AgreeThrough env' groups nodes := by
  induction nodes generalizing groups with
  | nil => trivial
  | cons node others ih =>
    refine ⟨h [] node others rfl, ih fun before other after heq => ?_⟩
    have hother := h (node :: before) other after (by rw [heq, List.cons_append])
    rw [Term.assigned_cons, GroupTable.bindAll_append] at hother
    exact hother

variable [Regex.Engine]

theorem value_reference {symbol : String}
    (h : groups.group? symbol = none → env.vars.get? symbol = env'.vars.get? symbol) :
    (Rule.reference env groups symbol).value = (Rule.reference env' groups symbol).value := by
  unfold Rule.reference
  cases hgroup : groups.group? symbol with
  | some group => rfl
  | none =>
    dsimp only
    rw [h hgroup]

theorem value_macroCall {name : String} {operands : List Value}
    (h : env.called name operands = env'.called name operands) :
    (Rule.macroCall env groups name operands).value =
      (Rule.macroCall env' groups name operands).value := by
  unfold called at h
  unfold Rule.macroCall
  dsimp only
  rw [h]
  split <;> rfl

theorem AgreeAt.value_apply {t : Term} (h : env.AgreeAt env' groups t) (operands : List Value) :
    (Rule.apply env groups t operands).value = (Rule.apply env' groups t operands).value := by
  cases t with
  | reference symbol => exact value_reference h
  | macroCall name arguments => exact value_macroCall (h operands)
  | _ => rfl

theorem AgreeAt.conclude {t : Term} {path : Path} {children children' : Reduced (List Value)}
    (h : env.AgreeAt env' children.groups t) (hgroups : children.groups = children'.groups)
    (hvalue : children.value = children'.value)
    (hreductions : children.reductions = children'.reductions) :
    (PhrasePattern.conclude env path t children).value =
        (PhrasePattern.conclude env' path t children').value ∧
      (PhrasePattern.conclude env path t children).reductions =
        (PhrasePattern.conclude env' path t children').reductions := by
  have hfirst : (PhrasePattern.conclude env path t children).value =
      (PhrasePattern.conclude env' path t children').value := by
    rw [value_conclude, value_conclude, h.value_apply, hvalue, hgroups]
  exact ⟨hfirst, by rw [reductions_conclude, reductions_conclude, hfirst, hreductions]⟩

theorem reduceAll_eq_of_agreeThrough {items : List Term}
    (ih : ∀ t ∈ items, ∀ {groups : GroupTable} {path : Path},
      env.AgreeThrough env' groups (t.postOrder path) →
        (reduce env path groups t).value = (reduce env' path groups t).value ∧
          (reduce env path groups t).reductions = (reduce env' path groups t).reductions)
    {path : Path} {index : Nat} {groups : GroupTable}
    (h : env.AgreeThrough env' groups (Term.postOrders path index items)) :
    (reduceAll env path index groups items).value = (reduceAll env' path index groups items).value ∧
      (reduceAll env path index groups items).reductions =
        (reduceAll env' path index groups items).reductions := by
  induction items generalizing index groups with
  | nil => simp [reduceAll_nil]
  | cons t others ihs =>
    rw [Term.postOrders_cons, agreeThrough_append] at h
    obtain ⟨hvalue, hreductions⟩ := ih t List.mem_cons_self h.1
    rw [← groups_reduce env] at h
    obtain ⟨hvalues, hrest⟩ := ihs (fun s hs => ih s (List.mem_cons_of_mem t hs)) h.2
    have hgroups : (reduce env (path ++ [index]) groups t).groups =
        (reduce env' (path ++ [index]) groups t).groups := by
      rw [groups_reduce, groups_reduce]
    rw [reduceAll_cons, reduceAll_cons]
    dsimp only
    rw [hvalue, hreductions, hvalues, hrest, hgroups]
    exact ⟨rfl, rfl⟩

/-- Where the environments answer alike, the term is compiled alike. -/
theorem AgreeThrough.reduce_eq {t : Term} {path : Path}
    (h : env.AgreeThrough env' groups (t.postOrder path)) :
    (reduce env path groups t).value = (reduce env' path groups t).value ∧
      (reduce env path groups t).reductions = (reduce env' path groups t).reductions := by
  induction t using Term.induction_children generalizing path groups with
  | node t ih =>
    rw [Term.postOrder_eq, agreeThrough_append] at h
    obtain ⟨hvalue, hreductions⟩ := reduceAll_eq_of_agreeThrough ih h.1
    have hroot := h.2.1
    rw [← groups_reduceAll env] at hroot
    rw [reduce_eq_conclude, reduce_eq_conclude]
    refine hroot.conclude ?_ hvalue hreductions
    rw [groups_reduceAll, groups_reduceAll]

end Environment

variable [Regex.Engine]

def Compilation.pattern (c : Compilation) (t : Term) (debug : Bool) : CompiledPattern :=
  ⟨c.fragment, c.groups, if debug then some (Trace.replay t c.reductions c.fragment) else none⟩

namespace Pattern

variable {p : Pattern} {ngrams : Ngrams} {vars : Vars} {extra : Option Registry} {debug : Bool}

theorem compile_fst (p : Pattern) (ngrams : Ngrams) (vars : Vars) (extra : Option Registry)
    (debug : Bool) : (p.compile ngrams vars extra debug).1 =
      match parse p.expression with
      | .error fault => .error (.expression fault)
      | .ok t => .ok ((Compilation.ofTerm ⟨vars, p.registry extra, ngrams⟩ t).pattern t debug) := by
  unfold compile
  cases parse p.expression with
  | error fault => rfl
  | ok t =>
    cases debug with
    | true => rfl
    | false => rfl

theorem compile_of_parse {t : Term} (h : parse p.expression = .ok t) :
    (p.compile ngrams vars extra debug).1 =
      .ok ((Compilation.ofTerm ⟨vars, p.registry extra, ngrams⟩ t).pattern t debug) := by
  rw [compile_fst, h]

theorem compile_eq_error_iff {e : PatternError} :
    (p.compile ngrams vars extra debug).1 = .error e ↔
      ∃ fault, parse p.expression = .error fault ∧ e = .expression fault := by
  rw [compile_fst]
  cases parse p.expression with
  | error fault => simp [eq_comm]
  | ok t => simp

/-- The result of matching and the variables after it, from what the pattern was compiled to. -/
def outcome (utterance : String) (vars : Vars) :
    Except PatternError CompiledPattern → Except PatternError MatchResult × Vars
  | .error e => (.error e, vars)
  | .ok c =>
    match c.fullMatch utterance with
    | .error e => (.error e, vars)
    | .ok captured =>
      (.ok ⟨captured.isSome, c, captured.getD .empty⟩, (captured.map vars.overlay).getD vars)

theorem outcome_of_fullMatch {c : CompiledPattern} {utterance : String} {captured : Option Vars}
    (h : c.fullMatch utterance = .ok captured) (vars : Vars) :
    outcome utterance vars (.ok c) =
      (.ok ⟨captured.isSome, c, captured.getD .empty⟩, (captured.map vars.overlay).getD vars) := by
  unfold outcome
  dsimp only
  rw [h]

theorem matchUtterance_eq_outcome (p : Pattern) (utterance : String) (vars : Vars)
    (extra : Option Registry) (debug : Bool) :
    (p.matchUtterance utterance vars extra debug).1 =
        (outcome utterance vars (p.compile (.ofUtterance utterance) vars extra debug).1).1 ∧
      (p.matchUtterance utterance vars extra debug).2.1 =
        (outcome utterance vars (p.compile (.ofUtterance utterance) vars extra debug).1).2 := by
  unfold matchUtterance
  split
  · rename_i hcompile
    rw [hcompile]
    exact ⟨rfl, rfl⟩
  · rename_i c log hcompile
    rw [hcompile]
    unfold outcome
    dsimp only
    cases c.fullMatch utterance with
    | error e => exact ⟨rfl, rfl⟩
    | ok captured => exact ⟨rfl, rfl⟩

end Pattern

/-- Where the environments answer alike, the pattern is the same. -/
theorem Environment.AgreeThrough.pattern_eq {env env' : Environment} {t : Term}
    (h : env.AgreeThrough env' .empty (t.postOrder [])) (debug : Bool) :
    (Compilation.ofTerm env t).pattern t debug = (Compilation.ofTerm env' t).pattern t debug := by
  obtain ⟨hvalue, hreductions⟩ := h.reduce_eq
  have hfragment : (Compilation.ofTerm env t).fragment = (Compilation.ofTerm env' t).fragment :=
    congrArg Value.fragment hvalue
  have hsteps : (Compilation.ofTerm env t).reductions = (Compilation.ofTerm env' t).reductions :=
    hreductions
  rw [Compilation.pattern, Compilation.pattern, Compilation.groups_ofTerm, Compilation.groups_ofTerm,
    hfragment, hsteps]

end PhrasePattern
