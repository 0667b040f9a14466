import PhrasePattern.Proofs.Compilation.Consultation

/-! Recording. A compilation can be carried out as one walk over the term that changes a single state:
it goes down to a child and comes back up, keeps the path to the node at hand, and adds to a record of
the compiled nodes if it has one. Such a walk ends on the path where it began, with the value, the
groups and the reports that the term has by itself; the record is all that depends on whether one is
kept. So asking for diagnostics changes no pattern, no match and no variable. -/
namespace PhrasePattern

/-- The groups bound so far, the path to the node at hand, the nodes compiled so far, if a record of
them is kept, and what was reported. -/
structure Walk where
  groups : GroupTable
  path : Path
  record : Option (List Reduction)
  log : Log

namespace Walk

def down (w : Walk) (index : Nat) : Walk := { w with path := w.path ++ [index] }

def up (w : Walk) : Walk := { w with path := w.path.dropLast }

def report (w : Walk) (log : Log) : Walk := { w with log := w.log ++ log }

def note (w : Walk) (t : Term) (fragment : String) : Walk :=
  { w with record := w.record.map (· ++ [⟨w.path, t.kind, fragment⟩]) }

def conclude [Regex.Engine] (env : Environment) (w : Walk) (t : Term) (operands : List Value) : Value × Walk :=
  let ruled := Rule.apply env w.groups t operands
  let w := { w with groups := ruled.groups }.report ruled.log
  if t.isLiteral then (ruled.value, w)
  else
    let fragment := ruled.value.fragment
    (ruled.value,
      (w.report (Log.event .trace "reduced" [("rule", t.kind), ("fragment", fragment)])).note t fragment)

def past {α : Type} (w : Walk) (r : Reduced α) : Walk :=
  ⟨r.groups, w.path, w.record.map (· ++ r.reductions), w.log ++ r.log⟩

theorem up_past_down (w : Walk) (index : Nat) (r : Reduced Value) :
    ((w.down index).past r).up = w.past r := by
  simp [up, past, down]

end Walk

variable [Regex.Engine]

mutual

def walk (env : Environment) (w : Walk) : Term → Value × Walk
  | .group form items =>
      let operands := walkAll env 0 w items
      operands.2.conclude env (.group form items) operands.1
  | .negation operand =>
      let value := walk env (w.down 0) operand
      value.2.up.conclude env (.negation operand) [value.1]
  | .regex body => w.conclude env (.regex body) []
  | .reference symbol => w.conclude env (.reference symbol) []
  | .assignment symbol operand =>
      let value := walk env (w.down 0) operand
      value.2.up.conclude env (.assignment symbol operand) [value.1]
  | .macroCall name arguments =>
      let operands := walkAll env 0 w arguments
      operands.2.conclude env (.macroCall name arguments) operands.1
  | .literal text => w.conclude env (.literal text) []
  | .concatenation items =>
      let operands := walkAll env 0 w items
      operands.2.conclude env (.concatenation items) operands.1

def walkAll (env : Environment) (index : Nat) (w : Walk) : List Term → List Value × Walk
  | [] => ([], w)
  | t :: others =>
    let first := walk env (w.down index) t
    let rest := walkAll env (index + 1) first.2.up others
    (first.1 :: rest.1, rest.2)

end

section
variable (env : Environment)

theorem walkAll_nil (index : Nat) (w : Walk) : walkAll env index w [] = ([], w) := by
  rw [walkAll]

theorem walkAll_cons (index : Nat) (w : Walk) (t : Term) (others : List Term) :
    walkAll env index w (t :: others) =
      let first := walk env (w.down index) t
      let rest := walkAll env (index + 1) first.2.up others
      (first.1 :: rest.1, rest.2) := by
  rw [walkAll]

theorem walk_eq_conclude (w : Walk) (t : Term) :
    walk env w t =
      (walkAll env 0 w t.children).2.conclude env t (walkAll env 0 w t.children).1 := by
  cases t <;> simp [walk, Term.children, walkAll_nil, walkAll_cons]

theorem Walk.conclude_past (w : Walk) (t : Term) (children : Reduced (List Value)) :
    (w.past children).conclude env t children.value =
      ((PhrasePattern.conclude env w.path t children).value,
        w.past (PhrasePattern.conclude env w.path t children)) := by
  unfold Walk.conclude PhrasePattern.conclude
  cases t.isLiteral with
  | true => simp [Walk.past, Walk.report, List.append_assoc]
  | false =>
    obtain ⟨groups, path, record, log⟩ := w
    cases record <;> simp [Walk.past, Walk.report, Walk.note]

theorem walkAll_eq_of_forall {items : List Term}
    (ih : ∀ t ∈ items, ∀ w : Walk,
      walk env w t = ((reduce env w.path w.groups t).value, w.past (reduce env w.path w.groups t)))
    (index : Nat) (w : Walk) :
    walkAll env index w items =
      ((reduceAll env w.path index w.groups items).value,
        w.past (reduceAll env w.path index w.groups items)) := by
  induction items generalizing index w with
  | nil =>
    rw [walkAll_nil, reduceAll_nil]
    obtain ⟨groups, path, record, log⟩ := w
    cases record <;> simp [Walk.past]
  | cons t others ihs =>
    rw [walkAll_cons, reduceAll_cons]
    dsimp only
    rw [ih t List.mem_cons_self, Walk.up_past_down,
      ihs fun s hs => ih s (List.mem_cons_of_mem t hs)]
    obtain ⟨groups, path, record, log⟩ := w
    cases record <;> simp [Walk.past, Walk.down]

/-- A walk leaves behind what the compiled term gives by itself, on the path where it began. -/
theorem walk_eq (w : Walk) (t : Term) :
    walk env w t =
      ((reduce env w.path w.groups t).value, w.past (reduce env w.path w.groups t)) := by
  induction t using Term.induction_children generalizing w with
  | node t ih =>
    rw [walk_eq_conclude, walkAll_eq_of_forall env ih, reduce_eq_conclude]
    exact w.conclude_past env t _

end

namespace Compilation

/-- A compilation by a walk from the root, with some groups bound before it, that keeps a record or
not. -/
def byWalk (env : Environment) (groups : GroupTable) (t : Term) (record : Bool) : Compilation :=
  let walked := walk env ⟨groups, [], if record then some [] else none, []⟩ t
  ⟨walked.1.fragment, walked.2.groups, walked.2.record.getD [], walked.2.log⟩

theorem byWalk_eq (env : Environment) (groups : GroupTable) (t : Term) (record : Bool) :
    byWalk env groups t record =
      ⟨(reduce env [] groups t).value.fragment, (reduce env [] groups t).groups,
        if record then (reduce env [] groups t).reductions else [],
        (reduce env [] groups t).log⟩ := by
  unfold byWalk
  rw [walk_eq]
  cases record <;> simp [Walk.past]

theorem byWalk_empty (env : Environment) (t : Term) (record : Bool) :
    byWalk env .empty t record = (ofTerm env t).recording record := by
  rw [byWalk_eq]
  cases record <;> rfl

end Compilation

namespace Log

/-- The records that do not depend on whether diagnostics are asked for. -/
def lasting (log : Log) : Log := log.filter (·.level ≠ .debug)

omit [Regex.Engine] in
theorem lasting_append (first second : Log) :
    lasting (first ++ second) = lasting first ++ lasting second := List.filter_append ..

omit [Regex.Engine] in
theorem lasting_eq_nil {log : Log} (h : ∀ record ∈ log, record.level = .debug) :
    log.lasting = [] := by
  rw [lasting, List.filter_eq_nil_iff]
  intro record hrecord
  simp [h record hrecord]

end Log

theorem CompiledPattern.fullMatch_congr {c c' : CompiledPattern} (hsource : c.source = c'.source)
    (hgroups : c.groups = c'.groups) (utterance : String) :
    c.fullMatch utterance = c'.fullMatch utterance := by
  obtain ⟨source, groups, trace⟩ := c
  obtain ⟨source', groups', trace'⟩ := c'
  cases hsource
  cases hgroups
  rfl

namespace Pattern
variable (p : Pattern) (ngrams : Ngrams) (vars : Vars) (extra : Option Registry)

theorem compile_untraced (debug : Bool) :
    (p.compile ngrams vars extra debug).1.map (fun c => (c.source, c.groups)) =
      match parse p.expression with
      | .error fault => .error (.expression fault)
      | .ok t => .ok ((Compilation.ofTerm ⟨vars, p.registry extra, ngrams⟩ t).fragment,
          (Compilation.ofTerm ⟨vars, p.registry extra, ngrams⟩ t).groups) := by
  rw [compile_fst]
  cases parse p.expression with
  | error fault => rfl
  | ok t => rfl

/-- What is reported beside the diagnostics. -/
theorem lasting_compile (debug : Bool) :
    (p.compile ngrams vars extra debug).2.lasting =
      match parse p.expression with
      | .error _ => []
      | .ok t => (Compilation.ofTerm ⟨vars, p.registry extra, ngrams⟩ t).log.lasting := by
  have hstart : Log.lasting (Log.span "compile_with" [("expression", p.expression)] ++
      if debug then announcement ⟨vars, p.registry extra, ngrams⟩ else []) = [] := by
    cases debug <;> rfl
  unfold compile
  dsimp only
  cases parse p.expression with
  | error fault => exact hstart
  | ok t =>
    cases debug with
    | false =>
      simp only [Bool.false_eq_true, if_false] at hstart ⊢
      rw [Log.lasting_append, hstart, List.nil_append]
    | true =>
      have hsteps : ∀ trace : Trace, Log.lasting (trace.flatMap fun step =>
          Log.event .debug step.rendering [("step", step.label)]) = [] := by
        intro trace
        refine Log.lasting_eq_nil fun record hrecord => ?_
        obtain ⟨step, -, hstep⟩ := List.mem_flatMap.mp hrecord
        rw [List.mem_singleton.mp hstep]
      simp only [if_true] at hstart ⊢
      rw [Log.lasting_append, Log.lasting_append, hstart, hsteps, List.nil_append, List.append_nil]

end Pattern

def MatchResult.untraced (r : MatchResult) : Bool × Vars × String × GroupTable :=
  (r.matched, r.captures, r.pattern.source, r.pattern.groups)

theorem Pattern.outcome_congr (utterance : String) (vars : Vars)
    {compiled compiled' : Except PatternError CompiledPattern}
    (h : compiled.map (fun c => (c.source, c.groups)) =
      compiled'.map (fun c => (c.source, c.groups))) :
    (outcome utterance vars compiled).1.map MatchResult.untraced =
        (outcome utterance vars compiled').1.map MatchResult.untraced ∧
      (outcome utterance vars compiled).2 = (outcome utterance vars compiled').2 := by
  cases compiled with
  | error e =>
    cases compiled' with
    | error e' =>
      obtain rfl := Except.error.inj h
      exact ⟨rfl, rfl⟩
    | ok c' => cases h
  | ok c =>
    cases compiled' with
    | error e' => cases h
    | ok c' =>
      obtain ⟨hsource, hgroups⟩ := Prod.mk.inj (Except.ok.inj h)
      unfold outcome
      dsimp only
      rw [CompiledPattern.fullMatch_congr hsource hgroups]
      cases c'.fullMatch utterance with
      | error e => exact ⟨rfl, rfl⟩
      | ok captured =>
        refine ⟨congrArg Except.ok ?_, rfl⟩
        simp only [MatchResult.untraced, hsource, hgroups]

/-- Keeping a record changes neither the text nor the groups of a compilation nor what it reports, with
any groups bound before it. So an expression is compiled to the same text and groups, or refused for
the same reason, with and without diagnostics, and reports the same warnings and steps; matching finds
and captures the same and leaves the same variables; and compiling an expression by itself gives the
text of the pattern that has no macros and is compiled without variables. -/
theorem diagnostics_keep_results (env : Environment) (groups : GroupTable) (t : Term) (p : Pattern)
    (ngrams : Ngrams) (vars : Vars) (extra : Option Registry) (utterance expression : String) :
    ((Compilation.byWalk env groups t true).fragment =
        (Compilation.byWalk env groups t false).fragment ∧
      (Compilation.byWalk env groups t true).groups =
        (Compilation.byWalk env groups t false).groups ∧
      (Compilation.byWalk env groups t true).log = (Compilation.byWalk env groups t false).log ∧
      ∀ record, Compilation.byWalk env .empty t record =
        (Compilation.ofTerm env t).recording record) ∧
    ((p.compile ngrams vars extra true).1.map (fun c => (c.source, c.groups)) =
        (p.compile ngrams vars extra false).1.map (fun c => (c.source, c.groups)) ∧
      (p.compile ngrams vars extra true).2.lasting =
        (p.compile ngrams vars extra false).2.lasting) ∧
    ((p.matchUtterance utterance vars extra true).1.map MatchResult.untraced =
        (p.matchUtterance utterance vars extra false).1.map MatchResult.untraced ∧
      (p.matchUtterance utterance vars extra true).2.1 =
        (p.matchUtterance utterance vars extra false).2.1) ∧
    ∀ debug, (compileExpression expression).1 =
      ((Pattern.mk expression .empty).compile .none .empty none debug).1.map (·.source) := by
  have hcompile : ∀ ngrams, (p.compile ngrams vars extra true).1.map (fun c => (c.source, c.groups)) =
      (p.compile ngrams vars extra false).1.map (fun c => (c.source, c.groups)) := by
    intro ngrams
    rw [Pattern.compile_untraced, Pattern.compile_untraced]
  refine ⟨⟨?_, ?_, ?_, Compilation.byWalk_empty env t⟩, ⟨hcompile ngrams, ?_⟩, ?_, fun debug => ?_⟩
  · rw [Compilation.byWalk_eq, Compilation.byWalk_eq]
  · rw [Compilation.byWalk_eq, Compilation.byWalk_eq]
  · rw [Compilation.byWalk_eq, Compilation.byWalk_eq]
  · rw [Pattern.lasting_compile, Pattern.lasting_compile]
  · obtain ⟨hresult, hvars⟩ := p.matchUtterance_eq_outcome utterance vars extra true
    obtain ⟨hresult', hvars'⟩ := p.matchUtterance_eq_outcome utterance vars extra false
    rw [hresult, hvars, hresult', hvars']
    exact Pattern.outcome_congr utterance vars (hcompile _)
  · rw [Pattern.compile_fst]
    unfold compileExpression
    cases parse expression with
    | error fault => rfl
    | ok t => rfl

end PhrasePattern
