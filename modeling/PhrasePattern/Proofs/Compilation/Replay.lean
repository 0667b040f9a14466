import PhrasePattern.Proofs.Compilation.Reductions
import PhrasePattern.Proofs.Term.Substitution

/-! The trace of a compilation replays it. Between the term as it is written and the text of the
pattern there is one step for each recorded node, which shows the term with the texts of the nodes
recorded so far. A text hides those of the nodes below it, so that the last of these steps shows the
text of the pattern. -/
namespace PhrasePattern

open Term (nonLiterals)

namespace Term

def label : Term → String
  | macroCall name _ => "#" ++ name
  | t => t.kind

def fragmentsAfter [Regex.Engine] (env : Environment) (t : Term) (count : Nat) (path : Path) : Option String :=
  if path ∈ ((nonLiterals (t.postOrder [])).take count).map (·.1) then
    t.fragmentAt? env .empty path
  else none

theorem fragmentsAfter_of_getElem? [Regex.Engine] (env : Environment) {t node : Term} {index : Nat}
    {path : Path} (h : (nonLiterals (t.postOrder []))[index]? = some (path, node)) :
    t.fragmentsAfter env (index + 1) path = t.fragmentAt? env .empty path := by
  have hmem : (path, node) ∈ (nonLiterals (t.postOrder [])).take (index + 1) := by
    refine List.mem_of_getElem? (i := index) ?_
    rw [List.getElem?_take, if_pos (Nat.lt_succ_self index), h]
  rw [fragmentsAfter, if_pos (List.mem_map_of_mem hmem)]

theorem lookupPath_eq {compiled : List (Path × String)} {texts : Path → Option String}
    (h : ∀ entry ∈ compiled, texts entry.1 = some entry.2) (path : Path) :
    lookupPath compiled path = if path ∈ compiled.map (·.1) then texts path else none := by
  unfold lookupPath
  cases hfind : compiled.reverse.find? fun entry => entry.1 == path with
  | none =>
    rw [List.find?_eq_none] at hfind
    rw [if_neg, Option.map_none]
    intro hmem
    obtain ⟨entry, hentry, hpath⟩ := List.mem_map.mp hmem
    exact hfind entry (List.mem_reverse.mpr hentry) (beq_iff_eq.mpr hpath)
  | some entry =>
    have hentry := List.mem_reverse.mp (List.mem_of_find?_eq_some hfind)
    have hfound := List.find?_some hfind
    have hpath : entry.1 = path := beq_iff_eq.mp hfound
    rw [← hpath, if_pos (List.mem_map_of_mem hentry), h entry hentry, Option.map_some]

end Term

namespace Trace

/-- What the trace of the compilation of the term to `source` shows. -/
structure Replays [Regex.Engine] (env : Environment) (t : Term) (source : String) (steps : Trace) :
    Prop where
  length : steps.length = 2 + (nonLiterals (t.postOrder [])).length
  original : steps[0]? = some ⟨"Original", t.surface⟩
  step : ∀ index path node, (nonLiterals (t.postOrder []))[index]? = some (path, node) →
    ∃ u, (∀ v, t.Substituted (t.fragmentsAfter env (index + 1)) v ↔ v = u) ∧
      steps[index + 1]? = some ⟨node.label, u.surface⟩
  final : steps.getLast? = some ⟨"Final", source⟩
  beforeFinal : steps.dropLast.getLast?.map (·.rendering) = some source

theorem getElem?_stepsFrom (t : Term) (compiled : List (Path × String))
    (reductions : List Reduction) (index : Nat) :
    (stepsFrom t compiled reductions)[index]? = reductions[index]?.map fun r =>
      ⟨labelOf t r, t.partialSurface
        (compiled ++ (reductions.take (index + 1)).map fun r => (r.path, r.fragment))⟩ := by
  induction reductions generalizing compiled index with
  | nil => simp [stepsFrom]
  | cons r others ih =>
    rw [stepsFrom]
    cases index with
    | zero => simp
    | succ index =>
      rw [List.getElem?_cons_succ, List.getElem?_cons_succ, ih]
      simp

theorem length_stepsFrom (t : Term) (compiled : List (Path × String))
    (reductions : List Reduction) :
    (stepsFrom t compiled reductions).length = reductions.length := by
  induction reductions generalizing compiled with
  | nil => rfl
  | cons r others ih => rw [stepsFrom, List.length_cons, ih, List.length_cons]

theorem labelOf_eq {t node : Term} {r : Reduction} (hnode : t.at? r.path = some node)
    (hrule : r.rule = node.kind) : labelOf t r = node.label := by
  unfold labelOf
  rw [hnode, hrule]
  cases node <;> rfl

end Trace

namespace Compilation
variable [Regex.Engine] (env : Environment) (t : Term)

theorem lookupPath_reductions (count : Nat) :
    Term.lookupPath (((ofTerm env t).reductions.take count).map fun r => (r.path, r.fragment)) =
      t.fragmentsAfter env count := by
  have hpaths : (((ofTerm env t).reductions.take count).map fun r => (r.path, r.fragment)).map
      (·.1) = ((nonLiterals (t.postOrder [])).take count).map (·.1) := by
    rw [List.map_map, List.map_take, List.map_take, ← paths_reduce env [] .empty t]
    rfl
  have htexts : ∀ entry ∈ ((ofTerm env t).reductions.take count).map fun r => (r.path, r.fragment),
      t.fragmentAt? env .empty entry.1 = some entry.2 := by
    intro entry hentry
    obtain ⟨r, hr, rfl⟩ := List.mem_map.mp hentry
    obtain ⟨q, hq, hfragment⟩ :=
      exists_fragment_reduce env [] .empty t r (List.mem_of_mem_take hr)
    obtain rfl : r.path = q := hq
    exact hfragment
  funext path
  rw [Term.lookupPath_eq htexts, hpaths, Term.fragmentsAfter]

theorem length_reductions :
    (ofTerm env t).reductions.length = (nonLiterals (t.postOrder [])).length := by
  have hlength := congrArg List.length (paths_reduce env [] .empty t)
  rwa [List.length_map, List.length_map] at hlength

variable {t} in
theorem getElem?_stepsFrom_reductions {index : Nat} {path : Path} {node : Term}
    (h : (nonLiterals (t.postOrder []))[index]? = some (path, node)) :
    (Trace.stepsFrom t [] (ofTerm env t).reductions)[index]? =
      some ⟨node.label, t.surfaceWith (t.fragmentsAfter env (index + 1))⟩ := by
  have hnode := congrArg (·[index]?) (nodes_reduce env [] .empty t)
  rw [List.getElem?_map, List.getElem?_map, h, Option.map_some, Option.map_eq_some_iff] at hnode
  obtain ⟨r, hr, heq⟩ := hnode
  obtain ⟨hpath, hrule⟩ := Prod.mk.inj heq
  have hat : t.at? r.path = some node := by
    rw [hpath, ← Term.mem_postOrder_iff]
    exact (Term.mem_nonLiterals_iff.mp (List.mem_of_getElem? h)).1
  have hr' : (ofTerm env t).reductions[index]? = some r := hr
  rw [Trace.getElem?_stepsFrom, hr', Option.map_some, Trace.labelOf_eq hat hrule, List.nil_append,
    Term.partialSurface, lookupPath_reductions]

theorem rendering_getLast?_steps :
    ((⟨"Original", t.surface⟩ :: Trace.stepsFrom t [] (ofTerm env t).reductions : Trace).getLast?.map
      (·.rendering)) = some (ofTerm env t).fragment := by
  cases hliteral : t.isLiteral with
  | true =>
    cases t with
    | literal text =>
      rw [Term.surface_literal]
      rfl
    | _ => cases hliteral
  | false =>
    have hroot : (nonLiterals (t.postOrder [])).getLast? = some ([], t) := by
      simp [Term.postOrder_eq, hliteral]
    rw [List.getLast?_eq_getElem?] at hroot
    have hlast := getElem?_stepsFrom_reductions env hroot
    have htext := Term.fragmentsAfter_of_getElem? env hroot
    rw [Term.fragmentAt?] at htext
    -- The text of the root hides all others.
    rw [Term.surfaceWith.eq_def, htext] at hlast
    rw [List.getLast?_cons, List.getLast?_eq_getElem?, Trace.length_stepsFrom, length_reductions,
      hlast]
    rfl

theorem replays_replay :
    Trace.Replays env t (ofTerm env t).fragment
      (Trace.replay t (ofTerm env t).reductions (ofTerm env t).fragment) := by
  unfold Trace.replay
  refine ⟨?_, rfl, fun index path node hnode => ?_, List.getLast?_concat, ?_⟩
  · rw [List.length_append, List.length_cons, Trace.length_stepsFrom, length_reductions,
      List.length_singleton]
    omega
  · refine ⟨t.substitute (t.fragmentsAfter env (index + 1)), t.substituted_iff _, ?_⟩
    have hstep := getElem?_stepsFrom_reductions env hnode
    rw [Term.surface_substitute, List.cons_append, List.getElem?_cons_succ,
      List.getElem?_append_left (List.getElem?_eq_some_iff.mp hstep).1, hstep]
  · rw [List.dropLast_concat]
    exact rendering_getLast?_steps env t

end Compilation

open scoped Regex.Engine in
example :
    let t : Term := .assignment "x" (.macroCall "M" [.group .disjunction [.literal "a", .literal "b"]])
    let c := Compilation.ofTerm ⟨.empty, .empty, .none⟩ t
    Trace.replay t c.reductions c.fragment =
      [⟨"Original", "$x=#M(\x7ba, b\x7d)"⟩,
        ⟨"disjunction", "$x=#M((?:a|b))"⟩,
        ⟨"#M", "$x=_M_MACRO_NOT_FOUND_"⟩,
        ⟨"assignment", "(?P<x>_M_MACRO_NOT_FOUND_)"⟩,
        ⟨"Final", "(?P<x>_M_MACRO_NOT_FOUND_)"⟩] := by
  decide

/-- An expression that is parsed compiles with diagnostics, and the trace of the pattern replays how
its term was compiled to its text. -/
theorem compile_replays [Regex.Engine] (p : Pattern) (ngrams : Ngrams) (vars : Vars) (extra : Option Registry)
    (t : Term) (hparse : parse p.expression = .ok t) :
    ∃ c steps, (p.compile ngrams vars extra true).1 = .ok c ∧ c.trace = some steps ∧
      Trace.Replays ⟨vars, p.registry extra, ngrams⟩ t c.source steps := by
  rw [Pattern.compile_of_parse hparse]
  exact ⟨_, _, rfl, rfl, Compilation.replays_replay _ t⟩

/-- The term of `[#FIRST({a, b}, c), $x=#LAST]`. -/
def callingTerm : Term :=
  .group .flexible [.macroCall "FIRST" [.group .disjunction [.literal "a", .literal "b"], .literal "c"],
    .assignment "x" (.macroCall "LAST" [])]

theorem wellFormed_callingTerm : callingTerm.WellFormed := by
  have ha : Term.IsLiteralText "a" := Term.isLiteralText_of_all (by decide) (by decide)
  have hb : Term.IsLiteralText "b" := Term.isLiteralText_of_all (by decide) (by decide)
  have hc : Term.IsLiteralText "c" := Term.isLiteralText_of_all (by decide) (by decide)
  have hx : IsRun isSymbolChar "x" := isRun_of_all (by decide) (by decide)
  have hfirst : IsRun isSymbolChar "FIRST" := isRun_of_all (by decide) (by decide)
  have hlast : IsRun isSymbolChar "LAST" := isRun_of_all (by decide) (by decide)
  have hitems : (Term.group .disjunction [.literal "a", .literal "b"]).IsOperand :=
    ⟨Nat.le_refl 2, ha, hb, trivial⟩
  exact ⟨by decide, ⟨hfirst, hitems, hc, trivial⟩, ⟨hx, hlast, trivial⟩, trivial⟩

def firstOnly : Registry :=
  Dict.ofList [("FIRST", fun _ _ arguments => .returned (arguments.headD (.text "")))]

open scoped Regex.Engine in
theorem compile_replays_callingTerm : ∃ c steps,
    ((⟨callingTerm.surface, firstOnly⟩ : Pattern).compile .none .empty none true).1 = .ok c ∧
      c.trace = some steps ∧
      Trace.Replays ⟨.empty, firstOnly, .none⟩ callingTerm c.source steps :=
  compile_replays ⟨callingTerm.surface, firstOnly⟩ .none .empty none callingTerm
    (parse_surface wellFormed_callingTerm)

end PhrasePattern
