import PhrasePattern.Proofs.Compilation.Ruling
import PhrasePattern.Proofs.Regex.Enclosure
import PhrasePattern.Proofs.Regex.Frame
import PhrasePattern.Proofs.Regex.Splicing
import PhrasePattern.Proofs.Term.RoundTrip

/-! Matches between anchors. An utterance is matched as a whole as long as the pattern is a regular
expression without its anchors too: the group that the anchors are put around then ends where it
should, and what is found begins and ends with the utterance. -/
namespace PhrasePattern

namespace Regex

/-- The span that is reported. It starts where the search did, unless group 0 was given another start
on the way. -/
def Match.span (found : Match) : Span :=
  ⟨((found.thread.captured? 0).map Span.start).getD found.start, found.thread.position⟩

section
variable {text : Subject}

def anchoredSeq (items : List Node) : Node :=
  .seq ([.assertion .textStart] ++ items ++ [.assertion .textEnd])

structure Crosses (text : Subject) (group : Nat) (t u : Thread) : Prop where
  start : t.position = 0
  stop : u.position = text.size
  keeps : t.Keeps group u

theorem endsSeq_nil (items : List Node) : endsSeq text items [] = [] := by
  induction items with
  | nil => rw [endsSeq]
  | cons n others ih => rw [endsSeq, List.flatMap_nil, distinct, distinctFrom, ih]

theorem mem_endsSeq_assertion {test : Assertion} {threads : List Thread} {u : Thread}
    (h : u ∈ endsSeq text [.assertion test] threads) :
    u ∈ threads ∧ test.holds text u.position = true := by
  rw [endsSeq, endsSeq] at h
  obtain ⟨v, hv, hu⟩ := List.mem_flatMap.mp (mem_of_mem_distinct h)
  rw [Node.ends] at hu
  split at hu
  · obtain rfl := List.mem_singleton.mp hu
    exact ⟨hv, ‹_›⟩
  · cases hu

theorem crosses_of_mem_ends {items : List Node} {group : Nat} (hgroup : group ∉ groupsOf items)
    {t u : Thread} (h : u ∈ (anchoredSeq items).ends text t) : Crosses text group t u := by
  rw [anchoredSeq, Node.ends, endsSeq_append, endsSeq_append] at h
  obtain ⟨hmem, hstop⟩ := mem_endsSeq_assertion h
  have hkeep : AllKeep group t (endsSeq text [.assertion .textStart] [t]) :=
    fun v hv => allKeep_singleton v (mem_endsSeq_assertion hv).1
  refine ⟨?_, by simpa [Assertion.holds] using hstop, allKeep_endsSeq text items hgroup hkeep u hmem⟩
  cases hfirst : endsSeq text [.assertion .textStart] [t] with
  | nil =>
    rw [hfirst, endsSeq_nil] at hmem
    cases hmem
  | cons v others =>
    obtain ⟨hv, hstart⟩ := mem_endsSeq_assertion (hfirst ▸ List.mem_cons_self)
    obtain rfl := List.mem_singleton.mp hv
    simpa [Assertion.holds] using hstart

theorem crosses_of_search {items : List Node} {group : Nat} (hgroup : group ∉ groupsOf items)
    {t u : Thread} {budget left : Nat}
    (h : (anchoredSeq items).search text false t budget .found = .found u left) :
    Crosses text group t u := by
  have hassertion : ∀ test v before k, searchSeq text false [.assertion test] v before k =
      if test.holds text v.position then k v before else .failed before := by
    intro test v before k
    simp [searchSeq, Node.search]
  rw [anchoredSeq, Node.search, searchSeq_append, searchSeq_append, hassertion] at h
  split at h
  · rename_i hstart
    obtain ⟨v, before, hkeeps, hfound⟩ := reaches_searchSeq text items hgroup false t budget _ u left h
    dsimp only at hfound
    rw [hassertion] at hfound
    split at hfound
    · rename_i hstop
      obtain ⟨rfl, -⟩ := Verdict.found.inj hfound
      exact ⟨by simpa [Assertion.holds] using hstart, by simpa [Assertion.holds] using hstop, hkeeps⟩
    · cases hfound
  · cases h

theorem mem_ends_of_findFrom {root : Node} {position n : Nat} {found : Match}
    (h : findFrom root text position n = some found) :
    found.thread ∈ root.ends text (.start found.start) := by
  induction n generalizing position with
  | zero =>
    obtain ⟨u, hu, rfl⟩ := Option.map_eq_some_iff.mp h
    exact List.mem_of_head? hu
  | succ n ih =>
    rw [findFrom] at h
    split at h
    · rename_i u others hends
      obtain rfl := Option.some.inj h
      rw [hends]
      exact List.mem_cons_self
    · exact ih h

theorem exists_search_of_scans {root : Node} {position n : Nat} {found : Match}
    (h : Scans root text position n (some found)) :
    ∃ before left,
      root.search text false (.start found.start) before .found = .found found.thread left := by
  generalize hresult : some found = result at h
  induction h with
  | @here position budget n left t hsearch =>
    obtain rfl := Option.some.inj hresult
    exact ⟨budget, left, hsearch⟩
  | nowhere => cases hresult
  | later _ _ ih => exact ih hresult

theorem span_of_find [Engine] {regex : Regex} {items : List Node} (hroot : regex.root = anchoredSeq items)
    (hgroup : 0 ∉ groupsOf items) {found : Match} (h : regex.find text = some (some found)) :
    found.span = ⟨0, text.size⟩ := by
  have hcrosses : Crosses text 0 (.start found.start) found.thread := by
    unfold find at h
    rw [hroot] at h
    split at h
    · exact crosses_of_mem_ends hgroup (mem_ends_of_findFrom (Option.some.inj h))
    · obtain ⟨before, left, hsearch⟩ := exists_search_of_scans (scans_of_searchFrom h)
      exact crosses_of_search hgroup hsearch
  have hstart : found.start = 0 := hcrosses.start
  have hnone : found.thread.captured? 0 = none := hcrosses.keeps
  rw [Match.span, hnone, hcrosses.stop, hstart]
  rfl

theorem groupsOf_pieceOf (node : Node) : groupsOf (Reader.pieceOf node) ⊆ node.groups := by
  unfold Reader.pieceOf
  split
  · exact List.nil_subset _
  · rw [groupsOf, groupsOf, List.append_nil]
    exact List.Subset.refl _

end

end Regex

theorem CompiledPattern.exists_find_of_fullMatch [Regex.Engine] {c : CompiledPattern}
    {utterance : String} {captured : Vars} (h : c.fullMatch utterance = .ok (some captured)) :
    ∃ regex found, Regex.build? c.anchored = some regex ∧
      regex.find utterance.toList.toArray = some (some found) ∧
      captured = c.capturesOf regex utterance.toList.toArray found := by
  rcases c.fullMatch_cases utterance with ⟨stage, herror⟩ | ⟨regex, answer, hbuild, hfind, hok⟩
  · cases herror.symm.trans h
  · have hanswer := Except.ok.inj (hok.symm.trans h)
    obtain ⟨found, rfl, rfl⟩ := Option.map_eq_some_iff.mp hanswer
    exact ⟨regex, found, hbuild, hfind, rfl⟩

/-- If the compiled pattern is a regular expression also without its anchors, and does not set the
start of the match anew, then every match spans the utterance from its beginning to its end. -/
theorem span_eq_of_fullMatch [Regex.Engine] (p : Pattern) (ngrams : Ngrams) (vars : Vars)
    (extra : Option Registry) (debug : Bool) (t : Term) (hparse : parse p.expression = .ok t) :
    ∃ c, (p.compile ngrams vars extra debug).1 = .ok c ∧
      ∀ own, Regex.read? c.source = some own → 0 ∉ own.root.groups →
        ∀ utterance captured, c.fullMatch utterance = .ok (some captured) →
          ∃ regex found, Regex.build? c.anchored = some regex ∧
            regex.find utterance.toList.toArray = some (some found) ∧
            captured = c.capturesOf regex utterance.toList.toArray found ∧
            found.span = ⟨0, utterance.toList.length⟩ := by
  obtain ⟨c, hcompile, -, -⟩ := p.exists_compile_eq hparse ngrams vars extra debug
  refine ⟨c, hcompile, fun own hown hgroup utterance captured hmatch => ?_⟩
  obtain ⟨regex, found, hbuild, hfind, hcaptured⟩ := c.exists_find_of_fullMatch hmatch
  have hread := (Regex.build?_eq_some_iff.mp hbuild).2
  refine ⟨regex, found, hbuild, hfind, hcaptured, ?_⟩
  have hgroups : 0 ∉ Regex.groupsOf (Regex.Reader.pieceOf own.root) :=
    fun hmem => hgroup (Regex.groupsOf_pieceOf own.root hmem)
  exact Regex.span_of_find (Regex.root_of_anchored hown hread) hgroups hfind

def choiceTerm : Term := .assignment "x" (.regex "a|b")

theorem wellFormed_choiceTerm : choiceTerm.WellFormed := by
  have hx : IsRun isSymbolChar "x" := isRun_of_all (by decide) (by decide)
  have hbody : IsRun (· != '/') "a|b" := isRun_of_all (by decide) (by decide)
  exact ⟨hx, hbody⟩

open scoped Regex.Engine in
theorem span_eq_of_fullMatch_choiceTerm :
    ∃ c, ((⟨choiceTerm.surface, .empty⟩ : Pattern).compile .none .empty none false).1 = .ok c ∧
      c.source = "(?P<x>a|b)" ∧ ∃ regex found captured, c.fullMatch "b" = .ok (some captured) ∧
        captured.get? "x" = some "b" ∧ regex.find #['b'] = some (some found) ∧
          captured = c.capturesOf regex #['b'] found ∧ found.span = ⟨0, 1⟩ := by
  have hparse := parse_surface wellFormed_choiceTerm
  obtain ⟨c, hcompile, hspan⟩ := span_eq_of_fullMatch ⟨choiceTerm.surface, .empty⟩ .none .empty none
    false choiceTerm hparse
  have hc : c = ⟨"(?P<x>a|b)", ⟨[("x", "x")]⟩, none⟩ := by
    unfold Pattern.compile at hcompile
    rw [hparse] at hcompile
    exact (Except.ok.inj hcompile).symm
  subst hc
  have hown : ∃ own, Regex.read? "(?P<x>a|b)" = some own ∧ 0 ∉ own.root.groups := ⟨_, rfl, by decide⟩
  obtain ⟨own, hread, hgroup⟩ := hown
  obtain ⟨regex, found, -, hfind, hcaptured, heq⟩ := hspan own hread hgroup "b"
    (Dict.ofList [("x", "b")]) (by rfl)
  exact ⟨_, hcompile, rfl, regex, found, _, by rfl, by decide, hfind, hcaptured, heq⟩

open scoped Regex.Engine in
/-- A parenthesis that ends the group between the anchors lets a match end early. -/
example : ∃ regex found, Regex.read? (⟨"a)|(b", .empty, none⟩ : CompiledPattern).anchored = some regex ∧
    regex.find #['a', 'x'] = some (some found) ∧ found.span = ⟨0, 1⟩ := ⟨_, _, rfl, rfl, rfl⟩

end PhrasePattern
