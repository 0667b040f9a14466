import PhrasePattern.Proofs.Compilation.Noninterference
import PhrasePattern.Proofs.Session.Variables
import PhrasePattern.Proofs.Term.RoundTrip

/-! Matching an utterance a second time. The first match writes what it captured into the variables
from which the second compilation takes its values. It writes under symbols that the expression
assigns, and where none of these is referred to ahead of its assignment, no reference reads what was
written: the second match compiles the same pattern, finds the same, and writes the same again. -/
namespace PhrasePattern

namespace Dict
variable {α : Type}

theorem not_lt_of_lookup_eq {name name' : String} {value value' : α} {others others' : List (String × α)}
    (h : ((name, value) :: others).lookup name = ((name', value') :: others').lookup name)
    (hothers : ∀ entry ∈ others', name' < entry.1) : ¬ name < name' := by
  intro hlt
  have hmissing : ((name', value') :: others').lookup name = none := by
    refine lookup_eq_none_of_lt fun entry hentry => ?_
    rcases List.mem_cons.mp hentry with rfl | hentry
    · exact hlt
    · exact String.lt_trans hlt (hothers entry hentry)
  rw [hmissing, List.lookup_cons_self] at h
  cases h

/-- Entries in ascending order are known by what is found among them. -/
theorem eq_of_lookup_eq {first second : List (String × α)} (hfirst : Ascending first)
    (hsecond : Ascending second) (h : ∀ name, first.lookup name = second.lookup name) :
    first = second := by
  induction first generalizing second with
  | nil =>
    cases second with
    | nil => rfl
    | cons entry others =>
      have hentry := h entry.1
      rw [List.lookup_nil, List.lookup_cons_self] at hentry
      cases hentry
  | cons entry others ih =>
    obtain ⟨name, value⟩ := entry
    cases second with
    | nil =>
      have hname := h name
      rw [List.lookup_nil, List.lookup_cons_self] at hname
      cases hname
    | cons entry' others' =>
      obtain ⟨name', value'⟩ := entry'
      obtain ⟨hleast, hothers⟩ := List.pairwise_cons.mp hfirst
      obtain ⟨hleast', hothers'⟩ := List.pairwise_cons.mp hsecond
      obtain rfl : name = name' := String.le_antisymm
        (not_lt_of_lookup_eq (h name').symm hleast) (not_lt_of_lookup_eq (h name) hleast')
      have hvalue := h name
      rw [List.lookup_cons_self, List.lookup_cons_self] at hvalue
      cases hvalue
      congr 1
      refine ih hothers hothers' fun other => ?_
      by_cases hother : other = name
      · rw [hother, lookup_eq_none_of_lt hleast, lookup_eq_none_of_lt hleast']
      · have hbehind := h other
        rwa [List.lookup_cons, List.lookup_cons, beq_eq_false_iff_ne.mpr hother] at hbehind

theorem ext_get? {d e : Dict α} (h : ∀ name, d.get? name = e.get? name) : d = e := by
  obtain ⟨entries, ascending⟩ := d
  obtain ⟨entries', ascending'⟩ := e
  obtain rfl : entries = entries' := eq_of_lookup_eq ascending ascending' h
  rfl

theorem overlay_overlay (d upper : Dict α) : (d.overlay upper).overlay upper = d.overlay upper := by
  refine ext_get? fun name => ?_
  rw [get?_overlay, get?_overlay]
  cases upper.get? name with
  | none => rfl
  | some value => rfl

end Dict

/-- No symbol is referred to ahead of its first assignment. -/
def Term.AssignsFirst (t : Term) : Prop :=
  ∀ before path symbol after, t.postOrder [] = before ++ (path, .reference symbol) :: after →
    symbol ∈ Term.assigned (t.postOrder []) → symbol ∈ Term.assigned before

section
variable {p : Pattern} {t : Term} {c : CompiledPattern} {utterance : String} {ngrams : Ngrams}
  {vars captures : Vars} {extra : Option Registry} {debug : Bool}

theorem Pattern.mem_symbols_iff [Regex.Engine] (hparse : parse p.expression = .ok t)
    (hcompile : (p.compile ngrams vars extra debug).1 = .ok c) {symbol : String} :
    symbol ∈ c.groups.entries.map (·.2) ↔ symbol ∈ Term.assigned (t.postOrder []) := by
  rw [compile_of_parse hparse] at hcompile
  obtain rfl := Except.ok.inj hcompile
  rw [Compilation.pattern, Compilation.groups_ofTerm, GroupTable.symbols_bindAll_empty,
    List.mem_eraseDups]

theorem Term.AssignsFirst.get?_overlay (h : t.AssignsFirst) {before after : List (Path × Term)}
    {path : Path} {symbol : String}
    (hsplit : t.postOrder [] = before ++ (path, .reference symbol) :: after)
    (hfree : symbol ∉ Term.assigned before)
    (hcaptures : ∀ name value, captures.get? name = some value →
      name ∈ Term.assigned (t.postOrder [])) :
    (vars.overlay captures).get? symbol = vars.get? symbol := by
  rw [Dict.get?_overlay]
  cases hget : captures.get? symbol with
  | none => rfl
  | some value => exact absurd (h before path symbol after hsplit (hcaptures symbol value hget)) hfree

theorem Pattern.compile_overlay [Regex.Engine] (hparse : parse p.expression = .ok t) (hfirst : t.AssignsFirst)
    (hmacros : ∀ path name arguments, t.at? path = some (.macroCall name arguments) →
      (p.registry extra).get? name = none)
    (hcaptures : ∀ name value, captures.get? name = some value →
      name ∈ Term.assigned (t.postOrder [])) :
    (p.compile ngrams (vars.overlay captures) extra debug).1 =
      (p.compile ngrams vars extra debug).1 := by
  let a : Setting := ⟨p.macros, extra, vars.overlay captures, ngrams⟩
  let b : Setting := ⟨p.macros, extra, vars, ngrams⟩
  have hagree : a.AgreeBelow b t [] := by
    refine ⟨fun before q symbol after hsplit _ hfree => ?_, fun q name arguments hat _ => .inl ?_⟩
    · exact hfirst.get?_overlay hsplit hfree hcaptures
    · have hunknown := hmacros q name arguments hat
      exact ⟨(a.get?_environment name).symm.trans hunknown,
        (b.get?_environment name).symm.trans hunknown⟩
  exact hagree.compile_eq hparse debug

end

/-- If no symbol is referred to ahead of its assignment and no macro that is called is known, then an
utterance that was matched, with or without success, is matched again with the same result, and the
variables stay as the first time left them. -/
theorem matchUtterance_idempotent [Regex.Engine] (p : Pattern) (utterance : String) (vars : Vars)
    (extra : Option Registry) (debug : Bool) (t : Term) (result : MatchResult)
    (hparse : parse p.expression = .ok t) (hfirst : t.AssignsFirst)
    (hmacros : ∀ path name arguments, t.at? path = some (.macroCall name arguments) →
      (p.registry extra).get? name = none)
    (h : (p.matchUtterance utterance vars extra debug).1 = .ok result) :
    (p.matchUtterance utterance (p.matchUtterance utterance vars extra debug).2.1 extra debug).1 =
        .ok result ∧
      (p.matchUtterance utterance (p.matchUtterance utterance vars extra debug).2.1 extra debug).2.1 =
        (p.matchUtterance utterance vars extra debug).2.1 := by
  rcases p.matchUtterance_cases vars extra debug utterance with
    ⟨e, log, heq⟩ | ⟨c, log, heq⟩ | ⟨c, captures, log, hcompile, hmatch, heq⟩
  · rw [heq] at h
    cases h
  · -- a miss writes nothing, so the second match is the first one over again
    rw [heq] at h ⊢
    rw [heq]
    exact ⟨h, rfl⟩
  -- what is written was assigned, and nothing that is assigned is asked for
  · have hassigned : ∀ name value, captures.get? name = some value →
        name ∈ Term.assigned (t.postOrder []) := fun name value hget =>
      (Pattern.mem_symbols_iff hparse hcompile).mp (CompiledPattern.get?_of_fullMatch hmatch hget).1
    obtain ⟨hresult, hvars⟩ :=
      p.matchUtterance_eq_outcome utterance (vars.overlay captures) extra debug
    rw [Pattern.compile_overlay hparse hfirst hmacros hassigned, hcompile,
      Pattern.outcome_of_fullMatch hmatch] at hresult hvars
    rw [heq] at h ⊢
    refine ⟨hresult.trans h, hvars.trans ?_⟩
    exact Dict.overlay_overlay vars captures

def repeatingTerm : Term :=
  .concatenation [.assignment "x" (.group .disjunction [.literal "red", .macroCall "m" []]),
    .reference "y", .reference "x"]

theorem wellFormed_repeatingTerm : repeatingTerm.WellFormed := by
  have hx : IsRun isSymbolChar "x" := isRun_of_all (by decide) (by decide)
  have hy : IsRun isSymbolChar "y" := isRun_of_all (by decide) (by decide)
  have hm : IsRun isSymbolChar "m" := isRun_of_all (by decide) (by decide)
  have hred : Term.IsLiteralText "red" := Term.isLiteralText_of_all (by decide) (by decide)
  exact ⟨by decide, ⟨⟨hx, by decide, hred, ⟨hm, trivial⟩, trivial⟩, hy, hx, trivial⟩, by
    simp [Term.isLiteral]⟩

theorem assignsFirst_repeatingTerm : repeatingTerm.AssignsFirst := by
  intro before path symbol after hsplit hassigned
  have hsymbol : symbol = "x" := by
    simpa [repeatingTerm, Term.postOrder, Term.assigned, Term.assigned?] using hassigned
  subst hsymbol
  obtain ⟨rfl, -, -⟩ : before = [([0, 0, 0], .literal "red"), ([0, 0, 1], .macroCall "m" []),
      ([0, 0], .group .disjunction [.literal "red", .macroCall "m" []]),
      ([0], .assignment "x" (.group .disjunction [.literal "red", .macroCall "m" []])),
      ([1], .reference "y")] ∧ path = [2] ∧ after = [([], repeatingTerm)] := by
    simpa [repeatingTerm, Term.postOrder, Term.postOrders, List.cons_eq_append_iff] using hsplit
  exact List.mem_cons_self

def repeatingPattern : Pattern := ⟨repeatingTerm.surface, .empty⟩

def seededVars : Vars := Dict.ofList [("x", "old"), ("y", "b+")]

open scoped Regex.Engine in
theorem matchUtterance_idempotent_repeatingTerm :
    ∃ result, (repeatingPattern.matchUtterance "red bb red" seededVars none true).1 = .ok result ∧
      result.matched = true ∧ result.pattern.source = "(?P<x>(?:red|_m_MACRO_NOT_FOUND_)) b+ \\k<x>" ∧
      ∃ vars', (repeatingPattern.matchUtterance "red bb red" seededVars none true).2.1 = vars' ∧
        vars'.get? "x" = some "red" ∧ vars'.get? "y" = some "b+" ∧
        (repeatingPattern.matchUtterance "red bb red" vars' none true).1 = .ok result ∧
        (repeatingPattern.matchUtterance "red bb red" vars' none true).2.1 = vars' := by
  have hparse : parse repeatingPattern.expression = .ok repeatingTerm :=
    parse_surface wellFormed_repeatingTerm
  obtain ⟨c, hcompile, hsource, hmatch⟩ : ∃ c,
      (repeatingPattern.compile (.ofUtterance "red bb red") seededVars none true).1 = .ok c ∧
        c.source = "(?P<x>(?:red|_m_MACRO_NOT_FOUND_)) b+ \\k<x>" ∧
        c.fullMatch "red bb red" = .ok (some (Dict.ofList [("x", "red")])) :=
    ⟨_, Pattern.compile_of_parse hparse, rfl, rfl⟩
  obtain ⟨hresult, hvars⟩ :=
    repeatingPattern.matchUtterance_eq_outcome "red bb red" seededVars none true
  rw [hcompile, Pattern.outcome_of_fullMatch hmatch] at hresult hvars
  have hsecond := matchUtterance_idempotent repeatingPattern "red bb red" seededVars none true
    repeatingTerm _ hparse assignsFirst_repeatingTerm (fun _ _ _ _ => rfl) hresult
  exact ⟨_, hresult, rfl, hsource, _, rfl, by rw [hvars]; rfl, by rw [hvars]; rfl, hsecond⟩

end PhrasePattern
