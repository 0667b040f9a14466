import PhrasePattern.Proofs.Compilation.Consultation
import PhrasePattern.Session

/-! Who writes to the variables. Matching writes only when there is a match, and then only under the
symbols that the expression assigns, with texts taken out of the utterance. So the value of a variable
in a session is what was written last: set, removed, or captured by a match. -/
namespace PhrasePattern

theorem Term.exists_assignment_of_mem_assigned {t : Term} {symbol : String}
    (h : symbol ∈ Term.assigned (t.postOrder [])) :
    ∃ path operand, t.at? path = some (.assignment symbol operand) := by
  obtain ⟨⟨path, node⟩, hmem, hsymbol⟩ := List.mem_filterMap.mp h
  rw [Term.mem_postOrder_iff] at hmem
  cases node with
  | assignment other operand =>
    obtain rfl := Option.some.inj hsymbol
    exact ⟨path, operand, hmem⟩
  | _ => cases hsymbol

section captures

theorem Regex.Span.isInfix_of (text : Regex.Subject) (span : Regex.Span) :
    span.of text <:+: text.toList := by
  rw [Regex.Span.of, Array.toList_extract, List.extract_eq_take_drop]
  exact (List.take_prefix _ _).isInfix.trans (List.drop_suffix _ _).isInfix

theorem Regex.Match.isInfix_of_named? {found : Regex.Match} {regex : Regex} {text : Regex.Subject}
    {name value : String} (h : found.named? regex text name = some value) :
    value.toList <:+: text.toList := by
  obtain ⟨group, -, hcaptured⟩ := Option.bind_eq_some_iff.mp h
  obtain ⟨span, -, rfl⟩ := Option.map_eq_some_iff.mp hcaptured
  rw [String.toList_ofList]
  exact span.isInfix_of text

theorem CompiledPattern.get?_capturesOf {c : CompiledPattern} {regex : Regex} {text : Regex.Subject}
    {found : Regex.Match} {symbol value : String}
    (h : (c.capturesOf regex text found).get? symbol = some value) :
    symbol ∈ c.groups.entries.map (·.2) ∧ value.toList <:+: text.toList := by
  have hmem := Dict.mem_of_get?_ofList h
  obtain ⟨entry, hentry, hnamed⟩ := List.mem_filterMap.mp hmem
  obtain ⟨text, htext, heq⟩ := Option.map_eq_some_iff.mp hnamed
  obtain ⟨rfl, rfl⟩ := Prod.mk.inj heq
  exact ⟨List.mem_map.mpr ⟨entry, hentry, rfl⟩, found.isInfix_of_named? htext⟩

theorem CompiledPattern.get?_of_fullMatch [Regex.Engine] {c : CompiledPattern} {utterance : String}
    {captures : Vars}
    (h : c.fullMatch utterance = .ok (some captures)) {symbol value : String}
    (hget : captures.get? symbol = some value) :
    symbol ∈ c.groups.entries.map (·.2) ∧ value.toList <:+: utterance.toList := by
  rcases c.fullMatch_cases utterance with ⟨stage, herror⟩ | ⟨regex, answer, -, -, hok⟩
  · rw [herror] at h
    cases h
  · rw [hok] at h
    obtain ⟨found, -, rfl⟩ := Option.map_eq_some_iff.mp (Except.ok.inj h)
    exact get?_capturesOf hget

end captures

variable [Regex.Engine]

section patterns
variable {p : Pattern} {c : CompiledPattern} {ngrams : Ngrams} {vars : Vars}
  {extra : Option Registry} {debug : Bool}

theorem Pattern.exists_assignment_of_captured (h : (p.compile ngrams vars extra debug).1 = .ok c)
    {symbol : String} (hsymbol : symbol ∈ c.groups.entries.map (·.2)) :
    ∃ t path operand, parse p.expression = .ok t ∧ t.at? path = some (.assignment symbol operand) := by
  rw [compile_fst] at h
  split at h
  · cases h
  · rename_i t hparse
    obtain rfl := Except.ok.inj h
    rw [Compilation.pattern, Compilation.groups_ofTerm, GroupTable.symbols_bindAll_empty,
      List.mem_eraseDups] at hsymbol
    obtain ⟨path, operand, hat⟩ := Term.exists_assignment_of_mem_assigned hsymbol
    exact ⟨t, path, operand, hparse, hat⟩

variable (p vars extra debug)

theorem Pattern.matchUtterance_cases (utterance : String) :
    (∃ e log, p.matchUtterance utterance vars extra debug = (.error e, vars, log)) ∨
    (∃ c log, p.matchUtterance utterance vars extra debug = (.ok ⟨false, c, .empty⟩, vars, log)) ∨
    ∃ c captures log, (p.compile (.ofUtterance utterance) vars extra debug).1 = .ok c ∧
      c.fullMatch utterance = .ok (some captures) ∧
      p.matchUtterance utterance vars extra debug =
        (.ok ⟨true, c, captures⟩, vars.overlay captures, log) := by
  unfold matchUtterance
  split
  · exact .inl ⟨_, _, rfl⟩
  · rename_i c log hcompile
    dsimp only
    split
    · exact .inl ⟨_, _, rfl⟩
    · rename_i captured hmatch
      cases captured with
      | none => exact .inr (.inl ⟨_, _, rfl⟩)
      | some captures =>
        exact .inr (.inr ⟨c, captures, _, congrArg Prod.fst hcompile, hmatch, rfl⟩)

end patterns

namespace Session

def run (s : Session) : List Request → List (Request × Reply) × Session
  | [] => ([], s)
  | request :: others =>
    let (reply, _, next) := s.handle request
    let rest := next.run others
    ((request, reply) :: rest.1, rest.2)

/-- What a request that was answered so writes under the name: a value, or none if it removes the
variable. -/
def written? (name : String) : Request × Reply → Option (Option String)
  | (.set other value, _) => if name = other then some (some value) else none
  | (.unset other, _) => if name = other then some none else none
  | (.matching _ _ _, .matched result) =>
      if result.matched then (result.captures.get? name).map some else none
  | _ => none

theorem get?_handle_matching (s : Session) (utterance : String) (extra : Option Registry)
    (debug : Bool) (name : String) :
    (s.handle (.matching utterance extra debug)).2.2.vars.get? name =
      (written? name (.matching utterance extra debug,
        (s.handle (.matching utterance extra debug)).1)).getD (s.vars.get? name) := by
  unfold handle
  rcases s.pattern.matchUtterance_cases s.vars extra debug utterance with
    ⟨e, log, heq⟩ | ⟨c, log, heq⟩ | ⟨c, captures, log, -, -, heq⟩
  · simp only [heq]
    rfl
  · simp only [heq]
    rfl
  · simp only [heq, Dict.get?_overlay, written?, if_true]
    cases captures.get? name with
    | none => rfl
    | some value => rfl

/-- A request leaves a variable alone or writes to it. -/
theorem get?_handle (s : Session) (request : Request) (name : String) :
    (s.handle request).2.2.vars.get? name =
      (written? name (request, (s.handle request).1)).getD (s.vars.get? name) := by
  cases request with
  | set other value =>
    simp only [handle, written?, Dict.get?_insert]
    split <;> rfl
  | unset other =>
    simp only [handle, written?, Dict.get?_erase]
    split <;> rfl
  | matching utterance extra debug => exact s.get?_handle_matching utterance extra debug name
  | compile ngrams extra debug =>
    unfold handle
    dsimp only
    split <;> rfl
  | fullMatch utterance =>
    unfold handle
    dsimp only
    split
    · rfl
    · split <;> rfl
  | replace pattern => rfl
  | setMacros macros => rfl
  | describe => rfl

/-- The last of the writes counts. -/
theorem get?_run (s : Session) (requests : List Request) (name : String) :
    (s.run requests).2.vars.get? name =
      ((s.run requests).1.reverse.findSome? (written? name)).getD (s.vars.get? name) := by
  induction requests generalizing s with
  | nil => rfl
  | cons request others ih =>
    rw [run]
    dsimp only
    rw [ih, get?_handle, List.reverse_cons, List.findSome?_append]
    cases ((s.handle request).2.2.run others).1.reverse.findSome? (written? name) with
    | some value => rfl
    | none =>
      rw [List.findSome?_singleton]
      rfl

end Session

/-- An error or a miss leaves the variables as they are, and a miss has no captures. A match writes
exactly its captures over them; their names are symbols that the expression assigns, and their values
stand in the utterance. So after any requests to a session, a variable has the value that was written
last: set, or captured by a match. -/
theorem variables_written_by_matches (p : Pattern) (utterance : String) (vars : Vars)
    (extra : Option Registry) (debug : Bool) (s : Session) (requests : List Session.Request) :
    (∀ e, (p.matchUtterance utterance vars extra debug).1 = .error e →
      (p.matchUtterance utterance vars extra debug).2.1 = vars) ∧
    (∀ result, (p.matchUtterance utterance vars extra debug).1 = .ok result →
      result.matched = false →
        (p.matchUtterance utterance vars extra debug).2.1 = vars ∧ result.captures = .empty) ∧
    (∀ result, (p.matchUtterance utterance vars extra debug).1 = .ok result →
      result.matched = true →
        (∀ name, (p.matchUtterance utterance vars extra debug).2.1.get? name =
          (result.captures.get? name).or (vars.get? name)) ∧
        ∀ name value, result.captures.get? name = some value →
          (∃ t path operand, parse p.expression = .ok t ∧
            t.at? path = some (.assignment name operand)) ∧
          value.toList <:+: utterance.toList) ∧
    ∀ name, (s.run requests).2.vars.get? name =
      ((s.run requests).1.reverse.findSome? (Session.written? name)).getD (s.vars.get? name) := by
  have hsession := s.get?_run requests
  rcases p.matchUtterance_cases vars extra debug utterance with
    ⟨e, log, heq⟩ | ⟨c, log, heq⟩ | ⟨c, captures, log, hcompile, hmatch, heq⟩
  · rw [heq]
    exact ⟨fun _ _ => rfl, nofun, nofun, hsession⟩
  · rw [heq]
    refine ⟨nofun, ?_, ?_, hsession⟩
    · rintro result hresult -
      obtain rfl := Except.ok.inj hresult
      exact ⟨rfl, rfl⟩
    · rintro result hresult hmatched
      obtain rfl := Except.ok.inj hresult
      cases hmatched
  · rw [heq]
    refine ⟨nofun, ?_, ?_, hsession⟩
    · rintro result hresult hmatched
      obtain rfl := Except.ok.inj hresult
      cases hmatched
    · rintro result hresult -
      obtain rfl := Except.ok.inj hresult
      refine ⟨fun name => Dict.get?_overlay vars captures name, fun name value hget => ?_⟩
      obtain ⟨hsymbol, hinfix⟩ := CompiledPattern.get?_of_fullMatch hmatch hget
      exact ⟨Pattern.exists_assignment_of_captured hcompile hsymbol, hinfix⟩

end PhrasePattern
