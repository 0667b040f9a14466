import Mathlib
import PhrasePattern.Proofs.Term.Failing
import PhrasePattern.Proofs.Token.Rejection
import PhrasePattern.Proofs.Token.Tiling

/-! Errors point at their cause. The byte offset of an error is a boundary of characters, and what the
fault speaks of can be seen there: a character that begins no token, a sigil without a name, a regular
expression that is empty or not closed, the end, a lexeme, or a bracket with too few operands. -/
namespace PhrasePattern

open String.Pos.Raw (get? extract prev IsValid)
open Grammar (Gap OperandsRule ItemsRule Tiles)

namespace Grammar

inductive EnclosedRule (input : String) (close : Token) :
    List Lexeme → List Term → List Lexeme → Prop
  | empty {ahead rest : List Lexeme} (position : Nat) (gap : Gap ahead (⟨close, position⟩ :: rest)) :
      EnclosedRule input close ahead [] rest
  | operands {ahead rest : List Lexeme} {items : List Term}
      (rule : OperandsRule input close ahead items rest) : EnclosedRule input close ahead items rest

theorem ItemsRule.exists_closing {input : String} {close : Token} {ahead rest : List Lexeme}
    {items : List Term} (h : ItemsRule input close ahead items rest) :
    ∃ position, ⟨close, position⟩ :: rest <:+ ahead := by
  induction items generalizing ahead with
  | nil => cases h
  | cons item items ih =>
    cases h with
    | last position rule gap => exact ⟨position, gap.suffix.trans rule.leaves.1⟩
    | more rule separator others =>
      obtain ⟨position, h⟩ := ih others
      exact ⟨position, h.trans (separator.suffix.trans rule.leaves.1)⟩

theorem EnclosedRule.exists_closing {input : String} {close : Token} {ahead rest : List Lexeme}
    {items : List Term} (h : EnclosedRule input close ahead items rest) :
    ∃ inside position, ahead = inside ++ ⟨close, position⟩ :: rest := by
  have hsuffix : ∃ position, ⟨close, position⟩ :: rest <:+ ahead := by
    cases h with
    | empty position gap => exact ⟨position, gap.suffix⟩
    | operands rule =>
      obtain ⟨gap, items⟩ := rule
      obtain ⟨position, h⟩ := items.exists_closing
      exact ⟨position, h.trans gap.suffix⟩
  obtain ⟨position, inside, heq⟩ := hsuffix
  exact ⟨inside, position, heq.symm⟩

theorem enclosedRule_of_reads {input : String} {finish : Nat} {close : Token}
    {ahead rest : List Lexeme} {items : List Term} (hahead : Tiles input ahead)
    (h : Term.ReadsOperands finish close ahead items rest) :
    EnclosedRule input close ahead items rest := by
  obtain ⟨⟨token, position⟩, behind, hskip, ⟨rfl, rfl, rfl⟩ | ⟨-, hitems⟩⟩ :=
    Term.readsOperands_iff.mp h
  · obtain ⟨gap⟩ := gap_skipSpace ahead
    rw [hskip] at gap
    exact .empty position gap
  · have hne : items ≠ [] := by
      obtain ⟨first, others, -, rfl, -⟩ := Term.readsItems_iff.mp hitems
      exact List.cons_ne_nil first others
    obtain ⟨rule⟩ := operandsRule_of_reads
      (fun next _ hnext => (sound_of_length_le next.length next (Nat.le_refl _) hnext).2)
      hahead h hne
    exact .operands rule

end Grammar

namespace SyntaxFault

/-- What there is to see in a text at the byte offset that goes with a fault. -/
def IsSeen (input : String) (position : Nat) : SyntaxFault → Prop
  | unexpectedChar c => get? input ⟨position⟩ = some c ∧ Token.NoneBegins c
  | missingSymbol sigil =>
      0 < position ∧ get? input (prev input ⟨position⟩) = some sigil ∧ (sigil = '$' ∨ sigil = '#') ∧
        ∀ c, get? input ⟨position⟩ = some c → isSymbolChar c = false
  | unterminatedRegex =>
      ∃ rest : String, extract input ⟨position⟩ ⟨input.utf8ByteSize⟩ = "/" ++ rest ∧
        '/' ∉ rest.toList
  | emptyRegex => extract input ⟨position⟩ ⟨position + 2⟩ = "//"
  | unexpectedEnd => position = input.utf8ByteSize
  | unexpectedToken _ found =>
      ∃ lexemes l, tokenize input = .ok lexemes ∧ l ∈ lexemes ∧ l.position = position ∧
        l.token ≠ .endOfInput ∧ found = l.token.description
  | tooFewOperands construct minimum found =>
      ∃ (form : Bracket) (items : List Term) (before inside rest : List Lexeme) (closing : Nat),
        tokenize input = .ok (before ++ ⟨form.opening, position⟩ ::
          (inside ++ ⟨form.closing, closing⟩ :: rest) ++ [⟨.endOfInput, input.utf8ByteSize⟩]) ∧
        Grammar.EnclosedRule input form.closing (inside ++ ⟨form.closing, closing⟩ :: rest) items
          rest ∧
        construct = form.kind ∧ minimum = form.minimum ∧ found = items.length ∧ found < minimum

end SyntaxFault

theorem get?_prev_singleton (before : String) (c : Char) (after : String) :
    get? (before ++ String.singleton c ++ after)
      (prev (before ++ String.singleton c ++ after)
        ⟨(before ++ String.singleton c).utf8ByteSize⟩) = some c := by
  have htext : (before ++ String.singleton c).toList = before.toList ++ [c] := by simp
  rw [append_eq_ofList, utf8ByteSize_eq_utf8Len, htext, String.prev_of_valid', List.dropLast_concat,
    List.append_assoc, String.get?_of_valid]
  rfl

namespace Scanner

theorem Rejects.isSeen {stop after : Scanner} {e : SyntaxError} (h : stop.Rejects e after)
    {input before : String} (hinput : input = before ++ String.ofList stop.rest)
    (hposition : stop.position = before.utf8ByteSize) :
    IsValid input ⟨e.position⟩ ∧ e.fault.IsSeen input e.position := by
  have hvalid : IsValid input ⟨stop.position⟩ :=
    String.Pos.Raw.isValid_iff_exists_append.mpr ⟨before, _, hinput, congrArg String.Pos.Raw.mk hposition⟩
  cases h with
  | @unexpectedChar c rest here alien =>
    refine ⟨hvalid, ?_, alien⟩
    rw [hposition, hinput, get?_append, here]
    simp
  | @missingSymbol sigil rest here isSigil nameless =>
    have hsize : (String.singleton sigil).utf8ByteSize = 1 := by
      rcases isSigil with rfl | rfl <;> rfl
    have hsplit : input = before ++ String.singleton sigil ++ String.ofList rest := by
      rw [hinput, here, ← List.singleton_append, String.ofList_append, ← String.singleton_eq_ofList,
        String.append_assoc]
    have hplace : stop.position + 1 = (before ++ String.singleton sigil).utf8ByteSize := by
      rw [String.utf8ByteSize_append, hsize, hposition]
    refine ⟨String.Pos.Raw.isValid_iff_exists_append.mpr ⟨_, _, hsplit, congrArg String.Pos.Raw.mk hplace⟩,
      Nat.succ_pos _, ?_, isSigil, fun c hc => ?_⟩
    · dsimp only
      rw [hplace, hsplit]
      exact get?_prev_singleton before sigil _
    · rw [hplace, hsplit, get?_append, String.toList_ofList] at hc
      exact nameless c hc
  | @unterminatedRegex rest here unclosed =>
    refine ⟨hvalid, String.ofList rest, ?_, by rwa [String.toList_ofList]⟩
    have hslash : "/" ++ String.ofList rest = String.ofList stop.rest := by
      rw [here, ← List.singleton_append, String.ofList_append]
    have hend := extract_append before (String.ofList stop.rest) ""
    rw [String.append_empty, ← hinput, ← String.utf8ByteSize_append, ← hinput] at hend
    rw [hslash, hposition]
    exact hend
  | @emptyRegex rest here =>
    refine ⟨hvalid, ?_⟩
    have hsplit : input = before ++ "//" ++ String.ofList rest := by
      rw [hinput, here, String.append_assoc, ← String.ofList_toList (s := "//"),
        ← String.ofList_append]
      rfl
    rw [SyntaxFault.IsSeen, hposition, hsplit]
    exact extract_append before "//" _

end Scanner

namespace Term

/-- What a failed reading of the lexemes reports. -/
inductive Reports (finish : Nat) (ahead : List Lexeme) : SyntaxError → Prop
  | ended : Reports finish ahead ⟨finish, .unexpectedEnd⟩
  | stray {l : Lexeme} (expected : String) (here : l ∈ ahead) :
      Reports finish ahead ⟨l.position, .unexpectedToken expected l.token.description⟩
  | tooFew {l : Lexeme} {rest stop : List Lexeme} (form : Bracket) (items : List Term)
      (here : l :: rest <:+ ahead) (opens : l.token = form.opening)
      (read : ReadsOperands finish form.closing rest items stop)
      (few : items.length < form.minimum) :
      Reports finish ahead ⟨l.position, .tooFewOperands form.kind form.minimum items.length⟩

section
variable {input : String} {finish : Nat} {ahead behind : List Lexeme} {e : SyntaxError}

theorem Reports.of_suffix (h : Reports finish behind e) (hbehind : behind <:+ ahead) :
    Reports finish ahead e := by
  cases h with
  | ended => exact .ended
  | stray expected here => exact .stray expected (hbehind.subset here)
  | tooFew form items here opens read few => exact .tooFew form items (here.trans hbehind) opens read few

theorem skipSpace_suffix (ahead : List Lexeme) : skipSpace ahead <:+ ahead :=
  (Grammar.gap_skipSpace ahead).elim Gap.suffix

theorem suffix_of_skipSpace {l : Lexeme} {rest : List Lexeme} (h : skipSpace ahead = l :: rest) :
    l :: rest <:+ ahead := h ▸ skipSpace_suffix ahead

theorem Reads.suffix {t : Term} (h : Reads finish ahead t behind) (hahead : Tiles input ahead) :
    behind <:+ ahead :=
  (Grammar.termRule_of_reads hahead h).elim fun rule => rule.leaves.1

-- A construct passes on the error of the part at which it fails, and that part is a later one of
-- the same lexemes.
mutual

theorem Fails.reports {ahead stop : List Lexeme} {e : SyntaxError} :
    Fails finish ahead e stop → Tiles input ahead → Reports finish ahead e
  | .ended, _ => .ended
  | .stray _, _ => .stray "term" List.mem_cons_self
  | .operands _ _ fails, hahead => (fails.reports hahead.tail).of_suffix (List.suffix_cons _ _)
  | .tooFew form items opens read few, _ => .tooFew form items (List.suffix_refl _) opens read few
  | .negation fails, hahead =>
      (fails.reports (hahead.tail.of_suffix (skipSpace_suffix _))).of_suffix
        ((skipSpace_suffix _).trans (List.suffix_cons _ _))
  | .assignment fails, hahead =>
      (fails.reports hahead.tail.tail).of_suffix
        ((List.suffix_cons _ _).trans (List.suffix_cons _ _))
  | .arguments fails, hahead =>
      (fails.reports hahead.tail.tail).of_suffix
        ((List.suffix_cons _ _).trans (List.suffix_cons _ _))

theorem OperandsFail.reports {close : Token} {ahead stop : List Lexeme} {e : SyntaxError} :
    OperandsFail finish close ahead e stop → Tiles input ahead → Reports finish ahead e
  | .ended _, _ => .ended
  | .items skip _ fails, hahead => by
      have hskip := suffix_of_skipSpace skip
      exact (fails.reports (hahead.of_suffix hskip)).of_suffix hskip

theorem ItemsFail.reports {close : Token} {ahead stop : List Lexeme} {e : SyntaxError} :
    ItemsFail finish close ahead e stop → Tiles input ahead → Reports finish ahead e
  | .item fails, hahead => fails.reports hahead
  | .ended _ _, _ => .ended
  | .comma read skip _ _ fails, hahead => by
      have hcomma := (suffix_of_skipSpace skip).trans (read.suffix hahead)
      have hnext := (skipSpace_suffix _).trans ((List.suffix_cons _ _).trans hcomma)
      exact (fails.reports (hahead.of_suffix hnext)).of_suffix hnext
  | .space read skip _ _ _ fails, hahead => by
      have hnext := (suffix_of_skipSpace skip).trans (read.suffix hahead)
      exact (fails.reports (hahead.of_suffix hnext)).of_suffix hnext
  | .stray read skip _ _ _, hahead =>
      .stray _ (((suffix_of_skipSpace skip).trans (read.suffix hahead)).subset List.mem_cons_self)

end

theorem TailFails.reports {stop : List Lexeme} (h : TailFails finish ahead e stop)
    (hahead : Tiles input ahead) : Reports finish ahead e := by
  induction h with
  | item skip spaced fails =>
    have hskip := suffix_of_skipSpace skip
    exact (fails.reports (hahead.of_suffix hskip)).of_suffix hskip
  | more spaced read fails ih =>
    have hskip := hahead.of_suffix (skipSpace_suffix _)
    have hbehind := (read.suffix hskip).trans (skipSpace_suffix _)
    exact (ih (hahead.of_suffix hbehind)).of_suffix hbehind
  | stray skip joined => exact .stray _ ((suffix_of_skipSpace skip).subset List.mem_cons_self)

theorem ExpressionFails.reports {stop : List Lexeme} (h : ExpressionFails finish ahead e stop)
    (hahead : Tiles input ahead) : Reports finish ahead e := by
  have hskip := hahead.of_suffix (skipSpace_suffix ahead)
  cases h with
  | first fails => exact (fails.reports hskip).of_suffix (skipSpace_suffix ahead)
  | tail read fails =>
    have hbehind := (read.suffix hskip).trans (skipSpace_suffix ahead)
    exact (fails.reports (hahead.of_suffix hbehind)).of_suffix hbehind

end

theorem Reports.isSeen {input : String} {tokens : List Token} {e : SyntaxError}
    (hscan : Token.Scannable tokens) (hspell : input.toList = Token.spell tokens)
    (h : Reports input.utf8ByteSize (Lexeme.placed 0 tokens) e) :
    IsValid input ⟨e.position⟩ ∧ e.fault.IsSeen input e.position := by
  have htokens := (tokenize_eq_ok_iff input _).mpr ⟨tokens, hscan, hspell, rfl⟩
  have hinput : input = "" ++ String.ofList (Token.spell tokens) := by
    rw [← hspell, String.ofList_toList, String.empty_append]
  have hvalid := Lexeme.isValid_placed hinput
  cases h with
  | ended => exact ⟨String.Pos.Raw.isValid_rawEndPos, rfl⟩
  | @stray l expected here =>
    refine ⟨hvalid l here, _, l, htokens, List.mem_append_left _ here, rfl, fun hend => ?_, rfl⟩
    have hproper := Grammar.allProper_placed 0 hscan l here
    rw [hend] at hproper
    exact hproper
  | @tooFew l rest stop form items here opens read few =>
    have henclosed := Grammar.enclosedRule_of_reads
      ((Grammar.tiles_placed hspell).of_suffix ((List.suffix_cons l rest).trans here)) read
    obtain ⟨inside, closing, rfl⟩ := henclosed.exists_closing
    refine ⟨hvalid l (here.subset List.mem_cons_self), form, items, ?_⟩
    obtain ⟨before, hbefore⟩ := here
    obtain ⟨token, position⟩ := l
    cases opens
    rw [← hbefore] at htokens
    exact ⟨before, inside, stop, closing, htokens, henclosed, rfl, rfl, rfl, few⟩

end Term

/-- The offset of a syntax error is a boundary of characters within the text, and the text shows there
what the fault says. -/
theorem fault_isSeen_of_parse (input : String) (e : SyntaxError) (h : parse input = .error e) :
    IsValid input ⟨e.position⟩ ∧ e.position ≤ input.utf8ByteSize ∧
      e.fault.IsSeen input e.position := by
  suffices IsValid input ⟨e.position⟩ ∧ e.fault.IsSeen input e.position from
    ⟨this.1, this.1.le_rawEndPos, this.2⟩
  cases htokens : tokenize input with
  | error fault =>
    have hfault : fault = e := by
      rw [parse, Cursor.start, htokens] at h
      exact Except.error.inj h
    subst hfault
    obtain ⟨tokens, stop, after, hrest, hposition, hrejects⟩ :=
      Scanner.exists_rejects_of_lexemes htokens
    have htext : input = String.ofList (Token.spell tokens) ++ String.ofList stop.rest := by
      rw [← String.ofList_append, ← hrest]
      exact String.ofList_toList.symm
    exact hrejects.isSeen htext (hposition.trans (Nat.zero_add _))
  | ok lexemes =>
    obtain ⟨tokens, hscan, hspell, -⟩ := (tokenize_eq_ok_iff input lexemes).mp htokens
    obtain ⟨stop, hfails⟩ := (parse_eq_error_iff hscan hspell).mp h
    exact (hfails.reports (Grammar.tiles_placed hspell)).isSeen hscan hspell

/-- Faults behind characters of two and three bytes, one of the scanner and two of the parser. -/
theorem fault_isSeen_of_parse_instances :
    (parse "[a\u3000$é" = .error ⟨6, .missingSymbol '$'⟩ ∧
      SyntaxFault.IsSeen "[a\u3000$é" 6 (.missingSymbol '$')) ∧
    (parse "[a\u3000<]" = .error ⟨6, .unexpectedToken "term" "`]`"⟩ ∧
      SyntaxFault.IsSeen "[a\u3000<]" 6 (.unexpectedToken "term" "`]`")) ∧
    parse "\x7b/é/ , [!b ]\x7d" = .error ⟨8, .tooFewOperands "rigid sequence" 2 1⟩ ∧
      SyntaxFault.IsSeen "\x7b/é/ , [!b ]\x7d" 8 (.tooFewOperands "rigid sequence" 2 1) := by
  have hsymbol : parse "[a\u3000$é" = .error ⟨6, .missingSymbol '$'⟩ := by cbv
  have htoken : parse "[a\u3000<]" = .error ⟨6, .unexpectedToken "term" "`]`"⟩ := by cbv
  have hfew :
      parse "\x7b/é/ , [!b ]\x7d" = .error ⟨8, .tooFewOperands "rigid sequence" 2 1⟩ := by cbv
  exact ⟨⟨hsymbol, (fault_isSeen_of_parse _ _ hsymbol).2.2⟩,
    ⟨htoken, (fault_isSeen_of_parse _ _ htoken).2.2⟩, hfew, (fault_isSeen_of_parse _ _ hfew).2.2⟩

end PhrasePattern
