import Mathlib
import PhrasePattern.Proofs.Term.Truncation

/-! Texts that can be completed. Where reading fails because the text ends, the constructs that are
open at the end can be finished: a pending term by a regular expression, an open list by one more
operand and its closing token. None of these tokens runs together with what stands before it. So a
text ends too early exactly if it is the beginning of an expression, and every other error is
final. -/
namespace PhrasePattern
namespace Grammar

/-- The tokens that finish what is open. -/
def isFiller : Token → Bool
  | .regex body => body == "a"
  | .comma => true
  | token => isClosing token

def IsFilling (more : List Token) : Prop := more ≠ [] ∧ ∀ token ∈ more, isFiller token = true

def closingTokens (close : Token) : List Token := [.comma, .regex "a", close]

theorem isFilling_closingTokens {close : Token} (h : isClosing close = true) :
    IsFilling (closingTokens close) := by
  refine ⟨List.cons_ne_nil _ _, fun token htoken => ?_⟩
  simp only [closingTokens, List.mem_cons, List.not_mem_nil, or_false] at htoken
  rcases htoken with rfl | rfl | rfl
  · rfl
  · rfl
  · cases token <;> first | rfl | cases h

theorem IsFilling.append {first second : List Token} (h : IsFilling first)
    (h' : IsFilling second) : IsFilling (first ++ second) := by
  refine ⟨fun he => h.1 (List.append_eq_nil_iff.mp he).1, fun token htoken => ?_⟩
  rcases List.mem_append.mp htoken with htoken | htoken
  · exact h.2 token htoken
  · exact h'.2 token htoken

theorem spelling_of_isFiller {token : Token} (h : isFiller token = true) :
    token.IsProper ∧ (token.absorbs = fun _ => false) ∧
      ∃ c cs, token.spelling.toList = c :: cs ∧ ∀ other : Token, other.absorbs c = false := by
  cases token with
  | regex body =>
    obtain rfl : body = "a" := by simpa [isFiller] using h
    refine ⟨isRun_of_all (by decide) (by decide), rfl, '/', ['a', '/'], rfl, fun other => ?_⟩
    cases other <;> rfl
  | comma => exact ⟨trivial, rfl, ',', [], rfl, fun other => by cases other <;> rfl⟩
  | closeBracket => exact ⟨trivial, rfl, ']', [], rfl, fun other => by cases other <;> rfl⟩
  | closeAngle => exact ⟨trivial, rfl, '>', [], rfl, fun other => by cases other <;> rfl⟩
  | closeBrace => exact ⟨trivial, rfl, '}', [], rfl, fun other => by cases other <;> rfl⟩
  | closeParen => exact ⟨trivial, rfl, ')', [], rfl, fun other => by cases other <;> rfl⟩
  | _ => cases h

theorem scannable_append {tokens more : List Token} (h : Token.Scannable tokens)
    (hmore : ∀ token ∈ more, isFiller token = true) : Token.Scannable (tokens ++ more) := by
  induction tokens with
  | nil =>
    induction more with
    | nil => exact trivial
    | cons token others ih =>
      obtain ⟨proper, plain, -⟩ := spelling_of_isFiller (hmore token List.mem_cons_self)
      exact (ih fun other hother => hmore other (List.mem_cons_of_mem _ hother)).cons proper plain
  | cons token others ih =>
    obtain ⟨proper, complete, hothers⟩ := h
    rw [List.cons_append]
    refine ⟨proper, ?_, ih hothers⟩
    rw [Token.spell_append]
    cases hspell : Token.spell others with
    | cons c cs =>
      rw [hspell] at complete
      exact complete
    | nil =>
      cases more with
      | nil => simp
      | cons filler more =>
        obtain ⟨-, -, c, cs, hspelling, habsorbs⟩ :=
          spelling_of_isFiller (hmore filler List.mem_cons_self)
        exact Token.head?_spell_cons filler hspelling (habsorbs token)

def Inert (extra : List Lexeme) : Prop :=
  ∀ l ∈ extra.head?, ∀ text, l.token ≠ .space text ∧ l.token ≠ .word text

theorem IsFilling.inert {more : List Token} {extra : List Lexeme} (h : IsFilling more)
    (hextra : extra.map (·.token) = more) (rest : List Lexeme) : Inert (extra ++ rest) := by
  subst hextra
  cases extra with
  | nil => exact absurd rfl h.1
  | cons l extra =>
    intro m hm text
    simp only [List.cons_append, List.head?_cons, Option.mem_some_iff] at hm
    subst hm
    have hfiller := h.2 l.token List.mem_cons_self
    constructor
    · intro he
      rw [he] at hfiller
      cases hfiller
    · intro he
      rw [he] at hfiller
      cases hfiller

theorem IsFilling.inert_self {more : List Token} {extra : List Lexeme} (h : IsFilling more)
    (hextra : extra.map (·.token) = more) : Inert extra := by
  simpa using h.inert hextra []

theorem not_wordFollows_append {rest extra : List Lexeme} (h : ¬ WordFollows rest)
    (hextra : Inert extra) : ¬ WordFollows (rest ++ extra) := by
  intro hfollows
  unfold WordFollows at hfollows
  split at hfollows
  · rename_i gap place text position behind heq
    rcases rest with _ | ⟨first, _ | ⟨second, rest⟩⟩
    · rw [List.nil_append] at heq
      subst heq
      exact (hextra _ rfl gap).1 rfl
    · cases heq
      exact (hextra _ rfl text).2 rfl
    · cases heq
      exact h trivial
  · exact hfollows

section
variable {input : String} (extra : List Lexeme)

def Gap.extend {ahead behind : List Lexeme} :
    Gap ahead behind → Gap (ahead ++ extra) (behind ++ extra)
  | .none _ => .none _
  | .space text position _ => .space text position _

def Words.extend {ahead rest : List Lexeme} {stop : Nat} :
    Words ahead stop rest → Words (ahead ++ extra) stop (rest ++ extra)
  | .last text position _ => .last text position _
  | .more text position gap place others => .more text position gap place others.extend

def Separator.extend {ahead next : List Lexeme} :
    Separator ahead next → Separator (ahead ++ extra) (next ++ extra)
  | .comma position before after => .comma position (before.extend extra) (after.extend extra)
  | .space text position _ => .space text position _

theorem IsSlice.extend {start stop : Nat} {text : String} (more : String)
    (h : IsSlice input start stop text) : IsSlice (input ++ more) start stop text := by
  obtain ⟨before, after, rfl, hstart, hstop⟩ := h
  exact ⟨before, after ++ more, String.append_assoc, hstart, hstop⟩

variable {extra} (more : String) (hextra : Inert extra)

mutual

/-- A derivation is also one in front of further lexemes, if these do not continue its last
literal. -/
def TermRule.extend {ahead rest : List Lexeme} {t : Term} :
    TermRule input ahead t rest → TermRule (input ++ more) (ahead ++ extra) t (rest ++ extra)
  | .bracket form position opens operands enough =>
      .bracket form position opens operands.extend enough
  | .negation position gap rule => .negation position (gap.extend extra) rule.extend
  | .regex body position _ => .regex body position _
  | .assignment symbol position place rule => .assignment symbol position place rule.extend
  | .reference symbol position _ => .reference symbol position _
  | .macroName name position _ => .macroName name position _
  | .macroEmpty name position opening closing gap =>
      .macroEmpty name position opening closing (gap.extend extra)
  | .macroCall name position opening operands => .macroCall name position opening operands.extend
  | .literal words maximal verbatim =>
      .literal (words.extend extra) (not_wordFollows_append maximal hextra) (verbatim.extend more)

def OperandsRule.extend {close : Token} {ahead rest : List Lexeme} {items : List Term} :
    OperandsRule input close ahead items rest →
      OperandsRule (input ++ more) close (ahead ++ extra) items (rest ++ extra)
  | .operands gap rule => .operands (gap.extend extra) rule.extend

def ItemsRule.extend {close : Token} {ahead rest : List Lexeme} {items : List Term} :
    ItemsRule input close ahead items rest →
      ItemsRule (input ++ more) close (ahead ++ extra) items (rest ++ extra)
  | .last position rule gap => .last position rule.extend (gap.extend extra)
  | .more rule separator others =>
      .more rule.extend (separator.extend extra) others.extend

end

end

/-- The tokens `more` finish the term that begins with the lexemes ahead, whatever stands behind
them. -/
def Completes (input : String) (ahead : List Lexeme) (more : List Token) : Prop :=
  IsFilling more ∧ ∀ (text : String) (extra rest : List Lexeme), extra.map (·.token) = more →
    ∃ t, Nonempty (TermRule (input ++ text) (ahead ++ (extra ++ rest)) t rest)

def CompletesOperands (input : String) (close : Token) (ahead : List Lexeme)
    (more : List Token) : Prop :=
  IsFilling more ∧ ∀ (text : String) (extra rest : List Lexeme), extra.map (·.token) = more →
    ∃ items, 2 ≤ items.length ∧
      Nonempty (OperandsRule (input ++ text) close (ahead ++ (extra ++ rest)) items rest)

def CompletesItems (input : String) (close : Token) (ahead : List Lexeme)
    (more : List Token) : Prop :=
  IsFilling more ∧ ∀ (text : String) (extra rest : List Lexeme), extra.map (·.token) = more →
    ∃ items, 2 ≤ items.length ∧
      Nonempty (ItemsRule (input ++ text) close (ahead ++ (extra ++ rest)) items rest)

section
variable {input : String} {finish : Nat} {close : Token} {ahead behind : List Lexeme} {t : Term}

theorem minimum_le_two (form : Bracket) : form.minimum ≤ 2 := by
  cases form <;> decide

theorem completes_nil : Completes input [] [.regex "a"] := by
  refine ⟨⟨List.cons_ne_nil _ _, by simp [isFiller]⟩, fun text extra rest hextra => ?_⟩
  obtain ⟨⟨token, position⟩, _, rfl, rfl, hnil⟩ := List.map_eq_cons_iff.mp hextra
  obtain rfl := List.map_eq_nil_iff.mp hnil
  exact ⟨_, ⟨.regex "a" position rest⟩⟩

theorem Completes.around {more : List Token} (h : Completes input behind more)
    (build : ∀ {text : String} {extra rest : List Lexeme} {t : Term},
      TermRule (input ++ text) (behind ++ extra) t rest →
        ∃ u, Nonempty (TermRule (input ++ text) (ahead ++ extra) u rest)) :
    Completes input ahead more := by
  refine ⟨h.1, fun text extra rest hextra => ?_⟩
  obtain ⟨t, ⟨rule⟩⟩ := h.2 text extra rest hextra
  exact build rule

theorem CompletesOperands.around {more : List Token}
    (h : CompletesOperands input close behind more)
    (build : ∀ {text : String} {extra rest : List Lexeme} {items : List Term}, 2 ≤ items.length →
      OperandsRule (input ++ text) close (behind ++ extra) items rest →
        ∃ u, Nonempty (TermRule (input ++ text) (ahead ++ extra) u rest)) :
    Completes input ahead more := by
  refine ⟨h.1, fun text extra rest hextra => ?_⟩
  obtain ⟨items, hcount, ⟨rule⟩⟩ := h.2 text extra rest hextra
  exact build hcount rule

theorem itemsRule_of_closingTokens {extra rest : List Lexeme} (gap : Gap behind [])
    (hextra : extra.map (·.token) = closingTokens close)
    (rule : TermRule input ahead t (behind ++ (extra ++ rest))) :
    Nonempty (ItemsRule input close ahead [t, .regex "a"] rest) := by
  obtain ⟨⟨_, comma⟩, _, rfl, rfl, hregex⟩ := List.map_eq_cons_iff.mp hextra
  obtain ⟨⟨_, position⟩, _, rfl, rfl, hclose⟩ := List.map_eq_cons_iff.mp hregex
  obtain ⟨⟨_, closing⟩, _, rfl, rfl, hnil⟩ := List.map_eq_cons_iff.mp hclose
  obtain rfl := List.map_eq_nil_iff.mp hnil
  exact ⟨.more rule (.comma comma (gap.extend _) (.none _))
    (.last closing (.regex "a" position _) (.none _))⟩

theorem Completes.items {more : List Token} (hclose : isClosing close = true)
    (h : Completes input ahead more) :
    CompletesItems input close ahead (more ++ closingTokens close) := by
  refine ⟨h.1.append (isFilling_closingTokens hclose), fun text extra rest hextra => ?_⟩
  obtain ⟨first, second, rfl, hfirst, hsecond⟩ := List.map_eq_append_iff.mp hextra
  obtain ⟨t, ⟨rule⟩⟩ := h.2 text first (second ++ rest) hfirst
  rw [List.append_assoc]
  exact ⟨[t, .regex "a"], Nat.le_refl 2, itemsRule_of_closingTokens (.none []) hsecond rule⟩

theorem completesItems_of_reads (hclose : isClosing close = true) (hahead : Tiles input ahead)
    (reads : Term.Reads finish ahead t behind) (spent : Term.skipSpace behind = []) :
    CompletesItems input close ahead (closingTokens close) := by
  have hfilling := isFilling_closingTokens hclose
  refine ⟨hfilling, fun text extra rest hextra => ?_⟩
  obtain ⟨rule⟩ := termRule_of_reads hahead reads
  obtain ⟨gap⟩ := gap_skipSpace behind
  rw [spent] at gap
  have inert := hfilling.inert hextra rest
  exact ⟨[t, .regex "a"], Nat.le_refl 2,
    itemsRule_of_closingTokens gap hextra (rule.extend text inert)⟩

theorem exists_space_of_startsWithSpace (h : Term.startsWithSpace ahead = true) :
    ∃ text position, ahead = ⟨.space text, position⟩ :: Term.skipSpace ahead := by
  unfold Term.startsWithSpace at h
  split at h
  · exact ⟨_, _, rfl⟩
  · cases h

theorem separator_of_comma {l : Lexeme} {rest : List Lexeme}
    (skip : Term.skipSpace behind = l :: rest) (comma : l.token = .comma) :
    Nonempty (Separator behind (Term.skipSpace rest)) := by
  obtain ⟨token, position⟩ := l
  cases comma
  obtain ⟨before⟩ := gap_skipSpace behind
  obtain ⟨after⟩ := gap_skipSpace rest
  rw [skip] at before
  exact ⟨.comma position before after⟩

theorem separator_of_space (spaced : Term.startsWithSpace behind = true) :
    Nonempty (Separator behind (Term.skipSpace behind)) := by
  obtain ⟨text, position, hbehind⟩ := exists_space_of_startsWithSpace spaced
  rw [hbehind]
  exact ⟨.space text position _⟩

theorem Tiles.of_separator {next : List Lexeme} (hahead : Tiles input ahead)
    (reads : Term.Reads finish ahead t behind) (separator : Separator behind next) :
    Tiles input next := by
  obtain ⟨rule⟩ := termRule_of_reads hahead reads
  exact hahead.of_suffix (separator.suffix.trans rule.leaves.1)

theorem CompletesItems.cons {next : List Lexeme} {more : List Token} (hahead : Tiles input ahead)
    (reads : Term.Reads finish ahead t behind) (separator : Separator behind next)
    (h : CompletesItems input close next more) : CompletesItems input close ahead more := by
  refine ⟨h.1, fun text extra rest hextra => ?_⟩
  obtain ⟨rule⟩ := termRule_of_reads hahead reads
  obtain ⟨items, hcount, ⟨others⟩⟩ := h.2 text extra rest hextra
  have inert := h.1.inert hextra rest
  exact ⟨t :: items, Nat.le_succ_of_le hcount,
    ⟨.more (rule.extend text inert) (separator.extend _) others⟩⟩

theorem CompletesItems.operands {more : List Token} (gap : Gap ahead behind)
    (h : CompletesItems input close behind more) : CompletesOperands input close ahead more := by
  refine ⟨h.1, fun text extra rest hextra => ?_⟩
  obtain ⟨items, hcount, ⟨rule⟩⟩ := h.2 text extra rest hextra
  exact ⟨items, hcount, ⟨.operands (gap.extend _) rule⟩⟩

end
end Grammar

namespace Term
open Grammar

section
variable {input : String} {finish : Nat}

mutual

/-- Whatever is open where the text ends can be finished, from the innermost construct outwards. -/
theorem Fails.completes {ahead stop : List Lexeme} {e : SyntaxError} :
    Fails finish ahead e stop → e.fault = .unexpectedEnd → Tiles input ahead →
      ∃ more, Completes input ahead more
  | .ended, _, _ => ⟨_, completes_nil⟩
  | .stray _, hend, _ => nomatch hend
  | .operands form opens fails, hend, hahead => by
      obtain ⟨more, h⟩ := fails.completes (isClosing_closing form) hend hahead.tail
      exact ⟨more, h.around fun hcount rule =>
        ⟨_, ⟨.bracket form _ opens rule (Nat.le_trans (minimum_le_two form) hcount)⟩⟩⟩
  | .tooFew _ _ _ _ _, hend, _ => nomatch hend
  | .negation fails, hend, hahead => by
      obtain ⟨gap⟩ := gap_skipSpace _
      obtain ⟨more, h⟩ := fails.completes hend (hahead.tail.of_suffix gap.suffix)
      exact ⟨more, h.around fun rule => ⟨_, ⟨.negation _ (gap.extend _) rule⟩⟩⟩
  | .assignment fails, hend, hahead => by
      obtain ⟨more, h⟩ := fails.completes hend hahead.tail.tail
      exact ⟨more, h.around fun rule => ⟨_, ⟨.assignment _ _ _ rule⟩⟩⟩
  | .arguments fails, hend, hahead => by
      obtain ⟨more, h⟩ := fails.completes rfl hend hahead.tail.tail
      exact ⟨more, h.around fun _ rule => ⟨_, ⟨.macroCall _ _ _ rule⟩⟩⟩

theorem OperandsFail.completes {close : Token} {ahead stop : List Lexeme} {e : SyntaxError} :
    OperandsFail finish close ahead e stop → isClosing close = true → e.fault = .unexpectedEnd →
      Tiles input ahead → ∃ more, CompletesOperands input close ahead more
  | .ended spent, hclose, _, _ => by
      obtain ⟨gap⟩ := gap_skipSpace ahead
      rw [spent] at gap
      exact ⟨_, (completes_nil.items hclose).operands gap⟩
  | .items skip _ fails, hclose, hend, hahead => by
      obtain ⟨gap⟩ := gap_skipSpace ahead
      rw [skip] at gap
      obtain ⟨more, h⟩ := fails.completes hclose hend (hahead.of_suffix gap.suffix)
      exact ⟨more, h.operands gap⟩

theorem ItemsFail.completes {close : Token} {ahead stop : List Lexeme} {e : SyntaxError} :
    ItemsFail finish close ahead e stop → isClosing close = true → e.fault = .unexpectedEnd →
      Tiles input ahead → ∃ more, CompletesItems input close ahead more
  | .item fails, hclose, hend, hahead => by
      obtain ⟨more, h⟩ := fails.completes hend hahead
      exact ⟨_, h.items hclose⟩
  | .ended reads spent, hclose, _, hahead => ⟨_, completesItems_of_reads hclose hahead reads spent⟩
  | .comma reads skip _ comma fails, hclose, hend, hahead => by
      obtain ⟨separator⟩ := separator_of_comma skip comma
      obtain ⟨more, h⟩ := fails.completes hclose hend (hahead.of_separator reads separator)
      exact ⟨more, h.cons hahead reads separator⟩
  | .space reads skip _ _ spaced fails, hclose, hend, hahead => by
      obtain ⟨separator⟩ := separator_of_space spaced
      rw [skip] at separator
      obtain ⟨more, h⟩ := fails.completes hclose hend (hahead.of_separator reads separator)
      exact ⟨more, h.cons hahead reads separator⟩
  | .stray _ _ _ _ _, _, hend, _ => nomatch hend

end

theorem TailFails.completes {ahead stop : List Lexeme} {e : SyntaxError}
    (h : TailFails finish ahead e stop) (hend : e.fault = .unexpectedEnd)
    (hahead : Tiles input ahead) : ∃ more, IsFilling more ∧
      ∀ (text : String) (extra : List Lexeme), extra.map (·.token) = more →
        ∃ items, Nonempty (TailRule (input ++ text) (ahead ++ extra) items) := by
  induction h with
  | item skip spaced fails =>
    obtain ⟨gap, position, heq⟩ := exists_space_of_startsWithSpace spaced
    rw [skip] at heq
    subst heq
    obtain ⟨more, hfilling, h⟩ := fails.completes hend hahead.tail
    refine ⟨more, hfilling, fun text extra hextra => ?_⟩
    obtain ⟨t, ⟨rule⟩⟩ := h text extra [] hextra
    rw [List.append_nil] at rule
    exact ⟨[t], ⟨.more gap position rule (.done (.none []))⟩⟩
  | more spaced reads fails ih =>
    obtain ⟨gap, position, heq⟩ := exists_space_of_startsWithSpace spaced
    rw [heq] at hahead ⊢
    obtain ⟨rule⟩ := termRule_of_reads hahead.tail reads
    obtain ⟨more, hfilling, h⟩ := ih hend (hahead.tail.of_suffix rule.leaves.1)
    refine ⟨more, hfilling, fun text extra hextra => ?_⟩
    obtain ⟨items, ⟨tail⟩⟩ := h text extra hextra
    have inert := hfilling.inert_self hextra
    exact ⟨_, ⟨.more gap position (rule.extend text inert) tail⟩⟩
  | stray => cases hend

theorem ExpressionFails.completes {ahead stop : List Lexeme} {e : SyntaxError}
    (h : ExpressionFails finish ahead e stop) (hend : e.fault = .unexpectedEnd)
    (hahead : Tiles input ahead) : ∃ more, IsFilling more ∧
      ∀ (text : String) (extra : List Lexeme), extra.map (·.token) = more →
        ∃ t, Nonempty (ExpressionRule (input ++ text) (ahead ++ extra) t) := by
  obtain ⟨gap⟩ := gap_skipSpace ahead
  have hskip := hahead.of_suffix gap.suffix
  cases h with
  | first fails =>
    obtain ⟨more, hfilling, h⟩ := fails.completes hend hskip
    refine ⟨more, hfilling, fun text extra hextra => ?_⟩
    obtain ⟨t, ⟨rule⟩⟩ := h text extra [] hextra
    rw [List.append_nil] at rule
    exact ⟨t, ⟨.single (gap.extend extra) rule (.done (.none []))⟩⟩
  | tail reads fails =>
    obtain ⟨rule⟩ := termRule_of_reads hskip reads
    obtain ⟨more, hfilling, h⟩ := fails.completes hend (hskip.of_suffix rule.leaves.1)
    refine ⟨more, hfilling, fun text extra hextra => ?_⟩
    obtain ⟨items, ⟨tail⟩⟩ := h text extra hextra
    have inert := hfilling.inert_self hextra
    cases items with
    | nil => exact ⟨_, ⟨.single (gap.extend extra) (rule.extend text inert) tail⟩⟩
    | cons second items => exact ⟨_, ⟨.several (gap.extend extra) (rule.extend text inert) tail⟩⟩

end
end Term

/-- A text that ends too early is the beginning of an expression. -/
theorem exists_parse_append {input : String} {tokens : List Token} {e : SyntaxError}
    (hscan : Token.Scannable tokens) (hspell : input.toList = Token.spell tokens)
    (h : parse input = .error e) (hend : e.fault = .unexpectedEnd) :
    ∃ more t, parse (input ++ more) = .ok t := by
  obtain ⟨stop, fails⟩ := (parse_eq_error_iff hscan hspell).mp h
  obtain ⟨more, hfilling, hmore⟩ := fails.completes hend (Grammar.tiles_placed hspell)
  obtain ⟨place, hplaced⟩ := Lexeme.placed_append 0 tokens more
  obtain ⟨t, hrule⟩ := hmore (String.ofList (Token.spell more)) (Lexeme.placed place more)
    (Grammar.map_token_placed place more)
  refine ⟨String.ofList (Token.spell more), t, Grammar.parse_eq_ok_iff_rule.mpr
    ⟨tokens ++ more, Grammar.scannable_append hscan hfilling.2, ?_, hplaced ▸ hrule⟩⟩
  rw [String.toList_append, hspell, String.toList_ofList, Token.spell_append]

/-- Of the texts that can be split into tokens and are not expressions, those that end too early are
those that can be continued to an expression. Every other error is final. -/
theorem unexpectedEnd_iff_exists_continuation (input : String) (lexemes : List Lexeme)
    (htokens : tokenize input = .ok lexemes) (e : SyntaxError) (h : parse input = .error e) :
    e.fault = .unexpectedEnd ↔ ∃ more t, parse (input ++ more) = .ok t := by
  obtain ⟨tokens, hscan, hspell, -⟩ := (tokenize_eq_ok_iff input lexemes).mp htokens
  constructor
  · exact exists_parse_append hscan hspell h
  · rintro ⟨more, t, hmore⟩
    exact fault_eq_unexpectedEnd hscan hspell h hmore

theorem unexpectedEnd_iff_exists_continuation_instances :
    ((∃ lexemes, tokenize "<a, [!$x=" = .ok lexemes) ∧
      parse "<a, [!$x=" = .error ⟨9, .unexpectedEnd⟩ ∧
      ∃ more t, parse ("<a, [!$x=" ++ more) = .ok t) ∧
    (∃ lexemes, tokenize "<a, [!b]" = .ok lexemes) ∧
      parse "<a, [!b]" = .error ⟨4, .tooFewOperands "rigid sequence" 2 1⟩ ∧
      ¬ ∃ more t, parse ("<a, [!b]" ++ more) = .ok t := by
  have hunfinished : ∃ lexemes, tokenize "<a, [!$x=" = .ok lexemes := ⟨_, by cbv⟩
  have hend : parse "<a, [!$x=" = .error ⟨9, .unexpectedEnd⟩ := by cbv
  have hclosed : ∃ lexemes, tokenize "<a, [!b]" = .ok lexemes := ⟨_, by cbv⟩
  have hfew : parse "<a, [!b]" = .error ⟨4, .tooFewOperands "rigid sequence" 2 1⟩ := by cbv
  refine ⟨⟨hunfinished, hend, ?_⟩, hclosed, hfew, ?_⟩
  · obtain ⟨lexemes, htokens⟩ := hunfinished
    exact (unexpectedEnd_iff_exists_continuation _ lexemes htokens _ hend).mp rfl
  · obtain ⟨lexemes, htokens⟩ := hclosed
    intro hmore
    cases (unexpectedEnd_iff_exists_continuation _ lexemes htokens _ hfew).mpr hmore

end PhrasePattern
