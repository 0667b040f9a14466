import Mathlib.Data.List.Chain
import PhrasePattern.Proofs.Term.Agreement

/-! Which terms have a spelling. A name, the body of a regular expression and the text of a literal
have to be such that a token can carry them, operands have to be numerous enough, and a literal must
not stand where an earlier literal would have swallowed it. Every parsed term is of this kind. -/
namespace PhrasePattern
namespace Term

/-- Words with blanks between each two. -/
def IsLiteralText (text : String) : Prop :=
  ∃ (first : String) (more : List (String × String)), IsRun isWordChar first ∧
    (∀ part ∈ more, IsRun Text.isSpace part.1 ∧ IsRun isWordChar part.2) ∧
    text = first ++ String.join (more.map fun part => part.1 ++ part.2)

theorem isLiteralText_of_all {text : String} (hne : text ≠ "")
    (h : text.toList.all isWordChar = true) : IsLiteralText text :=
  ⟨text, [], isRun_of_all hne h, by simp, by simp⟩

mutual

/-- Well formed, and not a concatenation. -/
def IsOperand : Term → Prop
  | group form items => form.minimum ≤ items.length ∧ AreOperands items
  | negation operand => IsOperand operand
  | regex body => IsRun (· != '/') body
  | reference symbol => IsRun isSymbolChar symbol
  | assignment symbol operand => IsRun isSymbolChar symbol ∧ IsOperand operand
  | macroCall name arguments => IsRun isSymbolChar name ∧ AreOperands arguments
  | literal text => IsLiteralText text
  | concatenation _ => False

def AreOperands : List Term → Prop
  | [] => True
  | t :: others => IsOperand t ∧ AreOperands others

end

/-- The last thing written is a literal that more words would prolong. -/
def endsInLiteral : Term → Bool
  | literal _ => true
  | negation operand => operand.endsInLiteral
  | assignment _ operand => operand.endsInLiteral
  | _ => false

/-- A concatenation occurs at the root only, has two items or more, and none of them is a literal
behind one that ends in a literal. -/
def WellFormed : Term → Prop
  | concatenation items =>
    2 ≤ items.length ∧ AreOperands items ∧
      items.IsChain fun a b => ¬ (a.endsInLiteral = true ∧ b.isLiteral = true)
  | t => t.IsOperand

theorem WellFormed.of_isOperand {t : Term} (h : t.IsOperand) : t.WellFormed := by
  cases t with
  | concatenation items => exact h.elim
  | _ => exact h

end Term

namespace Grammar

def AllProper (ahead : List Lexeme) : Prop := ∀ l ∈ ahead, l.token.IsProper

theorem AllProper.of_suffix {ahead rest : List Lexeme} (h : AllProper ahead)
    (hrest : rest <:+ ahead) : AllProper rest :=
  fun l hl => h l (hrest.subset hl)

theorem AllProper.tail {l : Lexeme} {rest : List Lexeme} (h : AllProper (l :: rest)) :
    AllProper rest := h.of_suffix (List.suffix_cons l rest)

theorem AllProper.head {l : Lexeme} {rest : List Lexeme} (h : AllProper (l :: rest)) :
    l.token.IsProper := h l List.mem_cons_self

theorem allProper_placed {tokens : List Token} (position : Nat) (h : Token.Scannable tokens) :
    AllProper (Lexeme.placed position tokens) := by
  induction tokens generalizing position with
  | nil => simp [AllProper, Lexeme.placed]
  | cons token others ih =>
    obtain ⟨hproper, -, hothers⟩ := h
    intro l hl
    rcases List.mem_cons.mp hl with rfl | hl
    · exact hproper
    · exact ih _ hothers l hl

theorem isLiteralText_moreWords {text : String} {position : Nat} {ahead : List Lexeme}
    (h : AllProper (⟨.word text, position⟩ :: ahead)) :
    Term.IsLiteralText (text ++ (Term.moreWords ahead).1) := by
  suffices ∃ more : List (String × String),
      (∀ part ∈ more, IsRun Text.isSpace part.1 ∧ IsRun isWordChar part.2) ∧
        (Term.moreWords ahead).1 = String.join (more.map fun part => part.1 ++ part.2) by
    obtain ⟨more, hmore, heq⟩ := this
    exact ⟨text, more, h.head, hmore, by rw [heq]⟩
  replace h := h.tail
  fun_induction Term.moreWords ahead with
  | case1 gap place word position' rest ih =>
    obtain ⟨more, hmore, heq⟩ := ih h.tail.tail
    refine ⟨(gap, word) :: more, ?_, by simp [heq]⟩
    intro part hpart
    rcases List.mem_cons.mp hpart with rfl | hpart
    · exact ⟨h.head, h.tail.head⟩
    · exact hmore part hpart
  | case2 ahead => exact ⟨[], by simp, by simp⟩

section
variable {input : String}

mutual

theorem TermRule.isOperand {ahead rest : List Lexeme} {t : Term} :
    TermRule input ahead t rest → Tiles input ahead → AllProper ahead → t.IsOperand
  | .bracket _ _ _ operands enough, htiles, hproper =>
      ⟨enough, operands.areOperands htiles.tail hproper.tail⟩
  | .negation _ gap rule, htiles, hproper =>
      rule.isOperand (htiles.tail.of_suffix gap.suffix) (hproper.tail.of_suffix gap.suffix)
  | .regex _ _ _, _, hproper => hproper.head
  | .assignment _ _ _ rule, htiles, hproper =>
      ⟨hproper.head, rule.isOperand htiles.tail.tail hproper.tail.tail⟩
  | .reference _ _ _, _, hproper => hproper.head
  | .macroName _ _ _, _, hproper => ⟨hproper.head, trivial⟩
  | .macroEmpty _ _ _ _ _, _, hproper => ⟨hproper.head, trivial⟩
  | .macroCall _ _ _ operands, htiles, hproper =>
      ⟨hproper.head, operands.areOperands htiles.tail.tail hproper.tail.tail⟩
  | .literal words maximal verbatim, htiles, hproper => by
      obtain ⟨word, place, behind, heq⟩ := words.begins
      cases heq
      obtain ⟨rfl, -⟩ := htiles.literal_eq words maximal verbatim
      exact isLiteralText_moreWords hproper

theorem OperandsRule.areOperands {close : Token} {ahead rest : List Lexeme} {items : List Term} :
    OperandsRule input close ahead items rest → Tiles input ahead → AllProper ahead →
      Term.AreOperands items
  | .operands gap rule, htiles, hproper =>
      rule.areOperands (htiles.of_suffix gap.suffix) (hproper.of_suffix gap.suffix)

theorem ItemsRule.areOperands {close : Token} {ahead rest : List Lexeme} {items : List Term} :
    ItemsRule input close ahead items rest → Tiles input ahead → AllProper ahead →
      Term.AreOperands items
  | .last _ rule _, htiles, hproper => ⟨rule.isOperand htiles hproper, trivial⟩
  | .more rule separator others, htiles, hproper =>
      have hnext := separator.suffix.trans rule.leaves.1
      ⟨rule.isOperand htiles hproper,
        others.areOperands (htiles.of_suffix hnext) (hproper.of_suffix hnext)⟩

end

theorem TermRule.not_wordFollows {ahead rest : List Lexeme} {t : Term} :
    TermRule input ahead t rest → t.endsInLiteral = true → ¬ WordFollows rest
  | .negation _ _ rule, h => rule.not_wordFollows h
  | .assignment _ _ _ rule, h => rule.not_wordFollows h
  | .literal _ maximal _, _ => maximal

theorem TermRule.begins_word {ahead rest : List Lexeme} {t : Term}
    (d : TermRule input ahead t rest) (h : t.isLiteral = true) :
    ∃ text position behind, ahead = ⟨.word text, position⟩ :: behind := by
  cases d with
  | literal words => exact words.begins
  | _ => cases h

theorem TailRule.areOperands {ahead : List Lexeme} {items : List Term}
    (d : TailRule input ahead items) (htiles : Tiles input ahead) (hproper : AllProper ahead) :
    Term.AreOperands items := by
  induction d with
  | done => exact trivial
  | more text position rule others ih =>
    exact ⟨rule.isOperand htiles.tail hproper.tail,
      ih (htiles.tail.of_suffix rule.leaves.1) (hproper.tail.of_suffix rule.leaves.1)⟩

theorem TailRule.isChain {ahead : List Lexeme} {items : List Term}
    (d : TailRule input ahead items) (first : Term)
    (hfirst : first.endsInLiteral = true → ¬ WordFollows ahead) :
    (first :: items).IsChain fun a b => ¬ (a.endsInLiteral = true ∧ b.isLiteral = true) := by
  induction d generalizing first with
  | done => exact .singleton first
  | more text position rule others ih =>
    refine .cons_cons ?_ (ih _ rule.not_wordFollows)
    rintro ⟨hends, hliteral⟩
    obtain ⟨word, place, behind, rfl⟩ := rule.begins_word hliteral
    exact hfirst hends trivial

theorem ExpressionRule.wellFormed {ahead : List Lexeme} {t : Term}
    (d : ExpressionRule input ahead t) (htiles : Tiles input ahead) (hproper : AllProper ahead) :
    t.WellFormed := by
  cases d with
  | single gap rule tail =>
    exact .of_isOperand
      (rule.isOperand (htiles.of_suffix gap.suffix) (hproper.of_suffix gap.suffix))
  | several gap rule tail =>
    have hrest := rule.leaves.1.trans gap.suffix
    refine ⟨Nat.succ_le_succ (Nat.succ_le_succ (Nat.zero_le _)), ⟨?_, ?_⟩, ?_⟩
    · exact rule.isOperand (htiles.of_suffix gap.suffix) (hproper.of_suffix gap.suffix)
    · exact tail.areOperands (htiles.of_suffix hrest) (hproper.of_suffix hrest)
    · exact tail.isChain _ rule.not_wordFollows

end
end Grammar

/-- Parsing gives well-formed terms only. -/
theorem wellFormed_of_parse {input : String} {t : Term} (h : parse input = .ok t) :
    t.WellFormed := by
  obtain ⟨tokens, hscan, hspell, ⟨d⟩⟩ := Grammar.parse_eq_ok_iff_rule.mp h
  exact d.wellFormed (Grammar.tiles_placed hspell) (Grammar.allProper_placed 0 hscan)

end PhrasePattern
