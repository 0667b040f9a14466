import PhrasePattern.Proofs.Term.WellFormed
import PhrasePattern.Term.Surface

/-! A well-formed term is parsed back from what it is written as. The tokens of the written term are
the tokens of its parts with brackets, commas and single spaces put in, and none of these runs
together with a neighbour: a term starts with a character that no opening token and no space takes,
and is followed by one that cannot prolong a name or a word. -/
namespace PhrasePattern
namespace Term

theorem surfacesWith_none (index : Nat) (items : List Term) :
    surfacesWith (fun _ => none) index items = items.map surface := by
  induction items generalizing index with
  | nil => rw [surfacesWith, List.map_nil]
  | cons t others ih => rw [surfacesWith, ih, List.map_cons, surface]

def surfaces (items : List Term) : String := ", ".intercalate (items.map surface)

theorem surface_eq (t : Term) : t.surface =
    match t with
    | group form items => enclose form (surfaces items)
    | negation operand => "-" ++ operand.surface
    | regex body => "/" ++ body ++ "/"
    | reference symbol => "$" ++ symbol
    | assignment symbol operand => "$" ++ symbol ++ "=" ++ operand.surface
    | macroCall name [] => "#" ++ name
    | macroCall name (first :: others) => "#" ++ name ++ "(" ++ surfaces (first :: others) ++ ")"
    | literal text => text
    | concatenation items => " ".intercalate (items.map surface) := by
  cases t with
  | group form items =>
    rw [surface, surfaceWith, surfacesWith_none]
    rfl
  | negation | assignment =>
    rw [surface, surfaceWith]
    rfl
  | macroCall name arguments =>
    cases arguments with
    | nil => rw [surface, surfaceWith]
    | cons first others =>
      rw [surface, surfaceWith, surfacesWith_none]
      rfl
  | concatenation items => rw [surface, surfaceWith, surfacesWith_none]
  | regex | reference | literal => rw [surface, surfaceWith]

theorem surface_group (form : Bracket) (items : List Term) :
    (group form items).surface = enclose form (surfaces items) := surface_eq _

theorem surface_negation (operand : Term) :
    (negation operand).surface = "-" ++ operand.surface := surface_eq _

theorem surface_regex (body : String) : (regex body).surface = "/" ++ body ++ "/" := surface_eq _

theorem surface_reference (symbol : String) : (reference symbol).surface = "$" ++ symbol :=
  surface_eq _

theorem surface_assignment (symbol : String) (operand : Term) :
    (assignment symbol operand).surface = "$" ++ symbol ++ "=" ++ operand.surface := surface_eq _

theorem surface_macroName (name : String) : (macroCall name []).surface = "#" ++ name :=
  surface_eq _

theorem surface_macroCall (name : String) (first : Term) (others : List Term) :
    (macroCall name (first :: others)).surface =
      "#" ++ name ++ "(" ++ surfaces (first :: others) ++ ")" := surface_eq _

theorem surface_literal (text : String) : (literal text).surface = text := surface_eq _

theorem surface_concatenation (items : List Term) :
    (concatenation items).surface = " ".intercalate (items.map surface) := surface_eq _

end Term

namespace Token

/-- Whatever follows, the tokens are found again, unless it prolongs the last one. -/
def Joins (tokens : List Token) : Prop :=
  ∀ more, Scannable more → (∀ c ∈ (spell more).head?, isSymbolChar c = false) →
    Scannable (tokens ++ more)

def Opens (tokens : List Token) : Prop :=
  ∃ c rest, spell tokens = c :: rest ∧ Text.isSpace c = false ∧ c ≠ '!'

theorem Opens.head?_append {tokens : List Token} (h : Opens tokens) (more : List Token) :
    ∀ c ∈ (spell (tokens ++ more)).head?, Text.isSpace c = false ∧ c ≠ '!' := by
  obtain ⟨c, rest, hspell, hc⟩ := h
  intro d hd
  rw [spell_append, hspell, List.cons_append, List.head?_cons, Option.mem_some_iff] at hd
  exact hd ▸ hc

theorem head?_spell_cons {p : Char → Prop} (token : Token) {c : Char} {cs : List Char}
    {more : List Token} (h : token.spelling.toList = c :: cs) (hc : p c) :
    ∀ d ∈ (spell (token :: more)).head?, p d := by
  intro d hd
  rw [spell_cons, h, List.cons_append, List.head?_cons, Option.mem_some_iff] at hd
  exact hd ▸ hc

theorem Scannable.cons {token : Token} {more : List Token} (h : Scannable more)
    (proper : token.IsProper) (plain : token.absorbs = fun _ => false) :
    Scannable (token :: more) :=
  ⟨proper, fun c _ => congrFun plain c, h⟩

theorem joins_singleton {token : Token} (proper : token.IsProper)
    (absorbs : ∀ c, isSymbolChar c = false → token.absorbs c = false) : Joins [token] :=
  fun _ hmore hhead => ⟨proper, fun c hc => absorbs c (hhead c hc), hmore⟩

theorem isWordChar_eq_false {c : Char} (h : isSymbolChar c = false) : isWordChar c = false := by
  simp only [isSymbolChar, Bool.or_eq_false_iff] at h
  exact h.1.1

def laterWords : List (String × String) → List Token
  | [] => []
  | part :: others => .space part.1 :: .word part.2 :: laterWords others

theorem spell_laterWords (parts : List (String × String)) :
    spell (laterWords parts) =
      (String.join (parts.map fun part => part.1 ++ part.2)).toList := by
  induction parts with
  | nil => rfl
  | cons part others ih => simp [laterWords, ih, spelling]

theorem joins_words {first : String} {parts : List (String × String)}
    (hfirst : IsRun isWordChar first)
    (hparts : ∀ part ∈ parts, IsRun Text.isSpace part.1 ∧ IsRun isWordChar part.2) :
    Joins (.word first :: laterWords parts) := by
  induction parts generalizing first with
  | nil => exact joins_singleton hfirst fun c hc => isWordChar_eq_false hc
  | cons part others ih =>
    intro more hmore hhead
    obtain ⟨hgap, hword⟩ := hparts part List.mem_cons_self
    have hothers := ih hword (fun p hp => hparts p (List.mem_cons_of_mem _ hp)) more hmore hhead
    obtain ⟨g, gs, hgaplist, hg, -⟩ := hgap.toList_eq_cons
    obtain ⟨w, ws, hwordlist, hw, -⟩ := hword.toList_eq_cons
    refine ⟨hfirst, head?_spell_cons (.space part.1) hgaplist ?_, hgap,
      head?_spell_cons (.word part.2) hwordlist ?_, hothers⟩
    · by_contra hne
      rw [Scanner.isSpace_eq_false_of_isWordChar (Bool.not_eq_false _ ▸ hne)] at hg
      cases hg
    · exact Scanner.isSpace_eq_false_of_isWordChar hw

end Token

theorem Lexeme.placed_append (position : Nat) (first second : List Token) :
    ∃ place, placed position (first ++ second) = placed position first ++ placed place second := by
  induction first generalizing position with
  | nil => exact ⟨position, rfl⟩
  | cons token others ih =>
    obtain ⟨place, hplace⟩ := ih (position + token.spelling.utf8ByteSize)
    exact ⟨place, by rw [List.cons_append, placed, hplace, placed, List.cons_append]⟩

namespace Grammar

theorem moreWords_eq_of_not_wordFollows {rest : List Lexeme} (h : ¬ WordFollows rest) :
    Term.moreWords rest = ("", rest) := by
  unfold Term.moreWords
  split
  · exact absurd trivial h
  · rfl

theorem moreWords_laterWords (position : Nat) (parts : List (String × String))
    {rest : List Lexeme} (h : ¬ WordFollows rest) :
    Term.moreWords (Lexeme.placed position (Token.laterWords parts) ++ rest) =
      (String.join (parts.map fun part => part.1 ++ part.2), rest) := by
  induction parts generalizing position with
  | nil => exact moreWords_eq_of_not_wordFollows h
  | cons part others ih => simp [Token.laterWords, Lexeme.placed, Term.moreWords, ih]

/-- The tokens spell the term, keep apart from what stands around them, and derive the term. -/
structure Writes (t : Term) (tokens : List Token) : Prop where
  spelled : Token.spell tokens = t.surface.toList
  opens : Token.Opens tokens
  joins : Token.Joins tokens
  bare : t.isLiteral = false → ∀ text, tokens.head? ≠ some (.word text)
  derived : ∀ (input : String) (position : Nat) (rest : List Lexeme),
    Tiles input (Lexeme.placed position tokens ++ rest) →
      (t.endsInLiteral = true → ¬ WordFollows rest) →
      Nonempty (TermRule input (Lexeme.placed position tokens ++ rest) t rest)

structure WritesItems (items : List Term) (tokens : List Token) : Prop where
  spelled : Token.spell tokens = (Term.surfaces items).toList
  opens : Token.Opens tokens
  joins : Token.Joins tokens
  derived : ∀ (input : String) (position place : Nat) (close : Token) (rest : List Lexeme),
    isClosing close = true →
      Tiles input (Lexeme.placed position tokens ++ ⟨close, place⟩ :: rest) →
      Nonempty (ItemsRule input close (Lexeme.placed position tokens ++ ⟨close, place⟩ :: rest)
        items rest)

theorem writes_literal {text : String} (h : Term.IsLiteralText text) :
    ∃ tokens, Writes (.literal text) tokens := by
  obtain ⟨first, parts, hfirst, hparts, rfl⟩ := h
  refine ⟨.word first :: Token.laterWords parts, ?_, ?_, Token.joins_words hfirst hparts, ?_, ?_⟩
  · rw [Token.spell_cons, Token.spell_laterWords, Term.surface_literal, String.toList_append,
      Token.spelling]
  · obtain ⟨c, cs, hlist, hc, -⟩ := hfirst.toList_eq_cons
    refine ⟨c, cs ++ Token.spell (Token.laterWords parts), ?_,
      Scanner.isSpace_eq_false_of_isWordChar hc, ?_⟩
    · rw [Token.spell_cons, Token.spelling, hlist, List.cons_append]
    · rintro rfl
      exact absurd hc (by decide)
  · intro hliteral
    cases hliteral
  · intro input position rest htiles hrest
    rw [Lexeme.placed, List.cons_append] at htiles ⊢
    have hrule := htiles.literalRule
    rw [moreWords_laterWords _ parts (hrest rfl)] at hrule
    exact hrule

theorem writes_regex {body : String} (h : IsRun (· != '/') body) :
    Writes (.regex body) [.regex body] where
  spelled := by
    rw [Term.surface_regex]
    simp [Token.spelling]
  opens := ⟨'/', body.toList ++ ['/'], by simp [Token.spelling], by decide, by decide⟩
  joins := Token.joins_singleton h fun _ _ => rfl
  bare := by simp
  derived := fun _ position rest _ _ => ⟨.regex body position rest⟩

theorem writes_reference {symbol : String} (h : IsRun isSymbolChar symbol) :
    Writes (.reference symbol) [.variableName symbol] where
  spelled := by
    rw [Term.surface_reference]
    simp [Token.spelling]
  opens := ⟨'$', symbol.toList, by simp [Token.spelling], by decide, by decide⟩
  joins := Token.joins_singleton h fun _ hc => hc
  bare := by simp
  derived := fun _ position rest _ _ => ⟨.reference symbol position rest⟩

theorem writes_macroName {name : String} (h : IsRun isSymbolChar name) :
    Writes (.macroCall name []) [.macroName name] where
  spelled := by
    rw [Term.surface_macroName]
    simp [Token.spelling]
  opens := ⟨'#', name.toList, by simp [Token.spelling], by decide, by decide⟩
  joins := Token.joins_singleton h fun _ hc => hc
  bare := by simp
  derived := fun _ position rest _ _ => ⟨.macroName name position rest⟩

theorem Writes.negation {operand : Term} {tokens : List Token} (w : Writes operand tokens) :
    Writes (.negation operand) (.minus :: tokens) where
  spelled := by
    rw [Term.surface_negation]
    simp [Token.spelling, w.spelled]
  opens := ⟨'-', Token.spell tokens, by simp [Token.spelling], by decide, by decide⟩
  joins := fun more hmore hhead => (w.joins more hmore hhead).cons trivial rfl
  bare := by simp
  derived := by
    intro input position rest htiles hends
    obtain ⟨rule⟩ := w.derived input _ rest htiles.tail hends
    exact ⟨.negation position (.none _) rule⟩

theorem Writes.assignment {symbol : String} {operand : Term} {tokens : List Token}
    (h : IsRun isSymbolChar symbol) (w : Writes operand tokens) :
    Writes (.assignment symbol operand) (.variableName symbol :: .equals :: tokens) where
  spelled := by
    rw [Term.surface_assignment]
    simp [Token.spelling, w.spelled]
  opens := ⟨'$', symbol.toList ++ '=' :: Token.spell tokens, by simp [Token.spelling], by decide,
    by decide⟩
  joins := by
    intro more hmore hhead
    have hequals : Token.Scannable (.equals :: (tokens ++ more)) :=
      (w.joins more hmore hhead).cons trivial rfl
    exact ⟨h, Token.head?_spell_cons .equals rfl rfl, hequals⟩
  bare := by simp
  derived := by
    intro input position rest htiles hends
    obtain ⟨rule⟩ := w.derived input _ rest htiles.tail.tail hends
    exact ⟨.assignment symbol position _ rule⟩

theorem WritesItems.joins_closing {items : List Term} {tokens : List Token}
    (w : WritesItems items tokens) (close : Token) (hclose : isClosing close = true) {more : List Token}
    (hmore : Token.Scannable more) : Token.Scannable (tokens ++ close :: more) := by
  have hscan : Token.Scannable (close :: more) := by
    cases close with
    | closeBracket | closeAngle | closeBrace | closeParen => exact hmore.cons trivial rfl
    | _ => cases hclose
  refine w.joins _ hscan ?_
  cases close with
  | closeBracket | closeAngle | closeBrace | closeParen => exact Token.head?_spell_cons _ rfl rfl
  | _ => cases hclose

theorem WritesItems.derived_closing {items : List Term} {tokens : List Token} {close : Token}
    (w : WritesItems items tokens) (hclose : isClosing close = true) (input : String)
    (position : Nat) {rest : List Lexeme}
    (htiles : Tiles input (Lexeme.placed position (tokens ++ [close]) ++ rest)) :
    Nonempty (OperandsRule input close (Lexeme.placed position (tokens ++ [close]) ++ rest)
      items rest) := by
  obtain ⟨place, hplace⟩ := Lexeme.placed_append position tokens [close]
  rw [hplace, List.append_assoc] at htiles ⊢
  obtain ⟨rule⟩ := w.derived input position place close rest hclose htiles
  exact ⟨.operands (.none _) rule⟩

theorem WritesItems.group {form : Bracket} {items : List Term} {tokens : List Token}
    (enough : form.minimum ≤ items.length) (w : WritesItems items tokens) :
    Writes (.group form items) (form.opening :: (tokens ++ [form.closing])) where
  spelled := by
    rw [Term.surface_group, Term.enclose]
    simp [w.spelled]
  opens := by
    cases form with
    | flexible => exact ⟨'[', _, rfl, by decide, by decide⟩
    | rigid => exact ⟨'[', _, rfl, by decide, by decide⟩
    | conjunction => exact ⟨'<', _, rfl, by decide, by decide⟩
    | disjunction => exact ⟨'\x7b', _, rfl, by decide, by decide⟩
  joins := by
    intro more hmore _
    have hscan := w.joins_closing form.closing (isClosing_closing form) hmore
    rw [List.cons_append, List.append_assoc]
    cases form with
    | flexible =>
      refine ⟨trivial, fun c hc => ?_, hscan⟩
      exact beq_eq_false_iff_ne.mpr (w.opens.head?_append _ c hc).2
    | rigid | conjunction | disjunction => exact hscan.cons trivial rfl
  bare := by
    intro _ text
    cases form <;> simp [Bracket.opening]
  derived := by
    intro input position rest htiles _
    obtain ⟨rule⟩ := w.derived_closing (isClosing_closing form) input _ htiles.tail
    exact ⟨.bracket form position rfl rule enough⟩

theorem WritesItems.macroCall {name : String} {first : Term} {others : List Term}
    {tokens : List Token} (h : IsRun isSymbolChar name) (w : WritesItems (first :: others) tokens) :
    Writes (.macroCall name (first :: others))
      (.macroName name :: .openParen :: (tokens ++ [.closeParen])) where
  spelled := by
    rw [Term.surface_macroCall]
    simp [Token.spelling, w.spelled]
  opens := ⟨'#', name.toList ++ '(' :: (Token.spell tokens ++ [')']), by simp [Token.spelling],
    by decide, by decide⟩
  joins := by
    intro more hmore _
    have hscan := w.joins_closing .closeParen rfl hmore
    rw [List.cons_append, List.cons_append, List.append_assoc]
    exact ⟨h, Token.head?_spell_cons .openParen rfl rfl, hscan.cons trivial rfl⟩
  bare := by simp
  derived := by
    intro input position rest htiles _
    obtain ⟨rule⟩ := w.derived_closing rfl input _ htiles.tail.tail
    exact ⟨.macroCall name position _ rule⟩

theorem Writes.single {t : Term} {tokens : List Token} (w : Writes t tokens) :
    WritesItems [t] tokens where
  spelled := by
    rw [w.spelled, Term.surfaces, List.map_singleton, String.intercalate_singleton]
  opens := w.opens
  joins := w.joins
  derived := by
    intro input position place close rest hclose htiles
    have hbare : ¬ WordFollows (⟨close, place⟩ :: rest) := by
      cases close with
      | space => cases hclose
      | _ => exact id
    obtain ⟨rule⟩ := w.derived input position _ htiles fun _ => hbare
    exact ⟨.last place rule (.none _)⟩

theorem Writes.before {t u : Term} {items : List Term} {tokens more : List Token}
    (w : Writes t tokens) (others : WritesItems (u :: items) more) :
    WritesItems (t :: u :: items) (tokens ++ .comma :: .space " " :: more) where
  spelled := by
    rw [Term.surfaces, List.map_cons, List.map_cons, String.intercalate_cons_cons, ← List.map_cons,
      ← Term.surfaces]
    simp [Token.spelling, w.spelled, others.spelled]
  opens := by
    obtain ⟨c, rest, hspell, hc⟩ := w.opens
    exact ⟨c, rest ++ Token.spell (.comma :: .space " " :: more), by simp [hspell], hc⟩
  joins := by
    intro next hnext hhead
    have hspace : Token.Scannable (.space " " :: (more ++ next)) :=
      ⟨isRun_of_all (by decide) (by decide), fun c hc => (others.opens.head?_append next c hc).1,
        others.joins next hnext hhead⟩
    rw [List.append_assoc]
    exact w.joins _ (hspace.cons trivial rfl) (Token.head?_spell_cons .comma rfl rfl)
  derived := by
    intro input position place close rest hclose htiles
    obtain ⟨comma, hcomma⟩ := Lexeme.placed_append position tokens (.comma :: .space " " :: more)
    rw [hcomma, List.append_assoc] at htiles ⊢
    obtain ⟨rule⟩ := w.derived input position _ htiles fun _ => id
    obtain ⟨rules⟩ := others.derived input _ place close rest hclose
      (htiles.of_suffix rule.leaves.1).tail.tail
    exact ⟨.more rule (.comma comma (.none _) (.space " " _ _)) rules⟩

mutual

theorem exists_writes : ∀ t : Term, t.IsOperand → ∃ tokens, Writes t tokens
  | .group form items, h => by
      have hne : items ≠ [] := by
        rintro rfl
        cases form <;> simp [Term.IsOperand, Bracket.minimum] at h
      obtain ⟨tokens, w⟩ := exists_writesItems items h.2 hne
      exact ⟨_, w.group h.1⟩
  | .negation operand, h => by
      obtain ⟨tokens, w⟩ := exists_writes operand h
      exact ⟨_, w.negation⟩
  | .regex _, h => ⟨_, writes_regex h⟩
  | .reference _, h => ⟨_, writes_reference h⟩
  | .assignment _ operand, h => by
      obtain ⟨tokens, w⟩ := exists_writes operand h.2
      exact ⟨_, w.assignment h.1⟩
  | .macroCall _ [], h => ⟨_, writes_macroName h.1⟩
  | .macroCall _ (first :: others), h => by
      obtain ⟨tokens, w⟩ := exists_writesItems (first :: others) h.2 (List.cons_ne_nil _ _)
      exact ⟨_, w.macroCall h.1⟩
  | .literal _, h => writes_literal h
  | .concatenation _, h => h.elim

theorem exists_writesItems : ∀ items : List Term, Term.AreOperands items → items ≠ [] →
    ∃ tokens, WritesItems items tokens
  | [], _, h => absurd rfl h
  | [t], h, _ => by
      obtain ⟨tokens, w⟩ := exists_writes t h.1
      exact ⟨_, w.single⟩
  | t :: u :: items, h, _ => by
      obtain ⟨tokens, w⟩ := exists_writes t h.1
      obtain ⟨more, others⟩ := exists_writesItems (u :: items) h.2 (List.cons_ne_nil _ _)
      exact ⟨_, w.before others⟩

end

structure WritesTail (first : Term) (items : List Term) (tokens : List Token) : Prop where
  spelled : Token.spell tokens = (String.join (items.map fun t => " " ++ t.surface)).toList
  scannable : Token.Scannable tokens
  apart : ∀ c ∈ (Token.spell tokens).head?, isSymbolChar c = false
  bare : first.endsInLiteral = true → ∀ position, ¬ WordFollows (Lexeme.placed position tokens)
  derived : ∀ (input : String) (position : Nat), Tiles input (Lexeme.placed position tokens) →
    Nonempty (TailRule input (Lexeme.placed position tokens) items)

theorem writesTail_nil (first : Term) : WritesTail first [] [] where
  spelled := rfl
  scannable := trivial
  apart := by simp
  bare := fun _ _ => id
  derived := fun _ _ _ => ⟨.done (.none _)⟩

theorem WritesTail.after {first t : Term} {items : List Term} {tokens more : List Token}
    (w : Writes t tokens) (others : WritesTail t items more)
    (h : ¬ (first.endsInLiteral = true ∧ t.isLiteral = true)) :
    WritesTail first (t :: items) (.space " " :: (tokens ++ more)) where
  spelled := by simp [Token.spelling, w.spelled, others.spelled]
  scannable := ⟨isRun_of_all (by decide) (by decide), fun c hc => (w.opens.head?_append more c hc).1,
    w.joins more others.scannable others.apart⟩
  apart := Token.head?_spell_cons (.space " ") rfl rfl
  bare := by
    intro hfirst position
    have hbare := w.bare (Bool.eq_false_iff.mpr fun hliteral => h ⟨hfirst, hliteral⟩)
    obtain ⟨c, cs, hspell, -⟩ := w.opens
    cases tokens with
    | nil => cases hspell
    | cons token tokens =>
      cases token with
      | word text => exact absurd rfl (hbare text)
      | _ => exact id
  derived := by
    intro input position htiles
    obtain ⟨place, hplace⟩ := Lexeme.placed_append (position + 1) tokens more
    have hahead : Lexeme.placed position (.space " " :: (tokens ++ more)) =
        ⟨.space " ", position⟩ :: (Lexeme.placed (position + 1) tokens ++
          Lexeme.placed place more) := by
      rw [← hplace]
      rfl
    rw [hahead] at htiles ⊢
    obtain ⟨rule⟩ := w.derived input _ _ htiles.tail fun hends => others.bare hends place
    obtain ⟨tail⟩ := others.derived input place (htiles.tail.of_suffix rule.leaves.1)
    exact ⟨.more " " position rule tail⟩

theorem exists_writesTail {first : Term} {items : List Term} (hitems : Term.AreOperands items)
    (hchain : (first :: items).IsChain fun a b => ¬ (a.endsInLiteral = true ∧ b.isLiteral = true)) :
    ∃ tokens, WritesTail first items tokens := by
  induction items generalizing first with
  | nil => exact ⟨[], writesTail_nil first⟩
  | cons t items ih =>
    obtain ⟨hpair, hrest⟩ := List.isChain_cons_cons.mp hchain
    obtain ⟨tokens, w⟩ := exists_writes t hitems.1
    obtain ⟨more, others⟩ := ih hitems.2 hrest
    exact ⟨_, others.after w hpair⟩

theorem intercalate_space (first : Term) (items : List Term) :
    " ".intercalate ((first :: items).map Term.surface) =
      first.surface ++ String.join (items.map fun t => " " ++ t.surface) := by
  induction items generalizing first with
  | nil => simp
  | cons t items ih =>
    rw [List.map_cons, List.map_cons, String.intercalate_cons_cons, ← List.map_cons, ih, List.map_cons,
      String.join_cons, String.append_assoc, String.append_assoc]

/-- What an expression is written as is scanned and derived. -/
theorem exists_derivation {first : Term} {items : List Term} (hfirst : first.IsOperand)
    (hitems : Term.AreOperands items)
    (hchain : (first :: items).IsChain fun a b => ¬ (a.endsInLiteral = true ∧ b.isLiteral = true))
    {input : String} (hinput : input = " ".intercalate ((first :: items).map Term.surface)) :
    ∃ tokens, Token.Scannable tokens ∧ input.toList = Token.spell tokens ∧
      ∃ rest, Nonempty (TermRule input (Lexeme.placed 0 tokens) first rest) ∧
        Nonempty (TailRule input rest items) := by
  obtain ⟨tokens, w⟩ := exists_writes first hfirst
  obtain ⟨more, tail⟩ := exists_writesTail hitems hchain
  have hspell : input.toList = Token.spell (tokens ++ more) := by
    rw [hinput, intercalate_space, String.toList_append, Token.spell_append, w.spelled,
      tail.spelled]
  refine ⟨tokens ++ more, w.joins more tail.scannable tail.apart, hspell, ?_⟩
  obtain ⟨place, hplace⟩ := Lexeme.placed_append 0 tokens more
  have htiles := tiles_placed hspell
  rw [hplace] at htiles ⊢
  obtain ⟨rule⟩ := w.derived input 0 _ htiles fun hends => tail.bare hends place
  exact ⟨_, ⟨rule⟩, tail.derived input place (htiles.of_suffix rule.leaves.1)⟩

end Grammar

theorem parse_surface_of_isOperand {t : Term} (h : t.IsOperand) : parse t.surface = .ok t := by
  have hnone : Term.AreOperands [] := trivial
  obtain ⟨tokens, hscan, hspell, rest, ⟨rule⟩, ⟨tail⟩⟩ :=
    Grammar.exists_derivation h hnone (.singleton t)
      (by rw [List.map_singleton, String.intercalate_singleton])
  exact Grammar.parse_eq_ok_iff_rule.mpr ⟨tokens, hscan, hspell, ⟨.single (.none _) rule tail⟩⟩

theorem parse_surface {t : Term} (h : t.WellFormed) : parse t.surface = .ok t := by
  cases t with
  | concatenation items =>
    rw [Grammar.parse_eq_ok_iff_rule]
    obtain ⟨hlength, hitems, hchain⟩ := h
    match items, hlength with
    | first :: second :: others, _ =>
      obtain ⟨tokens, hscan, hspell, rest, ⟨rule⟩, ⟨tail⟩⟩ :=
        Grammar.exists_derivation hitems.1 hitems.2 hchain (Term.surface_concatenation _)
      exact ⟨tokens, hscan, hspell, ⟨.several (.none _) rule tail⟩⟩
  | _ => exact parse_surface_of_isOperand h

/-- Parsing yields well-formed terms, each of them is parsed back from what it is written as, and so
an expression that is parsed and written again keeps its meaning. -/
theorem parse_surface_inverse :
    (∀ (input : String) (t : Term), parse input = .ok t → t.WellFormed) ∧
    (∀ t : Term, t.WellFormed → parse t.surface = .ok t) ∧
    ∀ (input : String) (t : Term), parse input = .ok t → parse t.surface = parse input := by
  refine ⟨fun input t => wellFormed_of_parse, fun t => parse_surface, fun input t h => ?_⟩
  rw [h]
  exact parse_surface (wellFormed_of_parse h)

end PhrasePattern
