import PhrasePattern.Proofs.Term.Failing
import PhrasePattern.Proofs.Term.RoundTrip

/-! Texts that are cut off. The tokens of a text are tokens of every longer text, except that the
last one may be longer there, or be another opening bracket. So where the longer text is an
expression, reading the shorter one follows the same derivation until the lexemes run out: it is
read as well, or the end comes too early. -/
namespace PhrasePattern
namespace Token

/-- What a token can become when the text behind it goes on. -/
inductive Grows : Token → Token → Prop
  | bracket : Grows flexOpen rigidOpen
  | variableName (name longer : String) : Grows (variableName name) (variableName longer)
  | macroName (name longer : String) : Grows (macroName name) (macroName longer)
  | word (text longer : String) : Grows (word text) (word longer)
  | space (text longer : String) : Grows (space text) (space longer)

end Token

namespace Scanner

theorem Takes.unique {s after after' : Scanner} {token token' : Token} (h : s.Takes token after)
    (h' : s.Takes token' after') : token = token' ∧ after = after' := by
  have heq := (next_of_takes h).symm.trans (next_of_takes h')
  simpa using heq

/-- A run that goes on is taken as one longer run, behind the same sigil. -/
theorem takes_longer (token : String → Token) (sigil : List Char) {s : Scanner} {p : Char → Bool}
    {text : String} {rest : List Char}
    (proper : ∀ text, IsRun p text → (token text).IsProper)
    (spelled : ∀ text, (token text).spelling.toList = sigil ++ text.toList)
    (absorbs : ∀ text, (token text).absorbs = p) (h : IsRun p text)
    (hs : s.rest = (token text).spelling.toList ++ rest) :
    ∃ longer after, s.Takes (token longer) after := by
  have hrun : IsRun p (String.ofList (text.toList ++ rest.takeWhile p)) := by
    refine isRun_ofList ?_ ?_
    · intro he
      exact h.1 (String.toList_eq_nil_iff.mp (List.append_eq_nil_iff.mp he).1)
    · intro c hc
      rcases List.mem_append.mp hc with hc | hc
      · exact h.2 c hc
      · exact List.mem_takeWhile_imp hc
  refine ⟨_, s.past _ (rest.dropWhile p), proper _ hrun, ?_, ?_, rfl⟩
  · simp only [past, hs, spelled, String.toList_ofList, List.append_assoc,
      List.takeWhile_append_dropWhile]
  · rw [absorbs]
    exact head?_dropWhile_eq_false p rest

theorem exists_takes_grown {s : Scanner} {token : Token} {rest : List Char}
    (proper : token.IsProper) (hs : s.rest = token.spelling.toList ++ rest)
    (hmore : ¬ ∀ c ∈ rest.head?, token.absorbs c = false) :
    ∃ grown after, s.Takes grown after ∧ token.Grows grown := by
  cases token with
  | flexOpen =>
    cases rest with
    | nil => simp at hmore
    | cons c rest =>
      have hbang : c = '!' := by simpa [Token.absorbs] using hmore
      subst hbang
      exact ⟨.rigidOpen, s.past _ rest, ⟨trivial, hs, by simp [Token.absorbs], rfl⟩, .bracket⟩
  | variableName name =>
    obtain ⟨longer, after, h⟩ := takes_longer .variableName ['$']
      (fun _ h => h) (by simp [Token.spelling]) (fun _ => rfl) proper hs
    exact ⟨_, after, h, .variableName name longer⟩
  | macroName name =>
    obtain ⟨longer, after, h⟩ := takes_longer .macroName ['#']
      (fun _ h => h) (by simp [Token.spelling]) (fun _ => rfl) proper hs
    exact ⟨_, after, h, .macroName name longer⟩
  | word text =>
    obtain ⟨longer, after, h⟩ := takes_longer .word []
      (fun _ h => h) (by simp [Token.spelling]) (fun _ => rfl) proper hs
    exact ⟨_, after, h, .word text longer⟩
  | space text =>
    obtain ⟨longer, after, h⟩ := takes_longer .space []
      (fun _ h => h) (by simp [Token.spelling]) (fun _ => rfl) proper hs
    exact ⟨_, after, h, .space text longer⟩
  | _ => exact absurd (fun _ _ => rfl) hmore

end Scanner

namespace Grammar

/-- The lexemes ahead are those of a text that goes on as `whole`. -/
inductive Cut : List Lexeme → List Lexeme → Prop
  | nil (whole : List Lexeme) : Cut [] whole
  | last {token grown : Token} (position : Nat) (whole : List Lexeme) (grows : token.Grows grown) :
      Cut [⟨token, position⟩] (⟨grown, position⟩ :: whole)
  | cons (l : Lexeme) {ahead whole : List Lexeme} (cut : Cut ahead whole) :
      Cut (l :: ahead) (l :: whole)

theorem cut_placed {tokens whole : List Token} {more : List Char} (position : Nat)
    (h : Token.Scannable tokens) (h' : Token.Scannable whole)
    (hspell : Token.spell whole = Token.spell tokens ++ more) :
    Cut (Lexeme.placed position tokens) (Lexeme.placed position whole) := by
  induction tokens generalizing whole position with
  | nil => exact .nil _
  | cons token others ih =>
    obtain ⟨proper, complete, hothers⟩ := h
    rw [Token.spell_cons, List.append_assoc] at hspell
    cases whole with
    | nil => exact absurd (List.append_eq_nil_iff.mp hspell.symm).1 proper.spelling_ne_nil
    | cons grown rest =>
      obtain ⟨proper', complete', hrest⟩ := h'
      let s : Scanner := ⟨Token.spell (grown :: rest), position⟩
      have hs : s.rest = token.spelling.toList ++ (Token.spell others ++ more) := hspell
      have htakes : s.Takes grown (s.past grown.spelling (Token.spell rest)) :=
        ⟨proper', rfl, complete', rfl⟩
      by_cases hmore : ∀ c ∈ (Token.spell others ++ more).head?, token.absorbs c = false
      · obtain ⟨rfl, heq⟩ := htakes.unique
          (⟨proper, hs, hmore, rfl⟩ : s.Takes token (s.past _ (Token.spell others ++ more)))
        exact .cons _ (ih _ hothers hrest (Scanner.mk.inj heq).1)
      · obtain ⟨longer, after, htakes', grows⟩ := Scanner.exists_takes_grown proper hs hmore
        obtain ⟨rfl, -⟩ := htakes.unique htakes'
        -- a token that goes on is the last one: what another one is followed by it does not take
        cases others with
        | nil => exact .last position _ grows
        | cons next others =>
          cases hnext : next.spelling.toList with
          | nil => exact absurd hnext hothers.1.spelling_ne_nil
          | cons c cs =>
            rw [Token.spell_cons, hnext] at complete hmore
            exact absurd complete hmore

section
variable {ahead whole rest : List Lexeme}

theorem Cut.skipSpace (h : Cut ahead whole) :
    Cut (Term.skipSpace ahead) (Term.skipSpace whole) := by
  cases h with
  | nil => exact .nil _
  | last position whole grows =>
    cases grows with
    | space => exact .nil _
    | _ => exact .last position whole (by constructor)
  | cons l cut =>
    obtain ⟨token, position⟩ := l
    cases token with
    | space text => exact cut
    | _ => exact .cons _ cut

theorem Cut.of_gap {behind : List Lexeme} (h : Cut ahead whole) (gap : Gap whole behind)
    (hbehind : Begins startsTerm behind) : Cut (Term.skipSpace ahead) behind :=
  gap.skipSpace_eq_of_begins hbehind ▸ h.skipSpace

theorem Cut.eq_nil_or_cons {l : Lexeme} (h : Cut ahead (l :: whole))
    (plain : ∀ token : Token, ¬ token.Grows l.token) :
    ahead = [] ∨ ∃ rest, ahead = l :: rest ∧ Cut rest whole := by
  cases h with
  | nil => exact .inl rfl
  | last position whole grows => exact absurd grows (plain _)
  | cons l cut => exact .inr ⟨_, rfl, cut⟩

theorem Cut.eq_nil (h : Cut ahead []) : ahead = [] := by
  cases h
  rfl

theorem Cut.space {text : String} {position : Nat} {l : Lexeme} {others : List Lexeme}
    (h : Cut ahead (⟨.space text, position⟩ :: whole))
    (hskip : Term.skipSpace ahead = l :: others) :
    ∃ gap place, ahead = ⟨.space gap, place⟩ :: l :: others ∧ Cut (l :: others) whole := by
  cases h with
  | nil => cases hskip
  | last position whole grows =>
    cases grows
    cases hskip
  | cons l cut =>
    cases hskip
    exact ⟨text, position, rfl, cut⟩

theorem Cut.startsTerm {l : Lexeme} (h : Cut (l :: ahead) whole)
    (hwhole : Begins startsTerm whole) : Grammar.startsTerm l.token = true := by
  obtain ⟨token, position, rest, rfl, htoken⟩ := hwhole
  cases h with
  | last position whole grows =>
    cases grows with
    | space => cases htoken
    | _ => rfl
  | cons l cut => exact htoken

theorem not_grows_of_isClosing {token close : Token} (h : isClosing close = true) :
    ¬ token.Grows close := by
  rintro ⟨⟩ <;> cases h

theorem ne_of_startsTerm {token other : Token} (h : startsTerm token = true)
    (hother : startsTerm other = false) : token ≠ other := by
  rintro rfl
  rw [h] at hother
  cases hother

end

/-- A term that the whole text continues up to `rest` is read from what there is of it, or the text
ends too early. -/
def TermCut (finish : Nat) (ahead rest : List Lexeme) : Prop :=
  Term.Fails finish ahead ⟨finish, .unexpectedEnd⟩ [] ∨
    ∃ t behind, Term.Reads finish ahead t behind ∧
      (Term.skipSpace behind = [] ∨ Cut behind rest)

def OperandsCut (finish : Nat) (close : Token) (ahead : List Lexeme) (count : Nat)
    (rest : List Lexeme) : Prop :=
  Term.OperandsFail finish close ahead ⟨finish, .unexpectedEnd⟩ [] ∨
    ∃ items behind, Term.ReadsOperands finish close ahead items behind ∧ items.length = count ∧
      Cut behind rest

def ItemsCut (finish : Nat) (close : Token) (ahead : List Lexeme) (count : Nat)
    (rest : List Lexeme) : Prop :=
  Term.ItemsFail finish close ahead ⟨finish, .unexpectedEnd⟩ [] ∨
    ∃ items behind, Term.ReadsItems finish close ahead items behind ∧ items.length = count ∧
      Cut behind rest

section
variable {finish : Nat} {input : String} {ahead whole rest : List Lexeme}

theorem Cut.termCut {l : Lexeme} (h : Cut ahead (l :: whole)) (hl : Grammar.startsTerm l.token = true)
    (hcons : ∀ behind, Cut behind whole → TermCut finish (l :: behind) rest) :
    TermCut finish ahead rest := by
  cases h with
  | nil => exact .inl .ended
  | last position whole grows =>
    cases grows with
    | bracket => exact .inl (.operands .flexible rfl (.ended rfl))
    | variableName name longer =>
      exact .inr ⟨_, [], Term.reads_cons_iff.mpr (.reference name rfl (by simp) rfl), .inl rfl⟩
    | macroName name longer =>
      exact .inr ⟨_, [], Term.reads_cons_iff.mpr (.macroName name rfl (by simp) rfl), .inl rfl⟩
    | word text longer =>
      exact .inr ⟨_, [], Term.reads_cons_iff.mpr (.literal text rfl rfl), .inl rfl⟩
    | space => cases hl
  | cons l cut => exact hcons _ cut

theorem Cut.wordFollows (h : Cut ahead whole) (hwhole : WordFollows whole) :
    Term.skipSpace ahead = [] ∨ WordFollows ahead := by
  unfold WordFollows at hwhole
  split at hwhole
  · cases h with
    | nil => exact .inl rfl
    | last place whole grows =>
      cases grows
      exact .inl rfl
    | cons l cut =>
      cases cut with
      | nil => exact .inl rfl
      | last place whole grows =>
        cases grows
        exact .inr trivial
      | cons l cut => exact .inr trivial
  · exact hwhole.elim

theorem Cut.moreWords (h : Cut ahead whole) :
    Term.skipSpace (Term.moreWords ahead).2 = [] ∨
      Cut (Term.moreWords ahead).2 (Term.moreWords whole).2 := by
  fun_induction Term.moreWords ahead generalizing whole with
  | case1 gap place text position rest ih =>
    cases h with
    | cons l cut =>
      cases cut with
      | last position whole grows =>
        cases grows
        exact .inl rfl
      | cons l cut =>
        have hrest := ih cut
        exact hrest
  | case2 ahead hwords =>
    by_cases hfollows : WordFollows whole
    · rcases h.wordFollows hfollows with hnil | hahead
      · exact .inl hnil
      · unfold WordFollows at hahead
        split at hahead
        · exact absurd rfl (hwords _ _ _ _ _)
        · exact hahead.elim
    · rw [moreWords_eq_of_not_wordFollows hfollows]
      exact .inr h

theorem Words.rest_eq {words rest : List Lexeme} {stop : Nat} (w : Words words stop rest)
    (maximal : ¬ WordFollows rest) :
    ∃ text position behind, words = ⟨.word text, position⟩ :: behind ∧
      rest = (Term.moreWords behind).2 := by
  induction w with
  | last text position rest =>
    exact ⟨text, position, rest, rfl, by rw [moreWords_eq_of_not_wordFollows maximal]⟩
  | more text position gap place others ih =>
    obtain ⟨next, place', behind, rfl, rfl⟩ := ih maximal
    exact ⟨text, position, _, rfl, rfl⟩

theorem TermCut.items {close : Token} {count : Nat} {after : List Lexeme}
    (h : TermCut finish ahead rest)
    (hnext : ∀ t behind, Term.Reads finish ahead t behind → Cut behind rest →
      ∀ l others, Term.skipSpace behind = l :: others → ItemsCut finish close ahead count after) :
    ItemsCut finish close ahead count after := by
  obtain fails | ⟨t, behind, reads, hbehind⟩ := h
  · exact .inl (.item fails)
  cases hskip : Term.skipSpace behind with
  | nil => exact .inl (.ended reads hskip)
  | cons l others =>
    rcases hbehind with hnil | hcut
    · rw [hskip] at hnil
      cases hnil
    · exact hnext t behind reads hcut l others hskip

theorem Gap.itemsCut {close : Token} {position : Nat} {behind : List Lexeme}
    (gap : Gap behind (⟨close, position⟩ :: rest)) (hclose : isClosing close = true)
    (h : TermCut finish ahead behind) : ItemsCut finish close ahead 1 rest := by
  refine h.items fun t behind reads hbehind l next hskip => ?_
  have hcloses := hbehind.skipSpace
  rw [gap.skipSpace_eq (by rintro text rfl; cases hclose), hskip] at hcloses
  obtain hnil | ⟨_, heq, hafter⟩ :=
    hcloses.eq_nil_or_cons fun _ => not_grows_of_isClosing hclose
  · cases hnil
  · obtain ⟨rfl, rfl⟩ := List.cons.inj heq
    exact .inr ⟨[t], next, Term.readsItems_of_nextRead reads (.last _ hskip rfl), rfl, hafter⟩

theorem Separator.itemsCut {close : Token} {count : Nat} {behind next : List Lexeme}
    (separator : Separator behind next) (hclose : isClosing close = true)
    (hnext : Begins startsTerm next) (h : TermCut finish ahead behind)
    (hothers : ∀ {ahead}, Cut ahead next → ItemsCut finish close ahead count rest) :
    ItemsCut finish close ahead (count + 1) rest := by
  refine h.items fun t behind reads hbehind l others hskip => ?_
  cases separator with
  | comma position before after =>
    have hcomma := hbehind.skipSpace
    rw [before.skipSpace_eq (by simp), hskip] at hcomma
    obtain hnil | ⟨_, heq, hrest⟩ := hcomma.eq_nil_or_cons (by rintro _ ⟨⟩)
    · cases hnil
    obtain ⟨rfl, rfl⟩ := List.cons.inj heq
    have hopen : Token.comma ≠ close := by
      rintro rfl
      cases hclose
    obtain fails | ⟨items, final, reads', hcount, hfinal⟩ := hothers (hrest.of_gap after hnext)
    · exact .inl (.comma reads hskip hopen rfl fails)
    · exact .inr ⟨t :: items, final, Term.readsItems_of_nextRead reads
        (.comma _ _ items hskip hopen rfl reads'), congrArg Nat.succ hcount, hfinal⟩
  | space text position =>
    obtain ⟨gap, place, rfl, hrest⟩ := hbehind.space hskip
    have hstarts := hrest.startsTerm hnext
    have hopen := ne_of_startsTerm hstarts (startsTerm_eq_false_of_isClosing hclose)
    have hbare : l.token ≠ .comma := ne_of_startsTerm hstarts rfl
    obtain fails | ⟨items, final, reads', hcount, hfinal⟩ := hothers hrest
    · exact .inl (.space reads hskip hopen hbare rfl fails)
    · exact .inr ⟨t :: items, final, Term.readsItems_of_nextRead reads
        (.space l others items hskip hopen hbare rfl reads'), congrArg Nat.succ hcount, hfinal⟩

mutual

/-- The derivation of the whole is followed as far as the lexemes go. -/
theorem TermRule.cut {whole rest : List Lexeme} {t : Term} :
    TermRule input whole t rest → Settled rest → ∀ {ahead}, Cut ahead whole →
      TermCut finish ahead rest
  | .bracket form _ opens operands enough, _, _, hcut =>
      hcut.termCut (by subst opens; cases form <;> rfl) fun behind hbehind =>
        match operands.cut (isClosing_closing form) hbehind with
        | .inl fails => .inl (.operands form opens fails)
        | .inr ⟨items, after, reads, hcount, hafter⟩ =>
            .inr ⟨_, after, Term.reads_cons_iff.mpr
              (.bracket form items opens reads (hcount ▸ enough)), .inr hafter⟩
  | .negation _ gap rule, hrest, _, hcut =>
      hcut.termCut rfl fun behind hbehind =>
        match rule.cut hrest (hbehind.of_gap gap rule.begins) with
        | .inl fails => .inl (.negation fails)
        | .inr ⟨operand, after, reads, hafter⟩ =>
            .inr ⟨_, after, Term.reads_cons_iff.mpr (.negation operand rfl reads), hafter⟩
  | .regex body _ _, _, _, hcut =>
      hcut.termCut rfl fun behind hbehind =>
        .inr ⟨_, behind, Term.reads_cons_iff.mpr (.regex body rfl rfl), .inr hbehind⟩
  | .assignment symbol _ _ rule, hrest, _, hcut =>
      hcut.termCut rfl fun behind hbehind => by
        -- cut off in front of the sign, an assignment is a reference
        rcases hbehind.eq_nil_or_cons (by rintro _ ⟨⟩) with rfl | ⟨body, rfl, hbody⟩
        · exact .inr ⟨_, [], Term.reads_cons_iff.mpr (.reference symbol rfl (by simp) rfl), .inl rfl⟩
        rcases rule.cut hrest hbody with fails | ⟨operand, after, reads, hafter⟩
        · exact .inl (.assignment fails)
        · exact .inr ⟨_, after, Term.reads_cons_iff.mpr
            (.assignment symbol operand _ body rfl rfl reads), hafter⟩
  | .reference symbol _ _, hrest, _, hcut =>
      hcut.termCut rfl fun behind hbehind => by
        refine .inr ⟨_, behind, Term.reads_cons_iff.mpr (.reference symbol rfl ?_ rfl), .inr hbehind⟩
        rintro place body rfl
        cases hbehind with
        | last position whole grows => cases grows
        | cons l cut => exact Settled.ne_equals hrest
  | .macroName name _ _, hrest, _, hcut =>
      hcut.termCut rfl fun behind hbehind => by
        refine .inr ⟨_, behind, Term.reads_cons_iff.mpr (.macroName name rfl ?_ rfl), .inr hbehind⟩
        rintro place body rfl
        cases hbehind with
        | last position whole grows => cases grows
        | cons l cut => exact Settled.ne_openParen hrest
  | .macroEmpty name _ _ _ gap, _, _, hcut =>
      hcut.termCut rfl fun behind hbehind => by
        -- and a call cut off in front of its arguments is one without any
        rcases hbehind.eq_nil_or_cons (by rintro _ ⟨⟩) with rfl | ⟨body, rfl, hbody⟩
        · exact .inr ⟨_, [], Term.reads_cons_iff.mpr (.macroName name rfl (by simp) rfl), .inl rfl⟩
        have hclose := hbody.skipSpace
        rw [gap.skipSpace_eq (by simp)] at hclose
        rcases hclose.eq_nil_or_cons (by rintro _ ⟨⟩) with hnil | ⟨after, heq, hafter⟩
        · exact .inl (.arguments (.ended hnil))
        · exact .inr ⟨_, after, Term.reads_cons_iff.mpr (.macroCall name [] _ body rfl rfl
            (Term.readsOperands_iff.mpr ⟨_, after, heq, .inl ⟨rfl, rfl, rfl⟩⟩)), .inr hafter⟩
  | .macroCall name _ _ operands, _, _, hcut =>
      hcut.termCut rfl fun behind hbehind => by
        rcases hbehind.eq_nil_or_cons (by rintro _ ⟨⟩) with rfl | ⟨body, rfl, hbody⟩
        · exact .inr ⟨_, [], Term.reads_cons_iff.mpr (.macroName name rfl (by simp) rfl), .inl rfl⟩
        rcases operands.cut rfl hbody with fails | ⟨arguments, after, reads, -, hafter⟩
        · exact .inl (.arguments fails)
        · exact .inr ⟨_, after, Term.reads_cons_iff.mpr
            (.macroCall name arguments _ body rfl rfl reads), .inr hafter⟩
  | .literal words maximal _, _, _, hcut => by
      obtain ⟨text, position, behind, heq, rfl⟩ := words.rest_eq maximal
      cases heq
      exact hcut.termCut rfl fun behind hbehind =>
        .inr ⟨_, _, Term.reads_cons_iff.mpr (.literal text rfl rfl), hbehind.moreWords⟩

theorem OperandsRule.cut {close : Token} {whole rest : List Lexeme} {items : List Term} :
    OperandsRule input close whole items rest → isClosing close = true → ∀ {ahead},
      Cut ahead whole → OperandsCut finish close ahead items.length rest
  | .operands gap rule, hclose, ahead, hcut => by
      have hskip := hcut.of_gap gap rule.begins
      rcases hahead : Term.skipSpace ahead with _ | ⟨l, behind⟩
      · exact .inl (.ended hahead)
      rw [hahead] at hskip
      have hopen := ne_of_startsTerm (hskip.startsTerm rule.begins)
        (startsTerm_eq_false_of_isClosing hclose)
      rcases rule.cut hclose hskip with fails | ⟨operands, after, reads, hcount, hafter⟩
      · exact .inl (.items hahead hopen fails)
      · exact .inr ⟨operands, after,
          Term.readsOperands_iff.mpr ⟨l, behind, hahead, .inr ⟨hopen, reads⟩⟩, hcount, hafter⟩

theorem ItemsRule.cut {close : Token} {whole rest : List Lexeme} {items : List Term} :
    ItemsRule input close whole items rest → isClosing close = true → ∀ {ahead},
      Cut ahead whole → ItemsCut finish close ahead items.length rest
  | .last _ rule gap, hclose, _, hcut =>
      gap.itemsCut hclose (rule.cut (gap.settled_of_closing hclose) hcut)
  | .more rule separator others, hclose, _, hcut =>
      separator.itemsCut hclose others.begins (rule.cut separator.settled hcut)
        (others.cut hclose)

end

theorem TailRule.cut {items : List Term} (d : TailRule input whole items)
    (h : Term.skipSpace ahead = [] ∨ Cut ahead whole) :
    Term.TailFails finish ahead ⟨finish, .unexpectedEnd⟩ [] ∨
      ∃ items, Term.readTail finish ahead = .ok items := by
  induction d generalizing ahead with
  | done gap =>
    refine .inr ⟨[], Term.readTail_eq_ok_iff.mpr (.inl ⟨?_, rfl⟩)⟩
    rcases h with hnil | hcut
    · exact hnil
    · cases gap with
      | none => exact hcut.skipSpace.eq_nil
      | space => exact hcut.skipSpace.eq_nil
  | more text position rule others ih =>
    cases hskip : Term.skipSpace ahead with
    | nil => exact .inr ⟨[], Term.readTail_eq_ok_iff.mpr (.inl ⟨hskip, rfl⟩)⟩
    | cons l behind =>
      obtain ⟨gap, place, rfl, hbehind⟩ : ∃ gap place,
          ahead = ⟨.space gap, place⟩ :: l :: behind ∧ Cut (l :: behind) _ := by
        rcases h with hnil | hcut
        · rw [hskip] at hnil
          cases hnil
        · exact hcut.space hskip
      rcases rule.cut others.settled hbehind with fails | ⟨t, after, reads, hafter⟩
      · exact .inl (.item hskip rfl fails)
      rcases ih hafter with fails | ⟨items, hitems⟩
      · exact .inl (.more rfl reads fails)
      · exact .inr ⟨t :: items,
          Term.readTail_eq_ok_iff.mpr (.inr ⟨t, items, after, rfl, rfl, reads, hitems⟩)⟩

theorem ExpressionRule.cut {t : Term} (d : ExpressionRule input whole t) (h : Cut ahead whole) :
    Term.ExpressionFails finish ahead ⟨finish, .unexpectedEnd⟩ [] ∨
      ∃ t, Term.readExpression finish ahead = .ok t := by
  obtain ⟨behind, rest, first, items, ⟨gap⟩, ⟨rule⟩, ⟨tail⟩⟩ : ∃ behind rest first items,
      Nonempty (Gap whole behind) ∧ Nonempty (TermRule input behind first rest) ∧
        Nonempty (TailRule input rest items) := by
    cases d with
    | single gap rule tail => exact ⟨_, _, _, _, ⟨gap⟩, ⟨rule⟩, ⟨tail⟩⟩
    | several gap rule tail => exact ⟨_, _, _, _, ⟨gap⟩, ⟨rule⟩, ⟨tail⟩⟩
  rcases rule.cut tail.settled (h.of_gap gap rule.begins) with fails | ⟨t, after, reads, hafter⟩
  · exact .inl (.first fails)
  rcases tail.cut hafter with fails | ⟨others, hothers⟩
  · exact .inl (.tail reads fails)
  · exact .inr ⟨_, Term.readExpression_eq_ok_iff.mpr ⟨t, others, after, rfl, reads, hothers⟩⟩

end
end Grammar

/-- A text that is not an expression, and the beginning of one, ends too early. -/
theorem fault_eq_unexpectedEnd {input more : String} {tokens : List Token} {e : SyntaxError}
    {t : Term} (hscan : Token.Scannable tokens) (hspell : input.toList = Token.spell tokens)
    (h : parse input = .error e) (hmore : parse (input ++ more) = .ok t) :
    e.fault = .unexpectedEnd := by
  obtain ⟨whole, hscan', hspell', ⟨d⟩⟩ := Grammar.parse_eq_ok_iff_rule.mp hmore
  rw [String.toList_append, hspell] at hspell'
  have hcut := Grammar.cut_placed 0 hscan hscan' hspell'.symm
  rcases d.cut hcut with fails | ⟨u, hread⟩
  · have hend := (parse_eq_error_iff hscan hspell).mpr ⟨[], fails⟩
    rw [h] at hend
    cases hend
    rfl
  · have hok := parse_eq_readExpression hscan hspell
    rw [h, hread] at hok
    cases hok

end PhrasePattern
