import PhrasePattern.Proofs.Text.Runs
import PhrasePattern.Token.Scanner

/-! Tokens and their spellings. A text is split into tokens exactly when it is the spellings of these
tokens, one after the other, every token is one that the scanner can produce, and none of them is
followed by a character that it would have taken as well. -/
namespace PhrasePattern

def IsRun (p : Char → Bool) (text : String) : Prop :=
  text ≠ "" ∧ ∀ c ∈ text.toList, p c = true

namespace Token

/-- What the text of a token has to be like. The end of the text is not spelled. -/
def IsProper : Token → Prop
  | variableName name => IsRun isSymbolChar name
  | macroName name => IsRun isSymbolChar name
  | regex body => IsRun (· != '/') body
  | word text => IsRun isWordChar text
  | space text => IsRun Text.isSpace text
  | endOfInput => False
  | _ => True

theorem IsProper.spelling_ne_nil {token : Token} (h : token.IsProper) :
    token.spelling.toList ≠ [] := by
  cases token with
  | word text => exact fun he => h.1 (String.toList_eq_nil_iff.mp he)
  | space text => exact fun he => h.1 (String.toList_eq_nil_iff.mp he)
  | endOfInput => exact h.elim
  | _ => simp [spelling]

def absorbs : Token → Char → Bool
  | flexOpen, c => c == '!'
  | variableName _, c => isSymbolChar c
  | macroName _, c => isSymbolChar c
  | word _, c => isWordChar c
  | space _, c => Text.isSpace c
  | _, _ => false

def spell (tokens : List Token) : List Char := tokens.flatMap (·.spelling.toList)

@[simp]
theorem spell_nil : spell [] = [] := rfl

@[simp]
theorem spell_cons (token : Token) (others : List Token) :
    spell (token :: others) = token.spelling.toList ++ spell others := rfl

@[simp]
theorem spell_append (first second : List Token) :
    spell (first ++ second) = spell first ++ spell second := List.flatMap_append

/-- Every token is proper and takes all it can of what follows. -/
def Scannable : List Token → Prop
  | [] => True
  | token :: others =>
    token.IsProper ∧ (∀ c ∈ (spell others).head?, token.absorbs c = false) ∧ Scannable others

end Token

def Lexeme.placed (position : Nat) : List Token → List Lexeme
  | [] => []
  | token :: others =>
    ⟨token, position⟩ :: placed (position + token.spelling.utf8ByteSize) others

theorem head?_dropWhile_eq_false (p : Char → Bool) (cs : List Char) :
    ∀ c ∈ (cs.dropWhile p).head?, p c = false := by
  intro c hc
  have h := List.head?_dropWhile_not p cs
  rw [Option.mem_def.mp hc] at h
  simpa using h

theorem isRun_of_all {p : Char → Bool} {text : String} (hne : text ≠ "")
    (h : text.toList.all p = true) : IsRun p text := ⟨hne, List.all_eq_true.mp h⟩

theorem isRun_ofList {p : Char → Bool} {cs : List Char} (hne : cs ≠ [])
    (h : ∀ c ∈ cs, p c = true) : IsRun p (String.ofList cs) := by
  refine ⟨fun he => hne ?_, by simpa using h⟩
  have := congrArg String.toList he
  simpa using this

theorem IsRun.toList_eq_cons {p : Char → Bool} {text : String} (h : IsRun p text) :
    ∃ c rest, text.toList = c :: rest ∧ p c = true ∧ ∀ d ∈ rest, p d = true := by
  cases htext : text.toList with
  | nil => exact absurd (String.toList_eq_nil_iff.mp htext) h.1
  | cons c rest =>
    have hall := h.2
    rw [htext] at hall
    exact ⟨c, rest, rfl, hall c List.mem_cons_self,
      fun d hd => hall d (List.mem_cons_of_mem _ hd)⟩

theorem toNat_of_isAlphanum {c : Char} (h : c.isAlphanum = true) :
    48 ≤ c.toNat ∧ c.toNat ≤ 57 ∨ 65 ≤ c.toNat ∧ c.toNat ≤ 90 ∨ 97 ≤ c.toNat ∧ c.toNat ≤ 122 := by
  rcases Bool.or_eq_true_iff.mp h with hletter | hdigit
  · rcases Bool.or_eq_true_iff.mp hletter with hupper | hlower
    · exact .inr (.inl (of_decide_eq_true hupper))
    · have hbounds := Bool.and_eq_true_iff.mp hlower
      exact .inr (.inr ⟨of_decide_eq_true hbounds.1, of_decide_eq_true hbounds.2⟩)
  · exact .inl (Char.isDigit_iff_toNat.mp hdigit)

namespace Scanner

structure Takes (s : Scanner) (token : Token) (after : Scanner) : Prop where
  proper : token.IsProper
  spelled : s.rest = token.spelling.toList ++ after.rest
  complete : ∀ c ∈ after.rest.head?, token.absorbs c = false
  position : after.position = s.position + token.spelling.utf8ByteSize

theorem takes_of_found {s after : Scanner} {token : Token} {l : Lexeme} {rest : List Char}
    (h : s.found token rest = (.ok l, after)) (proper : token.IsProper)
    (spelled : s.rest = token.spelling.toList ++ rest)
    (complete : ∀ c ∈ rest.head?, token.absorbs c = false) :
    l.position = s.position ∧ s.Takes l.token after := by
  simp only [found, Prod.mk.injEq, Except.ok.injEq] at h
  obtain ⟨rfl, rfl⟩ := h
  exact ⟨rfl, proper, spelled, complete, rfl⟩

theorem takes_of_nextSymbol {s after : Scanner} {sigil : Char} {token : String → Token}
    {l : Lexeme} {rest : List Char} (h : s.nextSymbol sigil token rest = (.ok l, after))
    (hrest : s.rest = sigil :: rest)
    (proper : ∀ name, IsRun isSymbolChar name → (token name).IsProper)
    (spelled : ∀ name, (token name).spelling.toList = sigil :: name.toList)
    (absorbs : ∀ name, (token name).absorbs = isSymbolChar) :
    l.position = s.position ∧ s.Takes l.token after := by
  unfold nextSymbol at h
  split at h
  · simp at h
  · rename_i name hne
    refine takes_of_found h (proper _ (isRun_ofList hne fun c hc => List.mem_takeWhile_imp hc)) ?_ ?_
    · rw [spelled, hrest, String.toList_ofList, List.cons_append, List.takeWhile_append_dropWhile]
    · rw [absorbs]
      exact head?_dropWhile_eq_false _ _

theorem takes_of_nextRegex {s after : Scanner} {l : Lexeme} {rest : List Char}
    (h : s.nextRegex rest = (.ok l, after)) (hrest : s.rest = '/' :: rest) :
    l.position = s.position ∧ s.Takes l.token after := by
  unfold nextRegex at h
  split at h
  · simp at h
  · rename_i slash tail hdrop
    split at h
    · simp at h
    · rename_i body hne
      have hslash : slash = '/' := by
        have := head?_dropWhile_eq_false (· != '/') rest slash (by rw [hdrop]; rfl)
        simpa using this
      have hbody : ∀ c ∈ rest.takeWhile (· != '/'), (c != '/') = true :=
        fun c hc => List.mem_takeWhile_imp (p := (· != '/')) hc
      refine takes_of_found h (isRun_ofList hne hbody) ?_ ?_
      · have hsplit := List.takeWhile_append_dropWhile (p := (· != '/')) (l := rest)
        rw [hdrop, hslash] at hsplit
        simp [Token.spelling, hrest, hsplit]
      · intro c _
        rfl

theorem spelling_of_punctuation {c : Char} {token : Token} (h : punctuation? c = some token) :
    token.spelling.toList = [c] ∧ token.IsProper ∧ ∀ d, token.absorbs d = false := by
  unfold punctuation? at h
  split at h <;> simp at h <;> subst h <;> exact ⟨rfl, trivial, fun _ => rfl⟩

/-- What the scanner reads as a token is spelled like that token. -/
theorem takes_of_next {s after : Scanner} {l : Lexeme} (h : s.next = (.ok l, after))
    (hs : s.rest ≠ []) : l.position = s.position ∧ s.Takes l.token after := by
  unfold next at h
  split at h
  · rename_i hrest
    exact absurd hrest hs
  · rename_i c rest hrest
    split at h
    · rename_i hspace
      refine takes_of_found h (isRun_ofList (by simp) ?_) ?_ (head?_dropWhile_eq_false _ _)
      · intro d hd
        rcases List.mem_cons.mp hd with rfl | hd
        · exact hspace
        · exact List.mem_takeWhile_imp hd
      · simp [Token.spelling, hrest]
    · split at h
      · rename_i hword
        refine takes_of_found h (isRun_ofList (by simp) ?_) ?_ (head?_dropWhile_eq_false _ _)
        · intro d hd
          rcases List.mem_cons.mp hd with rfl | hd
          · exact hword
          · exact List.mem_takeWhile_imp hd
        · simp [Token.spelling, hrest]
      · split at h
        · rename_i hbracket
          subst hbracket
          split at h
          · exact takes_of_found h trivial hrest (by simp [Token.absorbs])
          · rename_i hbang
            refine takes_of_found h trivial hrest ?_
            intro d hd
            cases rest with
            | nil => simp at hd
            | cons e rest =>
              simp only [List.head?_cons, Option.mem_def, Option.some.injEq] at hd
              subst hd
              have hne : e ≠ '!' := fun he => hbang rest (by rw [he])
              simpa [Token.absorbs] using hne
        · split at h
          · rename_i hsigil
            exact takes_of_nextSymbol h (hsigil ▸ hrest) (fun _ h => h) (by simp [Token.spelling])
              fun _ => rfl
          · split at h
            · rename_i hsigil
              exact takes_of_nextSymbol h (hsigil ▸ hrest) (fun _ h => h)
                (by simp [Token.spelling]) fun _ => rfl
            · split at h
              · rename_i hslash
                exact takes_of_nextRegex h (hslash ▸ hrest)
              · split at h
                · rename_i token hpunctuation
                  obtain ⟨hspell, hproper, habsorbs⟩ := spelling_of_punctuation hpunctuation
                  exact takes_of_found h hproper (by rw [hspell, hrest]; rfl)
                    fun d _ => habsorbs d
                · simp at h

theorem next_eq_found_of_space {s : Scanner} {text : String} {rest : List Char}
    (h : IsRun Text.isSpace text) (hs : s.rest = text.toList ++ rest)
    (hrest : ∀ c ∈ rest.head?, Text.isSpace c = false) :
    s.next = s.found (.space text) rest := by
  obtain ⟨c, run, htext, hc, hrun⟩ := h.toList_eq_cons
  rw [htext, List.cons_append] at hs
  rw [next, hs]
  simp only [hc, if_true, takeWhile_append_eq hrest, dropWhile_append_eq hrest,
    List.takeWhile_eq_self_iff.mpr hrun, List.dropWhile_eq_nil_iff.mpr hrun, List.nil_append, ← htext,
    String.ofList_toList]

theorem isSpace_eq_false_of_isWordChar {c : Char} (h : isWordChar c = true) :
    Text.isSpace c = false := by
  have hrange := toNat_of_isAlphanum h
  simp only [Text.isSpace, Text.whiteSpace, Text.RangeTable.covers_cons,
    Text.RangeTable.covers_nil, Bool.or_eq_false_iff, Bool.and_eq_false_iff,
    decide_eq_false_iff_not, and_true]
  omega

theorem next_eq_found_of_word {s : Scanner} {text : String} {rest : List Char}
    (h : IsRun isWordChar text) (hs : s.rest = text.toList ++ rest)
    (hrest : ∀ c ∈ rest.head?, isWordChar c = false) :
    s.next = s.found (.word text) rest := by
  obtain ⟨c, run, htext, hc, hrun⟩ := h.toList_eq_cons
  rw [htext, List.cons_append] at hs
  rw [next, hs]
  simp only [hc, isSpace_eq_false_of_isWordChar hc, if_true, takeWhile_append_eq hrest,
    dropWhile_append_eq hrest, List.takeWhile_eq_self_iff.mpr hrun, List.dropWhile_eq_nil_iff.mpr hrun,
    List.nil_append, ← htext, String.ofList_toList, Bool.false_eq_true, if_false]

theorem nextSymbol_eq_found {s : Scanner} {sigil : Char} {token : String → Token} {name : String}
    {rest : List Char} (h : IsRun isSymbolChar name)
    (hrest : ∀ c ∈ rest.head?, isSymbolChar c = false) :
    s.nextSymbol sigil token (name.toList ++ rest) = s.found (token name) rest := by
  have hne : name.toList ≠ [] := fun he => h.1 (String.toList_eq_nil_iff.mp he)
  rw [nextSymbol, takeWhile_append_eq hrest, dropWhile_append_eq hrest,
    List.takeWhile_eq_self_iff.mpr h.2, List.dropWhile_eq_nil_iff.mpr h.2, List.nil_append]
  split
  · rename_i hnil
    exact absurd hnil hne
  · rw [String.ofList_toList]

theorem nextRegex_eq_found {s : Scanner} {body : String} {rest : List Char}
    (h : IsRun (· != '/') body) :
    s.nextRegex (body.toList ++ '/' :: rest) = s.found (.regex body) rest := by
  have hne : body.toList ≠ [] := fun he => h.1 (String.toList_eq_nil_iff.mp he)
  have hstop : ∀ c ∈ ('/' :: rest).head?, (c != '/') = false := by simp
  simp only [nextRegex, takeWhile_append_eq hstop, dropWhile_append_eq hstop,
    List.takeWhile_eq_self_iff.mpr h.2, List.dropWhile_eq_nil_iff.mpr h.2, List.nil_append]
  rw [String.ofList_toList]

/-- What is spelled like a token, and not followed by more of it, is read as that token. -/
theorem next_of_takes {s after : Scanner} {token : Token} (h : s.Takes token after) :
    s.next = (.ok ⟨token, s.position⟩, after) := by
  obtain ⟨proper, spelled, complete, position⟩ := h
  suffices s.next = s.found token after.rest by
    rw [this, found, past, ← position]
  cases token with
  | variableName name =>
    simp only [Token.spelling, String.toList_append] at spelled
    exact (by rw [next, spelled]; rfl : s.next = s.nextSymbol '$' _ _).trans
      (nextSymbol_eq_found proper complete)
  | macroName name =>
    simp only [Token.spelling, String.toList_append] at spelled
    exact (by rw [next, spelled]; rfl : s.next = s.nextSymbol '#' _ _).trans
      (nextSymbol_eq_found proper complete)
  | regex body =>
    simp only [Token.spelling, String.toList_append, List.append_assoc] at spelled
    exact (by rw [next, spelled]; rfl : s.next = s.nextRegex _).trans (nextRegex_eq_found proper)
  | word text => exact next_eq_found_of_word proper spelled complete
  | space text => exact next_eq_found_of_space proper spelled complete
  | endOfInput => exact proper.elim
  | flexOpen =>
    have hopen : s.rest = '[' :: after.rest := spelled
    rw [next, hopen]
    dsimp only
    rw [if_neg (by decide), if_neg (by decide), if_pos rfl]
    split
    · rename_i hrest
      rw [hrest] at complete
      simp [Token.absorbs] at complete
    · rfl
  | _ => rw [next, spelled]; rfl

theorem rest_eq_nil_of_next_end {s after : Scanner} {l : Lexeme} (h : s.next = (.ok l, after))
    (hl : l.token = .endOfInput) : s.rest = [] := by
  by_contra hs
  have hproper := (takes_of_next h hs).2.proper
  rw [hl] at hproper
  exact hproper

theorem next_of_rest_eq_nil {s : Scanner} (h : s.rest = []) :
    s.next = (.ok ⟨.endOfInput, s.position⟩, s) := by
  rw [next, h]

theorem lexemes_of_next {s after : Scanner} {l : Lexeme} (h : s.next = (.ok l, after)) :
    s.lexemes =
      if l.token = .endOfInput then .ok [l] else after.lexemes.map (l :: ·) := by
  rw [lexemes]
  split
  · rename_i heq
    rw [h] at heq
    simp at heq
  · rename_i heq
    rw [h] at heq
    simp only [Prod.mk.injEq, Except.ok.injEq] at heq
    obtain ⟨rfl, rfl⟩ := heq
    rfl

theorem lexemes_of_takes {s after : Scanner} {token : Token} (h : s.Takes token after) :
    s.lexemes = after.lexemes.map (⟨token, s.position⟩ :: ·) := by
  rw [lexemes_of_next (next_of_takes h), if_neg]
  rintro rfl
  exact h.proper

theorem lexemes_of_scannable {tokens : List Token} (h : Token.Scannable tokens)
    {s : Scanner} (hs : s.rest = Token.spell tokens) :
    s.lexemes = .ok (Lexeme.placed s.position tokens ++
      [⟨.endOfInput, s.position + (String.ofList (Token.spell tokens)).utf8ByteSize⟩]) := by
  induction tokens generalizing s with
  | nil => simpa [Lexeme.placed] using lexemes_of_next (next_of_rest_eq_nil hs)
  | cons token others ih =>
    obtain ⟨proper, complete, hothers⟩ := h
    have htakes : s.Takes token (s.past token.spelling (Token.spell others)) :=
      ⟨proper, hs, complete, rfl⟩
    rw [lexemes_of_takes htakes, ih hothers rfl]
    simp [Lexeme.placed, past, Except.map, String.ofList_append, Nat.add_assoc]

/-- What the scanner makes of a text is spelled like the text. -/
theorem scannable_of_lexemes {s : Scanner} {ls : List Lexeme} (h : s.lexemes = .ok ls) :
    ∃ tokens, Token.Scannable tokens ∧ s.rest = Token.spell tokens := by
  induction hn : s.rest.length using Nat.strongRecOn generalizing s ls with
  | _ n ih =>
    by_cases hs : s.rest = []
    · exact ⟨[], trivial, hs⟩
    rw [lexemes] at h
    split at h
    · cases h
    · rename_i l after hnext
      obtain ⟨-, htakes⟩ := takes_of_next hnext hs
      split at h
      · rename_i hl
        exact absurd (rest_eq_nil_of_next_end hnext hl) hs
      · rename_i hl
        have hshort := next_shorter s l after hnext hl
        cases hafter : after.lexemes with
        | error e => rw [hafter] at h; cases h
        | ok rest =>
          obtain ⟨tokens, hscan, hrest⟩ := ih _ (hn ▸ hshort) hafter rfl
          refine ⟨l.token :: tokens, ⟨htakes.proper, hrest ▸ htakes.complete, hscan⟩, ?_⟩
          rw [htakes.spelled, hrest, Token.spell_cons]

end Scanner

/-- The tokens of a text are those of which it is the spelling. -/
theorem tokenize_eq_ok_iff (input : String) (lexemes : List Lexeme) :
    tokenize input = .ok lexemes ↔ ∃ tokens, Token.Scannable tokens ∧
      input.toList = Token.spell tokens ∧
      lexemes = Lexeme.placed 0 tokens ++ [⟨.endOfInput, input.utf8ByteSize⟩] := by
  have hplaced : ∀ tokens, Token.Scannable tokens → input.toList = Token.spell tokens →
      tokenize input =
        .ok (Lexeme.placed 0 tokens ++ [⟨.endOfInput, input.utf8ByteSize⟩]) := by
    intro tokens hscan hspell
    have h := Scanner.lexemes_of_scannable hscan (s := Scanner.start input) hspell
    rw [← hspell, String.ofList_toList] at h
    simpa only [tokenize, Scanner.start, Nat.zero_add] using h
  constructor
  · intro h
    obtain ⟨tokens, hscan, hspell⟩ := Scanner.scannable_of_lexemes h
    have heq := (hplaced tokens hscan hspell).symm.trans h
    simp only [Except.ok.injEq] at heq
    exact ⟨tokens, hscan, hspell, heq.symm⟩
  · rintro ⟨tokens, hscan, hspell, rfl⟩
    exact hplaced tokens hscan hspell

end PhrasePattern
