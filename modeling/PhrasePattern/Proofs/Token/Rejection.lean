import PhrasePattern.Proofs.Token.Spelling

/-! Where the scanner gives up. There are four faults, each told by the text in front of the scanner,
and each leaves the scanner at its own place. A text that is not split into tokens is the spelling of
some tokens, followed by one of these faults. -/
namespace PhrasePattern

/-- No token is spelled with this character at its beginning. -/
def Token.NoneBegins (c : Char) : Prop :=
  ∀ token : Token, token.IsProper → token.spelling.toList.head? ≠ some c

namespace Scanner

inductive Rejects (s : Scanner) : SyntaxError → Scanner → Prop
  | unexpectedChar {c : Char} {rest : List Char} (here : s.rest = c :: rest)
      (alien : Token.NoneBegins c) : Rejects s ⟨s.position, .unexpectedChar c⟩ s
  | missingSymbol {sigil : Char} {rest : List Char} (here : s.rest = sigil :: rest)
      (isSigil : sigil = '$' ∨ sigil = '#') (nameless : ∀ c ∈ rest.head?, isSymbolChar c = false) :
      Rejects s ⟨s.position + 1, .missingSymbol sigil⟩ ⟨rest, s.position + 1⟩
  | unterminatedRegex {rest : List Char} (here : s.rest = '/' :: rest) (unclosed : '/' ∉ rest) :
      Rejects s ⟨s.position, .unterminatedRegex⟩
        ⟨[], s.position + (String.ofList s.rest).utf8ByteSize⟩
  | emptyRegex {rest : List Char} (here : s.rest = '/' :: '/' :: rest) :
      Rejects s ⟨s.position, .emptyRegex⟩ ⟨rest, s.position + 2⟩

theorem not_begins_run {p : Char → Bool} {text : String} (h : IsRun p text) {c : Char}
    (hc : p c = false) : text.toList.head? ≠ some c := by
  obtain ⟨d, rest, htext, hd, -⟩ := h.toList_eq_cons
  rw [htext, List.head?_cons]
  rintro hcd
  rw [← Option.some.inj hcd, hd] at hc
  cases hc

theorem noneBegins_of_punctuation {c : Char} (hspace : ¬ Text.isSpace c = true)
    (hword : ¬ isWordChar c = true) (hbracket : c ≠ '[') (hdollar : c ≠ '$') (hnumber : c ≠ '#')
    (hslash : c ≠ '/') (hnone : punctuation? c = none) : Token.NoneBegins c := by
  intro token hproper
  cases token with
  | word text => exact not_begins_run hproper (Bool.eq_false_iff.mpr hword)
  | space text => exact not_begins_run hproper (Bool.eq_false_iff.mpr hspace)
  | endOfInput => exact hproper.elim
  | flexOpen | rigidOpen => exact fun hc => hbracket (Option.some.inj hc).symm
  | variableName name =>
    rw [Token.spelling, String.toList_append]
    exact fun hc => hdollar (Option.some.inj hc).symm
  | macroName name =>
    rw [Token.spelling, String.toList_append]
    exact fun hc => hnumber (Option.some.inj hc).symm
  | regex body =>
    rw [Token.spelling, String.toList_append, String.toList_append]
    exact fun hc => hslash (Option.some.inj hc).symm
  | _ =>
    intro hc
    rw [← Option.some.inj hc] at hnone
    cases hnone

theorem rejects_of_nextSymbol {s after : Scanner} {sigil : Char} {token : String → Token}
    {e : SyntaxError} {rest : List Char} (h : s.nextSymbol sigil token rest = (.error e, after))
    (hrest : s.rest = sigil :: rest) (hsigil : sigil = '$' ∨ sigil = '#') : s.Rejects e after := by
  have hsize : (String.singleton sigil).utf8ByteSize = 1 := by
    rcases hsigil with rfl | rfl <;> rfl
  unfold nextSymbol at h
  split at h
  · rename_i hnil
    simp only [past, hsize, Prod.mk.injEq, Except.error.injEq] at h
    obtain ⟨rfl, rfl⟩ := h
    refine .missingSymbol hrest hsigil fun c hc => ?_
    cases rest with
    | nil => cases hc
    | cons d rest =>
      cases hc
      by_contra hsymbol
      rw [List.takeWhile_cons_of_pos (Bool.not_eq_false _ ▸ hsymbol)] at hnil
      cases hnil
  · cases h

theorem rejects_of_nextRegex {s after : Scanner} {e : SyntaxError} {rest : List Char}
    (h : s.nextRegex rest = (.error e, after)) (hrest : s.rest = '/' :: rest) :
    s.Rejects e after := by
  unfold nextRegex at h
  split at h
  · rename_i hdrop
    simp only [past, Prod.mk.injEq, Except.error.injEq] at h
    obtain ⟨rfl, rfl⟩ := h
    rw [← hrest]
    refine .unterminatedRegex hrest fun hslash => ?_
    simpa using List.dropWhile_eq_nil_iff.mp hdrop '/' hslash
  · rename_i slash behind hdrop
    split at h
    · rename_i htake
      simp only [past, Prod.mk.injEq, Except.error.injEq] at h
      obtain ⟨rfl, rfl⟩ := h
      have hsplit := List.takeWhile_append_dropWhile (p := (· != '/')) (l := rest)
      rw [htake, hdrop, List.nil_append] at hsplit
      have hslash := head?_dropWhile_eq_false (· != '/') rest slash (by rw [hdrop]; rfl)
      obtain rfl : slash = '/' := by simpa using hslash
      exact .emptyRegex (hsplit ▸ hrest)
    · cases h

theorem rejects_of_next {s after : Scanner} {e : SyntaxError} (h : s.next = (.error e, after)) :
    s.Rejects e after := by
  unfold next at h
  split at h
  · cases h
  · rename_i c rest hrest
    split at h
    · cases h
    · rename_i hspace
      split at h
      · cases h
      · rename_i hword
        split at h
        · split at h <;> cases h
        · rename_i hbracket
          split at h
          · rename_i hdollar
            exact rejects_of_nextSymbol h (hdollar ▸ hrest) (.inl rfl)
          · rename_i hdollar
            split at h
            · rename_i hnumber
              exact rejects_of_nextSymbol h (hnumber ▸ hrest) (.inr rfl)
            · rename_i hnumber
              split at h
              · rename_i hslash
                exact rejects_of_nextRegex h (hslash ▸ hrest)
              · rename_i hslash
                split at h
                · cases h
                · rename_i hnone
                  cases h
                  exact .unexpectedChar hrest (noneBegins_of_punctuation hspace hword hbracket
                    hdollar hnumber hslash hnone)

/-- A text that is not split into tokens is some tokens and then a fault. -/
theorem exists_rejects_of_lexemes {s : Scanner} {e : SyntaxError} (h : s.lexemes = .error e) :
    ∃ (tokens : List Token) (stop after : Scanner), s.rest = Token.spell tokens ++ stop.rest ∧
      stop.position = s.position + (String.ofList (Token.spell tokens)).utf8ByteSize ∧
      stop.Rejects e after := by
  induction hn : s.rest.length using Nat.strongRecOn generalizing s with
  | _ n ih =>
    rw [lexemes] at h
    split at h
    · rename_i after hnext
      cases h
      exact ⟨[], s, after, rfl, rfl, rejects_of_next hnext⟩
    · rename_i l behind hnext
      split at h
      · cases h
      · rename_i hl
        have hs : s.rest ≠ [] := by
          intro hnil
          rw [next_of_rest_eq_nil hnil] at hnext
          cases hnext
          exact hl rfl
        obtain ⟨-, htakes⟩ := takes_of_next hnext hs
        have hshort := next_shorter s l behind hnext hl
        cases hbehind : behind.lexemes with
        | ok rest =>
          rw [hbehind] at h
          cases h
        | error e' =>
          rw [hbehind] at h
          cases h
          obtain ⟨tokens, stop, after, hrest, hposition, hrejects⟩ := ih _ (hn ▸ hshort) hbehind rfl
          refine ⟨l.token :: tokens, stop, after, ?_, ?_, hrejects⟩
          · rw [htakes.spelled, hrest, Token.spell_cons, List.append_assoc]
          · rw [hposition, htakes.position, Token.spell_cons, String.ofList_append,
              String.ofList_toList, String.utf8ByteSize_append, Nat.add_assoc]

end Scanner
end PhrasePattern
