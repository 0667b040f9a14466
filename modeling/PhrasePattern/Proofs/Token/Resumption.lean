import Mathlib
import PhrasePattern.Proofs.Token.Rejection
import PhrasePattern.Proofs.Token.Tiling

/-! A scanner can be called again after any answer. It stays on boundaries of characters and never
goes back. An answer takes it over the text that the answer is about, except at the end and in front
of a character that begins no token, where it stays and gives the same answer from then on. So a text
is split into tokens, or found to be faulty, after at most one call for each byte and one for the
end. -/
namespace PhrasePattern

open String.Pos.Raw (get? extract IsValid)

theorem iterate_add_of_isFixedPt {σ : Type} {step : σ → σ} {s : σ} {n : Nat}
    (h : Function.IsFixedPt step (step^[n] s)) (k : Nat) : step^[n + k] s = step^[n] s := by
  rw [Nat.add_comm, Function.iterate_add_apply]
  exact h.iterate k

namespace Scanner

def after (s : Scanner) (n : Nat) : Scanner := (fun s => s.next.2)^[n] s

def answer (s : Scanner) (n : Nat) : Except SyntaxError Lexeme := (s.after n).next.1

/-- What the scanner has still to read is the text from its position onwards. -/
def StandsIn (input : String) (s : Scanner) : Prop :=
  ∃ before : String, input = before ++ String.ofList s.rest ∧ s.position = before.utf8ByteSize

/-- From `s` to `behind`, the scanner goes over `text` and no further. -/
structure Passes (input : String) (s : Scanner) (text : String) (behind : Scanner) : Prop where
  advances : s.position < behind.position
  exactly : behind.position = s.position + text.utf8ByteSize
  covered : extract input ⟨s.position⟩ ⟨behind.position⟩ = text

inductive Call (input : String) (s : Scanner) : Except SyntaxError Lexeme → Scanner → Prop
  | token {token : Token} {behind : Scanner} (proper : token.IsProper)
      (passed : Passes input s token.spelling behind) :
      Call input s (.ok ⟨token, s.position⟩) behind
  | missingSymbol {sigil : Char} {behind : Scanner} (isSigil : sigil = '$' ∨ sigil = '#')
      (passed : Passes input s (String.singleton sigil) behind) :
      Call input s (.error ⟨behind.position, .missingSymbol sigil⟩) behind
  | emptyRegex {behind : Scanner} (passed : Passes input s "//" behind) :
      Call input s (.error ⟨s.position, .emptyRegex⟩) behind
  | unterminatedRegex {text : String} {behind : Scanner} (passed : Passes input s text behind)
      (all : behind.position = input.utf8ByteSize) :
      Call input s (.error ⟨s.position, .unterminatedRegex⟩) behind
  | ended (all : s.position = input.utf8ByteSize) :
      Call input s (.ok ⟨.endOfInput, s.position⟩) s
  | unexpectedChar {c : Char} (here : get? input ⟨s.position⟩ = some c)
      (alien : Token.NoneBegins c) :
      Call input s (.error ⟨s.position, .unexpectedChar c⟩) s

theorem answer_succ (s : Scanner) (n : Nat) : s.answer (n + 1) = s.next.2.answer n := rfl

section
variable {input : String} {s behind : Scanner}

theorem standsIn_start (input : String) : (start input).StandsIn input := by
  refine ⟨"", ?_, rfl⟩
  rw [start, String.ofList_toList, String.empty_append]

theorem StandsIn.isValid (h : s.StandsIn input) : IsValid input ⟨s.position⟩ := by
  obtain ⟨before, hinput, hposition⟩ := h
  exact String.Pos.Raw.isValid_iff_exists_append.mpr
    ⟨before, _, hinput, congrArg String.Pos.Raw.mk hposition⟩

theorem StandsIn.utf8ByteSize_eq (h : s.StandsIn input) :
    input.utf8ByteSize = s.position + (String.ofList s.rest).utf8ByteSize := by
  obtain ⟨before, hinput, hposition⟩ := h
  rw [hinput, String.utf8ByteSize_append, hposition]

theorem StandsIn.passes (h : s.StandsIn input) (text : String) (behind : Scanner) (hne : text ≠ "")
    (hrest : s.rest = text.toList ++ behind.rest)
    (hposition : behind.position = s.position + text.utf8ByteSize) :
    behind.StandsIn input ∧ s.Passes input text behind := by
  obtain ⟨before, hinput, hbefore⟩ := h
  have hsplit : input = before ++ text ++ String.ofList behind.rest := by
    rw [hinput, hrest, String.ofList_append, String.ofList_toList, String.append_assoc]
  have hsize : 0 < text.utf8ByteSize :=
    Nat.pos_of_ne_zero fun hzero => hne (String.utf8ByteSize_eq_zero_iff.mp hzero)
  refine ⟨⟨before ++ text, hsplit, ?_⟩, by omega, hposition, ?_⟩
  · rw [hposition, hbefore, String.utf8ByteSize_append]
  · rw [hposition, hbefore, hsplit]
    exact extract_append before text _

theorem StandsIn.takes (h : s.StandsIn input) {token : Token} (htakes : s.Takes token behind) :
    behind.StandsIn input ∧ s.Passes input token.spelling behind :=
  h.passes _ _ (fun hnil => htakes.proper.spelling_ne_nil (by rw [hnil]; rfl)) htakes.spelled
    htakes.position

theorem next_cases (s : Scanner) :
    s.rest = [] ∧ s.next = (.ok ⟨.endOfInput, s.position⟩, s) ∨
    (∃ token behind, s.Takes token behind ∧ s.next = (.ok ⟨token, s.position⟩, behind)) ∨
    ∃ e behind, s.Rejects e behind ∧ s.next = (.error e, behind) := by
  by_cases hs : s.rest = []
  · exact .inl ⟨hs, next_of_rest_eq_nil hs⟩
  rcases hnext : s.next with ⟨e | ⟨token, position⟩, behind⟩
  · exact .inr (.inr ⟨e, behind, rejects_of_next hnext, rfl⟩)
  · obtain ⟨hposition, htakes⟩ := takes_of_next hnext hs
    cases hposition
    exact .inr (.inl ⟨token, behind, htakes, rfl⟩)

theorem StandsIn.rejects {e : SyntaxError} (h : s.StandsIn input) (hrejects : s.Rejects e behind) :
    behind.StandsIn input ∧ s.Call input (.error e) behind := by
  cases hrejects with
  | @unexpectedChar c rest here alien =>
    refine ⟨h, .unexpectedChar ?_ alien⟩
    obtain ⟨before, hinput, hbefore⟩ := h
    rw [hinput, hbefore, get?_append, here]
    simp
  | @missingSymbol sigil rest here isSigil nameless =>
    have hsize : (String.singleton sigil).utf8ByteSize = 1 := by
      rcases isSigil with rfl | rfl <;> rfl
    obtain ⟨hbehind, hpassed⟩ := h.passes (String.singleton sigil) ⟨rest, s.position + 1⟩
      (by simp) (by simpa using here) (by rw [hsize])
    exact ⟨hbehind, .missingSymbol isSigil hpassed⟩
  | @unterminatedRegex rest here unclosed =>
    obtain ⟨hbehind, hpassed⟩ := h.passes (String.ofList s.rest)
      ⟨[], s.position + (String.ofList s.rest).utf8ByteSize⟩ (by rw [here]; simp) (by simp) rfl
    exact ⟨hbehind, .unterminatedRegex hpassed h.utf8ByteSize_eq.symm⟩
  | @emptyRegex rest here =>
    obtain ⟨hbehind, hpassed⟩ := h.passes "//" ⟨rest, s.position + 2⟩ (by decide)
      (by simpa using here) rfl
    exact ⟨hbehind, .emptyRegex hpassed⟩

theorem StandsIn.next (h : s.StandsIn input) :
    s.next.2.StandsIn input ∧ s.Call input s.next.1 s.next.2 := by
  rcases s.next_cases with ⟨hnil, hnext⟩ | ⟨token, behind, htakes, hnext⟩ |
    ⟨e, behind, hrejects, hnext⟩
  · have hsize := h.utf8ByteSize_eq
    rw [hnil] at hsize
    rw [hnext]
    exact ⟨h, .ended hsize.symm⟩
  · obtain ⟨hbehind, hpassed⟩ := h.takes htakes
    rw [hnext]
    exact ⟨hbehind, .token htakes.proper hpassed⟩
  · rw [hnext]
    exact h.rejects hrejects

theorem StandsIn.after (h : s.StandsIn input) (n : Nat) : (s.after n).StandsIn input :=
  Function.Iterate.rec (StandsIn input) h (fun _ hstands => hstands.next.1) n

theorem Call.position_le {result : Except SyntaxError Lexeme} (h : s.Call input result behind) :
    s.position ≤ behind.position := by
  cases h with
  | token _ passed | missingSymbol _ passed | emptyRegex passed | unterminatedRegex passed _ =>
    exact Nat.le_of_lt passed.advances
  | ended | unexpectedChar => exact Nat.le_refl _

theorem Call.eq_self {result : Except SyntaxError Lexeme} (h : s.Call input result behind)
    (hlast : (∃ place, result = .ok ⟨.endOfInput, place⟩) ∨
      ∃ place c, result = .error ⟨place, .unexpectedChar c⟩) : behind = s := by
  cases h with
  | token proper =>
    rcases hlast with ⟨place, hend⟩ | ⟨place, c, hchar⟩
    · cases hend
      exact proper.elim
    · cases hchar
  | ended | unexpectedChar => rfl
  | _ =>
    rcases hlast with ⟨place, hend⟩ | ⟨place, c, hchar⟩
    · cases hend
    · cases hchar

end

/-- The lexemes are the answers to the calls up to the first one that gives no further token. -/
inductive Collects (s : Scanner) (n : Nat) : Except SyntaxError (List Lexeme) → Prop
  | ended {lexemes : List Lexeme} (place : Nat) (last : s.answer n = .ok ⟨.endOfInput, place⟩)
      (all : lexemes.map .ok = (List.range (n + 1)).map s.answer) : Collects s n (.ok lexemes)
  | rejected {e : SyntaxError} (last : s.answer n = .error e) : Collects s n (.error e)

theorem Collects.cons {s behind : Scanner} {l : Lexeme} {n : Nat}
    {result : Except SyntaxError (List Lexeme)} (h : behind.Collects n result)
    (hnext : s.next = (.ok l, behind)) : s.Collects (n + 1) (result.map (l :: ·)) := by
  have hanswer : ∀ k, s.answer (k + 1) = behind.answer k := by
    intro k
    rw [answer_succ, hnext]
  cases h with
  | ended place last all =>
    refine .ended place ((hanswer n).trans last) ?_
    have hfirst : s.answer 0 = .ok l := congrArg Prod.fst hnext
    rw [List.map_cons, all, List.range_succ_eq_map (n := n + 1), List.map_cons, hfirst,
      List.map_map]
    exact congrArg _ (List.map_congr_left fun k _ => (hanswer k).symm)
  | rejected last => exact .rejected ((hanswer n).trans last)

/-- Each call before the last one takes a byte or more of what is left. -/
theorem exists_collects (s : Scanner) :
    ∃ n ≤ (String.ofList s.rest).utf8ByteSize,
      (∀ k < n, ∃ l, s.answer k = .ok l ∧ l.token ≠ .endOfInput) ∧ s.Collects n s.lexemes := by
  induction hn : s.rest.length using Nat.strongRecOn generalizing s with
  | _ _ ih =>
    rcases s.next_cases with ⟨-, hnext⟩ | ⟨token, behind, htakes, hnext⟩ |
      ⟨e, behind, -, hnext⟩
    · refine ⟨0, Nat.zero_le _, fun k hk => absurd hk (Nat.not_lt_zero k), ?_⟩
      rw [lexemes_of_next hnext, if_pos rfl]
      exact .ended s.position (congrArg Prod.fst hnext) (by simp [answer, after, hnext])
    -- a token that is taken has a byte at least, so the calls are no more than the bytes
    · have htoken : token ≠ .endOfInput := by
        rintro rfl
        exact htakes.proper
      have hshort := next_shorter s _ behind hnext htoken
      obtain ⟨n, hle, htokens, hcollects⟩ := ih _ (hn ▸ hshort) behind rfl
      have hsize : (String.ofList s.rest).utf8ByteSize =
          token.spelling.utf8ByteSize + (String.ofList behind.rest).utf8ByteSize := by
        rw [htakes.spelled, String.ofList_append, String.utf8ByteSize_append,
          String.ofList_toList]
      have hpos := htakes.proper.utf8ByteSize_pos
      refine ⟨n + 1, by omega, fun k hk => ?_, ?_⟩
      · cases k with
        | zero => exact ⟨_, congrArg Prod.fst hnext, htoken⟩
        | succ k =>
          rw [answer_succ, hnext]
          exact htokens k (Nat.lt_of_succ_lt_succ hk)
      · rw [lexemes_of_takes htakes]
        exact hcollects.cons hnext
    · refine ⟨0, Nat.zero_le _, fun k hk => absurd hk (Nat.not_lt_zero k), ?_⟩
      have herror : s.lexemes = .error e := by
        rw [lexemes]
        split <;> rename_i heq <;> rw [hnext] at heq <;> cases heq
        rfl
      rw [herror]
      exact .rejected (congrArg Prod.fst hnext)

end Scanner

open Scanner in
/-- However often a scanner is called, it is on a boundary of characters in the text, never before the
place where it was, and each call leaves it where its answer says; after the end, or a character that
begins no token, all answers are the same and the scanner does not move. The text is split into tokens
by the calls up to the first one that gives no token, of which there are no more than bytes and one. -/
theorem scanner_resumes (input : String) :
    (∀ n, let s := (start input).after n
      s.StandsIn input ∧ IsValid input ⟨s.position⟩ ∧ s.position ≤ input.utf8ByteSize ∧
      (∀ m, n ≤ m → s.position ≤ ((start input).after m).position) ∧
      s.Call input s.next.1 s.next.2 ∧
      ((∃ place, s.next.1 = .ok ⟨.endOfInput, place⟩) ∨
          (∃ place c, s.next.1 = .error ⟨place, .unexpectedChar c⟩) →
        ∀ m, n ≤ m → (start input).answer m = s.next.1 ∧
          ((start input).after m).position = s.position)) ∧
    ∃ n ≤ input.utf8ByteSize,
      (∀ k < n, ∃ l, (start input).answer k = .ok l ∧ l.token ≠ .endOfInput) ∧
      (start input).Collects n (tokenize input) ∧
      ∀ lexemes, tokenize input = .ok lexemes → lexemes.length = n + 1 := by
  refine ⟨fun n => ?_, ?_⟩
  · have hstands := (standsIn_start input).after n
    refine ⟨hstands, hstands.isValid, hstands.isValid.le_rawEndPos, fun m hm => ?_, hstands.next.2,
      fun hlast m hm => ?_⟩
    · obtain ⟨k, rfl⟩ := Nat.exists_eq_add_of_le hm
      induction k with
      | zero => exact Nat.le_refl _
      | succ k ih =>
        have hsucc : (start input).after (n + k + 1) = ((start input).after (n + k)).next.2 :=
          Function.iterate_succ_apply' _ _ _
        rw [← Nat.add_assoc, hsucc]
        exact (ih (Nat.le_add_right n k)).trans
          ((standsIn_start input).after (n + k)).next.2.position_le
    · obtain ⟨k, rfl⟩ := Nat.exists_eq_add_of_le hm
      have hself : Function.IsFixedPt (fun s => s.next.2) ((start input).after n) :=
        hstands.next.2.eq_self hlast
      have hstays : (start input).after (n + k) = (start input).after n :=
        iterate_add_of_isFixedPt hself k
      rw [answer, hstays]
      exact ⟨rfl, rfl⟩
  · obtain ⟨n, hle, htokens, hcollects⟩ := exists_collects (start input)
    rw [start, String.ofList_toList] at hle
    refine ⟨n, hle, htokens, hcollects, fun lexemes hlexemes => ?_⟩
    have hall : (start input).Collects n (tokenize input) := hcollects
    rw [hlexemes] at hall
    cases hall with
    | ended place last all => simpa using congrArg List.length all

end PhrasePattern
