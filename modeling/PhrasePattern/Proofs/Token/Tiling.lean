import Mathlib
import PhrasePattern.Proofs.Term.WellFormed

/-! The lexemes of a text lie side by side. Each one is spelled by the bytes from its position up to
the position of the next, which are boundaries of characters, and reaches as far as its token can go;
the end of the text is the last one. -/
namespace PhrasePattern

open String.Pos.Raw (get? extract prev)

/-- A lexeme and the one behind it, as they stand in a text. -/
structure Lexeme.Adjoins (input : String) (l next : Lexeme) : Prop where
  increasing : l.position < next.position
  spelled : extract input ⟨l.position⟩ ⟨next.position⟩ = l.token.spelling
  proper : l.token.IsProper
  complete : ∀ c, get? input ⟨next.position⟩ = some c → l.token.absorbs c = false
  noTwoWords : ∀ text other, l.token = .word text → next.token ≠ .word other
  noTwoSpaces : ∀ text other, l.token = .space text → next.token ≠ .space other
  wordBegins : ∀ text, next.token = .word text →
    ∀ c, get? input (prev input ⟨next.position⟩) = some c → isWordChar c = false

section bytes
variable (before text after : String)

theorem utf8ByteSize_eq_utf8Len : text.utf8ByteSize = String.utf8Len text.toList := by
  rw [← String.utf8ByteSize_ofList, String.ofList_toList]

theorem append_eq_ofList : before ++ after = String.ofList (before.toList ++ after.toList) := by
  simp [String.ofList_append]

theorem extract_append : extract (before ++ text ++ after) ⟨before.utf8ByteSize⟩
    ⟨before.utf8ByteSize + text.utf8ByteSize⟩ = text := by
  have h := String.extract_of_valid before.toList text.toList after.toList
  simpa only [utf8ByteSize_eq_utf8Len, String.ofList_append, String.ofList_toList] using h

theorem get?_append : get? (before ++ after) ⟨before.utf8ByteSize⟩ = after.toList.head? := by
  rw [append_eq_ofList, utf8ByteSize_eq_utf8Len]
  exact String.get?_of_valid _ _

variable {before after}

theorem get?_prev_append {c : Char} (h : get? (before ++ after)
    (prev (before ++ after) ⟨before.utf8ByteSize⟩) = some c) (hne : before.toList ≠ []) :
    before.toList.getLast? = some c := by
  obtain ⟨front, last, hlast⟩ := (List.eq_nil_or_concat before.toList).resolve_left hne
  rw [List.concat_eq_append] at hlast
  rw [append_eq_ofList, utf8ByteSize_eq_utf8Len, hlast, String.prev_of_valid',
    List.dropLast_concat, List.append_assoc, String.get?_of_valid] at h
  rw [hlast, List.getLast?_concat]
  exact h

end bytes

namespace Token

theorem IsProper.utf8ByteSize_pos {token : Token} (h : token.IsProper) :
    0 < token.spelling.utf8ByteSize := by
  refine Nat.pos_of_ne_zero fun hzero => h.spelling_ne_nil ?_
  rw [String.utf8ByteSize_eq_zero_iff.mp hzero]
  rfl

theorem IsProper.absorbs_of_getLast? {token : Token} (h : token.IsProper) {c d : Char}
    (hlast : token.spelling.toList.getLast? = some c) (hc : isWordChar c = true)
    (hd : isWordChar d = true) : token.absorbs d = true := by
  have hsymbol : isSymbolChar d = true := by simp [isSymbolChar, show d.isAlphanum = true from hd]
  cases token with
  | variableName | macroName => exact hsymbol
  | word => exact hd
  | space text =>
    have hspace := Scanner.isSpace_eq_false_of_isWordChar hc
    rw [h.2 c (List.mem_of_getLast? hlast)] at hspace
    cases hspace
  | regex body =>
    have hslash : '/' = c := by
      rw [spelling, String.toList_append] at hlast
      exact Option.some.inj (List.getLast?_concat.symm.trans hlast)
    exact absurd hc (hslash ▸ by decide)
  | endOfInput => exact h.elim
  | _ => exact absurd hc (by rw [← Option.some.inj hlast]; decide)

def following (others : List Token) : Token := others.headD .endOfInput

theorem Scannable.exists_head? {others : List Token} (h : Scannable others) {next : Token}
    (hnext : following others = next) (hne : next ≠ .endOfInput) {p : Char → Bool}
    (hrun : next.IsProper → IsRun p next.spelling) : ∃ c ∈ (spell others).head?, p c = true := by
  subst hnext
  cases others with
  | nil => exact absurd rfl hne
  | cons first more =>
    obtain ⟨c, rest, htext, hc, -⟩ := (hrun h.1).toList_eq_cons
    refine ⟨c, ?_, hc⟩
    rw [spell_cons, show first.spelling.toList = c :: rest from htext]
    rfl

end Token

namespace Lexeme
variable {input before : String} {token : Token} {others : List Token}

theorem eq_append_spell (hinput : input = before ++ String.ofList (Token.spell (token :: others))) :
    input = before ++ token.spelling ++ String.ofList (Token.spell others) := by
  rw [hinput, Token.spell_cons, String.ofList_append, String.ofList_toList, String.append_assoc]

/-- A token that takes all it can, and what follows it. -/
theorem adjoins_of_scannable
    (hinput : input = before ++ String.ofList (Token.spell (token :: others)))
    (h : Token.Scannable (token :: others)) :
    Adjoins input ⟨token, before.utf8ByteSize⟩
      ⟨Token.following others, before.utf8ByteSize + token.spelling.utf8ByteSize⟩ := by
  obtain ⟨hproper, hcomplete, hothers⟩ := h
  have hsplit := eq_append_spell hinput
  have hsize : before.utf8ByteSize + token.spelling.utf8ByteSize =
      (before ++ token.spelling).utf8ByteSize := String.utf8ByteSize_append.symm
  have hword : ∀ text, Token.following others = .word text →
      ∃ c ∈ (Token.spell others).head?, isWordChar c = true :=
    fun text hnext => hothers.exists_head? hnext (by simp) id
  refine ⟨?_, ?_, hproper, ?_, ?_, ?_, ?_⟩
  · exact Nat.lt_add_of_pos_right hproper.utf8ByteSize_pos
  · rw [hsplit]
    exact extract_append _ _ _
  · intro c hc
    rw [hsize, hsplit, get?_append, String.toList_ofList] at hc
    exact hcomplete c hc
  · rintro text other rfl hnext
    obtain ⟨c, hc, hwordChar⟩ := hword other hnext
    exact absurd (hcomplete c hc) (by simp [Token.absorbs, hwordChar])
  · rintro text other rfl hnext
    obtain ⟨c, hc, hspace⟩ := hothers.exists_head? (p := Text.isSpace) hnext (by simp) id
    exact absurd (hcomplete c hc) (by simp [Token.absorbs, hspace])
  · intro text hnext c hc
    obtain ⟨d, hd, hwordChar⟩ := hword text hnext
    rw [hsize, hsplit] at hc
    have hlast := get?_prev_append hc (by simpa using fun _ => hproper.spelling_ne_nil)
    rw [String.toList_append, List.getLast?_append_of_ne_nil _ hproper.spelling_ne_nil] at hlast
    by_contra hchar
    have habsorbs := hproper.absorbs_of_getLast? hlast (by simpa using hchar) hwordChar
    rw [hcomplete d hd] at habsorbs
    cases habsorbs

theorem isChain_placed {tokens : List Token} (h : Token.Scannable tokens)
    (hinput : input = before ++ String.ofList (Token.spell tokens)) :
    List.IsChain (Adjoins input)
      (placed before.utf8ByteSize tokens ++ [⟨.endOfInput, input.utf8ByteSize⟩]) := by
  induction tokens generalizing before with
  | nil => exact .singleton _
  | cons token others ih =>
    have hrest := eq_append_spell hinput
    have hadjoins := adjoins_of_scannable hinput h
    rw [← String.utf8ByteSize_append] at hadjoins
    rw [placed, ← String.utf8ByteSize_append, List.cons_append]
    refine (ih h.2.2 hrest).cons fun next hnext => ?_
    suffices next = ⟨Token.following others, (before ++ token.spelling).utf8ByteSize⟩ from
      this ▸ hadjoins
    cases others with
    | nil =>
      have hend : input = before ++ token.spelling := by simpa using hrest
      rw [← hend]
      exact (Option.some.inj hnext).symm
    | cons first more => exact (Option.some.inj hnext).symm

theorem isValid_placed {tokens : List Token}
    (hinput : input = before ++ String.ofList (Token.spell tokens)) :
    ∀ l ∈ placed before.utf8ByteSize tokens, String.Pos.Raw.IsValid input ⟨l.position⟩ := by
  induction tokens generalizing before with
  | nil => simp [placed]
  | cons token others ih =>
    intro l hl
    rw [placed, ← String.utf8ByteSize_append] at hl
    rcases List.mem_cons.mp hl with rfl | hl
    · exact String.Pos.Raw.isValid_iff_exists_append.mpr ⟨before, _, hinput, rfl⟩
    · exact ih (eq_append_spell hinput) l hl

end Lexeme

/-- The lexemes of a text begin at its first byte and end with the end of the text, and with no other
end. They lie on boundaries of characters, further on with each one. The bytes between two positions
spell the token at the first of them, which is proper and takes all that it can of what follows; no
word follows a word and no space a space, and no word begins behind a character that words have. All
spellings together are the text. -/
theorem lexemes_tile (input : String) (lexemes : List Lexeme) (h : tokenize input = .ok lexemes) :
    lexemes.head?.map (·.position) = some 0 ∧
    (∃ others, lexemes = others ++ [⟨.endOfInput, input.utf8ByteSize⟩] ∧
      ∀ l ∈ others, l.token ≠ .endOfInput) ∧
    (lexemes.map (·.position)).Pairwise (· < ·) ∧
    (∀ l ∈ lexemes, String.Pos.Raw.IsValid input ⟨l.position⟩) ∧
    lexemes.IsChain (Lexeme.Adjoins input) ∧
    String.join (lexemes.map (·.token.spelling)) = input := by
  obtain ⟨tokens, hscan, hspell, rfl⟩ := (tokenize_eq_ok_iff input lexemes).mp h
  have hinput : input = "" ++ String.ofList (Token.spell tokens) := by
    rw [← hspell, String.ofList_toList, String.empty_append]
  have hchain := Lexeme.isChain_placed hscan hinput
  refine ⟨?_, ⟨_, rfl, ?_⟩, ?_, ?_, hchain, ?_⟩
  · cases tokens with
    | nil =>
      have hempty : input = "" := by simpa using hinput
      simp [Lexeme.placed, hempty]
    | cons token others => rfl
  · intro l hl hend
    have hproper := Grammar.allProper_placed 0 hscan l hl
    rw [hend] at hproper
    exact hproper
  · exact (List.isChain_map_of_isChain _ (fun _ _ hl => hl.increasing) hchain).pairwise
  · intro l hl
    rcases List.mem_append.mp hl with hl | hl
    · exact Lexeme.isValid_placed hinput l hl
    · rw [List.mem_singleton.mp hl]
      exact String.Pos.Raw.isValid_rawEndPos
  · have htokens : tokens.flatMap (·.spelling.toList) =
        (Lexeme.placed 0 tokens).flatMap (·.token.spelling.toList) := by
      conv_lhs => rw [← Grammar.map_token_placed 0 tokens]
      exact List.flatMap_map _ _ _
    rw [← String.toList_inj, String.toList_join, hspell, Token.spell, htokens, List.flatMap_map,
      List.flatMap_append]
    exact List.append_nil _

/-- The lexemes of a text that has characters of one, two and three bytes. -/
def wideLexemes : List Lexeme :=
  [⟨.rigidOpen, 0⟩, ⟨.word "a", 2⟩, ⟨.space "\u3000", 3⟩, ⟨.word "b", 6⟩, ⟨.space " ", 7⟩,
    ⟨.variableName "x.1", 8⟩, ⟨.equals, 12⟩, ⟨.regex "é", 13⟩, ⟨.closeBracket, 17⟩,
    ⟨.endOfInput, 18⟩]

theorem lexemes_tile_wideLexemes :
    tokenize "[!a\u3000b $x.1=/é/]" = .ok wideLexemes ∧
      (wideLexemes.map (·.position)).Pairwise (· < ·) ∧
      wideLexemes.IsChain (Lexeme.Adjoins "[!a\u3000b $x.1=/é/]") ∧
      String.join (wideLexemes.map (·.token.spelling)) = "[!a\u3000b $x.1=/é/]" := by
  have htokens : tokenize "[!a\u3000b $x.1=/é/]" = .ok wideLexemes := by cbv
  obtain ⟨-, -, hpositions, -, hchain, hjoin⟩ := lexemes_tile _ _ htokens
  exact ⟨htokens, hpositions, hchain, hjoin⟩

end PhrasePattern
