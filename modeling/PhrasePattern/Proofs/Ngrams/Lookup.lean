import Mathlib.Data.List.Infix
import PhrasePattern.Proofs.Text.Runs
import PhrasePattern.Proofs.Text.SmallLetters

/-! Phrases are kept as texts, with a blank between two words, and texts are what a look-up compares.
No word is empty or has a blank in it, so texts that are equal have the same words, and a phrase is found
if and only if its words follow one another in the utterance. A phrase that is kept need not be found
itself: looking it up takes it apart once more, and a dot that came from a capital I ends a word. -/
namespace PhrasePattern

section Windows
variable {α : Type} {n : Nat} {items window : List α}

theorem length_windows (h : n ≠ 0) : (windows n items).length = items.length + 1 - n := by
  rw [windows, if_neg h, List.length_map, List.length_range]

theorem getElem?_windows (before after : List α) (h : window ≠ []) :
    (windows window.length (before ++ window ++ after))[before.length]? = some window := by
  have hlength : window.length ≠ 0 := by simpa using h
  have hbefore : before.length < (before ++ window ++ after).length + 1 - window.length := by
    rw [List.length_append, List.length_append]
    omega
  rw [windows, if_neg hlength, List.getElem?_map, List.getElem?_range hbefore]
  simp

theorem mem_windows_iff :
    window ∈ windows n items ↔ n ≠ 0 ∧ window.length = n ∧ window <:+: items := by
  constructor
  · intro h
    unfold windows at h
    split at h
    · cases h
    · rename_i hn
      obtain ⟨start, hstart, rfl⟩ := List.mem_map.mp h
      have hlt := List.mem_range.mp hstart
      refine ⟨hn, by rw [List.length_take, List.length_drop]; omega, ?_⟩
      exact (List.take_prefix n _).isInfix.trans (List.drop_suffix start items).isInfix
  · rintro ⟨hn, rfl, before, after, rfl⟩
    exact List.mem_of_getElem? (getElem?_windows before after (List.ne_nil_of_length_pos (by omega)))

end Windows

namespace TextSet

theorem isSome_lookup_iff {entries : List (String × Unit)} {text : String} :
    (entries.lookup text).isSome = true ↔ text ∈ entries.map (·.1) := by
  rw [Option.isSome_iff_ne_none, ne_eq, List.lookup_eq_none_iff]
  simp

theorem mem_items_iff {s : TextSet} {text : String} :
    text ∈ s.items ↔ Dict.contains s text = true := isSome_lookup_iff.symm

theorem contains_ofList_iff {items : List String} {text : String} :
    Dict.contains (ofList items) text = true ↔ text ∈ items := by
  rw [Dict.contains, ofList, Dict.ofList, Dict.get?_insertAll, Dict.get?_empty, Option.or_none,
    isSome_lookup_iff]
  simp

end TextSet

section Words
variable {text : String} {word : String} {words : List String}

/-- The words of a text are not empty and of small characters. They are made of the characters of words
and of the dots that capital I's leave behind. -/
theorem mem_wordTokens (h : word ∈ wordTokens text) :
    word.toList ≠ [] ∧ ∀ c ∈ word.toList, Text.IsSmall c ∧
      (isTokenChar c = true ∨ c = '\u0307' ∧ '\u0130' ∈ text.toList) := by
  obtain ⟨run, hrun, rfl⟩ := List.mem_map.mp h
  obtain ⟨hne, hall, hsubset⟩ := mem_runsFrom hrun
  rw [String.toList_ofList]
  refine ⟨Text.lowercase_ne_nil hne, fun c hc => ?_⟩
  obtain ⟨d, hd, before, after, hform⟩ := Text.exists_of_mem_lowercaseFrom hc
  obtain ⟨hsmall, rfl | hletter | ⟨hdot, hcapital⟩⟩ := Text.mem_smallForm hform
  · exact ⟨hsmall, .inl (hall c hd)⟩
  · exact ⟨hsmall, .inl (by rw [isTokenChar, hletter, Bool.true_or])⟩
  · exact ⟨hsmall, .inr ⟨hdot, hsubset (hcapital ▸ hd)⟩⟩

theorem isTokenChar_blank : isTokenChar ' ' = false := by decide

theorem isTokenChar_dot : isTokenChar '\u0307' = false := by decide +kernel

theorem ne_of_isTokenChar {c : Char} (h : isTokenChar c = true) : c ≠ ' ' ∧ c ≠ '\u0307' := by
  constructor
  · rintro rfl
    rw [isTokenChar_blank] at h
    cases h
  · rintro rfl
    rw [isTokenChar_dot] at h
    cases h

theorem ne_blank_of_mem_wordTokens (h : word ∈ wordTokens text) : ∀ c ∈ word.toList, c ≠ ' ' := by
  intro c hc
  rcases ((mem_wordTokens h).2 c hc).2 with htoken | ⟨rfl, -⟩
  · exact (ne_of_isTokenChar htoken).1
  · decide

namespace Ngrams

theorem runsFrom_phrase_eq (h : words ⊆ wordTokens text) :
    runsFrom (· != ' ') [] (phrase words).toList = words.map String.toList := by
  rw [runsFrom_phrase (by decide), List.map_eq_flatMap]
  refine List.flatMap_congr fun word hword => ?_
  refine runsFrom_eq_singleton (mem_wordTokens (h hword)).1 fun c hc => ?_
  rw [bne_iff_ne]
  exact ne_blank_of_mem_wordTokens (h hword) c hc

theorem phrase_inj {other : String} {others : List String} (h : words ⊆ wordTokens text)
    (h' : others ⊆ wordTokens other) (heq : phrase words = phrase others) : words = others := by
  have hruns : words.map String.toList = others.map String.toList := by
    rw [← runsFrom_phrase_eq h, heq, runsFrom_phrase_eq h']
  exact (List.map_inj_right fun _ _ => String.toList_injective).mp hruns

theorem phrase_eq_empty_iff (h : words ⊆ wordTokens text) : phrase words = "" ↔ words = [] := by
  constructor
  · intro heq
    exact phrase_inj h (List.nil_subset (wordTokens text)) heq
  · rintro rfl
    rfl

variable {g : Ngrams} {gram : String} {n : Nat}

theorem mem_ofLength_iff :
    gram ∈ g.ofLength n ↔
      ∃ window, n ≠ 0 ∧ window.length = n ∧ window <:+: g.tokens ∧ phrase window = gram := by
  simp only [ofLength, List.mem_map, mem_windows_iff, and_assoc]

theorem ofLength_eq_nil (h : n = 0 ∨ g.tokens.length < n) : g.ofLength n = [] := by
  refine List.eq_nil_iff_forall_not_mem.mpr fun gram hgram => ?_
  obtain ⟨window, hn, hlength, hinfix, -⟩ := mem_ofLength_iff.mp hgram
  have hle := hinfix.length_le
  omega

theorem mem_grams_iff :
    gram ∈ g.grams.items ↔ ∃ n, 1 ≤ n ∧ n ≤ g.longest ∧ gram ∈ g.ofLength n := by
  rw [TextSet.mem_items_iff, grams, TextSet.contains_ofList_iff, List.mem_flatMap]
  constructor
  · rintro ⟨n, hn, hgram⟩
    have hlt := List.mem_range.mp hn
    exact ⟨n + 1, by omega, by omega, hgram⟩
  · rintro ⟨n, hone, hlongest, hgram⟩
    have hfits : n ≤ g.tokens.length := by
      by_contra hlong
      rw [ofLength_eq_nil (.inr (by omega))] at hgram
      cases hgram
    refine ⟨n - 1, List.mem_range.mpr (by omega), ?_⟩
    rwa [Nat.sub_add_cancel hone]

theorem contains_iff (g : Ngrams) (text : String) :
    g.contains text = true ↔
      wordTokens text ≠ [] ∧ (wordTokens text).length ≤ g.longest ∧
        wordTokens text <:+: g.tokens := by
  have hwords : wordTokens text ⊆ wordTokens text := List.Subset.refl _
  rw [contains, Bool.and_eq_true, bne_iff_ne, ne_eq, phrase_eq_empty_iff hwords,
    ← TextSet.mem_items_iff, mem_grams_iff]
  refine and_congr_right fun hne => ?_
  constructor
  · rintro ⟨n, -, hlongest, hgram⟩
    obtain ⟨window, -, rfl, hinfix, heq⟩ := mem_ofLength_iff.mp hgram
    have hwindow : window ⊆ wordTokens g.text := hinfix.subset
    obtain rfl := phrase_inj hwindow hwords heq
    exact ⟨hlongest, hinfix⟩
  · rintro ⟨hlongest, hinfix⟩
    have hpos : (wordTokens text).length ≠ 0 := by simpa using hne
    exact ⟨(wordTokens text).length, by omega, hlongest,
      mem_ofLength_iff.mpr ⟨wordTokens text, hpos, rfl, hinfix, rfl⟩⟩

/-- A phrase is found if and only if its words follow one another in the utterance and are not too many;
the phrases that are kept are those of each length up to the longest; and those of one length are as many
as there are places for them, in the order of these places. -/
theorem contains_exact (text : String) (longest : Nat) :
    (∀ any : String, ∃ runs, Runs isTokenChar any.toList runs ∧
      wordTokens any = runs.map fun run => String.ofList (Text.lowercase run)) ∧
    (∀ sought, contains ⟨text, longest⟩ sought = true ↔
      wordTokens sought ≠ [] ∧ (wordTokens sought).length ≤ longest ∧
        wordTokens sought <:+: wordTokens text) ∧
    (∀ gram, gram ∈ (grams ⟨text, longest⟩).items ↔
      ∃ n, 1 ≤ n ∧ n ≤ longest ∧ gram ∈ ofLength ⟨text, longest⟩ n) ∧
    (∀ n, 1 ≤ n → n ≤ (wordTokens text).length →
      (ofLength ⟨text, longest⟩ n).length = (wordTokens text).length - n + 1 ∧
        ∀ before window after, wordTokens text = before ++ window ++ after → window.length = n →
          (ofLength ⟨text, longest⟩ n)[before.length]? = some (phrase window)) ∧
    ∀ n, n = 0 ∨ (wordTokens text).length < n → ofLength ⟨text, longest⟩ n = [] := by
  refine ⟨fun any => ⟨_, runs_runsFrom isTokenChar any.toList, rfl⟩, contains_iff ⟨text, longest⟩,
    fun gram => mem_grams_iff, fun n hone hfits => ⟨?_, ?_⟩, fun n hn => ofLength_eq_nil hn⟩
  · rw [ofLength, List.length_map, length_windows (by omega)]
    exact Nat.sub_add_comm hfits
  · rintro before window after hsplit rfl
    have hne : window ≠ [] := List.ne_nil_of_length_pos hone
    rw [ofLength, tokens, hsplit, List.getElem?_map, getElem?_windows before after hne]
    rfl

theorem contains_exact_black_cat :
    wordTokens "A black, black Cat!" = ["a", "black", "black", "cat"] ∧
    contains ⟨"A black, black Cat!", 2⟩ "BLACK  cat" = true ∧
    (ofLength ⟨"A black, black Cat!", 2⟩ 2).length = 3 ∧
    (ofLength ⟨"A black, black Cat!", 2⟩ 2)[1]? = some "black black" ∧
    ofLength ⟨"A black, black Cat!", 2⟩ 5 = [] := by
  have hwords : wordTokens "A black, black Cat!" = ["a", "black", "black", "cat"] := by decide +kernel
  have hsought : wordTokens "BLACK  cat" = ["black", "cat"] := by decide +kernel
  obtain ⟨-, hcontains, -, hwindows, hnone⟩ := contains_exact "A black, black Cat!" 2
  rw [hwords] at hcontains hwindows hnone
  obtain ⟨hlength, hplaces⟩ := hwindows 2 (by decide) (by decide)
  refine ⟨hwords, (hcontains _).mpr ?_, hlength, ?_, hnone 5 (by decide)⟩
  · rw [hsought]
    exact ⟨by decide, by decide, ["a", "black"], [], rfl⟩
  · exact hplaces ["a"] ["black", "black"] ["cat"] rfl rfl

/-- A phrase cut at the blanks and at the dots that capital I's leave behind. -/
def pieces (gram : String) : List String :=
  (runsFrom (fun c => c != ' ' && c != '\u0307') [] gram.toList).map String.ofList

theorem eq_blank_or_mem_of_mem_phrase {c : Char} (h : c ∈ (phrase words).toList) :
    c = ' ' ∨ ∃ word ∈ words, c ∈ word.toList :=
  (mem_intercalate h).imp_left List.mem_singleton.mp

/-- Words that are put together and read again are small already, so they are only cut. -/
theorem wordTokens_phrase (h : words ⊆ wordTokens text) :
    wordTokens (phrase words) = pieces (phrase words) := by
  have hchars : ∀ c ∈ (phrase words).toList,
      c = ' ' ∨ Text.IsSmall c ∧ (isTokenChar c = true ∨ c = '\u0307') := by
    intro c hc
    refine (eq_blank_or_mem_of_mem_phrase hc).imp_right ?_
    rintro ⟨word, hword, hmem⟩
    obtain ⟨hsmall, htoken⟩ := (mem_wordTokens (h hword)).2 c hmem
    exact ⟨hsmall, htoken.imp_right And.left⟩
  -- among these characters, only blanks and dots do not belong to words
  have hclass : ∀ c ∈ (phrase words).toList, isTokenChar c = (c != ' ' && c != '\u0307') := by
    intro c hc
    rcases hchars c hc with rfl | ⟨-, htoken | rfl⟩
    · exact isTokenChar_blank
    · obtain ⟨hblank, hdot⟩ := ne_of_isTokenChar htoken
      rw [htoken, bne_iff_ne.mpr hblank, bne_iff_ne.mpr hdot]
      rfl
    · exact isTokenChar_dot
  rw [wordTokens, pieces, ← runsFrom_congr hclass]
  refine List.map_congr_left fun run hrun => ?_
  obtain ⟨-, hall, hsubset⟩ := mem_runsFrom hrun
  rw [Text.lowercase_eq_self fun c hc => ?_]
  rcases hchars c (hsubset hc) with rfl | ⟨hsmall, -⟩
  · exact absurd rfl (ne_of_isTokenChar (hall ' ' hc)).1
  · exact hsmall

theorem pieces_phrase (h : words ⊆ wordTokens text) (hdot : '\u0307' ∉ (phrase words).toList) :
    pieces (phrase words) = words := by
  have hclass : ∀ c ∈ (phrase words).toList, (c != ' ' && c != '\u0307') = (c != ' ') := by
    intro c hc
    have hne : c ≠ '\u0307' := fun heq => hdot (heq ▸ hc)
    rw [bne_iff_ne.mpr hne, Bool.and_true]
  rw [pieces, runsFrom_congr hclass, runsFrom_phrase_eq h, List.map_map]
  exact List.map_id'' (fun word => String.ofList_toList) words

/-- A phrase that is kept is looked up as its pieces. It is found unless a capital I with a dot stands in
the utterance and its dot in the phrase. -/
theorem contains_gram_iff (text : String) (longest : Nat) (gram : String)
    (h : gram ∈ (grams ⟨text, longest⟩).items ∨
      ∃ n, 1 ≤ n ∧ n ≤ longest ∧ gram ∈ ofLength ⟨text, longest⟩ n) :
    (contains ⟨text, longest⟩ gram = true ↔
      pieces gram ≠ [] ∧ (pieces gram).length ≤ longest ∧ pieces gram <:+: wordTokens text) ∧
    (contains ⟨text, longest⟩ gram = false →
      '\u0307' ∈ gram.toList ∧ '\u0130' ∈ text.toList) := by
  obtain ⟨n, hone, hlongest, hgram⟩ := h.elim mem_grams_iff.mp id
  obtain ⟨window, -, hlength, hinfix, rfl⟩ := mem_ofLength_iff.mp hgram
  have hwords : window ⊆ wordTokens text := hinfix.subset
  have hiff := contains_iff ⟨text, longest⟩ (phrase window)
  rw [wordTokens_phrase hwords] at hiff
  refine ⟨hiff, fun hlost => ?_⟩
  have hdot : '\u0307' ∈ (phrase window).toList := by
    by_contra hnot
    rw [pieces_phrase hwords hnot] at hiff
    have hne : window ≠ [] := List.ne_nil_of_length_pos (by omega)
    have hfound := hiff.mpr ⟨hne, by omega, hinfix⟩
    rw [hlost] at hfound
    cases hfound
  refine ⟨hdot, ?_⟩
  rcases eq_blank_or_mem_of_mem_phrase hdot with hblank | ⟨word, hword, hmem⟩
  · cases hblank
  · rcases ((mem_wordTokens (hwords hword)).2 _ hmem).2 with htoken | ⟨-, hcapital⟩
    · exact absurd rfl (ne_of_isTokenChar htoken).2
    · exact hcapital

/-- The capital I with a dot becomes a word that is kept and not found, while what follows it is. -/
theorem contains_gram_iff_capital_i :
    "i\u0307" ∈ ofLength ⟨"\u0130 x", 1⟩ 1 ∧ contains ⟨"\u0130 x", 1⟩ "i\u0307" = false ∧
    "x" ∈ ofLength ⟨"\u0130 x", 1⟩ 1 ∧ contains ⟨"\u0130 x", 1⟩ "x" = true := by
  have hlength : ofLength ⟨"\u0130 x", 1⟩ 1 = ["i\u0307", "x"] := by decide +kernel
  have hfirst : "i\u0307" ∈ ofLength ⟨"\u0130 x", 1⟩ 1 := by simp [hlength]
  have hsecond : "x" ∈ ofLength ⟨"\u0130 x", 1⟩ 1 := by simp [hlength]
  refine ⟨hfirst, ?_, hsecond, ?_⟩
  · refine Bool.eq_false_iff.mpr fun hfound => ?_
    have hiff := (contains_gram_iff "\u0130 x" 1 "i\u0307" (.inr ⟨1, le_rfl, le_rfl, hfirst⟩)).1
    exact absurd (hiff.mp hfound) (by decide +kernel)
  · by_contra hlost
    rw [Bool.not_eq_true] at hlost
    have hdot := (contains_gram_iff "\u0130 x" 1 "x" (.inr ⟨1, le_rfl, le_rfl, hsecond⟩)).2 hlost
    exact absurd hdot.1 (by decide)

end Ngrams
end Words
end PhrasePattern
