import Mathlib.Data.List.TakeWhile
import PhrasePattern.Ngrams

/-! The runs of a text are the maximal stretches of characters of a class. They are described by what
stands between them, and a character outside the class divides the runs before it from those behind. -/
namespace PhrasePattern

variable {p q : Char → Bool}

theorem takeWhile_append_eq {rest : List Char} (hrest : ∀ c ∈ rest.head?, p c = false)
    (cs : List Char) : (cs ++ rest).takeWhile p = cs.takeWhile p := by
  induction cs with
  | nil =>
    cases rest with
    | nil => rfl
    | cons c rest => simp [hrest c rfl]
  | cons c cs ih => simp [List.takeWhile_cons, ih]

theorem dropWhile_append_eq {rest : List Char} (hrest : ∀ c ∈ rest.head?, p c = false)
    (cs : List Char) : (cs ++ rest).dropWhile p = cs.dropWhile p ++ rest := by
  induction cs with
  | nil =>
    cases rest with
    | nil => rfl
    | cons c rest => simp [hrest c rfl]
  | cons c cs ih =>
    rw [List.cons_append, List.dropWhile_cons, List.dropWhile_cons, ih]
    split <;> rfl

/-- The runs of a text: nonempty, of the class throughout, and with nothing of the class next to them
or between them. -/
inductive Runs (p : Char → Bool) : List Char → List (List Char) → Prop
  | none {gap : List Char} (outside : ∀ c ∈ gap, p c = false) : Runs p gap []
  | cons {gap run rest : List Char} {runs : List (List Char)} (outside : ∀ c ∈ gap, p c = false)
      (nonempty : run ≠ []) (inside : ∀ c ∈ run, p c = true)
      (stops : ∀ c ∈ rest.head?, p c = false) (others : Runs p rest runs) :
      Runs p (gap ++ run ++ rest) (run :: runs)

theorem runsFrom_cons_of_pos {c : Char} (h : p c = true) (current rest : List Char) :
    runsFrom p current (c :: rest) = runsFrom p (c :: current) rest := by
  rw [runsFrom, if_pos h]

theorem runsFrom_nil_cons_of_neg {c : Char} (h : p c = false) (rest : List Char) :
    runsFrom p [] (c :: rest) = runsFrom p [] rest := by
  rw [runsFrom, if_neg (Bool.eq_false_iff.mp h), if_pos List.isEmpty_nil]

theorem runsFrom_append_cons {c : Char} (h : p c = false) (current before after : List Char) :
    runsFrom p current (before ++ c :: after) = runsFrom p current before ++ runsFrom p [] after := by
  fun_induction runsFrom p current before with
  | case1 current hcurrent =>
    rw [List.nil_append, runsFrom, if_neg (Bool.eq_false_iff.mp h), if_pos hcurrent, List.nil_append]
  | case2 current hcurrent =>
    rw [List.nil_append, runsFrom, if_neg (Bool.eq_false_iff.mp h), if_neg hcurrent]
    rfl
  | case3 current d rest hd ih => rw [List.cons_append, runsFrom_cons_of_pos hd, ih]
  | case4 current d rest hd hcurrent ih =>
    rw [List.cons_append, runsFrom, if_neg hd, if_pos hcurrent, ih]
  | case5 current d rest hd hcurrent ih =>
    rw [List.cons_append, runsFrom, if_neg hd, if_neg hcurrent, ih, List.cons_append]

theorem runsFrom_of_forall {current rest : List Char} (hrest : ∀ c ∈ rest, p c = true)
    (h : current ≠ [] ∨ rest ≠ []) : runsFrom p current rest = [current.reverse ++ rest] := by
  induction rest generalizing current with
  | nil =>
    have hcurrent : current ≠ [] := h.resolve_right fun hnil => hnil rfl
    rw [runsFrom, if_neg (by simpa using hcurrent), List.append_nil]
  | cons c rest ih =>
    rw [runsFrom_cons_of_pos (hrest c List.mem_cons_self),
      ih (fun d hd => hrest d (List.mem_cons_of_mem c hd)) (.inl (List.cons_ne_nil _ _)),
      List.reverse_cons, List.append_assoc]
    rfl

theorem runsFrom_eq_singleton {run : List Char} (hne : run ≠ []) (h : ∀ c ∈ run, p c = true) :
    runsFrom p [] run = [run] := runsFrom_of_forall h (.inr hne)

theorem runsFrom_append_of_forall {gap : List Char} (h : ∀ c ∈ gap, p c = false) (rest : List Char) :
    runsFrom p [] (gap ++ rest) = runsFrom p [] rest := by
  induction gap with
  | nil => rfl
  | cons c gap ih =>
    rw [List.cons_append, runsFrom_nil_cons_of_neg (h c List.mem_cons_self)]
    exact ih fun d hd => h d (List.mem_cons_of_mem c hd)

theorem runsFrom_eq_nil {gap : List Char} (h : ∀ c ∈ gap, p c = false) : runsFrom p [] gap = [] := by
  have hgap := runsFrom_append_of_forall h []
  rwa [List.append_nil] at hgap

theorem Runs.runsFrom_eq {text : List Char} {runs : List (List Char)} (h : Runs p text runs) :
    runsFrom p [] text = runs := by
  induction h with
  | none outside => exact runsFrom_eq_nil outside
  | @cons gap run rest runs outside nonempty inside stops others ih =>
    rw [List.append_assoc, runsFrom_append_of_forall outside]
    cases rest with
    | nil =>
      rw [List.append_nil, runsFrom_eq_singleton nonempty inside, ← ih]
      rfl
    | cons c rest =>
      have hc := stops c rfl
      rw [runsFrom_append_cons hc, runsFrom_eq_singleton nonempty inside, ← ih,
        runsFrom_nil_cons_of_neg hc]
      rfl

/-- Every text has runs: those that are found by reading it. -/
theorem runs_runsFrom (p : Char → Bool) (text : List Char) : Runs p text (runsFrom p [] text) := by
  suffices ∃ runs, Runs p text runs by
    obtain ⟨runs, h⟩ := this
    rw [h.runsFrom_eq]
    exact h
  induction hn : text.length using Nat.strongRecOn generalizing text with
  | _ n ih =>
    have hgap : ∀ c ∈ text.takeWhile (! p ·), p c = false :=
      fun c hc => by simpa using List.mem_takeWhile_imp hc
    have hsplit := List.takeWhile_append_dropWhile (p := (! p ·)) (l := text)
    cases hrest : text.dropWhile (! p ·) with
    | nil =>
      rw [hrest, List.append_nil] at hsplit
      exact ⟨[], .none (hsplit ▸ hgap)⟩
    | cons c rest =>
      have hc : p c = true := by
        have hnot := List.head?_dropWhile_not (! p ·) text
        rw [hrest] at hnot
        simpa using hnot
      have hlength := congrArg List.length hsplit
      rw [hrest, List.length_append, List.length_cons] at hlength
      have hdrop := (List.dropWhile_suffix p (l := rest)).length_le
      obtain ⟨runs, hruns⟩ := ih (rest.dropWhile p).length (by omega) _ rfl
      refine ⟨(c :: rest.takeWhile p) :: runs, ?_⟩
      have htext : text.takeWhile (! p ·) ++ (c :: rest.takeWhile p) ++ rest.dropWhile p = text := by
        rw [List.append_assoc, List.cons_append, List.takeWhile_append_dropWhile, ← hrest, hsplit]
      rw [← htext]
      refine .cons hgap (List.cons_ne_nil _ _) (fun d hd => ?_) (fun d hd => ?_) hruns
      · rcases List.mem_cons.mp hd with rfl | hd
        · exact hc
        · exact List.mem_takeWhile_imp hd
      · have hnot := List.head?_dropWhile_not p rest
        rw [Option.mem_def.mp hd] at hnot
        simpa using hnot

theorem mem_runsFrom {text run : List Char} (h : run ∈ runsFrom p [] text) :
    run ≠ [] ∧ (∀ c ∈ run, p c = true) ∧ run ⊆ text := by
  have hruns := runs_runsFrom p text
  generalize runsFrom p [] text = runs at h hruns
  induction hruns with
  | none => cases h
  | cons outside nonempty inside stops others ih =>
    rcases List.mem_cons.mp h with rfl | h
    · exact ⟨nonempty, inside, fun c hc => List.mem_append_left _ (List.mem_append_right _ hc)⟩
    · obtain ⟨hne, hall, hsubset⟩ := ih h
      exact ⟨hne, hall, fun c hc => List.mem_append_right _ (hsubset hc)⟩

theorem runsFrom_congr {current rest : List Char} (h : ∀ c ∈ rest, p c = q c) :
    runsFrom p current rest = runsFrom q current rest := by
  induction rest generalizing current with
  | nil => rfl
  | cons c rest ih =>
    have hrest : ∀ d ∈ rest, p d = q d := fun d hd => h d (List.mem_cons_of_mem c hd)
    rw [runsFrom, runsFrom, h c List.mem_cons_self, ih hrest, ih hrest]

theorem mem_intercalate {separator : String} {words : List String} {c : Char}
    (h : c ∈ (separator.intercalate words).toList) :
    c ∈ separator.toList ∨ ∃ word ∈ words, c ∈ word.toList := by
  induction words with
  | nil => cases h
  | cons first others ih =>
    cases others with
    | nil =>
      rw [String.intercalate_singleton] at h
      exact .inr ⟨first, List.mem_cons_self, h⟩
    | cons second others =>
      rw [String.intercalate_cons_cons, String.toList_append, String.toList_append, List.append_assoc,
        List.mem_append, List.mem_append] at h
      rcases h with h | h | h
      · exact .inr ⟨first, List.mem_cons_self, h⟩
      · exact .inl h
      · refine (ih h).imp_right ?_
        rintro ⟨word, hword, hc⟩
        exact ⟨word, List.mem_cons_of_mem first hword, hc⟩

theorem runsFrom_phrase (h : p ' ' = false) (words : List String) :
    runsFrom p [] (Ngrams.phrase words).toList =
      words.flatMap fun word => runsFrom p [] word.toList := by
  induction words with
  | nil => rfl
  | cons first others ih =>
    cases others with
    | nil =>
      rw [Ngrams.phrase, String.intercalate_singleton]
      simp
    | cons second others =>
      rw [Ngrams.phrase] at ih ⊢
      rw [String.intercalate_cons_cons, String.toList_append, String.toList_append,
        List.append_assoc, List.flatMap_cons, ← ih]
      exact runsFrom_append_cons h [] _ _

end PhrasePattern
