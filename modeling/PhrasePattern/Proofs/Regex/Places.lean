import Mathlib.Data.List.Forall2
import PhrasePattern.Proofs.Regex.Realization

/-! Threads told apart by their positions. Of the threads of a list only the first at each position is
kept, and it makes no difference whether that is done early or late, as long as what comes after depends
on the position alone. Plain nodes are of this kind. -/
namespace PhrasePattern.Regex

section distinct

theorem Marks.ext {marks marks' : Marks} (h : ∀ n, marks.has n = marks'.has n) : marks = marks' :=
  Nat.eq_of_testBit_eq h

theorem Marks.insert_of_has {marks : Marks} {n : Nat} (h : marks.has n = true) : marks.insert n = marks := by
  refine Marks.ext fun m => ?_
  rw [Marks.has_insert]
  by_cases heq : n = m
  · subst heq
    simp [h]
  · simp [heq]

def Marks.insertAll (marks : Marks) (threads : List Thread) : Marks :=
  threads.foldl (fun marks t => marks.insert t.position) marks

@[simp]
theorem Marks.insertAll_nil (marks : Marks) : marks.insertAll [] = marks := rfl

@[simp]
theorem Marks.insertAll_cons (marks : Marks) (t : Thread) (threads : List Thread) :
    marks.insertAll (t :: threads) = (marks.insert t.position).insertAll threads := rfl

theorem Marks.has_insertAll {marks : Marks} {threads : List Thread} {n : Nat} :
    (marks.insertAll threads).has n = true ↔ marks.has n = true ∨ ∃ t ∈ threads, t.position = n := by
  induction threads generalizing marks with
  | nil => simp
  | cons t others ih =>
    rw [Marks.insertAll_cons, ih, Marks.has_insert]
    simp [or_assoc]

theorem Marks.insertAll_of_has {marks : Marks} {threads : List Thread}
    (h : ∀ t ∈ threads, marks.has t.position = true) : marks.insertAll threads = marks := by
  induction threads with
  | nil => rfl
  | cons t others ih =>
    rw [Marks.insertAll_cons, Marks.insert_of_has (h t List.mem_cons_self),
      ih fun u hu => h u (List.mem_cons_of_mem t hu)]

theorem distinctFrom_append (seen : Marks) (threads more : List Thread) :
    distinctFrom seen (threads ++ more) =
      distinctFrom seen threads ++ distinctFrom (seen.insertAll threads) more := by
  induction threads generalizing seen with
  | nil => rfl
  | cons t others ih =>
    rw [List.cons_append, distinctFrom, distinctFrom, Marks.insertAll_cons]
    split
    · rename_i hseen
      rw [ih, Marks.insert_of_has hseen]
    · rw [ih, List.cons_append]

theorem distinctFrom_of_has {seen : Marks} {threads : List Thread}
    (h : ∀ t ∈ threads, seen.has t.position = true) : distinctFrom seen threads = [] := by
  induction threads with
  | nil => rfl
  | cons t others ih =>
    rw [distinctFrom, if_pos (h t List.mem_cons_self), ih fun u hu => h u (List.mem_cons_of_mem t hu)]

theorem distinctFrom_distinctFrom {seen marks : Marks} (h : ∀ n, seen.has n = true → marks.has n = true)
    (threads : List Thread) :
    distinctFrom marks (distinctFrom seen threads) = distinctFrom marks threads ∧
      marks.insertAll (distinctFrom seen threads) = marks.insertAll threads := by
  induction threads generalizing seen marks with
  | nil => exact ⟨rfl, rfl⟩
  | cons t others ih =>
    have hinsert : ∀ n, (seen.insert t.position).has n = true →
        (marks.insert t.position).has n = true := by
      intro n hn
      rw [Marks.has_insert, Bool.or_eq_true] at hn ⊢
      exact hn.imp_left (h n)
    by_cases hseen : seen.has t.position = true
    · have hmarks := h _ hseen
      rw [distinctFrom, if_pos hseen, distinctFrom, if_pos hmarks, Marks.insertAll_cons,
        Marks.insert_of_has hmarks]
      exact ih h
    · rw [distinctFrom, if_neg hseen, distinctFrom, distinctFrom, Marks.insertAll_cons,
        Marks.insertAll_cons]
      refine ⟨?_, (ih hinsert).2⟩
      split
      · rename_i hmarks
        have hmore := (ih hinsert).1
        rwa [Marks.insert_of_has hmarks] at hmore
      · rw [(ih hinsert).1]

theorem distinctFrom_distinct (marks : Marks) (threads : List Thread) :
    distinctFrom marks (distinct threads) = distinctFrom marks threads ∧
      marks.insertAll (distinct threads) = marks.insertAll threads := by
  refine distinctFrom_distinctFrom (fun n hn => ?_) threads
  rw [Marks.not_has_zero] at hn
  cases hn

theorem distinct_distinct (threads : List Thread) : distinct (distinct threads) = distinct threads :=
  (distinctFrom_distinct 0 threads).1

theorem distinctFrom_append_congr {seen : Marks} {threads threads' more more' : List Thread}
    (h : distinctFrom seen threads = distinctFrom seen threads')
    (hmarks : seen.insertAll threads = seen.insertAll threads')
    (hmore : distinctFrom (seen.insertAll threads') more = distinctFrom (seen.insertAll threads') more') :
    distinctFrom seen (threads ++ more) = distinctFrom seen (threads' ++ more') := by
  rw [distinctFrom_append, distinctFrom_append, h, hmarks, hmore]

/-- The threads of each step may be told apart first. -/
theorem distinct_flatMap_distinct (threads : List Thread) (step : Thread → List Thread) :
    distinct (threads.flatMap fun t => distinct (step t)) = distinct (threads.flatMap step) := by
  suffices ∀ seen, distinctFrom seen (threads.flatMap fun t => distinct (step t)) =
      distinctFrom seen (threads.flatMap step) from this 0
  induction threads with
  | nil => exact fun _ => rfl
  | cons t others ih =>
    intro seen
    rw [List.flatMap_cons, List.flatMap_cons]
    exact distinctFrom_append_congr (distinctFrom_distinct seen _).1 (distinctFrom_distinct seen _).2 (ih _)

end distinct

section places

/-- Threads that are at the same positions. -/
abbrev SamePlaces : List Thread → List Thread → Prop := List.Forall₂ fun t u => t.position = u.position

/-- The positions that a step leads to depend on the position only. -/
def Positional (step : Thread → List Thread) : Prop :=
  ∀ t u, t.position = u.position → SamePlaces (step t) (step u)

theorem SamePlaces.exists_mem {threads threads' : List Thread} (h : SamePlaces threads threads')
    {t : Thread} (ht : t ∈ threads) : ∃ u ∈ threads', t.position = u.position := by
  induction h with
  | nil => cases ht
  | cons first _ ih =>
    rcases List.mem_cons.mp ht with rfl | ht
    · exact ⟨_, List.mem_cons_self, first⟩
    · obtain ⟨u, hu, heq⟩ := ih ht
      exact ⟨u, List.mem_cons_of_mem _ hu, heq⟩

/-- A thread at a position that was seen leads to nothing new. -/
theorem distinctFrom_flatMap_distinctFrom {step : Thread → List Thread} (hstep : Positional step)
    {seen marks : Marks}
    (h : ∀ t, seen.has t.position = true → ∀ u ∈ step t, marks.has u.position = true)
    (threads : List Thread) :
    distinctFrom marks ((distinctFrom seen threads).flatMap step) =
      distinctFrom marks (threads.flatMap step) := by
  induction threads generalizing seen marks with
  | nil => rfl
  | cons t others ih =>
    rw [List.flatMap_cons, distinctFrom]
    split
    · rename_i hseen
      rw [ih h, distinctFrom_append, distinctFrom_of_has (h t hseen), Marks.insertAll_of_has (h t hseen),
        List.nil_append]
    · rw [List.flatMap_cons, distinctFrom_append, distinctFrom_append]
      congr 1
      refine ih fun u hu v hv => ?_
      rw [Marks.has_insert, Bool.or_eq_true, decide_eq_true_eq] at hu
      refine Marks.has_insertAll.mpr (hu.imp (fun hu => h u hu v hv) fun heq => ?_)
      obtain ⟨w, hw, hposition⟩ := (hstep u t heq.symm).exists_mem hv
      exact ⟨w, hw, hposition.symm⟩

theorem distinct_flatMap_of_positional {step : Thread → List Thread} (hstep : Positional step)
    (threads : List Thread) :
    distinct ((distinct threads).flatMap step) = distinct (threads.flatMap step) :=
  distinctFrom_flatMap_distinctFrom hstep (fun t ht => absurd ht (by simp [Marks.not_has_zero])) threads

theorem SamePlaces.distinct {threads threads' : List Thread} (h : SamePlaces threads threads') :
    SamePlaces (distinct threads) (distinct threads') := by
  suffices ∀ seen, SamePlaces (distinctFrom seen threads) (distinctFrom seen threads') from this 0
  induction h with
  | nil => exact fun _ => .nil
  | cons first _ ih =>
    intro seen
    rw [distinctFrom, distinctFrom, first]
    split
    · exact ih seen
    · exact .cons first (ih _)

theorem SamePlaces.flatMap {threads threads' : List Thread} (h : SamePlaces threads threads')
    {step : Thread → List Thread} (hstep : Positional step) :
    SamePlaces (threads.flatMap step) (threads'.flatMap step) :=
  List.rel_flatMap h hstep

theorem SamePlaces.prefer {more more' : List Thread} (h : SamePlaces more more') (greedy : Bool)
    {t u : Thread} (heq : t.position = u.position) :
    SamePlaces (prefer greedy more t) (prefer greedy more' u) := by
  cases greedy with
  | true => exact List.rel_append h (.cons heq .nil)
  | false => exact .cons heq h

variable {step : Thread → List Thread} {greedy : Bool}

theorem SamePlaces.exactly (hstep : Positional step) (n : Nat) {threads threads' : List Thread}
    (h : SamePlaces threads threads') : SamePlaces (exactly step n threads) (exactly step n threads') := by
  induction n generalizing threads threads' with
  | zero => exact h
  | succ n ih => exact ih (h.flatMap hstep).distinct

def SameFinds (found found' : Marks × List Thread) : Prop :=
  found.1 = found'.1 ∧ SamePlaces found.2 found'.2

theorem sameFinds_atMostFrom (hstep : Positional step) (size n : Nat) (seen : Marks) {t u : Thread}
    (heq : t.position = u.position) :
    SameFinds (atMostFrom step greedy size n seen t) (atMostFrom step greedy size n seen u) := by
  induction n generalizing seen t u with
  | zero => exact ⟨rfl, .cons heq .nil⟩
  | succ n ih =>
    rw [atMostFrom, atMostFrom, heq]
    dsimp only
    split
    · exact ⟨rfl, .nil⟩
    · have hnext : ∀ ⦃found found' : Marks × List Thread⦄, SameFinds found found' → ∀ ⦃v w : Thread⦄,
          v.position = w.position → SameFinds
            ((atMostFrom step greedy size n found.1 v).1,
              found.2 ++ (atMostFrom step greedy size n found.1 v).2)
            ((atMostFrom step greedy size n found'.1 w).1,
              found'.2 ++ (atMostFrom step greedy size n found'.1 w).2) := by
        intro found found' h v w hvw
        rw [h.1]
        exact ⟨(ih _ hvw).1, List.rel_append h.2 (ih _ hvw).2⟩
      have hfound := List.rel_foldl hnext (show SameFinds (seen.insert (n * (size + 1) + u.position), [])
        (seen.insert (n * (size + 1) + u.position), []) from ⟨rfl, .nil⟩) (hstep t u heq)
      exact ⟨hfound.1, hfound.2.prefer greedy heq⟩

theorem sameFinds_oneOrMoreFrom (hstep : Positional step) (origin fuel : Nat) (seen : Marks)
    {t u : Thread} (heq : t.position = u.position) :
    SameFinds (oneOrMoreFrom step greedy origin fuel seen t)
      (oneOrMoreFrom step greedy origin fuel seen u) := by
  induction fuel generalizing seen t u with
  | zero => exact ⟨rfl, .nil⟩
  | succ fuel ih =>
    rw [oneOrMoreFrom, oneOrMoreFrom]
    refine List.rel_foldl ?_ (show SameFinds (seen, []) (seen, []) from ⟨rfl, .nil⟩) (hstep t u heq)
    intro found found' h v w hvw
    dsimp only
    rw [h.1, hvw]
    split
    · exact h
    · split
      · exact ⟨rfl, List.rel_append h.2 (SamePlaces.prefer .nil greedy hvw)⟩
      · exact ⟨(ih _ hvw).1, List.rel_append h.2 ((ih _ hvw).2.prefer greedy hvw)⟩

theorem positional_repeated (hstep : Positional step) (size least : Nat) (most? : Option Nat) :
    Positional (repeated step greedy size least most?) := by
  intro t u heq
  have hstart : SamePlaces [t] [u] := .cons heq .nil
  have hmany : Positional (oneOrMore step greedy size) := by
    intro v w hvw
    rw [oneOrMore, oneOrMore, hvw]
    exact (sameFinds_oneOrMoreFrom hstep _ _ _ hvw).2
  unfold repeated
  split
  · exact ((hstart.exactly hstep least).flatMap fun v w hvw =>
      (sameFinds_atMostFrom hstep size _ 0 hvw).2).distinct
  · exact ((hmany t u heq).prefer greedy heq).distinct
  · exact ((hstart.exactly hstep _).flatMap hmany).distinct

end places

section nodes
variable (text : Subject)

theorem samePlaces_step? {set : CharSet} {t u : Thread} (heq : t.position = u.position) :
    SamePlaces (set.step? text t).toList (set.step? text u).toList := by
  unfold CharSet.step?
  rw [heq]
  split
  · split
    · exact .cons (congrArg (· + 1) heq) .nil
    · exact .nil
  · exact .nil

mutual

/-- Where a plain node ends depends on where it starts and not on what was captured. -/
theorem positional_ends : ∀ n : Node, n.isPlain = true → Positional (n.ends text)
  | .chars set, _ => fun t u heq => by
      rw [Node.ends, Node.ends]
      exact samePlaces_step? text heq
  | .assertion test, _ => fun t u heq => by
      rw [Node.ends, Node.ends, heq]
      split
      · exact .cons heq .nil
      · exact .nil
  | .capture group body, h => fun t u heq => by
      rw [Node.isPlain] at h
      rw [Node.ends, Node.ends]
      rw [SamePlaces, List.forall₂_map_left_iff, List.forall₂_map_right_iff]
      exact positional_ends body h t u heq
  | .seq items, h => fun t u heq => by
      rw [Node.isPlain] at h
      rw [Node.ends, Node.ends]
      exact samePlaces_endsSeq items h (.cons heq .nil)
  | .alt branches, h => fun t u heq => by
      rw [Node.isPlain] at h
      rw [Node.ends, Node.ends]
      exact (samePlaces_endsAlt branches h heq).distinct
  | .repetition body least most? greedy, h => fun t u heq => by
      rw [Node.isPlain] at h
      rw [Node.ends, Node.ends]
      exact positional_repeated (positional_ends body h) _ _ _ t u heq
  | .lookAhead _ _, h | .lookBehind _ _ _, h | .atomic _, h | .backreference _, h => by
      rw [Node.isPlain] at h
      cases h

theorem samePlaces_endsSeq : ∀ items : List Node, Node.allPlain items = true →
    ∀ {threads threads' : List Thread}, SamePlaces threads threads' →
      SamePlaces (endsSeq text items threads) (endsSeq text items threads')
  | [], _, _, _, h => by
      rw [endsSeq, endsSeq]
      exact h
  | n :: others, hplain, _, _, h => by
      rw [Node.allPlain, Bool.and_eq_true] at hplain
      rw [endsSeq, endsSeq]
      exact samePlaces_endsSeq others hplain.2 (h.flatMap (positional_ends n hplain.1)).distinct

theorem samePlaces_endsAlt : ∀ branches : List Node, Node.allPlain branches = true →
    ∀ {t u : Thread}, t.position = u.position →
      SamePlaces (endsAlt text branches t) (endsAlt text branches u)
  | [], _, _, _, _ => by
      rw [endsAlt, endsAlt]
      exact .nil
  | n :: others, hplain, t, u, heq => by
      rw [Node.allPlain, Bool.and_eq_true] at hplain
      rw [endsAlt, endsAlt]
      exact List.rel_append (positional_ends n hplain.1 t u heq) (samePlaces_endsAlt others hplain.2 heq)

end

end nodes

end PhrasePattern.Regex
