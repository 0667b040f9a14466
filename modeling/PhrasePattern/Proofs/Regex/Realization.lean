import Mathlib.Logic.Relation
import PhrasePattern.Regex

/-! What a node matches, as a relation between positions, for nodes that neither capture nor refer
back. Both ways of matching are right about it: the list of all ends has exactly the positions that
are related to the start, and a search within its budget finds such a position that what follows
accepts, or has been refused at all of them. The relation of a node comes from those of its parts. -/
namespace PhrasePattern.Regex

open Relation (Comp ReflTransGen)

/-- Pairs of the positions where a match may start and stop. -/
abbrev SpanSet := Nat → Nat → Prop

def Thread.moveTo (t : Thread) (position : Nat) : Thread := { t with position := position }

@[simp]
theorem Thread.position_moveTo (t : Thread) (position : Nat) : (t.moveTo position).position = position :=
  rfl

@[simp]
theorem Thread.moveTo_position (t : Thread) : t.moveTo t.position = t := rfl

/-- The threads are those that the relation allows from `t`. -/
def Lists (S : SpanSet) (t : Thread) (threads : List Thread) : Prop :=
  ∀ u, u ∈ threads ↔ ∃ j, S t.position j ∧ u = t.moveTo j

/-- The verdict is right if `k` tells what follows. -/
structure Answers (S : SpanSet) (t : Thread) (k : Rest) (v : Verdict) : Prop where
  found : ∀ u budget, v = .found u budget →
    ∃ j before, S t.position j ∧ k (t.moveTo j) before = .found u budget
  failed : ∀ budget, v = .failed budget →
    ∀ j, S t.position j → ∃ before after, k (t.moveTo j) before = .failed after

def NeverFails (k : Rest) : Prop := ∀ t before after, k t before ≠ .failed after

theorem neverFails_found : NeverFails .found := by
  intro t before after h
  cases h

structure Node.Realizes (text : Subject) (n : Node) (S : SpanSet) : Prop where
  ends : n.isPlain = true → ∀ t, Lists S t (n.ends text t)
  search : ∀ (final : Bool) (t : Thread) (budget : Nat) (k : Rest),
    (final = true → NeverFails k) → Answers S t k (n.search text final t budget k)

section answers
variable {S S' : SpanSet} {t : Thread} {k : Rest}

theorem answers_failed (budget : Nat) (h : ∀ j, ¬ S t.position j) :
    Answers S t k (.failed budget) := by
  refine ⟨fun u b hfound => ?_, fun b _ j hj => absurd hj (h j)⟩
  cases hfound

theorem answers_exhausted : Answers S t k .exhausted := by
  refine ⟨fun u b hfound => ?_, fun b hfailed => ?_⟩
  · cases hfound
  · cases hfailed

theorem answers_of_forall_iff {j budget : Nat} (h : ∀ i, S t.position i ↔ i = j) :
    Answers S t k (k (t.moveTo j) budget) := by
  refine ⟨fun u b hfound => ⟨j, budget, (h j).mpr rfl, hfound⟩, fun b hfailed i hi => ?_⟩
  rw [(h i).mp hi]
  exact ⟨budget, b, hfailed⟩

/-- It is enough to try one of the ends if what follows accepts them all. -/
theorem Lists.answers {threads : List Thread} (h : Lists S t threads) (hk : NeverFails k)
    (budget : Nat) : Answers S t k (.ofOption budget k threads.head?) := by
  cases threads with
  | nil =>
    refine answers_failed budget fun j hj => ?_
    have hmem := (h _).mpr ⟨j, hj, rfl⟩
    cases hmem
  | cons u others =>
    obtain ⟨j, hj, rfl⟩ := (h u).mp List.mem_cons_self
    exact ⟨fun v b hfound => ⟨j, budget, hj, hfound⟩, fun b hfailed => absurd hfailed (hk _ _ _)⟩

theorem Answers.orElse {v : Verdict} {next : Nat → Verdict} (h : Answers S t k v)
    (hnext : ∀ budget, Answers S' t k (next budget)) :
    Answers (fun i j => S i j ∨ S' i j) t k (v.orElse next) := by
  cases v with
  | found u budget =>
    refine ⟨fun u' b heq => ?_, fun b heq => ?_⟩
    · obtain ⟨j, before, hj, hk⟩ := h.found u' b heq
      exact ⟨j, before, .inl hj, hk⟩
    · cases heq
  | failed budget =>
    cases budget with
    | zero => exact answers_exhausted
    | succ budget =>
      refine ⟨fun u b heq => ?_, fun b heq j hj => ?_⟩
      · obtain ⟨j, before, hj, hk⟩ := (hnext budget).found u b heq
        exact ⟨j, before, .inr hj, hk⟩
      · rcases hj with hj | hj
        · exact h.failed _ rfl j hj
        · exact (hnext budget).failed b heq j hj
  | exhausted => exact answers_exhausted

theorem Answers.of_iff {v : Verdict} (h : Answers S t k v)
    (hiff : ∀ j, S t.position j ↔ S' t.position j) : Answers S' t k v := by
  refine ⟨fun u b heq => ?_, fun b heq j hj => h.failed b heq j ((hiff j).mpr hj)⟩
  obtain ⟨j, before, hj, hk⟩ := h.found u b heq
  exact ⟨j, before, (hiff j).mp hj, hk⟩

theorem Answers.comp {k' : Rest} {v : Verdict} (h : Answers S t k' v)
    (hrest : ∀ j budget, S t.position j → Answers S' (t.moveTo j) k (k' (t.moveTo j) budget)) :
    Answers (Comp S S') t k v := by
  refine ⟨fun u b heq => ?_, ?_⟩
  · obtain ⟨j, before, hj, hk'⟩ := h.found u b heq
    obtain ⟨l, before', hl, hk⟩ := (hrest j before hj).found u b hk'
    exact ⟨l, before', ⟨j, hj, hl⟩, hk⟩
  · rintro b heq l ⟨j, hj, hl⟩
    obtain ⟨before, after, hk'⟩ := h.failed b heq j hj
    exact (hrest j before hj).failed after hk' l hl

end answers

section marks

theorem Marks.has_insert (marks : Marks) (n m : Nat) :
    (marks.insert n).has m = (marks.has m || decide (n = m)) := by
  rw [Marks.insert, Marks.has, Marks.has, Nat.testBit_or, Nat.one_shiftLeft, Nat.testBit_two_pow]

theorem Marks.not_has_zero (n : Nat) : Marks.has 0 n = false := Nat.zero_testBit n

/-- Only positions up to this one are marked. -/
def Marks.UpTo (marks : Marks) (position : Nat) : Prop := ∀ m, marks.has m = true → m ≤ position

theorem Marks.upTo_zero (position : Nat) : Marks.UpTo 0 position := by
  intro m hm
  rw [Marks.not_has_zero] at hm
  cases hm

theorem Marks.UpTo.not_has_succ {marks : Marks} {position : Nat} (h : marks.UpTo position) :
    marks.has (position + 1) = false :=
  Bool.eq_false_iff.mpr fun hhas => Nat.not_succ_le_self position (h _ hhas)

theorem Marks.UpTo.insert_succ {marks : Marks} {position : Nat} (h : marks.UpTo position) :
    (marks.insert (position + 1)).UpTo (position + 1) := by
  intro m hm
  rw [Marks.has_insert, Bool.or_eq_true, decide_eq_true_eq] at hm
  rcases hm with hm | rfl
  · exact Nat.le_succ_of_le (h m hm)
  · exact Nat.le_refl _

theorem mem_distinctFrom {threads : List Thread} {captures : List (Nat × Span)}
    (h : ∀ t ∈ threads, t.captures = captures) (seen : Marks) (u : Thread) :
    u ∈ distinctFrom seen threads ↔ u ∈ threads ∧ seen.has u.position = false := by
  induction threads generalizing seen with
  | nil => simp [distinctFrom]
  | cons t others ih =>
    have hothers : ∀ t ∈ others, t.captures = captures := fun s hs => h s (List.mem_cons_of_mem _ hs)
    by_cases hseen : seen.has t.position = true
    · rw [distinctFrom, if_pos hseen, ih hothers, List.mem_cons]
      constructor
      · exact fun ⟨hmem, hfree⟩ => ⟨.inr hmem, hfree⟩
      · rintro ⟨rfl | hmem, hfree⟩
        · rw [hseen] at hfree
          cases hfree
        · exact ⟨hmem, hfree⟩
    · rw [distinctFrom, if_neg hseen, List.mem_cons, ih hothers, List.mem_cons, Marks.has_insert,
        Bool.or_eq_false_iff, decide_eq_false_iff_not]
      constructor
      · rintro (rfl | ⟨hmem, hfree, -⟩)
        · exact ⟨.inl rfl, Bool.eq_false_iff.mpr hseen⟩
        · exact ⟨.inr hmem, hfree⟩
      · rintro ⟨rfl | hmem, hfree⟩
        · exact .inl rfl
        · by_cases heq : t.position = u.position
          · -- with the captures equal, two threads at one position are the same
            have hcaptures := (h t List.mem_cons_self).trans (hothers u hmem).symm
            cases t
            cases u
            cases heq
            cases hcaptures
            exact .inl rfl
          · exact .inr ⟨hmem, hfree, heq⟩

theorem Lists.distinct {S : SpanSet} {t : Thread} {threads : List Thread} (h : Lists S t threads) :
    Lists S t (distinct threads) := by
  have hcaptures : ∀ u ∈ threads, u.captures = t.captures := by
    intro u hu
    obtain ⟨j, -, rfl⟩ := (h u).mp hu
    rfl
  intro u
  rw [Regex.distinct, mem_distinctFrom hcaptures, Marks.not_has_zero, h u]
  simp

end marks

def At (text : Subject) (p : Char → Bool) (i : Nat) : Prop := ∃ c, text[i]? = some c ∧ p c = true

def Advance (p : Nat → Prop) : SpanSet := fun i j => p i ∧ j = i + 1

def Stay (p : Nat → Prop) : SpanSet := fun i j => p i ∧ j = i

section nodes
variable {text : Subject}

theorem step?_eq_some_iff {set : CharSet} {t u : Thread} :
    set.step? text t = some u ↔ At text set.contains t.position ∧ u = t.moveTo (t.position + 1) := by
  unfold CharSet.step? At
  cases text[t.position]? with
  | none => simp
  | some c =>
    by_cases hc : set.contains c = true
    · simp only [hc, if_pos, Option.some.injEq, exists_eq_left', true_and]
      exact eq_comm
    · simp [hc]

theorem lists_step? (set : CharSet) (t : Thread) :
    Lists (Advance (At text set.contains)) t (set.step? text t).toList := by
  intro u
  rw [Option.mem_toList, step?_eq_some_iff]
  constructor
  · rintro ⟨hat, rfl⟩
    exact ⟨_, ⟨hat, rfl⟩, rfl⟩
  · rintro ⟨j, ⟨hat, rfl⟩, rfl⟩
    exact ⟨hat, rfl⟩

theorem realizes_chars (set : CharSet) :
    Node.Realizes text (.chars set) (Advance (At text set.contains)) where
  ends := fun _ t => by
    rw [Node.ends]
    exact lists_step? set t
  search := by
    intro final t budget k _
    rw [Node.search]
    cases hstep : set.step? text t with
    | none =>
      refine answers_failed budget ?_
      rintro j ⟨hat, rfl⟩
      rw [step?_eq_some_iff.mpr ⟨hat, rfl⟩] at hstep
      cases hstep
    | some u =>
      obtain ⟨hat, rfl⟩ := step?_eq_some_iff.mp hstep
      exact answers_of_forall_iff fun i => ⟨fun h => h.2, fun h => ⟨hat, h⟩⟩

theorem realizes_assertion (test : Assertion) :
    Node.Realizes text (.assertion test) (Stay fun i => test.holds text i = true) where
  ends := by
    intro _ t u
    rw [Node.ends]
    by_cases hholds : test.holds text t.position = true
    · rw [if_pos hholds, List.mem_singleton]
      constructor
      · rintro rfl
        exact ⟨_, ⟨hholds, rfl⟩, rfl⟩
      · rintro ⟨j, ⟨-, rfl⟩, rfl⟩
        rfl
    · rw [if_neg hholds]
      constructor
      · intro hmem
        cases hmem
      · rintro ⟨j, ⟨hyes, -⟩, -⟩
        exact absurd hyes hholds
  search := by
    intro final t budget k _
    rw [Node.search]
    by_cases hholds : test.holds text t.position = true
    · rw [if_pos hholds, ← t.moveTo_position]
      exact answers_of_forall_iff fun i => ⟨fun h => h.2, fun h => ⟨hholds, h⟩⟩
    · rw [if_neg hholds]
      exact answers_failed budget fun j h => hholds h.1

theorem realizes_lookAhead {body : Node} {S : SpanSet} (negative : Bool)
    (h : body.Realizes text S) :
    Node.Realizes text (.lookAhead negative body)
      (Stay fun i => (∃ j, S i j) ↔ negative = false) where
  ends := fun hplain => by cases hplain
  search := by
    intro final t budget k _
    rw [Node.search]
    have hbody := h.search true t budget .found fun _ => neverFails_found
    cases hsearch : body.search text true t budget .found with
    | found u left =>
      obtain ⟨j, before, hj, heq⟩ := hbody.found u left hsearch
      obtain ⟨rfl, -⟩ := Verdict.found.inj heq
      cases negative with
      | true => exact answers_failed left fun i hi => by simpa using hi.1.mp ⟨j, hj⟩
      | false =>
        exact answers_of_forall_iff fun i =>
          ⟨fun hi => hi.2, fun hi => ⟨⟨fun _ => rfl, fun _ => ⟨j, hj⟩⟩, hi⟩⟩
    | failed left =>
      have hnone : ¬ ∃ j, S t.position j := by
        rintro ⟨j, hj⟩
        obtain ⟨before, after, heq⟩ := hbody.failed left hsearch j hj
        cases heq
      cases negative with
      | true =>
        exact answers_of_forall_iff fun i =>
          ⟨fun hi => hi.2, fun hi => ⟨⟨fun hsome => absurd hsome hnone, fun hne => by cases hne⟩, hi⟩⟩
      | false => exact answers_failed left fun i hi => hnone (hi.1.mpr rfl)
    | exhausted => exact answers_exhausted

end nodes

inductive RealizesSeq (text : Subject) : List Node → SpanSet → Prop
  | nil : RealizesSeq text [] Eq
  | cons {n : Node} {others : List Node} {S S' : SpanSet} (first : n.Realizes text S)
      (rest : RealizesSeq text others S') : RealizesSeq text (n :: others) (Comp S S')

inductive RealizesAny (text : Subject) : List Node → SpanSet → Prop
  | nil : RealizesAny text [] fun _ _ => False
  | cons {n : Node} {others : List Node} {S S' : SpanSet} (first : n.Realizes text S)
      (rest : RealizesAny text others S') :
      RealizesAny text (n :: others) fun i j => S i j ∨ S' i j

section lists
variable {text : Subject}

theorem RealizesSeq.append {first second : List Node} {S S' : SpanSet}
    (h : RealizesSeq text first S) (h' : RealizesSeq text second S') :
    RealizesSeq text (first ++ second) (Comp S S') := by
  induction h with
  | nil =>
    rw [Relation.eq_comp]
    exact h'
  | cons n others ih =>
    rw [Relation.comp_assoc]
    exact .cons n ih

theorem RealizesSeq.single {n : Node} {S : SpanSet} (h : n.Realizes text S) :
    RealizesSeq text [n] S := by
  have hsingle := RealizesSeq.cons h .nil
  rw [Relation.comp_eq] at hsingle
  exact hsingle

theorem RealizesSeq.endsSeq {items : List Node} {S : SpanSet} (h : RealizesSeq text items S)
    (hplain : Node.allPlain items = true) {S₀ : SpanSet} {t : Thread} {threads : List Thread}
    (hthreads : Lists S₀ t threads) : Lists (Comp S₀ S) t (endsSeq text items threads) := by
  induction h generalizing S₀ threads with
  | nil =>
    rw [Regex.endsSeq, Relation.comp_eq]
    exact hthreads
  | @cons n others S S' first rest ih =>
    rw [Node.allPlain, Bool.and_eq_true] at hplain
    rw [Regex.endsSeq, ← Relation.comp_assoc]
    refine ih hplain.2 (Lists.distinct fun u => ?_)
    rw [List.mem_flatMap]
    constructor
    · rintro ⟨v, hv, hu⟩
      obtain ⟨i, hi, rfl⟩ := (hthreads v).mp hv
      obtain ⟨j, hj, rfl⟩ := (first.ends hplain.1 _ u).mp hu
      exact ⟨j, ⟨i, hi, hj⟩, rfl⟩
    · rintro ⟨j, ⟨i, hi, hj⟩, rfl⟩
      exact ⟨t.moveTo i, (hthreads _).mpr ⟨i, hi, rfl⟩, (first.ends hplain.1 _ _).mpr ⟨j, hj, rfl⟩⟩

theorem lists_singleton (t : Thread) : Lists Eq t [t] := by
  intro u
  rw [List.mem_singleton]
  constructor
  · rintro rfl
    exact ⟨_, rfl, rfl⟩
  · rintro ⟨j, rfl, rfl⟩
    rfl

theorem RealizesSeq.searchSeq {items : List Node} {S : SpanSet} (h : RealizesSeq text items S)
    (final : Bool) (t : Thread) (budget : Nat) (k : Rest) (hk : final = true → NeverFails k) :
    Answers S t k (searchSeq text final items t budget k) := by
  induction h generalizing t budget with
  | nil =>
    rw [Regex.searchSeq]
    exact answers_of_forall_iff (j := t.position) fun i => eq_comm
  | @cons n others S S' first rest ih =>
    rw [Regex.searchSeq]
    split
    · rename_i hshort
      simp only [Bool.and_eq_true] at hshort
      obtain ⟨⟨hfinal, hplain⟩, hothers⟩ := hshort
      exact (rest.endsSeq hothers (first.ends hplain t).distinct).answers (hk hfinal) budget
    · refine (first.search _ t budget _ fun hfinal => ?_).comp fun j left _ => ih (t.moveTo j) left
      rw [Bool.and_eq_true, List.isEmpty_iff] at hfinal
      obtain ⟨hfinal, rfl⟩ := hfinal
      intro u before after
      change Regex.searchSeq text final [] u before k ≠ _
      rw [Regex.searchSeq]
      exact hk hfinal u before after

theorem RealizesSeq.realizes_seq {items : List Node} {S : SpanSet} (h : RealizesSeq text items S) :
    Node.Realizes text (.seq items) S where
  ends := by
    intro hplain t
    rw [Node.isPlain] at hplain
    have hends := h.endsSeq hplain (lists_singleton t)
    rw [Relation.eq_comp] at hends
    rw [Node.ends]
    exact hends
  search := by
    intro final t budget k hk
    rw [Node.search]
    exact h.searchSeq final t budget k hk

theorem RealizesSeq.realizes {items : List Node} {S : SpanSet} (h : RealizesSeq text items S) :
    (Node.ofPieces items).Realizes text S := by
  cases h with
  | nil => exact RealizesSeq.nil.realizes_seq
  | cons first rest =>
    cases rest with
    | nil =>
      rw [Relation.comp_eq]
      exact first
    | cons second others => exact (RealizesSeq.cons first (.cons second others)).realizes_seq

theorem RealizesAny.endsAlt {branches : List Node} {S : SpanSet} (h : RealizesAny text branches S)
    (hplain : Node.allPlain branches = true) (t : Thread) :
    Lists S t (endsAlt text branches t) := by
  induction h with
  | nil => simp [Lists, Regex.endsAlt]
  | cons first rest ih =>
    rw [Node.allPlain, Bool.and_eq_true] at hplain
    intro u
    rw [Regex.endsAlt, List.mem_append, first.ends hplain.1 t u, ih hplain.2 u]
    constructor
    · rintro (⟨j, hj, rfl⟩ | ⟨j, hj, rfl⟩)
      · exact ⟨j, .inl hj, rfl⟩
      · exact ⟨j, .inr hj, rfl⟩
    · rintro ⟨j, hj | hj, rfl⟩
      · exact .inl ⟨j, hj, rfl⟩
      · exact .inr ⟨j, hj, rfl⟩

theorem RealizesAny.searchAlt {branches : List Node} {S : SpanSet}
    (h : RealizesAny text branches S) (final : Bool) (t : Thread) (budget : Nat) (k : Rest)
    (hk : final = true → NeverFails k) :
    Answers S t k (searchAlt text final branches t budget k) := by
  induction h generalizing budget with
  | nil =>
    rw [Regex.searchAlt]
    exact answers_failed budget fun _ => id
  | @cons n others S S' first rest ih =>
    rw [Regex.searchAlt]
    have hfirst := first.search final t budget k hk
    split
    · rename_i hempty
      rw [List.isEmpty_iff] at hempty
      subst hempty
      cases rest
      exact hfirst.of_iff fun j => (or_iff_left id).symm
    · exact hfirst.orElse ih

theorem RealizesAny.realizes {branches : List Node} {S : SpanSet}
    (h : RealizesAny text branches S) : Node.Realizes text (.alt branches) S where
  ends := by
    intro hplain t
    rw [Node.isPlain] at hplain
    rw [Node.ends]
    exact (h.endsAlt hplain t).distinct
  search := by
    intro final t budget k hk
    rw [Node.search]
    exact h.searchAlt final t budget k hk

end lists

def Advances (size : Nat) (R : SpanSet) : Prop := ∀ i j, R i j → i < j ∧ j ≤ size

section repetition
variable {text : Subject}

theorem At.lt_size {p : Char → Bool} {i : Nat} (h : At text p i) : i < text.size := by
  obtain ⟨c, hc, -⟩ := h
  exact (Array.getElem?_eq_some_iff.mp hc).1

theorem advances_at (p : Char → Bool) : Advances text.size (Advance (At text p)) := by
  rintro i j ⟨hat, rfl⟩
  exact ⟨Nat.lt_succ_self i, hat.lt_size⟩

/-- The fuel of the search, more than the characters left, is never used up. -/
theorem answers_searchMany {body : Thread → Nat → Rest → Verdict} {R : SpanSet} {size : Nat}
    {k : Rest} (hbody : ∀ t budget k, Answers R t k (body t budget k)) (hadvances : Advances size R)
    (greedy : Bool) (n : Nat) (t : Thread) (budget : Nat) (hn : size < t.position + n) :
    Answers (ReflTransGen R) t k (searchMany body greedy n t budget k) := by
  induction n generalizing t budget with
  | zero =>
    refine answers_of_forall_iff (j := t.position) fun i => ⟨fun hi => ?_, fun hi => hi ▸ .refl⟩
    rcases hi.cases_head with heq | ⟨j, hj, -⟩
    · exact heq.symm
    · have hstep := hadvances _ _ hj
      omega
  | succ n ih =>
    have hmore : ∀ budget, Answers (Comp R (ReflTransGen R)) t k
        (body t budget fun u budget =>
          if u.position = t.position then .failed budget else searchMany body greedy n u budget k) := by
      intro budget
      refine (hbody t budget _).comp fun j left hj => ?_
      have hstep := hadvances _ _ hj
      rw [if_neg (by rw [Thread.position_moveTo]; omega)]
      exact ih (t.moveTo j) left (by rw [Thread.position_moveTo]; omega)
    have hstop : ∀ budget, Answers Eq t k (k t budget) :=
      fun budget => answers_of_forall_iff (j := t.position) fun i => eq_comm
    rw [searchMany, choose]
    cases greedy with
    | true =>
      refine ((hmore budget).orElse hstop).of_iff fun j => ?_
      rw [ReflTransGen.cases_head_iff, or_comm, Comp]
    | false =>
      refine ((hstop budget).orElse hmore).of_iff fun j => ?_
      rw [ReflTransGen.cases_head_iff, Comp]

theorem mem_prefer {greedy : Bool} {more : List Thread} {t u : Thread} :
    u ∈ prefer greedy more t ↔ u = t ∨ u ∈ more := by
  cases greedy <;> simp [prefer, or_comm]

/-- Characters of a class from `t` on, as long as there are any. Only positions up to that of `t`
have been seen, so no end is missed. -/
theorem lists_oneOrMoreFrom (set : CharSet) (greedy : Bool) (origin fuel : Nat) (seen : Marks)
    (t : Thread) (hseen : seen.UpTo t.position) (horigin : origin ≤ t.position)
    (hfuel : text.size < t.position + fuel) :
    Lists (Comp (Advance (At text set.contains)) (ReflTransGen (Advance (At text set.contains)))) t
      (oneOrMoreFrom (fun t => (set.step? text t).toList) greedy origin fuel seen t).2 := by
  induction fuel generalizing seen t with
  | zero =>
    intro u
    constructor
    · intro hmem
      cases hmem
    · rintro ⟨j, ⟨i, ⟨hat, -⟩, -⟩, -⟩
      have hlt := hat.lt_size
      omega
  | succ fuel ih =>
    rw [oneOrMoreFrom]
    cases hstep : set.step? text t with
    | none =>
      intro u
      constructor
      · intro hmem
        cases hmem
      · rintro ⟨j, ⟨i, hi, -⟩, -⟩
        rw [step?_eq_some_iff.mpr ⟨hi.1, rfl⟩] at hstep
        cases hstep
    | some u =>
      obtain ⟨hat, rfl⟩ := step?_eq_some_iff.mp hstep
      have horigin' : t.position + 1 ≠ origin := by omega
      simp only [Thread.position_moveTo, Option.toList_some, List.foldl_cons, List.foldl_nil, hseen.not_has_succ,
        Bool.false_eq_true, if_false, horigin', List.nil_append]
      have hdeeper := ih (seen.insert (t.position + 1)) (t.moveTo (t.position + 1)) hseen.insert_succ
        (Nat.le_succ_of_le horigin) (by rw [Thread.position_moveTo]; omega)
      intro v
      rw [mem_prefer, hdeeper v]
      constructor
      · rintro (rfl | ⟨j, hj, rfl⟩)
        · exact ⟨_, ⟨_, ⟨hat, rfl⟩, .refl⟩, rfl⟩
        · exact ⟨j, ⟨_, ⟨hat, rfl⟩, ReflTransGen.cases_head_iff.mpr (.inr hj)⟩, rfl⟩
      · rintro ⟨j, ⟨i, ⟨-, rfl⟩, hj⟩, rfl⟩
        rcases hj.cases_head with rfl | hj
        · exact .inl rfl
        · exact .inr ⟨j, hj, rfl⟩

theorem lists_oneOrMore (set : CharSet) (greedy : Bool) (t : Thread) :
    Lists (Comp (Advance (At text set.contains)) (ReflTransGen (Advance (At text set.contains)))) t
      (oneOrMore (fun t => (set.step? text t).toList) greedy text.size t) := by
  exact lists_oneOrMoreFrom set greedy _ _ 0 t (Marks.upTo_zero _) (Nat.le_refl _) (by omega)

theorem ends_chars (set : CharSet) :
    (Node.chars set).ends text = fun t => (set.step? text t).toList := by
  funext t
  rw [Node.ends]

theorem lists_repeated_zero (set : CharSet) (greedy : Bool) (t : Thread) :
    Lists (ReflTransGen (Advance (At text set.contains))) t
      (repeated ((Node.chars set).ends text) greedy text.size 0 none t) := by
  rw [ends_chars, repeated]
  refine Lists.distinct fun u => ?_
  rw [mem_prefer, lists_oneOrMore set greedy t u]
  constructor
  · rintro (rfl | ⟨j, hj, rfl⟩)
    · exact ⟨_, .refl, rfl⟩
    · exact ⟨j, ReflTransGen.cases_head_iff.mpr (.inr hj), rfl⟩
  · rintro ⟨j, hj, rfl⟩
    rcases hj.cases_head with rfl | hj
    · exact .inl rfl
    · exact .inr ⟨j, hj, rfl⟩

theorem lists_repeated_one (set : CharSet) (greedy : Bool) (t : Thread) :
    Lists (Comp (Advance (At text set.contains)) (ReflTransGen (Advance (At text set.contains)))) t
      (repeated ((Node.chars set).ends text) greedy text.size 1 none t) := by
  rw [ends_chars, repeated, exactly, List.flatMap_singleton]
  exact (lists_oneOrMore set greedy t).distinct

theorem answers_searchRepeated_zero {body : Node} {R : SpanSet} (h : body.Realizes text R)
    (hadvances : Advances text.size R) (greedy : Bool) (t : Thread) (budget : Nat) (k : Rest) :
    Answers (ReflTransGen R) t k
      (searchRepeated (body.search text false) greedy text.size 0 none t budget k) := by
  rw [searchRepeated, searchExactly]
  exact answers_searchMany (fun t budget k => h.search false t budget k fun hfinal => by cases hfinal)
    hadvances greedy _ t budget (by omega)

theorem answers_searchRepeated_one {body : Node} {R : SpanSet} (h : body.Realizes text R)
    (hadvances : Advances text.size R) (greedy : Bool) (t : Thread) (budget : Nat) (k : Rest) :
    Answers (Comp R (ReflTransGen R)) t k
      (searchRepeated (body.search text false) greedy text.size 1 none t budget k) := by
  rw [searchRepeated, searchExactly]
  refine (h.search false t budget _ fun hfinal => by cases hfinal).comp fun j left _ => ?_
  exact answers_searchRepeated_zero h hadvances greedy (t.moveTo j) left k

theorem realizes_many (set : CharSet) (greedy : Bool) :
    Node.Realizes text (.repetition (.chars set) 0 none greedy)
      (ReflTransGen (Advance (At text set.contains))) where
  ends := by
    intro _ t
    rw [Node.ends]
    exact lists_repeated_zero set greedy t
  search := by
    intro final t budget k hk
    rw [Node.search]
    split
    · rename_i hfinal
      rw [Bool.and_eq_true] at hfinal
      exact (lists_repeated_zero set greedy t).answers (hk hfinal.1) budget
    · exact answers_searchRepeated_zero (realizes_chars set) (advances_at _) greedy t budget k

theorem realizes_some (set : CharSet) (greedy : Bool) :
    Node.Realizes text (.repetition (.chars set) 1 none greedy)
      (Comp (Advance (At text set.contains)) (ReflTransGen (Advance (At text set.contains)))) where
  ends := by
    intro _ t
    rw [Node.ends]
    exact lists_repeated_one set greedy t
  search := by
    intro final t budget k hk
    rw [Node.search]
    split
    · rename_i hfinal
      rw [Bool.and_eq_true] at hfinal
      exact (lists_repeated_one set greedy t).answers (hk hfinal.1) budget
    · exact answers_searchRepeated_one (realizes_chars set) (advances_at _) greedy t budget k

theorem realizes_some_of_not_isPlain {body : Node} {R : SpanSet} (h : body.Realizes text R)
    (hadvances : Advances text.size R) (hplain : body.isPlain = false) (greedy : Bool) :
    Node.Realizes text (.repetition body 1 none greedy) (Comp R (ReflTransGen R)) where
  ends := by
    intro hrepetition
    rw [Node.isPlain, hplain] at hrepetition
    cases hrepetition
  search := by
    intro final t budget k hk
    rw [Node.search, hplain, Bool.and_false, if_neg Bool.false_ne_true]
    exact answers_searchRepeated_one h hadvances greedy t budget k

end repetition

/-- A match starts at one of the `n + 1` positions from `position` on. -/
def StartsWithin (S : SpanSet) (position n : Nat) : Prop :=
  ∃ i j, position ≤ i ∧ i ≤ position + n ∧ S i j

section find
variable {text : Subject} {root : Node} {S : SpanSet}

theorem startsWithin_zero {position : Nat} :
    StartsWithin S position 0 ↔ ∃ j, S position j := by
  constructor
  · rintro ⟨i, j, hlow, hhigh, hj⟩
    obtain rfl : i = position := by omega
    exact ⟨j, hj⟩
  · rintro ⟨j, hj⟩
    exact ⟨position, j, Nat.le_refl _, Nat.le_refl _, hj⟩

theorem startsWithin_succ {position n : Nat} :
    StartsWithin S position (n + 1) ↔ (∃ j, S position j) ∨ StartsWithin S (position + 1) n := by
  constructor
  · rintro ⟨i, j, hlow, hhigh, hj⟩
    rcases Nat.eq_or_lt_of_le hlow with rfl | hlt
    · exact .inl ⟨j, hj⟩
    · exact .inr ⟨i, j, hlt, by omega, hj⟩
  · rintro (⟨j, hj⟩ | ⟨i, j, hlow, hhigh, hj⟩)
    · exact ⟨position, j, Nat.le_refl _, by omega, hj⟩
    · exact ⟨i, j, by omega, by omega, hj⟩

theorem Node.Realizes.ends_ne_nil_iff (h : root.Realizes text S) (hplain : root.isPlain = true)
    (position : Nat) : root.ends text (.start position) ≠ [] ↔ ∃ j, S position j := by
  constructor
  · intro hne
    obtain ⟨u, hu⟩ := List.exists_mem_of_ne_nil _ hne
    obtain ⟨j, hj, -⟩ := (h.ends hplain _ u).mp hu
    exact ⟨j, hj⟩
  · rintro ⟨j, hj⟩
    exact List.ne_nil_of_mem ((h.ends hplain _ _).mpr ⟨j, hj, rfl⟩)

theorem Node.Realizes.findFrom_isSome_iff (h : root.Realizes text S) (hplain : root.isPlain = true)
    (position n : Nat) : (findFrom root text position n).isSome ↔ StartsWithin S position n := by
  induction n generalizing position with
  | zero =>
    rw [startsWithin_zero, ← h.ends_ne_nil_iff hplain, findFrom, Option.isSome_map,
      List.isSome_head?]
  | succ n ih =>
    rw [startsWithin_succ, ← h.ends_ne_nil_iff hplain, ← ih, findFrom]
    cases root.ends text (.start position) with
    | nil => simp
    | cons t others => simp

/-- An answer about the matches that begin at a position or one of the `n` after it, by the searches
that lead to it, whatever is left of the budget at each. -/
inductive Scans (root : Node) (text : Subject) : Nat → Nat → Option Match → Prop
  | here {position budget n left : Nat} {t : Thread}
      (hsearch : root.search text false (.start position) budget .found = .found t left) :
      Scans root text position n (some ⟨position, t⟩)
  | nowhere {position budget left : Nat}
      (hsearch : root.search text false (.start position) budget .found = .failed left) :
      Scans root text position 0 none
  | later {position budget n left : Nat} {result : Option Match}
      (hsearch : root.search text false (.start position) budget .found = .failed left)
      (rest : Scans root text (position + 1) n result) : Scans root text position (n + 1) result

theorem scans_of_searchFrom {root : Node} {position budget n : Nat} {result : Option Match}
    (h : searchFrom root text position budget n = some result) :
    Scans root text position n result := by
  induction n generalizing position budget with
  | zero =>
    rw [searchFrom] at h
    split at h
    · rename_i t left hsearch
      obtain rfl := Option.some.inj h
      exact .here hsearch
    · rename_i left hsearch
      obtain rfl := Option.some.inj h
      exact .nowhere hsearch
    · cases h
  | succ n ih =>
    rw [searchFrom] at h
    split at h
    · rename_i t left hsearch
      obtain rfl := Option.some.inj h
      exact .here hsearch
    · rename_i left hsearch
      exact .later hsearch (ih h)
    · cases h

theorem Node.Realizes.exists_of_found (h : root.Realizes text S) {position budget left : Nat}
    {t : Thread} (hsearch : root.search text false (.start position) budget .found = .found t left) :
    ∃ j, S position j := by
  obtain ⟨j, -, hj, -⟩ := (h.search false (.start position) budget .found nofun).found t left hsearch
  exact ⟨j, hj⟩

theorem Node.Realizes.not_exists_of_failed (h : root.Realizes text S) {position budget left : Nat}
    (hsearch : root.search text false (.start position) budget .found = .failed left) :
    ¬ ∃ j, S position j := by
  rintro ⟨j, hj⟩
  obtain ⟨before, after, heq⟩ :=
    (h.search false (.start position) budget .found nofun).failed left hsearch j hj
  cases heq

theorem Node.Realizes.isSome_iff_of_scans (h : root.Realizes text S) {position n : Nat}
    {result : Option Match} (hscans : Scans root text position n result) :
    result.isSome ↔ StartsWithin S position n := by
  induction hscans with
  | @here position budget n left t hsearch =>
    obtain ⟨j, hj⟩ := h.exists_of_found hsearch
    exact iff_of_true rfl ⟨position, j, Nat.le_refl _, Nat.le_add_right _ _, hj⟩
  | nowhere hsearch =>
    rw [startsWithin_zero]
    exact iff_of_false Bool.false_ne_true (h.not_exists_of_failed hsearch)
  | later hsearch _ ih => rw [ih, startsWithin_succ, or_iff_right (h.not_exists_of_failed hsearch)]

/-- If there is an answer, it tells whether there is a match. -/
theorem Node.Realizes.find_isSome_iff [Engine] {regex : Regex} (h : regex.root.Realizes text S)
    {result : Option Match} (hresult : regex.find text = some result) :
    result.isSome ↔ StartsWithin S 0 text.size := by
  rw [find] at hresult
  split at hresult
  · rename_i hplain
    obtain rfl := Option.some.inj hresult
    exact h.findFrom_isSome_iff hplain 0 text.size
  · exact h.isSome_iff_of_scans (scans_of_searchFrom hresult)

end find

end PhrasePattern.Regex
