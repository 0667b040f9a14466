import PhrasePattern.Proofs.Regex.Outcome

/-! Nodes in a group of their own. A sequence within a sequence can be spliced into it, and a choice
within a choice: the same ways are tried in the same order. Where any match will do, what is plain is not
searched step by step, and the inner sequence has to be direct. -/
namespace PhrasePattern.Regex

def Open (goal : Goal) : Prop := ∀ t, (goal t).isSome = true

theorem open_some : Open some := fun _ => rfl

/-- Nodes that no search can tell apart, unless it is given up. -/
structure Node.Alike (n n' : Node) : Prop where
  isPlain : n.isPlain = n'.isPlain
  isEmpty : n.isEmpty = n'.isEmpty
  ends : n.isPlain = true → ∀ text, n.ends text = n'.ends text
  answer : ∀ text final t goal, (final = true → Open goal) →
    n.answer text final t goal = n'.answer text final t goal

namespace Node.Alike
variable {n n' : Node}

protected theorem refl (n : Node) : n.Alike n := ⟨rfl, rfl, fun _ _ => rfl, fun _ _ _ _ _ => rfl⟩

theorem capture (h : n.Alike n') (group : Nat) : (Node.capture group n).Alike (.capture group n') where
  isPlain := by rw [Node.isPlain, Node.isPlain, h.isPlain]
  isEmpty := rfl
  ends hplain text := by
    rw [Node.isPlain] at hplain
    funext t
    rw [Node.ends, Node.ends, h.ends hplain]
  answer text final t goal hgoal := by
    rw [Node.answer, Node.answer, h.answer]
    exact fun hfinal u => hgoal hfinal (u.record group t.position)

/-- Any match will do when looking ahead. -/
theorem lookAhead (h : n.Alike n') (negative : Bool) :
    (Node.lookAhead negative n).Alike (.lookAhead negative n') where
  isPlain := by rw [Node.isPlain, Node.isPlain]
  isEmpty := rfl
  ends hplain := by
    rw [Node.isPlain] at hplain
    cases hplain
  answer text final t goal _ := by
    rw [Node.answer, Node.answer, h.answer text true t some fun _ => open_some]

theorem atomic (h : n.Alike n') : (Node.atomic n).Alike (.atomic n') where
  isPlain := by rw [Node.isPlain, Node.isPlain]
  isEmpty := rfl
  ends hplain := by
    rw [Node.isPlain] at hplain
    cases hplain
  answer text final t goal _ := by
    rw [Node.answer, Node.answer, h.answer text true t some fun _ => open_some]

theorem repetition (h : n.Alike n') (least : Nat) (most? : Option Nat) (greedy : Bool) :
    (Node.repetition n least most? greedy).Alike (.repetition n' least most? greedy) where
  isPlain := by rw [Node.isPlain, Node.isPlain, h.isPlain]
  isEmpty := rfl
  ends hplain text := by
    rw [Node.isPlain] at hplain
    funext t
    rw [Node.ends, Node.ends, h.ends hplain]
  answer text final t goal _ := by
    have hsame : n.answer text false = n'.answer text false := by
      funext u goal
      exact h.answer text false u goal fun hfinal => nomatch hfinal
    rw [Node.answer, Node.answer, h.isPlain, hsame]
    split
    · rename_i hplain
      rw [Bool.and_eq_true, ← h.isPlain] at hplain
      rw [h.ends hplain.2]
    · rfl

end Node.Alike

section sequences

theorem allPlain_cons (n : Node) (others : List Node) :
    Node.allPlain (n :: others) = (n.isPlain && Node.allPlain others) := by rw [Node.allPlain]

theorem allPlain_append (items others : List Node) :
    Node.allPlain (items ++ others) = (Node.allPlain items && Node.allPlain others) := by
  induction items with
  | nil => rw [List.nil_append, Node.allPlain, Bool.true_and]
  | cons n items ih => rw [List.cons_append, Node.allPlain, Node.allPlain, ih, Bool.and_assoc]

variable {text : Subject}

theorem endsSeq_cons (n : Node) (others : List Node) (threads : List Thread) :
    endsSeq text (n :: others) threads = endsSeq text others (distinct (threads.flatMap (n.ends text))) := by
  rw [endsSeq]

theorem endsSeq_append (items more : List Node) (threads : List Thread) :
    endsSeq text (items ++ more) threads = endsSeq text more (endsSeq text items threads) := by
  induction items generalizing threads with
  | nil => rw [List.nil_append, endsSeq]
  | cons n others ih => rw [List.cons_append, endsSeq, endsSeq, ih]

theorem searchSeq_append (items more : List Node) (t : Thread) (budget : Nat) (k : Rest) :
    searchSeq text false (items ++ more) t budget k =
      searchSeq text false items t budget fun u budget =>
        searchSeq text false more u budget k := by
  induction items generalizing t budget with
  | nil => rw [List.nil_append, searchSeq]
  | cons n others ih =>
    rw [List.cons_append, searchSeq, searchSeq]
    simp only [Bool.false_and, Bool.false_eq_true, if_false, ih]

theorem answerSeq_cons (final : Bool) (n : Node) (others : List Node) (t : Thread) (goal : Goal) :
    answerSeq text final (n :: others) t goal =
      if final && n.isPlain && Node.allPlain others then
        (endsSeq text others (distinct (n.ends text t))).head?.bind goal
      else n.answer text (final && others.isEmpty) t fun u => answerSeq text final others u goal := by
  rw [answerSeq]

theorem answerSeq_append (items more : List Node) (t : Thread) (goal : Goal) :
    answerSeq text false (items ++ more) t goal =
      answerSeq text false items t fun u => answerSeq text false more u goal := by
  induction items generalizing t with
  | nil => rw [List.nil_append, answerSeq]
  | cons n others ih =>
    rw [List.cons_append, answerSeq, answerSeq]
    simp only [Bool.false_and, Bool.false_eq_true, if_false, ih]

/-- Threads that go through the nodes together may as well go one by one. -/
theorem endsSeq_eq_distinct (n : Node) (items : List Node) (hplain : Node.allPlain (n :: items) = true)
    (threads : List Thread) :
    endsSeq text (n :: items) threads =
      distinct (threads.flatMap fun t => endsSeq text (n :: items) [t]) := by
  induction items generalizing n threads with
  | nil =>
    simp only [endsSeq, List.flatMap_singleton]
    exact (distinct_flatMap_distinct threads (n.ends text)).symm
  | cons m items ih =>
    rw [Node.allPlain, Bool.and_eq_true] at hplain
    have hstep : Positional fun t => endsSeq text (m :: items) [t] :=
      fun t u heq => samePlaces_endsSeq text _ hplain.2 (.cons heq .nil)
    have heach : ∀ t, endsSeq text (n :: m :: items) [t] =
        distinct ((n.ends text t).flatMap fun u => endsSeq text (m :: items) [u]) := by
      intro t
      rw [endsSeq, List.flatMap_singleton, ih m hplain.2, distinct_flatMap_of_positional hstep]
    calc endsSeq text (n :: m :: items) threads
        = distinct ((distinct (threads.flatMap (n.ends text))).flatMap
            fun u => endsSeq text (m :: items) [u]) := by rw [endsSeq, ih m hplain.2]
      _ = distinct ((threads.flatMap (n.ends text)).flatMap fun u => endsSeq text (m :: items) [u]) :=
          distinct_flatMap_of_positional hstep _
      _ = distinct (threads.flatMap fun t =>
            (n.ends text t).flatMap fun u => endsSeq text (m :: items) [u]) := by
          rw [List.flatMap_assoc]
      _ = distinct (threads.flatMap fun t => endsSeq text (n :: m :: items) [t]) := by
          simp only [heach]
          exact (distinct_flatMap_distinct threads _).symm

theorem distinct_endsSeq (n : Node) (items : List Node) (hplain : Node.allPlain (n :: items) = true)
    (threads : List Thread) :
    distinct (endsSeq text (n :: items) threads) = endsSeq text (n :: items) threads := by
  rw [endsSeq_eq_distinct n items hplain, distinct_distinct]

theorem head?_distinct (threads : List Thread) : (distinct threads).head? = threads.head? := by
  cases threads with
  | nil => rfl
  | cons t others => simp [distinct, distinctFrom, Marks.not_has_zero]

theorem answerSeq_final (n : Node) (items : List Node) (h : Node.allPlain (n :: items) = true) (t : Thread)
    (goal : Goal) :
    answerSeq text true (n :: items) t goal = (endsSeq text (n :: items) [t]).head?.bind goal := by
  rw [allPlain_cons, Bool.and_eq_true] at h
  rw [answerSeq_cons, h.1, h.2, endsSeq_cons, List.flatMap_singleton]
  rfl

theorem SamePlaces.isEmpty {threads threads' : List Thread} (h : SamePlaces threads threads') :
    threads.isEmpty = threads'.isEmpty := by
  cases h <;> rfl

theorem placed_endsSeq {items : List Node} (h : Node.allPlain items = true) {goal : Goal} (hgoal : Open goal) :
    Placed fun t => (endsSeq text items [t]).head?.bind goal := by
  have hsome : ∀ threads : List Thread, (threads.head?.bind goal).isSome = !threads.isEmpty := by
    intro threads
    cases threads with
    | nil => rfl
    | cons t others => exact hgoal t
  intro t u heq
  have hplaces := samePlaces_endsSeq text items h (.cons heq .nil : SamePlaces [t] [u])
  rw [hsome, hsome, hplaces.isEmpty]

theorem findSome?_bind {goal : Goal} (hgoal : Open goal) (next : Thread → Option Thread)
    (threads : List Thread) :
    (threads.findSome? next).bind goal = threads.findSome? fun t => (next t).bind goal := by
  induction threads with
  | nil => rfl
  | cons t others ih =>
    rw [List.findSome?_cons, List.findSome?_cons]
    cases next t with
    | none => exact ih
    | some u =>
      obtain ⟨v, hv⟩ := Option.isSome_iff_exists.mp (hgoal u)
      rw [Option.bind_some, hv]

theorem answerSeq_append_of_direct {items : List Node} (hdirect : ∀ n ∈ items, n.IsDirect) (m : Node)
    (others : List Node) {goal : Goal} (hgoal : Open goal) (t : Thread) :
    answerSeq text true (items ++ m :: others) t goal =
      answerSeq text false items t fun u => answerSeq text true (m :: others) u goal := by
  induction items generalizing t with
  | nil => rw [List.nil_append, answerSeq]
  | cons n items ih =>
    have hrest := ih fun n hn => hdirect n (List.mem_cons_of_mem _ hn)
    have hne : (items ++ m :: others).isEmpty = false := by simp
    rw [List.cons_append, answerSeq_cons, answerSeq_cons, hne]
    simp only [Bool.and_false, Bool.false_and, Bool.false_eq_true, if_false, Bool.true_and, ← hrest]
    split
    · rename_i hplain
      rw [Bool.and_eq_true] at hplain
      obtain ⟨first, more, hsplit⟩ := List.exists_cons_of_ne_nil (l := items ++ m :: others) (by simp)
      rw [hsplit] at hplain ⊢
      have hplaced : Placed fun u => (endsSeq text (first :: more) [u]).head?.bind goal :=
        placed_endsSeq hplain.2 hgoal
      have hfinal : (fun u => answerSeq text true (first :: more) u goal) =
          fun u => (endsSeq text (first :: more) [u]).head?.bind goal :=
        funext fun u => answerSeq_final first more hplain.2 u goal
      rw [hfinal, hdirect n List.mem_cons_self hplain.1 text t _ hplaced,
        ← findSome?_distinct hplaced, endsSeq_eq_distinct first more hplain.2, head?_distinct,
        List.head?_flatMap, findSome?_bind hgoal]
    · rfl

end sequences

structure SeqAlike (items items' : List Node) : Prop where
  isEmpty : items.isEmpty = items'.isEmpty
  allPlain : Node.allPlain items = Node.allPlain items'
  ends : Node.allPlain items = true → ∀ text, endsSeq text items = endsSeq text items'
  answer : ∀ text final t goal, (final = true → Open goal) →
    answerSeq text final items t goal = answerSeq text final items' t goal

namespace SeqAlike
variable {n n' : Node} {items items' : List Node}

protected theorem refl (items : List Node) : SeqAlike items items :=
  ⟨rfl, rfl, fun _ _ => rfl, fun _ _ _ _ _ => rfl⟩

protected theorem trans {items'' : List Node} (h : SeqAlike items items')
    (h' : SeqAlike items' items'') : SeqAlike items items'' where
  isEmpty := h.isEmpty.trans h'.isEmpty
  allPlain := h.allPlain.trans h'.allPlain
  ends hplain text := (h.ends hplain text).trans (h'.ends (h.allPlain ▸ hplain) text)
  answer text final t goal hgoal := (h.answer text final t goal hgoal).trans (h'.answer text final t goal hgoal)

theorem cons (h : n.Alike n') (hitems : SeqAlike items items') : SeqAlike (n :: items) (n' :: items') where
  isEmpty := rfl
  allPlain := by rw [Node.allPlain, Node.allPlain, h.isPlain, hitems.allPlain]
  ends hplain text := by
    rw [Node.allPlain, Bool.and_eq_true] at hplain
    funext threads
    rw [endsSeq, endsSeq, h.ends hplain.1, hitems.ends hplain.2]
  answer text final t goal hgoal := by
    have hrest : (fun u => answerSeq text final items u goal) = fun u => answerSeq text final items' u goal :=
      funext fun u => hitems.answer text final u goal hgoal
    have hopen : (final && items'.isEmpty) = true → Open fun u => answerSeq text final items' u goal := by
      intro hlast u
      rw [Bool.and_eq_true, List.isEmpty_iff] at hlast
      simp only [hlast.2, answerSeq]
      exact hgoal hlast.1 u
    rw [answerSeq, answerSeq, h.isPlain, hitems.allPlain, hitems.isEmpty, hrest,
      h.answer text _ t _ hopen]
    split
    · rename_i hplain
      rw [Bool.and_eq_true, Bool.and_eq_true, ← h.isPlain, ← hitems.allPlain] at hplain
      rw [h.ends hplain.1.2, hitems.ends hplain.2]
    · rfl

theorem append_left (before : List Node) (h : SeqAlike items items') :
    SeqAlike (before ++ items) (before ++ items') := by
  induction before with
  | nil => exact h
  | cons n before ih => exact ih.cons (.refl n)

theorem splice (n : Node) (items others : List Node) (hdirect : ∀ m ∈ n :: items, m.IsDirect) :
    SeqAlike (n :: items ++ others) (.seq (n :: items) :: others) where
  isEmpty := rfl
  allPlain := by rw [allPlain_append, allPlain_cons (.seq _), Node.isPlain]
  ends hall text := by
    rw [allPlain_append, Bool.and_eq_true] at hall
    funext threads
    rw [endsSeq_append, endsSeq_cons (.seq _), endsSeq_eq_distinct n items hall.1]
    simp only [Node.ends]
  answer text final t goal hgoal := by
    rw [answerSeq_cons final (.seq _), Node.isPlain, Node.answer, Node.ends]
    cases final with
    | false =>
      simp only [Bool.false_and, Bool.false_eq_true, if_false]
      exact answerSeq_append (n :: items) others t goal
    | true =>
      rw [Bool.true_and, Bool.true_and]
      split
      · rename_i hall
        rw [Bool.and_eq_true] at hall
        have hplain : Node.allPlain (n :: (items ++ others)) = true := by
          rw [← List.cons_append, allPlain_append, hall.1, hall.2]
          rfl
        rw [List.cons_append, answerSeq_final n _ hplain, ← List.cons_append, endsSeq_append,
          distinct_endsSeq n items hall.1]
      · cases others with
        | nil => rw [List.append_nil]; rfl
        | cons m others => exact answerSeq_append_of_direct hdirect m others (hgoal rfl) t

theorem node (h : SeqAlike items items') : (Node.seq items).Alike (.seq items') where
  isPlain := by rw [Node.isPlain, Node.isPlain, h.allPlain]
  isEmpty := by
    match items, items', h.isEmpty with
    | [], [], _ | _ :: _, _ :: _, _ => rfl
  ends hplain text := by
    rw [Node.isPlain] at hplain
    funext t
    rw [Node.ends, Node.ends, h.ends hplain]
  answer text final t goal hgoal := by
    rw [Node.answer, Node.answer, h.answer text final t goal hgoal]

end SeqAlike

/-- The second list is the first one, with some runs of nodes in groups of their own. -/
inductive Splice : List Node → List Node → Prop
  | nil : Splice [] []
  | cons {n n' : Node} {items items' : List Node} (first : n.Alike n')
      (others : Splice items items') : Splice (n :: items) (n' :: items')
  | seq (n m : Node) (group : List Node) {items items' : List Node}
      (direct : ∀ item ∈ n :: m :: group, item.IsDirect)
      (others : Splice items items') :
      Splice (n :: m :: group ++ items) (.seq (n :: m :: group) :: items')

namespace Splice
variable {items items' : List Node}

theorem append {others others' : List Node} (h : Splice items items')
    (h' : Splice others others') : Splice (items ++ others) (items' ++ others') := by
  induction h with
  | nil => exact h'
  | cons first _ ih => exact .cons first ih
  | seq n m group direct _ ih =>
    rw [List.append_assoc]
    exact .seq n m group direct ih

protected theorem refl (items : List Node) : Splice items items := by
  induction items with
  | nil => exact .nil
  | cons n items ih => exact .cons (.refl n) ih

theorem single {items : List Node} (hdirect : ∀ n ∈ items, n.IsDirect)
    (hempty : ∀ n ∈ items, n.isEmpty = false) :
    Splice items (if (Node.ofPieces items).isEmpty then [] else [Node.ofPieces items]) := by
  match items, hdirect, hempty with
  | [], _, _ => exact .nil
  | [n], _, hempty =>
    rw [Node.ofPieces, hempty n List.mem_cons_self]
    exact .refl [n]
  | n :: m :: group, hdirect, _ =>
    have hsplice : Splice (n :: m :: group ++ []) [.seq (n :: m :: group)] :=
      .seq n m group hdirect .nil
    rwa [List.append_nil] at hsplice

theorem seqAlike (h : Splice items items') : SeqAlike items items' := by
  induction h with
  | nil => exact .refl []
  | cons first _ ih => exact .cons first ih
  | seq n m group direct _ ih =>
    exact (ih.append_left (n :: m :: group)).trans (.splice n (m :: group) _ direct)

theorem ofPieces (h : Splice items items') :
    (Node.ofPieces items).Alike (Node.ofPieces items') := by
  have halike := h.seqAlike
  cases h with
  | nil => exact .refl _
  | cons first others =>
    have hempty := others.seqAlike.isEmpty
    rename_i n n' items items'
    match items, items', hempty with
    | [], [], _ => exact first
    | _ :: _, _ :: _, _ => exact halike.node
  | seq n m group direct others =>
    have hempty := others.seqAlike.isEmpty
    rename_i items items'
    match items, items', hempty with
    | [], [], _ =>
      rw [List.append_nil]
      exact .refl _
    | _ :: _, _ :: _, _ => exact halike.node

end Splice

section choices

variable {text : Subject}

theorem endsAlt_cons (n : Node) (others : List Node) (t : Thread) :
    endsAlt text (n :: others) t = n.ends text t ++ endsAlt text others t := by rw [endsAlt]

theorem endsAlt_append (branches others : List Node) (t : Thread) :
    endsAlt text (branches ++ others) t = endsAlt text branches t ++ endsAlt text others t := by
  induction branches with
  | nil => rw [List.nil_append, endsAlt, List.nil_append]
  | cons n branches ih => rw [List.cons_append, endsAlt, endsAlt, ih, List.append_assoc]

theorem answerAlt_cons (final : Bool) (n : Node) (others : List Node) (t : Thread) (goal : Goal) :
    answerAlt text final (n :: others) t goal =
      (n.answer text final t goal).or (answerAlt text final others t goal) := by rw [answerAlt]

theorem answerAlt_append (final : Bool) (branches others : List Node) (t : Thread) (goal : Goal) :
    answerAlt text final (branches ++ others) t goal =
      (answerAlt text final branches t goal).or (answerAlt text final others t goal) := by
  induction branches with
  | nil => rw [List.nil_append, answerAlt, Option.none_or]
  | cons n branches ih => rw [List.cons_append, answerAlt, answerAlt, ih, Option.or_assoc]

end choices

/-- The second list is the first one, with some runs of branches as choices of their own. -/
inductive AltSplice : List Node → List Node → Prop
  | nil : AltSplice [] []
  | cons {n n' : Node} {branches branches' : List Node} (first : n.Alike n')
      (others : AltSplice branches branches') :
      AltSplice (n :: branches) (n' :: branches')
  | alt (n m : Node) (group : List Node) {branches branches' : List Node}
      (others : AltSplice branches branches') :
      AltSplice (n :: m :: group ++ branches) (.alt (n :: m :: group) :: branches')

structure AltAlike (branches branches' : List Node) : Prop where
  isEmpty : branches.isEmpty = branches'.isEmpty
  allPlain : Node.allPlain branches = Node.allPlain branches'
  ends : Node.allPlain branches = true → ∀ text t seen,
    distinctFrom seen (endsAlt text branches t) = distinctFrom seen (endsAlt text branches' t)
  answer : ∀ text final t goal, (final = true → Open goal) →
    answerAlt text final branches t goal = answerAlt text final branches' t goal

namespace AltAlike
variable {n n' : Node} {branches branches' : List Node}

theorem cons (h : n.Alike n') (hothers : AltAlike branches branches') :
    AltAlike (n :: branches) (n' :: branches') where
  isEmpty := rfl
  allPlain := by rw [Node.allPlain, Node.allPlain, h.isPlain, hothers.allPlain]
  ends hplain text t seen := by
    rw [Node.allPlain, Bool.and_eq_true] at hplain
    rw [endsAlt, endsAlt, h.ends hplain.1, distinctFrom_append, distinctFrom_append,
      hothers.ends hplain.2]
  answer text final t goal hgoal := by
    rw [answerAlt, answerAlt, h.answer text final t goal hgoal, hothers.answer text final t goal hgoal]

theorem splice (n : Node) (group : List Node) (hothers : AltAlike branches branches') :
    AltAlike (n :: group ++ branches) (.alt (n :: group) :: branches') where
  isEmpty := rfl
  allPlain := by rw [allPlain_append, allPlain_cons (.alt _), Node.isPlain, hothers.allPlain]
  ends hplain text t seen := by
    rw [allPlain_append, Bool.and_eq_true] at hplain
    have hdistinct := distinctFrom_distinct seen (endsAlt text (n :: group) t)
    rw [endsAlt_append, endsAlt_cons (.alt _), Node.ends, distinctFrom_append, distinctFrom_append,
      hdistinct.1, hdistinct.2, hothers.ends hplain.2]
  answer text final t goal hgoal := by
    rw [answerAlt_append, answerAlt_cons final (.alt _), Node.answer, hothers.answer text final t goal hgoal]

theorem node (h : AltAlike branches branches') :
    (Node.alt branches).Alike (.alt branches') where
  isPlain := by rw [Node.isPlain, Node.isPlain, h.allPlain]
  isEmpty := rfl
  ends hplain text := by
    rw [Node.isPlain] at hplain
    funext t
    rw [Node.ends, Node.ends, distinct, distinct, h.ends hplain]
  answer text final t goal hgoal := by
    rw [Node.answer, Node.answer, h.answer text final t goal hgoal]

end AltAlike

namespace AltSplice
variable {branches branches' : List Node}

theorem altAlike (h : AltSplice branches branches') : AltAlike branches branches' := by
  induction h with
  | nil => exact ⟨rfl, rfl, fun _ _ _ _ => rfl, fun _ _ _ _ _ => rfl⟩
  | cons first _ ih => exact .cons first ih
  | alt n m group _ ih => exact .splice n (m :: group) ih

theorem append {others others' : List Node} (h : AltSplice branches branches')
    (h' : AltSplice others others') : AltSplice (branches ++ others) (branches' ++ others') := by
  induction h with
  | nil => exact h'
  | cons first _ ih => exact .cons first ih
  | alt n m group _ ih =>
    rw [List.append_assoc]
    exact .alt n m group ih

protected theorem refl (branches : List Node) : AltSplice branches branches := by
  induction branches with
  | nil => exact .nil
  | cons n branches ih => exact .cons (.refl n) ih

theorem single {branches : List Node} (h : branches ≠ []) :
    AltSplice branches [Node.ofBranches branches] := by
  match branches, h with
  | [n], _ => exact .refl [n]
  | n :: m :: group, _ =>
    have hsplice : AltSplice (n :: m :: group ++ []) [.alt (n :: m :: group)] :=
      .alt n m group .nil
    rwa [List.append_nil] at hsplice

theorem ofBranches (h : AltSplice branches branches') :
    (Node.ofBranches branches).Alike (Node.ofBranches branches') := by
  have halike := h.altAlike
  cases h with
  | nil => exact .refl _
  | cons first others =>
    have hempty := others.altAlike.isEmpty
    rename_i n n' branches branches'
    match branches, branches', hempty with
    | [], [], _ => exact first
    | _ :: _, _ :: _, _ => exact halike.node
  | alt n m group others =>
    have hempty := others.altAlike.isEmpty
    rename_i branches branches'
    match branches, branches', hempty with
    | [], [], _ =>
      rw [List.append_nil]
      exact .refl _
    | _ :: _, _ :: _, _ => exact halike.node

end AltSplice

section finding
variable {root root' : Node}

theorem findFrom_of_alike (h : root.Alike root') (hplain : root.isPlain = true) (text : Subject)
    (position n : Nat) : findFrom root text position n = findFrom root' text position n := by
  induction n generalizing position with
  | zero => rw [findFrom, findFrom, h.ends hplain]
  | succ n ih => rw [findFrom, findFrom, h.ends hplain, ih]

theorem answerFrom_of_alike (h : root.Alike root') (text : Subject) (position n : Nat) :
    answerFrom root text position n = answerFrom root' text position n := by
  have hsame : ∀ position, root.answer text false (.start position) some =
      root'.answer text false (.start position) some :=
    fun position => h.answer text false (.start position) some fun hfinal => nomatch hfinal
  induction n generalizing position with
  | zero => rw [answerFrom, answerFrom, hsame]
  | succ n ih => rw [answerFrom, answerFrom, hsame, ih]

/-- Expressions with roots that are alike find the same, unless a search is given up. -/
theorem find_of_alike [Engine] {regex regex' : Regex} (h : regex.root.Alike regex'.root) {text : Subject}
    {found found' : Option Match} (hfind : regex.find text = some found)
    (hfind' : regex'.find text = some found') : found = found' := by
  unfold find at hfind hfind'
  rw [← h.isPlain] at hfind'
  split at hfind
  · rename_i hplain
    rw [if_pos hplain, ← findFrom_of_alike h hplain] at hfind'
    exact Option.some.inj (hfind.symm.trans hfind')
  · rename_i hplain
    rw [if_neg hplain] at hfind'
    rw [(scans_of_searchFrom hfind).eq_answerFrom, (scans_of_searchFrom hfind').eq_answerFrom]
    exact answerFrom_of_alike h text 0 text.size

end finding

end PhrasePattern.Regex
