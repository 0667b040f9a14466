import PhrasePattern.Proofs.Regex.Places

/-! What a search comes to if it is not given up. The budget only decides whether there is an answer: the
answer itself is that of the same search without a budget, in which one way after the other is tried. -/
namespace PhrasePattern.Regex

/-- What follows a node: the thread that the whole match ends with, if there is one from there. -/
abbrev Goal := Thread → Option Thread

section
variable (body : Thread → Goal → Option Thread) (greedy : Bool)

def pick (greedy : Bool) (more stop : Option Thread) : Option Thread :=
  if greedy then more.or stop else stop.or more

def answerExactly : Nat → Thread → Goal → Option Thread
  | 0, t, goal => goal t
  | n + 1, t, goal => body t fun u => answerExactly n u goal

def answerAtMost : Nat → Thread → Goal → Option Thread
  | 0, t, goal => goal t
  | n + 1, t, goal => pick greedy (body t fun u => answerAtMost n u goal) (goal t)

def answerMany : (n : Nat) → Thread → Goal → Option Thread
  | 0, t, goal => goal t
  | n + 1, t, goal =>
    pick greedy
      (body t fun u => if u.position = t.position then none else answerMany n u goal) (goal t)

def answerRepeated (size least : Nat) (most? : Option Nat) (t : Thread) (goal : Goal) : Option Thread :=
  answerExactly body least t fun u =>
    match most? with
    | some most => answerAtMost body greedy (most - least) u goal
    | none => answerMany body greedy (size - u.position + 1) u goal

end

mutual

/-- Where a match ends that begins with the node at `t`. -/
def Node.answer (text : Subject) (final : Bool) : Node → Thread → Goal → Option Thread
  | .chars set, t, goal => (set.step? text t).bind goal
  | .assertion test, t, goal => if test.holds text t.position then goal t else none
  | .capture group body, t, goal =>
      body.answer text final t fun u => goal (u.record group t.position)
  | .seq items, t, goal => answerSeq text final items t goal
  | .alt branches, t, goal => answerAlt text final branches t goal
  | .repetition body least most? greedy, t, goal =>
      if final && body.isPlain then
        (repeated (body.ends text) greedy text.size least most? t).head?.bind goal
      else answerRepeated (body.answer text false) greedy text.size least most? t goal
  | .lookAhead negative body, t, goal =>
    match body.answer text true t some with
    | some u => if negative then none else goal { t with captures := u.captures }
    | none => if negative then goal t else none
  | .lookBehind negative widths branches, t, goal =>
    if negative then
      match answerBehind text widths branches t some with
      | some _ => none
      | none => goal t
    else answerBehind text widths branches t goal
  | .atomic body, t, goal => (body.answer text true t some).bind goal
  | .backreference group, t, goal => (repeatGroup? text group t).bind goal
  | .captured group, t, goal => if (t.captured? group).isSome then goal t else none

def answerSeq (text : Subject) (final : Bool) : List Node → Thread → Goal → Option Thread
  | [], t, goal => goal t
  | n :: others, t, goal =>
    if final && n.isPlain && Node.allPlain others then
      (endsSeq text others (distinct (n.ends text t))).head?.bind goal
    else
      n.answer text (final && others.isEmpty) t fun u => answerSeq text final others u goal

def answerAlt (text : Subject) (final : Bool) : List Node → Thread → Goal → Option Thread
  | [], _, _ => none
  | n :: others, t, goal => (n.answer text final t goal).or (answerAlt text final others t goal)

def answerBehind (text : Subject) : List Nat → List Node → Thread → Goal → Option Thread
  | width :: widths, n :: others, t, goal =>
    let next := answerBehind text widths others t goal
    if width ≤ t.position then
      match n.answer text true { t with position := t.position - width } some with
      | some u => (goal { t with captures := u.captures }).or next
      | none => next
    else next
  | _, _, _, _ => none

end

/-- The verdict tells the outcome, unless the search was given up. -/
def Verdict.Gives : Verdict → Option Thread → Prop
  | found t _, outcome => outcome = some t
  | failed _, outcome => outcome = none
  | exhausted, _ => True

theorem Verdict.Gives.cases {v : Verdict} {outcome : Option Thread} (h : v.Gives outcome) :
    (∃ t budget, v = .found t budget ∧ outcome = some t) ∨
      (∃ budget, v = .failed budget ∧ outcome = none) ∨ v = .exhausted := by
  cases v with
  | found t budget => exact .inl ⟨t, budget, rfl, h⟩
  | failed budget => exact .inr (.inl ⟨budget, rfl, h⟩)
  | exhausted => exact .inr (.inr rfl)

/-- Whatever budget is left, `k` tells what follows. -/
def Meets (k : Rest) (goal : Goal) : Prop := ∀ t budget, (k t budget).Gives (goal t)

theorem meets_found : Meets .found some := fun _ _ => rfl

theorem gives_ofOption {k : Rest} {goal : Goal} (h : Meets k goal) (budget : Nat) (next : Option Thread) :
    (Verdict.ofOption budget k next).Gives (next.bind goal) := by
  cases next with
  | none => rfl
  | some t => exact h t budget

theorem Verdict.Gives.orElse {v : Verdict} {next : Nat → Verdict} {outcome outcome' : Option Thread}
    (h : v.Gives outcome) (hnext : ∀ budget, (next budget).Gives outcome') :
    (v.orElse next).Gives (outcome.or outcome') := by
  match v, h with
  | .found t budget, h => exact congrArg (·.or outcome') h
  | .failed 0, _ => trivial
  | .failed (budget + 1), h =>
    obtain rfl : outcome = none := h
    exact hnext budget
  | .exhausted, _ => trivial

theorem gives_choose {greedy : Bool} {budget : Nat} {more stop : Nat → Verdict}
    {outcome outcome' : Option Thread} (hmore : ∀ budget, (more budget).Gives outcome)
    (hstop : ∀ budget, (stop budget).Gives outcome') :
    (choose greedy budget more stop).Gives (pick greedy outcome outcome') := by
  unfold choose pick
  split
  · exact (hmore budget).orElse hstop
  · exact (hstop budget).orElse hmore

section repetitions
variable {body : Thread → Nat → Rest → Verdict} {body' : Thread → Goal → Option Thread} {k : Rest}
  {goal : Goal}
  (hbody : ∀ {k : Rest} {goal : Goal}, Meets k goal → ∀ t budget, (body t budget k).Gives (body' t goal))
include hbody

theorem gives_searchExactly (h : Meets k goal) (n : Nat) (t : Thread) (budget : Nat) :
    (searchExactly body n t budget k).Gives (answerExactly body' n t goal) := by
  induction n generalizing t budget with
  | zero => exact h t budget
  | succ n ih => exact hbody (fun u budget => ih u budget) t budget

theorem gives_searchAtMost (greedy : Bool) (h : Meets k goal) (n : Nat) (t : Thread) (budget : Nat) :
    (searchAtMost body greedy n t budget k).Gives (answerAtMost body' greedy n t goal) := by
  induction n generalizing t budget with
  | zero => exact h t budget
  | succ n ih => exact gives_choose (fun budget => hbody (fun u budget => ih u budget) t budget) (h t)

theorem gives_searchMany (greedy : Bool) (h : Meets k goal) (n : Nat) (t : Thread) (budget : Nat) :
    (searchMany body greedy n t budget k).Gives (answerMany body' greedy n t goal) := by
  induction n generalizing t budget with
  | zero => exact h t budget
  | succ n ih =>
    refine gives_choose (fun budget => hbody (fun u budget => ?_) t budget) (h t)
    split
    · rfl
    · exact ih u budget

theorem gives_searchRepeated (greedy : Bool) (h : Meets k goal) (size least : Nat) (most? : Option Nat)
    (t : Thread) (budget : Nat) : (searchRepeated body greedy size least most? t budget k).Gives
      (answerRepeated body' greedy size least most? t goal) := by
  refine gives_searchExactly hbody (fun u budget => ?_) least t budget
  cases most? with
  | some most => exact gives_searchAtMost hbody greedy h _ u budget
  | none => exact gives_searchMany hbody greedy h _ u budget

end repetitions

section nodes
variable (text : Subject)

mutual

theorem gives_search : (n : Node) → ∀ final {k goal}, Meets k goal → ∀ t budget,
    (n.search text final t budget k).Gives (n.answer text final t goal)
  | .chars set, final, k, goal, h, t, budget => by
    rw [Node.search, Node.answer]
    exact gives_ofOption h budget _
  | .assertion test, final, k, goal, h, t, budget => by
    rw [Node.search, Node.answer]
    split
    · exact h t budget
    · rfl
  | .capture group body, final, k, goal, h, t, budget => by
    rw [Node.search, Node.answer]
    exact gives_search body final (fun u budget => h (u.record group t.position) budget) t budget
  | .seq items, final, k, goal, h, t, budget => by
    rw [Node.search, Node.answer]
    exact gives_searchSeq items final h t budget
  | .alt branches, final, k, goal, h, t, budget => by
    rw [Node.search, Node.answer]
    exact gives_searchAlt branches final h t budget
  | .repetition body least most? greedy, final, k, goal, h, t, budget => by
    rw [Node.search, Node.answer]
    split
    · exact gives_ofOption h budget _
    · exact gives_searchRepeated (gives_search body false) greedy h _ _ _ t budget
  -- what is ahead is searched for by itself, and what follows begins at `t` again
  | .lookAhead negative body, final, k, goal, h, t, budget => by
    rw [Node.search, Node.answer]
    rcases (gives_search body true meets_found t budget).cases with
      ⟨u, left, hfound, hsome⟩ | ⟨left, hfailed, hnone⟩ | hspent
    · rw [hfound, hsome]
      dsimp only
      split
      · rfl
      · exact h { t with captures := u.captures } left
    · rw [hfailed, hnone]
      dsimp only
      split
      · exact h t left
      · rfl
    · rw [hspent]
      trivial
  | .lookBehind negative widths branches, final, k, goal, h, t, budget => by
    rw [Node.search, Node.answer]
    split
    · rcases (gives_searchBehind widths branches meets_found t budget).cases with
        ⟨u, left, hfound, hsome⟩ | ⟨left, hfailed, hnone⟩ | hspent
      · rw [hfound, hsome]
        rfl
      · rw [hfailed, hnone]
        exact h t left
      · rw [hspent]
        trivial
    · exact gives_searchBehind widths branches h t budget
  | .atomic body, final, k, goal, h, t, budget => by
    rw [Node.search, Node.answer]
    rcases (gives_search body true meets_found t budget).cases with
      ⟨u, left, hfound, hsome⟩ | ⟨left, hfailed, hnone⟩ | hspent
    · rw [hfound, hsome]
      exact h u left
    · rw [hfailed, hnone]
      rfl
    · rw [hspent]
      trivial
  | .backreference group, final, k, goal, h, t, budget => by
    rw [Node.search, Node.answer]
    exact gives_ofOption h budget _
  | .captured group, final, k, goal, h, t, budget => by
    rw [Node.search, Node.answer]
    split
    · exact h t budget
    · rfl

theorem gives_searchSeq : (items : List Node) → ∀ final {k goal}, Meets k goal → ∀ t budget,
    (searchSeq text final items t budget k).Gives (answerSeq text final items t goal)
  | [], final, k, goal, h, t, budget => by
    rw [searchSeq, answerSeq]
    exact h t budget
  | n :: others, final, k, goal, h, t, budget => by
    rw [searchSeq, answerSeq]
    split
    · exact gives_ofOption h budget _
    · exact gives_search n _ (fun u budget => gives_searchSeq others final h u budget) t budget

theorem gives_searchAlt : (branches : List Node) → ∀ final {k goal}, Meets k goal → ∀ t budget,
    (searchAlt text final branches t budget k).Gives (answerAlt text final branches t goal)
  | [], final, k, goal, h, t, budget => by
    rw [searchAlt, answerAlt]
    rfl
  | n :: others, final, k, goal, h, t, budget => by
    rw [searchAlt, answerAlt]
    split
    · rename_i hempty
      rw [List.isEmpty_iff.mp hempty, answerAlt, Option.or_none]
      exact gives_search n final h t budget
    · exact (gives_search n final h t budget).orElse fun budget =>
        gives_searchAlt others final h t budget

theorem gives_searchBehind : (widths : List Nat) → (branches : List Node) → ∀ {k goal}, Meets k goal →
    ∀ t budget,
      (searchBehind text widths branches t budget k).Gives (answerBehind text widths branches t goal)
  | _, [], k, goal, h, t, budget => by
    rw [searchBehind, answerBehind]
    · rfl
    · simp
    · simp
  | [], _ :: _, k, goal, h, t, budget => by
    rw [searchBehind, answerBehind]
    · rfl
    · simp
    · simp
  | width :: widths, n :: others, k, goal, h, t, budget => by
    have hnext : ∀ budget, (searchBehind text widths others t budget k).Gives
        (answerBehind text widths others t goal) :=
      fun budget => gives_searchBehind widths others h t budget
    rw [searchBehind, answerBehind]
    dsimp only
    split
    · rcases (gives_search n true meets_found { t with position := t.position - width } budget).cases with
        ⟨u, left, hfound, hsome⟩ | ⟨left, hfailed, hnone⟩ | hspent
      · rw [hfound, hsome]
        exact (h { t with captures := u.captures } left).orElse hnext
      · rw [hfailed, hnone]
        exact hnext left
      · rw [hspent]
        trivial
    · exact hnext budget

end

def answerFrom (root : Node) (text : Subject) (position : Nat) : (n : Nat) → Option Match
  | 0 => (root.answer text false (.start position) some).map (⟨position, ·⟩)
  | n + 1 =>
    match root.answer text false (.start position) some with
    | some t => some ⟨position, t⟩
    | none => answerFrom root text (position + 1) n

variable {text} in
theorem Scans.eq_answerFrom {root : Node} {position n : Nat} {found : Option Match}
    (h : Scans root text position n found) : found = answerFrom root text position n := by
  have hgives : ∀ {position budget v}, root.search text false (.start position) budget .found = v →
      v.Gives (root.answer text false (.start position) some) := by
    rintro position budget v rfl
    exact gives_search text root false meets_found (.start position) budget
  induction h with
  | @here position budget n left t hsearch =>
    have hanswer : root.answer text false (.start position) some = some t := hgives hsearch
    cases n <;> simp [answerFrom, hanswer]
  | @nowhere position budget left hsearch =>
    have hanswer : root.answer text false (.start position) some = none := hgives hsearch
    simp [answerFrom, hanswer]
  | @later position budget n left result hsearch rest ih =>
    have hanswer : root.answer text false (.start position) some = none := hgives hsearch
    simpa [answerFrom, hanswer] using ih

end nodes

/-- Whether the goal can be reached depends on the position only. -/
def Placed (goal : Goal) : Prop := ∀ t u, t.position = u.position → ((goal t).isSome = (goal u).isSome)

theorem Placed.eq_none {goal : Goal} (h : Placed goal) {t u : Thread} (heq : t.position = u.position)
    (hnone : goal t = none) : goal u = none := by
  have hsome := h t u heq
  rw [hnone] at hsome
  exact Option.isNone_iff_eq_none.mp (by simpa using hsome.symm)

theorem findSome?_distinctFrom {goal : Goal} (h : Placed goal) {seen : Marks}
    (hseen : ∀ t, seen.has t.position = true → goal t = none) (threads : List Thread) :
    (distinctFrom seen threads).findSome? goal = threads.findSome? goal := by
  induction threads generalizing seen with
  | nil => rfl
  | cons t others ih =>
    rw [distinctFrom, List.findSome?_cons]
    split
    · rename_i hmarked
      rw [hseen t hmarked, ih hseen]
    · rw [List.findSome?_cons]
      cases hgoal : goal t with
      | some u => rfl
      | none =>
        refine ih fun u hu => ?_
        rw [Marks.has_insert, Bool.or_eq_true, decide_eq_true_eq] at hu
        exact hu.elim (hseen u) fun heq => h.eq_none heq hgoal

theorem findSome?_distinct {goal : Goal} (h : Placed goal) (threads : List Thread) :
    (distinct threads).findSome? goal = threads.findSome? goal :=
  findSome?_distinctFrom h (fun t ht => absurd ht (by simp [Marks.not_has_zero])) threads

theorem findSome?_prefer (greedy : Bool) (more : List Thread) (t : Thread) (goal : Goal) :
    (prefer greedy more t).findSome? goal = pick greedy (more.findSome? goal) (goal t) := by
  cases greedy with
  | true => cases hmore : more.findSome? goal <;> simp [prefer, pick, hmore]
  | false => cases hgoal : goal t <;> simp [prefer, pick, hgoal]

/-- The ends of the node, in their order, are what a search tries. -/
def Node.IsDirect (n : Node) : Prop :=
  n.isPlain = true → ∀ text t goal, Placed goal →
    n.answer text false t goal = (n.ends text t).findSome? goal

theorem isDirect_of_not_isPlain {n : Node} (h : n.isPlain = false) : n.IsDirect := fun hplain => by
  rw [h] at hplain
  cases hplain

theorem isDirect_chars (set : CharSet) : (Node.chars set).IsDirect := by
  intro _ text t goal _
  rw [Node.answer, Node.ends]
  cases set.step? text t with
  | none => rfl
  | some u => simp

theorem isDirect_assertion (test : Assertion) : (Node.assertion test).IsDirect := by
  intro _ text t goal _
  rw [Node.answer, Node.ends]
  split <;> simp

@[simp]
theorem pick_none (greedy : Bool) (outcome : Option Thread) : pick greedy none outcome = outcome := by
  cases greedy <;> simp [pick]

section characters
variable {text : Subject} {set : CharSet}

def steps? (text : Subject) (set : CharSet) : Nat → Thread → Option Thread
  | 0, t => some t
  | n + 1, t => (set.step? text t).bind (steps? text set n)

theorem distinct_toList (found : Option Thread) : distinct found.toList = found.toList := by
  cases found <;> simp [distinct, distinctFrom, Marks.not_has_zero]

theorem exactly_eq_steps? (n : Nat) (t : Thread) :
    exactly (fun t => (set.step? text t).toList) n [t] = (steps? text set n t).toList := by
  have hnil : ∀ n, exactly (fun t => (set.step? text t).toList) n [] = [] := by
    intro n
    induction n with
    | zero => rfl
    | succ n ih => exact ih
  induction n generalizing t with
  | zero => rfl
  | succ n ih =>
    rw [exactly, List.flatMap_singleton, distinct_toList, steps?]
    cases set.step? text t with
    | none => exact hnil n
    | some u => exact ih u

theorem answerExactly_chars (n : Nat) (t : Thread) (goal : Goal) :
    answerExactly ((Node.chars set).answer text false) n t goal = (steps? text set n t).bind goal := by
  induction n generalizing t with
  | zero => rfl
  | succ n ih =>
    rw [answerExactly, Node.answer, steps?, Option.bind_assoc]
    exact congrArg ((set.step? text t).bind ·) (funext ih)

/-- The counts and positions that were seen come before that of `t`, so none is met again. -/
theorem answerAtMost_chars (greedy : Bool) (n : Nat) (seen : Marks) (t : Thread)
    (hseen : ∀ m, seen.has m = true → n * (text.size + 1) + t.position < m + (text.size + 1)) (goal : Goal) :
    answerAtMost ((Node.chars set).answer text false) greedy n t goal =
      (atMostFrom (fun t => (set.step? text t).toList) greedy text.size n seen t).2.findSome? goal := by
  induction n generalizing seen t with
  | zero => simp [answerAtMost, atMostFrom]
  | succ n ih =>
    have hnew : seen.has (n * (text.size + 1) + t.position) = false := by
      refine Bool.eq_false_iff.mpr fun hhas => ?_
      have hlt := hseen _ hhas
      rw [Nat.succ_mul] at hlt
      omega
    rw [answerAtMost, Node.answer, atMostFrom, hnew]
    simp only [Bool.false_eq_true, if_false, findSome?_prefer]
    cases hstep : set.step? text t with
    | none => rfl
    | some u =>
      obtain ⟨hat, rfl⟩ := step?_eq_some_iff.mp hstep
      have hlt := hat.lt_size
      refine congrArg (pick greedy · (goal t)) (ih _ _ fun m hm => ?_)
      rw [Marks.has_insert, Bool.or_eq_true, decide_eq_true_eq] at hm
      rw [Thread.position_moveTo]
      rcases hm with hm | rfl
      · have hlarge := hseen m hm
        rw [Nat.succ_mul] at hlarge
        omega
      · omega

theorem answerMany_chars (greedy : Bool) (origin fuel n : Nat) (seen : Marks) (t : Thread)
    (hseen : seen.UpTo t.position) (horigin : origin ≤ t.position)
    (hfuel : text.size < t.position + fuel) (hn : text.size < t.position + n) (goal : Goal) :
    answerMany ((Node.chars set).answer text false) greedy n t goal =
      pick greedy ((oneOrMoreFrom (fun t => (set.step? text t).toList) greedy origin fuel seen
        t).2.findSome? goal) (goal t) := by
  induction fuel generalizing n seen t with
  | zero =>
    have hstep : set.step? text t = none := by
      refine Option.eq_none_iff_forall_ne_some.mpr fun u hu => ?_
      have hlt := (step?_eq_some_iff.mp hu).1.lt_size
      omega
    cases n with
    | zero => simp [answerMany, oneOrMoreFrom]
    | succ n => simp [answerMany, oneOrMoreFrom, Node.answer, hstep]
  | succ fuel ih =>
    rw [oneOrMoreFrom]
    cases hstep : set.step? text t with
    | none =>
      cases n with
      | zero => simp [answerMany]
      | succ n => simp [answerMany, Node.answer, hstep]
    | some u =>
      -- the step leads behind all marks, so it is not refused for having been seen
      obtain ⟨hat, rfl⟩ := step?_eq_some_iff.mp hstep
      have hlt := hat.lt_size
      obtain ⟨n, rfl⟩ : ∃ m, n = m + 1 := ⟨n - 1, by omega⟩
      have hmoved : t.position + 1 ≠ t.position := by omega
      have horigin' : t.position + 1 ≠ origin := by omega
      simp only [Thread.position_moveTo, Option.toList_some, List.foldl_cons, List.foldl_nil,
        hseen.not_has_succ, Bool.false_eq_true, if_false, horigin', List.nil_append, findSome?_prefer,
        answerMany, Node.answer, hstep, Option.bind_some, hmoved]
      refine congrArg (pick greedy · (goal t))
        (ih _ _ _ hseen.insert_succ (Nat.le_succ_of_le horigin) ?_ ?_)
      · rw [Thread.position_moveTo]
        omega
      · rw [Thread.position_moveTo]
        omega

theorem findSome?_flatMap_toList (found : Option Thread) (next : Thread → List Thread) (goal : Goal) :
    (found.toList.flatMap next).findSome? goal = found.bind fun t => (next t).findSome? goal := by
  cases found <;> simp

theorem steps?_succ (n : Nat) (t : Thread) :
    steps? text set (n + 1) t = (steps? text set n t).bind (set.step? text) := by
  induction n generalizing t with
  | zero =>
    rw [steps?, steps?, Option.bind_some]
    cases set.step? text t <;> rfl
  | succ n ih =>
    rw [steps?, steps?, Option.bind_assoc]
    exact congrArg ((set.step? text t).bind ·) (funext ih)

theorem findSome?_oneOrMore (greedy : Bool) (t : Thread) (goal : Goal) :
    (oneOrMore (fun t => (set.step? text t).toList) greedy text.size t).findSome? goal =
      (set.step? text t).bind fun u =>
        answerMany ((Node.chars set).answer text false) greedy (text.size - u.position + 1) u goal := by
  rw [oneOrMore, oneOrMoreFrom]
  cases hstep : set.step? text t with
  | none => rfl
  | some u =>
    obtain ⟨hat, rfl⟩ := step?_eq_some_iff.mp hstep
    have hmoved : t.position + 1 ≠ t.position := by omega
    simp only [Thread.position_moveTo, Option.toList_some, List.foldl_cons, List.foldl_nil,
      Marks.not_has_zero, Bool.false_eq_true, if_false, hmoved, List.nil_append, findSome?_prefer,
      Option.bind_some]
    refine (answerMany_chars greedy _ _ _ _ _ (Marks.upTo_zero t.position).insert_succ
      (Nat.le_succ _) ?_ ?_ goal).symm
    · rw [Thread.position_moveTo]
      omega
    · rw [Thread.position_moveTo]
      omega

theorem isDirect_repetition (set : CharSet) (least : Nat) (most? : Option Nat) (greedy : Bool) :
    (Node.repetition (.chars set) least most? greedy).IsDirect := by
  intro _ text t goal hgoal
  rw [Node.answer, Bool.false_and, if_neg Bool.false_ne_true, Node.ends, ends_chars, answerRepeated,
    answerExactly_chars]
  match most?, least with
  | some most, least =>
    rw [repeated, findSome?_distinct hgoal, exactly_eq_steps?, findSome?_flatMap_toList]
    refine congrArg _ (funext fun u => answerAtMost_chars greedy _ 0 u (fun m hm => ?_) goal)
    rw [Marks.not_has_zero] at hm
    cases hm
  | none, 0 =>
    rw [repeated, findSome?_distinct hgoal, findSome?_prefer]
    exact answerMany_chars greedy _ _ _ 0 t (Marks.upTo_zero _) (Nat.le_refl _) (by omega) (by omega) goal
  | none, n + 1 =>
    rw [repeated, findSome?_distinct hgoal, exactly_eq_steps?, findSome?_flatMap_toList, steps?_succ,
      Option.bind_assoc]
    exact congrArg _ (funext fun u => (findSome?_oneOrMore greedy u goal).symm)

end characters
end PhrasePattern.Regex
