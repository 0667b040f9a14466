import PhrasePattern.Regex

/-! What a match leaves alone. Only the groups that occur in a node get a new span when it matches,
whichever of the ways to match is taken and however it is searched for. -/
namespace PhrasePattern.Regex

mutual

def Node.groups : Node → List Nat
  | .chars _ => []
  | .assertion _ => []
  | .capture group body => group :: body.groups
  | .seq items => groupsOf items
  | .alt branches => groupsOf branches
  | .repetition body _ _ _ => body.groups
  | .lookAhead _ body => body.groups
  | .lookBehind _ _ branches => groupsOf branches
  | .atomic body => body.groups
  | .backreference _ => []
  | .captured _ => []

def groupsOf : List Node → List Nat
  | [] => []
  | n :: others => n.groups ++ groupsOf others

end

def Thread.Keeps (group : Nat) (t u : Thread) : Prop := u.captured? group = t.captured? group

namespace Thread.Keeps
variable {group : Nat} {t u v : Thread}

theorem refl (t : Thread) : Keeps group t t := rfl

theorem trans (h : Keeps group t u) (h' : Keeps group u v) : Keeps group t v :=
  Eq.trans h' h

theorem record (h : Keeps group t u) {other : Nat} (hne : group ≠ other) (origin : Nat) :
    Keeps group t (u.record other origin) := by
  unfold Keeps captured? Thread.record
  rw [List.lookup_cons, beq_eq_false_iff_ne.mpr hne]
  exact h

theorem step? {text : Subject} {s : CharSet} (h : s.step? text t = some u) : Keeps group t u := by
  unfold CharSet.step? at h
  split at h
  · split at h
    · obtain rfl := Option.some.inj h
      rfl
    · cases h
  · cases h

theorem repeatGroup? {text : Subject} {other : Nat} (h : Regex.repeatGroup? text other t = some u) :
    Keeps group t u := by
  unfold Regex.repeatGroup? at h
  split at h
  · cases h
  · dsimp only at h
    split at h
    · obtain rfl := Option.some.inj h
      rfl
    · cases h

end Thread.Keeps

theorem mem_of_mem_distinctFrom {seen : Marks} {threads : List Thread} {u : Thread}
    (h : u ∈ distinctFrom seen threads) : u ∈ threads := by
  induction threads generalizing seen with
  | nil => exact h
  | cons t others ih =>
    rw [distinctFrom] at h
    split at h
    · exact List.mem_cons_of_mem t (ih h)
    · rcases List.mem_cons.mp h with rfl | h
      · exact List.mem_cons_self
      · exact List.mem_cons_of_mem t (ih h)

theorem mem_of_mem_distinct {threads : List Thread} {u : Thread} (h : u ∈ distinct threads) :
    u ∈ threads := mem_of_mem_distinctFrom h

def AllKeep (group : Nat) (t : Thread) (threads : List Thread) : Prop :=
  ∀ u ∈ threads, t.Keeps group u

section
variable {step : Thread → List Thread} {greedy : Bool} {group : Nat} {t u : Thread}
  {threads more : List Thread}

theorem allKeep_nil : AllKeep group t [] := fun _ hu => nomatch hu

theorem allKeep_singleton : AllKeep group t [t] := by
  intro u hu
  obtain rfl := List.mem_singleton.mp hu
  exact .refl u

theorem AllKeep.append (h : AllKeep group t threads) (h' : AllKeep group t more) :
    AllKeep group t (threads ++ more) :=
  fun u hu => (List.mem_append.mp hu).elim (h u) (h' u)

theorem AllKeep.prefer (h : AllKeep group t more) (hu : t.Keeps group u) :
    AllKeep group t (prefer greedy more u) := by
  intro v hv
  have hmem : v ∈ more ∨ v = u := by
    cases greedy <;> simpa [Regex.prefer, or_comm] using hv
  rcases hmem with hmem | rfl
  · exact h v hmem
  · exact hu

theorem AllKeep.trans (hu : t.Keeps group u) (h : AllKeep group u threads) :
    AllKeep group t threads := fun v hv => hu.trans (h v hv)

theorem AllKeep.flatMap (h : AllKeep group t threads) {next : Thread → List Thread}
    (hnext : ∀ u, AllKeep group u (next u)) : AllKeep group t (threads.flatMap next) := by
  intro v hv
  obtain ⟨u, hu, hv⟩ := List.mem_flatMap.mp hv
  exact (h u hu).trans (hnext u v hv)

theorem AllKeep.distinct (h : AllKeep group t threads) : AllKeep group t (distinct threads) :=
  fun u hu => h u (mem_of_mem_distinct hu)

theorem allKeep_exactly (hstep : ∀ t, AllKeep group t (step t)) (n : Nat)
    (h : AllKeep group t threads) : AllKeep group t (exactly step n threads) := by
  induction n generalizing threads with
  | zero => exact h
  | succ n ih => exact ih (h.flatMap hstep).distinct

theorem allKeep_atMostFrom (hstep : ∀ t, AllKeep group t (step t)) (size n : Nat) (seen : Marks)
    (t : Thread) : AllKeep group t (atMostFrom step greedy size n seen t).2 := by
  induction n generalizing seen t with
  | zero => exact allKeep_singleton
  | succ n ih =>
    rw [atMostFrom]
    dsimp only
    split
    · exact allKeep_nil
    · refine AllKeep.prefer ?_ (.refl t)
      refine List.foldlRecOn (motive := fun found : Marks × List Thread => AllKeep group t found.2)
        _ _ allKeep_nil fun found hfound u hu => ?_
      exact hfound.append (.trans (hstep t u hu) (ih found.1 u))

theorem allKeep_oneOrMoreFrom (hstep : ∀ t, AllKeep group t (step t)) (origin fuel : Nat)
    (seen : Marks) (t : Thread) :
    AllKeep group t (oneOrMoreFrom step greedy origin fuel seen t).2 := by
  induction fuel generalizing seen t with
  | zero => exact allKeep_nil
  | succ fuel ih =>
    rw [oneOrMoreFrom]
    refine List.foldlRecOn (motive := fun found : Marks × List Thread => AllKeep group t found.2)
      _ _ allKeep_nil fun found hfound u hu => ?_
    split
    · exact hfound
    · dsimp only
      refine hfound.append (AllKeep.prefer ?_ (hstep t u hu))
      split
      · exact allKeep_nil
      · exact .trans (hstep t u hu) (ih _ u)

theorem allKeep_repeated (hstep : ∀ t, AllKeep group t (step t)) (size least : Nat)
    (most? : Option Nat) (t : Thread) :
    AllKeep group t (repeated step greedy size least most? t) := by
  unfold repeated
  split
  · exact ((allKeep_exactly hstep _ allKeep_singleton).flatMap
      (allKeep_atMostFrom hstep size _ 0)).distinct
  · exact ((allKeep_oneOrMoreFrom hstep t.position _ 0 t).prefer (.refl t)).distinct
  · exact ((allKeep_exactly hstep _ allKeep_singleton).flatMap fun u =>
      allKeep_oneOrMoreFrom hstep u.position _ 0 u).distinct

end

section
variable (text : Subject) {group : Nat}

mutual

theorem allKeep_ends : (n : Node) → group ∉ n.groups → ∀ t, AllKeep group t (n.ends text t)
  | .chars set, _, t => by
    intro u hu
    rw [Node.ends, Option.mem_toList] at hu
    exact .step? hu
  | .assertion test, _, t => by
    rw [Node.ends]
    split
    · exact allKeep_singleton
    · exact allKeep_nil
  | .capture other body, h, t => by
    rw [Node.groups, List.mem_cons, not_or] at h
    intro u hu
    rw [Node.ends] at hu
    obtain ⟨v, hv, rfl⟩ := List.mem_map.mp hu
    exact (allKeep_ends body h.2 t v hv).record h.1 t.position
  | .seq items, h, t => by
    rw [Node.groups] at h
    rw [Node.ends]
    exact allKeep_endsSeq items h allKeep_singleton
  | .alt branches, h, t => by
    rw [Node.groups] at h
    rw [Node.ends]
    exact (allKeep_endsAlt branches h t).distinct
  | .repetition body least most? greedy, h, t => by
    rw [Node.groups] at h
    rw [Node.ends]
    exact allKeep_repeated (allKeep_ends body h) _ _ _ _
  | .lookAhead negative body, h, t => by
    rw [Node.groups] at h
    have hbody := allKeep_ends body h t
    rw [Node.ends]
    split
    · split
      · exact allKeep_singleton
      · exact allKeep_nil
    · rename_i v others hends
      split
      · exact allKeep_nil
      · intro u hu
        obtain rfl := List.mem_singleton.mp hu
        exact hbody v (hends ▸ List.mem_cons_self)
  | .lookBehind negative widths branches, h, t => by
    rw [Node.groups] at h
    have hbranches := allKeep_endsBehind widths branches h t
    rw [Node.ends]
    split
    · split
      · exact allKeep_singleton
      · exact allKeep_nil
    · rename_i v others hends
      split
      · exact allKeep_nil
      · intro u hu
        obtain rfl := List.mem_singleton.mp hu
        exact hbranches u (hends ▸ List.mem_cons_self)
  | .atomic body, h, t => by
    rw [Node.groups] at h
    intro u hu
    rw [Node.ends] at hu
    exact allKeep_ends body h t u (List.mem_of_mem_take hu)
  | .backreference other, _, t => by
    intro u hu
    rw [Node.ends, Option.mem_toList] at hu
    exact .repeatGroup? hu
  | .captured other, _, t => by
    rw [Node.ends]
    split
    · exact allKeep_singleton
    · exact allKeep_nil

theorem allKeep_endsSeq : (items : List Node) → group ∉ groupsOf items → {t : Thread} →
    {threads : List Thread} → AllKeep group t threads →
    AllKeep group t (endsSeq text items threads)
  | [], _, _, _, hthreads => by
    rw [endsSeq]
    exact hthreads
  | n :: others, h, t, threads, hthreads => by
    rw [groupsOf, List.mem_append, not_or] at h
    rw [endsSeq]
    exact allKeep_endsSeq others h.2 (hthreads.flatMap (allKeep_ends n h.1)).distinct

theorem allKeep_endsAlt : (branches : List Node) → group ∉ groupsOf branches → ∀ t,
    AllKeep group t (endsAlt text branches t)
  | [], _, t => by
    rw [endsAlt]
    exact allKeep_nil
  | n :: others, h, t => by
    rw [groupsOf, List.mem_append, not_or] at h
    rw [endsAlt]
    exact (allKeep_ends n h.1 t).append (allKeep_endsAlt others h.2 t)

theorem allKeep_endsBehind : (widths : List Nat) → (branches : List Node) →
    group ∉ groupsOf branches → ∀ t, AllKeep group t (endsBehind text widths branches t)
  | _, [], _, t => by
    rw [endsBehind]
    · exact allKeep_nil
    · simp
  | [], _ :: _, _, t => by
    rw [endsBehind]
    · exact allKeep_nil
    · simp
  | width :: widths, n :: others, h, t => by
    rw [groupsOf, List.mem_append, not_or] at h
    rw [endsBehind]
    refine AllKeep.append ?_ (allKeep_endsBehind widths others h.2 t)
    split
    · intro u hu
      exact allKeep_ends n h.1 { t with position := t.position - width } u (List.mem_filter.mp hu).1
    · exact allKeep_nil

end

end

/-- A search that finds something does so through what follows the node. -/
def Reaches (group : Nat) (t : Thread) (k : Rest) (v : Verdict) : Prop :=
  ∀ u budget, v = .found u budget → ∃ w before, t.Keeps group w ∧ k w before = .found u budget

section
variable {group : Nat} {t : Thread} {k : Rest}

theorem reaches_failed (budget : Nat) : Reaches group t k (.failed budget) :=
  fun _ _ h => nomatch h

theorem reaches_exhausted : Reaches group t k .exhausted := fun _ _ h => nomatch h

theorem reaches_rest {w : Thread} (h : t.Keeps group w) (budget : Nat) :
    Reaches group t k (k w budget) := fun _ _ heq => ⟨w, budget, h, heq⟩

theorem reaches_ofOption {next : Option Thread} (h : ∀ u, next = some u → t.Keeps group u)
    (budget : Nat) : Reaches group t k (.ofOption budget k next) := by
  cases next with
  | none => exact reaches_failed budget
  | some u => exact reaches_rest (h u rfl) budget

theorem Reaches.orElse {v : Verdict} {next : Nat → Verdict} (h : Reaches group t k v)
    (hnext : ∀ budget, Reaches group t k (next budget)) : Reaches group t k (v.orElse next) := by
  cases v with
  | found u budget => exact h
  | exhausted => exact h
  | failed budget =>
    cases budget with
    | zero => exact reaches_exhausted
    | succ budget => exact hnext budget

theorem Reaches.bind {k' : Rest} {v : Verdict} (h : Reaches group t k' v)
    (hk : ∀ w budget, t.Keeps group w → Reaches group w k (k' w budget)) : Reaches group t k v := by
  intro u budget heq
  obtain ⟨w, before, hw, hfound⟩ := h u budget heq
  obtain ⟨x, before', hx, hfound'⟩ := hk w before hw u budget hfound
  exact ⟨x, before', hw.trans hx, hfound'⟩

theorem Reaches.choose {greedy : Bool} {budget : Nat} {more stop : Nat → Verdict}
    (hmore : ∀ budget, Reaches group t k (more budget))
    (hstop : ∀ budget, Reaches group t k (stop budget)) :
    Reaches group t k (choose greedy budget more stop) := by
  unfold Regex.choose
  split
  · exact (hmore budget).orElse hstop
  · exact (hstop budget).orElse hmore

end

section
variable {group : Nat} {body : Thread → Nat → Rest → Verdict}
  (hbody : ∀ t budget k, Reaches group t k (body t budget k))
include hbody

theorem reaches_searchExactly (n : Nat) (t : Thread) (budget : Nat) (k : Rest) :
    Reaches group t k (searchExactly body n t budget k) := by
  induction n generalizing t budget with
  | zero => exact reaches_rest (.refl t) budget
  | succ n ih => exact (hbody t budget _).bind fun w budget _ => ih w budget

theorem reaches_searchAtMost (greedy : Bool) (n : Nat) (t : Thread) (budget : Nat) (k : Rest) :
    Reaches group t k (searchAtMost body greedy n t budget k) := by
  induction n generalizing t budget with
  | zero => exact reaches_rest (.refl t) budget
  | succ n ih =>
    exact Reaches.choose (fun budget => (hbody t budget _).bind fun w budget _ => ih w budget)
      (reaches_rest (.refl t))

theorem reaches_searchMany (greedy : Bool) (n : Nat) (t : Thread) (budget : Nat) (k : Rest) :
    Reaches group t k (searchMany body greedy n t budget k) := by
  induction n generalizing t budget with
  | zero => exact reaches_rest (.refl t) budget
  | succ n ih =>
    refine Reaches.choose (fun budget => (hbody t budget _).bind fun w budget _ => ?_)
      (reaches_rest (.refl t))
    split
    · exact reaches_failed budget
    · exact ih w budget

theorem reaches_searchRepeated (greedy : Bool) (size least : Nat) (most? : Option Nat) (t : Thread)
    (budget : Nat) (k : Rest) :
    Reaches group t k (searchRepeated body greedy size least most? t budget k) := by
  refine (reaches_searchExactly hbody least t budget _).bind fun w budget _ => ?_
  cases most? with
  | some most => exact reaches_searchAtMost hbody greedy _ w budget k
  | none => exact reaches_searchMany hbody greedy _ w budget k

end

section
variable (text : Subject) {group : Nat}

mutual

theorem reaches_search : (n : Node) → group ∉ n.groups → ∀ final t budget k,
    Reaches group t k (n.search text final t budget k)
  | .chars set, _, final, t, budget, k => by
    rw [Node.search]
    exact reaches_ofOption (fun u hu => .step? hu) budget
  | .assertion test, _, final, t, budget, k => by
    rw [Node.search]
    split
    · exact reaches_rest (.refl t) budget
    · exact reaches_failed budget
  | .capture other body, h, final, t, budget, k => by
    rw [Node.groups, List.mem_cons, not_or] at h
    rw [Node.search]
    refine (reaches_search body h.2 final t budget _).bind fun w budget hw => ?_
    exact reaches_rest ((Thread.Keeps.refl w).record h.1 t.position) budget
  | .seq items, h, final, t, budget, k => by
    rw [Node.groups] at h
    rw [Node.search]
    exact reaches_searchSeq items h final t budget k
  | .alt branches, h, final, t, budget, k => by
    rw [Node.groups] at h
    rw [Node.search]
    exact reaches_searchAlt branches h final t budget k
  | .repetition body least most? greedy, h, final, t, budget, k => by
    rw [Node.groups] at h
    rw [Node.search]
    split
    · refine reaches_ofOption (fun u hu => ?_) budget
      exact allKeep_repeated (allKeep_ends text body h) _ _ _ t u (List.mem_of_head? hu)
    · exact reaches_searchRepeated (reaches_search body h false) greedy _ _ _ t budget k
  | .lookAhead negative body, h, final, t, budget, k => by
    rw [Node.groups] at h
    have hbody := reaches_search body h true t budget .found
    rw [Node.search]
    split
    · rename_i u budget' hfound
      split
      · exact reaches_failed budget'
      · obtain ⟨w, before, hw, heq⟩ := hbody u budget' hfound
        obtain ⟨rfl, -⟩ := Verdict.found.inj heq
        exact reaches_rest (w := { t with captures := w.captures }) hw budget'
    · split
      · exact reaches_rest (.refl t) _
      · exact reaches_failed _
    · exact reaches_exhausted
  | .lookBehind negative widths branches, h, final, t, budget, k => by
    rw [Node.groups] at h
    rw [Node.search]
    split
    · split
      · exact reaches_failed _
      · exact reaches_rest (.refl t) _
      · exact reaches_exhausted
    · exact reaches_searchBehind widths branches h t budget k
  | .atomic body, h, final, t, budget, k => by
    rw [Node.groups] at h
    have hbody := reaches_search body h true t budget .found
    rw [Node.search]
    split
    · rename_i u budget' hfound
      obtain ⟨w, before, hw, heq⟩ := hbody u budget' hfound
      obtain ⟨rfl, -⟩ := Verdict.found.inj heq
      exact reaches_rest hw budget'
    · exact reaches_failed _
    · exact reaches_exhausted
  | .backreference other, _, final, t, budget, k => by
    rw [Node.search]
    exact reaches_ofOption (fun u hu => .repeatGroup? hu) budget
  | .captured other, _, final, t, budget, k => by
    rw [Node.search]
    split
    · exact reaches_rest (.refl t) budget
    · exact reaches_failed budget

theorem reaches_searchSeq : (items : List Node) → group ∉ groupsOf items → ∀ final t budget k,
    Reaches group t k (searchSeq text final items t budget k)
  | [], _, final, t, budget, k => by
    rw [searchSeq]
    exact reaches_rest (.refl t) budget
  | n :: others, h, final, t, budget, k => by
    rw [groupsOf, List.mem_append, not_or] at h
    rw [searchSeq]
    split
    · refine reaches_ofOption (fun u hu => ?_) budget
      exact allKeep_endsSeq text others h.2 (allKeep_ends text n h.1 t).distinct u
        (List.mem_of_head? hu)
    · refine (reaches_search n h.1 _ t budget _).bind fun w budget _ => ?_
      exact reaches_searchSeq others h.2 final w budget k

theorem reaches_searchAlt : (branches : List Node) → group ∉ groupsOf branches →
    ∀ final t budget k, Reaches group t k (searchAlt text final branches t budget k)
  | [], _, final, t, budget, k => by
    rw [searchAlt]
    exact reaches_failed budget
  | n :: others, h, final, t, budget, k => by
    rw [groupsOf, List.mem_append, not_or] at h
    rw [searchAlt]
    split
    · exact reaches_search n h.1 final t budget k
    · exact (reaches_search n h.1 final t budget k).orElse fun budget =>
        reaches_searchAlt others h.2 final t budget k

theorem reaches_searchBehind : (widths : List Nat) → (branches : List Node) →
    group ∉ groupsOf branches → ∀ t budget k,
    Reaches group t k (searchBehind text widths branches t budget k)
  | _, [], _, t, budget, k => by
    rw [searchBehind]
    · exact reaches_failed budget
    · simp
  | [], _ :: _, _, t, budget, k => by
    rw [searchBehind]
    · exact reaches_failed budget
    · simp
  | width :: widths, n :: others, h, t, budget, k => by
    rw [groupsOf, List.mem_append, not_or] at h
    have hnext : ∀ budget, Reaches group t k (searchBehind text widths others t budget k) :=
      fun budget => reaches_searchBehind widths others h.2 t budget k
    rw [searchBehind]
    dsimp only
    split
    · have hbody := reaches_search n h.1 true { t with position := t.position - width } budget .found
      split
      · rename_i u budget' hfound
        obtain ⟨w, before, hw, heq⟩ := hbody u budget' hfound
        obtain ⟨rfl, -⟩ := Verdict.found.inj heq
        exact (reaches_rest (w := { t with captures := w.captures }) hw budget').orElse hnext
      · exact hnext _
      · exact reaches_exhausted
    · exact hnext budget

end

end

end PhrasePattern.Regex
