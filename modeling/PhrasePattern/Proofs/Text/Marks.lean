import Mathlib.Data.List.Infix
import Mathlib.Data.List.TakeWhile

/-! Marks in a text: an opening, a name and a closing angle bracket. Where texts are put together, a
mark may come about at the seam. It does not if the first text is sealed, which means that it does not
end in the middle of a mark; then every mark lies in one of the texts, and the number of marks is the
sum of their numbers. Parentheses are counted to tell what a mark that opens a group encloses. -/
namespace PhrasePattern.Text

def namedMark (opening name : List Char) : List Char := opening ++ name ++ ['>']

theorem namedMark_eq (opening name : List Char) : namedMark opening name = opening ++ (name ++ ['>']) :=
  List.append_assoc ..

/-- What the text ends in is not the beginning of a mark, unless it is the whole of it. -/
def Sealed (opening text : List Char) : Prop :=
  ∀ tail name, tail <:+ text → tail ≠ [] → '>' ∉ name → tail <+: namedMark opening name →
    tail = namedMark opening name

section
variable {opening : List Char}

theorem sealed_nil : Sealed opening [] := by
  intro tail name hsuffix hne
  exact absurd (List.suffix_nil.mp hsuffix) hne

theorem Sealed.append {first second : List Char} (h : Sealed opening first)
    (h' : Sealed opening second) : Sealed opening (first ++ second) := by
  intro tail name hsuffix hne hname hfront
  obtain ⟨before, heq⟩ := hsuffix
  rcases List.append_eq_append_iff.mp heq with ⟨front, hfirst, htail⟩ | ⟨more, hbefore, hsecond⟩
  · by_cases hempty : front = []
    · rw [hempty, List.nil_append] at htail
      exact h' tail name (htail ▸ List.suffix_refl _) hne hname hfront
    · -- the seam lies in the tail, whose front is then a whole mark and leaves nothing for the rest
      rw [htail] at hfront ⊢
      have hwhole := h front name ⟨before, hfirst.symm⟩ hempty hname
        ((List.prefix_append front second).trans hfront)
      have hlength := hfront.length_le
      rw [hwhole, List.length_append] at hlength
      have hnil : second = [] := List.eq_nil_of_length_eq_zero (by omega)
      rw [hnil, List.append_nil, hwhole]
  · exact h' tail name ⟨more, hsecond.symm⟩ hne hname hfront

theorem sealed_of_not_mem {lead : Char} {rest text : List Char} (h : lead ∉ text) :
    Sealed (lead :: rest) text := by
  intro tail name hsuffix hne hname hfront
  cases tail with
  | nil => exact absurd rfl hne
  | cons c tail =>
    have hc : c = lead := (List.cons_prefix_cons.mp hfront).1
    exact absurd (hsuffix.subset (hc ▸ List.mem_cons_self)) h

theorem sealed_cons {lead : Char} {rest text : List Char} (hrest : lead ∉ text)
    (h : ∀ name, '>' ∉ name → text <+: rest ++ name ++ ['>'] → text = rest ++ name ++ ['>']) :
    Sealed (lead :: rest) (lead :: text) := by
  intro tail name hsuffix hne hname hfront
  rcases List.suffix_cons_iff.mp hsuffix with rfl | hsuffix
  · have htext := h name hname (List.cons_prefix_cons.mp hfront).2
    rw [htext]
    rfl
  · exact sealed_of_not_mem hrest tail name hsuffix hne hname hfront

theorem name_eq_of_begins {name other : List Char} (hother : '>' ∉ other)
    (h : name ++ ['>'] <+: other ++ ['>']) : name = other := by
  obtain ⟨rest, heq⟩ := h
  rcases List.eq_nil_or_concat rest with rfl | ⟨front, last, rfl⟩
  · rw [List.append_nil] at heq
    exact List.append_cancel_right heq
  · rw [List.concat_eq_append, ← List.append_assoc] at heq
    have hfront := (List.append_inj' heq rfl).1
    exact absurd (hfront ▸ by simp) hother

theorem mark_eq_of_begins {name other : List Char} (hother : '>' ∉ other)
    (h : namedMark opening name <+: namedMark opening other) : name = other := by
  unfold namedMark at h
  rw [List.append_assoc, List.append_assoc] at h
  exact name_eq_of_begins hother ((List.prefix_append_right_inj opening).mp h)

theorem sealed_mark {lead : Char} {rest name : List Char} (hrest : lead ∉ rest)
    (hname : lead ∉ name) (hlead : lead ≠ '>') : Sealed (lead :: rest) (namedMark (lead :: rest) name) := by
  refine @sealed_cons lead rest (rest ++ name ++ ['>']) ?_ fun other hother hfront => ?_
  · simp only [List.mem_append, List.mem_singleton, not_or]
    exact ⟨⟨hrest, hname⟩, hlead⟩
  · rw [List.append_assoc, List.append_assoc] at hfront ⊢
    rw [name_eq_of_begins hother ((List.prefix_append_right_inj rest).mp hfront)]

theorem name_eq_of_occurs {lead : Char} {rest name other : List Char} (hrest : lead ∉ rest)
    (hname : lead ∉ name) (hlead : lead ≠ '>') (hclose : '>' ∉ name)
    (h : namedMark (lead :: rest) other <:+: namedMark (lead :: rest) name) : other = name := by
  have hcons : namedMark (lead :: rest) other <:+: lead :: (rest ++ name ++ ['>']) := h
  rcases List.infix_cons_iff.mp hcons with hfront | hin
  · exact mark_eq_of_begins hclose hfront
  · have hmem : lead ∈ rest ++ name ++ ['>'] := hin.subset List.mem_cons_self
    simp only [List.mem_append, List.mem_singleton] at hmem
    exact absurd hmem (by simp [hrest, hname, hlead])

theorem Sealed.mark_cases {first second before after name : List Char} (h : Sealed opening first)
    (hname : '>' ∉ name) (heq : first ++ second = before ++ namedMark opening name ++ after) :
    (∃ rest, first = before ++ namedMark opening name ++ rest) ∨
      ∃ front, before = first ++ front ∧ second = front ++ namedMark opening name ++ after := by
  rw [List.append_assoc] at heq
  rcases List.append_eq_append_iff.mp heq with ⟨front, hbefore, hsecond⟩ | ⟨tail, hfirst, hmark⟩
  · exact .inr ⟨front, hbefore, by rw [hsecond, List.append_assoc]⟩
  · by_cases htail : tail = []
    · subst htail
      refine .inr ⟨[], ?_, ?_⟩
      · simpa using hfirst.symm
      · simpa using hmark.symm
    · rcases List.append_eq_append_iff.mp hmark with ⟨rest, hrest, -⟩ | ⟨cut, hcut, -⟩
      · exact .inl ⟨rest, by rw [hfirst, hrest, List.append_assoc]⟩
      · have hwhole := h tail name ⟨before, hfirst.symm⟩ htail hname ⟨cut, hcut.symm⟩
        exact .inl ⟨[], by rw [hfirst, hwhole, List.append_nil]⟩

theorem Sealed.infix_cases {first second name : List Char} (h : Sealed opening first)
    (hname : '>' ∉ name) (hin : namedMark opening name <:+: first ++ second) :
    namedMark opening name <:+: first ∨ namedMark opening name <:+: second := by
  obtain ⟨before, after, heq⟩ := hin
  rcases h.mark_cases hname heq.symm with ⟨rest, hrest⟩ | ⟨front, -, hfront⟩
  · exact .inl ⟨before, rest, hrest.symm⟩
  · exact .inr ⟨front, after, hfront.symm⟩

structure Unmarked (opening text : List Char) : Prop where
  isSealed : Sealed opening text
  absent : ∀ name, '>' ∉ name → ¬ namedMark opening name <:+: text

theorem Unmarked.append {first second : List Char} (h : Unmarked opening first)
    (h' : Unmarked opening second) : Unmarked opening (first ++ second) := by
  refine ⟨h.isSealed.append h'.isSealed, fun name hname hin => ?_⟩
  rcases h.isSealed.infix_cases hname hin with hfirst | hsecond
  · exact h.absent name hname hfirst
  · exact h'.absent name hname hsecond

theorem unmarked_of_not_mem {lead : Char} {rest text : List Char} (h : lead ∉ text) :
    Unmarked (lead :: rest) text := by
  refine ⟨sealed_of_not_mem h, fun name _ hin => h (hin.subset ?_)⟩
  exact List.mem_cons_self

theorem unmarked_cons {lead : Char} {rest text : List Char} (hrest : lead ∉ text)
    (h : ∀ name, ¬ text <+: rest ++ name ++ ['>'])
    (h' : ∀ name, ¬ rest ++ name ++ ['>'] <+: text) : Unmarked (lead :: rest) (lead :: text) := by
  refine ⟨sealed_cons hrest fun name _ hfront => absurd hfront (h name), fun name _ hin => ?_⟩
  rcases List.infix_cons_iff.mp hin with hfront | hin
  · exact h' name (List.cons_prefix_cons.mp hfront).2
  · exact hrest (hin.subset List.mem_cons_self)

end

def occurrences (part : List Char) : List Char → Nat
  | [] => 0
  | c :: rest => (if part <+: c :: rest then 1 else 0) + occurrences part rest

@[simp]
theorem occurrences_nil (part : List Char) : occurrences part [] = 0 := rfl

theorem occurrences_cons (part : List Char) (c : Char) (rest : List Char) :
    occurrences part (c :: rest) = (if part <+: c :: rest then 1 else 0) + occurrences part rest :=
  rfl

theorem occurrences_pos_iff {part text : List Char} (hpart : part ≠ []) :
    0 < occurrences part text ↔ part <:+: text := by
  induction text with
  | nil => simp [hpart]
  | cons c rest ih =>
    rw [occurrences_cons, List.infix_cons_iff, ← ih]
    by_cases h : part <+: c :: rest
    · simp only [h, if_true, true_or, iff_true]
      omega
    · simp [h]

theorem occurrences_le_of_prefix {part longer : List Char} (h : part <+: longer)
    (text : List Char) : occurrences longer text ≤ occurrences part text := by
  induction text with
  | nil => exact Nat.le_refl _
  | cons c rest ih =>
    rw [occurrences_cons, occurrences_cons]
    by_cases hlonger : longer <+: c :: rest
    · rw [if_pos hlonger, if_pos (h.trans hlonger)]
      omega
    · rw [if_neg hlonger]
      omega

theorem occurrences_le_count (lead : Char) (part text : List Char) :
    occurrences (lead :: part) text ≤ text.count lead := by
  induction text with
  | nil => exact Nat.le_refl _
  | cons c rest ih =>
    rw [occurrences_cons, List.count_cons]
    by_cases h : lead :: part <+: c :: rest
    · have hc : c = lead := (List.cons_prefix_cons.mp h).1.symm
      rw [if_pos h, hc, beq_self_eq_true, if_pos rfl]
      omega
    · rw [if_neg h]
      omega

section
variable {opening : List Char}

theorem Sealed.of_suffix {text tail : List Char} (h : Sealed opening text) (htail : tail <:+ text) :
    Sealed opening tail :=
  fun part name hsuffix => h part name (hsuffix.trans htail)

/-- No mark comes about at the seam. -/
theorem Sealed.occurrences_append {first second name : List Char} (h : Sealed opening first)
    (hname : '>' ∉ name) :
    occurrences (namedMark opening name) (first ++ second) =
      occurrences (namedMark opening name) first + occurrences (namedMark opening name) second := by
  induction first with
  | nil => simp
  | cons c rest ih =>
    have hhead : namedMark opening name <+: c :: (rest ++ second) ↔
        namedMark opening name <+: c :: rest := by
      refine ⟨fun hmark => ?_, fun hmark => hmark.trans (List.prefix_append _ second)⟩
      rcases List.prefix_or_prefix_of_prefix hmark (List.prefix_append (c :: rest) second) with
        hwhole | hpart
      · exact hwhole
      · exact (h _ name (List.suffix_refl _) (List.cons_ne_nil c rest) hname hpart) ▸
          List.prefix_refl _
    rw [List.cons_append, occurrences_cons, occurrences_cons,
      ih (h.of_suffix (List.suffix_cons c rest)), Nat.add_assoc]
    simp only [hhead]

theorem Unmarked.occurrences_eq {text name : List Char} (h : Unmarked opening text)
    (hname : '>' ∉ name) : occurrences (namedMark opening name) text = 0 := by
  by_contra hne
  refine h.absent name hname ((occurrences_pos_iff ?_).mp (Nat.pos_of_ne_zero hne))
  simp [namedMark]

theorem exists_prefix_mark (opening name : List Char) :
    ∃ short, '>' ∉ short ∧ namedMark opening short <+: namedMark opening name := by
  have hshort : '>' ∉ name.takeWhile (· != '>') := fun hmem => by
    simpa using List.mem_takeWhile_imp hmem
  refine ⟨_, hshort, ?_⟩
  have hsplit := List.takeWhile_append_dropWhile (p := (· != '>')) (l := name)
  cases hdrop : name.dropWhile (· != '>') with
  | nil =>
    rw [hdrop, List.append_nil] at hsplit
    rw [hsplit]
  | cons c rest =>
    have hc : c = '>' := by simpa [hdrop] using List.head?_dropWhile_not (· != '>') name
    refine ⟨rest ++ ['>'], ?_⟩
    conv_rhs => rw [← hsplit, hdrop, hc]
    simp [namedMark]

/-- A mark has no mark in it but itself, and this once. -/
theorem occurrences_mark_le {lead : Char} {rest name other : List Char} (hrest : lead ∉ rest)
    (hname : lead ∉ name) (hlead : lead ≠ '>') (hclose : '>' ∉ name) :
    occurrences (namedMark (lead :: rest) other) (namedMark (lead :: rest) name) ≤
      if other = name then 1 else 0 := by
  by_cases heq : other = name
  · have hcount : (namedMark (lead :: rest) name).count lead = 1 := by
      simp [namedMark, List.count_eq_zero.mpr hrest, List.count_eq_zero.mpr hname, Ne.symm hlead]
    rw [if_pos heq, ← hcount]
    exact occurrences_le_count _ _ _
  · rw [if_neg heq]
    by_contra hpos
    refine heq (name_eq_of_occurs hrest hname hlead hclose ((occurrences_pos_iff ?_).mp ?_))
    · simp [namedMark]
    · omega

end

/-- The number of parentheses open after the text, if `n` are open before it. There is none if one
is closed that was not opened. -/
def level (n : Nat) : List Char → Option Nat
  | [] => some n
  | c :: rest =>
    if c = '(' then level (n + 1) rest
    else if c = ')' then if n = 0 then none else level (n - 1) rest
    else level n rest

def Balanced (text : List Char) : Prop := ∀ n, level n text = some n

theorem level_append (n : Nat) (first second : List Char) :
    level n (first ++ second) = (level n first).bind fun m => level m second := by
  induction first generalizing n with
  | nil => rfl
  | cons c rest ih =>
    simp only [List.cons_append, level, ih]
    split
    · rfl
    · split
      · split <;> rfl
      · rfl

theorem balanced_nil : Balanced [] := fun _ => rfl

theorem Balanced.append {first second : List Char} (h : Balanced first) (h' : Balanced second) :
    Balanced (first ++ second) := by
  intro n
  rw [level_append, h n, Option.bind_some, h' n]

theorem balanced_of_not_mem {text : List Char} (hopen : '(' ∉ text) (hclose : ')' ∉ text) :
    Balanced text := by
  intro n
  induction text with
  | nil => rfl
  | cons c rest ih =>
    have hc : c ≠ '(' := fun h => hopen (h ▸ List.mem_cons_self)
    have hc' : c ≠ ')' := fun h => hclose (h ▸ List.mem_cons_self)
    rw [level, if_neg hc, if_neg hc']
    exact ih (fun h => hopen (List.mem_cons_of_mem _ h)) fun h => hclose (List.mem_cons_of_mem _ h)

end PhrasePattern.Text
