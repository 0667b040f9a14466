import PhrasePattern.Proofs.Regex.Skipping

/-! A sign does not change if more text is put behind the text in which it was read, provided the
text behind begins with a character that no sign can take in. -/
namespace PhrasePattern.Regex

section
variable {extended : Bool} {rest : List Char}

theorem head?_drop_append {cs : List Char} {n : Nat} (h : n < cs.length) :
    ((cs ++ rest).drop n).head? = (cs.drop n).head? := by
  rw [List.head?_drop, List.head?_drop, List.getElem?_append_left h]

theorem lt_length_of_head?_drop {cs : List Char} {n : Nat} {c : Char}
    (h : (cs.drop n).head? = some c) : n < cs.length := by
  rw [List.head?_drop, List.getElem?_eq_some_iff] at h
  exact h.1

theorem takeWhile_append_of_lt {p : Char → Bool} {cs : List Char}
    (h : (cs.takeWhile p).length < cs.length) : (cs ++ rest).takeWhile p = cs.takeWhile p := by
  rw [List.takeWhile_append, if_neg (by omega)]

theorem groupName?_append {close : Char} {cs : List Char} {found : String × Nat}
    (h : Escape.groupName? close cs = some found) :
    Escape.groupName? close (cs ++ rest) = some found ∧ found.2 ≤ cs.length := by
  unfold Escape.groupName? at h ⊢
  dsimp only at h ⊢
  split at h
  · rename_i hname
    have hclose : (cs.drop (cs.takeWhile Escape.isNameChar).length).head? = some close := by
      simpa using (Bool.and_eq_true_iff.mp hname).2
    have hlt := lt_length_of_head?_drop hclose
    rw [takeWhile_append_of_lt hlt, head?_drop_append hlt, if_pos hname]
    obtain rfl := Option.some.inj h
    exact ⟨rfl, hlt⟩
  · cases h

theorem take_append_of_length {cs : List Char} {n : Nat} (h : (cs.take n).length = n) :
    (cs ++ rest).take n = cs.take n := by
  rw [List.length_take] at h
  exact List.take_append_of_le_length (by omega)

theorem hexChar?_append {count : Nat} {cs : List Char} {found : Char × Nat} (hcount : 0 < count)
    (h : Escape.hexChar? count cs = some found) :
    Escape.hexChar? count (cs ++ rest) = some found ∧ found.2 ≤ cs.length := by
  unfold Escape.hexChar? at h ⊢
  dsimp only at h ⊢
  split at h
  · rename_i hdigits
    have hlength : (cs.take count).length = count := by
      simpa using (Bool.and_eq_true_iff.mp hdigits).1
    rw [take_append_of_length hlength, if_pos hdigits, h]
    obtain ⟨c, -, rfl⟩ := Option.map_eq_some_iff.mp h
    rw [List.length_take] at hlength
    exact ⟨rfl, by dsimp only; omega⟩
  · split at h
    · rename_i cs _
      have hbrace : ¬ ((('{' :: cs ++ rest).take count).length = count &&
          (('{' :: cs ++ rest).take count).all CharSet.hexDigit.contains) = true := by
        obtain ⟨n, rfl⟩ := Nat.exists_eq_add_of_lt hcount
        rw [Nat.zero_add, List.cons_append, List.take_succ_cons, List.all_cons]
        have hnot : CharSet.hexDigit.contains '{' = false := by decide
        simp [hnot]
      rw [if_neg hbrace, List.cons_append]
      split at h
      · rename_i hclose
        have hhead : (cs.drop (cs.takeWhile CharSet.hexDigit.contains).length).head? = some '}' := by
          simpa using (Bool.and_eq_true_iff.mp hclose).2
        have hlt := lt_length_of_head?_drop hhead
        refine ⟨?_, ?_⟩
        · simp only [takeWhile_append_of_lt hlt, head?_drop_append hlt, hclose, if_true, h]
        · obtain ⟨c, -, rfl⟩ := Option.map_eq_some_iff.mp h
          simp only [List.length_cons]
          omega
      · cases h
    · cases h

theorem groupRef?_append (hrest : Firm extended rest) {close : Char} {cs : List Char}
    {found : GroupRef × Nat} (h : Escape.groupRef? close cs = some found) :
    Escape.groupRef? close (cs ++ rest) = some found ∧ found.2 ≤ cs.length := by
  unfold Escape.groupRef? at h
  split at h
  · rename_i cs
    rw [List.cons_append, Escape.groupRef?, decimal?_append hrest]
    cases hdecimal : Text.decimal? cs with
    | none =>
      rw [hdecimal] at h
      cases h
    | some number =>
      obtain ⟨n, after⟩ := number
      simp only [hdecimal] at h
      split at h
      · rename_i hclose
        obtain ⟨more, rfl⟩ := List.head?_eq_some_iff.mp hclose
        obtain rfl := Option.some.inj h
        have hsuffix := (Bounds.decimal?_suffix hdecimal).length_le
        rw [List.length_cons] at hsuffix
        refine ⟨?_, by simp only [List.length_cons]; omega⟩
        simp only [Option.map_some, List.cons_append, List.head?_cons, if_true, List.length_append,
          List.length_cons]
        congr 2
        omega
      · cases h
  · rename_i hhyphen
    obtain ⟨name, hname, rfl⟩ := Option.map_eq_some_iff.mp h
    obtain ⟨happend, hle⟩ := @groupName?_append rest _ _ _ hname
    refine ⟨?_, hle⟩
    cases cs with
    | nil => cases hname
    | cons c cs =>
      have hc : c ≠ '-' := fun heq => hhyphen cs (heq ▸ rfl)
      rw [List.cons_append] at happend ⊢
      simp [Escape.groupRef?, hc, happend]

theorem refEscape_append (hrest : Firm extended rest) {close : Char} {cs : List Char}
    {found : Escape × Nat}
    (h : (Escape.groupRef? close cs).map (fun found => (Escape.group found.1, found.2 + 2)) =
      some found) :
    (Escape.groupRef? close (cs ++ rest)).map
        (fun found => (Escape.group found.1, found.2 + 2)) = some found ∧
      found.2 ≤ cs.length + 2 := by
  obtain ⟨ref, href, rfl⟩ := Option.map_eq_some_iff.mp h
  obtain ⟨happend, hle⟩ := groupRef?_append hrest href
  rw [happend]
  exact ⟨rfl, Nat.add_le_add_right hle 2⟩

theorem propertyLength?_append {cs : List Char} {n : Nat} (h : Escape.propertyLength? cs = some n) :
    Escape.propertyLength? (cs ++ rest) = some n ∧ n ≤ cs.length := by
  unfold Escape.propertyLength? at h
  split at h
  · cases h
  · rename_i cs
    dsimp only at h
    split at h
    · rename_i hclose
      have hlt := lt_length_of_head?_drop hclose
      obtain rfl := Option.some.inj h
      refine ⟨?_, by rw [List.length_cons]; omega⟩
      rw [List.cons_append, Escape.propertyLength?, takeWhile_append_of_lt hlt, head?_drop_append hlt]
      exact if_pos hclose
    · cases h
  · rename_i hnil hbrace
    obtain rfl := Option.some.inj h
    obtain ⟨c, cs, rfl⟩ := List.exists_cons_of_ne_nil hnil
    have hc : c ≠ '{' := fun heq => hbrace cs (heq ▸ rfl)
    refine ⟨?_, by simp⟩
    simp [Escape.propertyLength?, hc]

theorem propertyEscape_append {c : Char} {cs : List Char} {found : Escape × Nat}
    (h : (Escape.propertyLength? cs).map (fun n =>
      (Escape.property (String.ofList (c :: cs.take n)), n + 1)) = some found) :
    (Escape.propertyLength? (cs ++ rest)).map (fun n =>
      (Escape.property (String.ofList (c :: (cs ++ rest).take n)), n + 1)) = some found ∧
      found.2 ≤ cs.length + 1 := by
  obtain ⟨n, hn, rfl⟩ := Option.map_eq_some_iff.mp h
  obtain ⟨happend, hle⟩ := @propertyLength?_append rest _ _ hn
  rw [happend, Option.map_some, List.take_append_of_le_length hle]
  exact ⟨rfl, Nat.succ_le_succ hle⟩

theorem hexEscape_append {count : Nat} {cs : List Char} {found : Escape × Nat} (hcount : 0 < count)
    (h : (Escape.hexChar? count cs).map (fun found => (Escape.char found.1, found.2 + 1)) =
      some found) :
    (Escape.hexChar? count (cs ++ rest)).map (fun found => (Escape.char found.1, found.2 + 1)) =
        some found ∧ found.2 ≤ cs.length + 1 := by
  obtain ⟨c, hc, rfl⟩ := Option.map_eq_some_iff.mp h
  obtain ⟨happend, hle⟩ := @hexChar?_append rest _ _ _ hcount hc
  rw [happend]
  exact ⟨rfl, Nat.add_le_add_right hle 1⟩

theorem numberEscape_append (hrest : Firm extended rest) {cs : List Char} {found : Escape × Nat}
    (h : (Text.decimal? cs).map (fun found =>
      (Escape.group (.number found.1), cs.length - found.2.length)) = some found) :
    (Text.decimal? (cs ++ rest)).map (fun found =>
      (Escape.group (.number found.1), (cs ++ rest).length - found.2.length)) = some found ∧
      found.2 ≤ cs.length := by
  obtain ⟨number, hnumber, rfl⟩ := Option.map_eq_some_iff.mp h
  rw [decimal?_append hrest, hnumber]
  refine ⟨?_, Nat.sub_le _ _⟩
  simp only [Option.map_some, List.length_append, Nat.add_sub_add_right]

theorem boundaryEscape_append (hrest : Firm extended rest) {cs : List Char} {found : Escape × Nat}
    (h : (if cs.head? = some '{' then none else some (Escape.assertion .wordBoundary, 1)) = some found) :
    (if (cs ++ rest).head? = some '{' then none else some (Escape.assertion .wordBoundary, 1)) =
      some found := by
  have hprolongs : Prolongs rest cs (cs ++ rest) := .inl rfl
  have hiff := hprolongs.head? hrest (by decide : '{' ∉ firmChars)
  split at h
  · cases h
  · rename_i hhead
    rw [if_neg fun hhead' => hhead (hiff.mp hhead'), h]

theorem escape_append (hrest : Firm extended rest) {inClass : Bool} {cs : List Char}
    {found : Escape × Nat} (h : Escape.read? inClass cs = some found) :
    Escape.read? inClass (cs ++ rest) = some found ∧ found.2 ≤ cs.length := by
  cases cs with
  | nil => cases h
  | cons c cs =>
    rw [List.cons_append]
    simp only [Escape.read?] at h ⊢
    by_cases hdigit : c.isDigit = true
    · rw [if_pos hdigit] at h ⊢
      exact numberEscape_append hrest h
    · rw [if_neg hdigit] at h ⊢
      split at h
      case h_16 | h_17 => exact propertyEscape_append h
      case h_18 | h_19 | h_20 => exact hexEscape_append (by decide) h
      case h_21 =>
        cases inClass with
        | true =>
          obtain rfl := Option.some.inj h
          exact ⟨rfl, by simp⟩
        | false =>
          refine ⟨boundaryEscape_append hrest h, ?_⟩
          rw [if_neg Bool.false_ne_true] at h
          split at h
          · cases h
          · obtain rfl := Option.some.inj h
            simp
      case h_27 =>
        cases inClass with
        | true =>
          obtain rfl := Option.some.inj h
          exact ⟨rfl, by simp⟩
        | false =>
          rw [if_neg Bool.false_ne_true] at h
          split at h
          · exact refEscape_append hrest h
          · exact refEscape_append hrest h
          · cases h
      case h_28 =>
        split at h
        · cases h
        · obtain rfl := Option.some.inj h
          simp_all
      all_goals
        obtain rfl := Option.some.inj h
        exact ⟨rfl, by simp⟩

theorem classLength_cons_append {nested nested' skip skip' n : Nat} {c : Char} {cs : List Char}
    (h : (classLengthFrom nested' skip' cs).map (· + 1) = some n)
    (ih : ∀ {m : Nat}, classLengthFrom nested' skip' cs = some m →
      classLengthFrom nested' skip' (cs ++ rest) = some m ∧ m ≤ cs.length)
    (heq : classLengthFrom nested skip (c :: cs ++ rest) =
      (classLengthFrom nested' skip' (cs ++ rest)).map (· + 1)) :
    classLengthFrom nested skip (c :: cs ++ rest) = some n ∧ n ≤ (c :: cs).length := by
  obtain ⟨m, hm, rfl⟩ := Option.map_eq_some_iff.mp h
  obtain ⟨happend, hle⟩ := ih hm
  rw [heq, happend]
  exact ⟨rfl, Nat.succ_le_succ hle⟩

theorem classLengthFrom_append (hrest : Firm extended rest) {nested skip : Nat} {cs : List Char}
    {n : Nat} (h : classLengthFrom nested skip cs = some n) :
    classLengthFrom nested skip (cs ++ rest) = some n ∧ n ≤ cs.length := by
  fun_induction classLengthFrom nested skip cs generalizing n
  case case1 => cases h
  case case2 ih =>
    exact classLength_cons_append h ih (by rw [List.cons_append, classLengthFrom])
  case case3 => cases h
  case case4 nested cs e m hescape ih =>
    refine classLength_cons_append h ih ?_
    rw [List.cons_append, classLengthFrom.eq_def]
    dsimp only
    rw [if_pos rfl, (escape_append hrest hescape).1]
  case case5 nested cs hslash ih =>
    refine classLength_cons_append h ih ?_
    rw [List.cons_append, classLengthFrom.eq_def]
    dsimp only
    rw [if_neg hslash, if_pos rfl]
  case case6 cs hslash hopen =>
    obtain rfl := Option.some.inj h
    refine ⟨?_, by simp⟩
    rw [List.cons_append, classLengthFrom, if_neg hslash, if_neg hopen, if_pos rfl]
  case case7 cs nested hslash hopen ih =>
    refine classLength_cons_append h ih ?_
    rw [List.cons_append, classLengthFrom, if_neg hslash, if_neg hopen, if_pos rfl]
  case case8 nested c cs hslash hopen hclose ih =>
    refine classLength_cons_append h ih ?_
    rw [List.cons_append, classLengthFrom.eq_def]
    dsimp only
    rw [if_neg hslash, if_neg hopen, if_neg hclose]

theorem mem_of_classLengthFrom {nested skip : Nat} {cs : List Char} {n : Nat}
    (h : classLengthFrom nested skip cs = some n) : ']' ∈ cs.drop skip := by
  fun_induction classLengthFrom nested skip cs generalizing n
  case case1 => cases h
  case case3 => cases h
  case case6 => exact List.mem_cons_self
  case case2 ih =>
    obtain ⟨m, hm, -⟩ := Option.map_eq_some_iff.mp h
    exact ih hm
  all_goals
    rename_i ih
    obtain ⟨m, hm, -⟩ := Option.map_eq_some_iff.mp h
    exact List.mem_cons_of_mem _ (List.mem_of_mem_drop (ih hm))

def classBody (cs : List Char) : List Char := if cs.head? == some '^' then cs.drop 1 else cs

theorem mem_of_classLength {cs : List Char} {n : Nat} (h : classLength cs = some n) :
    ']' ∈ classBody cs := by
  unfold classLength at h
  unfold classBody
  split at h
  · exact List.mem_cons_self
  · exact mem_of_classLengthFrom h
  · exact List.mem_cons_self
  · rename_i hcaret _
    have hhead : ¬ (cs.head? == some '^') = true := by
      intro hhead
      obtain ⟨more, rfl⟩ := List.head?_eq_some_iff.mp (beq_iff_eq.mp hhead)
      exact hcaret more rfl
    rw [if_neg hhead]
    exact mem_of_classLengthFrom h

theorem classLength_append (hrest : Firm extended rest) {cs : List Char} {n : Nat}
    (h : classLength cs = some n) : classLength (cs ++ rest) = some n ∧ n ≤ cs.length := by
  have hmem := mem_of_classLength h
  unfold classLength at h ⊢
  split at h
  · exact classLengthFrom_append hrest h
  · rename_i cs hbracket
    cases cs with
    | nil => cases hmem
    | cons c cs =>
      have hc : c ≠ ']' := by
        rintro rfl
        exact hbracket cs rfl
      simpa [hc] using classLengthFrom_append hrest h
  · exact classLengthFrom_append hrest h
  · rename_i hfirst hsecond hthird
    cases cs with
    | nil => cases h
    | cons c cs =>
      have hcaret : c ≠ '^' := by
        rintro rfl
        exact hsecond cs rfl
      have hbracket : c ≠ ']' := by
        rintro rfl
        exact hthird cs rfl
      simpa [hcaret, hbracket] using classLengthFrom_append hrest h

theorem head?_append_of_ne_nil {cs : List Char} (h : cs ≠ []) : (cs ++ rest).head? = cs.head? := by
  cases cs with
  | nil => exact absurd rfl h
  | cons c cs => rfl

theorem start_append {cs : List Char} (h : ']' ∈ classBody cs) :
    OpenClass.start (cs ++ rest) = OpenClass.start cs := by
  have hne : cs ≠ [] := by
    rintro rfl
    cases h
  have hbodyne : classBody cs ≠ [] := List.ne_nil_of_mem h
  have hhead : (cs ++ rest).head? = cs.head? := head?_append_of_ne_nil hne
  have hbody : classBody (cs ++ rest) = classBody cs ++ rest := by
    unfold classBody
    rw [hhead]
    split
    · exact List.drop_append_of_le_length (List.length_pos_iff.mpr hne)
    · rfl
  -- the closing bracket is no hyphen, so the hyphens at the front end before it
  have hlt : ((classBody cs).takeWhile (· == '-')).length < (classBody cs).length := by
    refine Nat.lt_of_le_of_ne (List.takeWhile_prefix _).length_le fun heq => ?_
    have hself := (List.takeWhile_prefix _).eq_of_length heq
    rw [← hself] at h
    exact absurd (List.all_eq_true.mp List.all_takeWhile ']' h) (by decide)
  have hstart : ∀ text, OpenClass.start text =
      (let negated := text.head? == some '^'
       let caret := if negated then 1 else 0
       let hyphens := (classBody text).takeWhile (· == '-')
       if hyphens ≠ [] then (⟨negated, none, .char '-'⟩, caret + hyphens.length)
       else if (classBody text).head? = some ']' then (⟨negated, none, .char ']'⟩, caret + 1)
       else (⟨negated, none, .empty⟩, caret)) := fun _ => rfl
  rw [hstart, hstart, hhead, hbody, takeWhile_append_of_lt hlt, head?_append_of_ne_nil hbodyne]

theorem readClass_append [Engine] (hrest : Firm extended rest) {cs : List Char} {n : Nat}
    (h : classLength cs = some n) (caseless : Bool) :
    readClass caseless (cs ++ rest) = readClass caseless cs := by
  obtain ⟨happend, hle⟩ := classLength_append hrest h
  unfold readClass
  rw [h, happend]
  dsimp only
  rw [start_append (mem_of_classLength h), List.take_append_of_le_length hle]

theorem readFlags_append {flags : Flags} {value : Bool} {count : Nat} {cs : List Char}
    {found : Flags × Bool × Nat} (h : readFlags flags value count cs = some found) :
    readFlags flags value count (cs ++ rest) = some found ∧ found.2.2 ≤ count + cs.length := by
  induction cs generalizing flags value count with
  | nil => cases h
  | cons c cs ih =>
    have hcons : ∀ {new : Flags} {sign : Bool}, readFlags new sign (count + 1) cs = some found →
        readFlags new sign (count + 1) (cs ++ rest) = some found ∧
          found.2.2 ≤ count + (c :: cs).length := by
      intro new sign hnew
      obtain ⟨happend, hle⟩ := ih hnew
      exact ⟨happend, by rw [List.length_cons]; omega⟩
    have hstop : ∀ {stop : Bool} {new : Flags × Bool × Nat}, new.2.2 = count + 1 →
        (if stop = true then none else some new) = some found →
          found.2.2 ≤ count + (c :: cs).length := by
      intro stop new hnew hfound
      split at hfound
      · cases hfound
      · obtain rfl := Option.some.inj hfound
        rw [hnew, List.length_cons]
        omega
    rw [List.cons_append]
    simp only [readFlags] at h ⊢
    by_cases hclose : c = ')'
    · rw [if_pos hclose] at h ⊢
      exact ⟨h, hstop rfl h⟩
    · rw [if_neg hclose] at h ⊢
      by_cases hcolon : c = ':'
      · rw [if_pos hcolon] at h ⊢
        exact ⟨h, hstop rfl h⟩
      · rw [if_neg hcolon] at h ⊢
        by_cases hminus : c = '-'
        · rw [if_pos hminus] at h ⊢
          cases value with
          | true => exact hcons h
          | false => cases h
        · rw [if_neg hminus] at h ⊢
          cases hset : flags.set value c with
          | none =>
            rw [hset] at h
            cases h
          | some new =>
            rw [hset] at h
            exact hcons h

theorem mark_append (hrest : Firm extended rest) {cs : List Char} {n : Nat} (hn : n ≤ cs.length)
    {c : Char} (hc : c ∉ firmChars) :
    (((cs ++ rest).drop n).head? == some c) = ((cs.drop n).head? == some c) ∧
      ((cs.drop n).head? == some c → n + 1 ≤ cs.length) := by
  have hprolongs : Prolongs rest (cs.drop n) ((cs ++ rest).drop n) :=
    .inl (List.drop_append_of_le_length hn)
  constructor
  · rw [Bool.eq_iff_iff, beq_iff_eq, beq_iff_eq]
    exact hprolongs.head? hrest hc
  · exact fun hhead => lt_length_of_head?_drop (beq_iff_eq.mp hhead)

theorem quantifier?_append (hrest : Firm extended rest) {least : Nat} {most? : Option Nat}
    {cs : List Char} {found : Sign × Nat}
    (h : Sign.quantifier? extended least most? cs = some found) :
    found.2 ≤ cs.length ∧ ∃ k, Sign.quantifier? extended least most? (cs ++ rest) =
      some (found.1, found.2 + k) ∧ Takes extended cs rest found.2 k := by
  unfold Sign.quantifier? at h ⊢
  cases hn : ignoredFrom extended .blanks cs with
  | none =>
    rw [hn] at h
    cases h
  | some n =>
    rw [hn] at h
    obtain rfl := Option.some.inj h
    obtain ⟨k, hk, htakes⟩ := blanks_append hrest hn
    have hle := ignoredFrom_le hn
    rw [hk]
    rcases htakes with rfl | ⟨hextended, hend, hall⟩
    · obtain ⟨hlazy, hlazyLe⟩ := mark_append hrest hle (by decide : '?' ∉ firmChars)
      have hm : (if (cs.drop n).head? == some '?' then n + 1 else n) ≤ cs.length := by
        split
        · exact hlazyLe ‹_›
        · exact hle
      simp only [Nat.add_zero, hlazy]
      generalize (if (cs.drop n).head? == some '?' then n + 1 else n) = m at hm
      obtain ⟨hpossessive, hpossessiveLe⟩ := mark_append hrest hm (by decide : '+' ∉ firmChars)
      refine ⟨?_, 0, by rw [hpossessive]; rfl, .inl rfl⟩
      split
      · exact hpossessiveLe ‹_›
      · exact hm
    · have hdrop : cs.drop n = [] := List.drop_eq_nil_of_le (by omega)
      have hdrop' : (cs ++ rest).drop (n + k) = [] :=
        List.drop_eq_nil_of_le (by rw [List.length_append]; omega)
      refine ⟨?_, k, ?_, .inr ⟨hextended, ?_, hall⟩⟩
      · simp [hdrop, hle]
      · simp [hdrop, hdrop']
      · simp [hend]

theorem brace?_append (hrest : Firm extended rest) {repeatable : Bool} {cs : List Char}
    {found : Sign × Nat}
    (hbounds : repeatable = true → bounds? extended cs = none → bounds? extended (cs ++ rest) = none)
    (h : Sign.brace? extended repeatable cs = some found) :
    found.2 ≤ cs.length ∧ ∃ k, Sign.brace? extended repeatable (cs ++ rest) =
      some (found.1, found.2 + k) ∧ Takes extended cs rest found.2 k := by
  unfold Sign.brace? at h ⊢
  cases repeatable with
  | false =>
    obtain rfl := Option.some.inj h
    exact ⟨Nat.zero_le _, 0, rfl, .inl rfl⟩
  | true =>
    cases hfound : bounds? extended cs with
    | none =>
      rw [hfound] at h
      obtain rfl := Option.some.inj h
      rw [hbounds rfl hfound]
      exact ⟨Nat.zero_le _, 0, rfl, .inl rfl⟩
    | some range =>
      rw [hfound] at h
      obtain ⟨⟨least, most?⟩, after⟩ := range
      obtain ⟨sign, hsign, rfl⟩ := Option.map_eq_some_iff.mp h
      obtain ⟨hle, k, hk, htakes⟩ := quantifier?_append hrest hsign
      have hafter : after.length ≤ cs.length := (Bounds.bounds?_suffix hfound).length_le
      rw [Bounds.bounds?_append_of_some hrest hfound]
      dsimp only
      rw [hk]
      refine ⟨?_, k, ?_, ?_⟩
      · omega
      · simp only [Option.map_some, List.length_append, Nat.add_sub_add_right, Nat.add_assoc]
      · rcases htakes with rfl | ⟨hextended, hend, hall⟩
        · exact .inl rfl
        · exact .inr ⟨hextended, by omega, hall⟩

theorem named?_append {cs : List Char} {before : Nat} {found : Sign × Nat}
    (h : Sign.named? cs before = some found) :
    Sign.named? (cs ++ rest) before = some found ∧ found.2 ≤ before + cs.length ∧ cs ≠ [] := by
  obtain ⟨name, hname, rfl⟩ := Option.map_eq_some_iff.mp h
  obtain ⟨happend, hle⟩ := @groupName?_append rest _ _ _ hname
  rw [Sign.named?, happend]
  refine ⟨rfl, Nat.add_le_add_left hle before, ?_⟩
  rintro rfl
  cases hname

theorem exists_cons_of_readFlags {flags : Flags} {cs : List Char} {found : Flags × Bool × Nat}
    (h : readFlags flags true 0 cs = some found) :
    ∃ c more, cs = c :: more ∧ c ≠ '=' ∧ c ≠ '!' ∧ c ≠ '<' ∧ c ≠ '>' ∧ c ≠ 'P' ∧ c ≠ '(' := by
  cases cs with
  | nil => cases h
  | cons c more =>
    refine ⟨c, more, rfl, ?_, ?_, ?_, ?_, ?_, ?_⟩ <;>
      · rintro rfl
        cases h

theorem flagSign_append {cs : List Char} {before : Nat} {found : Sign × Nat}
    (h : ((readFlags {} true 0 cs).map fun found =>
      (Sign.flags (fun old => (readFlags old true 0 cs).map (·.1)) found.2.1,
        before + found.2.2)) = some found) :
    ((readFlags {} true 0 (cs ++ rest)).map fun found =>
      (Sign.flags (fun old => (readFlags old true 0 (cs ++ rest)).map (·.1)) found.2.1,
        before + found.2.2)) = some found ∧ found.2 ≤ before + cs.length := by
  obtain ⟨new, hnew, rfl⟩ := Option.map_eq_some_iff.mp h
  have hold : ∀ old, readFlags old true 0 (cs ++ rest) = readFlags old true 0 cs := by
    intro old
    have hsnd := readFlags_map_snd old {} true 0 cs
    rw [hnew, Option.map_some] at hsnd
    obtain ⟨other, hother, -⟩ := Option.map_eq_some_iff.mp hsnd
    rw [(readFlags_append hother).1, hother]
  have hle := (@readFlags_append rest _ _ _ _ _ hnew).2
  rw [hold, hnew]
  simp only [hold]
  exact ⟨rfl, by omega⟩

theorem testedRef?_append (hrest : Firm extended rest) {cs : List Char} {found : GroupRef × Nat}
    (h : testedRef? cs = some found) :
    testedRef? (cs ++ rest) = some found ∧ found.2 ≤ cs.length := by
  have hbracket : ∀ {close : Char} {cs : List Char} {found : GroupRef × Nat},
      (Escape.groupRef? close cs).map (fun found => (found.1, found.2 + 1)) = some found →
        (Escape.groupRef? close (cs ++ rest)).map (fun found => (found.1, found.2 + 1)) = some found ∧
          found.2 ≤ cs.length + 1 := by
    intro close cs found h
    obtain ⟨ref, href, rfl⟩ := Option.map_eq_some_iff.mp h
    obtain ⟨happend, hle⟩ := groupRef?_append hrest href
    rw [happend]
    exact ⟨rfl, Nat.succ_le_succ hle⟩
  unfold testedRef? at h
  split at h
  · exact hbracket h
  · exact hbracket h
  · rename_i hangle hquote
    obtain ⟨number, hnumber, rfl⟩ := Option.map_eq_some_iff.mp h
    have hnumber' := decimal?_append hrest cs
    rw [hnumber] at hnumber'
    refine ⟨?_, Nat.sub_le _ _⟩
    cases cs with
    | nil => cases hnumber
    | cons c cs =>
      have hc : c ≠ '<' ∧ c ≠ '\x27' := ⟨fun heq => hangle cs (heq ▸ rfl), fun heq => hquote cs (heq ▸ rfl)⟩
      rw [List.cons_append] at hnumber' ⊢
      simp only [testedRef?, hnumber', Option.map_some, List.length_cons, List.length_append]
      simp only [hc, List.cons.injEq, false_and, imp_self, implies_true]
      congr 2
      omega

theorem tested?_append (hrest : Firm extended rest) {cs : List Char} {found : GroupRef × Nat}
    (h : tested? extended cs = some found) :
    tested? extended (cs ++ rest) = some found ∧ found.2 ≤ cs.length := by
  obtain ⟨⟨ref, n⟩, href, h⟩ := Option.bind_eq_some_iff.mp h
  obtain ⟨m, hm, h⟩ := Option.bind_eq_some_iff.mp h
  obtain ⟨href', hn⟩ := testedRef?_append hrest href
  obtain ⟨k, hk, htakes⟩ := blanks_append hrest hm
  split at h
  · rename_i hclose
    have hlt := lt_length_of_head?_drop hclose
    obtain rfl := Option.some.inj h
    have hzero : k = 0 := by
      rcases htakes with hzero | ⟨-, hend, -⟩
      · exact hzero
      · rw [List.length_drop] at hend
        omega
    rw [← List.drop_append_of_le_length hn, hzero, Nat.add_zero] at hk
    refine ⟨?_, hlt⟩
    simp only [tested?, href', hk, head?_drop_append hlt, hclose, Option.bind_eq_bind, Option.bind_some,
      if_true]
  · cases h

theorem startsTest_head?_append (hrest : Firm extended rest) (cs : List Char) :
    (cs ++ rest).head?.any startsTest = cs.head?.any startsTest := by
  cases cs with
  | cons c cs => rfl
  | nil =>
    obtain ⟨c, hc, hhead⟩ := hrest.head
    have hnone : firmChars.all (fun c => !startsTest c) = true := by decide
    have hstart := List.all_eq_true.mp hnone c hc
    simpa [hhead] using hstart

theorem choice?_append (hrest : Firm extended rest) {cs : List Char} {before : Nat} {found : Sign × Nat}
    (h : Sign.choice? extended cs before = some found) :
    Sign.choice? extended (cs ++ rest) before = some found ∧ found.2 ≤ before + cs.length := by
  unfold Sign.choice? at h ⊢
  rw [startsTest_head?_append hrest]
  split at h
  · rename_i htest
    obtain ⟨ref, href, rfl⟩ := Option.map_eq_some_iff.mp h
    obtain ⟨happend, hle⟩ := tested?_append hrest href
    rw [if_pos htest, happend]
    exact ⟨rfl, Nat.add_le_add_left hle before⟩
  · rename_i htest
    obtain rfl := Option.some.inj h
    rw [if_neg htest]
    exact ⟨rfl, Nat.le_add_right _ _⟩

theorem opening?_of_head?_ne {n : Nat} {cs : List Char} (h : cs.head? ≠ some '?') :
    Sign.opening? extended n cs = some (.capture none, n) := by
  unfold Sign.opening?
  split
  case h_11 => rfl
  all_goals exact absurd rfl h

theorem opening?_append (hrest : Firm extended rest) {n : Nat} {cs : List Char} {found : Sign × Nat}
    (h : Sign.opening? extended n cs = some found) :
    Sign.opening? extended n (cs ++ rest) = some found ∧ found.2 ≤ n + cs.length := by
  unfold Sign.opening? at h
  split at h
  case h_5 cs hequals hbang =>
    obtain ⟨happend, hle, hne⟩ := @named?_append rest _ _ _ h
    obtain ⟨c, more, rfl⟩ := List.exists_cons_of_ne_nil hne
    have hc : c ≠ '=' ∧ c ≠ '!' := by
      constructor
      · rintro rfl
        exact hequals more rfl
      · rintro rfl
        exact hbang more rfl
    refine ⟨?_, by simp only [List.length_cons] at hle ⊢; omega⟩
    rw [← happend]
    simp [Sign.opening?, hc]
  case h_6 =>
    obtain ⟨happend, hle, -⟩ := @named?_append rest _ _ _ h
    exact ⟨happend, by simp only [List.length_cons]; omega⟩
  case h_7 =>
    obtain ⟨name, hname, rfl⟩ := Option.map_eq_some_iff.mp h
    obtain ⟨happend, hle⟩ := @groupName?_append rest _ _ _ hname
    refine ⟨?_, by simp only [List.length_cons]; omega⟩
    simp [Sign.opening?, happend]
  case h_9 =>
    obtain ⟨happend, hle⟩ := choice?_append hrest h
    exact ⟨happend, by simp only [List.length_cons]; omega⟩
  case h_10 cs _ _ _ _ _ _ _ _ _ =>
    obtain ⟨happend, hle⟩ := @flagSign_append rest _ _ _ h
    obtain ⟨new, hnew, -⟩ := Option.map_eq_some_iff.mp h
    obtain ⟨c, more, rfl, hequals, hbang, hless, hgreater, hletter, hparen⟩ :=
      exists_cons_of_readFlags hnew
    refine ⟨?_, by simp only [List.length_cons] at hle ⊢; omega⟩
    rw [← happend]
    simp [Sign.opening?, hequals, hbang, hless, hgreater, hletter, hparen]
  case h_11 hmark =>
    obtain rfl := Option.some.inj h
    have hprolongs : Prolongs rest cs (cs ++ rest) := .inl rfl
    refine ⟨opening?_of_head?_ne fun hhead => ?_, Nat.le_add_right _ _⟩
    rw [hprolongs.head? hrest (by decide), List.head?_eq_some_iff] at hhead
    obtain ⟨more, rfl⟩ := hhead
    exact hmark more rfl
  all_goals
    obtain rfl := Option.some.inj h
    exact ⟨rfl, by simp only [List.length_cons]; omega⟩

theorem group?_append (hrest : Firm extended rest) {cs : List Char} {found : Sign × Nat}
    (h : Sign.group? extended cs = some found) :
    found.2 ≤ cs.length ∧ ∃ k, Sign.group? extended (cs ++ rest) = some (found.1, found.2 + k) ∧
      Takes extended cs rest found.2 k := by
  unfold Sign.group? at h ⊢
  cases hn : ignoredFrom extended .blanks cs with
  | none =>
    rw [hn] at h
    cases h
  | some n =>
    rw [hn] at h
    dsimp only at h
    obtain ⟨k, hk, htakes⟩ := blanks_append hrest hn
    have hle := ignoredFrom_le hn
    rw [hk]
    dsimp only
    rcases htakes with rfl | ⟨hextended, hend, hall⟩
    · obtain ⟨happend, hfound⟩ := opening?_append hrest h
      rw [List.length_drop] at hfound
      refine ⟨by omega, 0, ?_, .inl rfl⟩
      rw [Nat.add_zero, List.drop_append_of_le_length hle, happend]
      rfl
    · rw [List.drop_eq_nil_of_le (by omega)] at h
      rw [List.drop_eq_nil_of_le (by rw [List.length_append]; omega)]
      obtain rfl := Option.some.inj h
      exact ⟨hle, k, rfl, .inr ⟨hextended, hend, hall⟩⟩

/-- The sign that was read, and how much of the text behind it is taken. -/
theorem sign?_append [Engine] (hrest : Firm extended rest) {repeatable : Bool} {c : Char} {cs : List Char}
    {found : Sign × Nat}
    (hbounds : repeatable = true → c = '{' → bounds? extended cs = none →
      bounds? extended (cs ++ rest) = none)
    (h : sign? extended repeatable c cs = some found) :
    found.2 ≤ cs.length ∧ ∃ k, sign? extended repeatable c (cs ++ rest) =
      some (found.1, found.2 + k) ∧ Takes extended cs rest found.2 k := by
  unfold sign? at h ⊢
  rw [← List.cons_append]
  cases hn : ignoredFrom extended .blanks (c :: cs) with
  | none =>
    rw [hn] at h
    cases h
  | some n =>
    rw [hn] at h
    obtain ⟨k, hk, htakes⟩ := blanks_append hrest hn
    have hle := ignoredFrom_le hn
    rw [hk]
    cases n with
    | succ n =>
      obtain rfl := Option.some.inj h
      refine ⟨Nat.le_of_succ_le_succ hle, k, ?_, ?_⟩
      · rw [Nat.add_right_comm]
      · rcases htakes with rfl | ⟨hextended, hend, hall⟩
        · exact .inl rfl
        · exact .inr ⟨hextended, Nat.succ.inj hend, hall⟩
    | zero =>
      have hzero : k = 0 := by
        rcases htakes with hzero | ⟨-, hend, -⟩
        · exact hzero
        · cases hend
      subst hzero
      dsimp only at h ⊢
      have hplain : ∀ {s : Sign}, some (s, 0) = some found →
          found.2 ≤ cs.length ∧ ∃ k, some (s, 0) = some (found.1, found.2 + k) ∧
            Takes extended cs rest found.2 k := by
        rintro s heq
        obtain rfl := Option.some.inj heq
        exact ⟨Nat.zero_le _, 0, rfl, .inl rfl⟩
      unfold Sign.visible? at h ⊢
      split at h
      case h_4 => exact group?_append hrest h
      case h_7 =>
        obtain ⟨length, hlength, rfl⟩ := Option.map_eq_some_iff.mp h
        obtain ⟨happend, hlengthLe⟩ := classLength_append hrest hlength
        refine ⟨hlengthLe, 0, ?_, .inl rfl⟩
        simp only [happend, readClass_append hrest hlength]
        rfl
      case h_8 =>
        obtain ⟨e, he, rfl⟩ := Option.map_eq_some_iff.mp h
        obtain ⟨happend, heLe⟩ := escape_append hrest he
        exact ⟨heLe, 0, by simp only [happend]; rfl, .inl rfl⟩
      case h_9 | h_10 | h_11 => exact quantifier?_append hrest h
      case h_12 => exact brace?_append hrest (fun hrepeatable => hbounds hrepeatable rfl) h
      case h_13 => simpa using hplain h
      all_goals exact hplain h

end
end PhrasePattern.Regex
