import PhrasePattern.Proofs.Regex.Sign
import PhrasePattern.Proofs.Text.Runs

/-! What a reader skips, and the bounds of repetitions, where more text is put behind a text. If the
text behind begins with a character that nothing before it can take in, the same is skipped and the same
bounds are found. The one exception are comments up to the end of the line: they go on as long as the
line does. -/
namespace PhrasePattern.Regex

/-- Characters that do not prolong a sign that ends before them. -/
def firmChars : List Char := [')', '|', '.', '\\', '$', ' ']

/-- The text begins with such a character. Where blanks are skipped it is the end of a group and of
the whole text. -/
structure Firm (extended : Bool) (rest : List Char) : Prop where
  head : ∃ c ∈ firmChars, rest.head? = some c
  closed : extended = true → rest = [')', '$']

theorem Firm.head?_ne {extended : Bool} {rest : List Char} (h : Firm extended rest) {c : Char}
    (hc : c ∉ firmChars) : rest.head? ≠ some c := by
  obtain ⟨d, hd, hhead⟩ := h.head
  rw [hhead]
  rintro heq
  exact hc (Option.some.inj heq ▸ hd)

theorem Firm.isDigit_eq_false {extended : Bool} {rest : List Char} (h : Firm extended rest) :
    ∀ c, rest.head? = some c → c.isDigit = false := by
  obtain ⟨d, hd, hhead⟩ := h.head
  intro c hc
  obtain rfl := Option.some.inj (hhead.symm.trans hc)
  have hnone : firmChars.all (fun c => !c.isDigit) = true := by decide
  simpa using List.all_eq_true.mp hnone d hd

/-- `k` more characters of `rest` are taken than the `n` of the text: none, or, in a comment up to
the end of the line, all. -/
def Takes (extended : Bool) (text rest : List Char) (n k : Nat) : Prop :=
  k = 0 ∨ (extended = true ∧ n = text.length ∧ k = rest.length)

theorem Takes.cons {extended : Bool} {text rest : List Char} {n k : Nat}
    (h : Takes extended text rest n k) (c : Char) : Takes extended (c :: text) rest (n + 1) k := by
  rcases h with rfl | ⟨hextended, rfl, rfl⟩
  · exact .inl rfl
  · exact .inr ⟨hextended, rfl, rfl⟩

section
variable {extended : Bool} {rest : List Char}

theorem ignoredFrom_le {mode : Skipping} {text : List Char} {n : Nat}
    (h : ignoredFrom extended mode text = some n) : n ≤ text.length := by
  fun_induction ignoredFrom extended mode text generalizing n
  all_goals simp only [Option.map_eq_some_iff, Option.some.injEq, reduceCtorEq] at h
  all_goals grind

theorem ignoredFrom_blanks_of_firm (h : Firm extended rest) :
    ignoredFrom extended .blanks rest = some 0 := by
  obtain ⟨c, hc, hhead⟩ := h.head
  obtain ⟨more, rfl⟩ := List.head?_eq_some_iff.mp hhead
  have hopen : c ≠ '(' := by
    rintro rfl
    exact absurd hc (by decide)
  rw [ignoredFrom]
  · cases extended with
    | false => rfl
    | true =>
      obtain ⟨rfl, -⟩ := List.cons.inj (h.closed rfl)
      rfl
  · rintro more' rfl
    exact absurd rfl hopen

theorem ignoredFrom_line_of_firm (h : Firm true rest) :
    ignoredFrom true .line rest = some rest.length := by
  rw [h.closed rfl]
  decide

theorem Firm.not_comment (h : Firm extended rest) {c : Char} {text : List Char}
    (hnot : ∀ more, c = '(' → text = '?' :: '#' :: more → False) :
    ∀ more, c = '(' → text ++ rest = '?' :: '#' :: more → False := by
  intro more hc heq
  match text with
  | [] => exact h.head?_ne (by decide : '?' ∉ firmChars) (by rw [← List.nil_append rest, heq]; rfl)
  | [d] =>
    have hrest : rest = '#' :: more := (List.cons.inj heq).2
    exact h.head?_ne (by decide : '#' ∉ firmChars) (by rw [hrest]; rfl)
  | d :: d' :: text =>
    obtain ⟨rfl, htail⟩ := List.cons.inj heq
    obtain ⟨rfl, -⟩ := List.cons.inj htail
    exact hnot text hc rfl

theorem exists_takes_cons {mode mode' : Skipping} {c : Char} {text : List Char} {n : Nat}
    (h : (ignoredFrom extended mode' text).map (· + 1) = some n)
    (ih : ∀ {m : Nat}, ignoredFrom extended mode' text = some m →
      ∃ k, ignoredFrom extended mode' (text ++ rest) = some (m + k) ∧ Takes extended text rest m k)
    (heq : ignoredFrom extended mode (c :: text ++ rest) =
      (ignoredFrom extended mode' (text ++ rest)).map (· + 1)) :
    ∃ k, ignoredFrom extended mode (c :: text ++ rest) = some (n + k) ∧
      Takes extended (c :: text) rest n k := by
  obtain ⟨m, hm, rfl⟩ := Option.map_eq_some_iff.mp h
  obtain ⟨k, hk, htakes⟩ := ih hm
  refine ⟨k, ?_, htakes.cons c⟩
  rw [heq, hk, Option.map_some, Nat.add_right_comm]

theorem ignoredFrom_append (hrest : Firm extended rest) {mode : Skipping} {text : List Char} {n : Nat}
    (hmode : mode = .line → extended = true) (h : ignoredFrom extended mode text = some n) :
    ∃ k, ignoredFrom extended mode (text ++ rest) = some (n + k) ∧ Takes extended text rest n k := by
  have hblanks : Skipping.blanks = .line → extended = true := fun h => nomatch h
  have hcomment : Skipping.comment = .line → extended = true := fun h => nomatch h
  fun_induction ignoredFrom extended mode text generalizing n
  case case1 =>
    obtain rfl := Option.some.inj h
    exact ⟨0, ignoredFrom_blanks_of_firm hrest, .inl rfl⟩
  case case2 text ih =>
    obtain ⟨m, hm, rfl⟩ := Option.map_eq_some_iff.mp h
    obtain ⟨k, hk, htakes⟩ := ih hcomment hm
    refine ⟨k, ?_, ((htakes.cons '#').cons '?').cons '('⟩
    rw [List.cons_append, List.cons_append, List.cons_append, ignoredFrom, hk, Option.map_some,
      Nat.add_right_comm]
  case case3 c text hnot hsharp ih =>
    have hextended : extended = true := (Bool.and_eq_true_iff.mp hsharp).1
    refine exists_takes_cons h (ih fun _ => hextended) ?_
    rw [List.cons_append, ignoredFrom, if_pos hsharp]
    exact hrest.not_comment hnot
  case case4 c text hnot hsharp hblank ih =>
    refine exists_takes_cons h (ih hblanks) ?_
    rw [List.cons_append, ignoredFrom, if_neg hsharp, if_pos hblank]
    exact hrest.not_comment hnot
  case case5 c text hnot hsharp hblank =>
    obtain rfl := Option.some.inj h
    refine ⟨0, ?_, .inl rfl⟩
    rw [List.cons_append, ignoredFrom, if_neg hsharp, if_neg hblank]
    exact hrest.not_comment hnot
  case case6 =>
    obtain rfl := Option.some.inj h
    obtain rfl := hmode rfl
    -- in a comment up to the end of the line, all of `rest` belongs to it
    refine ⟨rest.length, ?_, .inr ⟨rfl, rfl, rfl⟩⟩
    rw [List.nil_append, ignoredFrom_line_of_firm hrest, Nat.zero_add]
  case case7 text ih =>
    refine exists_takes_cons h (ih hblanks) ?_
    rw [List.cons_append, ignoredFrom, if_pos rfl]
  case case8 c text hc ih =>
    refine exists_takes_cons h (ih fun _ => hmode rfl) ?_
    rw [List.cons_append, ignoredFrom, if_neg hc]
  case case9 => cases h
  case case10 => cases h
  case case11 c text ih =>
    obtain ⟨m, hm, rfl⟩ := Option.map_eq_some_iff.mp h
    obtain ⟨k, hk, htakes⟩ := ih hcomment hm
    refine ⟨k, ?_, (htakes.cons c).cons '\\'⟩
    rw [List.cons_append, List.cons_append, ignoredFrom, hk, Option.map_some, Nat.add_right_comm]
  case case12 text _ _ ih =>
    refine exists_takes_cons h (ih hblanks) ?_
    rw [List.cons_append, ignoredFrom, if_pos rfl]
    · exact fun heq => absurd heq (by decide)
    · exact fun _ _ heq => absurd heq (by decide)
  case case13 c text hlone hpair hc ih =>
    have hslash : c ≠ '\\' := by
      rintro rfl
      cases text with
      | nil => exact hlone rfl rfl
      | cons d text => exact hpair d text rfl rfl
    refine exists_takes_cons h (ih hcomment) ?_
    rw [List.cons_append, ignoredFrom, if_neg hc]
    · exact fun heq => absurd heq hslash
    · exact fun _ _ heq => absurd heq hslash

theorem blanks_append (hrest : Firm extended rest) {text : List Char} {n : Nat}
    (h : ignoredFrom extended .blanks text = some n) :
    ∃ k, ignoredFrom extended .blanks (text ++ rest) = some (n + k) ∧ Takes extended text rest n k :=
  ignoredFrom_append hrest (fun heq => nomatch heq) h

def skip? (extended : Bool) (cs : List Char) : Option (List Char) :=
  (ignoredFrom extended .blanks cs).map cs.drop

/-- The second text is the first with `rest` behind it, unless nothing is left of both. -/
def Prolongs (rest cs cs' : List Char) : Prop := cs' = cs ++ rest ∨ (cs = [] ∧ cs' = [])

theorem Takes.prolongs {text : List Char} {n k : Nat} (h : Takes extended text rest n k)
    (hn : n ≤ text.length) : Prolongs rest (text.drop n) ((text ++ rest).drop (n + k)) := by
  rcases h with rfl | ⟨-, rfl, rfl⟩
  · exact .inl (List.drop_append_of_le_length hn)
  · exact .inr ⟨List.drop_length, List.drop_eq_nil_of_le (by simp)⟩

theorem Prolongs.skip? (hrest : Firm extended rest) {cs cs' ds : List Char}
    (h : Prolongs rest cs cs') (hskip : skip? extended cs = some ds) :
    ∃ ds', skip? extended cs' = some ds' ∧ Prolongs rest ds ds' := by
  rcases h with rfl | ⟨rfl, rfl⟩
  · obtain ⟨n, hn, rfl⟩ := Option.map_eq_some_iff.mp hskip
    obtain ⟨k, hk, htakes⟩ := blanks_append hrest hn
    exact ⟨_, by rw [Regex.skip?, hk, Option.map_some], htakes.prolongs (ignoredFrom_le hn)⟩
  · have hnil : Regex.skip? extended [] = some [] := by rw [Regex.skip?, ignoredFrom]; rfl
    obtain rfl := Option.some.inj (hnil.symm.trans hskip)
    exact ⟨[], hnil, .inr ⟨rfl, rfl⟩⟩

theorem Prolongs.head? (hrest : Firm extended rest) {cs cs' : List Char} (h : Prolongs rest cs cs')
    {c : Char} (hc : c ∉ firmChars) : cs'.head? = some c ↔ cs.head? = some c := by
  rcases h with rfl | ⟨rfl, rfl⟩
  · cases cs with
    | nil => simp [hrest.head?_ne hc]
    | cons d cs => rfl
  · rfl

theorem decimal?_append (hrest : Firm extended rest) (cs : List Char) :
    Text.decimal? (cs ++ rest) = (Text.decimal? cs).map fun found => (found.1, found.2 ++ rest) := by
  unfold Text.decimal?
  rw [takeWhile_append_eq hrest.isDigit_eq_false, dropWhile_append_eq hrest.isDigit_eq_false]
  dsimp only
  split <;> rfl

theorem Prolongs.decimal? (hrest : Firm extended rest) {cs cs' : List Char}
    (h : Prolongs rest cs cs') :
    (Text.decimal? cs = none ∧ Text.decimal? cs' = none) ∨
      ∃ n ds ds', Text.decimal? cs = some (n, ds) ∧ Text.decimal? cs' = some (n, ds') ∧
        Prolongs rest ds ds' := by
  rcases h with rfl | ⟨rfl, rfl⟩
  · rw [decimal?_append hrest]
    cases Text.decimal? cs with
    | none => exact .inl ⟨rfl, rfl⟩
    | some found => exact .inr ⟨_, _, _, rfl, rfl, .inl rfl⟩
  · exact .inl ⟨rfl, rfl⟩

end

namespace Bounds

def least? (cs : List Char) : Option (Nat × List Char) :=
  if cs.head? = some ',' then some (0, cs) else Text.decimal? cs

def most (cs : List Char) : Option Nat × List Char :=
  match Text.decimal? cs with
  | some (n, after) => (some n, after)
  | none => (none, cs)

def close? (range : Nat × Option Nat) (cs : List Char) : Option ((Nat × Option Nat) × List Char) :=
  if cs.head? = some '}' then some (range, cs.tail) else none

def upper? (extended : Bool) (least : Nat) (cs : List Char) :
    Option ((Nat × Option Nat) × List Char) :=
  (skip? extended (most cs).2).bind (close? (least, (most cs).1))

def second? (extended : Bool) (least : Nat) (cs : List Char) :
    Option ((Nat × Option Nat) × List Char) :=
  if cs.head? = some ',' then (skip? extended cs.tail).bind (upper? extended least)
  else close? (least, some least) cs

theorem close?_eq (range : Nat × Option Nat) :
    close? range = fun cs =>
      match cs with
      | '}' :: after => some (range, after)
      | _ => none := by
  funext cs
  unfold close?
  split <;> split <;> simp_all [List.head?_eq_some_iff]

theorem upper?_eq (extended : Bool) (least : Nat) :
    upper? extended least = fun cs =>
      (skip? extended (most cs).2).bind fun ds =>
        match ds with
        | '}' :: after => some ((least, (most cs).1), after)
        | _ => none := by
  funext cs
  rw [upper?, close?_eq]

theorem second?_eq (extended : Bool) (least : Nat) :
    second? extended least = fun cs =>
      match cs with
      | '}' :: after => some ((least, some least), after)
      | ',' :: third => (skip? extended third).bind (upper? extended least)
      | _ => none := by
  funext cs
  rw [second?, close?_eq]
  split <;> split <;> simp_all [List.head?_eq_some_iff]

theorem bounds?_eq (extended : Bool) (cs : List Char) :
    bounds? extended cs = (skip? extended cs).bind fun first =>
      (least? first).bind fun found => (skip? extended found.2).bind (second? extended found.1) := by
  refine congrArg ((skip? extended cs).bind ·) (funext fun first => ?_)
  simp only [second?_eq, upper?_eq]
  unfold least?
  split
  · rfl
  · rfl

/-- Texts in which no comment is left open where blanks may be skipped, and which have such texts
behind their digits and commas. -/
structure Legible (extended : Bool) (good : List Char → Prop) : Prop where
  skips : ∀ cs, good cs → ∃ ds, skip? extended cs = some ds ∧ good ds
  tail : ∀ c cs, good (c :: cs) → c.isDigit = true ∨ c = ',' → good cs

section
variable {extended : Bool} {rest : List Char} {good : List Char → Prop}

theorem Legible.dropWhile (h : Legible extended good) {cs : List Char} (hcs : good cs) :
    good (cs.dropWhile Char.isDigit) := by
  induction cs with
  | nil => exact hcs
  | cons c cs ih =>
    rw [List.dropWhile_cons]
    split
    · rename_i hdigit
      exact ih (h.tail c cs hcs (.inl hdigit))
    · exact hcs

theorem Legible.decimal? (h : Legible extended good) {cs ds : List Char} {n : Nat} (hcs : good cs)
    (hdecimal : Text.decimal? cs = some (n, ds)) : good ds := by
  unfold Text.decimal? at hdecimal
  dsimp only at hdecimal
  split at hdecimal
  · obtain rfl := (Prod.mk.inj (Option.some.inj hdecimal)).2
    exact h.dropWhile hcs
  · cases hdecimal

def behind (rest : List Char) (found : (Nat × Option Nat) × List Char) :
    (Nat × Option Nat) × List Char := (found.1, found.2 ++ rest)

theorem Prolongs.tail {cs cs' : List Char} {c : Char} (h : Prolongs rest cs cs')
    (hhead : cs.head? = some c) : cs'.tail = cs.tail ++ rest := by
  rcases h with rfl | ⟨rfl, rfl⟩
  · obtain ⟨more, rfl⟩ := List.head?_eq_some_iff.mp hhead
    rfl
  · cases hhead

theorem close?_prolongs (hrest : Firm extended rest) (range : Nat × Option Nat) {cs cs' : List Char}
    (h : Prolongs rest cs cs') : close? range cs' = (close? range cs).map (behind rest) := by
  have hiff := h.head? hrest (by decide : '}' ∉ firmChars)
  unfold close?
  by_cases hhead : cs.head? = some '}'
  · rw [if_pos hhead, if_pos (hiff.mpr hhead), Prolongs.tail h hhead]
    rfl
  · rw [if_neg hhead, if_neg fun hhead' => hhead (hiff.mp hhead')]
    rfl

/-- A skip that is known not to come to nothing, since either the text is good or what follows the
skip has a result. -/
theorem skip?_prolongs (hlegible : Legible extended good) (hrest : Firm extended rest)
    {next next' : List Char → Option ((Nat × Option Nat) × List Char)} {cs cs' : List Char}
    (h : Prolongs rest cs cs') (hcs : good cs ∨ (skip? extended cs).bind next ≠ none)
    (hnext : ∀ ds ds', Prolongs rest ds ds' → good ds ∨ next ds ≠ none →
      next' ds' = (next ds).map (behind rest)) :
    (skip? extended cs').bind next' = ((skip? extended cs).bind next).map (behind rest) := by
  have hskip : ∃ ds, skip? extended cs = some ds ∧ (good ds ∨ next ds ≠ none) := by
    rcases hcs with hcs | hcs
    · obtain ⟨ds, hds, hgood⟩ := hlegible.skips cs hcs
      exact ⟨ds, hds, .inl hgood⟩
    · cases hds : skip? extended cs with
      | none => simp [hds] at hcs
      | some ds => exact ⟨ds, rfl, .inr (by simpa [hds] using hcs)⟩
  obtain ⟨ds, hds, hgood⟩ := hskip
  obtain ⟨ds', hds', hprolongs⟩ := h.skip? hrest hds
  rw [hds, hds', Option.bind_some, Option.bind_some]
  exact hnext ds ds' hprolongs hgood

theorem upper?_prolongs (hlegible : Legible extended good) (hrest : Firm extended rest) (least : Nat)
    {cs cs' : List Char} (h : Prolongs rest cs cs')
    (hcs : good cs ∨ upper? extended least cs ≠ none) :
    upper? extended least cs' = (upper? extended least cs).map (behind rest) := by
  have hmost : ∃ ds', most cs' = ((most cs).1, ds') ∧ Prolongs rest (most cs).2 ds' := by
    unfold most
    rcases h.decimal? hrest with ⟨hnone, hnone'⟩ | ⟨n, ds, ds', hds, hds', hprolongs⟩
    · rw [hnone, hnone']
      exact ⟨cs', rfl, h⟩
    · rw [hds, hds']
      exact ⟨ds', rfl, hprolongs⟩
  have hgood : good cs → good (most cs).2 := by
    intro hcs
    unfold most
    split
    · rename_i hdecimal
      exact hlegible.decimal? hcs hdecimal
    · exact hcs
  obtain ⟨ds', heq, hprolongs⟩ := hmost
  unfold upper? at hcs ⊢
  rw [heq]
  exact skip?_prolongs hlegible hrest hprolongs (hcs.imp_left hgood) fun ds ds' hds _ =>
    close?_prolongs hrest _ hds

theorem second?_prolongs (hlegible : Legible extended good) (hrest : Firm extended rest) (least : Nat)
    {cs cs' : List Char} (h : Prolongs rest cs cs')
    (hcs : good cs ∨ second? extended least cs ≠ none) :
    second? extended least cs' = (second? extended least cs).map (behind rest) := by
  have hiff := h.head? hrest (by decide : ',' ∉ firmChars)
  unfold second? at hcs ⊢
  by_cases hhead : cs.head? = some ','
  · have hgood : good cs → good cs.tail := by
      obtain ⟨more, rfl⟩ := List.head?_eq_some_iff.mp hhead
      exact fun hcs => hlegible.tail ',' more hcs (.inr rfl)
    rw [if_pos hhead] at hcs ⊢
    rw [if_pos (hiff.mpr hhead)]
    exact skip?_prolongs hlegible hrest (.inl (Prolongs.tail h hhead)) (hcs.imp_left hgood)
      fun ds ds' hds hgood => upper?_prolongs hlegible hrest least hds hgood
  · rw [if_neg hhead, if_neg fun hhead' => hhead (hiff.mp hhead')]
    exact close?_prolongs hrest _ h

theorem bounds?_append_of_legible (hlegible : Legible extended good) (hrest : Firm extended rest)
    {cs : List Char} (hcs : good cs ∨ bounds? extended cs ≠ none) :
    bounds? extended (cs ++ rest) = (bounds? extended cs).map (behind rest) := by
  rw [bounds?_eq, bounds?_eq] at *
  refine skip?_prolongs hlegible hrest (.inl rfl) hcs fun first first' hfirst hgood => ?_
  have hiff := hfirst.head? hrest (by decide : ',' ∉ firmChars)
  have hleast : (least? first = none ∧ least? first' = none) ∨ ∃ n ds ds',
      least? first = some (n, ds) ∧ least? first' = some (n, ds') ∧ Prolongs rest ds ds' ∧
        (good first → good ds) := by
    unfold least?
    by_cases hhead : first.head? = some ','
    · rw [if_pos hhead, if_pos (hiff.mpr hhead)]
      exact .inr ⟨0, first, first', rfl, rfl, hfirst, id⟩
    · rw [if_neg hhead, if_neg fun hhead' => hhead (hiff.mp hhead')]
      rcases hfirst.decimal? hrest with hnone | ⟨n, ds, ds', hds, hds', hprolongs⟩
      · exact .inl hnone
      · exact .inr ⟨n, ds, ds', hds, hds', hprolongs, fun hgood => hlegible.decimal? hgood hds⟩
  rcases hleast with ⟨hnone, hnone'⟩ | ⟨n, ds, ds', hds, hds', hprolongs, hnext⟩
  · rw [hnone, hnone']
    rfl
  · rw [hds] at hgood ⊢
    rw [hds', Option.bind_some, Option.bind_some]
    exact skip?_prolongs hlegible hrest hprolongs (hgood.imp_left hnext) fun ds ds' hds hgood =>
      second?_prolongs hlegible hrest n hds hgood

theorem bounds?_append_of_some (hrest : Firm extended rest) {cs : List Char}
    {found : (Nat × Option Nat) × List Char} (h : bounds? extended cs = some found) :
    bounds? extended (cs ++ rest) = some (found.1, found.2 ++ rest) := by
  have hlegible : Legible extended fun _ => False := ⟨fun _ h => h.elim, fun _ _ h _ => h⟩
  rw [bounds?_append_of_legible hlegible hrest (.inr (by simp [h])), h]
  rfl

theorem skip?_suffix {cs ds : List Char} (h : skip? extended cs = some ds) : ds <:+ cs := by
  obtain ⟨n, -, rfl⟩ := Option.map_eq_some_iff.mp h
  exact List.drop_suffix n cs

theorem decimal?_suffix {cs ds : List Char} {n : Nat} (h : Text.decimal? cs = some (n, ds)) :
    ds <:+ cs := by
  unfold Text.decimal? at h
  dsimp only at h
  split at h
  · obtain rfl := (Prod.mk.inj (Option.some.inj h)).2
    exact List.dropWhile_suffix _
  · cases h

theorem least?_suffix {cs ds : List Char} {n : Nat} (h : least? cs = some (n, ds)) : ds <:+ cs := by
  unfold least? at h
  split at h
  · obtain rfl := (Prod.mk.inj (Option.some.inj h)).2
    exact List.suffix_refl cs
  · exact decimal?_suffix h

theorem close?_suffix {range : Nat × Option Nat} {cs : List Char}
    {found : (Nat × Option Nat) × List Char} (h : close? range cs = some found) :
    found.2 <:+ cs := by
  unfold close? at h
  split at h
  · obtain rfl := Option.some.inj h
    exact List.tail_suffix cs
  · cases h

theorem most_suffix (cs : List Char) : (most cs).2 <:+ cs := by
  unfold most
  split
  · rename_i hdecimal
    exact decimal?_suffix hdecimal
  · exact List.suffix_refl cs

theorem second?_suffix {least : Nat} {cs : List Char} {found : (Nat × Option Nat) × List Char}
    (h : second? extended least cs = some found) : found.2 <:+ cs := by
  unfold second? at h
  split at h
  · obtain ⟨ds, hds, hupper⟩ := Option.bind_eq_some_iff.mp h
    obtain ⟨ds', hds', hclose⟩ := Option.bind_eq_some_iff.mp hupper
    exact (close?_suffix hclose).trans ((skip?_suffix hds').trans ((most_suffix ds).trans
      ((skip?_suffix hds).trans (List.tail_suffix cs))))
  · exact close?_suffix h

theorem bounds?_suffix {cs : List Char} {found : (Nat × Option Nat) × List Char}
    (h : bounds? extended cs = some found) : found.2 <:+ cs := by
  rw [bounds?_eq] at h
  obtain ⟨first, hfirst, h⟩ := Option.bind_eq_some_iff.mp h
  obtain ⟨⟨least, second⟩, hleast, h⟩ := Option.bind_eq_some_iff.mp h
  obtain ⟨third, hthird, hsecond⟩ := Option.bind_eq_some_iff.mp h
  exact (second?_suffix hsecond).trans ((skip?_suffix hthird).trans
    ((least?_suffix hleast).trans (skip?_suffix hfirst)))

end

end Bounds
end PhrasePattern.Regex
