import PhrasePattern.Dict
import PhrasePattern.Proofs.GroupTable

/-! What is true of every table that binding leads to. Symbols are distinct and so are the names of
groups; a name is an identifier, and it is the symbol itself or a name with a number. The search for
a name with a number ends, because at most as many numbers are taken as the table has entries. A
dictionary that is filled beside the table finds the same groups as the table. -/
namespace PhrasePattern.GroupTable

theorem isIdentifier_generatedName (n : Nat) : isIdentifier (generatedName n) = true := by
  have hchars := isNameChar_generatedName n
  have hlist : (generatedName n).toList = '_' :: ("natex".toList ++ n.repr.toList) := by
    rw [generatedName, String.toList_append]
    rfl
  rw [hlist] at hchars
  unfold isIdentifier
  rw [hlist]
  simp only [beq_self_eq_true, Bool.or_true, Bool.true_and, List.all_eq_true]
  exact fun c hc => hchars c (List.mem_cons_of_mem _ hc)

/-- Of the names with a number from `n` on, the one `k` places further is the first that is free. -/
structure IsFirstFree (table : GroupTable) (n k : Nat) : Prop where
  free : table.isTaken (generatedName (n + k)) = false
  taken : ∀ j < k, table.isTaken (generatedName (n + j)) = true

theorem exists_freshName_eq (table : GroupTable) (n tries : Nat) :
    ∃ k ≤ tries, table.freshName n tries = generatedName (n + k) ∧
      ∀ j < k, table.isTaken (generatedName (n + j)) = true := by
  induction tries generalizing n with
  | zero => exact ⟨0, Nat.le_refl 0, rfl, fun j hj => absurd hj (Nat.not_lt_zero j)⟩
  | succ tries ih =>
    rw [freshName]
    split
    · rename_i htaken
      obtain ⟨k, hk, hname, hbefore⟩ := ih (n + 1)
      refine ⟨k + 1, Nat.succ_le_succ hk, by rw [hname, Nat.add_right_comm n 1 k, Nat.add_assoc], ?_⟩
      intro j hj
      cases j with
      | zero => exact htaken
      | succ j =>
        have hnext := hbefore j (Nat.lt_of_succ_lt_succ hj)
        rwa [Nat.add_right_comm n 1 j] at hnext
    · exact ⟨0, Nat.zero_le _, rfl, fun j hj => absurd hj (Nat.not_lt_zero j)⟩

/-- The search ends after as many steps as there are entries, with the first free name. -/
theorem exists_isFirstFree (table : GroupTable) (n : Nat) :
    ∃ k ≤ table.entries.length, table.IsFirstFree n k ∧
      table.freshName n table.entries.length = generatedName (n + k) := by
  obtain ⟨k, hk, hname, hbefore⟩ := table.exists_freshName_eq n table.entries.length
  -- the names tried are distinct and one more than there are entries, so one of them is free
  have hfree := table.freshName_not_mem_names n
  rw [hname, ← isTaken_eq_true_iff, Bool.not_eq_true] at hfree
  exact ⟨k, hk, ⟨hfree, hbefore⟩, hname⟩

/-- A symbol gives its own name to its group if it can, and else the group gets a number. -/
theorem newName_cases (table : GroupTable) (symbol : String) :
    isIdentifier symbol = true ∧ symbol ∉ table.names ∧ table.newName symbol = symbol ∨
      (isIdentifier symbol = true → symbol ∈ table.names) ∧
        ∃ n, table.newName symbol = generatedName n := by
  unfold newName
  split
  · rename_i h
    rw [Bool.and_eq_true, Bool.not_eq_true'] at h
    refine .inl ⟨h.1, fun hmem => ?_, rfl⟩
    rw [isTaken_eq_true_iff.mpr hmem] at h
    cases h.2
  · rename_i h
    obtain ⟨k, -, -, hname⟩ := table.exists_isFirstFree table.entries.length
    refine .inr ⟨fun hidentifier => ?_, _, hname⟩
    rw [hidentifier, Bool.true_and, Bool.not_eq_true', Bool.not_eq_false] at h
    exact isTaken_eq_true_iff.mp h

theorem isIdentifier_newName (table : GroupTable) (symbol : String) :
    isIdentifier (table.newName symbol) = true := by
  rcases table.newName_cases symbol with ⟨hidentifier, -, hname⟩ | ⟨-, n, hname⟩
  · rw [hname]
    exact hidentifier
  · rw [hname]
    exact isIdentifier_generatedName n

/-- What binding keeps up. -/
structure Coherent (table : GroupTable) : Prop extends table.HasNames where
  symbols : (table.entries.map (·.2)).Nodup
  identifiers : ∀ group ∈ table.names, isIdentifier group = true
  origin : ∀ entry ∈ table.entries, entry.1 = entry.2 ∨ ∃ n, entry.1 = generatedName n
  own : ∀ entry ∈ table.entries, isIdentifier entry.2 = true →
    (∀ n, entry.2 ≠ generatedName n) → entry.1 = entry.2

theorem coherent_empty : empty.Coherent where
  toHasNames := hasNames_empty
  symbols := List.nodup_nil
  identifiers := by simp [names, empty]
  origin := by simp [empty]
  own := by simp [empty]

section
variable {table : GroupTable} {symbol group : String}

/-- Only a symbol that looks like a name with a number can find its own name taken. -/
theorem Coherent.newName_eq (h : table.Coherent) (hfree : table.group? symbol = none)
    (hidentifier : isIdentifier symbol = true) (hsymbol : ∀ n, symbol ≠ generatedName n) :
    table.newName symbol = symbol := by
  rcases table.newName_cases symbol with ⟨-, -, hname⟩ | ⟨htaken, -⟩
  · exact hname
  · obtain ⟨entry, hentry, rfl⟩ := List.mem_map.mp (htaken hidentifier)
    rcases h.origin entry hentry with hown | ⟨n, hn⟩
    · rw [hown, group?_eq_none_iff] at hfree
      exact absurd (List.mem_map_of_mem hentry) hfree
    · exact absurd hn (hsymbol n)

theorem Coherent.bind (h : table.Coherent) (symbol : String) : (table.bind symbol).2.Coherent := by
  cases hgroup : table.group? symbol with
  | some group =>
    rw [bind_of_group? hgroup]
    exact h
  | none =>
    have hentries : ∀ entry ∈ (table.bind symbol).2.entries,
        entry ∈ table.entries ∨ entry = (table.newName symbol, symbol) := by
      intro entry hentry
      rw [bind_of_group?_none hgroup, List.mem_append, List.mem_singleton] at hentry
      exact hentry
    refine ⟨h.toHasNames.bind symbol, ?_, ?_, ?_, ?_⟩
    · rw [bind_of_group?_none hgroup, List.map_append, List.map_singleton]
      exact List.nodup_append.mpr ⟨h.symbols, List.nodup_singleton _, fun other hother last hlast => by
        rw [List.mem_singleton.mp hlast]
        rintro rfl
        exact group?_eq_none_iff.mp hgroup hother⟩
    · rw [names_bind_of_group?_none hgroup]
      intro group hmem
      rcases List.mem_append.mp hmem with hmem | hmem
      · exact h.identifiers group hmem
      · rw [List.mem_singleton.mp hmem]
        exact table.isIdentifier_newName symbol
    · intro entry hentry
      rcases hentries entry hentry with hentry | rfl
      · exact h.origin entry hentry
      · rcases table.newName_cases symbol with ⟨-, -, hname⟩ | ⟨-, n, hname⟩
        · exact .inl hname
        · exact .inr ⟨n, hname⟩
    · intro entry hentry hidentifier hsymbol
      rcases hentries entry hentry with hentry | rfl
      · exact h.own entry hentry hidentifier hsymbol
      · exact h.newName_eq hgroup hidentifier hsymbol

theorem Coherent.bindAll (h : table.Coherent) (symbols : List String) :
    (table.bindAll symbols).Coherent := by
  induction symbols generalizing table with
  | nil => exact h
  | cons symbol symbols ih => exact ih (h.bind symbol)

theorem Coherent.group?_eq_some_iff (h : table.Coherent) :
    table.group? symbol = some group ↔ (group, symbol) ∈ table.entries := by
  constructor
  · intro hgroup
    obtain ⟨entry, hentry, rfl⟩ := Option.map_eq_some_iff.mp hgroup
    have hsymbol : entry.2 = symbol := by simpa using List.find?_some hentry
    rw [← hsymbol]
    exact List.mem_of_find?_eq_some hentry
  · intro hmem
    cases hfind : table.entries.find? (·.2 == symbol) with
    | none => exact absurd (beq_self_eq_true symbol) (List.find?_eq_none.mp hfind _ hmem)
    | some entry =>
      have hsymbol : entry.2 = symbol := by simpa using List.find?_some hfind
      have hsame : entry = (group, symbol) :=
        List.inj_on_of_nodup_map h.symbols (List.mem_of_find?_eq_some hfind) hmem hsymbol
      rw [group?, hfind, hsame]
      rfl

theorem Coherent.bind_fst (h : table.Coherent) (hidentifier : isIdentifier symbol = true)
    (hsymbol : ∀ n, symbol ≠ generatedName n) : (table.bind symbol).1 = symbol := by
  cases hgroup : table.group? symbol with
  | some group =>
    rw [bind_of_group? hgroup]
    exact h.own _ (h.group?_eq_some_iff.mp hgroup) hidentifier hsymbol
  | none =>
    rw [bind_of_group?_none hgroup]
    exact h.newName_eq hgroup hidentifier hsymbol

end

theorem entries_prefix_bind (table : GroupTable) (symbol : String) :
    table.entries <+: (table.bind symbol).2.entries := by
  cases hgroup : table.group? symbol with
  | some group => simp only [bind_of_group? hgroup, List.prefix_refl]
  | none =>
    rw [bind_of_group?_none hgroup]
    exact List.prefix_append _ _

theorem entries_prefix_bindAll (table : GroupTable) (symbols : List String) :
    table.entries <+: (table.bindAll symbols).entries := by
  induction symbols generalizing table with
  | nil => exact List.prefix_refl _
  | cons symbol symbols ih => exact (table.entries_prefix_bind symbol).trans (ih _)

/-- A table with a dictionary beside it, in which the group of a symbol is looked up. -/
structure Indexed where
  bound : Dict String
  table : GroupTable

namespace Indexed

def empty : Indexed := ⟨.empty, .empty⟩

/-- Binding that asks the dictionary, and writes what is new both there and at the end of the table. -/
def bind (s : Indexed) (symbol : String) : String × Indexed :=
  match s.bound.get? symbol with
  | some group => (group, s)
  | none =>
    let group := s.table.newName symbol
    (group, ⟨s.bound.insert symbol group, ⟨s.table.entries ++ [(group, symbol)]⟩⟩)

def bindAll (s : Indexed) (symbols : List String) : Indexed :=
  symbols.foldl (fun s symbol => (s.bind symbol).2) s

def Agrees (s : Indexed) : Prop := ∀ symbol, s.bound.get? symbol = s.table.group? symbol

theorem agrees_empty : empty.Agrees := fun _ => rfl

theorem group?_concat {table : GroupTable} {symbol group : String} (h : table.group? symbol = none)
    (other : String) : (⟨table.entries ++ [(group, symbol)]⟩ : GroupTable).group? other =
      if other = symbol then some group else table.group? other := by
  by_cases hother : other = symbol
  · have hfind : table.entries.find? (·.2 == symbol) = none := Option.map_eq_none_iff.mp h
    rw [if_pos hother, hother, group?, List.find?_append, hfind]
    simp
  · have hlast : [(group, symbol)].find? (·.2 == other) = none := by
      simpa using Ne.symm hother
    rw [if_neg hother, group?, List.find?_append, hlast, Option.or_none]
    rfl

theorem Agrees.bind {s : Indexed} (h : s.Agrees) (symbol : String) :
    (s.bind symbol).2.Agrees ∧ (s.bind symbol).1 = (s.table.bind symbol).1 ∧
      (s.bind symbol).2.table = (s.table.bind symbol).2 := by
  unfold Indexed.bind
  rw [h symbol]
  cases hgroup : s.table.group? symbol with
  | some group =>
    rw [bind_of_group? hgroup]
    exact ⟨h, rfl, rfl⟩
  | none =>
    rw [bind_of_group?_none hgroup]
    refine ⟨fun other => ?_, rfl, rfl⟩
    rw [Dict.get?_insert, group?_concat hgroup, h other]

theorem Agrees.bindAll {s : Indexed} (h : s.Agrees) (symbols : List String) :
    (s.bindAll symbols).Agrees ∧ (s.bindAll symbols).table = s.table.bindAll symbols := by
  induction symbols generalizing s with
  | nil => exact ⟨h, rfl⟩
  | cons symbol symbols ih =>
    obtain ⟨hagrees, -, htable⟩ := h.bind symbol
    obtain ⟨hall, htables⟩ := ih hagrees
    exact ⟨hall, by rw [GroupTable.bindAll_cons, ← htable]; exact htables⟩

end Indexed

/-- Whatever symbols are bound one after the other: the dictionary and the table hold the same pairs;
no symbol and no name occurs twice; all names are identifiers; the search for a name with a number
ends, after as many steps as there are entries at most, at the first free one; binding a bound symbol
gives its group and changes nothing; entries stay what and where they are; and an identifier that is
not itself a name with a number becomes the name of its own group. -/
theorem bindAll_invariant (symbols : List String) :
    ((Indexed.empty.bindAll symbols).table = empty.bindAll symbols ∧
      ∀ symbol group, ((Indexed.empty.bindAll symbols).bound.get? symbol = some group ↔
          (group, symbol) ∈ (empty.bindAll symbols).entries) ∧
        ((empty.bindAll symbols).group? symbol = some group ↔
          (group, symbol) ∈ (empty.bindAll symbols).entries)) ∧
    ((empty.bindAll symbols).entries.map (·.2)).Nodup ∧
    ((empty.bindAll symbols).entries.map (·.1)).Nodup ∧
    (∀ entry ∈ (empty.bindAll symbols).entries, isIdentifier entry.1 = true) ∧
    (∀ n, ∃ k ≤ (empty.bindAll symbols).entries.length,
      (empty.bindAll symbols).IsFirstFree n k ∧
        (empty.bindAll symbols).freshName n (empty.bindAll symbols).entries.length =
          generatedName (n + k)) ∧
    (∀ symbol group, (empty.bindAll symbols).group? symbol = some group →
      (empty.bindAll symbols).bind symbol = (group, empty.bindAll symbols)) ∧
    (∀ later, (empty.bindAll symbols).entries <+: (empty.bindAll (symbols ++ later)).entries) ∧
    ∀ symbol, isIdentifier symbol = true → (∀ n, symbol ≠ generatedName n) →
      ((empty.bindAll symbols).bind symbol).1 = symbol ∧
        ∀ group, (empty.bindAll symbols).group? symbol = some group → group = symbol := by
  have h := coherent_empty.bindAll symbols
  obtain ⟨hagrees, htable⟩ := Indexed.agrees_empty.bindAll symbols
  have hbound := fun symbol => (hagrees symbol).trans (congrArg (·.group? symbol) htable)
  refine ⟨⟨htable, fun symbol group => ⟨?_, h.group?_eq_some_iff⟩⟩, h.symbols, h.nodup, ?_, ?_, ?_, ?_,
    ?_⟩
  · rw [hbound symbol]
    exact h.group?_eq_some_iff
  · intro entry hentry
    exact h.identifiers entry.1 (List.mem_map_of_mem hentry)
  · exact exists_isFirstFree _
  · intro symbol group hgroup
    exact bind_of_group? hgroup
  · intro later
    rw [bindAll_append]
    exact entries_prefix_bindAll _ later
  · intro symbol hidentifier hsymbol
    exact ⟨h.bind_fst hidentifier hsymbol,
      fun group hgroup => h.own _ (h.group?_eq_some_iff.mp hgroup) hidentifier hsymbol⟩

/-- A symbol that looks like a name with a number makes the search go on. -/
example : (empty.bindAll ["_natex1", "a.b", "b.c"]).entries =
    [("_natex1", "_natex1"), ("_natex2", "a.b"), ("_natex3", "b.c")] := by decide

end PhrasePattern.GroupTable
