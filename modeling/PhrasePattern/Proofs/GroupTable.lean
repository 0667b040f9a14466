import Mathlib.Data.List.Nodup
import Mathlib.Data.List.Perm.Subperm
import PhrasePattern.Proofs.Compilation.Binding

/-! The names of groups. Of the names with a number that are tried for a new group, one more than the
table has entries, one is free, so that no two groups of a table have the same name. Names consist of
letters, digits and underscores, whatever the symbols are. -/
namespace PhrasePattern.GroupTable

def isNameChar (c : Char) : Bool := c.isAlphanum || c == '_'

def names (table : GroupTable) : List String := table.entries.map (·.1)

theorem generatedName_inj {n m : Nat} (h : generatedName n = generatedName m) : n = m := by
  have hrepr : n.repr = m.repr := (String.append_right_inj "_natex").mp h
  have hdigits := congrArg String.toList hrepr
  rw [Nat.toList_repr, Nat.toList_repr] at hdigits
  calc
    n = Nat.ofDigitChars 10 (Nat.toDigits 10 n) 0 := Nat.ofDigitChars_ten_toDigits.symm
    _ = Nat.ofDigitChars 10 (Nat.toDigits 10 m) 0 := by rw [hdigits]
    _ = m := Nat.ofDigitChars_ten_toDigits

theorem isTaken_eq_true_iff {table : GroupTable} {group : String} :
    table.isTaken group = true ↔ group ∈ table.names := by
  simp only [isTaken, names, List.any_eq_true, beq_iff_eq, List.mem_map]

theorem isTaken_of_isTaken_freshName {table : GroupTable} {n tries : Nat}
    (h : table.isTaken (table.freshName n tries) = true) {k : Nat} (hk : k ≤ tries) :
    table.isTaken (generatedName (n + k)) = true := by
  induction tries generalizing n k with
  | zero =>
    obtain rfl : k = 0 := Nat.le_zero.mp hk
    exact h
  | succ tries ih =>
    rw [freshName] at h
    split at h
    · rename_i htaken
      cases k with
      | zero => exact htaken
      | succ k =>
        have hnext := ih h (Nat.le_of_succ_le_succ hk)
        rwa [Nat.add_right_comm] at hnext
    · rename_i hfree
      exact absurd h hfree

theorem freshName_not_mem_names (table : GroupTable) (n : Nat) :
    table.freshName n table.entries.length ∉ table.names := by
  intro hmem
  have htaken := isTaken_eq_true_iff.mpr hmem
  let tried := (List.range (table.entries.length + 1)).map fun k => generatedName (n + k)
  have hnodup : tried.Nodup := by
    refine List.Nodup.map (fun k l hkl => ?_) List.nodup_range
    have heq := generatedName_inj hkl
    omega
  have hsubset : tried ⊆ table.names := by
    intro name hname
    obtain ⟨k, hk, rfl⟩ := List.mem_map.mp hname
    have hle : k ≤ table.entries.length := Nat.lt_succ_iff.mp (List.mem_range.mp hk)
    exact isTaken_eq_true_iff.mp (isTaken_of_isTaken_freshName htaken hle)
  have hlength := (hnodup.subperm hsubset).length_le
  simp only [tried, names, List.length_map, List.length_range] at hlength
  omega

theorem newName_not_mem_names (table : GroupTable) (symbol : String) :
    table.newName symbol ∉ table.names := by
  unfold newName
  split
  · rename_i h
    simp only [Bool.and_eq_true, Bool.not_eq_true'] at h
    intro hmem
    rw [isTaken_eq_true_iff.mpr hmem] at h
    cases h.2
  · exact freshName_not_mem_names table _

theorem isNameChar_of_isIdentifier {symbol : String} (h : isIdentifier symbol = true) :
    ∀ c ∈ symbol.toList, isNameChar c = true := by
  unfold isIdentifier at h
  split at h
  · cases h
  · rename_i first rest heq
    rw [Bool.and_eq_true, List.all_eq_true] at h
    intro c hc
    rw [heq] at hc
    rcases List.mem_cons.mp hc with rfl | hc
    · have hfirst := h.1
      simp only [isNameChar, Char.isAlphanum]
      grind
    · exact h.2 c hc

theorem isNameChar_generatedName (n : Nat) :
    ∀ c ∈ (generatedName n).toList, isNameChar c = true := by
  intro c hc
  rw [generatedName, String.toList_append, List.mem_append] at hc
  rcases hc with hc | hc
  · have hall : "_natex".toList.all isNameChar = true := by decide
    exact List.all_eq_true.mp hall c hc
  · have hdigit : c.isDigit = true := by
      refine Nat.isDigit_of_mem_toDigits (by decide) (Nat.le_refl 10) (n := n) ?_
      rw [← Nat.toList_repr]
      exact hc
    simp [isNameChar, Char.isAlphanum, hdigit]

theorem isNameChar_freshName (table : GroupTable) (n tries : Nat) :
    ∀ c ∈ (table.freshName n tries).toList, isNameChar c = true := by
  induction tries generalizing n with
  | zero => exact isNameChar_generatedName n
  | succ tries ih =>
    rw [freshName]
    split
    · exact ih (n + 1)
    · exact isNameChar_generatedName n

theorem isNameChar_newName (table : GroupTable) (symbol : String) :
    ∀ c ∈ (table.newName symbol).toList, isNameChar c = true := by
  unfold newName
  split
  · rename_i h
    rw [Bool.and_eq_true] at h
    exact isNameChar_of_isIdentifier h.1
  · exact isNameChar_freshName table _ _

/-- No two groups have one name, and every name is made of characters that names may have. -/
structure HasNames (table : GroupTable) : Prop where
  nodup : table.names.Nodup
  chars : ∀ group ∈ table.names, ∀ c ∈ group.toList, isNameChar c = true

theorem hasNames_empty : empty.HasNames := ⟨List.nodup_nil, by simp [names, empty]⟩

theorem names_bind_of_group?_none {table : GroupTable} {symbol : String}
    (h : table.group? symbol = none) :
    (table.bind symbol).2.names = table.names ++ [table.newName symbol] := by
  rw [bind_of_group?_none h, names, List.map_append]
  rfl

theorem HasNames.bind {table : GroupTable} (h : table.HasNames) (symbol : String) :
    (table.bind symbol).2.HasNames := by
  cases hgroup : table.group? symbol with
  | some group =>
    rw [bind_of_group? hgroup]
    exact h
  | none =>
    constructor
    · rw [names_bind_of_group?_none hgroup]
      refine List.nodup_append.mpr ⟨h.nodup, by simp, ?_⟩
      rintro group hmem other hother rfl
      rw [List.mem_singleton.mp hother] at hmem
      exact newName_not_mem_names table symbol hmem
    · intro group hmem
      rw [names_bind_of_group?_none hgroup, List.mem_append, List.mem_singleton] at hmem
      rcases hmem with hmem | rfl
      · exact h.chars group hmem
      · exact isNameChar_newName table symbol

theorem HasNames.bindAll {table : GroupTable} (h : table.HasNames) (symbols : List String) :
    (table.bindAll symbols).HasNames := by
  induction symbols generalizing table with
  | nil => exact h
  | cons symbol symbols ih => exact ih (h.bind symbol)

theorem names_subset_bind (table : GroupTable) (symbol : String) :
    table.names ⊆ (table.bind symbol).2.names := by
  cases h : table.group? symbol with
  | some group =>
    rw [bind_of_group? h]
    exact List.Subset.refl _
  | none =>
    rw [names_bind_of_group?_none h]
    exact List.subset_append_left _ _

theorem names_subset_bindAll (table : GroupTable) (symbols : List String) :
    table.names ⊆ (table.bindAll symbols).names := by
  induction symbols generalizing table with
  | nil => exact List.Subset.refl _
  | cons symbol symbols ih => exact List.Subset.trans (names_subset_bind table symbol) (ih _)

theorem group?_mem_names {table : GroupTable} {symbol group : String}
    (h : table.group? symbol = some group) : group ∈ table.names := by
  obtain ⟨entry, hentry, rfl⟩ := Option.map_eq_some_iff.mp h
  exact List.mem_map_of_mem (List.mem_of_find?_eq_some hentry)

end PhrasePattern.GroupTable
