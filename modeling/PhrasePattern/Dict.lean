/-! Values under names, kept in the order of the names. A name occurs at most once, so two
dictionaries with the same values under the same names are equal. -/
namespace PhrasePattern

/-- Entries by name, in strictly ascending order. -/
def Ascending {α : Type} (entries : List (String × α)) : Prop :=
  entries.Pairwise fun a b => a.1 < b.1

structure Dict (α : Type) where
  entries : List (String × α)
  ascending : Ascending entries

namespace Dict

variable {α : Type}

def empty : Dict α := ⟨[], .nil⟩

instance : Inhabited (Dict α) := ⟨empty⟩

instance [DecidableEq α] : DecidableEq (Dict α) := fun d e =>
  if h : d.entries = e.entries then
    isTrue (by cases d; cases e; cases h; rfl)
  else isFalse fun he => h (he ▸ rfl)

/-- Put an entry at its place among ordered ones, over any other of the same name. -/
def insertEntry (name : String) (value : α) : List (String × α) → List (String × α)
  | [] => [(name, value)]
  | entry :: others =>
    if name < entry.1 then (name, value) :: entry :: others
    else if name = entry.1 then (name, value) :: others
    else entry :: insertEntry name value others

theorem mem_insertEntry {name : String} {value : α} {entries : List (String × α)}
    {e : String × α} (h : e ∈ insertEntry name value entries) :
    e = (name, value) ∨ e ∈ entries := by
  induction entries with
  | nil => simpa [insertEntry] using h
  | cons entry others ih =>
    unfold insertEntry at h
    split at h
    · simpa using h
    · split at h
      · rcases List.mem_cons.mp h with h | h
        · exact .inl h
        · exact .inr (List.mem_cons_of_mem _ h)
      · rcases List.mem_cons.mp h with h | h
        · exact .inr (h ▸ List.mem_cons_self)
        · exact (ih h).imp_right (List.mem_cons_of_mem _)

theorem ascending_insertEntry (name : String) (value : α) {entries : List (String × α)}
    (h : Ascending entries) : Ascending (insertEntry name value entries) := by
  induction entries with
  | nil => exact List.pairwise_singleton _ _
  | cons entry others ih =>
    have hcons := List.pairwise_cons.mp h
    unfold insertEntry
    split
    · rename_i hlt
      refine List.pairwise_cons.mpr ⟨fun e he => ?_, h⟩
      rcases List.mem_cons.mp he with he | he
      · exact he ▸ hlt
      · exact String.lt_trans hlt (hcons.1 e he)
    · split
      · rename_i heq
        exact List.pairwise_cons.mpr ⟨fun e he => heq ▸ hcons.1 e he, hcons.2⟩
      · rename_i hnot hne
        refine List.pairwise_cons.mpr ⟨fun e he => ?_, ih hcons.2⟩
        rcases mem_insertEntry he with he | he
        · subst he
          have hle : entry.1 ≤ name := String.not_lt.mp hnot
          exact Std.lt_of_le_of_ne hle (Ne.symm hne)
        · exact hcons.1 e he

def insert (d : Dict α) (name : String) (value : α) : Dict α :=
  ⟨insertEntry name value d.entries, ascending_insertEntry name value d.ascending⟩

def get? (d : Dict α) (name : String) : Option α := d.entries.lookup name

def contains (d : Dict α) (name : String) : Bool := (d.get? name).isSome

def erase (d : Dict α) (name : String) : Dict α :=
  ⟨d.entries.filter (·.1 ≠ name), d.ascending.filter _⟩

/-- Later entries go over earlier ones of the same name. -/
def insertAll (d : Dict α) : List (String × α) → Dict α
  | [] => d
  | entry :: others => (d.insert entry.1 entry.2).insertAll others

def ofList (entries : List (String × α)) : Dict α := empty.insertAll entries

/-- The entries of both; where both have a name, the one of `upper`. -/
def overlay (d upper : Dict α) : Dict α := d.insertAll upper.entries

def names (d : Dict α) : List String := d.entries.map (·.1)

def size (d : Dict α) : Nat := d.entries.length

def isEmpty (d : Dict α) : Bool := d.entries.isEmpty

theorem lookup_insertEntry (name : String) (value : α) (entries : List (String × α))
    (other : String) :
    (insertEntry name value entries).lookup other =
      if other = name then some value else entries.lookup other := by
  by_cases h : other = name
  · subst h
    rw [if_pos rfl]
    induction entries with
    | nil => exact List.lookup_cons_self
    | cons entry others ih =>
      obtain ⟨key, old⟩ := entry
      unfold insertEntry
      split
      · exact List.lookup_cons_self
      · split
        · exact List.lookup_cons_self
        · rename_i hne
          have hkey : (other == key) = false := by simpa using hne
          rw [List.lookup_cons, hkey]
          exact ih
  · have hname : (other == name) = false := by simpa using h
    rw [if_neg h]
    induction entries with
    | nil => rw [insertEntry, List.lookup_cons, hname]
    | cons entry others ih =>
      obtain ⟨key, old⟩ := entry
      unfold insertEntry
      split
      · rw [List.lookup_cons, hname]
      · split
        · rename_i heq
          have hkey : name = key := heq
          subst hkey
          rw [List.lookup_cons, List.lookup_cons, hname]
        · rw [List.lookup_cons, List.lookup_cons, ih]

@[simp]
theorem get?_empty (name : String) : (empty : Dict α).get? name = none := rfl

theorem get?_insert (d : Dict α) (name : String) (value : α) (other : String) :
    (d.insert name value).get? other = if other = name then some value else d.get? other :=
  lookup_insertEntry name value d.entries other

theorem get?_erase (d : Dict α) (name other : String) :
    (d.erase name).get? other = if other = name then none else d.get? other := by
  unfold erase get?
  dsimp only
  induction d.entries with
  | nil => simp
  | cons entry others ih =>
    obtain ⟨key, value⟩ := entry
    by_cases hkey : key = name
    · subst hkey
      rw [List.filter_cons_of_neg (by simp), ih, List.lookup_cons]
      by_cases hother : other = key
      · rw [if_pos hother, if_pos hother]
      · rw [if_neg hother, if_neg hother, beq_eq_false_iff_ne.mpr hother]
    · rw [List.filter_cons_of_pos (by simpa using hkey), List.lookup_cons, List.lookup_cons, ih]
      by_cases hother : other = key
      · have hname : other ≠ name := hother ▸ hkey
        rw [beq_iff_eq.mpr hother, if_neg hname, if_neg hname]
      · rw [beq_eq_false_iff_ne.mpr hother]

theorem lookup_eq_none_of_lt {name : String} {entries : List (String × α)}
    (h : ∀ entry ∈ entries, name < entry.1) : entries.lookup name = none := by
  induction entries with
  | nil => rfl
  | cons entry others ih =>
    have hne : name ≠ entry.1 := Std.ne_of_lt (h entry List.mem_cons_self)
    rw [List.lookup_cons, beq_eq_false_iff_ne.mpr hne]
    exact ih fun e he => h e (List.mem_cons_of_mem entry he)

/-- The last entry of a name counts. -/
theorem get?_insertAll (d : Dict α) (entries : List (String × α)) (name : String) :
    (d.insertAll entries).get? name = (entries.reverse.lookup name).or (d.get? name) := by
  induction entries generalizing d with
  | nil => rfl
  | cons entry others ih =>
    rw [insertAll, ih, get?_insert, List.reverse_cons, List.lookup_append, Option.or_assoc,
      List.lookup_cons, List.lookup_nil]
    by_cases hname : name = entry.1
    · rw [if_pos hname, beq_iff_eq.mpr hname]
      rfl
    · rw [if_neg hname, beq_eq_false_iff_ne.mpr hname]
      rfl

theorem lookup_reverse_of_ascending {entries : List (String × α)} (h : Ascending entries)
    (name : String) : entries.reverse.lookup name = entries.lookup name := by
  induction entries with
  | nil => rfl
  | cons entry others ih =>
    obtain ⟨hfirst, hothers⟩ := List.pairwise_cons.mp h
    rw [List.reverse_cons, List.lookup_append, ih hothers, List.lookup_cons, List.lookup_cons,
      List.lookup_nil]
    by_cases hname : name = entry.1
    · rw [hname, lookup_eq_none_of_lt hfirst, beq_self_eq_true]
      rfl
    · rw [beq_eq_false_iff_ne.mpr hname, Option.or_none]

@[simp]
theorem get?_overlay (d upper : Dict α) (name : String) :
    (d.overlay upper).get? name = (upper.get? name).or (d.get? name) := by
  rw [overlay, get?_insertAll, lookup_reverse_of_ascending upper.ascending]
  rfl

theorem mem_of_get?_ofList {entries : List (String × α)} {name : String} {value : α}
    (h : (ofList entries).get? name = some value) : (name, value) ∈ entries := by
  rw [ofList, get?_insertAll, get?_empty, Option.or_none] at h
  obtain ⟨before, after, hsplit, -⟩ := List.lookup_eq_some_iff.mp h
  exact List.mem_reverse.mp (hsplit ▸ List.mem_append_right before List.mem_cons_self)

end Dict

/-- Texts without repetition, in ascending order. -/
abbrev TextSet := Dict Unit

namespace TextSet

def ofList (items : List String) : TextSet := Dict.ofList (items.map (·, ()))

def items (s : TextSet) : List String := s.names

end TextSet
end PhrasePattern
