import PhrasePattern.Proofs.Regex.Pasting

/-! How deep the groups of a text are. Every sign that opens a group begins with a parenthesis, so there are
never more groups open at once than there are opening parentheses in the text. -/
namespace PhrasePattern.Regex

namespace Sign

/-- The number of groups that the sign opens, of those that count. -/
def rise (s : Sign) : Nat := if s.isGroup then 1 else 0

end Sign

namespace Reader

theorem nesting_closeGroup {r r' : Reader} (h : r.closeGroup = some r') :
    r'.deepest = r.deepest ∧ r'.level ≤ r.level := by
  obtain ⟨opener, outside, enclosing, node, flags, hopen, rfl⟩ := exists_of_closeGroup h
  refine ⟨rfl, ?_⟩
  rw [level, level, hopen, List.countP_cons]
  exact Nat.le_add_right ..

theorem level_enter (r : Reader) (opener : Opener) :
    (r.enter opener).level = r.level + if opener.counts then 1 else 0 := by
  rw [level, level, enter, List.countP_cons]

theorem level_enter_le (r : Reader) (opener : Opener) : (r.enter opener).level ≤ r.level + 1 := by
  rw [level_enter]
  split <;> omega

variable [Engine]

theorem nesting_obey {r r' : Reader} {s : Sign} (h : r.obey s = some r') :
    r'.deepest = r.deepest ∧ r'.level ≤ r.level + s.rise := by
  cases s with
  | closing => exact nesting_closeGroup h
  | enter opener =>
    obtain rfl := Option.some.inj h
    exact ⟨rfl, level_enter_le r opener⟩
  | ask =>
    obtain rfl := Option.some.inj h
    rw [level_enter, level_enter]
    exact ⟨rfl, Nat.le_refl _⟩
  | test ref =>
    obtain ⟨group, -, rfl⟩ := Option.map_eq_some_iff.mp h
    refine ⟨rfl, ?_⟩
    exact level_enter_le (r.note ref) .choice
  | capture name? =>
    cases name? <;>
    · obtain rfl := Option.some.inj h
      exact ⟨rfl, level_enter_le r _⟩
  | flags change opens =>
    obtain ⟨flags, -, rfl⟩ := Option.map_eq_some_iff.mp h
    cases opens with
    | true => exact ⟨rfl, level_enter_le r _⟩
    | false => exact ⟨rfl, Nat.le_add_right ..⟩
  | sameAs name =>
    obtain ⟨group, -, rfl⟩ := Option.map_eq_some_iff.mp h
    exact ⟨rfl, Nat.le_add_right ..⟩
  | charClass set =>
    obtain ⟨chars, -, rfl⟩ := Option.map_eq_some_iff.mp h
    exact ⟨rfl, Nat.le_refl _⟩
  | escaped e =>
    cases e with
    | group _ | property _ =>
      obtain ⟨_, -, rfl⟩ := Option.map_eq_some_iff.mp h
      exact ⟨rfl, Nat.le_refl _⟩
    | _ =>
      obtain rfl := Option.some.inj h
      exact ⟨rfl, Nat.le_refl _⟩
  | quantifier least most? isLazy isPossessive =>
    obtain ⟨piece, -, -, rfl⟩ := exists_of_repeatLast h
    exact ⟨rfl, Nat.le_refl _⟩
  | _ =>
    obtain rfl := Option.some.inj h
    exact ⟨rfl, Nat.le_refl _⟩

theorem nesting_follow {r r' : Reader} {s : Sign} (h : r.follow s = some r') :
    r'.deepest ≤ max r.deepest (r.level + s.rise) ∧ r'.level ≤ r.level + s.rise := by
  unfold follow at h
  split at h
  · rename_i hgroup
    obtain ⟨hdeepest, hlevel⟩ := nesting_obey h
    rw [hdeepest, Sign.rise, if_pos hgroup]
    rw [Sign.rise, if_pos hgroup] at hlevel
    exact ⟨Nat.le_refl _, hlevel⟩
  · obtain ⟨hdeepest, hlevel⟩ := nesting_obey h
    exact ⟨hdeepest ▸ Nat.le_max_left .., hlevel⟩

theorem rise_le_count {extended repeatable : Bool} {c : Char} {rest : List Char} {s : Sign} {n : Nat}
    (h : sign? extended repeatable c rest = some (s, n)) : s.rise ≤ [c].count '(' := by
  unfold Sign.rise
  split
  · rename_i hgroup
    rw [isGroup_of_sign? h hgroup]
    decide
  · exact Nat.zero_le _

theorem deepest_run {r z : Reader} {skip : Nat} {text : List Char} (h : r.run skip text = some z) :
    z.deepest ≤ max r.deepest (r.level + text.count '(') := by
  induction text generalizing r skip with
  | nil =>
    obtain rfl : r = z := by cases skip <;> exact Option.some.inj h
    exact Nat.le_max_left ..
  | cons c rest ih =>
    have hcount : (c :: rest).count '(' = rest.count '(' + [c].count '(' := by
      rw [List.count_cons, List.count_singleton]
    cases skip with
    | succ skip =>
      have hrest := ih h
      omega
    | zero =>
      obtain ⟨s, n, next, hsign, hfollow, hnext⟩ := exists_sign_of_run h
      have hrest := ih hnext
      have hrise := rise_le_count hsign
      obtain ⟨hdeepest, hlevel⟩ := nesting_follow hfollow
      omega

end Reader

theorem nesting?_le_count [Engine] {source : String} {n : Nat} (h : nesting? source = some n) :
    n ≤ source.toList.count '(' := by
  obtain ⟨r, hrun, rfl⟩ := Option.map_eq_some_iff.mp h
  have hdeepest := Reader.deepest_run hrun
  have hlevel : ({} : Reader).level = 0 := rfl
  have hnone : ({} : Reader).deepest = 0 := rfl
  omega

end PhrasePattern.Regex
