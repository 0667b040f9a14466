import PhrasePattern.Proofs.Regex.Contour
import PhrasePattern.Proofs.Regex.Pasting

/-! A reading that is carried over to other surroundings. A text that could be read behind some groups
can be read wherever groups of the same names were read before, in whatever flags are set, as long as it
neither counts groups nor makes blanks be skipped. The nodes that come out may differ in their sets and
group numbers, but not in their contour. -/
namespace PhrasePattern.Regex

section
variable [Engine]

/-- What is left of an item of a class if the sets do not matter. -/
def classItemKind (found : (Char ⊕ CharSet) × Nat) : (Char ⊕ Unit) × Nat :=
  (found.1.map id fun _ => (), found.2)

theorem classItem?_kind (caseless caseless' : Bool) (cs : List Char) :
    (classItem? caseless cs).map classItemKind = (classItem? caseless' cs).map classItemKind := by
  unfold classItem?
  split
  · rfl
  · split
    case h_3 => simp [classItemKind, Function.comp_def]
    all_goals rfl
  · rfl

theorem classRange?_kind (caseless caseless' : Bool) (cs : List Char) :
    (classRange? caseless cs).map (·.2) = (classRange? caseless' cs).map (·.2) := by
  have hfirst := classItem?_kind caseless caseless' cs
  unfold classRange?
  cases hitem : classItem? caseless cs with
  | none =>
    rw [hitem, Option.map_none, eq_comm, Option.map_eq_none_iff] at hfirst
    rw [hfirst]
  | some found =>
    rw [hitem, Option.map_some, eq_comm] at hfirst
    obtain ⟨⟨item', n'⟩, hitem', heq⟩ := Option.map_eq_some_iff.mp hfirst
    obtain ⟨item, n⟩ := found
    obtain ⟨hkind, rfl⟩ := Prod.mk.inj heq
    rw [hitem']
    have hsecond := classItem?_kind caseless caseless' (cs.drop (n' + 1))
    dsimp only
    split
    · match item, item' with
      | .inr _, .inr _ => rfl
      | .inl c, .inl c' =>
        obtain rfl : c' = c := Sum.inl.inj hkind
        cases hlast : classItem? caseless (cs.drop (n' + 1)) with
        | none =>
          rw [hlast, Option.map_none, eq_comm, Option.map_eq_none_iff] at hsecond
          rw [hsecond]
        | some last =>
          rw [hlast, Option.map_some, eq_comm] at hsecond
          obtain ⟨⟨bound', m'⟩, hlast', heq⟩ := Option.map_eq_some_iff.mp hsecond
          obtain ⟨bound, m⟩ := last
          obtain ⟨hbound, rfl⟩ := Prod.mk.inj heq
          rw [hlast']
          match bound, bound' with
          | .inr _, .inr _ => rfl
          | .inl d, .inl d' =>
            obtain rfl : d' = d := Sum.inl.inj hbound
            rfl
    · match item, item' with
      | .inr _, .inr _ => rfl
      | .inl _, .inl _ => rfl

def classStepKind (found : (CharSet ⊕ OpenClass × List OpenClass) × Nat) : (Unit ⊕ Nat) × Nat :=
  (found.1.map (fun _ => ()) (·.2.length), found.2)

theorem classStep_kind (caseless caseless' : Bool) (cls cls' : OpenClass) {outer outer' : List OpenClass}
    (h : outer.length = outer'.length) (c : Char) (rest : List Char) :
    (classStep caseless cls outer c rest).map classStepKind =
      (classStep caseless' cls' outer' c rest).map classStepKind := by
  unfold classStep
  split
  · split <;> simp [classStepKind, h]
  · split
    · match outer, outer' with
      | [], [] => rfl
      | _ :: _, _ :: _ => simpa [classStepKind] using h
    · split
      · simp [classStepKind, h]
      · split
        · simp [classStepKind, h]
        · split
          · simp [classStepKind, h]
          · have hrange := congrArg (Option.map fun n => ((.inr outer'.length : Unit ⊕ Nat), n - 1))
              (classRange?_kind caseless caseless' (c :: rest))
            simpa [classStepKind, h, Function.comp_def] using hrange

theorem readClassFrom_isSome (caseless caseless' : Bool) (cls cls' : OpenClass)
    {outer outer' : List OpenClass} (h : outer.length = outer'.length) (skip : Nat) (cs : List Char) :
    (readClassFrom caseless cls outer skip cs).isSome =
      (readClassFrom caseless' cls' outer' skip cs).isSome := by
  induction cs generalizing cls cls' outer outer' skip with
  | nil => rfl
  | cons c rest ih =>
    cases skip with
    | succ skip => exact ih cls cls' h skip
    | zero =>
      have hkind := classStep_kind caseless caseless' cls cls' h c rest
      rw [readClassFrom, readClassFrom]
      cases hstep : classStep caseless cls outer c rest with
      | none =>
        rw [hstep, Option.map_none, eq_comm, Option.map_eq_none_iff] at hkind
        rw [hkind]
      | some found =>
        rw [hstep, Option.map_some, eq_comm] at hkind
        obtain ⟨found', hstep', heq⟩ := Option.map_eq_some_iff.mp hkind
        rw [hstep']
        obtain ⟨result, n⟩ := found
        obtain ⟨result', n'⟩ := found'
        obtain ⟨hresult, rfl⟩ := Prod.mk.inj heq
        match result, result' with
        | .inl s, .inl s' =>
          dsimp only
          split <;> rfl
        | .inr (next, around), .inr (next', around') =>
          exact ih next next' (Sum.inr.inj hresult).symm _

theorem isSome_of_charClass {extended repeatable : Bool} {c : Char} {rest : List Char}
    {set : Bool → Option CharSet} {n : Nat}
    (h : sign? extended repeatable c rest = some (.charClass set, n)) (caseless caseless' : Bool) :
    (set caseless).isSome = (set caseless').isSome := by
  have hclass : ∃ length, classLength rest = some length ∧
      set = fun caseless => (readClass caseless rest).map (·.1) := by
    unfold sign? at h
    split at h
    · cases h
    · cases h
    · unfold Sign.visible? at h
      split at h
      case h_7 =>
        obtain ⟨length, hlength, heq⟩ := Option.map_eq_some_iff.mp h
        exact ⟨length, hlength, (Sign.charClass.inj (Prod.mk.inj heq).1).symm⟩
      case h_4 => exact absurd (Reader.isGroup_of_group? h) Bool.false_ne_true
      case h_8 =>
        obtain ⟨_, -, heq⟩ := Option.map_eq_some_iff.mp h
        cases heq
      case h_9 | h_10 | h_11 => exact absurd (Reader.isQuantifier_of_quantifier? h) Bool.false_ne_true
      case h_12 =>
        unfold Sign.brace? at h
        split at h
        · obtain ⟨found, hfound, heq⟩ := Option.map_eq_some_iff.mp h
          have hquantifier := Reader.isQuantifier_of_quantifier? hfound
          rw [(Prod.mk.inj heq).1] at hquantifier
          exact absurd hquantifier Bool.false_ne_true
        · cases h
      all_goals cases h
  obtain ⟨length, hlength, rfl⟩ := hclass
  simp only [readClass, hlength, Option.map_map, Option.isSome_map]
  exact readClassFrom_isSome caseless caseless' _ _ rfl _ _

theorem exists_opening_of_sign? {extended repeatable : Bool} {c : Char} {rest : List Char} {s : Sign}
    {n : Nat} (h : sign? extended repeatable c rest = some (s, n)) (hs : s.isGroup = true) :
    ∃ m cs, Sign.opening? extended m cs = some (s, n) := by
  obtain rfl := isGroup_of_sign? h hs
  unfold sign? at h
  split at h
  · cases h
  · obtain ⟨rfl, -⟩ := Prod.mk.inj (Option.some.inj h)
    cases hs
  · change Sign.group? extended rest = _ at h
    unfold Sign.group? at h
    split at h
    · cases h
    · exact ⟨_, _, h⟩

theorem isSome_of_flags {extended repeatable : Bool} {c : Char} {rest : List Char}
    {change : Flags → Option Flags} {opens : Bool} {n : Nat}
    (h : sign? extended repeatable c rest = some (.flags change opens, n)) (old other : Flags) :
    (change old).isSome = (change other).isSome := by
  obtain ⟨m, cs, hopening⟩ := exists_opening_of_sign? h rfl
  have hflags : ∃ cs, change = fun old => (readFlags old true 0 cs).map (·.1) := by
    unfold Sign.opening? Sign.named? Sign.choice? at hopening
    split at hopening
    case h_10 =>
      obtain ⟨found, -, heq⟩ := Option.map_eq_some_iff.mp hopening
      exact ⟨_, (Sign.flags.inj (Prod.mk.inj heq).1).1.symm⟩
    case h_5 | h_6 | h_7 =>
      obtain ⟨_, -, heq⟩ := Option.map_eq_some_iff.mp hopening
      cases heq
    case h_9 =>
      split at hopening
      · obtain ⟨_, -, heq⟩ := Option.map_eq_some_iff.mp hopening
        cases heq
      · cases hopening
    all_goals cases hopening
  obtain ⟨cs, rfl⟩ := hflags
  have hsnd := congrArg Option.isSome (readFlags_map_snd old other true 0 cs)
  simpa using hsnd

end

/-- The sign neither counts groups nor makes blanks be skipped. -/
def Sign.IsPortable : Sign → Prop
  | escaped (.group ref) => ref.isNumber = false
  | test ref => ref.isNumber = false
  | flags change _ => ∀ old new, old.extended = false → change old = some new → new.extended = false
  | _ => True

def Opener.Alike : Opener → Opener → Prop
  | plain outside, plain outside' => outside.extended = false ∧ outside'.extended = false
  | capture _, capture _ => True
  | lookAhead negative, lookAhead negative' => negative = negative'
  | lookBehind negative, lookBehind negative' => negative = negative'
  | atomic, atomic => True
  | condition, condition => True
  | choice, choice => True
  | _, _ => False

/-- The groups that are open since the text began, with `base` around them in the second place. Of the
outermost one, what was read before it does not matter. -/
inductive Nested (base : List (Opener × Parts)) :
    List (Opener × Parts) → List (Opener × Parts) → Prop
  | ground {opener opener' : Opener} (outside outside' : Parts) (alike : opener.Alike opener') :
      Nested base [(opener, outside)] ((opener', outside') :: base)
  | inner {opener opener' : Opener} {outside outside' : Parts}
      {enclosing enclosing' : List (Opener × Parts)} (alike : opener.Alike opener')
      (parts : outside.contour = outside'.contour) (around : Nested base enclosing enclosing') :
      Nested base ((opener, outside) :: enclosing) ((opener', outside') :: enclosing')

theorem Nested.exists_cons {base enclosing frames : List (Opener × Parts)} {frame : Opener × Parts}
    (h : Nested base (frame :: enclosing) frames) :
    ∃ opener outside around, frames = (opener, outside) :: around := by
  cases h with
  | ground => exact ⟨_, _, _, rfl⟩
  | inner => exact ⟨_, _, _, rfl⟩

theorem Opener.alike_of_sign? [Engine] {extended repeatable : Bool} {c : Char} {rest : List Char}
    {opener : Opener} {n : Nat} (h : sign? extended repeatable c rest = some (.enter opener, n)) :
    opener.Alike opener := by
  obtain ⟨m, cs, hopening⟩ := exists_opening_of_sign? h rfl
  unfold Sign.opening? Sign.named? Sign.choice? at hopening
  split at hopening
  case h_5 | h_6 | h_7 | h_10 =>
    obtain ⟨_, -, heq⟩ := Option.map_eq_some_iff.mp hopening
    cases heq
  case h_8 =>
    cases hopening
    trivial
  case h_9 =>
    split at hopening
    · obtain ⟨_, -, heq⟩ := Option.map_eq_some_iff.mp hopening
      cases heq
    · cases hopening
  case h_11 => cases hopening
  all_goals
    cases hopening
    rfl

namespace Reader

/-- The second reader can refer to all groups to which the first can. -/
structure Scope (a b : Reader) : Prop where
  extended : a.flags.extended = false ∧ b.flags.extended = false
  numbered : b.numbered = false
  known : ∀ name, (a.names.lookup name).isSome = true → (b.names.lookup name).isSome = true
  groups : a.groups ≤ b.groups
  bounded : ∀ entry ∈ b.names, entry.2 ≤ b.groups

/-- What was read since the text began has the same contour for both readers. -/
inductive Levels (base : List (Opener × Parts)) (started : Bool) (a b : Reader) : Prop
  | ground (open_eq : a.enclosing = []) (open_eq' : b.enclosing = base)
      (last : started = true → a.parts.last.map Node.contour = b.parts.last.map Node.contour)
  | inside (around : Nested base a.enclosing b.enclosing) (parts : a.parts.contour = b.parts.contour)

structure Tracks (base : List (Opener × Parts)) (started : Bool) (a b : Reader) : Prop where
  scope : a.Scope b
  levels : Levels base started a b

section
variable {base : List (Opener × Parts)} {started : Bool} {a b a' : Reader}

theorem Scope.with (h : a.Scope b) (parts parts' : Parts) (enclosing enclosing' : List (Opener × Parts)) :
    Scope { a with parts := parts, enclosing := enclosing }
      { b with parts := parts', enclosing := enclosing' } :=
  ⟨h.extended, h.numbered, h.known, h.groups, h.bounded⟩

theorem Levels.last (h : Levels base true a b) :
    a.parts.last.map Node.contour = b.parts.last.map Node.contour := by
  cases h with
  | ground _ _ hlast => exact hlast rfl
  | inside _ hparts => exact congrArg Parts.last hparts

theorem Levels.add (h : Levels base started a b) {node node' : Node}
    (hnode : node.contour = node'.contour) : Levels base true (a.add node) (b.add node') := by
  cases h with
  | ground hopen hopen' _ =>
    exact .ground hopen hopen' fun _ => congrArg some hnode
  | inside haround hparts =>
    refine .inside haround ?_
    rw [Reader.add, Reader.add, Parts.contour_add, Parts.contour_add, hparts, hnode]

theorem Levels.nextBranch (h : Levels base started a b) :
    Levels base true { a with parts := a.parts.nextBranch }
      { b with parts := b.parts.nextBranch } := by
  cases h with
  | ground hopen hopen' _ => exact .ground hopen hopen' fun _ => rfl
  | inside haround hparts =>
    refine .inside haround ?_
    rw [Parts.contour_nextBranch, Parts.contour_nextBranch, hparts]

theorem Levels.enter (h : Levels base started a b) {opener opener' : Opener}
    (hopener : opener.Alike opener') : Levels base true (a.enter opener) (b.enter opener') := by
  refine .inside ?_ rfl
  cases h with
  | ground hopen hopen' _ =>
    rw [Reader.enter, Reader.enter, hopen, hopen']
    exact .ground _ _ hopener
  | inside haround hparts => exact .inner hopener hparts haround

theorem Tracks.add (h : Tracks base started a b) {node node' : Node}
    (hnode : node.contour = node'.contour) : Tracks base true (a.add node) (b.add node') :=
  ⟨h.scope.with _ _ _ _, h.levels.add hnode⟩

theorem Tracks.reach (h : Tracks base started a b) : Tracks base started a.reach b.reach := by
  refine ⟨⟨h.scope.extended, h.scope.numbered, h.scope.known, h.scope.groups, h.scope.bounded⟩, ?_⟩
  cases h.levels with
  | ground hopen hopen' hlast => exact .ground hopen hopen' hlast
  | inside haround hparts => exact .inside haround hparts

theorem Tracks.note (h : Tracks base started a b) {ref : GroupRef} (href : ref.isNumber = false) :
    Tracks base started (a.note ref) (b.note ref) := by
  have hnumbered : (b.note ref).numbered = false := by rw [Reader.note, h.scope.numbered, href]; rfl
  refine ⟨⟨h.scope.extended, hnumbered, h.scope.known, h.scope.groups, h.scope.bounded⟩, ?_⟩
  cases h.levels with
  | ground hopen hopen' hlast => exact .ground hopen hopen' hlast
  | inside haround hparts => exact .inside haround hparts

theorem Scope.groupOf? (h : a.Scope b) {name : String} {group : Nat} (hgroup : a.groupOf? name = some group)
    (hle : group ≤ a.groups) : ∃ group', b.groupOf? name = some group' ∧ group' ≤ b.groups := by
  unfold Reader.groupOf? at hgroup ⊢
  cases hname : b.names.lookup name with
  | some group' =>
    obtain ⟨before, after, hnames, -⟩ := List.lookup_eq_some_iff.mp hname
    exact ⟨group', rfl, h.bounded (name, group') (by simp [hnames])⟩
  | none =>
    -- the second reader has no group of that name, so the first has none either
    have hname' : a.names.lookup name = none := by
      cases hlookup : a.names.lookup name with
      | none => rfl
      | some other =>
        have hknown := h.known name (by rw [hlookup]; rfl)
        rw [hname] at hknown
        cases hknown
    rw [hname'] at hgroup
    exact ⟨group, hgroup, Nat.le_trans hle h.groups⟩

/-- A group that the first reader can refer to, other than by its number, is one that the second can
refer to. -/
theorem Scope.target? (h : a.Scope b) {ref : GroupRef} (href : ref.isNumber = false) {group : Nat}
    (htarget : a.target? ref = some group) : ∃ group', b.target? ref = some group' := by
  unfold Reader.target? at htarget ⊢
  rw [Option.filter_eq_some_iff] at htarget
  obtain ⟨htarget, hle⟩ := htarget
  match ref with
  | .number _ => cases href
  | .back 0 => exact ⟨b.groups, by simp⟩
  | .back (n + 1) =>
    dsimp only at htarget ⊢
    split at htarget
    · rename_i hn
      rw [if_pos (Nat.le_trans hn h.groups)]
      exact ⟨b.groups - n, by simp⟩
    · cases htarget
  | .name s =>
    obtain ⟨group', hgroup', hle'⟩ := h.groupOf? htarget (by simpa using hle)
    exact ⟨group', by simp [hgroup', hle']⟩

theorem Tracks.referTo (h : Tracks base started a b) {ref : GroupRef} (href : ref.isNumber = false)
    (hobey : a.referTo ref = some a') : ∃ b', b.referTo ref = some b' ∧ Tracks base true a' b' := by
  obtain ⟨group, hgroup, rfl⟩ := Option.map_eq_some_iff.mp hobey
  obtain ⟨group', hgroup'⟩ := h.scope.target? href hgroup
  refine ⟨_, Option.map_eq_some_iff.mpr ⟨group', hgroup', rfl⟩, (h.note href).add ?_⟩
  rw [Node.contour, Node.contour]

theorem Tracks.enter (h : Tracks base started a b) {opener opener' : Opener}
    (hopener : opener.Alike opener') : Tracks base true (a.enter opener) (b.enter opener') :=
  ⟨h.scope.with _ _ _ _, h.levels.enter hopener⟩

theorem Tracks.test (h : Tracks base started a b) {ref : GroupRef} (href : ref.isNumber = false)
    (hobey : a.test ref = some a') : ∃ b', b.test ref = some b' ∧ Tracks base true a' b' := by
  obtain ⟨group, hgroup, rfl⟩ := Option.map_eq_some_iff.mp hobey
  obtain ⟨group', hgroup'⟩ := h.scope.target? href hgroup
  have henter := (h.note href).enter (show Opener.choice.Alike .choice from trivial)
  refine ⟨_, Option.map_eq_some_iff.mpr ⟨group', hgroup', rfl⟩, henter.add ?_⟩
  rw [Node.contour, Node.contour]

theorem Scope.setFlags (h : a.Scope b) {flags flags' : Flags} (hflags : flags.extended = false)
    (hflags' : flags'.extended = false) :
    Scope { a with flags := flags } { b with flags := flags' } :=
  ⟨⟨hflags, hflags'⟩, h.numbered, h.known, h.groups, h.bounded⟩

theorem Levels.setFlags (h : Levels base started a b) (flags flags' : Flags) :
    Levels base started { a with flags := flags } { b with flags := flags' } := by
  cases h with
  | ground hopen hopen' hlast => exact .ground hopen hopen' hlast
  | inside haround hparts => exact .inside haround hparts

theorem Tracks.leave (h : Tracks base started a b) {opener opener' : Opener} {outside outside' : Parts}
    {enclosing enclosing' : List (Opener × Parts)}
    (haround : Nested base ((opener, outside) :: enclosing) ((opener', outside') :: enclosing')) :
    opener.Alike opener' ∧ Tracks base false { a with parts := outside, enclosing := enclosing }
      { b with parts := outside', enclosing := enclosing' } := by
  cases haround with
  | ground _ _ hopener =>
    exact ⟨hopener, h.scope.with _ _ _ _, .ground rfl rfl fun hstarted => nomatch hstarted⟩
  | inner hopener hparts haround => exact ⟨hopener, h.scope.with _ _ _ _, .inside haround hparts⟩

theorem node?_of_numbered (h : b.numbered = false) : b.node? = some b.parts.node := by
  simp [node?, h]

theorem Tracks.closeGroup (h : Tracks base started a b) (hobey : a.closeGroup = some a') :
    ∃ b', b.closeGroup = some b' ∧ Tracks base true a' b' := by
  unfold Reader.closeGroup at hobey
  split at hobey
  · rename_i opener outside enclosing node hopen hnode
    have hnode : a.parts.node = node := by
      unfold node? at hnode
      split at hnode
      · cases hnode
      · exact Option.some.inj hnode
    cases h.levels with
    | ground hground => simp [hground] at hopen
    | inside haround hparts =>
      rw [hopen] at haround
      obtain ⟨opener', outside', enclosing', hopen'⟩ := haround.exists_cons
      rw [hopen'] at haround
      obtain ⟨hopener, hleave⟩ := h.leave haround
      have hcontour : node.contour = b.parts.node.contour := by
        rw [← hnode, ← Parts.node_contour, ← Parts.node_contour, hparts]
      unfold Reader.closeGroup
      rw [hopen', node?_of_numbered h.scope.numbered]
      dsimp only at hobey ⊢
      match opener, opener', hopener with
      | .plain flags, .plain flags', ⟨hflags, hflags'⟩ =>
        obtain rfl := Option.some.inj hobey
        have hadd := hleave.add hcontour
        exact ⟨_, rfl, hadd.scope.setFlags hflags hflags', hadd.levels.setFlags _ _⟩
      | .capture group, .capture group', _ =>
        obtain rfl := Option.some.inj hobey
        exact ⟨_, rfl, hleave.add (by rw [Node.contour, Node.contour, hcontour])⟩
      | .lookAhead negative, .lookAhead _, rfl =>
        obtain rfl := Option.some.inj hobey
        exact ⟨_, rfl, hleave.add (by rw [Node.contour, Node.contour, hcontour])⟩
      | .lookBehind negative, .lookBehind _, rfl =>
        obtain ⟨behind, hbehind, rfl⟩ := Option.map_eq_some_iff.mp hobey
        have hmap := Node.lookBehind?_contour negative node
        rw [hcontour, Node.lookBehind?_contour, hbehind, Option.map_some] at hmap
        obtain ⟨behind', hbehind', heq⟩ := Option.map_eq_some_iff.mp hmap
        exact ⟨_, Option.map_eq_some_iff.mpr ⟨behind', hbehind', rfl⟩, hleave.add heq.symm⟩
      | .atomic, .atomic, _ =>
        obtain rfl := Option.some.inj hobey
        exact ⟨_, rfl, hleave.add (by rw [Node.contour, Node.contour, hcontour])⟩
      | .condition, .condition, _ =>
        obtain rfl := Option.some.inj hobey
        exact ⟨_, rfl, hleave.add (by simp [Node.contour, Node.contours, hcontour])⟩
      | .choice, .choice, _ =>
        -- a choice lacks its first branch on both sides or on neither
        have hbare : b.parts.endsWithCondition = a.parts.endsWithCondition := by
          rw [← Parts.endsWithCondition_contour, ← hparts, Parts.endsWithCondition_contour]
        dsimp only at hobey ⊢
        rw [hbare]
        split at hobey
        · cases hobey
        · obtain rfl := Option.some.inj hobey
          refine ⟨_, if_neg ‹_›, hleave.add ?_⟩
          rw [← Parts.choice_contour, hparts, Parts.choice_contour]
  · cases hobey

theorem Tracks.repeatLast (h : Tracks base true a b) {least : Nat} {most? : Option Nat}
    {isLazy isPossessive : Bool} (hobey : a.repeatLast least most? isLazy isPossessive = some a') :
    ∃ b', b.repeatLast least most? isLazy isPossessive = some b' ∧ Tracks base true a' b' := by
  have hlast := h.levels.last
  unfold Reader.repeatLast at hobey ⊢
  cases hpiece : a.parts.last with
  | none => simp [hpiece] at hobey
  | some piece =>
    rw [hpiece, Option.map_some, eq_comm] at hlast
    obtain ⟨piece', hpiece', hcontour⟩ := Option.map_eq_some_iff.mp hlast
    have hrepeatable : piece'.isRepeatable = piece.isRepeatable := by
      rw [← Node.isRepeatable_contour, hcontour, Node.isRepeatable_contour]
    rw [hpiece] at hobey
    rw [hpiece']
    dsimp only at hobey ⊢
    rw [hrepeatable]
    split at hobey
    · rename_i hcondition
      rw [if_pos hcondition]
      obtain rfl := Option.some.inj hobey
      refine ⟨_, rfl, h.scope.with _ _ _ _, ?_⟩
      cases h.levels with
      | ground hopen hopen' _ => exact .ground hopen hopen' fun _ => rfl
      | inside haround hparts =>
        refine .inside haround ?_
        have hbranches := congrArg Parts.branches hparts
        have hpieces := congrArg Parts.pieces hparts
        simp only [Parts.contour] at hbranches hpieces
        cases isPossessive <;>
          simp [Parts.contour, Node.contour, hbranches, hpieces, hcontour]
    · cases hobey

theorem Tracks.openCapture (h : Tracks base started a b) {names names' : List (String × Nat)}
    (hknown : ∀ name, (names.lookup name).isSome = true → (names'.lookup name).isSome = true)
    (hbounded : ∀ entry ∈ names', entry.2 ≤ b.groups + 1) :
    Tracks base true (a.openCapture names) (b.openCapture names') := by
  have henter : Levels base true (a.enter (.capture (a.groups + 1))) (b.enter (.capture (b.groups + 1))) :=
    h.levels.enter trivial
  refine ⟨⟨h.scope.extended, h.scope.numbered, hknown, Nat.succ_le_succ h.scope.groups, hbounded⟩, ?_⟩
  cases henter with
  | ground hopen => cases hopen
  | inside haround hparts => exact .inside haround hparts

variable [Engine]

theorem Tracks.capture (h : Tracks base started a b) {name? : Option String}
    (hobey : a.obey (.capture name?) = some a') :
    ∃ b', b.obey (.capture name?) = some b' ∧ Tracks base true a' b' := by
  cases name? with
  | none =>
    obtain rfl := Option.some.inj hobey
    exact ⟨_, rfl, h.openCapture h.scope.known fun entry hentry =>
      Nat.le_succ_of_le (h.scope.bounded entry hentry)⟩
  | some name =>
    obtain rfl := Option.some.inj hobey
    refine ⟨_, rfl, h.openCapture (fun other hother => ?_) fun entry hentry => ?_⟩
    · rw [List.lookup_cons] at hother ⊢
      split
      · rfl
      · rename_i hne
        rw [hne] at hother
        exact h.scope.known other hother
    · rcases List.mem_cons.mp hentry with rfl | hentry
      · exact Nat.le_refl _
      · exact Nat.le_succ_of_le (h.scope.bounded entry hentry)

theorem Tracks.setFlags (h : Tracks base started a b) {change : Flags → Option Flags} {opens : Bool}
    (hchange : ∀ old new, old.extended = false → change old = some new → new.extended = false)
    (hsome : (change a.flags).isSome = (change b.flags).isSome)
    (hobey : a.obey (.flags change opens) = some a') :
    ∃ b', b.obey (.flags change opens) = some b' ∧ Tracks base true a' b' := by
  obtain ⟨flags, hflags, rfl⟩ := Option.map_eq_some_iff.mp hobey
  rw [hflags, Option.isSome_some, eq_comm] at hsome
  obtain ⟨flags', hflags'⟩ := Option.isSome_iff_exists.mp hsome
  have hextended := hchange _ _ h.scope.extended.1 hflags
  have hextended' := hchange _ _ h.scope.extended.2 hflags'
  refine ⟨_, Option.map_eq_some_iff.mpr ⟨flags', hflags', rfl⟩, ?_⟩
  cases opens with
  | true =>
    have henter := h.levels.enter (show (Opener.plain a.flags).Alike (.plain b.flags) from h.scope.extended)
    exact ⟨(h.scope.with _ _ _ _).setFlags hextended hextended', henter.setFlags _ _⟩
  | false =>
    have hadd := h.add (show Node.empty.contour = Node.empty.contour from rfl)
    exact ⟨hadd.scope.setFlags hextended hextended', hadd.levels.setFlags _ _⟩

theorem Tracks.obeyEscape (h : Tracks base started a b) {e : Escape}
    (he : (Sign.escaped e).IsPortable) (hobey : a.obeyEscape e = some a') :
    ∃ b', b.obeyEscape e = some b' ∧ Tracks base true a' b' := by
  cases e with
  | group ref => exact h.referTo he hobey
  | property name =>
    obtain ⟨set, hset, rfl⟩ := Option.map_eq_some_iff.mp hobey
    exact ⟨_, Option.map_eq_some_iff.mpr ⟨set, hset, rfl⟩, h.add (by simp [Node.contour])⟩
  | char c =>
    obtain rfl := Option.some.inj hobey
    exact ⟨_, rfl, h.add (by simp [literal, Node.contour])⟩
  | _ =>
    obtain rfl := Option.some.inj hobey
    exact ⟨_, rfl, h.add rfl⟩

theorem Tracks.obey (h : Tracks base started a b) {c : Char} {cs : List Char} {s : Sign} {n : Nat}
    {repeatable : Bool} (hsign : sign? false repeatable c cs = some (s, n)) (hs : s.IsPortable)
    (hblank : s.isBlank = false) (hquantifier : started = false → s.isQuantifier = false)
    (hobey : a.obey s = some a') : ∃ b', b.obey s = some b' ∧ Tracks base true a' b' := by
  cases s with
  | blank => cases hblank
  | charClass set =>
    obtain ⟨chars, hchars, rfl⟩ := Option.map_eq_some_iff.mp hobey
    have hsome := isSome_of_charClass hsign a.flags.caseless b.flags.caseless
    rw [hchars, Option.isSome_some, eq_comm] at hsome
    obtain ⟨chars', hchars'⟩ := Option.isSome_iff_exists.mp hsome
    exact ⟨_, Option.map_eq_some_iff.mpr ⟨chars', hchars', rfl⟩, h.add (by simp [Node.contour])⟩
  | escaped e => exact h.obeyEscape hs hobey
  | bar =>
    obtain rfl := Option.some.inj hobey
    exact ⟨_, rfl, h.scope.with _ _ _ _, h.levels.nextBranch⟩
  | closing => exact h.closeGroup hobey
  | enter opener =>
    obtain rfl := Option.some.inj hobey
    exact ⟨_, rfl, h.enter (Opener.alike_of_sign? hsign)⟩
  | capture name? => exact h.capture hobey
  | flags change opens => exact h.setFlags hs (isSome_of_flags hsign _ _) hobey
  | sameAs name => exact h.referTo rfl hobey
  | test ref => exact h.test hs hobey
  | ask =>
    obtain rfl := Option.some.inj hobey
    exact ⟨_, rfl, (h.enter (show Opener.choice.Alike .choice from trivial)).enter
      (show Opener.condition.Alike .condition from trivial)⟩
  | quantifier least most? isLazy isPossessive =>
    cases started with
    | false => exact absurd (hquantifier rfl) (by simp [Sign.isQuantifier])
    | true => exact h.repeatLast hobey
  | _ =>
    obtain rfl := Option.some.inj hobey
    exact ⟨_, rfl, h.add (by simp [literal, Node.contour])⟩

theorem Tracks.follow (h : Tracks base started a b) {c : Char} {cs : List Char} {s : Sign} {n : Nat}
    {repeatable : Bool} (hsign : sign? false repeatable c cs = some (s, n)) (hs : s.IsPortable)
    (hblank : s.isBlank = false) (hquantifier : started = false → s.isQuantifier = false)
    (hfollow : a.follow s = some a') : ∃ b', b.follow s = some b' ∧ Tracks base true a' b' := by
  unfold Reader.follow at hfollow ⊢
  split at hfollow
  · rename_i hgroup
    rw [if_pos hgroup]
    exact h.reach.obey hsign hs hblank hquantifier hfollow
  · rename_i hgroup
    rw [if_neg hgroup]
    exact h.obey hsign hs hblank hquantifier hfollow

end

structure Follows (r r' : Reader) : Prop where
  known : ∀ name, (r.names.lookup name).isSome = true → (r'.names.lookup name).isSome = true
  groups : r.groups ≤ r'.groups

theorem lookup_isSome_cons {entry : String × Nat} {names : List (String × Nat)} {name : String}
    (h : (names.lookup name).isSome = true) : ((entry :: names).lookup name).isSome = true := by
  rw [List.lookup_cons]
  split
  · rfl
  · exact h

variable [Engine]

/-- The reader is where nothing is out of the ordinary, and knows groups of these names. -/
structure Ready (names : List String) (r : Reader) : Prop where
  extended : r.flags.extended = false
  numbered : r.numbered = false
  known : ∀ name ∈ names, (r.names.lookup name).isSome = true
  count : names.length ≤ r.groups
  bounded : ∀ entry ∈ r.names, entry.2 ≤ r.groups

structure Only (names : List String) (r : Reader) : Prop where
  extended : r.flags.extended = false
  closed : r.enclosing = []
  known : ∀ name, (r.names.lookup name).isSome = true → name ∈ names
  groups : r.groups ≤ names.length

end Reader
end PhrasePattern.Regex
