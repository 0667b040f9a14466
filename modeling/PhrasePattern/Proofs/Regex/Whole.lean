import PhrasePattern.Proofs.Regex.Lockstep

/-! Texts that close the groups that they open. Two readers that come through such a text side by side may
differ in what they had read before; within its groups they hold the same. -/
namespace PhrasePattern.Regex

namespace Sign

def KeepsMode : Sign → Prop
  | flags change _ => ∀ old new, old.extended = false → change old = some new → new.extended = false
  | enter opener => opener.Alike opener
  | _ => True

/-- The number of open groups behind the sign, with `n` of them open before it. -/
def depth? (n : Nat) : Sign → Option Nat
  | closing => if n = 0 then none else some (n - 1)
  | enter _ | capture _ | test _ => some (n + 1)
  | ask => some (n + 2)
  | flags _ opens => some (if opens then n + 1 else n)
  | _ => some n

end Sign

namespace Parts

def At (started : Bool) : Nat → Parts → Parts → Prop
  | 0 => if started then Even else Matched
  | _ + 1 => Eq

namespace At
variable {started : Bool} {n : Nat} {p p' : Parts}

theorem matched (h : At started 0 p p') : Matched p p' := by
  cases started with
  | false => exact h
  | true => exact Even.matched h

theorem unstarted (h : At started n p p') : At false n p p' := by
  cases n with
  | zero => exact h.matched
  | succ n => exact h

theorem add (h : At started n p p') (node : Node) : At true n (p.add node) (p'.add node) := by
  cases n with
  | zero => exact .inl (h.matched.add (.refl node))
  | succ n => exact congrArg (add · node) h

theorem nextBranch (h : At started n p p') : At true n p.nextBranch p'.nextBranch := by
  cases n with
  | zero => exact .inr h.matched.closing.nextBranch.settled
  | succ n => exact congrArg Parts.nextBranch h

theorem last (h : At true n p p') : p'.last.isSome = p.last.isSome := by
  cases n with
  | succ n => rw [show p = p' from h]
  | zero =>
    rcases (h : Even p p') with hlasting | hsettled
    · obtain ⟨_, _, hlast, hlast', -⟩ := hlasting.last
      rw [hlast, hlast']
      rfl
    · rw [hsettled.last, hsettled.last']

end At

end Parts

namespace Reader

inductive Frames (base base' : List (Opener × Parts)) :
    Nat → List (Opener × Parts) → List (Opener × Parts) → Prop
  | ground : Frames base base' 0 base base'
  | inner {n : Nat} {opener : Opener} {outside outside' : Parts}
      {enclosing enclosing' : List (Opener × Parts)} (mode : opener.Alike opener)
      (parts : Parts.At false n outside outside') (around : Frames base base' n enclosing enclosing') :
      Frames base base' (n + 1) ((opener, outside) :: enclosing) ((opener, outside') :: enclosing')

/-- Both readers are at the same place in groups of the text, of which `n` are open. -/
structure Astride (base base' : List (Opener × Parts)) (started : Bool) (n : Nat) (a b : Reader) : Prop where
  abreast : Abreast (Parts.At started n) a b
  frames : Frames base base' n a.enclosing b.enclosing

theorem closeGroup_congr {a b a' b' : Reader} {opener : Opener} {outside outside' : Parts}
    {enclosing enclosing' : List (Opener × Parts)} (h : Abreast Eq a b) (ha : a.closeGroup = some a')
    (hb : b.closeGroup = some b') (hopen : a.enclosing = (opener, outside) :: enclosing)
    (hopen' : b.enclosing = (opener, outside') :: enclosing') :
    ∃ node,
      a' = { a with
        parts := outside.add node, enclosing := enclosing, flags := restored opener a.flags } ∧
      b' = { b with
        parts := outside'.add node, enclosing := enclosing', flags := restored opener b.flags } := by
  have hnode : b.node? = a.node? := by
    unfold node?
    rw [h.parts, h.names, h.numbered]
  unfold closeGroup at ha hb
  rw [hopen] at ha
  rw [hopen', hnode, ← h.parts] at hb
  cases hwhole : a.node? with
  | none => simp [hwhole] at ha
  | some node =>
    rw [hwhole] at ha hb
    cases opener with
    | plain _ | capture _ | lookAhead _ | atomic | condition =>
      exact ⟨_, (Option.some.inj ha).symm, (Option.some.inj hb).symm⟩
    | lookBehind negative =>
      obtain ⟨behind, hbehind, rfl⟩ := Option.map_eq_some_iff.mp ha
      rw [Option.map_eq_some_iff] at hb
      obtain ⟨behind', hbehind', rfl⟩ := hb
      obtain rfl := Option.some.inj (hbehind.symm.trans hbehind')
      exact ⟨behind, rfl, rfl⟩
    | choice =>
      dsimp only at ha hb
      split at ha
      · cases ha
      · rename_i hcondition
        rw [if_neg hcondition] at hb
        exact ⟨_, (Option.some.inj ha).symm, (Option.some.inj hb).symm⟩

namespace Astride
variable {base base' : List (Opener × Parts)} {started : Bool} {n m : Nat} {a b a' b' : Reader}

theorem become (h : Astride base base' started n a b) {parts parts' : Parts}
    (hbecome : BothBecome a b a' b' parts parts') (hparts : Parts.At true n parts parts') :
    Astride base base' true n a' b' := by
  refine ⟨hbecome.abreast.imp fun heq => heq.1 ▸ heq.2 ▸ hparts, ?_⟩
  rw [hbecome.enclosing, hbecome.enclosing']
  exact h.frames

theorem reach (h : Astride base base' started n a b) : Astride base base' started n a.reach b.reach :=
  ⟨h.abreast.reach, h.frames⟩

theorem note (h : Astride base base' started n a b) (ref : GroupRef) :
    Astride base base' started n (a.note ref) (b.note ref) := ⟨h.abreast.note ref, h.frames⟩

theorem enter (h : Astride base base' started n a b) (opener : Opener) (hopener : opener.Alike opener) :
    Astride base base' true (n + 1) (a.enter opener) (b.enter opener) :=
  ⟨(h.abreast.enter opener).imp fun _ => rfl, .inner hopener h.abreast.parts.unstarted h.frames⟩

theorem add (h : Astride base base' started n a b) (node : Node) :
    Astride base base' true n (a.add node) (b.add node) :=
  h.become (h.abreast.becomes_add node) (h.abreast.parts.add node)

theorem withFlags (h : Astride base base' started n a b) {flags : Flags} (hflags : flags.extended = false) :
    Astride base base' started n { a with flags := flags } { b with flags := flags } :=
  ⟨⟨hflags, rfl, h.abreast.groups, h.abreast.names, h.abreast.numbered, h.abreast.parts⟩, h.frames⟩

theorem openCapture (h : Astride base base' started n a b) {names names' : List (String × Nat)}
    (hnames : names' = names) :
    Astride base base' true (n + 1) (a.openCapture names) (b.openCapture names') := by
  have henter := h.enter (.capture (a.groups + 1)) trivial
  have heq : b.openCapture names' =
      { b.enter (.capture (a.groups + 1)) with groups := b.groups + 1, names := names' } := by
    rw [← h.abreast.groups]
    rfl
  rw [heq]
  exact ⟨⟨h.abreast.extended, h.abreast.flags, congrArg (· + 1) h.abreast.groups, hnames,
    h.abreast.numbered, rfl⟩, henter.frames⟩

theorem closeGroup (h : Astride base base' started (n + 1) a b) (ha : a.closeGroup = some a')
    (hb : b.closeGroup = some b') : Astride base base' true n a' b' := by
  have habreast : Abreast Eq a b := h.abreast
  have hframes := h.frames
  generalize hopen : a.enclosing = frames at hframes
  generalize hopen' : b.enclosing = frames' at hframes
  cases hframes with
  | inner hmode hparts haround =>
    obtain ⟨node, rfl, rfl⟩ := closeGroup_congr habreast ha hb hopen hopen'
    exact ⟨⟨extended_restored hmode habreast.extended, congrArg (restored _) habreast.flags,
      habreast.groups, habreast.names, habreast.numbered, hparts.add node⟩, haround⟩

theorem test (h : Astride base base' started n a b) {ref : GroupRef} (ha : a.test ref = some a')
    (hb : b.test ref = some b') : Astride base base' true (n + 1) a' b' := by
  obtain ⟨group, hgroup, rfl⟩ := Option.map_eq_some_iff.mp ha
  rw [Reader.test, h.abreast.target?_eq, hgroup] at hb
  obtain rfl := Option.some.inj hb
  exact ((h.note ref).enter .choice trivial).add _

variable [Engine]

theorem setFlags (h : Astride base base' started n a b) {change : Flags → Option Flags} {opens : Bool}
    (hmode : (Sign.flags change opens).KeepsMode) (ha : a.obey (.flags change opens) = some a')
    (hb : b.obey (.flags change opens) = some b') :
    Astride base base' true (if opens then n + 1 else n) a' b' := by
  obtain ⟨flags, hflags, rfl⟩ := Option.map_eq_some_iff.mp ha
  rw [obey, h.abreast.flags, hflags] at hb
  obtain rfl := Option.some.inj hb
  have hextended := hmode a.flags flags h.abreast.extended hflags
  cases opens with
  | true =>
    exact (h.enter (.plain a.flags) ⟨h.abreast.extended, h.abreast.extended⟩).withFlags hextended
  | false => exact (h.add .empty).withFlags hextended

theorem quantifier (h : Astride base base' true n a b) {least : Nat} {most? : Option Nat}
    {isLazy isPossessive : Bool} (ha : a.follow (.quantifier least most? isLazy isPossessive) = some a')
    (hb : b.follow (.quantifier least most? isLazy isPossessive) = some b') :
    Astride base base' true n a' b' := by
  cases n with
  | zero =>
    have heven : Abreast Parts.Even a b := h.abreast
    obtain ⟨parts, parts', hbecome, hsettled⟩ := heven.even_quantifier ha hb
    exact h.become hbecome (.inr hsettled)
  | succ n =>
    have hparts : a.parts = b.parts := h.abreast.parts
    obtain ⟨piece, piece', greedy, hlast, hlast', -, hbecome⟩ := h.abreast.follow_quantifier ha hb
    rw [hparts, hlast'] at hlast
    obtain rfl := Option.some.inj hlast
    refine h.become hbecome ?_
    show (a.replaceLast _).parts = (b.replaceLast _).parts
    rw [replaceLast, replaceLast, hparts]

theorem follow (h : Astride base base' started n a b) {s : Sign} (hmode : s.KeepsMode)
    (hdepth : s.depth? n = some m) (hblank : s.isBlank = false)
    (hquantifier : started = false → s.isQuantifier = false) (ha : a.follow s = some a')
    (hb : b.follow s = some b') : Astride base base' true m a' b' := by
  have hreach := h.reach
  cases s with
  | blank => cases hblank
  | closing =>
    cases n with
    -- a parenthesis that closes none of the groups of the text
    | zero => cases hdepth
    | succ n =>
      obtain rfl := Option.some.inj hdepth
      exact h.closeGroup ha hb
  | bar =>
    obtain rfl := Option.some.inj hdepth
    exact h.become (h.abreast.follow_bar ha hb) h.abreast.parts.nextBranch
  | quantifier least most? isLazy isPossessive =>
    obtain rfl := Option.some.inj hdepth
    cases started with
    | false => exact nomatch hquantifier rfl
    | true => exact h.quantifier ha hb
  | enter opener =>
    obtain rfl := Option.some.inj hdepth
    obtain rfl := Option.some.inj ha
    obtain rfl := Option.some.inj hb
    exact hreach.enter opener hmode
  | capture name? =>
    obtain rfl := Option.some.inj hdepth
    cases name? with
    | none =>
      obtain rfl := Option.some.inj ha
      obtain rfl := Option.some.inj hb
      exact hreach.openCapture h.abreast.names
    | some name =>
      obtain rfl := Option.some.inj ha
      obtain rfl := Option.some.inj hb
      have hnames : (name, b.groups + 1) :: b.names = (name, a.groups + 1) :: a.names := by
        rw [h.abreast.groups, h.abreast.names]
      exact hreach.openCapture hnames
  | flags change opens =>
    obtain rfl := Option.some.inj hdepth
    exact hreach.setFlags hmode ha hb
  | test ref =>
    obtain rfl := Option.some.inj hdepth
    exact hreach.test ha hb
  | ask =>
    obtain rfl := Option.some.inj hdepth
    obtain rfl := Option.some.inj ha
    obtain rfl := Option.some.inj hb
    exact (hreach.enter .choice trivial).enter .condition trivial
  | literal | anyChar | lineStart | lineEnd | charClass | escaped | sameAs =>
    obtain rfl := Option.some.inj hdepth
    obtain ⟨node, -, hbecome⟩ := h.abreast.follow_piece (by trivial) ha hb
    exact h.become hbecome (h.abreast.parts.add node)

end Astride

section
variable [Engine]

/-- A text that closes just the groups that it opens. If it is not `alone`, but in the midst of a branch,
it does not begin with a quantifier. -/
structure IsWhole (alone : Bool) (text : List Char) (signs : List Sign) : Prop where
  reads : signs? (!alone) 0 text = some signs
  mode : ∀ s ∈ signs, s.KeepsMode
  first : alone = false → ∀ s, signs.find? (!·.isBlank) = some s → s.isQuantifier = false
  closes : signs.foldlM Sign.depth? 0 = some 0

variable {alone : Bool} {text rest rest' : List Char} {signs : List Sign}

theorem isWhole_nil (alone : Bool) : IsWhole alone [] [] :=
  ⟨rfl, fun _ h => (nomatch h), fun _ _ h => (nomatch h), rfl⟩

theorem IsWhole.cons (h : IsWhole false text signs) {c : Char} {cs : List Char} {s : Sign} (hs : s.IsPiece)
    (hsign : sign? false (!alone) c (cs ++ text) = some (s, cs.length)) :
    IsWhole alone (c :: cs ++ text) (s :: signs) := by
  have hpiece : s.isBlank = false ∧ s.isQuantifier = false ∧ s.KeepsMode ∧ s.depth? 0 = some 0 ∧
      s.leaves (!alone) = true := by
    cases s with
    | literal | anyChar | lineStart | lineEnd | charClass | escaped | sameAs =>
      exact ⟨rfl, rfl, trivial, rfl, rfl⟩
    | _ => exact hs.elim
  obtain ⟨hblank, hquantifier, hmode, hdepth, hleaves⟩ := hpiece
  constructor
  case reads =>
    rw [List.cons_append, signs?, hsign]
    dsimp only
    rw [signs?_eq_drop, List.drop_left, hleaves]
    exact congrArg _ h.reads
  case mode => exact List.forall_mem_cons.mpr ⟨hmode, h.mode⟩
  case first =>
    intro _ other hother
    simp only [List.find?_cons, hblank, Bool.not_false, Option.some.injEq] at hother
    rw [← hother, hquantifier]
  case closes =>
    rw [List.foldlM_cons, hdepth]
    exact h.closes

theorem pairing_whole (base base' : List (Opener × Parts)) :
    Pairing Sign.KeepsMode fun started signs a b =>
      ∃ n, signs.foldlM Sign.depth? n = some 0 ∧ Astride base base' started n a b where
  extended := by
    rintro started signs a b ⟨n, -, h⟩
    exact ⟨h.abreast.extended, h.abreast.extended'⟩
  last := by
    rintro signs a b ⟨n, -, h⟩
    exact h.abreast.parts.last
  blank h := h
  follow := by
    rintro started s signs a b a' b' ⟨n, hcloses, h⟩ hmode hblank hquantifier ha hb
    rw [List.foldlM_cons] at hcloses
    obtain ⟨m, hdepth, hcloses'⟩ := Option.bind_eq_some_iff.mp hcloses
    exact ⟨m, hcloses', h.follow hmode hdepth hblank hquantifier ha hb⟩

theorem IsWhole.run (h : IsWhole alone text signs) {a b z z' : Reader} (hab : Abreast (Parts.At alone 0) a b)
    (hlast : alone = true → a.parts.last = none) (hrest : Firm false rest) (hrest' : Firm false rest')
    (ha : a.run 0 (text ++ rest) = some z) (hb : b.run 0 (text ++ rest') = some z') :
    ∃ a' b', Abreast Parts.Matched a' b' ∧ a'.enclosing = a.enclosing ∧ b'.enclosing = b.enclosing ∧
      a'.run 0 rest = some z ∧ b'.run 0 rest' = some z' := by
  have hrepeatable : Pasting.repeatable alone a = !alone := by
    cases alone with
    | false => rfl
    | true =>
      show a.parts.last.isSome = false
      rw [hlast rfl]
      rfl
  have hsigns := h.reads
  rw [← hrepeatable] at hsigns
  obtain ⟨started, a', b', ⟨n, hcloses, hastride⟩, ha', hb'⟩ := (pairing_whole a.enclosing b.enclosing).run
    hrest hrest' hsigns h.mode h.first ⟨0, h.closes, hab, .ground⟩ ha hb
  obtain rfl : n = 0 := Option.some.inj hcloses
  have hframes := hastride.frames
  generalize hopen : a'.enclosing = frames at hframes
  generalize hopen' : b'.enclosing = frames' at hframes
  cases hframes with
  | ground => exact ⟨a', b', hastride.abreast.imp Parts.At.matched, hopen, hopen', ha', hb'⟩

theorem IsWhole.leads (h : IsWhole false text signs) :
    Leads Parts.Matched (Firm false) text text Parts.Matched :=
  fun _ _ _ _ _ _ hab hrest hrest' ha hb => h.run hab (fun halone => nomatch halone) hrest hrest' ha hb

theorem IsWhole.leads_alone (h : IsWhole true text signs) :
    Leads Parts.Opened (Firm false) text text Parts.Closing := by
  intro a b z z' rest rest' hab hrest hrest' ha hb
  obtain ⟨a', b', hab', henclosing⟩ :=
    h.run (hab.imp fun hopened => .inr hopened.settled) (fun _ => hab.parts.settled.last) hrest hrest' ha hb
  exact ⟨a', b', hab'.imp Parts.Matched.closing, henclosing⟩

end

end Reader
end PhrasePattern.Regex
