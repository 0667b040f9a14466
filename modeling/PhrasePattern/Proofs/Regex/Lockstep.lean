import PhrasePattern.Proofs.Regex.Passage
import PhrasePattern.Proofs.Regex.Splicing

/-! Two texts read side by side, of which the second has groups around some parts of the first. As long as
neither reading fails, what the readers hold can be told apart by no search that is not given up. -/
namespace PhrasePattern.Regex

namespace Parts

/-- The parts agree, and a quantifier may follow on both sides. -/
structure Lasting (p p' : Parts) : Prop where
  branches : AltSplice p.branches.reverse p'.branches.reverse
  pieces : Splice p.pieces.reverse p'.pieces.reverse
  last : ∃ piece piece', p.last = some piece ∧ p'.last = some piece' ∧ piece.Alike piece'

/-- The parts agree in the midst of a branch. -/
structure Matched (p p' : Parts) : Prop where
  branches : AltSplice p.branches.reverse p'.branches.reverse
  settled : Splice p.settled.reverse p'.settled.reverse

/-- The parts agree, and no quantifier can follow on either side. -/
structure Settled (p p' : Parts) : Prop where
  matched : Matched p p'
  last : p.last = none
  last' : p'.last = none

def Even (p p' : Parts) : Prop := Lasting p p' ∨ Settled p p'

structure Opened (p p' : Parts) : Prop where
  branches : AltSplice p.branches.reverse p'.branches.reverse
  begins : p = { branches := p.branches }
  begins' : p' = { branches := p'.branches }

def Closing (p p' : Parts) : Prop :=
  AltSplice (p.branch :: p.branches).reverse (p'.branch :: p'.branches).reverse

variable {p p' : Parts}

theorem opened_empty : Opened {} {} := ⟨.nil, rfl, rfl⟩

theorem Opened.settled (h : Opened p p') : Settled p p' := by
  refine ⟨⟨h.branches, ?_⟩, ?_, ?_⟩
  · rw [h.begins, h.begins']
    exact .nil
  · rw [h.begins]
  · rw [h.begins']

theorem Opened.matched (h : Opened p p') : Matched p p' := h.settled.matched

theorem Matched.closing (h : Matched p p') : Closing p p' := by
  rw [Closing, List.reverse_cons, List.reverse_cons]
  exact h.branches.append (.cons h.settled.ofPieces .nil)

theorem Closing.nextBranch (h : Closing p p') : Opened p.nextBranch p'.nextBranch := ⟨h, rfl, rfl⟩

theorem Closing.node (h : Closing p p') : p.node.Alike p'.node := h.ofBranches

theorem Matched.behind (h : Matched p p') {q q' : Parts} {nodes nodes' : List Node}
    (hnodes : Splice nodes.reverse nodes'.reverse) (hbranches : q.branches = p.branches)
    (hbranches' : q'.branches = p'.branches) (hsettled : q.settled = nodes ++ p.settled)
    (hsettled' : q'.settled = nodes' ++ p'.settled) : Matched q q' := by
  constructor
  · rw [hbranches, hbranches']
    exact h.branches
  · rw [hsettled, hsettled', List.reverse_append, List.reverse_append]
    exact h.settled.append hnodes

/-- Where a branch begins, all that is read makes branches of its own. -/
theorem reverse_branches (h : p.settled = []) {q own : Parts} (hsettled : q.settled = own.settled ++ p.settled)
    (hbranches : q.branches = own.branches ++ p.branches) :
    (q.branch :: q.branches).reverse = p.branches.reverse ++ (own.branch :: own.branches).reverse := by
  rw [branch, hsettled, hbranches, h, List.append_nil, ← List.reverse_append, List.cons_append, branch]

theorem Matched.add (h : Matched p p') {node node' : Node} (halike : node.Alike node') :
    Lasting (p.add node) (p'.add node') :=
  ⟨h.branches, h.settled, node, node', rfl, rfl, halike⟩

theorem Lasting.matched (h : Lasting p p') : Matched p p' := by
  obtain ⟨piece, piece', hlast, hlast', halike⟩ := h.last
  refine ⟨h.branches, ?_⟩
  unfold settled
  rw [hlast, hlast']
  dsimp only
  rw [← halike.isEmpty]
  split
  · exact h.pieces
  · rw [List.reverse_cons, List.reverse_cons]
    exact h.pieces.append (.cons halike .nil)

theorem Even.matched (h : Even p p') : Matched p p' := h.elim Lasting.matched Settled.matched

theorem Lasting.settle (h : Lasting p p') {node node' : Node} (halike : node.Alike node') :
    Settled { p with pieces := node :: p.pieces, last := none }
      { p' with pieces := node' :: p'.pieces, last := none } := by
  refine ⟨⟨h.branches, ?_⟩, rfl, rfl⟩
  show Splice (node :: p.pieces).reverse (node' :: p'.pieces).reverse
  rw [List.reverse_cons, List.reverse_cons]
  exact h.pieces.append (.cons halike .nil)

end Parts

namespace Reader

/-- The readers know the same groups and are in the same mode, in which blanks are not skipped, and their
current groups are so related. -/
structure Abreast (related : Parts → Parts → Prop) (a b : Reader) : Prop where
  extended : a.flags.extended = false
  flags : b.flags = a.flags
  groups : b.groups = a.groups
  names : b.names = a.names
  numbered : b.numbered = a.numbered
  parts : related a.parts b.parts

section
variable {before between after before' after' : Parts → Parts → Prop} {follow follow' : List Char → Prop}
  {text text' more more' : List Char} {a b a' b' : Reader}

theorem Abreast.imp (h : Abreast before a b) (himp : before a.parts b.parts → after a.parts b.parts) :
    Abreast after a b := ⟨h.extended, h.flags, h.groups, h.names, h.numbered, himp h.parts⟩

theorem Abreast.extended' (h : Abreast before a b) : b.flags.extended = false := by
  rw [h.flags, h.extended]

theorem Abreast.with (h : Abreast before a b) {parts parts' : Parts} (hparts : after parts parts') :
    Abreast after { a with parts := parts } { b with parts := parts' } :=
  ⟨h.extended, h.flags, h.groups, h.names, h.numbered, hparts⟩

theorem Abreast.reach (h : Abreast before a b) : Abreast before a.reach b.reach :=
  ⟨h.extended, h.flags, h.groups, h.names, h.numbered, h.parts⟩

theorem Abreast.enter (h : Abreast before a b) (opener : Opener) :
    Abreast Parts.Opened (a.enter opener) (b.enter opener) :=
  ⟨h.extended, h.flags, h.groups, h.names, h.numbered, Parts.opened_empty⟩

theorem Abreast.note (h : Abreast before a b) (ref : GroupRef) : Abreast before (a.note ref) (b.note ref) :=
  ⟨h.extended, h.flags, h.groups, h.names, congrArg (· || ref.isNumber) h.numbered, h.parts⟩

theorem Abreast.target?_eq (h : Abreast before a b) (ref : GroupRef) : b.target? ref = a.target? ref := by
  unfold target? groupOf?
  rw [h.groups, h.names]

theorem node?_eq_some {r : Reader} {node : Node} (h : r.node? = some node) : node = r.parts.node := by
  unfold node? at h
  split at h
  · cases h
  · exact (Option.some.inj h).symm

end

end Reader

def Sign.IsPiece : Sign → Prop
  | literal _ | anyChar | lineStart | lineEnd | charClass _ | escaped _ | sameAs _ => True
  | _ => False

theorem Opener.IsEasy.alike {opener : Opener} (h : opener.IsEasy) : opener.Alike opener := by
  cases opener with
  | plain outside => exact ⟨h, h⟩
  | lookAhead negative => rfl
  | capture _ | atomic => trivial
  | lookBehind _ | condition | choice => exact h.elim

inductive Node.IsAtom : Node → Prop
  | chars (set : CharSet) : IsAtom (.chars set)
  | assertion (test : Assertion) : IsAtom (.assertion test)
  | guarded {n : Node} (notPlain : n.isPlain = false) (notEmpty : n.isEmpty = false) : IsAtom n

theorem Node.Alike.repeated {n n' : Node} (h : n.Alike n') (least : Nat) (most? : Option Nat)
    (greedy isPossessive : Bool) : (n.repeated least most? greedy isPossessive).Alike
      (n'.repeated least most? greedy isPossessive) := by
  cases isPossessive with
  | true => exact (h.repetition least most? greedy).atomic
  | false => exact h.repetition least most? greedy

namespace Reader

section signs
variable {before : Parts → Parts → Prop} {a b a' b' : Reader}

structure BothBecome (a b a' b' : Reader) (parts parts' : Parts) : Prop where
  abreast : Abreast (fun p p' => p = parts ∧ p' = parts') a' b'
  flags : a'.flags = a.flags
  enclosing : a'.enclosing = a.enclosing
  enclosing' : b'.enclosing = b.enclosing

theorem Abreast.becomes_add (h : Abreast before a b) (node : Node) :
    BothBecome a b (a.add node) (b.add node) (a.parts.add node) (b.parts.add node) :=
  ⟨h.with ⟨rfl, rfl⟩, rfl, rfl, rfl⟩

theorem Abreast.referTo (h : Abreast before a b) {ref : GroupRef} (ha : a.referTo ref = some a')
    (hb : b.referTo ref = some b') :
    ∃ node : Node, node.IsAtom ∧ BothBecome a b a' b' (a.parts.add node) (b.parts.add node) := by
  obtain ⟨group, hgroup, rfl⟩ := Option.map_eq_some_iff.mp ha
  rw [Reader.referTo, h.target?_eq, hgroup] at hb
  obtain rfl := Option.some.inj hb
  exact ⟨.backreference group, .guarded rfl rfl, (h.note ref).with ⟨rfl, rfl⟩, rfl, rfl, rfl⟩

variable [Engine]

theorem Abreast.obeyEscape (h : Abreast before a b) {e : Escape} (ha : a.obeyEscape e = some a')
    (hb : b.obeyEscape e = some b') :
    ∃ node : Node, node.IsAtom ∧ BothBecome a b a' b' (a.parts.add node) (b.parts.add node) := by
  cases e with
  | char c =>
    rw [Reader.obeyEscape, literal, h.flags] at hb
    obtain rfl := Option.some.inj ha
    obtain rfl := Option.some.inj hb
    exact ⟨_, .chars _, h.becomes_add _⟩
  | property name =>
    rw [Reader.obeyEscape, h.flags] at hb
    obtain ⟨chars, hchars, rfl⟩ := Option.map_eq_some_iff.mp ha
    rw [hchars] at hb
    obtain rfl := Option.some.inj hb
    exact ⟨_, .chars _, h.becomes_add _⟩
  | group ref => exact h.referTo ha hb
  | set s =>
    obtain rfl := Option.some.inj ha
    obtain rfl := Option.some.inj hb
    exact ⟨_, .chars s, h.becomes_add _⟩
  | assertion test =>
    obtain rfl := Option.some.inj ha
    obtain rfl := Option.some.inj hb
    exact ⟨_, .assertion test, h.becomes_add _⟩
  | matchStart =>
    obtain rfl := Option.some.inj ha
    obtain rfl := Option.some.inj hb
    exact ⟨startMark, .guarded rfl rfl, h.becomes_add _⟩

theorem Abreast.obey_piece (h : Abreast before a b) {s : Sign} (hs : s.IsPiece) (ha : a.obey s = some a')
    (hb : b.obey s = some b') :
    ∃ node : Node, node.IsAtom ∧ BothBecome a b a' b' (a.parts.add node) (b.parts.add node) := by
  cases s with
  | literal c =>
    rw [obey, literal, h.flags] at hb
    obtain rfl := Option.some.inj ha
    obtain rfl := Option.some.inj hb
    exact ⟨_, .chars _, h.becomes_add _⟩
  | anyChar =>
    rw [obey, h.flags] at hb
    obtain rfl := Option.some.inj ha
    obtain rfl := Option.some.inj hb
    exact ⟨_, .chars _, h.becomes_add _⟩
  | lineStart | lineEnd =>
    rw [obey, h.flags] at hb
    obtain rfl := Option.some.inj ha
    obtain rfl := Option.some.inj hb
    exact ⟨_, .assertion _, h.becomes_add _⟩
  | charClass set =>
    rw [obey, h.flags] at hb
    obtain ⟨chars, hchars, rfl⟩ := Option.map_eq_some_iff.mp ha
    rw [hchars] at hb
    obtain rfl := Option.some.inj hb
    exact ⟨_, .chars chars, h.becomes_add _⟩
  | escaped e => exact h.obeyEscape ha hb
  | sameAs name => exact h.referTo ha hb
  | _ => exact hs.elim

theorem Abreast.follow_piece (h : Abreast before a b) {s : Sign} (hs : s.IsPiece)
    (ha : a.follow s = some a') (hb : b.follow s = some b') :
    ∃ node : Node, node.IsAtom ∧ BothBecome a b a' b' (a.parts.add node) (b.parts.add node) := by
  unfold follow at ha hb
  cases hgroup : s.isGroup with
  | true =>
    rw [hgroup, if_pos rfl] at ha hb
    obtain ⟨node, hatom, habreast, hflags, henclosing, henclosing'⟩ := h.reach.obey_piece hs ha hb
    exact ⟨node, hatom, habreast, hflags, henclosing, henclosing'⟩
  | false =>
    rw [hgroup, if_neg Bool.false_ne_true] at ha hb
    exact h.obey_piece hs ha hb

theorem Abreast.follow_bar (h : Abreast before a b) (ha : a.follow .bar = some a')
    (hb : b.follow .bar = some b') : BothBecome a b a' b' a.parts.nextBranch b.parts.nextBranch := by
  obtain rfl := Option.some.inj ha
  obtain rfl := Option.some.inj hb
  exact ⟨h.with ⟨rfl, rfl⟩, rfl, rfl, rfl⟩

theorem Abreast.follow_quantifier (h : Abreast before a b) {least : Nat} {most? : Option Nat}
    {isLazy isPossessive : Bool} (ha : a.follow (.quantifier least most? isLazy isPossessive) = some a')
    (hb : b.follow (.quantifier least most? isLazy isPossessive) = some b') :
    ∃ piece piece' greedy, a.parts.last = some piece ∧ b.parts.last = some piece' ∧
      piece.isRepeatable = true ∧
      BothBecome a b a' b' (a.replaceLast (piece.repeated least most? greedy isPossessive)).parts
        (b.replaceLast (piece'.repeated least most? greedy isPossessive)).parts := by
  rw [follow_of_not_isGroup _ rfl, obey] at ha hb
  obtain ⟨piece, hlast, hrepeatable, rfl⟩ := exists_of_repeatLast ha
  obtain ⟨piece', hlast', -, rfl⟩ := exists_of_repeatLast hb
  rw [h.flags]
  exact ⟨piece, piece', _, hlast, hlast', hrepeatable, h.with ⟨rfl, rfl⟩, rfl, rfl, rfl⟩

end signs

end Reader

def Scannable [Engine] (cs : List Char) : Prop := ∃ repeatable signs, signs? repeatable 0 cs = some signs

section scanning
variable [Engine]
variable {rest rest' : List Char}

theorem legible_scannable : Bounds.Legible false Scannable := by
  constructor
  case skips =>
    rintro cs ⟨repeatable, signs, hsigns⟩
    cases cs with
    | nil => exact ⟨[], by rw [skip?, ignoredFrom]; rfl, repeatable, signs, hsigns⟩
    | cons c cs =>
      obtain ⟨s, n, others, hsign, rfl, hothers⟩ := exists_of_signs? hsigns
      unfold sign? at hsign
      unfold skip?
      split at hsign
      · cases hsign
      · rename_i m hm
        obtain ⟨rfl, rfl⟩ := Prod.mk.inj (Option.some.inj hsign)
        exact ⟨cs.drop m, by rw [hm]; rfl, _, others, hothers⟩
      · rename_i hm
        exact ⟨c :: cs, by rw [hm]; rfl, repeatable, _, hsigns⟩
  case tail =>
    rintro c cs ⟨repeatable, signs, hsigns⟩ hc
    obtain ⟨s, n, others, hsign, rfl, hothers⟩ := exists_of_signs? hsigns
    rw [sign?_of_isDigit_or_comma hc] at hsign
    obtain ⟨rfl, rfl⟩ := Prod.mk.inj (Option.some.inj hsign)
    exact ⟨_, others, hothers⟩

theorem sign?_append_of_signs? (hrest : Firm false rest) {repeatable : Bool} {c : Char} {cs : List Char}
    {s : Sign} {n : Nat} {others : List Sign} (hsign : sign? false repeatable c cs = some (s, n))
    (hothers : signs? (s.leaves repeatable) 0 (cs.drop n) = some others) :
    n ≤ cs.length ∧ sign? false repeatable c (cs ++ rest) = some (s, n) := by
  have hbounds : repeatable = true → c = '{' → bounds? false cs = none →
      bounds? false (cs ++ rest) = none := by
    rintro - rfl hnone
    rw [sign?_brace, Sign.brace?_of_bounds?_eq_none hnone] at hsign
    obtain ⟨rfl, rfl⟩ := Prod.mk.inj (Option.some.inj hsign)
    have hscannable : Scannable cs := ⟨_, others, hothers⟩
    rw [Bounds.bounds?_append_of_legible legible_scannable hrest (.inl hscannable), hnone]
    rfl
  obtain ⟨hle, k, hsign', htakes⟩ := sign?_append hrest hbounds hsign
  rcases htakes with rfl | ⟨hextended, -⟩
  · exact ⟨hle, hsign'⟩
  · cases hextended

/-- What has to be known of a relation between two readers of the same text. It also depends on whether
something visible was read, and on the signs ahead. -/
structure Pairing (allowed : Sign → Prop) (related : Bool → List Sign → Reader → Reader → Prop) : Prop where
  extended : ∀ {started signs a b}, related started signs a b →
    a.flags.extended = false ∧ b.flags.extended = false
  last : ∀ {signs a b}, related true signs a b → b.parts.last.isSome = a.parts.last.isSome
  blank : ∀ {started signs a b}, related started (.blank :: signs) a b → related started signs a b
  follow : ∀ {started s signs a b a' b'}, related started (s :: signs) a b → allowed s →
    s.isBlank = false → (started = false → s.isQuantifier = false) → a.follow s = some a' →
    b.follow s = some b' → related true signs a' b'

namespace Pairing
variable {allowed : Sign → Prop} {related : Bool → List Sign → Reader → Reader → Prop}

/-- If both readers come through the text, they are still related behind it. -/
theorem run (h : Pairing allowed related) (hrest : Firm false rest) (hrest' : Firm false rest')
    {signs : List Sign} {text : List Char} {started : Bool} {a b z z' : Reader}
    (hsigns : signs? (Pasting.repeatable started a) 0 text = some signs)
    (hallowed : ∀ s ∈ signs, allowed s)
    (hfirst : started = false → ∀ s, signs.find? (!·.isBlank) = some s → s.isQuantifier = false)
    (hrelated : related started signs a b) (ha : a.run 0 (text ++ rest) = some z)
    (hb : b.run 0 (text ++ rest') = some z') :
    ∃ started' a' b', related started' [] a' b' ∧ a'.run 0 rest = some z ∧ b'.run 0 rest' = some z' := by
  -- both readers take the same signs, and the relation holds again behind each of them
  induction signs generalizing text started a b with
  | nil =>
    cases text with
    | nil => exact ⟨started, a, b, hrelated, ha, hb⟩
    | cons c cs =>
      obtain ⟨_, _, _, -, hnil, -⟩ := exists_of_signs? hsigns
      cases hnil
  | cons s others ih =>
    cases text with
    | nil => cases hsigns
    | cons c cs =>
      obtain ⟨s', n, others', hsign, hcons, hothers⟩ := exists_of_signs? hsigns
      obtain ⟨rfl, rfl⟩ := List.cons.inj hcons
      obtain ⟨hextended, hextended'⟩ := h.extended hrelated
      have hlast : started = true → b.parts.last.isSome = a.parts.last.isSome := by
        rintro rfl
        exact h.last hrelated
      obtain ⟨hle, hfirm⟩ := sign?_append_of_signs? hrest hsign hothers
      obtain ⟨-, hfirm'⟩ := sign?_append_of_signs? hrest' hsign hothers
      have hsigna := Pasting.sign?_of_ahead hfirm hfirst a.parts.last.isSome fun _ => rfl
      have hsignb := Pasting.sign?_of_ahead hfirm' hfirst b.parts.last.isSome hlast
      rw [← hextended] at hsigna
      rw [← hextended'] at hsignb
      rw [List.cons_append, Reader.run_of_sign hsigna] at ha
      rw [List.cons_append, Reader.run_of_sign hsignb] at hb
      obtain ⟨a', hfollow, ha'⟩ := Option.bind_eq_some_iff.mp ha
      obtain ⟨b', hfollow', hb'⟩ := Option.bind_eq_some_iff.mp hb
      rw [Reader.run_eq_drop, List.drop_append_of_le_length hle] at ha' hb'
      have hallowed' : ∀ s ∈ others, allowed s := fun s hs => hallowed s (List.mem_cons_of_mem _ hs)
      cases hblank : s.isBlank with
      | true =>
        cases s with
        | blank =>
          obtain rfl := Option.some.inj hfollow
          obtain rfl := Option.some.inj hfollow'
          -- nothing visible was read yet, so what comes first is still ahead
          exact ih hothers hallowed' hfirst (h.blank hrelated) ha' hb'
        | _ => cases hblank
      | false =>
        have hquantifier : started = false → s.isQuantifier = false :=
          fun hstarted => hfirst hstarted s (by simp [hblank])
        have hnext : related true others a' b' :=
          h.follow hrelated (hallowed s List.mem_cons_self) hblank hquantifier hfollow hfollow'
        have hsigns' : signs? (Pasting.repeatable true a') 0 (cs.drop n) = some others := by
          rw [Pasting.repeatable, if_pos rfl, Reader.last_follow hfollow, ← hothers,
            s.leaves_of_not_isBlank hblank]
        exact ih hsigns' hallowed' (fun hstarted => absurd hstarted (by decide)) hnext ha' hb'

end Pairing

end scanning

namespace Reader

section
variable {before between after before' after' : Parts → Parts → Prop} {follow follow' : List Char → Prop}
  {text text' more more' : List Char} {a b : Reader}
variable [Engine]

/-- If both readers come through their texts, then they are so related behind them, in the groups in
which they were before. -/
def Leads (before : Parts → Parts → Prop) (follow : List Char → Prop) (text text' : List Char)
    (after : Parts → Parts → Prop) : Prop :=
  ∀ ⦃a b z z' : Reader⦄ ⦃rest rest' : List Char⦄, Abreast before a b → follow rest → follow rest' →
    a.run 0 (text ++ rest) = some z → b.run 0 (text' ++ rest') = some z' →
      ∃ a' b', Abreast after a' b' ∧ a'.enclosing = a.enclosing ∧ b'.enclosing = b.enclosing ∧
        a'.run 0 rest = some z ∧ b'.run 0 rest' = some z'

theorem leads_nil : Leads before follow [] [] before :=
  fun a b _ _ _ _ h _ _ ha hb => ⟨a, b, h, rfl, rfl, ha, hb⟩

theorem Leads.append (h : Leads before follow text text' between)
    (h' : Leads between follow' more more' after) (hfollow : ∀ rest, follow' rest → follow (more ++ rest))
    (hfollow' : ∀ rest, follow' rest → follow (more' ++ rest)) :
    Leads before follow' (text ++ more) (text' ++ more') after := by
  intro a b z z' rest rest' hab hrest hrest' ha hb
  rw [List.append_assoc] at ha hb
  obtain ⟨a₁, b₁, hab₁, henclosing₁, henclosing₁', ha₁, hb₁⟩ :=
    h hab (hfollow rest hrest) (hfollow' rest' hrest') ha hb
  obtain ⟨a₂, b₂, hab₂, henclosing₂, henclosing₂', ha₂, hb₂⟩ := h' hab₁ hrest hrest' ha₁ hb₁
  exact ⟨a₂, b₂, hab₂, henclosing₂.trans henclosing₁, henclosing₂'.trans henclosing₁', ha₂, hb₂⟩

theorem Leads.imp (h : Leads before follow text text' after) (hbefore : ∀ p p', before' p p' → before p p')
    (hfollow : ∀ rest, follow' rest → follow rest) (hafter : ∀ p p', after p p' → after' p p') :
    Leads before' follow' text text' after' := by
  intro a b z z' rest rest' hab hrest hrest' ha hb
  obtain ⟨a', b', hab', henclosing, henclosing', ha', hb'⟩ :=
    h (hab.imp (hbefore _ _)) (hfollow rest hrest) (hfollow rest' hrest') ha hb
  exact ⟨a', b', hab'.imp (hafter _ _), henclosing, henclosing', ha', hb'⟩

theorem Leads.of_follow (h : Leads before follow text text' after)
    (hfollow : ∀ rest, follow' rest → follow rest) : Leads before follow' text text' after :=
  h.imp (fun _ _ hbefore => hbefore) hfollow fun _ _ hafter => hafter

theorem Leads.matched (h : Leads before follow text text' Parts.Lasting) :
    Leads before follow text text' Parts.Matched :=
  h.imp (fun _ _ hbefore => hbefore) (fun _ hrest => hrest) fun _ _ hlasting => hlasting.matched

theorem Leads.alone (h : Leads Parts.Matched follow text text' Parts.Matched) :
    Leads Parts.Opened follow text text' Parts.Closing :=
  h.imp (fun _ _ hopened => hopened.matched) (fun _ hrest => hrest) fun _ _ hmatched => hmatched.closing

theorem exists_follow_of_run {r z : Reader} (hr : r.flags.extended = false) {c : Char} {cs rest : List Char}
    {s : Sign} (hsign : sign? false r.parts.last.isSome c (cs ++ rest) = some (s, cs.length))
    (hrun : r.run 0 (c :: cs ++ rest) = some z) :
    ∃ r', r.follow s = some r' ∧ r'.run 0 rest = some z := by
  rw [← hr] at hsign
  rw [List.cons_append, run_of_sign hsign] at hrun
  obtain ⟨r', hr', hrest⟩ := Option.bind_eq_some_iff.mp hrun
  rw [run_eq_drop, List.drop_left] at hrest
  exact ⟨r', hr', hrest⟩

theorem leads_of_sign {c : Char} {cs : List Char} {s : Sign}
    (hsign : ∀ repeatable rest, follow rest → sign? false repeatable c (cs ++ rest) = some (s, cs.length))
    (h : ∀ {a b a' b' : Reader}, Abreast before a b → a.follow s = some a' → b.follow s = some b' →
      ∃ parts parts', BothBecome a b a' b' parts parts' ∧ after parts parts') :
    Leads before follow (c :: cs) (c :: cs) after := by
  intro a b z z' rest rest' hab hrest hrest' ha hb
  obtain ⟨a', hfollow, ha'⟩ := exists_follow_of_run hab.extended (hsign _ rest hrest) ha
  obtain ⟨b', hfollow', hb'⟩ := exists_follow_of_run hab.extended' (hsign _ rest' hrest') hb
  obtain ⟨parts, parts', ⟨habreast, -, henclosing, henclosing'⟩, hafter⟩ := h hab hfollow hfollow'
  refine ⟨a', b', habreast.imp ?_, henclosing, henclosing', ha', hb'⟩
  rintro ⟨rfl, rfl⟩
  exact hafter

theorem leads_of_piece {c : Char} {cs : List Char} {s : Sign} (hs : s.IsPiece)
    (hsign : ∀ repeatable rest, sign? false repeatable c (cs ++ rest) = some (s, cs.length)) :
    Leads Parts.Matched Anything (c :: cs) (c :: cs) Parts.Lasting :=
  leads_of_sign (fun repeatable rest _ => hsign repeatable rest) fun hab ha hb => by
    obtain ⟨node, -, hbecome⟩ := hab.follow_piece hs ha hb
    exact ⟨_, _, hbecome, hab.parts.add (.refl node)⟩

theorem leads_ordinary {c : Char} (h : c ∉ special) :
    Leads Parts.Matched Anything [c] [c] Parts.Lasting :=
  leads_of_piece (s := .literal c) trivial fun repeatable rest => sign?_ordinary h repeatable rest

theorem leads_dot : Leads Parts.Matched Anything ['.'] ['.'] Parts.Lasting :=
  leads_of_piece (s := .anyChar) trivial fun repeatable rest => sign?_of_ne_open (by decide) repeatable rest

theorem leads_caret : Leads Parts.Matched Anything ['^'] ['^'] Parts.Lasting :=
  leads_of_piece (s := .lineStart) trivial fun repeatable rest => sign?_of_ne_open (by decide) repeatable rest

theorem leads_dollar : Leads Parts.Matched Anything ['$'] ['$'] Parts.Lasting :=
  leads_of_piece (s := .lineEnd) trivial fun repeatable rest => sign?_of_ne_open (by decide) repeatable rest

theorem leads_bar : Leads Parts.Closing Anything ['|'] ['|'] Parts.Opened :=
  leads_of_sign (fun repeatable rest _ => sign?_of_ne_open (by decide) repeatable rest)
    fun hab ha hb => ⟨_, _, hab.follow_bar ha hb, hab.parts.nextBranch⟩

theorem Settles.leads {node : Flags → Node} (h : Settles text node) :
    Leads Parts.Matched Gentle text text Parts.Matched := by
  intro a b z z' rest rest' hab hrest hrest' ha hb
  rw [h a rest hab.extended hrest] at ha
  rw [h b rest' hab.extended' hrest', hab.flags] at hb
  have hsettled : Splice (node a.flags :: a.parts.settled).reverse (node a.flags :: b.parts.settled).reverse := by
    rw [List.reverse_cons, List.reverse_cons]
    exact hab.parts.settled.append (.cons (.refl _) .nil)
  exact ⟨a.settle (node a.flags), b.settle (node a.flags), hab.with ⟨hab.parts.branches, hsettled⟩, rfl, rfl,
    ha, hb⟩

theorem Abreast.even_quantifier (h : Abreast Parts.Even a b) {least : Nat} {most? : Option Nat}
    {isLazy isPossessive : Bool} {a' b' : Reader}
    (ha : a.follow (.quantifier least most? isLazy isPossessive) = some a')
    (hb : b.follow (.quantifier least most? isLazy isPossessive) = some b') :
    ∃ parts parts', BothBecome a b a' b' parts parts' ∧ Parts.Settled parts parts' := by
  obtain ⟨piece, piece', greedy, hlast, hlast', -, hbecome⟩ := h.follow_quantifier ha hb
  rcases h.parts with hlasting | hsettled
  · obtain ⟨first, first', hfirst, hfirst', halike⟩ := hlasting.last
    obtain rfl := Option.some.inj (hlast.symm.trans hfirst)
    obtain rfl := Option.some.inj (hlast'.symm.trans hfirst')
    exact ⟨_, _, hbecome, hlasting.settle (halike.repeated least most? greedy isPossessive)⟩
  · rw [hsettled.last] at hlast
    cases hlast

theorem exists_follow_of_run_plus {r z : Reader} (hr : r.flags.extended = false) {rest : List Char}
    (hrest : Gentle rest) (hrun : r.run 0 ('+' :: rest) = some z) :
    ∃ r', r.follow (.quantifier 1 none false false) = some r' ∧ r'.run 0 rest = some z := by
  obtain ⟨n, hn, hquantifier⟩ := quantifier?_of_gentle 1 none hrest
  have hsign : sign? r.flags.extended r.parts.last.isSome '+' rest =
      some (.quantifier 1 none false false, n) := by
    rw [hr, sign?_of_ne_open (by decide)]
    exact hquantifier
  rw [run_of_sign hsign] at hrun
  obtain ⟨r', hfollow, hrun'⟩ := Option.bind_eq_some_iff.mp hrun
  obtain ⟨piece, -, -, rfl⟩ := exists_of_repeatLast hfollow
  exact ⟨_, hfollow, run_ignored (r := r.replaceLast _) hr hn ▸ hrun'⟩

theorem leads_plus : Leads Parts.Lasting Gentle ['+'] ['+'] Parts.Matched := by
  intro a b z z' rest rest' hab hrest hrest' ha hb
  obtain ⟨a', hfollow, ha'⟩ := exists_follow_of_run_plus hab.extended hrest ha
  obtain ⟨b', hfollow', hb'⟩ := exists_follow_of_run_plus hab.extended' hrest' hb
  obtain ⟨parts, parts', ⟨habreast, -, henclosing, henclosing'⟩, hsettled⟩ :=
    (hab.imp Or.inl : Abreast Parts.Even a b).even_quantifier hfollow hfollow'
  refine ⟨a', b', habreast.imp ?_, henclosing, henclosing', ha', hb'⟩
  rintro ⟨rfl, rfl⟩
  exact hsettled.matched

end

section groups
variable {text text' opening : List Char} {a b a' b' : Reader} {opener : Opener}
  {outside outside' : Parts} {enclosing enclosing' : List (Opener × Parts)}

def restored : Opener → Flags → Flags
  | .plain outside, _ => outside
  | _, inside => inside

theorem closeGroup_of_isEasy {r r' : Reader} (h : r.closeGroup = some r')
    (hopen : r.enclosing = (opener, outside) :: enclosing) (heasy : opener.IsEasy) :
    r' = { r with
      parts := outside.add (opener.wrap r.parts.node), enclosing := enclosing,
      flags := restored opener r.flags } := by
  unfold closeGroup at h
  rw [hopen] at h
  cases hnode : r.node? with
  | none => simp [hnode] at h
  | some node =>
    rw [hnode] at h
    obtain rfl := node?_eq_some hnode
    cases opener with
    | lookBehind _ | condition | choice => exact heasy.elim
    | _ => exact (Option.some.inj h).symm

theorem alike_wrap {n n' : Node} (h : n.Alike n') (heasy : opener.IsEasy) :
    (opener.wrap n).Alike (opener.wrap n') := by
  cases opener with
  | plain flags => exact h
  | capture group => exact h.capture group
  | lookAhead negative => exact h.lookAhead negative
  | atomic => exact h.atomic
  | lookBehind _ | condition | choice => exact heasy.elim

theorem extended_restored (h : opener.Alike opener) {flags : Flags} (hflags : flags.extended = false) :
    (restored opener flags).extended = false := by
  cases opener with
  | plain outside => exact h.1
  | _ => exact hflags

variable [Engine]

theorem Abreast.follow_closing (h : Abreast Parts.Closing a b) (heasy : opener.IsEasy)
    (hmatched : Parts.Matched outside outside') (hopen : a.enclosing = (opener, outside) :: enclosing)
    (hopen' : b.enclosing = (opener, outside') :: enclosing') (ha : a.follow .closing = some a')
    (hb : b.follow .closing = some b') :
    Abreast Parts.Lasting a' b' ∧ a'.enclosing = enclosing ∧ b'.enclosing = enclosing' := by
  rw [closeGroup_of_isEasy ha hopen heasy, closeGroup_of_isEasy hb hopen' heasy]
  refine ⟨⟨extended_restored heasy.alike h.extended, ?_, h.groups, h.names, h.numbered, ?_⟩, rfl, rfl⟩
  · exact congrArg (restored opener) h.flags
  · exact hmatched.add (alike_wrap h.parts.node heasy)

def Enters (opening : List Char) : Prop :=
  ∀ ⦃a b : Reader⦄, Abreast Parts.Matched a b → ∃ (opener : Opener) (a' b' : Reader), opener.IsEasy ∧
    Abreast Parts.Opened a' b' ∧ a'.enclosing = (opener, a.parts) :: a.enclosing ∧
    b'.enclosing = (opener, b.parts) :: b.enclosing ∧
    (∀ rest, a.run 0 (opening ++ rest) = a'.run 0 rest) ∧ ∀ rest, b.run 0 (opening ++ rest) = b'.run 0 rest

theorem enters_plain : Enters ['(', '?', ':'] := by
  intro a b hab
  have hrun := fun rest => run_plain hab.extended' rest
  rw [hab.flags] at hrun
  exact ⟨.plain a.flags, _, _, hab.extended, hab.reach.enter _, rfl, rfl, run_plain hab.extended, hrun⟩

theorem enters_ahead (negated : Bool) : Enters ['(', '?', if negated then '!' else '='] :=
  fun _ _ hab => ⟨.lookAhead negated, _, _, trivial, hab.reach.enter _, rfl, rfl,
    run_ahead hab.extended negated, run_ahead hab.extended' negated⟩

theorem enters_lookAhead : Enters ['(', '?', '='] := enters_ahead false

theorem enters_notAhead : Enters ['(', '?', '!'] := enters_ahead true

theorem enters_capture {name : String} (h : IsGroupName name) :
    Enters (['(', '?', 'P', '<'] ++ (name.toList ++ ['>'])) := by
  intro a b hab
  have hrun := fun rest => run_capture hab.extended' h rest
  rw [hab.groups, hab.names] at hrun
  have hopen' : (b.reach.openCapture ((name, a.groups + 1) :: a.names)).enclosing =
      (.capture (a.groups + 1), b.parts) :: b.enclosing := by
    rw [← hab.groups]
    rfl
  refine ⟨.capture (a.groups + 1), _, _, trivial, ?_, rfl, hopen', run_capture hab.extended h, hrun⟩
  exact ⟨hab.extended, hab.flags, congrArg (· + 1) hab.groups, rfl, hab.numbered, Parts.opened_empty⟩

/-- Both readers enter a group and come to its end. -/
theorem Leads.enclosed (hopening : Enters opening)
    (h : Leads Parts.Opened (Firm false) text text' Parts.Closing) :
    Leads Parts.Matched Anything (opening ++ (text ++ [')'])) (opening ++ (text' ++ [')'])) Parts.Lasting := by
  intro a b z z' rest rest' hab _ _ ha hb
  have hsplit : ∀ text rest : List Char, (opening ++ (text ++ [')'])) ++ rest =
      opening ++ (text ++ ([')'] ++ rest)) := by simp
  obtain ⟨opener, a₁, b₁, heasy, hab₁, hopen, hopen', hrun, hrun'⟩ := hopening hab
  rw [hsplit, hrun] at ha
  rw [hsplit, hrun'] at hb
  obtain ⟨a₂, b₂, hab₂, henclosing, henclosing', ha₂, hb₂⟩ :=
    h hab₁ (firm_cons (by decide) rest) (firm_cons (by decide) rest') ha hb
  have hsign : ∀ repeatable (rest : List Char),
      sign? false repeatable ')' ([] ++ rest) = some (.closing, ([] : List Char).length) :=
    fun repeatable rest => sign?_of_ne_open (by decide) repeatable rest
  obtain ⟨a₃, hfollow, ha₃⟩ := exists_follow_of_run hab₂.extended (hsign _ rest) ha₂
  obtain ⟨b₃, hfollow', hb₃⟩ := exists_follow_of_run hab₂.extended' (hsign _ rest') hb₂
  obtain ⟨hab₃, hclosed, hclosed'⟩ := hab₂.follow_closing heasy hab.parts (henclosing.trans hopen)
    (henclosing'.trans hopen') hfollow hfollow'
  exact ⟨a₃, b₃, hab₃, hclosed, hclosed', ha₃, hb₃⟩

end groups
end Reader

end PhrasePattern.Regex
