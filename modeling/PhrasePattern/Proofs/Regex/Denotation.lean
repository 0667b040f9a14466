import Mathlib.Data.List.Forall2
import PhrasePattern.Proofs.Regex.Realization

/-! The meaning of pieces of a regular expression as text. A piece stands for a relation between
positions if reading it, after anything and before anything that does not reach back into it, adds
nodes that match according to the relation. Pieces of this kind can be put one after the other,
repeated, put side by side in a group and looked ahead to. -/
namespace PhrasePattern.Regex

open Relation (Comp ReflTransGen)

/-- The text does not begin with something that changes what was read before it. -/
structure Calm (rest : List Char) : Prop where
  ignored : ignoredFrom false .blanks rest = some 0
  notLazy : rest.head? ≠ some '?'
  notPossessive : rest.head? ≠ some '+'

theorem ignoredFrom_cons {c : Char} (h : c ≠ '(') (rest : List Char) :
    ignoredFrom false .blanks (c :: rest) = some 0 := by
  rw [ignoredFrom]
  · rfl
  · rintro rest' rfl
    exact absurd rfl h

theorem ignoredFrom_open {c : Char} (h : c ≠ '#') (rest : List Char) :
    ignoredFrom false .blanks ('(' :: '?' :: c :: rest) = some 0 := by
  rw [ignoredFrom]
  · rfl
  · rintro rest' - heq
    exact h (List.cons.inj (List.cons.inj heq).2).1

theorem calm_nil : Calm [] := ⟨by rw [ignoredFrom], by simp, by simp⟩

theorem calm_cons {c : Char} (h : c ≠ '(' ∧ c ≠ '?' ∧ c ≠ '+') (rest : List Char) :
    Calm (c :: rest) :=
  ⟨ignoredFrom_cons h.1 rest, by simpa using h.2.1, by simpa using h.2.2⟩

theorem calm_open {c : Char} (h : c ≠ '#') (rest : List Char) : Calm ('(' :: '?' :: c :: rest) :=
  ⟨ignoredFrom_open h rest, by simp, by simp⟩

theorem calm_cons_append {c : Char} (h : c ≠ '(' ∧ c ≠ '?' ∧ c ≠ '+') (piece : List Char) :
    ∀ rest, Calm rest → Calm ((c :: piece) ++ rest) := fun rest _ => calm_cons h (piece ++ rest)

theorem calm_open_append {c : Char} (h : c ≠ '#') (piece : List Char) :
    ∀ rest, Calm rest → Calm ((['(', '?', c] ++ piece) ++ rest) :=
  fun rest _ => calm_open h (piece ++ rest)

namespace Reader

structure IsDefault (r : Reader) : Prop where
  flags : r.flags = {}
  numbered : r.numbered = false

structure SameGroups (r r' : Reader) : Prop where
  groups : r'.groups = r.groups
  names : r'.names = r.names

theorem SameGroups.trans {r₁ r₂ r₃ : Reader} (h : r₁.SameGroups r₂) (h' : r₂.SameGroups r₃) :
    r₁.SameGroups r₃ := ⟨h'.groups.trans h.groups, h'.names.trans h.names⟩

/-- The groups around the current one are the same, and the current one has got these parts. -/
structure Becomes (r : Reader) (parts : Parts) (r' : Reader) : Prop where
  isDefault : r'.IsDefault
  enclosing : r'.enclosing = r.enclosing
  parts : r'.parts = parts
  sameGroups : r.SameGroups r'

theorem step_of_ignored {r : Reader} (hr : r.IsDefault) {c : Char} {rest : List Char}
    (h : ignoredFrom false .blanks (c :: rest) = some 0) :
    ignoredFrom r.flags.extended .blanks (c :: rest) = some 0 := by
  rw [hr.flags]
  exact h

theorem becomes_add {r : Reader} (hr : r.IsDefault) (node : Node) :
    r.Becomes (r.parts.add node) (r.add node) := ⟨⟨hr.flags, hr.numbered⟩, rfl, rfl, rfl, rfl⟩

def replaceLast (r : Reader) (node : Node) : Reader :=
  { r with parts := { r.parts with pieces := node :: r.parts.pieces, last := none } }

theorem quantify_lazy {r : Reader} (hr : r.IsDefault) {piece : Node} (hlast : r.parts.last = some piece)
    (hpiece : piece.isRepeatable = true) (least : Nat) {rest : List Char} (hrest : Calm rest) :
    r.quantify least none ('?' :: rest) =
      some (r.replaceLast (.repetition piece least none false), 1) := by
  have hignored := ignoredFrom_cons (by decide : '?' ≠ '(') rest
  have hplus := hrest.notPossessive
  rw [List.head?_eq_getElem?] at hplus
  simp [quantify, hlast, hr.flags, hignored, hplus, hpiece, replaceLast]

theorem quantify_greedy {r : Reader} (hr : r.IsDefault) {piece : Node}
    (hlast : r.parts.last = some piece) (hpiece : piece.isRepeatable = true) (least : Nat)
    {rest : List Char} (hrest : Calm rest) :
    r.quantify least none rest = some (r.replaceLast (.repetition piece least none true), 0) := by
  have hmark := hrest.notLazy
  have hplus := hrest.notPossessive
  rw [List.head?_eq_getElem?] at hmark hplus
  simp [quantify, hlast, hr.flags, hrest.ignored, hmark, hplus, hpiece, replaceLast]

/-- The current branch has got these nodes in addition. -/
structure Grows (r : Reader) (nodes : List Node) (r' : Reader) : Prop where
  isDefault : r'.IsDefault
  enclosing : r'.enclosing = r.enclosing
  branches : r'.parts.branches = r.parts.branches
  settled : r'.parts.settled = nodes.reverse ++ r.parts.settled

theorem grows_nil {r : Reader} (hr : r.IsDefault) : r.Grows [] r := ⟨hr, rfl, rfl, rfl⟩

theorem Grows.append {r₁ r₂ r₃ : Reader} {nodes more : List Node} (h : r₁.Grows nodes r₂)
    (h' : r₂.Grows more r₃) : r₁.Grows (nodes ++ more) r₃ := by
  refine ⟨h'.isDefault, h'.enclosing.trans h.enclosing, h'.branches.trans h.branches, ?_⟩
  rw [h'.settled, h.settled, List.reverse_append, List.append_assoc]

theorem Grows.node {r r' : Reader} {nodes : List Node} (h : r.Grows nodes r') (hparts : r.parts = {}) :
    r'.parts.node = .ofPieces nodes := by
  rw [Parts.node, h.branches, Parts.branch, h.settled, hparts]
  simp [Parts.settled, Node.ofBranches]

structure Extends (r : Reader) (nodes : List Node) (r' : Reader) : Prop extends r.Grows nodes r' where
  sameGroups : r.SameGroups r'

def pieceOf (node : Node) : List Node := if node.isEmpty then [] else [node]

theorem ofPieces_pieceOf (node : Node) : Node.ofPieces (pieceOf node) = node := by
  unfold pieceOf
  split
  · rename_i hempty
    unfold Node.isEmpty at hempty
    split at hempty
    · rfl
    · cases hempty
  · rfl

theorem settled_add (parts : Parts) (node : Node) :
    (parts.add node).settled = (pieceOf node).reverse ++ parts.settled := by
  rw [Parts.settled, Parts.add, pieceOf]
  dsimp only
  split <;> rfl

theorem grows_of_add {r r' : Reader} {node : Node} (hr' : r'.IsDefault)
    (henclosing : r'.enclosing = r.enclosing) (hparts : r'.parts = r.parts.add node) :
    r.Grows (pieceOf node) r' := by
  refine ⟨hr', henclosing, ?_, ?_⟩
  · rw [hparts]
    rfl
  · rw [hparts, settled_add]

theorem Becomes.extends {r r' : Reader} {node : Node} (h : r.Becomes (r.parts.add node) r') :
    r.Extends (pieceOf node) r' :=
  ⟨grows_of_add h.isDefault h.enclosing h.parts, h.sameGroups⟩

theorem node?_of_isDefault {r : Reader} (hr : r.IsDefault) : r.node? = some r.parts.node := by
  simp [node?, hr.numbered]

variable [Engine]

/-- Reading `text` leads to such a reader, with `rest` still to be read. -/
def ReadsTo (r : Reader) (text rest : List Char) (p : Reader → Prop) : Prop :=
  ∃ r', p r' ∧ r.run 0 (text ++ rest) = r'.run 0 rest

section
variable {r : Reader} {p q : Reader → Prop}

theorem readsTo_of_eq {text rest : List Char} {r' : Reader} (h : p r')
    (heq : r.run 0 (text ++ rest) = r'.run 0 rest) : r.ReadsTo text rest p := ⟨r', h, heq⟩

theorem ReadsTo.append {first second rest : List Char} (h : r.ReadsTo first (second ++ rest) p)
    (hnext : ∀ r', p r' → r'.ReadsTo second rest q) : r.ReadsTo (first ++ second) rest q := by
  obtain ⟨r', hr', heq⟩ := h
  unfold ReadsTo
  rw [List.append_assoc, heq]
  exact hnext r' hr'

theorem ReadsTo.imp {text rest : List Char} (h : r.ReadsTo text rest p)
    (himp : ∀ r', p r' → q r') : r.ReadsTo text rest q := by
  obtain ⟨r', hr', heq⟩ := h
  exact ⟨r', himp r' hr', heq⟩

theorem run_of_step {r r' : Reader} {c : Char} {rest : List Char} {n : Nat}
    (h : r.step c rest = some (r', n)) : r.run 0 (c :: rest) = r'.run n rest := by
  rw [run, h]

end

def special : List Char :=
  ['.', '^', '$', '(', ')', '|', '[', '\\', '?', '*', '+', '\x7b']

theorem step_ordinary {r : Reader} (hr : r.IsDefault) {c : Char} (h : c ∉ special)
    (rest : List Char) : r.step c rest = some (r.add (.chars (.char c)), 0) := by
  have hparen : c ≠ '(' := by
    rintro rfl
    exact h (by decide)
  unfold step
  rw [step_of_ignored hr (ignoredFrom_cons hparen rest)]
  dsimp only
  split
  case h_13 =>
    rw [literal, hr.flags]
    rfl
  all_goals exact absurd (by decide) h

theorem step_dot {r : Reader} (hr : r.IsDefault) (rest : List Char) :
    r.step '.' rest = some (r.add (.chars .notNewline), 0) := by
  unfold step
  rw [step_of_ignored hr (ignoredFrom_cons (by decide) rest), hr.flags]
  rfl

theorem step_caret {r : Reader} (hr : r.IsDefault) (rest : List Char) :
    r.step '^' rest = some (r.add (.assertion .textStart), 0) := by
  unfold step
  rw [step_of_ignored hr (ignoredFrom_cons (by decide) rest), hr.flags]
  rfl

theorem step_dollar {r : Reader} (hr : r.IsDefault) (rest : List Char) :
    r.step '$' rest = some (r.add (.assertion .textEnd), 0) := by
  unfold step
  rw [step_of_ignored hr (ignoredFrom_cons (by decide) rest), hr.flags]
  rfl

theorem step_nonWord {r : Reader} (hr : r.IsDefault) (rest : List Char) :
    r.step '\\' ('W' :: rest) = some (r.add (.chars (.compl .word)), 1) := by
  unfold step
  rw [step_of_ignored hr (ignoredFrom_cons (by decide) _)]
  rfl

theorem step_star {r : Reader} (hr : r.IsDefault) (rest : List Char) :
    r.step '*' rest = r.quantify 0 none rest := by
  unfold step
  rw [step_of_ignored hr (ignoredFrom_cons (by decide) rest)]
  rfl

theorem step_plus {r : Reader} (hr : r.IsDefault) (rest : List Char) :
    r.step '+' rest = r.quantify 1 none rest := by
  unfold step
  rw [step_of_ignored hr (ignoredFrom_cons (by decide) rest)]
  rfl

/-- Reading `text` adds the nodes to the current branch. -/
def Adds (text : List Char) (nodes : List Node) : Prop :=
  ∀ (r : Reader) (rest : List Char), r.IsDefault → Calm rest → r.ReadsTo text rest (r.Extends nodes)

theorem adds_nil : Adds [] [] := fun _ _ hr _ => readsTo_of_eq ⟨grows_nil hr, rfl, rfl⟩ rfl

theorem Adds.append {first second : List Char} {nodes more : List Node} (h : Adds first nodes)
    (hcalm : ∀ rest, Calm rest → Calm (second ++ rest)) (h' : Adds second more) :
    Adds (first ++ second) (nodes ++ more) := by
  intro r rest hr hrest
  refine (h r (second ++ rest) hr (hcalm rest hrest)).append fun r₁ h₁ => ?_
  refine (h' r₁ rest h₁.isDefault hrest).imp fun r₂ h₂ => ?_
  exact ⟨h₁.toGrows.append h₂.toGrows, h₁.sameGroups.trans h₂.sameGroups⟩

theorem adds_of_step {c : Char} {node : Node}
    (h : ∀ (r : Reader) (rest : List Char), r.IsDefault → r.step c rest = some (r.add node, 0)) :
    Adds [c] (pieceOf node) :=
  fun r rest hr _ => readsTo_of_eq (becomes_add hr node).extends (run_of_step (h r rest hr))

theorem adds_quantified {text sign : List Char} {piece : Node} {least : Nat} {greedy : Bool}
    (h : ∀ (r : Reader) (rest : List Char), r.IsDefault →
      r.ReadsTo text rest (r.Becomes (r.parts.add piece)))
    (hsign : ∀ (r : Reader) (rest : List Char), r.IsDefault → r.parts.last = some piece →
      Calm rest → r.run 0 (sign ++ rest) =
        (r.replaceLast (.repetition piece least none greedy)).run 0 rest) :
    Adds (text ++ sign) [.repetition piece least none greedy] := by
  intro r rest hr hrest
  refine (h r (sign ++ rest) hr).append fun r₁ h₁ => ?_
  have hlast : r₁.parts.last = some piece := by
    rw [h₁.parts]
    rfl
  refine ⟨_, ?_, hsign r₁ rest h₁.isDefault hlast hrest⟩
  refine ⟨⟨⟨h₁.isDefault.flags, h₁.isDefault.numbered⟩, h₁.enclosing, ?_, ?_⟩, ?_⟩
  · rw [replaceLast, h₁.parts]
    rfl
  · rw [replaceLast, h₁.parts]
    rfl
  · exact ⟨h₁.sameGroups.groups, h₁.sameGroups.names⟩

theorem run_lazyStar {r : Reader} {rest : List Char} {piece : Node}
    (hpiece : piece.isRepeatable = true) (hr : r.IsDefault) (hlast : r.parts.last = some piece)
    (hrest : Calm rest) : r.run 0 (['*', '?'] ++ rest) =
      (r.replaceLast (.repetition piece 0 none false)).run 0 rest := by
  rw [List.cons_append, List.cons_append, List.nil_append,
    run_of_step ((step_star hr _).trans (quantify_lazy hr hlast hpiece 0 hrest)), run]

theorem run_star {r : Reader} {rest : List Char} {piece : Node}
    (hpiece : piece.isRepeatable = true) (hr : r.IsDefault) (hlast : r.parts.last = some piece)
    (hrest : Calm rest) : r.run 0 (['*'] ++ rest) =
      (r.replaceLast (.repetition piece 0 none true)).run 0 rest :=
  run_of_step ((step_star hr _).trans (quantify_greedy hr hlast hpiece 0 hrest))

theorem run_plus {r : Reader} {rest : List Char} {piece : Node}
    (hpiece : piece.isRepeatable = true) (hr : r.IsDefault) (hlast : r.parts.last = some piece)
    (hrest : Calm rest) : r.run 0 (['+'] ++ rest) =
      (r.replaceLast (.repetition piece 1 none true)).run 0 rest :=
  run_of_step ((step_plus hr _).trans (quantify_greedy hr hlast hpiece 1 hrest))

theorem readsTo_dot (r : Reader) (rest : List Char) (hr : r.IsDefault) :
    r.ReadsTo ['.'] rest (r.Becomes (r.parts.add (.chars .notNewline))) :=
  readsTo_of_eq (becomes_add hr _) (run_of_step (step_dot hr rest))

theorem readsTo_nonWord (r : Reader) (rest : List Char) (hr : r.IsDefault) :
    r.ReadsTo ['\\', 'W'] rest (r.Becomes (r.parts.add (.chars (.compl .word)))) := by
  refine readsTo_of_eq (becomes_add hr _) ?_
  rw [List.cons_append, List.singleton_append, run_of_step (step_nonWord hr _), run]

theorem adds_lazyAny : Adds ['.', '*', '?'] [.repetition (.chars .notNewline) 0 none false] :=
  adds_quantified readsTo_dot fun _ _ hr hlast hrest => run_lazyStar rfl hr hlast hrest

theorem adds_any : Adds ['.', '*'] [.repetition (.chars .notNewline) 0 none true] :=
  adds_quantified readsTo_dot fun _ _ hr hlast hrest => run_star rfl hr hlast hrest

theorem adds_nonWords : Adds ['\\', 'W', '+'] [.repetition (.chars (.compl .word)) 1 none true] :=
  adds_quantified readsTo_nonWord fun _ _ hr hlast hrest => run_plus rfl hr hlast hrest

/-- Reading `text` inside a group makes the node out of the group. -/
def Fills (text : List Char) (node : Node) : Prop :=
  ∀ (r : Reader) (rest : List Char), r.IsDefault → r.parts = {} →
    r.ReadsTo text (')' :: rest) fun r' =>
      r'.IsDefault ∧ r'.enclosing = r.enclosing ∧ r'.parts.node = node ∧ r.SameGroups r'

theorem Adds.fills {text : List Char} {nodes : List Node} (h : Adds text nodes) :
    Fills text (.ofPieces nodes) := by
  intro r rest hr hparts
  refine (h r (')' :: rest) hr (calm_cons (by decide) rest)).imp fun r' h' => ?_
  exact ⟨h'.isDefault, h'.enclosing, h'.node hparts, h'.sameGroups⟩

theorem step_bar {r : Reader} (hr : r.IsDefault) (rest : List Char) :
    r.step '|' rest = some ({ r with parts := r.parts.nextBranch }, 0) := by
  unfold step
  rw [step_of_ignored hr (ignoredFrom_cons (by decide) rest)]
  rfl

theorem readsTo_branches {texts : List (List Char)} {branches : List (List Node)}
    (h : List.Forall₂ Adds texts branches) (hne : texts ≠ []) (r : Reader) (rest : List Char)
    (hr : r.IsDefault) (hsettled : r.parts.settled = []) :
    r.ReadsTo (['|'].intercalate texts) (')' :: rest) fun r' =>
      r'.IsDefault ∧ r'.enclosing = r.enclosing ∧ r.SameGroups r' ∧
        r'.parts.branch :: r'.parts.branches =
          (branches.map Node.ofPieces).reverse ++ r.parts.branches := by
  induction h generalizing r with
  | nil => exact absurd rfl hne
  | @cons text nodes texts branches first others ih =>
    cases others with
    | nil =>
      rw [List.intercalate_singleton]
      refine (first r (')' :: rest) hr (calm_cons (by decide) rest)).imp fun r' h' => ?_
      refine ⟨h'.isDefault, h'.enclosing, h'.sameGroups, ?_⟩
      rw [h'.branches, Parts.branch, h'.settled, hsettled]
      simp
    | @cons second _ texts _ _ _ =>
      rw [List.intercalate_cons_cons, List.append_assoc]
      refine (first r _ hr (calm_cons (by decide) _)).append fun r₁ h₁ => ?_
      refine ReadsTo.append (readsTo_of_eq (p := (r₁.Becomes r₁.parts.nextBranch)) ?_
        (run_of_step (step_bar h₁.isDefault _))) fun r₂ h₂ => ?_
      · exact ⟨⟨h₁.isDefault.flags, h₁.isDefault.numbered⟩, rfl, rfl, rfl, rfl⟩
      · refine (ih (List.cons_ne_nil _ _) r₂ h₂.isDefault (by rw [h₂.parts]; rfl)).imp ?_
        rintro r₃ ⟨hdefault, henclosing, hsame, hbranches⟩
        refine ⟨hdefault, henclosing.trans (h₂.enclosing.trans h₁.enclosing),
          (h₁.sameGroups.trans h₂.sameGroups).trans hsame, ?_⟩
        rw [hbranches, h₂.parts, Parts.nextBranch, h₁.branches, Parts.branch, h₁.settled, hsettled]
        simp

theorem fills_branches {texts : List (List Char)} {branches : List (List Node)}
    (h : List.Forall₂ Adds texts branches) (hlength : 2 ≤ texts.length) :
    Fills (['|'].intercalate texts) (.alt (branches.map Node.ofPieces)) := by
  intro r rest hr hparts
  have hne : texts ≠ [] := by
    rintro rfl
    cases hlength
  refine (readsTo_branches h hne r rest hr (by rw [hparts]; rfl)).imp ?_
  rintro r' ⟨hdefault, henclosing, hsame, hbranches⟩
  refine ⟨hdefault, henclosing, ?_, hsame⟩
  rw [Parts.node, hbranches, hparts, List.append_nil, List.reverse_reverse]
  rw [h.length_eq] at hlength
  match branches, hlength with
  | _ :: _ :: _, _ => rfl

/-- The opening characters of a group, and what becomes of the node in it. -/
structure Encloses (opening : List Char) (opener : Opener) (wrap : Node → Node) : Prop where
  opens : ∀ (r : Reader) (rest : List Char), r.IsDefault →
    r.run 0 (opening ++ rest) = (r.reach.enter opener).run 0 rest
  closes : ∀ (r : Reader) (outside : Parts) (enclosing : List (Opener × Parts)), r.IsDefault →
    r.enclosing = (opener, outside) :: enclosing →
      r.closeGroup = some ({ r with parts := outside, enclosing := enclosing }.add (wrap r.parts.node))

theorem run_group {r : Reader} (hr : r.IsDefault) {c : Char} (hc : c ≠ '#') {opener : Opener}
    (rest : List Char) (h : r.group ('?' :: c :: rest) = some (r.reach.enter opener, 2)) :
    r.run 0 (['(', '?', c] ++ rest) = (r.reach.enter opener).run 0 rest := by
  have hstep : r.step '(' ('?' :: c :: rest) = r.group ('?' :: c :: rest) := by
    unfold step
    rw [step_of_ignored hr (ignoredFrom_open hc rest)]
    rfl
  rw [List.cons_append, List.cons_append, List.cons_append, List.nil_append,
    run_of_step (hstep.trans h), run, run]

theorem encloses_plain : Encloses ['(', '?', ':'] (.plain {}) id where
  opens := by
    intro r rest hr
    refine run_group hr (by decide) rest ?_
    rw [group, hr.flags, ignoredFrom_cons (by decide)]
    have hflags : r.reach.flags = {} := hr.flags
    simp [readFlags, enter, hflags]
  closes := by
    intro r outside enclosing hr henclosing
    rw [closeGroup, henclosing, node?_of_isDefault hr]
    simp [add, ← hr.flags]

theorem encloses_ahead (negated : Bool) :
    Encloses ['(', '?', if negated then '!' else '='] (.lookAhead negated) (.lookAhead negated) where
  opens := by
    intro r rest hr
    refine run_group hr (by cases negated <;> decide) rest ?_
    rw [group, hr.flags, ignoredFrom_cons (by decide)]
    cases negated <;> rfl
  closes := by
    intro r outside enclosing hr henclosing
    rw [closeGroup, henclosing, node?_of_isDefault hr]

theorem encloses_lookAhead : Encloses ['(', '?', '='] (.lookAhead false) (.lookAhead false) :=
  encloses_ahead false

theorem encloses_notAhead : Encloses ['(', '?', '!'] (.lookAhead true) (.lookAhead true) :=
  encloses_ahead true

theorem Encloses.readsTo {opening text : List Char} {opener : Opener} {wrap : Node → Node}
    {node : Node} (h : Encloses opening opener wrap) (hfills : Fills text node) (r : Reader)
    (rest : List Char) (hr : r.IsDefault) :
    r.ReadsTo (opening ++ (text ++ [')'])) rest (r.Becomes (r.parts.add (wrap node))) := by
  have hopens : r.ReadsTo opening ((text ++ [')']) ++ rest) (· = r.reach.enter opener) :=
    ⟨_, rfl, h.opens r _ hr⟩
  refine hopens.append ?_
  rintro r₁ rfl
  refine (hfills (r.reach.enter opener) rest ⟨hr.flags, hr.numbered⟩ rfl).append ?_
  rintro r₂ ⟨hdefault, henclosing, rfl, hsame⟩
  have hstep : r₂.step ')' rest = some (({ r₂ with parts := r.parts, enclosing := r.enclosing } :
      Reader).add (wrap r₂.parts.node), 0) := by
    unfold step
    rw [step_of_ignored hdefault (ignoredFrom_cons (by decide) rest)]
    dsimp only
    rw [h.closes r₂ r.parts r.enclosing hdefault henclosing]
    rfl
  refine ⟨_, ?_, run_of_step hstep⟩
  exact ⟨⟨hdefault.flags, hdefault.numbered⟩, rfl, rfl, hsame.groups, hsame.names⟩

end Reader

open Reader

variable [Engine]

/-- The text, as part of a regular expression, matches according to the relation. -/
structure Denotes (text : Subject) (piece : List Char) (S : SpanSet) : Prop where
  calm : ∀ rest, Calm rest → Calm (piece ++ rest)
  reads : ∃ nodes, Adds piece nodes ∧ RealizesSeq text nodes S

section
variable {text : Subject}

theorem denotes_nil : Denotes text [] Eq := ⟨fun _ h => h, [], adds_nil, .nil⟩

theorem Denotes.append {first second : List Char} {S S' : SpanSet} (h : Denotes text first S)
    (h' : Denotes text second S') : Denotes text (first ++ second) (Comp S S') := by
  obtain ⟨nodes, hadds, hrealizes⟩ := h.reads
  obtain ⟨nodes', hadds', hrealizes'⟩ := h'.reads
  refine ⟨fun rest hrest => ?_, _, hadds.append h'.calm hadds', hrealizes.append hrealizes'⟩
  rw [List.append_assoc]
  exact h.calm _ (h'.calm rest hrest)

theorem Denotes.of_iff {piece : List Char} {S S' : SpanSet} (h : Denotes text piece S)
    (hiff : ∀ i j, S i j ↔ S' i j) : Denotes text piece S' := by
  have heq : S = S' := funext fun i => funext fun j => propext (hiff i j)
  exact heq ▸ h

theorem denotes_char {c : Char} (h : c ∉ special) :
    Denotes text [c] (Advance (At text (· == c))) := by
  have hc : c ≠ '(' ∧ c ≠ '?' ∧ c ≠ '+' := by
    refine ⟨?_, ?_, ?_⟩ <;>
      · rintro rfl
        exact h (by decide)
  exact ⟨calm_cons_append hc [], _, adds_of_step fun r rest hr => step_ordinary hr h rest,
    .single (realizes_chars _)⟩

theorem denotes_dot : Denotes text ['.'] (Advance (At text CharSet.notNewline.contains)) :=
  ⟨calm_cons_append (by decide) [], _, adds_of_step fun _ rest hr => step_dot hr rest,
    .single (realizes_chars _)⟩

theorem denotes_caret :
    Denotes text ['^'] (Stay fun i => Assertion.textStart.holds text i = true) :=
  ⟨calm_cons_append (by decide) [], _, adds_of_step fun _ rest hr => step_caret hr rest,
    .single (realizes_assertion _)⟩

theorem denotes_dollar :
    Denotes text ['$'] (Stay fun i => Assertion.textEnd.holds text i = true) :=
  ⟨calm_cons_append (by decide) [], _, adds_of_step fun _ rest hr => step_dollar hr rest,
    .single (realizes_assertion _)⟩

theorem denotes_lazyAny :
    Denotes text ['.', '*', '?'] (ReflTransGen (Advance (At text CharSet.notNewline.contains))) :=
  ⟨calm_cons_append (by decide) _, _, adds_lazyAny, .single (realizes_many _ _)⟩

theorem denotes_any :
    Denotes text ['.', '*'] (ReflTransGen (Advance (At text CharSet.notNewline.contains))) :=
  ⟨calm_cons_append (by decide) _, _, adds_any, .single (realizes_many _ _)⟩

theorem denotes_nonWords :
    Denotes text ['\\', 'W', '+'] (Comp (Advance (At text (CharSet.compl .word).contains))
      (ReflTransGen (Advance (At text (CharSet.compl .word).contains)))) :=
  ⟨calm_cons_append (by decide) _, _, adds_nonWords, .single (realizes_some _ _)⟩

theorem Encloses.adds {opening piece : List Char} {opener : Opener} {wrap : Node → Node}
    {node : Node} (h : Encloses opening opener wrap) (hfills : Fills piece node) :
    Adds (opening ++ (piece ++ [')'])) (pieceOf (wrap node)) :=
  fun r rest hr _ => (h.readsTo hfills r rest hr).imp fun _ h' => h'.extends

omit [Engine] in
theorem Node.Realizes.pieceOf {node : Node} {S : SpanSet} (h : node.Realizes text S) :
    RealizesSeq text (pieceOf node) S := by
  unfold Reader.pieceOf
  split
  · rename_i hempty
    have hnode : node = .seq [] := by
      unfold Node.isEmpty at hempty
      split at hempty
      · rfl
      · cases hempty
    subst hnode
    have heq : S = Eq := by
      funext i j
      have hends := h.ends rfl (.start i) (.start j)
      rw [Node.ends, endsSeq, List.mem_singleton] at hends
      refine propext ⟨fun hj => ?_, fun hij => ?_⟩
      · exact (congrArg Thread.position (hends.mpr ⟨j, hj, rfl⟩)).symm
      · obtain ⟨l, hl, heq⟩ := hends.mp (by rw [hij])
        rw [show j = l from congrArg Thread.position heq]
        exact hl
    subst heq
    exact .nil
  · exact .single h

theorem Denotes.group {piece : List Char} {S : SpanSet} (h : Denotes text piece S) :
    Denotes text (['(', '?', ':'] ++ (piece ++ [')'])) S := by
  obtain ⟨nodes, hadds, hrealizes⟩ := h.reads
  exact ⟨calm_open_append (by decide) _, _, Encloses.adds encloses_plain hadds.fills,
    hrealizes.realizes.pieceOf⟩

theorem Denotes.lookAhead {piece : List Char} {S : SpanSet} (h : Denotes text piece S) :
    Denotes text (['(', '?', '='] ++ (piece ++ [')'])) (Stay fun i => ∃ j, S i j) := by
  obtain ⟨nodes, hadds, hrealizes⟩ := h.reads
  have hnode := realizes_lookAhead false hrealizes.realizes
  refine Denotes.of_iff ⟨calm_open_append (by decide) _, _,
    Encloses.adds encloses_lookAhead hadds.fills, hnode.pieceOf⟩ fun i j => ?_
  simp [Stay]

theorem exists_branches {pieces : List (List Char)} {Ss : List SpanSet}
    (h : List.Forall₂ (Denotes text) pieces Ss) :
    ∃ branches, List.Forall₂ Adds pieces branches ∧
      RealizesAny text (branches.map Node.ofPieces) fun i j => ∃ S ∈ Ss, S i j := by
  induction h with
  | nil =>
    refine ⟨[], .nil, ?_⟩
    simp only [List.not_mem_nil, false_and, exists_false]
    exact .nil
  | cons first _ ih =>
    obtain ⟨nodes, hadds, hrealizes⟩ := first.reads
    obtain ⟨branches, hothers, hany⟩ := ih
    refine ⟨nodes :: branches, .cons hadds hothers, ?_⟩
    simp only [List.mem_cons, exists_eq_or_imp]
    exact .cons hrealizes.realizes hany

theorem denotes_branches {pieces : List (List Char)} {Ss : List SpanSet}
    (h : List.Forall₂ (Denotes text) pieces Ss) (hlength : 2 ≤ pieces.length) :
    Denotes text (['(', '?', ':'] ++ (['|'].intercalate pieces ++ [')']))
      fun i j => ∃ S ∈ Ss, S i j := by
  obtain ⟨branches, hadds, hrealizes⟩ := exists_branches h
  exact ⟨calm_open_append (by decide) _, _,
    Encloses.adds encloses_plain (fills_branches hadds hlength), hrealizes.realizes.pieceOf⟩

def Unmatched (text : Subject) (S : SpanSet) (i : Nat) : Prop :=
  (¬ ∃ j, S i j) ∧ At text CharSet.notNewline.contains i

omit [Engine] in
theorem Node.Realizes.unmatched {body : Node} {S : SpanSet} (h : body.Realizes text S) :
    Node.Realizes text (.seq [.lookAhead true body, .chars .notNewline])
      (Advance (Unmatched text S)) := by
  have hchars : Node.Realizes text (.chars .notNewline) _ := realizes_chars _
  have hseq := RealizesSeq.cons (realizes_lookAhead true h) (.single hchars)
  have heq : Comp (Stay fun i => (∃ j, S i j) ↔ true = false)
      (Advance (At text CharSet.notNewline.contains)) = Advance (Unmatched text S) := by
    funext i j
    simp only [Comp, Stay, Advance, Unmatched, Bool.true_eq_false, iff_false, eq_iff_iff]
    constructor
    · rintro ⟨l, ⟨hnone, rfl⟩, hat, rfl⟩
      exact ⟨⟨hnone, hat⟩, rfl⟩
    · rintro ⟨⟨hnone, hat⟩, rfl⟩
      exact ⟨i, ⟨hnone, rfl⟩, hat, rfl⟩
  rw [heq] at hseq
  exact hseq.realizes_seq

omit [Engine] in
theorem advances_unmatched (S : SpanSet) : Advances text.size (Advance (Unmatched text S)) := by
  rintro i j ⟨⟨-, hat⟩, rfl⟩
  exact ⟨Nat.lt_succ_self i, hat.lt_size⟩

theorem Denotes.unmatched {piece : List Char} {S : SpanSet} (h : Denotes text piece S) :
    Denotes text ((['(', '?', ':'] ++ (((['(', '?', '!'] ++ (piece ++ [')'])) ++ ['.']) ++ [')'])) ++
      ['+']) (Comp (Advance (Unmatched text S)) (ReflTransGen (Advance (Unmatched text S)))) := by
  obtain ⟨nodes, hadds, hrealizes⟩ := h.reads
  -- the body has to be known as a node, since only then it is known that it may be repeated
  have hbody : Adds ((['(', '?', '!'] ++ (piece ++ [')'])) ++ ['.'])
      [.lookAhead true (.ofPieces nodes), .chars .notNewline] :=
    Adds.append (Encloses.adds encloses_notAhead hadds.fills) (calm_cons_append (by decide) [])
      (adds_of_step fun _ rest hr => step_dot hr rest)
  refine ⟨fun rest _ => calm_open (by decide) _, _,
    adds_quantified (fun r rest hr => encloses_plain.readsTo hbody.fills r rest hr)
      fun _ _ hr hlast hrest => run_plus rfl hr hlast hrest, ?_⟩
  exact .single (realizes_some_of_not_isPlain hrealizes.realizes.unmatched (advances_unmatched S)
    rfl true)

theorem exists_of_read? {source : String} {nodes : List Node} {p : Reader → Prop} {regex : Regex}
    (h : ({} : Reader).ReadsTo source.toList [] fun r => ({} : Reader).Grows nodes r ∧ p r)
    (hread : read? source = some regex) : ∃ r, p r ∧ regex = ⟨.ofPieces nodes, r.names⟩ := by
  unfold ReadsTo at h
  rw [List.append_nil] at h
  unfold read? at hread
  obtain ⟨r, ⟨hgrows, hr⟩, heq⟩ := h
  rw [heq, run] at hread
  obtain ⟨root, hroot, rfl⟩ := Option.map_eq_some_iff.mp hread
  rw [finish?, node?_of_isDefault hgrows.isDefault, hgrows.node rfl] at hroot
  split at hroot
  · obtain rfl := Option.some.inj hroot
    exact ⟨r, hr, rfl⟩
  · cases hroot

/-- Reading a whole text that stands for a relation gives a regular expression that matches
according to it. -/
theorem Denotes.realizes_of_read? {source : String} {S : SpanSet} {regex : Regex}
    (h : Denotes text source.toList S) (hread : read? source = some regex) :
    regex.root.Realizes text S := by
  obtain ⟨nodes, hadds, hrealizes⟩ := h.reads
  have hrun := (hadds {} [] ⟨rfl, rfl⟩ calm_nil).imp fun _ hr => And.intro hr.toGrows trivial
  obtain ⟨r, -, rfl⟩ := exists_of_read? hrun hread
  exact hrealizes.realizes

end

end PhrasePattern.Regex
