import PhrasePattern.Proofs.Regex.Lockstep

/-! Texts without groups. Such a text adds the same pieces to the current branch wherever it is read; if
it has alternatives, it adds branches, as long as a branch begins with it. All the same can be found if it
has a group around it. -/
namespace PhrasePattern.Regex

/-- The sign neither opens nor closes a group, refers to none and sets no flags. A bar is allowed if
`alone`. -/
def Sign.IsFlat (alone : Bool) : Sign → Prop
  | blank | literal _ | anyChar | lineStart | lineEnd | charClass _ | quantifier _ _ _ _ => True
  | bar => alone = true
  | escaped (.group _) => False
  | escaped _ => True
  | closing | enter _ | capture _ | flags _ _ | sameAs _ | test _ | ask => False

/-- A node that is not left out and that can be searched step by step. -/
structure Node.IsSolid (n : Node) : Prop where
  notEmpty : n.isEmpty = false
  direct : n.IsDirect

theorem Node.IsAtom.isSolid {n : Node} (h : n.IsAtom) : n.IsSolid := by
  cases h with
  | chars set => exact ⟨rfl, isDirect_chars set⟩
  | assertion test => exact ⟨rfl, isDirect_assertion test⟩
  | guarded notPlain notEmpty => exact ⟨notEmpty, isDirect_of_not_isPlain notPlain⟩

theorem Node.IsAtom.repeated {n : Node} (h : n.IsAtom) (hrepeatable : n.isRepeatable = true) (least : Nat)
    (most? : Option Nat) (greedy isPossessive : Bool) :
    (n.repeated least most? greedy isPossessive).IsSolid := by
  unfold Node.repeated
  split
  · exact ⟨rfl, isDirect_of_not_isPlain (by rw [Node.isPlain])⟩
  · refine ⟨rfl, ?_⟩
    cases h with
    | chars set => exact isDirect_repetition set least most? greedy
    | assertion test => cases hrepeatable
    | guarded notPlain notEmpty => exact isDirect_of_not_isPlain (by rw [Node.isPlain, notPlain])

namespace Parts

def behind (outside inside : Parts) : Parts :=
  ⟨inside.branches ++ outside.branches, inside.pieces ++ outside.settled, inside.last⟩

theorem settled_behind (outside inside : Parts) :
    (outside.behind inside).settled = inside.settled ++ outside.settled := by
  unfold behind settled
  cases inside.last with
  | none => rfl
  | some node =>
    dsimp only
    split <;> rfl

theorem behind_add (outside inside : Parts) (node : Node) :
    (outside.behind inside).add node = outside.behind (inside.add node) := by
  rw [add, settled_behind]
  rfl

theorem behind_nextBranch {outside : Parts} (h : outside.settled = []) (inside : Parts) :
    (outside.behind inside).nextBranch = outside.behind inside.nextBranch := by
  have hbranch : (outside.behind inside).branch = inside.branch := by
    rw [branch, settled_behind, h, List.append_nil, branch]
  rw [nextBranch, hbranch, nextBranch, behind, behind, h]
  rfl

/-- All pieces are solid, and a quantifier may only follow an atom. -/
structure IsSolid (parts : Parts) : Prop where
  pieces : ∀ n ∈ parts.pieces, n.IsSolid
  last : ∀ n ∈ parts.last, n.IsAtom

theorem isSolid_empty : ({} : Parts).IsSolid := ⟨fun _ h => (nomatch h), fun _ h => (nomatch h)⟩

theorem IsSolid.settled {parts : Parts} (h : parts.IsSolid) : ∀ n ∈ parts.settled, n.IsSolid := by
  intro n hn
  have hlast := h.last
  unfold Parts.settled at hn
  cases hpiece : parts.last with
  | none =>
    rw [hpiece] at hn
    exact h.pieces n hn
  | some node =>
    rw [hpiece] at hn hlast
    dsimp only at hn
    split at hn
    · exact h.pieces n hn
    · rcases List.mem_cons.mp hn with rfl | hn
      · exact (hlast n rfl).isSolid
      · exact h.pieces n hn

/-- Beside what a text adds by itself, the parts of a reader that reads it behind those of `outside`. -/
structure Beside (alone : Bool) (outside : Parts) (started : Bool) (parts own : Parts) : Prop where
  eq : parts = if started then outside.behind own else outside
  fresh : started = false → own = {}
  solid : own.IsSolid
  closed : alone = false → own.branches = []

namespace Beside
variable {alone started : Bool} {outside parts own : Parts}

theorem settled_branches (h : Beside alone outside started parts own) :
    parts.settled = own.settled ++ outside.settled ∧ parts.branches = own.branches ++ outside.branches := by
  rw [h.eq]
  cases started with
  | true => exact ⟨settled_behind _ _, rfl⟩
  | false =>
    rw [h.fresh rfl]
    exact ⟨rfl, rfl⟩

theorem last_eq (h : Beside alone outside true parts own) : parts.last = own.last := by
  rw [h.eq]
  rfl

theorem add (h : Beside alone outside started parts own) {node : Node} (hnode : node.IsAtom) :
    Beside alone outside true (parts.add node) (own.add node) where
  eq := by
    rw [if_pos rfl, ← behind_add, h.eq]
    cases started with
    | true => rfl
    | false =>
      rw [h.fresh rfl]
      rfl
  fresh hstarted := nomatch hstarted
  solid := ⟨h.solid.settled, fun _ hn => Option.some.inj hn ▸ hnode⟩
  closed := h.closed

theorem nextBranch (h : Beside true outside true parts own) (houtside : outside.settled = []) :
    Beside true outside true parts.nextBranch own.nextBranch where
  eq := by
    rw [if_pos rfl, ← behind_nextBranch houtside, h.eq]
    rfl
  fresh hstarted := nomatch hstarted
  solid := ⟨fun _ hn => (nomatch hn), fun _ hn => (nomatch hn)⟩
  closed hclosed := nomatch hclosed

theorem settle (h : Beside alone outside true parts own) {node : Node} (hnode : node.IsSolid) :
    Beside alone outside true { parts with pieces := node :: parts.pieces, last := none }
      { own with pieces := node :: own.pieces, last := none } where
  eq := by
    rw [h.eq]
    rfl
  fresh hstarted := nomatch hstarted
  solid := ⟨fun n hn => (List.mem_cons.mp hn).elim (fun heq => heq ▸ hnode) (h.solid.pieces n),
    fun _ hn => (nomatch hn)⟩
  closed := h.closed

theorem splice (h : Beside alone outside started parts own) :
    Splice own.settled.reverse (Reader.pieceOf own.branch).reverse.reverse := by
  rw [List.reverse_reverse]
  exact .single (fun n hn => (h.solid.settled n (List.mem_reverse.mp hn)).direct)
    fun n hn => (h.solid.settled n (List.mem_reverse.mp hn)).notEmpty

variable {outside' : Parts}

theorem matched (h : Beside false outside started parts own) (hmatched : Matched outside outside') :
    Matched parts (outside'.add own.node) := by
  obtain ⟨hsettled, hbranches⟩ := h.settled_branches
  have hnode : own.node = own.branch := by
    rw [node, h.closed rfl]
    rfl
  rw [h.closed rfl, List.nil_append] at hbranches
  rw [hnode]
  exact hmatched.behind h.splice hbranches rfl hsettled (Reader.settled_add _ _)

theorem closing (h : Beside true outside started parts own) (hopened : Opened outside outside') :
    Closing parts (outside'.add own.node) := by
  obtain ⟨hsettled, hbranches⟩ := h.settled_branches
  have houtside : outside.settled = [] := by
    rw [hopened.begins]
    rfl
  have houtside' : outside'.settled = [] := by
    rw [hopened.begins']
    rfl
  have hbranch : (outside'.add own.node).branch = own.node := by
    rw [branch, Reader.settled_add, houtside', List.append_nil, List.reverse_reverse,
      Reader.ofPieces_pieceOf]
  have hown : (own.branch :: own.branches).reverse ≠ [] := by simp
  rw [Closing, reverse_branches houtside hsettled hbranches, hbranch, List.reverse_cons (a := own.node)]
  exact hopened.branches.append (.single hown)

end Beside

end Parts

namespace Reader

/-- The text is read by `a`, which was `outer` at its beginning, and also by `b`, which was `inner`. -/
structure Beside (alone : Bool) (outer inner : Reader) (started : Bool) (a b : Reader) : Prop where
  abreast : Abreast (Parts.Beside alone outer.parts started) a b
  flags : a.flags = outer.flags
  enclosing : a.enclosing = outer.enclosing
  enclosing' : b.enclosing = inner.enclosing

section
variable {alone started : Bool} {outer inner a b a' b' : Reader} {parts own : Parts}

theorem Beside.become (h : Beside alone outer inner started a b) (hbecome : BothBecome a b a' b' parts own)
    (hparts : Parts.Beside alone outer.parts true parts own) : Beside alone outer inner true a' b' where
  abreast := hbecome.abreast.imp fun heq => heq.1 ▸ heq.2 ▸ hparts
  flags := hbecome.flags.trans h.flags
  enclosing := hbecome.enclosing.trans h.enclosing
  enclosing' := hbecome.enclosing'.trans h.enclosing'

variable [Engine]

theorem pairing_flat (alone : Bool) (outer inner : Reader)
    (houter : alone = true → outer.parts.settled = []) : Pairing (Sign.IsFlat alone) fun started _ a b =>
      (alone = true → started = true) ∧ Beside alone outer inner started a b where
  extended h := ⟨h.2.abreast.extended, h.2.abreast.extended'⟩
  last h := by rw [h.2.abreast.parts.last_eq]
  blank h := h
  follow := by
    rintro started s signs a b a' b' ⟨halone, h⟩ hs hblank hquantifier hfollow hfollow'
    refine ⟨fun _ => rfl, ?_⟩
    cases s with
    | blank => cases hblank
    | bar =>
      obtain rfl : alone = true := hs
      obtain rfl := halone rfl
      exact h.become (h.abreast.follow_bar hfollow hfollow') (h.abreast.parts.nextBranch (houter rfl))
    | quantifier least most? isLazy isPossessive =>
      cases started with
      | false => exact nomatch hquantifier rfl
      | true =>
        obtain ⟨piece, piece', greedy, hlast, hlast', hrepeatable, hbecome⟩ :=
          h.abreast.follow_quantifier hfollow hfollow'
        have hbeside := h.abreast.parts
        rw [hbeside.last_eq, hlast'] at hlast
        obtain rfl := Option.some.inj hlast
        have hatom := hbeside.solid.last piece' hlast'
        exact h.become hbecome
          (hbeside.settle (hatom.repeated hrepeatable least most? greedy isPossessive))
    | literal | anyChar | lineStart | lineEnd | charClass | escaped =>
      obtain ⟨node, hatom, hbecome⟩ := h.abreast.follow_piece (by trivial) hfollow hfollow'
      exact h.become hbecome (h.abreast.parts.add hatom)
    | closing | enter | capture | flags | sameAs | test | ask => exact hs.elim

/-- A text of which no part gets out of it where it is pasted. If it is not `alone`, but in the midst of a
branch, it has no bars and does not begin with a quantifier. -/
def IsFlat (alone : Bool) (text : List Char) : Prop := Ahead (Sign.IsFlat alone) alone (!alone) text

variable {text rest rest' : List Char} {z z' : Reader}

theorem IsFlat.run (h : IsFlat alone text) (hinner : Abreast (fun _ own => own = {}) outer inner)
    (houter : alone = true → outer.parts = { branches := outer.parts.branches })
    (hrest : Firm false rest) (hrest' : Firm false rest') (ha : outer.run 0 (text ++ rest) = some z)
    (hb : inner.run 0 (text ++ rest') = some z') :
    ∃ started a b, Beside alone outer inner started a b ∧ a.run 0 rest = some z ∧
      b.run 0 rest' = some z' := by
  obtain ⟨signs, hsigns, hflat, hfirst⟩ := h
  have hstart : Parts.Beside alone outer.parts alone outer.parts {} := by
    refine ⟨?_, fun _ => rfl, Parts.isSolid_empty, fun _ => rfl⟩
    split
    · rename_i halone
      rw [houter halone]
      rfl
    · rfl
  have hsettled : alone = true → outer.parts.settled = [] := fun halone => by
    rw [houter halone]
    rfl
  have hrepeatable : Pasting.repeatable alone outer = !alone := by
    cases alone with
    | false => rfl
    | true =>
      show outer.parts.last.isSome = false
      rw [houter rfl]
      rfl
  rw [← hrepeatable] at hsigns
  obtain ⟨started, a, b, ⟨-, hbeside⟩, ha', hb'⟩ := (pairing_flat alone outer inner hsettled).run hrest hrest'
    hsigns hflat hfirst ⟨id, hinner.imp fun heq => heq ▸ hstart, rfl, rfl, rfl⟩ ha hb
  exact ⟨started, a, b, hbeside, ha', hb'⟩

theorem IsFlat.run_grouped {before : Parts → Parts → Prop} (h : IsFlat alone text) (hab : Abreast before a b)
    (houter : alone = true → a.parts = { branches := a.parts.branches }) (hrest : Firm false rest)
    (ha : a.run 0 (text ++ rest) = some z)
    (hb : b.run 0 ((['(', '?', ':'] ++ (text ++ [')'])) ++ rest') = some z') :
    ∃ started own a' b', Parts.Beside alone a.parts started a'.parts own ∧
      Abreast (fun p p' => p = a'.parts ∧ p' = b.parts.add own.node) a' b' ∧
      a'.enclosing = a.enclosing ∧ b'.enclosing = b.enclosing ∧ a'.run 0 rest = some z ∧
      b'.run 0 rest' = some z' := by
  have hsplit : (['(', '?', ':'] ++ (text ++ [')'])) ++ rest' =
      ['(', '?', ':'] ++ (text ++ ([')'] ++ rest')) := by simp
  rw [hsplit, run_plain hab.extended'] at hb
  have hinner : Abreast (fun _ own => own = {}) a (b.reach.enter (.plain b.flags)) :=
    ⟨hab.extended, hab.flags, hab.groups, hab.names, hab.numbered, rfl⟩
  obtain ⟨started, a₁, b₁, hbeside, ha₁, hb₁⟩ :=
    h.run hinner houter hrest (firm_cons (by decide) rest') ha hb
  have hsign : ∀ repeatable (rest : List Char),
      sign? false repeatable ')' ([] ++ rest) = some (.closing, ([] : List Char).length) :=
    fun repeatable rest => sign?_of_ne_open (by decide) repeatable rest
  obtain ⟨b₂, hclose, hb₂⟩ := exists_follow_of_run hbeside.abreast.extended' (hsign _ rest') hb₁
  rw [follow_of_not_isGroup _ rfl] at hclose
  obtain rfl := closeGroup_of_isEasy hclose hbeside.enclosing' hab.extended'
  refine ⟨started, b₁.parts, a₁, _, hbeside.abreast.parts, ?_, hbeside.enclosing, ?_, ha₁, hb₂⟩
  · exact ⟨hbeside.abreast.extended, hab.flags.trans hbeside.flags.symm, hbeside.abreast.groups,
      hbeside.abreast.names, hbeside.abreast.numbered, rfl, rfl⟩
  · rfl

theorem IsFlat.leads (h : IsFlat false text) : Leads Parts.Matched (Firm false) text
    (['(', '?', ':'] ++ (text ++ [')'])) Parts.Matched := by
  intro a b z z' rest rest' hab hrest _ ha hb
  obtain ⟨started, own, a', b', hbeside, hab', henclosing, henclosing', ha', hb'⟩ :=
    h.run_grouped hab (fun halone => nomatch halone) hrest ha hb
  refine ⟨a', b', hab'.imp fun heq => ?_, henclosing, henclosing', ha', hb'⟩
  rw [heq.2]
  exact hbeside.matched hab.parts

theorem IsFlat.leads_alone (h : IsFlat true text) : Leads Parts.Opened (Firm false) text
    (['(', '?', ':'] ++ (text ++ [')'])) Parts.Closing := by
  intro a b z z' rest rest' hab hrest _ ha hb
  obtain ⟨started, own, a', b', hbeside, hab', henclosing, henclosing', ha', hb'⟩ :=
    h.run_grouped hab (fun _ => hab.parts.begins) hrest ha hb
  refine ⟨a', b', hab'.imp fun heq => ?_, henclosing, henclosing', ha', hb'⟩
  rw [heq.2]
  exact hbeside.closing hab.parts

end

end Reader
end PhrasePattern.Regex
