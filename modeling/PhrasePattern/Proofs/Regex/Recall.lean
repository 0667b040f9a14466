import PhrasePattern.Proofs.Regex.Passage
import PhrasePattern.Proofs.Regex.Splicing

/-! Nodes that capture and nodes that repeat what was captured. What they match depends on the captures
made so far, so it is told by a relation between threads and not only between positions. A search within
its budget finds a related thread that what follows accepts, or has been refused at all of them. Only
searches count here, because the list of all ends keeps one thread for each position. Texts with such
nodes are read where certain groups have been opened already, and may open others. -/
namespace PhrasePattern.Regex

open Relation (Comp)

/-- Pairs of the threads with which a match may start and stop. -/
abbrev ThreadSet := Thread → Thread → Prop

def Moves (S : SpanSet) : ThreadSet := fun t u => ∃ j, S t.position j ∧ u = t.moveTo j

/-- The group captures what is matched according to the relation. -/
def Captures (group : Nat) (R : ThreadSet) : ThreadSet :=
  fun t u => ∃ v, R t v ∧ u = v.record group t.position

def Repeats (text : Subject) (group : Nat) : ThreadSet :=
  fun t u => repeatGroup? text group t = some u

/-- The verdict is right if `k` tells what follows. -/
structure Responds (R : ThreadSet) (t : Thread) (k : Rest) (v : Verdict) : Prop where
  found : ∀ w budget, v = .found w budget → ∃ u before, R t u ∧ k u before = .found w budget
  failed : ∀ budget, v = .failed budget → ∀ u, R t u → ∃ before after, k u before = .failed after

section responds
variable {R R' : ThreadSet} {t : Thread} {k : Rest}

theorem Answers.responds {S : SpanSet} {v : Verdict} (h : Answers S t k v) :
    Responds (Moves S) t k v := by
  constructor
  · intro w budget hfound
    obtain ⟨j, before, hj, hk⟩ := h.found w budget hfound
    exact ⟨t.moveTo j, before, ⟨j, hj, rfl⟩, hk⟩
  · rintro budget hfailed u ⟨j, hj, rfl⟩
    exact h.failed budget hfailed j hj

theorem Responds.comp {k' : Rest} {v : Verdict} (h : Responds R t k' v)
    (hrest : ∀ u budget, R t u → Responds R' u k (k' u budget)) : Responds (Comp R R') t k v := by
  constructor
  · intro w budget hfound
    obtain ⟨u, before, hu, hk'⟩ := h.found w budget hfound
    obtain ⟨u', before', hu', hk⟩ := (hrest u before hu).found w budget hk'
    exact ⟨u', before', ⟨u, hu, hu'⟩, hk⟩
  · rintro budget hfailed u' ⟨u, hu, hu'⟩
    obtain ⟨before, after, hk'⟩ := h.failed budget hfailed u hu
    exact (hrest u before hu).failed after hk' u' hu'

theorem responds_ofOption {next : Option Thread} (h : ∀ u, R t u ↔ next = some u) (budget : Nat) :
    Responds R t k (.ofOption budget k next) := by
  cases next with
  | none =>
    refine ⟨fun w b hfound => ?_, fun b _ u hu => ?_⟩
    · cases hfound
    · cases (h u).mp hu
  | some u =>
    refine ⟨fun w b hfound => ⟨u, budget, (h u).mpr rfl, hfound⟩, fun b hfailed u' hu' => ?_⟩
    obtain rfl := Option.some.inj ((h u').mp hu')
    exact ⟨budget, b, hfailed⟩

end responds

def Node.Searches (text : Subject) (n : Node) (R : ThreadSet) : Prop :=
  ∀ t budget k, Responds R t k (n.search text false t budget k)

def SearchesSeq (text : Subject) (items : List Node) (R : ThreadSet) : Prop :=
  ∀ t budget k, Responds R t k (searchSeq text false items t budget k)

section searches
variable {text : Subject} {R R' : ThreadSet}

theorem Node.Searches.capture {body : Node} (h : body.Searches text R) (group : Nat) :
    (Node.capture group body).Searches text (Captures group R) := by
  intro t budget k
  rw [Node.search]
  have hbody := h t budget fun u budget => k (u.record group t.position) budget
  constructor
  · intro w left hfound
    obtain ⟨v, before, hv, hk⟩ := hbody.found w left hfound
    exact ⟨_, before, ⟨v, hv, rfl⟩, hk⟩
  · rintro left hfailed u ⟨v, hv, rfl⟩
    exact hbody.failed left hfailed v hv

theorem searches_backreference (group : Nat) :
    (Node.backreference group).Searches text (Repeats text group) := by
  intro t budget k
  rw [Node.search]
  exact responds_ofOption (fun _ => Iff.rfl) budget

theorem searchSeq_singleton (n : Node) (t : Thread) (budget : Nat) (k : Rest) :
    searchSeq text false [n] t budget k = n.search text false t budget k := by
  simp [searchSeq]

theorem Node.Searches.single {n : Node} (h : n.Searches text R) : SearchesSeq text [n] R := by
  intro t budget k
  rw [searchSeq_singleton]
  exact h t budget k

theorem SearchesSeq.append {items more : List Node} (h : SearchesSeq text items R)
    (h' : SearchesSeq text more R') : SearchesSeq text (items ++ more) (Comp R R') := by
  intro t budget k
  rw [searchSeq_append]
  exact (h t budget _).comp fun u left _ => h' u left k

theorem RealizesSeq.searches {items : List Node} {S : SpanSet} (h : RealizesSeq text items S) :
    SearchesSeq text items (Moves S) :=
  fun t budget k => (h.searchSeq false t budget k nofun).responds

theorem search_ofPieces (items : List Node) (t : Thread) (budget : Nat) (k : Rest) :
    (Node.ofPieces items).search text false t budget k = searchSeq text false items t budget k := by
  unfold Node.ofPieces
  split
  · exact (searchSeq_singleton _ t budget k).symm
  · rw [Node.search]

theorem SearchesSeq.ofPieces {items : List Node} (h : SearchesSeq text items R) :
    (Node.ofPieces items).Searches text R := by
  intro t budget k
  rw [search_ofPieces]
  exact h t budget k

theorem Node.Searches.pieceOf {n : Node} (h : n.Searches text R) :
    SearchesSeq text (Reader.pieceOf n) R := by
  intro t budget k
  rw [← search_ofPieces, Reader.ofPieces_pieceOf]
  exact h t budget k

theorem isPlain_ofPieces (items : List Node) : (Node.ofPieces items).isPlain = Node.allPlain items := by
  unfold Node.ofPieces
  split
  · rw [Node.allPlain, Node.allPlain, Bool.and_true]
  · rw [Node.isPlain]

theorem allPlain_pieceOf (n : Node) : Node.allPlain (Reader.pieceOf n) = n.isPlain := by
  rw [← isPlain_ofPieces, Reader.ofPieces_pieceOf]

/-- The right answer about the matches that begin at `position` or one of the `n` positions after it. -/
def IsAnswer (R : ThreadSet) (position n : Nat) : Option Match → Prop
  | some found => R (.start found.start) found.thread
  | none => ∀ i u, position ≤ i → i ≤ position + n → ¬ R (.start i) u

theorem Node.Searches.of_found {root : Node} (h : root.Searches text R) {position budget left : Nat}
    {u : Thread} (hsearch : root.search text false (.start position) budget .found = .found u left) :
    R (.start position) u := by
  obtain ⟨v, before, hv, heq⟩ := (h (.start position) budget .found).found u left hsearch
  obtain ⟨rfl, -⟩ := Verdict.found.inj heq
  exact hv

theorem Node.Searches.of_failed {root : Node} (h : root.Searches text R) {position budget left : Nat}
    (hsearch : root.search text false (.start position) budget .found = .failed left) (u : Thread) :
    ¬ R (.start position) u := by
  intro hu
  obtain ⟨before, after, heq⟩ := (h (.start position) budget .found).failed left hsearch u hu
  cases heq

theorem Node.Searches.isAnswer_of_scans {root : Node} (h : root.Searches text R) {position n : Nat}
    {result : Option Match} (hscans : Scans root text position n result) :
    IsAnswer R position n result := by
  induction hscans with
  | here hsearch => exact h.of_found hsearch
  | @nowhere position budget left hsearch =>
    intro i u hlow hhigh
    obtain rfl : i = position := by omega
    exact h.of_failed hsearch u
  | @later position budget n left result hsearch _ ih =>
    cases result with
    | some found => exact ih
    | none =>
      intro i u hlow hhigh
      rcases Nat.eq_or_lt_of_le hlow with rfl | hlt
      · exact h.of_failed hsearch u
      · exact ih i u hlt (by omega)

theorem Node.Searches.isAnswer_find [Engine] {regex : Regex} (h : regex.root.Searches text R)
    (hplain : regex.root.isPlain = false) {result : Option Match}
    (hresult : regex.find text = some result) : IsAnswer R 0 text.size result := by
  rw [find, hplain, if_neg Bool.false_ne_true] at hresult
  exact h.isAnswer_of_scans (scans_of_searchFrom hresult)

end searches

namespace Reader
variable [Engine]

structure HasGroups (r : Reader) (opened : List (String × Nat)) : Prop where
  names : r.names = opened
  groups : r.groups = opened.length

/-- Reading the piece where some groups have been opened adds the nodes to the current branch and leaves
these groups opened. -/
structure Builds (before after : List (String × Nat)) (piece : List Char) (nodes : List Node) : Prop where
  calm : ∀ rest, Calm rest → Calm (piece ++ rest)
  reads : ∀ (r : Reader) (rest : List Char), r.IsDefault → r.HasGroups before → Calm rest →
    r.ReadsTo piece rest fun r' => r.Grows nodes r' ∧ r'.HasGroups after

section builds
variable {before between after names : List (String × Nat)} {piece : List Char} {nodes : List Node}

theorem Adds.builds (h : Adds piece nodes) (hcalm : ∀ rest, Calm rest → Calm (piece ++ rest)) :
    Builds names names piece nodes := by
  refine ⟨hcalm, fun r rest hr hgroups hrest => (h r rest hr hrest).imp fun r' h' => ?_⟩
  exact ⟨h'.toGrows, h'.sameGroups.names.trans hgroups.names,
    h'.sameGroups.groups.trans hgroups.groups⟩

theorem Builds.append {second : List Char} {more : List Node} (h : Builds before between piece nodes)
    (h' : Builds between after second more) : Builds before after (piece ++ second) (nodes ++ more) := by
  refine ⟨fun rest hrest => ?_, fun r rest hr hgroups hrest => ?_⟩
  · rw [List.append_assoc]
    exact h.calm _ (h'.calm rest hrest)
  · refine (h.reads r (second ++ rest) hr hgroups (h'.calm rest hrest)).append ?_
    rintro r₁ ⟨hgrows, hgroups₁⟩
    refine (h'.reads r₁ rest hgrows.isDefault hgroups₁ hrest).imp ?_
    rintro r₂ ⟨hgrows', hgroups₂⟩
    exact ⟨hgrows.append hgrows', hgroups₂⟩

def Closes (opener : Opener) (wrap : Node → Node) : Prop :=
  ∀ (r : Reader) (outside : Parts) (enclosing : List (Opener × Parts)), r.IsDefault →
    r.enclosing = (opener, outside) :: enclosing →
      r.closeGroup = some ({ r with parts := outside, enclosing := enclosing }.add (wrap r.parts.node))

omit [Engine] in
theorem closes_capture (group : Nat) : Closes (.capture group) (.capture group) := by
  intro r outside enclosing hr hopen
  rw [closeGroup, hopen, node?_of_isDefault hr]

theorem Closes.run {opener : Opener} {wrap : Node → Node} (h : Closes opener wrap) {r : Reader}
    (hr : r.IsDefault) {outside : Parts} {enclosing : List (Opener × Parts)}
    (hopen : r.enclosing = (opener, outside) :: enclosing) (rest : List Char) : r.run 0 (')' :: rest) =
      ({ r with parts := outside.add (wrap r.parts.node), enclosing := enclosing } : Reader).run 0 rest :=
  run_closing (by rw [hr.flags]) (h r outside enclosing hr hopen) rest

theorem Builds.readsTo_enclosed (h : Builds before after piece nodes) {opener : Opener}
    {wrap : Node → Node} (hcloses : Closes opener wrap) (r inside : Reader) (hinside : inside.IsDefault)
    (hgroups : inside.HasGroups before) (hparts : inside.parts = {})
    (hopen : inside.enclosing = (opener, r.parts) :: r.enclosing) (rest : List Char) :
    inside.ReadsTo (piece ++ [')']) rest fun r' =>
      r.Grows (pieceOf (wrap (.ofPieces nodes))) r' ∧ r'.HasGroups after := by
  refine (h.reads inside ([')'] ++ rest) hinside hgroups (calm_cons (by decide) rest)).append ?_
  rintro r₁ ⟨hgrows, hgroups₁⟩
  have hrun := hcloses.run hgrows.isDefault (hgrows.enclosing.trans hopen) rest
  rw [hgrows.node hparts] at hrun
  refine ⟨_, ?_, hrun⟩
  refine ⟨grows_of_add ?_ rfl rfl, ?_⟩
  · exact ⟨hgrows.isDefault.flags, hgrows.isDefault.numbered⟩
  · exact ⟨hgroups₁.names, hgroups₁.groups⟩

theorem Builds.group (h : Builds before after piece nodes) :
    Builds before after (['(', '?', ':'] ++ (piece ++ [')'])) (pieceOf (.ofPieces nodes)) := by
  refine ⟨calm_open_append (by decide) _, fun r rest hr hgroups _ => ?_⟩
  have hopens : r.ReadsTo ['(', '?', ':'] ((piece ++ [')']) ++ rest) (· = r.reach.enter (.plain {})) :=
    readsTo_of_eq rfl (encloses_plain.opens r _ hr)
  refine hopens.append ?_
  rintro r₁ rfl
  exact h.readsTo_enclosed encloses_plain.closes r (r.reach.enter (.plain {})) ⟨hr.flags, hr.numbered⟩
    ⟨hgroups.names, hgroups.groups⟩ rfl rfl rest

/-- The name of a group is known inside of it already. -/
theorem Builds.capture {name : String} (h : Builds ((name, before.length + 1) :: before) after piece nodes)
    (hname : IsGroupName name) :
    Builds before after ((['(', '?', 'P', '<'] ++ (name.toList ++ ['>'])) ++ (piece ++ [')']))
      [.capture (before.length + 1) (.ofPieces nodes)] := by
  refine ⟨fun rest _ => calm_open (c := 'P') (by decide) _, fun r rest hr hgroups _ => ?_⟩
  have hopens : r.ReadsTo (['(', '?', 'P', '<'] ++ (name.toList ++ ['>'])) ((piece ++ [')']) ++ rest)
      (· = r.reach.openCapture ((name, r.groups + 1) :: r.names)) :=
    readsTo_of_eq rfl (run_capture (by rw [hr.flags]) hname _)
  refine hopens.append ?_
  rintro r₁ rfl
  refine h.readsTo_enclosed (closes_capture (before.length + 1)) r (r.reach.openCapture _)
    ⟨hr.flags, hr.numbered⟩ ⟨?_, ?_⟩ rfl ?_ rest
  · rw [← hgroups.groups, ← hgroups.names]
    rfl
  · exact congrArg (· + 1) hgroups.groups
  · rw [← hgroups.groups]
    rfl

theorem builds_backreference {name : String} (hname : IsGroupName name) {group : Nat}
    (hlookup : names.lookup name = some group) (hle : group ≤ names.length) :
    Builds names names (['\\', 'k', '<'] ++ (name.toList ++ ['>'])) [.backreference group] := by
  refine ⟨fun rest _ => calm_cons (by decide) _, fun r rest hr hgroups _ => ?_⟩
  have htarget : r.target? (.name name) = some group := by
    simp [target?, groupOf?, hgroups.names, hlookup, hgroups.groups, hle]
  have hrefer : r.referTo (.name name) = some (r.add (.backreference group)) := by
    rw [referTo, htarget, note_name]
    rfl
  have hsign := sign?_backreference hname r.parts.last.isSome rest
  have hextended : r.flags.extended = false := by rw [hr.flags]
  rw [← hextended] at hsign
  have hrun := run_of_obey hsign rfl hrefer
  rw [run_eq_drop (r.add _), List.drop_left] at hrun
  have hgrows : r.Grows [.backreference group] (r.add (.backreference group)) :=
    (becomes_add hr (.backreference group)).extends.toGrows
  exact readsTo_of_eq ⟨hgrows, hgroups.names, hgroups.groups⟩ hrun

theorem Builds.read?_eq {source : String} {regex : Regex} (h : Builds [] names source.toList nodes)
    (hread : read? source = some regex) : regex = ⟨.ofPieces nodes, names⟩ := by
  have hrun := h.reads {} [] ⟨rfl, rfl⟩ ⟨rfl, rfl⟩ calm_nil
  obtain ⟨r, hr, rfl⟩ := exists_of_read? hrun hread
  rw [hr.names]

end builds

end Reader

end PhrasePattern.Regex
