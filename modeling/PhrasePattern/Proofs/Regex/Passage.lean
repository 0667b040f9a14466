import PhrasePattern.Proofs.Regex.Transfer

/-! Texts that a reader passes whatever it has read before. They can be put one after the other as long as
what follows does not reach back, and put into groups. Only groups that look behind are left out, since
not every text can stand in them. -/
namespace PhrasePattern.Regex

/-- The text does not begin with something that belongs to a quantifier before it. -/
def Gentle (text : List Char) : Prop :=
  ∃ n, ignoredFrom false .blanks text = some n ∧ (text.drop n).head? ≠ some '?' ∧
    (text.drop n).head? ≠ some '+'

theorem Gentle.head?_ne_plus {text : List Char} (h : Gentle text) : text.head? ≠ some '+' := by
  obtain ⟨n, hn, -, hplus⟩ := h
  cases text with
  | nil => simp
  | cons c rest =>
    rintro heq
    obtain rfl := Option.some.inj heq
    rw [ignoredFrom_cons (by decide)] at hn
    obtain rfl := Option.some.inj hn
    exact hplus rfl

theorem gentle_cons {c : Char} (h : c ≠ '(' ∧ c ≠ '?' ∧ c ≠ '+') (rest : List Char) :
    Gentle (c :: rest) :=
  ⟨0, ignoredFrom_cons h.1 rest, by simpa using h.2.1, by simpa using h.2.2⟩

theorem gentle_open {c : Char} (h : c ≠ '#') (rest : List Char) : Gentle ('(' :: '?' :: c :: rest) :=
  ⟨0, ignoredFrom_open h rest, by simp, by simp⟩

theorem Firm.gentle {rest : List Char} (h : Firm false rest) : Gentle rest :=
  ⟨0, ignoredFrom_blanks_of_firm h, h.head?_ne (by decide), h.head?_ne (by decide)⟩

theorem firm_cons {c : Char} (h : c ∈ firmChars) (rest : List Char) : Firm false (c :: rest) :=
  ⟨⟨c, h, rfl⟩, fun hextended => nomatch hextended⟩

def Anything (_ : List Char) : Prop := True

variable [Engine]

theorem sign?_of_ne_open {c : Char} (h : c ≠ '(') (repeatable : Bool) (rest : List Char) :
    sign? false repeatable c rest = Sign.visible? false repeatable c rest := by
  rw [sign?, ignoredFrom_cons h]

theorem sign?_open {c : Char} (h : c ≠ '#') (repeatable : Bool) (rest : List Char) :
    sign? false repeatable '(' ('?' :: c :: rest) = Sign.opening? false 0 ('?' :: c :: rest) := by
  rw [sign?, ignoredFrom_open h]
  show Sign.group? false ('?' :: c :: rest) = _
  rw [Sign.group?, ignoredFrom_cons (by decide)]
  rfl

/-- What follows the blanks does not begin with a quantifier, so neither with a part of one. -/
theorem head?_ne_of_signs? {text : List Char} {signs : List Sign} (h : signs? true 0 text = some signs)
    (hfirst : ∀ s, signs.find? (!·.isBlank) = some s → s.isQuantifier = false) :
    text.head? ≠ some '?' ∧ text.head? ≠ some '+' := by
  have hquantifier : ∀ (c : Char) (rest : List Char) (least : Nat) (most? : Option Nat), c ≠ '(' →
      Sign.visible? false true c rest = Sign.quantifier? false least most? rest → text ≠ c :: rest := by
    rintro c rest least most? hc hvisible rfl
    obtain ⟨s, n, others, hsign, rfl, -⟩ := exists_of_signs? h
    rw [sign?_of_ne_open hc, hvisible] at hsign
    have hs := Reader.isQuantifier_of_quantifier? hsign
    have hvisible : s.isBlank = false := by
      cases s with
      | quantifier => rfl
      | _ => cases hs
    rw [hfirst s (by simp [hvisible])] at hs
    cases hs
  cases text with
  | nil => simp
  | cons c rest =>
    constructor
    · rintro heq
      obtain rfl := Option.some.inj heq
      exact hquantifier '?' rest 0 (some 1) (by decide) rfl rfl
    · rintro heq
      obtain rfl := Option.some.inj heq
      exact hquantifier '+' rest 1 none (by decide) rfl rfl

theorem Ahead.gentle {allowed : Sign → Prop} {text rest : List Char} (h : Ahead allowed false true text)
    (hrest : Firm false rest) : Gentle (text ++ rest) := by
  obtain ⟨signs, hsigns, -, hfirst⟩ := h
  have hskipped : ∃ n, ignoredFrom false .blanks text = some n ∧
      (text.drop n).head? ≠ some '?' ∧ (text.drop n).head? ≠ some '+' := by
    cases text with
    | nil => exact ⟨0, by rw [ignoredFrom], by simp⟩
    | cons c cs =>
      obtain ⟨s, n, others, hsign, rfl, hothers⟩ := exists_of_signs? hsigns
      cases hignored : ignoredFrom false .blanks (c :: cs) with
      | none =>
        rw [sign?, hignored] at hsign
        cases hsign
      | some m =>
        refine ⟨m, rfl, ?_⟩
        cases m with
        | zero => exact head?_ne_of_signs? hsigns (hfirst rfl)
        | succ m =>
          rw [sign?, hignored] at hsign
          obtain ⟨rfl, rfl⟩ := Prod.mk.inj (Option.some.inj hsign)
          exact head?_ne_of_signs? hothers (hfirst rfl)
  obtain ⟨n, hn, hlazy, hplus⟩ := hskipped
  obtain ⟨k, hk, htakes⟩ := blanks_append hrest hn
  have hprolongs := htakes.prolongs (ignoredFrom_le hn)
  exact ⟨n + k, hk, (hprolongs.head? hrest (by decide)).not.mpr hlazy,
    (hprolongs.head? hrest (by decide)).not.mpr hplus⟩

omit [Engine] in
theorem quantifier?_of_gentle (least : Nat) (most? : Option Nat) {rest : List Char} (h : Gentle rest) :
    ∃ n, ignoredFrom false .blanks rest = some n ∧
      Sign.quantifier? false least most? rest = some (.quantifier least most? false false, n) := by
  obtain ⟨n, hn, hlazy, hplus⟩ := h
  refine ⟨n, hn, ?_⟩
  rw [List.head?_drop] at hlazy hplus
  simp [Sign.quantifier?, hn, hlazy, hplus]

omit [Engine] in
theorem quantifier?_lazy {least : Nat} {most? : Option Nat} {rest : List Char} (h : Gentle rest) :
    Sign.quantifier? false least most? ('?' :: rest) = some (.quantifier least most? true false, 1) := by
  have hplus := h.head?_ne_plus
  rw [Sign.quantifier?, ignoredFrom_cons (by decide)]
  simp [beq_eq_false_iff_ne.mpr hplus]

namespace Reader

theorem run_ignored {r : Reader} (hr : r.flags.extended = false) {rest : List Char} {n : Nat}
    (h : ignoredFrom false .blanks rest = some n) : r.run n rest = r.run 0 rest := by
  cases n with
  | zero => rfl
  | succ n =>
    cases rest with
    | nil => rfl
    | cons c rest =>
      have hsign : sign? r.flags.extended r.parts.last.isSome c rest = some (.blank, n) := by
        rw [hr, sign?, h]
      rw [run_of_sign hsign]
      rfl

omit [Engine] in
theorem Ready.add {names : List String} {r : Reader} (h : r.Ready names) (node : Node) :
    (r.add node).Ready names := ⟨h.extended, h.numbered, h.known, h.count, h.bounded⟩

omit [Engine] in
theorem Ready.perm {names names' : List String} {r : Reader} (h : r.Ready names)
    (hperm : names.Perm names') : r.Ready names' :=
  ⟨h.extended, h.numbered, fun name hname => h.known name (hperm.mem_iff.mpr hname),
    hperm.length_eq ▸ h.count, h.bounded⟩

theorem run_of_obey {r r' : Reader} {c : Char} {rest : List Char} {s : Sign} {n : Nat}
    (hsign : sign? r.flags.extended r.parts.last.isSome c rest = some (s, n))
    (hgroup : s.isGroup = false) (hobey : r.obey s = some r') :
    r.run 0 (c :: rest) = r'.run n rest := by
  rw [run_of_sign hsign, r.follow_of_not_isGroup hgroup, hobey]
  rfl

/-- The text is passed wherever such names are known; others are known afterwards as well. -/
def Passes (follow : List Char → Prop) (names names' : List String) (text : List Char) : Prop :=
  ∀ (extra : List String) (r : Reader) (rest : List Char), r.Ready (extra ++ names) → follow rest →
    ∃ r' : Reader, r.run 0 (text ++ rest) = r'.run 0 rest ∧ r'.Ready (extra ++ names') ∧
      r'.enclosing = r.enclosing

section
variable {follow follow' : List Char → Prop} {names names' names'' : List String}
  {text more : List Char}

theorem passes_nil : Passes follow names names [] :=
  fun _ r _ hr _ => ⟨r, rfl, hr, rfl⟩

theorem Passes.imp (h : Passes follow names names' text) (himp : ∀ rest, follow' rest → follow rest) :
    Passes follow' names names' text :=
  fun extra r rest hr hrest => h extra r rest hr (himp rest hrest)

theorem Passes.append (h : Passes follow names names' text) (h' : Passes follow' names' names'' more)
    (hfollow : ∀ rest, follow' rest → follow (more ++ rest)) :
    Passes follow' names names'' (text ++ more) := by
  intro extra r rest hr hrest
  rw [List.append_assoc]
  obtain ⟨r₁, hrun, hr₁, henclosing⟩ := h extra r (more ++ rest) hr (hfollow rest hrest)
  obtain ⟨r₂, hrun', hr₂, henclosing'⟩ := h' extra r₁ rest hr₁ hrest
  exact ⟨r₂, hrun.trans hrun', hr₂, henclosing'.trans henclosing⟩

theorem passes_of_sign {c : Char} {cs : List Char} {s : Sign}
    (hsign : ∀ repeatable rest, follow rest →
      sign? false repeatable c (cs ++ rest) = some (s, cs.length))
    (hgroup : s.isGroup = false)
    (hobey : ∀ (extra : List String) (r : Reader), r.Ready (extra ++ names) →
      ∃ r', r.obey s = some r' ∧ r'.Ready (extra ++ names) ∧ r'.enclosing = r.enclosing) :
    Passes follow names names (c :: cs) := by
  intro extra r rest hr hrest
  obtain ⟨r', hr', hready, henclosing⟩ := hobey extra r hr
  refine ⟨r', ?_, hready, henclosing⟩
  have hfirst := hsign r.parts.last.isSome rest hrest
  rw [← hr.extended] at hfirst
  rw [List.cons_append, run_of_obey hfirst hgroup hr', run_eq_drop, List.drop_left]

theorem passes_of_add {c : Char} {cs : List Char} {s : Sign}
    (hsign : ∀ repeatable rest, follow rest →
      sign? false repeatable c (cs ++ rest) = some (s, cs.length))
    (hgroup : s.isGroup = false) (hobey : ∀ r : Reader, ∃ node, r.obey s = some (r.add node)) :
    Passes follow names names (c :: cs) := by
  refine passes_of_sign hsign hgroup fun extra r hr => ?_
  obtain ⟨node, hnode⟩ := hobey r
  exact ⟨r.add node, hnode, hr.add node, rfl⟩

theorem sign?_ordinary {c : Char} (h : c ∉ special) (repeatable : Bool) (rest : List Char) :
    sign? false repeatable c rest = some (.literal c, 0) := by
  have hparen : c ≠ '(' := by
    rintro rfl
    exact h (by decide)
  rw [sign?_of_ne_open hparen]
  unfold Sign.visible?
  split
  case h_13 => rfl
  all_goals exact absurd (by decide) h

theorem passes_ordinary {c : Char} (h : c ∉ special) : Passes Anything names names [c] :=
  passes_of_add (fun repeatable rest _ => sign?_ordinary h repeatable rest) rfl
    fun r => ⟨r.literal c, rfl⟩

theorem passes_dot : Passes Anything names names ['.'] :=
  passes_of_add (fun repeatable rest _ => sign?_of_ne_open (by decide) repeatable rest) rfl
    fun _ => ⟨_, rfl⟩

theorem passes_caret : Passes Anything names names ['^'] :=
  passes_of_add (fun repeatable rest _ => sign?_of_ne_open (by decide) repeatable rest) rfl
    fun _ => ⟨_, rfl⟩

theorem passes_dollar : Passes Anything names names ['$'] :=
  passes_of_add (fun repeatable rest _ => sign?_of_ne_open (by decide) repeatable rest) rfl
    fun _ => ⟨_, rfl⟩

theorem passes_bar : Passes Anything names names ['|'] :=
  passes_of_sign (fun repeatable rest _ => sign?_of_ne_open (by decide) repeatable rest) rfl
    fun _ r hr => ⟨{ r with parts := r.parts.nextBranch }, rfl,
      ⟨hr.extended, hr.numbered, hr.known, hr.count, hr.bounded⟩, rfl⟩

theorem run_quantifier {r : Reader} (hr : r.flags.extended = false) {piece : Node}
    (hlast : r.parts.last = some piece) (hpiece : piece.isRepeatable = true) {c : Char}
    {rest : List Char} {least n : Nat} {isLazy : Bool}
    (hsign : sign? false true c rest = some (.quantifier least none isLazy false, n)) :
    r.run 0 (c :: rest) =
      (r.replaceLast (.repetition piece least none (isLazy == r.flags.swapGreed))).run n rest := by
  have hsign' : sign? r.flags.extended r.parts.last.isSome c rest =
      some (.quantifier least none isLazy false, n) := by
    rw [hr, hlast]
    exact hsign
  refine run_of_obey hsign' rfl ?_
  rw [obey, repeatLast, hlast]
  simp [hpiece, replaceLast]

/-- The text is a quantifier that is complete if gentle text follows. -/
def Quantifies (text : List Char) (least : Nat) (isLazy : Bool) : Prop :=
  ∀ (r : Reader) (piece : Node) (rest : List Char), r.flags.extended = false →
    r.parts.last = some piece → piece.isRepeatable = true → Gentle rest →
      r.run 0 (text ++ rest) =
        (r.replaceLast (.repetition piece least none (isLazy == r.flags.swapGreed))).run 0 rest

theorem quantifies_of_sign {c : Char} {least : Nat} (hc : c ≠ '(')
    (hsign : ∀ rest, Sign.visible? false true c rest = Sign.quantifier? false least none rest) :
    Quantifies [c] least false := by
  intro r piece rest hr hlast hpiece hrest
  obtain ⟨n, hn, hquantifier⟩ := quantifier?_of_gentle least none hrest
  have hrun := run_quantifier hr hlast hpiece
    ((sign?_of_ne_open hc true rest).trans ((hsign rest).trans hquantifier))
  exact hrun.trans (run_ignored (r := r.replaceLast _) hr hn)

theorem quantifies_star : Quantifies ['*'] 0 false := quantifies_of_sign (by decide) fun _ => rfl

theorem quantifies_plus : Quantifies ['+'] 1 false := quantifies_of_sign (by decide) fun _ => rfl

theorem quantifies_lazyStar : Quantifies ['*', '?'] 0 true := by
  intro r piece rest hr hlast hpiece hrest
  exact run_quantifier (c := '*') hr hlast hpiece
    ((sign?_of_ne_open (by decide) true ('?' :: rest)).trans (quantifier?_lazy hrest))

def settle (r : Reader) (node : Node) : Reader :=
  { r with parts := { r.parts with pieces := node :: r.parts.settled, last := none } }

/-- The text adds a node that depends on the flags only, if gentle text follows. -/
def Settles (text : List Char) (node : Flags → Node) : Prop :=
  ∀ (r : Reader) (rest : List Char), r.flags.extended = false → Gentle rest →
    r.run 0 (text ++ rest) = (r.settle (node r.flags)).run 0 rest

theorem settles_quantified (c : Char) (cs : List Char) {s : Sign} {set : Flags → CharSet}
    (hsign : ∀ repeatable rest, sign? false repeatable c (cs ++ rest) = some (s, cs.length))
    (hgroup : s.isGroup = false) (hobey : ∀ r : Reader, r.obey s = some (r.add (.chars (set r.flags))))
    {quantifier : List Char} {least : Nat} {isLazy : Bool}
    (hquantifier : Quantifies quantifier least isLazy) :
    Settles (c :: cs ++ quantifier) fun flags =>
      .repetition (.chars (set flags)) least none (isLazy == flags.swapGreed) := by
  intro r rest hr hrest
  have hfirst := hsign r.parts.last.isSome (quantifier ++ rest)
  rw [← hr] at hfirst
  rw [List.append_assoc, List.cons_append, run_of_obey hfirst hgroup (hobey r), run_eq_drop,
    List.drop_left,
    hquantifier (r.add (.chars (set r.flags))) (.chars (set r.flags)) rest hr rfl rfl hrest]
  rfl

theorem settles_lazyAny : Settles ['.', '*', '?'] fun flags =>
    .repetition (.chars (if flags.dotAll then .any else .notNewline)) 0 none (true == flags.swapGreed) :=
  settles_quantified '.' [] (fun repeatable rest => sign?_of_ne_open (by decide) repeatable rest) rfl
    (fun _ => rfl) quantifies_lazyStar

theorem settles_any : Settles ['.', '*'] fun flags =>
    .repetition (.chars (if flags.dotAll then .any else .notNewline)) 0 none (false == flags.swapGreed) :=
  settles_quantified '.' [] (fun repeatable rest => sign?_of_ne_open (by decide) repeatable rest) rfl
    (fun _ => rfl) quantifies_star

theorem settles_nonWords : Settles ['\\', 'W', '+'] fun flags =>
    .repetition (.chars (.compl .word)) 1 none (false == flags.swapGreed) :=
  settles_quantified '\\' ['W'] (fun repeatable rest => sign?_of_ne_open (by decide) repeatable _) rfl
    (fun _ => rfl) quantifies_plus

theorem Settles.passes {node : Flags → Node} (h : Settles text node) : Passes Gentle names names text :=
  fun _ r rest hr hrest => ⟨r.settle (node r.flags), h r rest hr.extended hrest,
    ⟨hr.extended, hr.numbered, hr.known, hr.count, hr.bounded⟩, rfl⟩

theorem passes_lazyAny : Passes Gentle names names ['.', '*', '?'] := settles_lazyAny.passes

theorem passes_any : Passes Gentle names names ['.', '*'] := settles_any.passes

theorem passes_nonWords : Passes Gentle names names ['\\', 'W', '+'] := settles_nonWords.passes

end

end Reader

def Opener.wrap : Opener → Node → Node
  | plain _, node => node
  | capture group, node => .capture group node
  | lookAhead negative, node => .lookAhead negative node
  | atomic, node => .atomic node
  | _, node => node

def Opener.IsEasy : Opener → Prop
  | plain outside => outside.extended = false
  | lookBehind _ => False
  | condition => False
  | choice => False
  | _ => True

namespace Reader

section
variable {names names' opened : List String} {opening text rest : List Char}

omit [Engine] in
theorem Ready.closeGroup {r : Reader} (hr : r.Ready names) {opener : Opener} {outside : Parts}
    {enclosing : List (Opener × Parts)} (hopen : r.enclosing = (opener, outside) :: enclosing)
    (heasy : opener.IsEasy) :
    ∃ r', r.closeGroup = some r' ∧ r'.Ready names ∧ r'.enclosing = enclosing ∧
      r'.parts = outside.add (opener.wrap r.parts.node) := by
  unfold Reader.closeGroup
  rw [hopen, node?_of_numbered hr.numbered]
  cases opener with
  | plain flags => exact ⟨_, rfl, ⟨heasy, hr.numbered, hr.known, hr.count, hr.bounded⟩, rfl, rfl⟩
  | lookBehind _ | condition | choice => exact heasy.elim
  | _ => exact ⟨_, rfl, ⟨hr.extended, hr.numbered, hr.known, hr.count, hr.bounded⟩, rfl, rfl⟩

theorem run_closing {r r' : Reader} (hr : r.flags.extended = false) (hclose : r.closeGroup = some r')
    (rest : List Char) : r.run 0 (')' :: rest) = r'.run 0 rest := by
  have hsign : sign? r.flags.extended r.parts.last.isSome ')' rest = some (.closing, 0) := by
    rw [hr]
    exact sign?_of_ne_open (by decide) _ rest
  exact run_of_obey hsign rfl hclose

theorem Ready.run_close {r : Reader} (hr : r.Ready names) {opener : Opener} {outside : Parts}
    {enclosing : List (Opener × Parts)} (hopen : r.enclosing = (opener, outside) :: enclosing)
    (heasy : opener.IsEasy) (rest : List Char) :
    ∃ r' : Reader, r.run 0 (')' :: rest) = r'.run 0 rest ∧ r'.Ready names ∧
      r'.enclosing = enclosing ∧ r'.parts = outside.add (opener.wrap r.parts.node) := by
  obtain ⟨r', hclose, hready, henclosing, hparts⟩ := hr.closeGroup hopen heasy
  exact ⟨r', run_closing hr.extended hclose rest, hready, henclosing, hparts⟩

/-- The text opens a group of such a kind, after which these names are known in addition. -/
def Opens (kind : Opener → Prop) (opened : List String) (opening : List Char) : Prop :=
  ∀ (names : List String) (r : Reader) (rest : List Char), r.Ready names →
    ∃ (r' : Reader) (opener : Opener),
      r.run 0 (opening ++ rest) = r'.run 0 rest ∧ r'.Ready (opened ++ names) ∧ kind opener ∧
        opener.IsEasy ∧ r'.enclosing = (opener, r.parts) :: r.enclosing ∧ r'.parts = {}

theorem run_of_opening {r r' : Reader} (hr : r.flags.extended = false) {c : Char} {cs : List Char}
    {s : Sign} {n : Nat} (hc : c ≠ '#') (hsign : Sign.opening? false 0 ('?' :: c :: cs) = some (s, n))
    (hfollow : r.follow s = some r') :
    r.run 0 ('(' :: '?' :: c :: cs) = r'.run n ('?' :: c :: cs) := by
  have hsign' : sign? r.flags.extended r.parts.last.isSome '(' ('?' :: c :: cs) = some (s, n) := by
    rw [hr, sign?_open hc, hsign]
  rw [run_of_sign hsign', hfollow]
  rfl

theorem run_plain {r : Reader} (hr : r.flags.extended = false) (rest : List Char) :
    r.run 0 (['(', '?', ':'] ++ rest) = (r.reach.enter (.plain r.flags)).run 0 rest := by
  have hfollow : r.follow (.flags (fun old => (readFlags old true 0 (':' :: rest)).map (·.1)) true) =
      some (r.reach.enter (.plain r.flags)) := rfl
  exact run_of_opening (c := ':') hr (by decide) rfl hfollow

theorem run_ahead {r : Reader} (hr : r.flags.extended = false) (negated : Bool) (rest : List Char) :
    r.run 0 (['(', '?', if negated then '!' else '='] ++ rest) =
      (r.reach.enter (.lookAhead negated)).run 0 rest := by
  have hfollow : r.follow (.enter (.lookAhead negated)) = some (r.reach.enter (.lookAhead negated)) := rfl
  have hsign : Sign.opening? false 0 ('?' :: (if negated then '!' else '=') :: rest) =
      some (.enter (.lookAhead negated), 2) := by
    cases negated <;> rfl
  exact run_of_opening hr (by cases negated <;> decide) hsign hfollow

theorem opens_plain : Opens (∃ flags, · = .plain flags) [] ['(', '?', ':'] := by
  intro names r rest hr
  refine ⟨r.reach.enter (.plain r.flags), .plain r.flags, run_plain hr.extended rest, ?_, ⟨_, rfl⟩,
    hr.extended, rfl, rfl⟩
  exact ⟨hr.extended, hr.numbered, hr.known, hr.count, hr.bounded⟩

theorem opens_ahead (negated : Bool) :
    Opens (· = .lookAhead negated) [] ['(', '?', if negated then '!' else '='] := by
  intro names r rest hr
  refine ⟨r.reach.enter (.lookAhead negated), .lookAhead negated, run_ahead hr.extended negated rest, ?_,
    rfl, trivial, rfl, rfl⟩
  exact ⟨hr.extended, hr.numbered, hr.known, hr.count, hr.bounded⟩

theorem opens_lookAhead : Opens (· = .lookAhead false) [] ['(', '?', '='] := opens_ahead false

theorem opens_notAhead : Opens (· = .lookAhead true) [] ['(', '?', '!'] := opens_ahead true

def IsGroupName (name : String) : Prop :=
  name.toList ≠ [] ∧ ∀ c ∈ name.toList, Escape.isNameChar c = true

omit [Engine] in
theorem groupName?_of_isGroupName {name : String} (h : IsGroupName name) {close : Char}
    (hclose : Escape.isNameChar close = false) (rest : List Char) :
    Escape.groupName? close (name.toList ++ close :: rest) = some (name, name.toList.length + 1) := by
  have htake : (name.toList ++ close :: rest).takeWhile Escape.isNameChar = name.toList := by
    rw [List.takeWhile_append_of_pos h.2, List.takeWhile_cons, hclose]
    simp
  rw [Escape.groupName?, htake]
  simp [h.1]

omit [Engine] in
theorem groupRef?_of_isGroupName {name : String} (h : IsGroupName name) {close : Char}
    (hclose : Escape.isNameChar close = false) (rest : List Char) :
    Escape.groupRef? close (name.toList ++ close :: rest) =
      some (.name name, name.toList.length + 1) := by
  have hname := groupName?_of_isGroupName h hclose rest
  obtain ⟨c, cs, hcs⟩ := List.exists_cons_of_ne_nil h.1
  have hc : c ≠ '-' := by
    rintro rfl
    have hhyphen := h.2 '-' (by rw [hcs]; exact List.mem_cons_self)
    exact absurd hhyphen (by decide)
  rw [hcs, List.cons_append] at hname ⊢
  simp [Escape.groupRef?, hc, hname]

theorem sign?_named {name : String} (h : IsGroupName name) (repeatable : Bool) (rest : List Char) :
    sign? false repeatable '(' ((['?', 'P', '<'] ++ (name.toList ++ ['>'])) ++ rest) =
      some (.capture (some name), (['?', 'P', '<'] ++ (name.toList ++ ['>'])).length) := by
  have htext : (['?', 'P', '<'] ++ (name.toList ++ ['>'])) ++ rest =
      '?' :: 'P' :: '<' :: (name.toList ++ '>' :: rest) := by simp
  rw [htext, sign?_open (by decide)]
  show Sign.named? _ 3 = _
  have hlength : (['?', 'P', '<'] ++ (name.toList ++ ['>'])).length =
      3 + (name.toList.length + 1) := by
    rw [List.length_append, List.length_append]
    rfl
  rw [Sign.named?, groupName?_of_isGroupName h (by decide), hlength]
  rfl

theorem run_capture {r : Reader} (hr : r.flags.extended = false) {name : String} (h : IsGroupName name)
    (rest : List Char) : r.run 0 ((['(', '?', 'P', '<'] ++ (name.toList ++ ['>'])) ++ rest) =
      (r.reach.openCapture ((name, r.groups + 1) :: r.names)).run 0 rest := by
  have hsign := sign?_named h r.parts.last.isSome rest
  rw [← hr] at hsign
  rw [List.cons_append, List.cons_append, run_of_sign hsign]
  show Reader.run _ _ _ = _
  rw [run_eq_drop, List.drop_left]
  rfl

theorem opens_capture {name : String} (h : IsGroupName name) :
    Opens (∃ group, · = .capture group) [name] (['(', '?', 'P', '<'] ++ (name.toList ++ ['>'])) := by
  intro names r rest hr
  refine ⟨r.reach.openCapture ((name, r.groups + 1) :: r.names), .capture (r.groups + 1), ?_, ?_, ⟨_, rfl⟩,
    trivial, rfl, rfl⟩
  · exact run_capture hr.extended h rest
  · refine ⟨hr.extended, hr.numbered, fun other hother => ?_, Nat.succ_le_succ hr.count,
      fun entry hentry => ?_⟩
    · rcases List.mem_cons.mp hother with rfl | hother
      · simp [openCapture]
      · exact lookup_isSome_cons (hr.known other hother)
    · rcases List.mem_cons.mp hentry with rfl | hentry
      · exact Nat.le_refl _
      · exact Nat.le_succ_of_le (hr.bounded entry hentry)

theorem Opens.run {kind : Opener → Prop} (h : Opens kind opened opening)
    (htext : Passes (Firm false) names names' text) {extra : List String} {r : Reader}
    (hr : r.Ready (extra ++ names)) :
    ∃ (r' : Reader) (opener : Opener) (node : Node),
      r.run 0 (opening ++ (text ++ ')' :: rest)) = r'.run 0 rest ∧
        r'.Ready (extra ++ (names' ++ opened)) ∧ r'.enclosing = r.enclosing ∧ kind opener ∧
          r'.parts = r.parts.add (opener.wrap node) := by
  obtain ⟨r₁, opener, hrun, hr₁, hkind, heasy, henclosing, -⟩ := h _ r (text ++ ')' :: rest) hr
  rw [← List.append_assoc] at hr₁
  obtain ⟨r₂, hrun', hr₂, henclosing'⟩ := htext _ r₁ (')' :: rest) hr₁ (firm_cons (by decide) rest)
  obtain ⟨r₃, hrun'', hr₃, henclosing'', hparts⟩ :=
    hr₂.run_close (henclosing'.trans henclosing) heasy rest
  have hperm : ((opened ++ extra) ++ names').Perm (extra ++ (names' ++ opened)) := by
    rw [List.append_assoc, ← List.append_assoc extra]
    exact List.perm_append_comm
  exact ⟨r₃, opener, _, hrun.trans (hrun'.trans hrun''), hr₃.perm hperm, henclosing'', hkind, hparts⟩

theorem Opens.passes {kind : Opener → Prop} (h : Opens kind opened opening)
    (htext : Passes (Firm false) names names' text) :
    Passes Anything names (names' ++ opened) (opening ++ (text ++ [')'])) := by
  intro extra r rest hr _
  have heq : (opening ++ (text ++ [')'])) ++ rest = opening ++ (text ++ ')' :: rest) := by simp
  rw [heq]
  obtain ⟨r', opener, node, hrun, hready, henclosing, -, -⟩ := h.run htext hr
  exact ⟨r', hrun, hready, henclosing⟩

theorem passes_unmatched (htext : Passes (Firm false) names names' text) :
    Passes Gentle names names' ((['(', '?', ':'] ++ (((['(', '?', '!'] ++ (text ++ [')'])) ++ ['.']) ++
      [')'])) ++ ['+']) := by
  intro extra r rest hr hrest
  have heq : ((['(', '?', ':'] ++ (((['(', '?', '!'] ++ (text ++ [')'])) ++ ['.']) ++ [')'])) ++ ['+']) ++
      rest = ['(', '?', ':'] ++ (['(', '?', '!'] ++ (text ++ ')' :: '.' :: ')' :: '+' :: rest)) := by simp
  rw [heq]
  obtain ⟨r₁, opener, hrun₁, hr₁, ⟨flags, rfl⟩, heasy, henclosing₁, hparts₁⟩ := opens_plain _ r _ hr
  obtain ⟨r₂, _, node, hrun₂, hr₂, henclosing₂, rfl, hparts₂⟩ := opens_notAhead.run htext hr₁
  have hsign : sign? r₂.flags.extended r₂.parts.last.isSome '.' (')' :: '+' :: rest) =
      some (.anyChar, 0) := by
    rw [hr₂.extended]
    exact sign?_of_ne_open (by decide) _ _
  obtain ⟨set, hdot⟩ : ∃ set, r₂.run 0 ('.' :: ')' :: '+' :: rest) =
      (r₂.add (.chars set)).run 0 (')' :: '+' :: rest) := ⟨_, run_of_obey hsign rfl rfl⟩
  obtain ⟨r₃, hrun₃, hr₃, henclosing₃, hparts₃⟩ := (hr₂.add (.chars set)).run_close
    (henclosing₂.trans henclosing₁) heasy ('+' :: rest)
  -- the body is known as a sequence, so a quantifier may follow the group
  have hlast : r₃.parts.last = some (r₂.add (.chars set)).parts.node := by
    rw [hparts₃]
    rfl
  have hbody : (r₂.add (.chars set)).parts.node.isRepeatable = true := by
    rw [Reader.add, hparts₂, hparts₁]
    rfl
  have hplus := quantifies_plus r₃ _ rest hr₃.extended hlast hbody hrest
  refine ⟨r₃.replaceLast _, hrun₁.trans (hrun₂.trans (hdot.trans (hrun₃.trans hplus))), ?_, henclosing₃⟩
  rw [← List.append_nil names']
  exact ⟨hr₃.extended, hr₃.numbered, hr₃.known, hr₃.count, hr₃.bounded⟩

theorem sign?_backreference {name : String} (h : IsGroupName name) (repeatable : Bool) (rest : List Char) :
    sign? false repeatable '\\' ((['k', '<'] ++ (name.toList ++ ['>'])) ++ rest) =
      some (.escaped (.group (.name name)), (['k', '<'] ++ (name.toList ++ ['>'])).length) := by
  have hescape : Escape.read? false ('k' :: '<' :: (name.toList ++ '>' :: rest)) =
      some (.group (.name name), name.toList.length + 1 + 2) := by
    show ((Escape.groupRef? '>' _).map fun found => _) = _
    rw [groupRef?_of_isGroupName h (by decide)]
    rfl
  have htext : (['k', '<'] ++ (name.toList ++ ['>'])) ++ rest =
      'k' :: '<' :: (name.toList ++ '>' :: rest) := by simp
  rw [sign?_of_ne_open (by decide), htext]
  show (Escape.read? false _).map _ = _
  rw [hescape]
  simp

omit [Engine] in
@[simp]
theorem note_name (r : Reader) (name : String) : r.note (.name name) = r := by
  simp [note, GroupRef.isNumber]

end

def emptyGroups (names : List String) : List Char :=
  names.flatMap fun name => (['(', '?', 'P', '<'] ++ (name.toList ++ ['>'])) ++ [')']

/-- Behind empty groups the reader knows their names, and nothing else. -/
theorem exists_run_emptyGroups {names before : List String} (hnames : ∀ name ∈ names, IsGroupName name)
    {r : Reader} (hr : r.Only before) (hdefault : r.IsDefault) (rest : List Char) :
    ∃ r' : Reader, r'.Only (before ++ names) ∧ r'.IsDefault ∧ r'.deepest ≤ max r.deepest 1 ∧
      r.run 0 (emptyGroups names ++ rest) = r'.run 0 rest := by
  induction names generalizing before r with
  | nil => exact ⟨r, by rwa [List.append_nil], hdefault, Nat.le_max_left .., rfl⟩
  | cons name names ih =>
    have hclose : (r.reach.openCapture ((name, r.groups + 1) :: r.names)).closeGroup = some { r.reach with
        parts := r.parts.add (.capture (r.groups + 1) .empty), groups := r.groups + 1,
        names := (name, r.groups + 1) :: r.names } := by
      have hnode : (r.reach.openCapture ((name, r.groups + 1) :: r.names)).node? = some .empty :=
        node?_of_numbered hdefault.numbered
      rw [closeGroup, hnode]
      rfl
    have honly : Only (before ++ [name]) { r.reach with
        parts := r.parts.add (.capture (r.groups + 1) .empty), groups := r.groups + 1,
        names := (name, r.groups + 1) :: r.names } := by
      refine ⟨hr.extended, hr.closed, fun other hother => ?_, ?_⟩
      · rw [List.lookup_cons] at hother
        split at hother
        · rename_i heq
          rw [eq_of_beq heq]
          exact List.mem_append_right before List.mem_cons_self
        · exact List.mem_append_left [name] (hr.known other hother)
      · rw [List.length_append]
        exact Nat.succ_le_succ hr.groups
    obtain ⟨r', hr', hdefault', hdeepest, hrun⟩ := ih
      (fun other hother => hnames other (List.mem_cons_of_mem name hother)) honly
      ⟨hdefault.flags, hdefault.numbered⟩
    have hreach : r.reach.deepest = max r.deepest 1 := by
      rw [reach, level, hr.closed]
      rfl
    refine ⟨r', by simpa using hr', hdefault', hdeepest.trans (by simp [hreach]), ?_⟩
    rw [emptyGroups, List.flatMap_cons, List.append_assoc, List.append_assoc,
      run_capture hr.extended (hnames name List.mem_cons_self)]
    exact (run_closing (r := r.reach.openCapture ((name, r.groups + 1) :: r.names)) hr.extended hclose _).trans
      hrun

omit [Engine] in
theorem only_nil : ({} : Reader).Only [] := ⟨rfl, rfl, fun _ h => (nomatch h), Nat.le_refl 0⟩

omit [Engine] in
theorem ready_nil : ({} : Reader).Ready [] :=
  ⟨rfl, rfl, fun _ h => (nomatch h), Nat.le_refl 0, fun _ h => (nomatch h)⟩

end Reader
end PhrasePattern.Regex
