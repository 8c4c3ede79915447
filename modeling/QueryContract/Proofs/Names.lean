import QueryContract.Proofs.Forward

/-!
# `Proofs.Names` — where the names in a declaration come from

The names that a type, a pattern or a parameter is read with are words among the tokens that were taken for it. A parser
that takes a front of its input `Takes` whatever follows from a property of all words in there; so the property can be
anything: to be an identifier, to stand in the text, or to stand in the same parameter.

* `Tokens.words`, `Tokens.Within` — the words among tokens;
* `Takes`, `Takes.*`              — results made of the words that are taken: one lemma for each combinator;
* `TypeExpr.Named`, `takes_typeRule` — a written type has its names from the words in it.
-/

namespace QueryContract.Source

open QueryContract.Parser

/-! ## Words -/

/-- The words among the tokens, those in groups included. -/
def Tokens.words : Tokens → List String
  | .nil => []
  | .leaf (.word w) rest => w :: rest.words
  | .leaf _ rest => rest.words
  | .group _ body rest => body.words ++ rest.words

@[simp] theorem Tokens.words_append (a b : Tokens) : (a ++ b).words = a.words ++ b.words := by
  induction a with
  | nil => rfl
  | leaf t r ih => cases t <;> simp [words, ih]
  | group d body r _ ih => simp [words, ih]

/-- All words among the tokens have the property. -/
def Tokens.Within (W : String → Prop) (s : Tokens) : Prop := ∀ w ∈ s.words, W w

theorem Tokens.within_append {W : String → Prop} {a b : Tokens} : (a ++ b).Within W ↔ a.Within W ∧ b.Within W := by
  simp only [Within, words_append, List.mem_append]
  exact ⟨fun h => ⟨fun w hw => h w (.inl hw), fun w hw => h w (.inr hw)⟩, fun h w hw => hw.elim (h.1 w) (h.2 w)⟩

/-! ## Parsers -/

/-- The parser takes a front of its input, and what it makes of it follows from a property of all words in there. -/
def Takes {α : Type} (Q : (String → Prop) → α → Prop) (p : Parser Tokens α) : Prop :=
  ∀ ⦃s a r⦄, p s = some (a, r) → ∃ front, s = front ++ r ∧ ∀ W, front.Within W → Q W a

namespace Takes

variable {α β : Type} {P Q : (String → Prop) → α → Prop} {R : (String → Prop) → β → Prop}

theorem imp {p : Parser Tokens α} (h : Takes P p) (hPQ : ∀ W a, P W a → Q W a) : Takes Q p := by
  intro s a r hs
  obtain ⟨front, hfront, hP⟩ := h hs
  exact ⟨front, hfront, fun W hW => hPQ W a (hP W hW)⟩

theorem pure {a : α} (h : ∀ W, Q W a) : Takes Q (Pure.pure a : Parser Tokens α) := by
  intro s b r hs
  cases hs
  exact ⟨.nil, rfl, fun W _ => h W⟩

theorem failure : Takes Q (failure : Parser Tokens α) := fun _ _ _ h => absurd h nofun

theorem bind {p : Parser Tokens α} {f : α → Parser Tokens β} (hp : Takes P p)
    (hf : ∀ a, Takes (fun W b => P W a → R W b) (f a)) : Takes R (p >>= f) := by
  intro s b r h
  obtain ⟨a, m, ha, hb⟩ := of_bind h
  obtain ⟨front, rfl, hP⟩ := hp ha
  obtain ⟨back, rfl, hR⟩ := hf a hb
  refine ⟨front ++ back, (Tokens.append_assoc _ _ _).symm, fun W hW => ?_⟩
  obtain ⟨hfront, hback⟩ := Tokens.within_append.1 hW
  exact hR W hback (hP W hfront)

/-- What the first part makes of its words does not matter. -/
theorem skip {p : Parser Tokens α} [hp : Forward p] {f : α → Parser Tokens β} (hf : ∀ a, Takes R (f a)) :
    Takes R (p >>= f) := by
  have htrivial : Takes (fun _ _ => True) p := by
    intro s a r h
    obtain ⟨front, hfront⟩ := hp.front h
    exact ⟨front, hfront, fun _ _ => trivial⟩
  exact .bind htrivial fun a => (hf a).imp fun _ _ h _ => h

theorem ite {c : Prop} [Decidable c] {p q : Parser Tokens α} (hp : Takes Q p) (hq : Takes Q q) :
    Takes Q (if c then p else q) := by
  split
  · exact hp
  · exact hq

theorem branch {test : Tokens → Bool} {p q : Parser Tokens α} (hp : Takes Q p) (hq : Takes Q q) :
    Takes Q (do if ← look test then p else q) := .skip fun _ => .ite hp hq

theorem anyWord : Takes (fun W n => W n) anyWord := by
  intro s n r h
  cases s with
  | leaf t s =>
      cases t with
      | word w =>
          cases h
          exact ⟨.leaf (.word n) .nil, rfl, fun W hW => hW n (by simp [Tokens.words])⟩
      | _ => cases h
  | _ => cases h

theorem name : Takes (fun W n => W n) name := by
  intro s n r h
  cases s with
  | leaf t s =>
      cases t with
      | word w =>
          obtain ⟨rfl, rfl⟩ : w = n ∧ s = r := by
            rw [Source.name] at h
            split at h
            · cases h
            · cases h
              exact ⟨rfl, rfl⟩
          exact ⟨.leaf (.word w) .nil, rfl, fun W hW => hW w (by simp [Tokens.words])⟩
      | _ => cases h
  | _ => cases h

theorem inside {d : Delimiter} {content : Parser Tokens α} (h : Takes Q content) : Takes Q (inside d content) := by
  intro s a r hs
  cases s with
  | group d' body s =>
      obtain ⟨-, hbody, rfl⟩ := inside_eq.1 hs
      obtain ⟨front, hfront, hQ⟩ := h hbody
      rw [Tokens.append_nil] at hfront
      subst hfront
      exact ⟨.group d' body .nil, rfl, fun W hW => hQ W fun w hw => hW w (by simp [Tokens.words, hw])⟩
  | _ => cases hs

/-! ### Repetition -/

theorem many {stop : Tokens → Bool} {item : Parser Tokens α} (hitem : Takes Q item) :
    Takes (fun W as => ∀ a ∈ as, Q W a) (many stop item) := by
  intro s as r h
  have hsteps := many_steps h
  clear h
  induction hsteps with
  | nil s => exact ⟨.nil, rfl, fun W _ => nofun⟩
  | cons first rest ih =>
      obtain ⟨front, rfl, hfirst⟩ := hitem first
      obtain ⟨back, rfl, hrest⟩ := ih
      refine ⟨front ++ back, (Tokens.append_assoc _ _ _).symm, fun W hW => ?_⟩
      obtain ⟨hfront, hback⟩ := Tokens.within_append.1 hW
      exact List.forall_mem_cons.2 ⟨hfirst W hfront, hrest W hback⟩

theorem separated {stop : Tokens → Bool} {separator : Parser Tokens Unit} [hseparator : Forward separator]
    {item : Parser Tokens α} (hitem : Takes Q item) :
    Takes (fun W y => ∀ a ∈ y.1, Q W a) (separated stop separator item) := by
  rintro s ⟨as, trailing⟩ r h
  have hsteps := separated_steps h
  clear h
  induction hsteps with
  | nil s => exact ⟨.nil, rfl, fun W _ => nofun⟩
  | last only =>
      obtain ⟨front, rfl, honly⟩ := hitem only
      exact ⟨front, rfl, fun W hW => List.forall_mem_singleton.2 (honly W hW)⟩
  | cons first between rest ih =>
      obtain ⟨front, rfl, hfirst⟩ := hitem first
      obtain ⟨comma, rfl⟩ := hseparator.front between
      obtain ⟨back, rfl, hrest⟩ := ih
      refine ⟨front ++ (comma ++ back), by rw [Tokens.append_assoc, Tokens.append_assoc], fun W hW => ?_⟩
      obtain ⟨hfront, hback⟩ := Tokens.within_append.1 hW
      exact List.forall_mem_cons.2 ⟨hfirst W hfront, hrest W (Tokens.within_append.1 hback).2⟩

theorem chained {link : α → Parser Tokens Link} [hlink : ∀ a, Forward (link a)] {item : Parser Tokens α}
    (hitem : Takes Q item) : Takes (fun W y => y.1 ≠ [] ∧ ∀ a ∈ y.1, Q W a) (chained link item) := by
  rintro s ⟨as, trailing⟩ r h
  have hsteps := chained_steps h
  clear h
  induction hsteps with
  | last only stop =>
      obtain ⟨front, rfl, honly⟩ := hitem only
      obtain ⟨back, rfl⟩ := (hlink _).front stop
      refine ⟨front ++ back, (Tokens.append_assoc _ _ _).symm, fun W hW => ⟨nofun, ?_⟩⟩
      exact List.forall_mem_singleton.2 (honly W (Tokens.within_append.1 hW).1)
  | cons first between rest ih =>
      obtain ⟨front, rfl, hfirst⟩ := hitem first
      obtain ⟨plus, rfl⟩ := (hlink _).front between
      obtain ⟨back, rfl, hrest⟩ := ih
      refine ⟨front ++ (plus ++ back), by rw [Tokens.append_assoc, Tokens.append_assoc], fun W hW => ⟨nofun, ?_⟩⟩
      obtain ⟨hfront, hback⟩ := Tokens.within_append.1 hW
      exact List.forall_mem_cons.2 ⟨hfirst W hfront, (hrest W (Tokens.within_append.1 hback).2).2⟩

end Takes

/-! ## Named forms -/

mutual

/-- The names of a written type have the property: all segments of its paths, and the types in them that count. Paths are
    not empty. What declares no type is not looked at. -/
inductive TypeExpr.Named (W : String → Prop) : TypeExpr → Prop where
  | path (leading : Bool) {segments : List Segment} (nonempty : segments ≠ [])
      (named : ∀ s ∈ segments, Segment.Named W s) : TypeExpr.Named W (.path leading segments)
  | member (self : TypeExpr) (leading : Bool) {base rest : List Segment} (nonempty : rest ≠ [])
      (hbase : ∀ s ∈ base, Segment.Named W s) (hrest : ∀ s ∈ rest, Segment.Named W s) :
      TypeExpr.Named W (.member self leading base rest)
  | reference (life : Option String) (mutable : Bool) {target : TypeExpr} (named : TypeExpr.Named W target) :
      TypeExpr.Named W (.reference life mutable target)
  | paren {inner : TypeExpr} (named : TypeExpr.Named W inner) : TypeExpr.Named W (.paren inner)
  | slice {element : TypeExpr} (named : TypeExpr.Named W element) : TypeExpr.Named W (.slice element)
  | array {element : TypeExpr} (length : Tokens) (named : TypeExpr.Named W element) :
      TypeExpr.Named W (.array element length)
  | tuple (elements : List TypeExpr) (trailing : Bool) : TypeExpr.Named W (.tuple elements trailing)
  | bounded (keyword : Option String) {bounds : List Bound} (trailing : Bool)
      (named : ∀ b ∈ bounds, Bound.Named W b) : TypeExpr.Named W (.bounded keyword bounds trailing)
  | other (written : Tokens) (bare : Bool) : TypeExpr.Named W (.other written bare)

/-- The names of a segment have the property. -/
inductive Segment.Named (W : String → Prop) : Segment → Prop where
  | mk {name : String} {arguments : Arguments} (word : W name) (named : Arguments.Named W arguments) :
      Segment.Named W (.mk name arguments)

/-- The names of what follows the name of a segment have the property. -/
inductive Arguments.Named (W : String → Prop) : Arguments → Prop where
  | none : Arguments.Named W .none
  | angle (turbofish : Bool) {args : List Argument} (trailing : Bool) (named : ∀ a ∈ args, Argument.Named W a) :
      Arguments.Named W (.angle turbofish args trailing)
  | parenthesized (written : Tokens) (bare : Bool) : Arguments.Named W (.parenthesized written bare)

/-- The names of a generic argument have the property. -/
inductive Argument.Named (W : String → Prop) : Argument → Prop where
  | lifetime (name : String) : Argument.Named W (.lifetime name)
  | type {t : TypeExpr} (named : TypeExpr.Named W t) : Argument.Named W (.type t)
  | associated (front : Tokens) {t : TypeExpr} (named : TypeExpr.Named W t) : Argument.Named W (.associated front t)
  | other (written : Tokens) : Argument.Named W (.other written)

/-- The names of a bound have the property. -/
inductive Bound.Named (W : String → Prop) : Bound → Prop where
  | lifetime (name : String) : Bound.Named W (.lifetime name)
  | trait (parenthesized : Bool) (front : Tokens) (leading : Bool) {segments : List Segment} (nonempty : segments ≠ [])
      (named : ∀ s ∈ segments, Segment.Named W s) : Bound.Named W (.trait parenthesized front leading segments)
  | capture (written : Tokens) : Bound.Named W (.capture written)
  | constant (written : Tokens) : Bound.Named W (.constant written)

end

/-- The segments of a path, all of whose names have the property. -/
def PathNamed (W : String → Prop) (segments : List Segment) : Prop := segments ≠ [] ∧ ∀ s ∈ segments, s.Named W

/-- The name that a pattern gives has the property. -/
def Pattern.Named (W : String → Prop) (p : Pattern) : Prop := ∀ n, p.kind = .name n → W n

/-! ## Rules -/

/-- The types and patterns in a declaration have their names from the words in them. -/
class NamedReader (self : Reader) : Prop extends ForwardReader self where
  type : ∀ plus, Takes TypeExpr.Named (self.type plus)
  pattern : Takes Pattern.Named self.pattern

section

variable (self : Reader) [NamedReader self]

/-! ### Paths -/

theorem takes_result (plus : Bool) : Takes (fun W t? => ∀ t ∈ t?, TypeExpr.Named W t) (result? self plus) := by
  refine .skip fun arrow => .ite (.bind (NamedReader.type plus) fun t => .pure ?_) (.pure fun W => nofun)
  rintro W ht u hu
  cases hu
  exact ht

theorem takes_inputs : Takes Arguments.Named (inputs self) :=
  .skip fun _ => .skip fun _ => .skip fun _ => .pure fun _ => .parenthesized _ _

theorem takes_argument : Takes Argument.Named (argument self) := by
  refine .branch (.skip fun n => .pure fun W => .lifetime n) (.branch (.skip fun c => .pure fun W => .other c) ?_)
  refine .bind (NamedReader.type true) fun t => .ite (.pure fun W ht => .type ht) (.skip fun equals => .ite ?_ ?_)
  · refine .branch (.skip fun c => .pure fun W _ => .other _) (.bind (NamedReader.type true) fun u => ?_)
    exact .pure fun W hu _ => .associated _ hu
  · exact .skip fun colon => .ite (.skip fun bounds => .pure fun W _ => .other _) (.pure fun W ht => .type ht)

theorem takes_angle : Takes Arguments.Named (angle self) :=
  .skip fun turbofish => .skip fun _ => .bind (.separated (takes_argument self)) fun args => .skip fun _ =>
    .pure fun _ hargs => .angle turbofish args.2 hargs

theorem takes_segment (inExpression : Bool) : Takes Segment.Named (segment self inExpression) := by
  refine .branch (.bind .anyWord fun n => .pure fun W hn => .mk hn .none) ?_
  refine .branch (.bind .anyWord fun n => ?_) (.bind .name fun n => ?_)
  all_goals
    exact .branch (.bind (takes_angle self) fun arguments => .pure fun W hargs hn => .mk hn hargs)
      (.pure fun W hn => .mk hn .none)

theorem takes_segments (inExpression : Bool) : Takes PathNamed (segments self inExpression) :=
  .bind (.chained (takes_segment self inExpression)) fun _ => .pure fun _ hss => hss

theorem takes_path (inExpression : Bool) : Takes (fun W y => PathNamed W y.2) (path self inExpression) :=
  .skip fun _ => .bind (takes_segments self inExpression) fun _ => .pure fun _ hss => hss

theorem takes_memberPath (inExpression : Bool) :
    Takes (fun W y => TypeExpr.Named W (.member y.1 y.2.1 y.2.2.1 y.2.2.2)) (memberPath self inExpression) := by
  have hpath : Takes (fun W y => ∀ s ∈ y.2, Segment.Named W s) (path self false) :=
    (takes_path self false).imp fun _ _ h => h.2
  refine .skip fun _ => .skip fun t => .skip fun isAs => .ite (.bind hpath fun base => ?_)
    (.bind (P := fun W y => ∀ s ∈ y.2, Segment.Named W s) (.pure fun W => nofun) fun base => ?_)
  all_goals
    exact .skip fun _ => .skip fun _ => .bind (.chained (takes_segment self inExpression)) fun rest =>
      .pure fun W hrest hbase => .member t base.1 hrest.1 hbase hrest.2

/-! ### Bounds -/

theorem PathNamed.replaceLast {W : String → Prop} {ss : List Segment} (h : PathNamed W ss) {arguments : Arguments}
    (ha : arguments.Named W) : PathNamed W (replaceLast arguments ss) := by
  obtain ⟨hne, hss⟩ := h
  induction ss with
  | nil => exact absurd rfl hne
  | cons s ss ih =>
      obtain ⟨hs, hrest⟩ := List.forall_mem_cons.1 hss
      cases ss with
      | nil =>
          cases hs with
          | mk hn _ => exact ⟨nofun, List.forall_mem_singleton.2 (.mk hn ha)⟩
      | cons t ts =>
          obtain ⟨-, hlast⟩ := ih nofun hrest
          exact ⟨nofun, List.forall_mem_cons.2 ⟨hs, hlast⟩⟩

theorem takes_traitBound (constants : Bool) : Takes (fun W y => PathNamed W y.2.2.2) (traitBound self constants) := by
  refine .skip fun life => .skip fun constant => .ite (.skip fun _ => ?_) ?_
  all_goals
    refine .skip fun const => .skip fun mark => .ite (.skip fun _ => ?_) ?_
    -- after what stands before the path, however it was checked
    all_goals
      exact .bind (takes_path self false) fun y => .skip fun takes =>
        .ite (.bind (takes_inputs self) fun arguments => .pure fun W ha hy => hy.replaceLast ha) (.pure fun W hy => hy)

theorem takes_bound (captures constants : Bool) : Takes Bound.Named (bound self captures constants) := by
  refine .branch (.skip fun n => .pure fun W => .lifetime n) (.branch (.ite ?_ .failure) ?_)
  · exact .skip fun c => .pure fun W => .capture c
  · refine .skip fun start => .skip fun parenthesized => .ite (.bind (.inside (takes_traitBound self constants)) fun y => ?_)
      (.bind (takes_traitBound self constants) fun y => ?_)
    all_goals
      exact .ite (.skip fun written => .pure fun W _ => .constant written)
        (.pure fun W hy => .trait _ _ _ hy.1 hy.2)

theorem takes_boundChain (plus captures constants : Bool) :
    Takes (fun W y => ∀ b ∈ y.1, Bound.Named W b) (boundChain self plus captures constants) :=
  (Takes.chained (takes_bound self captures constants)).imp fun _ _ h => h.2

theorem takes_boundedType (keyword : Option String) (plus special : Bool) :
    Takes TypeExpr.Named (boundedType self keyword plus special) :=
  .bind (takes_boundChain self plus special special) fun y => .ite (.pure fun _ h => .bounded keyword y.2 h) .failure

theorem takes_furtherBounds : Takes (fun W bs => ∀ b ∈ bs, Bound.Named W b) (furtherBounds self) :=
  .many (.skip fun _ => takes_bound self false false)

/-! ### Types -/

theorem takes_functionType (front : Tokens) : Takes TypeExpr.Named (functionType self front) :=
  .skip fun _ => .skip fun _ => .pure fun _ => .other _ _

theorem takes_pathType (plus : Bool) (front : Tokens) : Takes TypeExpr.Named (pathType self plus front) := by
  refine .branch (.bind (takes_memberPath self false) fun y => .pure fun W hy => hy) ?_
  refine .bind (takes_path self false) fun y => .branch (.skip fun _ => .skip fun g => .pure fun W _ => .other _ _) ?_
  refine .skip fun link => ?_
  have hfirst : ∀ {W}, PathNamed W y.2 → Bound.Named W (.trait false front y.1 y.2) := fun h => .trait _ _ _ h.1 h.2
  -- a path that a plus follows is the first of several bounds
  cases link with
  | done =>
      exact .ite (.pure fun W hy => .path _ hy.1 hy.2)
        (.pure fun W hy => .bounded _ _ (List.forall_mem_singleton.2 (hfirst hy)))
  | trailing => exact .pure fun W hy => .bounded _ _ (List.forall_mem_singleton.2 (hfirst hy))
  | again =>
      exact .bind (takes_boundChain self true false false) fun more =>
        .pure fun W hmore hy => .bounded _ _ (List.forall_mem_cons.2 ⟨hfirst hy, hmore⟩)

theorem takes_parenContent : Takes TypeExpr.Named (parenContent self) := by
  refine .branch (.pure fun W => .tuple _ _) (.branch ?_ (.branch ?_ ?_))
  · exact .bind (takes_boundedType self none true false) fun t => .pure fun W ht => .paren ht
  · exact .bind (takes_traitBound self false) fun y => .pure fun W hy =>
      .bounded _ _ (List.forall_mem_singleton.2 (.trait _ _ _ hy.1 hy.2))
  · refine .bind (NamedReader.type true) fun first => .branch ?_ (.pure fun W hfirst => .paren hfirst)
    exact .skip fun _ => .skip fun more => .pure fun W _ => .tuple _ _

theorem named_boundOf? {W : String → Prop} {t : TypeExpr} (ht : t.Named W) {b : Bound} (h : boundOf? t = some b) :
    b.Named W := by
  unfold boundOf? at h
  split at h
  case h_1 =>
      cases h
      cases ht with
      | path _ hne hss => exact .trait _ _ _ hne hss
  case h_2 =>
      cases h
      cases ht with
      | bounded _ _ hbounds =>
          cases List.forall_mem_singleton.1 hbounds with
          | trait _ _ _ hne hss => exact .trait _ _ _ hne hss
  case h_3 =>
      cases h
      cases ht with
      | bounded _ _ hbounds => exact List.forall_mem_singleton.1 hbounds
  case h_4 => cases h

theorem takes_parenType (plus : Bool) : Takes TypeExpr.Named (parenType self plus) := by
  refine .bind (.inside (takes_parenContent self)) fun t => ?_
  cases t with
  | bounded keyword bounds trailing =>
      refine .bind (takes_furtherBounds self) fun more => .pure fun W hmore ht => ?_
      cases ht with
      | bounded _ _ hbounds => exact .bounded _ _ (List.forall_mem_append.2 ⟨hbounds, hmore⟩)
  | paren inner =>
      refine .skip fun more => ?_
      -- what stands in the parentheses may be the first of several bounds as well
      cases hb : boundOf? inner with
      | none => exact .pure fun W ht => ht
      | some b =>
          cases more with
          | false => exact .pure fun W ht => ht
          | true =>
              refine .bind (takes_furtherBounds self) fun more => .pure fun W hmore ht => ?_
              cases ht with
              | paren hinner => exact .bounded _ _ (List.forall_mem_cons.2 ⟨named_boundOf? hinner hb, hmore⟩)
  | _ => exact .pure fun W ht => ht

theorem takes_dynType (plus : Bool) : Takes TypeExpr.Named (dynType self plus) :=
  .skip fun _ => .skip fun _ => .skip fun _ => .bind (takes_boundedType self (some "dyn") plus false) fun _ =>
    .ite (.skip fun _ => .pure fun _ _ => .other _ _) (.pure fun _ ht => ht)

theorem takes_bracketContent : Takes TypeExpr.Named (bracketContent self) :=
  .bind (NamedReader.type true) fun _ => .skip fun _ =>
    .ite (.skip fun _ => .pure fun _ ht => .array _ ht) (.pure fun _ ht => .slice ht)

theorem takes_pointerType : Takes TypeExpr.Named (pointerType self) :=
  .skip fun _ => .skip fun _ => .pure fun _ => .other _ _

theorem takes_referenceType : Takes TypeExpr.Named (referenceType self) :=
  .skip fun _ => .skip fun _ => .skip fun _ => .bind (NamedReader.type false) fun _ => .pure fun _ ht => .reference _ _ ht

theorem takes_typeAfter (plus : Bool) (start front : Tokens) : Takes TypeExpr.Named (typeAfter self plus start front) := by
  refine .branch (takes_parenType self plus) (.branch (takes_functionType self front) ?_)
  refine .branch (.skip fun _ => .skip fun _ => .pure fun W => .other _ _) (.branch (takes_pathType self plus front) ?_)
  refine .branch (takes_dynType self plus) (.branch (.inside (takes_bracketContent self)) ?_)
  refine .branch (takes_pointerType self) (.branch (takes_referenceType self) ?_)
  refine .branch (.skip fun _ => .pure fun W => .other _ _) (.skip fun isImpl => .ite (takes_boundedType self _ _ _) ?_)
  exact .branch (.skip fun _ => .pure fun W => .other _ _) (.branch (takes_boundedType self _ _ _) .failure)

theorem takes_typeRule (plus : Bool) : Takes TypeExpr.Named (typeRule self plus) :=
  .skip fun start => .branch (.skip fun front => .skip fun _ => takes_typeAfter self plus start front)
    (takes_typeAfter self plus start .nil)

/-! ### Patterns -/

/-- A pattern that starts with a path, a literal or a sign gives no name. -/
theorem takes_rangeFrom (start : Tokens) : Takes Pattern.Named (rangeFrom self start) := by
  refine .skip fun dots => .skip fun last => ?_
  cases last with
  | some e => exact .pure fun W => nofun
  | none => exact .ite .failure (.pure fun W => nofun)

theorem takes_rangeTo : Takes Pattern.Named (rangeTo self) := by
  refine .skip fun dots => .skip fun last => ?_
  cases last with
  | some e => exact .pure fun W => nofun
  | none => exact .ite .failure (.pure fun W => nofun)

theorem takes_pathPattern : Takes Pattern.Named (pathPattern self) := by
  refine .skip fun y => .branch (.skip fun _ => .pure fun W => nofun) (.branch (.skip fun _ => .pure fun W => nofun) ?_)
  exact .branch (.skip fun _ => .pure fun W => nofun) (.branch (takes_rangeFrom self y.2) (.pure fun W => nofun))

theorem takes_namePattern : Takes Pattern.Named (namePattern self) := by
  refine .skip fun marks => .branch (.bind .anyWord fun n => ?_) (.bind .name fun n => ?_)
  all_goals
    refine .skip fun inner => .pure fun W hn m hm => ?_
    cases hm
    exact hn

theorem takes_literalPattern : Takes Pattern.Named (literalPattern self) := by
  refine .branch (.skip fun y => .bind (P := Pattern.Named) (.pure fun W => nofun) fun start => ?_)
    (.skip fun l => .bind (P := Pattern.Named) (.pure fun W => nofun) fun start => ?_)
  all_goals
    exact .branch ((takes_rangeFrom self start.written).imp fun _ _ h _ => h) (.pure fun W hstart => hstart)

theorem takes_patternRule : Takes Pattern.Named (patternRule self) := by
  refine .branch (takes_pathPattern self) (.branch (.skip fun _ => .pure fun W => nofun) ?_)
  refine .branch (.skip fun _ => .skip fun _ => .skip fun _ => .skip fun _ => .pure fun W => nofun) ?_
  refine .branch (takes_literalPattern self) (.branch (takes_namePattern self) ?_)
  refine .branch (.skip fun _ => .pure fun W => nofun) (.branch (.skip fun _ => .pure fun W => nofun) ?_)
  exact .branch (.skip fun _ => .pure fun W => nofun) (.branch (takes_rangeTo self) .failure)

end

/-! ## The grammar as a whole -/

/-- By induction on the size: a rule calls the reader on smaller inputs only. -/
theorem named_readerBelow (n : Nat) : NamedReader (readerBelow n) := by
  induction n using Nat.strongRecOn with
  | _ n ih =>
      have hforward := forward_readerBelow n
      constructor
      case type =>
          intro plus s t r h
          obtain ⟨hlt, hs⟩ := readerBelow_eq.1 h
          rw [reader_below] at hs
          have hself := ih s.size hlt
          exact takes_typeRule _ plus hs
      case pattern =>
          intro s p r h
          obtain ⟨hlt, hs⟩ := readerBelow_eq.1 h
          rw [reader_below] at hs
          have hself := ih s.size hlt
          exact takes_patternRule _ hs

/-- **Types and patterns have their names from the words in them.** -/
instance : NamedReader reader where
  type plus s t r h := by
    have hself := named_readerBelow s.size
    rw [Reader.type, reader_below] at h
    exact takes_typeRule _ plus h
  pattern s p r h := by
    have hself := named_readerBelow s.size
    rw [Reader.pattern, reader_below] at h
    exact takes_patternRule _ h

end QueryContract.Source
