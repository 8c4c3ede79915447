import QueryContract.Proofs.Respacing
import QueryContract.Proofs.TraitItems
import QueryContract.Proofs.Transparency

/-!
# `Proofs.BeforeSemicolon` — declarations with other spaces before a semicolon

A method declares the same with and without a space before the semicolon at its end. The signature is the same but for what
is copied from the input as it stands, and nothing of that is declared.

* `TypeExpr.Alike`, `Segment.Alike`, `Bound.Alike` — forms that declare the same, whatever is copied into them;
* `unmoved_*`                                       — one lemma for each rule, in the order of the grammar;
* `Declares.respaced`                               — the main statement.
-/

namespace QueryContract.Source

open QueryContract.Parser

/-! ## Forms that declare the same -/

/-- Two types that declare the same, and of which both or none is a lone name. -/
structure TypeExpr.Alike (t t' : TypeExpr) : Prop where
  loneName : isLoneName t = isLoneName t'
  declared : Agree t.declared t'.declared

/-- Two generic arguments that declare the same, whatever is declared after them. -/
def Argument.Alike (a a' : Argument) : Prop :=
  ∀ as as', Agree (allDeclared as) (allDeclared as') → Agree (allDeclared (a :: as)) (allDeclared (a' :: as'))

/-- Generic arguments that declare the same one by one, or argument types in parentheses. -/
inductive Arguments.Alike : Arguments → Arguments → Prop where
  | none : Alike .none .none
  | angle (turbofish trailing : Bool) {args args' : List Argument} (h : List.Forall₂ Argument.Alike args args') :
      Alike (.angle turbofish args trailing) (.angle turbofish args' trailing)
  | parenthesized (written written' : Tokens) (bare bare' : Bool) :
      Alike (.parenthesized written bare) (.parenthesized written' bare')

/-- Two segments with one name and alike arguments. -/
structure Segment.Alike (s s' : Segment) : Prop where
  name : s.name = s'.name
  arguments : s.arguments.Alike s'.arguments

/-- Two bounds of one kind; traits have alike paths. -/
inductive Bound.Alike : Bound → Bound → Prop where
  | lifetime (name : String) : Alike (.lifetime name) (.lifetime name)
  | trait (parenthesized leading : Bool) (front front' : Tokens) {segments segments' : List Segment}
      (h : List.Forall₂ Segment.Alike segments segments') :
      Alike (.trait parenthesized front leading segments) (.trait parenthesized front' leading segments')
  | capture (written written' : Tokens) : Alike (.capture written) (.capture written')
  | constant (written written' : Tokens) : Alike (.constant written) (.constant written')

theorem forall₂_refl {α : Type} {R : α → α → Prop} (h : ∀ a, R a a) : ∀ as, List.Forall₂ R as as
  | [] => .nil
  | a :: as => .cons (h a) (forall₂_refl h as)

namespace Argument.Alike

theorem refl (a : Argument) : a.Alike a := fun _ _ h => allDeclared_append h [a]

theorem type {t t' : TypeExpr} (h : t.Alike t') : Argument.Alike (.type t) (.type t') := by
  intro as as' has
  rw [allDeclared, allDeclared]
  exact h.declared.bind fun first => has.bind fun more => .refl _

theorem associated (front front' : Tokens) {t t' : TypeExpr} (h : t.Alike t') :
    Argument.Alike (.associated front t) (.associated front' t') := by
  intro as as' has
  rw [allDeclared, allDeclared]
  exact h.declared.bind fun first => has.bind fun more => .refl _

theorem other (written written' : Tokens) : Argument.Alike (.other written) (.other written') := by
  intro as as' has
  rw [allDeclared, allDeclared]
  exact has

theorem allDeclared {as as' : List Argument} (h : List.Forall₂ Argument.Alike as as') :
    Agree (allDeclared as) (Source.allDeclared as') := by
  induction h with
  | nil => exact .refl _
  | cons ha _ ih => exact ha _ _ ih

end Argument.Alike

namespace Arguments.Alike

variable {a a' : Arguments}

theorem refl (a : Arguments) : a.Alike a := by
  cases a with
  | none => exact .none
  | angle turbofish args trailing => exact .angle turbofish trailing (forall₂_refl Argument.Alike.refl args)
  | parenthesized written bare => exact .parenthesized written written bare bare

theorem isEmpty_eq (h : a.Alike a') : a.isEmpty = a'.isEmpty := by
  cases h with
  | none => rfl
  | angle turbofish trailing h => cases h <;> rfl
  | parenthesized written written' bare bare' => rfl

theorem declared (h : a.Alike a') (whole whole' : TypeExpr) : Agree (a.declared whole) (a'.declared whole') := by
  cases h with
  | none =>
      rw [Arguments.declared, Arguments.declared]
      exact .refl _
  | angle turbofish trailing h =>
      rw [Arguments.declared, Arguments.declared]
      exact Argument.Alike.allDeclared h
  | parenthesized written written' bare bare' =>
      rw [Arguments.declared, Arguments.declared]
      exact .unsupported whole whole'

end Arguments.Alike

namespace Segment.Alike

variable {segments segments' : List Segment}

theorem refl (s : Segment) : s.Alike s := ⟨rfl, .refl _⟩

theorem declared {s s' : Segment} (h : s.Alike s') (whole whole' : TypeExpr) :
    Agree (s.declared whole) (s'.declared whole') := by
  obtain ⟨name, arguments⟩ := s
  obtain ⟨name', arguments'⟩ := s'
  rw [Segment.declared, Segment.declared]
  exact h.arguments.declared whole whole'

theorem names_eq (h : List.Forall₂ Segment.Alike segments segments') :
    segments.map Segment.name = segments'.map Segment.name := by
  induction h with
  | nil => rfl
  | cons hs _ ih => rw [List.map_cons, List.map_cons, hs.name, ih]

theorem lastDeclared (h : List.Forall₂ Segment.Alike segments segments') (whole whole' : TypeExpr) :
    Agree (lastDeclared whole segments) (Source.lastDeclared whole' segments') := by
  induction h with
  | nil =>
      rw [Source.lastDeclared, Source.lastDeclared]
      exact .refl _
  | cons hs hss ih =>
      cases hss with
      | nil =>
          rw [Source.lastDeclared, Source.lastDeclared]
          exact hs.declared whole whole'
      | cons hs' hss' =>
          rw [Source.lastDeclared, Source.lastDeclared]
          exact ih

/-- What is said of the arguments of all segments is the same, if it does not tell alike arguments apart. -/
theorem all_eq {p : Segment → Bool} (hp : ∀ s s', s.Alike s' → p s = p s')
    (h : List.Forall₂ Segment.Alike segments segments') : segments.all p = segments'.all p := by
  induction h with
  | nil => rfl
  | cons hs _ ih => rw [List.all_cons, List.all_cons, hp _ _ hs, ih]

theorem takesInputs_eq (h : List.Forall₂ Segment.Alike segments segments') :
    takesInputs segments = takesInputs segments' := by
  induction h with
  | nil => rfl
  | cons hs hss ih =>
      cases hss with
      | nil => exact hs.arguments.isEmpty_eq
      | cons hs' hss' => exact ih

theorem replaceLast {arguments arguments' : Arguments} (ha : arguments.Alike arguments')
    (h : List.Forall₂ Segment.Alike segments segments') :
    List.Forall₂ Segment.Alike (replaceLast arguments segments) (Source.replaceLast arguments' segments') := by
  induction h with
  | nil => exact .nil
  | cons hs hss ih =>
      cases hss with
      | nil => exact .cons ⟨hs.name, ha⟩ .nil
      | cons hs' hss' => exact .cons hs ih

end Segment.Alike

namespace Bound.Alike

variable {bounds bounds' : List Bound}

theorem refl (b : Bound) : b.Alike b := by
  cases b with
  | lifetime name => exact .lifetime name
  | trait parenthesized front leading segments =>
      exact .trait parenthesized leading front front (forall₂_refl Segment.Alike.refl segments)
  | capture written => exact .capture written written
  | constant written => exact .constant written written

theorem any_isProper_eq (h : List.Forall₂ Bound.Alike bounds bounds') :
    bounds.any Bound.isProper = bounds'.any Bound.isProper := by
  induction h with
  | nil => rfl
  | @cons b b' _ _ hb _ ih =>
      have hproper : b.isProper = b'.isProper := by cases hb <;> rfl
      rw [List.any_cons, List.any_cons, hproper, ih]

theorem boundsDeclared (h : List.Forall₂ Bound.Alike bounds bounds') (whole whole' : TypeExpr) :
    Agree (boundsDeclared whole bounds) (Source.boundsDeclared whole' bounds') := by
  induction h with
  | nil =>
      rw [Source.boundsDeclared, Source.boundsDeclared]
      exact .unsupported whole whole'
  | cons hb _ ih =>
      cases hb with
      | trait parenthesized leading front front' hs =>
          rw [Source.boundsDeclared, Source.boundsDeclared]
          exact (Segment.Alike.lastDeclared hs _ _).bind fun args =>
            declaredPath_agree _ _ (Segment.Alike.names_eq hs) args
      | _ =>
          rw [Source.boundsDeclared, Source.boundsDeclared]
          exact ih

end Bound.Alike

namespace TypeExpr.Alike

theorem refl (t : TypeExpr) : t.Alike t := ⟨rfl, .refl _⟩

theorem path (leading : Bool) {segments segments' : List Segment} (h : List.Forall₂ Segment.Alike segments segments') :
    TypeExpr.Alike (.path leading segments) (.path leading segments') where
  loneName := by
    cases h with
    | nil => rfl
    | @cons s s' _ _ hs hss =>
        obtain ⟨name, arguments⟩ := s
        obtain ⟨name', arguments'⟩ := s'
        have ha : arguments.Alike arguments' := hs.arguments
        cases hss with
        | nil => cases leading <;> cases ha <;> rfl
        | cons _ _ => cases leading <;> cases ha <;> rfl
  declared := by
    rw [TypeExpr.declared, TypeExpr.declared]
    exact (Segment.Alike.lastDeclared h _ _).bind fun args => declaredPath_agree _ _ (Segment.Alike.names_eq h) args

theorem member (leading leading' : Bool) (self self' : TypeExpr) {base base' rest rest' : List Segment}
    (hbase : List.Forall₂ Segment.Alike base base') (hrest : List.Forall₂ Segment.Alike rest rest') :
    TypeExpr.Alike (.member self leading base rest) (.member self' leading' base' rest') where
  loneName := rfl
  declared := by
    have hnames := names_append (Segment.Alike.names_eq hbase) (Segment.Alike.names_eq hrest)
    have hargued : List.Forall₂ Segment.Alike (argued base rest) (argued base' rest') := by
      cases hrest with
      | nil => exact hbase
      | cons hs hss => exact .cons hs hss
    rw [declared_member, declared_member]
    exact (Segment.Alike.lastDeclared hargued _ _).bind fun args => declaredPath_agree _ _ hnames args

theorem reference (life : Option String) (mutable : Bool) {t t' : TypeExpr} (h : t.Alike t') :
    TypeExpr.Alike (.reference life mutable t) (.reference life mutable t') where
  loneName := rfl
  declared := by
    rw [TypeExpr.declared, TypeExpr.declared]
    exact h.declared

theorem bounded (keyword : Option String) (trailing : Bool) {bounds bounds' : List Bound}
    (h : List.Forall₂ Bound.Alike bounds bounds') :
    TypeExpr.Alike (.bounded keyword bounds trailing) (.bounded keyword bounds' trailing) where
  loneName := rfl
  declared := by
    rw [TypeExpr.declared, TypeExpr.declared]
    exact Bound.Alike.boundsDeclared h _ _

theorem other (written written' : Tokens) (bare bare' : Bool) :
    TypeExpr.Alike (.other written bare) (.other written' bare') where
  loneName := rfl
  declared := by
    rw [TypeExpr.declared, TypeExpr.declared]
    exact .unsupported _ _

end TypeExpr.Alike

/-! ## Tests -/

theorem blind_atString : Blind atString :=
  .ofHead ⟨fun t r r' => by cases t <;> rfl, fun _ _ _ _ => rfl⟩ fun _ _ _ _ => rfl

theorem blind_atConstant : Blind atConstant := Blind.atLiteral.or (.atGroup .brace)

theorem blind_atPathWord : Blind atPathWord := Blind.atName.or (.atWords pathWords)

theorem blind_atParameterStop : Blind atParameterStop := (Blind.isEmpty.or (.atSign (by decide))).or (.atSign (by decide))

theorem blind_atWhereStop : Blind atWhereStop :=
  ((((Blind.isEmpty.or (.atGroup .brace)).or (.atSign (by decide))).or (.atSign (by decide))).or
    ((Blind.atSign (by decide)).and (Blind.atSign (by decide)).not)).or (.atSign (by decide))

theorem blind_atParameters : Blind atParameters := by
  have hthird : Blind fun s => atSign ">" s || atSign "," s || (atSign ":" s && !atSign "::" s) || atSign "=" s :=
    (((Blind.atSign (by decide)).or (.atSign (by decide))).or
      ((Blind.atSign (by decide)).and (Blind.atSign (by decide)).not)).or (.atSign (by decide))
  have hsecond : Blind fun s => atSign ">" s || atSign "#" s || atWord "const" s ||
      ((atName s || atLifetime s) &&
        (atSign ">" s.next || atSign "," s.next || (atSign ":" s.next && !atSign "::" s.next) || atSign "=" s.next)) :=
    (((Blind.atSign (by decide)).or (.atSign (by decide))).or (.atWord "const")).or
      ((Blind.atName.or .atLifetime).and hthird.next)
  exact (Blind.atSign (by decide)).and hsecond.next

theorem blind_atAngle (inExpression : Bool) : Blind (atAngle inExpression) :=
  ((((Blind.const _).and (.atSign (by decide))).and (Blind.atSign (by decide)).not).and
    (Blind.atSign (by decide)).not).or ((Blind.atSign (by decide)).and (Blind.atSign (by decide)).next.next)

theorem blind_atInputs : Blind atInputs :=
  (Blind.atGroup .paren).or ((Blind.atSign (by decide)).and (Blind.atGroup .paren).next.next)

theorem blind_atSegment : Blind atSegment := (Blind.atSign (by decide)).and (Blind.atGroup .paren).next.next.not

theorem blind_atBound (constants : Bool) : Blind (atBound constants) :=
  ((((Blind.atAnyWord.or (.atSign (by decide))).or (.atSign (by decide))).or .atLifetime).or
    (.atGroup .paren)).or ((Blind.const _).and (.atGroup .bracket))

theorem blind_atPath : Blind atPath := (blind_atPathWord.or (.atSign (by decide))).or (.atSign (by decide))

theorem blind_atBuiltin : Blind atBuiltin := (Blind.atWord _).and (Blind.atSign (by decide)).next

/-! ## Parts without types -/

section

open Unmoved

theorem unmoved_boundsAfterColon {bounds bounds' : Phrase} (h : Unmoved Any bounds bounds') :
    Unmoved Any (boundsAfterColon bounds) (boundsAfterColon bounds') := by
  refine .bindEq (.takeSign (by decide) (by decide)) fun colon => .ite ?_ (.pure trivial)
  exact .bind h fun _ _ _ => .pure trivial

theorem unmoved_defaultAfter {value value' : Phrase} (h : Unmoved Any value value') :
    Unmoved Any (defaultAfter value) (defaultAfter value') :=
  .maybe trivial (.atSign (by decide)) (.allCons (.signPhrase (by decide)) (.allCons h .allNil))

theorem unmoved_linkWhile {test : Tokens → Bool} (h : Blind test) {operator : String}
    (hoperator : ';' ∉ operator.toList.tail) : Unmoved Eq (linkWhile test operator) (linkWhile test operator) :=
  .branch h (.bindEq (.sign hoperator) fun _ => .pure rfl) (.pure rfl)

theorem unmoved_convention : Unmoved Any convention convention :=
  .maybe trivial (.atWord _) (.allCons (.wordPhrase _) (.allCons (.maybe rfl blind_atString .literal) .allNil))

theorem unmoved_capture : Unmoved Any capture capture := by
  refine .bind (.allCons (.wordPhrase _) (.allCons (.signPhrase (by decide)) .allNil)) fun _ _ _ => ?_
  refine .bind (.separated (R := Eq) (.atSign (by decide)) (.sign (by decide)) ?_) fun _ _ _ =>
    .bind (.signPhrase (by decide)) fun _ _ _ => .pure trivial
  refine .branch .atLifetime (.bindEq .lifetimePhrase fun _ => .pure rfl) ?_
  exact .branch (.atWord _) (.bindEq .anyWordPhrase fun _ => .pure rfl) (.bindEq .namePhrase fun _ => .pure rfl)

theorem unmoved_builtin : Unmoved Any builtin builtin :=
  .allCons (.wordPhrase _) (.allCons (.signPhrase (by decide)) (.allCons .namePhrase
    (.allCons (.provided (.atGroup _)) (.allCons .anyGroup .allNil))))

theorem unmoved_boundLink (plus constants : Bool) : Unmoved Eq (boundLink plus constants) (boundLink plus constants) := by
  refine .branch ((Blind.const plus).and (.atSign (by decide))) (.bindEq (.sign (by decide)) fun _ => ?_) (.pure rfl)
  exact .branch (blind_atBound constants) (.pure rfl) (.pure rfl)

end

/-! ## Readers -/

/-- Spaces before semicolons do not disturb the reader where it reads types and bounds. -/
structure Undisturbed (reads : Reader) : Prop where
  type : ∀ plus, Unmoved TypeExpr.Alike (reads (.type plus)) (reads (.type plus))
  bound : ∀ captures constants, Unmoved Bound.Alike (reads (.bound captures constants)) (reads (.bound captures constants))

section

variable {self : Reader} (h : Undisturbed self)

/-- In annotations everything is in groups. -/
theorem unmoved_annotations (self : Reader) : Unmoved Any (annotations self) (annotations self) :=
  .several (Blind.atSign (by decide)).not
    (.allCons (.signPhrase (by decide)) (.allCons (.enclosed _ (annotationContent self)) .allNil))

theorem unmoved_constantArgument (self : Reader) : Unmoved Any (constantArgument self) (constantArgument self) :=
  .firstCons .atLiteral Unmoved.literal.any (.firstCons (.atGroup _) (Unmoved.enclosed _ _).any .firstNil)

include h

theorem Undisturbed.typePhrase (plus : Bool) : Unmoved Any (self.typePhrase plus) (self.typePhrase plus) :=
  .bind (h.type plus) fun _ _ _ => .pure trivial

theorem Undisturbed.boundPhrase (constants : Bool) : Unmoved Any (self.boundPhrase constants) (self.boundPhrase constants) :=
  .bind (h.bound false constants) fun _ _ _ => .pure trivial

/-! ## Generic parameters -/

theorem unmoved_parameterAfter : Unmoved Any (parameterAfter self) (parameterAfter self) := by
  refine .branch .atLifetime ?_ (.branch .atName ?_ ?_)
  · refine .bind (.allCons .lifetimePhrase (.allCons (unmoved_boundsAfterColon ?_) .allNil)) fun _ _ _ => .pure trivial
    exact .row blind_atParameterStop (by decide) .lifetimePhrase
  · refine .bindEq .name fun n => .bind (.allCons (unmoved_boundsAfterColon ?_) (.allCons (unmoved_defaultAfter ?_) .allNil))
      fun _ _ _ => .pure trivial
    · exact .row (blind_atParameterStop.or (.atSign (by decide))) (by decide) (h.boundPhrase true)
    · exact h.typePhrase true
  · refine .bind (.allCons (.wordPhrase _) (.allCons .namePhrase (.allCons (.signPhrase (by decide))
      (.allCons (h.typePhrase true) (.allCons (unmoved_defaultAfter ?_) .allNil))))) fun _ _ _ => .pure trivial
    exact .firstCons blind_atConstant (unmoved_constantArgument self)
      (.firstCons .atName Unmoved.namePhrase.any .firstNil)

theorem unmoved_generics : Unmoved Any (generics self) (generics self) := by
  refine .branch (.atSign (by decide)) (.bindEq (.sign (by decide)) fun _ => ?_) (.pure trivial)
  refine .bind (.separated (R := Any) (.atSign (by decide)) (.sign (by decide)) ?_) fun _ _ _ =>
    .bindEq (.sign (by decide)) fun _ => .pure trivial
  refine .bind (unmoved_annotations self) fun _ _ _ => .bindEq (.takeWord _) fun low => .ite (.pure trivial) ?_
  exact .bind (unmoved_parameterAfter h) fun _ _ _ => .pure trivial

/-- The parameters that a type is generic in are not empty, as they start with a keyword. -/
theorem unmoved_binder : Unmoved (fun front front' => front.isEmpty = front'.isEmpty) (binder self) (binder self) := by
  have hfor : Unmoved (fun a a' => a = .ofWord "for" ∧ a' = .ofWord "for") (Phrase.word "for") (Phrase.word "for") :=
    .bindEq (.word "for") fun _ => .pure ⟨rfl, rfl⟩
  have hparameters : Unmoved Any
      (Phrase.listed (atSign ">") "," do pure ((← annotations self) ++ (← parameterAfter self).2))
      (Phrase.listed (atSign ">") "," do pure ((← annotations self) ++ (← parameterAfter self).2)) := by
    refine .listed (T := Any) (.atSign (by decide)) (by decide) (.bind (unmoved_annotations self) fun _ _ _ => ?_)
    exact .bind (unmoved_parameterAfter h) fun _ _ _ => .pure trivial
  refine .bind hfor ?_
  rintro _ _ ⟨rfl, rfl⟩
  refine .bind (.allCons (.signPhrase (by decide)) (.allCons hparameters (.allCons (.signPhrase (by decide)) .allNil))) ?_
  exact fun back back' _ => .pure rfl

theorem unmoved_condition : Unmoved Any (condition self) (condition self) := by
  refine .firstCons (Blind.atLifetime.and (Blind.atSign (by decide)).next) ?_ (.firstCons (.const true) ?_ .firstNil)
  · refine .allCons .lifetimePhrase (.allCons (.signPhrase (by decide)) (.allCons (T := Any) ?_ .allNil))
    exact .row (blind_atWhereStop.or (.atSign (by decide))) (by decide) .lifetimePhrase
  · refine .allCons (.maybe trivial (.atWord _) (unmoved_binder h).any) (.allCons (h.typePhrase true)
      (.allCons (.signPhrase (by decide)) (.allCons (T := Any) ?_ .allNil)))
    exact .row blind_atWhereStop (by decide) (h.boundPhrase true)

theorem unmoved_conditions : Unmoved Any (conditions self) (conditions self) := by
  refine .bindEq (.takeWord _) fun present => .ite ?_ (.pure trivial)
  refine .bindEq (.require blind_atParameters.not) fun _ => ?_
  exact .bind (.row blind_atWhereStop (by decide) (unmoved_condition h)) fun _ _ _ => .pure trivial

/-! ## Paths -/

theorem unmoved_result (plus : Bool) : Unmoved (Option.Rel TypeExpr.Alike) (result? self plus) (result? self plus) := by
  refine .bindEq (.takeSign (by decide) (by decide)) fun present => .ite ?_ (.pure .none)
  exact .bind (h.type plus) fun _ _ ht => .pure (.some ht)

theorem unmoved_inputs : Unmoved Arguments.Alike (inputs self) (inputs self) := by
  refine .bindEq (.takeSign (by decide) (by decide)) fun _ => .bindEq (.enclosed _ _) fun types => ?_
  exact .bind (unmoved_result h false) fun _ _ _ => .pure (.parenthesized _ _ _ _)

theorem unmoved_argument : Unmoved Argument.Alike (argument self) (argument self) := by
  have hlife : Blind fun s => atLifetime s && !atSign "+" s.next := Blind.atLifetime.and (Blind.atSign (by decide)).next.not
  refine .branch hlife (.bindEq .lifetime fun l => .pure (.refl _)) (.branch blind_atConstant ?_ ?_)
  · exact .bind (unmoved_constantArgument self) fun _ _ _ => .pure (.other _ _)
  · refine .bind (h.type true) fun t t' ht => ?_
    rw [ht.loneName]
    refine .ite (.pure (.type ht)) (.bindEq (.takeSign (by decide) (by decide)) fun equals => ?_)
    refine .ite ?_ (.bindEq (.takeSign (by decide) (by decide)) fun colon => .ite ?_ (.pure (.type ht)))
    · refine .branch blind_atConstant ?_ ?_
      · exact .bind (unmoved_constantArgument self) fun _ _ _ => .pure (.other _ _)
      · exact .bind (h.type true) fun _ _ hvalue => .pure (.associated _ _ hvalue)
    · refine .bind (.row ?_ (by decide) (h.boundPhrase true)) fun _ _ _ => .pure (.other _ _)
      exact (Blind.atSign (by decide)).or (.atSign (by decide))

theorem unmoved_angle : Unmoved Arguments.Alike (angle self) (angle self) := by
  refine .bindEq (.takeSign (by decide) (by decide)) fun turbofish => .bindEq (.sign (by decide)) fun _ => ?_
  refine .bind (.separated (.atSign (by decide)) (.sign (by decide)) (unmoved_argument h)) ?_
  rintro ⟨args, trailing⟩ ⟨args', trailing'⟩ ⟨hargs, rfl⟩
  exact .bindEq (.sign (by decide)) fun _ => .pure (.angle _ _ hargs)

theorem unmoved_segment (inExpression : Bool) :
    Unmoved Segment.Alike (segment self inExpression) (segment self inExpression) := by
  refine .branch (.atWords _) (.bindEq .anyWord fun _ => .pure (.refl _)) ?_
  refine .look (.atWord _) fun _ => .ite (.bindEq .anyWord fun n => ?_) (.bindEq .name fun n => ?_)
  -- whatever the name is, arguments may follow it
  all_goals exact .branch (blind_atAngle _) (.bind (unmoved_angle h) fun _ _ ha => .pure ⟨rfl, ha⟩) (.pure (.refl _))

/-- Two paths with the same start and alike segments. -/
def PathAlike (p p' : Bool × List Segment) : Prop := p.1 = p'.1 ∧ List.Forall₂ Segment.Alike p.2 p'.2

theorem unmoved_path (inExpression : Bool) : Unmoved PathAlike (path self inExpression) (path self inExpression) := by
  refine .bindEq (.takeSign (by decide) (by decide)) fun leading => .bind (R := List.Forall₂ Segment.Alike) ?_
    fun _ _ hss => .pure ⟨rfl, hss⟩
  refine .bind (.chained (fun _ _ => unmoved_linkWhile blind_atSegment (by decide)) (unmoved_segment h inExpression)) ?_
  rintro ⟨ss, trailing⟩ ⟨ss', trailing'⟩ ⟨hss, -⟩
  exact .pure hss

/-- Two paths that start with types, with alike segments. -/
def MemberAlike (p p' : TypeExpr × Bool × List Segment × List Segment) : Prop :=
  List.Forall₂ Segment.Alike p.2.2.1 p'.2.2.1 ∧ List.Forall₂ Segment.Alike p.2.2.2 p'.2.2.2

theorem unmoved_memberPath (inExpression : Bool) :
    Unmoved MemberAlike (memberPath self inExpression) (memberPath self inExpression) := by
  refine .bindEq (.sign (by decide)) fun _ => .bind (h.type true) fun t t' _ => .bindEq (.takeWord _) fun cast => ?_
  refine .ite (.bind (unmoved_path h false) fun base base' hbase => ?_)
    (.bind (R := PathAlike) (.pure ⟨rfl, .nil⟩) fun base base' hbase => ?_)
  -- the member is named in the same way with and without the trait that it is looked up in
  all_goals
    refine .bindEq (.sign (by decide)) fun _ => .bindEq (.sign (by decide)) fun _ =>
      .bind (.chained (fun _ _ => ?_) (unmoved_segment h _)) fun rest rest' hrest => .pure ⟨hbase.2, hrest.1⟩
    exact unmoved_linkWhile (.atSign (by decide)) (by decide)

/-! ## Bounds -/

/-- Two traits with the same marks for constants and alike paths. -/
def TraitAlike (b b' : Bool × Tokens × Bool × List Segment) : Prop :=
  b.1 = b'.1 ∧ b.2.2.1 = b'.2.2.1 ∧ List.Forall₂ Segment.Alike b.2.2.2 b'.2.2.2

theorem unmoved_traitBound (constants : Bool) :
    Unmoved TraitAlike (traitBound self constants) (traitBound self constants) := by
  refine .bind (.maybe (T := fun life life' => life.isEmpty = life'.isEmpty) rfl (.atWord _) (unmoved_binder h))
    fun life life' hlife => ?_
  refine .look ((Blind.atGroup _).or (.atWord _)) fun constant => .ite .failureBind ?_
  refine .bind (R := Eq) (.firstCons (.atGroup _) (.enclosed _ _) (.firstCons (.atWord _) (.wordPhrase _)
    (.firstCons (.const true) (.pure rfl) .firstNil))) fun const _ _ => ?_
  refine .bindEq (.maybeSign (by decide)) fun mark => ?_
  rw [hlife]
  refine .ite .failureBind (.bind (unmoved_path h false) ?_)
  rintro ⟨leading, ss⟩ ⟨_, ss'⟩ ⟨rfl, hpath⟩
  have hss : List.Forall₂ Segment.Alike ss ss' := hpath
  simp only [Segment.Alike.takesInputs_eq hss]
  refine .look ((Blind.const _).and blind_atInputs) fun takes => ?_
  refine .ite (.bind (unmoved_inputs h) fun _ _ hinputs => ?_) (.bind (R := List.Forall₂ Segment.Alike) (.pure hss) ?_)
  · exact .bind (R := List.Forall₂ Segment.Alike) (.pure (Segment.Alike.replaceLast hinputs hss)) fun _ _ hss =>
      .pure ⟨rfl, rfl, hss⟩
  · exact fun _ _ hss => .pure ⟨rfl, rfl, hss⟩

theorem unmoved_bound (captures constants : Bool) :
    Unmoved Bound.Alike (bound self captures constants) (bound self captures constants) := by
  refine .branch .atLifetime (.bindEq .lifetime fun l => .pure (.refl _)) (.branch (.atWord _) ?_ ?_)
  · exact .ite (.bind unmoved_capture fun _ _ _ => .pure (.capture _ _)) .failure
  · refine .start fun start start' => .look (.atGroup _) fun parenthesized => ?_
    have hinside : Unmoved TraitAlike (inside .paren (traitBound self constants))
        (inside .paren (traitBound self constants)) := by
      refine (Unmoved.inside _ _).mono ?_
      rintro b _ rfl
      exact ⟨rfl, rfl, forall₂_refl Segment.Alike.refl _⟩
    refine .ite (.bind hinside ?_) (.bind (unmoved_traitBound h constants) ?_)
    all_goals
      rintro ⟨constant, front, leading, ss⟩ ⟨_, front', _, ss'⟩ ⟨rfl, rfl, hss⟩
      exact .ite (.bind (.since start start') fun _ _ _ => .pure (.constant _ _)) (.pure (.trait _ _ _ _ hss))

theorem unmoved_boundChain (plus captures constants : Bool) : Unmoved (Unmoved.Row Bound.Alike)
    (boundChain self plus captures constants) (boundChain self plus captures constants) :=
  .chained (fun _ _ => unmoved_boundLink plus constants) (unmoved_bound h captures constants)

theorem unmoved_boundedType (keyword : Option String) (plus special : Bool) :
    Unmoved TypeExpr.Alike (boundedType self keyword plus special) (boundedType self keyword plus special) := by
  refine .bind (unmoved_boundChain h plus special special) ?_
  rintro ⟨bounds, trailing⟩ ⟨bounds', _⟩ ⟨hrow, rfl⟩
  have hbounds : List.Forall₂ Bound.Alike bounds bounds' := hrow
  simp only [Bound.Alike.any_isProper_eq hbounds]
  exact .ite (.pure (.bounded _ _ hbounds)) .failure

theorem unmoved_furtherBounds : Unmoved (List.Forall₂ Bound.Alike) (furtherBounds self) (furtherBounds self) :=
  .many (Blind.atSign (by decide)).not (.bindEq (.sign (by decide)) fun _ => unmoved_bound h false false)

/-! ## Types -/

theorem unmoved_functionType (front front' : Tokens) :
    Unmoved TypeExpr.Alike (functionType self front) (functionType self front') := by
  refine .bind (.allCons (.maybeWord _) (.allCons unmoved_convention (.allCons (.wordPhrase _)
    (.allCons (.enclosed _ _) .allNil)))) fun _ _ _ => ?_
  exact .bind (unmoved_result h false) fun _ _ _ => .pure (.other _ _ _ _)

theorem unmoved_pathType (plus : Bool) {front front' : Tokens} (hfront : front.isEmpty = front'.isEmpty) :
    Unmoved TypeExpr.Alike (pathType self plus front) (pathType self plus front') := by
  refine .branch (.atSign (by decide)) (.bind (unmoved_memberPath h false) fun parts parts' hparts =>
    .pure (.member _ _ _ _ hparts.1 hparts.2)) ?_
  refine .bind (unmoved_path h false) ?_
  rintro ⟨leading, ss⟩ ⟨_, ss'⟩ ⟨rfl, hpath⟩
  have hss : List.Forall₂ Segment.Alike ss ss' := hpath
  dsimp only
  rw [Segment.Alike.all_eq ?none hss]
  case none =>
    rintro ⟨name, arguments⟩ ⟨name', arguments'⟩ ⟨-, ha⟩
    have ha : arguments.Alike arguments' := ha
    cases ha <;> rfl
  refine .branch (((Blind.atSign (by decide)).and (Blind.atSign (by decide)).not).and (.const _)) ?_ ?_
  · exact .bindEq (.sign (by decide)) fun _ => .bindEq .anyGroup fun _ => .pure (.other _ _ _ _)
  · have hfirst : Bound.Alike (.trait false front leading ss) (.trait false front' leading ss') := .trait _ _ _ _ hss
    refine .bindEq (unmoved_boundLink plus false) fun link => ?_
    -- a path that a plus follows is the first of several bounds
    cases link with
    | done =>
        simp only [hfront]
        exact .ite (.pure (.path _ hss)) (.pure (.bounded _ _ (.cons hfirst .nil)))
    | trailing => exact .pure (.bounded _ _ (.cons hfirst .nil))
    | again =>
        refine .bind (unmoved_boundChain h true false false) ?_
        rintro ⟨more, trailing⟩ ⟨more', _⟩ ⟨hmore, rfl⟩
        exact .pure (.bounded _ _ (.cons hfirst hmore))

theorem unmoved_parenType (plus : Bool) : Unmoved TypeExpr.Alike (parenType self plus) (parenType self plus) := by
  refine .bindEq (.inside _ _) fun t => ?_
  cases t with
  | bounded keyword bounds trailing =>
      refine .bind (unmoved_furtherBounds h) fun _ _ hmore => .pure (.bounded _ _ ?_)
      exact List.rel_append (forall₂_refl Bound.Alike.refl bounds) hmore
  | paren inner =>
      -- what stands in the parentheses may be the first of several bounds as well
      refine .look ((Blind.const plus).and (.atSign (by decide))) fun more => ?_
      cases boundOf? inner with
      | none => exact .pure (.refl _)
      | some b =>
          cases more with
          | true => exact .bind (unmoved_furtherBounds h) fun _ _ hmore => .pure (.bounded _ _ (.cons (.refl b) hmore))
          | false => exact .pure (.refl _)
  | _ => exact .pure (.refl _)

theorem unmoved_dynType (plus : Bool) : Unmoved TypeExpr.Alike (dynType self plus) (dynType self plus) := by
  refine .start fun start start' => .bindEq (.word _) fun _ => .bindEq (.takeSign (by decide) (by decide)) fun star => ?_
  refine .bind (unmoved_boundedType h (some "dyn") plus false) fun t t' ht => .ite ?_ (.pure ht)
  exact .bind (.since start start') fun _ _ _ => .pure (.other _ _ _ _)

theorem unmoved_pointerType : Unmoved TypeExpr.Alike (pointerType self) (pointerType self) := by
  refine .bind (.allCons (.signPhrase (by decide)) (.allCons (T := Eq) ?_ .allNil)) fun _ _ _ =>
    .bind (h.type false) fun _ _ _ => .pure (.other _ _ _ _)
  exact .firstCons (.atWord _) .anyWordPhrase (.firstCons (.atWord _) .anyWordPhrase .firstNil)

theorem unmoved_referenceType : Unmoved TypeExpr.Alike (referenceType self) (referenceType self) := by
  refine .bindEq (.sign (by decide)) fun _ => .bindEq .optionalLifetime fun life => .bindEq (.takeWord _) fun mutable => ?_
  exact .bind (h.type false) fun _ _ ht => .pure (.reference _ _ ht)

theorem unmoved_typeAfter (plus : Bool) (start start' : Tokens) {front front' : Tokens}
    (hfront : front.isEmpty = front'.isEmpty) :
    Unmoved TypeExpr.Alike (typeAfter self plus start front) (typeAfter self plus start' front') := by
  refine .branch (.atGroup _) (unmoved_parenType h plus) ?_
  refine .branch (.atWords _) (unmoved_functionType h front front') ?_
  refine .branch blind_atBuiltin (.bind unmoved_builtin fun _ _ _ => .bind (.since start start') fun _ _ _ =>
    .pure (.other _ _ _ _)) ?_
  refine .branch blind_atPath (unmoved_pathType h plus hfront) ?_
  refine .branch (.atWord _) (unmoved_dynType h plus) ?_
  refine .branch (.atGroup _) ((Unmoved.inside _ _).mono fun t _ ht => ht ▸ .refl t) ?_
  refine .branch (.atSign (by decide)) (unmoved_pointerType h) ?_
  refine .branch (.atSign (by decide)) (unmoved_referenceType h) ?_
  refine .branch (.atSign (by decide)) (.bindEq (.signPhrase (by decide)) fun _ => .pure (.refl _)) ?_
  refine .bindEq (.takeWord _) fun bounded => .ite (unmoved_boundedType h (some "impl") plus true) ?_
  refine .branch (.atWord _) (.bindEq .anyWordPhrase fun _ => .pure (.refl _)) ?_
  exact .branch .atLifetime (unmoved_boundedType h none true false) .failure

theorem unmoved_typeRule (plus : Bool) : Unmoved TypeExpr.Alike (typeRule self plus) (typeRule self plus) := by
  refine .start fun start start' => .branch (.atWord _) ?_ (unmoved_typeAfter h plus start start' rfl)
  refine .bind (unmoved_binder h) fun front front' hfront => .bindEq (.require ?_) fun _ =>
    unmoved_typeAfter h plus start start' hfront
  exact Blind.atName.or (.atWords _)

end

/-! ## The grammar as a whole -/

/-- By induction on the size, which spaces do not change: a rule calls the reader on smaller inputs only. -/
theorem undisturbed_readerBelow (n : Nat) : Undisturbed (readerBelow n) := by
  induction n using Nat.strongRecOn with
  | _ n ih =>
      refine ⟨?_, ?_⟩
      · intro plus s s' t r hs ht
        obtain ⟨hlt, hrule⟩ := readerBelow_eq.1 ht
        rw [reader_below] at hrule
        obtain ⟨t', r', ht', halike, hr⟩ := unmoved_typeRule (ih s.size hlt) plus hs hrule
        refine ⟨t', r', readerBelow_eq.2 ⟨hs.size_eq ▸ hlt, ?_⟩, halike, hr⟩
        rw [reader_below, hs.size_eq]
        exact ht'
      · intro captures constants s s' b r hs hb
        obtain ⟨hlt, hrule⟩ := readerBelow_eq.1 hb
        rw [reader_below] at hrule
        obtain ⟨b', r', hb', halike, hr⟩ := unmoved_bound (ih s.size hlt) captures constants hs hrule
        refine ⟨b', r', readerBelow_eq.2 ⟨hs.size_eq ▸ hlt, ?_⟩, halike, hr⟩
        rw [reader_below, hs.size_eq]
        exact hb'

/-- **Types and bounds are read in the same way with other spaces before semicolons.** -/
theorem undisturbed_reader : Undisturbed reader := by
  refine ⟨?_, ?_⟩
  · intro plus s s' t r hs ht
    -- a bound above the size of the input changes nothing
    obtain ⟨t', r', ht', halike, hr⟩ :=
      (undisturbed_readerBelow _).type plus hs (readerBelow_eq.2 ⟨Nat.lt_succ_self s.size, ht⟩)
    exact ⟨t', r', (readerBelow_eq.1 ht').2, halike, hr⟩
  · intro captures constants s s' b r hs hb
    obtain ⟨b', r', hb', halike, hr⟩ :=
      (undisturbed_readerBelow _).bound captures constants hs (readerBelow_eq.2 ⟨Nat.lt_succ_self s.size, hb⟩)
    exact ⟨b', r', (readerBelow_eq.1 hb').2, halike, hr⟩

/-! ## Declarations -/

/-- Two signatures that are the same but for their result types, which are alike. -/
structure Signature.Alike (m m' : Signature) : Prop where
  name : m.name = m'.name
  isAsync : m.isAsync = m'.isAsync
  parameters : m.parameters = m'.parameters
  result : Option.Rel TypeExpr.Alike m.result m'.result

/-- They declare the same. -/
theorem Signature.Alike.declared {m m' : Signature} (h : m.Alike m') : Agree m.declared m'.declared := by
  have hresult : Agree m.declaredResult m'.declaredResult := by
    have hresult := h.result
    unfold Signature.declaredResult
    rw [h.isAsync]
    generalize m.result = t at hresult ⊢
    generalize m'.result = t' at hresult ⊢
    cases hresult with
    | none => exact .refl _
    | some ht => exact ht.declared.bind fun t => .refl _
  unfold Signature.declared
  rw [h.name, h.parameters]
  exact .bindSame _ fun ps => hresult.bind fun result => .refl _

theorem unmoved_signature : Unmoved (fun y y' => Signature.Alike y.1 y'.1) (signature reader) (signature reader) := by
  refine .bindEq (.maybeWord _) fun constant => .bindEq (.maybeWord _) fun async => .bindEq (.maybeWord _) fun safety => ?_
  refine .bind unmoved_convention fun _ _ _ => .bindEq (.word _) fun _ => .bindEq .name fun n => ?_
  refine .bind (unmoved_generics undisturbed_reader) fun _ _ _ => .bindEq (.inside _ _) fun ps => ?_
  refine .bind (unmoved_result undisturbed_reader true) fun _ _ hresult => ?_
  exact .bind (unmoved_conditions undisturbed_reader) fun _ _ _ => .pure ⟨rfl, rfl, rfl, hresult⟩

theorem unmoved_methodDeclaration :
    Unmoved Signature.Alike (methodDeclaration reader) (methodDeclaration reader) := by
  have hbody : Unmoved Any (bodyOrNone reader) (bodyOrNone reader) :=
    .firstCons (.atGroup _) (Unmoved.enclosed _ _).any
      (.firstCons (.atSign (by decide)) (Unmoved.signPhrase (by decide)).any .firstNil)
  refine .bind (unmoved_annotations reader) fun _ _ _ => .bind (R := fun y y' => Signature.Alike y.1 y'.1) ?_
    fun y y' hy => .pure hy
  exact .bind unmoved_signature fun y y' hy => .bind hbody fun _ _ _ => .pure hy

/-- **A method declares the same with other spaces before semicolons.** -/
theorem Declares.respaced {ts ts' : Tokens} {m : Signature} (h : Declares ts m) (hts : Respaced ts ts') :
    ∃ m', Declares ts' m' ∧ Agree m.declared m'.declared := by
  obtain ⟨m', r, hm', halike, hr⟩ := unmoved_methodDeclaration hts h
  obtain rfl := hr.eq_nil
  exact ⟨m', hm', halike.declared⟩

end QueryContract.Source
