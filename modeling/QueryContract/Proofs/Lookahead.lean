import QueryContract.Proofs.Extension

/-!
# `Proofs.Lookahead` — how far the grammar looks ahead

Types, bounds, generic parameters and conditions are what stands in a declaration outside of groups. Each of the tests
that decide how they are read stops at the end of a declaration, and so each of the rules reads the same with more
tokens behind: one lemma for each rule, in the order of the grammar. The rules reach each other through a reader; what
is assumed of it is `Related`, and `related_reader` closes the circle.
-/

namespace QueryContract.Source

open QueryContract.Parser

variable {x : Tokens}

/-! ## Tests -/

section

theorem steady_const (b : Bool) : Steady x fun _ => b := fun _ _ => rfl

theorem steady_isEmpty : Steady x Tokens.isEmpty := OfHead.steady ⟨fun _ _ _ => rfl, fun _ _ _ _ => rfl⟩

theorem ofHead_atWord (w : String) : OfHead (atWord w) := ⟨fun t r r' => by cases t <;> rfl, fun _ _ _ _ => rfl⟩

theorem steady_atWord (w : String) : Steady x (atWord w) := (ofHead_atWord w).steady

theorem steady_atWords (ws : List String) : Steady x (atWords ws) := by
  refine OfHead.steady ⟨fun t r r' => ?_, fun _ _ _ _ => rfl⟩
  have hsame : (fun w => atWord w (.leaf t r)) = fun w => atWord w (.leaf t r') := by
    funext w
    exact (ofHead_atWord w).leaf t r r'
  show ws.any (fun w => atWord w (.leaf t r)) = ws.any fun w => atWord w (.leaf t r')
  rw [hsame]

theorem steady_atName : Steady x atName := OfHead.steady ⟨fun t r r' => by cases t <;> rfl, fun _ _ _ _ => rfl⟩

theorem steady_atAnyWord : Steady x atAnyWord := OfHead.steady ⟨fun t r r' => by cases t <;> rfl, fun _ _ _ _ => rfl⟩

theorem steady_atLifetime : Steady x atLifetime := OfHead.steady ⟨fun t r r' => by cases t <;> rfl, fun _ _ _ _ => rfl⟩

theorem steady_atGroup (d : Delimiter) : Steady x (atGroup d) := OfHead.steady ⟨fun _ _ _ => rfl, fun _ _ _ _ => rfl⟩

theorem steady_atString : Steady x atString := OfHead.steady ⟨fun t r r' => by cases t <;> rfl, fun _ _ _ _ => rfl⟩

theorem inner_atWord (w : String) : Inner (atWord w) := ⟨fun _ _ => rfl, fun _ _ => rfl⟩

theorem inner_atLifetime : Inner atLifetime := ⟨fun _ _ => rfl, fun _ _ => rfl⟩

theorem inner_less : Inner (atSign "<") := ⟨fun _ _ => rfl, fun _ _ => rfl⟩

theorem inner_colon : Inner (atSign ":") := ⟨fun _ _ => rfl, fun _ _ => rfl⟩

theorem inner_colons : Inner (atSign "::") := ⟨fun _ _ => rfl, fun _ _ => rfl⟩

theorem colon_of_colons {s : Tokens} (h : atSign "::" s = true) : atSign ":" s.next = true := by
  have hparts : ∀ d joint r, atChars [':', ':'] (.leaf (.punct d joint) r) = (':' == d && joint && atChars [':'] r) :=
    fun _ _ _ => rfl
  have hchars : atChars [':', ':'] s = true := h
  cases s with
  | nil => exact absurd hchars nofun
  | group d body r => exact absurd hchars nofun
  | leaf t r =>
      cases t with
      | punct d joint =>
          rw [hparts, Bool.and_eq_true] at hchars
          exact hchars.2
      | _ => exact absurd hchars nofun

/-- After a double colon a test of the third token is steady. -/
theorem Steady.afterColons {test : Tokens → Bool} (h : Steady x test) :
    Steady x fun s => atSign "::" s && test s.next.next := by
  intro s hs
  have hcolons : atSign "::" (s ++ x) = atSign "::" s := steady_atSign (by decide) hs
  show (atSign "::" (s ++ x) && test (s ++ x).next.next) = (atSign "::" s && test s.next.next)
  rw [hcolons]
  cases hat : atSign "::" s with
  | false => rfl
  | true =>
      have hnext : Fits x s.next := hs.next inner_colons hat
      rw [hs.next_append, hnext.next_append, h (hnext.next inner_colon (colon_of_colons hat))]

theorem steady_atLiteral : Steady x atLiteral := by
  intro s hs
  cases s with
  | nil => rw [hs.eq_nil]; rfl
  | group d body r => rfl
  | leaf t r =>
      cases t with
      | punct c joint =>
          by_cases hc : c = '-'
          · -- a number after a minus sign; the sign ends no declaration
            subst hc
            have hminus : Inner (atSign "-") := ⟨fun _ _ => rfl, fun _ _ => rfl⟩
            have hr : Fits x r := hs.next hminus rfl
            cases r with
            | nil => rw [hr.eq_nil]; rfl
            | group d body r => rfl
            | leaf t r => cases t <;> rfl
          · have hnone : ∀ r, atLiteral (.leaf (.punct c joint) r) = false := by
              intro r
              simp [atLiteral, hc]
            rw [Tokens.leaf_append, hnone, hnone]
      | word w => rfl
      | lifetime l => rfl
      | literal l => rfl

theorem steady_atConstant : Steady x atConstant := steady_atLiteral.or (steady_atGroup .brace)

theorem steady_atPathWord : Steady x atPathWord := steady_atName.or (steady_atWords pathWords)

theorem steady_atParameterStop : Steady x atParameterStop :=
  (steady_isEmpty.or (steady_atSign (by decide))).or (steady_atSign (by decide))

theorem steady_atWhereStop : Steady x atWhereStop :=
  ((((steady_isEmpty.or (steady_atGroup .brace)).or (steady_atSign (by decide))).or (steady_atSign (by decide))).or
    ((steady_atSign (by decide)).and (steady_atSign (by decide)).not)).or (steady_atSign (by decide))

theorem steady_atParameters : Steady x atParameters := by
  have hname : Inner fun s => atName s || atLifetime s := ⟨fun _ _ => rfl, fun _ _ => rfl⟩
  have hthird : Steady x fun s => atSign ">" s || atSign "," s || (atSign ":" s && !atSign "::" s) || atSign "=" s :=
    (((steady_atSign (by decide)).or (steady_atSign (by decide))).or
      ((steady_atSign (by decide)).and (steady_atSign (by decide)).not)).or (steady_atSign (by decide))
  have hparameter := (steady_atName.or steady_atLifetime).andNext hname hthird
  have hsecond : Steady x fun s => atSign ">" s || atSign "#" s || atWord "const" s ||
      ((atName s || atLifetime s) &&
        (atSign ">" s.next || atSign "," s.next || (atSign ":" s.next && !atSign "::" s.next) || atSign "=" s.next)) :=
    (((steady_atSign (by decide)).or (steady_atSign (by decide))).or (steady_atWord "const")).or hparameter
  have hfirst : Steady x (atSign "<") := steady_atSign (by decide)
  exact hfirst.andNext inner_less hsecond

theorem steady_atAngle (inExpression : Bool) : Steady x (atAngle inExpression) :=
  ((((steady_const _).and (steady_atSign (by decide))).and (steady_atSign (by decide)).not).and
    (steady_atSign (by decide)).not).or (steady_atSign (by decide)).afterColons

theorem steady_atInputs : Steady x atInputs := (steady_atGroup .paren).or (steady_atGroup .paren).afterColons

theorem steady_atSegment : Steady x atSegment := (steady_atGroup .paren).not.afterColons

theorem steady_atBound (constants : Bool) : Steady x (atBound constants) :=
  ((((steady_atAnyWord.or (steady_atSign (by decide))).or (steady_atSign (by decide))).or steady_atLifetime).or
    (steady_atGroup .paren)).or ((steady_const _).and (steady_atGroup .bracket))

theorem steady_atPath : Steady x atPath :=
  (steady_atPathWord.or (steady_atSign (by decide))).or (steady_atSign (by decide))

theorem steady_atBuiltin : Steady x atBuiltin := (steady_atWord _).andNext (inner_atWord _) (steady_atSign (by decide))

end

/-! ## Optional tokens -/

theorem Extends.takeSign {σ : String} (hne : σ.toList ≠ []) (hend : ';' ∉ σ.toList.dropLast) :
    Extends x (takeSign σ) (Source.takeSign σ) := by
  refine .accepts (.sign σ) ?_
  have hwould : would (Source.sign σ) = atSign σ := by
    funext s
    exact would_chars hne s
  rw [hwould]
  exact steady_atSign hend

theorem Extends.takeWord (w : String) : Extends x (takeWord w) (Source.takeWord w) := by
  refine .accepts (.word w) ?_
  have hwould : would (Source.word w) = atWord w := by
    funext s
    exact would_word w s
  rw [hwould]
  exact steady_atWord w

theorem Extends.maybeWord (w : String) : Extends x (Phrase.maybeWord w) (Phrase.maybeWord w) :=
  .maybe (steady_atWord w) (.wordPhrase w)

theorem Extends.maybeSign {σ : String} (hend : ';' ∉ σ.toList.dropLast) :
    Extends x (Phrase.maybeSign σ) (Phrase.maybeSign σ) := .maybe (steady_atSign hend) (.signPhrase σ)

/-! ## Paths without arguments -/

theorem extends_pathWord : Extends x pathWord pathWord := .bind (.require steady_atPathWord) fun _ => .anyWord

theorem extends_simplePath : Extends x simplePath simplePath := by
  refine .allCons (.maybeSign (by decide)) (.allCons ?_ .allNil)
  refine .bind (.chained (fun _ => ?_) extends_pathWord) fun _ => .pure _
  exact .branch (steady_atSign (by decide)) (.bind (.sign _) fun _ => .pure _) (.pure _)

/-! ## Parts with a sign before them -/

theorem extends_boundsAfterColon {bounds bounds' : Phrase} (h : Extends x bounds bounds') :
    Extends x (boundsAfterColon bounds) (boundsAfterColon bounds') := by
  refine .bind (.takeSign (by decide) (by decide)) fun colon => .ite ?_ (.pure _)
  exact .bind h fun _ => .pure _

theorem extends_defaultAfter {value value' : Phrase} (h : Extends x value value') :
    Extends x (defaultAfter value) (defaultAfter value') :=
  .maybe (steady_atSign (by decide)) (.allCons (.signPhrase _) (.allCons h .allNil))

theorem extends_linkWhile {test : Tokens → Bool} (h : Steady x test) (operator : String) :
    Extends x (linkWhile test operator) (linkWhile test operator) :=
  .branch h (.bind (.sign operator) fun _ => .pure _) (.pure _)

theorem extends_convention : Extends x convention convention :=
  .maybe (steady_atWord _) (.allCons (.wordPhrase _) (.allCons (.maybe steady_atString .literal) .allNil))

theorem extends_capture : Extends x capture capture := by
  refine .bind (.allCons (.wordPhrase _) (.allCons (.signPhrase _) .allNil)) fun front => ?_
  refine .bind (.separated (steady_atSign (by decide)) (.sign _) ?_) fun _ => .bind (.signPhrase _) fun _ => .pure _
  refine .branch steady_atLifetime (.bind .lifetimePhrase fun _ => .pure _) ?_
  exact .branch (steady_atWord _) (.bind .anyWordPhrase fun _ => .pure _) (.bind .namePhrase fun _ => .pure _)

theorem extends_builtin : Extends x builtin builtin :=
  .allCons (.wordPhrase _) (.allCons (.signPhrase _) (.allCons .namePhrase
    (.allCons (.provided (steady_atGroup _)) (.allCons .anyGroup .allNil))))

theorem extends_boundLink (plus constants : Bool) : Extends x (boundLink plus constants) (boundLink plus constants) := by
  refine .branch ((steady_const plus).and (steady_atSign (by decide))) (.bind (.sign _) fun _ => ?_) (.pure _)
  exact .branch (steady_atBound constants) (.pure _) (.pure _)

theorem extends_optionalLifetime : Extends x (optional lifetime) (optional lifetime) := by
  have happly : ∀ s, optional lifetime s = ((lifetime s).map fun y => (some y.1, y.2)).or (some (none, s)) := by
    intro s
    show ((some <$> lifetime : Parser Tokens (Option String)) <|> pure none) s = _
    rw [orElse_apply, map_apply]
    rfl
  intro s a r h hr
  rw [happly] at h ⊢
  cases hlife : lifetime s with
  | some y =>
      obtain ⟨l, e⟩ := y
      rw [hlife] at h
      cases h
      obtain ⟨hs, hlife'⟩ := Extends.lifetime hlife hr
      exact ⟨hs, by rw [hlife']; rfl⟩
  | none =>
      rw [hlife] at h
      cases h
      have hwould : would lifetime = atLifetime := by
        funext s
        cases s with
        | leaf t r => cases t <;> rfl
        | _ => rfl
      have hsteady : Steady x (would lifetime) := by
        rw [hwould]
        exact steady_atLifetime
      exact ⟨hr, by rw [Extends.none_append hsteady hr hlife]; rfl⟩

/-! ## Readers -/

/-- What the one reader reads, the other one reads with more tokens behind: of the forms that stand outside of groups, and
    with nothing behind of any form. -/
structure Related (x : Tokens) (one other : Reader) : Prop where
  within : ∀ f, Extends .nil (one f) (other f)
  type : ∀ plus, Extends x (one (.type plus)) (other (.type plus))
  bound : ∀ captures constants, Extends x (one (.bound captures constants)) (other (.bound captures constants))

section

variable {self self' : Reader}

/-- Inside of a group nothing is added. -/
theorem Related.inner (h : Related x self self') : Related .nil self self' where
  within := h.within
  type plus := h.within (.type plus)
  bound captures constants := h.within (.bound captures constants)

variable (h : Related x self self')

include h

theorem Related.typePhrase (plus : Bool) : Extends x (self.typePhrase plus) (self'.typePhrase plus) :=
  .bind (h.type plus) fun _ => .pure _

theorem Related.boundPhrase (constants : Bool) : Extends x (self.boundPhrase constants) (self'.boundPhrase constants) :=
  .bind (h.bound false constants) fun _ => .pure _

theorem Related.expressionPhrase (braces : Bool) :
    Extends .nil (self.expressionPhrase braces) (self'.expressionPhrase braces) :=
  .bind (h.within (.expression braces)) fun _ => .pure _

/-! ## Annotations -/

theorem extends_annotationContent : Extends .nil (annotationContent self) (annotationContent self') := by
  refine .allCons (.firstCons (.nil _) (.wordPhrase _) (.firstCons (.nil _) extends_simplePath .firstNil)) (.allCons ?_ .allNil)
  refine .firstCons (.nil _) .anyGroup (.firstCons (.nil _) ?_ (.firstCons (.nil _) .nothing .firstNil))
  exact .allCons (.signPhrase _) (.allCons (.provided (.nil _)) (.allCons (h.expressionPhrase true) .allNil))

theorem extends_annotations : Extends x (annotations self) (annotations self') :=
  .several (steady_atSign (by decide)).not
    (.allCons (.signPhrase _) (.allCons (.enclosed _ (extends_annotationContent h)) .allNil))

theorem extends_innerAnnotations : Extends .nil (innerAnnotations self) (innerAnnotations self') :=
  .several (.nil _)
    (.allCons (.signPhrase _) (.allCons (.signPhrase _) (.allCons (.enclosed _ (extends_annotationContent h)) .allNil)))

/-! ## Generic parameters -/

theorem extends_constantArgument : Extends x (constantArgument self) (constantArgument self') := by
  refine .firstCons steady_atLiteral .literal (.firstCons (steady_atGroup _) (.enclosed _ ?_) .firstNil)
  exact .allCons (extends_innerAnnotations h) (.allCons (h.within .statements) .allNil)

theorem extends_parameterAfter : Extends x (parameterAfter self) (parameterAfter self') := by
  refine .branch steady_atLifetime ?_ (.branch steady_atName ?_ ?_)
  · refine .bind (.allCons .lifetimePhrase (.allCons ?_ .allNil)) fun _ => .pure _
    exact extends_boundsAfterColon (.row steady_atParameterStop (by decide) .lifetimePhrase)
  · refine .bind .name fun n => .bind (.allCons ?_ (.allCons ?_ .allNil)) fun _ => .pure _
    · exact extends_boundsAfterColon
        (.row (steady_atParameterStop.or (steady_atSign (by decide))) (by decide) (h.boundPhrase true))
    · exact extends_defaultAfter (h.typePhrase true)
  · refine .bind (.allCons (.wordPhrase _) (.allCons .namePhrase (.allCons (.signPhrase _)
      (.allCons (h.typePhrase true) (.allCons ?_ .allNil))))) fun _ => .pure _
    exact extends_defaultAfter
      (.firstCons steady_atConstant (extends_constantArgument h) (.firstCons steady_atName .namePhrase .firstNil))

theorem extends_parameter : Extends x (parameter self) (parameter self') := by
  refine .bind (extends_annotations h) fun front => .bind (.takeWord _) fun line => .ite (.pure _) ?_
  exact .bind (extends_parameterAfter h) fun _ => .pure _

theorem extends_generics : Extends x (generics self) (generics self') := by
  refine .branch (steady_atSign (by decide)) ?_ (.pure _)
  refine .bind (.sign _) fun _ => .bind (.separated (steady_atSign (by decide)) (.sign _) (extends_parameter h)) fun _ => ?_
  exact .bind (.sign _) fun _ => .pure _

theorem extends_binder : Extends x (binder self) (binder self') := by
  refine .allCons (.wordPhrase _) (.allCons (.signPhrase _) (.allCons ?_ (.allCons (.signPhrase _) .allNil)))
  refine .listed (steady_atSign (by decide)) _ (.bind (extends_annotations h) fun front => ?_)
  exact .bind (extends_parameterAfter h) fun _ => .pure _

/-! ## Conditions -/

theorem extends_condition : Extends x (condition self) (condition self') := by
  have hlife : Steady x fun s => atLifetime s && atSign ":" s.next :=
    steady_atLifetime.andNext inner_atLifetime (steady_atSign (by decide))
  refine .firstCons hlife ?_ (.firstCons (steady_const true) ?_ .firstNil)
  · refine .allCons .lifetimePhrase (.allCons (.signPhrase _) (.allCons ?_ .allNil))
    exact .row (steady_atWhereStop.or (steady_atSign (by decide))) (by decide) .lifetimePhrase
  · refine .allCons (.maybe (steady_atWord _) (extends_binder h)) (.allCons (h.typePhrase true) (.allCons (.signPhrase _)
      (.allCons ?_ .allNil)))
    exact .row steady_atWhereStop (by decide) (h.boundPhrase true)

theorem extends_conditions : Extends x (conditions self) (conditions self') := by
  refine .bind (.takeWord _) fun present => .ite ?_ (.pure _)
  refine .bind (.require steady_atParameters.not) fun _ => ?_
  exact .bind (.row steady_atWhereStop (by decide) (extends_condition h)) fun _ => .pure _

/-! ## Paths -/

theorem extends_result (plus : Bool) : Extends x (result? self plus) (result? self' plus) := by
  refine .bind (.takeSign (by decide) (by decide)) fun present => .ite ?_ (.pure _)
  exact .bind (h.type plus) fun _ => .pure _

theorem extends_inputs : Extends x (inputs self) (inputs self') := by
  refine .bind (.takeSign (by decide) (by decide)) fun _ => .bind (.enclosed _ ?_) fun types => ?_
  · exact .listed (.nil _) _ (h.inner.typePhrase true)
  · exact .bind (extends_result h false) fun _ => .pure _

theorem extends_argument : Extends x (argument self) (argument self') := by
  have hlife : Steady x fun s => atLifetime s && !atSign "+" s.next :=
    steady_atLifetime.andNext inner_atLifetime (steady_atSign (by decide)).not
  refine .branch hlife (.bind .lifetime fun _ => .pure _) (.branch steady_atConstant ?_ ?_)
  · exact .bind (extends_constantArgument h) fun _ => .pure _
  · refine .bind (h.type true) fun t => .ite (.pure _) (.bind (.takeSign (by decide) (by decide)) fun equals => ?_)
    refine .ite ?_ (.bind (.takeSign (by decide) (by decide)) fun colon => .ite ?_ (.pure _))
    · refine .branch steady_atConstant ?_ ?_
      · exact .bind (extends_constantArgument h) fun _ => .pure _
      · exact .bind (h.type true) fun _ => .pure _
    · refine .bind (.row ?_ (by decide) (h.boundPhrase true)) fun _ => .pure _
      exact (steady_atSign (by decide)).or (steady_atSign (by decide))

theorem extends_angle : Extends x (angle self) (angle self') := by
  refine .bind (.takeSign (by decide) (by decide)) fun turbofish => .bind (.sign _) fun _ => ?_
  refine .bind (.separated (steady_atSign (by decide)) (.sign _) (extends_argument h)) fun _ => ?_
  exact .bind (.sign _) fun _ => .pure _

theorem extends_segment (inExpression : Bool) : Extends x (segment self inExpression) (segment self' inExpression) := by
  refine .branch (steady_atWords _) (.bind .anyWord fun _ => .pure _) ?_
  refine .look (steady_atWord _) fun _ => .ite (.bind .anyWord fun n => ?_) (.bind .name fun n => ?_)
  -- whatever the name is, arguments may follow it
  all_goals exact .branch (steady_atAngle _) (.bind (extends_angle h) fun _ => .pure _) (.pure _)

theorem extends_path (inExpression : Bool) : Extends x (path self inExpression) (path self' inExpression) := by
  refine .bind (.takeSign (by decide) (by decide)) fun leading => .bind ?_ fun _ => .pure _
  exact .bind (.chained (fun _ => extends_linkWhile steady_atSegment _) (extends_segment h inExpression)) fun _ => .pure _

theorem extends_memberPath (inExpression : Bool) :
    Extends x (memberPath self inExpression) (memberPath self' inExpression) := by
  refine .bind (.sign _) fun _ => .bind (h.type true) fun t => .bind (.takeWord _) fun cast => ?_
  refine .ite (.bind (extends_path h false) fun base => ?_) (.bind (.pure _) fun base => ?_)
  -- the member is named in the same way with and without the trait that it is looked up in
  all_goals
    refine .bind (.sign _) fun _ => .bind (.sign _) fun _ => .bind (.chained (fun _ => ?_) (extends_segment h _)) fun _ => .pure _
    exact extends_linkWhile (steady_atSign (by decide)) _

/-! ## Bounds -/

theorem extends_traitBound (constants : Bool) : Extends x (traitBound self constants) (traitBound self' constants) := by
  refine .bind (.maybe (steady_atWord _) (extends_binder h)) fun life => ?_
  refine .look ((steady_atGroup _).or (steady_atWord _)) fun constant => .ite .failureBind ?_
  refine .bind (.firstCons (steady_atGroup _) (.enclosed _ (.wordPhrase _)) (.firstCons (steady_atWord _) (.wordPhrase _)
    (.firstCons (steady_const true) .nothing .firstNil))) fun const => ?_
  refine .bind (.maybeSign (by decide)) fun mark => .ite .failureBind ?_
  refine .bind (extends_path h false) fun parts => .look ((steady_const _).and steady_atInputs) fun takes => ?_
  exact .ite (.bind (extends_inputs h) fun _ => .bind (.pure _) fun _ => .pure _) (.bind (.pure _) fun _ => .pure _)

theorem extends_bound (captures constants : Bool) :
    Extends x (bound self captures constants) (bound self' captures constants) := by
  refine .branch steady_atLifetime (.bind .lifetime fun _ => .pure _) (.branch (steady_atWord _) ?_ ?_)
  · exact .ite (.bind extends_capture fun _ => .pure _) .failure
  · refine .start fun start => .look (steady_atGroup _) fun parenthesized => ?_
    -- in parentheses nothing is added behind the bound, outside of them there is
    refine .ite (.bind (.inside _ (extends_traitBound h.inner constants)) fun parts => ?_)
      (.bind (extends_traitBound h constants) fun parts => ?_)
    all_goals exact .ite (.bind (.since start) fun _ => .pure _) (.pure _)

theorem extends_boundChain (plus captures constants : Bool) :
    Extends x (boundChain self plus captures constants) (boundChain self' plus captures constants) :=
  .chained (fun _ => extends_boundLink plus constants) (extends_bound h captures constants)

theorem extends_boundedType (keyword : Option String) (plus special : Bool) :
    Extends x (boundedType self keyword plus special) (boundedType self' keyword plus special) :=
  .bind (extends_boundChain h plus special special) fun _ => .ite (.pure _) .failure

theorem extends_furtherBounds : Extends x (furtherBounds self) (furtherBounds self') :=
  .many (steady_atSign (by decide)).not (.bind (.sign _) fun _ => extends_bound h false false)

/-! ## Types -/

theorem extends_functionInput (receiver : Bool) :
    Extends .nil (functionInput self receiver) (functionInput self' receiver) := by
  refine .bind (extends_annotations h.inner) fun front => .branch (.nil _) (.bind (.refl dots) fun _ => .pure _) ?_
  refine .start fun start => .look (.nil _) fun isMut => .ite (.bind (.word _) fun _ => ?_) ?_
  -- once for an input with `mut` and once without, and so on for the label
  all_goals
    refine .look (.nil _) fun isSelf => .look (.nil _) fun named => .ite (.bind (.refl _) fun label => ?_)
      (.bind .nothing fun label => ?_)
    all_goals
      refine .branch (.nil _) (.bind (.word _) fun _ => .bind (.word _) fun _ => .bind (.since start) fun _ => .pure _) ?_
      refine .ite (.bind (.word _) fun _ => .bind (.since start) fun _ => .pure _) ?_
      exact .bind (h.inner.typePhrase true) fun t => .ite (.bind (.since start) fun _ => .pure _) (.pure _)

theorem extends_functionInputs : Extends .nil (functionInputs self) (functionInputs self') := by
  refine .maybe (.nil _) (.allCons (extends_functionInput h true) (.allCons (.maybe (.nil _) ?_) .allNil))
  exact .allCons (.signPhrase _) (.allCons (.listed (.nil _) _ (extends_functionInput h false)) .allNil)

theorem extends_functionType (front : Tokens) : Extends x (functionType self front) (functionType self' front) := by
  refine .bind (.allCons (.maybeWord _) (.allCons extends_convention (.allCons (.wordPhrase _) (.allCons ?_ .allNil)))) fun _ => ?_
  · exact .enclosed _ (extends_functionInputs h)
  · exact .bind (extends_result h false) fun _ => .pure _

theorem extends_pathType (plus : Bool) (front : Tokens) : Extends x (pathType self plus front) (pathType self' plus front) := by
  refine .branch (steady_atSign (by decide)) (.bind (extends_memberPath h false) fun _ => .pure _) ?_
  refine .bind (extends_path h false) fun parts => ?_
  refine .branch (((steady_atSign (by decide)).and (steady_atSign (by decide)).not).and (steady_const _)) ?_ ?_
  · exact .bind (.sign _) fun _ => .bind .anyGroup fun _ => .pure _
  · refine .bind (extends_boundLink plus false) fun link => ?_
    -- a path that a plus follows is the first of several bounds
    cases link with
    | done => exact .ite (.pure _) (.pure _)
    | trailing => exact .pure _
    | again => exact .bind (extends_boundChain h true false false) fun _ => .pure _

theorem extends_parenContent : Extends .nil (parenContent self) (parenContent self') := by
  refine .branch (.nil _) (.pure _) (.branch (.nil _) ?_ (.branch (.nil _) ?_ ?_))
  · exact .bind (extends_boundedType h.inner none true false) fun _ => .pure _
  · exact .bind (extends_traitBound h.inner false) fun _ => .pure _
  · refine .bind (h.inner.type true) fun first => .branch (.nil _) (.bind (.sign _) fun _ => ?_) (.pure _)
    exact .bind (.separated (.nil _) (.sign _) (h.inner.type true)) fun _ => .pure _

theorem extends_parenType (plus : Bool) : Extends x (parenType self plus) (parenType self' plus) := by
  refine .bind (.inside _ (extends_parenContent h)) fun t => ?_
  cases t with
  | bounded keyword bounds trailing => exact .bind (extends_furtherBounds h) fun _ => .pure _
  | paren inner =>
      -- what stands in the parentheses may be the first of several bounds as well
      refine .look ((steady_const plus).and (steady_atSign (by decide))) fun more => ?_
      cases boundOf? inner with
      | none => exact .pure _
      | some b =>
          cases more with
          | true => exact .bind (extends_furtherBounds h) fun _ => .pure _
          | false => exact .pure _
  | _ => exact .pure _

theorem extends_dynType (plus : Bool) : Extends x (dynType self plus) (dynType self' plus) := by
  refine .start fun start => .bind (.word _) fun _ => .bind (.takeSign (by decide) (by decide)) fun star => ?_
  refine .bind (extends_boundedType h (some "dyn") plus false) fun t => .ite ?_ (.pure _)
  exact .bind (.since start) fun _ => .pure _

theorem extends_bracketContent : Extends .nil (bracketContent self) (bracketContent self') := by
  refine .bind (h.inner.type true) fun element => .bind (.takeSign (by decide) (by decide)) fun _ => .ite ?_ (.pure _)
  exact .bind (h.expressionPhrase true) fun _ => .pure _

theorem extends_pointerType : Extends x (pointerType self) (pointerType self') := by
  refine .bind (.allCons (.signPhrase _) (.allCons ?_ .allNil)) fun front => .bind (h.type false) fun _ => .pure _
  exact .firstCons (steady_atWord _) .anyWordPhrase (.firstCons (steady_atWord _) .anyWordPhrase .firstNil)

theorem extends_referenceType : Extends x (referenceType self) (referenceType self') := by
  refine .bind (.sign _) fun _ => .bind extends_optionalLifetime fun life => .bind (.takeWord _) fun mutable => ?_
  exact .bind (h.type false) fun _ => .pure _

theorem extends_typeAfter (plus : Bool) (start front : Tokens) :
    Extends x (typeAfter self plus start front) (typeAfter self' plus (start ++ x) front) := by
  refine .branch (steady_atGroup _) (extends_parenType h plus) ?_
  refine .branch (steady_atWords _) (extends_functionType h front) ?_
  refine .branch steady_atBuiltin (.bind extends_builtin fun _ => .bind (.since start) fun _ => .pure _) ?_
  refine .branch steady_atPath (extends_pathType h plus front) ?_
  refine .branch (steady_atWord _) (extends_dynType h plus) ?_
  refine .branch (steady_atGroup _) (.inside _ (extends_bracketContent h)) ?_
  refine .branch (steady_atSign (by decide)) (extends_pointerType h) ?_
  refine .branch (steady_atSign (by decide)) (extends_referenceType h) ?_
  refine .branch (steady_atSign (by decide)) (.bind (.signPhrase _) fun _ => .pure _) ?_
  refine .bind (.takeWord _) fun bounded => .ite (extends_boundedType h (some "impl") plus true) ?_
  refine .branch (steady_atWord _) (.bind .anyWordPhrase fun _ => .pure _) ?_
  exact .branch steady_atLifetime (extends_boundedType h none true false) .failure

theorem extends_typeRule (plus : Bool) : Extends x (typeRule self plus) (typeRule self' plus) := by
  refine .start fun start => .branch (steady_atWord _) ?_ (extends_typeAfter h plus start .nil)
  refine .bind (extends_binder h) fun front => .bind (.require ?_) fun _ => extends_typeAfter h plus start front
  exact steady_atName.or (steady_atWords _)

end

/-! ## The grammar as a whole -/

/-- The forms that follow the rules, on inputs below a size. -/
def readerBelow (n : Nat) : Reader := fun f s => if s.size < n then reader f s else none

theorem reader_below (f : Form) (s : Tokens) : reader f s = rule (readerBelow s.size) f s := reader_eq f s

theorem readerBelow_eq {n : Nat} {f : Form} {s : Tokens} {y : f.Out × Tokens} :
    readerBelow n f s = some y ↔ s.size < n ∧ reader f s = some y := by
  by_cases hlt : s.size < n <;> simp [readerBelow, hlt]

/-- A form whose rule reads the same with more tokens behind does so itself. -/
theorem extends_readerBelow {n m : Nat} (hm : n + x.size ≤ m) {f : Form}
    (hrule : ∀ k < n, Extends x (rule (readerBelow k) f) (rule (readerBelow (k + x.size)) f)) :
    Extends x (readerBelow n f) (readerBelow m f) := by
  intro s a r h hr
  obtain ⟨hlt, hs⟩ := readerBelow_eq.1 h
  rw [reader_below] at hs
  obtain ⟨hfits, hs'⟩ := hrule s.size hlt hs hr
  refine ⟨hfits, readerBelow_eq.2 ⟨?_, ?_⟩⟩
  · rw [Tokens.size_append]
    omega
  · rw [reader_below, Tokens.size_append]
    exact hs'

/-- By induction on the size: a rule calls the reader on smaller inputs only. -/
theorem related_readerBelow (n m : Nat) (hm : n + x.size ≤ m) : Related x (readerBelow n) (readerBelow m) := by
  induction n using Nat.strongRecOn generalizing m with
  | _ n ih =>
      refine ⟨?_, ?_, ?_⟩
      · -- with nothing behind, only the bound on the size is another one
        intro f s a r h _
        obtain ⟨hlt, hs⟩ := readerBelow_eq.1 h
        refine ⟨.nil s, ?_⟩
        rw [Tokens.append_nil, Tokens.append_nil]
        exact readerBelow_eq.2 ⟨by omega, hs⟩
      · intro plus
        exact extends_readerBelow hm fun k hk => extends_typeRule (ih k hk _ (Nat.le_refl _)) plus
      · intro captures constants
        exact extends_readerBelow hm fun k hk => extends_bound (ih k hk _ (Nat.le_refl _)) captures constants

/-- **Types and bounds are read in the same way with more tokens behind.** -/
theorem related_reader : Related x reader reader := by
  -- a bound above the size of the input changes nothing
  have hbelow : ∀ n, Related x (readerBelow n) (readerBelow (n + x.size)) := fun n =>
    related_readerBelow n _ (Nat.le_refl _)
  refine ⟨fun f => .refl _, ?_, ?_⟩
  · intro plus s t r h hr
    have hs := readerBelow_eq.2 ⟨Nat.lt_succ_self s.size, h⟩
    obtain ⟨hfits, hs'⟩ := (hbelow (s.size + 1)).type plus hs hr
    exact ⟨hfits, (readerBelow_eq.1 hs').2⟩
  · intro captures constants s b r h hr
    have hs := readerBelow_eq.2 ⟨Nat.lt_succ_self s.size, h⟩
    obtain ⟨hfits, hs'⟩ := (hbelow (s.size + 1)).bound captures constants hs hr
    exact ⟨hfits, (readerBelow_eq.1 hs').2⟩

end QueryContract.Source
