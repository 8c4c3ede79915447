import QueryContract.Proofs.Lookahead

/-!
# `Proofs.Forward` — parsers only take from the front

Whatever a parser of the grammar reads, what it leaves is an end of what it was given: `Forward`. Everything that is
proved about the words in a declaration rests on this, and all rules have it for the same reason, so it is a class:
each combinator hands it on, and instances are found along the structure of a rule. Only the forms that stand outside
of groups are concerned; a group is taken as a whole.

* `of_bind`, `Repeated`, `Separated`, `Linked` — the steps that a parser takes;
* `Forward`, and an instance for each combinator;
* `ForwardReader` — what is assumed of the reader; an instance for each rule;
* `forward_readerBelow` — by induction on the size of the input, the rules have it themselves.
-/

namespace QueryContract.Parser

/-! ## Steps of a parser -/

section

variable {σ α : Type}

/-- A parser after another one, taken apart. -/
theorem of_bind {β : Type} {p : Parser σ α} {f : α → Parser σ β} {s r : σ} {b : β} (h : (p >>= f) s = some (b, r)) :
    ∃ a m, p s = some (a, m) ∧ f a m = some (b, r) := by
  obtain ⟨⟨a, m⟩, ha, hb⟩ := Option.bind_eq_some_iff.1 h
  exact ⟨a, m, ha, hb⟩

/-- Items one after the other. -/
inductive Repeated (item : Parser σ α) : σ → List α → σ → Prop where
  | nil (s : σ) : Repeated item s [] s
  | cons {s m r : σ} {a : α} {as : List α} (first : item s = some (a, m)) (rest : Repeated item m as r) :
      Repeated item s (a :: as) r

/-- Items with a separator between any two and perhaps one after the last. -/
inductive Separated (separator : Parser σ Unit) (item : Parser σ α) : σ → List α → σ → Prop where
  | nil (s : σ) : Separated separator item s [] s
  | last {s r : σ} {a : α} (only : item s = some (a, r)) : Separated separator item s [a] r
  | cons {s m next r : σ} {a : α} {as : List α} (first : item s = some (a, m)) (between : separator m = some ((), next))
      (rest : Separated separator item next as r) : Separated separator item s (a :: as) r

/-- Items, at least one, each followed by its link. -/
inductive Linked (link : α → Parser σ Link) (item : Parser σ α) : σ → List α → σ → Prop where
  | last {s m r : σ} {a : α} {l : Link} (only : item s = some (a, m)) (stop : link a m = some (l, r)) :
      Linked link item s [a] r
  | cons {s m next r : σ} {a : α} {l : Link} {as : List α} (first : item s = some (a, m))
      (between : link a m = some (l, next)) (rest : Linked link item next as r) : Linked link item s (a :: as) r

variable [Measured σ]

theorem many_steps {stop : σ → Bool} {item : Parser σ α} {s r : σ} {as : List α}
    (h : many stop item s = some (as, r)) : Repeated item s as r := by
  fun_induction many stop item s generalizing as with
  | case1 s _ =>
      cases h
      exact .nil _
  | case2 s _ hnone => cases h
  | case3 s _ a m ha hlt hnone => cases h
  | case4 s _ a m ha hlt bs e hmore ih =>
      cases h
      exact .cons ha (ih hmore)
  | case5 s _ a m ha hlt => cases h

theorem separated_steps {stop : σ → Bool} {separator : Parser σ Unit} {item : Parser σ α} {s r : σ}
    {as : List α} {trailing : Bool} (h : separated stop separator item s = some ((as, trailing), r)) :
    Separated separator item s as r := by
  fun_induction separated stop separator item s generalizing as trailing with
  | case1 s _ =>
      cases h
      exact .nil _
  | case2 s _ hnone => cases h
  | case3 s _ a m ha _ =>
      cases h
      exact .last ha
  | case4 s _ a m ha _ hnone => cases h
  | case5 s _ a m ha _ next hnext hlt hnone => cases h
  | case6 s _ a m ha _ next hnext hlt trailing e hrest ih =>
      cases h
      exact .cons ha hnext (ih hrest)
  | case7 s _ a m ha _ next hnext hlt b bs trailing e hrest ih =>
      cases h
      exact .cons ha hnext (ih hrest)
  | case8 s _ a m ha _ next hnext hlt => cases h

theorem chained_steps {link : α → Parser σ Link} {item : Parser σ α} {s r : σ} {as : List α}
    {trailing : Bool} (h : chained link item s = some ((as, trailing), r)) : Linked link item s as r := by
  fun_induction chained link item s generalizing as trailing with
  | case1 s hnone => cases h
  | case2 s a m ha hnone => cases h
  | case3 s a m ha e hdone =>
      cases h
      exact .last ha hdone
  | case4 s a m ha e htrailing =>
      cases h
      exact .last ha htrailing
  | case5 s a m ha next hagain hlt hnone => cases h
  | case6 s a m ha next hagain hlt as trailing e hrest ih =>
      cases h
      exact .cons ha hagain (ih hrest)
  | case7 s a m ha next hagain hlt => cases h

end

end QueryContract.Parser

namespace QueryContract.Source

open QueryContract.Parser

set_option synthInstance.maxSize 1024

/-- What the parser leaves is an end of its input. -/
class Forward {α : Type} (p : Parser Tokens α) : Prop where
  front : ∀ {s r : Tokens} {a : α}, p s = some (a, r) → ∃ front, s = front ++ r

section

variable {α β : Type}

/-! ## Sequence and choice -/

instance (a : α) : Forward (pure a : Parser Tokens α) where
  front h := by
    cases h
    exact ⟨.nil, rfl⟩

instance : Forward (failure : Parser Tokens α) where
  front h := absurd h nofun

theorem Forward.bind {p : Parser Tokens α} {f : α → Parser Tokens β} (hp : Forward p) (hf : ∀ a, Forward (f a)) :
    Forward (p >>= f) where
  front h := by
    obtain ⟨a, m, ha, hb⟩ := of_bind h
    obtain ⟨front, rfl⟩ := hp.front ha
    obtain ⟨back, rfl⟩ := (hf a).front hb
    exact ⟨front ++ back, (Tokens.append_assoc _ _ _).symm⟩

instance (p : Parser Tokens α) (f : α → Parser Tokens β) [hp : Forward p] [hf : ∀ a, Forward (f a)] :
    Forward (p >>= f) := .bind hp hf

theorem Forward.ite {c : Prop} [Decidable c] {p q : Parser Tokens α} (hp : Forward p) (hq : Forward q) :
    Forward (if c then p else q) := by
  split
  · exact hp
  · exact hq

instance (c : Prop) [Decidable c] (p q : Parser Tokens α) [hp : Forward p] [hq : Forward q] :
    Forward (if c then p else q) := .ite hp hq

instance (f : Tokens → α) : Forward (look f) where
  front h := by
    cases h
    exact ⟨.nil, rfl⟩

theorem Forward.branch {test : Tokens → Bool} {p q : Parser Tokens α} (hp : Forward p) (hq : Forward q) :
    Forward (do if ← look test then p else q) := inferInstance

instance (test : Tokens → Bool) : Forward (require test) where
  front {s r a} h := by
    rw [require] at h
    split at h
    · cases h
      exact ⟨.nil, rfl⟩
    · cases h

instance (start : Tokens) : Forward (since start) where
  front h := by
    cases h
    exact ⟨.nil, rfl⟩

instance (p : Parser Tokens α) [hp : Forward p] : Forward (accepts p) where
  front {s r a} h := by
    rw [accepts] at h
    cases hps : p s with
    | some y =>
        rw [hps] at h
        cases h
        exact hp.front hps
    | none =>
        rw [hps] at h
        cases h
        exact ⟨.nil, rfl⟩

instance (p : Parser Tokens α) [hp : Forward p] : Forward (optional p) where
  front {s r a} h := by
    have happly : optional p s = ((p s).map fun y => (some y.1, y.2)).or (some (none, s)) := by
      show ((some <$> p : Parser Tokens (Option α)) <|> pure none) s = _
      rw [orElse_apply, map_apply]
      rfl
    rw [happly] at h
    cases hps : p s with
    | some y =>
        rw [hps] at h
        cases h
        exact hp.front hps
    | none =>
        rw [hps] at h
        cases h
        exact ⟨.nil, rfl⟩

/-! ## Tokens -/

/-- A parser of a single token that is no group. -/
theorem Forward.ofLeaf {p : Parser Tokens α} (hnil : p .nil = none) (hgroup : ∀ d body r, p (.group d body r) = none)
    (hleaf : ∀ {t s r a}, p (.leaf t s) = some (a, r) → s = r) : Forward p where
  front {s r a} h := by
    cases s with
    | nil => simp [hnil] at h
    | group d body s => simp [hgroup] at h
    | leaf t s =>
        obtain rfl := hleaf h
        exact ⟨.leaf t .nil, rfl⟩

instance (w : String) : Forward (word w) := by
  refine .ofLeaf rfl (fun _ _ _ => rfl) fun {t s r a} h => ?_
  cases t with
  | word n => simp_all [word]
  | _ => cases h

instance : Forward anyWord := by
  refine .ofLeaf rfl (fun _ _ _ => rfl) fun {t s r a} h => ?_
  cases t with
  | word n => cases h; rfl
  | _ => cases h

instance : Forward name := by
  refine .ofLeaf rfl (fun _ _ _ => rfl) fun {t s r a} h => ?_
  cases t with
  | word n => simp_all [name]
  | _ => cases h

instance : Forward lifetime := by
  refine .ofLeaf rfl (fun _ _ _ => rfl) fun {t s r a} h => ?_
  cases t with
  | lifetime n => cases h; rfl
  | _ => cases h

instance : Forward index := by
  refine .ofLeaf rfl (fun _ _ _ => rfl) fun {t s r a} h => ?_
  cases t with
  | literal n =>
      obtain ⟨_, -, hpair⟩ := Option.map_eq_some_iff.1 h
      cases hpair
      rfl
  | _ => cases h

instance : Forward indices := by
  refine .ofLeaf rfl (fun _ _ _ => rfl) fun {t s r a} h => ?_
  cases t with
  | literal n =>
      obtain ⟨_, -, hpair⟩ := Option.map_eq_some_iff.1 h
      cases hpair
      rfl
  | _ => cases h

theorem forward_chars (cs : List Char) : Forward (chars cs) := by
  induction cs with
  | nil => exact ⟨fun h => by cases h; exact ⟨.nil, rfl⟩⟩
  | cons c cs ih =>
      cases cs with
      | nil =>
          refine .ofLeaf rfl (fun _ _ _ => rfl) fun {t s r a} h => ?_
          cases t with
          | punct d joint => simp_all [chars]
          | _ => cases h
      | cons c' cs =>
          refine ⟨fun {s r a} h => ?_⟩
          cases s with
          | nil => cases h
          | group d body s => cases h
          | leaf t s =>
              cases t with
              | punct d joint =>
                  -- a character of a sign, but not its last one
                  have hstep : chars (c :: c' :: cs) (.leaf (.punct d joint) s) =
                      if c = d ∧ joint = true then chars (c' :: cs) s else none := rfl
                  rw [hstep] at h
                  split at h
                  · obtain ⟨front, rfl⟩ := ih.front h
                    exact ⟨.leaf (.punct d joint) front, rfl⟩
                  · cases h
              | _ => cases h

instance (σ : String) : Forward (sign σ) := forward_chars σ.toList

instance : Forward literal where
  front {s r a} h := by
    fun_cases literal s with
    | case1 w rest =>
        cases h
        exact ⟨.leaf _ .nil, rfl⟩
    | case2 w rest hw =>
        rw [literal, if_pos hw] at h
        cases h
        exact ⟨.leaf _ .nil, rfl⟩
    | case3 w rest hw =>
        rw [literal, if_neg hw] at h
        cases h
    | case4 joint w rest hw =>
        rw [literal, if_pos hw] at h
        cases h
        exact ⟨.leaf _ (.leaf _ .nil), rfl⟩
    | case5 joint w rest hw =>
        rw [literal, if_neg hw] at h
        cases h
    | case6 _ hliteral hword hnegative =>
        rw [literal] at h
        · cases h
        · exact hliteral
        · exact hword
        · exact hnegative

instance : Forward anyGroup where
  front {s r a} h := by
    cases s with
    | group d body s =>
        cases h
        exact ⟨.group d body .nil, rfl⟩
    | _ => cases h

/-- A group is taken as a whole, whatever its content is read as. -/
instance (d : Delimiter) (content : Parser Tokens α) : Forward (inside d content) where
  front {s r a} h := by
    cases s with
    | group d' body s =>
        obtain ⟨-, -, rfl⟩ := inside_eq.1 h
        exact ⟨.group d' body .nil, rfl⟩
    | _ => cases h

/-! ## Repetition -/

instance (stop : Tokens → Bool) (item : Parser Tokens α) [hitem : Forward item] : Forward (many stop item) where
  front {s r as} h := by
    have hsteps := many_steps h
    clear h
    induction hsteps with
    | nil s => exact ⟨.nil, rfl⟩
    | cons first rest ih =>
        obtain ⟨front, rfl⟩ := hitem.front first
        obtain ⟨back, rfl⟩ := ih
        exact ⟨front ++ back, (Tokens.append_assoc _ _ _).symm⟩

instance (stop : Tokens → Bool) (separator : Parser Tokens Unit) (item : Parser Tokens α) [hseparator : Forward separator]
    [hitem : Forward item] : Forward (separated stop separator item) where
  front {s r y} h := by
    obtain ⟨as, trailing⟩ := y
    have hsteps := separated_steps h
    clear h
    induction hsteps with
    | nil s => exact ⟨.nil, rfl⟩
    | last only => exact hitem.front only
    | cons first between rest ih =>
        obtain ⟨front, rfl⟩ := hitem.front first
        obtain ⟨comma, rfl⟩ := hseparator.front between
        obtain ⟨back, rfl⟩ := ih
        exact ⟨front ++ (comma ++ back), by rw [Tokens.append_assoc, Tokens.append_assoc]⟩

instance (link : α → Parser Tokens Link) (item : Parser Tokens α) [hlink : ∀ a, Forward (link a)]
    [hitem : Forward item] : Forward (chained link item) where
  front {s r y} h := by
    obtain ⟨as, trailing⟩ := y
    have hsteps := chained_steps h
    clear h
    induction hsteps with
    | last only stop =>
        obtain ⟨front, rfl⟩ := hitem.front only
        obtain ⟨back, rfl⟩ := (hlink _).front stop
        exact ⟨front ++ back, (Tokens.append_assoc _ _ _).symm⟩
    | cons first between rest ih =>
        obtain ⟨front, rfl⟩ := hitem.front first
        obtain ⟨plus, rfl⟩ := (hlink _).front between
        obtain ⟨back, rfl⟩ := ih
        exact ⟨front ++ (plus ++ back), by rw [Tokens.append_assoc, Tokens.append_assoc]⟩

/-! ## Phrases -/

instance : Forward (Phrase.all []) := inferInstanceAs (Forward (pure _))

instance (p : Phrase) (ps : List Phrase) [Forward p] [Forward (Phrase.all ps)] : Forward (Phrase.all (p :: ps)) := by
  unfold Phrase.all
  infer_instance

instance (test : Tokens → Bool) (p : Phrase) [hp : Forward p] : Forward (Phrase.maybe test p) where
  front {s r a} h := by
    cases htest : test s with
    | true =>
        rw [Phrase.maybe_some htest] at h
        exact hp.front h
    | false =>
        rw [Phrase.maybe_none htest] at h
        cases h
        exact ⟨.nil, rfl⟩

instance : Forward (Phrase.first [] : Parser Tokens α) := inferInstanceAs (Forward failure)

theorem Forward.firstCons {test : Tokens → Bool} {p : Parser Tokens α} {ps : List ((Tokens → Bool) × Parser Tokens α)}
    (hp : Forward p) (hps : Forward (Phrase.first ps)) : Forward (Phrase.first ((test, p) :: ps)) where
  front {s r a} h := by
    cases htest : test s with
    | true =>
        rw [Phrase.first_then htest] at h
        exact hp.front h
    | false =>
        rw [Phrase.first_else htest] at h
        exact hps.front h

instance (test : Tokens → Bool) (p : Parser Tokens α) (ps : List ((Tokens → Bool) × Parser Tokens α)) [hp : Forward p]
    [hps : Forward (Phrase.first ps)] : Forward (Phrase.first ((test, p) :: ps)) := .firstCons hp hps

instance : Forward Phrase.nothing := by unfold Phrase.nothing; infer_instance

instance (w : String) : Forward (Phrase.word w) := by unfold Phrase.word; infer_instance

instance (σ : String) : Forward (Phrase.sign σ) := by unfold Phrase.sign; infer_instance

instance : Forward Phrase.name := by unfold Phrase.name; infer_instance

instance : Forward Phrase.anyWord := by unfold Phrase.anyWord; infer_instance

instance : Forward Phrase.lifetime := by unfold Phrase.lifetime; infer_instance

instance (d : Delimiter) (content : Phrase) : Forward (Phrase.enclosed d content) := by
  unfold Phrase.enclosed
  infer_instance

instance (w : String) : Forward (Phrase.maybeWord w) := by unfold Phrase.maybeWord; infer_instance

instance (σ : String) : Forward (Phrase.maybeSign σ) := by unfold Phrase.maybeSign; infer_instance

instance (test : Tokens → Bool) : Forward (Phrase.provided test) := by unfold Phrase.provided; infer_instance

instance (stop : Tokens → Bool) (item : Phrase) [Forward item] : Forward (Phrase.several stop item) := by
  unfold Phrase.several
  infer_instance

instance (stop : Tokens → Bool) (separator : String) (item : Phrase) [Forward item] :
    Forward (Phrase.listed stop separator item) := by
  unfold Phrase.listed
  infer_instance

instance (stop : Tokens → Bool) (separator : String) (item : Phrase) [Forward item] :
    Forward (Phrase.row stop separator item) := by
  unfold Phrase.row
  infer_instance

instance (p : Parser Tokens α) [Forward p] : Forward (taken p) := by unfold taken; infer_instance

instance (σ : String) : Forward (takeSign σ) := by unfold takeSign; infer_instance

instance (w : String) : Forward (takeWord w) := by unfold takeWord; infer_instance

instance (bounds : Phrase) [Forward bounds] : Forward (boundsAfterColon bounds) := by
  unfold boundsAfterColon
  infer_instance

instance (value : Phrase) [Forward value] : Forward (defaultAfter value) := by unfold defaultAfter; infer_instance

instance (value : Phrase) [Forward value] : Forward (definition value) := by unfold definition; infer_instance

instance (p : Phrase) [Forward p] : Forward (formed p) := by unfold formed; infer_instance

end

/-! ## Parts without recursion -/

instance : Forward pathWord := by unfold pathWord; infer_instance

instance : Forward pathSegments := by unfold pathSegments; infer_instance

instance : Forward simplePath := by unfold simplePath; infer_instance

instance : Forward visibility := by unfold visibility; infer_instance

instance : Forward convention := by unfold convention; infer_instance

instance (test : Tokens → Bool) (operator : String) : Forward (linkWhile test operator) := by
  unfold linkWhile
  infer_instance

instance : Forward captured := by unfold captured; infer_instance

instance : Forward capture := by unfold capture; infer_instance

instance (plus constants : Bool) : Forward (boundLink plus constants) := by unfold boundLink; infer_instance

instance : Forward builtin := by unfold builtin; infer_instance

instance (obsolete : Bool) : Forward (rangeSign obsolete) := by unfold rangeSign; infer_instance

instance : Forward prefixOperator := by unfold prefixOperator; infer_instance

instance : Forward constantName := by unfold constantName; infer_instance

instance : Forward invocationItem := by unfold invocationItem; infer_instance

/-! ## Readers -/

/-- The forms that stand outside of groups. -/
def Form.isOuter : Form → Bool
  | leading | statements | item | namedFields | useTree _ => false
  | _ => true

/-- The forms that stand outside of groups take from the front. -/
class ForwardReader (self : Reader) : Prop where
  outer : ∀ f : Form, f.isOuter = true → Forward (self f)

section

variable (self : Reader) [ForwardReader self]

instance (plus : Bool) : Forward (self.type plus) := ForwardReader.outer (.type plus) rfl

instance : Forward self.pattern := ForwardReader.outer .pattern rfl

instance (braces : Bool) : Forward (self.expression braces) := ForwardReader.outer (.expression braces) rfl

instance (plus : Bool) : Forward (self.typePhrase plus) := by unfold Reader.typePhrase; infer_instance

instance (constants : Bool) : Forward (self.boundPhrase constants) := .bind (ForwardReader.outer _ rfl) inferInstance

instance (braces : Bool) : Forward (self.expressionPhrase braces) := by unfold Reader.expressionPhrase; infer_instance

/-! ### Generic parameters -/

instance : Forward (annotations self) := by unfold annotations; infer_instance

instance : Forward (innerAnnotations self) := by unfold innerAnnotations; infer_instance

instance : Forward (annotatedBlock self) := by unfold annotatedBlock; infer_instance

instance : Forward (block self) := by unfold block; infer_instance

instance : Forward (constantArgument self) := by unfold constantArgument; infer_instance

instance : Forward (parameterAfter self) := by unfold parameterAfter; infer_instance

instance : Forward (parameter self) := by unfold parameter; infer_instance

instance : Forward (presentGenerics self) := by unfold presentGenerics; infer_instance

instance : Forward (generics self) := by unfold generics; infer_instance

instance : Forward (binder self) := by unfold binder; infer_instance

instance : Forward (condition self) := by unfold condition; infer_instance

instance : Forward (conditions self) := by unfold conditions; infer_instance

/-! ### Types -/

instance (plus : Bool) : Forward (result? self plus) := by unfold result?; infer_instance

instance : Forward (inputs self) := by unfold inputs; infer_instance

instance : Forward (argument self) := by
  unfold argument
  dsimp only
  infer_instance

instance : Forward (angle self) := by unfold angle; infer_instance

instance (inExpression : Bool) : Forward (segment self inExpression) := by
  unfold segment
  dsimp only
  infer_instance

instance (inExpression : Bool) : Forward (segments self inExpression) := by unfold segments; infer_instance

instance (inExpression : Bool) : Forward (path self inExpression) := by unfold path; infer_instance

instance (inExpression : Bool) : Forward (memberPath self inExpression) := by
  unfold memberPath
  dsimp only
  infer_instance

instance (constants : Bool) : Forward (traitBound self constants) := by
  unfold traitBound
  dsimp only
  infer_instance

instance (captures constants : Bool) : Forward (bound self captures constants) := by
  unfold bound
  dsimp only
  infer_instance

instance (plus captures constants : Bool) : Forward (boundChain self plus captures constants) := by
  unfold boundChain
  infer_instance

instance (keyword : Option String) (plus special : Bool) : Forward (boundedType self keyword plus special) := by
  unfold boundedType
  infer_instance

instance (front : Tokens) : Forward (functionType self front) := by unfold functionType; infer_instance

instance (plus : Bool) (front : Tokens) : Forward (pathType self plus front) := by
  unfold pathType
  refine .branch inferInstance (.bind inferInstance fun parts => .branch inferInstance (.bind inferInstance fun link => ?_))
  -- a path that a plus follows is the first of several bounds
  cases link with
  | done => infer_instance
  | trailing => infer_instance
  | again => infer_instance

instance : Forward (furtherBounds self) := by unfold furtherBounds; infer_instance

instance (plus : Bool) : Forward (parenType self plus) := by
  refine .bind inferInstance fun t => ?_
  cases t with
  | bounded keyword bounds trailing => exact .bind inferInstance inferInstance
  | paren inner =>
      refine .bind inferInstance fun more => ?_
      cases boundOf? inner with
      | none => infer_instance
      | some b => cases more <;> infer_instance
  | _ => infer_instance

instance (plus : Bool) : Forward (dynType self plus) := by unfold dynType; infer_instance

instance : Forward (pointerType self) := by unfold pointerType; infer_instance

instance : Forward (referenceType self) := by unfold referenceType; infer_instance

instance (plus : Bool) (start front : Tokens) : Forward (typeAfter self plus start front) := by
  refine .branch inferInstance (.branch inferInstance (.branch inferInstance (.branch inferInstance ?_)))
  exact .branch inferInstance (.branch inferInstance (.branch inferInstance (.branch inferInstance inferInstance)))

instance (plus : Bool) : Forward (typeRule self plus) := by unfold typeRule; infer_instance

/-! ### Patterns -/

instance : Forward (valuePath self) := by unfold valuePath; infer_instance

instance : Forward (constantBlock self) := by unfold constantBlock; infer_instance

instance : Forward (rangeEnd? self) := by unfold rangeEnd?; infer_instance

instance (start : Tokens) : Forward (rangeFrom self start) := by
  refine .bind inferInstance fun dots => .bind inferInstance fun last => ?_
  cases last <;> infer_instance

instance : Forward (rangeTo self) := by
  refine .bind inferInstance fun dots => .bind inferInstance fun last => ?_
  cases last <;> infer_instance

instance (single : Parser Tokens Pattern) [Forward single] : Forward (alternativesOf single) := by
  refine .bind inferInstance fun bar => .bind inferInstance fun ⟨ps, _⟩ => ?_
  dsimp only
  split <;> infer_instance

instance : Forward (alternatives self) := by unfold alternatives; infer_instance

instance : Forward (alternativesPhrase self) := by unfold alternativesPhrase; infer_instance

instance : Forward (pathPattern self) := by unfold pathPattern; infer_instance

instance : Forward (namePattern self) := by unfold namePattern; infer_instance

instance : Forward (constantBlocks self) := by unfold constantBlocks; infer_instance

instance : Forward (literalPattern self) := by unfold literalPattern; infer_instance

instance : Forward (patternRule self) := by
  refine .branch inferInstance (.branch inferInstance (.branch inferInstance (.branch inferInstance ?_)))
  exact .branch inferInstance (.branch inferInstance (.branch inferInstance inferInstance))

/-! ### Expressions -/

instance (braces : Bool) : Forward (rangeRest self braces) := by
  refine .bind inferInstance fun dots => .branch inferInstance ?_
  exact .bind (ForwardReader.outer _ rfl) inferInstance

instance (braces : Bool) (base : Level) (left : Expression) : Forward (expressionFromRule self braces base left) where
  front {s r e} h := by
    unfold expressionFromRule at h
    split at h
    · cases h
      exact ⟨.nil, rfl⟩
    · split at h
      · -- an operator with two operands
        split at h
        · cases h
          exact ⟨.nil, rfl⟩
        · split at h
          · cases h
          · refine @Forward.front _ _ (.bind inferInstance fun _ => ?_) _ _ _ h
            exact .bind (ForwardReader.outer _ rfl) fun right => ForwardReader.outer _ rfl
      · -- an assignment, a range, a cast, or the end
        refine @Forward.front _ _ (.ite (.bind inferInstance fun _ => ?_) (.ite inferInstance (.ite ?_ inferInstance))) _ _ _ h
        · exact .bind (ForwardReader.outer _ rfl) fun right => ForwardReader.outer _ rfl
        · refine .bind inferInstance fun _ => .bind inferInstance fun t => .bind inferInstance fun _ => ?_
          exact (ForwardReader.outer _ rfl)

instance (braces : Bool) (level : Level) (left : Expression) : Forward (operandFromRule self braces level left) := by
  refine .bind inferInstance fun next => .ite ?_ inferInstance
  refine .bind inferInstance fun before => .bind inferInstance fun more => .bind inferInstance fun after => ?_
  exact .ite inferInstance (ForwardReader.outer _ rfl)

instance : Forward (arguments self) := by unfold arguments; infer_instance

instance : Forward (headExpression self) := by unfold headExpression; infer_instance

instance : Forward (fieldOrMethod self) := by unfold fieldOrMethod; infer_instance

instance : Forward (afterPoint self) := by unfold afterPoint; infer_instance

instance (e : Expression) : Forward (followed self e) := by unfold followed; infer_instance

instance : Forward (conditionalRule self) := by
  have hafter : @Forward Tokens (Phrase.first [(atWord "if", self .conditional), (atGroup .brace, block self)]) :=
    .firstCons (ForwardReader.outer _ rfl) inferInstance
  unfold conditionalRule
  infer_instance

instance : Forward (labelled self) := by
  unfold labelled loops
  simp only [List.cons_append, List.nil_append]
  infer_instance

instance : Forward (closureInput self) := by
  unfold closureInput
  infer_instance

instance (braces : Bool) : Forward (closure self braces) := by
  unfold closure
  infer_instance

instance (braces : Bool) : Forward (pathExpression self braces) := by unfold pathExpression; infer_instance

instance : Forward (jumpValue self) := by unfold jumpValue; infer_instance

instance (braces : Bool) : Forward (loopEnd self braces) := by unfold loopEnd; infer_instance

instance (braces : Bool) : Forward (Phrase.first (simpleAtoms self braces)) := by
  unfold simpleAtoms
  refine .firstCons inferInstance (.firstCons inferInstance (.firstCons inferInstance (.firstCons inferInstance ?_)))
  refine .firstCons inferInstance (.firstCons (.bind inferInstance fun front => ?_) inferInstance)
  exact .bind (ForwardReader.outer _ rfl) fun left => .bind (ForwardReader.outer _ rfl) inferInstance

instance : Forward (verbatimAtom self) := by unfold verbatimAtom; infer_instance

instance : Forward (Phrase.first (blockAtoms self)) := by
  unfold blockAtoms loops
  simp only [List.cons_append, List.nil_append]
  infer_instance

instance : Forward (blockAtom self) := by unfold blockAtom; infer_instance

instance (braces : Bool) : Forward (atom self braces) := by
  refine .branch inferInstance (.branch inferInstance (.branch inferInstance (.branch inferInstance ?_)))
  exact .branch inferInstance (.branch inferInstance (.branch inferInstance inferInstance))

instance (braces : Bool) : Forward (unaryRule self braces) := by
  refine .bind inferInstance fun start => .bind inferInstance fun front => .branch ?_ inferInstance
  exact .bind inferInstance fun op => .bind (ForwardReader.outer _ rfl) inferInstance

instance (braces : Bool) (level : Level) : Forward (operandRule self braces level) :=
  .bind inferInstance fun _ => ForwardReader.outer _ rfl

instance (braces : Bool) : Forward (expressionRule self braces) :=
  .bind inferInstance fun _ => ForwardReader.outer _ rfl

/-! ### Declarations -/

instance : Forward (receiver self) := by unfold receiver; infer_instance

instance : Forward (signature self) := by unfold signature; infer_instance

instance : Forward (bodyOrNone self) := by unfold bodyOrNone; infer_instance

instance : Forward (methodAfter self) := by unfold methodAfter; infer_instance

instance (valued : Bool) : Forward (constantItem self valued) := by unfold constantItem; infer_instance

instance (place : Place) : Forward (typeItem self place) := by unfold typeItem; infer_instance

instance (isPlain : Bool) : Forward (otherTraitItem self isPlain) := by unfold otherTraitItem; infer_instance

instance : Forward (traitItem self) := by
  refine .bind inferInstance fun start => .bind inferInstance fun front => .bind inferInstance fun mark => ?_
  refine .branch inferInstance (.bind inferInstance fun wording => ?_)
  cases wording <;> infer_instance

end

/-! ## The grammar as a whole -/

/-- The rules of the forms that stand outside of groups take from the front. -/
theorem forward_rule (self : Reader) [ForwardReader self] (f : Form) (hf : f.isOuter = true) : Forward (rule self f) := by
  cases f with
  | type plus => exact inferInstanceAs (Forward (typeRule self plus))
  | bound captures constants => exact inferInstanceAs (Forward (bound self captures constants))
  | pattern => exact inferInstanceAs (Forward (patternRule self))
  | expression braces => exact inferInstanceAs (Forward (expressionRule self braces))
  | unary braces => exact inferInstanceAs (Forward (unaryRule self braces))
  | operand braces level => exact inferInstanceAs (Forward (operandRule self braces level))
  | operandFrom braces level left => exact inferInstanceAs (Forward (operandFromRule self braces level left))
  | expressionFrom braces base left => exact inferInstanceAs (Forward (expressionFromRule self braces base left))
  | conditional => exact inferInstanceAs (Forward (conditionalRule self))
  | leading | statements | item | namedFields | useTree roots => cases hf

/-- By induction on the size: a rule calls the reader on smaller inputs only. -/
theorem forward_readerBelow (n : Nat) : ForwardReader (readerBelow n) := by
  induction n using Nat.strongRecOn with
  | _ n ih =>
      refine ⟨fun f hf => ⟨fun {s r a} h => ?_⟩⟩
      obtain ⟨hlt, hs⟩ := readerBelow_eq.1 h
      rw [reader_below] at hs
      have hself := ih s.size hlt
      exact (forward_rule _ f hf).front hs

/-- **The forms that follow the rules take from the front.** -/
instance : ForwardReader reader := by
  refine ⟨fun f hf => ⟨fun {s r a} h => ?_⟩⟩
  rw [reader_below] at h
  have hself := forward_readerBelow s.size
  exact (forward_rule _ f hf).front h

end QueryContract.Source
