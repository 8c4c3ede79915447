import QueryContract.Proofs.Lists
import QueryContract.Proofs.Normal

/-!
# `Proofs.Signatures` — what stands where in a declaration

A declaration that is accepted as a method or as a trait can be taken apart into its tokens: what stands before the name
of a function, its parameters one by one, what follows them. Whatever is declared comes from the part that it stands in;
so parameters keep their order, and the first one is left out exactly where it is a receiver.

* `IsMarks`, `IsConvention`, `IsFunction` — the parts of a function;
* `Input`, `Inputs`                       — its parameters in their order, the receiver left out;
* `Items`                                 — the items of a trait;
* `of_methodDeclaration`, `of_traitDeclaration` — methods and traits taken apart.
-/

namespace QueryContract.Source

open QueryContract.Parser

/-! ## Phrases taken apart -/

theorem Phrase.of_all_cons {p : Phrase} {ps : List Phrase} {s r w : Tokens}
    (h : Phrase.all (p :: ps) s = some (w, r)) :
    ∃ front m back, p s = some (front, m) ∧ Phrase.all ps m = some (back, r) ∧ w = front ++ back := by
  obtain ⟨front, m, hfront, h⟩ := of_bind h
  obtain ⟨back, e, hback, hend⟩ := of_bind h
  cases hend
  exact ⟨front, m, back, hfront, hback, rfl⟩

theorem Phrase.of_all_nil {s r w : Tokens} (h : Phrase.all [] s = some (w, r)) : w = .nil ∧ r = s := by
  cases h
  exact ⟨rfl, rfl⟩

theorem of_chars_single {c : Char} {s r : Tokens} (h : chars [c] s = some ((), r)) :
    ∃ joint, s = .leaf (.punct c joint) r := by
  cases s with
  | leaf t s =>
      cases t with
      | punct d joint =>
          obtain ⟨rfl, rfl⟩ : c = d ∧ s = r := by simpa [chars] using h
          exact ⟨joint, rfl⟩
      | _ => cases h
  | _ => cases h

/-- A character of a sign, but not its last one. -/
theorem of_chars_more {c d : Char} {cs : List Char} {s r : Tokens} (h : chars (c :: d :: cs) s = some ((), r)) :
    ∃ m, s = .leaf (.punct c true) m ∧ chars (d :: cs) m = some ((), r) := by
  cases s with
  | leaf t s =>
      cases t with
      | punct e joint =>
          have hstep : chars (c :: d :: cs) (.leaf (.punct e joint) s) =
              if c = e ∧ joint = true then chars (d :: cs) s else none := rfl
          rw [hstep] at h
          split at h
          · rename_i hand
            obtain ⟨rfl, rfl⟩ := hand
            exact ⟨s, rfl, h⟩
          · cases h
      | _ => cases h
  | _ => cases h

theorem of_word {w : String} {s r : Tokens} (h : word w s = some ((), r)) : s = .leaf (.word w) r := by
  cases s with
  | leaf t s =>
      cases t with
      | word n =>
          obtain ⟨rfl, rfl⟩ : n = w ∧ s = r := by simpa [word] using h
          rfl
      | _ => cases h
  | _ => cases h

theorem of_name {n : String} {s r : Tokens} (h : name s = some (n, r)) : s = .leaf (.word n) r := by
  cases s with
  | leaf t s =>
      cases t with
      | word m =>
          rw [name] at h
          split at h
          · cases h
          · cases h
            rfl
      | _ => cases h
  | _ => cases h

theorem of_inside {α : Type} {d : Delimiter} {content : Parser Tokens α} {s r : Tokens} {a : α}
    (h : inside d content s = some (a, r)) : ∃ body, s = .group d body r ∧ content body = some (a, .nil) := by
  cases s with
  | group d' body s =>
      obtain ⟨rfl, hbody, rfl⟩ := inside_eq.1 h
      exact ⟨body, rfl, hbody⟩
  | _ => cases h

theorem Phrase.of_sign {sign : String} {s r written : Tokens} (h : Phrase.sign sign s = some (written, r)) :
    Source.sign sign s = some ((), r) := by
  obtain ⟨⟨⟩, e, hsign, hend⟩ := of_bind h
  cases hend
  exact hsign

theorem Phrase.of_provided {test : Tokens → Bool} {s r written : Tokens} (h : Phrase.provided test s = some (written, r)) :
    r = s := by
  obtain ⟨-, hend⟩ := require_bind_iff.1 h
  cases hend
  rfl

/-- A keyword, if it is there. -/
def keyword (w : String) (isPresent : Bool) : Tokens := if isPresent then .ofWord w else .nil

theorem Phrase.of_maybeWord {w : String} {s r written : Tokens} (h : Phrase.maybeWord w s = some (written, r)) :
    s = keyword w (!written.isEmpty) ++ r := by
  cases hat : atWord w s with
  | true =>
      rw [maybeWord, maybe_some hat] at h
      obtain ⟨⟨⟩, e, hword, hend⟩ := of_bind h
      cases hend
      exact of_word hword
  | false =>
      rw [maybeWord, maybe_none hat] at h
      cases h
      rfl

/-! ## Annotations -/

/-- Annotations, each a number sign with a group in brackets. -/
inductive IsMarks : Tokens → Prop where
  | nil : IsMarks .nil
  | cons (joint : Bool) (content : Tokens) {rest : Tokens} (more : IsMarks rest) :
      IsMarks (.leaf (.punct '#' joint) (.group .bracket content rest))

theorem isMarks_annotations {self : Reader} {s r written : Tokens} (h : annotations self s = some (written, r)) :
    ∃ marks, IsMarks marks ∧ s = marks ++ r := by
  obtain ⟨parts, e, hmany, hend⟩ := of_bind h
  cases hend
  have hsteps := many_steps hmany
  clear h hmany
  induction hsteps with
  | nil s => exact ⟨.nil, .nil, rfl⟩
  | cons first rest ih =>
      obtain ⟨marks, hmarks, rfl⟩ := ih
      obtain ⟨_, m, _, hsign, hrest, -⟩ := Phrase.of_all_cons first
      obtain ⟨_, m', _, henclosed, hnil, -⟩ := Phrase.of_all_cons hrest
      obtain ⟨-, rfl⟩ := Phrase.of_all_nil hnil
      obtain ⟨joint, rfl⟩ := of_chars_single (c := '#') (Phrase.of_sign hsign)
      obtain ⟨content, e, hinside, hend⟩ := of_bind henclosed
      cases hend
      obtain ⟨body, rfl, -⟩ := of_inside hinside
      exact ⟨_, .cons joint body hmarks, rfl⟩

/-! ## Parameters -/

section

variable {α β : Type}

/-- The three dots that stand for further arguments. -/
def threeDots (joint : Bool) : Tokens := .leaf (.punct '.' true) (.leaf (.punct '.' true) (.leaf (.punct '.' joint) .nil))

/-- A parameter before `rest`, as far as the grammar takes it, and what it declares. The receiver, which only the first one
    may be, declares nothing, and neither do the dots; any other parameter has the given relation to what it declares. -/
inductive Input (Q : Tokens → α → Prop) (first : Bool) (rest : Tokens) : Tokens → Option α → Prop where
  | receiver {marks mine written : Tokens} (hmarks : IsMarks marks) (hfirst : first = true)
      (self : Source.receiver reader (mine ++ rest) = some (written, rest)) : Input Q first rest (marks ++ mine) none
  | dots {marks front written : Tokens} (hmarks : IsMarks marks) (joint : Bool)
      (other : Source.receiver reader (front ++ threeDots joint ++ rest) = none)
      (taken : typedParameter reader (front ++ threeDots joint ++ rest) = some ((none, written), rest)) :
      Input Q first rest (marks ++ (front ++ threeDots joint)) none
  | typed {marks mine written : Tokens} {p : ParameterExpr} {a : α} (hmarks : IsMarks marks)
      (other : Source.receiver reader (mine ++ rest) = none)
      (taken : typedParameter reader (mine ++ rest) = some ((some p, written), rest)) (hQ : Q mine a) :
      Input Q first rest (marks ++ mine) (some a)

/-- Parameters with commas between them, and what they declare, in their order. -/
inductive Inputs (Q : Tokens → α → Prop) : Bool → Tokens → List α → Prop where
  | nil (first : Bool) : Inputs Q first .nil []
  | last {first : Bool} {chunk : Tokens} {a? : Option α} (only : Input Q first .nil chunk a?) :
      Inputs Q first chunk a?.toList
  | cons {first : Bool} {chunk rest : Tokens} {a? : Option α} {as : List α} (joint : Bool)
      (next : Input Q first (.leaf (.punct ',' joint) rest) chunk a?) (more : Inputs Q false rest as) :
      Inputs Q first (chunk ++ .leaf (.punct ',' joint) rest) (a?.toList ++ as)

theorem Inputs.mem {Q : Tokens → α → Prop} {first : Bool} {body : Tokens} {as : List α} (h : Inputs Q first body as) :
    ∀ a ∈ as, ∃ mine, Q mine a ∧ ∀ w ∈ mine.words, w ∈ body.words := by
  have hone : ∀ {first rest chunk a?}, Input Q first rest chunk a? →
      ∀ a ∈ a?.toList, ∃ mine, Q mine a ∧ ∀ w ∈ mine.words, w ∈ chunk.words := by
    intro first rest chunk a? hinput a ha
    cases hinput with
    | receiver _ _ _ => cases ha
    | dots _ _ _ _ => cases ha
    | @typed _ mine _ _ b _ _ _ hQ =>
        obtain rfl := List.mem_singleton.1 ha
        exact ⟨mine, hQ, fun w hw => by simp [hw]⟩
  induction h with
  | nil first => exact nofun
  | last only => exact hone only
  | @cons first chunk rest a? as joint next more ih =>
      intro a ha
      rcases List.mem_append.1 ha with ha | ha
      · obtain ⟨mine, hQ, hwords⟩ := hone next a ha
        exact ⟨mine, hQ, fun w hw => by simp [hwords w hw]⟩
      · obtain ⟨mine, hQ, hwords⟩ := ih a ha
        exact ⟨mine, hQ, fun w hw => by simp [Tokens.words, hwords w hw]⟩

/-- What is declared from parameters keeps to their order. -/
theorem Inputs.mapM {P : Tokens → α → Prop} {Q : Tokens → β → Prop} {W : String → Prop} {f : α → Except Fault β}
    (hf : ∀ mine a, mine.Within W → P mine a → Settles (Q mine) (f a)) {first : Bool} {body : Tokens} {as : List α}
    (h : Inputs P first body as) (hW : body.Within W) : Settles (Inputs Q first body) (as.mapM f) := by
  have hone : ∀ {first rest chunk a?}, Input P first rest chunk a? → chunk.Within W →
      Settles (fun bs => ∃ b?, Input Q first rest chunk b? ∧ bs = b?.toList) (a?.toList.mapM f) := by
    intro first rest chunk a? ha hchunk
    cases ha with
    | receiver hmarks hfirst self => exact .ok ⟨none, .receiver hmarks hfirst self, rfl⟩
    | dots hmarks joint other taken => exact .ok ⟨none, .dots hmarks joint other taken, rfl⟩
    | @typed _ mine _ _ a hmarks other taken hP =>
        rw [Option.toList, List.mapM_cons]
        refine (hf mine a (Tokens.within_append.1 hchunk).2 hP).bind fun b hb => ?_
        exact .ok ⟨some b, .typed hmarks other taken hb, rfl⟩
  induction h with
  | nil first => exact .ok (.nil first)
  | last only =>
      rintro bs hbs
      obtain ⟨b?, hb, rfl⟩ := hone only hW bs hbs
      exact .last hb
  | @cons first chunk rest a? as joint next more ih =>
      obtain ⟨hchunk, hrest⟩ := Tokens.within_append.1 hW
      rw [List.mapM_append]
      refine (hone next hchunk).bind fun bs hbs => (ih hrest).bind fun cs hcs => ?_
      obtain ⟨b?, hb, rfl⟩ := hbs
      exact .ok (.cons joint hb hcs)

end

/-- The names of a parameter are words in it. -/
def ParameterExpr.Of (mine : Tokens) (p : ParameterExpr) : Prop :=
  ∀ W, mine.Within W → p.type.Named W ∧ ∀ n, p.name = .name n → W n

theorem ofPattern_eq_name {p : Pattern} {n : String} (h : ParameterName.ofPattern p = .name n) : p.kind = .name n := by
  unfold ParameterName.ofPattern at h
  split at h
  · rename_i m hm
    cases h
    exact hm
  · cases h
  · cases h

/-! ### Reading -/

theorem threeDots_lastDots {s r written : Tokens} (h : lastDots s = some (written, r)) :
    ∃ joint, s = threeDots joint ++ r := by
  obtain ⟨_, m, _, hsign, hrest, -⟩ := Phrase.of_all_cons h
  obtain ⟨_, m', _, hprovided, hnil, -⟩ := Phrase.of_all_cons hrest
  obtain ⟨-, rfl⟩ := Phrase.of_all_nil hnil
  obtain rfl := Phrase.of_provided hprovided
  obtain ⟨s₁, rfl, htwo⟩ := of_chars_more (c := '.') (d := '.') (Phrase.of_sign hsign)
  obtain ⟨s₂, rfl, hone⟩ := of_chars_more htwo
  obtain ⟨joint, rfl⟩ := of_chars_single hone
  exact ⟨joint, rfl⟩

/-- A parameter that is no receiver ends in the dots, or declares what its words say. -/
theorem typedParameter_of {s r written : Tokens} {p? : Option ParameterExpr}
    (h : typedParameter reader s = some ((p?, written), r)) :
    (p? = none ∧ ∃ front joint, s = front ++ threeDots joint ++ r) ∨
      ∃ p mine, p? = some p ∧ s = mine ++ r ∧ ParameterExpr.Of mine p := by
  cases hdots : atSign "..." s with
  | true =>
      rw [typedParameter, look_then hdots] at h
      obtain ⟨written, e, hlast, hend⟩ := of_bind h
      cases hend
      obtain ⟨joint, rfl⟩ := threeDots_lastDots hlast
      exact .inl ⟨rfl, .nil, joint, rfl⟩
  | false =>
      rw [typedParameter, look_else hdots] at h
      cases hgeneric : (atName s && atSign "<" s.next) with
      | true =>
          rw [look_then (p := fun s => atName s && atSign "<" s.next) hgeneric] at h
          obtain ⟨t, e, ht, hend⟩ := of_bind h
          cases hend
          obtain ⟨mine, rfl, hnamed⟩ := NamedReader.type true ht
          exact .inr ⟨_, mine, rfl, rfl, fun W hW => ⟨hnamed W hW, nofun⟩⟩
      | false =>
          rw [look_else (p := fun s => atName s && atSign "<" s.next) hgeneric] at h
          obtain ⟨p, s₁, hp, hrest⟩ := of_bind h
          obtain ⟨⟨⟩, s₂, hcolon, hafter⟩ := of_bind hrest
          obtain ⟨pattern, rfl, hnamed⟩ := NamedReader.pattern hp
          obtain ⟨colon, rfl⟩ := Forward.front hcolon
          cases hlater : atSign "..." s₂ with
          | true =>
              obtain ⟨written, e, hlast, hend⟩ := of_bind ((look_then hlater).symm.trans hafter)
              cases hend
              obtain ⟨joint, rfl⟩ := threeDots_lastDots hlast
              exact .inl ⟨rfl, pattern ++ colon, joint, by simp only [Tokens.append_assoc]⟩
          | false =>
              obtain ⟨t, e, ht, hend⟩ := of_bind ((look_else hlater).symm.trans hafter)
              cases hend
              obtain ⟨type, rfl, htype⟩ := NamedReader.type true ht
              refine .inr ⟨_, pattern ++ (colon ++ type), rfl, by simp only [Tokens.append_assoc], fun W hW => ?_⟩
              obtain ⟨hpattern, hrest⟩ := Tokens.within_append.1 hW
              refine ⟨htype W (Tokens.within_append.1 hrest).2, fun n hn => ?_⟩
              exact hnamed W hpattern n (ofPattern_eq_name hn)

theorem input_functionParameter {first : Bool} {s r written : Tokens} {p? : Option ParameterExpr}
    (h : functionParameter reader first s = some ((p?, written), r)) :
    ∃ chunk, s = chunk ++ r ∧ Input ParameterExpr.Of first r chunk p? := by
  obtain ⟨front, s₁, hfront, hrest⟩ := of_bind h
  obtain ⟨marks, hmarks, rfl⟩ := isMarks_annotations hfront
  cases hwould : would (receiver reader) s₁ with
  | true =>
      rw [look_then hwould] at hrest
      cases first with
      | false => cases hrest
      | true =>
          obtain ⟨self, e, hreceiver, hend⟩ := of_bind hrest
          cases hend
          obtain ⟨mine, rfl⟩ := Forward.front hreceiver
          exact ⟨marks ++ mine, (Tokens.append_assoc _ _ _).symm, .receiver hmarks rfl hreceiver⟩
  | false =>
      rw [look_else hwould] at hrest
      obtain ⟨⟨p, self⟩, e, htyped, hend⟩ := of_bind hrest
      cases hend
      have hnone : receiver reader s₁ = none := by simpa [would] using hwould
      rcases typedParameter_of htyped with ⟨rfl, front, joint, rfl⟩ | ⟨p, mine, rfl, rfl, hof⟩
      · exact ⟨marks ++ (front ++ threeDots joint), (Tokens.append_assoc _ _ _).symm, .dots hmarks joint hnone htyped⟩
      · exact ⟨marks ++ mine, (Tokens.append_assoc _ _ _).symm, .typed hmarks hnone htyped hof⟩

theorem inputs_separated {s : Tokens} {ps : List (Option ParameterExpr × Tokens)}
    (h : Separated (sign ",") (functionParameter reader false) s ps .nil) :
    Inputs ParameterExpr.Of false s (ps.filterMap (·.1)) := by
  generalize hr : Tokens.nil = r at h
  induction h with
  | nil s =>
      subst hr
      exact .nil false
  | @last s r a only =>
      subst hr
      obtain ⟨chunk, rfl, hinput⟩ := input_functionParameter only
      rw [Tokens.append_nil]
      simpa [filterMap_cons_toList] using Inputs.last hinput
  | @cons s m next r a as first between rest ih =>
      obtain ⟨joint, rfl⟩ := of_chars_single (c := ',') between
      obtain ⟨chunk, rfl, hinput⟩ := input_functionParameter first
      rw [filterMap_cons_toList]
      exact .cons joint hinput (ih hr)

/-- **The parameters of a function, one after the other.** -/
theorem inputs_functionParameters {body written : Tokens} {ps : List ParameterExpr}
    (h : functionParameters reader body = some ((ps, written), .nil)) : Inputs ParameterExpr.Of true body ps := by
  cases hempty : body.isEmpty with
  | true =>
      rw [functionParameters, look_then hempty] at h
      cases body with
      | nil =>
          cases h
          exact .nil true
      | _ => cases hempty
  | false =>
      rw [functionParameters, look_else hempty] at h
      obtain ⟨first, m, hfirst, hrest⟩ := of_bind h
      obtain ⟨chunk, rfl, hinput⟩ := input_functionParameter hfirst
      cases hlast : m.isEmpty with
      | true =>
          rw [look_then hlast] at hrest
          have hps : some (([first].filterMap (·.1), _), m) = some ((ps, written), .nil) := hrest
          cases hps
          rw [Tokens.append_nil]
          simpa [filterMap_cons_toList] using Inputs.last hinput
      | false =>
          rw [look_else hlast] at hrest
          obtain ⟨⟨⟩, next, hcomma, hrest⟩ := of_bind hrest
          obtain ⟨⟨more, trailing⟩, e, hseparated, hend⟩ := of_bind hrest
          have hps : some (((first :: more).filterMap (·.1), _), e) = some ((ps, written), .nil) := hend
          cases hps
          obtain ⟨joint, rfl⟩ := of_chars_single (c := ',') hcomma
          rw [filterMap_cons_toList]
          exact .cons joint hinput (inputs_separated (separated_steps hseparated))

/-! ## Functions -/

/-- A calling convention: the keyword with a literal, the keyword alone, or nothing at all. -/
inductive IsConvention : Tokens → Prop where
  | none : IsConvention .nil
  | unnamed : IsConvention (.ofWord "extern")
  | named (l : String) : IsConvention (.ofWord "extern" ++ .ofLiteral l)

/-- A function before `rest`: annotations, keywords, its name, generic parameters, its parameters in parentheses, and what
    stands `after` them. -/
inductive IsFunction {α : Type} (Q : Tokens → α → Prop) (rest : Tokens) (name : String) (isAsync : Bool) (parameters : List α)
    (after : Tokens) : Tokens → Prop where
  | mk {marks abi gs body : Tokens} {g : Generics} (hmarks : IsMarks marks) (isConst isUnsafe : Bool)
      (habi : IsConvention abi)
      (hgenerics : generics reader (gs ++ .group .paren body (after ++ rest)) =
        some (g, .group .paren body (after ++ rest)))
      (hparameters : Inputs Q true body parameters) :
      IsFunction Q rest name isAsync parameters after
        (marks ++ (keyword "const" isConst ++ (keyword "async" isAsync ++ (keyword "unsafe" isUnsafe ++ (abi ++
          .leaf (.word "fn") (.leaf (.word name) (gs ++ .group .paren body after)))))))

namespace IsFunction

variable {α β : Type} {P : Tokens → α → Prop} {rest chunk after : Tokens} {name : String} {isAsync : Bool}
  {parameters : List α}

/-- What stands after the parameters, and the parameters, are parts of the function. -/
theorem words (h : IsFunction P rest name isAsync parameters after chunk) : (∀ w ∈ after.words, w ∈ chunk.words) ∧
    ∀ a ∈ parameters, ∃ mine, P mine a ∧ ∀ w ∈ mine.words, w ∈ chunk.words := by
  cases h with
  | mk hmarks isConst isUnsafe habi hgenerics hparameters =>
      refine ⟨fun w hw => by simp [Tokens.words, hw], fun a ha => ?_⟩
      obtain ⟨mine, hP, hwords⟩ := hparameters.mem a ha
      exact ⟨mine, hP, fun w hw => by simp [Tokens.words, hwords w hw]⟩

theorem mapM {Q : Tokens → β → Prop} {W : String → Prop} {f : α → Except Fault β}
    (hf : ∀ mine a, mine.Within W → P mine a → Settles (Q mine) (f a))
    (h : IsFunction P rest name isAsync parameters after chunk) (hW : chunk.Within W) :
    Settles (fun bs => IsFunction Q rest name isAsync bs after chunk) (parameters.mapM f) := by
  cases h with
  | mk hmarks isConst isUnsafe habi hgenerics hparameters =>
      intro bs hbs
      refine .mk hmarks isConst isUnsafe habi hgenerics (hparameters.mapM hf (fun w hw => ?_) bs hbs)
      exact hW w (by simp [Tokens.words, hw])

end IsFunction

/-- A signature has its parts from what stands there. -/
def Signature.Of (rest chunk : Tokens) (m : Signature) : Prop :=
  ∃ after, IsFunction ParameterExpr.Of rest m.name m.isAsync m.parameters after chunk ∧
    ∀ W, after.Within W → ∀ t ∈ m.result, t.Named W

theorem of_convention {s r written : Tokens} (h : convention s = some (written, r)) :
    ∃ abi, IsConvention abi ∧ s = abi ++ r := by
  cases hat : atWord "extern" s with
  | false =>
      rw [convention, Phrase.maybe_none hat] at h
      cases h
      exact ⟨.nil, .none, rfl⟩
  | true =>
      rw [convention, Phrase.maybe_some hat] at h
      obtain ⟨front, m, back, hfront, hrest, rfl⟩ := Phrase.of_all_cons h
      obtain ⟨literal, e, last, hliteral, hnil, rfl⟩ := Phrase.of_all_cons hrest
      obtain ⟨rfl, rfl⟩ := Phrase.of_all_nil hnil
      obtain ⟨⟨⟩, e, hword, hend⟩ := of_bind hfront
      cases hend
      obtain rfl := of_word hword
      cases hstring : atString m with
      | false =>
          rw [Phrase.maybe_none hstring] at hliteral
          cases hliteral
          exact ⟨_, .unnamed, rfl⟩
      | true =>
          rw [Phrase.maybe_some hstring] at hliteral
          -- only a literal starts like a string
          cases m with
          | leaf t m =>
              cases t with
              | literal l =>
                  cases hliteral
                  exact ⟨_, .named l, rfl⟩
              | _ => cases hstring
          | _ => cases hstring

/-- A method of a trait, with its annotations. -/
theorem of_methodAfter {marks s r written : Tokens} {m : Signature} (hmarks : IsMarks marks)
    (h : methodAfter reader s = some ((m, written), r)) : ∃ chunk, marks ++ s = chunk ++ r ∧ m.Of r chunk := by
  obtain ⟨⟨m', signed⟩, s₁, hsignature, hrest⟩ := of_bind h
  obtain ⟨body, e, hbody, hend⟩ := of_bind hrest
  cases hend
  obtain ⟨constant, s₂, hconstant, hsignature⟩ := of_bind hsignature
  obtain ⟨async, s₃, hasync, hsignature⟩ := of_bind hsignature
  obtain ⟨safety, s₄, hsafety, hsignature⟩ := of_bind hsignature
  obtain ⟨abi, s₅, habi, hsignature⟩ := of_bind hsignature
  obtain ⟨⟨⟩, s₆, hfn, hsignature⟩ := of_bind hsignature
  obtain ⟨n, s₇, hname, hsignature⟩ := of_bind hsignature
  obtain ⟨gs, s₈, hgenerics, hsignature⟩ := of_bind hsignature
  obtain ⟨⟨ps, parameters⟩, s₉, hparameters, hsignature⟩ := of_bind hsignature
  obtain ⟨result, s₁₀, hresult, hsignature⟩ := of_bind hsignature
  obtain ⟨clause, s₁₁, hclause, hend⟩ := of_bind hsignature
  cases hend
  -- what stands after the parameters
  obtain ⟨bodyTokens, rfl⟩ := Forward.front hbody
  obtain ⟨clauseTokens, rfl⟩ := Forward.front hclause
  obtain ⟨resultTokens, rfl, hnamed⟩ := takes_result reader true hresult
  obtain ⟨inner, rfl, hinputs⟩ := of_inside hparameters
  obtain ⟨genericTokens, rfl⟩ := Forward.front hgenerics
  -- what stands before them
  obtain rfl := of_name hname
  obtain rfl := of_word hfn
  obtain ⟨abiTokens, hconvention, rfl⟩ := of_convention habi
  obtain rfl := Phrase.of_maybeWord hsafety
  obtain rfl := Phrase.of_maybeWord hasync
  obtain rfl := Phrase.of_maybeWord hconstant
  have hafter : resultTokens ++ (clauseTokens ++ (bodyTokens ++ r)) =
      resultTokens ++ (clauseTokens ++ bodyTokens) ++ r := by simp only [Tokens.append_assoc]
  rw [hafter] at hgenerics
  refine ⟨_, ?_, _, .mk hmarks (!constant.isEmpty) (!safety.isEmpty) hconvention hgenerics
    (inputs_functionParameters hinputs), fun W hW t ht => ?_⟩
  · simp only [Tokens.append_assoc, Tokens.leaf_append, Tokens.group_append]
  · exact hnamed W (Tokens.within_append.1 hW).1 t ht

/-! ## Traits -/

/-- The items of a trait, and what those of them that count have to do with what stands there. -/
inductive Items {α : Type} (Q : Tokens → Tokens → α → Prop) : Tokens → List α → Prop where
  | nil : Items Q .nil []
  | cons {chunk rest : Tokens} {as : List α} (a? : Option α) (next : ∀ a ∈ a?, Q rest chunk a) (more : Items Q rest as) :
      Items Q (chunk ++ rest) (a?.toList ++ as)

theorem Items.mem {α : Type} {Q : Tokens → Tokens → α → Prop} {body : Tokens} {as : List α} (h : Items Q body as) :
    ∀ a ∈ as, ∃ rest chunk, Q rest chunk a ∧ ∀ w ∈ chunk.words, w ∈ body.words := by
  induction h with
  | nil => exact nofun
  | @cons chunk rest as a? next more ih =>
      intro a ha
      rcases List.mem_append.1 ha with ha | ha
      · exact ⟨rest, chunk, next a (Option.mem_toList.1 ha), fun w hw => by simp [hw]⟩
      · obtain ⟨rest', chunk', hQ, hwords⟩ := ih a ha
        exact ⟨rest', chunk', hQ, fun w hw => by simp [hwords w hw]⟩

theorem Items.map {α β : Type} {P : Tokens → Tokens → α → Prop} {Q : Tokens → Tokens → β → Prop} {f : α → β}
    (hf : ∀ rest chunk a, P rest chunk a → Q rest chunk (f a)) {body : Tokens} {as : List α} (h : Items P body as) :
    Items Q body (as.map f) := by
  induction h with
  | nil => exact .nil
  | @cons chunk rest as a? next more ih =>
      cases a? with
      | none => exact .cons none nofun ih
      | some a =>
          refine .cons (some (f a)) ?_ ih
          rintro _ ⟨⟩
          exact hf rest chunk a (next a rfl)

theorem Items.mapM {α β : Type} {P : Tokens → Tokens → α → Prop} {Q : Tokens → Tokens → β → Prop} {W : String → Prop}
    {f : α → Except Fault β} (hf : ∀ rest chunk a, chunk.Within W → P rest chunk a → Settles (Q rest chunk) (f a))
    {body : Tokens} {as : List α} (h : Items P body as) (hW : body.Within W) : Settles (Items Q body) (as.mapM f) := by
  induction h with
  | nil => exact .ok .nil
  | @cons chunk rest as a? next more ih =>
      obtain ⟨hchunk, hrest⟩ := Tokens.within_append.1 hW
      cases a? with
      | none =>
          intro bs hbs
          exact .cons none nofun (ih hrest bs hbs)
      | some a =>
          rw [Option.toList, List.singleton_append, List.mapM_cons]
          refine (hf rest chunk a hchunk (next a rfl)).bind fun b hb => (ih hrest).bind fun bs hbs => ?_
          refine .ok (.cons (some b) ?_ hbs)
          rintro c ⟨⟩
          exact hb

theorem eq_of_isEmpty_mark {s r mark : Tokens} (h : Phrase.all [visibility, Phrase.maybeWord "default"] s = some (mark, r))
    (hempty : mark.isEmpty = true) : s = r := by
  obtain ⟨visible, s₁, rest, hvisible, hrest, rfl⟩ := Phrase.of_all_cons h
  obtain ⟨default, s₂, nothing, hdefault, hnil, rfl⟩ := Phrase.of_all_cons hrest
  obtain ⟨rfl, rfl⟩ := Phrase.of_all_nil hnil
  obtain rfl := Phrase.of_maybeWord hdefault
  cases hpub : atWord "pub" s with
  | true =>
      rw [visibility, Phrase.maybe_some hpub] at hvisible
      obtain ⟨pub, s₃, scope, hword, -, rfl⟩ := Phrase.of_all_cons hvisible
      obtain ⟨⟨⟩, e, -, hend⟩ := of_bind hword
      cases hend
      cases hempty
  | false =>
      rw [visibility, Phrase.maybe_none hpub] at hvisible
      cases hvisible
      cases default with
      | nil => rfl
      | _ => cases hempty

/-- An item of a trait gives a method only where nothing stands before it but annotations. -/
theorem of_traitItem {s r written : Tokens} {m? : Option Signature}
    (h : traitItem reader s = some ((m?, written), r)) : ∃ chunk, s = chunk ++ r ∧ ∀ m ∈ m?, m.Of r chunk := by
  cases m? with
  | none =>
      obtain ⟨chunk, hchunk⟩ := Forward.front h
      exact ⟨chunk, hchunk, nofun⟩
  | some m =>
      rw [traitItem, look_bind] at h
      obtain ⟨front, s₁, hfront, hrest⟩ := of_bind h
      obtain ⟨mark, s₂, hmark, hrest⟩ := of_bind hrest
      obtain ⟨marks, hmarks, rfl⟩ := isMarks_annotations hfront
      cases hat : atSignature s₂ with
      | true =>
          rw [look_then hat] at hrest
          obtain ⟨⟨m', signed⟩, e, hmethod, hend⟩ := of_bind hrest
          cases hempty : mark.isEmpty with
          | true =>
              simp only [hempty, if_true] at hend
              cases hend
              obtain rfl := eq_of_isEmpty_mark hmark hempty
              obtain ⟨chunk, hchunk, hof⟩ := of_methodAfter hmarks hmethod
              refine ⟨chunk, hchunk, ?_⟩
              rintro _ ⟨⟩
              exact hof
          | false =>
              simp only [hempty, Bool.false_eq_true, if_false] at hend
              cases hend
      | false =>
          rw [look_else hat] at hrest
          obtain ⟨wording, e, -, hend⟩ := of_bind hrest
          -- an item of another kind gives none
          cases wording with
          | none => cases hend
          | some written' => cases hempty : mark.isEmpty <;> simp only [hempty] at hend <;> cases hend

theorem takes_traitBounds (self : Reader) [NamedReader self] :
    Takes (fun W y => ∀ b ∈ y.1, Bound.Named W b) (traitBounds self) :=
  .skip fun _ => .ite (.bind (.separated (takes_bound self false true)) fun _ => .pure fun _ h => h) (.pure fun _ => nofun)

/-- A method on its own. -/
theorem of_methodDeclaration {ts : Tokens} {m : Signature} (h : methodDeclaration reader ts = some (m, .nil)) :
    m.Of .nil ts := by
  obtain ⟨front, s₁, hfront, hrest⟩ := of_bind h
  obtain ⟨marks, hmarks, rfl⟩ := isMarks_annotations hfront
  obtain ⟨⟨m', written⟩, e, hmethod, hend⟩ := of_bind hrest
  cases hend
  obtain ⟨chunk, hchunk, hof⟩ := of_methodAfter hmarks hmethod
  rw [hchunk, Tokens.append_nil]
  exact hof

/-- The items of a trait, one after the other. -/
theorem items_traitBody {body written : Tokens} {ms : List Signature}
    (h : traitBody reader body = some ((ms, written), .nil)) : Items Signature.Of body ms := by
  obtain ⟨front, s₁, hfront, hrest⟩ := of_bind h
  obtain ⟨items, e, hmany, hend⟩ := of_bind hrest
  cases hend
  obtain ⟨inner, rfl⟩ := Forward.front hfront
  -- what is said about the trait itself is no method
  refine .cons none nofun ?_
  have hsteps := many_steps hmany
  clear h hfront hrest hmany
  generalize hr : Tokens.nil = r at hsteps
  induction hsteps with
  | nil s =>
      subst hr
      exact .nil
  | cons first rest ih =>
      obtain ⟨chunk, rfl, hof⟩ := of_traitItem first
      rw [filterMap_cons_toList]
      exact .cons _ hof (ih hr)

/-- A trait: the names in its bounds stand before its items. -/
theorem of_traitDeclaration {ts : Tokens} {t : TraitExpr} (h : traitDeclaration reader ts = some (t, .nil)) :
    ∃ front body, ts = front ++ .group .brace body .nil ∧ (∀ W, front.Within W → ∀ b ∈ t.bounds, b.Named W) ∧
      Items Signature.Of body t.methods := by
  obtain ⟨marks, s₁, hmarks, hrest⟩ := of_bind h
  obtain ⟨visible, s₂, hvisible, hrest⟩ := of_bind hrest
  obtain ⟨⟨t', written⟩, e, hafter, hend⟩ := of_bind hrest
  cases hend
  obtain ⟨front, s₃, hfront, hrest⟩ := of_bind hafter
  obtain ⟨n, s₄, hname, hrest⟩ := of_bind hrest
  obtain ⟨gs, s₅, hgenerics, hrest⟩ := of_bind hrest
  obtain ⟨⟨bounds, boundTokens⟩, s₆, hbounds, hrest⟩ := of_bind hrest
  obtain ⟨clause, s₇, hclause, hrest⟩ := of_bind hrest
  obtain ⟨⟨methods, items⟩, e, hinside, hend⟩ := of_bind hrest
  cases hend
  obtain ⟨body, rfl, hbody⟩ := of_inside hinside
  obtain ⟨clauseTokens, rfl⟩ := Forward.front hclause
  obtain ⟨boundTokens, rfl, hnamed⟩ := takes_traitBounds reader hbounds
  -- whatever stands before the bounds
  obtain ⟨start, rfl⟩ : ∃ start, ts = start ++ (boundTokens ++ (clauseTokens ++ .group .brace body .nil)) := by
    obtain ⟨genericTokens, rfl⟩ := Forward.front hgenerics
    obtain ⟨nameTokens, rfl⟩ := Forward.front hname
    obtain ⟨frontTokens, rfl⟩ := Forward.front hfront
    obtain ⟨visibleTokens, rfl⟩ := Forward.front hvisible
    obtain ⟨markTokens, rfl⟩ := Forward.front hmarks
    exact ⟨markTokens ++ (visibleTokens ++ (frontTokens ++ (nameTokens ++ genericTokens))), by
      simp only [Tokens.append_assoc]⟩
  refine ⟨start ++ (boundTokens ++ clauseTokens), body, by simp only [Tokens.append_assoc], fun W hW => ?_,
    items_traitBody hbody⟩
  exact hnamed W (Tokens.within_append.1 (Tokens.within_append.1 hW).2).1

end QueryContract.Source
