import QueryContract.Proofs.Lists
import QueryContract.Proofs.Reading

/-!
# `Proofs.RoundTrip` — methods that are displayed and read again

* `Method.Ordinary`         — the methods that their display says everything about;
* `Ordinary.reads`          — the tokens of a displayed method;
* `methodDeclaration_spelled` — what these tokens are read as;
* `ofSource_displayed`      — the main statement, for types and for methods.
-/

namespace QueryContract

open QueryContract.Parser Source Source.Lexeme Text
open DeclaredType (Follows follows_cons faithful_reader)

/-! ## Ordinary methods -/

/-- A parameter with a name and an ordinary type. -/
structure DeclaredParameter.Ordinary (p : DeclaredParameter) : Prop where
  name : ∃ n, p.name = some n ∧ isIdentifier n = true
  type : p.type.Ordinary

/-- A displayed parameter starts with its name. -/
theorem DeclaredParameter.Ordinary.exists_write_cons {p : DeclaredParameter} (hp : p.Ordinary) :
    ∃ c r, p.write = c :: r ∧ isStart c = true := by
  obtain ⟨n, hname, hn⟩ := hp.name
  obtain ⟨c, r, hchars, hc⟩ := exists_cons_of_isWord (isWord_of_isIdentifier hn)
  refine ⟨c, r ++ ':' :: ' ' :: p.type.write, ?_, hc⟩
  simp only [DeclaredParameter.write, hname, hchars, List.cons_append]

namespace Method

/-- The methods that their display says everything about: without a declaring type, all parameters named, and all types
    ordinary. -/
structure Ordinary (m : Method) : Prop where
  owner : m.owner = none
  name : isIdentifier m.name = true
  parameters : ∀ p ∈ m.parameters, p.Ordinary
  result : m.result.Ordinary

/-! ## Tokens -/

/-- The tokens of a displayed parameter that has a name. -/
def spelledParameter (joint : Bool) (p : DeclaredParameter) : Tokens :=
  .leaf (.word (p.name.getD "")) (.leaf (.punct ':' false) (p.type.spelled joint))

/-- The tokens of displayed parameters. -/
def spelledParameters : List DeclaredParameter → Tokens
  | [] => .nil
  | [p] => spelledParameter false p
  | p :: q :: ps => spelledParameter true p ++ .leaf (.punct ',' false) (spelledParameters (q :: ps))

/-- The tokens after the parameters of a displayed method, with a semicolon at the end. -/
def spelledResult (result : DeclaredType) : Tokens :=
  if result.isUnit then .leaf (.punct ';' false) .nil
  else .leaf (.punct '-' true) (.leaf (.punct '>' false) (result.spelled true ++ .leaf (.punct ';' false) .nil))

/-- The tokens of a displayed method, with the keyword before it and a semicolon after it. -/
def spelled (m : Method) : Tokens :=
  .leaf (.word "fn") (.leaf (.word m.name) (.group .paren (spelledParameters m.parameters) (spelledResult m.result)))

theorem reads_parameter {p : DeclaredParameter} (hp : p.Ordinary) {s : List Char} {ls : List Lexeme} (hs : Follows s)
    (h : Reads s ls) : Reads (p.write ++ s) ((spelledParameter (atPunctuation s) p).flatten ++ ls) := by
  obtain ⟨n, hname, hn⟩ := hp.name
  have htype := (hp.type.legible hs h).space (c := ' ') (by decide)
  have hcolon := htype.punct (c := ':') (by decide) (atPunctuation_of_notMem (by decide))
  have hword := hcolon.word (isWord_of_isIdentifier hn) (endsWord_cons (by decide))
  have hwrite : p.write = n.toList ++ ':' :: ' ' :: p.type.write := by rw [DeclaredParameter.write, hname]
  rw [String.ofList_toList] at hword
  rw [hwrite, spelledParameter, hname, List.append_assoc]
  exact hword

theorem reads_parameters {ps : List DeclaredParameter} (hps : ∀ p ∈ ps, p.Ordinary) {s : List Char} {ls : List Lexeme}
    (h : Reads (')' :: s) ls) :
    Reads (commaSeparated (ps.map DeclaredParameter.write) ++ ')' :: s) ((spelledParameters ps).flatten ++ ls) := by
  induction ps with
  | nil => exact h
  | cons p ps ih =>
      have hp : p.Ordinary := hps p List.mem_cons_self
      cases ps with
      | nil =>
          have hreads := reads_parameter hp (follows_cons (by decide)) h
          rwa [atPunctuation_of_notMem (by decide)] at hreads
      | cons q ps =>
          have hmore := (ih fun x hx => hps x (List.mem_cons_of_mem _ hx)).space (c := ' ') (by decide)
          have hcomma := hmore.punct (c := ',') (by decide) (atPunctuation_of_notMem (by decide))
          have hreads := reads_parameter hp (follows_cons (by decide)) hcomma
          rw [atPunctuation_of_mem (by decide)] at hreads
          simpa [commaSeparated, spelledParameters, Tokens.flatten] using hreads

/-- The displayed characters of a result type with its arrow, if it is not the unit type. -/
def writeResult (result : DeclaredType) : List Char :=
  if result.isUnit then [] else [' ', '-', '>', ' '] ++ result.write

theorem Ordinary.write_eq {m : Method} (hm : m.Ordinary) : m.write = m.name.toList ++ '(' ::
    (commaSeparated (m.parameters.map DeclaredParameter.write) ++ ')' :: writeResult m.result) := by
  simp [write, hm.owner, writeResult]

theorem reads_result {result : DeclaredType} (hresult : result.Ordinary) :
    Reads (writeResult result ++ [';']) (spelledResult result).flatten := by
  have hsemicolon : Reads [';'] [token (.punct ';' false)] := Reads.nil.punct (by decide) rfl
  rw [writeResult, spelledResult]
  split
  · exact hsemicolon
  · have htype := hresult.legible (follows_cons (by decide)) hsemicolon
    have hspace := htype.space (c := ' ') (by decide)
    have hhead := hspace.punct (c := '>') (by decide) (atPunctuation_of_notMem (by decide))
    have harrow := hhead.punct (c := '-') (by decide) (atPunctuation_of_mem (by decide))
    have hreads := harrow.space (c := ' ') (by decide)
    rw [atPunctuation_of_mem (by decide)] at hreads
    simpa [Tokens.flatten] using hreads

/-- **The tokens of a displayed method.** -/
theorem Ordinary.reads {m : Method} (hm : m.Ordinary) :
    Reads ('f' :: 'n' :: ' ' :: (m.write ++ [';'])) m.spelled.flatten := by
  have hclose := (reads_result hm.result).closeParen
  have hparameters := reads_parameters hm.parameters hclose
  -- no comment starts after the opening bracket: a parameter starts with its name
  have hslash : (commaSeparated (m.parameters.map DeclaredParameter.write) ++
      ')' :: (writeResult m.result ++ [';'])).head? ≠ some '/' := by
    cases hps : m.parameters with
    | nil => simp [commaSeparated]
    | cons p ps =>
        obtain ⟨c, r, hwrite, hc⟩ := (hm.parameters p (by simp [hps])).exists_write_cons
        have hne : c ≠ '/' := ne_of_isStart hc (by decide)
        cases ps <;> simp [commaSeparated, hwrite, hne]
  have hname := (hparameters.openParen hslash).word (isWord_of_isIdentifier hm.name) (endsWord_cons (by decide))
  have hword := (hname.space (c := ' ') (by decide)).word (w := ['f', 'n']) (by decide) (endsWord_cons (by decide))
  rw [String.ofList_toList] at hword
  rw [hm.write_eq]
  simpa [spelled, Tokens.flatten] using hword

/-! ## The grammar -/

section

variable {n : String} (hn : isIdentifier n = true) (r : Tokens)

include hn

theorem maybeWord_identifier {w : String} (hw : isIdentifier w = false) :
    Phrase.maybeWord w (.leaf (.word n) r) = some (.nil, .leaf (.word n) r) :=
  Phrase.maybe_none (atWord_identifier hn r hw)

/-- A name before a colon is a pattern that is this name. -/
theorem patternRule_name (self : Reader) : ∃ written, patternRule self (.leaf (.word n) (.leaf (.punct ':' false) r)) =
    some (⟨.name n, written⟩, .leaf (.punct ':' false) r) := by
  have hword : ∀ w, isIdentifier w = false → atWord w (.leaf (.word n) (.leaf (.punct ':' false) r)) = false :=
    fun w hw => atWord_identifier hn _ hw
  have hpath : atPathPattern (.leaf (.word n) (.leaf (.punct ':' false) r)) = false := by
    have hnext : (atSign "::" (.leaf (.punct ':' false) r) || atSign "!" (.leaf (.punct ':' false) r) ||
        atGroup .brace (.leaf (.punct ':' false) r) || atGroup .paren (.leaf (.punct ':' false) r) ||
        atSign ".." (.leaf (.punct ':' false) r)) = false := rfl
    have hkeywords : atWords ["Self", "super", "crate"] (.leaf (.word n) (.leaf (.punct ':' false) r)) = false :=
      atWords_identifier hn _ (by decide)
    simp only [atPathPattern, Tokens.next, hnext, Bool.and_false, atSign_word, hword "self" (by decide), hkeywords]
    rfl
  have hliteral : (atSign "-" (.leaf (.word n) (.leaf (.punct ':' false) r)) ||
      atLiteral (.leaf (.word n) (.leaf (.punct ':' false) r)) ||
      atWord "const" (.leaf (.word n) (.leaf (.punct ':' false) r))) = false := by
    have htrue : n ≠ "true" := ne_of_isIdentifier hn (by decide)
    have hfalse : n ≠ "false" := ne_of_isIdentifier hn (by decide)
    simp [atSign_word, atLiteral, htrue, hfalse, hword "const" (by decide)]
  have hmarks : Phrase.all [Phrase.maybeWord "ref", Phrase.maybeWord "mut"] (.leaf (.word n) (.leaf (.punct ':' false) r)) =
      some (.nil, .leaf (.word n) (.leaf (.punct ':' false) r)) := by
    rw [Phrase.all_cons_none (maybeWord_identifier hn _ (by decide)), Phrase.all_cons_none (maybeWord_identifier hn _ (by decide))]
    rfl
  have hat : atSign "@" (.leaf (.punct ':' false) r) = false := rfl
  -- what is left of the patterns is a name, without `ref` or `mut` before it
  rw [patternRule, look_else hpath, look_else (hword "_" (by decide)), look_else (hword "box" (by decide))]
  refine ⟨.nil ++ .ofWord n ++ .nil, (look_else ?_).trans ((look_then ?_).trans ?_)⟩
  · exact hliteral
  · simp [atName_identifier hn]
  · rw [namePattern, bind_of_eq hmarks, look_else (hword "self" (by decide)), bind_of_eq (name_identifier hn _)]
    exact bind_of_eq (Phrase.maybe_none hat)

/-- No receiver starts with another identifier. -/
theorem receiver_none (self : Reader) : receiver self (.leaf (.word n) r) = none := by
  have hself : Phrase.word "self" (.leaf (.word n) r) = none := by
    have hne : n ≠ "self" := ne_of_isIdentifier hn (by decide)
    rw [Phrase.word, bind_apply, word, if_neg hne]
    rfl
  have hmut := maybeWord_identifier hn r (w := "mut") (by decide)
  have hamp : atSign "&" (.leaf (.word n) r) = false := atSign_word "&" n r
  rw [receiver, Phrase.first_else hamp, Phrase.first_then rfl, Phrase.all_cons_none hmut, Phrase.all, bind_apply, hself]
  rfl

end

/-- A displayed parameter is read as its name and the written form of its type. -/
theorem functionParameter_spelled {p : DeclaredParameter} (hp : p.Ordinary) (joint first : Bool) {rest : Tokens}
    (hrest : EndsType rest) : ∃ written, functionParameter reader first (spelledParameter joint p ++ rest) =
      some ((some ⟨.name (p.name.getD ""), p.type.expr⟩, written), rest) := by
  obtain ⟨n, hname, hn⟩ := hp.name
  have htype : reader (.type true) (p.type.spelled joint ++ rest) = some (p.type.expr, rest) :=
    faithful_reader _ hp.type true joint hrest (Nat.lt_succ_self _)
  have hinput : spelledParameter joint p ++ rest =
      .leaf (.word n) (.leaf (.punct ':' false) (p.type.spelled joint ++ rest)) := by
    rw [spelledParameter, hname]
    rfl
  obtain ⟨written, hpattern⟩ : ∃ written,
      reader .pattern (.leaf (.word n) (.leaf (.punct ':' false) (p.type.spelled joint ++ rest))) =
        some (⟨.name n, written⟩, .leaf (.punct ':' false) (p.type.spelled joint ++ rest)) := by
    rw [reader_eq]
    exact patternRule_name hn _ _
  have hcolon : sign ":" (.leaf (.punct ':' false) (p.type.spelled joint ++ rest)) =
      some ((), p.type.spelled joint ++ rest) := rfl
  have htyped : typedParameter reader (.leaf (.word n) (.leaf (.punct ':' false) (p.type.spelled joint ++ rest))) =
      some ((some ⟨.name n, p.type.expr⟩, written ++ .ofSign ":" ++ p.type.expr.tokens), rest) := by
    rw [typedParameter, look_else (atSign_word "..." n _)]
    refine (look_else ?_).trans ?_
    · rw [Tokens.next, atSign_punct (c := '<') rfl (by decide), Bool.and_false]
    · refine (bind_of_eq hpattern).trans ((bind_of_eq hcolon).trans ?_)
      refine (look_else (hp.type.atSign_spelled "..." joint rest)).trans ?_
      exact bind_of_eq htype
  rw [hinput, hname]
  refine ⟨.nil ++ (written ++ .ofSign ":" ++ p.type.expr.tokens), ?_⟩
  rw [functionParameter, bind_of_eq (annotations_none (atSign_word "#" n _))]
  refine (look_else ?_).trans ?_
  · rw [would, receiver_none hn, Option.isSome_none]
  · exact bind_of_eq htyped

/-- What is declared by a displayed parameter. -/
def parameterExpr (p : DeclaredParameter) : ParameterExpr := ⟨.name (p.name.getD ""), p.type.expr⟩

theorem isEmpty_spelledParameters (p : DeclaredParameter) (ps : List DeclaredParameter) :
    (spelledParameters (p :: ps)).isEmpty = false := by
  cases ps <;> rfl

/-- Displayed parameters in a row. -/
theorem separated_spelled {p : DeclaredParameter} {ps : List DeclaredParameter} (hps : ∀ q ∈ p :: ps, q.Ordinary) :
    ∃ x xs, Parser.separated Tokens.isEmpty (sign ",") (functionParameter reader false) (spelledParameters (p :: ps)) =
        some ((x :: xs, false), .nil) ∧
      (x :: xs).filterMap (·.1) = (p :: ps).map parameterExpr := by
  have hp : p.Ordinary := hps p List.mem_cons_self
  have hstart := isEmpty_spelledParameters p ps
  induction ps generalizing p with
  | nil =>
      have hends : EndsType .nil := trivial
      obtain ⟨written, hitem⟩ := functionParameter_spelled hp false false hends
      rw [Tokens.append_nil] at hitem
      exact ⟨_, [], separated_last hstart hitem rfl, rfl⟩
  | cons q ps ih =>
      have hends : EndsType (.leaf (.punct ',' false) (spelledParameters (q :: ps))) := by simp [EndsType]
      obtain ⟨written, hitem⟩ := functionParameter_spelled hp true false hends
      have hq : q.Ordinary := hps q (by simp)
      obtain ⟨y, ys, hmore, hys⟩ := ih (fun x hx => hps x (List.mem_cons_of_mem _ hx)) hq (isEmpty_spelledParameters q ps)
      have hlt : (spelledParameters (q :: ps)).size <
          (spelledParameter true p ++ .leaf (.punct ',' false) (spelledParameters (q :: ps))).size := by
        rw [Tokens.size_append, Tokens.size]
        omega
      refine ⟨_, _, separated_again hstart hitem rfl rfl hlt hmore, ?_⟩
      rw [List.map_cons, ← hys]
      rfl

/-- The parameters of a displayed method. -/
theorem functionParameters_spelled {ps : List DeclaredParameter} (hps : ∀ p ∈ ps, p.Ordinary) :
    ∃ written, functionParameters reader (spelledParameters ps) = some ((ps.map parameterExpr, written), .nil) := by
  cases ps with
  | nil => exact ⟨.nil, rfl⟩
  | cons p ps =>
      have hp : p.Ordinary := hps p List.mem_cons_self
      have hstart := isEmpty_spelledParameters p ps
      cases ps with
      | nil =>
          have hends : EndsType .nil := trivial
          obtain ⟨written, hfirst⟩ := functionParameter_spelled hp false true hends
          rw [Tokens.append_nil] at hfirst
          refine ⟨.separated (.ofSign ",") false [written], ?_⟩
          rw [functionParameters, look_else hstart]
          exact (bind_of_eq hfirst).trans rfl
      | cons q ps =>
          have hends : EndsType (.leaf (.punct ',' false) (spelledParameters (q :: ps))) := by simp [EndsType]
          obtain ⟨written, hfirst⟩ := functionParameter_spelled hp true true hends
          obtain ⟨y, ys, hmore, hys⟩ := separated_spelled fun x hx => hps x (List.mem_cons_of_mem _ hx)
          have hcomma : sign "," (.leaf (.punct ',' false) (spelledParameters (q :: ps))) =
              some ((), spelledParameters (q :: ps)) := rfl
          apply Exists.intro
          rw [functionParameters, look_else hstart]
          refine (bind_of_eq hfirst).trans ?_
          refine (look_else rfl).trans ?_
          refine (bind_of_eq hcomma).trans ?_
          refine (bind_of_eq hmore).trans ?_
          rw [List.map_cons, ← hys]
          rfl

/-- The written form of a displayed method. -/
def signatureExpr (m : Method) : Signature :=
  ⟨m.name, false, m.parameters.map parameterExpr, if m.result.isUnit then none else some m.result.expr⟩

/-- The result type of a displayed method. -/
theorem result?_spelled {t : DeclaredType} (ht : t.Ordinary) : result? reader true (spelledResult t) =
    some (if t.isUnit then none else some t.expr, .leaf (.punct ';' false) .nil) := by
  rw [spelledResult]
  split
  · rfl
  · have hends : EndsType (.leaf (.punct ';' false) .nil) := by simp [EndsType]
    have htype : reader (.type true) (t.spelled true ++ .leaf (.punct ';' false) .nil) =
        some (t.expr, .leaf (.punct ';' false) .nil) := faithful_reader _ ht true true hends (Nat.lt_succ_self _)
    have harrow : takeSign "->" (.leaf (.punct '-' true) (.leaf (.punct '>' false)
        (t.spelled true ++ .leaf (.punct ';' false) .nil))) =
          some (true, t.spelled true ++ .leaf (.punct ';' false) .nil) := rfl
    exact (bind_of_eq harrow).trans (bind_of_eq htype)

/-- The signature of a displayed method, up to the semicolon. -/
theorem signature_spelled {m : Method} (hm : m.Ordinary) :
    ∃ written, signature reader m.spelled = some ((m.signatureExpr, written), .leaf (.punct ';' false) .nil) := by
  obtain ⟨written, hparameters⟩ := functionParameters_spelled hm.parameters
  have hword : ∀ w, ("fn" == w) = false → Phrase.maybeWord w m.spelled = some (.nil, m.spelled) := fun w hw => Phrase.maybe_none hw
  have habi : convention m.spelled = some (.nil, m.spelled) := Phrase.maybe_none rfl
  have hfn : word "fn" m.spelled =
      some ((), .leaf (.word m.name) (.group .paren (spelledParameters m.parameters) (spelledResult m.result))) := rfl
  have hgenerics : generics reader (.group .paren (spelledParameters m.parameters) (spelledResult m.result)) =
      some (.none, .group .paren (spelledParameters m.parameters) (spelledResult m.result)) := look_else rfl
  have hinside : inside .paren (functionParameters reader)
      (.group .paren (spelledParameters m.parameters) (spelledResult m.result)) =
        some ((m.parameters.map parameterExpr, written), spelledResult m.result) := by
    simp only [inside, if_true, hparameters]
  have hconditions : conditions reader (.leaf (.punct ';' false) .nil) = some (.nil, .leaf (.punct ';' false) .nil) := rfl
  apply Exists.intro
  rw [signature, bind_of_eq (hword "const" rfl), bind_of_eq (hword "async" rfl), bind_of_eq (hword "unsafe" rfl),
    bind_of_eq habi, bind_of_eq hfn, bind_of_eq (name_identifier hm.name _), bind_of_eq hgenerics]
  refine (bind_of_eq hinside).trans ?_
  refine (bind_of_eq (result?_spelled hm.result)).trans ?_
  exact bind_of_eq hconditions

/-- **The tokens of a displayed method are read as its written form.** -/
theorem methodDeclaration_spelled {m : Method} (hm : m.Ordinary) :
    methodDeclaration reader m.spelled = some (m.signatureExpr, .nil) := by
  obtain ⟨written, hsignature⟩ := signature_spelled hm
  have hbody : bodyOrNone reader (.leaf (.punct ';' false) .nil) = some (.ofSign ";", .nil) := rfl
  have hmethod : methodAfter reader m.spelled = some ((m.signatureExpr, written ++ .ofSign ";"), .nil) := by
    rw [methodAfter, bind_of_eq hsignature]
    exact bind_of_eq hbody
  rw [methodDeclaration, bind_of_eq (annotations_none rfl), bind_of_eq hmethod]
  rfl

/-! ## Reading a method -/

/-- The only ordinary type that counts as the unit type is the unit type. -/
theorem eq_unit_of_isUnit {t : DeclaredType} (ht : t.Ordinary) (h : t.isUnit = true) : t = .unit := by
  cases ht with
  | array ordinary =>
      have hname : (simpleNameOf [arrayName] == unitName) = false := by decide
      exact absurd h (by simp [DeclaredType.isUnit, DeclaredType.array, hname])
  | unit => rfl
  | path hne hid kept ordinary =>
      have hlast := DeclaredType.isIdentifier_simpleNameOf hne hid
      exact absurd (by simpa [DeclaredType.isUnit] using h) (ne_of_isIdentifier hlast (w := unitName) (by decide))

theorem declared_parameterExpr (method : String) {p : DeclaredParameter} (hp : p.Ordinary) :
    (parameterExpr p).declared method = .ok p := by
  obtain ⟨n, hname, hn⟩ := hp.name
  have htype : (parameterExpr p).type.declared = .ok p.type := hp.type.declared_expr
  have hp' : (⟨some n, p.type⟩ : DeclaredParameter) = p := by rw [← hname]
  rw [ParameterExpr.declared, htype]
  simp only [parameterExpr, hname, Option.getD_some]
  exact congrArg Except.ok hp'

theorem declared_parameters (method : String) {ps : List DeclaredParameter} (hps : ∀ p ∈ ps, p.Ordinary) :
    (ps.map parameterExpr).mapM (ParameterExpr.declared method) = .ok ps := by
  apply mapM_of_ok
  rw [List.map_map]
  exact List.map_congr_left fun p hp => declared_parameterExpr method (hps p hp)

theorem declaredResult_signatureExpr {m : Method} (hm : m.Ordinary) :
    m.signatureExpr.declaredResult = .ok m.result := by
  rw [Signature.declaredResult, signatureExpr]
  cases hunit : m.result.isUnit with
  | true => rw [eq_unit_of_isUnit hm.result hunit]; rfl
  | false =>
      simp only [Bool.false_eq_true, if_false, hm.result.declared_expr]
      rfl

/-- **The written form of a displayed method declares the method again.** -/
theorem Ordinary.declared_signatureExpr {m : Method} (hm : m.Ordinary) : m.signatureExpr.declared = .ok m := by
  have hparameters : m.signatureExpr.parameters.mapM (ParameterExpr.declared m.signatureExpr.name) = .ok m.parameters :=
    declared_parameters m.name hm.parameters
  have hm' : { name := m.name, parameters := m.parameters, result := m.result : Method } = m := by
    rw [← hm.owner]
  rw [Signature.declared, hparameters, declaredResult_signatureExpr hm]
  exact congrArg Except.ok hm'

/-- What a displayed method ends with. -/
theorem Ordinary.getLast?_write {m : Method} (hm : m.Ordinary) :
    ∀ c ∈ m.write.getLast?, isContinue c = true ∨ c ∈ [':', ']', ')', '>'] := by
  have hsplit : m.write = m.name.toList ++ '(' :: commaSeparated (m.parameters.map DeclaredParameter.write) ++ [')'] ++
      writeResult m.result := by simp [hm.write_eq]
  rw [hsplit, writeResult]
  split
  · rw [List.append_nil, List.getLast?_concat]
    simp
  · obtain ⟨d, r, hwrite, hd⟩ := hm.result.exists_write_cons
    have hlast : m.result.write.getLast? = some ((d :: r).getLast (List.cons_ne_nil d r)) := by
      rw [hwrite, List.getLast?_eq_some_getLast]
    have hresult := hm.result.getLast?_write
    rw [← List.append_assoc, List.getLast?_append, hlast, Option.some_or]
    rwa [hlast] at hresult

/-- A displayed method needs a semicolon, and there are no blanks around it. -/
theorem Ordinary.terminated_write {m : Method} (hm : m.Ordinary) :
    terminated ('f' :: 'n' :: ' ' :: m.write) = 'f' :: 'n' :: ' ' :: (m.write ++ [';']) := by
  have hne : m.write ≠ [] := by simp [hm.write_eq]
  have hlast : ('f' :: 'n' :: ' ' :: m.write).getLast? = m.write.getLast? := by
    obtain ⟨c, r, hwrite⟩ := List.exists_cons_of_ne_nil hne
    simp [hwrite]
  have htrim : trim ('f' :: 'n' :: ' ' :: m.write) = 'f' :: 'n' :: ' ' :: m.write := by
    refine trim_of_ends (by simp; decide) fun c hc => ?_
    rw [hlast] at hc
    rcases hm.getLast?_write c hc with hc | hc
    · exact DeclaredType.isBlank_of_isContinue hc
    · have hall : ∀ d ∈ [':', ']', ')', '>'], isBlank d = false := by decide
      exact hall c hc
  -- the last character is that of a name or a bracket other than a brace
  have hends : ∀ c, c ∈ [';', '\x7d'] → m.write.getLast? ≠ some c := by
    intro c hc hwrite
    rcases hm.getLast?_write c hwrite with hcontinue | hmem
    · have hall : ∀ c ∈ [';', '\x7d'], isContinue c = false := by decide
      simp [hall c hc] at hcontinue
    · have hall : ∀ c ∈ [';', '\x7d'], c ∉ [':', ']', ')', '>'] := by decide
      exact hall c hc hmem
  rw [terminated, htrim, hlast, if_neg]
  · rfl
  · rintro (h | h)
    · exact hends ';' (by decide) h
    · exact hends '\x7d' (by decide) h

/-- **An ordinary method that is displayed and read again is the same method.** -/
theorem Ordinary.ofSource_text {m : Method} (hm : m.Ordinary) : ofSource ("fn " ++ m.text) = .ok m := by
  have hchars : ("fn " ++ m.text).toList = 'f' :: 'n' :: ' ' :: m.write := by
    have htext : m.text.toList = m.write := String.toList_ofList
    rw [String.toList_append, htext]
    rfl
  have hmethod : methodOf? ('f' :: 'n' :: ' ' :: (m.write ++ [';'])) = some m.signatureExpr :=
    parse?_of_reads hm.reads (by simp) (methodDeclaration_spelled hm)
  rw [ofSource, hchars, hm.terminated_write, hmethod]
  exact hm.declared_signatureExpr

end Method

/-! ## The main statement -/

/-- **What is displayed and read again is the same,** for every ordinary type, and, with the keyword before it, for every
    ordinary method. -/
theorem ofSource_displayed :
    (∀ t : DeclaredType, t.Ordinary → DeclaredType.ofSource t.text = .ok t) ∧
      ∀ m : Method, m.Ordinary → Method.ofSource ("fn " ++ m.text) = .ok m :=
  ⟨fun _ ht => ht.ofSource_text, fun _ hm => hm.ofSource_text⟩

/-- The type `std::vec::Vec<[Vec<()>]>`. -/
def nestedList : DeclaredType := .mk ["std", "vec", "Vec"] [.array (.mk ["Vec"] [.unit])]

/-- The method `find_all(ids: std::vec::Vec<[Vec<()>]>, page: Pageable) -> Page<User>`. -/
def findAllByIds : Method :=
  { name := "find_all"
    parameters := [⟨some "ids", nestedList⟩, ⟨some "page", .mk ["Pageable"] []⟩]
    result := .mk ["Page"] [.mk ["User"] []] }

theorem nestedList_ordinary : nestedList.Ordinary := by
  have hinner : DeclaredType.Ordinary (.mk ["Vec"] [.unit]) := by
    refine .path (by decide) (by decide) (by decide) fun a ha => ?_
    obtain rfl := List.mem_singleton.1 ha
    exact .unit
  refine .path (by decide) (by decide) (by decide) fun a ha => ?_
  obtain rfl := List.mem_singleton.1 ha
  exact .array hinner

theorem findAllByIds_ordinary : findAllByIds.Ordinary := by
  have hraw : ∀ n, isIdentifier n = true → n ∉ transparent → DeclaredType.Ordinary (.mk [n] []) := by
    intro n hn hkept
    exact .path (by simp) (by simpa using hn) hkept nofun
  refine ⟨rfl, by decide, ?_, ?_⟩
  · intro p hp
    rcases List.mem_cons.1 hp with rfl | hp
    · exact ⟨⟨"ids", rfl, by decide⟩, nestedList_ordinary⟩
    · obtain rfl := List.mem_singleton.1 hp
      exact ⟨⟨"page", rfl, by decide⟩, hraw "Pageable" (by decide) (by decide)⟩
  · refine .path (by decide) (by decide) (by decide) fun a ha => ?_
    obtain rfl := List.mem_singleton.1 ha
    exact hraw "User" (by decide) (by decide)

/-- A type and a method that are nested a few levels deep. -/
theorem ofSource_displayed_findAllByIds :
    DeclaredType.ofSource nestedList.text = .ok nestedList ∧
      Method.ofSource ("fn " ++ findAllByIds.text) = .ok findAllByIds :=
  ⟨ofSource_displayed.1 nestedList nestedList_ordinary, ofSource_displayed.2 findAllByIds findAllByIds_ordinary⟩

end QueryContract
