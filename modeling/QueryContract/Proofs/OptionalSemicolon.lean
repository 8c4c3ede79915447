import Mathlib.Control.Monad.Basic
import QueryContract.Proofs.Appending
import QueryContract.Proofs.BeforeSemicolon
import QueryContract.Source

/-!
# `Proofs.OptionalSemicolon` — methods without the semicolon at their end

The semicolon at the end of a method may be left out: it is added where the text ends neither in a semicolon nor in a
brace. That is a question about characters, and two kinds of texts are taken the wrong way. After a comment up to the end of
the line the semicolon is added to the comment, which does no harm unless the semicolon left out stood on a later line. And
a semicolon or a brace at the end may belong to something else than the method as a whole.

* `SemicolonOptional`           — when the semicolon may be left out;
* `ofSource_without_semicolon`  — then the method is the same, else the text is malformed.
-/

namespace QueryContract

open Source Source.Lexeme Text

namespace Source

/-! ## Tokens of a text -/

/-- A text without the mark of the byte order at its start. -/
def unmarked : List Char → List Char
  | '\ufeff' :: r => r
  | s => s

theorem unmarked_cons {c : Char} (hc : c ≠ '\ufeff') (s : List Char) : unmarked (c :: s) = c :: s := by
  simp [unmarked, hc]

theorem unmarked_append {x : List Char} (hx : Trailer x) (s : List Char) : unmarked (s ++ x) = unmarked s ++ x := by
  cases s with
  | nil =>
      cases x with
      | nil => rfl
      | cons c r => exact unmarked_cons (ne_of_isBreak (hx.isBreak c List.mem_cons_self) _ (by decide)) r
  | cons c s =>
      by_cases hc : c = '\ufeff'
      · subst hc
        rfl
      · rw [List.cons_append, unmarked_cons hc, unmarked_cons hc]
        rfl

theorem ofText?_eq_some_iff {s : List Char} {ts : Tokens} :
    Tokens.ofText? s = some ts ↔ Reads (unmarked s) ts.flatten := by
  have hall : Tokens.ofText? s = (all (unmarked s)).bind fun y => Lexeme.pair y.1 := by
    cases s with
    | nil => rfl
    | cons c s =>
        by_cases hc : c = '\ufeff'
        · subst hc
          rfl
        · rw [unmarked_cons hc, Tokens.ofText?_unmarked (by simpa using hc)]
  rw [hall]
  constructor
  · intro h
    obtain ⟨⟨ls, e⟩, hread, hpair⟩ := Option.bind_eq_some_iff.1 h
    obtain rfl := eq_nil_of_all hread
    rw [← pair_eq_some_iff.1 hpair]
    exact hread
  · intro h
    have hread : all (unmarked s) = some (ts.flatten, []) := h
    rw [hread]
    exact pair_eq_some_iff.2 rfl

theorem flatten_injective {ts ts' : Tokens} (h : ts.flatten = ts'.flatten) : ts = ts' :=
  Option.some.inj ((pair_eq_some_iff.2 rfl).symm.trans (pair_eq_some_iff.2 h))

/-- A text is a method if its tokens are. -/
theorem methodOf?_eq_some_iff {s : List Char} {m : Signature} :
    methodOf? s = some m ↔ ∃ ts, Reads (unmarked s) ts.flatten ∧ Declares ts m := by
  constructor
  · intro h
    obtain ⟨ts, htokens, hm⟩ := parse?_eq_some h
    exact ⟨ts, ofText?_eq_some_iff.1 htokens, hm⟩
  · rintro ⟨ts, hreads, hm⟩
    have hm' : methodDeclaration reader ts = some (m, .nil) := hm
    simp only [methodOf?, parse?, ofText?_eq_some_iff.2 hreads, hm']

/-! ## Lexemes and tokens before a semicolon -/

/-- What the last token before a semicolon knows does not change how the brackets are paired. -/
theorem exists_respaced_of_last {ts : Tokens} {ls : List Lexeme} {c : Char} {joint after : Bool} (joint' : Bool)
    (h : ts.flatten = ls ++ [token (.punct c joint), token (.punct ';' after)]) :
    ∃ ts', ts'.flatten = ls ++ [token (.punct c joint'), token (.punct ';' after)] ∧ Respaced ts ts' := by
  induction ts generalizing ls with
  | nil => exact absurd h (by simp [Tokens.flatten])
  | leaf t rest ih =>
      have hcons : token t :: rest.flatten = ls ++ [token (.punct c joint), token (.punct ';' after)] := h
      cases ls with
      | nil =>
          obtain ⟨ht, hrest⟩ := List.cons.inj hcons
          obtain rfl : t = .punct c joint := Lexeme.token.inj ht
          obtain rfl : rest = .leaf (.punct ';' after) .nil := flatten_injective hrest
          exact ⟨_, rfl, .mark c joint joint' after .nil⟩
      | cons l ls =>
          obtain ⟨hl, hrest⟩ := List.cons.inj hcons
          obtain ⟨rest', hrest', hrespaced⟩ := ih hrest
          refine ⟨.leaf t rest', ?_, .leaf t hrespaced⟩
          rw [Tokens.flatten, hrest', ← hl]
          rfl
  | group d body rest _ ih =>
      have hsplit : (opening d :: (body.flatten ++ [closing d])) ++ rest.flatten =
          ls ++ [token (.punct c joint), token (.punct ';' after)] := by
        rw [← h]
        simp [Tokens.flatten]
      -- the closing bracket is none of the two tokens, so that both stand behind the group
      obtain ⟨more, rfl, hrest⟩ : ∃ more, ls = opening d :: (body.flatten ++ [closing d]) ++ more ∧
          rest.flatten = more ++ [token (.punct c joint), token (.punct ';' after)] := by
        rcases List.append_eq_append_iff.1 hsplit with ⟨more, hls, hrest⟩ | ⟨more, hgroup, htokens⟩
        · exact ⟨more, hls, hrest⟩
        · rcases List.eq_nil_or_concat more with rfl | ⟨more, l, rfl⟩
          · exact ⟨[], by simpa using hgroup.symm, by simpa using htokens.symm⟩
          · rw [List.concat_eq_append] at hgroup htokens
            have hl : l = closing d := by
              rw [← List.cons_append, ← List.append_assoc] at hgroup
              exact (List.append_inj_right' hgroup rfl |> List.cons.inj).1.symm
            have hmem : closing d ∈ [token (.punct c joint), token (.punct ';' after)] := by
              rw [htokens, hl]
              simp
            simp at hmem
      obtain ⟨rest', hrest', hrespaced⟩ := ih hrest
      refine ⟨.group d body rest', ?_, .group d body hrespaced⟩
      simp [Tokens.flatten, hrest']

theorem exists_respaced {ts : Tokens} {ls ls' : List Lexeme} {after : Bool} (h : Relinked ls ls')
    (hts : ts.flatten = ls ++ [token (.punct ';' after)]) :
    ∃ ts', ts'.flatten = ls' ++ [token (.punct ';' after)] ∧ Respaced ts ts' := by
  cases h with
  | refl => exact ⟨ts, hts, .refl ts⟩
  | last ls c joint joint' =>
      rw [List.append_assoc] at hts ⊢
      exact exists_respaced_of_last joint' hts

/-! ## Methods with something behind them -/

/-- A method that other tokens follow is read up to them. -/
theorem Declares.append {ts : Tokens} {m : Signature} (h : Declares ts m) (x : Tokens) :
    methodDeclaration reader (ts ++ x) = some (m, x) := by
  obtain ⟨front, s₁, written, s₂, body, hfront, hsignature, hbody⟩ := h.extended x
  have hmethod : methodAfter reader (s₁ ++ x) = some ((m, written ++ body), x) :=
    (Parser.bind_of_eq hsignature).trans (Parser.bind_of_eq hbody)
  exact (Parser.bind_of_eq hfront).trans (Parser.bind_of_eq hmethod)

/-- Nothing can be added to a method to make another one. -/
theorem Declares.eq_nil_of_append {ts x : Tokens} {m m' : Signature} (h : Declares ts m) (h' : Declares (ts ++ x) m') :
    x = .nil :=
  (Prod.mk.inj (Option.some.inj ((h.append x).symm.trans h'))).2

end Source

/-! ## Blanks and the semicolon -/

/-- The blanks that trimming takes off at the end of a text. -/
def blanksAfter (s : List Char) : List Char := ((s.dropWhile isBlank).reverse.takeWhile isBlank).reverse

theorem trim_append_blanksAfter (s : List Char) : trim s ++ blanksAfter s = s.dropWhile isBlank := by
  rw [trim, blanksAfter, ← List.reverse_append, List.takeWhile_append_dropWhile, List.reverse_reverse]

theorem isBlank_of_mem_blanksAfter {s : List Char} {c : Char} (h : c ∈ blanksAfter s) : isBlank c = true :=
  List.all_eq_true.1 List.all_takeWhile c (List.mem_reverse.1 h)

/-- With its semicolon a text is taken as it is, but for the blanks before it. -/
theorem terminated_semicolon (s : List Char) : terminated (s ++ [';']) = trim s ++ (blanksAfter s ++ [';']) := by
  have hdrop : (s ++ [';']).dropWhile isBlank = s.dropWhile isBlank ++ [';'] := by
    induction s with
    | nil => rfl
    | cons c s ih => cases hc : isBlank c <;> simp [hc, ih]
  have htrim : trim (s ++ [';']) = s.dropWhile isBlank ++ [';'] := by
    have hsemicolon : isBlank ';' = false := by decide
    rw [trim, hdrop, List.reverse_append, List.reverse_singleton, List.singleton_append,
      List.dropWhile_cons_of_neg (by simp [hsemicolon]), List.reverse_cons, List.reverse_reverse]
  rw [terminated, htrim, if_pos (.inl List.getLast?_concat), ← trim_append_blanksAfter, List.append_assoc]

theorem trailer_semicolon {b : List Char} (hb : ∀ c ∈ b, isBlank c = true) : Trailer (b ++ [';']) where
  ne_nil := by simp
  isBreak c hc := by
    rcases List.mem_append.1 hc with hc | hc
    · exact isBreak_of_isSpace (isSpace_of_isBlank (hb c hc))
    · rw [List.mem_singleton.1 hc]
      decide

theorem reads_semicolon {b : List Char} (hb : ∀ c ∈ b, isBlank c = true) :
    Reads (b ++ [';']) [token (.punct ';' false)] :=
  (all_spaces (fun c hc => isSpace_of_isBlank (hb c hc)) _).trans (Reads.nil.punct (by decide) rfl)

/-! ## When it may be left out -/

/-- When the semicolon at the end of a method may be left out. After a comment up to the end of the line it has to stand on
    that line, so that it is no part of the method; else the text must not end in what is taken for the end of the
    method. -/
structure SemicolonOptional (s : List Char) : Prop where
  comment : EndsInComment (unmarked (trim s)) → '\n' ∉ blanksAfter s
  last : ¬ EndsInComment (unmarked (trim s)) → (trim s).getLast? ≠ some ';' ∧ (trim s).getLast? ≠ some '\x7d'

namespace Source

variable {s b : List Char} {m : Signature}

/-- In a comment nothing is added to a method. -/
theorem methodOf?_append_of_comment {w : List Char} (h : EndsInComment (unmarked s)) (hw : Trailer w) (hbreak : '\n' ∉ w) :
    methodOf? (s ++ w) = methodOf? s := by
  refine Option.ext fun m => ?_
  rw [methodOf?_eq_some_iff, methodOf?_eq_some_iff, unmarked_append hw]
  refine exists_congr fun ts => and_congr_left fun hm => ?_
  exact reads_append_iff h hw hbreak hm.closed.getLast?_flatten

/-- A semicolon that is no part of a comment is the last lexeme. -/
theorem exists_reads_semicolon {ls : List Lexeme} (hb : ∀ c ∈ b, isBlank c = true) (hopen : '\n' ∈ b ∨ ¬ EndsInComment s)
    (h : Reads s ls) (hlast : ls.getLast? ≠ some (closing .bracket)) :
    ∃ ls', Relinked ls ls' ∧ Reads (s ++ (b ++ [';'])) (ls' ++ [token (.punct ';' false)]) := by
  have hmore := reads_semicolon hb
  rcases hopen with hbreak | hopen
  · obtain ⟨b₁, b₂, rfl⟩ := List.append_of_mem hbreak
    have hends : EndsLine (b₁ ++ '\n' :: b₂ ++ [';']) :=
      ⟨b₁, b₂ ++ [';'], by simp, fun c hc => isSpace_of_isBlank (hb c (List.mem_append_left _ hc))⟩
    have hall : all (b₁ ++ '\n' :: b₂ ++ [';']) = some ([token (.punct ';' false)], []) := hmore
    refine ⟨ls, .refl ls, ?_⟩
    rw [Reads, all_append hends h hlast, hall]
    rfl
  · exact exists_reads_append (trailer_semicolon hb) hmore hopen h

/-- A method with a semicolon behind it is none. -/
theorem methodOf?_semicolon_eq_none (hb : ∀ c ∈ b, isBlank c = true) (hopen : '\n' ∈ b ∨ ¬ EndsInComment (unmarked s))
    (h : methodOf? s = some m) : methodOf? (s ++ (b ++ [';'])) = none := by
  obtain ⟨ts, hreads, hm⟩ := methodOf?_eq_some_iff.1 h
  cases hmethod : methodOf? (s ++ (b ++ [';'])) with
  | none => rfl
  | some m' =>
      obtain ⟨ts', hreads', hm'⟩ := methodOf?_eq_some_iff.1 hmethod
      rw [unmarked_append (trailer_semicolon hb)] at hreads'
      obtain ⟨ls', hlinked, hsemicolon⟩ := exists_reads_semicolon hb hopen hreads hm.closed.getLast?_flatten
      have hflatten : ts'.flatten = ls' ++ [token (.punct ';' false)] :=
        (Prod.mk.inj (Option.some.inj (hreads'.symm.trans hsemicolon))).1
      -- with other spaces it is the method and a semicolon
      obtain ⟨ts'', hflatten', hrespaced⟩ := exists_respaced hlinked.symm hflatten
      have hts'' : ts'' = ts ++ .leaf (.punct ';' false) .nil := by
        refine flatten_injective ?_
        rw [hflatten', Tokens.flatten_append]
        rfl
      subst hts''
      obtain ⟨m'', hm'', -⟩ := hm'.respaced hrespaced
      exact absurd (hm.eq_nil_of_append hm'') nofun

/-- Blanks before the semicolon make no difference. -/
theorem exists_methodOf?_semicolon {b' : List Char} (hb : ∀ c ∈ b, isBlank c = true) (hb' : ∀ c ∈ b', isBlank c = true)
    (hopen : ¬ EndsInComment (unmarked s)) (h : methodOf? (s ++ (b ++ [';'])) = some m) :
    ∃ m', methodOf? (s ++ (b' ++ [';'])) = some m' ∧ Agree m.declared m'.declared := by
  obtain ⟨ts, hreads, hm⟩ := methodOf?_eq_some_iff.1 h
  rw [unmarked_append (trailer_semicolon hb)] at hreads
  obtain ⟨ls, ls', hlinked, hfront, hflatten⟩ :=
    exists_reads_of_append (trailer_semicolon hb) (reads_semicolon hb) hopen hreads
  obtain ⟨ls'', hlinked', hreads'⟩ := exists_reads_append (trailer_semicolon hb') (reads_semicolon hb') hopen hfront
  obtain ⟨ts', hflatten', hrespaced⟩ := exists_respaced (hlinked.symm.trans hlinked') hflatten
  obtain ⟨m', hm', hagree⟩ := hm.respaced hrespaced
  refine ⟨m', methodOf?_eq_some_iff.2 ⟨ts', ?_, hm'⟩, hagree⟩
  rw [unmarked_append (trailer_semicolon hb'), hflatten']
  exact hreads'

/-- A semicolon that is added in a comment is not read. -/
theorem methodOf?_terminated_of_comment (h : EndsInComment (unmarked (trim s))) :
    methodOf? (terminated s) = methodOf? (trim s) := by
  rw [terminated]
  split
  · rfl
  · exact methodOf?_append_of_comment h (trailer_semicolon (b := []) nofun) (by decide)

/-- Where the semicolon may be left out, the method declares the same without it, -/
theorem exists_methodOf?_terminated (hs : SemicolonOptional s) (h : methodOf? (terminated (s ++ [';'])) = some m) :
    ∃ m', methodOf? (terminated s) = some m' ∧ Agree m.declared m'.declared := by
  rw [terminated_semicolon] at h
  have hblank : ∀ c ∈ blanksAfter s, isBlank c = true := fun _ => isBlank_of_mem_blanksAfter
  by_cases hcomment : EndsInComment (unmarked (trim s))
  · have hbreak : '\n' ∉ blanksAfter s ++ [';'] := by simpa using hs.comment hcomment
    rw [methodOf?_append_of_comment hcomment (trailer_semicolon hblank) hbreak] at h
    exact ⟨m, (methodOf?_terminated_of_comment hcomment).trans h, .refl _⟩
  · obtain ⟨hsemicolon, hbrace⟩ := hs.last hcomment
    have hterminated : terminated s = trim s ++ ([] ++ [';']) := by
      rw [terminated]
      exact if_neg (not_or.2 ⟨hsemicolon, hbrace⟩)
    rw [hterminated]
    exact exists_methodOf?_semicolon hblank nofun hcomment h

/-- and elsewhere there is no method without it. -/
theorem methodOf?_terminated_eq_none (hs : ¬ SemicolonOptional s) (h : methodOf? (terminated (s ++ [';'])) = some m) :
    methodOf? (terminated s) = none := by
  rw [terminated_semicolon] at h
  have hblank : ∀ c ∈ blanksAfter s, isBlank c = true := fun _ => isBlank_of_mem_blanksAfter
  -- in both cases the text counts as it is
  obtain ⟨hopen, hterminated⟩ : ('\n' ∈ blanksAfter s ∨ ¬ EndsInComment (unmarked (trim s))) ∧
      methodOf? (terminated s) = methodOf? (trim s) := by
    by_cases hcomment : EndsInComment (unmarked (trim s))
    · refine ⟨.inl ?_, methodOf?_terminated_of_comment hcomment⟩
      by_cases hbreak : '\n' ∈ blanksAfter s
      · exact hbreak
      · exact absurd ⟨fun _ => hbreak, fun h => absurd hcomment h⟩ hs
    · refine ⟨.inr hcomment, congrArg methodOf? (if_pos ?_)⟩
      by_cases hlast : (trim s).getLast? = some ';' ∨ (trim s).getLast? = some '\x7d'
      · exact hlast
      · exact absurd ⟨fun h => absurd h hcomment, fun _ => not_or.1 hlast⟩ hs
  rw [hterminated]
  cases hmethod : methodOf? (trim s) with
  | none => rfl
  | some m' =>
      rw [methodOf?_semicolon_eq_none hblank hopen hmethod] at h
      cases h

end Source

namespace Method

theorem ofSource_eq_ok_iff {source : String} {m : Method} :
    ofSource source = .ok m ↔ ∃ sig, methodOf? (terminated source.toList) = some sig ∧ sig.declared = .ok m := by
  show (orMalformed (methodOf? (terminated source.toList))).bind Signature.declared = .ok m ↔ _
  cases methodOf? (terminated source.toList) <;> simp [orMalformed, Except.bind]

theorem ofSource_of_methodOf?_eq_none {source : String} (h : methodOf? (terminated source.toList) = none) :
    ofSource source = .error .malformed := by
  show (orMalformed (methodOf? (terminated source.toList))).bind Signature.declared = _
  rw [h]
  rfl

/-- **A method without its semicolon is the same method, or else no method at all:** the semicolon may be left out after a
    comment on the line where it stood, and where the text does not end in a semicolon or in a brace without it. -/
theorem ofSource_without_semicolon {source : String} {m : Method} (h : ofSource (source ++ ";") = .ok m) :
    (ofSource source = .ok m ↔ SemicolonOptional source.toList) ∧
      (¬ SemicolonOptional source.toList → ofSource source = .error .malformed) := by
  obtain ⟨sig, hmethod, hdeclared⟩ := ofSource_eq_ok_iff.1 h
  have hsource : (source ++ ";").toList = source.toList ++ [';'] := by rw [String.toList_append]; rfl
  rw [hsource] at hmethod
  have hmalformed : ¬ SemicolonOptional source.toList → ofSource source = .error .malformed := fun hs =>
    ofSource_of_methodOf?_eq_none (methodOf?_terminated_eq_none hs hmethod)
  refine ⟨⟨fun hok => ?_, fun hs => ?_⟩, hmalformed⟩
  · by_cases hs : SemicolonOptional source.toList
    · exact hs
    · rw [hmalformed hs] at hok
      cases hok
  · obtain ⟨sig', hmethod', hagree⟩ := exists_methodOf?_terminated hs hmethod
    exact ofSource_eq_ok_iff.2 ⟨sig', hmethod', hagree.eq_ok hdeclared⟩

/-- The semicolon may be left out after blanks, -/
theorem semicolonOptional_blank :
    ofSource ("fn find() -> User " ++ ";") = .ok { name := "find", result := .generic "User" [] } ∧
      SemicolonOptional "fn find() -> User ".toList :=
  ⟨by decide +kernel, (ofSource_without_semicolon (m := { name := "find", result := .generic "User" [] })
    (by decide +kernel)).1.1 (by decide +kernel)⟩

/-- but not on a line after a comment, where the method is not found without it. -/
theorem comment_hides_semicolon : ofSource ("fn f() // c\n" ++ ";") = .ok { name := "f" } ∧
    ofSource "fn f() // c\n" = .error .malformed := by
  decide +kernel

end Method

end QueryContract
