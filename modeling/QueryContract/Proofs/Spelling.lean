import QueryContract.Proofs.Lexing
import QueryContract.Source

/-!
# `Proofs.Spelling` — ordinary types, their tokens and their written forms

The types that a displayed text says everything about. For each of them the tokens of its display are given, and the
written form that these tokens have; both follow the display clause by clause.

* `isIdentifier`, `Ordinary`       — the names and the types in question;
* `spelled`, `Ordinary.reads`      — the tokens of a displayed type;
* `expr`, `Ordinary.declared_expr` — its written form, which declares the type again.
-/

namespace QueryContract

open QueryContract.Parser Source Source.Lexeme Text

/-! ## Ordinary types -/

/-- An identifier that is no keyword; neither the low line nor a raw identifier is one. -/
def isIdentifier (n : String) : Bool := isWord n.toList && !reserved.contains n

theorem isWord_of_isIdentifier {n : String} (h : isIdentifier n = true) : isWord n.toList = true := by
  simp only [isIdentifier, Bool.and_eq_true] at h
  exact h.1

theorem ne_of_isIdentifier {n w : String} (h : isIdentifier n = true) (hw : isIdentifier w = false) : n ≠ w := by
  rintro rfl
  simp [hw] at h

namespace DeclaredType

/-- The types that their display says everything about: arrays, the unit type, and paths of identifiers with such types
    as arguments. The name of a type that counts as its argument is no last segment. -/
inductive Ordinary : DeclaredType → Prop where
  | array {element : DeclaredType} (ordinary : Ordinary element) : Ordinary (.array element)
  | unit : Ordinary .unit
  | path {names : List String} {args : List DeclaredType} (nonempty : names ≠ [])
      (identifiers : ∀ n ∈ names, isIdentifier n = true) (kept : simpleNameOf names ∉ transparent)
      (ordinary : ∀ a ∈ args, Ordinary a) : Ordinary (.mk names args)

/-- The simple name is a segment of the path. -/
theorem simpleNameOf_mem {names : List String} (hne : names ≠ []) : simpleNameOf names ∈ names := by
  rw [simpleNameOf, List.getLast?_eq_some_getLast hne, Option.getD_some]
  exact List.getLast_mem hne

/-- The last segment of a path of identifiers is none of the two pseudo-names. -/
theorem isIdentifier_simpleNameOf {names : List String} (hne : names ≠ [])
    (hid : ∀ n ∈ names, isIdentifier n = true) : isIdentifier (simpleNameOf names) = true :=
  hid _ (simpleNameOf_mem hne)

/-! ## Tokens -/

/-- The tokens of a displayed path. -/
def spelledPath : List String → Tokens
  | [] => .nil
  | [n] => .leaf (.word n) .nil
  | n :: ns => .leaf (.word n) (.leaf (.punct ':' true) (.leaf (.punct ':' false) (spelledPath ns)))

mutual

/-- The tokens of a displayed type; `joint` says that a punctuation character follows it directly. -/
def spelled (joint : Bool) : DeclaredType → Tokens
  | mk names args =>
    if simpleNameOf names = arrayName then
      match args with
      | [] => .group .bracket .nil .nil
      | element :: _ => .group .bracket (element.spelled false) .nil
    else if simpleNameOf names = unitName then .group .paren .nil .nil
    else spelledPath names ++ spelledArgs joint args

/-- The tokens of arguments in angle brackets, if there are any. -/
def spelledArgs (joint : Bool) : List DeclaredType → Tokens
  | [] => .nil
  | first :: more => .leaf (.punct '<' false) (first.spelled true ++ spelledMore joint more)

/-- The tokens after the first argument. -/
def spelledMore (joint : Bool) : List DeclaredType → Tokens
  | [] => .leaf (.punct '>' joint) .nil
  | next :: more => .leaf (.punct ',' false) (next.spelled true ++ spelledMore joint more)

end

/-- The displayed characters of arguments in angle brackets, if there are any. -/
def writeArgs : List DeclaredType → List Char
  | [] => []
  | first :: more => '<' :: first.write ++ writeMore more ++ ['>']

theorem spelled_array (joint : Bool) (element : DeclaredType) :
    spelled joint (.array element) = .group .bracket (element.spelled false) .nil := rfl

theorem write_array (element : DeclaredType) : (array element).write = '[' :: element.write ++ [']'] := rfl

theorem write_unit : unit.write = ['(', ')'] := rfl

/-- All other types are displayed by their path and their arguments. -/
theorem write_of_ne_array {names : List String} {args : List DeclaredType} (h : simpleNameOf names ≠ arrayName) :
    (mk names args).write = join (names.map String.toList) ++ writeArgs args := by
  cases args <;> rw [write, if_neg h] <;> rfl

section

variable {names : List String} {args : List DeclaredType} (hne : names ≠ [])
  (hid : ∀ n ∈ names, isIdentifier n = true)

include hne hid

theorem spelled_path (joint : Bool) : spelled joint (mk names args) = spelledPath names ++ spelledArgs joint args := by
  have hlast := isIdentifier_simpleNameOf hne hid
  have harray : simpleNameOf names ≠ arrayName := ne_of_isIdentifier hlast (by decide)
  have hunit : simpleNameOf names ≠ unitName := ne_of_isIdentifier hlast (by decide)
  cases args <;> rw [spelled, if_neg harray, if_neg hunit]

theorem write_path : (mk names args).write = join (names.map String.toList) ++ writeArgs args :=
  write_of_ne_array (ne_of_isIdentifier (isIdentifier_simpleNameOf hne hid) (by decide))

end

/-- What may follow a displayed type. -/
def Follows (s : List Char) : Prop := ∀ c ∈ s.head?, c ∈ [',', '>', ']', ')', ';']

theorem follows_cons {c : Char} {s : List Char} (h : c ∈ [',', '>', ']', ')', ';']) : Follows (c :: s) := by
  intro d hd
  obtain rfl : c = d := by simpa using hd
  exact h

theorem Follows.endsWord {s : List Char} (h : Follows s) : EndsWord s := by
  have hall : ∀ c ∈ [',', '>', ']', ')', ';'], isContinue c = false ∧ c ∉ ['"', '\'', '#'] := by decide
  exact fun c hc => hall c (h c hc)

/-- A path of identifiers starts with a letter or a low line. -/
theorem exists_join_cons {names : List String} (hne : names ≠ []) (hid : ∀ n ∈ names, isIdentifier n = true) :
    ∃ c r, join (names.map String.toList) = c :: r ∧ isStart c = true := by
  cases names with
  | nil => exact absurd rfl hne
  | cons n ns =>
      have hn : isWord n.toList = true := isWord_of_isIdentifier (hid n List.mem_cons_self)
      obtain ⟨c, r, hchars, hc⟩ := exists_cons_of_isWord hn
      cases ns with
      | nil => exact ⟨c, r, by simp [join, hchars], hc⟩
      | cons m ms => exact ⟨c, _, by rw [List.map_cons, join_cons (by simp), hchars, List.cons_append], hc⟩

theorem reads_path {names : List String} (hne : names ≠ []) (hid : ∀ n ∈ names, isIdentifier n = true) {s : List Char}
    {ls : List Lexeme} (hs : EndsWord s) (h : Reads s ls) :
    Reads (join (names.map String.toList) ++ s) ((spelledPath names).flatten ++ ls) := by
  induction names with
  | nil => exact absurd rfl hne
  | cons n ns ih =>
      have hn : isWord n.toList = true := isWord_of_isIdentifier (hid n List.mem_cons_self)
      cases ns with
      | nil => simpa [join, spelledPath, Tokens.flatten] using h.word hn hs
      | cons m ms =>
          have hms : ∀ x ∈ m :: ms, isIdentifier x = true := fun x hx => hid x (List.mem_cons_of_mem _ hx)
          have hmore := ih (List.cons_ne_nil m ms) hms
          obtain ⟨c, r, hjoin, hc⟩ := exists_join_cons (List.cons_ne_nil m ms) hms
          have hjoint : atPunctuation (join ((m :: ms).map String.toList) ++ s) = false := by
            rw [hjoin]
            exact atPunctuation_of_isStart hc
          have hcolon := hmore.punct (c := ':') (by decide) hjoint
          have hcolons := hcolon.punct (c := ':') (by decide) (atPunctuation_of_mem (by decide))
          have hword := hcolons.word hn (endsWord_cons (by decide))
          rw [String.ofList_toList] at hword
          rw [List.map_cons, join_cons (by simp), List.append_assoc]
          exact hword

/-- A displayed type starts with an identifier or with a bracket. -/
theorem Ordinary.exists_write_cons {t : DeclaredType} (ht : t.Ordinary) :
    ∃ c r, t.write = c :: r ∧ (isStart c = true ∨ c ∈ ['[', '(']) := by
  cases ht with
  | @array element ordinary => exact ⟨'[', element.write ++ [']'], write_array element, .inr (by decide)⟩
  | unit => exact ⟨'(', [')'], write_unit, .inr (by decide)⟩
  | path hne hid kept ordinary =>
      obtain ⟨c, r, hjoin, hc⟩ := exists_join_cons hne hid
      rw [write_path hne hid, hjoin]
      exact ⟨c, _, rfl, .inl hc⟩

/-- What a displayed type ends with. -/
theorem Ordinary.getLast?_write {t : DeclaredType} (ht : t.Ordinary) :
    ∀ c ∈ t.write.getLast?, isContinue c = true ∨ c ∈ [':', ']', ')', '>'] := by
  cases ht with
  | @array element ordinary =>
      rw [write_array, List.getLast?_concat]
      simp
  | unit => simp [write_unit]
  | @path names args hne hid kept ordinary =>
      rw [write_path hne hid]
      cases args with
      | nil =>
          rw [writeArgs, List.append_nil]
          intro c hc
          obtain rfl | ⟨w, hw, hc⟩ := mem_join (List.mem_of_getLast? hc)
          · exact .inr (by decide)
          · obtain ⟨n, hn, rfl⟩ := List.mem_map.1 hw
            exact .inl (isContinue_of_mem_isWord (isWord_of_isIdentifier (hid n hn)) c hc)
      | cons first more =>
          rw [writeArgs, ← List.append_assoc, List.getLast?_concat]
          simp

theorem Ordinary.atPunctuation_write {t : DeclaredType} (ht : t.Ordinary) (s : List Char) :
    atPunctuation (t.write ++ s) = false := by
  obtain ⟨c, r, hwrite, hc⟩ := ht.exists_write_cons
  rw [hwrite, List.cons_append]
  rcases hc with hc | hc
  · exact atPunctuation_of_isStart hc
  · have hall : ∀ d ∈ ['[', '('], d ∉ punctuation := by decide
    exact atPunctuation_of_notMem (hall c hc)

/-- What reading the displayed type as tokens comes to, whatever may follow it. -/
def Legible (t : DeclaredType) : Prop :=
  ∀ ⦃s ls⦄, Follows s → Reads s ls → Reads (t.write ++ s) ((t.spelled (atPunctuation s)).flatten ++ ls)

section

variable {s : List Char} {ls : List Lexeme} (h : Reads s ls)

include h

theorem reads_more {more : List DeclaredType} (legible : ∀ a ∈ more, Legible a) :
    Reads (writeMore more ++ '>' :: s) ((spelledMore (atPunctuation s) more).flatten ++ ls) := by
  induction more with
  | nil => exact h.punct (by decide) rfl
  | cons a more ih =>
      have hmore := ih fun x hx => legible x (List.mem_cons_of_mem _ hx)
      -- a comma or the closing bracket follows the argument directly
      have hfollows : Follows (writeMore more ++ '>' :: s) := by
        cases more <;> exact follows_cons (by decide)
      have hjoint : atPunctuation (writeMore more ++ '>' :: s) = true := by
        cases more <;> exact atPunctuation_of_mem (by decide)
      have ha := legible a List.mem_cons_self hfollows hmore
      have hcomma := (ha.space (c := ' ') (by decide)).punct (c := ',') (by decide) (atPunctuation_of_notMem (by decide))
      simpa [writeMore, spelledMore, Tokens.flatten, hjoint] using hcomma

theorem reads_args {args : List DeclaredType} (legible : ∀ a ∈ args, Legible a) (ordinary : ∀ a ∈ args, Ordinary a)
    (hs : EndsWord s) : EndsWord (writeArgs args ++ s) ∧
      Reads (writeArgs args ++ s) ((spelledArgs (atPunctuation s) args).flatten ++ ls) := by
  cases args with
  | nil => exact ⟨hs, h⟩
  | cons a more =>
      refine ⟨endsWord_cons (by decide), ?_⟩
      have hmore := reads_more h fun x hx => legible x (List.mem_cons_of_mem _ hx)
      have hfollows : Follows (writeMore more ++ '>' :: s) := by
        cases more <;> exact follows_cons (by decide)
      have hjoint : atPunctuation (writeMore more ++ '>' :: s) = true := by
        cases more <;> exact atPunctuation_of_mem (by decide)
      have ha := legible a List.mem_cons_self hfollows hmore
      have hopen := ha.punct (c := '<') (by decide) ((ordinary a List.mem_cons_self).atPunctuation_write _)
      simpa [writeArgs, spelledArgs, Tokens.flatten, hjoint] using hopen

end

/-- **The tokens of a displayed type.** -/
theorem Ordinary.legible {t : DeclaredType} (ht : t.Ordinary) : Legible t := by
  induction ht with
  | @array element ordinary ih =>
      intro s ls hs h
      have helement := (ih (follows_cons (by decide)) h.closeBracket).openBracket
      rw [write_array, List.append_assoc, spelled_array]
      simpa [Tokens.flatten, atPunctuation_of_notMem (c := ']') (by decide)] using helement
  | unit =>
      intro s ls hs h
      have hclosing : Reads (')' :: s) (closing .paren :: ls) := h.closeParen
      rw [write_unit]
      exact hclosing.openParen (by simp)
  | @path names args hne hid kept ordinary ih =>
      intro s ls hs h
      obtain ⟨hends, hargs⟩ := reads_args h ih ordinary hs.endsWord
      rw [write_path hne hid, spelled_path hne hid, List.append_assoc, Tokens.flatten_append, List.append_assoc]
      exact reads_path hne hid hends hargs

/-! ## Written forms -/

/-- The segments of a path of which the last one has the given arguments. -/
def pathSegments (arguments : Arguments) : List String → List Segment
  | [] => []
  | [n] => [.mk n arguments]
  | n :: m :: ns => .mk n .none :: pathSegments arguments (m :: ns)

mutual

/-- The written form of a displayed type. -/
def expr : DeclaredType → TypeExpr
  | mk names args =>
    if simpleNameOf names = arrayName then
      match args with
      | [] => default
      | element :: _ => .slice element.expr
    else if simpleNameOf names = unitName then .tuple [] false
    else .path false (pathSegments (argumentsExpr args) names)

/-- The written form of arguments, which may be absent. -/
def argumentsExpr : List DeclaredType → Arguments
  | [] => .none
  | first :: more => .angle false (.type first.expr :: moreExpr more) false

/-- The written form of the arguments after the first. -/
def moreExpr : List DeclaredType → List Argument
  | [] => []
  | next :: more => .type next.expr :: moreExpr more

end

theorem expr_path {names : List String} {args : List DeclaredType} (hne : names ≠ [])
    (hid : ∀ n ∈ names, isIdentifier n = true) :
    (mk names args).expr = .path false (pathSegments (argumentsExpr args) names) := by
  have hlast := isIdentifier_simpleNameOf hne hid
  have harray : simpleNameOf names ≠ arrayName := ne_of_isIdentifier hlast (by decide)
  have hunit : simpleNameOf names ≠ unitName := ne_of_isIdentifier hlast (by decide)
  cases args <;> rw [expr, if_neg harray, if_neg hunit]

theorem name_pathSegments (arguments : Arguments) (names : List String) :
    (pathSegments arguments names).map Segment.name = names := by
  fun_induction pathSegments arguments names with
  | case1 => rfl
  | case2 n => rfl
  | case3 n m ns ih => rw [List.map_cons, ih]; rfl

theorem toList_intercalate_colons (names : List String) :
    ("::".intercalate names).toList = join (names.map String.toList) := by
  induction names with
  | nil => simp [join]
  | cons n ns ih =>
      cases ns with
      | nil => simp [join]
      | cons m ms =>
          have hcolons : "::".toList = [':', ':'] := rfl
          rw [List.map_cons, join_cons (by simp), ← ih, String.intercalate_cons_cons, String.toList_append,
            String.toList_append, hcolons, List.append_assoc]
          rfl

theorem isBlank_of_isContinue {c : Char} (h : isContinue c = true) : isBlank c = false := by
  have hspace := isSpace_of_isContinue h
  simp only [isSpace, Bool.or_eq_false_iff] at hspace
  exact hspace.1.1

theorem trim_of_noBlank {s : List Char} (h : ∀ c ∈ s, isBlank c = false) : trim s = s :=
  trim_of_ends (fun c hc => h c (List.mem_of_mem_head? hc)) fun c hc => h c (List.mem_of_getLast? hc)

/-- **The text of a path is cut into the names in it,** if none of them is empty or has a blank or a colon in it, and the
    path is none of the two pseudo-names. -/
theorem pathOf_join {names : List String} (hne : names ≠ []) (hfull : ∀ n ∈ names, n.toList ≠ [])
    (hblank : ∀ n ∈ names, ∀ c ∈ n.toList, isBlank c = false) (hcolon : ∀ n ∈ names, ':' ∉ n.toList)
    (harray : join (names.map String.toList) ≠ arrayName.toList)
    (hunit : join (names.map String.toList) ≠ unitName.toList) : pathOf ("::".intercalate names) = names := by
  have htrimmed : trim (join (names.map String.toList)) = join (names.map String.toList) := by
    refine trim_of_noBlank fun c hc => ?_
    obtain rfl | ⟨w, hw, hc⟩ := mem_join hc
    · decide
    · obtain ⟨n, hn, rfl⟩ := List.mem_map.1 hw
      exact hblank n hn c hc
  have hsegments : segments (join (names.map String.toList)) = names.map String.toList := by
    refine segments_join (by simpa using hne) fun w hw => ?_
    obtain ⟨n, hn, rfl⟩ := List.mem_map.1 hw
    exact hcolon n hn
  have hpieces : ((names.map String.toList).map trim).filter (· ≠ []) = names.map String.toList := by
    have htrim : (names.map String.toList).map trim = (names.map String.toList).map id := by
      refine List.map_congr_left fun w hw => ?_
      obtain ⟨n, hn, rfl⟩ := List.mem_map.1 hw
      exact trim_of_noBlank (hblank n hn)
    rw [htrim, List.map_id, List.filter_eq_self]
    intro w hw
    obtain ⟨n, hn, rfl⟩ := List.mem_map.1 hw
    simpa using hfull n hn
  rw [pathOf, toList_intercalate_colons, htrimmed, if_neg (not_or.2 ⟨harray, hunit⟩), hsegments, hpieces]
  simp

theorem pathOf_intercalate {names : List String} (hne : names ≠ []) (hid : ∀ n ∈ names, isIdentifier n = true) :
    pathOf ("::".intercalate names) = names := by
  have hcontinue : ∀ n ∈ names, ∀ c ∈ n.toList, isContinue c = true := fun n hn =>
    isContinue_of_mem_isWord (isWord_of_isIdentifier (hid n hn))
  -- the two pseudo-names start with brackets, which no identifier does
  obtain ⟨c, r, hjoin, hc⟩ := exists_join_cons hne hid
  have hpseudo : ∀ d s, isStart d = false → join (names.map String.toList) ≠ d :: s := by
    intro d s hd heq
    rw [hjoin] at heq
    exact ne_of_isStart hc hd (List.cons.inj heq).1
  refine pathOf_join hne ?_ (fun n hn c hc => isBlank_of_isContinue (hcontinue n hn c hc)) ?_
    (hpseudo _ _ (by decide)) (hpseudo _ _ (by decide))
  · intro n hn hnil
    have hword := isWord_of_isIdentifier (hid n hn)
    simp [hnil, isWord] at hword
  · intro n hn hcolon
    exact absurd (hcontinue n hn ':' hcolon) (by decide)

theorem lastDeclared_pathSegments (whole : TypeExpr) (arguments : Arguments) {names : List String} (hne : names ≠ []) :
    lastDeclared whole (pathSegments arguments names) = arguments.declared whole := by
  fun_induction pathSegments arguments names with
  | case1 => exact absurd rfl hne
  | case2 n => rw [lastDeclared, Segment.declared]
  | case3 n m ns ih =>
      rw [← ih (List.cons_ne_nil m ns)]
      cases ns <;> simp only [pathSegments, lastDeclared]

theorem declared_argumentsExpr (whole : TypeExpr) {args : List DeclaredType}
    (h : ∀ a ∈ args, a.expr.declared = .ok a) : (argumentsExpr args).declared whole = .ok args := by
  have hmore : ∀ {more : List DeclaredType}, (∀ a ∈ more, a.expr.declared = .ok a) →
      allDeclared (moreExpr more) = .ok more := by
    intro more hmore
    induction more with
    | nil => rw [moreExpr, allDeclared]; rfl
    | cons a more ih =>
        rw [moreExpr, allDeclared, hmore a List.mem_cons_self, ih fun x hx => hmore x (List.mem_cons_of_mem _ hx)]
        rfl
  cases args with
  | nil => rw [argumentsExpr, Arguments.declared]; rfl
  | cons a more => 
      rw [argumentsExpr, Arguments.declared]
      exact hmore h

/-- **What a displayed type is read as declares the type again.** -/
theorem Ordinary.declared_expr {t : DeclaredType} (ht : t.Ordinary) : t.expr.declared = .ok t := by
  induction ht with
  | @array element ordinary ih =>
      have hexpr : (DeclaredType.array element).expr = .slice element.expr := rfl
      rw [hexpr, TypeExpr.declared, ih]
      rfl
  | unit =>
      have hexpr : DeclaredType.unit.expr = .tuple [] false := rfl
      rw [hexpr, TypeExpr.declared]
      rfl
  | @path names args hne hid kept ordinary ih =>
      have hsegments : (pathSegments (argumentsExpr args) names).map Segment.name = names := name_pathSegments _ _
      have hlast : ∃ last, (pathSegments (argumentsExpr args) names).getLast? = some last ∧
          last.name = simpleNameOf names := by
        have hnames : (pathSegments (argumentsExpr args) names).getLast?.map Segment.name = names.getLast? := by
          rw [← List.getLast?_map, hsegments]
        rw [List.getLast?_eq_some_getLast hne] at hnames
        obtain ⟨last, hlast, hname⟩ := Option.map_eq_some_iff.1 hnames
        exact ⟨last, hlast, by rw [hname, simpleNameOf, List.getLast?_eq_some_getLast hne, Option.getD_some]⟩
      obtain ⟨last, hlast, hname⟩ := hlast
      rw [expr_path hne hid, TypeExpr.declared, lastDeclared_pathSegments _ _ hne, declared_argumentsExpr _ ih]
      show declaredPath _ _ args = _
      simp only [declaredPath, hlast, hname, List.contains_iff_mem, kept, if_false, generic, joined, hsegments,
        pathOf_intercalate hne hid]

end DeclaredType

end QueryContract
