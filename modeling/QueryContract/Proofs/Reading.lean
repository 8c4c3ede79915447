import QueryContract.Proofs.Spelling

/-!
# `Proofs.Reading` — the grammar on the tokens of a displayed type

The reader takes exactly the tokens of a displayed type off the front of whatever may follow it, and finds its written
form. The argument types are read by the same reader on fewer tokens, which is what the induction is on.

* `EndsType`                                — what may follow a type;
* `segments_spelledPath`, `pathType_identifier`, `argument_spelled` — the rules of paths and arguments;
* `Faithful`, `faithful_reader`             — the reader as a whole;
* `Ordinary.ofSource_text`                  — a displayed type read again.
-/

namespace QueryContract

open QueryContract.Parser Source Source.Lexeme Text

/-! ## Where a type ends -/

/-- Nothing follows, or a character that cannot belong to a type before it. -/
def EndsType : Tokens → Prop
  | .nil => True
  | .leaf (.punct c _) _ => c ∈ [',', '>', ';']
  | _ => False

theorem EndsType.atSign {rest : Tokens} (h : EndsType rest) {sign : String} {c : Char} {cs : List Char}
    (hsign : sign.toList = c :: cs) (hc : c ∉ [',', '>', ';']) : atSign sign rest = false := by
  rw [Source.atSign, hsign]
  cases rest with
  | nil => cases cs <;> rfl
  | group d body r => exact h.elim
  | leaf t r =>
      cases t with
      | punct d joint =>
          have hd : c ≠ d := by
            rintro rfl
            exact hc h
          cases cs <;> simp [atChars, hd]
      | word n => exact h.elim
      | lifetime n => exact h.elim
      | literal w => exact h.elim

/-! ## At an identifier -/

section

variable {n : String} (hn : isIdentifier n = true) (r : Tokens)

theorem atSign_word (sign n : String) (r : Tokens) : atSign sign (.leaf (.word n) r) = false := by
  rw [atSign]
  rcases sign.toList with _ | ⟨c, _ | ⟨d, cs⟩⟩ <;> rfl

theorem atSign_group (sign : String) (d : Delimiter) (body r : Tokens) : atSign sign (.group d body r) = false := by
  rw [atSign]
  rcases sign.toList with _ | ⟨c, _ | ⟨e, cs⟩⟩ <;> rfl

include hn

theorem atName_identifier : atName (.leaf (.word n) r) = true := by
  simp only [isIdentifier, Bool.and_eq_true] at hn
  exact hn.2

theorem name_identifier : name (.leaf (.word n) r) = some (n, r) := by
  have hreserved : reserved.contains n = false := by simpa [atName] using atName_identifier hn r
  rw [name, hreserved, if_neg (by decide)]

theorem atWord_identifier {w : String} (hw : isIdentifier w = false) : atWord w (.leaf (.word n) r) = false := by
  simpa [atWord] using ne_of_isIdentifier hn hw

theorem atWords_identifier {ws : List String} (hws : ∀ w ∈ ws, isIdentifier w = false) :
    atWords ws (.leaf (.word n) r) = false := by
  rw [atWords, List.any_eq_false]
  intro w hw
  simp [atWord_identifier hn r (hws w hw)]

end

/-- A type that starts with an identifier is a path. -/
theorem typeRule_identifier {n : String} (hn : isIdentifier n = true) {r : Tokens} (hr : atSign "#" r = false)
    (self : Reader) (plus : Bool) :
    typeRule self plus (.leaf (.word n) r) = pathType self plus .nil (.leaf (.word n) r) := by
  have hfor : atWord "for" (.leaf (.word n) r) = false := atWord_identifier hn r (by decide)
  have hfunction : atFunction (.leaf (.word n) r) = false := atWords_identifier hn r (by decide)
  have hbuiltin : atBuiltin (.leaf (.word n) r) = false := by simp [atBuiltin, Tokens.next, hr]
  have hpath : atPath (.leaf (.word n) r) = true := by simp [atPath, atPathWord, atName_identifier hn r]
  rw [typeRule, look_bind, look_else hfor, typeAfter, look_else rfl, look_else hfunction, look_else hbuiltin,
    look_then hpath]

/-! ## Paths -/

theorem chars_eq_none {c : Char} {cs : List Char} {s : Tokens} (h : atChars (c :: cs) s = false) :
    chars (c :: cs) s = none := by
  rw [← would_chars (List.cons_ne_nil c cs)] at h
  simpa [would] using h

theorem takeSign_eq_false {sign : String} {s : Tokens} (hne : sign ≠ "") (h : atSign sign s = false) :
    takeSign sign s = some (false, s) := by
  have hnone : Source.sign sign s = none := by
    cases hsign : sign.toList with
    | nil => exact absurd (String.toList_eq_nil_iff.1 hsign) hne
    | cons c cs =>
        rw [Source.sign, hsign]
        rw [atSign, hsign] at h
        exact chars_eq_none h
  rw [takeSign, accepts, hnone]

theorem atSign_punct {sign : String} {c d : Char} {cs : List Char} {joint : Bool} {r : Tokens}
    (hsign : sign.toList = c :: cs) (hne : c ≠ d) : atSign sign (.leaf (.punct d joint) r) = false := by
  rw [atSign, hsign]
  cases cs <;> simp [atChars, hne]

section

variable {n : String} (hn : isIdentifier n = true) {r : Tokens} (self : Reader)

include hn

/-- A segment without arguments. -/
theorem segment_bare (hr : atAngle false r = false) :
    segment self false (.leaf (.word n) r) = some (.mk n .none, r) := by
  have hbare : atWords bareSegments (.leaf (.word n) r) = false := atWords_identifier hn r (by decide)
  have hself : atWord "Self" (.leaf (.word n) r) = false := atWord_identifier hn r (by decide)
  rw [Source.segment, look_else hbare, look_else hself, bind_of_eq (name_identifier hn r)]
  exact look_else hr

/-- A segment with arguments. -/
theorem segment_angle {arguments : Arguments} {e : Tokens} (hr : atAngle false r = true)
    (hangle : angle self r = some (arguments, e)) :
    segment self false (.leaf (.word n) r) = some (.mk n arguments, e) := by
  have hbare : atWords bareSegments (.leaf (.word n) r) = false := atWords_identifier hn r (by decide)
  have hself : atWord "Self" (.leaf (.word n) r) = false := atWord_identifier hn r (by decide)
  rw [Source.segment, look_else hbare, look_else hself, bind_of_eq (name_identifier hn r)]
  exact (look_then hr).trans (bind_of_eq hangle)

end

namespace DeclaredType

theorem exists_spelledPath_append (n : String) (ns : List String) (r : Tokens) :
    ∃ e, spelledPath (n :: ns) ++ r = .leaf (.word n) e ∧ (atSign "#" r = false → atSign "#" e = false) := by
  cases ns with
  | nil => exact ⟨r, rfl, id⟩
  | cons m ms => exact ⟨_, rfl, fun _ => atSign_punct (c := '#') rfl (by decide)⟩

/-- The segments of a path, given that of its last name. -/
theorem segments_spelledPath {names : List String} (hne : names ≠ []) (hid : ∀ n ∈ names, isIdentifier n = true)
    {self : Reader} {r e : Tokens} {arguments : Arguments} (he : EndsType e)
    (hlast : ∀ n, isIdentifier n = true → segment self false (.leaf (.word n) r) = some (.mk n arguments, e)) :
    Source.segments self false (spelledPath names ++ r) = some (pathSegments arguments names, e) := by
  have hchain : chained (fun _ => linkWhile atSegment "::") (segment self false) (spelledPath names ++ r) =
      some ((pathSegments arguments names, false), e) := by
    -- by induction on the names: between two of them there is a double colon, and what ends the type follows the last
    induction names with
    | nil => exact absurd rfl hne
    | cons n ns ih =>
        have hn : isIdentifier n = true := hid n List.mem_cons_self
        cases ns with
        | nil =>
            have hstop : atSegment e = false := by
              rw [atSegment, he.atSign (c := ':') rfl (by decide), Bool.false_and]
            have hlink : linkWhile atSegment "::" e = some (.done, e) := by rw [linkWhile, look_else hstop, pure_apply]
            have hsegment : segment self false (spelledPath [n] ++ r) = some (.mk n arguments, e) := hlast n hn
            exact chained_done hsegment hlink
        | cons m ms =>
            have hmore := ih (List.cons_ne_nil m ms) fun x hx => hid x (List.mem_cons_of_mem _ hx)
            obtain ⟨x, hx, -⟩ := exists_spelledPath_append m ms r
            rw [hx] at hmore
            have hinput : spelledPath (n :: m :: ms) ++ r =
                .leaf (.word n) (.leaf (.punct ':' true) (.leaf (.punct ':' false) (.leaf (.word m) x))) := by
              rw [← hx]
              rfl
            have hsegment := segment_bare hn self (r := .leaf (.punct ':' true) (.leaf (.punct ':' false) (.leaf (.word m) x)))
              rfl
            have hlt : (Tokens.leaf (.word m) x).size < (spelledPath (n :: m :: ms) ++ r).size := by
              rw [hinput]
              simp only [Tokens.size]
              omega
            rw [hinput] at hlt ⊢
            exact chained_again hsegment rfl hlt hmore
  rw [Source.segments, bind_of_eq hchain]
  rfl

/-- A path, given its segments. -/
theorem pathType_identifier {self : Reader} {plus : Bool} {n : String} {r e : Tokens} {ss : List Segment}
    (hsegments : Source.segments self false (.leaf (.word n) r) = some (ss, e)) (he : EndsType e) :
    pathType self plus .nil (.leaf (.word n) r) = some (.path false ss, e) := by
  have hpath : Source.path self false (.leaf (.word n) r) = some ((false, ss), e) := by
    rw [Source.path, bind_of_eq (takeSign_eq_false (by decide) (atSign_word "::" n r)), bind_of_eq hsegments]
    rfl
  have hbang : atSign "!" e = false := he.atSign (c := '!') rfl (by decide)
  have hplus : atSign "+" e = false := he.atSign (c := '+') rfl (by decide)
  have hlink : boundLink plus false e = some (.done, e) := by
    refine (look_else ?_).trans rfl
    rw [hplus, Bool.and_false]
  rw [pathType, look_else (atSign_word "<" n r), bind_of_eq hpath]
  refine (look_else ?_).trans ?_
  · rw [hbang, Bool.false_and, Bool.false_and]
  · exact bind_of_eq hlink

/-- A displayed type starts with an identifier, or it is a group, which is not in braces. -/
theorem Ordinary.spelled_cases {t : DeclaredType} (ht : t.Ordinary) (joint : Bool) (rest : Tokens) :
    (∃ n r, isIdentifier n = true ∧ t.spelled joint ++ rest = .leaf (.word n) r) ∨
      ∃ d body, d ≠ .brace ∧ t.spelled joint ++ rest = .group d body rest := by
  cases ht with
  | array ordinary => exact .inr ⟨.bracket, _, by decide, rfl⟩
  | unit => exact .inr ⟨.paren, _, by decide, rfl⟩
  | @path names args hne hid kept ordinary =>
      left
      obtain ⟨n, ns, rfl⟩ := List.exists_cons_of_ne_nil hne
      rw [spelled_path hne hid, Tokens.append_assoc]
      obtain ⟨e, he, -⟩ := exists_spelledPath_append n ns (spelledArgs joint args ++ rest)
      exact ⟨n, e, hid n List.mem_cons_self, he⟩

theorem Ordinary.atSign_spelled {t : DeclaredType} (ht : t.Ordinary) (sign : String) (joint : Bool) (rest : Tokens) :
    atSign sign (t.spelled joint ++ rest) = false := by
  rcases ht.spelled_cases joint rest with ⟨n, r, hn, h⟩ | ⟨d, body, hd, h⟩ <;> rw [h]
  · exact atSign_word sign n r
  · exact atSign_group sign d body rest

/-- An argument, given the type that it is. -/
theorem Ordinary.argument_spelled {t : DeclaredType} (ht : t.Ordinary) {self : Reader} {joint : Bool} {rest : Tokens}
    (hrest : EndsType rest) (htype : self (.type true) (t.spelled joint ++ rest) = some (t.expr, rest)) :
    argument self (t.spelled joint ++ rest) = some (.type t.expr, rest) := by
  -- a type is neither a lifetime nor a constant, and nothing is bound to it
  have hlife : atLifetime (t.spelled joint ++ rest) = false := by
    rcases ht.spelled_cases joint rest with ⟨n, r, hn, h⟩ | ⟨d, body, hd, h⟩ <;> rw [h] <;> rfl
  have hconstant : atConstant (t.spelled joint ++ rest) = false := by
    rcases ht.spelled_cases joint rest with ⟨n, r, hn, h⟩ | ⟨d, body, hd, h⟩
    · have htrue : n ≠ "true" := ne_of_isIdentifier hn (by decide)
      have hfalse : n ≠ "false" := ne_of_isIdentifier hn (by decide)
      rw [h]
      simp [atConstant, atLiteral, atGroup, htrue, hfalse]
    · rw [h]
      simp [atConstant, atLiteral, atGroup, hd.symm]
  have hequals : takeSign "=" rest = some (false, rest) :=
    takeSign_eq_false (by decide) (hrest.atSign (c := '=') rfl (by decide))
  have hcolon : takeSign ":" rest = some (false, rest) :=
    takeSign_eq_false (by decide) (hrest.atSign (c := ':') rfl (by decide))
  refine (look_else ?_).trans ?_
  · rw [hlife, Bool.false_and]
  rw [look_else hconstant]
  refine (bind_of_eq htype).trans ?_
  cases isLoneName t.expr with
  | false => rfl
  | true =>
      refine (bind_of_eq hequals).trans ?_
      exact bind_of_eq hcolon

/-! ## Reading a type -/

/-- The reader reads the tokens of a displayed type as the written form of the type, if there are fewer of them. -/
def Faithful (self : Reader) (limit : Nat) : Prop :=
  ∀ ⦃t : DeclaredType⦄, t.Ordinary → ∀ plus joint ⦃rest : Tokens⦄, EndsType rest →
    (t.spelled joint ++ rest).size < limit → self (.type plus) (t.spelled joint ++ rest) = some (t.expr, rest)

namespace Faithful

variable {self : Reader} {limit : Nat} (hself : Faithful self limit) {joint : Bool} {rest : Tokens}

include hself

/-- Arguments, up to the bracket after them. -/
theorem arguments {first : DeclaredType} {more : List DeclaredType} (hfirst : first.Ordinary)
    (hmore : ∀ a ∈ more, Ordinary a) (hlt : (first.spelled true ++ (spelledMore joint more ++ rest)).size < limit) :
    Parser.separated (atSign ">") (sign ",") (argument self) (first.spelled true ++ (spelledMore joint more ++ rest)) =
      some ((.type first.expr :: moreExpr more, false), .leaf (.punct '>' joint) rest) := by
  induction more generalizing first with
  | nil =>
      have hends : EndsType (.leaf (.punct '>' joint) rest) := by simp [EndsType]
      have hitem := hfirst.argument_spelled hends (hself hfirst true true hends hlt)
      exact separated_last (hfirst.atSign_spelled ">" true _) hitem rfl
  | cons a more ih =>
      have ha : Ordinary a := hmore a List.mem_cons_self
      have hinput : spelledMore joint (a :: more) ++ rest =
          .leaf (.punct ',' false) (a.spelled true ++ (spelledMore joint more ++ rest)) := by
        rw [spelledMore, Tokens.leaf_append, Tokens.append_assoc]
      rw [hinput] at hlt ⊢
      have hends : EndsType (.leaf (.punct ',' false) (a.spelled true ++ (spelledMore joint more ++ rest))) := by
        simp [EndsType]
      have hitem := hfirst.argument_spelled hends (hself hfirst true true hends hlt)
      have hsmaller : (a.spelled true ++ (spelledMore joint more ++ rest)).size <
          (first.spelled true ++ .leaf (.punct ',' false) (a.spelled true ++ (spelledMore joint more ++ rest))).size := by
        rw [Tokens.size_append (first.spelled true), Tokens.size]
        omega
      have hrest := ih ha (fun x hx => hmore x (List.mem_cons_of_mem _ hx)) (Nat.lt_trans hsmaller hlt)
      exact separated_again (hfirst.atSign_spelled ">" true _) hitem rfl rfl hsmaller hrest

/-- Arguments with their brackets. -/
theorem angle {first : DeclaredType} {more : List DeclaredType} (ordinary : ∀ a ∈ first :: more, Ordinary a)
    (hlt : (spelledArgs joint (first :: more) ++ rest).size ≤ limit) :
    angle self (spelledArgs joint (first :: more) ++ rest) = some (argumentsExpr (first :: more), rest) := by
  have hinput : spelledArgs joint (first :: more) ++ rest =
      .leaf (.punct '<' false) (first.spelled true ++ (spelledMore joint more ++ rest)) := by
    rw [spelledArgs, Tokens.leaf_append, Tokens.append_assoc]
  rw [hinput] at hlt ⊢
  have hinner : (first.spelled true ++ (spelledMore joint more ++ rest)).size < limit := by
    simp only [Tokens.size] at hlt
    omega
  have hargs := hself.arguments (ordinary first List.mem_cons_self) (fun x hx => ordinary x (List.mem_cons_of_mem _ hx))
    hinner
  have hcolons : takeSign "::" (.leaf (.punct '<' false) (first.spelled true ++ (spelledMore joint more ++ rest))) =
      some (false, _) := takeSign_eq_false (by decide) rfl
  have hopen : sign "<" (.leaf (.punct '<' false) (first.spelled true ++ (spelledMore joint more ++ rest))) =
      some ((), first.spelled true ++ (spelledMore joint more ++ rest)) := rfl
  rw [Source.angle, bind_of_eq hcolons, bind_of_eq hopen, bind_of_eq hargs]
  rfl

/-- A whole type. -/
theorem typeRule {t : DeclaredType} (ht : t.Ordinary) (plus : Bool) (hrest : EndsType rest)
    (hle : (t.spelled joint ++ rest).size ≤ limit) :
    typeRule self plus (t.spelled joint ++ rest) = some (t.expr, rest) := by
  cases ht with
  | @array element ordinary =>
      rw [spelled_array] at hle ⊢
      have helement : self (.type true) (element.spelled false) = some (element.expr, .nil) := by
        have hlt : (element.spelled false ++ .nil).size < limit := by
          simp only [Tokens.group_append, Tokens.nil_append, Tokens.size] at hle
          rw [Tokens.append_nil]
          omega
        have hends : EndsType .nil := trivial
        simpa using hself ordinary true false hends hlt
      have hcontent : bracketContent self (element.spelled false) = some (.slice element.expr, .nil) :=
        bind_of_eq helement
      have hinside : inside .bracket (bracketContent self) (.group .bracket (element.spelled false) rest) =
          some (.slice element.expr, rest) := by
        simp only [inside, if_true, hcontent]
      exact hinside
  | unit => rfl
  | @path names args hne hid kept ordinary =>
      rw [spelled_path hne hid, Tokens.append_assoc] at hle ⊢
      rw [expr_path hne hid]
      have hsegments : Source.segments self false (spelledPath names ++ (spelledArgs joint args ++ rest)) =
          some (pathSegments (argumentsExpr args) names, rest) := by
        -- only the last segment has arguments
        refine segments_spelledPath hne hid hrest fun n hn => ?_
        cases args with
        | nil =>
            have hopen : atSign "<" rest = false := hrest.atSign (c := '<') rfl (by decide)
            have hcolons : atSign "::" rest = false := hrest.atSign (c := ':') rfl (by decide)
            exact segment_bare hn self (by simp [atAngle, spelledArgs, hopen, hcolons])
        | cons first more =>
            refine segment_angle hn self rfl (hself.angle ordinary ?_)
            rw [Tokens.size_append] at hle
            omega
      have hsharp : atSign "#" (spelledArgs joint args ++ rest) = false := by
        cases args with
        | nil => exact hrest.atSign (c := '#') rfl (by decide)
        | cons first more => exact atSign_punct (c := '#') rfl (by decide)
      obtain ⟨n, ns, rfl⟩ := List.exists_cons_of_ne_nil hne
      obtain ⟨r, hr, hafter⟩ := exists_spelledPath_append n ns (spelledArgs joint args ++ rest)
      rw [hr] at hsegments ⊢
      rw [typeRule_identifier (hid n List.mem_cons_self) (hafter hsharp)]
      exact pathType_identifier hsegments hrest

end Faithful

/-- **The reader reads the tokens of every displayed type.** -/
theorem faithful_reader (limit : Nat) : Faithful reader limit := by
  induction limit using Nat.strongRecOn with
  | ind limit ih =>
      intro t ht plus joint rest hrest hlt
      -- the rule sees the reader only on inputs that are shorter, where it is faithful already
      have hguarded : Faithful (fun g r => if r.size < (t.spelled joint ++ rest).size then reader g r else none)
          (t.spelled joint ++ rest).size := by
        intro u hu plus' joint' rest' hrest' hlt'
        exact (if_pos hlt').trans (ih _ hlt hu plus' joint' hrest' hlt')
      rw [reader_eq]
      exact hguarded.typeRule ht plus hrest (Nat.le_refl _)

/-- **An ordinary type that is displayed and read again is the same type.** -/
theorem Ordinary.ofSource_text {t : DeclaredType} (ht : t.Ordinary) : ofSource t.text = .ok t := by
  have hends : Follows [] := nofun
  have hreads : Reads t.write (t.spelled false).flatten := by
    simpa [atPunctuation] using ht.legible hends Reads.nil
  have hmark : t.write.head? ≠ some '\ufeff' := by
    obtain ⟨c, r, hwrite, hc⟩ := ht.exists_write_cons
    have hne : c ≠ '\ufeff' := by
      rcases hc with hc | hc
      · exact ne_of_isStart hc (by decide +kernel)
      · rintro rfl
        exact absurd hc (by decide)
    simpa [hwrite] using hne
  have htype : typeOf? t.write = some t.expr := by
    have hrule : typeRule reader true (t.spelled false) = some (t.expr, .nil) := by
      have hends : EndsType .nil := trivial
      have hle : (t.spelled false ++ .nil).size ≤ (t.spelled false ++ .nil).size := Nat.le_refl _
      simpa using (faithful_reader _).typeRule ht true hends hle
    exact parse?_of_reads hreads hmark hrule
  rw [ofSource, toList_text, htype]
  exact ht.declared_expr

end DeclaredType

end QueryContract
