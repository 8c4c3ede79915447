import QueryContract.Proofs.Lookahead
import QueryContract.Proofs.Reading

/-!
# `Proofs.TraitItems` — methods as the items of a trait

A method that is accepted on its own is an item of a trait with the same signature, whatever stands behind it: it ends
in a semicolon or in a body, its signature is read in the same way, and nothing of another item starts like it.

* `Declares`                — what is accepted as a method on its own;
* `Declares.traitItem`      — the same as the first of several items;
* `traitDeclaration_items`  — a trait of such items.
-/

namespace QueryContract.Source

open QueryContract.Parser

variable {x : Tokens}

/-! ## Signatures -/

theorem extends_signature : Extends x (signature reader) (signature reader) := by
  refine .bind (.maybeWord _) fun constant => .bind (.maybeWord _) fun async => .bind (.maybeWord _) fun safety => ?_
  refine .bind extends_convention fun abi => .bind (.word _) fun _ => .bind .name fun n => ?_
  refine .bind (extends_generics related_reader) fun gs => .bind (.inside _ (.refl _)) fun ps => ?_
  exact .bind (extends_result related_reader true) fun result => .bind (extends_conditions related_reader) fun _ => .pure _

theorem atWord_iff {w : String} {s : Tokens} : atWord w s = true ↔ ∃ r, s = .leaf (.word w) r := by
  constructor
  · intro h
    cases s with
    | nil => exact absurd h Bool.false_ne_true
    | group d body r => exact absurd h Bool.false_ne_true
    | leaf t r =>
        cases t with
        | word n =>
            obtain rfl : n = w := by simpa [atWord] using h
            exact ⟨r, rfl⟩
        | _ => exact absurd h Bool.false_ne_true
  · rintro ⟨r, rfl⟩
    simp [atWord]

/-- The words that a signature may start with. -/
def signatureWords : List String := ["const", "async", "unsafe", "extern", "fn"]

/-- A signature starts with one of these words, and it is recognized as one. -/
theorem signature_start {self : Reader} {s : Tokens} {y : (Signature × Tokens) × Tokens} (h : signature self s = some y) :
    atSignature s = true ∧ ∃ w ∈ signatureWords, ∃ r, s = .leaf (.word w) r := by
  obtain ⟨⟨constant, s₁⟩, h₁, h⟩ := Option.bind_eq_some_iff.1 h
  obtain ⟨⟨async, s₂⟩, h₂, h⟩ := Option.bind_eq_some_iff.1 h
  obtain ⟨⟨safety, s₃⟩, h₃, h⟩ := Option.bind_eq_some_iff.1 h
  obtain ⟨⟨abi, s₄⟩, h₄, h⟩ := Option.bind_eq_some_iff.1 h
  obtain ⟨⟨⟨⟩, s₅⟩, h₅, -⟩ := Option.bind_eq_some_iff.1 h
  have hfn : atWord "fn" s₄ = true := by rw [← would_word, would, h₅, Option.isSome_some]
  constructor
  · rw [atSignature, Phrase.all_cons h₁, Phrase.all_cons h₂, Phrase.all_cons h₃, Phrase.all_cons h₄]
    exact hfn
  · -- the first of the words that is there is the one that the signature starts with
    have hstart : ∃ w ∈ signatureWords, atWord w s = true := by
      rcases Phrase.maybe_cases h₁ with hat | rfl
      · exact ⟨"const", by decide, hat⟩
      · rcases Phrase.maybe_cases h₂ with hat | rfl
        · exact ⟨"async", by decide, hat⟩
        · rcases Phrase.maybe_cases h₃ with hat | rfl
          · exact ⟨"unsafe", by decide, hat⟩
          · rcases Phrase.maybe_cases h₄ with hat | rfl
            · exact ⟨"extern", by decide, hat⟩
            · exact ⟨"fn", by decide, hfn⟩
    obtain ⟨w, hw, hat⟩ := hstart
    exact ⟨w, hw, atWord_iff.1 hat⟩

/-! ## Bodies -/

theorem atChar_iff {c : Char} {s : Tokens} : atChars [c] s = true ↔ ∃ joint r, s = .leaf (.punct c joint) r := by
  constructor
  · intro h
    cases s with
    | nil => exact absurd h Bool.false_ne_true
    | group d body r => exact absurd h Bool.false_ne_true
    | leaf t r =>
        cases t with
        | punct d joint =>
            obtain rfl : c = d := by simpa [atChars] using h
            exact ⟨joint, r, rfl⟩
        | _ => exact absurd h Bool.false_ne_true
  · rintro ⟨joint, r, rfl⟩
    simp [atChars]

/-- A body or a semicolon that nothing follows is what a declaration ends in, and it is taken whatever follows. -/
theorem bodyOrNone_end {self : Reader} {s written : Tokens} (h : bodyOrNone self s = some (written, .nil)) :
    Closed s ∧ ∀ x, bodyOrNone self (s ++ x) = some (written, x) := by
  cases hbrace : atGroup .brace s with
  | true =>
      rw [bodyOrNone, Phrase.first_then hbrace] at h
      cases s with
      | nil => exact absurd hbrace nofun
      | leaf t r => exact absurd hbrace nofun
      | group d body r =>
          obtain ⟨⟨content, e⟩, hcontent, hwritten⟩ := Option.bind_eq_some_iff.1 h
          cases hwritten
          obtain ⟨rfl, hbody, rfl⟩ := inside_eq.1 hcontent
          refine ⟨.braces body, fun x => ?_⟩
          show bodyOrNone self (.group .brace body x) = _
          rw [bodyOrNone, Phrase.first_then rfl]
          exact bind_of_eq (inside_eq.2 ⟨rfl, hbody, rfl⟩)
  | false =>
      rw [bodyOrNone, Phrase.first_else hbrace] at h
      cases hsemicolon : atSign ";" s with
      | false =>
          rw [Phrase.first_else hsemicolon] at h
          exact absurd h nofun
      | true =>
          rw [Phrase.first_then hsemicolon] at h
          obtain ⟨joint, r, rfl⟩ := (atChar_iff (c := ';')).1 hsemicolon
          cases h
          exact ⟨.semicolon joint, fun x => rfl⟩

/-! ## Items -/

/-- The tokens are a method on their own. -/
def Declares (ts : Tokens) (m : Signature) : Prop := methodDeclaration reader ts = some (m, .nil)

/-- The parts of a method: its annotations, its signature, and its body or the semicolon. -/
theorem Declares.parts {ts : Tokens} {m : Signature} (h : Declares ts m) :
    ∃ front s₁ written s₂ body, annotations reader ts = some (front, s₁) ∧
      signature reader s₁ = some ((m, written), s₂) ∧ bodyOrNone reader s₂ = some (body, .nil) := by
  obtain ⟨⟨front, s₁⟩, hfront, h⟩ := Option.bind_eq_some_iff.1 h
  obtain ⟨⟨⟨m', written⟩, r⟩, hmethod, hend⟩ := Option.bind_eq_some_iff.1 h
  cases hend
  obtain ⟨⟨⟨m'', written'⟩, s₂⟩, hsignature, h⟩ := Option.bind_eq_some_iff.1 hmethod
  obtain ⟨⟨body, s₃⟩, hbody, hend⟩ := Option.bind_eq_some_iff.1 h
  cases hend
  exact ⟨front, s₁, written', s₂, body, hfront, hsignature, hbody⟩

/-- The same parts where other tokens follow. -/
theorem Declares.extended {ts : Tokens} {m : Signature} (h : Declares ts m) (x : Tokens) :
    ∃ front s₁ written s₂ body, annotations reader (ts ++ x) = some (front, s₁ ++ x) ∧
      signature reader (s₁ ++ x) = some ((m, written), s₂ ++ x) ∧ bodyOrNone reader (s₂ ++ x) = some (body, x) := by
  obtain ⟨front, s₁, written, s₂, body, hfront, hsignature, hbody⟩ := h.parts
  obtain ⟨hclosed, hbody'⟩ := bodyOrNone_end hbody
  obtain ⟨hfits, hsignature'⟩ := extends_signature hsignature (.inr hclosed : Fits x s₂)
  obtain ⟨-, hfront'⟩ := extends_annotations related_reader hfront hfits
  exact ⟨front, s₁, written, s₂, body, hfront', hsignature', hbody' x⟩

/-- A method ends in a semicolon or in a body. -/
theorem Declares.closed {ts : Tokens} {m : Signature} (h : Declares ts m) : Closed ts := by
  obtain ⟨front, s₁, written, s₂, body, hfront, hsignature, hbody⟩ := h.parts
  obtain ⟨hclosed, -⟩ := bodyOrNone_end hbody
  -- any tokens behind will do
  have hfits : Fits (.ofWord "fn") s₂ := .inr hclosed
  obtain ⟨hfits, -⟩ := extends_signature hsignature hfits
  obtain ⟨hfits, -⟩ := extends_annotations related_reader hfront hfits
  rcases hfits with h | h
  · exact absurd h nofun
  · exact h

/-- What a declaration ends in is no bracket of an annotation. -/
theorem Closed.exists_last {ts : Tokens} (h : Closed ts) :
    ∃ l, ts.flatten.getLast? = some l ∧ l ≠ .closing .bracket := by
  induction h with
  | semicolon joint => exact ⟨_, rfl, nofun⟩
  | braces body =>
      have hlast : (Tokens.group .brace body .nil).flatten = (.opening .brace :: body.flatten) ++ [.closing .brace] := rfl
      exact ⟨.closing .brace, by rw [hlast, List.getLast?_concat], nofun⟩
  | @leaf t r hr ih =>
      obtain ⟨l, hl, hne⟩ := ih
      refine ⟨l, ?_, hne⟩
      show ([Lexeme.token t] ++ r.flatten).getLast? = some l
      rw [List.getLast?_append, hl, Option.some_or]
  | @group d body r hr ih =>
      obtain ⟨l, hl, hne⟩ := ih
      refine ⟨l, ?_, hne⟩
      have hsplit : (Tokens.group d body r).flatten = (.opening d :: body.flatten ++ [.closing d]) ++ r.flatten := by
        simp [Tokens.flatten]
      rw [hsplit, List.getLast?_append, hl, Option.some_or]

theorem Closed.getLast?_flatten {ts : Tokens} (h : Closed ts) : ts.flatten.getLast? ≠ some (.closing .bracket) := by
  obtain ⟨l, hl, hne⟩ := h.exists_last
  rw [hl]
  exact fun heq => hne (Option.some.inj heq)

/-- **A method is an item of a trait, whatever stands behind it.** -/
theorem Declares.traitItem {ts : Tokens} {m : Signature} (h : Declares ts m) (x : Tokens) :
    ∃ written, Source.traitItem reader (ts ++ x) = some ((some m, written), x) := by
  obtain ⟨front, s₁, written, s₂, body, hfront, hsignature, hbody⟩ := h.extended x
  obtain ⟨hat, w, hw, e, hstart⟩ := signature_start hsignature
  -- neither a visibility nor the word before a default starts like a signature
  have hmark : Phrase.all [visibility, Phrase.maybeWord "default"] (s₁ ++ x) = some (.nil, s₁ ++ x) := by
    have hwords : ∀ w ∈ signatureWords, w ≠ "pub" ∧ w ≠ "default" := by decide
    have hpub : atWord "pub" (s₁ ++ x) = false := by simp [hstart, atWord, (hwords w hw).1]
    have hdefault : atWord "default" (s₁ ++ x) = false := by simp [hstart, atWord, (hwords w hw).2]
    have hvisibility : visibility (s₁ ++ x) = some (.nil, s₁ ++ x) := Phrase.maybe_none hpub
    have hword : Phrase.maybeWord "default" (s₁ ++ x) = some (.nil, s₁ ++ x) := Phrase.maybe_none hdefault
    rw [Phrase.all_cons_none hvisibility, Phrase.all_cons_none hword]
    rfl
  have hmethod : methodAfter reader (s₁ ++ x) = some ((m, written ++ body), x) := by
    refine (bind_of_eq hsignature).trans ?_
    exact bind_of_eq hbody
  refine ⟨front ++ (written ++ body), ?_⟩
  rw [Source.traitItem, look_bind, bind_of_eq hfront, bind_of_eq hmark, look_then hat, bind_of_eq hmethod]
  rfl

/-- What stands before annotations is no annotation of the thing that they are inside of. -/
theorem notInner_of_annotations {self : Reader} {s : Tokens} {y : Tokens × Tokens} (h : annotations self s = some y) :
    (atSign "#" s && atSign "!" s.next) = false := by
  cases hat : atSign "#" s with
  | false => rfl
  | true =>
      obtain ⟨⟨parts, e⟩, hmany, -⟩ := Option.bind_eq_some_iff.1 h
      obtain ⟨joint, r, rfl⟩ := (atChar_iff (c := '#')).1 hat
      cases hitem : Phrase.all [Phrase.sign "#", Phrase.enclosed .bracket (annotationContent self)]
          (.leaf (.punct '#' joint) r) with
      | none =>
          have hnone : many (fun s => !atSign "#" s)
              (Phrase.all [Phrase.sign "#", Phrase.enclosed .bracket (annotationContent self)])
              (.leaf (.punct '#' joint) r) = none := many_none rfl hitem
          exact absurd (hnone.symm.trans hmany) nofun
      | some z =>
          -- after the sign there are brackets
          have hsign : Phrase.sign "#" (.leaf (.punct '#' joint) r) = some (.ofSign "#", r) := rfl
          rw [Phrase.all_cons hsign] at hitem
          obtain ⟨⟨rest, r'⟩, hall, -⟩ := Option.map_eq_some_iff.1 hitem
          obtain ⟨⟨content, r'⟩, henclosed, -⟩ := Option.bind_eq_some_iff.1 hall
          obtain ⟨⟨content', r'⟩, hinside, -⟩ := Option.bind_eq_some_iff.1 henclosed
          cases r with
          | nil => exact absurd hinside nofun
          | leaf t r => exact absurd hinside nofun
          | group d body r => rfl

/-- No method starts with an annotation of what it stands in. -/
theorem Declares.notInner {ts : Tokens} {m : Signature} (h : Declares ts m) (x : Tokens) :
    (atSign "#" (ts ++ x) && atSign "!" (ts ++ x).next) = false := by
  obtain ⟨front, s₁, written, s₂, body, hfront, -, -⟩ := h.extended x
  exact notInner_of_annotations hfront

/-- The items of a trait, one after the other. -/
theorem many_traitItem {items : List (Tokens × Signature)} (h : ∀ i ∈ items, Declares i.1 i.2) :
    ∃ parts, many Tokens.isEmpty (traitItem reader) (.concat (items.map (·.1))) = some (parts, .nil) ∧
      parts.filterMap (·.1) = items.map (·.2) := by
  induction items with
  | nil => exact ⟨[], many_stop rfl, rfl⟩
  | cons i items ih =>
      obtain ⟨parts, hparts, hmethods⟩ := ih fun j hj => h j (List.mem_cons_of_mem _ hj)
      obtain ⟨written, hitem⟩ := (h i List.mem_cons_self).traitItem (.concat (items.map (·.1)))
      refine ⟨(some i.2, written) :: parts, ?_, ?_⟩
      · have hclosed := (h i List.mem_cons_self).closed
        have hne : (i.1 ++ Tokens.concat (items.map (·.1))).isEmpty = false := hclosed.isEmpty_append _
        have hlt : (Tokens.concat (items.map (·.1))).size < (i.1 ++ Tokens.concat (items.map (·.1))).size := by
          rw [Tokens.size_append]
          have hpos := hclosed.size_pos
          omega
        show many Tokens.isEmpty (traitItem reader) (i.1 ++ .concat (items.map (·.1))) = _
        rw [many_item hne hitem hlt, hparts]
        rfl
      · simp [hmethods]

/-- What stands in the braces of a trait. -/
theorem traitBody_items {items : List (Tokens × Signature)} (h : ∀ i ∈ items, Declares i.1 i.2) :
    ∃ written, traitBody reader (.concat (items.map (·.1))) = some ((items.map (·.2), written), .nil) := by
  obtain ⟨parts, hparts, hmethods⟩ := many_traitItem h
  have hinner : innerAnnotations reader (.concat (items.map (·.1))) = some (.nil, .concat (items.map (·.1))) := by
    refine innerAnnotations_none ?_
    cases items with
    | nil => rfl
    | cons i items => exact (h i List.mem_cons_self).notInner _
  refine ⟨.concat (parts.map (·.2)), ?_⟩
  rw [traitBody, bind_of_eq hinner, bind_of_eq hparts, ← hmethods]
  rfl

/-- What follows the annotations and the visibility of a trait that has nothing but a body. -/
theorem traitAfter_body {n : String} (hn : isIdentifier n = true) {body written : Tokens} {methods : List Signature}
    (hbody : traitBody reader body = some ((methods, written), .nil)) :
    ∃ whole, traitAfter reader (.leaf (.word "trait") (.leaf (.word n) (.group .brace body .nil))) =
      some ((⟨n, [], [], methods⟩, whole), .nil) := by
  have hmarks : ∀ w, ("trait" == w) = false →
      Phrase.maybeWord w (.leaf (.word "trait") (.leaf (.word n) (.group .brace body .nil))) =
        some (.nil, .leaf (.word "trait") (.leaf (.word n) (.group .brace body .nil))) :=
    fun w hw => Phrase.maybe_none hw
  have hfront : Phrase.all [Phrase.maybeWord "unsafe", Phrase.maybeWord "auto", Phrase.word "trait"]
      (.leaf (.word "trait") (.leaf (.word n) (.group .brace body .nil))) =
        some (.ofWord "trait", .leaf (.word n) (.group .brace body .nil)) := by
    rw [Phrase.all_cons_none (hmarks "unsafe" rfl), Phrase.all_cons_none (hmarks "auto" rfl)]
    rfl
  have hgenerics : generics reader (.group .brace body .nil) = some (.none, .group .brace body .nil) := look_else rfl
  have hbounds : traitBounds reader (.group .brace body .nil) = some (([], .nil), .group .brace body .nil) := by
    rw [traitBounds, bind_of_eq (takeSign_eq_false (by decide) rfl)]
    rfl
  have hconditions : conditions reader (.group .brace body .nil) = some (.nil, .group .brace body .nil) := by
    have hwhere : takeWord "where" (.group .brace body .nil) = some (false, .group .brace body .nil) := rfl
    rw [conditions, bind_of_eq hwhere]
    rfl
  have hinside : inside .brace (traitBody reader) (.group .brace body .nil) = some ((methods, written), .nil) :=
    inside_eq.2 ⟨rfl, hbody, rfl⟩
  apply Exists.intro
  rw [traitAfter, bind_of_eq hfront, bind_of_eq (name_identifier hn _), bind_of_eq hgenerics, bind_of_eq hbounds]
  refine (bind_of_eq hconditions).trans ?_
  exact bind_of_eq hinside

/-- **A trait of methods has the signatures that they have on their own.** -/
theorem traitDeclaration_items {n : String} (hn : isIdentifier n = true) {items : List (Tokens × Signature)}
    (h : ∀ i ∈ items, Declares i.1 i.2) :
    traitDeclaration reader
        (.leaf (.word "trait") (.leaf (.word n) (.group .brace (.concat (items.map (·.1))) .nil))) =
      some (⟨n, [], [], items.map (·.2)⟩, .nil) := by
  obtain ⟨written, hbody⟩ := traitBody_items h
  obtain ⟨whole, hafter⟩ := traitAfter_body hn hbody
  have hvisibility : ∀ s, visibility (.leaf (.word "trait") s) = some (.nil, .leaf (.word "trait") s) :=
    fun s => Phrase.maybe_none rfl
  rw [traitDeclaration, bind_of_eq (annotations_none rfl), bind_of_eq (hvisibility _), bind_of_eq hafter]
  rfl

end QueryContract.Source
