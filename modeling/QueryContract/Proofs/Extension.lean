import QueryContract.Proofs.Lexing

/-!
# `Proofs.Extension` — reading with more tokens behind

A declaration ends in a semicolon or in braces. What is read before that end is read in the same way when more tokens
stand behind it: the parsers look ahead, but none of them looks past the end of a declaration. Inside of a group nothing
is added; there only the reader changes, which may be called on longer inputs.

* `Closed`, `Fits`     — what may be left over, so that a parser has not come to the end;
* `Steady`, `Steady.*` — tests that tokens behind the end do not change;
* `Extends`, `Extends.*` — parsers that read the same with more tokens behind: one lemma for each combinator.
-/

namespace QueryContract.Source

open QueryContract.Parser

/-! ## Where declarations end -/

/-- The sequence ends in a semicolon or in a group in braces. -/
inductive Closed : Tokens → Prop where
  | semicolon (joint : Bool) : Closed (.leaf (.punct ';' joint) .nil)
  | braces (body : Tokens) : Closed (.group .brace body .nil)
  | leaf (t : Token) {r : Tokens} (h : Closed r) : Closed (.leaf t r)
  | group (d : Delimiter) (body : Tokens) {r : Tokens} (h : Closed r) : Closed (.group d body r)

theorem Closed.size_pos {s : Tokens} (h : Closed s) : 0 < s.size := by
  cases h <;> exact Nat.succ_pos _

theorem Closed.isEmpty_append {s : Tokens} (h : Closed s) (x : Tokens) : (s ++ x).isEmpty = false := by
  cases h <;> rfl

/-- The test fails on what a declaration ends in. -/
structure Inner (test : Tokens → Bool) : Prop where
  semicolon : ∀ joint r, test (.leaf (.punct ';' joint) r) = false
  braces : ∀ body r, test (.group .brace body r) = false

/-- Either nothing is added, or the end of the declaration is still to come. -/
def Fits (x s : Tokens) : Prop := x = .nil ∨ Closed s

namespace Fits

variable {x r : Tokens}

theorem nil (s : Tokens) : Fits .nil s := .inl rfl

theorem leaf (t : Token) (h : Fits x r) : Fits x (.leaf t r) := h.imp_right (.leaf t)

theorem group (d : Delimiter) (body : Tokens) (h : Fits x r) : Fits x (.group d body r) := h.imp_right (.group d body)

/-- After a token that no declaration ends in, the end is still to come. -/
theorem next {s : Tokens} {test : Tokens → Bool} (h : Fits x s) (hinner : Inner test) (hs : test s = true) :
    Fits x s.next := by
  rcases h with hx | h
  · exact .inl hx
  · cases h with
    | semicolon joint => exact absurd hs (by simp [hinner.semicolon])
    | braces body => exact absurd hs (by simp [hinner.braces])
    | leaf t h => exact .inr h
    | group d body h => exact .inr h

/-- Nothing is left over only where nothing is added. -/
theorem eq_nil (h : Fits x .nil) : x = .nil := by
  rcases h with hx | h
  · exact hx
  · exact absurd h nofun

theorem next_append {s : Tokens} (h : Fits x s) : (s ++ x).next = s.next ++ x := by
  cases s with
  | nil =>
      rw [h.eq_nil]
      rfl
  | leaf t r => rfl
  | group d body r => rfl

end Fits

/-! ## Tests -/

/-- What is added behind the end of a declaration does not change the test. -/
def Steady (x : Tokens) (test : Tokens → Bool) : Prop := ∀ ⦃s⦄, Fits x s → test (s ++ x) = test s

/-- The test looks only at the first token. -/
structure OfHead (test : Tokens → Bool) : Prop where
  leaf : ∀ t r r', test (.leaf t r) = test (.leaf t r')
  group : ∀ d body r r', test (.group d body r) = test (.group d body r')

section

variable {x : Tokens} {test test' : Tokens → Bool}

theorem Steady.nil (test : Tokens → Bool) : Steady .nil test := by
  intro s _
  rw [Tokens.append_nil]

theorem OfHead.steady (h : OfHead test) : Steady x test := by
  rintro s (rfl | hs)
  · rw [Tokens.append_nil]
  · cases hs with
    | semicolon joint => exact h.leaf _ _ _
    | braces body => exact h.group _ _ _ _
    | leaf t hr => exact h.leaf _ _ _
    | group d body hr => exact h.group _ _ _ _

namespace Steady

theorem not (h : Steady x test) : Steady x (!test ·) := by
  intro s hs
  show (!test (s ++ x)) = !test s
  rw [h hs]

theorem and (h : Steady x test) (h' : Steady x test') : Steady x fun s => test s && test' s := by
  intro s hs
  show (test (s ++ x) && test' (s ++ x)) = (test s && test' s)
  rw [h hs, h' hs]

theorem or (h : Steady x test) (h' : Steady x test') : Steady x fun s => test s || test' s := by
  intro s hs
  show (test (s ++ x) || test' (s ++ x)) = (test s || test' s)
  rw [h hs, h' hs]

/-- A test of the second token is steady where the first one is not the end. -/
theorem andNext (h : Steady x test) (hinner : Inner test) (h' : Steady x test') :
    Steady x fun s => test s && test' s.next := by
  intro s hs
  show (test (s ++ x) && test' (s ++ x).next) = (test s && test' s.next)
  rw [h hs]
  cases htest : test s with
  | false => rfl
  | true => rw [hs.next_append, h' (hs.next hinner htest)]

end Steady

theorem steady_atChars {cs : List Char} (h : ';' ∉ cs.dropLast) : Steady x (atChars cs) := by
  induction cs with
  | nil =>
      intro s _
      cases s <;> cases x <;> rfl
  | cons c cs ih =>
      cases cs with
      | nil => exact OfHead.steady ⟨fun t r r' => by cases t <;> rfl, fun d body r r' => rfl⟩
      | cons d cs =>
          have hc : c ≠ ';' := by
            rintro rfl
            simp at h
          have hrest := ih fun hmem => h (List.mem_cons_of_mem _ hmem)
          rintro s hs
          cases s with
          | nil =>
              rw [hs.eq_nil]
              rfl
          | group d' body r => rfl
          | leaf t r =>
              cases t with
              | punct e joint =>
                  -- where the character is the right one it is no semicolon, so the next one is still before the end
                  show (c == e && joint && atChars (d :: cs) (r ++ x)) = (c == e && joint && atChars (d :: cs) r)
                  by_cases he : c = e
                  · have hinner : Inner (atChars [c]) := ⟨fun _ _ => by simp [atChars, hc], fun _ _ => rfl⟩
                    have hfits : Fits x r := hs.next hinner (by simp [atChars, he])
                    rw [hrest hfits]
                  · have hne : (c == e) = false := by simpa using he
                    rw [hne]
                    rfl
              | word w => rfl
              | lifetime l => rfl
              | literal l => rfl

theorem steady_atSign {σ : String} (h : ';' ∉ σ.toList.dropLast) : Steady x (atSign σ) := steady_atChars h

end

/-! ## Parsers -/

/-- What the first parser reads without coming to the end, the second one reads with more tokens behind it. -/
def Extends {α : Type} (x : Tokens) (p p' : Parser Tokens α) : Prop :=
  ∀ ⦃s a r⦄, p s = some (a, r) → Fits x r → Fits x s ∧ p' (s ++ x) = some (a, r ++ x)

namespace Extends

variable {α β : Type} {x : Tokens}

/-- Nothing is added to what is read by the same parser. -/
theorem refl (p : Parser Tokens α) : Extends .nil p p := by
  intro s a r h _
  refine ⟨.nil s, ?_⟩
  rw [Tokens.append_nil, Tokens.append_nil]
  exact h

theorem pure (a : α) : Extends x (Pure.pure a : Parser Tokens α) (Pure.pure a) := by
  intro s b r h hr
  cases h
  exact ⟨hr, rfl⟩

theorem failure : Extends x (failure : Parser Tokens α) failure := by
  intro s a r h
  exact absurd h nofun

/-- After a failure nothing is read. -/
theorem failureBind {f f' : α → Parser Tokens β} : Extends x (Alternative.failure >>= f) (Alternative.failure >>= f') := by
  intro s b r h
  exact absurd h nofun

theorem bind {p p' : Parser Tokens α} {f f' : α → Parser Tokens β} (hp : Extends x p p')
    (hf : ∀ a, Extends x (f a) (f' a)) : Extends x (p >>= f) (p' >>= f') := by
  intro s b e h he
  obtain ⟨⟨a, r⟩, ha, hb⟩ := Option.bind_eq_some_iff.1 h
  obtain ⟨hr, hb'⟩ := hf a hb he
  obtain ⟨hs, ha'⟩ := hp ha hr
  exact ⟨hs, (bind_of_eq ha').trans hb'⟩

theorem ite {c : Prop} [Decidable c] {p p' q q' : Parser Tokens α} (hp : Extends x p p') (hq : Extends x q q') :
    Extends x (if c then p else q) (if c then p' else q') := by
  split
  · exact hp
  · exact hq

/-- A test that is steady may decide how to go on. -/
theorem look {test : Tokens → Bool} (ht : Steady x test) {f f' : Bool → Parser Tokens β}
    (hf : ∀ b, Extends x (f b) (f' b)) : Extends x (look test >>= f) (look test >>= f') := by
  intro s b e h he
  rw [look_bind] at h ⊢
  obtain ⟨hs, hb⟩ := hf (test s) h he
  exact ⟨hs, by rw [ht hs]; exact hb⟩

theorem branch {test : Tokens → Bool} (ht : Steady x test) {p p' q q' : Parser Tokens α} (hp : Extends x p p')
    (hq : Extends x q q') : Extends x (do if ← Parser.look test then p else q) (do if ← Parser.look test then p' else q') :=
  .look ht fun _ => .ite hp hq

theorem require {test : Tokens → Bool} (ht : Steady x test) : Extends x (require test) (require test) := by
  intro s a r h hr
  rw [Parser.require] at h ⊢
  split at h
  · rename_i htest
    cases h
    refine ⟨hr, ?_⟩
    rw [ht hr, if_pos htest]
  · cases h

/-- The tokens that a part starts at are longer afterwards. -/
theorem start {f f' : Tokens → Parser Tokens β} (hf : ∀ s, Extends x (f s) (f' (s ++ x))) :
    Extends x (Parser.look id >>= f) (Parser.look id >>= f') := by
  intro s b e h he
  exact hf s h he

theorem length_append (a b : Tokens) : (a ++ b).length = a.length + b.length := by
  induction a with
  | nil => simp [Tokens.length]
  | leaf t r ih =>
      simp only [Tokens.leaf_append, Tokens.length, ih]
      omega
  | group d body r _ ih =>
      simp only [Tokens.group_append, Tokens.length, ih]
      omega

theorem take_append {n : Nat} {a : Tokens} (h : n ≤ a.length) (b : Tokens) : (a ++ b).take n = a.take n := by
  induction n generalizing a with
  | zero => rfl
  | succ n ih =>
      cases a with
      | nil => simp [Tokens.length] at h
      | leaf t r => simp [Tokens.take, ih (Nat.le_of_succ_le_succ h)]
      | group d body r => simp [Tokens.take, ih (Nat.le_of_succ_le_succ h)]

/-- What has been taken is the same. -/
theorem since (start : Tokens) : Extends x (since start) (Source.since (start ++ x)) := by
  intro s a r h hr
  cases h
  refine ⟨hr, ?_⟩
  have hlength : (start ++ x).length - (s ++ x).length = start.length - s.length := by
    rw [length_append, length_append]
    omega
  rw [Source.since, hlength, take_append (Nat.sub_le _ _)]

/-! ### Tokens -/

/-- A parser of a single token that is no group: what it makes of the token does not depend on the rest. -/
theorem ofLeaf {p : Parser Tokens α} (hnil : p .nil = none)
    (hleaf : ∀ t r, p (.leaf t r) = (p (.leaf t .nil)).map fun y => (y.1, r)) (hgroup : ∀ d body r, p (.group d body r) = none) :
    Extends x p p := by
  intro s a r h hr
  cases s with
  | nil => simp [hnil] at h
  | group d body s => simp [hgroup] at h
  | leaf t s =>
      rw [hleaf] at h
      obtain ⟨y, hy, hpair⟩ := Option.map_eq_some_iff.1 h
      cases hpair
      refine ⟨hr.leaf t, ?_⟩
      show p (.leaf t (r ++ x)) = _
      rw [hleaf, hy]
      rfl

theorem word (w : String) : Extends x (word w) (Source.word w) := by
  refine .ofLeaf rfl ?_ fun _ _ _ => rfl
  intro t r
  cases t with
  | word n => by_cases hn : n = w <;> simp [Source.word, hn]
  | _ => rfl

theorem anyWord : Extends x anyWord Source.anyWord := by
  refine .ofLeaf rfl ?_ fun _ _ _ => rfl
  intro t r
  cases t <;> rfl

theorem name : Extends x name Source.name := by
  refine .ofLeaf rfl ?_ fun _ _ _ => rfl
  intro t r
  cases t with
  | word n => by_cases hn : n ∈ reserved <;> simp [Source.name, hn]
  | _ => rfl

theorem lifetime : Extends x lifetime Source.lifetime := by
  refine .ofLeaf rfl ?_ fun _ _ _ => rfl
  intro t r
  cases t <;> rfl

theorem chars (cs : List Char) : Extends x (chars cs) (Source.chars cs) := by
  induction cs with
  | nil =>
      intro s a r h hr
      cases h
      exact ⟨hr, rfl⟩
  | cons c cs ih =>
      cases cs with
      | nil =>
          refine .ofLeaf rfl ?_ fun _ _ _ => rfl
          intro t r
          cases t with
          | punct d joint => by_cases hd : c = d <;> simp [Source.chars, hd]
          | _ => rfl
      | cons c' cs =>
          intro s a r h hr
          cases s with
          | nil => cases h
          | group d body s => cases h
          | leaf t s =>
              cases t with
              | punct d joint =>
                  -- a character of a sign, but not its last one: the next has to follow directly
                  have hstep : ∀ e, Source.chars (c :: c' :: cs) (.leaf (.punct d joint) e) =
                      if c = d ∧ joint = true then Source.chars (c' :: cs) e else none := fun _ => rfl
                  rw [hstep] at h
                  by_cases hd : c = d ∧ joint = true
                  · rw [if_pos hd] at h
                    obtain ⟨hs, hrest⟩ := ih h hr
                    refine ⟨hs.leaf _, ?_⟩
                    rw [Tokens.leaf_append, hstep, if_pos hd, hrest]
                  · rw [if_neg hd] at h
                    cases h
              | _ => cases h

theorem sign (σ : String) : Extends x (sign σ) (Source.sign σ) := chars σ.toList

theorem anyGroup : Extends x anyGroup Source.anyGroup := by
  intro s a r h hr
  cases s with
  | group d body s =>
      cases h
      exact ⟨hr.group d body, rfl⟩
  | _ => exact absurd h nofun

theorem literal : Extends x literal Source.literal := by
  intro s a r h hr
  fun_cases Source.literal s with
  | case1 w rest =>
      cases h
      exact ⟨hr.leaf _, rfl⟩
  | case2 w rest hw =>
      rw [Source.literal, if_pos hw] at h
      cases h
      exact ⟨hr.leaf _, if_pos hw⟩
  | case3 w rest hw =>
      rw [Source.literal, if_neg hw] at h
      exact absurd h nofun
  | case4 joint w rest hw =>
      rw [Source.literal, if_pos hw] at h
      cases h
      exact ⟨(hr.leaf _).leaf _, if_pos hw⟩
  | case5 joint w rest hw =>
      rw [Source.literal, if_neg hw] at h
      exact absurd h nofun
  | case6 _ hliteral hword hnegative =>
      rw [Source.literal] at h
      · exact absurd h nofun
      · exact hliteral
      · exact hword
      · exact hnegative

/-- The content of a group is read to its end; behind it nothing is added. -/
theorem inside (d : Delimiter) {p p' : Parser Tokens α} (hp : Extends .nil p p') :
    Extends x (inside d p) (Source.inside d p') := by
  intro s a r h hr
  cases s with
  | nil => exact absurd h nofun
  | leaf t s => exact absurd h nofun
  | group d' body s =>
      obtain ⟨hd, hcontent, rfl⟩ := inside_eq.1 h
      obtain ⟨-, hcontent'⟩ := hp hcontent (.nil _)
      rw [Tokens.append_nil, Tokens.append_nil] at hcontent'
      exact ⟨hr.group d' body, inside_eq.2 ⟨hd, hcontent', rfl⟩⟩

/-- Where the success of a parser is a steady test, its failure is steady as well. -/
theorem none_append {p : Parser Tokens α} (ht : Steady x (would p)) {s : Tokens} (hs : Fits x s) (h : p s = none) :
    p (s ++ x) = none := by
  have hsame : would p (s ++ x) = would p s := ht hs
  simpa [would, h] using hsame

/-- A parser whose success is a steady test may be tried. -/
theorem accepts {p : Parser Tokens α} (hp : Extends x p p) (ht : Steady x (would p)) :
    Extends x (accepts p) (Parser.accepts p) := by
  intro s b r h hr
  rw [Parser.accepts] at h ⊢
  cases hps : p s with
  | some y =>
      obtain ⟨a, e⟩ := y
      rw [hps] at h
      cases h
      obtain ⟨hs, hps'⟩ := hp hps hr
      exact ⟨hs, by rw [hps']⟩
  | none =>
      -- a parser that fails has to fail with more tokens behind as well
      rw [hps] at h
      obtain ⟨rfl, rfl⟩ : false = b ∧ s = r := by simpa using h
      exact ⟨hr, by rw [none_append ht hr hps]⟩

/-! ### Repetition -/

theorem size_lt_append {a b : Tokens} (h : Measured.size a < Measured.size b) :
    Measured.size (a ++ x) < Measured.size (b ++ x) := by
  show (a ++ x).size < (b ++ x).size
  have hlt : a.size < b.size := h
  rw [Tokens.size_append, Tokens.size_append]
  omega

theorem many {stop : Tokens → Bool} (hstop : Steady x stop) {item item' : Parser Tokens α}
    (hitem : Extends x item item') : Extends x (many stop item) (Parser.many stop item') := by
  intro s as e h he
  -- what is left over fits by assumption, and what an item starts at fits because the rest after it does
  fun_induction Parser.many stop item s generalizing as with
  | case1 s hs =>
      cases h
      exact ⟨he, many_stop (by rw [hstop he, hs])⟩
  | case2 s _ hnone => cases h
  | case3 s _ a r ha hlt hnone => cases h
  | case4 s hs a r ha hlt bs e' hmore ih =>
      cases h
      obtain ⟨hr, hmore'⟩ := ih hmore
      obtain ⟨hfits, ha'⟩ := hitem ha hr
      refine ⟨hfits, ?_⟩
      rw [many_item (by rw [hstop hfits]; simpa using hs) ha' (size_lt_append hlt), hmore']
      rfl
  | case5 s _ a r ha hlt => cases h

theorem separated {stop : Tokens → Bool} (hstop : Steady x stop) {separator : Parser Tokens Unit}
    (hseparator : Extends x separator separator) {item item' : Parser Tokens α} (hitem : Extends x item item') :
    Extends x (separated stop separator item) (Parser.separated stop separator item') := by
  intro s y e h he
  fun_induction Parser.separated stop separator item s generalizing y with
  | case1 s hs =>
      cases h
      exact ⟨he, separated_stop (by rw [hstop he, hs])⟩
  | case2 s _ hnone => exact absurd h nofun
  | case3 s hs a r ha hlast =>
      cases h
      obtain ⟨hfits, ha'⟩ := hitem ha he
      exact ⟨hfits, separated_last (by rw [hstop hfits]; simpa using hs) ha' (by rw [hstop he, hlast])⟩
  | case4 s _ a r ha _ hnone => exact absurd h nofun
  | case5 s _ a r ha _ next hnext hlt hnone => exact absurd h nofun
  | case6 s hs a r ha hmore next hnext hlt trailing e' hrest ih =>
      cases h
      obtain ⟨hfitsNext, hrest'⟩ := ih hrest
      obtain ⟨hfitsRest, hnext'⟩ := hseparator hnext hfitsNext
      obtain ⟨hfits, ha'⟩ := hitem ha hfitsRest
      exact ⟨hfits, separated_trailing (by rw [hstop hfits]; simpa using hs) ha'
        (by rw [hstop hfitsRest]; simpa using hmore) hnext' (size_lt_append hlt) hrest'⟩
  | case7 s hs a r ha hmore next hnext hlt b bs trailing e' hrest ih =>
      cases h
      obtain ⟨hfitsNext, hrest'⟩ := ih hrest
      obtain ⟨hfitsRest, hnext'⟩ := hseparator hnext hfitsNext
      obtain ⟨hfits, ha'⟩ := hitem ha hfitsRest
      exact ⟨hfits, separated_again (by rw [hstop hfits]; simpa using hs) ha'
        (by rw [hstop hfitsRest]; simpa using hmore) hnext' (size_lt_append hlt) hrest'⟩
  | case8 s _ a r ha _ next hnext hlt => exact absurd h nofun

theorem chained {link link' : α → Parser Tokens Link} (hlink : ∀ a, Extends x (link a) (link' a))
    {item item' : Parser Tokens α} (hitem : Extends x item item') :
    Extends x (chained link item) (Parser.chained link' item') := by
  intro s y e h he
  fun_induction Parser.chained link item s generalizing y with
  | case1 s hnone => exact absurd h nofun
  | case2 s a r ha hnone => exact absurd h nofun
  | case3 s a r ha e' hdone =>
      cases h
      obtain ⟨hfitsRest, hdone'⟩ := hlink a hdone he
      obtain ⟨hfits, ha'⟩ := hitem ha hfitsRest
      exact ⟨hfits, chained_done ha' hdone'⟩
  | case4 s a r ha e' htrailing =>
      cases h
      obtain ⟨hfitsRest, htrailing'⟩ := hlink a htrailing he
      obtain ⟨hfits, ha'⟩ := hitem ha hfitsRest
      exact ⟨hfits, chained_trailing ha' htrailing'⟩
  | case5 s a r ha next hagain hlt hnone => exact absurd h nofun
  | case6 s a r ha next hagain hlt as trailing e' hrest ih =>
      cases h
      obtain ⟨hfitsNext, hrest'⟩ := ih hrest
      obtain ⟨hfitsRest, hagain'⟩ := hlink a hagain hfitsNext
      obtain ⟨hfits, ha'⟩ := hitem ha hfitsRest
      exact ⟨hfits, chained_again ha' hagain' (size_lt_append hlt) hrest'⟩
  | case7 s a r ha next hagain hlt => exact absurd h nofun

/-! ### Phrases -/

theorem wordPhrase (w : String) : Extends x (Phrase.word w) (Phrase.word w) := .bind (.word w) fun _ => .pure _

theorem signPhrase (σ : String) : Extends x (Phrase.sign σ) (Phrase.sign σ) := .bind (.sign σ) fun _ => .pure _

theorem namePhrase : Extends x Phrase.name Phrase.name := .bind .name fun _ => .pure _

theorem anyWordPhrase : Extends x Phrase.anyWord Phrase.anyWord := .bind .anyWord fun _ => .pure _

theorem lifetimePhrase : Extends x Phrase.lifetime Phrase.lifetime := .bind .lifetime fun _ => .pure _

theorem enclosed (d : Delimiter) {p p' : Phrase} (hp : Extends .nil p p') :
    Extends x (Phrase.enclosed d p) (Phrase.enclosed d p') := .bind (.inside d hp) fun _ => .pure _

theorem nothing : Extends x Phrase.nothing Phrase.nothing := .pure _

theorem allNil : Extends x (Phrase.all []) (Phrase.all []) := .nothing

theorem allCons {p p' : Phrase} {ps ps' : List Phrase} (hp : Extends x p p')
    (hps : Extends x (Phrase.all ps) (Phrase.all ps')) : Extends x (Phrase.all (p :: ps)) (Phrase.all (p' :: ps')) :=
  .bind hp fun _ => .bind hps fun _ => .pure _

theorem maybe {test : Tokens → Bool} (ht : Steady x test) {p p' : Phrase} (hp : Extends x p p') :
    Extends x (Phrase.maybe test p) (Phrase.maybe test p') := by
  intro s a r h hr
  cases htest : test s with
  | true =>
      rw [Phrase.maybe_some htest] at h
      obtain ⟨hs, ha⟩ := hp h hr
      exact ⟨hs, (Phrase.maybe_some (by rw [ht hs, htest])).trans ha⟩
  | false =>
      rw [Phrase.maybe_none htest] at h
      cases h
      exact ⟨hr, Phrase.maybe_none (by rw [ht hr, htest])⟩

theorem firstNil : Extends x (Phrase.first [] : Parser Tokens α) (Phrase.first []) := .failure

theorem firstCons {test : Tokens → Bool} (ht : Steady x test) {p p' : Parser Tokens α}
    {ps ps' : List ((Tokens → Bool) × Parser Tokens α)} (hp : Extends x p p')
    (hps : Extends x (Phrase.first ps) (Phrase.first ps')) :
    Extends x (Phrase.first ((test, p) :: ps)) (Phrase.first ((test, p') :: ps')) := by
  intro s a r h hr
  cases htest : test s with
  | true =>
      rw [Phrase.first_then htest] at h
      obtain ⟨hs, ha⟩ := hp h hr
      exact ⟨hs, (Phrase.first_then (by rw [ht hs, htest])).trans ha⟩
  | false =>
      rw [Phrase.first_else htest] at h
      obtain ⟨hs, ha⟩ := hps h hr
      exact ⟨hs, (Phrase.first_else (by rw [ht hs, htest])).trans ha⟩

theorem several {stop : Tokens → Bool} (hstop : Steady x stop) {item item' : Phrase} (hitem : Extends x item item') :
    Extends x (Phrase.several stop item) (Phrase.several stop item') := .bind (.many hstop hitem) fun _ => .pure _

theorem listed {stop : Tokens → Bool} (hstop : Steady x stop) (separator : String) {item item' : Phrase}
    (hitem : Extends x item item') :
    Extends x (Phrase.listed stop separator item) (Phrase.listed stop separator item') :=
  .bind (.separated hstop (.sign separator) hitem) fun _ => .pure _

theorem provided {test : Tokens → Bool} (ht : Steady x test) : Extends x (Phrase.provided test) (Phrase.provided test) :=
  .bind (.require ht) fun _ => .nothing

theorem row {stop : Tokens → Bool} (hstop : Steady x stop) {separator : String} (hseparator : ';' ∉ separator.toList.dropLast)
    {item item' : Phrase} (hitem : Extends x item item') :
    Extends x (Phrase.row stop separator item) (Phrase.row stop separator item') := by
  refine .maybe hstop.not (.bind (.chained (fun _ => ?_) hitem) fun _ => .pure _)
  exact .branch (steady_atSign hseparator) (.bind (.sign separator) fun _ => .branch hstop (.pure _) (.pure _)) (.pure _)

end Extends

end QueryContract.Source
