import Mathlib.Data.List.Forall2
import QueryContract.Proofs.Extension
import QueryContract.Source.Grammar

/-!
# `Proofs.Respacing` — spaces before a semicolon

A punctuation character knows whether another one follows it directly. Before a semicolon this is of no use: no operator
has a semicolon behind its first character. So a space more or less before a semicolon changes nothing but what a parser
copies from its input.

* `Respaced`               — the same tokens, with or without a space before semicolons;
* `Blind`, `Blind.*`       — tests that do not see the space;
* `Unmoved`, `Unmoved.*`   — parsers that take the same tokens and have related results: one lemma for each combinator.
-/

namespace QueryContract.Source

open QueryContract.Parser

/-! ## Sequences -/

/-- The same tokens, but a punctuation character directly before a semicolon may know of it or not. -/
inductive Respaced : Tokens → Tokens → Prop where
  | refl (s : Tokens) : Respaced s s
  | mark (c : Char) (joint joint' after : Bool) (r : Tokens) :
      Respaced (.leaf (.punct c joint) (.leaf (.punct ';' after) r)) (.leaf (.punct c joint') (.leaf (.punct ';' after) r))
  | leaf (t : Token) {r r' : Tokens} (h : Respaced r r') : Respaced (.leaf t r) (.leaf t r')
  | group (d : Delimiter) (body : Tokens) {r r' : Tokens} (h : Respaced r r') :
      Respaced (.group d body r) (.group d body r')

namespace Respaced

variable {s s' r : Tokens}

theorem eq_nil (h : Respaced .nil s) : s = .nil := by
  cases h
  rfl

theorem size_eq (h : Respaced s s') : s'.size = s.size := by
  induction h with
  | refl s => rfl
  | mark c joint joint' after r => rfl
  | leaf t _ ih => rw [Tokens.size, Tokens.size, ih]
  | group d body _ ih => rw [Tokens.size, Tokens.size, ih]

theorem next (h : Respaced s s') : Respaced s.next s'.next := by
  cases h with
  | refl s => exact .refl _
  | mark c joint joint' after r => exact .refl _
  | leaf t h => exact h
  | group d body h => exact h

/-- A token that is no punctuation character stays as it is, -/
theorem exists_leaf {t : Token} (h : Respaced (.leaf t r) s') (ht : ∀ c joint, t ≠ .punct c joint) :
    ∃ r', s' = .leaf t r' ∧ Respaced r r' := by
  cases h with
  | refl => exact ⟨r, rfl, .refl r⟩
  | mark c joint => exact absurd rfl (ht c joint)
  | leaf t h => exact ⟨_, rfl, h⟩

/-- a punctuation character stays the same character, and knows of the next one as before unless that is a semicolon, -/
theorem exists_punct {c : Char} {joint : Bool} (h : Respaced (.leaf (.punct c joint) r) s') :
    ∃ joint' r', s' = .leaf (.punct c joint') r' ∧ Respaced r r' ∧
      (joint' = joint ∨ ∃ after e, r = .leaf (.punct ';' after) e ∧ r' = r) := by
  cases h with
  | refl => exact ⟨joint, r, rfl, .refl r, .inl rfl⟩
  | mark c joint joint' after e => exact ⟨joint', _, rfl, .refl _, .inr ⟨after, e, rfl, rfl⟩⟩
  | leaf t h => exact ⟨joint, _, rfl, h, .inl rfl⟩

/-- and a group holds the same tokens. -/
theorem exists_group {d : Delimiter} {body : Tokens} (h : Respaced (.group d body r) s') :
    ∃ r', s' = .group d body r' ∧ Respaced r r' := by
  cases h with
  | refl => exact ⟨r, rfl, .refl r⟩
  | group d body h => exact ⟨_, rfl, h⟩

end Respaced

/-! ## Tests -/

/-- The test does not see spaces before semicolons. -/
def Blind (test : Tokens → Bool) : Prop := ∀ ⦃s s'⦄, Respaced s s' → test s' = test s

namespace Blind

variable {test test' : Tokens → Bool}

theorem const (b : Bool) : Blind fun _ => b := fun _ _ _ => rfl

theorem not (h : Blind test) : Blind (!test ·) := by
  intro s s' hs
  show (!test s') = !test s
  rw [h hs]

theorem and (h : Blind test) (h' : Blind test') : Blind fun s => test s && test' s := by
  intro s s' hs
  show (test s' && test' s') = (test s && test' s)
  rw [h hs, h' hs]

theorem or (h : Blind test) (h' : Blind test') : Blind fun s => test s || test' s := by
  intro s s' hs
  show (test s' || test' s') = (test s || test' s)
  rw [h hs, h' hs]

theorem next (h : Blind test) : Blind fun s => test s.next := fun _ _ hs => h hs.next

/-- A test of the first token alone, for which all punctuation characters are one by one the same. -/
theorem ofHead (h : OfHead test)
    (hpunct : ∀ c joint joint' r, test (.leaf (.punct c joint) r) = test (.leaf (.punct c joint') r)) : Blind test := by
  intro s s' hs
  cases hs with
  | refl s => rfl
  | mark c joint joint' after r => exact hpunct c joint' joint _
  | leaf t hr => exact h.leaf t _ _
  | group d body hr => exact h.group d body _ _

theorem atChars {cs : List Char} (h : ';' ∉ cs.tail) : Blind (atChars cs) := by
  induction cs with
  | nil =>
      intro s s' hs
      cases hs <;> rfl
  | cons c cs ih =>
      cases cs with
      | nil =>
          refine ofHead ⟨fun t r r' => by cases t <;> rfl, fun _ _ _ _ => rfl⟩ ?_
          intro c joint joint' r
          rfl
      | cons d cs =>
          have hrest : Blind (Source.atChars (d :: cs)) := ih fun hmem => h (List.mem_cons_of_mem _ hmem)
          have hstep : ∀ e joint r, Source.atChars (c :: d :: cs) (.leaf (.punct e joint) r) =
              (c == e && joint && Source.atChars (d :: cs) r) := fun _ _ _ => rfl
          intro s s' hs
          cases hs with
          | refl s => rfl
          | group d' body hr => rfl
          | mark e joint joint' after r =>
              -- the next character of the operator is no semicolon
              have hd : d ≠ ';' := fun hd => h (by simp [hd])
              have hnone : Source.atChars (d :: cs) (.leaf (.punct ';' after) r) = false := by
                cases cs <;> simp [Source.atChars, hd]
              rw [hstep, hstep, hnone, Bool.and_false, Bool.and_false]
          | leaf t hr =>
              cases t with
              | punct e joint => rw [hstep, hstep, hrest hr]
              | _ => rfl

theorem atSign {σ : String} (h : ';' ∉ σ.toList.tail) : Blind (atSign σ) := atChars h

theorem atWord (w : String) : Blind (atWord w) :=
  ofHead ⟨fun t r r' => by cases t <;> rfl, fun _ _ _ _ => rfl⟩ fun _ _ _ _ => rfl

theorem atWords (ws : List String) : Blind (atWords ws) := by
  intro s s' hs
  have hsame : (fun w => Source.atWord w s') = fun w => Source.atWord w s := funext fun w => atWord w hs
  show ws.any (fun w => Source.atWord w s') = ws.any fun w => Source.atWord w s
  rw [hsame]

theorem atAnyWord : Blind atAnyWord :=
  ofHead ⟨fun t r r' => by cases t <;> rfl, fun _ _ _ _ => rfl⟩ fun _ _ _ _ => rfl

theorem atName : Blind atName :=
  ofHead ⟨fun t r r' => by cases t <;> rfl, fun _ _ _ _ => rfl⟩ fun _ _ _ _ => rfl

theorem atLifetime : Blind atLifetime :=
  ofHead ⟨fun t r r' => by cases t <;> rfl, fun _ _ _ _ => rfl⟩ fun _ _ _ _ => rfl

theorem atGroup (d : Delimiter) : Blind (atGroup d) := ofHead ⟨fun _ _ _ => rfl, fun _ _ _ _ => rfl⟩ fun _ _ _ _ => rfl

theorem isEmpty : Blind Tokens.isEmpty := ofHead ⟨fun _ _ _ => rfl, fun _ _ _ _ => rfl⟩ fun _ _ _ _ => rfl

theorem atLiteral : Blind atLiteral := by
  intro s s' hs
  cases hs with
  | refl s => rfl
  | group d body hr => rfl
  | mark c joint joint' after r =>
      -- a sign before a semicolon belongs to no number
      have hnone : ∀ joint, Source.atLiteral (.leaf (.punct c joint) (.leaf (.punct ';' after) r)) = false := by
        intro joint
        by_cases hc : c = '-' <;> simp [Source.atLiteral, hc]
      rw [hnone, hnone]
  | leaf t hr =>
      cases t with
      | punct c joint =>
          by_cases hc : c = '-'
          · subst hc
            cases hr with
            | leaf t hr => cases t <;> rfl
            | _ => rfl
          · simp [Source.atLiteral, hc]
      | _ => rfl

end Blind

/-! ## Parsers -/

/-- Any two results. -/
def Any {α β : Type} (_ : α) (_ : β) : Prop := True

/-- What the first parser takes, the second one takes with other spaces before semicolons, with a related result. -/
def Unmoved {α β : Type} (R : α → β → Prop) (p : Parser Tokens α) (p' : Parser Tokens β) : Prop :=
  ∀ ⦃s s' a r⦄, Respaced s s' → p s = some (a, r) → ∃ a' r', p' s' = some (a', r') ∧ R a a' ∧ Respaced r r'

namespace Unmoved

variable {α α' β β' : Type} {R : α → α' → Prop} {Q : β → β' → Prop}

theorem mono {R' : α → α' → Prop} {p : Parser Tokens α} {p' : Parser Tokens α'} (h : Unmoved R p p')
    (hR : ∀ a a', R a a' → R' a a') : Unmoved R' p p' := by
  intro s s' a r hs ha
  obtain ⟨a', r', ha', hrel, hr⟩ := h hs ha
  exact ⟨a', r', ha', hR a a' hrel, hr⟩

theorem any {p : Parser Tokens α} {p' : Parser Tokens α'} (h : Unmoved R p p') : Unmoved Any p p' :=
  h.mono fun _ _ _ => trivial

theorem pure {a : α} {a' : α'} (h : R a a') : Unmoved R (Pure.pure a) (Pure.pure a') := by
  intro s s' b r hs hb
  cases hb
  exact ⟨a', s', rfl, h, hs⟩

theorem failure : Unmoved R (failure : Parser Tokens α) (failure : Parser Tokens α') := by
  intro s s' a r _ h
  exact absurd h nofun

theorem bind {p : Parser Tokens α} {p' : Parser Tokens α'} {f : α → Parser Tokens β} {f' : α' → Parser Tokens β'}
    (hp : Unmoved R p p') (hf : ∀ a a', R a a' → Unmoved Q (f a) (f' a')) : Unmoved Q (p >>= f) (p' >>= f') := by
  intro s s' b e hs h
  obtain ⟨⟨a, r⟩, ha, hb⟩ := Option.bind_eq_some_iff.1 h
  obtain ⟨a', r', ha', hrel, hr⟩ := hp hs ha
  obtain ⟨b', e', hb', hq, he⟩ := hf a a' hrel hr hb
  exact ⟨b', e', (bind_of_eq ha').trans hb', hq, he⟩

/-- The first of two parsers has the same result. -/
theorem bindEq {p p' : Parser Tokens α} {f : α → Parser Tokens β} {f' : α → Parser Tokens β'}
    (hp : Unmoved Eq p p') (hf : ∀ a, Unmoved Q (f a) (f' a)) : Unmoved Q (p >>= f) (p' >>= f') :=
  hp.bind fun a _ ha => ha ▸ hf a

/-- After a failure nothing is read. -/
theorem failureBind {f : α → Parser Tokens β} {f' : α' → Parser Tokens β'} :
    Unmoved Q (Alternative.failure >>= f) (Alternative.failure >>= f') := by
  intro s s' b r _ h
  exact absurd h nofun

theorem ite {c : Prop} [Decidable c] {p q : Parser Tokens α} {p' q' : Parser Tokens α'} (hp : Unmoved R p p')
    (hq : Unmoved R q q') : Unmoved R (if c then p else q) (if c then p' else q') := by
  split
  · exact hp
  · exact hq

/-- A blind test may decide how to go on. -/
theorem look {test : Tokens → Bool} (ht : Blind test) {f : Bool → Parser Tokens β} {f' : Bool → Parser Tokens β'}
    (hf : ∀ b, Unmoved Q (f b) (f' b)) : Unmoved Q (Parser.look test >>= f) (Parser.look test >>= f') := by
  intro s s' b e hs h
  rw [look_bind] at h
  obtain ⟨b', e', hb', hq, he⟩ := hf (test s) hs h
  exact ⟨b', e', by rw [look_bind, ht hs, hb'], hq, he⟩

theorem branch {test : Tokens → Bool} (ht : Blind test) {p q : Parser Tokens α} {p' q' : Parser Tokens α'}
    (hp : Unmoved R p p') (hq : Unmoved R q q') :
    Unmoved R (do if ← Parser.look test then p else q) (do if ← Parser.look test then p' else q') :=
  .look ht fun _ => .ite hp hq

theorem require {test : Tokens → Bool} (ht : Blind test) : Unmoved Eq (Parser.require test) (Parser.require test) := by
  intro s s' a r hs h
  rw [Parser.require] at h ⊢
  rw [ht hs]
  split at h
  · rename_i htest
    cases h
    exact ⟨(), s', if_pos htest, rfl, hs⟩
  · cases h

/-- The tokens that a part starts at may differ themselves. -/
theorem start {f : Tokens → Parser Tokens β} {f' : Tokens → Parser Tokens β'} (hf : ∀ s s', Unmoved Q (f s) (f' s')) :
    Unmoved Q (Parser.look id >>= f) (Parser.look id >>= f') := by
  intro s s' b e hs h
  exact hf s s' hs h

theorem since (start start' : Tokens) : Unmoved Any (since start) (Source.since start') := by
  intro s s' a r hs h
  cases h
  exact ⟨_, s', rfl, trivial, hs⟩

/-! ### Tokens -/

/-- A parser of a single token that is no punctuation character and no group. -/
theorem ofLeaf {p : Parser Tokens α} (hnil : p .nil = none)
    (hleaf : ∀ t r, p (.leaf t r) = (p (.leaf t .nil)).map fun y => (y.1, r))
    (hpunct : ∀ c joint r, p (.leaf (.punct c joint) r) = none) (hgroup : ∀ d body r, p (.group d body r) = none) :
    Unmoved Eq p p := by
  intro s s' a r hs h
  cases s with
  | nil => simp [hnil] at h
  | group d body s => simp [hgroup] at h
  | leaf t s =>
      have ht : ∀ c joint, t ≠ .punct c joint := by
        rintro c joint rfl
        simp [hpunct] at h
      obtain ⟨e, rfl, he⟩ := hs.exists_leaf ht
      rw [hleaf] at h
      obtain ⟨y, hy, hpair⟩ := Option.map_eq_some_iff.1 h
      cases hpair
      exact ⟨_, e, by rw [hleaf, hy]; rfl, rfl, he⟩

theorem word (w : String) : Unmoved Eq (word w) (Source.word w) := by
  refine .ofLeaf rfl ?_ (fun _ _ _ => rfl) fun _ _ _ => rfl
  intro t r
  cases t with
  | word n => by_cases hn : n = w <;> simp [Source.word, hn]
  | _ => rfl

theorem anyWord : Unmoved Eq anyWord Source.anyWord := by
  refine .ofLeaf rfl ?_ (fun _ _ _ => rfl) fun _ _ _ => rfl
  intro t r
  cases t <;> rfl

theorem name : Unmoved Eq name Source.name := by
  refine .ofLeaf rfl ?_ (fun _ _ _ => rfl) fun _ _ _ => rfl
  intro t r
  cases t with
  | word n => by_cases hn : n ∈ reserved <;> simp [Source.name, hn]
  | _ => rfl

theorem lifetime : Unmoved Eq lifetime Source.lifetime := by
  refine .ofLeaf rfl ?_ (fun _ _ _ => rfl) fun _ _ _ => rfl
  intro t r
  cases t <;> rfl

theorem chars {cs : List Char} (h : ';' ∉ cs.tail) : Unmoved Eq (chars cs) (Source.chars cs) := by
  induction cs with
  | nil =>
      intro s s' a r hs ha
      cases ha
      exact ⟨(), s', rfl, rfl, hs⟩
  | cons c cs ih =>
      intro s s' a r hs ha
      cases s with
      | nil => cases cs <;> cases ha
      | group d body s => cases cs <;> cases ha
      | leaf t s =>
          cases t with
          | punct d joint =>
              obtain ⟨joint', e, rfl, he, hjoint⟩ := hs.exists_punct
              cases cs with
              | nil =>
                  have hstep : ∀ joint e, Source.chars [c] (.leaf (.punct d joint) e) =
                      if c = d then some ((), e) else none := fun _ _ => rfl
                  rw [hstep] at ha ⊢
                  split at ha
                  · rename_i hd
                    cases ha
                    exact ⟨(), e, if_pos hd, rfl, he⟩
                  · cases ha
              | cons c' cs =>
                  have hrest := ih fun hmem => h (List.mem_cons_of_mem _ hmem)
                  have hstep : ∀ joint e, Source.chars (c :: c' :: cs) (.leaf (.punct d joint) e) =
                      if c = d ∧ joint = true then Source.chars (c' :: cs) e else none := fun _ _ => rfl
                  rw [hstep] at ha ⊢
                  by_cases hd : c = d ∧ joint = true
                  · rw [if_pos hd] at ha
                    rcases hjoint with rfl | ⟨after, e', rfl, rfl⟩
                    · rw [if_pos hd]
                      exact hrest he ha
                    · -- the next character of the operator is no semicolon
                      have hc' : c' ≠ ';' := fun hc' => h (by simp [hc'])
                      cases cs <;> simp [Source.chars, hc'] at ha
                  · rw [if_neg hd] at ha
                    cases ha
          | _ => cases cs <;> cases ha

theorem sign {σ : String} (h : ';' ∉ σ.toList.tail) : Unmoved Eq (sign σ) (Source.sign σ) := chars h

theorem anyGroup : Unmoved Eq anyGroup Source.anyGroup := by
  intro s s' a r hs h
  cases s with
  | group d body s =>
      obtain ⟨e, rfl, he⟩ := hs.exists_group
      cases h
      exact ⟨_, e, rfl, rfl, he⟩
  | _ => exact absurd h nofun

theorem literal : Unmoved Eq literal Source.literal := by
  intro s s' a r hs h
  fun_cases Source.literal s with
  | case1 w rest =>
      obtain ⟨e, rfl, he⟩ := hs.exists_leaf nofun
      cases h
      exact ⟨_, e, rfl, rfl, he⟩
  | case2 w rest hw =>
      obtain ⟨e, rfl, he⟩ := hs.exists_leaf nofun
      rw [Source.literal, if_pos hw] at h
      cases h
      exact ⟨_, e, if_pos hw, rfl, he⟩
  | case3 w rest hw =>
      rw [Source.literal, if_neg hw] at h
      exact absurd h nofun
  | case4 joint w rest hw =>
      obtain ⟨joint', e, rfl, he, -⟩ := hs.exists_punct
      obtain ⟨e', rfl, he'⟩ := he.exists_leaf nofun
      rw [Source.literal, if_pos hw] at h
      cases h
      exact ⟨_, e', if_pos hw, rfl, he'⟩
  | case5 joint w rest hw =>
      rw [Source.literal, if_neg hw] at h
      exact absurd h nofun
  | case6 _ hliteral hword hnegative =>
      rw [Source.literal] at h
      · exact absurd h nofun
      · exact hliteral
      · exact hword
      · exact hnegative

/-- In a group nothing is different. -/
theorem inside (d : Delimiter) (p : Parser Tokens α) : Unmoved Eq (inside d p) (Source.inside d p) := by
  intro s s' a r hs h
  cases s with
  | nil => exact absurd h nofun
  | leaf t s => exact absurd h nofun
  | group d' body s =>
      obtain ⟨e, rfl, he⟩ := hs.exists_group
      obtain ⟨hd, hcontent, rfl⟩ := inside_eq.1 h
      exact ⟨a, e, inside_eq.2 ⟨hd, hcontent, rfl⟩, rfl, he⟩

/-- A parser whose success is a blind test may be tried. -/
theorem accepts {p : Parser Tokens α} (hp : Unmoved Any p p) (ht : Blind (would p)) :
    Unmoved Eq (accepts p) (Parser.accepts p) := by
  intro s s' b r hs h
  rw [Parser.accepts] at h ⊢
  cases hps : p s with
  | some y =>
      obtain ⟨a, e⟩ := y
      rw [hps] at h
      cases h
      obtain ⟨a', e', ha', -, he⟩ := hp hs hps
      exact ⟨true, e', by rw [ha'], rfl, he⟩
  | none =>
      have hsame : would p s' = would p s := ht hs
      have hps' : p s' = none := by simpa [would, hps] using hsame
      rw [hps] at h
      obtain ⟨rfl, rfl⟩ : false = b ∧ s = r := by simpa using h
      exact ⟨false, s', by rw [hps'], rfl, hs⟩

theorem takeSign {σ : String} (hne : σ.toList ≠ []) (h : ';' ∉ σ.toList.tail) :
    Unmoved Eq (takeSign σ) (Source.takeSign σ) := by
  refine .accepts (sign h).any ?_
  have hwould : would (Source.sign σ) = Source.atSign σ := funext fun s => would_chars hne s
  rw [hwould]
  exact .atSign h

theorem takeWord (w : String) : Unmoved Eq (takeWord w) (Source.takeWord w) := by
  refine .accepts (word w).any ?_
  have hwould : would (Source.word w) = Source.atWord w := funext fun s => would_word w s
  rw [hwould]
  exact .atWord w

theorem optionalLifetime : Unmoved Eq (optional Source.lifetime) (optional Source.lifetime) := by
  have happly : ∀ s, optional Source.lifetime s = ((Source.lifetime s).map fun y => (some y.1, y.2)).or (some (none, s)) := by
    intro s
    show ((some <$> Source.lifetime : Parser Tokens (Option String)) <|> Pure.pure none) s = _
    rw [orElse_apply, map_apply]
    rfl
  have hwould : would Source.lifetime = Source.atLifetime := by
    funext s
    cases s with
    | leaf t r => cases t <;> rfl
    | _ => rfl
  intro s s' a r hs h
  rw [happly] at h ⊢
  cases hlife : Source.lifetime s with
  | some y =>
      obtain ⟨l, e⟩ := y
      obtain ⟨l', e', hlife', rfl, he⟩ := lifetime hs hlife
      rw [hlife] at h
      cases h
      exact ⟨some l, e', by rw [hlife']; rfl, rfl, he⟩
  | none =>
      have hsame : would Source.lifetime s' = would Source.lifetime s := by
        rw [hwould]
        exact Blind.atLifetime hs
      have hlife' : Source.lifetime s' = none := by simpa [would, hlife] using hsame
      rw [hlife] at h
      cases h
      exact ⟨none, s', by rw [hlife']; rfl, rfl, hs⟩

/-! ### Repetition -/

theorem size_lt {a a' b b' : Tokens} (ha : Respaced a a') (hb : Respaced b b')
    (h : Measured.size a < Measured.size b) : Measured.size a' < Measured.size b' := by
  show a'.size < b'.size
  rw [ha.size_eq, hb.size_eq]
  exact h

theorem many {stop : Tokens → Bool} (hstop : Blind stop) {item : Parser Tokens α} {item' : Parser Tokens α'}
    (hitem : Unmoved R item item') : Unmoved (List.Forall₂ R) (many stop item) (Parser.many stop item') := by
  intro s s' as e hs h
  fun_induction Parser.many stop item s generalizing s' as with
  | case1 s hend =>
      cases h
      exact ⟨[], s', many_stop (by rw [hstop hs, hend]), .nil, hs⟩
  | case2 s _ hnone => cases h
  | case3 s _ a r ha hlt hnone => cases h
  | case4 s hgo a r ha hlt bs e' hmore ih =>
      cases h
      obtain ⟨a', r', ha', hrel, hr⟩ := hitem hs ha
      obtain ⟨bs', e'', hmore', hrels, he⟩ := ih hr hmore
      refine ⟨a' :: bs', e'', ?_, .cons hrel hrels, he⟩
      rw [many_item (by rw [hstop hs]; simpa using hgo) ha' (size_lt hr hs hlt), hmore']
      rfl
  | case5 s _ a r ha hlt => cases h

/-- Lists of related elements that end in the same way. -/
def Row (R : α → α' → Prop) (y : List α × Bool) (y' : List α' × Bool) : Prop := List.Forall₂ R y.1 y'.1 ∧ y.2 = y'.2

theorem separated {stop : Tokens → Bool} (hstop : Blind stop) {separator : Parser Tokens Unit}
    (hseparator : Unmoved Eq separator separator) {item : Parser Tokens α} {item' : Parser Tokens α'}
    (hitem : Unmoved R item item') :
    Unmoved (Row R) (separated stop separator item) (Parser.separated stop separator item') := by
  intro s s' y e hs h
  fun_induction Parser.separated stop separator item s generalizing s' y with
  | case1 s hend =>
      cases h
      exact ⟨([], false), s', separated_stop (by rw [hstop hs, hend]), ⟨.nil, rfl⟩, hs⟩
  | case2 s _ hnone => cases h
  | case3 s hgo a r ha hlast =>
      cases h
      obtain ⟨a', r', ha', hrel, hr⟩ := hitem hs ha
      exact ⟨([a'], false), r', separated_last (by rw [hstop hs]; simpa using hgo) ha' (by rw [hstop hr, hlast]),
        ⟨.cons hrel .nil, rfl⟩, hr⟩
  | case4 s _ a r ha _ hnone => cases h
  | case5 s _ a r ha _ next hnext hlt hnone => cases h
  | case6 s hgo a r ha hmore next hnext hlt trailing e' hrest ih =>
      cases h
      obtain ⟨a', r', ha', hrel, hr⟩ := hitem hs ha
      obtain ⟨⟨⟩, next', hnext', -, hnexts⟩ := hseparator hr hnext
      obtain ⟨⟨bs', trailing'⟩, e'', hrest', ⟨hrels, -⟩, he⟩ := ih hnexts hrest
      obtain rfl : bs' = [] := by
        cases hrels
        rfl
      exact ⟨([a'], true), e'', separated_trailing (by rw [hstop hs]; simpa using hgo) ha'
        (by rw [hstop hr]; simpa using hmore) hnext' (size_lt hnexts hs hlt) hrest', ⟨.cons hrel .nil, rfl⟩, he⟩
  | case7 s hgo a r ha hmore next hnext hlt b bs trailing e' hrest ih =>
      cases h
      obtain ⟨a', r', ha', hrel, hr⟩ := hitem hs ha
      obtain ⟨⟨⟩, next', hnext', -, hnexts⟩ := hseparator hr hnext
      obtain ⟨⟨more, trailing'⟩, e'', hrest', ⟨hrels, htrailing⟩, he⟩ := ih hnexts hrest
      obtain ⟨b', bs', rfl⟩ : ∃ b' bs', more = b' :: bs' := by
        cases hrels
        exact ⟨_, _, rfl⟩
      exact ⟨(a' :: b' :: bs', trailing'), e'', separated_again (by rw [hstop hs]; simpa using hgo) ha'
        (by rw [hstop hr]; simpa using hmore) hnext' (size_lt hnexts hs hlt) hrest', ⟨.cons hrel hrels, htrailing⟩, he⟩
  | case8 s _ a r ha _ next hnext hlt => cases h

theorem chained {link : α → Parser Tokens Link} {link' : α' → Parser Tokens Link}
    (hlink : ∀ a a', Unmoved Eq (link a) (link' a')) {item : Parser Tokens α} {item' : Parser Tokens α'}
    (hitem : Unmoved R item item') : Unmoved (Row R) (chained link item) (Parser.chained link' item') := by
  intro s s' y e hs h
  fun_induction Parser.chained link item s generalizing s' y with
  | case1 s hnone => cases h
  | case2 s a r ha hnone => cases h
  | case3 s a r ha e' hdone =>
      cases h
      obtain ⟨a', r', ha', hrel, hr⟩ := hitem hs ha
      obtain ⟨_, e'', hdone', rfl, he⟩ := hlink a a' hr hdone
      exact ⟨([a'], false), e'', chained_done ha' hdone', ⟨.cons hrel .nil, rfl⟩, he⟩
  | case4 s a r ha e' htrailing =>
      cases h
      obtain ⟨a', r', ha', hrel, hr⟩ := hitem hs ha
      obtain ⟨_, e'', htrailing', rfl, he⟩ := hlink a a' hr htrailing
      exact ⟨([a'], true), e'', chained_trailing ha' htrailing', ⟨.cons hrel .nil, rfl⟩, he⟩
  | case5 s a r ha next hagain hlt hnone => cases h
  | case6 s a r ha next hagain hlt as trailing e' hrest ih =>
      cases h
      obtain ⟨a', r', ha', hrel, hr⟩ := hitem hs ha
      obtain ⟨_, next', hagain', rfl, hnexts⟩ := hlink a a' hr hagain
      obtain ⟨⟨as', trailing'⟩, e'', hrest', ⟨hrels, htrailing⟩, he⟩ := ih hnexts hrest
      exact ⟨(a' :: as', trailing'), e'', chained_again ha' hagain' (size_lt hnexts hs hlt) hrest',
        ⟨.cons hrel hrels, htrailing⟩, he⟩
  | case7 s a r ha next hagain hlt => cases h

/-! ### Phrases -/

theorem wordPhrase (w : String) : Unmoved Eq (Phrase.word w) (Phrase.word w) := .bindEq (.word w) fun _ => .pure rfl

theorem signPhrase {σ : String} (h : ';' ∉ σ.toList.tail) : Unmoved Eq (Phrase.sign σ) (Phrase.sign σ) :=
  .bindEq (.sign h) fun _ => .pure rfl

theorem namePhrase : Unmoved Eq Phrase.name Phrase.name := .bindEq .name fun _ => .pure rfl

theorem anyWordPhrase : Unmoved Eq Phrase.anyWord Phrase.anyWord := .bindEq .anyWord fun _ => .pure rfl

theorem lifetimePhrase : Unmoved Eq Phrase.lifetime Phrase.lifetime := .bindEq .lifetime fun _ => .pure rfl

theorem enclosed (d : Delimiter) (p : Phrase) : Unmoved Eq (Phrase.enclosed d p) (Phrase.enclosed d p) :=
  .bindEq (.inside d p) fun _ => .pure rfl

theorem allNil : Unmoved Any (Phrase.all []) (Phrase.all []) := .pure trivial

theorem allCons {T : Tokens → Tokens → Prop} {p p' : Phrase} {ps ps' : List Phrase} (hp : Unmoved T p p')
    (hps : Unmoved Any (Phrase.all ps) (Phrase.all ps')) : Unmoved Any (Phrase.all (p :: ps)) (Phrase.all (p' :: ps')) :=
  .bind hp fun _ _ _ => .bind hps fun _ _ _ => .pure trivial

theorem maybe {T : Tokens → Tokens → Prop} (hnil : T .nil .nil) {test : Tokens → Bool} (ht : Blind test) {p p' : Phrase}
    (hp : Unmoved T p p') : Unmoved T (Phrase.maybe test p) (Phrase.maybe test p') := by
  intro s s' a r hs h
  cases htest : test s with
  | true =>
      rw [Phrase.maybe_some htest] at h
      obtain ⟨a', r', ha', hrel, hr⟩ := hp hs h
      exact ⟨a', r', (Phrase.maybe_some (by rw [ht hs, htest])).trans ha', hrel, hr⟩
  | false =>
      rw [Phrase.maybe_none htest] at h
      cases h
      exact ⟨.nil, s', Phrase.maybe_none (by rw [ht hs, htest]), hnil, hs⟩

theorem maybeWord (w : String) : Unmoved Eq (Phrase.maybeWord w) (Phrase.maybeWord w) :=
  .maybe rfl (.atWord w) (.wordPhrase w)

theorem maybeSign {σ : String} (h : ';' ∉ σ.toList.tail) : Unmoved Eq (Phrase.maybeSign σ) (Phrase.maybeSign σ) :=
  .maybe rfl (.atSign h) (.signPhrase h)

theorem firstNil : Unmoved R (Phrase.first [] : Parser Tokens α) (Phrase.first [] : Parser Tokens α') := .failure

theorem firstCons {test : Tokens → Bool} (ht : Blind test) {p : Parser Tokens α} {p' : Parser Tokens α'}
    {ps : List ((Tokens → Bool) × Parser Tokens α)} {ps' : List ((Tokens → Bool) × Parser Tokens α')}
    (hp : Unmoved R p p') (hps : Unmoved R (Phrase.first ps) (Phrase.first ps')) :
    Unmoved R (Phrase.first ((test, p) :: ps)) (Phrase.first ((test, p') :: ps')) := by
  intro s s' a r hs h
  cases htest : test s with
  | true =>
      rw [Phrase.first_then htest] at h
      obtain ⟨a', r', ha', hrel, hr⟩ := hp hs h
      exact ⟨a', r', (Phrase.first_then (by rw [ht hs, htest])).trans ha', hrel, hr⟩
  | false =>
      rw [Phrase.first_else htest] at h
      obtain ⟨a', r', ha', hrel, hr⟩ := hps hs h
      exact ⟨a', r', (Phrase.first_else (by rw [ht hs, htest])).trans ha', hrel, hr⟩

theorem several {T : Tokens → Tokens → Prop} {stop : Tokens → Bool} (hstop : Blind stop) {item item' : Phrase}
    (hitem : Unmoved T item item') : Unmoved Any (Phrase.several stop item) (Phrase.several stop item') :=
  .bind (.many hstop hitem) fun _ _ _ => .pure trivial

theorem listed {T : Tokens → Tokens → Prop} {stop : Tokens → Bool} (hstop : Blind stop) {separator : String}
    (hseparator : ';' ∉ separator.toList.tail) {item item' : Phrase} (hitem : Unmoved T item item') :
    Unmoved Any (Phrase.listed stop separator item) (Phrase.listed stop separator item') :=
  .bind (.separated hstop (.sign hseparator) hitem) fun _ _ _ => .pure trivial

theorem provided {test : Tokens → Bool} (ht : Blind test) : Unmoved Eq (Phrase.provided test) (Phrase.provided test) :=
  .bindEq (.require ht) fun _ => .pure rfl

theorem row {T : Tokens → Tokens → Prop} {stop : Tokens → Bool} (hstop : Blind stop) {separator : String}
    (hseparator : ';' ∉ separator.toList.tail) {item item' : Phrase} (hitem : Unmoved T item item') :
    Unmoved Any (Phrase.row stop separator item) (Phrase.row stop separator item') := by
  refine .maybe trivial hstop.not (.bind (.chained (fun _ _ => ?_) hitem) fun _ _ _ => .pure trivial)
  exact .branch (.atSign hseparator) (.bindEq (.sign hseparator) fun _ => .branch hstop (.pure rfl) (.pure rfl)) (.pure rfl)

end Unmoved

end QueryContract.Source
