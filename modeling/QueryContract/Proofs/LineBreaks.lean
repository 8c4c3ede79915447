import QueryContract.Proofs.Progress

/-!
# `Proofs.LineBreaks` — texts on lines of their own

A text that is followed by a line break has the lexemes that it has alone, and what stands on the next lines has its
own. Only a comment up to the end of its line goes on through blanks; it leaves no trace, and a documentation comment
is excluded at the end.

* `keeps_plainToken`, `lexeme_append` — a lexeme before a blank;
* `all_append_separator`              — what separates lexemes;
* `all_append`, `all_line`            — a text before a blank, and a text on lines of its own.
-/

namespace QueryContract.Source.Lexeme

open QueryContract.Parser Text

variable {x : List Char}

/-! ## Words -/

theorem exists_cons_of_plainWord {s r w : List Char} (h : plainWord s = some (w, r)) :
    ∃ c e, s = c :: e ∧ isStart c = true := by
  cases s with
  | nil => exact absurd h nofun
  | cons c e =>
      refine ⟨c, e, rfl, ?_⟩
      cases hc : isStart c with
      | true => rfl
      | false => simp [plainWord, bind_apply, satisfy, hc] at h

/-- A word starts with a character that a word may start with, also one with the mark of raw words. -/
theorem exists_cons_of_anyWord {s r : List Char} {w : String} (h : anyWord s = some (w, r)) :
    ∃ c e, s = c :: e ∧ isStart c = true := by
  rw [anyWord] at h
  split at h
  · rename_i hmark
    obtain ⟨t, rfl⟩ := startsWith_iff.1 hmark
    exact ⟨'r', '#' :: t, rfl, by decide⟩
  · rw [map_apply] at h
    obtain ⟨⟨w', r'⟩, hword, -⟩ := Option.map_eq_some_iff.1 h
    exact exists_cons_of_plainWord hword

theorem exists_cons_of_lifetimeWord {s r : List Char} {w : String} (h : lifetimeWord s = some (w, r)) :
    ∃ c e, s = c :: e ∧ isStart c = true := by
  rw [lifetimeWord, look_bind] at h
  obtain ⟨⟨w', e⟩, hword, -⟩ := Option.bind_eq_some_iff.1 h
  exact exists_cons_of_anyWord hword

/-! ## Tokens at the front -/

theorem exists_cons_of_wordToken {s r : List Char} {t : Token} (h : wordToken s = some (t, r)) :
    ∃ c e, s = c :: e ∧ isStart c = true ∧ (literalStarts.any fun l => startsWith l s) = false := by
  obtain ⟨hfree, hrest⟩ := require_bind_iff.1 h
  obtain ⟨⟨w, e⟩, hword, -⟩ := Option.bind_eq_some_iff.1 hrest
  obtain ⟨c, e, rfl, hc⟩ := exists_cons_of_anyWord hword
  exact ⟨c, e, rfl, hc, by simpa using hfree⟩

theorem exists_cons_of_punctToken {s r : List Char} {t : Token} (h : punctToken s = some (t, r)) :
    ∃ c e, s = c :: e ∧ c ∈ punctuation ∧ c ≠ '\'' := by
  obtain ⟨hat, -⟩ := require_bind_iff.1 h
  cases s with
  | nil => exact absurd hat nofun
  | cons c e =>
      refine ⟨c, e, rfl, ?_⟩
      simp only [atPunctuation, Bool.and_eq_true, List.contains_iff_mem] at hat
      refine ⟨hat.1.1.1, ?_⟩
      rintro rfl
      simp at hat

/-- A lifetime starts with a quote and a word. -/
theorem exists_cons_of_lifetimeToken {s r : List Char} {t : Token} (h : lifetimeToken s = some (t, r)) :
    ∃ c e, s = '\'' :: c :: e ∧ isStart c = true := by
  cases s with
  | nil => exact absurd h nofun
  | cons d s =>
      have hquote : d = '\'' := by
        by_cases hd : d = '\''
        · exact hd
        · simp [lifetimeToken_cons hd] at h
      subst hquote
      have hrest : (if would lifetimeWord s && would Literal.scan s then pure (Token.punct '\'' true) else do
          require fun s => !literalStarts.any (startsWith · s)
          pure (Token.lifetime (← lifetimeWord)) : Parser (List Char) Token) s = some (t, r) := h
      have hword : ∃ w e, lifetimeWord s = some (w, e) := by
        split at hrest
        · rename_i hboth
          simp only [would, Bool.and_eq_true, Option.isSome_iff_exists] at hboth
          obtain ⟨⟨⟨w, e⟩, hw⟩, -⟩ := hboth
          exact ⟨w, e, hw⟩
        · obtain ⟨-, hrest⟩ := require_bind_iff.1 hrest
          obtain ⟨⟨w, e⟩, hw, -⟩ := Option.bind_eq_some_iff.1 hrest
          exact ⟨w, e, hw⟩
      obtain ⟨w, e, hw⟩ := hword
      obtain ⟨c, e', rfl, hc⟩ := exists_cons_of_lifetimeWord hw
      exact ⟨c, e', rfl, hc⟩

theorem exists_cons_of_unknownLiteral {s r : List Char} {t t' : Token}
    (h : (do text unknownLiteral; pure t : Parser (List Char) Token) s = some (t', r)) : ∃ e, s = '(' :: e := by
  obtain ⟨⟨⟨⟩, e⟩, hfront, -⟩ := Option.bind_eq_some_iff.1 h
  rw [text_apply] at hfront
  split at hfront
  · obtain ⟨t, rfl⟩ := startsWith_iff.1 ‹_›
    exact ⟨_, rfl⟩
  · exact absurd hfront nofun

/-- A parenthesis is no token of these two kinds. -/
theorem otherTokens_paren (s : List Char) : punctToken ('(' :: s) = none ∧ wordToken ('(' :: s) = none :=
  ⟨punctToken_eq_none (atPunctuation_of_notMem (by decide)), wordToken_eq_none (by decide) s⟩

/-- After a quote and the first character of a word, only another quote makes a literal of it. -/
theorem scan_quote_iff {c : Char} {s : List Char} (hc : isStart c = true) :
    Literal.scan ('\'' :: c :: s) = none ↔ startsWith ['\''] s = false := by
  have hother : (Literal.string <|> Literal.byte <|> Literal.character) ('\'' :: c :: s) = char '\'' s := by
    have hbackslash : '\\' ≠ c := (ne_of_isStart hc (by decide)).symm
    have hstring : Literal.string ('\'' :: c :: s) = none := by
      simp [Literal.string, orElse_apply, Literal.char_eq_text, bind_apply, text_apply]
    have hbyte : Literal.byte ('\'' :: c :: s) = none := by
      simp [Literal.byte, bind_apply, text_apply]
    rw [orElse_apply, orElse_apply, hstring, hbyte]
    simp [Literal.character, Literal.single, bind_apply, map_apply, orElse_apply, char_apply, require, satisfy,
      hbackslash, Literal.Flavour.admits]
  have hnumeral : Literal.numeral ('\'' :: c :: s) = none := Literal.numeral_eq_none (by simp)
  have hquoted : Literal.quoted ('\'' :: c :: s) = (char '\'' s).map fun y => ((), Literal.afterSuffix y.2) := by
    rw [Literal.quoted, bind_apply, hother]
    cases char '\'' s <;> rfl
  simp only [Literal.scan, orElse_apply, hnumeral, hquoted, char_apply]
  cases startsWith ['\''] s <;> simp

/-! ## Tokens before a blank -/

section

variable (hx : StartsBreak x)

include hx

theorem atPunctuation_cons_append (c : Char) (s : List Char) : atPunctuation (c :: s ++ x) = atPunctuation (c :: s) := by
  have hline : startsWith ['/', '/'] (c :: s ++ x) = startsWith ['/', '/'] (c :: s) := startsWith_append hx (by decide) _
  have hblock : startsWith ['/', '*'] (c :: s ++ x) = startsWith ['/', '*'] (c :: s) := startsWith_append hx (by decide) _
  rw [List.cons_append] at hline hblock ⊢
  simp only [atPunctuation, hline, hblock]

theorem atPunctuation_append (hblank : atPunctuation x = false) (s : List Char) :
    atPunctuation (s ++ x) = atPunctuation s := by
  cases s with
  | nil => exact hblank
  | cons c s => exact atPunctuation_cons_append hx c s

theorem literalStarts_append (s : List Char) :
    (literalStarts.any fun l => startsWith l (s ++ x)) = literalStarts.any fun l => startsWith l s := by
  have hbreak : ∀ l ∈ literalStarts, ∀ c ∈ l, isBreak c = false := by decide
  rw [Bool.eq_iff_iff, List.any_eq_true, List.any_eq_true]
  constructor
  · rintro ⟨l, hl, hs⟩
    exact ⟨l, hl, by rwa [startsWith_append hx (hbreak l hl)] at hs⟩
  · rintro ⟨l, hl, hs⟩
    exact ⟨l, hl, by rwa [startsWith_append hx (hbreak l hl)]⟩

theorem firm_plainWord : Firm x plainWord :=
  .bind (.satisfy hx fun _ => isStart_of_isBreak) fun _ =>
    .bind (.takeWhile hx fun _ => isContinue_of_isBreak) fun _ => .pure _

theorem firm_anyWord : Firm x anyWord := by
  have hraw : Firm x rawWord :=
    .bind (.text hx (by decide)) fun _ => .bind (firm_plainWord hx) fun _ => .ite .failure (.pure _)
  intro s
  rw [anyWord, anyWord, startsWith_append hx (by decide)]
  split
  · exact hraw.map s
  · exact (firm_plainWord hx).map s

theorem firm_lifetimeWord : Firm x lifetimeWord := by
  refine .bind (.look (startsWith_append hx (by decide))) fun isRaw => .bind (firm_anyWord hx) fun w => ?_
  refine .bind (.require fun s => ?_) fun _ => .pure w
  rw [startsWith_append hx (by decide), startsWith_append hx (by decide)]

theorem firm_notLiteral : Firm x (require fun s => !literalStarts.any (startsWith · s)) :=
  .require fun s => by rw [literalStarts_append hx]

theorem firm_wordToken : Firm x wordToken := .bind (firm_notLiteral hx) fun _ => .bind (firm_anyWord hx) fun _ => .pure _

/-- A punctuation character knows of the next one, so that only space leaves it as it is at the end of the text. -/
theorem keeps_punctToken (hblank : atPunctuation x = false) : Keeps x punctToken := by
  refine .bind (.require fun s => ?_) fun _ => .bind .anyChar fun c =>
    .bind (.look (atPunctuation_append hx hblank)) fun _ => .pure _
  rw [atPunctuation_append hx hblank, startsWith_append hx (by decide)]

/-- Where a word starts and no literal, there is none before a blank either. -/
theorem scan_append_of_isStart {c : Char} {s : List Char} (hc : isStart c = true)
    (h : (literalStarts.any fun l => startsWith l (c :: s)) = false) : Literal.scan (c :: s ++ x) = none := by
  rw [← literalStarts_append hx] at h
  exact scan_of_isStart hc (by simpa using h)

theorem keeps_lifetimeToken : Keeps x lifetimeToken := by
  refine .bind (.char _) fun _ => ?_
  intro s t r h
  rw [look_bind] at h ⊢
  have hword := (firm_lifetimeWord hx).keeps
  by_cases hclash : (would lifetimeWord s && would Literal.scan s) = true
  · -- both are found before the blank as well
    have hclash' : (would lifetimeWord (s ++ x) && would Literal.scan (s ++ x)) = true := by
      simp only [would, Bool.and_eq_true, Option.isSome_iff_exists] at hclash ⊢
      obtain ⟨⟨⟨w, e⟩, hw⟩, ⟨⟨l, e'⟩, hl⟩⟩ := hclash
      exact ⟨⟨_, hword hw⟩, ⟨_, Literal.keeps_scan hx hl⟩⟩
    rw [if_pos hclash] at h
    rw [if_pos hclash']
    cases h
    rfl
  · rw [if_neg hclash] at h
    have hkept : Keeps x (do
        require fun s => !literalStarts.any (startsWith · s)
        pure (.lifetime (← lifetimeWord)) : Parser (List Char) Token) :=
      .bind (firm_notLiteral hx).keeps fun _ => .bind hword fun w => .pure _
    -- a word is found and no literal may start here, so that none is found later
    have hscan : Literal.scan (s ++ x) = none := by
      obtain ⟨hfree, hrest⟩ := require_bind_iff.1 h
      obtain ⟨⟨w, e⟩, hw, -⟩ := Option.bind_eq_some_iff.1 hrest
      obtain ⟨c, e, rfl, hc⟩ := exists_cons_of_lifetimeWord hw
      exact scan_append_of_isStart hx hc (by simpa using hfree)
    have hclash' : ¬ (would lifetimeWord (s ++ x) && would Literal.scan (s ++ x)) = true := by
      simp [would, hscan]
    rw [if_neg hclash']
    exact hkept h

theorem scan_yields_lifetimeToken : Yields x Literal.scan lifetimeToken := by
  intro s t r hscan h
  obtain ⟨c, e, rfl, hc⟩ := exists_cons_of_lifetimeToken h
  rw [scan_quote_iff hc] at hscan
  show Literal.scan ('\'' :: c :: (e ++ x)) = none
  rw [scan_quote_iff hc, startsWith_append hx (by decide)]
  exact hscan

theorem scan_yields_wordToken : Yields x Literal.scan wordToken := by
  intro s t r _ h
  obtain ⟨c, e, rfl, hc, hfree⟩ := exists_cons_of_wordToken h
  exact scan_append_of_isStart hx hc hfree

theorem keeps_plainToken (hblank : atPunctuation x = false) : Keeps x plainToken := by
  have hliteral : Keeps x (do pure (.literal (String.ofList (← Literal.scan))) : Parser (List Char) Token) :=
    .bind (Literal.keeps_scan hx) fun l => .pure _
  have hunknown : Keeps x (do text unknownLiteral; pure (.literal (String.ofList unknownLiteral))
      : Parser (List Char) Token) := .bind (.text _) fun _ => .pure _
  -- each kind of token yields to those after it
  refine hliteral.orElse (.orElse (keeps_lifetimeToken hx) (.orElse (keeps_punctToken hx hblank)
    (.orElse (firm_wordToken hx).keeps hunknown ?_) ?_) ?_) ?_
  · intro s t r _ h
    obtain ⟨e, rfl⟩ := exists_cons_of_unknownLiteral h
    exact (otherTokens_paren _).2
  · refine .choice ?_ ?_
    · intro s t r _ h
      obtain ⟨c, e, rfl, hc, -⟩ := exists_cons_of_wordToken h
      exact (otherTokens_of_isStart hc).2
    · intro s t r _ h
      obtain ⟨e, rfl⟩ := exists_cons_of_unknownLiteral h
      exact (otherTokens_paren _).1
  · refine .choice ?_ (.choice ?_ ?_)
    · intro s t r _ h
      obtain ⟨c, e, rfl, -, hquote⟩ := exists_cons_of_punctToken h
      exact lifetimeToken_cons hquote _
    · intro s t r _ h
      obtain ⟨c, e, rfl, hc, -⟩ := exists_cons_of_wordToken h
      exact lifetimeToken_cons (ne_of_isStart hc (by decide)) _
    · intro s t r _ h
      obtain ⟨e, rfl⟩ := exists_cons_of_unknownLiteral h
      exact lifetimeToken_cons (by decide) _
  · refine .bindPure _ (.choice (scan_yields_lifetimeToken hx) (.choice ?_ (.choice (scan_yields_wordToken hx) ?_)))
    · intro s t r _ h
      obtain ⟨c, e, rfl, hc, hquote⟩ := exists_cons_of_punctToken h
      exact scan_punct hc hquote _
    · intro s t r _ h
      obtain ⟨e, rfl⟩ := exists_cons_of_unknownLiteral h
      exact scan_cons_eq_none (by decide) (by decide) _

/-! ## Comments -/

theorem atLineComment_append (s : List Char) : atLineComment (s ++ x) = atLineComment s := by
  simp only [atLineComment]
  rw [startsWith_append hx (by decide), startsWith_append hx (by decide), startsWith_append hx (by decide),
    startsWith_append hx (by decide)]

theorem atBlockComment_append (s : List Char) : atBlockComment (s ++ x) = atBlockComment s := by
  simp only [atBlockComment]
  rw [startsWith_append hx (by decide), startsWith_append hx (by decide), startsWith_append hx (by decide),
    startsWith_append hx (by decide), startsWith_append hx (by decide)]

theorem atLexeme_append {s : List Char} (hs : s ≠ []) : atLexeme (s ++ x) = atLexeme s := by
  cases s with
  | nil => exact absurd rfl hs
  | cons c s =>
      have hline := atLineComment_append hx (c :: s)
      have hblock := atBlockComment_append hx (c :: s)
      rw [List.cons_append] at hline hblock ⊢
      simp only [atLexeme, hline, hblock]

end

theorem keeps_block (depth : Nat) : Keeps x (block depth) := by
  intro s l r h
  fun_induction block depth s generalizing l with
  | case1 => exact absurd h nofun
  | case2 depth e ih =>
      obtain ⟨⟨l', r'⟩, hrest, hl⟩ := Option.map_eq_some_iff.1 h
      cases hl
      show ((block (depth + 1) (e ++ x)).map fun y => ('/' :: '*' :: y.1, y.2)) = _
      rw [ih hrest]
      rfl
  | case3 e =>
      cases h
      rfl
  | case4 e depth ih =>
      obtain ⟨⟨l', r'⟩, hrest, hl⟩ := Option.map_eq_some_iff.1 h
      cases hl
      show ((block depth (e ++ x)).map fun y => ('*' :: '/' :: y.1, y.2)) = _
      rw [ih hrest]
      rfl
  | case5 depth c e hopen hclose ih =>
      obtain ⟨⟨l', r'⟩, hrest, hl⟩ := Option.map_eq_some_iff.1 h
      cases hl
      -- the comment goes on after the character, so that what stands next to it is known
      cases e with
      | nil => exact absurd hrest nofun
      | cons d e =>
          rw [List.cons_append, block]
          · rw [ih hrest]
            rfl
          · rintro e' rfl hstar
            exact hopen e rfl (by simp_all)
          · rintro e' rfl hslash
            exact hclose e rfl (by simp_all)

/-- A line that ends within the text is the same with more lines after it. -/
theorem line_append {s : List Char} (h : (line s).2 ≠ []) : line (s ++ x) = ((line s).1, (line s).2 ++ x) := by
  fun_induction line s with
  | case1 => exact absurd rfl h
  | case2 r => rfl
  | case3 r hreturn =>
      show line ('\n' :: (r ++ x)) = _
      rw [line]
      · rfl
      · intro _ hreturn
        exact absurd hreturn (by decide)
  | case4 c r hreturn hend l e hline ih =>
      rw [hline] at ih
      cases r with
      | nil =>
          cases hline
          exact absurd rfl h
      | cons d r =>
          rw [List.cons_append, line, if_neg hend, ih h]
          rintro r' rfl hnext
          exact hreturn r rfl (by simp_all)

/-- A line that the text ends in goes on in what follows. -/
theorem line_append_of_end {s : List Char} (h : (line s).2 = []) : (line (s ++ x)).2 = (line x).2 := by
  fun_induction line s with
  | case1 => rfl
  | case2 r => cases h
  | case3 r hreturn => cases h
  | case4 c r hreturn hend l e hline ih =>
      rw [hline] at ih
      by_cases hnext : ∃ r', c = '\r' ∧ r ++ x = '\n' :: r'
      · -- the carriage return at the end of the text belongs to the line feed after it
        obtain ⟨r', rfl, hr'⟩ := hnext
        cases r with
        | nil =>
            obtain rfl : x = '\n' :: r' := hr'
            rfl
        | cons d r => exact absurd (by simp_all) (hreturn r rfl)
      · rw [List.cons_append, line, if_neg hend]
        · exact ih h
        · intro r' hc hr'
          exact hnext ⟨r', hc, hr'⟩

/-! ## Documentation -/

/-- What is found at the end of a text is found before `x`, if something of the text is left. -/
def KeepsLeaving {α : Type} (x : List Char) (p : Parser (List Char) α) : Prop :=
  ∀ ⦃s a r⦄, p s = some (a, r) → r ≠ [] → p (s ++ x) = some (a, r ++ x)

namespace KeepsLeaving

variable {α β : Type}

theorem ofKeeps {p : Parser (List Char) α} (hp : Keeps x p) : KeepsLeaving x p := fun _ _ _ h _ => hp h

/-- After a text, and with a value made of what is found. -/
theorem text (front : List Char) (g : α → β) {p : Parser (List Char) α} (hp : KeepsLeaving x p) :
    KeepsLeaving x (do text front; pure (g (← p))) := by
  intro s b r h hr
  obtain ⟨⟨⟨⟩, e⟩, hfront, hrest⟩ := Option.bind_eq_some_iff.1 h
  obtain ⟨⟨a, e'⟩, ha, hb⟩ := Option.bind_eq_some_iff.1 hrest
  cases hb
  rw [bind_of_eq (Keeps.text front hfront), bind_of_eq (hp ha hr)]
  rfl

theorem orElse {p q : Parser (List Char) α} (hp : KeepsLeaving x p) (hq : KeepsLeaving x q) (hpq : Yields x p q) :
    KeepsLeaving x (p <|> q) := by
  intro s a r h hr
  rw [orElse_apply] at h ⊢
  cases hps : p s with
  | some y =>
      obtain ⟨b, e⟩ := y
      rw [hps, Option.some_or] at h
      cases h
      rw [hp hps hr, Option.some_or]
  | none =>
      rw [hps, Option.none_or] at h
      rw [hpq hps h, Option.none_or]
      exact hq h hr

end KeepsLeaving

theorem keepsLeaving_documentation : KeepsLeaving x documentation := by
  have hline : KeepsLeaving x (fun s => some (line s)) := by
    intro s content r h hr
    have hs : line s = (content, r) := Option.some.inj h
    show some (line (s ++ x)) = _
    rw [line_append (by rw [hs]; exact hr), hs]
  have hblock : KeepsLeaving x (block 0) := .ofKeeps (keeps_block 0)
  intro s l r h hr
  rw [documentation] at h ⊢
  obtain ⟨⟨⟨inner, content⟩, e⟩, hcomment, hrest⟩ := Option.bind_eq_some_iff.1 h
  have hwell : hasLoneReturn content = false ∧ documenting inner content = l ∧ e = r := by
    cases hlone : hasLoneReturn content with
    | true => simp [hlone, failure_apply] at hrest
    | false => simpa [hlone, pure_apply] using hrest
  obtain ⟨hlone, rfl, rfl⟩ := hwell
  refine (bind_of_eq (KeepsLeaving.orElse (.text _ _ hline) (.orElse (.text _ _ hblock) (.orElse (.text _ _ hline)
    (.text _ _ hblock) ?_) ?_) ?_ hcomment hr)).trans ?_
  · exact .of_leads (.text _ _) (.text _ _) (by decide)
  · exact .of_leads (.text _ _) (.orElse (.text _ _) (.text _ _)) (by decide)
  · exact .of_leads (.text _ _) (.orElse (.text _ _) (.orElse (.text _ _) (.text _ _))) (by decide)
  · simp [hlone, pure_apply]

/-- What documentation comments start with. -/
def documentationFronts : List (List Char) := [['/', '/', '!'], ['/', '*', '!'], ['/', '/', '/'], ['/', '*', '*']]

theorem leads_documentation : Leads documentationFronts documentation :=
  .bind (.orElse (.text _ _) (.orElse (.text _ _) (.orElse (.text _ _) (.text _ _))))

theorem getLast?_documentation {s r : List Char} {l : List Lexeme} (h : documentation s = some (l, r)) :
    l.getLast? = some (closing .bracket) := by
  obtain ⟨⟨⟨inner, content⟩, e⟩, -, hrest⟩ := Option.bind_eq_some_iff.1 h
  cases hlone : hasLoneReturn content with
  | true => simp [hlone, failure_apply] at hrest
  | false =>
      obtain ⟨rfl, -⟩ : documenting inner content = l ∧ e = r := by simpa [hlone, pure_apply] using hrest
      rw [documenting, List.getLast?_append]
      rfl

/-! ## Lexemes -/

/-- No token starts like a comment. -/
theorem plainToken_comment {d : Char} (hd : d = '/' ∨ d = '*') (s : List Char) : plainToken ('/' :: d :: s) = none := by
  have hscan : Literal.scan ('/' :: d :: s) = none := scan_punct (by decide) (by decide) _
  have hlifetime : lifetimeToken ('/' :: d :: s) = none := lifetimeToken_cons (by decide) _
  have hpunct : punctToken ('/' :: d :: s) = none := by
    apply punctToken_eq_none
    rcases hd with rfl | rfl <;> simp [atPunctuation]
  have hword : wordToken ('/' :: d :: s) = none := wordToken_eq_none (by decide) _
  have hunknown : text unknownLiteral ('/' :: d :: s) = none := by simp [text_apply, unknownLiteral]
  simp only [plainToken, orElse_apply, bind_apply, hscan, hlifetime, hpunct, hword, hunknown, Option.bind_none,
    Option.none_or]

section

variable (hx : StartsBreak x)

include hx

theorem documentation_yields_plainToken : Yields x documentation plainToken := by
  intro s t r _ h
  cases hcomment : documentation (s ++ x) with
  | none => rfl
  | some y =>
      obtain ⟨front, hfront, hstarts⟩ := leads_documentation hcomment
      have hbreak : ∀ f ∈ documentationFronts, ∀ c ∈ f, isBreak c = false := by decide
      rw [startsWith_append hx (hbreak front hfront)] at hstarts
      obtain ⟨e, rfl⟩ := startsWith_iff.1 hstarts
      have hall : ∀ f ∈ documentationFronts, ∃ d, (d = '/' ∨ d = '*') ∧ ∃ c, f = ['/', d, c] := by
        simp [documentationFronts]
      obtain ⟨d, hd, c, rfl⟩ := hall front hfront
      simp [plainToken_comment hd] at h

/-- A lexeme is the same before a blank; documentation at the end of the text is left out. -/
theorem lexeme_append (hblank : atPunctuation x = false) {s r : List Char} {l : List Lexeme} (h : lexeme s = some (l, r))
    (hlast : r = [] → l.getLast? ≠ some (closing .bracket)) : lexeme (s ++ x) = some (l, r ++ x) := by
  cases s with
  | nil => exact absurd h nofun
  | cons c s =>
      have hplain : Keeps x tokenLexeme := .bind (keeps_plainToken hx hblank) fun t => .pure _
      have hunknown : startsWith unknownLiteral (c :: s ++ x) = startsWith unknownLiteral (c :: s) :=
        startsWith_append hx (by decide) _
      rw [lexeme_cons] at h
      rw [List.cons_append, lexeme_cons, ← List.cons_append, hunknown]
      split at h
      · rename_i hslash
        rw [if_pos hslash]
        rw [orElse_apply] at h ⊢
        cases hcomment : documentation (c :: s) with
        | some y =>
            obtain ⟨l', r'⟩ := y
            rw [hcomment, Option.some_or] at h
            cases h
            have hr : r ≠ [] := fun hr => hlast hr (getLast?_documentation hcomment)
            rw [keepsLeaving_documentation hcomment hr, Option.some_or]
        | none =>
            rw [hcomment, Option.none_or] at h
            obtain ⟨⟨t, r'⟩, ht, -⟩ := Option.bind_eq_some_iff.1 h
            rw [documentation_yields_plainToken hx hcomment ht, Option.none_or]
            exact hplain h
      · rename_i hslash
        rw [if_neg hslash]
        split at h
        · rename_i hstarts
          rw [if_pos hstarts]
          exact hplain h
        · rename_i hstarts
          rw [if_neg hstarts]
          cases hbracket : bracket? c with
          | some b =>
              simp only [hbracket] at h ⊢
              cases h
              rfl
          | none =>
              simp only [hbracket] at h ⊢
              exact hplain h

end

/-! ## What separates lexemes -/

/-- Spaces, and then a line break with what follows it. -/
def EndsLine (x : List Char) : Prop := ∃ b w, x = b ++ '\n' :: w ∧ ∀ c ∈ b, isSpace c = true

theorem EndsLine.exists_cons (hx : EndsLine x) : ∃ c r, x = c :: r ∧ isSpace c = true := by
  obtain ⟨b, w, rfl, hb⟩ := hx
  cases b with
  | nil => exact ⟨'\n', w, rfl, by decide⟩
  | cons c b => exact ⟨c, b ++ '\n' :: w, rfl, hb c List.mem_cons_self⟩

theorem EndsLine.startsBreak (hx : EndsLine x) : StartsBreak x := by
  obtain ⟨c, r, hxr, hc⟩ := hx.exists_cons
  exact ⟨c, r, hxr, isBreak_of_isSpace hc⟩

/-- No punctuation character is space. -/
theorem atPunctuation_of_isSpace {c : Char} (hc : isSpace c = true) (s : List Char) : atPunctuation (c :: s) = false := by
  refine atPunctuation_of_notMem fun hmem => ?_
  have hall : ∀ c ∈ punctuation, isSpace c = false := by decide
  simp [hall c hmem] at hc

theorem EndsLine.atPunctuation_eq_false (hx : EndsLine x) : atPunctuation x = false := by
  obtain ⟨c, r, rfl, hc⟩ := hx.exists_cons
  exact atPunctuation_of_isSpace hc r

/-- What a comment would take of spaces at the end of its line is only space. -/
theorem EndsLine.gap_line (hx : EndsLine x) : gap (line x).2 = gap x := by
  obtain ⟨b, w, rfl, hb⟩ := hx
  induction b with
  | nil =>
      show gap (line ('\n' :: w)).2 = gap ('\n' :: w)
      rw [line]
      · rfl
      · exact nofun
  | cons c b ih =>
      have hc : isSpace c = true := hb c List.mem_cons_self
      have hrest := ih fun d hd => hb d (List.mem_cons_of_mem _ hd)
      rw [List.cons_append, gap_space hc]
      by_cases hreturn : ∃ r, c = '\r' ∧ b ++ '\n' :: w = '\n' :: r
      · obtain ⟨r, rfl, hr⟩ := hreturn
        rw [hr]
        rfl
      · rw [line]
        · split
          · exact gap_space hc
          · exact hrest
        · intro r hc hr
          exact hreturn ⟨r, hc, hr⟩

/-- A separator before a text is passed over in the same way when more lines follow. -/
theorem all_append_separator (hx : EndsLine x) {s r : List Char} (hat : atLexeme s = false)
    (hseparator : separator s = some ((), r)) : all (s ++ x) = all (r ++ x) := by
  have hs : s ≠ [] := by
    rintro rfl
    exact absurd hat (by decide)
  have hat' : atLexeme (s ++ x) = false := by rw [atLexeme_append hx.startsBreak hs, hat]
  have hline := atLineComment_append hx.startsBreak s
  have hblock := atBlockComment_append hx.startsBreak s
  rw [separator] at hseparator
  by_cases hatLine : atLineComment s = true
  · obtain rfl : (line s).2 = r := by simpa [hatLine] using hseparator
    have hfirst : separator (s ++ x) = some ((), (line (s ++ x)).2) := by rw [separator, hline, if_pos hatLine]
    rw [all_separator hat' hfirst]
    by_cases hend : (line s).2 = []
    · -- the comment goes on, up to the end of the line
      rw [line_append_of_end hend, hend, List.nil_append, all_apply, all_apply, hx.gap_line]
    · rw [line_append hend]
  · rw [if_neg hatLine] at hseparator
    refine all_separator hat' ?_
    rw [separator, hline, if_neg hatLine, hblock]
    split at hseparator
    · rename_i hatBlock
      obtain ⟨e, rfl⟩ := startsWith_of_atBlockComment hatBlock
      obtain ⟨⟨content, e'⟩, hcontent, he⟩ := Option.map_eq_some_iff.1 hseparator
      cases he
      have hblock' : block 0 (e ++ x) = some (content, r ++ x) := keeps_block 0 hcontent
      rw [if_pos hatBlock]
      show (block 0 (e ++ x)).map _ = _
      rw [hblock']
      rfl
    · rename_i hatBlock
      rw [if_neg hatBlock]
      cases s with
      | nil => exact absurd rfl hs
      | cons c s =>
          cases hseparator
          rfl

/-! ## Whole texts -/

theorem getLast?_append_right {α : Type} {as bs : List α} {a : α} (h : (as ++ bs).getLast? ≠ some a) :
    bs.getLast? ≠ some a := by
  intro hbs
  exact h (by rw [List.getLast?_append, hbs, Option.some_or])

/-- **Two texts with a line break between them have the lexemes of both.** -/
theorem all_append (hx : EndsLine x) {s : List Char} {ls : List Lexeme} (h : Reads s ls)
    (hlast : ls.getLast? ≠ some (closing .bracket)) : all (s ++ x) = (all x).map fun y => (ls ++ y.1, y.2) := by
  induction s using readingInduction generalizing ls with
  | nil =>
      obtain rfl : [] = ls := (Prod.mk.inj (Option.some.inj (Reads.nil.symm.trans h))).1
      show all x = (all x).map fun y => y
      simp
  | separator s r hat hstep ih =>
      rw [Reads, all_separator hat hstep] at h
      rw [all_append_separator hx hat hstep, ih h hlast]
  | noSeparator s hat hstep =>
      rw [Reads, all_of_separator_none hat hstep] at h
      cases h
  | lexeme s l r hat hstep ih =>
      obtain ⟨ls', hreads, rfl⟩ := (reads_lexeme_iff hat hstep).1 h
      -- the last lexeme is none of documentation, which could go on through the blanks
      have hstep' : Lexeme.lexeme (s ++ x) = some (l, r ++ x) := by
        refine lexeme_append hx.startsBreak hx.atPunctuation_eq_false hstep ?_
        rintro rfl
        obtain rfl : [] = ls' := (Prod.mk.inj (Option.some.inj (Reads.nil.symm.trans hreads))).1
        simpa using hlast
      have hs : s ≠ [] := by
        rintro rfl
        cases hstep
      have hat' : atLexeme (s ++ x) = true := by rw [atLexeme_append hx.startsBreak hs, hat]
      rw [all_of_lexeme hat' hstep', ih hreads (getLast?_append_right hlast), Option.map_map]
      simp [Function.comp_def]
  | noLexeme s hne hat hstep =>
      rw [Reads, all_of_lexeme_none hne hat hstep] at h
      cases h

theorem isSpace_of_isBlank {c : Char} (h : isBlank c = true) : isSpace c = true := by simp [isSpace, h]

/-- A text on lines of its own: around what is trimmed there is only space. -/
theorem all_line {s w : List Char} {ls : List Lexeme} (h : Reads (trim s) ls)
    (hlast : ls.getLast? ≠ some (closing .bracket)) :
    all (s ++ '\n' :: w) = (all w).map fun y => (ls ++ y.1, y.2) := by
  obtain ⟨a, b, hs, ha, hb⟩ := exists_trim s
  have hends : EndsLine (b ++ '\n' :: w) := ⟨b, w, rfl, fun c hc => isSpace_of_isBlank (hb c hc)⟩
  have hparts : s ++ '\n' :: w = a ++ (trim s ++ (b ++ '\n' :: w)) := by
    rw [← List.append_assoc, ← List.append_assoc, ← hs]
  have hbreak : all ('\n' :: w) = all w := all_spaces (a := ['\n']) (by decide) w
  have hrest : all (b ++ '\n' :: w) = all w := by
    rw [all_spaces fun c hc => isSpace_of_isBlank (hb c hc), hbreak]
  rw [hparts, all_spaces fun c hc => isSpace_of_isBlank (ha c hc), all_append hends h hlast, hrest]

end QueryContract.Source.Lexeme
