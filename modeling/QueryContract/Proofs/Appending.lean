import QueryContract.Proofs.Closing
import QueryContract.Proofs.LineBreaks

/-!
# `Proofs.Appending` — blanks and a semicolon at the end of a text

Whether a text has lexemes, and which, does not depend on blanks and semicolons that are appended to it: none of them
closes anything that is open in the text. There are two exceptions. A text that ends in a comment up to the end of the
line takes them into the comment, and a punctuation character at the end knows whether a semicolon follows.

* `links_plainToken`, `lexeme_append_of_notInComment` — a token and a lexeme;
* `FirmAt`             — scanners that find the same at the start of one text;
* `EndsInComment`      — texts that end in a comment up to the end of the line;
* `all_extended`       — any other text has the lexemes that it has alone;
* `reads_append_iff`   — what is appended to such a text on its last line is not read.
-/

namespace QueryContract.Source

open QueryContract.Parser Text

namespace Lexeme

variable {x : List Char}

/-! ## Tokens -/

/-- A token with what is left after it, when `x` is appended: a punctuation character at the end knows how that starts. -/
def linked (x : List Char) : Token × List Char → Token × List Char
  | (.punct c _, []) => (.punct c (atPunctuation x), x)
  | (t, r) => (t, r ++ x)

/-- The scanner finds the same tokens with and without `x` behind a text, but for what they know of it. -/
def Links (x : List Char) (p : Parser (List Char) Token) : Prop := ∀ c s, p (c :: s ++ x) = (p (c :: s)).map (linked x)

theorem linked_of_ne_nil (t : Token) {r : List Char} (h : r ≠ []) : linked x (t, r) = (t, r ++ x) := by
  cases r with
  | nil => exact absurd rfl h
  | cons c r => cases t <;> rfl

/-- A scanner for tokens that know nothing of what follows. -/
theorem Links.ofFirm {p : Parser (List Char) Token} (hp : Firm x p)
    (h : ∀ s t r, p s = some (t, r) → linked x (t, r) = (t, r ++ x)) : Links x p := by
  intro c s
  rw [hp]
  cases hs : p (c :: s) with
  | none => rfl
  | some y => exact congrArg some (h _ y.1 y.2 hs).symm

theorem Links.orElse {p q : Parser (List Char) Token} (hp : Links x p) (hq : Links x q) : Links x (p <|> q) := by
  intro c s
  rw [orElse_apply, orElse_apply, hp, hq]
  cases p (c :: s) <;> rfl

section

variable (hx : Trailer x)

include hx

theorem firm_lifetimeToken : Firm x lifetimeToken := by
  refine .bind (.char hx.startsBreak (by decide)) fun _ => .bind (.look fun s => ?_) fun _ => .ite (.pure _) ?_
  · rw [(firm_lifetimeWord hx.startsBreak).would, (Literal.firm_scan hx).would]
  · exact .bind (firm_notLiteral hx.startsBreak) fun _ => .bind (firm_lifetimeWord hx.startsBreak) fun w => .pure _

theorem links_lifetimeToken : Links x lifetimeToken := by
  refine .ofFirm (firm_lifetimeToken hx) fun s t r h => ?_
  obtain ⟨c, e, rfl, -⟩ := exists_cons_of_lifetimeToken h
  obtain ⟨⟨⟩, m, hquote, hrest⟩ := of_bind h
  cases hquote
  rw [look_bind] at hrest
  split at hrest
  · cases hrest
    exact linked_of_ne_nil _ nofun
  · obtain ⟨-, hrest⟩ := require_bind_iff.1 hrest
    obtain ⟨w, e, -, ht⟩ := of_bind hrest
    cases ht
    rfl

theorem links_punctToken : Links x punctToken := by
  intro c s
  have hat : ∀ s, punctToken (c :: s) = if atPunctuation (c :: s) && !startsWith ['\''] (c :: s) then
      some (.punct c (atPunctuation s), s) else none := by
    intro s
    rw [punctToken, bind_apply, require]
    split <;> rfl
  rw [hat, List.cons_append, hat, ← List.cons_append, atPunctuation_cons_append hx.startsBreak,
    startsWith_append hx.startsBreak (by decide)]
  split
  · cases s with
    | nil => rfl
    | cons d s => simp only [atPunctuation_cons_append hx.startsBreak, Option.map_some, linked]
  · rfl

theorem links_plainToken : Links x plainToken := by
  have hliteral : Firm x (do pure (.literal (String.ofList (← Literal.scan))) : Parser (List Char) Token) :=
    .bind (Literal.firm_scan hx) fun l => .pure _
  have hunknown : Firm x (do text unknownLiteral; pure (.literal (String.ofList unknownLiteral))
      : Parser (List Char) Token) := .bind (.text hx.startsBreak (by decide)) fun _ => .pure _
  refine .orElse (.ofFirm hliteral fun s t r h => ?_) (.orElse (links_lifetimeToken hx) (.orElse (links_punctToken hx)
    (.orElse (.ofFirm (firm_wordToken hx.startsBreak) fun s t r h => ?_) (.ofFirm hunknown fun s t r h => ?_))))
  · obtain ⟨l, e, -, ht⟩ := of_bind h
    cases ht
    rfl
  · obtain ⟨-, hrest⟩ := require_bind_iff.1 h
    obtain ⟨w, e, -, ht⟩ := of_bind hrest
    cases ht
    rfl
  · obtain ⟨_, e, -, ht⟩ := of_bind h
    cases ht
    rfl

end

/-! ## At the start of a text -/

/-- At the start of `s` the scanner finds the same with and without `x` behind it. -/
def FirmAt {α : Type} (x : List Char) (p : Parser (List Char) α) (s : List Char) : Prop :=
  p (s ++ x) = (p s).map fun y => (y.1, y.2 ++ x)

namespace FirmAt

variable {α β : Type} {s : List Char}

theorem bind {p : Parser (List Char) α} {f : α → Parser (List Char) β} (hp : FirmAt x p s) (hf : ∀ a, Firm x (f a)) :
    FirmAt x (p >>= f) s := by
  rw [FirmAt, bind_apply, bind_apply, hp]
  cases p s with
  | none => rfl
  | some y => exact hf y.1 y.2

theorem orElse {p q : Parser (List Char) α} (hp : FirmAt x p s) (hq : FirmAt x q s) : FirmAt x (p <|> q) s := by
  rw [FirmAt, orElse_apply, orElse_apply, hp, hq]
  cases p s <;> rfl

theorem text (hx : StartsBreak x) {front : List Char} (hfront : ∀ c ∈ front, isBreak c = false)
    {p : Parser (List Char) α} (hp : ∀ e, s = front ++ e → FirmAt x p e) : FirmAt x (do text front; p) s := by
  cases hs : Parser.text front s with
  | none =>
      rw [FirmAt, bind_apply, bind_apply, Firm.text hx hfront, hs]
      rfl
  | some y =>
      obtain ⟨⟨⟩, e⟩ := y
      rw [FirmAt, bind_of_eq hs, bind_of_eq (Keeps.text front hs)]
      exact hp e (text_eq_some_iff.1 hs)

end FirmAt

/-! ## Comments -/

/-- A comment up to the end of the line, which has not come yet. -/
def InComment (s : List Char) : Prop := startsWith ['/', '/'] s = true ∧ '\n' ∉ s

theorem line_eq_nil {s : List Char} (h : '\n' ∉ s) : (line s).2 = [] := by
  fun_induction line s with
  | case1 => rfl
  | case2 r => simp at h
  | case3 r hreturn => simp at h
  | case4 c r hreturn hend l e hline ih =>
      rw [hline] at ih
      exact ih fun hmem => h (List.mem_cons_of_mem c hmem)

theorem line_ne_nil {s : List Char} (h : '\n' ∈ s) : (line s).2 ≠ [] := by
  fun_induction line s with
  | case1 => simp at h
  | case2 r => exact List.cons_ne_nil _ _
  | case3 r hreturn => exact List.cons_ne_nil _ _
  | case4 c r hreturn hend l e hline ih =>
      rw [hline] at ih
      rcases List.mem_cons.1 h with rfl | hmem
      · exact absurd rfl hend
      · exact ih hmem

/-- A line that ends within the text is the same with more lines behind it. -/
theorem firmAt_line {s : List Char} (h : '\n' ∈ s) : FirmAt x (fun s => some (line s)) s := by
  show some (line (s ++ x)) = some ((line s).1, (line s).2 ++ x)
  rw [line_append (line_ne_nil h)]

/-- Lexemes that are the same but for what the last one, a punctuation character, knows of what follows. -/
inductive Relinked : List Lexeme → List Lexeme → Prop where
  | refl (ls : List Lexeme) : Relinked ls ls
  | last (ls : List Lexeme) (c : Char) (joint joint' : Bool) :
      Relinked (ls ++ [token (.punct c joint)]) (ls ++ [token (.punct c joint')])

theorem Relinked.append_left (front : List Lexeme) {ls ls' : List Lexeme} (h : Relinked ls ls') :
    Relinked (front ++ ls) (front ++ ls') := by
  cases h with
  | refl => exact .refl _
  | last ls c joint joint' =>
      rw [← List.append_assoc, ← List.append_assoc]
      exact .last _ c joint joint'

theorem Relinked.symm {ls ls' : List Lexeme} (h : Relinked ls ls') : Relinked ls' ls := by
  cases h with
  | refl => exact .refl ls
  | last ls c joint joint' => exact .last ls c joint' joint

theorem Relinked.trans {ls ls' ls'' : List Lexeme} (h : Relinked ls ls') (h' : Relinked ls' ls'') : Relinked ls ls'' := by
  cases h with
  | refl => exact h'
  | last front c joint joint' =>
      generalize hls : front ++ [token (.punct c joint')] = mid at h'
      cases h' with
      | refl =>
          rw [← hls]
          exact .last front c joint joint'
      | last front' c' joint₁ joint₂ =>
          obtain ⟨rfl, hlast⟩ := List.append_inj' hls rfl
          obtain ⟨rfl, -⟩ : c = c' ∧ joint' = joint₁ := by simpa using hlast
          exact .last front c joint joint₂

/-- A lexeme without and with `x` behind the text: none, or the same one, or a punctuation character at the end. -/
inductive Appended (x : List Char) : Option (List Lexeme × List Char) → Option (List Lexeme × List Char) → Prop where
  | none : Appended x none none
  | same (l : List Lexeme) (r : List Char) : Appended x (some (l, r)) (some (l, r ++ x))
  | last (c : Char) (joint joint' : Bool) :
      Appended x (some ([token (.punct c joint)], [])) (some ([token (.punct c joint')], x))

theorem appended_tokenLexeme (hx : Trailer x) (c : Char) (s : List Char) :
    Appended x (tokenLexeme (c :: s)) (tokenLexeme (c :: s ++ x)) := by
  have happly : ∀ s, tokenLexeme s = (plainToken s).map fun y => ([token y.1], y.2) := by
    intro s
    rw [tokenLexeme, bind_apply]
    cases plainToken s <;> rfl
  rw [happly, happly, links_plainToken hx]
  rcases plainToken (c :: s) with _ | ⟨t, _ | ⟨d, r⟩⟩
  · exact .none
  · cases t with
    | punct e joint => exact .last e joint _
    | word name => exact .same _ []
    | lifetime name => exact .same _ []
    | literal written => exact .same _ []
  · cases t <;> exact .same _ (d :: r)

section

variable (hx : Trailer x)

include hx

/-- Nothing ends a comment in brackets. -/
theorem block_trailer (depth : Nat) : block depth x = none := by
  have hbreak := hx.isBreak
  clear hx
  induction x with
  | nil => rfl
  | cons c x ih =>
      have hc : isBreak c = true := hbreak c List.mem_cons_self
      rw [block, ih fun d hd => hbreak d (List.mem_cons_of_mem c hd)]
      · rfl
      · exact fun _ hslash _ => ne_of_isBreak hc '/' (by decide) hslash
      · exact fun _ hstar _ => ne_of_isBreak hc '*' (by decide) hstar

theorem firm_block (depth : Nat) : Firm x (block depth) := by
  refine .ofKeeps (keeps_block depth) fun s y h hnone => ?_
  fun_induction block depth s generalizing y with
  | case1 depth =>
      rw [List.nil_append, block_trailer hx] at h
      cases h
  | case2 depth e ih =>
      obtain ⟨y', hy', -⟩ := Option.map_eq_some_iff.1 h
      exact ih y' hy' (Option.map_eq_none_iff.1 hnone)
  | case3 e => cases hnone
  | case4 e depth ih =>
      obtain ⟨y', hy', -⟩ := Option.map_eq_some_iff.1 h
      exact ih y' hy' (Option.map_eq_none_iff.1 hnone)
  | case5 depth c e hopen hclose ih =>
      -- neither is a bracket made of the character and the first one of `x`
      have hnext : ∀ d r, isBreak d = false → e ++ x = d :: r → ∃ r', e = d :: r' := by
        intro d r hd her
        cases e with
        | nil =>
            have hmem : d ∈ x := by
              rw [List.nil_append] at her
              rw [her]
              exact List.mem_cons_self
            simp [hx.isBreak d hmem] at hd
        | cons d' e => exact ⟨e, by rw [(List.cons.inj her).1]⟩
      rw [List.cons_append, block] at h
      · obtain ⟨y', hy', -⟩ := Option.map_eq_some_iff.1 h
        exact ih y' hy' (Option.map_eq_none_iff.1 hnone)
      · intro r hc her
        obtain ⟨r', hr'⟩ := hnext '*' r (by decide) her
        exact hopen r' hc hr'
      · intro r hc her
        obtain ⟨r', hr'⟩ := hnext '/' r (by decide) her
        exact hclose r' hc hr'

/-! ## Lexemes -/

variable {s : List Char} (hs : ¬ InComment s)

include hs

omit hx in
theorem newline_mem (hstarts : startsWith ['/', '/'] s = true) : '\n' ∈ s := by
  by_cases hmem : '\n' ∈ s
  · exact hmem
  · exact absurd ⟨hstarts, hmem⟩ hs

theorem firmAt_documentation : FirmAt x documentation s := by
  have hline : ∀ {front : List Char} (inner : Bool), (∀ c ∈ front, isBreak c = false) →
      startsWith ['/', '/'] front = true → FirmAt x (do text front; pure (inner, ← fun s => some (line s))) s := by
    intro front inner hfront hstarts
    refine .text hx.startsBreak hfront fun e hse => .bind (firmAt_line ?_) fun _ => .pure _
    have hmem : '\n' ∈ s := by
      refine newline_mem hs ?_
      rw [hse, startsWith_iff]
      exact (startsWith_iff.1 hstarts).trans (List.prefix_append front e)
    have hfront' : '\n' ∉ front := fun hmem => absurd (hfront _ hmem) (by decide)
    rw [hse, List.mem_append] at hmem
    exact hmem.resolve_left hfront'
  have hblock : ∀ {front : List Char} (inner : Bool), (∀ c ∈ front, isBreak c = false) →
      FirmAt x (do text front; pure (inner, ← block 0)) s := fun inner hfront =>
    .text hx.startsBreak hfront fun e _ => .bind (firm_block hx 0 e) fun _ => .pure _
  refine .bind (.orElse (hline true (by decide) (by decide)) (.orElse (hblock true (by decide))
    (.orElse (hline false (by decide) (by decide)) (hblock false (by decide))))) ?_
  rintro ⟨inner, content⟩
  exact .ite .failure (.pure _)

theorem separator_append (hat : atLexeme s = false) : separator (s ++ x) = (separator s).map fun y => (y.1, y.2 ++ x) := by
  rw [separator, separator, atLineComment_append hx.startsBreak, atBlockComment_append hx.startsBreak]
  split
  · rename_i hline
    obtain ⟨e, rfl⟩ := startsWith_of_atLineComment hline
    rw [line_append (line_ne_nil (newline_mem hs rfl))]
    rfl
  · split
    · rename_i hblock
      obtain ⟨e, rfl⟩ := startsWith_of_atBlockComment hblock
      show (block 0 (e ++ x)).map _ = ((block 0 e).map _).map _
      rw [firm_block hx 0]
      cases block 0 e <;> rfl
    · cases s with
      | nil => cases hat
      | cons c s => rfl

/-- **A lexeme is the same with `x` behind the text,** but for what a punctuation character at the end knows. -/
theorem lexeme_append_of_notInComment (hne : s ≠ []) : Appended x (lexeme s) (lexeme (s ++ x)) := by
  cases s with
  | nil => exact absurd rfl hne
  | cons c s =>
      have hunknown : startsWith unknownLiteral (c :: s ++ x) = startsWith unknownLiteral (c :: s) :=
        startsWith_append hx.startsBreak (by decide) _
      have htoken := appended_tokenLexeme hx c s
      have hdocumentation : documentation (c :: s ++ x) = _ := firmAt_documentation hx hs
      rw [List.cons_append] at hunknown htoken hdocumentation ⊢
      rw [lexeme_cons, lexeme_cons, hunknown]
      split
      · rw [orElse_apply, orElse_apply, hdocumentation]
        cases documentation (c :: s) with
        | none => exact htoken
        | some y => exact .same y.1 y.2
      · split
        · exact htoken
        · split
          · exact .same _ _
          · exact htoken

end

/-! ## Whole texts -/

/-- The text ends in a comment up to the end of the line: one starts where a lexeme could, and no line break follows. -/
inductive EndsInComment : List Char → Prop where
  | here {s : List Char} (h : InComment s) : EndsInComment s
  | separator {s r : List Char} (hat : atLexeme s = false) (hstep : separator s = some ((), r)) (h : EndsInComment r) :
      EndsInComment s
  | lexeme {s r : List Char} {l : List Lexeme} (hat : atLexeme s = true) (hstep : lexeme s = some (l, r))
      (h : EndsInComment r) : EndsInComment s

/-- What a text is read as, and what it is read as with more lexemes behind it: both have no lexemes, or those of the
    longer one are those of the text, but for what the last one knows, and the others. -/
inductive Extended (more : List Lexeme) : Option (List Lexeme × List Char) → Option (List Lexeme × List Char) → Prop where
  | none : Extended more none none
  | some {ls ls' : List Lexeme} (h : Relinked ls ls') : Extended more (some (ls, [])) (some (ls' ++ more, []))

theorem Extended.append_left {more : List Lexeme} (front : List Lexeme) {o o' : Option (List Lexeme × List Char)}
    (h : Extended more o o') :
    Extended more (o.map fun y => (front ++ y.1, y.2)) (o'.map fun y => (front ++ y.1, y.2)) := by
  cases h with
  | none => exact .none
  | some h =>
      rw [Option.map_some, Option.map_some, ← List.append_assoc]
      exact .some (h.append_left front)

theorem atLexeme_append_eq_false (hx : Trailer x) {s : List Char} (hat : atLexeme s = false) :
    atLexeme (s ++ x) = false := by
  have hne : s ≠ [] := by
    rintro rfl
    cases hat
  rw [atLexeme_append hx.startsBreak hne, hat]

/-- **Not in a comment, what is appended to a text is read on its own.** -/
theorem all_extended (hx : Trailer x) {more : List Lexeme} (hmore : Reads x more) {s : List Char} (hs : ¬ EndsInComment s) :
    Extended more (all s) (all (s ++ x)) := by
  have hnil : all [] = some ([], []) := Reads.nil
  have hx' : all x = some (more, []) := hmore
  induction s using readingInduction with
  | nil =>
      rw [hnil, List.nil_append, hx']
      exact .some (.refl [])
  | separator s r hat hstep ih =>
      have hstep' := separator_append hx (fun h => hs (.here h)) hat
      rw [hstep, Option.map_some] at hstep'
      have hat' := atLexeme_append_eq_false hx hat
      rw [all_separator hat hstep, all_separator hat' hstep']
      exact ih fun h => hs (.separator hat hstep h)
  | noSeparator s hat hstep =>
      have hstep' := separator_append hx (fun h => hs (.here h)) hat
      rw [hstep, Option.map_none] at hstep'
      have hat' := atLexeme_append_eq_false hx hat
      rw [all_of_separator_none hat hstep, all_of_separator_none hat' hstep']
      exact .none
  | lexeme s l r hat hstep ih =>
      have hne : s ≠ [] := by
        rintro rfl
        cases hstep
      have hat' : atLexeme (s ++ x) = true := by rw [atLexeme_append hx.startsBreak hne, hat]
      have hstep' := lexeme_append_of_notInComment hx (fun h => hs (.here h)) hne
      rw [all_of_lexeme hat hstep]
      have hrest := ih fun h => hs (.lexeme hat hstep h)
      clear ih
      rw [hstep] at hstep'
      generalize hfound : Lexeme.lexeme (s ++ x) = found at hstep'
      cases hstep' with
      | same l r =>
          rw [all_of_lexeme hat' hfound]
          exact hrest.append_left l
      | last c joint joint' =>
          rw [all_of_lexeme hat' hfound, hnil, hx']
          exact .some (.last [] c joint joint')
  | noLexeme s hne hat hstep =>
      have hat' : atLexeme (s ++ x) = true := by rw [atLexeme_append hx.startsBreak hne, hat]
      have hstep' := lexeme_append_of_notInComment hx (fun h => hs (.here h)) hne
      rw [hstep] at hstep'
      generalize hfound : Lexeme.lexeme (s ++ x) = found at hstep'
      cases hstep'
      rw [all_of_lexeme_none hne hat hstep, all_of_lexeme_none (by simp [hne]) hat' hfound]
      exact .none

theorem exists_reads_append (hx : Trailer x) {more : List Lexeme} (hmore : Reads x more) {s : List Char}
    (hs : ¬ EndsInComment s) {ls : List Lexeme} (h : Reads s ls) :
    ∃ ls', Relinked ls ls' ∧ Reads (s ++ x) (ls' ++ more) := by
  have hall : all s = some (ls, []) := h
  have hextended := all_extended hx hmore hs
  rw [hall] at hextended
  generalize hfound : all (s ++ x) = found at hextended
  cases hextended with
  | some hlinked => exact ⟨_, hlinked, hfound⟩

theorem exists_reads_of_append (hx : Trailer x) {more : List Lexeme} (hmore : Reads x more) {s : List Char}
    (hs : ¬ EndsInComment s) {ls : List Lexeme} (h : Reads (s ++ x) ls) :
    ∃ front front', Relinked front front' ∧ Reads s front ∧ ls = front' ++ more := by
  have hall : all (s ++ x) = some (ls, []) := h
  have hextended := all_extended hx hmore hs
  rw [hall] at hextended
  generalize hfound : all s = found at hextended
  cases hextended with
  | some hlinked => exact ⟨_, _, hlinked, hfound, rfl⟩

/-! ## Texts that end in a comment -/

theorem not_endsInComment_nil : ¬ EndsInComment [] := by
  rintro (h | ⟨hat, hstep, -⟩ | ⟨hat, hstep, -⟩)
  · exact absurd h.1 (by decide)
  · cases hat
  · cases hstep

namespace InComment

variable {s r : List Char} {l : List Lexeme}

theorem exists_cons (h : InComment s) : ∃ e, s = '/' :: '/' :: e := by
  obtain ⟨e, rfl⟩ := startsWith_iff.1 h.1
  exact ⟨e, rfl⟩

theorem append (h : InComment s) {w : List Char} (hbreak : '\n' ∉ w) : InComment (s ++ w) := by
  obtain ⟨e, rfl⟩ := h.exists_cons
  refine ⟨rfl, ?_⟩
  rw [List.mem_append, not_or]
  exact ⟨h.2, hbreak⟩

/-- Where it is no documentation, it separates lexemes. -/
theorem atLexeme_eq (h : InComment s) : atLexeme s = !atLineComment s := by
  obtain ⟨e, rfl⟩ := h.exists_cons
  have hblock : atBlockComment ('/' :: '/' :: e) = false := by simp [atBlockComment]
  have hspace : isSpace '/' = false := by decide
  simp only [atLexeme, hblock, hspace, Bool.false_or, Bool.or_false]

theorem separator_eq (h : InComment s) (hline : atLineComment s = true) : separator s = some ((), []) := by
  rw [separator, if_pos hline, line_eq_nil h.2]

theorem lexeme_eq (h : InComment s) : lexeme s = documentation s := by
  obtain ⟨e, rfl⟩ := h.exists_cons
  have htoken : tokenLexeme ('/' :: '/' :: e) = none := by
    rw [tokenLexeme, bind_apply, plainToken_comment (.inl rfl)]
    rfl
  rw [lexeme_cons, if_pos rfl, orElse_apply, htoken, Option.or_none]

/-- Documentation up to the end of the line leaves nothing of a text without line breaks. -/
theorem eq_nil_of_documentation (h : InComment s) (hdocumentation : documentation s = some (l, r)) : r = [] := by
  obtain ⟨⟨inner, content⟩, e, hfound, hrest⟩ := of_bind hdocumentation
  have her : e = r := by
    cases hlone : hasLoneReturn content with
    | true => simp [hlone, failure_apply] at hrest
    | false => exact (Prod.mk.inj (Option.some.inj (by simpa [hlone, pure_apply] using hrest))).2
  have hline : ∀ {front e' : List Char} {inner' : Bool} {y : Bool × List Char},
      (do text front; pure (inner', ← fun s => some (line s)) : Parser (List Char) (Bool × List Char)) s = some (y, e') →
        e' = [] := by
    intro front e' inner' y hy
    obtain ⟨⟨⟩, m, hfront, hy⟩ := of_bind hy
    cases hy
    refine line_eq_nil fun hmem => h.2 ?_
    rw [text_eq_some_iff.1 hfront]
    exact List.mem_append_right front hmem
  -- no comment in brackets starts with two slashes
  have hblock : ∀ (inner' : Bool) (d : Char), (do text ['/', '*', d]; pure (inner', ← block 0)
      : Parser (List Char) (Bool × List Char)) s = none := by
    intro inner' d
    obtain ⟨c, rfl⟩ := h.exists_cons
    simp [bind_apply, text_apply]
  rw [← her]
  simp only [orElse_apply, hblock, Option.none_or, Option.or_none, Option.or_eq_some_iff] at hfound
  rcases hfound with hfound | ⟨-, hfound⟩
  · exact hline hfound
  · exact hline hfound

end InComment

/-- Documentation up to the end of the text is the last attribute there. -/
theorem InComment.not_reads {s : List Char} (h : InComment s) (hline : atLineComment s = false) {ls : List Lexeme}
    (hlast : ls.getLast? ≠ some (closing .bracket)) : ¬ Reads s ls := by
  have hat : atLexeme s = true := by rw [h.atLexeme_eq, hline]; rfl
  intro hreads
  cases hdocumentation : documentation s with
  | none =>
      have hne : s ≠ [] := by
        obtain ⟨e, rfl⟩ := h.exists_cons
        exact List.cons_ne_nil _ _
      rw [Reads, all_of_lexeme_none hne hat (h.lexeme_eq.trans hdocumentation)] at hreads
      cases hreads
  | some y =>
      obtain ⟨l, r⟩ := y
      obtain rfl := h.eq_nil_of_documentation hdocumentation
      obtain ⟨ls', hnil, rfl⟩ := (reads_lexeme_iff hat (h.lexeme_eq.trans hdocumentation)).1 hreads
      obtain rfl : [] = ls' := (Prod.mk.inj (Option.some.inj (Reads.nil.symm.trans hnil))).1
      rw [List.append_nil] at hlast
      exact hlast (getLast?_documentation hdocumentation)

/-- **In a comment, what is appended to a text on the same line is not read.** -/
theorem reads_append_iff {s w : List Char} (h : EndsInComment s) (hw : Trailer w) (hbreak : '\n' ∉ w) {ls : List Lexeme}
    (hlast : ls.getLast? ≠ some (closing .bracket)) : Reads (s ++ w) ls ↔ Reads s ls := by
  induction h generalizing ls with
  | @here s h =>
      have h' : InComment (s ++ w) := h.append hbreak
      have hsame := atLineComment_append hw.startsBreak s
      cases hline : atLineComment s with
      | false => exact iff_of_false (h'.not_reads (hsame.trans hline) hlast) (h.not_reads hline hlast)
      | true =>
          have hat : atLexeme s = false := by rw [h.atLexeme_eq, hline]; rfl
          have hat' : atLexeme (s ++ w) = false := by rw [h'.atLexeme_eq, hsame, hline]; rfl
          rw [Reads, Reads, all_separator hat (h.separator_eq hline),
            all_separator hat' (h'.separator_eq (hsame.trans hline))]
  | @separator s r hat hstep h ih =>
      have hopen : ¬ InComment s := by
        intro hcomment
        have hline : atLineComment s = true := by simpa [hcomment.atLexeme_eq] using hat
        rw [hcomment.separator_eq hline] at hstep
        cases hstep
        exact not_endsInComment_nil h
      have hstep' := separator_append hw hopen hat
      rw [hstep, Option.map_some] at hstep'
      have hat' := atLexeme_append_eq_false hw hat
      rw [Reads, Reads, all_separator hat hstep, all_separator hat' hstep']
      exact ih hlast
  | @lexeme s r l hat hstep h ih =>
      have hne : s ≠ [] := by
        rintro rfl
        cases hstep
      have hopen : ¬ InComment s := by
        intro hcomment
        rw [hcomment.lexeme_eq] at hstep
        obtain rfl := hcomment.eq_nil_of_documentation hstep
        exact not_endsInComment_nil h
      have hat' : atLexeme (s ++ w) = true := by rw [atLexeme_append hw.startsBreak hne, hat]
      have hstep' := lexeme_append_of_notInComment hw hopen hne
      rw [hstep] at hstep'
      generalize hfound : Lexeme.lexeme (s ++ w) = found at hstep'
      cases hstep' with
      | last c joint joint' => exact absurd h not_endsInComment_nil
      | same l r =>
          rw [reads_lexeme_iff hat hstep, reads_lexeme_iff hat' hfound]
          constructor
          · rintro ⟨ls', hreads, rfl⟩
            exact ⟨ls', (ih (getLast?_append_right hlast)).1 hreads, rfl⟩
          · rintro ⟨ls', hreads, rfl⟩
            exact ⟨ls', (ih (getLast?_append_right hlast)).2 hreads, rfl⟩

end Lexeme

end QueryContract.Source
