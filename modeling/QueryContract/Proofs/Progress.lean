import QueryContract.Proofs.BeforeBlank
import QueryContract.Proofs.Forward

/-!
# `Proofs.Progress` — a text is read from left to right

What a scanner leaves is an end of the text that it is given, and a lexeme or a separator is never empty. So reading a
text never stops for want of progress: its lexemes are those of its first lexeme and those of the rest.

* `Onward`, `Advancing`            — scanners that take from the front, and take something; instances along their structure;
* `all_separator`, `all_of_lexeme` — the lexemes of a text from its first step;
* `readingInduction`               — induction along the steps in which a text is read.
-/

namespace QueryContract.Source

open QueryContract.Parser Text

/-! ## Scanners that take from the front -/

/-- What the scanner leaves is an end of the text. -/
class Onward {α : Type} (p : Parser (List Char) α) : Prop where
  suffix : ∀ ⦃s a r⦄, p s = some (a, r) → r <:+ s

/-- The scanner takes a character at least. -/
class Advancing {α : Type} (p : Parser (List Char) α) : Prop where
  tail : ∀ ⦃s a r⦄, p s = some (a, r) → ∃ c e, s = c :: e ∧ r <:+ e

section

variable {α β : Type}

instance (p : Parser (List Char) α) [hp : Advancing p] : Onward p where
  suffix _ _ _ h := by
    obtain ⟨c, e, rfl, hr⟩ := hp.tail h
    exact hr.trans (List.suffix_cons c e)

theorem Advancing.length_lt {p : Parser (List Char) α} [hp : Advancing p] {s r : List Char} {a : α}
    (h : p s = some (a, r)) : r.length < s.length := by
  obtain ⟨c, e, rfl, hr⟩ := hp.tail h
  exact Nat.lt_succ_of_le hr.length_le

instance (a : α) : Onward (pure a : Parser (List Char) α) where
  suffix s b r h := by
    cases h
    exact List.suffix_refl s

instance : Advancing (failure : Parser (List Char) α) where
  tail _ _ _ h := absurd h nofun

instance (p : Parser (List Char) α) (f : α → Parser (List Char) β) [hp : Onward p] [hf : ∀ a, Onward (f a)] :
    Onward (p >>= f) where
  suffix s b r h := by
    obtain ⟨a, e, ha, hb⟩ := of_bind h
    exact ((hf a).suffix hb).trans (hp.suffix ha)

instance (priority := high) (p : Parser (List Char) α) (f : α → Parser (List Char) β) [hp : Advancing p]
    [hf : ∀ a, Onward (f a)] : Advancing (p >>= f) where
  tail s b r h := by
    obtain ⟨a, e, ha, hb⟩ := of_bind h
    obtain ⟨c, t, rfl, he⟩ := hp.tail ha
    exact ⟨c, t, rfl, ((hf a).suffix hb).trans he⟩

/-- A scanner that leaves the text as it is changes nothing of that. -/
theorem Advancing.bindOf {p : Parser (List Char) α} {f : α → Parser (List Char) β} [hp : Onward p]
    (hf : ∀ a, Advancing (f a)) : Advancing (p >>= f) where
  tail s b r h := by
    obtain ⟨a, e, ha, hb⟩ := of_bind h
    obtain ⟨c, t, rfl, hr⟩ := (hf a).tail hb
    have he : c :: t <:+ s := hp.suffix ha
    cases s with
    | nil => exact absurd (List.suffix_nil.1 he) nofun
    | cons d s =>
        have ht : t <:+ s := by
          obtain ⟨front, hfront⟩ := he
          cases front with
          | nil =>
              obtain ⟨-, rfl⟩ := List.cons.inj hfront
              exact List.suffix_refl t
          | cons _ front =>
              obtain ⟨-, rfl⟩ := List.cons.inj hfront
              exact (List.suffix_cons c t).trans (List.suffix_append front _)
        exact ⟨d, s, rfl, hr.trans ht⟩

instance (p q : Parser (List Char) α) [hp : Onward p] [hq : Onward q] : Onward (p <|> q) where
  suffix s a r h := by
    rw [orElse_apply] at h
    cases hps : p s with
    | some y =>
        rw [hps, Option.some_or] at h
        exact hp.suffix (hps.trans h)
    | none =>
        rw [hps, Option.none_or] at h
        exact hq.suffix h

instance (priority := high) (p q : Parser (List Char) α) [hp : Advancing p] [hq : Advancing q] : Advancing (p <|> q) where
  tail s a r h := by
    rw [orElse_apply] at h
    cases hps : p s with
    | some y =>
        rw [hps, Option.some_or] at h
        exact hp.tail (hps.trans h)
    | none =>
        rw [hps, Option.none_or] at h
        exact hq.tail h

instance (c : Prop) [Decidable c] (p q : Parser (List Char) α) [hp : Onward p] [hq : Onward q] :
    Onward (if c then p else q) := by
  split <;> assumption

instance (f : List Char → α) : Onward (look f) where
  suffix s a r h := by
    cases h
    exact List.suffix_refl s

instance (f : List Char → Bool) : Onward (require f) where
  suffix s a r h := by
    rw [require] at h
    split at h
    · cases h
      exact List.suffix_refl s
    · cases h

instance (p : Char → Bool) : Advancing (satisfy p) where
  tail s c r h := by
    cases s with
    | nil => cases h
    | cons d e =>
        rw [satisfy] at h
        split at h
        · cases h
          exact ⟨_, _, rfl, List.suffix_refl _⟩
        · cases h

instance : Advancing anyChar := inferInstanceAs (Advancing (satisfy _))

instance (front : List Char) : Onward (text front) where
  suffix s a r h := by
    rw [text_eq_some_iff.1 h]
    exact List.suffix_append front r

instance (c : Char) (front : List Char) : Advancing (text (c :: front)) where
  tail _ _ r h := ⟨c, front ++ r, text_eq_some_iff.1 h, List.suffix_append front r⟩

instance (c : Char) : Advancing (char c) := by
  rw [Literal.char_eq_text]
  infer_instance

instance (p : Char → Bool) : Onward (takeWhile p) where
  suffix s a r h := by
    cases h
    exact List.dropWhile_suffix p

instance (stop : List Char → Bool) (item : Parser (List Char) α) [hitem : Onward item] : Onward (many stop item) where
  suffix s as r h := by
    have hsteps := many_steps h
    clear h
    induction hsteps with
    | nil s => exact List.suffix_refl s
    | cons first _ ih => exact ih.trans (hitem.suffix first)

end

/-! ## Literals -/

namespace Literal

theorem hexDigit_cons (c : Char) (s : List Char) : hexDigit (c :: s) = (hexDigit? c).map fun digit => (digit, s) := by
  have hc : anyChar (c :: s) = some (c, s) := rfl
  rw [hexDigit, bind_of_eq hc]
  cases hexDigit? c <;> rfl

instance : Advancing hexDigit where
  tail s digit r h := by
    cases s with
    | nil => cases h
    | cons c s =>
        rw [hexDigit_cons] at h
        obtain ⟨_, -, heq⟩ := Option.map_eq_some_iff.1 h
        cases heq
        exact ⟨c, _, rfl, List.suffix_refl _⟩

instance (flavour : Flavour) : Onward (twoDigits flavour) := by
  unfold twoDigits
  cases flavour <;> infer_instance

instance (value count : Nat) : Onward (codePoint value count) where
  suffix s n r h := by
    induction s generalizing value count with
    | nil => exact absurd h nofun
    | cons c s ih =>
        refine List.IsSuffix.trans ?_ (List.suffix_cons c s)
        rcases codePoint_cons value count c with hnone | hclose | ⟨value', count', hrest⟩
        · rw [hnone] at h
          cases h
        · rw [hclose] at h
          cases h
          exact List.suffix_refl _
        · rw [hrest] at h
          exact ih value' count' h

instance (flavour : Flavour) : Onward (braced flavour) := by unfold braced; infer_instance

instance (flavour : Flavour) : Onward (escape flavour) := by unfold escape; infer_instance

instance : Onward afterLineEnd where
  suffix s a r h := by
    fun_induction afterLineEnd s with
    | case1 => cases h
    | case2 r ih => exact ((ih h).trans (List.suffix_cons _ _)).trans (List.suffix_cons _ _)
    | case3 => cases h
    | case4 c r _ _ _ ih => exact (ih h).trans (List.suffix_cons _ _)
    | case5 c r _ _ _ =>
        cases h
        exact List.suffix_refl _

instance (flavour : Flavour) : Onward (afterBackslash flavour) := by unfold afterBackslash; infer_instance

instance (flavour : Flavour) : Onward (rawItem flavour) := by unfold rawItem; infer_instance

instance (flavour : Flavour) : Onward (item flavour) := by unfold item; infer_instance

instance (flavour : Flavour) : Onward (cooked flavour) := by unfold cooked; infer_instance

instance (flavour : Flavour) : Onward (raw flavour) := by unfold raw; infer_instance

instance (flavour : Flavour) : Onward (single flavour) := by unfold single; infer_instance

instance : Advancing string := by unfold string; infer_instance

instance : Advancing byte := by unfold byte; infer_instance

instance : Advancing character := by unfold character; infer_instance

theorem afterSuffix_suffix (s : List Char) : afterSuffix s <:+ s := by
  fun_cases afterSuffix s with
  | case1 c s h => exact List.dropWhile_suffix _
  | case2 c s h => exact List.suffix_refl _
  | case3 => exact List.suffix_refl _

instance : Advancing quoted := by
  have hsuffix : Onward (fun s => some ((), afterSuffix s) : Parser (List Char) Unit) := by
    refine ⟨fun s a r h => ?_⟩
    cases h
    exact afterSuffix_suffix s
  unfold quoted
  infer_instance

theorem exponent_suffix {before : Option (List Char)} {signed valued : Bool} {s r : List Char}
    (h : exponent before signed valued s = some r) : r <:+ s ∨ before = some r := by
  induction s generalizing signed valued with
  | nil =>
      cases valued with
      | true =>
          cases h
          exact .inl (List.suffix_refl _)
      | false => exact .inr h
  | cons c s ih =>
      have hrest : ∀ {signed valued : Bool}, exponent before signed valued s = some r → r <:+ c :: s ∨ before = some r :=
        fun h => (ih h).imp_left fun hr => hr.trans (List.suffix_cons c s)
      have hend : (if valued then some (c :: s) else before) = some r → r <:+ c :: s ∨ before = some r := by
        intro h
        cases valued with
        | true =>
            cases h
            exact .inl (List.suffix_refl _)
        | false => exact .inr h
      rw [exponent] at h
      split at h
      · cases valued with
        | true => exact hend h
        | false =>
            cases signed with
            | true => exact .inr h
            | false => exact hrest h
      · split at h
        · exact hrest h
        · split at h
          · exact hrest h
          · exact hend h

theorem afterPoint_suffix {s r : List Char} (h : decimal.afterPoint s = some r) : r <:+ s := by
  have hdrop : s.dropWhile isDigitOrLine <:+ s := List.dropWhile_suffix _
  rw [decimal.afterPoint] at h
  split at h
  · rename_i c e he
    rw [he] at hdrop
    refine List.IsSuffix.trans ?_ hdrop
    split at h
    · rcases exponent_suffix h with hr | hr
      · exact hr.trans (List.suffix_cons c e)
      · cases hr
        exact List.suffix_refl _
    · cases h
      exact List.suffix_refl _
  · cases h
    exact List.nil_suffix

/-- A number with a point or an exponent has its first digit before that. -/
theorem decimal_tail {s r : List Char} (h : decimal s = some r) : ∃ c e, s = c :: e ∧ r <:+ e := by
  cases s with
  | nil => cases h
  | cons first e =>
      refine ⟨first, e, rfl, ?_⟩
      simp only [decimal] at h
      split at h
      · cases h
      · rename_i hdigit
        have hdrop : (first :: e).dropWhile isDigitOrLine <:+ e := by
          have hfirst : isDigitOrLine first = true := by simpa [isDigitOrLine] using .inl (by simpa using hdigit)
          rw [List.dropWhile_cons_of_pos hfirst]
          exact List.dropWhile_suffix _
        split at h
        · rename_i r' hr'
          rw [hr'] at hdrop
          have hpoint : decimal.afterPoint r' = some r → r <:+ e := fun h =>
            ((afterPoint_suffix h).trans (List.suffix_cons _ _)).trans hdrop
          split at h
          · split at h
            · cases h
            · exact hpoint h
          · exact hpoint h
        · rename_i c r' _ hr'
          rw [hr'] at hdrop
          split at h
          · rcases exponent_suffix h with hr | hr
            · exact (hr.trans (List.suffix_cons c r')).trans hdrop
            · cases hr
          · cases h
        · cases h

theorem digits_suffix {base : Nat} {empty : Bool} {s r : List Char} (h : digits base empty s = some r) : r <:+ s := by
  induction s generalizing empty with
  | nil =>
      cases empty with
      | true => cases h
      | false =>
          cases h
          exact List.suffix_refl _
  | cons c s ih =>
      have hrest : ∀ {empty : Bool}, digits base empty s = some r → r <:+ c :: s := fun h =>
        (ih h).trans (List.suffix_cons c s)
      have hend : (if empty then none else some (c :: s)) = some r → r <:+ c :: s := by
        intro h
        cases empty with
        | true => cases h
        | false =>
            cases h
            exact List.suffix_refl _
      rw [digits] at h
      split at h
      · split at h
        · cases h
        · exact hrest h
      · split at h
        · split at h
          · exact hrest h
          · split at h
            · cases h
            · exact hend h
        · exact hend h

/-- There is a digit at least. -/
theorem digits_tail {base : Nat} {s r : List Char} (h : digits base true s = some r) : ∃ c e, s = c :: e ∧ r <:+ e := by
  cases s with
  | nil => cases h
  | cons c e =>
      refine ⟨c, e, rfl, ?_⟩
      rw [digits] at h
      split at h
      · split at h
        · cases h
        · exact digits_suffix h
      · split at h
        · split at h
          · exact digits_suffix h
          · split at h <;> cases h
        · cases h

theorem integer_tail {s r : List Char} (h : integer s = some r) : ∃ c e, s = c :: e ∧ r <:+ e := by
  have hbase : ∀ {base : Nat} {d : Char} {t : List Char}, digits base true t = some r →
      ∃ c e, '0' :: d :: t = c :: e ∧ r <:+ e := fun {base d t} h =>
    ⟨'0', d :: t, rfl, (digits_suffix h).trans (List.suffix_cons d t)⟩
  fun_cases integer s with
  | case1 t => exact hbase h
  | case2 t => exact hbase h
  | case3 t => exact hbase h
  | case4 _ hsixteen height htwo =>
      rw [integer.eq_4 _ hsixteen height htwo] at h
      exact digits_tail h

theorem ended_suffix {s r : List Char} {a : Unit} (h : ended s = some (a, r)) : r <:+ s := by
  have hsuffix := afterSuffix_suffix s
  rw [ended] at h
  split at h
  · split at h
    · cases h
    · cases h
      exact hsuffix
  · cases h
    exact hsuffix

instance : Advancing numeral where
  tail s a r h := by
    rw [numeral] at h
    cases hdecimal : (decimal s).bind ended with
    | some y =>
        rw [hdecimal] at h
        cases h
        obtain ⟨t, ht, hr⟩ := Option.bind_eq_some_iff.1 hdecimal
        obtain ⟨c, e, rfl, he⟩ := decimal_tail ht
        exact ⟨c, e, rfl, (ended_suffix hr).trans he⟩
    | none =>
        rw [hdecimal] at h
        obtain ⟨t, ht, hr⟩ := Option.bind_eq_some_iff.1 h
        obtain ⟨c, e, rfl, he⟩ := integer_tail ht
        exact ⟨c, e, rfl, (ended_suffix hr).trans he⟩

instance : Advancing scan where
  tail s l r h := by
    rw [scan] at h
    split at h
    · rename_i rest hrest
      cases h
      exact (inferInstance : Advancing (quoted <|> numeral)).tail hrest
    · cases h

end Literal

/-! ## Tokens -/

namespace Lexeme

instance : Advancing plainWord := by unfold plainWord; infer_instance

instance : Advancing rawWord := by unfold rawWord; infer_instance

instance : Advancing anyWord where
  tail s w r h := by
    rw [anyWord, map_apply, map_apply] at h
    split at h
    · obtain ⟨⟨w', e⟩, hword, hw⟩ := Option.map_eq_some_iff.1 h
      cases hw
      exact (inferInstance : Advancing rawWord).tail hword
    · obtain ⟨⟨w', e⟩, hword, hw⟩ := Option.map_eq_some_iff.1 h
      cases hw
      exact (inferInstance : Advancing plainWord).tail hword

instance : Onward lifetimeWord := by unfold lifetimeWord; infer_instance

instance : Advancing wordToken := .bindOf fun _ => inferInstance

instance : Advancing lifetimeToken := by unfold lifetimeToken; infer_instance

instance : Advancing punctToken := .bindOf fun _ => inferInstance

instance : Advancing plainToken := by
  have hunknown : Advancing (text unknownLiteral) := inferInstanceAs (Advancing (text ('(' :: _)))
  unfold plainToken
  infer_instance

/-! ## Comments -/

theorem line_suffix (s : List Char) : (line s).2 <:+ s := by
  fun_induction line s with
  | case1 => exact List.suffix_refl _
  | case2 r => exact List.suffix_cons _ _
  | case3 r hreturn => exact List.suffix_refl _
  | case4 c r hreturn hend l e hline ih =>
      rw [hline] at ih
      exact ih.trans (List.suffix_cons c r)

instance (depth : Nat) : Onward (block depth) where
  suffix s l r h := by
    fun_induction block depth s generalizing l with
    | case1 => cases h
    | case2 depth e ih =>
        obtain ⟨⟨l', r'⟩, hrest, hl⟩ := Option.map_eq_some_iff.1 h
        cases hl
        exact (ih l' hrest).trans ((List.suffix_cons _ _).trans (List.suffix_cons _ _))
    | case3 e =>
        cases h
        exact (List.suffix_cons _ _).trans (List.suffix_cons _ _)
    | case4 e depth ih =>
        obtain ⟨⟨l', r'⟩, hrest, hl⟩ := Option.map_eq_some_iff.1 h
        cases hl
        exact (ih l' hrest).trans ((List.suffix_cons _ _).trans (List.suffix_cons _ _))
    | case5 depth c e hopen hclose ih =>
        obtain ⟨⟨l', r'⟩, hrest, hl⟩ := Option.map_eq_some_iff.1 h
        cases hl
        exact (ih l' hrest).trans (List.suffix_cons _ _)

instance : Advancing documentation := by
  have hline : Onward (fun s => some (line s) : Parser (List Char) (List Char)) := by
    refine ⟨fun s l r h => ?_⟩
    have hs : line s = (l, r) := Option.some.inj h
    have hsuffix := line_suffix s
    rwa [hs] at hsuffix
  have hrest : ∀ y : Bool × List Char, Onward (match y with
      | (inner, content) => if hasLoneReturn content then failure else pure (documenting inner content)
      : Parser (List Char) (List Lexeme)) := fun y => by dsimp only; infer_instance
  unfold documentation
  infer_instance

/-! ## Lexemes and separators -/

/-- The next token as a lexeme. -/
def tokenLexeme : Parser (List Char) (List Lexeme) := do pure [token (← plainToken)]

theorem lexeme_cons (c : Char) (s : List Char) : lexeme (c :: s) =
    if c = '/' then (documentation <|> tokenLexeme) (c :: s)
    else if startsWith unknownLiteral (c :: s) then tokenLexeme (c :: s)
    else
      match bracket? c with
      | some b => some ([b], s)
      | none => tokenLexeme (c :: s) := rfl

instance : Advancing tokenLexeme := by unfold tokenLexeme; infer_instance

/-- **A lexeme is not empty.** -/
instance : Advancing lexeme where
  tail s l r h := by
    cases s with
    | nil => cases h
    | cons c e =>
        rw [lexeme_cons] at h
        split at h
        · exact (inferInstance : Advancing (documentation <|> tokenLexeme)).tail h
        · split at h
          · exact (inferInstance : Advancing tokenLexeme).tail h
          · split at h
            · cases h
              exact ⟨c, _, rfl, List.suffix_refl _⟩
            · exact (inferInstance : Advancing tokenLexeme).tail h

theorem startsWith_of_atLineComment {s : List Char} (h : atLineComment s = true) : ∃ e, s = '/' :: '/' :: e := by
  simp only [atLineComment, Bool.and_eq_true, startsWith_iff] at h
  obtain ⟨e, rfl⟩ := h.1.1
  exact ⟨e, rfl⟩

theorem startsWith_of_atBlockComment {s : List Char} (h : atBlockComment s = true) : ∃ e, s = '/' :: '*' :: e := by
  simp only [atBlockComment, Bool.or_eq_true, Bool.and_eq_true, startsWith_iff] at h
  rcases h with ⟨e, rfl⟩ | ⟨⟨⟨e, rfl⟩, -⟩, -⟩
  · exact ⟨_, rfl⟩
  · exact ⟨e, rfl⟩

/-- **A separator is not empty either.** -/
instance : Advancing separator where
  tail s a r h := by
    rw [separator] at h
    split at h
    · obtain ⟨e, rfl⟩ := startsWith_of_atLineComment ‹_›
      cases h
      refine ⟨'/', '/' :: e, rfl, ?_⟩
      have hline : (line ('/' :: '/' :: e)).2 = (line ('/' :: e)).2 := by simp [line]
      rw [hline]
      exact line_suffix _
    · split at h
      · obtain ⟨e, rfl⟩ := startsWith_of_atBlockComment ‹_›
        obtain ⟨⟨content, r'⟩, hblock, hr⟩ := Option.map_eq_some_iff.1 h
        cases hr
        exact ⟨'/', '*' :: e, rfl, ((inferInstance : Onward (block 0)).suffix hblock).trans (List.suffix_cons _ _)⟩
      · exact (inferInstance : Advancing (do let _ ← anyChar)).tail h

/-! ## The lexemes of a text, step by step -/

variable {s r : List Char}

/-- What separates lexemes has no part in what they are. -/
theorem all_separator (hat : atLexeme s = false) (h : separator s = some ((), r)) : all s = all r := by
  rw [all_apply, all_apply, gap_of_separator hat h (Advancing.length_lt h)]

theorem all_of_separator_none (hat : atLexeme s = false) (h : separator s = none) : all s = none := by
  have hgap : gap s = none := by
    rw [gap, bind_apply, many_none hat h]
    rfl
  rw [all_apply, hgap]
  rfl

/-- The lexemes of a text are its first lexeme and those of the rest. -/
theorem all_of_lexeme {l : List Lexeme} (hat : atLexeme s = true) (h : lexeme s = some (l, r)) :
    all s = (all r).map fun y => (l ++ y.1, y.2) :=
  all_lexeme hat h fun _ he => Nat.lt_of_le_of_lt (gap_size_le he) (Advancing.length_lt h)

theorem reads_lexeme_iff {l ls : List Lexeme} (hat : atLexeme s = true) (h : lexeme s = some (l, r)) :
    Reads s ls ↔ ∃ ls', Reads r ls' ∧ l ++ ls' = ls := by
  rw [Reads, all_of_lexeme hat h]
  constructor
  · intro hmap
    obtain ⟨⟨ls', e⟩, hall, heq⟩ := Option.map_eq_some_iff.1 hmap
    cases heq
    exact ⟨ls', hall, rfl⟩
  · rintro ⟨ls', hreads, rfl⟩
    have hall : all r = some (ls', []) := hreads
    rw [hall]
    rfl

theorem all_of_lexeme_none (hs : s ≠ []) (hat : atLexeme s = true) (h : lexeme s = none) : all s = none := by
  have hstop : s.isEmpty = false := by simpa using hs
  have hitem : spacedLexeme s = none := by
    rw [spacedLexeme, bind_apply, h]
    rfl
  rw [all_apply, gap_of_atLexeme hat, Option.bind_some, many_none hstop hitem]
  rfl

/-- Induction along the steps in which a text is read: separators and lexemes, up to the end or to where there is no
    step. -/
theorem readingInduction {P : List Char → Prop} (nil : P [])
    (separator : ∀ s r, atLexeme s = false → separator s = some ((), r) → P r → P s)
    (noSeparator : ∀ s, atLexeme s = false → Lexeme.separator s = none → P s)
    (lexeme : ∀ s l r, atLexeme s = true → lexeme s = some (l, r) → P r → P s)
    (noLexeme : ∀ s, s ≠ [] → atLexeme s = true → Lexeme.lexeme s = none → P s) (s : List Char) : P s := by
  induction hn : s.length using Nat.strongRecOn generalizing s with
  | _ n ih =>
      subst hn
      cases hat : atLexeme s with
      | false =>
          cases hstep : Lexeme.separator s with
          | none => exact noSeparator s hat hstep
          | some y => exact separator s y.2 hat hstep (ih _ (Advancing.length_lt hstep) y.2 rfl)
      | true =>
          cases hstep : Lexeme.lexeme s with
          | some y => exact lexeme s y.1 y.2 hat hstep (ih _ (Advancing.length_lt hstep) y.2 rfl)
          | none =>
              by_cases hs : s = []
              · exact hs ▸ nil
              · exact noLexeme s hs hat hstep

end Lexeme

end QueryContract.Source
