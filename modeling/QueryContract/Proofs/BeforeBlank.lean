import QueryContract.Proofs.Lexing

/-!
# `Proofs.BeforeBlank` — scanning at the end of a text and before a blank

Where something ends that a scanner reads is decided by at most the character after it, and a blank decides it as the
end of the text does; so does a semicolon. A choice between scanners is the one place where more is needed: the second
one has been taken because the first one fails, and the first one has to fail before the blank too.

* `Lexeme.isBreak` — the blanks and the semicolon;
* `Keeps`         — what is found at the end of a text is found before one of these;
* `Yields`        — the first of two scanners fails before one where it has failed for the second one;
* `Literal.keeps_quoted`, `Literal.numeral_append`, `Literal.keeps_scan` — the literals.
-/

namespace QueryContract.Source

open QueryContract.Parser Text

/-! ## Characters that end what stands before them -/

/-- Whether a character is space or a semicolon. -/
def Lexeme.isBreak (c : Char) : Bool := isSpace c || c == ';'

theorem Lexeme.isBreak_of_isSpace {c : Char} (h : isSpace c = true) : isBreak c = true := by simp [isBreak, h]

/-- What holds of all space and of the semicolon holds of such a character. -/
theorem Lexeme.of_isBreak {p : Char → Prop} (hspace : ∀ c, isSpace c = true → p c) (hsemicolon : p ';') {c : Char}
    (h : isBreak c = true) : p c := by
  rw [isBreak, Bool.or_eq_true, beq_iff_eq] at h
  rcases h with h | rfl
  · exact hspace c h
  · exact hsemicolon

theorem Lexeme.isContinue_of_isBreak {c : Char} (h : isBreak c = true) : isContinue c = false :=
  of_isBreak (fun _ => isContinue_of_isSpace) (by decide) h

/-! ## Scanners before a blank -/

/-- A text that starts with space or with a semicolon. -/
def StartsBreak (x : List Char) : Prop := ∃ c r, x = c :: r ∧ Lexeme.isBreak c = true

/-- What the parser finds at the end of a text it also finds before `x`. -/
def Keeps {α : Type} (x : List Char) (p : Parser (List Char) α) : Prop :=
  ∀ ⦃s a r⦄, p s = some (a, r) → p (s ++ x) = some (a, r ++ x)

/-- The scanner finds the same with and without `x` behind the text, and leaves `x`. -/
def Firm {α : Type} (x : List Char) (p : Parser (List Char) α) : Prop :=
  ∀ s, p (s ++ x) = (p s).map fun y => (y.1, y.2 ++ x)

/-- Where the second parser finds something at the end of a text and the first one nothing, the first one finds nothing
    before `x` either. -/
def Yields {α β : Type} (x : List Char) (p : Parser (List Char) α) (q : Parser (List Char) β) : Prop :=
  ∀ ⦃s a r⦄, p s = none → q s = some (a, r) → p (s ++ x) = none

section

variable {α β : Type} {x : List Char}

theorem isStart_of_isBreak {c : Char} (h : Lexeme.isBreak c = true) : isStart c = false := by
  rw [Bool.eq_false_iff]
  intro hstart
  have hcontinue := Lexeme.isContinue_of_isBreak h
  rw [isContinue_of_isStart hstart] at hcontinue
  exact absurd hcontinue (by decide)

theorem ne_of_isBreak {c : Char} (hc : Lexeme.isBreak c = true) (d : Char) (hd : Lexeme.isBreak d = false) : c ≠ d := by
  rintro rfl
  simp [hc] at hd

/-- Such a character is no digit, to whatever base. -/
theorem digit_of_isBreak {c : Char} (hc : Lexeme.isBreak c = true) : c.isDigit = false ∧ hexDigit? c = none := by
  have hall : ∀ n ∈ Lexeme.spaces, (Char.ofNat n).isDigit = false ∧ hexDigit? (Char.ofNat n) = none := by decide
  refine Lexeme.of_isBreak (p := fun c => c.isDigit = false ∧ hexDigit? c = none) (fun d hd => ?_) (by decide) hc
  rw [← Char.ofNat_toNat d]
  exact hall _ (Lexeme.mem_spaces_of_isSpace hd)

theorem startsWith_append (hx : StartsBreak x) {front : List Char} (hfront : ∀ c ∈ front, Lexeme.isBreak c = false)
    (s : List Char) : startsWith front (s ++ x) = startsWith front s := by
  induction front generalizing s with
  | nil => rfl
  | cons c cs ih =>
      cases s with
      | nil =>
          obtain ⟨d, r, rfl, hd⟩ := hx
          have hne : c ≠ d := by
            rintro rfl
            simp [hfront c List.mem_cons_self] at hd
          simp [hne]
      | cons d r => simp [ih (fun e he => hfront e (List.mem_cons_of_mem _ he))]

theorem takeWhile_append (hx : StartsBreak x) {p : Char → Bool} (hp : ∀ c, Lexeme.isBreak c = true → p c = false)
    (s : List Char) : (s ++ x).takeWhile p = s.takeWhile p ∧ (s ++ x).dropWhile p = s.dropWhile p ++ x := by
  obtain ⟨d, r, rfl, hd⟩ := hx
  induction s with
  | nil => simp [hp d hd]
  | cons c s ih => cases hc : p c <;> simp [hc, ih]

namespace Keeps

theorem pure (a : α) : Keeps x (Pure.pure a : Parser (List Char) α) := by
  intro s b r h
  cases h
  rfl

theorem failure : Keeps x (failure : Parser (List Char) α) := by
  intro s b r h
  exact absurd h nofun

/-- In a sequence, what the second parser is counts only for values that the first one can have. -/
theorem bindOf {p : Parser (List Char) α} {f : α → Parser (List Char) β} (hp : Keeps x p)
    (hf : ∀ s a r, p s = some (a, r) → Keeps x (f a)) : Keeps x (p >>= f) := by
  intro s b e h
  rw [bind_apply] at h
  obtain ⟨⟨a, r⟩, ha, hb⟩ := Option.bind_eq_some_iff.1 h
  rw [bind_of_eq (hp ha)]
  exact hf s a r ha hb

theorem bind {p : Parser (List Char) α} {f : α → Parser (List Char) β} (hp : Keeps x p) (hf : ∀ a, Keeps x (f a)) :
    Keeps x (p >>= f) :=
  hp.bindOf fun _ a _ _ => hf a

theorem orElse {p q : Parser (List Char) α} (hp : Keeps x p) (hq : Keeps x q) (hpq : Yields x p q) :
    Keeps x (p <|> q) := by
  intro s a r h
  rw [orElse_apply] at h ⊢
  cases hps : p s with
  | some y =>
      obtain ⟨b, e⟩ := y
      rw [hps, Option.some_or] at h
      rw [hp hps, Option.some_or]
      cases h
      rfl
  | none =>
      rw [hps, Option.none_or] at h
      rw [hpq hps h, Option.none_or]
      exact hq h

theorem ite {c : Prop} [Decidable c] {p q : Parser (List Char) α} (hp : Keeps x p) (hq : Keeps x q) :
    Keeps x (if c then p else q) := by
  split
  · exact hp
  · exact hq

theorem look {f : List Char → β} (hf : ∀ s, f (s ++ x) = f s) : Keeps x (look f) := by
  intro s a r h
  cases h
  simp [Parser.look, hf]

theorem require {f : List Char → Bool} (hf : ∀ s, f (s ++ x) = f s) : Keeps x (require f) := by
  intro s a r h
  rw [Parser.require] at h ⊢
  rw [hf]
  split at h
  · cases h
    rw [if_pos ‹_›]
  · cases h

theorem satisfy (p : Char → Bool) : Keeps x (satisfy p) := by
  intro s a r h
  cases s with
  | nil => cases h
  | cons c s =>
      simp only [Parser.satisfy, List.cons_append] at h ⊢
      split at h
      · cases h
        rw [if_pos ‹_›]
      · cases h

theorem anyChar : Keeps x anyChar := satisfy _

theorem text (front : List Char) : Keeps x (text front) := by
  intro s a r h
  rw [text_apply] at h ⊢
  split at h
  · rename_i hfront
    obtain ⟨t, rfl⟩ := startsWith_iff.1 hfront
    cases h
    have hprefix : startsWith front (front ++ t ++ x) = true := by
      rw [startsWith_iff, List.append_assoc]
      exact List.prefix_append _ _
    rw [if_pos hprefix, List.append_assoc, List.drop_left, List.drop_left]
  · exact absurd h nofun

theorem char (c : Char) : Keeps x (char c) := by
  rw [Literal.char_eq_text]
  exact text [c]

theorem takeWhile (hx : StartsBreak x) {p : Char → Bool} (hp : ∀ c, Lexeme.isBreak c = true → p c = false) :
    Keeps x (takeWhile p) := by
  intro s a r h
  cases h
  obtain ⟨htake, hdrop⟩ := takeWhile_append hx hp s
  rw [Parser.takeWhile, htake, hdrop]

theorem many {stop : List Char → Bool} {item : Parser (List Char) α} (hstop : ∀ s, stop (s ++ x) = stop s)
    (hitem : Keeps x item) : Keeps x (many stop item) := by
  intro s as e h
  fun_induction Parser.many stop item s generalizing as with
  | case1 s hs =>
      cases h
      exact many_stop (by rw [hstop, hs])
  | case2 s _ hnone => cases h
  | case3 s _ a r ha hlt hnone => cases h
  | case4 s hs a r ha hlt bs e' hmore ih =>
      cases h
      have hs' : stop (s ++ x) = false := by rw [hstop]; simpa using hs
      have hlt' : Measured.size (r ++ x) < Measured.size (s ++ x) := by
        simp only [Measured.size, List.length_append] at hlt ⊢
        omega
      rw [many_item hs' (hitem ha) hlt', ih hmore]
      rfl
  | case5 s _ a r ha hlt => cases h

end Keeps

namespace Firm

theorem some {p : Parser (List Char) α} (hp : Firm x p) {s r : List Char} {a : α} (h : p s = some (a, r)) :
    p (s ++ x) = Option.some (a, r ++ x) := by
  rw [hp, h]
  rfl

theorem none {p : Parser (List Char) α} (hp : Firm x p) {s : List Char} (h : p s = none) : p (s ++ x) = Option.none := by
  rw [hp, h]
  rfl

theorem keeps {p : Parser (List Char) α} (hp : Firm x p) : Keeps x p := fun _ _ _ => hp.some

theorem would {p : Parser (List Char) α} (hp : Firm x p) (s : List Char) : would p (s ++ x) = Parser.would p s := by
  rw [Parser.would, Parser.would, hp]
  cases p s <;> rfl

/-- What is found without `x` is found with it, and nothing else is. -/
theorem ofKeeps {p : Parser (List Char) α} (hp : Keeps x p) (hnone : ∀ s y, p (s ++ x) = Option.some y → p s ≠ Option.none) :
    Firm x p := by
  intro s
  cases hs : p s with
  | some y => exact hp hs
  | none =>
      cases hsx : p (s ++ x) with
      | none => rfl
      | some y => exact absurd hs (hnone s y hsx)

theorem pure (a : α) : Firm x (Pure.pure a : Parser (List Char) α) := fun _ => rfl

theorem failure : Firm x (failure : Parser (List Char) α) := fun _ => rfl

/-- In a sequence, what the second scanner is counts only for values that the first one can have. -/
theorem bindOf {p : Parser (List Char) α} {f : α → Parser (List Char) β} (hp : Firm x p)
    (hf : ∀ s a r, p s = Option.some (a, r) → Firm x (f a)) : Firm x (p >>= f) := by
  intro s
  rw [bind_apply, bind_apply, hp]
  cases hs : p s with
  | none => rfl
  | some y => exact hf s y.1 y.2 hs y.2

theorem bind {p : Parser (List Char) α} {f : α → Parser (List Char) β} (hp : Firm x p) (hf : ∀ a, Firm x (f a)) :
    Firm x (p >>= f) :=
  hp.bindOf fun _ a _ _ => hf a

theorem map {g : α → β} {p : Parser (List Char) α} (hp : Firm x p) : Firm x (g <$> p) := by
  intro s
  rw [map_apply, map_apply, hp]
  cases p s <;> rfl

theorem orElse {p q : Parser (List Char) α} (hp : Firm x p) (hq : Firm x q) : Firm x (p <|> q) := by
  intro s
  rw [orElse_apply, orElse_apply, hp, hq]
  cases p s <;> rfl

theorem ite {c : Prop} [Decidable c] {p q : Parser (List Char) α} (hp : Firm x p) (hq : Firm x q) :
    Firm x (if c then p else q) := by
  split
  · exact hp
  · exact hq

theorem look {f : List Char → β} (hf : ∀ s, f (s ++ x) = f s) : Firm x (look f) := by
  intro s
  rw [Parser.look, Parser.look, hf]
  rfl

theorem require {f : List Char → Bool} (hf : ∀ s, f (s ++ x) = f s) : Firm x (require f) := by
  intro s
  rw [Parser.require, Parser.require, hf]
  split <;> rfl

section

variable (hx : StartsBreak x)

include hx

theorem satisfy {p : Char → Bool} (hp : ∀ c, Lexeme.isBreak c = true → p c = false) : Firm x (satisfy p) := by
  intro s
  cases s with
  | nil =>
      obtain ⟨c, r, rfl, hc⟩ := hx
      simp [Parser.satisfy, hp c hc]
  | cons c s =>
      rw [List.cons_append, Parser.satisfy, Parser.satisfy]
      split <;> rfl

theorem text {front : List Char} (hfront : ∀ c ∈ front, Lexeme.isBreak c = false) : Firm x (text front) := by
  refine .ofKeeps (.text front) fun s y h hnone => ?_
  rw [text_apply, startsWith_append hx hfront] at h
  rw [text_apply] at hnone
  split at h
  · simp_all
  · cases h

theorem char {c : Char} (hc : Lexeme.isBreak c = false) : Firm x (char c) := by
  rw [Literal.char_eq_text]
  exact text hx (by simpa using hc)

theorem takeWhile {p : Char → Bool} (hp : ∀ c, Lexeme.isBreak c = true → p c = false) : Firm x (takeWhile p) := by
  intro s
  obtain ⟨htake, hdrop⟩ := takeWhile_append hx hp s
  rw [Parser.takeWhile, htake, hdrop]
  rfl

end

end Firm

/-- A parser that starts with a text yields where that text does not stand. -/
theorem Yields.of_front (hx : StartsBreak x) {front : List Char} (hfront : ∀ c ∈ front, Lexeme.isBreak c = false)
    {p : Parser (List Char) α} {q : Parser (List Char) β}
    (hq : ∀ s a r, q s = some (a, r) → startsWith front s = false) : Yields x (do text front; p) q := by
  intro s a r _ h
  refine Literal.marked_eq_none front p ?_
  rw [startsWith_append hx hfront]
  exact hq s a r h

/-- What the parser finds starts with one of the texts. -/
def Leads (fronts : List (List Char)) (p : Parser (List Char) α) : Prop :=
  ∀ ⦃s a r⦄, p s = some (a, r) → ∃ front ∈ fronts, startsWith front s = true

/-- Of two texts of which neither starts with the other only one can stand at the front. -/
theorem Yields.of_leads {fronts fronts' : List (List Char)} {p : Parser (List Char) α} {q : Parser (List Char) β}
    (hp : Leads fronts p) (hq : Leads fronts' q) (hclash : ∀ f ∈ fronts, ∀ g ∈ fronts', ¬ f <+: g ∧ ¬ g <+: f) :
    Yields x p q := by
  intro s a r _ h
  cases hps : p (s ++ x) with
  | none => rfl
  | some y =>
      obtain ⟨f, hf, hfs⟩ := hp hps
      obtain ⟨g, hg, hgs⟩ := hq h
      have hgs' : g <+: s ++ x := (startsWith_iff.1 hgs).trans (List.prefix_append s x)
      rcases List.prefix_or_prefix_of_prefix (startsWith_iff.1 hfs) hgs' with h | h
      · exact absurd h (hclash f hf g hg).1
      · exact absurd h (hclash f hf g hg).2

/-- To yield to a choice is to yield to both parts. -/
theorem Yields.choice {p : Parser (List Char) α} {q q' : Parser (List Char) β} (hq : Yields x p q)
    (hq' : Yields x p q') : Yields x p (q <|> q') := by
  intro s a r hnone h
  rw [orElse_apply] at h
  cases hqs : q s with
  | some y => exact hq hnone hqs
  | none =>
      rw [hqs, Option.none_or] at h
      exact hq' hnone h

/-- What becomes of the value plays no part in it. -/
theorem Yields.bindPure {γ : Type} {p : Parser (List Char) α} {q : Parser (List Char) β} (g : α → γ)
    (hq : Yields x p q) : Yields x (do pure (g (← p))) q := by
  intro s a r hnone h
  rw [bind_apply] at hnone ⊢
  cases hps : p s with
  | some y => simp [hps, pure_apply] at hnone
  | none =>
      rw [hq hps h]
      rfl

namespace Leads

theorem text (front : List Char) (p : Parser (List Char) α) : Leads [front] (do text front; p) := by
  intro s a r h
  refine ⟨front, List.mem_singleton_self front, ?_⟩
  rw [bind_apply, text_apply] at h
  split at h
  · assumption
  · exact absurd h nofun

theorem bind {fronts : List (List Char)} {p : Parser (List Char) α} {f : α → Parser (List Char) β}
    (hp : Leads fronts p) : Leads fronts (p >>= f) := by
  intro s b r h
  obtain ⟨⟨a, e⟩, ha, -⟩ := Option.bind_eq_some_iff.1 h
  exact hp ha

theorem orElse {fronts fronts' : List (List Char)} {p q : Parser (List Char) α} (hp : Leads fronts p)
    (hq : Leads fronts' q) : Leads (fronts ++ fronts') (p <|> q) := by
  intro s a r h
  rw [orElse_apply] at h
  cases hps : p s with
  | some y =>
      obtain ⟨f, hf, hs⟩ := hp hps
      exact ⟨f, List.mem_append_left _ hf, hs⟩
  | none =>
      rw [hps, Option.none_or] at h
      obtain ⟨f, hf, hs⟩ := hq h
      exact ⟨f, List.mem_append_right _ hf, hs⟩

end Leads

/-- A parser that keeps what it finds, and finds only what starts with one of the texts. -/
structure Marked (x : List Char) (fronts : List (List Char)) (p : Parser (List Char) α) : Prop where
  keeps : Keeps x p
  leads : Leads fronts p

theorem Marked.text (front : List Char) {p : Parser (List Char) α} (hp : Keeps x p) :
    Marked x [front] (do text front; p) where
  keeps := .bind (.text front) fun _ => hp
  leads := .text front p

theorem Marked.orElse {fronts fronts' : List (List Char)} {p q : Parser (List Char) α} (hp : Marked x fronts p)
    (hq : Marked x fronts' q) (hclash : ∀ f ∈ fronts, ∀ g ∈ fronts', ¬ f <+: g ∧ ¬ g <+: f) :
    Marked x (fronts ++ fronts') (p <|> q) where
  keeps := hp.keeps.orElse hq.keeps (.of_leads hp.leads hq.leads hclash)
  leads := hp.leads.orElse hq.leads

end

/-! ## Escapes and characters -/

namespace Literal

variable {x : List Char}

theorem keeps_hexDigit : Keeps x hexDigit := by
  refine .bind .anyChar fun c => ?_
  split
  · exact .pure _
  · exact .failure

theorem keeps_twoDigits (flavour : Flavour) : Keeps x (twoDigits flavour) := by
  refine .bind keeps_hexDigit fun high => .bind keeps_hexDigit fun low => ?_
  cases flavour with
  | plain => exact .ite (.pure _) .failure
  | bytes => exact .pure _
  | terminated => exact .ite .failure (.pure _)

/-- A character in the braces is refused, or is the closing one, or leaves the rest to be read on. -/
theorem codePoint_cons (value count : Nat) (c : Char) : (∀ r, codePoint value count (c :: r) = none) ∨
    (∀ r, codePoint value count (c :: r) = some (value, r)) ∨
      ∃ value' count', ∀ r, codePoint value count (c :: r) = codePoint value' count' r := by
  simp only [codePoint]
  split
  · split
    · exact .inl fun _ => rfl
    · exact .inr (.inl fun _ => rfl)
  · split
    · split
      · exact .inl fun _ => rfl
      · exact .inr (.inr ⟨_, _, fun _ => rfl⟩)
    · split
      · split
        · exact .inl fun _ => rfl
        · exact .inr (.inr ⟨_, _, fun _ => rfl⟩)
      · exact .inl fun _ => rfl

theorem keeps_codePoint (value count : Nat) : Keeps x (codePoint value count) := by
  intro s n e h
  induction s generalizing value count with
  | nil => exact absurd h nofun
  | cons c s ih =>
      rw [List.cons_append]
      rcases codePoint_cons value count c with hnone | hclose | ⟨value', count', hrest⟩
      · rw [hnone] at h
        cases h
      · rw [hclose] at h ⊢
        cases h
        rfl
      · rw [hrest] at h ⊢
        exact ih value' count' h

theorem keeps_braced (flavour : Flavour) : Keeps x (braced flavour) :=
  .bind (.char _) fun _ => .bind (keeps_codePoint 0 0) fun _ => .ite (.pure _) .failure

theorem keeps_escape (flavour : Flavour) : Keeps x (escape flavour) := by
  refine .bind .anyChar fun c => ?_
  refine .ite (keeps_twoDigits flavour) (.ite (.ite .failure (keeps_braced flavour)) ?_)
  exact .ite (.ite .failure (.pure _)) (.ite (.pure _) .failure)

theorem keeps_afterLineEnd : Keeps x afterLineEnd := by
  intro s a r h
  fun_induction afterLineEnd s with
  | case1 => exact absurd h nofun
  | case2 r ih => exact ih h
  | case3 => exact absurd h nofun
  | case4 c r _ hreturn hblank ih =>
      rw [List.cons_append, afterLineEnd]
      · rw [if_pos hblank]
        exact ih h
      · exact fun _ hc _ => hreturn hc
      · exact hreturn
  | case5 c r _ hreturn hblank =>
      cases h
      rw [List.cons_append, afterLineEnd]
      · rw [if_neg hblank]
      · exact fun _ hc _ => hreturn hc
      · exact hreturn

/-- The rest of what a backslash starts in a string. -/
def afterBackslash (flavour : Flavour) : Parser (List Char) Unit := do
  if ← look (fun s => startsWith ['\n'] s || startsWith ['\r'] s) then afterLineEnd else escape flavour

/-- The character after the backslash alone decides whether the line ends there. -/
theorem afterBackslash_cons (flavour : Flavour) (c : Char) (s : List Char) : afterBackslash flavour (c :: s) =
    if '\n' = c ∨ '\r' = c then afterLineEnd (c :: s) else escape flavour (c :: s) := by
  have hend : (startsWith ['\n'] (c :: s) || startsWith ['\r'] (c :: s)) = true ↔ '\n' = c ∨ '\r' = c := by simp
  rw [afterBackslash, look_bind]
  simp only [hend]
  split <;> rfl

theorem keeps_afterBackslash (flavour : Flavour) : Keeps x (afterBackslash flavour) := by
  intro s a r h
  cases s with
  | nil => exact absurd h nofun
  | cons c s =>
      rw [afterBackslash_cons] at h
      rw [List.cons_append, afterBackslash_cons, ← List.cons_append]
      split at h
      · rw [if_pos ‹_›]
        exact keeps_afterLineEnd h
      · rw [if_neg ‹_›]
        exact keeps_escape flavour h

theorem keeps_rawItem (flavour : Flavour) : Keeps x (rawItem flavour) :=
  .bind (.satisfy _) fun _ => .ite (.char _) (.pure _)

/-- A number starts with a digit, and no quoted literal does. -/
theorem quoted_yields_numeral : Yields x quoted numeral := by
  intro s a r _ h
  cases s with
  | nil => exact absurd h (by simp [numeral, decimal, integer, digits])
  | cons c s =>
      have hdigit : c.isDigit = true := by
        cases hc : c.isDigit with
        | true => rfl
        | false => simp [numeral_eq_none (s := c :: s) (by simpa using hc)] at h
      have hall : ∀ l ∈ Lexeme.quotedStarts, ∀ d ∈ l.head?, d.isDigit = false := by decide
      refine quoted_eq_none fun l hl => ?_
      cases l with
      | nil => exact absurd hl (by decide)
      | cons d l =>
          have hne : d ≠ c := by
            rintro rfl
            simp [hall _ hl d rfl] at hdigit
          simp [hne]

/-- No exponent starts with such a character. -/
theorem notExponent_of_isBreak {c : Char} (hc : Lexeme.isBreak c = true) : ¬ (c = 'e' || c = 'E') = true := by
  simp [ne_of_isBreak hc 'e' (by decide), ne_of_isBreak hc 'E' (by decide)]

section

variable (hx : StartsBreak x)

include hx

theorem keeps_item (flavour : Flavour) : Keeps x (item flavour) := by
  have hbackslash : ∀ s, startsWith ['\\'] (s ++ x) = startsWith ['\\'] s := startsWith_append hx (by decide)
  refine .orElse (.bind (.char _) fun _ => keeps_afterBackslash flavour) ?_ ?_
  · exact .bind (.require fun s => by rw [hbackslash]) fun _ => keeps_rawItem flavour
  · rw [char_eq_text]
    exact .of_front hx (by decide) fun s a r h => by simpa using (require_bind_iff.1 h).1

theorem keeps_cooked (flavour : Flavour) : Keeps x (cooked flavour) :=
  .bind (.many (startsWith_append hx (by decide)) (keeps_item hx flavour)) fun _ => .char _

theorem keeps_raw (flavour : Flavour) : Keeps x (raw flavour) := by
  have hsharp : ∀ c, Lexeme.isBreak c = true → (c == '#') = false := by
    intro c hc
    simpa using ne_of_isBreak hc '#' (by decide)
  -- the closing quote has as many signs after it as have been read here, and only signs are read
  refine .bindOf (.takeWhile hx hsharp) fun s signs r h => ?_
  have hsigns : ∀ c ∈ '"' :: signs, Lexeme.isBreak c = false := by
    cases h
    intro c hc
    rcases List.mem_cons.1 hc with rfl | hc
    · decide
    · have hsign : c = '#' := by simpa using List.all_eq_true.1 List.all_takeWhile c hc
      rw [hsign]
      decide
  refine .bind (.char _) fun _ => ?_
  refine .ite ?_ ?_
  · exact .bind .failure fun _ => .bind (.many (startsWith_append hx hsigns) (keeps_rawItem flavour)) fun _ => .text _
  · exact .bind (.many (startsWith_append hx hsigns) (keeps_rawItem flavour)) fun _ => .text _

theorem keeps_single (flavour : Flavour) : Keeps x (single flavour) := by
  have hbackslash : ∀ s, startsWith ['\\'] (s ++ x) = startsWith ['\\'] s := startsWith_append hx (by decide)
  refine .bind (.orElse ?_ ?_ ?_) fun _ => .char _
  · exact .bind (.char _) fun _ => keeps_escape flavour
  · exact .bind (.require fun s => by rw [hbackslash]) fun _ => .bind (.satisfy _) fun _ => .pure _
  · rw [char_eq_text]
    exact .of_front hx (by decide) fun s a r h => by simpa using (require_bind_iff.1 h).1

/-! ## Quoted literals -/

/-- What strings start with. -/
def stringFronts : List (List Char) := [['"'], ['r'], ['b', '"'], ['b', 'r'], ['c', '"'], ['c', 'r']]

theorem marked_string : Marked x stringFronts string := by
  simp only [string, char_eq_text]
  exact .orElse (.text _ (keeps_cooked hx _)) (.orElse (.text _ (keeps_raw hx _)) (.orElse (.text _ (keeps_cooked hx _))
    (.orElse (.text _ (keeps_raw hx _)) (.orElse (.text _ (keeps_cooked hx _)) (.text _ (keeps_raw hx _)) (by decide))
      (by decide)) (by decide)) (by decide)) (by decide)

theorem afterSuffix_append (s : List Char) : afterSuffix (s ++ x) = afterSuffix s ++ x := by
  cases s with
  | nil =>
      obtain ⟨d, r, rfl, hd⟩ := hx
      simp [afterSuffix, isStart_of_isBreak hd]
  | cons c s =>
      have hdrop := (takeWhile_append hx (fun _ => Lexeme.isContinue_of_isBreak) (c :: s)).2
      rw [List.cons_append] at hdrop ⊢
      simp only [afterSuffix, hdrop]
      split <;> rfl

theorem keeps_quoted : Keeps x quoted := by
  have hchoice : Keeps x (string <|> byte <|> character) := by
    rw [byte, character, char_eq_text]
    exact ((marked_string hx).orElse (.orElse (.text _ (keeps_single hx _)) (.text _ (keeps_single hx _)) (by decide))
      (by decide)).keeps
  refine .bind hchoice fun _ => ?_
  intro s a r h
  cases h
  show some ((), afterSuffix (s ++ x)) = _
  rw [afterSuffix_append hx]

/-! ## Numbers -/

theorem exponent_append (before : Option (List Char)) (signed valued : Bool) (s : List Char) :
    exponent (before.map (· ++ x)) signed valued (s ++ x) = (exponent before signed valued s).map (· ++ x) := by
  induction s generalizing signed valued with
  | nil =>
      -- the blank ends the exponent, as the end of the text does
      obtain ⟨d, r, rfl, hd⟩ := hx
      have hsign : ¬ (d = '+' ∨ d = '-') := by
        simp [ne_of_isBreak hd '+' (by decide), ne_of_isBreak hd '-' (by decide)]
      rw [List.nil_append, exponent, exponent, if_neg hsign, if_neg (by simp [(digit_of_isBreak hd).1]),
        if_neg (ne_of_isBreak hd '_' (by decide))]
      cases valued <;> rfl
  | cons c s ih =>
      rw [List.cons_append, exponent, exponent]
      split
      · cases valued
        · cases signed
          · exact ih true false
          · rfl
        · rfl
      · split
        · exact ih signed true
        · split
          · exact ih signed valued
          · cases valued <;> rfl

theorem dropWhile_isDigitOrLine_append (s : List Char) :
    (s ++ x).dropWhile isDigitOrLine = s.dropWhile isDigitOrLine ++ x := by
  refine (takeWhile_append hx (fun c hc => ?_) s).2
  simp [isDigitOrLine, (digit_of_isBreak hc).1, ne_of_isBreak hc '_' (by decide)]

theorem afterPoint_append (s : List Char) :
    decimal.afterPoint (s ++ x) = (decimal.afterPoint s).map (· ++ x) := by
  rw [decimal.afterPoint, decimal.afterPoint, dropWhile_isDigitOrLine_append hx]
  cases s.dropWhile isDigitOrLine with
  | nil =>
      obtain ⟨d, r, rfl, hd⟩ := hx
      exact if_neg (notExponent_of_isBreak hd)
  | cons c e =>
      show (if c = 'e' || c = 'E' then exponent (some (c :: (e ++ x))) false false (e ++ x) else some (c :: (e ++ x))) =
        (if c = 'e' || c = 'E' then exponent (some (c :: e)) false false e else some (c :: e)).map (· ++ x)
      split
      · exact exponent_append hx (some (c :: e)) false false e
      · rfl

theorem decimal_append (s : List Char) : decimal (s ++ x) = (decimal s).map (· ++ x) := by
  cases s with
  | nil =>
      obtain ⟨d, r, rfl, hd⟩ := hx
      simp [decimal, (digit_of_isBreak hd).1]
  | cons first s =>
      have hdrop := dropWhile_isDigitOrLine_append hx (first :: s)
      rw [List.cons_append] at hdrop ⊢
      simp only [decimal, hdrop]
      split
      · rfl
      · cases (first :: s).dropWhile isDigitOrLine with
        | nil =>
            obtain ⟨d, r, rfl, hd⟩ := hx
            simp [ne_of_isBreak hd '.' (by decide), ne_of_isBreak hd 'e' (by decide), ne_of_isBreak hd 'E' (by decide)]
        | cons c e =>
            by_cases hpoint : c = '.'
            · subst hpoint
              have hrest := afterPoint_append hx e
              cases e with
              | nil =>
                  obtain ⟨d, r, rfl, hd⟩ := hx
                  simpa [ne_of_isBreak hd '.' (by decide), isStart_of_isBreak hd] using hrest
              | cons c' e' =>
                  rw [List.cons_append] at hrest
                  simp only [List.cons_append, hrest]
                  split <;> rfl
            · simp only [List.cons_append]
              split
              · exact exponent_append hx none false false e
              · rfl

theorem digits_append (base : Nat) (empty : Bool) (s : List Char) :
    digits base empty (s ++ x) = (digits base empty s).map (· ++ x) := by
  induction s generalizing empty with
  | nil =>
      obtain ⟨d, r, rfl, hd⟩ := hx
      rw [List.nil_append, digits, digits, if_neg (ne_of_isBreak hd '_' (by decide)), (digit_of_isBreak hd).2]
      cases empty <;> rfl
  | cons c s ih =>
      rw [List.cons_append, digits, digits]
      split
      · split
        · rfl
        · exact ih empty
      · cases hexDigit? c with
        | none => cases empty <;> rfl
        | some digit =>
            simp only
            split
            · exact ih false
            · split
              · rfl
              · cases empty <;> rfl

theorem integer_append (s : List Char) : integer (s ++ x) = (integer s).map (· ++ x) := by
  fun_cases integer s with
  | case1 r => exact digits_append hx 16 true r
  | case2 r => exact digits_append hx 8 true r
  | case3 r => exact digits_append hx 2 true r
  | case4 _ hsixteen height htwo =>
      -- the blank makes no other base of a zero at the end
      have hbase : ∀ d, Lexeme.isBreak d = false → (∀ r, s ≠ '0' :: d :: r) → ∀ r, s ++ x ≠ '0' :: d :: r := by
        intro d hd hs r happend
        have hspaces : ∀ c ∈ ['0', d], Lexeme.isBreak c = false := by simp [hd]; decide
        have hstarts : startsWith ['0', d] s = true := by
          rw [← startsWith_append hx hspaces, happend]
          simp
        obtain ⟨t, rfl⟩ := startsWith_iff.1 hstarts
        exact hs t rfl
      rw [integer.eq_4 _ (hbase 'x' (by decide) hsixteen) (hbase 'o' (by decide) height) (hbase 'b' (by decide) htwo),
        digits_append hx]

theorem ended_append (s : List Char) : ended (s ++ x) = (ended s).map fun y => (y.1, y.2 ++ x) := by
  rw [ended, ended, afterSuffix_append hx]
  cases afterSuffix s with
  | nil =>
      obtain ⟨d, r, rfl, hd⟩ := hx
      simp [Lexeme.isContinue_of_isBreak hd]
  | cons c e => cases hc : isContinue c <;> simp [hc]

theorem numeral_append (s : List Char) : numeral (s ++ x) = (numeral s).map fun y => (y.1, y.2 ++ x) := by
  have hended : ∀ r : Option (List Char),
      (r.map (· ++ x)).bind ended = (r.bind ended).map fun y => (y.1, y.2 ++ x) := by
    intro r
    cases r with
    | none => rfl
    | some r => exact ended_append hx r
  rw [numeral, numeral, decimal_append hx, integer_append hx, hended, hended]
  cases (decimal s).bind ended <;> rfl

theorem keeps_scan : Keeps x scan := by
  intro s a r h
  have hnumeral : Keeps x numeral := by
    intro s a r h
    rw [numeral_append hx, h]
    rfl
  rw [scan] at h ⊢
  cases hs : (quoted <|> numeral) s with
  | none => simp [hs] at h
  | some y =>
      obtain ⟨⟨⟩, e⟩ := y
      rw [hs] at h
      cases h
      rw [(keeps_quoted hx).orElse hnumeral quoted_yields_numeral hs]
      have hlength : (s ++ x).length - (r ++ x).length = s.length - r.length := by
        simp only [List.length_append]
        omega
      simp only [hlength]
      rw [List.take_append_of_le_length (Nat.sub_le _ _)]

end

end Literal

end QueryContract.Source
