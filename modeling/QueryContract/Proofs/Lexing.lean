import QueryContract.Source.Grammar

/-!
# `Proofs.Lexing` — which text has which lexemes

A text is read from the left, one lexeme after the other, and the lexemes are paired to groups. Both are turned round
here: what the lexemes of a text are is said lexeme by lexeme, and what a row of lexemes is paired to is said by
writing the groups out again.

* `Tokens.flatten`, `pair_eq_some_iff` — pairing is the inverse of writing the brackets out;
* `scan_eq_none`                       — where no literal starts;
* `lexeme_word`, `lexeme_punct`        — a word and a punctuation character at the front;
* `all_lexeme`                         — the lexemes of a text after its first one;
* `Reads`                              — the lexemes of a whole text, built up from its end.
-/

namespace QueryContract.Source

open QueryContract.Parser Text

/-- What is said of the characters in a list is decided along the list, not for every character there is. -/
instance (priority := high) decidableForallMemChars (p : Char → Prop) [DecidablePred p] (l : List Char) :
    Decidable (∀ c ∈ l, p c) := List.decidableBAll p l

instance (priority := high) decidableForallMemChar? (p : Char → Prop) [DecidablePred p] (o : Option Char) :
    Decidable (∀ c ∈ o, p c) := Option.decidableForallMem o

/-! ## Brackets written out -/

/-- The lexemes of a sequence, the brackets of its groups among them. -/
def Tokens.flatten : Tokens → List Lexeme
  | nil => []
  | leaf t rest => .token t :: rest.flatten
  | group d body rest => .opening d :: (body.flatten ++ .closing d :: rest.flatten)

@[simp] theorem Tokens.flatten_append (a b : Tokens) : (a ++ b).flatten = a.flatten ++ b.flatten := by
  induction a with
  | nil => rfl
  | leaf t rest ih => simp [flatten, ih]
  | group d body rest _ ih => simp [flatten, ih]

namespace Lexeme

/-- The lexemes of a sequence and of what goes on after the groups around it. -/
def flattenOpen (s : Tokens) : List (Delimiter × Tokens) → List Lexeme
  | [] => s.flatten
  | (d, rest) :: outer => s.flatten ++ closing d :: flattenOpen rest outer

/-- What a lexeme is put before is what it makes, without it. -/
theorem flattenOpen_before {l : Lexeme} {s s' : Tokens} {outer outer' : List (Delimiter × Tokens)}
    (h : before l (s, outer) = some (s', outer')) : flattenOpen s' outer' = l :: flattenOpen s outer := by
  cases l with
  | token t =>
      obtain ⟨rfl, rfl⟩ := Prod.mk.inj (Option.some.inj h)
      cases outer <;> rfl
  | closing d =>
      obtain ⟨rfl, rfl⟩ := Prod.mk.inj (Option.some.inj h)
      rfl
  | opening d =>
      cases outer with
      | nil => exact absurd h nofun
      | cons entry outer =>
          obtain ⟨d', rest⟩ := entry
          by_cases hd : d = d'
          · subst hd
            have hpair : some (Tokens.group d s rest, outer) = some (s', outer') := by simpa [before] using h
            obtain ⟨rfl, rfl⟩ := Prod.mk.inj (Option.some.inj hpair)
            cases outer <;> simp [flattenOpen, Tokens.flatten]
          · simp [before, hd] at h

theorem flattenOpen_beforeAll {ls : List Lexeme} {s : Tokens} {outer : List (Delimiter × Tokens)}
    (h : beforeAll ls (.nil, []) = some (s, outer)) : flattenOpen s outer = ls := by
  induction ls generalizing s outer with
  | nil => cases h; rfl
  | cons l ls ih =>
      have hstep : (beforeAll ls (.nil, [])).bind (before l) = some (s, outer) := h
      obtain ⟨⟨s₁, outer₁⟩, hrest, hbefore⟩ := Option.bind_eq_some_iff.1 hstep
      rw [flattenOpen_before hbefore, ih hrest]

/-- The lexemes of a sequence put it before whatever follows. -/
theorem beforeAll_flatten (ts s : Tokens) (outer : List (Delimiter × Tokens)) :
    beforeAll ts.flatten (s, outer) = some (ts ++ s, outer) := by
  induction ts generalizing s outer with
  | nil => rfl
  | leaf t rest ih =>
      show (beforeAll rest.flatten (s, outer)).bind (before (token t)) = _
      rw [ih]
      rfl
  | group d body rest ihBody ihRest =>
      -- the closing bracket opens a sequence of its own, and the opening one puts it back as a group
      show (beforeAll (body.flatten ++ closing d :: rest.flatten) (s, outer)).bind (before (opening d)) = _
      have hrest : beforeAll (closing d :: rest.flatten) (s, outer) = some (.nil, (d, rest ++ s) :: outer) := by
        show (beforeAll rest.flatten (s, outer)).bind (before (closing d)) = _
        rw [ihRest]
        rfl
      rw [beforeAll_append, hrest, Option.bind_some, ihBody, Tokens.append_nil]
      simp [before]

/-- **Lexemes are paired to the sequence that they are written out from.** -/
theorem pair_eq_some_iff {ls : List Lexeme} {ts : Tokens} : pair ls = some ts ↔ ls = ts.flatten := by
  constructor
  · intro h
    rcases hall : beforeAll ls (.nil, []) with _ | ⟨s, _ | ⟨entry, outer⟩⟩
    · simp [pair, hall] at h
    · obtain rfl : s = ts := by simpa [pair, hall] using h
      exact (flattenOpen_beforeAll hall).symm
    · simp [pair, hall] at h
  · rintro rfl
    rw [pair, beforeAll_flatten, Tokens.append_nil]

/-! ## Characters -/

/-- The numbers of the characters that separate lexemes. -/
def spaces : List Nat :=
  [9, 10, 11, 12, 13, 0x20, 0x85, 0xa0, 0x1680, 0x2000, 0x2001, 0x2002, 0x2003, 0x2004, 0x2005, 0x2006, 0x2007,
    0x2008, 0x2009, 0x200a, 0x200e, 0x200f, 0x2028, 0x2029, 0x202f, 0x205f, 0x3000]

theorem isContinue_of_mem_spaces : ∀ n ∈ spaces, isContinue (Char.ofNat n) = false := by decide +kernel

theorem mem_spaces_of_isSpace {c : Char} (h : isSpace c = true) : c.toNat ∈ spaces := by
  simp only [isSpace, Bool.or_eq_true, beq_iff_eq] at h
  rcases h with (h | rfl) | rfl
  · simp only [isBlank, Bool.or_eq_true, Bool.and_eq_true, decide_eq_true_eq, beq_iff_eq] at h
    simp only [spaces, List.mem_cons, List.not_mem_nil]
    omega
  · decide
  · decide

/-- What separates lexemes is no part of a word. -/
theorem isContinue_of_isSpace {c : Char} (h : isSpace c = true) : isContinue c = false := by
  rw [← Char.ofNat_toNat c]
  exact isContinue_of_mem_spaces _ (mem_spaces_of_isSpace h)

theorem isSpace_of_isContinue {c : Char} (h : isContinue c = true) : isSpace c = false := by
  rw [Bool.eq_false_iff]
  intro hspace
  simp [isContinue_of_isSpace hspace] at h

theorem ne_of_isStart {c d : Char} (hc : isStart c = true) (hd : isStart d = false) : c ≠ d := by
  rintro rfl
  simp [hc] at hd

theorem isDigit_of_isStart {c : Char} (h : isStart c = true) : c.isDigit = false := by
  by_cases hascii : c.toNat < 0x80
  · have hdigits : ∀ n < 0x80, isStart (Char.ofNat n) = true → (Char.ofNat n).isDigit = false := by decide
    rw [← Char.ofNat_toNat c] at h ⊢
    exact hdigits _ hascii h
  · have hlarge : ¬ c.toNat ≤ 57 := by omega
    have hval : ¬ c.val ≤ 57 := fun hle => hlarge (UInt32.le_iff_toNat_le.1 hle)
    simp [Char.isDigit, hval]

/-- The characters of a word. -/
def isWord : List Char → Bool
  | c :: r => isStart c && r.all isContinue
  | [] => false

/-- Whether a word ends before the text, and is not the beginning of a literal. -/
def EndsWord (s : List Char) : Prop := ∀ c ∈ s.head?, isContinue c = false ∧ c ∉ ['"', '\'', '#']

theorem endsWord_cons {c : Char} {s : List Char} (h : isContinue c = false ∧ c ∉ ['"', '\'', '#']) :
    EndsWord (c :: s) := by
  intro d hd
  obtain rfl : c = d := by simpa using hd
  exact h

theorem exists_cons_of_isWord {w : List Char} (h : isWord w = true) : ∃ c r, w = c :: r ∧ isStart c = true := by
  cases w with
  | nil => exact absurd h nofun
  | cons c r =>
      simp only [isWord, Bool.and_eq_true] at h
      exact ⟨c, r, rfl, h.1⟩

theorem isContinue_of_mem_isWord {w : List Char} (h : isWord w = true) : ∀ c ∈ w, isContinue c = true := by
  cases w with
  | nil => exact absurd h nofun
  | cons d r =>
      have hparts : isStart d = true ∧ r.all isContinue = true := by simpa [isWord] using h
      intro c hc
      rcases List.mem_cons.1 hc with rfl | hr
      · exact isContinue_of_isStart hparts.1
      · exact List.all_eq_true.1 hparts.2 c hr

/-- A word and what follows it do not start like a word with a quote or a number sign after it. -/
theorem startsWith_quoted {p q w s : List Char} {d : Char} (hp : ∀ c ∈ p, isContinue c = true)
    (hd : isContinue d = false) (hquote : d ∈ ['"', '\'', '#']) (hw : ∀ c ∈ w, isContinue c = true) (hs : EndsWord s) :
    startsWith (p ++ d :: q) (w ++ s) = false := by
  rw [Bool.eq_false_iff, Ne, startsWith_iff]
  induction w generalizing p with
  | nil =>
      cases p with
      | nil =>
          rintro ⟨t, rfl⟩
          exact (hs d (by simp)).2 hquote
      | cons c p =>
          rintro ⟨t, rfl⟩
          have hc : isContinue c = false := (hs c (by simp)).1
          simp [hp c List.mem_cons_self] at hc
  | cons a w ih =>
      -- both start with characters of words until the shorter of the two ends
      cases p with
      | nil =>
          intro h
          have ha : d = a := (List.cons_prefix_cons.1 h).1
          simp [ha, hw a List.mem_cons_self] at hd
      | cons c p =>
          intro h
          exact ih (fun x hx => hp x (List.mem_cons_of_mem _ hx)) (fun x hx => hw x (List.mem_cons_of_mem _ hx))
            (List.cons_prefix_cons.1 h).2

/-! ## Punctuation -/

theorem atPunctuation_of_mem {c : Char} {s : List Char} (h : c ∈ punctuation ∧ c ≠ '/') :
    atPunctuation (c :: s) = true := by
  simp [atPunctuation, h.1, h.2.symm]

theorem atPunctuation_of_notMem {c : Char} {s : List Char} (h : c ∉ punctuation) : atPunctuation (c :: s) = false := by
  simp [atPunctuation, h]

theorem atPunctuation_of_isStart {c : Char} {s : List Char} (hc : isStart c = true) :
    atPunctuation (c :: s) = false := by
  refine atPunctuation_of_notMem fun hmem => ?_
  have hall : ∀ d ∈ punctuation, isStart d = false := by decide
  simp [hall c hmem] at hc

/-! ## Literals -/

/-- The beginnings of quoted literals. -/
def quotedStarts : List (List Char) := ['"'] :: ['\''] :: literalStarts

end Lexeme

namespace Literal

theorem char_eq_text (c : Char) : char c = text [c] := by
  funext s
  rw [char_apply, text_apply]
  rfl

theorem startsWith_append_eq_false {front s : List Char} (h : startsWith front s = false) (more : List Char) :
    startsWith (front ++ more) s = false := by
  rw [Bool.eq_false_iff, Ne, startsWith_iff] at h ⊢
  exact fun hprefix => h ((List.prefix_append front more).trans hprefix)

theorem marked_eq_none {α : Type} (front : List Char) {s : List Char} (p : Parser (List Char) α)
    (h : startsWith front s = false) :
    (do text front; p) s = none := by
  rw [bind_apply, text_apply, h]
  rfl

theorem raw_eq_none (flavour : Flavour) {s : List Char}
    (h : ∀ l ∈ [['"'], ['#', '"'], ['#', '#']], startsWith l s = false) : raw flavour s = none := by
  have hquote : char '"' (s.dropWhile (· == '#')) = none := by
    have h₀ : startsWith ['"'] s = false := h _ (by simp)
    have h₁ : startsWith ['#', '"'] s = false := h _ (by simp)
    have h₂ : startsWith ['#', '#'] s = false := h _ (by simp)
    -- at most one number sign is taken, and no quote follows it
    rcases s with _ | ⟨c, _ | ⟨d, r⟩⟩
    · rfl
    · by_cases hc : c = '#' <;> simp_all [char_apply]
    · by_cases hc : c = '#'
      · subst hc
        have hquote : d ≠ '"' := by rintro rfl; simp at h₁
        have hsign : d ≠ '#' := by rintro rfl; simp at h₂
        have hdrop : ('#' :: d :: r).dropWhile (· == '#') = d :: r := by simp [hsign]
        rw [hdrop, char_apply]
        simp [hquote.symm]
      · simp_all [char_apply]
  show (char '"' (s.dropWhile (· == '#'))).bind _ = none
  rw [hquote]
  rfl

/-- No raw string starts after a mark that has neither a quote nor number signs with a quote after it. -/
theorem marked_raw_eq_none (front : List Char) (flavour : Flavour) {s : List Char}
    (h : ∀ l ∈ [['"'], ['#', '"'], ['#', '#']], startsWith (front ++ l) s = false) :
    (do text front; raw flavour) s = none := by
  cases hfront : startsWith front s with
  | false => exact marked_eq_none front _ hfront
  | true =>
      obtain ⟨r, rfl⟩ := startsWith_iff.1 hfront
      have hraw : raw flavour r = none := by
        refine raw_eq_none flavour fun l hl => ?_
        have hl := h l hl
        rw [Bool.eq_false_iff, Ne, startsWith_iff] at hl ⊢
        exact fun hprefix => hl ((List.prefix_append_right_inj front).2 hprefix)
      rw [bind_apply, text_apply, hfront, if_pos rfl, List.drop_left]
      exact hraw

/-- A hexadecimal digit below ten is a decimal one. -/
theorem isDigit_of_hexDigit? {c : Char} {digit : Nat} (h : hexDigit? c = some digit) (hlt : digit < 10) :
    c.isDigit = true := by
  have hrange : 0x30 ≤ c.toNat ∧ c.toNat ≤ 0x39 := by
    simp only [hexDigit?] at h
    split at h
    · assumption
    · split at h
      · simp at h; omega
      · split at h <;> simp at h; omega
  simp only [Char.isDigit, Bool.and_eq_true, decide_eq_true_eq, ge_iff_le, UInt32.le_iff_toNat_le]
  exact hrange

theorem digits_eq_none {s : List Char} (h : ∀ c ∈ s.head?, c.isDigit = false) : digits 10 true s = none := by
  cases s with
  | nil => rfl
  | cons c r =>
      have hc : c.isDigit = false := h c rfl
      unfold digits
      split
      · simp
      · split
        · rename_i digit hdigit
          have hbase : ¬ digit < 10 := by
            intro hlt
            exact absurd hc (by simp [isDigit_of_hexDigit? hdigit hlt])
          simp [hbase, hc]
        · simp

theorem numeral_eq_none {s : List Char} (h : ∀ c ∈ s.head?, c.isDigit = false) : numeral s = none := by
  have hdecimal : decimal s = none := by
    cases s with
    | nil => rfl
    | cons c r => simp [decimal, h c rfl]
  have hinteger : integer s = none := by
    have hzero : ∀ r, s ≠ '0' :: r := by
      rintro r rfl
      exact absurd (h '0' rfl) (by decide)
    rw [integer.eq_4 s (fun r => hzero _) (fun r => hzero _) (fun r => hzero _)]
    exact digits_eq_none h
  show ((decimal s).bind ended <|> (integer s).bind ended) = none
  rw [hdecimal, hinteger]
  rfl

/-- No quoted literal starts where there is none of the beginnings. -/
theorem quoted_eq_none {s : List Char} (hquoted : ∀ l ∈ Lexeme.quotedStarts, startsWith l s = false) :
    quoted s = none := by
  have hstart : ∀ l ∈ Lexeme.literalStarts, startsWith l s = false := fun l hl =>
    hquoted l (List.mem_cons_of_mem _ (List.mem_cons_of_mem _ hl))
  have hmarked : ∀ c ∈ ['b', 'c'], ∀ l ∈ [['"'], ['#', '"'], ['#', '#']], startsWith ([c, 'r'] ++ l) s = false := by
    have hb : startsWith ['b', 'r', '#'] s = false := hstart _ (by simp [Lexeme.literalStarts])
    have hc : startsWith ['c', 'r', '#'] s = false := hstart _ (by simp [Lexeme.literalStarts])
    have hb' := startsWith_append_eq_false hb
    have hc' := startsWith_append_eq_false hc
    simp_all [Lexeme.literalStarts]
  have hstring : string s = none := by
    have plain := marked_eq_none ['"'] (cooked .plain) (hquoted _ (by simp [Lexeme.quotedStarts]))
    have plainRaw := marked_raw_eq_none ['r'] .plain (s := s) (by simp_all [Lexeme.literalStarts])
    have bytes := marked_eq_none ['b', '"'] (cooked .bytes) (hstart _ (by simp [Lexeme.literalStarts]))
    have bytesRaw := marked_raw_eq_none ['b', 'r'] .bytes (hmarked 'b' (by simp))
    have terminated := marked_eq_none ['c', '"'] (cooked .terminated) (hstart _ (by simp [Lexeme.literalStarts]))
    have terminatedRaw := marked_raw_eq_none ['c', 'r'] .terminated (hmarked 'c' (by simp))
    simp only [string, orElse_apply, char_eq_text]
    rw [plain, plainRaw, bytes, bytesRaw, terminated, terminatedRaw]
    rfl
  have hbyte : byte s = none := by
    rw [byte, bind_apply, text_apply, hquoted _ (by simp [Lexeme.quotedStarts, Lexeme.literalStarts])]
    rfl
  have hcharacter : character s = none := by
    rw [character, bind_apply, char_apply, hquoted _ (by simp [Lexeme.quotedStarts])]
    rfl
  rw [quoted, bind_apply, orElse_apply, orElse_apply, hstring, hbyte, hcharacter]
  rfl

/-- **No literal starts** where there is neither a digit nor the beginning of a quoted literal. -/
theorem scan_eq_none {s : List Char} (hdigit : ∀ c ∈ s.head?, c.isDigit = false)
    (hquoted : ∀ l ∈ Lexeme.quotedStarts, startsWith l s = false) : scan s = none := by
  have hall : (quoted <|> numeral) s = none := by
    rw [orElse_apply, quoted_eq_none hquoted, numeral_eq_none hdigit]
    rfl
  rw [scan, hall]

end Literal

namespace Lexeme

/-! ## One lexeme at the front -/

/-- A word starts with a character that starts no other lexeme. -/
theorem scan_of_isStart {c : Char} {r : List Char} (hc : isStart c = true)
    (h : ∀ l ∈ literalStarts, startsWith l (c :: r) = false) : Literal.scan (c :: r) = none := by
  refine Literal.scan_eq_none ?_ ?_
  · intro d hd
    obtain rfl : c = d := by simpa using hd
    exact isDigit_of_isStart hc
  · have hquotes : ∀ d ∈ ['"', '\''], startsWith [d] (c :: r) = false := by
      intro d hd
      have hne : c ≠ d := ne_of_isStart hc (by revert d; decide)
      simp [hne.symm]
    intro l hl
    rcases List.mem_cons.1 hl with rfl | hl
    · exact hquotes '"' (by simp)
    · rcases List.mem_cons.1 hl with rfl | hl
      · exact hquotes '\'' (by simp)
      · exact h l hl

/-- No literal starts with a character that is neither a digit nor the first of one of the beginnings. -/
theorem scan_cons_eq_none {c : Char} (hdigit : c.isDigit = false) (hstart : ∀ l ∈ quotedStarts, l.head? ≠ some c)
    (s : List Char) : Literal.scan (c :: s) = none := by
  refine Literal.scan_eq_none ?_ ?_
  · intro d hd
    obtain rfl : c = d := by simpa using hd
    exact hdigit
  · intro l hl
    have hne := hstart l hl
    cases l with
    | nil => exact absurd hl (by decide)
    | cons a l =>
        have ha : a ≠ c := by simpa using hne
        simp [ha]

/-- The quote is the only punctuation that literals start with. -/
theorem scan_punct {c : Char} (hc : c ∈ punctuation) (hquote : c ≠ '\'') (s : List Char) :
    Literal.scan (c :: s) = none := by
  have hall : ∀ d ∈ punctuation, d.isDigit = false ∧ (d ≠ '\'' → ∀ l ∈ quotedStarts, l.head? ≠ some d) := by decide
  exact scan_cons_eq_none (hall c hc).1 ((hall c hc).2 hquote) s

/-- The beginning of a literal is a word with a quote or a number sign after it. -/
theorem literalStarts_quoted : ∀ l ∈ literalStarts,
    (l.dropWhile isContinue).head?.any (['"', '\'', '#'].contains ·) = true := by
  decide

theorem startsWith_literalStarts {w s : List Char} (hw : isWord w = true) (hs : EndsWord s) :
    ∀ l ∈ literalStarts, startsWith l (w ++ s) = false := by
  intro l hl
  have hquoted := literalStarts_quoted l hl
  cases hdrop : l.dropWhile isContinue with
  | nil => simp [hdrop] at hquoted
  | cons d q =>
      have hd : d ∈ ['"', '\'', '#'] := by simpa [hdrop] using hquoted
      have hstop : isContinue d = false := by
        have hall : ∀ c ∈ ['"', '\'', '#'], isContinue c = false := by decide
        exact hall d hd
      rw [← List.takeWhile_append_dropWhile (p := isContinue) (l := l), hdrop]
      exact startsWith_quoted (List.all_eq_true.1 List.all_takeWhile) hstop hd (isContinue_of_mem_isWord hw) hs

theorem plainWord_word {w s : List Char} (hw : isWord w = true) (hs : ∀ c ∈ s.head?, isContinue c = false) :
    plainWord (w ++ s) = some (w, s) := by
  cases w with
  | nil => exact absurd hw nofun
  | cons c r =>
      have hparts : isStart c = true ∧ r.all isContinue = true := by simpa [isWord] using hw
      have hr : ∀ d ∈ r, isContinue d = true := List.all_eq_true.1 hparts.2
      have hstop : s.takeWhile isContinue = [] ∧ s.dropWhile isContinue = s := by
        cases s with
        | nil => exact ⟨rfl, rfl⟩
        | cons d s => simp [hs d rfl]
      have htake : (r ++ s).takeWhile isContinue = r := by
        rw [List.takeWhile_append_of_pos hr, hstop.1, List.append_nil]
      have hdrop : (r ++ s).dropWhile isContinue = s := by rw [List.dropWhile_append_of_pos hr, hstop.2]
      simp only [plainWord, bind_apply, satisfy, List.cons_append, hparts.1, if_true, Option.bind_some, takeWhile,
        htake, hdrop, pure_apply]

theorem anyWord_word {w s : List Char} (hw : isWord w = true) (hs : EndsWord s) :
    anyWord (w ++ s) = some (String.ofList w, s) := by
  have hraw : startsWith ['r', '#'] (w ++ s) = false :=
    startsWith_quoted (p := ['r']) (d := '#') (q := []) (by decide) (by decide) (by decide)
      (isContinue_of_mem_isWord hw) hs
  rw [anyWord, hraw, if_neg (by decide), map_apply, plainWord_word hw fun c hc => (hs c hc).1]
  rfl

/-- Only what starts with a quote is a lifetime. -/
theorem lifetimeToken_cons {c : Char} (hc : c ≠ '\'') (s : List Char) : lifetimeToken (c :: s) = none := by
  simp [lifetimeToken, bind_apply, char_apply, hc.symm]

theorem punctToken_eq_none {s : List Char} (h : atPunctuation s = false) : punctToken s = none := by
  simp [punctToken, bind_apply, require, h]

theorem wordToken_eq_none {c : Char} (hc : isStart c = false) (s : List Char) : wordToken (c :: s) = none := by
  have hany : anyWord (c :: s) = none := by
    have hmark : 'r' ≠ c := by
      rintro rfl
      exact absurd hc (by decide)
    simp [anyWord, map_apply, plainWord, bind_apply, satisfy, hc, hmark]
  rw [wordToken, bind_apply, require]
  split
  · rw [Option.bind_some, bind_apply, hany]
    rfl
  · rfl

/-- Where a word starts there are no tokens of other kinds. -/
theorem otherTokens_of_isStart {c : Char} {r : List Char} (hc : isStart c = true) :
    lifetimeToken (c :: r) = none ∧ punctToken (c :: r) = none :=
  ⟨lifetimeToken_cons (ne_of_isStart hc (by decide)) r, punctToken_eq_none (atPunctuation_of_isStart hc)⟩

/-- A word at the front is the next token. -/
theorem plainToken_word {w s : List Char} (hw : isWord w = true) (hs : EndsWord s) :
    plainToken (w ++ s) = some (.word (String.ofList w), s) := by
  obtain ⟨c, r, rfl, hc⟩ := exists_cons_of_isWord hw
  have hstarts : ∀ l ∈ literalStarts, startsWith l (c :: r ++ s) = false := startsWith_literalStarts hw hs
  have hscan : Literal.scan (c :: r ++ s) = none := scan_of_isStart hc hstarts
  obtain ⟨hlifetime, hpunct⟩ : lifetimeToken (c :: r ++ s) = none ∧ punctToken (c :: r ++ s) = none :=
    otherTokens_of_isStart hc
  have hword : wordToken (c :: r ++ s) = some (.word (String.ofList (c :: r)), s) := by
    have hany : (literalStarts.any fun l => startsWith l (c :: r ++ s)) = false := by
      simpa using hstarts
    rw [wordToken, bind_apply, require, hany]
    simp only [Bool.not_false, if_true, Option.bind_some, bind_apply, anyWord_word hw hs, pure_apply]
  simp only [plainToken, orElse_apply, bind_apply, hscan, hlifetime, hpunct, hword, Option.bind_none, Option.none_or,
    Option.some_or]

/-- A punctuation character at the front is the next token. The quote and the slash start other things as well. -/
theorem plainToken_punct {c : Char} {s : List Char} (hc : c ∈ punctuation) (hquote : c ≠ '\'') (hslash : c ≠ '/') :
    plainToken (c :: s) = some (.punct c (atPunctuation s), s) := by
  have hscan : Literal.scan (c :: s) = none := scan_punct hc hquote s
  have hlifetime : lifetimeToken (c :: s) = none := lifetimeToken_cons hquote s
  have hpunct : punctToken (c :: s) = some (.punct c (atPunctuation s), s) := by
    have hat : (atPunctuation (c :: s) && !startsWith ['\''] (c :: s)) = true := by
      simp [atPunctuation_of_mem ⟨hc, hslash⟩, hquote.symm]
    simp only [punctToken, bind_apply, require, hat, if_true, Option.bind_some, anyChar, satisfy, look, pure_apply]
  simp only [plainToken, orElse_apply, bind_apply, hscan, hlifetime, hpunct, Option.bind_none, Option.none_or,
    Option.some_or]

/-- The characters that are brackets. -/
def bracketChars : List Char := ['(', ')', '[', ']', '\x7b', '\x7d']

theorem bracket?_of_notMem {c : Char} (h : c ∉ bracketChars) : bracket? c = none := by
  simp only [bracketChars, List.mem_cons, List.not_mem_nil, or_false, not_or] at h
  simp [bracket?, h]

/-- What is neither a comment nor a bracket is a token. -/
theorem lexeme_plain {c : Char} {r : List Char} (hslash : c ≠ '/') (hbracket : bracket? c = none) :
    lexeme (c :: r) = (plainToken (c :: r)).map fun x => ([token x.1], x.2) := by
  have hparen : c ≠ '(' := by rintro rfl; exact absurd hbracket (by decide)
  have hunknown : startsWith unknownLiteral (c :: r) = false := by simp [unknownLiteral, hparen.symm]
  simp only [lexeme, hslash, if_false, hunknown, hbracket, bind_apply]
  cases plainToken (c :: r) <;> rfl

theorem lexeme_of_plainToken {c : Char} {r e : List Char} {t : Token} (hslash : c ≠ '/') (hbracket : bracket? c = none)
    (h : plainToken (c :: r) = some (t, e)) : lexeme (c :: r) = some ([token t], e) := by
  rw [lexeme_plain hslash hbracket, h]
  rfl

theorem lexeme_word {w s : List Char} (hw : isWord w = true) (hs : EndsWord s) :
    lexeme (w ++ s) = some ([token (.word (String.ofList w))], s) := by
  have htoken := plainToken_word hw hs
  obtain ⟨c, r, rfl, hc⟩ := exists_cons_of_isWord hw
  have hbracket : c ∉ bracketChars := by
    intro hmem
    have hall : ∀ d ∈ bracketChars, isStart d = false := by decide
    simp [hall c hmem] at hc
  exact lexeme_of_plainToken (ne_of_isStart hc (by decide)) (bracket?_of_notMem hbracket) htoken

theorem lexeme_punct {c : Char} {s : List Char} (hc : c ∈ punctuation) (hquote : c ≠ '\'') (hslash : c ≠ '/') :
    lexeme (c :: s) = some ([token (.punct c (atPunctuation s))], s) := by
  have hall : ∀ d ∈ punctuation, bracket? d = none := by decide
  exact lexeme_of_plainToken hslash (hall c hc) (plainToken_punct hc hquote hslash)

/-- A bracket at the front; a parenthesis before a slash could start a literal that is not known. -/
theorem lexeme_bracket {c : Char} {s : List Char} {b : Lexeme} (hb : bracket? c = some b)
    (hs : c = '(' → s.head? ≠ some '/') : lexeme (c :: s) = some ([b], s) := by
  have hslash : c ≠ '/' := by
    rintro rfl
    have hnone : bracket? '/' = none := by decide
    simp [hnone] at hb
  have hunknown : startsWith unknownLiteral (c :: s) = false := by
    by_cases hc : c = '('
    · cases s with
      | nil => simp [unknownLiteral]
      | cons d s =>
          have hd : d ≠ '/' := by simpa using hs hc
          simp [unknownLiteral, hd.symm]
    · simp [unknownLiteral, Ne.symm hc]
  simp only [lexeme, hslash, if_false, hunknown, hb]
  rfl

/-! ## Whole texts -/

/-- The text has the given lexemes. -/
def Reads (s : List Char) (ls : List Lexeme) : Prop := all s = some (ls, [])

theorem gap_of_atLexeme {s : List Char} (h : atLexeme s = true) : gap s = some ((), s) := by
  rw [gap, bind_apply, many_stop h]
  rfl

theorem gap_size_le {s r : List Char} (h : gap s = some ((), r)) : r.length ≤ s.length := by
  rw [gap, bind_apply] at h
  obtain ⟨⟨xs, e⟩, hmany, hrest⟩ := Option.bind_eq_some_iff.1 h
  cases hrest
  exact many_size_le hmany

theorem gap_of_separator {s r : List Char} (hat : atLexeme s = false) (hseparator : separator s = some ((), r))
    (hlt : r.length < s.length) : gap s = gap r := by
  rw [gap, bind_apply, bind_apply, many_item hat hseparator hlt]
  cases many atLexeme separator r <;> rfl

theorem gap_space {c : Char} {s : List Char} (h : isSpace c = true) : gap (c :: s) = gap s := by
  have hslash : c ≠ '/' := by rintro rfl; exact absurd h (by decide)
  have hat : atLexeme (c :: s) = false := by simp [atLexeme, h]
  have hseparator : separator (c :: s) = some ((), s) := by
    have hline : atLineComment (c :: s) = false := by simp [atLineComment, hslash.symm]
    have hblock : atBlockComment (c :: s) = false := by simp [atBlockComment, hslash.symm]
    simp only [separator, hline, hblock]
    rfl
  exact gap_of_separator hat hseparator (Nat.lt_succ_self _)

/-- A lexeme and what separates it from the next one. -/
def spacedLexeme : Parser (List Char) (List Lexeme) := do
  let l ← lexeme
  gap
  pure l

theorem all_apply (s : List Char) : all s = (gap s).bind fun x =>
    (many List.isEmpty spacedLexeme x.2).bind fun y => some (y.1.flatten, y.2) := rfl

/-- The lexemes of a text are found after what separates them from its start. -/
theorem reads_iff {s : List Char} {ls : List Lexeme} : Reads s ls ↔ ∃ r parts,
    gap s = some ((), r) ∧ many List.isEmpty spacedLexeme r = some (parts, []) ∧ parts.flatten = ls := by
  rw [Reads, all_apply]
  constructor
  · intro h
    obtain ⟨⟨⟨⟩, r⟩, hgap, hrest⟩ := Option.bind_eq_some_iff.1 h
    obtain ⟨⟨parts, e⟩, hmany, hend⟩ := Option.bind_eq_some_iff.1 hrest
    cases hend
    exact ⟨r, parts, hgap, hmany, rfl⟩
  · rintro ⟨r, parts, hgap, hmany, rfl⟩
    rw [hgap, Option.bind_some, hmany]
    rfl

/-- The lexemes of a text are found up to its end. -/
theorem eq_nil_of_all {s e : List Char} {ls : List Lexeme} (h : all s = some (ls, e)) : e = [] := by
  rw [all_apply] at h
  obtain ⟨⟨⟨⟩, r⟩, -, hrest⟩ := Option.bind_eq_some_iff.1 h
  obtain ⟨⟨parts, e'⟩, hmany, hend⟩ := Option.bind_eq_some_iff.1 hrest
  cases hend
  exact List.isEmpty_iff.1 (stop_of_many hmany)

theorem all_space {c : Char} (hc : isSpace c = true) (s : List Char) : all (c :: s) = all s := by
  rw [all_apply, all_apply, gap_space hc]

theorem all_spaces {a : List Char} (ha : ∀ c ∈ a, isSpace c = true) (s : List Char) : all (a ++ s) = all s := by
  induction a with
  | nil => rfl
  | cons c a ih =>
      rw [← ih fun d hd => ha d (List.mem_cons_of_mem _ hd)]
      exact all_space (ha c List.mem_cons_self) _

theorem Reads.nil : Reads [] [] :=
  reads_iff.2 ⟨[], [], gap_of_atLexeme rfl, many_stop rfl, rfl⟩

theorem Reads.space {c : Char} {s : List Char} {ls : List Lexeme} (hc : isSpace c = true) (h : Reads s ls) :
    Reads (c :: s) ls :=
  (all_space hc s).trans h

/-- The lexemes of a text after its first one are those of what is left, if there are any. -/
theorem all_lexeme {s r : List Char} {l : List Lexeme} (hat : atLexeme s = true) (hlexeme : lexeme s = some (l, r))
    (hlt : ∀ e, gap r = some ((), e) → e.length < s.length) : all s = (all r).map fun y => (l ++ y.1, y.2) := by
  have hstop : s.isEmpty = false := by
    cases s with
    | nil => exact absurd hlexeme nofun
    | cons c s => rfl
  rw [all_apply, all_apply, gap_of_atLexeme hat, Option.bind_some]
  cases hgap : gap r with
  | none =>
      have hitem : spacedLexeme s = none := by
        rw [spacedLexeme, bind_of_eq hlexeme, bind_apply, hgap]
        rfl
      rw [many_none hstop hitem]
      rfl
  | some y =>
      obtain ⟨⟨⟩, e⟩ := y
      have hitem : spacedLexeme s = some (l, e) := by
        rw [spacedLexeme, bind_of_eq hlexeme, bind_of_eq hgap]
        rfl
      rw [many_item hstop hitem (hlt e hgap), Option.bind_some]
      cases many List.isEmpty spacedLexeme e <;> rfl

/-- Neither space nor a comment starts with a character that is none of the first two kinds. -/
theorem atLexeme_cons {c : Char} {s : List Char} (hspace : isSpace c = false) (hslash : c ≠ '/') :
    atLexeme (c :: s) = true := by
  simp [atLexeme, hspace, atLineComment, atBlockComment, hslash.symm]

theorem all_word {w s : List Char} (hw : isWord w = true) (hs : EndsWord s) :
    all (w ++ s) = (all s).map fun y => (token (.word (String.ofList w)) :: y.1, y.2) := by
  have hlexeme := lexeme_word hw hs
  obtain ⟨c, r, rfl, hc⟩ := exists_cons_of_isWord hw
  have hspace : isSpace c = false := isSpace_of_isContinue (isContinue_of_isStart hc)
  have hlt : s.length < (c :: r ++ s).length := by
    rw [List.length_append]
    exact Nat.lt_add_of_pos_left (Nat.succ_pos _)
  exact all_lexeme (atLexeme_cons hspace (ne_of_isStart hc (by decide))) hlexeme
    fun e he => Nat.lt_of_le_of_lt (gap_size_le he) hlt

theorem all_punct {c : Char} {s : List Char} (hc : c ∈ punctuation ∧ c ≠ '\'' ∧ c ≠ '/') :
    all (c :: s) = (all s).map fun y => (token (.punct c (atPunctuation s)) :: y.1, y.2) := by
  obtain ⟨hpunct, hquote, hslash⟩ := hc
  have hall : ∀ d ∈ punctuation, isSpace d = false := by decide
  exact all_lexeme (atLexeme_cons (hall c hpunct) hslash) (lexeme_punct hpunct hquote hslash)
    fun e he => Nat.lt_succ_of_le (gap_size_le he)

theorem all_bracket {c : Char} {s : List Char} {b : Lexeme} (hb : bracket? c = some b)
    (hs : c = '(' → s.head? ≠ some '/') : all (c :: s) = (all s).map fun y => (b :: y.1, y.2) := by
  have hc : c ∈ bracketChars := by
    by_cases hc : c ∈ bracketChars
    · exact hc
    · simp [bracket?_of_notMem hc] at hb
  have hall : ∀ d ∈ bracketChars, isSpace d = false ∧ d ≠ '/' := by decide
  exact all_lexeme (atLexeme_cons (hall c hc).1 (hall c hc).2) (lexeme_bracket hb hs)
    fun e he => Nat.lt_succ_of_le (gap_size_le he)

/-- No lexeme starts with a mark of the byte order. -/
theorem all_mark (s : List Char) : all ('\ufeff' :: s) = none := by
  have hscan : Literal.scan ('\ufeff' :: s) = none := scan_cons_eq_none (by decide) (by decide) s
  have hlifetime : lifetimeToken ('\ufeff' :: s) = none := lifetimeToken_cons (by decide) s
  have hpunct : punctToken ('\ufeff' :: s) = none := punctToken_eq_none (atPunctuation_of_notMem (by decide))
  have hword : wordToken ('\ufeff' :: s) = none := wordToken_eq_none (by decide +kernel) s
  have hunknown : text unknownLiteral ('\ufeff' :: s) = none := rfl
  have hplain : plainToken ('\ufeff' :: s) = none := by
    simp only [plainToken, orElse_apply, bind_apply, hscan, hlifetime, hpunct, hword, hunknown, Option.bind_none,
      Option.none_or]
  have hlexeme : lexeme ('\ufeff' :: s) = none := by
    rw [lexeme_plain (by decide) (by decide), hplain]
    rfl
  have hitem : spacedLexeme ('\ufeff' :: s) = none := by
    rw [spacedLexeme, bind_apply, hlexeme]
    rfl
  rw [all_apply, gap_of_atLexeme (atLexeme_cons (by decide) (by decide)), Option.bind_some, many_none rfl hitem]
  rfl

theorem Reads.word {w s : List Char} {ls : List Lexeme} (hw : isWord w = true) (hs : EndsWord s) (h : Reads s ls) :
    Reads (w ++ s) (token (.word (String.ofList w)) :: ls) := by
  have hrest : all s = some (ls, []) := h
  rw [Reads, all_word hw hs, hrest]
  rfl

theorem Reads.punct {c : Char} {s : List Char} {ls : List Lexeme} {joint : Bool}
    (hc : c ∈ punctuation ∧ c ≠ '\'' ∧ c ≠ '/') (hjoint : atPunctuation s = joint) (h : Reads s ls) :
    Reads (c :: s) (token (.punct c joint) :: ls) := by
  have hrest : all s = some (ls, []) := h
  rw [Reads, all_punct hc, hrest, hjoint]
  rfl

theorem Reads.bracket {c : Char} {s : List Char} {b : Lexeme} {ls : List Lexeme} (hb : bracket? c = some b)
    (hs : c = '(' → s.head? ≠ some '/') (h : Reads s ls) : Reads (c :: s) (b :: ls) := by
  have hrest : all s = some (ls, []) := h
  rw [Reads, all_bracket hb hs, hrest]
  rfl

variable {s : List Char} {ls : List Lexeme}

theorem Reads.openParen (hs : s.head? ≠ some '/') (h : Reads s ls) : Reads ('(' :: s) (opening .paren :: ls) :=
  h.bracket rfl fun _ => hs

theorem Reads.closeParen (h : Reads s ls) : Reads (')' :: s) (closing .paren :: ls) := h.bracket rfl nofun

theorem Reads.openBracket (h : Reads s ls) : Reads ('[' :: s) (opening .bracket :: ls) := h.bracket rfl nofun

theorem Reads.closeBracket (h : Reads s ls) : Reads (']' :: s) (closing .bracket :: ls) := h.bracket rfl nofun

theorem Reads.openBrace (h : Reads s ls) : Reads ('\x7b' :: s) (opening .brace :: ls) := h.bracket rfl nofun

theorem Reads.closeBrace (h : Reads s ls) : Reads ('\x7d' :: s) (closing .brace :: ls) := h.bracket rfl nofun

end Lexeme

/-- Where there is no mark of the byte order, all of a text is read. -/
theorem Tokens.ofText?_unmarked {s : List Char} (hmark : s.head? ≠ some '\ufeff') :
    Tokens.ofText? s = (Lexeme.all s).bind fun x => Lexeme.pair x.1 := by
  unfold Tokens.ofText?
  split
  · exact absurd rfl hmark
  · rfl

/-- The tokens of a text are those that its lexemes are written out from. -/
theorem Tokens.ofText?_of_reads {s : List Char} {ts : Tokens} (h : Lexeme.Reads s ts.flatten)
    (hmark : s.head? ≠ some '\ufeff') : Tokens.ofText? s = some ts := by
  have hall : Lexeme.all s = some (ts.flatten, []) := h
  rw [Tokens.ofText?_unmarked hmark, hall, Option.bind_some]
  exact Lexeme.pair_eq_some_iff.2 rfl

/-- A text with tokens has the lexemes that they are written out to. -/
theorem Lexeme.reads_of_ofText? {s : List Char} {ts : Tokens} (h : Tokens.ofText? s = some ts)
    (hmark : s.head? ≠ some '\ufeff') : Lexeme.Reads s ts.flatten := by
  rw [Tokens.ofText?_unmarked hmark] at h
  obtain ⟨⟨ls, e⟩, hall, hpair⟩ := Option.bind_eq_some_iff.1 h
  obtain rfl : e = [] := Lexeme.eq_nil_of_all hall
  rw [← Lexeme.pair_eq_some_iff.1 hpair]
  exact hall

theorem parse?_of_reads {α : Type} {p : Parser Tokens α} {s : List Char} {ts : Tokens} {a : α}
    (h : Lexeme.Reads s ts.flatten) (hmark : s.head? ≠ some '\ufeff') (hp : p ts = some (a, .nil)) :
    parse? p s = some a := by
  simp only [parse?, Tokens.ofText?_of_reads h hmark, hp]

theorem parse?_eq_some {α : Type} {p : Parser Tokens α} {s : List Char} {a : α} (h : parse? p s = some a) :
    ∃ ts, Tokens.ofText? s = some ts ∧ p ts = some (a, .nil) := by
  rw [parse?] at h
  cases htokens : Tokens.ofText? s with
  | none => simp [htokens] at h
  | some ts =>
      simp only [htokens] at h
      split at h
      · rename_i b hp
        cases h
        exact ⟨ts, rfl, hp⟩
      · exact absurd h nofun

end QueryContract.Source
