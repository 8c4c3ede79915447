import QueryContract.Proofs.Progress

/-!
# `Proofs.Closing` — what is open in a text is not closed by blanks and semicolons

A quoted literal ends where its closing text stands. Blanks and semicolons are no part of any closing text, so that a literal
that is open at the end of a text stays open when some are appended, and the literals of a text are the same.

* `Trailer`                  — characters that only end what stands before them;
* `Detaches`, `firm_closed`  — scanners that may read on in the trailer, but for what a closing text ends;
* `Literal.firm_scan`        — the literals.
-/

namespace QueryContract.Source

open QueryContract.Parser Text

/-! ## What is appended -/

/-- Spaces and semicolons, at least one of them. -/
structure Trailer (x : List Char) : Prop where
  ne_nil : x ≠ []
  isBreak : ∀ c ∈ x, Lexeme.isBreak c = true

theorem Trailer.startsBreak {x : List Char} (h : Trailer x) : StartsBreak x := by
  cases x with
  | nil => exact absurd rfl h.ne_nil
  | cons c r => exact ⟨c, r, rfl, h.isBreak c List.mem_cons_self⟩

/-! ## Scanners that may go on -/

section

variable {α β : Type} {x : List Char}

/-- Where the scanner leaves something of the text, it finds the same without `x`. -/
def Detaches (x : List Char) (p : Parser (List Char) α) : Prop :=
  ∀ ⦃s a r⦄, p (s ++ x) = some (a, r ++ x) → r ≠ [] → p s = some (a, r)

theorem Firm.detaches {p : Parser (List Char) α} (hp : Firm x p) : Detaches x p := by
  intro s a r h _
  rw [hp] at h
  obtain ⟨⟨b, e⟩, hs, heq⟩ := Option.map_eq_some_iff.1 h
  obtain ⟨rfl, he⟩ : b = a ∧ e ++ x = r ++ x := Prod.mk.inj heq
  rw [hs, List.append_cancel_right he]

/-- An end of a text that is longer than `x` is one of the text before it. -/
theorem exists_append_of_suffix {r e : List Char} (h : r ++ x <:+ e) : ∃ e', e = e' ++ x ∧ r <:+ e' := by
  obtain ⟨front, rfl⟩ := h
  exact ⟨front ++ r, (List.append_assoc _ _ _).symm, List.suffix_append _ _⟩

namespace Detaches

theorem pure (a : α) : Detaches x (Pure.pure a : Parser (List Char) α) := (Firm.pure a).detaches

theorem failure : Detaches x (failure : Parser (List Char) α) := Firm.failure.detaches

theorem bind {p : Parser (List Char) α} {f : α → Parser (List Char) β} (hp : Detaches x p) [hforth : ∀ a, Onward (f a)]
    (hf : ∀ a, Detaches x (f a)) : Detaches x (p >>= f) := by
  intro s b r h hr
  obtain ⟨a, e, ha, hb⟩ := of_bind h
  obtain ⟨e', rfl, hsuffix⟩ := exists_append_of_suffix ((hforth a).suffix hb)
  have he' : e' ≠ [] := by
    rintro rfl
    exact hr (List.suffix_nil.1 hsuffix)
  rw [bind_of_eq (hp ha he'), hf a hb hr]

theorem orElse {p q : Parser (List Char) α} (hkeeps : Keeps x p) (hp : Detaches x p) (hq : Detaches x q) :
    Detaches x (p <|> q) := by
  intro s a r h hr
  rw [orElse_apply] at h ⊢
  cases hsx : p (s ++ x) with
  | some y =>
      rw [hsx, Option.some_or] at h
      rw [hp (hsx.trans h) hr, Option.some_or]
  | none =>
      rw [hsx, Option.none_or] at h
      have hs : p s = none := by
        cases hs : p s with
        | none => rfl
        | some y => simp [hkeeps hs] at hsx
      rw [hs, Option.none_or, hq h hr]

theorem ite {c : Prop} [Decidable c] {p q : Parser (List Char) α} (hp : Detaches x p) (hq : Detaches x q) :
    Detaches x (if c then p else q) := by
  split
  · exact hp
  · exact hq

theorem satisfy (p : Char → Bool) : Detaches x (satisfy p) := by
  intro s a r h hr
  cases s with
  | nil =>
      have hlt := Advancing.length_lt h
      simp only [List.length_append, List.length_nil] at hlt
      omega
  | cons c s =>
      rw [List.cons_append, Parser.satisfy] at h
      rw [Parser.satisfy]
      split at h
      · rename_i hc
        obtain ⟨rfl, heq⟩ := Prod.mk.inj (Option.some.inj h)
        rw [if_pos hc, List.append_cancel_right heq]
      · cases h

theorem anyChar : Detaches x anyChar := satisfy _

theorem text (front : List Char) : Detaches x (text front) := by
  intro s a r h _
  have hs := text_eq_some_iff.1 h
  rw [← List.append_assoc] at hs
  exact text_eq_some_iff.2 (List.append_cancel_right hs)

theorem many {stop : List Char → Bool} {item : Parser (List Char) α} [hforth : Onward item]
    (hstop : ∀ s, stop (s ++ x) = stop s) (hitem : Detaches x item) : Detaches x (many stop item) := by
  intro s as r h hr
  generalize hsx : s ++ x = t at h
  fun_induction Parser.many stop item t generalizing s as with
  | case1 t ht =>
      subst hsx
      obtain ⟨rfl, heq⟩ := Prod.mk.inj (Option.some.inj h)
      rw [hstop] at ht
      rw [many_stop ht, List.append_cancel_right heq]
  | case2 t _ hnone => cases h
  | case3 t _ a e ha hlt hnone => cases h
  | case4 t ht a e ha hlt bs e' hmore ih =>
      subst hsx
      obtain ⟨rfl, rfl⟩ := Prod.mk.inj (Option.some.inj h)
      rw [hstop] at ht
      obtain ⟨m, rfl, hsuffix⟩ := exists_append_of_suffix (Onward.suffix hmore)
      have hm : m ≠ [] := by
        rintro rfl
        exact hr (List.suffix_nil.1 hsuffix)
      have hitem' := hitem ha hm
      have hlt' : Measured.size m < Measured.size s := by
        simp only [Measured.size, List.length_append] at hlt ⊢
        omega
      rw [many_item (by simpa using ht) hitem' hlt', ih rfl hmore]
      rfl
  | case5 t _ a e ha hlt => cases h

end Detaches

/-- A scanner for what a text closes is firm: what is open in a text is not closed in `x`. -/
theorem firm_closed {p : Parser (List Char) α} [hforth : Onward p] (hx : Trailer x) (hkeeps : Keeps x p)
    (hp : Detaches x p) {close : List Char} (hne : close ≠ []) (hclose : ∀ c ∈ close, Lexeme.isBreak c = false) :
    Firm x (do let _ ← p; text close) := by
  refine .ofKeeps (.bind hkeeps fun _ => .text close) fun s y h hnone => ?_
  obtain ⟨a, e, ha, hfront⟩ := of_bind (r := y.2) h
  obtain ⟨c, hc⟩ := List.exists_mem_of_ne_nil close hne
  have hce : c ∈ e := by
    rw [text_eq_some_iff.1 hfront]
    exact List.mem_append_left _ hc
  have hcx : c ∉ x := fun hmem => absurd (hx.isBreak c hmem) (by simp [hclose c hc])
  -- so the closing text starts before the end of the text
  rcases List.suffix_or_suffix_of_suffix (hforth.suffix ha) (List.suffix_append s x) with hsuffix | ⟨e', rfl⟩
  · exact hcx (hsuffix.subset hce)
  · have he' : e' ≠ [] := by
      rintro rfl
      exact hcx hce
    rw [bind_of_eq (hp ha he')] at hnone
    rw [Firm.none (Firm.text hx.startsBreak hclose) hnone] at hfront
    cases hfront

end

/-! ## Literals -/

namespace Literal

variable {x : List Char}

/-- Nothing of an empty text is left. -/
theorem not_leaves_nil {α : Type} {p : Parser (List Char) α} [hforth : Onward p] {r : List Char} {a : α}
    (h : p ([] ++ x) = some (a, r ++ x)) : r = [] := by
  have hle := (hforth.suffix h).length_le
  rw [List.length_append, List.length_append, List.length_nil] at hle
  exact List.length_eq_zero_iff.1 (by omega)

theorem detaches_hexDigit : Detaches x hexDigit := by
  intro s digit r h hr
  cases s with
  | nil => exact absurd (not_leaves_nil h) hr
  | cons c s =>
      rw [List.cons_append, hexDigit_cons] at h
      obtain ⟨digit', hdigit, heq⟩ := Option.map_eq_some_iff.1 h
      obtain ⟨rfl, hs⟩ : digit' = digit ∧ s ++ x = r ++ x := Prod.mk.inj heq
      rw [hexDigit_cons, hdigit, Option.map_some, List.append_cancel_right hs]

theorem detaches_twoDigits (flavour : Flavour) : Detaches x (twoDigits flavour) := by
  unfold twoDigits
  cases flavour with
  | plain => exact .bind detaches_hexDigit fun high => .bind detaches_hexDigit fun low => .ite (.pure _) .failure
  | bytes => exact .bind detaches_hexDigit fun high => .bind detaches_hexDigit fun low => .pure _
  | terminated => exact .bind detaches_hexDigit fun high => .bind detaches_hexDigit fun low => .ite .failure (.pure _)

theorem detaches_codePoint (value count : Nat) : Detaches x (codePoint value count) := by
  intro s n r h hr
  induction s generalizing value count with
  | nil => exact absurd (not_leaves_nil h) hr
  | cons c s ih =>
      rw [List.cons_append] at h
      rcases codePoint_cons value count c with hnone | hclose | ⟨value', count', hrest⟩
      · rw [hnone] at h
        cases h
      · rw [hclose] at h ⊢
        obtain ⟨rfl, heq⟩ := Prod.mk.inj (Option.some.inj h)
        rw [List.append_cancel_right heq]
      · rw [hrest] at h ⊢
        exact ih value' count' h

theorem detaches_braced (flavour : Flavour) : Detaches x (braced flavour) := by
  rw [braced, char_eq_text]
  exact .bind (.text _) fun _ => .bind (detaches_codePoint 0 0) fun _ => .ite (.pure _) .failure

theorem detaches_escape (flavour : Flavour) : Detaches x (escape flavour) := by
  refine .bind .anyChar fun c => ?_
  refine .ite (detaches_twoDigits flavour) (.ite (.ite .failure (detaches_braced flavour)) ?_)
  exact .ite (.ite .failure (.pure _)) (.ite (.pure _) .failure)

theorem detaches_afterLineEnd : Detaches x afterLineEnd := by
  intro s a r h hr
  fun_induction afterLineEnd s with
  | case1 => exact absurd (not_leaves_nil h) hr
  | case2 e ih => exact ih h
  | case3 e hnext =>
      -- a line feed after the carriage return would be one of `x`
      by_cases hfeed : ∃ w, e ++ x = '\n' :: w
      · obtain ⟨w, hw⟩ := hfeed
        cases e with
        | nil =>
            have hsuffix : r ++ x <:+ w := by
              rw [List.cons_append, hw] at h
              exact Onward.suffix (p := afterLineEnd) h
            have hle := hsuffix.length_le
            rw [List.nil_append] at hw
            rw [hw, List.length_append, List.length_cons] at hle
            omega
        | cons d e => exact absurd (List.cons.inj hw).1 fun hd => hnext e (by rw [hd])
      · rw [List.cons_append, afterLineEnd] at h
        · cases h
        · exact fun w hw => hfeed ⟨w, hw⟩
  | case4 c e _ hreturn hblank ih =>
      rw [List.cons_append, afterLineEnd, if_pos hblank] at h
      · exact ih h
      · exact fun _ hc _ => hreturn hc
      · exact hreturn
  | case5 c e _ hreturn hblank =>
      rw [List.cons_append, afterLineEnd, if_neg hblank] at h
      · obtain ⟨rfl, heq⟩ := Prod.mk.inj (Option.some.inj h)
        rw [← List.cons_append] at heq
        rw [List.append_cancel_right heq]
      · exact fun _ hc _ => hreturn hc
      · exact hreturn

theorem detaches_afterBackslash (flavour : Flavour) : Detaches x (afterBackslash flavour) := by
  intro s a r h hr
  cases s with
  | nil => exact absurd (not_leaves_nil h) hr
  | cons c s =>
      rw [List.cons_append, afterBackslash_cons, ← List.cons_append] at h
      rw [afterBackslash_cons]
      split at h
      · rw [if_pos ‹_›]
        exact detaches_afterLineEnd h hr
      · rw [if_neg ‹_›]
        exact detaches_escape flavour h hr

theorem detaches_rawItem (flavour : Flavour) : Detaches x (rawItem flavour) := by
  rw [rawItem, char_eq_text]
  exact .bind (.satisfy _) fun _ => .ite (.text _) (.pure _)

section

variable (hx : Trailer x)

include hx

theorem detaches_item (flavour : Flavour) : Detaches x (item flavour) := by
  have hbackslash : ∀ s, startsWith ['\\'] (s ++ x) = startsWith ['\\'] s := startsWith_append hx.startsBreak (by decide)
  rw [item, char_eq_text]
  refine .orElse (.bind (.text _) fun _ => keeps_afterBackslash flavour)
    (.bind (.text _) fun _ => detaches_afterBackslash flavour) ?_
  exact .bind (Firm.require fun s => by rw [hbackslash]).detaches fun _ => detaches_rawItem flavour

theorem firm_cooked (flavour : Flavour) : Firm x (cooked flavour) := by
  rw [cooked, char_eq_text]
  exact firm_closed hx (.many (startsWith_append hx.startsBreak (by decide)) (keeps_item hx.startsBreak flavour))
    (.many (startsWith_append hx.startsBreak (by decide)) (detaches_item hx flavour)) (by decide) (by decide)

theorem firm_raw (flavour : Flavour) : Firm x (raw flavour) := by
  have hsharp : ∀ c, Lexeme.isBreak c = true → (c == '#') = false := by
    intro c hc
    simpa using ne_of_isBreak hc '#' (by decide)
  refine .bindOf (.takeWhile hx.startsBreak hsharp) fun s signs r h => .bind (.char hx.startsBreak (by decide)) fun _ => ?_
  -- only signs are read before the quote
  have hsigns : ∀ c ∈ '"' :: signs, Lexeme.isBreak c = false := by
    cases h
    intro c hc
    rcases List.mem_cons.1 hc with rfl | hc
    · decide
    · have hsign : c = '#' := by simpa using List.all_eq_true.1 List.all_takeWhile c hc
      rw [hsign]
      decide
  have hstop : ∀ s, startsWith ('"' :: signs) (s ++ x) = startsWith ('"' :: signs) s :=
    startsWith_append hx.startsBreak hsigns
  have hrest : Firm x (do
      let _ ← many (startsWith ('"' :: signs)) (rawItem flavour)
      text ('"' :: signs)) :=
    firm_closed hx (.many hstop (keeps_rawItem flavour)) (.many hstop (detaches_rawItem flavour)) nofun hsigns
  exact .ite (.bind .failure fun _ => hrest) hrest

theorem firm_single (flavour : Flavour) : Firm x (single flavour) := by
  have hbackslash : ∀ s, startsWith ['\\'] (s ++ x) = startsWith ['\\'] s := startsWith_append hx.startsBreak (by decide)
  have hescape : Keeps x (do text ['\\']; escape flavour) := .bind (.text _) fun _ => keeps_escape flavour
  have hplain : Firm x (require (!startsWith ['\\'] ·)) := .require fun s => by rw [hbackslash]
  rw [single, char_eq_text, char_eq_text]
  refine firm_closed hx (.orElse hescape (.bind hplain.keeps fun _ => .bind (.satisfy _) fun _ => .pure _) ?_) ?_ nofun
    (by decide)
  · exact .of_front hx.startsBreak (by decide) fun s a r h => by simpa using (require_bind_iff.1 h).1
  · exact .orElse hescape (.bind (.text _) fun _ => detaches_escape flavour)
      (.bind hplain.detaches fun _ => .bind (.satisfy _) fun _ => .pure _)

end

/-! ## Literals as a whole -/

section

variable (hx : Trailer x)

include hx

theorem firm_quoted : Firm x quoted := by
  have htext : ∀ {front : List Char} {p : Parser (List Char) Unit}, Firm x p → (∀ c ∈ front, Lexeme.isBreak c = false) →
      Firm x (do text front; p) := fun hp hfront => .bind (.text hx.startsBreak hfront) fun _ => hp
  have hsuffix : Firm x (fun s => some ((), afterSuffix s) : Parser (List Char) Unit) := by
    intro s
    show some ((), afterSuffix (s ++ x)) = _
    rw [afterSuffix_append hx.startsBreak]
    rfl
  refine .bind (.orElse ?_ (.orElse ?_ ?_)) fun _ => hsuffix
  · simp only [string, char_eq_text]
    refine .orElse ?_ (.orElse ?_ (.orElse ?_ (.orElse ?_ (.orElse ?_ ?_))))
    · exact htext (firm_cooked hx _) (by decide)
    · exact htext (firm_raw hx _) (by decide)
    · exact htext (firm_cooked hx _) (by decide)
    · exact htext (firm_raw hx _) (by decide)
    · exact htext (firm_cooked hx _) (by decide)
    · exact htext (firm_raw hx _) (by decide)
  · exact htext (firm_single hx _) (by decide)
  · rw [character, char_eq_text]
    exact htext (firm_single hx _) (by decide)

theorem firm_scan : Firm x scan := by
  have hchoice : Firm x (quoted <|> numeral) := .orElse (firm_quoted hx) (numeral_append hx.startsBreak)
  intro s
  rw [scan, scan, hchoice]
  cases hs : (quoted <|> numeral) s with
  | none => rfl
  | some y =>
      obtain ⟨⟨⟩, e⟩ := y
      have hlength : (s ++ x).length - (e ++ x).length = s.length - e.length := by
        simp only [List.length_append]
        omega
      simp only [Option.map_some, hlength]
      rw [List.take_append_of_le_length (Nat.sub_le _ _)]

end

end Literal

end QueryContract.Source
