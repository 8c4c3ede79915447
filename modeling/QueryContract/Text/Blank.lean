/-!
# `Text.Blank` — blank characters and trimming

The characters with the Unicode property White_Space, and the two cuts that names need: dropping the blanks at
both ends, and cutting a path at its double colons.

* `isBlank`  — the twenty-five blank characters;
* `trim`     — the text without the blanks at its ends (`trim_of_ends`: nothing else is dropped);
* `segments` — the pieces between double colons, read from the left (`join_segments` puts them together again).
-/

namespace QueryContract.Text

/-! ## Blanks -/

/-- The characters with the Unicode property White_Space. -/
def isBlank (c : Char) : Bool :=
  let n := c.toNat
  (9 ≤ n && n ≤ 13) || n == 0x20 || n == 0x85 || n == 0xa0 || n == 0x1680 ||
    (0x2000 ≤ n && n ≤ 0x200a) || n == 0x2028 || n == 0x2029 || n == 0x202f || n == 0x205f || n == 0x3000

/-- The text without the blanks at its two ends. -/
def trim (s : List Char) : List Char :=
  ((s.dropWhile isBlank).reverse.dropWhile isBlank).reverse

@[simp] theorem trim_nil : trim [] = [] := rfl

/-- A text that neither starts nor ends with a blank is left alone. -/
theorem trim_of_ends {s : List Char} (first : ∀ c ∈ s.head?, isBlank c = false)
    (last : ∀ c ∈ s.getLast?, isBlank c = false) : trim s = s := by
  have drop_self : ∀ {l : List Char}, (∀ c ∈ l.head?, isBlank c = false) → l.dropWhile isBlank = l := by
    intro l h
    cases l with
    | nil => rfl
    | cons c r => simp [List.dropWhile, h c (by simp)]
  unfold trim
  rw [drop_self first, drop_self (by simpa [List.head?_reverse] using last), List.reverse_reverse]

/-- Trimming takes blanks off at both ends. -/
theorem exists_trim (s : List Char) :
    ∃ a b, s = a ++ trim s ++ b ∧ (∀ c ∈ a, isBlank c = true) ∧ ∀ c ∈ b, isBlank c = true := by
  let t := (s.dropWhile isBlank).reverse
  refine ⟨s.takeWhile isBlank, (t.takeWhile isBlank).reverse, ?_, ?_, ?_⟩
  · have hback : trim s ++ (t.takeWhile isBlank).reverse = s.dropWhile isBlank := by
      show (t.dropWhile isBlank).reverse ++ (t.takeWhile isBlank).reverse = _
      rw [← List.reverse_append, List.takeWhile_append_dropWhile]
      exact List.reverse_reverse _
    rw [List.append_assoc, hback, List.takeWhile_append_dropWhile]
  · exact List.all_eq_true.1 List.all_takeWhile
  · intro c hc
    exact List.all_eq_true.1 List.all_takeWhile c (List.mem_reverse.1 hc)

/-! ## Double colons -/

/-- The pieces of a text between its double colons; a third colon belongs to the piece that follows. -/
def segments : List Char → List (List Char)
  | [] => [[]]
  | ':' :: ':' :: rest => [] :: segments rest
  | c :: rest =>
    match segments rest with
    | [] => [[c]]
    | piece :: pieces => (c :: piece) :: pieces

/-- Pieces written one after the other with double colons between them. -/
def join : List (List Char) → List Char
  | [] => []
  | [piece] => piece
  | piece :: pieces => piece ++ ':' :: ':' :: join pieces

theorem segments_ne_nil (s : List Char) : segments s ≠ [] := by
  fun_cases segments s <;> simp_all

theorem join_cons {piece : List Char} {pieces : List (List Char)} (h : pieces ≠ []) :
    join (piece :: pieces) = piece ++ ':' :: ':' :: join pieces := by
  cases pieces with
  | nil => exact absurd rfl h
  | cons _ _ => rfl

/-- Cutting loses nothing: the pieces joined again are the text. -/
theorem join_segments (s : List Char) : join (segments s) = s := by
  fun_induction segments s with
  | case1 => rfl
  | case2 rest ih => rw [join_cons (segments_ne_nil rest), ih]; rfl
  | case3 c rest _ h ih => exact absurd h (segments_ne_nil rest)
  | case4 c rest _ piece pieces h ih =>
    rw [h] at ih
    cases pieces with
    | nil => simpa [join] using ih
    | cons q qs =>
      rw [join_cons (List.cons_ne_nil q qs)] at ih ⊢
      rw [← ih, List.cons_append]

/-- A text without colons is its own only piece. -/
theorem segments_of_no_colon {s : List Char} (h : ':' ∉ s) : segments s = [s] := by
  induction s with
  | nil => rfl
  | cons c rest ih =>
    have hc : c ≠ ':' := fun e => h (by simp [e])
    have hr : segments rest = [rest] := ih (fun m => h (List.mem_cons_of_mem _ m))
    unfold segments
    split
    · simp_all
    · simp_all
    · simp_all

/-- A piece without colons before a double colon is cut off as it is. -/
theorem segments_append_colons {piece : List Char} (h : ':' ∉ piece) (rest : List Char) :
    segments (piece ++ ':' :: ':' :: rest) = piece :: segments rest := by
  induction piece with
  | nil => rw [List.nil_append, segments]
  | cons c piece ih =>
    have hc : c ≠ ':' := fun e => h (by simp [e])
    have hrest := ih fun m => h (List.mem_cons_of_mem _ m)
    rw [List.cons_append, segments, hrest]
    exact fun _ hcolon => absurd hcolon hc

/-- Joining loses nothing either, if there are no colons in the pieces. -/
theorem segments_join {pieces : List (List Char)} (hne : pieces ≠ []) (h : ∀ p ∈ pieces, ':' ∉ p) :
    segments (join pieces) = pieces := by
  induction pieces with
  | nil => exact absurd rfl hne
  | cons p ps ih =>
    have hp : ':' ∉ p := h p List.mem_cons_self
    cases ps with
    | nil => exact segments_of_no_colon hp
    | cons q qs =>
      rw [join_cons (List.cons_ne_nil q qs), segments_append_colons hp,
        ih (List.cons_ne_nil q qs) fun x hx => h x (List.mem_cons_of_mem _ hx)]

/-- Joined pieces hold their own characters and colons. -/
theorem mem_join {pieces : List (List Char)} {c : Char} (h : c ∈ join pieces) : c = ':' ∨ ∃ p ∈ pieces, c ∈ p := by
  induction pieces with
  | nil => exact absurd h List.not_mem_nil
  | cons p ps ih =>
    cases ps with
    | nil => exact .inr ⟨p, List.mem_cons_self, h⟩
    | cons q qs =>
      rw [join_cons (List.cons_ne_nil q qs), List.mem_append, List.mem_cons, List.mem_cons] at h
      rcases h with h | h | h | h
      · exact .inr ⟨p, List.mem_cons_self, h⟩
      · exact .inl h
      · exact .inl h
      · obtain hcolon | ⟨x, hx, hc⟩ := ih h
        · exact .inl hcolon
        · exact .inr ⟨x, List.mem_cons_of_mem _ hx, hc⟩

end QueryContract.Text
