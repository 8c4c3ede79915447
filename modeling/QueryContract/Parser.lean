/-!
# `Parser` — reading a measured input from the left

A parser takes something off the front of its input, or fails. Inputs have a size, and repetition is bounded by it:
whatever is to be read again has to be read from a strictly smaller input.

* `Parser` — the monad; `<|>` tries its second part where the first one fails;
* `fix`  — the nonterminals of a grammar from their rules (`fix_eq`);
* `many`, `separated`, `chained` — the three ways in which items follow one another.
-/

namespace QueryContract

/-- Inputs with a size. -/
class Measured (σ : Type) where
  size : σ → Nat

instance {α : Type} : Measured (List α) := ⟨List.length⟩

/-- Takes a value off the front of an input, or fails. -/
abbrev Parser (σ α : Type) := StateT σ Option α

namespace Parser

variable {σ α : Type}

/-! ## Looking ahead -/

/-- A fact about the input. -/
def look (p : σ → α) : Parser σ α := fun s => some (p s, s)

/-- Fails unless the input has the property. -/
def require (p : σ → Bool) : Parser σ Unit := fun s => if p s then some ((), s) else none

/-- Whether the parser succeeds; then its input is taken. -/
def accepts (p : Parser σ α) : Parser σ Bool := fun s =>
  match p s with
  | some (_, r) => some (true, r)
  | none => some (false, s)

/-- Whether the parser would succeed; nothing is taken. -/
def would (p : Parser σ α) (s : σ) : Bool := (p s).isSome

/-! ## Running -/

theorem pure_apply (a : α) (s : σ) : (pure a : Parser σ α) s = some (a, s) := rfl

theorem failure_apply (s : σ) : (failure : Parser σ α) s = none := rfl

theorem bind_apply {β : Type} (p : Parser σ α) (f : α → Parser σ β) (s : σ) :
    (p >>= f) s = (p s).bind fun x => f x.1 x.2 := rfl

theorem bind_of_eq {β : Type} {p : Parser σ α} {f : α → Parser σ β} {s r : σ} {a : α} (h : p s = some (a, r)) :
    (p >>= f) s = f a r := by
  rw [bind_apply, h]
  rfl

theorem map_apply {β : Type} (g : α → β) (p : Parser σ α) (s : σ) :
    (g <$> p) s = (p s).map fun x => (g x.1, x.2) := by
  show (p s).bind (fun x => some (g x.1, x.2)) = _
  cases p s <;> rfl

theorem orElse_apply (p q : Parser σ α) (s : σ) : (p <|> q) s = (p s).or (q s) := by
  show (p s <|> q s) = _
  cases p s <;> rfl

theorem look_bind {β : Type} (p : σ → α) (f : α → Parser σ β) (s : σ) : (look p >>= f) s = f (p s) s := rfl

theorem look_then {p : σ → Bool} {a b : Parser σ α} {s : σ} (h : p s = true) :
    (do if ← look p then a else b) s = a s := by
  rw [look_bind, h, if_pos rfl]

theorem look_else {p : σ → Bool} {a b : Parser σ α} {s : σ} (h : p s = false) :
    (do if ← look p then a else b) s = b s := by
  rw [look_bind, h, if_neg (by decide)]

theorem require_bind_iff {β : Type} {p : σ → Bool} {f : Unit → Parser σ β} {s : σ} {y : β × σ} :
    (require p >>= f) s = some y ↔ p s = true ∧ f () s = some y := by
  rw [bind_apply, require]
  cases p s <;> simp

variable [Measured σ]

open Measured

/-! ## Recursion -/

/-- The nonterminals of a grammar. A rule reaches the others through its first argument, and only on an input that is
    smaller than its own. -/
def fix {ι : Type} (Out : ι → Type) (rules : ((i : ι) → Parser σ (Out i)) → (i : ι) → Parser σ (Out i))
    (i : ι) (s : σ) : Option (Out i × σ) :=
  rules (fun j r => if _h : size r < size s then fix Out rules j r else none) i s
termination_by size s

/-- A nonterminal is its rule, the others taken on smaller inputs. -/
theorem fix_eq {ι : Type} (Out : ι → Type)
    (rules : ((i : ι) → Parser σ (Out i)) → (i : ι) → Parser σ (Out i)) (i : ι) (s : σ) :
    fix Out rules i s = rules (fun j r => if size r < size s then fix Out rules j r else none) i s := by
  rw [fix]
  simp only [dite_eq_ite]

/-! ## Repetition -/

/-- Items up to where `stop` holds. -/
def many (stop : σ → Bool) (item : Parser σ α) (s : σ) : Option (List α × σ) :=
  if stop s then some ([], s)
  else
    match item s with
    | none => none
    | some (a, r) =>
      if _h : size r < size s then
        match many stop item r with
        | none => none
        | some (as, e) => some (a :: as, e)
      else none
termination_by size s

theorem many_stop {stop : σ → Bool} {item : Parser σ α} {s : σ} (h : stop s = true) :
    many stop item s = some ([], s) := by
  rw [many, if_pos h]

theorem many_item {stop : σ → Bool} {item : Parser σ α} {s r : σ} {a : α} (h : stop s = false)
    (hitem : item s = some (a, r)) (hlt : size r < size s) :
    many stop item s = (many stop item r).map fun x => (a :: x.1, x.2) := by
  rw [many, if_neg (by simp [h]), hitem]
  simp only [hlt, dite_true]
  cases many stop item r <;> rfl

theorem many_none {stop : σ → Bool} {item : Parser σ α} {s : σ} (h : stop s = false) (hitem : item s = none) :
    many stop item s = none := by
  rw [many, if_neg (by simp [h]), hitem]

/-- Repetition ends where it is told to. -/
theorem stop_of_many {stop : σ → Bool} {item : Parser σ α} {s e : σ} {as : List α}
    (h : many stop item s = some (as, e)) : stop e = true := by
  fun_induction many stop item s generalizing as with
  | case1 s hstop => cases h; exact hstop
  | case2 s _ hitem => exact absurd h nofun
  | case3 s _ a r hitem hlt hmore => exact absurd h nofun
  | case4 s _ a r hitem hlt bs e' hmore ih =>
      cases h
      exact ih hmore
  | case5 s _ a r hitem hlt => exact absurd h nofun

/-- Repetition only takes from its input. -/
theorem many_size_le {stop : σ → Bool} {item : Parser σ α} {s e : σ} {as : List α}
    (h : many stop item s = some (as, e)) : size e ≤ size s := by
  fun_induction many stop item s generalizing as with
  | case1 s hstop => cases h; exact Nat.le_refl _
  | case2 s _ hitem => exact absurd h nofun
  | case3 s _ a r hitem hlt hmore => exact absurd h nofun
  | case4 s _ a r hitem hlt bs e' hmore ih =>
      cases h
      exact Nat.le_trans (ih hmore) (Nat.le_of_lt hlt)
  | case5 s _ a r hitem hlt => exact absurd h nofun

/-- Items up to where `stop` holds, with a separator between any two and perhaps one after the last; whether there is
    one there is the second part of the result. -/
def separated (stop : σ → Bool) (separator : Parser σ Unit) (item : Parser σ α) (s : σ) :
    Option ((List α × Bool) × σ) :=
  if stop s then some (([], false), s)
  else
    match item s with
    | none => none
    | some (a, r) =>
      if stop r then some (([a], false), r)
      else
        match separator r with
        | none => none
        | some ((), next) =>
          if _h : size next < size s then
            match separated stop separator item next with
            | none => none
            | some (([], _), e) => some (([a], true), e)
            | some ((b :: bs, trailing), e) => some ((a :: b :: bs, trailing), e)
          else none
termination_by size s

theorem separated_stop {stop : σ → Bool} {separator : Parser σ Unit} {item : Parser σ α} {s : σ} (h : stop s = true) :
    separated stop separator item s = some (([], false), s) := by
  rw [separated, if_pos h]

theorem separated_last {stop : σ → Bool} {separator : Parser σ Unit} {item : Parser σ α} {s r : σ} {a : α}
    (h : stop s = false) (hitem : item s = some (a, r)) (hstop : stop r = true) :
    separated stop separator item s = some (([a], false), r) := by
  rw [separated, if_neg (by simp [h]), hitem]
  simp only [hstop, if_true]

theorem separated_again {stop : σ → Bool} {separator : Parser σ Unit} {item : Parser σ α} {s r next e : σ} {a b : α}
    {bs : List α} {trailing : Bool} (h : stop s = false) (hitem : item s = some (a, r)) (hstop : stop r = false)
    (hseparator : separator r = some ((), next)) (hlt : size next < size s)
    (hmore : separated stop separator item next = some ((b :: bs, trailing), e)) :
    separated stop separator item s = some ((a :: b :: bs, trailing), e) := by
  rw [separated, if_neg (by simp [h]), hitem]
  simp only [hstop, hseparator, hlt, dite_true, hmore]
  rfl

theorem separated_trailing {stop : σ → Bool} {separator : Parser σ Unit} {item : Parser σ α} {s r next e : σ} {a : α}
    {trailing : Bool} (h : stop s = false) (hitem : item s = some (a, r)) (hstop : stop r = false)
    (hseparator : separator r = some ((), next)) (hlt : size next < size s)
    (hmore : separated stop separator item next = some (([], trailing), e)) :
    separated stop separator item s = some (([a], true), e) := by
  rw [separated, if_neg (by simp [h]), hitem]
  simp only [hstop, hseparator, hlt, dite_true, hmore]
  rfl

/-- What follows an item of a chain. -/
inductive Link where
  /-- Nothing that belongs to the chain. -/
  | done
  /-- A last separator. -/
  | trailing
  /-- A separator and another item. -/
  | again
deriving DecidableEq

/-- One item or more; `link` decides after each whether another one follows. -/
def chained (link : α → Parser σ Link) (item : Parser σ α) (s : σ) : Option ((List α × Bool) × σ) :=
  match item s with
  | none => none
  | some (a, r) =>
    match link a r with
    | none => none
    | some (.done, e) => some (([a], false), e)
    | some (.trailing, e) => some (([a], true), e)
    | some (.again, next) =>
      if _h : size next < size s then
        match chained link item next with
        | none => none
        | some ((as, trailing), e) => some ((a :: as, trailing), e)
      else none
termination_by size s

theorem chained_done {link : α → Parser σ Link} {item : Parser σ α} {s r e : σ} {a : α} (hitem : item s = some (a, r))
    (hlink : link a r = some (.done, e)) : chained link item s = some (([a], false), e) := by
  rw [chained, hitem]
  simp only [hlink]

theorem chained_trailing {link : α → Parser σ Link} {item : Parser σ α} {s r e : σ} {a : α}
    (hitem : item s = some (a, r)) (hlink : link a r = some (.trailing, e)) :
    chained link item s = some (([a], true), e) := by
  rw [chained, hitem]
  simp only [hlink]

theorem chained_again {link : α → Parser σ Link} {item : Parser σ α} {s r next e : σ} {a : α} {as : List α}
    {trailing : Bool} (hitem : item s = some (a, r)) (hlink : link a r = some (.again, next))
    (hlt : size next < size s) (hmore : chained link item next = some ((as, trailing), e)) :
    chained link item s = some ((a :: as, trailing), e) := by
  rw [chained, hitem]
  simp only [hlink, hlt, dite_true, hmore]

/-! ## Characters -/

section Characters

/-- The next character, if it has the property. -/
def satisfy (p : Char → Bool) : Parser (List Char) Char
  | c :: r => if p c then some (c, r) else none
  | [] => none

/-- The next character. -/
def anyChar : Parser (List Char) Char := satisfy fun _ => true

/-- The given character. -/
def char (c : Char) : Parser (List Char) Unit
  | d :: r => if c = d then some ((), r) else none
  | [] => none

/-- The given text. -/
def text : List Char → Parser (List Char) Unit
  | [] => pure ()
  | c :: cs => do char c; text cs

/-- The longest front of characters with the property. -/
def takeWhile (p : Char → Bool) : Parser (List Char) (List Char) :=
  fun s => some (s.takeWhile p, s.dropWhile p)

/-- The longest front of characters with the property, which must not be empty. -/
def takeWhile1 (p : Char → Bool) : Parser (List Char) (List Char) := do
  let first ← satisfy p
  let more ← takeWhile p
  pure (first :: more)

/-- Whether the input starts with the text. -/
def startsWith (front : List Char) (s : List Char) : Bool := front.isPrefixOf s

theorem startsWith_iff {front s : List Char} : startsWith front s = true ↔ front <+: s := List.isPrefixOf_iff_prefix

@[simp] theorem startsWith_nil (s : List Char) : startsWith [] s = true := rfl

@[simp] theorem startsWith_cons_nil (c : Char) (cs : List Char) : startsWith (c :: cs) [] = false := rfl

@[simp] theorem startsWith_cons_cons (c d : Char) (cs r : List Char) :
    startsWith (c :: cs) (d :: r) = (c == d && startsWith cs r) := rfl

theorem char_apply (c : Char) (s : List Char) :
    char c s = if startsWith [c] s then some ((), s.drop 1) else none := by
  cases s with
  | nil => rfl
  | cons d r => by_cases h : c = d <;> simp [char, h]

theorem text_apply (front s : List Char) :
    text front s = if startsWith front s then some ((), s.drop front.length) else none := by
  induction front generalizing s with
  | nil => rfl
  | cons c cs ih =>
      cases s with
      | nil => rfl
      | cons d r =>
          show ((char c (d :: r)).bind fun x => text cs x.2) = _
          by_cases h : c = d
          · simp [char, h, ih]
          · simp [char, h]

theorem text_eq_some_iff {front s r : List Char} {a : Unit} : text front s = some (a, r) ↔ s = front ++ r := by
  rw [text_apply]
  constructor
  · intro h
    split at h
    · rename_i hfront
      obtain ⟨t, rfl⟩ := startsWith_iff.1 hfront
      cases h
      rw [List.drop_left]
    · cases h
  · rintro rfl
    rw [if_pos (startsWith_iff.2 (List.prefix_append _ _)), List.drop_left]

end Characters

end Parser

end QueryContract
