import QueryContract.Parser

/-!
# `Source.Token` — the tokens of Rust source

A source text is a sequence of tokens in which every bracketed part is one group. A punctuation character knows
whether another one follows it directly; that is what tells `>>` from `> >`.

* `Token`, `Delimiter`, `Tokens`, and the sequence operations;
* `Tokens.text` — a sequence written token by token;
* `atWord`, `atName`, `atSign`, … — what a sequence starts with;
* `word`, `name`, `sign`, `inside`, … — the parsers that take one of these off.
-/

namespace QueryContract.Source

/-! ## Tokens -/

/-- A token that is not a group. -/
inductive Token where
  /-- A keyword, an identifier or the low line; a raw identifier keeps its mark. -/
  | word (name : String)
  /-- A lifetime or label, without its quote. -/
  | lifetime (name : String)
  /-- A punctuation character; `joint` says that another one follows it directly. -/
  | punct (c : Char) (joint : Bool)
  /-- A literal as it is written. -/
  | literal (written : String)
deriving DecidableEq

/-- The kinds of brackets. -/
inductive Delimiter where
  | paren
  | bracket
  | brace
deriving DecidableEq

/-- A sequence of tokens and groups. -/
inductive Tokens where
  | nil
  | leaf (t : Token) (rest : Tokens)
  | group (d : Delimiter) (body rest : Tokens)
deriving DecidableEq, Inhabited

namespace Tokens

/-- The number of tokens, the two brackets of a group counted as one. -/
def size : Tokens → Nat
  | nil => 0
  | leaf _ rest => rest.size + 1
  | group _ body rest => body.size + rest.size + 1

instance : Measured Tokens := ⟨size⟩

/-- One sequence after the other. -/
def append : Tokens → Tokens → Tokens
  | nil, more => more
  | leaf t rest, more => leaf t (rest.append more)
  | group d body rest, more => group d body (rest.append more)

instance : Append Tokens := ⟨append⟩

@[simp] theorem nil_append (s : Tokens) : nil ++ s = s := rfl
@[simp] theorem leaf_append (t : Token) (r s : Tokens) : leaf t r ++ s = leaf t (r ++ s) := rfl
@[simp] theorem group_append (d : Delimiter) (b r s : Tokens) : group d b r ++ s = group d b (r ++ s) := rfl

@[simp] theorem append_nil (s : Tokens) : s ++ nil = s := by
  induction s with
  | nil => rfl
  | leaf t r ih => simp [ih]
  | group d b r _ ih => simp [ih]

theorem append_assoc (a b c : Tokens) : a ++ b ++ c = a ++ (b ++ c) := by
  induction a with
  | nil => rfl
  | leaf t r ih => simp [ih]
  | group d b r _ ih => simp [ih]

@[simp] theorem size_append (a b : Tokens) : (a ++ b).size = a.size + b.size := by
  induction a with
  | nil => simp [size]
  | leaf t r ih => simp [size, ih]; omega
  | group d b r _ ih => simp [size, ih]; omega

/-- Sequences one after the other. -/
def concat (parts : List Tokens) : Tokens := parts.foldr append nil

/-- The sequence without its first token or group. -/
def next : Tokens → Tokens
  | nil => nil
  | leaf _ rest => rest
  | group _ _ rest => rest

/-- Whether nothing is left. -/
def isEmpty : Tokens → Bool
  | nil => true
  | _ => false

/-- The number of tokens, a group counted as one. -/
def length : Tokens → Nat
  | nil => 0
  | leaf _ rest => rest.length + 1
  | group _ _ rest => rest.length + 1

/-- The first tokens, at most the given number of them. -/
def take : Nat → Tokens → Tokens
  | 0, _ => nil
  | _ + 1, nil => nil
  | n + 1, leaf t rest => leaf t (rest.take n)
  | n + 1, group d body rest => group d body (rest.take n)

/-- Whether the last token is a group in braces. -/
def endsInBrace : Tokens → Bool
  | nil => false
  | leaf _ rest => rest.endsInBrace
  | group d _ nil => d == .brace
  | group _ _ rest => rest.endsInBrace

/-! ## Building -/

/-- A keyword or identifier. -/
def ofWord (w : String) : Tokens := leaf (.word w) nil

/-- A lifetime. -/
def ofLifetime (l : String) : Tokens := leaf (.lifetime l) nil

/-- A literal. -/
def ofLiteral (written : String) : Tokens := leaf (.literal written) nil

/-- An operator: its characters, each but the last directly followed by the next. -/
def ofChars : List Char → Tokens
  | [] => nil
  | [c] => leaf (.punct c false) nil
  | c :: cs => leaf (.punct c true) (ofChars cs)

/-- An operator. -/
def ofSign (s : String) : Tokens := ofChars s.toList

/-- A group. -/
def enclosed (d : Delimiter) (body : Tokens) : Tokens := group d body nil

/-- Items with a separator between any two and, if asked for, after the last. -/
def separated (separator : Tokens) (trailing : Bool) : List Tokens → Tokens
  | [] => nil
  | [item] => if trailing then item ++ separator else item
  | item :: items => item ++ separator ++ separated separator trailing items

/-! ## Display -/

/-- The characters of a token. -/
def writeToken : Token → List Char
  | .word name => name.toList
  | .lifetime name => '\'' :: name.toList
  | .punct c _ => [c]
  | .literal written => written.toList

/-- The characters before and after the content of a group; braces keep a space on the inside. -/
def brackets : Delimiter → List Char × List Char
  | .paren => (['('], [')'])
  | .bracket => (['['], [']'])
  | .brace => (['\x7b', ' '], ['\x7d'])

/-- Whether a token is written directly before the next one. -/
def isJoint : Token → Bool
  | .punct _ joint => joint
  | _ => false

/-- The characters of a sequence, with a space before it if `spaced` and it is not empty, and a space between tokens
    except after a punctuation character that another one follows directly. -/
def write (spaced : Bool) : Tokens → List Char
  | nil => []
  | leaf t rest => (if spaced then [' '] else []) ++ writeToken t ++ rest.write (!isJoint t)
  | group d body rest =>
    (if spaced then [' '] else []) ++ (brackets d).1 ++ body.write false ++
      (if d = .brace ∧ body.isEmpty = false then [' '] else []) ++ (brackets d).2 ++ rest.write true

/-- A sequence written token by token. -/
def text (s : Tokens) : String := String.ofList (s.write false)

end Tokens

/-! ## What a sequence starts with -/

/-- The words that are no identifiers. -/
def reserved : List String :=
  ["_", "abstract", "as", "async", "await", "become", "box", "break", "const", "continue", "crate", "do", "dyn",
    "else", "enum", "extern", "false", "final", "fn", "for", "if", "impl", "in", "let", "loop", "macro", "match",
    "mod", "move", "mut", "override", "priv", "pub", "ref", "return", "Self", "self", "static", "struct", "super",
    "trait", "true", "try", "type", "typeof", "unsafe", "unsized", "use", "virtual", "where", "while", "yield"]

/-- Whether the next token is the given word. -/
def atWord (w : String) : Tokens → Bool
  | .leaf (.word name) _ => name == w
  | _ => false

/-- Whether the next token is one of the given words. -/
def atWords (ws : List String) (s : Tokens) : Bool := ws.any (atWord · s)

/-- Whether the next token is a keyword or an identifier. -/
def atAnyWord : Tokens → Bool
  | .leaf (.word _) _ => true
  | _ => false

/-- Whether the next token is an identifier. -/
def atName : Tokens → Bool
  | .leaf (.word name) _ => !reserved.contains name
  | _ => false

/-- Whether the next token is a lifetime. -/
def atLifetime : Tokens → Bool
  | .leaf (.lifetime _) _ => true
  | _ => false

/-- Whether the next token is a group in the given brackets. -/
def atGroup (d : Delimiter) : Tokens → Bool
  | .group d' _ _ => d == d'
  | _ => false

/-- Whether the next token is a group. -/
def atAnyGroup : Tokens → Bool
  | .group _ _ _ => true
  | _ => false

/-- Whether the next tokens are the given characters, each but the last directly followed by the next. -/
def atChars : List Char → Tokens → Bool
  | [c], .leaf (.punct d _) _ => c == d
  | c :: cs, .leaf (.punct d joint) rest => c == d && joint && atChars cs rest
  | _, _ => false

/-- Whether the next tokens make up the operator, whatever follows it. -/
def atSign (s : String) (input : Tokens) : Bool := atChars s.toList input

/-- Whether a literal is a number. -/
def isNumber (written : String) : Bool :=
  match written.toList with
  | c :: _ => c.isDigit
  | [] => false

/-- Whether the next tokens are a literal: a token of that kind, a truth value or a negative number. -/
def atLiteral : Tokens → Bool
  | .leaf (.literal _) _ => true
  | .leaf (.word name) _ => name == "true" || name == "false"
  | .leaf (.punct '-' _) (.leaf (.literal written) _) => isNumber written
  | _ => false

/-! ## Taking tokens -/

open QueryContract.Parser

/-- The next word, if it is the given one. -/
def word (w : String) : Parser Tokens Unit
  | .leaf (.word name) rest => if name = w then some ((), rest) else none
  | _ => none

/-- The next keyword or identifier. -/
def anyWord : Parser Tokens String
  | .leaf (.word name) rest => some (name, rest)
  | _ => none

/-- The next identifier. -/
def name : Parser Tokens String
  | .leaf (.word name) rest => if reserved.contains name then none else some (name, rest)
  | _ => none

/-- The next lifetime. -/
def lifetime : Parser Tokens String
  | .leaf (.lifetime name) rest => some (name, rest)
  | _ => none

/-- The given characters, each but the last directly followed by the next. -/
def chars : List Char → Parser Tokens Unit
  | [], s => some ((), s)
  | [c], .leaf (.punct d _) rest => if c = d then some ((), rest) else none
  | c :: cs, .leaf (.punct d joint) rest => if c = d ∧ joint = true then chars cs rest else none
  | _, _ => none

/-- A word is taken where it stands. -/
theorem would_word (w : String) (s : Tokens) : would (word w) s = atWord w s := by
  rcases s with _ | ⟨t, r⟩ | ⟨d, body, r⟩
  · rfl
  · cases t with
    | word n => by_cases hn : n = w <;> simp [would, word, atWord, hn]
    | _ => rfl
  · rfl

/-- An operator is taken where it stands. -/
theorem would_chars {cs : List Char} (hcs : cs ≠ []) (s : Tokens) : would (chars cs) s = atChars cs s := by
  induction cs generalizing s with
  | nil => exact absurd rfl hcs
  | cons c cs ih =>
    cases cs with
    | nil =>
      rcases s with _ | ⟨t, r⟩ | ⟨d, body, r⟩
      · rfl
      · cases t with
        | punct d joint => by_cases hd : c = d <;> simp [would, chars, atChars, hd]
        | _ => rfl
      · rfl
    | cons c' cs =>
      rcases s with _ | ⟨t, r⟩ | ⟨d, body, r⟩
      · rfl
      · cases t with
        | punct d joint =>
          have hrest : would (chars (c' :: cs)) r = atChars (c' :: cs) r := ih (List.cons_ne_nil _ _) r
          have hchars : chars (c :: c' :: cs) (.leaf (.punct d joint) r) =
              if c = d ∧ joint = true then chars (c' :: cs) r else none := rfl
          have hat : atChars (c :: c' :: cs) (.leaf (.punct d joint) r) =
              (c == d && joint && atChars (c' :: cs) r) := rfl
          rw [would, hchars, hat, ← hrest]
          by_cases hd : c = d ∧ joint = true
          · simp [hd.1, hd.2, would]
          · rw [if_neg hd]
            have hboth : (c == d && joint) = false := by simpa using hd
            rw [hboth]
            rfl
        | _ => rfl
      · rfl

/-- An operator. -/
def sign (s : String) : Parser Tokens Unit := chars s.toList

/-- The next literal, as it is written. -/
def literal : Parser Tokens Tokens
  | .leaf (.literal written) rest => some (.ofLiteral written, rest)
  | .leaf (.word name) rest => if name = "true" ∨ name = "false" then some (.ofWord name, rest) else none
  | .leaf (.punct '-' _) (.leaf (.literal written) rest) =>
    if isNumber written then some (.ofSign "-" ++ .ofLiteral written, rest) else none
  | _ => none

/-- The next group, if it is in the given brackets; its content has to be of the given form as a whole. -/
def inside {α : Type} (d : Delimiter) (content : Parser Tokens α) : Parser Tokens α
  | .group d' body rest =>
    if d = d' then
      match content body with
      | some (a, .nil) => some (a, rest)
      | _ => none
    else none
  | _ => none

theorem inside_eq {α : Type} {d d' : Delimiter} {content : Parser Tokens α} {body rest r : Tokens} {a : α} :
    inside d content (.group d' body rest) = some (a, r) ↔ d = d' ∧ content body = some (a, .nil) ∧ rest = r := by
  rw [inside]
  by_cases hd : d = d'
  · rw [if_pos hd]
    rcases content body with _ | ⟨b, _ | _ | _⟩ <;> simp [hd]
  · simp [hd]

/-- The next group, whatever it holds. -/
def anyGroup : Parser Tokens Tokens
  | .group d body rest => some (.enclosed d body, rest)
  | _ => none

/-- The tokens that have been taken since the given ones were left. -/
def since (start : Tokens) : Parser Tokens Tokens := fun s => some (start.take (start.length - s.length), s)

end QueryContract.Source
