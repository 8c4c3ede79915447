import QueryContract.Proofs.FirstAccepted
import QueryContract.Proofs.Spelling

/-!
# `Proofs.Overloads` — keys tell overloads apart

A key is a text: the name of a method with its displayed parameter types. The commas in it stand between parameters and
between type arguments alike, so it has to be read from the left, with the brackets kept in mind. Where the names in a
type are free of the delimiters, a displayed type ends where it does whatever stands behind it, and no other type is
displayed in the same way.

* `isPlain`, `WellFormed`    — the names and the types in question;
* `Separable`                — where a displayed type ends and what it stands for (`WellFormed.separable`);
* `types_inj`                — the same for the types of parameters;
* `overloads_told_apart`     — the main statement: equal keys, equal displays and shared entries.
-/

namespace QueryContract

open Text

namespace DeclaredType

/-! ## Well-formed types -/

/-- The characters with which a displayed type is put together. -/
def delimiters : List Char := ['<', '>', '[', ']', '(', ')', ',', ':']

/-- A name that can be told from what stands around it: it is not empty, and has neither delimiters nor blanks in it. -/
def isPlain (n : String) : Bool := !n.toList.isEmpty && n.toList.all fun c => !delimiters.contains c && !isBlank c

/-- Arrays of one element type, the unit type, and paths of plain names with any number of arguments. -/
inductive WellFormed : DeclaredType → Prop where
  | array {element : DeclaredType} (wellFormed : WellFormed element) : WellFormed (.array element)
  | unit : WellFormed .unit
  | path {names : List String} {args : List DeclaredType} (nonempty : names ≠ [])
      (plain : ∀ n ∈ names, isPlain n = true) (wellFormed : ∀ a ∈ args, WellFormed a) : WellFormed (.mk names args)

theorem notMem_delimiters_of_isPlain {n : String} (h : isPlain n = true) : ∀ c ∈ n.toList, c ∉ delimiters := by
  intro c hc
  simp only [isPlain, Bool.and_eq_true, List.all_eq_true] at h
  simpa using (h.2 c hc).1

theorem exists_cons_of_isPlain {n : String} (h : isPlain n = true) : ∃ c r, n.toList = c :: r ∧ c ∉ delimiters := by
  cases hn : n.toList with
  | nil => simp [isPlain, hn] at h
  | cons c r => exact ⟨c, r, rfl, notMem_delimiters_of_isPlain h c (by simp [hn])⟩

section

variable {names names' : List String} {args args' : List DeclaredType} {s s' : List Char}

theorem write_plain (hne : names ≠ []) (hplain : ∀ n ∈ names, isPlain n = true) :
    (mk names args).write = join (names.map String.toList) ++ writeArgs args := by
  refine write_of_ne_array fun harray => ?_
  have hlast := hplain _ (simpleNameOf_mem hne)
  rw [harray] at hlast
  exact absurd hlast (by decide)

/-- A displayed path starts with none of the delimiters. -/
theorem exists_join_cons_plain (hne : names ≠ []) (hplain : ∀ n ∈ names, isPlain n = true) :
    ∃ c r, join (names.map String.toList) = c :: r ∧ c ∉ delimiters := by
  cases names with
  | nil => exact absurd rfl hne
  | cons n ns =>
      obtain ⟨c, r, hn, hc⟩ := exists_cons_of_isPlain (hplain n List.mem_cons_self)
      cases ns with
      | nil => exact ⟨c, r, by simp [join, hn], hc⟩
      | cons m ms => exact ⟨c, _, by rw [List.map_cons, join_cons (by simp), hn, List.cons_append], hc⟩

/-- **A displayed path is known from what follows it,** if that starts with a delimiter other than a colon. -/
theorem join_append_inj (hne : names ≠ []) (hplain : ∀ n ∈ names, isPlain n = true) (hne' : names' ≠ [])
    (hplain' : ∀ n ∈ names', isPlain n = true) (hs : ∀ c ∈ s.head?, c ∈ delimiters ∧ c ≠ ':')
    (hs' : ∀ c ∈ s'.head?, c ∈ delimiters ∧ c ≠ ':')
    (h : join (names.map String.toList) ++ s = join (names'.map String.toList) ++ s') : names = names' ∧ s = s' := by
  have hrun : ∀ {ns : List String}, (∀ n ∈ ns, isPlain n = true) →
      ∀ c ∈ join (ns.map String.toList), c = ':' ∨ c ∉ delimiters := by
    intro ns hns c hc
    rcases mem_join hc with hcolon | ⟨w, hw, hc⟩
    · exact .inl hcolon
    · obtain ⟨n, hn, rfl⟩ := List.mem_map.1 hw
      exact .inr (notMem_delimiters_of_isPlain (hns n hn) c hc)
  have hstop : ∀ {r : List Char}, (∀ c ∈ r.head?, c ∈ delimiters ∧ c ≠ ':') →
      ∀ c ∈ r.head?, ¬(c = ':' ∨ c ∉ delimiters) := by
    rintro r hr c hc (hcolon | hnot)
    · exact (hr c hc).2 hcolon
    · exact hnot (hr c hc).1
  have hsegments : ∀ {ns : List String}, ns ≠ [] → (∀ n ∈ ns, isPlain n = true) →
      segments (join (ns.map String.toList)) = ns.map String.toList := by
    intro ns hns hall
    refine segments_join (by simpa using hns) fun w hw hcolon => ?_
    obtain ⟨n, hn, rfl⟩ := List.mem_map.1 hw
    exact notMem_delimiters_of_isPlain (hall n hn) ':' hcolon (by decide)
  obtain ⟨hjoin, hrest⟩ := append_inj_of_stop (hrun hplain) (hrun hplain') (hstop hs) (hstop hs') h
  refine ⟨?_, hrest⟩
  have hmap : names.map String.toList = names'.map String.toList := by
    rw [← hsegments hne hplain, ← hsegments hne' hplain', hjoin]
  exact (List.map_inj_right fun _ _ => String.toList_inj.1).1 hmap

/-! ## Where a displayed type ends -/

/-- What may stand behind a displayed type: nothing, a comma or a closing bracket. -/
def Closes (s : List Char) : Prop := ∀ c ∈ s.head?, c ∈ [',', '>', ']', ')']

theorem closes_cons {c : Char} (h : c ∈ [',', '>', ']', ')']) : Closes (c :: s) := by
  intro d hd
  obtain rfl : c = d := by simpa using hd
  exact h

/-- Wherever the displayed type stands, it ends at the same place and is the display of no other type. -/
def Separable (t : DeclaredType) : Prop :=
  ∀ ⦃u⦄, WellFormed u → ∀ ⦃s s'⦄, Closes s → Closes s' → t.write ++ s = u.write ++ s' → t = u ∧ s = s'

theorem closes_writeMore {c : Char} (hc : c ∈ ['>', ')']) (more : List DeclaredType) :
    Closes (writeMore more ++ c :: s) := by
  have hall : ∀ d ∈ ['>', ')'], d ∈ [',', '>', ']', ')'] := by decide
  cases more with
  | nil => exact closes_cons (hall c hc)
  | cons a more => exact closes_cons (by decide)

/-- Further types are known from the bracket that closes them. -/
theorem writeMore_inj {c : Char} (hc : c ∈ ['>', ')']) (hargs : ∀ a ∈ args, Separable a)
    (hargs' : ∀ a ∈ args', WellFormed a) (h : writeMore args ++ c :: s = writeMore args' ++ c :: s') :
    args = args' ∧ s = s' := by
  have hcomma : ∀ d ∈ ['>', ')'], d ≠ ',' := by decide
  induction args generalizing args' with
  | nil =>
      cases args' with
      | nil => exact ⟨rfl, (List.cons.inj h).2⟩
      | cons b bs => exact absurd (List.cons.inj h).1 (hcomma c hc)
  | cons a as ih =>
      cases args' with
      | nil => exact absurd (List.cons.inj h).1.symm (hcomma c hc)
      | cons b bs =>
          have hchars : a.write ++ (writeMore as ++ c :: s) = b.write ++ (writeMore bs ++ c :: s') := by
            simpa [writeMore] using h
          obtain ⟨rfl, hrest⟩ := hargs a List.mem_cons_self (hargs' b List.mem_cons_self) (closes_writeMore hc as)
            (closes_writeMore hc bs) hchars
          obtain ⟨rfl, hend⟩ := ih (fun x hx => hargs x (List.mem_cons_of_mem _ hx))
            (fun x hx => hargs' x (List.mem_cons_of_mem _ hx)) hrest
          exact ⟨rfl, hend⟩

/-- So are all types of a list, the first one included. -/
theorem write_writeMore_inj {c : Char} (hc : c ∈ ['>', ')']) {a b : DeclaredType}
    (hargs : ∀ x ∈ a :: args, Separable x) (hargs' : ∀ x ∈ b :: args', WellFormed x)
    (h : a.write ++ (writeMore args ++ c :: s) = b.write ++ (writeMore args' ++ c :: s')) :
    a :: args = b :: args' ∧ s = s' := by
  obtain ⟨rfl, hrest⟩ := hargs a List.mem_cons_self (hargs' b List.mem_cons_self) (closes_writeMore hc args)
    (closes_writeMore hc args') h
  obtain ⟨rfl, hend⟩ := writeMore_inj hc (fun x hx => hargs x (List.mem_cons_of_mem _ hx))
    (fun x hx => hargs' x (List.mem_cons_of_mem _ hx)) hrest
  exact ⟨rfl, hend⟩

/-- Arguments in angle brackets are known from what closes the type. -/
theorem writeArgs_inj (hargs : ∀ a ∈ args, Separable a) (hargs' : ∀ a ∈ args', WellFormed a) (hs : Closes s)
    (hs' : Closes s') (h : writeArgs args ++ s = writeArgs args' ++ s') : args = args' ∧ s = s' := by
  have hopen : ∀ {r : List Char} {d : Char}, Closes r → r.head? = some d → d ≠ '<' := by
    intro r d hr hd
    have hall : ∀ c ∈ [',', '>', ']', ')'], c ≠ '<' := by decide
    exact hall d (hr d hd)
  cases args with
  | nil =>
      cases args' with
      | nil => exact ⟨rfl, h⟩
      | cons b bs =>
          have hhead : s.head? = some '<' := congrArg List.head? h
          exact absurd rfl (hopen hs hhead)
  | cons a as =>
      cases args' with
      | nil =>
          have hhead : s'.head? = some '<' := (congrArg List.head? h).symm
          exact absurd rfl (hopen hs' hhead)
      | cons b bs =>
          have hchars : a.write ++ (writeMore as ++ '>' :: s) = b.write ++ (writeMore bs ++ '>' :: s') := by
            simpa [writeArgs] using h
          exact write_writeMore_inj (by decide) hargs hargs' hchars

/-- What stands behind the path of a type is no part of the path. -/
theorem head?_writeArgs (hs : Closes s) (args : List DeclaredType) :
    ∀ c ∈ (writeArgs args ++ s).head?, c ∈ delimiters ∧ c ≠ ':' := by
  cases args with
  | nil =>
      have hall : ∀ d ∈ [',', '>', ']', ')'], d ∈ delimiters ∧ d ≠ ':' := by decide
      exact fun c hc => hall c (hs c hc)
  | cons a as =>
      intro c hc
      obtain rfl : '<' = c := by simpa [writeArgs] using hc
      decide

/-- A displayed type starts with what tells its form: arrays and the unit type with their brackets, paths with neither. -/
theorem head_ne_of_path (hne : names ≠ []) (hplain : ∀ n ∈ names, isPlain n = true) {c : Char} (hc : c ∈ delimiters)
    (r : List Char) : (mk names args).write ++ s ≠ c :: r := by
  obtain ⟨d, r', hjoin, hd⟩ := exists_join_cons_plain hne hplain
  rw [write_plain hne hplain, hjoin]
  intro h
  exact hd ((List.cons.inj h).1 ▸ hc)

end

/-- **Well-formed types are separable.** -/
theorem WellFormed.separable {t : DeclaredType} (ht : t.WellFormed) : Separable t := by
  induction ht with
  | @array element _ ih =>
      intro u hu s s' hs hs' h
      rw [write_array, List.append_assoc, List.cons_append] at h
      cases hu with
      | @array element' wellFormed =>
          rw [write_array, List.append_assoc, List.cons_append] at h
          obtain ⟨rfl, hend⟩ := ih wellFormed (closes_cons (by decide)) (closes_cons (by decide)) (List.cons.inj h).2
          exact ⟨rfl, (List.cons.inj hend).2⟩
      | unit => exact absurd (List.cons.inj h).1 (by decide)
      | path nonempty plain _ => exact absurd h.symm (head_ne_of_path nonempty plain (by decide) _)
  | unit =>
      intro u hu s s' hs hs' h
      cases hu with
      | array _ => exact absurd (List.cons.inj h).1 (by decide)
      | unit => exact ⟨rfl, List.append_cancel_left h⟩
      | path nonempty plain _ => exact absurd h.symm (head_ne_of_path nonempty plain (by decide) _)
  | @path names args hne hplain _ ih =>
      intro u hu s s' hs hs' h
      cases hu with
      | array _ => exact absurd h (head_ne_of_path hne hplain (by decide) _)
      | unit => exact absurd h (head_ne_of_path hne hplain (by decide) _)
      | @path names' args' hne' hplain' wellFormed' =>
          rw [write_plain hne hplain, write_plain hne' hplain', List.append_assoc, List.append_assoc] at h
          obtain ⟨rfl, hrest⟩ := join_append_inj hne hplain hne' hplain' (head?_writeArgs hs args)
            (head?_writeArgs hs' args') h
          obtain ⟨rfl, hend⟩ := writeArgs_inj ih wellFormed' hs hs' hrest
          exact ⟨rfl, hend⟩

/-- So no two well-formed types are displayed in the same way. -/
theorem WellFormed.write_inj {t u : DeclaredType} (ht : t.WellFormed) (hu : u.WellFormed) (h : t.write = u.write) :
    t = u := by
  have hend : Closes [] := nofun
  exact (ht.separable hu hend hend (by rw [h])).1

/-- A displayed type does not start with a closing bracket. -/
theorem WellFormed.head_ne {t : DeclaredType} (ht : t.WellFormed) (s r : List Char) : t.write ++ s ≠ ')' :: r := by
  cases ht with
  | array _ => exact fun h => absurd (List.cons.inj h).1 (by decide)
  | unit => exact fun h => absurd (List.cons.inj h).1 (by decide)
  | path nonempty plain _ => exact head_ne_of_path nonempty plain (by decide) r

end DeclaredType

namespace Method

open DeclaredType

/-! ## Keys -/

/-- The types of the parameters, in order. -/
def types (m : Method) : List DeclaredType := m.parameters.map (·.type)

/-- The name is not cut short by a parenthesis, and the parameter types are well formed. -/
structure WellFormed (m : Method) : Prop where
  name : '(' ∉ m.name.toList
  types : ∀ t ∈ m.types, t.WellFormed

theorem commaSeparated_write (t : DeclaredType) (ts : List DeclaredType) :
    commaSeparated ((t :: ts).map DeclaredType.write) = t.write ++ writeMore ts := by
  induction ts generalizing t with
  | nil => simp [commaSeparated, writeMore]
  | cons u us ih =>
      have hcons : commaSeparated ((t :: u :: us).map DeclaredType.write) =
          t.write ++ ',' :: ' ' :: commaSeparated ((u :: us).map DeclaredType.write) := rfl
      rw [hcons, ih u, writeMore]
      simp

/-- The types of parameters are known from the parenthesis that closes them. -/
theorem types_inj {ts us : List DeclaredType} (hts : ∀ t ∈ ts, t.WellFormed) (hus : ∀ u ∈ us, u.WellFormed)
    (h : commaSeparated (ts.map DeclaredType.write) ++ [')'] = commaSeparated (us.map DeclaredType.write) ++ [')']) :
    ts = us := by
  cases ts with
  | nil =>
      cases us with
      | nil => rfl
      | cons u us =>
          rw [commaSeparated_write, List.append_assoc] at h
          exact absurd h.symm ((hus u List.mem_cons_self).head_ne _ _)
  | cons t ts =>
      cases us with
      | nil =>
          rw [commaSeparated_write, List.append_assoc] at h
          exact absurd h ((hts t List.mem_cons_self).head_ne _ _)
      | cons u us =>
          rw [commaSeparated_write, commaSeparated_write, List.append_assoc, List.append_assoc] at h
          exact (write_writeMore_inj (by decide) (fun x hx => (hts x hx).separable) hus h).1

/-- The key depends on the name and the parameter types alone. -/
theorem keyChars_eq (m : Method) :
    m.keyChars = m.name.toList ++ '(' :: (commaSeparated (m.types.map DeclaredType.write) ++ [')']) := by
  rw [keyChars, types, List.map_map, List.append_assoc]
  rfl

/-- **Methods have one key exactly if they have one name and the same parameter types.** -/
theorem key_eq_iff {m n : Method} (hm : m.WellFormed) (hn : n.WellFormed) :
    m.key = n.key ↔ m.name = n.name ∧ m.types = n.types := by
  constructor
  · intro h
    have hchars : m.keyChars = n.keyChars := String.ofList_inj.1 h
    rw [keyChars_eq, keyChars_eq] at hchars
    -- the first parenthesis of the key ends the name
    obtain ⟨hname, hrest⟩ := append_inj_of_stop (p := (· ≠ '(')) (fun c hc heq => hm.name (heq ▸ hc))
      (fun c hc heq => hn.name (heq ▸ hc)) (by simp) (by simp) hchars
    exact ⟨String.toList_inj.1 hname, types_inj hm.types hn.types (List.cons.inj hrest).2⟩
  · rintro ⟨hname, htypes⟩
    rw [key, key, keyChars_eq, keyChars_eq, hname, htypes]

end Method

/-! ## Tables -/

namespace MethodTable

variable {a : Analyzer} {repository : Repository} {trace : Trace} {ms : List Method} {m : Method} {e : Entry}

/-- The entry that a call is answered with describes this method, or an earlier one with its key. -/
theorem answer_describes (h : answer (run a repository trace ms) m = .ok e) :
    e.description.method = m ∨ e.description.method ∈ ms ∧ e.description.method.key = m.key := by
  have hanswered := answered_describe a repository trace ms m
  have hfst : ((run a repository trace ms).1.describe m (run a repository trace ms).2).1 = .ok e := h
  generalize (run a repository trace ms).1.describe m (run a repository trace ms).2 = out at hanswered hfst
  cases hanswered with
  | @again i e' _ hmade hkey =>
      obtain rfl : e' = e := Except.ok.inj hfst
      exact .inr ⟨List.mem_of_getElem? hmade.method, hmade.key.symm.trans hkey⟩
  | first _ hd =>
      obtain rfl := Except.ok.inj hfst
      exact .inl (Analyzer.method_of_describe hd)
  | never _ _ => cases hfst

end MethodTable

namespace Method

open MethodTable

/-- **Keys tell overloads apart.** Methods with well-formed parameter types have one key exactly if they have one name
    and the same parameter types, paths and nested arguments included. This comes from the display of types: no two
    well-formed ones have the same. So a table, whatever was called before, answers the call of a method with an entry
    of the same name and the same parameter types, and never with that of another overload. -/
theorem overloads_told_apart {m n : Method} (hm : m.WellFormed) (hn : n.WellFormed) :
    (m.key = n.key ↔ m.name = n.name ∧ m.types = n.types) ∧
    (∀ t u : DeclaredType, t.WellFormed → u.WellFormed → (t.text = u.text ↔ t = u)) ∧
    ∀ (a : Analyzer) (repository : Repository) (trace : Trace) (ms : List Method) (e : Entry),
      (∀ x ∈ ms, x.WellFormed) → answer (run a repository trace ms) m = .ok e →
        e.description.method.name = m.name ∧ e.description.method.types = m.types := by
  refine ⟨key_eq_iff hm hn, fun t u ht hu => ⟨fun h => ht.write_inj hu (String.ofList_inj.1 h), congrArg _⟩, ?_⟩
  intro a repository trace ms e hms hanswer
  rcases answer_describes hanswer with hself | ⟨hmem, hkey⟩
  · rw [hself]
    exact ⟨rfl, rfl⟩
  · exact (key_eq_iff (hms _ hmem) hm).1 hkey

/-- A search by a map of two types, -/
def findByMap : Method :=
  { name := "find", parameters := [⟨some "by", .mk ["std", "Map"] [.mk ["A"] [], .array (.mk ["B"] [])]⟩] }

/-- and one by a map of the first and the second on its own. -/
def findByMapAndArray : Method :=
  { name := "find", parameters := [⟨some "by", .mk ["std", "Map"] [.mk ["A"] []]⟩, ⟨none, .array (.mk ["B"] [])⟩] }

/-- Their keys differ, although they consist of the same names in the same order. -/
theorem overloads_told_apart_find :
    findByMap.WellFormed ∧ findByMapAndArray.WellFormed ∧ findByMap.key ≠ findByMapAndArray.key := by
  have hraw : ∀ n ∈ ["A", "B"], DeclaredType.WellFormed (.mk [n] []) := by
    intro n hn
    have hplain : ∀ x ∈ ["A", "B"], DeclaredType.isPlain x = true := by decide
    refine .path (by simp) (fun x hx => ?_) nofun
    obtain rfl : x = n := by simpa using hx
    exact hplain x hn
  have hmap : ∀ args, (∀ t ∈ args, DeclaredType.WellFormed t) → DeclaredType.WellFormed (.mk ["std", "Map"] args) :=
    fun _ => .path (by simp) (by decide)
  have hone : findByMap.WellFormed := by
    refine ⟨by decide, fun t ht => ?_⟩
    obtain rfl : t = .mk ["std", "Map"] [.mk ["A"] [], .array (.mk ["B"] [])] := by simpa [types, findByMap] using ht
    refine hmap _ fun u hu => ?_
    obtain rfl | rfl : u = .mk ["A"] [] ∨ u = .array (.mk ["B"] []) := by simpa using hu
    · exact hraw "A" (by simp)
    · exact .array (hraw "B" (by simp))
  have htwo : findByMapAndArray.WellFormed := by
    refine ⟨by decide, fun t ht => ?_⟩
    obtain rfl | rfl : t = .mk ["std", "Map"] [.mk ["A"] []] ∨ t = .array (.mk ["B"] []) := by
      simpa [types, findByMapAndArray] using ht
    · refine hmap _ fun u hu => ?_
      obtain rfl : u = .mk ["A"] [] := by simpa using hu
      exact hraw "A" (by simp)
    · exact .array (hraw "B" (by simp))
  refine ⟨hone, htwo, fun hkey => ?_⟩
  have htypes := ((overloads_told_apart hone htwo).1.1 hkey).2
  exact absurd htypes (by decide)

end Method

end QueryContract
