import ChainQuery.Json.Form
import ChainQuery.Json.Printer
import Mathlib.Data.List.Nodup

/-!
# Forms filled in by what is printed

Whoever wants an answer writes an object, and a form is filled in from it. Nothing is lost on the
way: an object whose members stand in the slots of a form fills it in with these members when it
is printed (`ChainQuery.Json.fillIn_print`). In particular every text can be sent, whatever
characters are in it (`ChainQuery.Json.exists_text?_print`). The control characters are what this
depends on, since they must not stand for themselves in a string; each is written as an escape of
two characters or as a unit of sixteen bits, and read back as the character it was.
-/

namespace ChainQuery

namespace Json

open Text

/-! ### Strings -/

/-- **A text begins with some pieces of a string**, and what follows the quotation mark that closes
it is the rest. -/
def BeginsWithPieces (pieces : List Piece) (later s : Text) : Prop :=
  ∃ rest : Rest s, stringPieces? s = some (pieces, rest) ∧ rest.val = later

theorem beginsWithPieces_quote (s : Text) : BeginsWithPieces [] s ('"' :: s) :=
  ⟨.tail '"' s, by rw [stringPieces?, if_pos rfl], rfl⟩

theorem BeginsWithPieces.escape {pieces : List Piece} {later s : Text} {piece : Piece}
    {rest : Rest s} (h : BeginsWithPieces pieces later rest.val)
    (hpiece : escape? s = some (piece, rest)) :
    BeginsWithPieces (piece :: pieces) later ('\\' :: s) := by
  obtain ⟨end', hread, hlater⟩ := h
  refine ⟨(rest.of end').ofTail, ?_, hlater⟩
  rw [stringPieces?, if_neg (by decide), if_pos rfl, hpiece]
  simp only [hread]

theorem BeginsWithPieces.plain {pieces : List Piece} {later s : Text} {c : Char}
    (h : BeginsWithPieces pieces later s) (hquote : c ≠ '"') (hslash : c ≠ '\\')
    (hcontrol : ¬c.toNat < 0x20) : BeginsWithPieces (.char c :: pieces) later (c :: s) := by
  obtain ⟨rest, hread, hlater⟩ := h
  refine ⟨rest.ofTail, ?_, hlater⟩
  rw [stringPieces?, if_neg hquote, if_neg hslash, if_neg hcontrol, hread]

theorem number?_hexDigit : ∀ n < 0x20,
    Digits.number? 16 ['0', '0', hexDigit (n / 16), hexDigit (n % 16)] = some n := by
  decide

theorem escape?_unit {a b c d : Char} {n : Nat} (h : Digits.number? 16 [a, b, c, d] = some n)
    (s : Text) : escape? ('u' :: a :: b :: c :: d :: s) =
      some (.unit n, .drop 4 'u' (a :: b :: c :: d :: s)) := by
  rw [escape?, if_pos rfl, if_pos (by simp)]
  simp only [List.take_succ_cons, List.take_zero, h, Option.map_some]

/-- The three ways in which a character is printed. -/
theorem printChar_cases (c : Char) :
    (∃ d, d ≠ 'u' ∧ escaped? d = some c ∧ printChar c = ['\\', d]) ∨
      (c.toNat < 0x20 ∧ printChar c =
        ['\\', 'u', '0', '0', hexDigit (c.toNat / 16), hexDigit (c.toNat % 16)]) ∨
      (c ≠ '"' ∧ c ≠ '\\' ∧ ¬c.toNat < 0x20 ∧ printChar c = [c]) := by
  rw [printChar]
  split
  · next hc =>
    subst hc
    exact Or.inl ⟨'"', by decide, by decide, rfl⟩
  split
  · next hc =>
    subst hc
    exact Or.inl ⟨'\\', by decide, by decide, rfl⟩
  split
  · next hc =>
    subst hc
    exact Or.inl ⟨'n', by decide, by decide, rfl⟩
  split
  · next hc =>
    subst hc
    exact Or.inl ⟨'r', by decide, by decide, rfl⟩
  split
  · next hc =>
    subst hc
    exact Or.inl ⟨'t', by decide, by decide, rfl⟩
  split
  · next hcontrol => exact Or.inr (Or.inl ⟨hcontrol, rfl⟩)
  · next hquote hslash _ _ _ hcontrol => exact Or.inr (Or.inr ⟨hquote, hslash, hcontrol, rfl⟩)

/-- **A character that is printed is read as one piece**, which means that character. -/
theorem exists_piece_of_printChar {pieces : List Piece} {later s : Text}
    (h : BeginsWithPieces pieces later s) (c : Char) :
    ∃ piece, BeginsWithPieces (piece :: pieces) later (printChar c ++ s) ∧
      decode? (piece :: pieces) = (decode? pieces).map (c :: ·) := by
  rcases printChar_cases c with ⟨d, hd, hescaped, hprint⟩ | ⟨hcontrol, hprint⟩ |
    ⟨hquote, hslash, hcontrol, hprint⟩
  · rw [hprint]
    have hpiece : escape? (d :: s) = some (.char c, .tail d s) := by
      rw [escape?, if_neg hd, hescaped, Option.map_some]
    exact ⟨.char c, h.escape hpiece, rfl⟩
  · rw [hprint]
    have hpiece := escape?_unit (number?_hexDigit c.toNat hcontrol) s
    refine ⟨.unit c.toNat, BeginsWithPieces.escape h hpiece, ?_⟩
    -- a control character is no half of a pair
    have hhigh : isHighSurrogate c.toNat = false := by
      rw [isHighSurrogate, Bool.and_eq_false_iff, decide_eq_false_iff_not]
      omega
    have hlow : isLowSurrogate c.toNat = false := by
      rw [isLowSurrogate, Bool.and_eq_false_iff, decide_eq_false_iff_not]
      omega
    rw [decode?.eq_def]
    simp [hhigh, hlow]
  · rw [hprint]
    exact ⟨.char c, h.plain hquote hslash hcontrol, rfl⟩

/-- **A text that is printed is read back**, whatever characters are in it. -/
theorem exists_text?_print (s later : Text) :
    ∃ rest, text? (s.flatMap printChar ++ '"' :: later) = some (s, rest) ∧ rest.val = later := by
  have hpieces : ∃ pieces, BeginsWithPieces pieces later (s.flatMap printChar ++ '"' :: later) ∧
      decode? pieces = some s := by
    induction s with
    | nil => exact ⟨[], beginsWithPieces_quote later, rfl⟩
    | cons c s ih =>
      obtain ⟨pieces, hread, hdecode⟩ := ih
      obtain ⟨piece, hread', hdecode'⟩ := exists_piece_of_printChar hread c
      rw [List.flatMap_cons, List.append_assoc]
      exact ⟨piece :: pieces, hread', by rw [hdecode', hdecode, Option.map_some]⟩
  obtain ⟨pieces, ⟨rest, hread, hlater⟩, hdecode⟩ := hpieces
  refine ⟨rest, ?_, hlater⟩
  rw [text?, hread]
  simp [hdecode]

/-! ### Slots -/

/-- A value is of the kind that a slot holds. -/
def Slot.Holds (slot : Slot) (value : Json) : Prop :=
  match slot.kind, value with
  | .text, .string _ => True
  | .flag, .bool _ => True
  | _, _ => False

theorem word?_append (c : Char) (word later : Text) :
    word? (c :: word) c (word ++ later) =
      some ⟨later, by simp only [List.length_cons, List.length_append]; omega⟩ := by
  have hopening : dropOpening? (c :: word) (c :: (word ++ later)) = some later :=
    dropOpening?_append (c :: word) later
  simp only [word?, hopening]
  rw [dif_pos]

/-- **A slot reads what is printed of a value that it holds**, and no white space stands before
it. -/
theorem Slot.exists_read_print {slot : Slot} {value : Json} (h : slot.Holds value) (later : Text) :
    ∃ c s, print value ++ later = c :: s ∧ isSpace c = false ∧
      ∃ rest, slot.read c s = .ok (value, rest) ∧ rest.val = later := by
  obtain ⟨name, kind, optional⟩ := slot
  cases kind with
  | text =>
    cases value with
    | string s =>
      obtain ⟨rest, hread, hlater⟩ := exists_text?_print s later
      refine ⟨'"', s.flatMap printChar ++ '"' :: later, by simp [print, printString], by decide,
        rest.ofTail, ?_, hlater⟩
      simp only [Slot.read, if_true, hread]
    | _ => exact h.elim
  | flag =>
    cases value with
    | bool b =>
      cases b with
      | false =>
        refine ⟨'f', "alse".toList ++ later, rfl, by decide, ⟨later, by simp; omega⟩, ?_, rfl⟩
        have htrue : word? "true".toList 'f' ("alse".toList ++ later) = none := rfl
        have hfalse : word? "false".toList 'f' ("alse".toList ++ later) = some ⟨later, _⟩ :=
          word?_append 'f' "alse".toList later
        simp only [Slot.read, htrue, hfalse]
      | true =>
        refine ⟨'t', "rue".toList ++ later, rfl, by decide, ⟨later, by simp; omega⟩, ?_, rfl⟩
        have htrue : word? "true".toList 't' ("rue".toList ++ later) = some ⟨later, _⟩ :=
          word?_append 't' "rue".toList later
        simp only [Slot.read, htrue]
    | _ => exact h.elim

/-! ### Members -/

/-- **Members that stand in the slots of a form**, each in one of its own. -/
structure StandIn (form : List Slot) (members : Entries) : Prop where
  /-- Every member has a slot of its name, which holds a value of its kind. -/
  slot : ∀ m ∈ members, ∃ slot, (form.find? fun slot => slot.name == m.1) = some slot ∧
    slot.Holds m.2
  /-- No two members have the same name. -/
  nodup : (members.map Prod.fst).Nodup

theorem value?_eq_none {entries : Entries} {name : Text} (h : name ∉ entries.map Prod.fst) :
    entries.value? name = none := by
  rw [Entries.value?, Option.map_eq_none_iff, List.find?_eq_none]
  intro entry hentry hname
  exact h (List.mem_map.mpr ⟨entry, hentry, beq_iff_eq.mp hname⟩)

/-- A member behind its name is read into its slot. -/
theorem readMember_print {form : List Slot} {entries : Entries} {slot : Slot} {name : Text}
    {value : Json} (hslot : (form.find? fun slot => slot.name == name) = some slot)
    (hholds : slot.Holds value) (hnew : name ∉ entries.map Prod.fst) (later : Text) :
    readMember form entries name (':' :: (print value ++ later)) =
      .ok (entries ++ [(name, value)], later) := by
  obtain ⟨c, s, hprint, hc, rest, hread, rfl⟩ := slot.exists_read_print hholds later
  have hcolon : skipSpace (':' :: (print value ++ rest.val)) = ':' :: (print value ++ rest.val) :=
    rfl
  have hvalue : skipSpace (print value ++ rest.val) = c :: s := by
    rw [hprint, skipSpace, List.dropWhile_cons_of_neg (by simp [hc])]
  rw [readMember, hslot]
  simp only [value?_eq_none hnew, Option.isSome_none, Bool.false_eq_true, if_false, hcolon, hvalue,
    hread]

/-- One member is read, and then those that follow it. -/
theorem readMembers_step {form : List Slot} {entries entries' : Entries} {first : Bool} {c : Char}
    {s t u name later : Text} {rest : Rest u} (hs : skipSpace s = c :: t) (hclose : c ≠ '\x7d')
    (hcomma : first = true ∨ c = ',') (hquote : (if first then c :: t else skipSpace t) = '"' :: u)
    (hname : text? u = some (name, rest))
    (hmember : readMember form entries name rest.val = .ok (entries', later))
    (hlength : later.length < s.length) :
    readMembers form entries first s = readMembers form entries' false later := by
  rw [readMembers]
  split
  · next hnil =>
    rw [hnil] at hs
    cases hs
  · next c' t' hcons =>
    obtain ⟨rfl, rfl⟩ := List.cons.inj (hcons.symm.trans hs)
    rw [if_neg hclose, if_pos hcomma]
    split
    · next u' hu =>
      obtain ⟨-, rfl⟩ := List.cons.inj (hu.symm.trans hquote)
      simp only [hname, hmember, if_pos hlength]
    · next hnone => exact absurd hquote (hnone u)

theorem readMembers_close (form : List Slot) (entries : Entries) (first : Bool) (s : Text) :
    readMembers form entries first ('\x7d' :: s) = .ok entries := by
  rw [readMembers]
  split
  · next hnil => cases hnil
  · next c' t' hcons =>
    obtain ⟨rfl, rfl⟩ := List.cons.inj hcons
    rw [if_pos rfl]

/-- A member as it is printed. -/
def printMember (m : Text × Json) : Text := printString m.1 ++ ':' :: print m.2

theorem printMembers_cons (m : Text × Json) (rest : Entries) :
    printMembers (m :: rest) = printMember m ++ rest.flatMap fun m => ',' :: printMember m := by
  induction rest generalizing m with
  | nil => simp [printMembers, printMember]
  | cons n rest ih =>
    rw [printMembers, ih n]
    · simp [printMember]
    · simp

/-- A member that is printed is read into its slot, with a comma before it unless it is the
first. -/
theorem readMembers_printMember {form : List Slot} {entries : Entries} {slot : Slot}
    {m : Text × Json} (hslot : (form.find? fun slot => slot.name == m.1) = some slot)
    (hholds : slot.Holds m.2) (hnew : m.1 ∉ entries.map Prod.fst) (first : Bool) (later : Text) :
    readMembers form entries first ((if first then [] else [',']) ++ (printMember m ++ later)) =
      readMembers form (entries ++ [m]) false later := by
  have hprint : printMember m ++ later =
      '"' :: (m.1.flatMap printChar ++ '"' :: ':' :: (print m.2 ++ later)) := by
    simp [printMember, printString]
  obtain ⟨rest, hname, hrest⟩ := exists_text?_print m.1 (':' :: (print m.2 ++ later))
  have hmember : readMember form entries m.1 rest.val = .ok (entries ++ [m], later) := by
    rw [hrest]
    exact readMember_print hslot hholds hnew later
  rw [hprint]
  cases first with
  | true =>
    refine readMembers_step rfl (by decide) (Or.inl rfl) rfl hname hmember ?_
    simp; omega
  | false =>
    refine readMembers_step rfl (by decide) (Or.inr rfl) rfl hname hmember ?_
    simp; omega

/-- The members that follow another are read one after the other. -/
theorem readMembers_following {form : List Slot} {entries members : Entries}
    (h : StandIn form (entries ++ members)) (later : Text) :
    readMembers form entries false
      ((members.flatMap fun m => ',' :: printMember m) ++ '\x7d' :: later) =
        .ok (entries ++ members) := by
  induction members generalizing entries with
  | nil => simpa using readMembers_close form entries false later
  | cons m rest ih =>
    obtain ⟨slot, hslot, hholds⟩ := h.slot m (by simp)
    have hnew : m.1 ∉ entries.map Prod.fst := by
      have hnodup := h.nodup
      rw [List.map_append, List.map_cons, List.nodup_middle, List.nodup_cons] at hnodup
      exact fun hmem => hnodup.1 (List.mem_append_left _ hmem)
    have hstep := readMembers_printMember hslot hholds hnew false
      ((rest.flatMap fun m => ',' :: printMember m) ++ '\x7d' :: later)
    rw [List.flatMap_cons, List.append_assoc]
    refine hstep.trans ?_
    rw [ih (by simpa using h)]
    simp

/-! ### Forms -/

/-- **An object that is printed fills a form in with its members**, if these stand in slots of the
form and leave none open that must be filled in. -/
theorem fillIn_print {form : List Slot} {members : Entries} (h : StandIn form members)
    (hfilled : isFilledIn form members = true) :
    fillIn form (print (.object members)) = .ok members := by
  have hread : readMembers form [] true (printMembers members ++ ['\x7d']) = .ok members := by
    cases members with
    | nil => exact readMembers_close form [] true []
    | cons m rest =>
      obtain ⟨slot, hslot, hholds⟩ := h.slot m List.mem_cons_self
      have hfollowing : readMembers form [m] false
          ((rest.flatMap fun m => ',' :: printMember m) ++ ['\x7d']) = .ok (m :: rest) :=
        readMembers_following h []
      rw [printMembers_cons, List.append_assoc]
      exact (readMembers_printMember hslot hholds (by simp) true _).trans hfollowing
  have hbrace : skipSpace ('\x7b' :: (printMembers members ++ ['\x7d'])) =
      '\x7b' :: (printMembers members ++ ['\x7d']) := rfl
  rw [print, fillIn, List.cons_append, hbrace]
  simp only [if_true, hread, hfilled]

end Json

end ChainQuery
