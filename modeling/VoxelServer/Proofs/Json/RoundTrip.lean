import Mathlib.Data.List.Basic
import VoxelServer.Json.Reader

/-!
# JSON that is read back

The shortest text of a value says what the value says, whatever is in its strings:

* `Json.readString_escaped`: a string is read from its characters with their escapes;
* `Json.readNumber_integer`: a whole number is read up to where its digits end;
* `Json.Textual`: values whose strings are text and whose numbers are whole;
* `Json.Textual.readBack`: these are read from their texts, by induction on how they are made;
* `Json.parse?_compact`: and from nothing but their texts.
-/

namespace VoxelServer.Json

/-! ## Strings -/

/-- The text of some characters between quotes. -/
def escaped (chars : List Char) : List Char := chars.flatMap fun c => (escapeChar c).toList

theorem toList_quote (content : String) :
    (quote content).toList = '"' :: (escaped content.toList ++ ['"']) := by
  simp [quote, escaped, String.toList_append, String.toList_join, List.flatMap_map]

/-- No character is half a pair of surrogates. -/
theorem not_surrogate (c : Char) : isHigh c.toNat = false ∧ isLow c.toNat = false := by
  have valid : c.toNat < 55296 ∨ 57343 < c.toNat ∧ c.toNat < 1114112 := c.valid
  simp only [isHigh, isLow, Bool.and_eq_false_iff, decide_eq_false_iff_not]
  omega

theorem joinUnits?_toNat (chars : List Char) : joinUnits? (chars.map (·.toNat)) = some chars := by
  induction chars with
  | nil => rfl
  | cons c chars ih =>
    obtain ⟨high, low⟩ := not_surrogate c
    cases chars with
    | nil => simp [joinUnits?, high, low]
    | cons d chars =>
      rw [List.map_cons, List.map_cons, joinUnits?, high, low]
      rw [List.map_cons] at ih
      simp [ih]

/-- What stands for a control character without an escape of its own. -/
theorem readUnits_control (n : Nat) (control : n < 32) (rest : List Char) :
    readUnits ('\\' :: 'u' :: '0' :: '0' ::
        Nat.digitChar (n / 16) :: Nat.digitChar (n % 16) :: rest) =
      (readUnits rest).map fun (units, rest) => (n :: units, rest) := by
  have value : Bytes.hexNumber? ['0', '0', Nat.digitChar (n / 16), Nat.digitChar (n % 16)] =
      some n := by
    revert n
    decide
  rw [readUnits, value]
  cases readUnits rest <;> rfl

/-- What stands for a control character with an escape of its own, a quote or a backslash. -/
theorem readUnits_simple {e : Char} {n : Nat} (simple : simpleEscape? e = some n)
    (rest : List Char) :
    readUnits ('\\' :: e :: rest) =
      (readUnits rest).map fun (units, rest) => (n :: units, rest) := by
  have single : e ≠ 'u' := by
    rintro rfl
    cases simple
  rw [readUnits, simple]
  · cases readUnits rest <;> rfl
  · intro a b c d rest same
    exact absurd same single

/-- A character that stands for itself. -/
theorem readUnits_plain {c : Char} (quote : c ≠ '"') (backslash : c ≠ '\\')
    (visible : ¬ c.toNat < 0x20) (rest : List Char) :
    readUnits (c :: rest) =
      (readUnits rest).map fun (units, rest) => (c.toNat :: units, rest) := by
  rw [readUnits, if_neg]
  · cases readUnits rest <;> rfl
  · simp [visible, backslash]
  all_goals simp_all

/-- A character is read from what stands for it. -/
theorem readUnits_escapeChar (c : Char) (rest : List Char) :
    readUnits ((escapeChar c).toList ++ rest) =
      (readUnits rest).map fun (units, rest) => (c.toNat :: units, rest) := by
  unfold escapeChar
  split_ifs with quote backslash newline carriage tab backspace feed control
  · exact readUnits_simple (by rw [eq_of_beq quote]; rfl) rest
  · exact readUnits_simple (by rw [eq_of_beq backslash]; rfl) rest
  · exact readUnits_simple (by rw [eq_of_beq newline]; rfl) rest
  · exact readUnits_simple (by rw [eq_of_beq carriage]; rfl) rest
  · exact readUnits_simple (by rw [eq_of_beq tab]; rfl) rest
  · exact readUnits_simple (by rw [eq_of_beq backspace]; rfl) rest
  · exact readUnits_simple (by rw [eq_of_beq feed]; rfl) rest
  · simpa using readUnits_control c.toNat control rest
  · simpa using readUnits_plain (by simpa using quote) (by simpa using backslash) control rest

/-- A string is read up to its closing quote. -/
theorem readUnits_escaped (chars rest : List Char) :
    readUnits (escaped chars ++ '"' :: rest) = some (chars.map (·.toNat), rest) := by
  induction chars with
  | nil => rw [escaped, List.flatMap_nil, List.nil_append, readUnits, List.map_nil]
  | cons c chars ih =>
    have opens : escaped (c :: chars) ++ '"' :: rest =
        (escapeChar c).toList ++ (escaped chars ++ '"' :: rest) := by
      simp [escaped]
    rw [opens, readUnits_escapeChar, ih]
    rfl

theorem readString_escaped (content : String) (rest : List Char) :
    readString (escaped content.toList ++ '"' :: rest) = some (some content, rest) := by
  simp [readString, readUnits_escaped, joinUnits?_toNat]

/-! ## Numbers -/

/-- What follows a value inside of another one, or nothing. -/
def Stops (rest : List Char) : Prop := ∀ c ∈ rest.head?, c = ',' ∨ c = ']' ∨ c = '\x7d'

theorem digitsValue_toDigits (n : Nat) : digitsValue (Nat.toDigits 10 n) = n := by
  have value := Nat.ofDigitChars_toDigits (b := 10) (n := n) (by decide) (by decide)
  simpa [digitsValue, Nat.ofDigitChars, Nat.mul_comm] using value

theorem isDigit_of_mem_toDigits {n : Nat} {c : Char} (mem : c ∈ Nat.toDigits 10 n) :
    c.isDigit = true :=
  Nat.isDigit_of_mem_toDigits (by decide) (by decide) mem

/-- No number but zero starts with the digit zero. -/
theorem head_toDigits {n : Nat} (positive : 0 < n) : (Nat.toDigits 10 n).head? ≠ some '0' := by
  induction n using Nat.strongRecOn with
  | ind n ih =>
    by_cases small : n < 10
    · rw [Nat.toDigits_of_lt_base small]
      have each : ∀ n < 10, 0 < n → [Nat.digitChar n].head? ≠ some '0' := by decide
      exact each n small positive
    · rw [Nat.toDigits_of_base_le (by decide) (Nat.not_lt.mp small),
        List.head?_append_of_ne_nil _ Nat.toDigits_ne_nil]
      exact ih (n / 10) (by omega) (by omega)

/-- No part of a number goes on there. -/
theorem Stops.ends {rest : List Char} (stops : Stops rest) :
    rest.takeWhile Char.isDigit = [] ∧ rest.dropWhile Char.isDigit = rest ∧
      readFraction rest = some (none, rest) ∧ readExponent rest = some (none, rest) := by
  cases rest with
  | nil => exact ⟨rfl, rfl, rfl, rfl⟩
  | cons c rest => obtain rfl | rfl | rfl := stops c rfl <;> exact ⟨rfl, rfl, rfl, rfl⟩

theorem readDigits_toDigits (n : Nat) {rest : List Char} (stops : Stops rest) :
    readDigits (Nat.toDigits 10 n ++ rest) = some (Nat.toDigits 10 n, rest) := by
  have digits : ∀ c ∈ Nat.toDigits 10 n, c.isDigit = true := fun c => isDigit_of_mem_toDigits
  obtain ⟨digitless, still, -⟩ := stops.ends
  rw [readDigits, List.takeWhile_append_of_pos digits, List.dropWhile_append_of_pos digits,
    digitless, still, List.append_nil]
  split
  · rename_i none
    exact absurd none Nat.toDigits_ne_nil
  · rfl

theorem readWhole_toDigits (n : Nat) {rest : List Char} (stops : Stops rest) :
    readWhole (Nat.toDigits 10 n ++ rest) = some (Nat.toDigits 10 n, rest) := by
  obtain rfl | positive := Nat.eq_zero_or_pos n
  · rfl
  · unfold readWhole
    split
    · rename_i zero
      have front := head_toDigits positive
      rw [← List.head?_append_of_ne_nil _ Nat.toDigits_ne_nil, zero] at front
      exact absurd rfl front
    · exact readDigits_toDigits n stops

theorem toList_ofNat (n : Nat) : (toString (Int.ofNat n)).toList = Nat.toDigits 10 n :=
  Nat.toList_repr

theorem toList_negSucc (n : Nat) :
    (toString (Int.negSucc n)).toList = '-' :: Nat.toDigits 10 (n + 1) := by
  show ("-" ++ (n + 1).repr).toList = _
  rw [String.toList_append, Nat.toList_repr]
  rfl

/-- The sign of a number is not one of its digits. -/
theorem toDigits_append_ne_minus (n : Nat) (rest cs : List Char) :
    Nat.toDigits 10 n ++ rest ≠ '-' :: cs := by
  intro same
  have front : (Nat.toDigits 10 n).head? = some '-' := by
    rw [← List.head?_append_of_ne_nil _ Nat.toDigits_ne_nil, same]
    rfl
  exact absurd (isDigit_of_mem_toDigits (List.mem_of_mem_head? front)) (by decide)

/-- A whole number is read up to where its digits end. -/
theorem readNumber_integer (n : Int) {rest : List Char} (stops : Stops rest) :
    readNumber ((toString n).toList ++ rest) = some (integer n, rest) := by
  obtain ⟨-, -, fraction, exponent⟩ := stops.ends
  cases n with
  | ofNat n =>
    rw [toList_ofNat, readNumber]
    · simp [readWhole_toDigits n stops, fraction, exponent, digitsValue_toDigits]
    · exact toDigits_append_ne_minus n rest
  | negSucc n =>
    rw [toList_negSucc, List.cons_append, readNumber]
    simp [readWhole_toDigits (n + 1) stops, fraction, exponent, digitsValue_toDigits,
      Int.negSucc_eq]

/-- How a number can start. -/
def Leads (c : Char) : Prop := c = '-' ∨ c.isDigit = true

theorem leads_integer (n : Int) : ∃ c cs, (toString n).toList = c :: cs ∧ Leads c := by
  cases n with
  | ofNat n =>
    rw [toList_ofNat]
    cases digits : Nat.toDigits 10 n with
    | nil => exact absurd digits Nat.toDigits_ne_nil
    | cons c cs =>
      have front : c ∈ Nat.toDigits 10 n := digits ▸ List.mem_cons_self
      exact ⟨c, cs, rfl, .inr (isDigit_of_mem_toDigits front)⟩
  | negSucc n => exact ⟨'-', _, toList_negSucc n, .inl rfl⟩

/-- Nothing else starts like a number. -/
theorem Leads.ne {c d : Char} (leads : Leads c) (other : d ≠ '-' ∧ d.isDigit = false) : c ≠ d := by
  rintro rfl
  obtain minus | digit := leads
  · exact other.1 minus
  · exact absurd (other.2.symm.trans digit) Bool.false_ne_true

theorem Leads.isSpace {c : Char} (leads : Leads c) : isSpace c = false := by
  simp [Json.isSpace, leads.ne (d := ' ') (by decide), leads.ne (d := '\t') (by decide),
    leads.ne (d := '\n') (by decide), leads.ne (d := '\r') (by decide)]

/-! ## The texts of values -/

/-- A value whose strings are text and whose numbers are whole. -/
inductive Textual : Json → Prop
  | null : Textual null
  | bool (value : Bool) : Textual (bool value)
  | integer (value : Int) : Textual (integer value)
  | text (content : String) : Textual (text content)
  | array {elements : List Json} (each : ∀ v ∈ elements, Textual v) : Textual (array elements)
  | object {members : List (String × Json)} (each : ∀ m ∈ members, Textual m.2) :
      Textual (record members)

theorem toList_array (elements : List Json) :
    (array elements).compact.toList = '[' :: ((compactElements elements).toList ++ [']']) := by
  simp [compact, String.toList_append]

theorem toList_object (members : List (Option String × Json)) :
    (object members).compact.toList =
      '\x7b' :: ((compactMembers members).toList ++ ['\x7d']) := by
  simp [compact, String.toList_append]

theorem toList_elements (v w : Json) (vs : List Json) :
    (compactElements (v :: w :: vs)).toList =
      v.compact.toList ++ ',' :: (compactElements (w :: vs)).toList := by
  simp [compactElements, String.toList_append]

theorem toList_member (name : String) (v : Json) :
    (compactMembers [(some name, v)]).toList =
      '"' :: (escaped name.toList ++ '"' :: ':' :: v.compact.toList) := by
  simp [compactMembers, String.toList_append, toList_quote]

theorem toList_members (name : String) (v : Json) (m : Option String × Json)
    (members : List (Option String × Json)) :
    (compactMembers ((some name, v) :: m :: members)).toList =
      '"' :: (escaped name.toList ++ '"' :: ':' ::
        (v.compact.toList ++ ',' :: (compactMembers (m :: members)).toList)) := by
  simp [compactMembers, String.toList_append, toList_quote]

/-- No value starts with a space or a closing bracket. -/
theorem Textual.opens {v : Json} (textual : Textual v) :
    ∃ c cs, v.compact.toList = c :: cs ∧ isSpace c = false ∧ c ≠ ']' := by
  cases textual with
  | null => exact ⟨'n', _, rfl, by decide⟩
  | bool value => cases value with
    | true => exact ⟨'t', _, rfl, by decide⟩
    | false => exact ⟨'f', _, rfl, by decide⟩
  | integer value =>
    obtain ⟨c, cs, front, leads⟩ := leads_integer value
    exact ⟨c, cs, front, leads.isSpace, leads.ne (by decide)⟩
  | text content => exact ⟨'"', _, toList_quote content, by decide⟩
  | array => exact ⟨'[', _, toList_array _, by decide⟩
  | object => exact ⟨'\x7b', _, toList_object _, by decide⟩

/-! ## Reading values -/

theorem skipSpace_of_visible {c : Char} (visible : isSpace c = false) (cs : List Char) :
    skipSpace (c :: cs) = c :: cs := by
  rw [skipSpace, List.dropWhile_cons_of_neg (by simp [visible])]

theorem readValue_integer (calls : Nat) (n : Int) {rest : List Char} (stops : Stops rest) :
    readValue (calls + 1) ((toString n).toList ++ rest) = some (integer n, rest) := by
  have number := readNumber_integer n stops
  obtain ⟨c, cs, front, leads⟩ := leads_integer n
  rw [front, List.cons_append] at number ⊢
  rw [readValue, skipSpace_of_visible leads.isSpace]
  split
  all_goals first
    | exact number
    | exact absurd (List.cons.inj ‹_›).1 (leads.ne (by decide))

/-- A value is read from its text if enough calls are left for its characters. -/
def ReadBack (v : Json) : Prop :=
  ∀ calls, v.compact.toList.length < calls → ∀ rest, Stops rest →
    readValue calls (v.compact.toList ++ rest) = some (v, rest)

theorem stops_cons {c : Char} (cs : List Char) (stop : c = ',' ∨ c = ']' ∨ c = '\x7d') :
    Stops (c :: cs) := by
  rintro d ⟨⟩
  exact stop

theorem readElements_compact {elements : List Json} (each : ∀ v ∈ elements, v.ReadBack)
    (nonempty : elements ≠ []) (calls : Nat)
    (enough : (compactElements elements).toList.length + 1 < calls) (rest : List Char) :
    readElements calls ((compactElements elements).toList ++ ']' :: rest) =
      some (elements, rest) := by
  -- the comma behind an element is the character for the call that reads the others
  induction elements generalizing calls with
  | nil => exact absurd rfl nonempty
  | cons v elements ih =>
    obtain ⟨calls, rfl⟩ : ∃ n, calls = n + 1 := ⟨calls - 1, by omega⟩
    have first := each v List.mem_cons_self calls
    cases elements with
    | nil =>
      rw [compactElements] at enough ⊢
      rw [readElements, first (by omega) _ (stops_cons _ (by decide))]
      rfl
    | cons w elements =>
      rw [toList_elements, List.length_append, List.length_cons] at enough
      have others := ih (fun u mem => each u (List.mem_cons_of_mem v mem)) (List.cons_ne_nil _ _)
        calls (by omega)
      rw [toList_elements, List.append_assoc, List.cons_append, readElements,
        first (by omega) _ (stops_cons _ (by decide))]
      simp only [bind, Option.bind]
      rw [skipSpace_of_visible rfl]
      simp only [others]
      rfl

/-- The first member is read, and then what follows it decides. -/
theorem readMembers_first {v : Json} (readBack : v.ReadBack) (name : String) {calls : Nat}
    (enough : v.compact.toList.length < calls) {next : List Char} (stops : Stops next) :
    readMembers (calls + 1)
        ('"' :: (escaped name.toList ++ '"' :: ':' :: (v.compact.toList ++ next))) =
      match skipSpace next with
      | ',' :: cs => do
        let (members, cs) ← readMembers calls cs
        return ((some name, v) :: members, cs)
      | '\x7d' :: cs => some ([(some name, v)], cs)
      | _ => none := by
  rw [readMembers, skipSpace_of_visible rfl]
  simp only [readString_escaped, bind, Option.bind]
  rw [skipSpace_of_visible rfl]
  simp only [readBack calls enough next stops]
  rfl

/-- The members of a record. -/
def named (members : List (String × Json)) : List (Option String × Json) :=
  members.map fun (name, v) => (some name, v)

theorem readMembers_compact {members : List (String × Json)} (each : ∀ m ∈ members, m.2.ReadBack)
    (nonempty : members ≠ []) (calls : Nat)
    (enough : (compactMembers (named members)).toList.length + 1 < calls) (rest : List Char) :
    readMembers calls ((compactMembers (named members)).toList ++ '\x7d' :: rest) =
      some (named members, rest) := by
  induction members generalizing calls with
  | nil => exact absurd rfl nonempty
  | cons m members ih =>
    obtain ⟨name, v⟩ := m
    obtain ⟨calls, rfl⟩ : ∃ n, calls = n + 1 := ⟨calls - 1, by omega⟩
    have readBack : v.ReadBack := each (name, v) List.mem_cons_self
    cases members with
    | nil =>
      have text : (compactMembers (named [(name, v)])).toList = _ := toList_member name v
      rw [text] at enough ⊢
      simp only [List.length_cons, List.length_append] at enough
      simp only [List.cons_append, List.append_assoc]
      rw [readMembers_first readBack name (by omega) (stops_cons _ (by decide))]
      rfl
    | cons w members =>
      have text : (compactMembers (named ((name, v) :: w :: members))).toList =
          '"' :: (escaped name.toList ++ '"' :: ':' ::
            (v.compact.toList ++ ',' :: (compactMembers (named (w :: members))).toList)) :=
        toList_members name v (some w.1, w.2) (named members)
      rw [text] at enough ⊢
      simp only [List.length_cons, List.length_append] at enough
      have others := ih (fun u mem => each u (List.mem_cons_of_mem _ mem)) (List.cons_ne_nil _ _)
        calls (by omega)
      simp only [List.cons_append, List.append_assoc]
      rw [readMembers_first readBack name (by omega) (stops_cons _ (by decide)),
        skipSpace_of_visible rfl]
      simp only [others, bind, Option.bind]
      rfl

theorem Textual.opens_elements {v : Json} (textual : Textual v) (elements : List Json) :
    ∃ c cs, (compactElements (v :: elements)).toList = c :: cs ∧ isSpace c = false ∧ c ≠ ']' := by
  obtain ⟨c, cs, front, visible⟩ := textual.opens
  cases elements with
  | nil => exact ⟨c, cs, front, visible⟩
  | cons w elements =>
    rw [toList_elements, front]
    exact ⟨c, _, rfl, visible⟩

theorem readValue_bracket (calls : Nat) (cs : List Char) :
    readValue (calls + 1) ('[' :: cs) =
      match skipSpace cs with
      | ']' :: cs => some (array [], cs)
      | _ => do
        let (elements, cs) ← readElements calls cs
        return (array elements, cs) := by
  rw [readValue, skipSpace_of_visible rfl]
  rfl

theorem readValue_brace (calls : Nat) (cs : List Char) :
    readValue (calls + 1) ('\x7b' :: cs) =
      match skipSpace cs with
      | '\x7d' :: cs => some (object [], cs)
      | _ => do
        let (members, cs) ← readMembers calls cs
        return (object members, cs) := by
  rw [readValue, skipSpace_of_visible rfl]
  rfl

theorem readValue_array {elements : List Json} (textual : ∀ v ∈ elements, Textual v)
    (each : ∀ v ∈ elements, v.ReadBack) {calls : Nat}
    (enough : (compactElements elements).toList.length + 1 < calls) (rest : List Char) :
    readValue (calls + 1) ((array elements).compact.toList ++ rest) =
      some (array elements, rest) := by
  rw [toList_array, List.cons_append, List.append_assoc, List.singleton_append, readValue_bracket]
  cases elements with
  | nil => rfl
  | cons v elements =>
    have read := readElements_compact each (List.cons_ne_nil v elements) calls enough rest
    obtain ⟨c, cs, front, visible, inside⟩ :=
      (textual v List.mem_cons_self).opens_elements elements
    rw [front, List.cons_append] at read ⊢
    rw [skipSpace_of_visible visible]
    split
    · rename_i same
      exact absurd (List.cons.inj same).1 inside
    · simp only [read, bind, Option.bind]
      rfl

theorem readValue_record {members : List (String × Json)} (each : ∀ m ∈ members, m.2.ReadBack)
    {calls : Nat} (enough : (compactMembers (named members)).toList.length + 1 < calls)
    (rest : List Char) :
    readValue (calls + 1) ((record members).compact.toList ++ rest) =
      some (record members, rest) := by
  have text : (record members).compact.toList = _ := toList_object (named members)
  rw [text, List.cons_append, List.append_assoc, List.singleton_append, readValue_brace]
  cases members with
  | nil => rfl
  | cons m members =>
    have read := readMembers_compact each (List.cons_ne_nil m members) calls enough rest
    have front : ∃ cs, (compactMembers (named (m :: members))).toList = '"' :: cs := by
      cases members with
      | nil => exact ⟨_, toList_member m.1 m.2⟩
      | cons w members => exact ⟨_, toList_members m.1 m.2 (some w.1, w.2) (named members)⟩
    obtain ⟨cs, front⟩ := front
    rw [front, List.cons_append] at read ⊢
    rw [skipSpace_of_visible rfl]
    simp only [read, bind, Option.bind]
    rfl

theorem readBack_of_succ {v : Json}
    (read : ∀ calls, v.compact.toList.length ≤ calls → ∀ rest, Stops rest →
      readValue (calls + 1) (v.compact.toList ++ rest) = some (v, rest)) : v.ReadBack := by
  intro calls enough rest stops
  obtain ⟨calls, rfl⟩ : ∃ n, calls = n + 1 := ⟨calls - 1, by omega⟩
  exact read calls (Nat.le_of_lt_succ enough) rest stops

/-- A value is read from its text, by what it is made of. -/
theorem Textual.readBack {v : Json} (textual : Textual v) : v.ReadBack := by
  induction textual with
  | null => exact readBack_of_succ fun _ _ _ _ => rfl
  | bool value => exact readBack_of_succ fun _ _ _ _ => by cases value <;> rfl
  | integer value => exact readBack_of_succ fun calls _ _ => readValue_integer calls value
  | text content =>
    refine readBack_of_succ fun calls _ rest _ => ?_
    have text : (Json.text content).compact.toList = _ := toList_quote content
    rw [text, List.cons_append, List.append_assoc, readValue, skipSpace_of_visible rfl]
    simp only [List.cons_append, List.nil_append, readString_escaped, bind, Option.bind]
    rfl
  | array each ih =>
    refine readBack_of_succ fun calls enough rest _ => readValue_array each ih ?_ rest
    rw [toList_array, List.length_cons, List.length_append, List.length_singleton] at enough
    omega
  | @object members each ih =>
    refine readBack_of_succ fun calls enough rest _ => readValue_record ih ?_ rest
    have text : (record members).compact.toList = _ := toList_object (named members)
    rw [text, List.length_cons, List.length_append, List.length_singleton] at enough
    omega

/-- **A value is read back from its text**, however deep it nests and whatever its strings are. -/
theorem parse?_compact {v : Json} (textual : Textual v) : parse? v.compact = some v := by
  have read := textual.readBack _ (Nat.lt_succ_self _) [] (by rintro c ⟨⟩)
  rw [List.append_nil] at read
  rw [parse?, read]
  rfl

end VoxelServer.Json
