import AssetRefs.Json
import AssetRefs.Proofs.LiteralSpellings

/-! # The grammar of JSON

What the texts of JSON denote: `Json.Denotes` for a value, `Json.DenotesPadded` for a whole text,
with blank space around the value. Numbers are integers here, so a text with a fraction or an
exponent denotes nothing; nor does one that repeats a key in an object, or that has half of a
surrogate pair alone.

`Json.read` reads a text character by character. A character leads from one state to the next, and a
state keeps the arrays and objects that are still open on a stack. Where a text denotes a value, it
is read as that value (`Json.read_of_denotesPadded`), so no text denotes two.
-/

namespace AssetRefs.Json

open GoString (Digit digit? digit?_char)

/-! ## Strings and numbers -/

/-- Blank space between tokens. -/
def isBlank (c : Char) : Bool := [' ', '\t', '\n', '\r'].contains c

/-- The characters that are escaped by one letter, after that letter. -/
def letterEscapes : List (Char × Char) :=
  [('"', '"'), ('\\', '\\'), ('/', '/'), ('b', '\x08'), ('f', '\x0C'), ('n', '\n'), ('r', '\r'),
    ('t', '\t')]

/-- A UTF-16 unit as an escape of four digits. -/
structure UnitEscape where
  digits : List (Digit 16)
  full : digits.length = 4

namespace UnitEscape

/-- How the escape is written. -/
def source (unit : UnitEscape) : List Char := '\\' :: 'u' :: unit.digits.map Digit.char

/-- The unit that it denotes. -/
def value (unit : UnitEscape) : Nat := Digit.number unit.digits

end UnitEscape

/-- The first half of a character beyond the units. -/
def IsHigh (unit : Nat) : Prop := 0xD800 ≤ unit ∧ unit < 0xDC00

/-- The second half of a character beyond the units. -/
def IsLow (unit : Nat) : Prop := 0xDC00 ≤ unit ∧ unit < 0xE000

instance (unit : Nat) : Decidable (IsHigh unit) := inferInstanceAs (Decidable (_ ∧ _))

instance (unit : Nat) : Decidable (IsLow unit) := inferInstanceAs (Decidable (_ ∧ _))

/-- The character that two halves make. -/
def joined (high low : Nat) : Char :=
  Char.ofNat (0x10000 + (high - 0xD800) * 0x400 + (low - 0xDC00))

/-- The ways to spell one character of a string. -/
inductive SpellsChar : List Char → Char → Prop where
  | verbatim {c : Char} : 0x20 ≤ c.toNat → c ≠ '"' → c ≠ '\\' → SpellsChar [c] c
  | escaped {letter c : Char} : (letter, c) ∈ letterEscapes → SpellsChar ['\\', letter] c
  | unit {unit : UnitEscape} : unit.value.isValidChar →
      SpellsChar unit.source (Char.ofNat unit.value)
  | pair {high low : UnitEscape} : IsHigh high.value → IsLow low.value →
      SpellsChar (high.source ++ low.source) (joined high.value low.value)

/-- The inside of a string, and the text that it spells. -/
inductive Spells : List Char → List Char → Prop where
  | nil : Spells [] []
  | cons {front inside chars : List Char} {c : Char} :
      SpellsChar front c → Spells inside chars → Spells (front ++ inside) (c :: chars)

/-- Decimal numerals, without leading zeros. -/
inductive Numeral : List Char → Nat → Prop where
  | zero : Numeral ['0'] 0
  | digits {first : Digit 10} {rest : List (Digit 10)} : first.value ≠ 0 →
      Numeral ((first :: rest).map Digit.char) (Digit.number (first :: rest))

/-! ## Values -/

mutual

/-- The text denotes the value. -/
inductive Denotes : List Char → Json → Prop where
  | null : Denotes "null".toList .null
  | true : Denotes "true".toList (.bool true)
  | false : Denotes "false".toList (.bool false)
  | natural {text : List Char} {n : Nat} : Numeral text n → Denotes text (.number n)
  | negative {text : List Char} {n : Nat} : Numeral text n → Denotes ('-' :: text) (.number (-n))
  | string {inside chars : List Char} : Spells inside chars →
      Denotes ('"' :: (inside ++ ['"'])) (.string (String.ofList chars))
  | emptyArray {blanks : List Char} : blanks.all isBlank →
      Denotes ('[' :: (blanks ++ [']'])) (.array [])
  | array {inside : List Char} {items : List Json} : DenotesItems inside items →
      Denotes ('[' :: (inside ++ [']'])) (.array items)
  | emptyObject {blanks : List Char} : blanks.all isBlank →
      Denotes ('\x7b' :: (blanks ++ ['\x7d'])) (.object [])
  | object {inside : List Char} {members : List (String × Json)} : DenotesMembers inside members →
      (members.map Prod.fst).Nodup → Denotes ('\x7b' :: (inside ++ ['\x7d'])) (.object members)

/-- The text denotes the value and may have blank space around it. -/
inductive DenotesPadded : List Char → Json → Prop where
  | pad {before text after : List Char} {value : Json} : before.all isBlank → Denotes text value →
      after.all isBlank → DenotesPadded (before ++ (text ++ after)) value

/-- The inside of an array, and its items. -/
inductive DenotesItems : List Char → List Json → Prop where
  | last {text : List Char} {item : Json} : DenotesPadded text item → DenotesItems text [item]
  | cons {text inside : List Char} {item : Json} {items : List Json} : DenotesPadded text item →
      DenotesItems inside items → DenotesItems (text ++ ',' :: inside) (item :: items)

/-- The inside of an object, and its members. -/
inductive DenotesMembers : List Char → List (String × Json) → Prop where
  | last {text : List Char} {member : String × Json} : DenotesMember text member →
      DenotesMembers text [member]
  | cons {text inside : List Char} {member : String × Json} {members : List (String × Json)} :
      DenotesMember text member → DenotesMembers inside members →
      DenotesMembers (text ++ ',' :: inside) (member :: members)

/-- A key with its value. -/
inductive DenotesMember : List Char → String × Json → Prop where
  | keyed {before inside after text chars : List Char} {value : Json} : before.all isBlank →
      Spells inside chars → after.all isBlank → DenotesPadded text value →
      DenotesMember (before ++ '"' :: (inside ++ '"' :: (after ++ ':' :: text)))
        (String.ofList chars, value)

end

/-! ## The reader -/

/-- Where the reader is inside an escape. -/
inductive Escape where
  /-- After the backslash. -/
  | letter
  /-- After some digits of a unit. -/
  | digits (count value : Nat)

/-- What a string has so far. -/
structure Spelling where
  /-- The characters, the last one first. -/
  chars : List Char := []
  /-- A first half that waits for its second one. -/
  high : Option Nat := none
  escape : Option Escape := none

namespace Spelling

/-- Adds a character. -/
def put (spelling : Spelling) (c : Char) : Option Spelling :=
  if spelling.high.isNone then some { chars := c :: spelling.chars } else none

/-- Adds a unit: a character, or half of one. -/
def putUnit (spelling : Spelling) (unit : Nat) : Option Spelling :=
  match spelling.high with
  | some high =>
    if IsLow unit then some { chars := joined high unit :: spelling.chars } else none
  | none =>
    if IsHigh unit then some { chars := spelling.chars, high := some unit }
    else if unit.isValidChar then some { chars := Char.ofNat unit :: spelling.chars }
    else none

/-- One character inside a string. -/
def step (spelling : Spelling) (c : Char) : Option Spelling :=
  match spelling.escape with
  | none =>
    if c = '\\' then some { spelling with escape := some .letter }
    else if 0x20 ≤ c.toNat then spelling.put c
    else none
  | some .letter =>
    if c = 'u' then some { spelling with escape := some (.digits 0 0) }
    else (letterEscapes.lookup c).bind spelling.put
  | some (.digits count value) =>
    (digit? 16 c).bind fun digit =>
      if count = 3 then spelling.putUnit (value * 16 + digit)
      else some { spelling with escape := some (.digits (count + 1) (value * 16 + digit)) }

end Spelling

/-- An array or object that is still open around the value that is read. -/
inductive Frame where
  /-- An array, with the items before, the last one first. -/
  | array (before : List Json)
  /-- An object, with the members before, the last one first, and the key of the value. -/
  | object (before : List (String × Json)) (key : String)

/-- What a string is read for. -/
inductive Role where
  | value
  /-- A key, after the members before, the last one first. -/
  | key (before : List (String × Json))

/-- What the reader has just seen, or looks for. -/
inductive Phase where
  /-- A value is to start, or an array to end that has no items. -/
  | start
  /-- A key is to start, or an object to end that has no members. -/
  | key (before : List (String × Json))
  | colon (before : List (String × Json)) (key : String)
  | text (role : Role) (spelling : Spelling)
  /-- In the name of a value, with the rest of the name. -/
  | word (rest : List Char) (value : Json)
  | minus
  | zero
  | digits (negative : Bool) (magnitude : Nat)
  | complete (value : Json)

/-- The state of the reader. -/
structure State where
  stack : List Frame
  phase : Phase

/-- A number by its sign and magnitude. -/
def signed (negative : Bool) (magnitude : Nat) : Json :=
  .number (if negative then -magnitude else magnitude)

/-- The value that ends here, if the text ends here. -/
def Phase.value? : Phase → Option Json
  | word [] value => some value
  | zero => some (.number 0)
  | digits negative magnitude => some (signed negative magnitude)
  | complete value => some value
  | _ => none

namespace State

variable (stack : List Frame)

/-- The first digit of a number. -/
def startNumber (negative : Bool) (c : Char) : Option State :=
  (digit? 10 c).map fun digit =>
    ⟨stack, if digit = 0 then .zero else .digits negative digit⟩

/-- The first character of a value. -/
def start (c : Char) : Option State :=
  if c = '"' then some ⟨stack, .text .value {}⟩
  else if c = '[' then some ⟨.array [] :: stack, .start⟩
  else if c = '\x7b' then some ⟨stack, .key []⟩
  else if c = '-' then some ⟨stack, .minus⟩
  else if c = 'n' then some ⟨stack, .word ['u', 'l', 'l'] .null⟩
  else if c = 't' then some ⟨stack, .word ['r', 'u', 'e'] (.bool true)⟩
  else if c = 'f' then some ⟨stack, .word ['a', 'l', 's', 'e'] (.bool false)⟩
  else startNumber stack false c

/-- A character where no value starts: blank space, or the end of an array without items. -/
def startNone (c : Char) : Option State :=
  if isBlank c then some ⟨stack, .start⟩
  else match stack with
    | .array [] :: outer => if c = ']' then some ⟨outer, .complete (.array [])⟩ else none
    | _ => none

/-- A character after a value. -/
def after (value : Json) (c : Char) : Option State :=
  if isBlank c then some ⟨stack, .complete value⟩
  else match stack with
    | [] => none
    | .array before :: outer =>
      if c = ',' then some ⟨.array (value :: before) :: outer, .start⟩
      else if c = ']' then some ⟨outer, .complete (.array (value :: before).reverse)⟩
      else none
    | .object before key :: outer =>
      if c = ',' then some ⟨outer, .key ((key, value) :: before)⟩
      else if c = '\x7d' then some ⟨outer, .complete (.object ((key, value) :: before).reverse)⟩
      else none

/-- The end of a string. -/
def close (role : Role) (text : String) : State :=
  match role with
  | .value => ⟨stack, .complete (.string text)⟩
  | .key before => ⟨stack, .colon before text⟩

/-- One character. -/
def step : State → Char → Option State
  | ⟨stack, .start⟩, c => (start stack c).or (startNone stack c)
  | ⟨stack, .key before⟩, c =>
    if c = '"' then some ⟨stack, .text (.key before) {}⟩
    else if isBlank c then some ⟨stack, .key before⟩
    else if c = '\x7d' && before.isEmpty then some ⟨stack, .complete (.object [])⟩
    else none
  | ⟨stack, .colon before key⟩, c =>
    if c = ':' then some ⟨.object before key :: stack, .start⟩
    else if isBlank c then some ⟨stack, .colon before key⟩
    else none
  | ⟨stack, .text role spelling⟩, c =>
    if c = '"' && spelling.escape.isNone then
      if spelling.high.isNone then some (close stack role (String.ofList spelling.chars.reverse))
      else none
    else (spelling.step c).map fun next => ⟨stack, .text role next⟩
  | ⟨stack, .word [] value⟩, c => after stack value c
  | ⟨stack, .word (letter :: rest) value⟩, c =>
    if c = letter then some ⟨stack, .word rest value⟩ else none
  | ⟨stack, .minus⟩, c => startNumber stack true c
  | ⟨stack, .zero⟩, c => after stack (.number 0) c
  | ⟨stack, .digits negative magnitude⟩, c =>
    match digit? 10 c with
    | some digit => some ⟨stack, .digits negative (magnitude * 10 + digit)⟩
    | none => after stack (signed negative magnitude) c
  | ⟨stack, .complete value⟩, c => after stack value c

/-- Several characters. -/
def run (state : State) (text : List Char) : Option State := text.foldlM step state

end State

/-- The value that a text denotes. Keys may be repeated. -/
def read (text : String) : Option Json :=
  (State.run ⟨[], .start⟩ text.toList).bind fun state =>
    if state.stack.isEmpty then state.phase.value? else none

/-! ## Texts are read as what they denote -/

namespace State

variable {stack : List Frame}

theorem run_cons (state : State) (c : Char) (text : List Char) :
    state.run (c :: text) = (state.step c).bind fun next => next.run text :=
  List.foldlM_cons

theorem run_append (state : State) (first second : List Char) :
    state.run (first ++ second) = (state.run first).bind fun next => next.run second :=
  List.foldlM_append

theorem run_append_of_run {state next : State} {first : List Char}
    (ran : state.run first = some next) (second : List Char) :
    state.run (first ++ second) = next.run second := by
  rw [run_append, ran, Option.bind_some]

theorem run_cons_of_step {state next : State} {c : Char} (stepped : state.step c = some next)
    (text : List Char) : state.run (c :: text) = next.run text := by
  rw [run_cons, stepped, Option.bind_some]

/-! ### Blank space -/

theorem run_blanks {state : State} {blanks : List Char}
    (rests : ∀ {c}, isBlank c → state.step c = some state) (blank : blanks.all isBlank) :
    state.run blanks = some state := by
  induction blanks with
  | nil => rfl
  | cons c blanks ih =>
    rw [List.all_cons, Bool.and_eq_true] at blank
    rw [run_cons_of_step (rests blank.1), ih blank.2]

theorem eq_of_isBlank {c : Char} (blank : isBlank c) :
    c = ' ' ∨ c = '\t' ∨ c = '\n' ∨ c = '\r' := by
  simpa [isBlank] using blank

theorem step_start_blank {c : Char} (blank : isBlank c) :
    step ⟨stack, .start⟩ c = some ⟨stack, .start⟩ := by
  have unstarted : start stack c = none := by
    rcases eq_of_isBlank blank with rfl | rfl | rfl | rfl <;> rfl
  rw [step, unstarted, Option.none_or]
  exact if_pos blank

theorem step_key_blank {before : List (String × Json)} {c : Char} (blank : isBlank c) :
    step ⟨stack, .key before⟩ c = some ⟨stack, .key before⟩ := by
  have other : c ≠ '"' := by rintro rfl; cases blank
  rw [step, if_neg other, if_pos blank]

theorem step_colon_blank {before : List (String × Json)} {key : String} {c : Char}
    (blank : isBlank c) : step ⟨stack, .colon before key⟩ c = some ⟨stack, .colon before key⟩ := by
  have other : c ≠ ':' := by rintro rfl; cases blank
  rw [step, if_neg other, if_pos blank]

/-- What comes after a value. A digit would belong to the number before it. -/
theorem step_of_value? {phase : Phase} {value : Json} {c : Char} (ended : phase.value? = some value)
    (other : digit? 10 c = none) : step ⟨stack, phase⟩ c = after stack value c := by
  cases phase with
  | word rest value =>
    cases rest with
    | nil => cases ended; rfl
    | cons letter rest => cases ended
  | zero => cases ended; rfl
  | digits negative magnitude =>
    cases ended
    simp only [step, other]
  | complete value => cases ended; rfl
  | _ => cases ended

theorem exists_run_blanks {phase : Phase} {value : Json} {blanks : List Char}
    (ended : phase.value? = some value) (blank : blanks.all isBlank) (stack : List Frame) :
    ∃ last, Phase.value? last = some value ∧ run ⟨stack, phase⟩ blanks = some ⟨stack, last⟩ := by
  induction blanks generalizing phase with
  | nil => exact ⟨phase, ended, rfl⟩
  | cons c blanks ih =>
    rw [List.all_cons, Bool.and_eq_true] at blank
    have other : digit? 10 c = none := by
      rcases eq_of_isBlank blank.1 with rfl | rfl | rfl | rfl <;> rfl
    have stepped : step ⟨stack, phase⟩ c = some ⟨stack, .complete value⟩ :=
      (step_of_value? ended other).trans (if_pos blank.1)
    rw [run_cons_of_step stepped]
    exact ih rfl blank.2

/-! ### Strings -/

variable {role : Role}

theorem step_text {spelling next : Spelling} {c : Char}
    (inside : c ≠ '"' ∨ spelling.escape.isSome) (stepped : spelling.step c = some next) :
    step ⟨stack, .text role spelling⟩ c = some ⟨stack, .text role next⟩ := by
  have unclosed : ¬ (c = '"' && spelling.escape.isNone) = true := by
    rcases inside with other | escaped
    · simp [other]
    · simp [Option.isSome_iff_ne_none.mp escaped]
  rw [step, if_neg unclosed, stepped, Option.map_some]

variable {chars : List Char} {high : Option Nat} {next : Spelling}

theorem run_digits {digits : List (Digit 16)} {count value : Nat} (more : digits ≠ [])
    (full : count + digits.length = 4)
    (put : Spelling.putUnit ⟨chars, high, none⟩
      (digits.foldl (fun number digit => number * 16 + digit.value) value) = some next) :
    run ⟨stack, .text role ⟨chars, high, some (.digits count value)⟩⟩ (digits.map Digit.char) =
      some ⟨stack, .text role next⟩ := by
  induction digits generalizing count value with
  | nil => exact absurd rfl more
  | cons digit digits ih =>
    have read := digit?_char (le_refl 16) digit
    cases digits with
    | nil =>
      have last : count = 3 := by simpa using full
      refine run_cons_of_step (step_text (.inr rfl) ?_) []
      simp only [Spelling.step, read, Option.bind_some, if_pos last]
      exact put
    | cons second rest =>
      have inner : count ≠ 3 := by
        simp only [List.length_cons] at full
        omega
      have stepped : Spelling.step ⟨chars, high, some (.digits count value)⟩ digit.char =
          some ⟨chars, high, some (.digits (count + 1) (value * 16 + digit.value))⟩ := by
        simp only [Spelling.step, read, Option.bind_some, if_neg inner]
      rw [List.map_cons, run_cons_of_step (step_text (.inr rfl) stepped)]
      refine ih (List.cons_ne_nil second rest) ?_ put
      rw [← full]
      simp only [List.length_cons]
      omega

theorem run_unit (unit : UnitEscape)
    (put : Spelling.putUnit ⟨chars, high, none⟩ unit.value = some next) :
    run ⟨stack, .text role ⟨chars, high, none⟩⟩ unit.source = some ⟨stack, .text role next⟩ := by
  have marked : run ⟨stack, .text role ⟨chars, high, none⟩⟩ ['\\', 'u'] =
      some ⟨stack, .text role ⟨chars, high, some (.digits 0 0)⟩⟩ := rfl
  have full := unit.full
  refine (run_append_of_run marked _).trans (run_digits ?_ (by omega) put)
  rintro empty
  rw [empty] at full
  cases full

theorem run_spellsChar {front : List Char} {c : Char} (spelled : SpellsChar front c) :
    run ⟨stack, .text role ⟨chars, none, none⟩⟩ front =
      some ⟨stack, .text role ⟨c :: chars, none, none⟩⟩ := by
  cases spelled with
  | verbatim printed unquoted unescaped =>
    refine run_cons_of_step (step_text (.inl unquoted) ?_) []
    simp only [Spelling.step, if_neg unescaped, if_pos printed]
    rfl
  | @escaped letter _ known =>
    have checked : ∀ pair ∈ letterEscapes,
        pair.1 ≠ 'u' ∧ letterEscapes.lookup pair.1 = some pair.2 := by decide
    obtain ⟨other, found⟩ := checked _ known
    have marked : run ⟨stack, .text role ⟨chars, none, none⟩⟩ ['\\'] =
        some ⟨stack, .text role ⟨chars, none, some .letter⟩⟩ := rfl
    refine (run_append_of_run marked [letter]).trans (run_cons_of_step (step_text (.inr rfl) ?_) [])
    simp only [Spelling.step, if_neg other, found, Option.bind_some]
    rfl
  | @unit unit scalar =>
    have whole : ¬ IsHigh unit.value := by
      rw [Nat.isValidChar] at scalar
      rw [IsHigh]
      omega
    apply run_unit
    simp only [Spelling.putUnit, if_neg whole, if_pos scalar]
  | @pair first second isHigh isLow =>
    have half : run ⟨stack, .text role ⟨chars, none, none⟩⟩ first.source =
        some ⟨stack, .text role ⟨chars, some first.value, none⟩⟩ := by
      apply run_unit
      simp only [Spelling.putUnit, if_pos isHigh]
    refine (run_append_of_run half _).trans (run_unit _ ?_)
    simp only [Spelling.putUnit, if_pos isLow]

theorem run_spells {inside text : List Char} (spelled : Spells inside text) :
    run ⟨stack, .text role ⟨chars, none, none⟩⟩ inside =
      some ⟨stack, .text role ⟨text.reverse ++ chars, none, none⟩⟩ := by
  induction spelled generalizing chars with
  | nil => rfl
  | cons first _ ih =>
    rw [run_append_of_run (run_spellsChar first), ih, List.reverse_cons, List.append_assoc,
      List.singleton_append]

/-- A string up to its closing quote. -/
theorem run_string {inside text : List Char} (spelled : Spells inside text) :
    run ⟨stack, .text role {}⟩ (inside ++ ['"']) =
      some (close stack role (String.ofList text)) := by
  have closed (chars : List Char) : run ⟨stack, .text role ⟨chars, none, none⟩⟩ ['"'] =
      some (close stack role (String.ofList chars.reverse)) := rfl
  rw [run_append_of_run (run_spells spelled), closed, List.append_nil, List.reverse_reverse]

/-! ### Values -/

/-- The state after a text whose first character is the first one of a value. -/
def enter (stack : List Frame) : List Char → Option State
  | [] => none
  | c :: text => (start stack c).bind fun next => next.run text

theorem run_of_enter {text : List Char} {state : State} (entered : enter stack text = some state) :
    run ⟨stack, .start⟩ text = some state := by
  cases text with
  | nil => cases entered
  | cons c text =>
    obtain ⟨next, started, ran⟩ := Option.bind_eq_some_iff.mp entered
    rw [run_cons, step, started]
    exact ran

theorem run_decimals {negative : Bool} {magnitude : Nat} (digits : List (Digit 10)) :
    run ⟨stack, .digits negative magnitude⟩ (digits.map Digit.char) = some ⟨stack, .digits negative
      (digits.foldl (fun number digit => number * 10 + digit.value) magnitude)⟩ := by
  induction digits generalizing magnitude with
  | nil => rfl
  | cons digit digits ih =>
    have stepped : step ⟨stack, .digits negative magnitude⟩ digit.char =
        some ⟨stack, .digits negative (magnitude * 10 + digit.value)⟩ := by
      simp only [step, digit?_char (show 10 ≤ 16 by decide)]
    rw [List.map_cons, run_cons_of_step stepped]
    exact ih

/-- The first digit of a numeral starts it, and the others continue it. -/
theorem exists_run_numeral {text : List Char} {n : Nat} (numeral : Numeral text n)
    (stack : List Frame) (negative : Bool) :
    ∃ c rest phase, text = c :: rest ∧ Phase.value? phase = some (signed negative n) ∧
      ((startNumber stack negative c).bind fun next => next.run rest) = some ⟨stack, phase⟩ := by
  cases numeral with
  | zero => exact ⟨'0', [], .zero, rfl, by cases negative <;> rfl, rfl⟩
  | @digits first rest nonzero =>
    refine ⟨first.char, rest.map Digit.char, .digits negative (Digit.number (first :: rest)), rfl,
      rfl, ?_⟩
    have positive : first.value.val ≠ 0 := fun same => nonzero (Fin.ext same)
    simp only [startNumber, digit?_char (show 10 ≤ 16 by decide), Option.map_some, if_neg positive,
      Option.bind_some, run_decimals]
    rw [Digit.number, List.foldl_cons, Nat.zero_mul, Nat.zero_add]

/-- No other value starts with a digit. -/
theorem start_of_startNumber {c : Char} {next : State}
    (started : startNumber stack false c = some next) : start stack c = some next := by
  have apart {other : Char} (none : digit? 10 other = none) : c ≠ other := by
    rintro rfl
    rw [startNumber, none] at started
    cases started
  rw [start, if_neg (apart rfl), if_neg (apart rfl), if_neg (apart rfl), if_neg (apart rfl),
    if_neg (apart rfl), if_neg (apart rfl), if_neg (apart rfl), started]

/-! The texts of the grammar are read by recursion on their length. The stack is arbitrary: what is
open around a value does not matter for reading it. -/

mutual

/-- A value is read and the stack is then as before. -/
theorem exists_enter {text : List Char} {value : Json} (denoted : Denotes text value)
    (stack : List Frame) :
    ∃ phase, Phase.value? phase = some value ∧ enter stack text = some ⟨stack, phase⟩ := by
  cases denoted with
  | null => exact ⟨.word [] .null, rfl, rfl⟩
  | true => exact ⟨.word [] (.bool true), rfl, rfl⟩
  | false => exact ⟨.word [] (.bool false), rfl, rfl⟩
  | natural numeral =>
    obtain ⟨c, rest, phase, rfl, ended, ran⟩ := exists_run_numeral numeral stack false
    obtain ⟨next, started, ran⟩ := Option.bind_eq_some_iff.mp ran
    exact ⟨phase, ended, by rw [enter, start_of_startNumber started]; exact ran⟩
  | negative numeral =>
    obtain ⟨c, rest, phase, rfl, ended, ran⟩ := exists_run_numeral numeral stack true
    exact ⟨phase, ended, (run_cons ..).trans ran⟩
  | string spelled => exact ⟨.complete _, rfl, run_string spelled⟩
  | emptyArray blank =>
    refine ⟨.complete (.array []), rfl, ?_⟩
    exact run_append_of_run (run_blanks step_start_blank blank) [']']
  | array items => exact ⟨.complete _, rfl, run_items items stack []⟩
  | emptyObject blank =>
    refine ⟨.complete (.object []), rfl, ?_⟩
    exact run_append_of_run (run_blanks step_key_blank blank) ['\x7d']
  | object members distinct => exact ⟨.complete _, rfl, run_members members stack []⟩
termination_by 4 * text.length
decreasing_by all_goals grind

theorem exists_run_padded {text : List Char} {value : Json} (denoted : DenotesPadded text value)
    (stack : List Frame) :
    ∃ phase, Phase.value? phase = some value ∧ run ⟨stack, .start⟩ text = some ⟨stack, phase⟩ := by
  cases denoted with
  | pad before inner after =>
    obtain ⟨phase, ended, entered⟩ := exists_enter inner stack
    obtain ⟨last, ended, ran⟩ := exists_run_blanks ended after stack
    refine ⟨last, ended, ?_⟩
    rw [run_append_of_run (run_blanks step_start_blank before),
      run_append_of_run (run_of_enter entered), ran]
termination_by 4 * text.length + 1
decreasing_by all_goals grind

/-- The items of an array up to its closing bracket. -/
theorem run_items {inside : List Char} {items : List Json} (denoted : DenotesItems inside items)
    (outer : List Frame) (before : List Json) :
    run ⟨.array before :: outer, .start⟩ (inside ++ [']']) =
      some ⟨outer, .complete (.array (before.reverse ++ items))⟩ := by
  cases denoted with
  | @last _ item padded =>
    obtain ⟨phase, ended, ran⟩ := exists_run_padded padded (.array before :: outer)
    have stepped : step ⟨.array before :: outer, phase⟩ ']' =
        some ⟨outer, .complete (.array (item :: before).reverse)⟩ := step_of_value? ended rfl
    rw [run_append_of_run ran, run_cons_of_step stepped, List.reverse_cons]
    rfl
  | @cons _ _ item _ padded items =>
    obtain ⟨phase, ended, ran⟩ := exists_run_padded padded (.array before :: outer)
    have stepped : step ⟨.array before :: outer, phase⟩ ',' =
        some ⟨.array (item :: before) :: outer, .start⟩ := step_of_value? ended rfl
    rw [List.append_assoc, run_append_of_run ran, List.cons_append, run_cons_of_step stepped,
      run_items items, List.reverse_cons, List.append_assoc, List.singleton_append]
termination_by 4 * inside.length + 2
decreasing_by all_goals grind

/-- The members of an object up to its closing brace. -/
theorem run_members {inside : List Char} {members : List (String × Json)}
    (denoted : DenotesMembers inside members) (outer : List Frame)
    (before : List (String × Json)) :
    run ⟨outer, .key before⟩ (inside ++ ['\x7d']) =
      some ⟨outer, .complete (.object (before.reverse ++ members))⟩ := by
  cases denoted with
  | @last _ member single =>
    obtain ⟨phase, ended, ran⟩ := exists_run_member single outer before
    have stepped : step ⟨.object before member.1 :: outer, phase⟩ '\x7d' =
        some ⟨outer, .complete (.object (member :: before).reverse)⟩ := step_of_value? ended rfl
    rw [run_append_of_run ran, run_cons_of_step stepped, List.reverse_cons]
    rfl
  | @cons _ _ member _ single members =>
    obtain ⟨phase, ended, ran⟩ := exists_run_member single outer before
    have stepped : step ⟨.object before member.1 :: outer, phase⟩ ',' =
        some ⟨outer, .key (member :: before)⟩ := step_of_value? ended rfl
    rw [List.append_assoc, run_append_of_run ran, List.cons_append, run_cons_of_step stepped,
      run_members members, List.reverse_cons, List.append_assoc, List.singleton_append]
termination_by 4 * inside.length + 3
decreasing_by all_goals grind

theorem exists_run_member {text : List Char} {member : String × Json}
    (denoted : DenotesMember text member) (outer : List Frame) (before : List (String × Json)) :
    ∃ phase, Phase.value? phase = some member.2 ∧
      run ⟨outer, .key before⟩ text = some ⟨.object before member.1 :: outer, phase⟩ := by
  cases denoted with
  | @keyed front inside after text chars _ blankBefore spelled blankAfter padded =>
    obtain ⟨phase, ended, ran⟩ :=
      exists_run_padded padded (.object before (String.ofList chars) :: outer)
    refine ⟨phase, ended, ?_⟩
    have opened : step ⟨outer, .key before⟩ '"' = some ⟨outer, .text (.key before) {}⟩ := rfl
    have separated : step ⟨outer, .colon before (String.ofList chars)⟩ ':' =
        some ⟨.object before (String.ofList chars) :: outer, .start⟩ := rfl
    have key : run ⟨outer, .text (.key before) {}⟩ (inside ++ ['"']) =
        some ⟨outer, .colon before (String.ofList chars)⟩ := run_string spelled
    rw [run_append_of_run (run_blanks step_key_blank blankBefore), run_cons_of_step opened,
      ← List.singleton_append, ← List.append_assoc, run_append_of_run key,
      run_append_of_run (run_blanks step_colon_blank blankAfter), run_cons_of_step separated, ran]
termination_by 4 * text.length + 2
decreasing_by all_goals grind

end

end State

/-- A text is read as the value that it denotes. -/
theorem read_of_denotesPadded {text : String} {value : Json}
    (denoted : DenotesPadded text.toList value) : read text = some value := by
  obtain ⟨phase, ended, ran⟩ := State.exists_run_padded denoted []
  rw [read, ran]
  exact ended

end AssetRefs.Json
