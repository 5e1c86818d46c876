import AssetRefs.Proofs.Utf8Reading

/-! # Spellings of a text

The inside of an interpreted literal is a sequence of items: characters as they are and escapes.
Each item denotes some bytes, and a literal denotes the text that all these bytes are read as,
wherever one item ends and the next one starts (`bytesFrom_items_append`). So every spelling of a
text denotes it, and an escape that denotes nothing makes any literal unreadable: see
`literals_denote_their_items`.
-/

namespace AssetRefs.GoString

open Text

/-! ## Items -/

/-- A digit in a base up to sixteen, and whether it is written as a capital if it is a letter. -/
structure Digit (base : Nat) where
  value : Fin base
  capital : Bool
deriving DecidableEq

namespace Digit

variable {base : Nat}

/-- The character that a digit is written as. -/
def char (digit : Digit base) : Char :=
  if digit.capital then (Nat.digitChar digit.value).toUpper else Nat.digitChar digit.value

/-- The number that digits denote, most significant first. -/
def number (digits : List (Digit base)) : Nat :=
  digits.foldl (fun number digit => number * base + digit.value) 0

end Digit

/-- The characters that are escaped by one letter, after that letter. -/
def letterEscapes : List (Char × Char) :=
  [('a', '\x07'), ('b', '\x08'), ('f', '\x0C'), ('n', '\n'), ('r', '\r'), ('t', '\t'),
    ('v', '\x0B'), ('\\', '\\'), ('"', '"')]

/-- The two escapes of a code point. -/
inductive PointMark where
  | short
  | long
deriving DecidableEq

/-- The letter of the escape. -/
def PointMark.letter : PointMark → Char
  | short => 'u'
  | long => 'U'

/-- The number of its digits. -/
def PointMark.count : PointMark → Nat
  | short => 4
  | long => 8

/-- An item of the inside of an interpreted literal. -/
inductive Item where
  /-- A character as it is. -/
  | verbatim (c : Char) (plain : c ≠ '\\' ∧ c ≠ '"' ∧ c ≠ '\n')
  /-- A character that is escaped by one letter. -/
  | escaped (letter c : Char) (known : (letter, c) ∈ letterEscapes)
  /-- A byte in two hexadecimal digits. -/
  | hexByte (high low : Digit 16)
  /-- A byte in three octal digits. -/
  | octalByte (high middle low : Digit 8) (byte : Digit.number [high, middle, low] ≤ 0xFF)
  /-- A code point. -/
  | point (mark : PointMark) (digits : List (Digit 16)) (full : digits.length = mark.count)
    (scalar : (Digit.number digits).isValidChar)

/-- An escape that denotes nothing. -/
inductive Flaw where
  /-- Three octal digits for more than a byte. -/
  | octal (high middle low : Digit 8) (beyond : 0xFF < Digit.number [high, middle, low])
  /-- A surrogate, or a code beyond the last code point. -/
  | point (mark : PointMark) (digits : List (Digit 16)) (full : digits.length = mark.count)
    (unfit : 0xD800 ≤ Digit.number digits ∧ Digit.number digits ≤ 0xDFFF ∨
      0x10FFFF < Digit.number digits)
  /-- A character that starts no escape. -/
  | stray (c : Char) (unknown : ∀ meant, (c, meant) ∉ letterEscapes)
    (other : c ≠ 'x' ∧ c ≠ 'u' ∧ c ≠ 'U' ∧ ∀ digit : Digit 8, c ≠ digit.char)

namespace Item

/-- How an item is written. -/
def source : Item → List Char
  | verbatim c _ => [c]
  | escaped letter _ _ => ['\\', letter]
  | hexByte high low => ['\\', 'x', high.char, low.char]
  | octalByte high middle low _ => ['\\', high.char, middle.char, low.char]
  | point mark digits _ _ => '\\' :: mark.letter :: digits.map Digit.char

/-- The bytes that an item denotes. -/
def bytes : Item → List UInt8
  | verbatim c _ => Utf8.encode [c]
  | escaped _ c _ => Utf8.encode [c]
  | hexByte high low => [UInt8.ofNat (Digit.number [high, low])]
  | octalByte high middle low _ => [UInt8.ofNat (Digit.number [high, middle, low])]
  | point _ digits _ _ => Utf8.encode [Char.ofNat (Digit.number digits)]

/-- One byte in digits. -/
def IsByte : Item → Prop
  | hexByte .. => True
  | octalByte .. => True
  | _ => False

end Item

/-- How it is written. -/
def Flaw.source : Flaw → List Char
  | octal high middle low _ => ['\\', high.char, middle.char, low.char]
  | point mark digits _ _ => '\\' :: mark.letter :: digits.map Digit.char
  | stray c _ _ => ['\\', c]

/-- The ways to spell one character. -/
inductive SpellsChar : Char → List Item → Prop where
  | verbatim {c : Char} (plain : c ≠ '\\' ∧ c ≠ '"' ∧ c ≠ '\n') : SpellsChar c [.verbatim c plain]
  | escaped {letter c : Char} (known : (letter, c) ∈ letterEscapes) :
      SpellsChar c [.escaped letter c known]
  | point {mark : PointMark} {digits : List (Digit 16)} (full : digits.length = mark.count)
      (scalar : (Digit.number digits).isValidChar) :
      SpellsChar (Char.ofNat (Digit.number digits)) [.point mark digits full scalar]
  | bytes {c : Char} {items : List Item} (single : ∀ item ∈ items, item.IsByte)
      (encoded : items.flatMap Item.bytes = Utf8.encode [c]) : SpellsChar c items

/-- Items that spell a text, one character after the other. -/
inductive Spells : List Char → List Item → Prop where
  | nil : Spells [] []
  | cons {c : Char} {chars : List Char} {front items : List Item} :
      SpellsChar c front → Spells chars items → Spells (c :: chars) (front ++ items)

/-- The literal with the given inside. -/
def quoted (inside : List Char) : String := String.ofList ('"' :: (inside ++ ['"']))

/-! ## Escapes are read back -/

section

variable {base : Nat}

theorem digit?_eq_filter (small : base ≤ 16) (c : Char) :
    digit? base c = (digit? 16 c).filter (· < base) := by
  simp only [digit?, Option.filter_filter]
  congr
  funext value
  rw [← Bool.decide_and]
  exact decide_eq_decide.mpr ⟨fun less => ⟨by omega, less⟩, And.right⟩

theorem digit?_char (small : base ≤ 16) (digit : Digit base) :
    digit? base digit.char = some digit.value.val := by
  have checked : ∀ (value : Fin 16) (capital : Bool),
      digit? 16 (⟨value, capital⟩ : Digit 16).char = some value.val := by decide
  have read := checked (digit.value.castLE small) digit.capital
  rw [digit?_eq_filter small]
  change (digit? 16 digit.char) = some digit.value.val at read
  simp [read]

theorem numeral?_append (small : base ≤ 16) (digits : List (Digit base)) (value : Nat)
    (rest : List Char) :
    numeral? base digits.length value (digits.map Digit.char ++ rest) =
      some (digits.foldl (fun number digit => number * base + digit.value) value) := by
  induction digits generalizing value with
  | nil => rfl
  | cons digit digits ih =>
    simp only [List.length_cons, List.map_cons, List.cons_append, numeral?, digit?_char small,
      List.foldl_cons]
    exact ih _

theorem Digit.char_ne_quote (small : base ≤ 16) (digit : Digit base) : digit.char ≠ '"' := by
  intro same
  have read := digit?_char small digit
  rw [same, digit?_eq_filter small] at read
  cases read

theorem exists_digit_of_digit? {c : Char} {value : Nat} (read : digit? 8 c = some value) :
    ∃ digit : Digit 8, c = digit.char := by
  obtain ⟨valued, small⟩ := Option.filter_eq_some_iff.mp read
  rw [decide_eq_true_eq] at small
  have written : ∀ value : Fin 8, (Nat.digitChar value).toNat = '0'.toNat + value := by decide
  refine ⟨⟨⟨value, small⟩, false⟩, Char.toNat_inj.mp ?_⟩
  change c.toNat = (Nat.digitChar value).toNat
  rw [written ⟨value, small⟩]
  split_ifs at valued with decimal lower upper
  all_goals
    simp only [Bool.and_eq_true, decide_eq_true_eq, Char.le_def, UInt32.le_iff_toNat_le,
      Char.toNat_val, Char.reduceToNat] at *
    cases valued
    omega

end

variable {raw : String} {rest : List Char}

theorem escape_escaped {letter c : Char} (known : (letter, c) ∈ letterEscapes) :
    escape raw (letter :: rest) = .ok (Utf8.encode [c], 1) := by
  have checked : ∀ pair ∈ letterEscapes, simpleEscape? pair.1 = some (UInt8.ofNat pair.2.toNat) ∧
      Utf8.encode [pair.2] = [UInt8.ofNat pair.2.toNat] := by decide
  obtain ⟨read, encoded⟩ := checked _ known
  rw [escape, read, encoded]

theorem escape_hexByte (high low : Digit 16) :
    escape raw ('x' :: high.char :: low.char :: rest) =
      .ok ([UInt8.ofNat (Digit.number [high, low])], 3) := by
  have read : numeral? 16 2 0 (high.char :: low.char :: rest) = some (Digit.number [high, low]) :=
    numeral?_append le_rfl [high, low] 0 rest
  simp only [escape, show simpleEscape? 'x' = none from rfl, if_true, read]

theorem escape_octal (high middle low : Digit 8) :
    escape raw (high.char :: middle.char :: low.char :: rest) =
      if Digit.number [high, middle, low] < 256 then
        .ok ([UInt8.ofNat (Digit.number [high, middle, low])], 3)
      else .error (.path (.badEscape raw)) := by
  have checked : ∀ (value : Fin 8) (capital : Bool),
      let c := (⟨value, capital⟩ : Digit 8).char
      simpleEscape? c = none ∧ c ≠ 'x' ∧ c ≠ 'u' ∧ c ≠ 'U' := by decide
  obtain ⟨simple, x, u, U⟩ := checked high.value high.capital
  have read : numeral? 8 3 0 (high.char :: middle.char :: low.char :: rest) =
      some (Digit.number [high, middle, low]) :=
    numeral?_append (by decide) [high, middle, low] 0 rest
  simp only [escape, simple, if_neg x, if_neg u, if_neg U, read]

theorem escape_point (mark : PointMark) {digits : List (Digit 16)}
    (full : digits.length = mark.count) :
    escape raw (mark.letter :: (digits.map Digit.char ++ rest)) =
      if (Digit.number digits).isValidChar then
        .ok (Utf8.encode [Char.ofNat (Digit.number digits)], mark.count + 1)
      else .error (.path (.badEscape raw)) := by
  have read : numeral? 16 mark.count 0 (digits.map Digit.char ++ rest) =
      some (Digit.number digits) :=
    full ▸ numeral?_append le_rfl digits 0 rest
  cases mark with
  | short =>
    simp only [PointMark.letter, PointMark.count] at read ⊢
    simp [escape, simpleEscape?, codePointEscape, read]
  | long =>
    simp only [PointMark.letter, PointMark.count] at read ⊢
    simp [escape, simpleEscape?, codePointEscape, read]

theorem mem_letterEscapes_of_simpleEscape? {c : Char} {byte : UInt8}
    (known : simpleEscape? c = some byte) : (c, Char.ofNat byte.toNat) ∈ letterEscapes := by
  unfold simpleEscape? at known
  split at known
  all_goals cases known
  all_goals decide

theorem escape_stray {c : Char} (unknown : ∀ meant, (c, meant) ∉ letterEscapes)
    (other : c ≠ 'x' ∧ c ≠ 'u' ∧ c ≠ 'U' ∧ ∀ digit : Digit 8, c ≠ digit.char) :
    escape raw (c :: rest) = .error (.path (.badEscape raw)) := by
  obtain ⟨x, u, U, octal⟩ := other
  have simple : simpleEscape? c = none := by
    cases known : simpleEscape? c with
    | none => rfl
    | some byte => exact absurd (mem_letterEscapes_of_simpleEscape? known) (unknown _)
  have digit : digit? 8 c = none := by
    cases read : digit? 8 c with
    | none => rfl
    | some value =>
      obtain ⟨digit, same⟩ := exists_digit_of_digit? read
      exact absurd same (octal digit)
  simp only [escape, simple, if_neg x, if_neg u, if_neg U, numeral?, digit]

/-! ## Items are found -/

/-- Where one item ends the next one starts. -/
theorem bytesFrom_item_append (item : Item) (rest : List Char) :
    bytesFrom raw 0 (item.source ++ rest) = (bytesFrom raw 0 rest).map (item.bytes ++ ·) := by
  have after {tail : List Char} {bytes : List UInt8}
      (read : escape raw (tail ++ rest) = .ok (bytes, tail.length)) :
      bytesFrom raw 0 ('\\' :: tail ++ rest) = (bytesFrom raw 0 rest).map (bytes ++ ·) := by
    rw [List.cons_append, bytesFrom, if_pos rfl, read]
    simp only
    rw [bytesFrom_eq_drop, List.drop_left]
  cases item with
  | verbatim c plain =>
    rw [Item.source, List.singleton_append, bytesFrom, if_neg plain.1]
    rfl
  | escaped letter c known => exact after (escape_escaped known)
  | hexByte high low => exact after (escape_hexByte high low)
  | octalByte high middle low byte =>
    exact after ((escape_octal high middle low).trans (if_pos (by omega)))
  | point mark digits full scalar =>
    apply after
    rw [List.cons_append, escape_point mark full, if_pos scalar, List.length_cons, List.length_map,
      full]
    rfl

theorem bytesFrom_items_append (items : List Item) (rest : List Char) :
    bytesFrom raw 0 (items.flatMap Item.source ++ rest) =
      (bytesFrom raw 0 rest).map (items.flatMap Item.bytes ++ ·) := by
  induction items with
  | nil =>
    change bytesFrom raw 0 rest = (bytesFrom raw 0 rest).map id
    rw [Except.map_id]
    rfl
  | cons item items ih =>
    rw [List.flatMap_cons, List.append_assoc, bytesFrom_item_append, ih]
    cases bytesFrom raw 0 rest with
    | error fault => rfl
    | ok bytes => simp [Except.map]

theorem bytesFrom_items (items : List Item) :
    bytesFrom raw 0 (items.flatMap Item.source) = .ok (items.flatMap Item.bytes) := by
  have read := @bytesFrom_items_append raw items []
  rw [List.append_nil, bytesFrom] at read
  rw [read, Except.map, List.append_nil]

theorem bytesFrom_flaw_append (flaw : Flaw) (rest : List Char) :
    bytesFrom raw 0 (flaw.source ++ rest) = .error (.path (.badEscape raw)) := by
  have after {tail : List Char}
      (refused : escape raw (tail ++ rest) = .error (.path (.badEscape raw))) :
      bytesFrom raw 0 ('\\' :: tail ++ rest) = .error (.path (.badEscape raw)) := by
    rw [List.cons_append, bytesFrom, if_pos rfl, refused]
  cases flaw with
  | octal high middle low beyond =>
    exact after ((escape_octal high middle low).trans (if_neg (by omega)))
  | point mark digits full unfit =>
    have invalid : ¬ (Digit.number digits).isValidChar := by
      rw [Nat.isValidChar]
      omega
    exact after ((escape_point mark full).trans (if_neg invalid))
  | stray c unknown other => exact after (escape_stray unknown other)

/-! ## Literals -/

theorem toList_quoted (inside : List Char) : (quoted inside).toList = '"' :: (inside ++ ['"']) :=
  String.toList_ofList

theorem unquote_quoted (inside : List Char) :
    unquote (quoted inside) = (bytesFrom (quoted inside) 0 inside).map fun bytes =>
      String.ofList (Utf8.decode bytes) := by
  have written := toList_quoted inside
  rw [unquote, between?_rawMark written, between?_eq_some_iff.mpr written]

/-- A literal that is not closed is none. -/
theorem unquote_open {chars : List Char} (start : raw.toList = '"' :: chars)
    (unclosed : chars.getLast? ≠ some '"') : unquote raw = .error (.path (.notString raw)) := by
  have none : between? '"' raw.toList = none := by
    cases marked : between? '"' raw.toList with
    | none => rfl
    | some inside =>
      rw [between?_eq_some_iff, start, List.cons.injEq] at marked
      rw [marked.2, List.getLast?_concat] at unclosed
      exact absurd rfl unclosed
  rw [unquote, between?_rawMark start, none]

theorem Flaw.source_ne_nil (flaw : Flaw) : flaw.source ≠ [] := by
  cases flaw <;> exact List.cons_ne_nil _ _

theorem Flaw.getLast?_source (flaw : Flaw) : flaw.source.getLast? ≠ some '"' := by
  cases flaw with
  | octal high middle low beyond =>
    intro last
    exact low.char_ne_quote (by decide) (Option.some.inj last)
  | point mark digits full unfit =>
    rcases List.eq_nil_or_concat' digits with rfl | ⟨front, digit, rfl⟩
    · cases mark <;> cases full
    · rw [source, List.map_append, List.map_singleton, ← List.cons_append, ← List.cons_append,
        List.getLast?_concat]
      intro last
      exact digit.char_ne_quote le_rfl (Option.some.inj last)
  | stray c unknown other =>
    intro last
    obtain rfl : c = '"' := Option.some.inj last
    exact unknown '"' (by decide)

theorem Spells.flatMap_bytes {chars : List Char} {items : List Item}
    (spelled : Spells chars items) :
    items.flatMap Item.bytes = Utf8.encode chars := by
  have single {c : Char} {front : List Item} (spelled : SpellsChar c front) :
      front.flatMap Item.bytes = Utf8.encode [c] := by
    cases spelled with
    | verbatim plain => exact List.append_nil _
    | escaped known => exact List.append_nil _
    | point full scalar => exact List.append_nil _
    | bytes single encoded => exact encoded
  induction spelled with
  | nil => rfl
  | cons first _ ih =>
    rw [List.flatMap_append, single first, ih]
    simp [Utf8.encode]

theorem unquote_items (items : List Item) :
    unquote (quoted (items.flatMap Item.source)) =
      .ok (String.ofList (Utf8.decode (items.flatMap Item.bytes))) := by
  rw [unquote_quoted, bytesFrom_items]
  rfl

theorem unquote_flawed (items : List Item) (flaw : Flaw) (after : List Char) {flawed : String}
    (written : flawed.toList = '"' :: (items.flatMap Item.source ++ flaw.source ++ after)) :
    unquote flawed = .error (.path
      (if after.getLast? = some '"' then .badEscape flawed else .notString flawed)) := by
  split_ifs with closed
  · obtain ⟨before, rfl⟩ := List.getLast?_eq_some_iff.mp closed
    obtain rfl : flawed = quoted (items.flatMap Item.source ++ (flaw.source ++ before)) := by
      rw [← String.toList_inj, written, toList_quoted]
      simp
    rw [unquote_quoted, bytesFrom_items_append, bytesFrom_flaw_append]
    rfl
  · refine unquote_open written ?_
    rw [List.getLast?_append, List.getLast?_append]
    intro last
    rcases Option.or_eq_some_iff.mp last with ending | ⟨-, last⟩
    · exact closed ending
    · rcases Option.or_eq_some_iff.mp last with ending | ⟨none, -⟩
      · exact flaw.getLast?_source ending
      · exact flaw.source_ne_nil (List.getLast?_eq_none_iff.mp none)

/-- A sequence of items in quotes denotes the text that the bytes of the items are read as: encoded
characters, and a replacement for each part that encodes nothing. So if the items spell a text, each
character as it is, by an escape of its own or byte by byte, they denote this text. If an escape
that denotes nothing follows the items, then whatever comes after it, what begins like this in a
quote denotes no text and is reported as not readable. -/
theorem literals_denote_their_items (items : List Item) :
    let raw := quoted (items.flatMap Item.source)
    let bytes := items.flatMap Item.bytes
    unquote raw = .ok (String.ofList (Utf8.decode bytes)) ∧
    (∀ chars, Utf8.ReadAs bytes chars ↔ chars = Utf8.decode bytes) ∧
    (∀ text : String, Spells text.toList items → unquote raw = .ok text) ∧
    ∀ (flaw : Flaw) (after : List Char),
      let flawed := String.ofList ('"' :: (items.flatMap Item.source ++ flaw.source ++ after))
      unquote flawed = .error (.path
        (if after.getLast? = some '"' then .badEscape flawed else .notString flawed)) := by
  intro raw bytes
  refine ⟨unquote_items items, fun chars => Utf8.readAs_iff, ?_, ?_⟩
  · intro text spelled
    rw [unquote_items, spelled.flatMap_bytes, Utf8.decode_encode, String.ofList_toList]
  · intro flaw after
    exact unquote_flawed items flaw after String.toList_ofList

/-- The digits of a code point, one of them a capital letter. -/
def pointDigits : List (Digit 16) :=
  [0, 0, 0, 1, 15, 6, 0, 0].map fun value => ⟨value, true⟩

/-- Two bytes in digits of both kinds, a plain character, a letter escape and a code point. -/
def mixedItems : List Item :=
  [.hexByte ⟨12, true⟩ ⟨3, false⟩, .octalByte ⟨2, false⟩ ⟨5, false⟩ ⟨1, false⟩ (by decide),
    .verbatim '/' (by decide), .escaped 't' '\t' (by decide),
    .point .long pointDigits rfl (.inr (by decide))]

theorem spells_mixedItems : Spells ['é', '/', '\t', '😀'] mixedItems := by
  have first : SpellsChar 'é' (mixedItems.take 2) := by
    refine .bytes ?_ (by decide +kernel)
    simp [mixedItems, Item.IsByte]
  have last : SpellsChar (Char.ofNat (Digit.number pointDigits)) (mixedItems.drop 4) :=
    .point rfl _
  rw [show Char.ofNat (Digit.number pointDigits) = '😀' by decide] at last
  exact .cons first (.cons (.verbatim _) (.cons (.escaped _) (.cons last .nil)))

theorem literals_denote_their_items_mixed :
    Spells "é/\t😀".toList mixedItems ∧
    unquote "\"\\xC3\\251/\\t\\U0001F600\"" = .ok "é/\t😀" ∧
    unquote "\"\\xC3\\251/\\t\\U0001F600\\400, \\q\"" =
      .error (.path (.badEscape "\"\\xC3\\251/\\t\\U0001F600\\400, \\q\"")) := by
  have spelled : Spells "é/\t😀".toList mixedItems := by
    rw [show "é/\t😀".toList = ['é', '/', '\t', '😀'] by decide]
    exact spells_mixedItems
  obtain ⟨-, -, denoted, flawed⟩ := literals_denote_their_items mixedItems
  refine ⟨spelled, denoted _ spelled, ?_⟩
  exact flawed (.octal ⟨4, false⟩ ⟨0, false⟩ ⟨0, false⟩ (by decide)) ", \\q\"".toList

end AssetRefs.GoString
