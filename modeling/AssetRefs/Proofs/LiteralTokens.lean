import AssetRefs.Go.Token
import AssetRefs.Proofs.OpenNodes

/-! # Literal tokens

A string token has two hexadecimal digits after every `\x` in it. The tokens are found byte by byte
and their texts are read as UTF-8, so this needs that what is ASCII stays as it is when bytes are
read. With it, every tree that the parser gives is sound: see `Go.sound_of_parse?`.
-/

namespace AssetRefs

namespace Text.Utf8

/-! ## Reading bytes -/

theorem decodeFrom_eq_drop (skip : Nat) (bytes : List UInt8) :
    decodeFrom skip bytes = decode (bytes.drop skip) := by
  induction bytes generalizing skip with
  | nil => cases skip <;> rfl
  | cons byte rest ih =>
    cases skip with
    | zero => rfl
    | succ skip => exact ih skip

theorem decode_cons (lead : UInt8) (rest : List UInt8) :
    decode (lead :: rest) =
      (head lead rest).1.getD replacement :: decode (rest.drop (head lead rest).2) := by
  rw [← decodeFrom_eq_drop]
  rfl

theorem decode_cons_of_ascii {lead : UInt8} (ascii : lead < 0x80) (rest : List UInt8) :
    decode (lead :: rest) = Char.ofNat lead.toNat :: decode rest := by
  simp [decode_cons, head, ascii]

/-- A byte that can only continue a sequence. -/
def Continues (byte : UInt8) : Prop := 0x80 ≤ byte ∧ byte ≤ 0xBF

theorem decode_cons_of_continues {lead : UInt8} (continues : Continues lead) (rest : List UInt8) :
    decode (lead :: rest) = replacement :: decode rest := by
  have wide : ¬ lead < 0x80 := UInt8.not_lt.mpr continues.1
  have narrow : lead < 0xC2 := UInt8.lt_of_le_of_lt continues.2 (by decide)
  simp [decode_cons, head, wide, narrow]

/-- A character that is not ASCII, or the one that stands for codes without a character. -/
def IsWide (c : Char) : Prop := c.toNat = 0 ∨ 0x80 ≤ c.toNat

theorem isWide_replacement : IsWide replacement := .inr (by decide)

theorem toNat_ofNat {code : Nat} (valid : code.isValidChar) : (Char.ofNat code).toNat = code := by
  rw [Char.ofNat, dif_pos valid]
  rfl

theorem isWide_ofNat {code : Nat} (wide : 0x80 ≤ code) : IsWide (Char.ofNat code) := by
  by_cases valid : code.isValidChar
  · rw [IsWide, toNat_ofNat valid]
    exact .inr wide
  · rw [Char.ofNat, dif_neg valid]
    exact .inl rfl

/-- What was read is no ASCII character, and takes only bytes that can continue one. -/
def IsSequence (rest : List UInt8) (read : Option Char × Nat) : Prop :=
  IsWide (read.1.getD replacement) ∧ ∀ byte ∈ rest.take read.2, Continues byte

section

variable {low high lead : UInt8} {rest : List UInt8}

theorem continues_of_within (least : 0x80 ≤ low) (most : high ≤ 0xBF) {byte : UInt8}
    (within : continues low high byte) : Continues byte := by
  simp only [continues, Bool.and_eq_true, decide_eq_true_eq] at within
  exact ⟨UInt8.le_trans least within.1, UInt8.le_trans within.2 most⟩

theorem continues_of_continuation {byte : UInt8} (within : continues 0x80 0xBF byte) :
    Continues byte :=
  continues_of_within (by decide) (by decide) within

theorem isSequence_none (rest : List UInt8) : IsSequence rest (none, 0) :=
  ⟨isWide_replacement, by simp⟩

theorem isSequence_head2 (wide : 2 ≤ lead.toNat % 32) : IsSequence rest (head2 lead rest) := by
  unfold head2
  split
  · split_ifs with first
    · exact ⟨isWide_ofNat (by omega), by simpa using continues_of_continuation first⟩
    · exact isSequence_none _
  · exact isSequence_none _

theorem isSequence_head3 (least : 0x80 ≤ low) (most : high ≤ 0xBF)
    (wide : ∀ byte, continues low high byte → 2 ≤ lead.toNat % 16 * 64 + payload byte) :
    IsSequence rest (head3 low high lead rest) := by
  unfold head3
  split
  · split_ifs with first second
    · have enough := wide _ first
      exact ⟨isWide_ofNat (by omega), by
        simpa using ⟨continues_of_within least most first, continues_of_continuation second⟩⟩
    · exact ⟨isWide_replacement, by simpa using continues_of_within least most first⟩
    · exact isSequence_none _
  · split_ifs with first
    · exact ⟨isWide_replacement, by simpa using continues_of_within least most first⟩
    · exact isSequence_none _
  · exact isSequence_none _

theorem isSequence_head4 (least : 0x80 ≤ low) (most : high ≤ 0xBF)
    (wide : ∀ byte, continues low high byte → 1 ≤ lead.toNat % 8 * 64 + payload byte) :
    IsSequence rest (head4 low high lead rest) := by
  unfold head4
  split
  · split_ifs with first second third
    · have enough := wide _ first
      exact ⟨isWide_ofNat (by omega), by
        simpa using ⟨continues_of_within least most first, continues_of_continuation second,
          continues_of_continuation third⟩⟩
    · exact ⟨isWide_replacement, by
        simpa using ⟨continues_of_within least most first, continues_of_continuation second⟩⟩
    · exact ⟨isWide_replacement, by simpa using continues_of_within least most first⟩
    · exact isSequence_none _
  · split_ifs with first second
    · exact ⟨isWide_replacement, by
        simpa using ⟨continues_of_within least most first, continues_of_continuation second⟩⟩
    · exact ⟨isWide_replacement, by simpa using continues_of_within least most first⟩
    · exact isSequence_none _
  · split_ifs with first
    · exact ⟨isWide_replacement, by simpa using continues_of_within least most first⟩
    · exact isSequence_none _
  · exact isSequence_none _

/-- What starts with a byte that is not ASCII is read as no ASCII character. -/
theorem isSequence_head (wide : 0x80 ≤ lead) (rest : List UInt8) :
    IsSequence rest (head lead rest) := by
  unfold head
  rw [if_neg (UInt8.not_lt.mpr wide)]
  simp only [UInt8.lt_iff_toNat_lt, ← UInt8.toNat_inj, UInt8.reduceToNat]
  split_ifs
  · exact isSequence_none _
  · exact isSequence_head2 (by omega)
  all_goals try exact isSequence_none _
  all_goals
    first
    | refine isSequence_head3 (by decide) (by decide) fun byte within => ?_
    | refine isSequence_head4 (by decide) (by decide) fun byte within => ?_
    simp only [continues, payload, Bool.and_eq_true, decide_eq_true_eq, UInt8.le_iff_toNat_le,
      UInt8.reduceToNat] at within ⊢
    omega

/-- A byte that is not ASCII stands for no ASCII character, and all bytes that are read with it
could have been read one by one. -/
theorem decode_cons_of_wide (wide : 0x80 ≤ lead) (rest : List UInt8) :
    ∃ c taken, IsWide c ∧ decode (lead :: rest) = c :: decode (rest.drop taken) ∧
      ∃ skipped, (∀ c ∈ skipped, c = replacement) ∧
        decode rest = skipped ++ decode (rest.drop taken) := by
  obtain ⟨unusual, continued⟩ := isSequence_head wide rest
  refine ⟨_, _, unusual, decode_cons lead rest, ?_⟩
  generalize (head lead rest).2 = taken at continued
  clear unusual
  induction taken generalizing rest with
  | zero => exact ⟨[], by simp, rfl⟩
  | succ taken ih =>
    cases rest with
    | nil => exact ⟨[], by simp, rfl⟩
    | cons byte rest =>
      rw [List.take_succ_cons, List.forall_mem_cons] at continued
      obtain ⟨skipped, replaced, same⟩ := ih rest continued.2
      refine ⟨replacement :: skipped, by simpa using replaced, ?_⟩
      rw [decode_cons_of_continues continued.1, same]
      rfl

end

end Text.Utf8

namespace GoString

/-! ## Spelled strings -/

/-- The inside of an interpreted literal and what follows it, with two hexadecimal digits after
every `\x`. -/
inductive Spelled : List Char → Prop where
  | nil : Spelled []
  | plain {c : Char} {rest : List Char} : c ≠ '\\' → Spelled rest → Spelled (c :: rest)
  | escape {c : Char} {rest : List Char} : (c = 'x' → StartsWithHexDigits rest) → Spelled rest →
      Spelled ('\\' :: c :: rest)

section

variable {raw : String} {chars rest : List Char}

theorem Spelled.of_plain {c : Char} (different : c ≠ '\\') (spelled : Spelled (c :: rest)) :
    Spelled rest := by
  cases spelled with
  | plain _ later => exact later
  | escape => exact absurd rfl different

theorem Spelled.of_escape {c : Char} (spelled : Spelled ('\\' :: c :: rest)) :
    (c = 'x' → StartsWithHexDigits rest) ∧ Spelled rest := by
  cases spelled with
  | plain different _ => exact absurd rfl different
  | escape digits later => exact ⟨digits, later⟩

theorem Spelled.of_append (spelled : Spelled (chars ++ rest)) (plain : ∀ c ∈ chars, c ≠ '\\') :
    Spelled rest := by
  induction chars with
  | nil => exact spelled
  | cons c chars ih =>
    rw [List.forall_mem_cons] at plain
    exact ih (spelled.of_plain plain.1) plain.2

theorem ne_backslash_of_digit? {base value : Nat} {c : Char} (digit : digit? base c = some value) :
    c ≠ '\\' := by
  rintro rfl
  simp [digit?] at digit

theorem Spelled.drop_numeral {base count value number : Nat} (spelled : Spelled (chars ++ rest))
    (read : numeral? base count value chars = some number) :
    Spelled (chars.drop count ++ rest) := by
  induction count generalizing chars value with
  | zero => exact spelled
  | succ count ih =>
    cases chars with
    | nil => cases read
    | cons c chars =>
      rw [numeral?] at read
      split at read
      · cases read
      · next digit => exact ih (spelled.of_plain (ne_backslash_of_digit? digit)) read

/-- What is left after an escape is spelled as well. -/
theorem Spelled.drop_escape {bytes : List UInt8} {taken : Nat}
    (spelled : Spelled ('\\' :: (chars ++ ['"'])))
    (read : GoString.escape raw chars = .ok (bytes, taken)) :
    Spelled (chars.drop taken ++ ['"']) := by
  cases chars with
  | nil =>
    cases read
    exact .plain (by decide) .nil
  | cons c chars =>
    obtain ⟨_, later⟩ := spelled.of_escape
    have codePoint {count : Nat} (read : codePointEscape raw count chars = .ok (bytes, taken)) :
        Spelled ((c :: chars).drop taken ++ ['"']) := by
      unfold codePointEscape at read
      split at read
      · cases read
      · next numeral =>
        split_ifs at read
        cases read
        exact later.drop_numeral numeral
    rw [GoString.escape] at read
    split at read
    · cases read
      exact later
    · split_ifs at read
      · split at read
        · next numeral =>
          cases read
          exact later.drop_numeral numeral
        · cases read
      · exact codePoint read
      · exact codePoint read
      · split at read
        · next byte numeral =>
          split_ifs at read
          cases read
          rw [numeral?] at numeral
          split at numeral
          · cases numeral
          · exact later.drop_numeral numeral
        · cases read

theorem Spelled.of_reads (spelled : Spelled (chars ++ ['"'])) (reads : Reads raw chars rest) :
    Spelled (rest ++ ['"']) := by
  induction reads with
  | here => exact spelled
  | plain different _ ih => exact ih (spelled.of_plain different)
  | escape read _ ih => exact ih (spelled.drop_escape read)

/-- A literal that is spelled with its digits does not lack any. -/
theorem Spelled.not_lacksHexDigits (spelled : Spelled chars) (quoted : raw.toList = '"' :: chars) :
    ¬ LacksHexDigits raw := by
  rintro ⟨inside, rest, ends, reads, lacking⟩
  obtain rfl : chars = inside ++ ['"'] := List.cons.inj (quoted.symm.trans ends) |>.2
  obtain ⟨digits, _⟩ := (spelled.of_reads reads).of_escape
  obtain ⟨high, low, more, same, first, second⟩ := digits rfl
  rcases rest with _ | ⟨_, _ | ⟨_, rest⟩⟩
  · cases same
  · cases same
    exact absurd second (by decide)
  · cases same
    exact lacking ⟨high, low, rest, rfl, first, second⟩

end

end GoString

namespace Go.Token

open Text.Utf8 GoString

/-! ## String tokens -/

/-- The bytes of an interpreted literal after its opening quote, with two hexadecimal digits after
every `\x`. -/
inductive Quoted : List UInt8 → Prop where
  | close {byte : UInt8} : isByte '"' byte → Quoted [byte]
  | plain {byte : UInt8} {rest : List UInt8} : isByte '\\' byte = false → Quoted rest →
      Quoted (byte :: rest)
  | escape {slash byte : UInt8} {rest : List UInt8} : isByte '\\' slash →
      (isByte 'x' byte → hexAhead 2 rest) → Quoted rest → Quoted (slash :: byte :: rest)

theorem isByte_iff {c : Char} {byte : UInt8} : isByte c byte ↔ byte.toNat = c.toNat := by
  simp [isByte]

theorem hexAhead_two_iff {bytes : List UInt8} : hexAhead 2 bytes ↔
    ∃ high low rest, bytes = high :: low :: rest ∧ isHex high ∧ isHex low := by
  rcases bytes with _ | ⟨high, _ | ⟨low, rest⟩⟩
  · simp [hexAhead]
  · simp [hexAhead]
  · simp [hexAhead]

theorem Quoted.hexAhead_take {bytes : List UInt8} {count : Nat} (quoted : Quoted (bytes.take count))
    (digits : hexAhead 2 bytes) : hexAhead 2 (bytes.take count) := by
  obtain ⟨high, low, rest, rfl, first, second⟩ := hexAhead_two_iff.mp digits
  rcases count with _ | _ | count
  · cases quoted
  · cases quoted with
    | close quote =>
      obtain rfl : high = 0x22 := UInt8.toNat_inj.mp (isByte_iff.mp quote)
      exact absurd first (by decide)
    | plain _ later => cases later
  · exact hexAhead_two_iff.mpr ⟨high, low, _, rfl, first, second⟩

/-- The bytes up to the end of a string are quoted; after a backslash, those but the next one. -/
theorem quoted_of_stringTail {bytes : List UInt8} {count length : Nat} {escaped : Bool}
    (ended : stringTail count escaped bytes = some length) :
    ∃ taken, length = count + taken ∧ if escaped then ∃ byte rest more, bytes = byte :: rest ∧
        taken = more + 1 ∧ Quoted (rest.take more)
      else Quoted (bytes.take taken) := by
  induction bytes generalizing count escaped with
  | nil => cases escaped <;> cases ended
  | cons byte rest ih =>
    cases escaped with
    | true =>
      obtain ⟨taken, rfl, quoted⟩ := ih (show stringTail (count + 1) false rest = _ from ended)
      exact ⟨taken + 1, by omega, byte, rest, taken, rfl, rfl, quoted⟩
    | false =>
      rw [stringTail] at ended
      split_ifs at ended with quote stop slash ahead
      · cases ended
        exact ⟨1, rfl, .close quote⟩
      · obtain ⟨_, rfl, escaped, more, taken, rfl, rfl, quoted⟩ := ih ended
        refine ⟨taken + 2, by omega, .escape slash ?_ quoted⟩
        intro hex
        refine quoted.hexAhead_take ?_
        simp only [escapeAhead, hex, if_true] at ahead
        split_ifs at ahead
        exact ahead
      · obtain ⟨taken, rfl, quoted⟩ := ih ended
        exact ⟨taken + 1, by omega, .plain (by simpa using slash) quoted⟩

theorem isSome_digit?_of_isHex {byte : UInt8} (hex : isHex byte) :
    byte < 0x80 ∧ (digit? 16 (Char.ofNat byte.toNat)).isSome := by
  have all : ∀ code < 256, isHex (UInt8.ofNat code) →
      UInt8.ofNat code < 0x80 ∧ (digit? 16 (Char.ofNat (UInt8.ofNat code).toNat)).isSome := by
    decide +kernel
  have here := all byte.toNat byte.toNat_lt
  rw [UInt8.ofNat_toNat] at here
  exact here hex

theorem startsWithHexDigits_of_hexAhead {bytes : List UInt8} (digits : hexAhead 2 bytes) :
    StartsWithHexDigits (decode bytes) := by
  obtain ⟨high, low, rest, rfl, first, second⟩ := hexAhead_two_iff.mp digits
  obtain ⟨highAscii, highDigit⟩ := isSome_digit?_of_isHex first
  obtain ⟨lowAscii, lowDigit⟩ := isSome_digit?_of_isHex second
  rw [decode_cons_of_ascii highAscii, decode_cons_of_ascii lowAscii]
  exact ⟨_, _, _, rfl, highDigit, lowDigit⟩

theorem ofNat_toNat_eq_iff {byte : UInt8} (ascii : byte < 0x80) {c : Char} :
    Char.ofNat byte.toNat = c ↔ isByte c byte := by
  have small : byte.toNat < 0x80 := UInt8.lt_iff_toNat_lt.mp ascii
  rw [isByte_iff]
  constructor
  · rintro rfl
    have valid : byte.toNat.isValidChar := .inl (by omega)
    rw [toNat_ofNat valid]
  · intro same
    rw [same, Char.ofNat_toNat]

/-- Bytes with the digits for their escapes are read as characters with them. -/
theorem Quoted.spelled {bytes : List UInt8} (quoted : Quoted bytes) : Spelled (decode bytes) := by
  -- Bytes that are not ASCII may be read together; read one by one they are plain as well.
  have unread {byte : UInt8} {rest : List UInt8} (wide : 0x80 ≤ byte)
      (later : Spelled (decode rest)) :
      ∃ c chars, decode (byte :: rest) = c :: chars ∧ IsWide c ∧ Spelled chars := by
    obtain ⟨c, taken, unusual, read, skipped, replaced, same⟩ := decode_cons_of_wide wide rest
    rw [same] at later
    refine ⟨c, _, read, unusual, later.of_append fun c member => ?_⟩
    rw [replaced c member]
    decide
  induction quoted with
  | @close byte quote =>
    obtain rfl : byte = 0x22 := UInt8.toNat_inj.mp (isByte_iff.mp quote)
    exact .plain (by decide) .nil
  | @plain byte rest different _ ih =>
    by_cases ascii : byte < 0x80
    · rw [decode_cons_of_ascii ascii]
      exact .plain (fun same => by simp [(ofNat_toNat_eq_iff ascii).mp same] at different) ih
    · obtain ⟨c, chars, read, unusual, spelled⟩ := unread (UInt8.not_lt.mp ascii) ih
      rw [read]
      refine .plain ?_ spelled
      rintro rfl
      exact absurd unusual (by unfold IsWide; decide)
  | @escape slash byte rest backslash digits _ ih =>
    obtain rfl : slash = 0x5C := UInt8.toNat_inj.mp (isByte_iff.mp backslash)
    rw [decode_cons_of_ascii (by decide)]
    by_cases ascii : byte < 0x80
    · rw [decode_cons_of_ascii ascii]
      refine .escape (fun hex => ?_) ih
      exact startsWithHexDigits_of_hexAhead (digits ((ofNat_toNat_eq_iff ascii).mp hex))
    · obtain ⟨c, chars, read, unusual, spelled⟩ := unread (UInt8.not_lt.mp ascii) ih
      rw [read]
      refine .escape ?_ spelled
      rintro rfl
      exact absurd unusual (by unfold IsWide; decide)

/-! ## All tokens -/

/-- The token that some bytes are read as becomes a sound node. -/
def IsSound (bytes : List UInt8) : TokenKind → Prop
  | .mark text => Concrete.isBuilt text []
  | .literal kind =>
    kind ∈ Concrete.literalKinds ∧ ¬ LacksHexDigits (String.ofList (decode bytes))
  | _ => True

theorem isSound_wordKind (bytes : List UInt8) (text : String) : IsSound bytes (wordKind text) := by
  have keyword : ∀ text ∈ keywords, Concrete.isBuilt text [] := by decide
  unfold wordKind
  split_ifs with member
  · exact keyword text (List.contains_iff_mem.mp member)
  · trivial

theorem isBuilt_of_punctuation? {bytes : List UInt8} {text : String}
    (found : punctuation? bytes = some text) : Concrete.isBuilt text [] := by
  have mark : ∀ text ∈ punctuation, Concrete.isBuilt text [] := by decide
  unfold punctuation? at found
  exact mark text (List.mem_of_find?_eq_some found)

theorem mem_literalKinds_of_number {bytes : List UInt8} {kind : String} {length : Nat}
    (found : number bytes = some (kind, length)) : kind ∈ Concrete.literalKinds := by
  have numbers : "int_literal" ∈ Concrete.literalKinds ∧ "float_literal" ∈ Concrete.literalKinds ∧
      "imaginary_literal" ∈ Concrete.literalKinds := by decide
  unfold number at found
  generalize integer bytes = first, floating bytes = second, imaginary bytes = third at found
  rcases first with _ | first <;> rcases second with _ | second <;> rcases third with _ | third
  all_goals grind

/-- Only a string that starts with a quote can lack digits. -/
theorem not_lacksHexDigits_of_ascii {lead : UInt8} (ascii : lead < 0x80)
    (unquoted : Char.ofNat lead.toNat ≠ '"') (rest : List UInt8) :
    ¬ LacksHexDigits (String.ofList (decode (lead :: rest))) := by
  rintro ⟨inside, _, quoted, _⟩
  rw [String.toList_ofList, decode_cons_of_ascii ascii] at quoted
  exact unquoted (List.cons.inj quoted).1

theorem isSound_of_lexeme {lead : UInt8} {rest : List UInt8} {kind : TokenKind} {extra : Nat}
    (read : lexeme lead rest = .token kind extra) : IsSound (lead :: rest.take extra) kind := by
  unfold lexeme at read
  dsimp only at read
  split at read
  · next ascii =>
    split_ifs at read with space word quote raw rune line block
    · cases read
      exact isSound_wordKind _ _
    · split at read
      · next tail =>
        cases read
        obtain ⟨taken, rfl, quoted⟩ := quoted_of_stringTail tail
        rw [Nat.zero_add]
        refine ⟨by decide, quoted.spelled.not_lacksHexDigits ?_⟩
        rw [String.toList_ofList, decode_cons_of_ascii ascii, quote]
      · cases read
    · split at read
      · cases read
        exact ⟨by decide, not_lacksHexDigits_of_ascii ascii quote _⟩
      · cases read
    · split at read
      · cases read
        exact ⟨by decide, not_lacksHexDigits_of_ascii ascii quote _⟩
      · cases read
    · split at read <;> cases read
    · split at read
      · next found =>
        cases read
        exact ⟨mem_literalKinds_of_number found, not_lacksHexDigits_of_ascii ascii quote _⟩
      · next found =>
        cases read
        exact isBuilt_of_punctuation? found
      · cases read
  · split at read
    · cases read
    · split_ifs at read
      cases read
      exact isSound_wordKind _ _

end Go.Token

/-! ## Extents -/

theorem byteArray_toList_loop (bytes : ByteArray) (index : Nat) (read : List UInt8) :
    ByteArray.toList.loop bytes index read = read.reverse ++ bytes.data.toList.drop index := by
  fun_induction ByteArray.toList.loop bytes index read with
  | case1 index read inside ih =>
    have fits : index < bytes.data.toList.length := inside
    have here : bytes.get! index = bytes.data.toList[index] := getElem!_pos bytes.data index inside
    rw [ih, List.drop_eq_getElem_cons fits, here, List.reverse_cons, List.append_assoc,
      List.singleton_append]
  | case2 index read outside =>
    have short : bytes.data.toList.length ≤ index := Nat.not_lt.mp outside
    rw [List.drop_eq_nil_of_le short, List.append_nil]

theorem byteArray_toList (bytes : ByteArray) : bytes.toList = bytes.data.toList := by
  rw [ByteArray.toList, byteArray_toList_loop, List.reverse_nil, List.nil_append, List.drop_zero]

theorem byteArray_toList_extract (bytes : ByteArray) (start length : Nat) :
    (bytes.extract start (start + length)).toList = (bytes.toList.drop start).take length := by
  rw [byteArray_toList, byteArray_toList, ByteArray.data_extract, Array.toList_extract,
    List.extract_eq_take_drop, Nat.add_sub_cancel_left]

namespace Go

theorem Cursor.offset_over (cursor : Cursor) (bytes : List UInt8) :
    (cursor.over bytes).offset = cursor.offset + bytes.length := by
  unfold Cursor.over
  induction bytes generalizing cursor with
  | nil => rfl
  | cons byte rest ih =>
    rw [List.foldl_cons, ih, List.length_cons]
    split_ifs <;> simp only <;> omega

variable {source : ByteArray}

/-- A token with the extent of the bytes that it was read from becomes a sound node. -/
theorem tokenSound_of_isSound {token : Token} {bytes : List UInt8}
    (sound : Token.IsSound bytes token.kind)
    (extent : (source.extract token.place.offset token.stop).toList = bytes) :
    TokenSound source token := by
  rintro kind (mark | literal) named field
  · rw [mark] at sound
    exact .built sound (List.forall_mem_nil _)
  · rw [literal] at sound
    refine .literal sound.1 ?_
    rw [Concrete.text]
    simp only [Concrete.label, extent]
    exact sound.2

namespace TokenList

section

variable {cursor : Cursor} {lead : UInt8} {rest : List UInt8}

theorem drop_over (here : source.toList.drop cursor.offset = lead :: rest) (extra : Nat) :
    source.toList.drop (cursor.over (lead :: rest.take extra)).offset = rest.drop extra := by
  have split : lead :: rest = (lead :: rest.take extra) ++ rest.drop extra := by simp
  rw [Cursor.offset_over, ← List.drop_drop, here, split, List.drop_left]

theorem extract_over (here : source.toList.drop cursor.offset = lead :: rest) (extra : Nat) :
    (source.extract cursor.offset (cursor.over (lead :: rest.take extra)).offset).toList =
      lead :: rest.take extra := by
  have split : lead :: rest = (lead :: rest.take extra) ++ rest.drop extra := by simp
  rw [Cursor.offset_over, byteArray_toList_extract, here, split, List.take_left]

end

theorem tokenSound_of_scanFrom {cursor : Cursor} {afterBreak : Bool} {first : Option Cursor}
    {read : List Token} {bytes : List UInt8} {list : TokenList}
    (here : source.toList.drop cursor.offset = bytes)
    (earlier : ∀ token ∈ read, TokenSound source token)
    (scanned : scanFrom cursor afterBreak first read bytes = some list) :
    ∀ token ∈ list.tokens, TokenSound source token := by
  fun_induction scanFrom cursor afterBreak first read bytes with
  | case1 =>
    cases scanned
    simp only [List.mem_reverse, List.forall_mem_cons]
    exact ⟨nofun, earlier⟩
  | case2 => cases scanned
  | case3 _ _ _ _ _ _ extra _ ih => exact ih (drop_over here extra) earlier scanned
  | case4 _ _ _ _ _ _ extra _ ih => exact ih (drop_over here extra) earlier scanned
  | case5 _ _ _ _ _ _ kind extra lexed _ ih =>
    refine ih (drop_over here extra) (List.forall_mem_cons.mpr ⟨?_, earlier⟩) scanned
    exact tokenSound_of_isSound (Token.isSound_of_lexeme lexed) (extract_over here extra)

/-- All tokens of a source become sound nodes. -/
theorem tokenSound_of_scan {list : TokenList} (scanned : scan source.toList = some list) :
    ∀ token ∈ list.tokens, TokenSound source token := by
  unfold scan at scanned
  split at scanned
  · next rest marked =>
    refine tokenSound_of_scanFrom ?_ (List.forall_mem_nil _) scanned
    rw [marked]
    rfl
  · exact tokenSound_of_scanFrom rfl (List.forall_mem_nil _) scanned

end TokenList

/-- What the parser gives is sound. -/
theorem sound_of_parse? {root : Concrete} (parsed : parse? source = some root) :
    root.Sound source := by
  unfold parse? at parsed
  split at parsed
  · cases parsed
  · next list scanned =>
    obtain ⟨children, ran, rfl⟩ := Option.map_eq_some_iff.mp parsed
    refine .built rfl (Parser.sound_of_run ?_ ran)
    refine ⟨TokenList.tokenSound_of_scan scanned, by simp, ?_⟩
    simp

end Go

end AssetRefs
