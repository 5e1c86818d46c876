import AssetRefs.Proofs.CanonicalJson
import AssetRefs.Proofs.JsonGrammar

/-! # The texts of JSON values

The text of a value is written from its canonical form. It is ASCII (`Json.ascii_write`) and denotes
that form by the grammar of JSON (`Json.denotes_write`), so a reader gets the value back, and values
that differ in more than the order of members have different texts: see `json_texts_are_canonical`.
-/

namespace AssetRefs.Json

open GoString (Digit)

/-! ## Strings and numbers -/

/-- The digits of a number other than zero, without leading zeros. -/
theorem exists_digits {base : Nat} (large : 1 < base) {n : Nat} (positive : 0 < n) :
    ∃ (first : Digit base) (rest : List (Digit base)), first.value.val ≠ 0 ∧
      (first :: rest).map Digit.char = Nat.toDigits base n ∧ Digit.number (first :: rest) = n := by
  induction n using Nat.strongRecOn with
  | ind n ih =>
    by_cases small : n < base
    · refine ⟨⟨⟨n, small⟩, false⟩, [], positive.ne', ?_, ?_⟩
      · rw [Nat.toDigits_of_lt_base small]
        rfl
      · simp [Digit.number]
    · have quotient : 0 < n / base := Nat.div_pos (by omega) (by omega)
      obtain ⟨first, rest, nonzero, written, denoted⟩ :=
        ih (n / base) (Nat.div_lt_self positive large) quotient
      have remainder : n % base < base := Nat.mod_lt n (by omega)
      refine ⟨first, rest ++ [⟨⟨n % base, remainder⟩, false⟩], nonzero, ?_, ?_⟩
      · rw [Nat.toDigits_of_base_le large (by omega), ← written]
        simp [Digit.char]
      · rw [← List.cons_append, Digit.number, List.foldl_append]
        change Digit.number (first :: rest) * base + n % base = n
        rw [denoted, Nat.div_add_mod']

theorem numeral_toDigits (n : Nat) : Numeral (Nat.toDigits 10 n) n := by
  rcases n.eq_zero_or_pos with rfl | positive
  · exact .zero
  · obtain ⟨first, rest, nonzero, written, denoted⟩ :=
      exists_digits (show 1 < 10 by decide) positive
    have numeral : Numeral ((first :: rest).map Digit.char) (Digit.number (first :: rest)) :=
      .digits fun zero => nonzero (by rw [zero]; rfl)
    rwa [written, denoted] at numeral

theorem toList_toString_ofNat (n : Nat) : (toString (Int.ofNat n)).toList = Nat.toDigits 10 n :=
  String.toList_ofList

theorem toList_toString_negSucc (n : Nat) :
    (toString (Int.negSucc n)).toList = '-' :: Nat.toDigits 10 (n + 1) := by
  change ("-" ++ Nat.repr (n + 1)).toList = _
  rw [String.toList_append]
  exact congrArg (['-'] ++ ·) String.toList_ofList

theorem denotes_number (value : Int) : Denotes (toString value).toList (.number value) := by
  cases value with
  | ofNat n =>
    rw [toList_toString_ofNat]
    exact .natural (numeral_toDigits n)
  | negSucc n =>
    rw [toList_toString_negSucc]
    exact .negative (numeral_toDigits (n + 1))

theorem IsHigh.small {unit : Nat} (isHigh : IsHigh unit) : unit < 0x10000 := by
  rw [IsHigh] at isHigh
  omega

theorem IsLow.small {unit : Nat} (isLow : IsLow unit) : unit < 0x10000 := by
  rw [IsLow] at isLow
  omega

/-- A unit is written with four digits. -/
theorem exists_unitEscape {n : Nat} (small : n < 0x10000) :
    ∃ unit : UnitEscape, unit.source = unitEscape n ∧ unit.value = n := by
  obtain ⟨digits, written, denoted⟩ : ∃ digits : List (Digit 16),
      digits.map Digit.char = Nat.toDigits 16 n ∧ Digit.number digits = n := by
    rcases n.eq_zero_or_pos with rfl | positive
    · exact ⟨[⟨0, false⟩], rfl, rfl⟩
    · obtain ⟨first, rest, -, written, denoted⟩ := exists_digits (show 1 < 16 by decide) positive
      exact ⟨first :: rest, written, denoted⟩
  have short : digits.length ≤ 4 := by
    rw [← List.length_map Digit.char, written]
    exact (Nat.length_toDigits_le_iff (by decide) (by decide)).mpr small
  have padded (count : Nat) :
      Digit.number (List.replicate count (⟨0, false⟩ : Digit 16) ++ digits) = n := by
    rw [← denoted]
    induction count with
    | zero => rfl
    | succ count ih => exact ih
  refine ⟨⟨List.replicate (4 - digits.length) (⟨0, false⟩ : Digit 16) ++ digits, ?_⟩, ?_, padded _⟩
  · rw [List.length_append, List.length_replicate]
    omega
  · rw [UnitEscape.source, List.map_append, written, List.map_replicate, unitEscape, Text.hexDigits,
      ← written, List.length_map]
    rfl

/-- The texts that a character is written as. -/
inductive WrittenAs (c : Char) : List Char → Prop where
  | escaped {letter : Char} : (letter, c) ∈ letterEscapes → WrittenAs c ['\\', letter]
  | verbatim : 0x20 ≤ c.toNat → c.toNat < 127 → c ≠ '"' → c ≠ '\\' → WrittenAs c [c]
  | unit : c.toNat < 0x10000 → WrittenAs c (unitEscape c.toNat)
  | halves {high low : Nat} : IsHigh high → IsLow low → joined high low = c →
      WrittenAs c (unitEscape high ++ unitEscape low)

theorem writtenAs_escapeChar (c : Char) : WrittenAs c (escapeChar c) := by
  have coded {code : Nat} (same : c.toNat = code) : c = Char.ofNat code := by
    rw [← same, Char.ofNat_toNat]
  rw [escapeChar]
  split_ifs with quote backslash newline return_ tab formFeed backspace printed short
  · exact .escaped (by rw [quote]; decide)
  · exact .escaped (by rw [backslash]; decide)
  · exact .escaped (by rw [newline]; decide)
  · exact .escaped (by rw [return_]; decide)
  · exact .escaped (by rw [tab]; decide)
  · exact .escaped (by rw [coded formFeed]; decide)
  · exact .escaped (by rw [coded backspace]; decide)
  · rw [Bool.and_eq_true, decide_eq_true_eq, decide_eq_true_eq] at printed
    exact .verbatim printed.1 printed.2 quote backslash
  · exact .unit short
  · have last : c.toNat.isValidChar := c.valid
    rw [Nat.isValidChar] at last
    refine .halves ?_ ?_ (coded ?_).symm
    · rw [IsHigh]
      omega
    · rw [IsLow]
      omega
    · omega

theorem WrittenAs.spellsChar {c : Char} {text : List Char} (written : WrittenAs c text) :
    SpellsChar text c := by
  cases written with
  | escaped known => exact .escaped known
  | verbatim printed _ quote backslash => exact .verbatim printed quote backslash
  | unit short =>
    obtain ⟨unit, source, denoted⟩ := exists_unitEscape short
    have spelled : SpellsChar unit.source (Char.ofNat unit.value) := .unit (denoted ▸ c.valid)
    rwa [source, denoted, Char.ofNat_toNat] at spelled
  | halves isHigh isLow whole =>
    obtain ⟨first, firstSource, rfl⟩ := exists_unitEscape isHigh.small
    obtain ⟨second, secondSource, rfl⟩ := exists_unitEscape isLow.small
    have spelled : SpellsChar (first.source ++ second.source) _ := .pair isHigh isLow
    rwa [firstSource, secondSource, whole] at spelled

theorem spells_escaped (text : List Char) : Spells (text.flatMap escapeChar) text := by
  induction text with
  | nil => exact .nil
  | cons c text ih => exact .cons (writtenAs_escapeChar c).spellsChar ih

/-! ## Texts -/

theorem blank_newline (level : Nat) : (newline level).all isBlank := by
  simp [newline, isBlank]

theorem denotesItems_write {level : Nat} {tail : List Char} (blank : tail.all isBlank) {item : Json}
    {items : List Json} (first : Denotes (item.write level) item)
    (rest : ∀ item ∈ items, Denotes (item.write level) item) :
    DenotesItems (newline level ++ item.write level ++ writeItems level items ++ tail)
      (item :: items) := by
  induction items generalizing item with
  | nil =>
    have padded := DenotesPadded.pad (blank_newline level) first blank
    rw [writeItems, List.append_nil, List.append_assoc]
    exact .last padded
  | cons next items ih =>
    rw [List.forall_mem_cons] at rest
    have padded : DenotesPadded (newline level ++ (item.write level ++ [])) item :=
      .pad (blank_newline level) first rfl
    have inside := DenotesItems.cons padded (ih rest.1 rest.2)
    simpa only [writeItems, List.append_nil, List.append_assoc, List.cons_append] using inside

theorem denotesMember_write {level : Nat} {tail : List Char} (blank : tail.all isBlank)
    {member : String × Json} (denoted : Denotes (member.2.write level) member.2) :
    DenotesMember (newline level ++ quote member.1 ++ [':', ' '] ++ member.2.write level ++ tail)
      member := by
  have padded : DenotesPadded ([' '] ++ (member.2.write level ++ tail)) member.2 :=
    .pad rfl denoted blank
  have unpadded : ([] : List Char).all isBlank := rfl
  have keyed := DenotesMember.keyed (blank_newline level) (spells_escaped member.1.toList) unpadded
    padded
  rw [String.ofList_toList] at keyed
  simpa only [quote, List.append_assoc, List.cons_append, List.nil_append] using keyed

theorem denotesMembers_write {level : Nat} {tail : List Char} (blank : tail.all isBlank)
    {member : String × Json} {members : List (String × Json)}
    (first : Denotes (member.2.write level) member.2)
    (rest : ∀ member ∈ members, Denotes (member.2.write level) member.2) :
    DenotesMembers (newline level ++ quote member.1 ++ [':', ' '] ++ member.2.write level ++
      writeMembers level members ++ tail) (member :: members) := by
  induction members generalizing member with
  | nil =>
    rw [writeMembers, List.append_nil]
    exact .last (denotesMember_write blank first)
  | cons next members ih =>
    rw [List.forall_mem_cons] at rest
    have unpadded : ([] : List Char).all isBlank := rfl
    have inside := DenotesMembers.cons (denotesMember_write unpadded first) (ih rest.1 rest.2)
    simpa only [writeMembers, List.append_nil, List.append_assoc, List.cons_append] using inside

/-- The text of a value denotes it. -/
theorem denotes_write {value : Json} (distinct : value.DistinctKeys) (level : Nat) :
    Denotes (value.write level) value := by
  induction distinct generalizing level with
  | null => exact .null
  | bool value =>
    cases value with
    | true => exact .true
    | false => exact .false
  | number value => exact denotes_number value
  | string text =>
    have denoted := Denotes.string (spells_escaped text.toList)
    rwa [String.ofList_toList] at denoted
  | @array items _ ih =>
    cases items with
    | nil => exact @Denotes.emptyArray [] rfl
    | cons item items =>
      have written (item : Json) (member) := ih item member (level + 1)
      rw [List.forall_mem_cons] at written
      have denoted := Denotes.array (denotesItems_write (blank_newline level) written.1 written.2)
      simpa only [write, List.append_assoc, List.cons_append] using denoted
  | @object members keys _ ih =>
    cases members with
    | nil => exact @Denotes.emptyObject [] rfl
    | cons member members =>
      have written (member : String × Json) (inside) := ih member inside (level + 1)
      rw [List.forall_mem_cons] at written
      have denoted := Denotes.object
        (denotesMembers_write (blank_newline level) written.1 written.2) keys
      simpa only [write, List.append_assoc, List.cons_append] using denoted

/-! ## Texts are ASCII -/

theorem ascii_toDigits {n : Nat} : ∀ c ∈ Nat.toDigits 10 n, c.toNat < 128 := by
  intro c member
  have digit := Nat.isDigit_of_mem_toDigits (by decide) (by decide) member
  rw [Char.isDigit, Bool.and_eq_true, decide_eq_true_eq, decide_eq_true_eq, ge_iff_le,
    UInt32.le_iff_toNat_le, UInt32.le_iff_toNat_le] at digit
  exact Nat.lt_of_le_of_lt digit.2 (by decide)

theorem ascii_unitEscape {n : Nat} (small : n < 0x10000) : ∀ c ∈ unitEscape n, c.toNat < 128 := by
  obtain ⟨unit, written, -⟩ := exists_unitEscape small
  have checked : ∀ (value : Fin 16) (capital : Bool),
      (⟨value, capital⟩ : Digit 16).char.toNat < 128 := by decide
  rw [← written, UnitEscape.source, List.forall_mem_cons, List.forall_mem_cons, List.forall_mem_map]
  exact ⟨by decide, by decide, fun digit _ => checked digit.value digit.capital⟩

theorem WrittenAs.ascii {c : Char} {text : List Char} (written : WrittenAs c text) :
    ∀ d ∈ text, d.toNat < 128 := by
  cases written with
  | escaped known =>
    have checked : ∀ pair ∈ letterEscapes, pair.1.toNat < 128 := by decide
    rw [List.forall_mem_cons, List.forall_mem_singleton]
    exact ⟨by decide, checked _ known⟩
  | verbatim _ printed _ _ =>
    rw [List.forall_mem_singleton]
    omega
  | unit short => exact ascii_unitEscape short
  | halves isHigh isLow _ =>
    rw [List.forall_mem_append]
    exact ⟨ascii_unitEscape isHigh.small, ascii_unitEscape isLow.small⟩

theorem ascii_quote (text : String) : ∀ c ∈ quote text, c.toNat < 128 := by
  rw [quote, List.forall_mem_append, List.forall_mem_cons, List.forall_mem_flatMap,
    List.forall_mem_singleton]
  exact ⟨⟨by decide, fun c _ => (writtenAs_escapeChar c).ascii⟩, by decide⟩

theorem ascii_newline (level : Nat) : ∀ c ∈ newline level, c.toNat < 128 := by
  simp [newline]

theorem ascii_writeItems {level : Nat} {items : List Json}
    (inside : ∀ item ∈ items, ∀ c ∈ item.write level, c.toNat < 128) :
    ∀ c ∈ writeItems level items, c.toNat < 128 := by
  induction items with
  | nil => simp [writeItems]
  | cons item items ih =>
    rw [List.forall_mem_cons] at inside
    simp only [writeItems, List.forall_mem_append, List.forall_mem_cons]
    exact ⟨⟨⟨by decide, ascii_newline level⟩, inside.1⟩, ih inside.2⟩

theorem ascii_writeMembers {level : Nat} {members : List (String × Json)}
    (inside : ∀ member ∈ members, ∀ c ∈ member.2.write level, c.toNat < 128) :
    ∀ c ∈ writeMembers level members, c.toNat < 128 := by
  induction members with
  | nil => simp [writeMembers]
  | cons member members ih =>
    rw [List.forall_mem_cons] at inside
    simp only [writeMembers, List.forall_mem_append, List.forall_mem_cons]
    exact ⟨⟨⟨⟨⟨by decide, ascii_newline level⟩, ascii_quote _⟩, by simp⟩, inside.1⟩, ih inside.2⟩

/-- The text of a value has ASCII characters only. -/
theorem ascii_write (value : Json) (level : Nat) : ∀ c ∈ value.write level, c.toNat < 128 := by
  induction value using induct generalizing level with
  | null => simp [write]
  | bool value => cases value <;> simp [write]
  | number value =>
    cases value with
    | ofNat n =>
      rw [write, toList_toString_ofNat]
      exact ascii_toDigits
    | negSucc n =>
      rw [write, toList_toString_negSucc, List.forall_mem_cons]
      exact ⟨by decide, ascii_toDigits⟩
  | string text => exact ascii_quote text
  | array items ih =>
    have inside (item : Json) (member) := ih item member (level + 1)
    cases items with
    | nil => simp [write]
    | cons item items =>
      rw [List.forall_mem_cons] at inside
      simp only [write, List.forall_mem_append, List.forall_mem_cons]
      exact ⟨⟨⟨⟨⟨by decide, ascii_newline _⟩, inside.1⟩, ascii_writeItems inside.2⟩,
        ascii_newline _⟩, by simp⟩
  | object members ih =>
    have inside (member : String × Json) (belongs) := ih member belongs (level + 1)
    cases members with
    | nil => simp [write]
    | cons member members =>
      rw [List.forall_mem_cons] at inside
      simp only [write, List.forall_mem_append, List.forall_mem_cons]
      exact ⟨⟨⟨⟨⟨⟨⟨by decide, ascii_newline _⟩, ascii_quote _⟩, by simp⟩, inside.1⟩,
        ascii_writeMembers inside.2⟩, ascii_newline _⟩, by simp⟩

/-! ## Readers -/

/-- A reader of JSON texts: it accepts every text that denotes a value, and gives that value, with
the members of objects in any order. It may accept other texts too. -/
structure Reader where
  read : String → Option Json
  conforms {text : String} {value : Json} : DenotesPadded text.toList value →
    ∃ back, read text = some back ∧ back.Alike value

theorem exists_read {text : String} {value : Json} (denoted : DenotesPadded text.toList value) :
    ∃ back, read text = some back ∧ back.Alike value :=
  ⟨value, read_of_denotesPadded denoted, .refl value⟩

/-- The reader that goes through a text character by character. -/
def Reader.standard : Reader := ⟨Json.read, exists_read⟩

theorem distinctKeys_canonical {value : Json} (distinct : value.DistinctKeys) :
    value.canonical.DistinctKeys :=
  value.alike_canonical.distinctKeys_iff.mp distinct

theorem denotesPadded_render {value : Json} (distinct : value.DistinctKeys) :
    DenotesPadded value.render.toList value.canonical := by
  have padded : DenotesPadded ([] ++ (value.canonical.write 0 ++ [])) value.canonical :=
    .pad rfl (denotes_write (distinctKeys_canonical distinct) 0) rfl
  rw [render, String.toList_ofList]
  rwa [List.append_nil] at padded

theorem canonical_eq_of_render_eq {value other : Json} (distinct : value.DistinctKeys)
    (otherDistinct : other.DistinctKeys) (same : value.render = other.render) :
    value.canonical = other.canonical := by
  have first := read_of_denotesPadded (denotesPadded_render distinct)
  have second := read_of_denotesPadded (denotesPadded_render otherDistinct)
  rw [same, second] at first
  exact (Option.some.inj first).symm

end AssetRefs.Json

namespace AssetRefs

open Json

/-- The text of a JSON value is a canonical form of it: it is ASCII, every reader reads it as the
value, and two values have the same text if and only if they are equal up to the order of members,
at any depth. -/
theorem json_texts_are_canonical (reader : Json.Reader) {value : Json}
    (distinct : value.DistinctKeys) :
    (∀ c ∈ value.render.toList, c.toNat < 128) ∧
      (∃ back, reader.read value.render = some back ∧ back.Alike value) ∧
      ∀ other : Json, other.DistinctKeys → (value.render = other.render ↔ value.Alike other) := by
  refine ⟨?_, ?_, fun other otherDistinct => ⟨?_, ?_⟩⟩
  · rw [render, String.toList_ofList]
    exact ascii_write value.canonical 0
  · obtain ⟨back, read, alike⟩ := reader.conforms (denotesPadded_render distinct)
    exact ⟨back, read, alike.trans value.alike_canonical.symm⟩
  · intro same
    exact alike_of_canonical_eq (canonical_eq_of_render_eq distinct otherDistinct same)
  · intro alike
    rw [render, render, alike.canonical_eq distinct]

/-- A report that has its members in canonical order. -/
def sortedReport : Json :=
  .object [("paths", .array [.string "app:/é😀", .string "lib:/\"a\"\n"]),
    ("summary", .object [("errors", .number (-10 ^ 30)), ("paths", .number 2)])]

/-- The same report with its members in other orders. -/
def shuffledReport : Json :=
  .object [("summary", .object [("paths", .number 2), ("errors", .number (-10 ^ 30))]),
    ("paths", .array [.string "app:/é😀", .string "lib:/\"a\"\n"])]

theorem distinctKeys_shuffledReport : shuffledReport.DistinctKeys := by
  simp [shuffledReport, distinctKeys_object_iff, distinctKeys_array_iff, DistinctKeys.number,
    DistinctKeys.string]

theorem alike_shuffledReport : shuffledReport.Alike sortedReport := by
  refine .trans (@Alike.member [] _ "summary" _ _ ?_) (.order (.swap ..))
  exact .order (.swap ..)

theorem json_texts_are_canonical_shuffledReport :
    shuffledReport.DistinctKeys ∧ sortedReport.DistinctKeys ∧
      (∃ back, Reader.standard.read shuffledReport.render = some back ∧
        back.Alike shuffledReport) ∧
      shuffledReport.render = sortedReport.render := by
  have sorted := alike_shuffledReport.distinctKeys_iff.mp distinctKeys_shuffledReport
  obtain ⟨-, back, same⟩ := json_texts_are_canonical Reader.standard distinctKeys_shuffledReport
  exact ⟨distinctKeys_shuffledReport, sorted, back, (same _ sorted).mpr alike_shuffledReport⟩

end AssetRefs
