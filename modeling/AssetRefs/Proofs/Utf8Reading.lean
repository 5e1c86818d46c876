import AssetRefs.Proofs.LiteralTokens

/-! # Reading UTF-8

A first byte tells how many bytes follow it and between which bounds each of them is. Reading takes
the longest run of bytes within these bounds (`head_eq`), and the runs that are complete are just
the encodings of characters (`utf8EncodeChar_of_fits`, `fits_of_utf8EncodeChar`). So what reading
makes of any bytes can be said without it: see `readAs_iff`. The strict reader gives back the
characters that were encoded (`decode?_encode`).
-/

namespace AssetRefs.Text.Utf8

/-! ## Runs within bounds -/

/-- The bounds of any byte after a first one, if nothing more is known. -/
def anyTail : UInt8 × UInt8 := (0x80, 0xBF)

/-- The bounds of the bytes that follow a first byte. -/
def tails? (lead : UInt8) : Option (List (UInt8 × UInt8)) :=
  if lead < 0x80 then some []
  else if lead < 0xC2 then none
  else if lead < 0xE0 then some [anyTail]
  else if lead = 0xE0 then some [(0xA0, 0xBF), anyTail]
  else if lead = 0xED then some [(0x80, 0x9F), anyTail]
  else if lead < 0xF0 then some [anyTail, anyTail]
  else if lead = 0xF0 then some [(0x90, 0xBF), anyTail, anyTail]
  else if lead < 0xF4 then some [anyTail, anyTail, anyTail]
  else if lead = 0xF4 then some [(0x80, 0x8F), anyTail, anyTail]
  else none

/-- The bytes are within the first of the bounds, one by one. -/
def Fits : List (UInt8 × UInt8) → List UInt8 → Prop
  | _, [] => True
  | [], _ :: _ => False
  | bound :: bounds, byte :: bytes => continues bound.1 bound.2 byte = true ∧ Fits bounds bytes

/-- The number of bytes that are within the bounds. -/
def run : List (UInt8 × UInt8) → List UInt8 → Nat
  | _, [] => 0
  | [], _ :: _ => 0
  | bound :: bounds, byte :: bytes =>
    if continues bound.1 bound.2 byte then run bounds bytes + 1 else 0

/-- The code that a first byte and the bytes after it are put together to. -/
def code (lead : UInt8) : List UInt8 → Nat
  | [] => lead.toNat
  | [b] => lead.toNat % 32 * 64 + payload b
  | [b, c] => (lead.toNat % 16 * 64 + payload b) * 64 + payload c
  | [b, c, d] => ((lead.toNat % 8 * 64 + payload b) * 64 + payload c) * 64 + payload d
  | _ => 0

variable {bounds : List (UInt8 × UInt8)} {lead : UInt8} {bytes : List UInt8}

@[simp] theorem run_nil (bytes : List UInt8) : run [] bytes = 0 := by
  cases bytes <;> rfl

theorem fits_nil (bounds : List (UInt8 × UInt8)) : Fits bounds [] := by
  cases bounds <;> exact trivial

theorem fits_take_run (bounds : List (UInt8 × UInt8)) (bytes : List UInt8) :
    Fits bounds (bytes.take (run bounds bytes)) := by
  fun_induction run bounds bytes with
  | case1 bounds => exact fits_nil bounds
  | case2 => exact fits_nil []
  | case3 bound bounds byte bytes within ih => exact ⟨within, ih⟩
  | case4 => exact fits_nil _

theorem run_le_length (bounds : List (UInt8 × UInt8)) (bytes : List UInt8) :
    run bounds bytes ≤ bytes.length := by
  fun_induction run bounds bytes with
  | case1 => exact Nat.zero_le _
  | case2 => exact Nat.zero_le _
  | case3 bound bounds byte bytes within ih => exact Nat.succ_le_succ ih
  | case4 => exact Nat.zero_le _

/-- No longer beginning of the bytes is within the bounds. -/
theorem length_le_run {part : List UInt8} (first : part <+: bytes) (fits : Fits bounds part) :
    part.length ≤ run bounds bytes := by
  fun_induction run bounds bytes generalizing part with
  | case1 => exact first.length_le
  | case2 byte bytes =>
    cases part with
    | nil => exact Nat.zero_le _
    | cons b part => exact fits.elim
  | case3 bound bounds byte bytes within ih =>
    cases part with
    | nil => exact Nat.zero_le _
    | cons b part => exact Nat.succ_le_succ (ih (List.cons_prefix_cons.mp first).2 fits.2)
  | case4 bound bounds byte bytes beyond =>
    cases part with
    | nil => exact Nat.zero_le _
    | cons b part =>
      obtain ⟨rfl, -⟩ := List.cons_prefix_cons.mp first
      exact absurd fits.1 beyond

theorem Fits.length_le (fits : Fits bounds bytes) : bytes.length ≤ bounds.length := by
  fun_induction Fits bounds bytes with
  | case1 => exact Nat.zero_le _
  | case2 => exact fits.elim
  | case3 bound bounds byte bytes ih => exact Nat.succ_le_succ (ih fits.2)

/-! ## Reading takes a run -/

/-- What is read after a first byte that others follow within the bounds. -/
def readWithin (lead : UInt8) (bounds : List (UInt8 × UInt8)) (rest : List UInt8) :
    Option Char × Nat :=
  if run bounds rest = bounds.length then
    (some (Char.ofNat (code lead (rest.take bounds.length))), bounds.length)
  else (none, run bounds rest)

theorem head2_eq (lead : UInt8) (rest : List UInt8) :
    head2 lead rest = readWithin lead [anyTail] rest := by
  rcases rest with _ | ⟨b, rest⟩
  · rfl
  · by_cases first : continues 0x80 0xBF b = true <;>
      simp [head2, readWithin, run, anyTail, code, first]

theorem head3_eq (low high lead : UInt8) (rest : List UInt8) :
    head3 low high lead rest = readWithin lead [(low, high), anyTail] rest := by
  rcases rest with _ | ⟨b, _ | ⟨c, rest⟩⟩
  · rfl
  · by_cases first : continues low high b = true <;> simp [head3, readWithin, run, first]
  · by_cases first : continues low high b = true <;>
      by_cases second : continues 0x80 0xBF c = true <;>
        simp [head3, readWithin, run, anyTail, code, first, second]

theorem head4_eq (low high lead : UInt8) (rest : List UInt8) :
    head4 low high lead rest = readWithin lead [(low, high), anyTail, anyTail] rest := by
  rcases rest with _ | ⟨b, _ | ⟨c, _ | ⟨d, rest⟩⟩⟩
  · rfl
  · by_cases first : continues low high b = true <;> simp [head4, readWithin, run, first]
  · by_cases first : continues low high b = true <;>
      by_cases second : continues 0x80 0xBF c = true <;>
        simp [head4, readWithin, run, anyTail, first, second]
  · by_cases first : continues low high b = true <;>
      by_cases second : continues 0x80 0xBF c = true <;>
        by_cases third : continues 0x80 0xBF d = true <;>
          simp [head4, readWithin, run, anyTail, code, first, second, third]

theorem head_eq (lead : UInt8) (rest : List UInt8) :
    head lead rest = (tails? lead).elim (none, 0) (readWithin lead · rest) := by
  have ascii : (some (Char.ofNat lead.toNat), 0) = readWithin lead [] rest := by
    simp [readWithin, code]
  simp only [head, tails?, ascii, head2_eq, head3_eq, head4_eq,
    apply_ite (fun bounds? : Option (List (UInt8 × UInt8)) =>
      bounds?.elim (none, 0) (readWithin lead · rest)), Option.elim_some, Option.elim_none, anyTail]

/-! ## Complete runs encode characters -/

section

variable {char : Char}

theorem encode_one (most : char.toNat ≤ 0x7F) :
    String.utf8EncodeChar char = [UInt8.ofNat char.toNat] := by
  simp only [String.utf8EncodeChar, Char.toNat_val]
  rw [if_pos most]

theorem encode_two (least : 0x7F < char.toNat) (most : char.toNat ≤ 0x7FF) :
    String.utf8EncodeChar char =
      [UInt8.ofNat (char.toNat / 64 % 32 + 0xC0), UInt8.ofNat (char.toNat % 64 + 0x80)] := by
  simp only [String.utf8EncodeChar, Char.toNat_val]
  rw [if_neg (by omega), if_pos most]

theorem encode_three (least : 0x7FF < char.toNat) (most : char.toNat ≤ 0xFFFF) :
    String.utf8EncodeChar char =
      [UInt8.ofNat (char.toNat / 4096 % 16 + 0xE0), UInt8.ofNat (char.toNat / 64 % 64 + 0x80),
        UInt8.ofNat (char.toNat % 64 + 0x80)] := by
  simp only [String.utf8EncodeChar, Char.toNat_val]
  rw [if_neg (by omega), if_neg (by omega), if_pos most]

theorem encode_four (least : 0xFFFF < char.toNat) :
    String.utf8EncodeChar char =
      [UInt8.ofNat (char.toNat / 262144 % 8 + 0xF0), UInt8.ofNat (char.toNat / 4096 % 64 + 0x80),
        UInt8.ofNat (char.toNat / 64 % 64 + 0x80), UInt8.ofNat (char.toNat % 64 + 0x80)] := by
  simp only [String.utf8EncodeChar, Char.toNat_val]
  rw [if_neg (by omega), if_neg (by omega), if_neg (by omega)]

end

theorem ofNat_eq_of_toNat {n : Nat} {byte : UInt8} (same : n = byte.toNat) :
    UInt8.ofNat n = byte := by
  rw [same, UInt8.ofNat_toNat]

theorem continues_iff {low high byte : UInt8} :
    continues low high byte = true ↔ low.toNat ≤ byte.toNat ∧ byte.toNat ≤ high.toNat := by
  simp [continues, UInt8.le_iff_toNat_le]

theorem tails?_one (range : lead.toNat < 0x80) : tails? lead = some [] :=
  if_pos (UInt8.lt_iff_toNat_lt.mpr range)

theorem tails?_two (range : 0xC2 ≤ lead.toNat ∧ lead.toNat < 0xE0) :
    tails? lead = some [anyTail] := by
  simp only [tails?, UInt8.lt_iff_toNat_lt, UInt8.reduceToNat]
  rw [if_neg (by omega), if_neg (by omega), if_pos range.2]

/-- The second of three bytes is bounded further, so that no character is encoded too long or is a
surrogate. -/
theorem tails?_three (range : 0xE0 ≤ lead.toNat ∧ lead.toNat < 0xF0) :
    ∃ low high, tails? lead = some [(low, high), anyTail] ∧ ∀ byte,
      continues low high byte = true ↔ 0x80 ≤ byte.toNat ∧ byte.toNat ≤ 0xBF ∧
        (lead.toNat = 0xE0 → 0xA0 ≤ byte.toNat) ∧ (lead.toNat = 0xED → byte.toNat ≤ 0x9F) := by
  simp only [tails?, UInt8.lt_iff_toNat_lt, ← UInt8.toNat_inj, UInt8.reduceToNat]
  rw [if_neg (by omega), if_neg (by omega), if_neg (by omega), if_pos range.2]
  split_ifs with least surrogate
  all_goals
    refine ⟨_, _, rfl, fun byte => ?_⟩
    simp only [continues_iff, UInt8.reduceToNat]
    omega

/-- The second of four bytes is bounded further, so that no character is encoded too long or lies
beyond the last one. -/
theorem tails?_four (range : 0xF0 ≤ lead.toNat ∧ lead.toNat ≤ 0xF4) :
    ∃ low high, tails? lead = some [(low, high), anyTail, anyTail] ∧ ∀ byte,
      continues low high byte = true ↔ 0x80 ≤ byte.toNat ∧ byte.toNat ≤ 0xBF ∧
        (lead.toNat = 0xF0 → 0x90 ≤ byte.toNat) ∧ (lead.toNat = 0xF4 → byte.toNat ≤ 0x8F) := by
  simp only [tails?, UInt8.lt_iff_toNat_lt, ← UInt8.toNat_inj, UInt8.reduceToNat]
  rw [if_neg (by omega), if_neg (by omega), if_neg (by omega), if_neg (by omega), if_neg (by omega),
    if_neg (by omega)]
  by_cases last : lead.toNat = 0xF4
  · rw [if_neg (by omega), if_neg (by omega), if_pos last]
    refine ⟨_, _, rfl, fun byte => ?_⟩
    simp only [continues_iff, UInt8.reduceToNat]
    omega
  · rw [if_pos (show lead.toNat < 0xF4 by omega)]
    split_ifs with least
    all_goals
      refine ⟨_, _, rfl, fun byte => ?_⟩
      simp only [continues_iff, UInt8.reduceToNat]
      omega

theorem tails?_eq_none (range : 0x80 ≤ lead.toNat ∧ lead.toNat < 0xC2 ∨ 0xF4 < lead.toNat) :
    tails? lead = none := by
  simp only [tails?, UInt8.lt_iff_toNat_lt, ← UInt8.toNat_inj, UInt8.reduceToNat]
  rcases range with continuation | beyond
  · rw [if_neg (by omega), if_pos continuation.2]
  · rw [if_neg (by omega), if_neg (by omega), if_neg (by omega), if_neg (by omega),
      if_neg (by omega), if_neg (by omega), if_neg (by omega), if_neg (by omega), if_neg (by omega)]

section

variable {b c d : UInt8}

theorem encode_code_two (first : 0xC2 ≤ lead.toNat ∧ lead.toNat < 0xE0)
    (second : 0x80 ≤ b.toNat ∧ b.toNat ≤ 0xBF) :
    String.utf8EncodeChar (Char.ofNat (code lead [b])) = [lead, b] := by
  have value : (Char.ofNat (code lead [b])).toNat = lead.toNat % 32 * 64 + b.toNat % 64 := by
    refine toNat_ofNat ?_
    simp only [code, payload, Nat.isValidChar]
    omega
  rw [encode_two (by omega) (by omega), value, ofNat_eq_of_toNat _, ofNat_eq_of_toNat _]
  · omega
  · omega

theorem encode_code_three (first : 0xE0 ≤ lead.toNat ∧ lead.toNat < 0xF0)
    (second : 0x80 ≤ b.toNat ∧ b.toNat ≤ 0xBF ∧ (lead.toNat = 0xE0 → 0xA0 ≤ b.toNat) ∧
      (lead.toNat = 0xED → b.toNat ≤ 0x9F))
    (third : 0x80 ≤ c.toNat ∧ c.toNat ≤ 0xBF) :
    String.utf8EncodeChar (Char.ofNat (code lead [b, c])) = [lead, b, c] := by
  have value : (Char.ofNat (code lead [b, c])).toNat =
      (lead.toNat % 16 * 64 + b.toNat % 64) * 64 + c.toNat % 64 := by
    refine toNat_ofNat ?_
    simp only [code, payload, Nat.isValidChar]
    omega
  rw [encode_three (by omega) (by omega), value, ofNat_eq_of_toNat _, ofNat_eq_of_toNat _,
    ofNat_eq_of_toNat _]
  · omega
  · omega
  · omega

theorem encode_code_four (first : 0xF0 ≤ lead.toNat ∧ lead.toNat ≤ 0xF4)
    (second : 0x80 ≤ b.toNat ∧ b.toNat ≤ 0xBF ∧ (lead.toNat = 0xF0 → 0x90 ≤ b.toNat) ∧
      (lead.toNat = 0xF4 → b.toNat ≤ 0x8F))
    (third : 0x80 ≤ c.toNat ∧ c.toNat ≤ 0xBF) (fourth : 0x80 ≤ d.toNat ∧ d.toNat ≤ 0xBF) :
    String.utf8EncodeChar (Char.ofNat (code lead [b, c, d])) = [lead, b, c, d] := by
  have value : (Char.ofNat (code lead [b, c, d])).toNat =
      ((lead.toNat % 8 * 64 + b.toNat % 64) * 64 + c.toNat % 64) * 64 + d.toNat % 64 := by
    refine toNat_ofNat ?_
    simp only [code, payload, Nat.isValidChar]
    omega
  rw [encode_four (by omega), value, ofNat_eq_of_toNat _, ofNat_eq_of_toNat _,
    ofNat_eq_of_toNat _, ofNat_eq_of_toNat _]
  · omega
  · omega
  · omega
  · omega

end

theorem anyTail_continues_iff {byte : UInt8} :
    continues anyTail.1 anyTail.2 byte = true ↔ 0x80 ≤ byte.toNat ∧ byte.toNat ≤ 0xBF :=
  continues_iff

/-- A first byte with all the bytes that follow it encodes the code they are put together to. -/
theorem utf8EncodeChar_of_fits (bounded : tails? lead = some bounds) (fits : Fits bounds bytes)
    (complete : bytes.length = bounds.length) :
    String.utf8EncodeChar (Char.ofNat (code lead bytes)) = lead :: bytes := by
  have ranges : lead.toNat < 0x80 ∨ (0xC2 ≤ lead.toNat ∧ lead.toNat < 0xE0) ∨
      (0xE0 ≤ lead.toNat ∧ lead.toNat < 0xF0) ∨ 0xF0 ≤ lead.toNat ∧ lead.toNat ≤ 0xF4 := by
    by_contra other
    rw [tails?_eq_none (by omega)] at bounded
    cases bounded
  rcases ranges with one | two | three | four
  · obtain rfl := Option.some.inj ((tails?_one one).symm.trans bounded)
    obtain rfl := List.length_eq_zero_iff.mp complete
    have value : (Char.ofNat (code lead [])).toNat = lead.toNat :=
      toNat_ofNat (.inl (one.trans (by decide)))
    rw [encode_one (by omega), value, UInt8.ofNat_toNat]
  · obtain rfl := Option.some.inj ((tails?_two two).symm.trans bounded)
    obtain ⟨b, rfl⟩ := List.length_eq_one_iff.mp complete
    exact encode_code_two two (anyTail_continues_iff.mp fits.1)
  · obtain ⟨low, high, same, within⟩ := tails?_three three
    obtain rfl := Option.some.inj (same.symm.trans bounded)
    obtain ⟨b, c, rfl⟩ := List.length_eq_two.mp complete
    exact encode_code_three three ((within b).mp fits.1) (anyTail_continues_iff.mp fits.2.1)
  · obtain ⟨low, high, same, within⟩ := tails?_four four
    obtain rfl := Option.some.inj (same.symm.trans bounded)
    obtain ⟨b, c, d, rfl⟩ := List.length_eq_three.mp complete
    exact encode_code_four four ((within b).mp fits.1) (anyTail_continues_iff.mp fits.2.1)
      (anyTail_continues_iff.mp fits.2.2.1)

theorem toNat_ofNat_byte {n : Nat} (small : n < 256) : (UInt8.ofNat n).toNat = n := by
  rw [UInt8.toNat_ofNat', Nat.mod_eq_of_lt small]

/-- The encoding of a character is a first byte with all the bytes that follow it, and its code is
what they are put together to. -/
theorem fits_of_utf8EncodeChar {char : Char}
    (encoded : String.utf8EncodeChar char = lead :: bytes) :
    ∃ bounds, tails? lead = some bounds ∧ Fits bounds bytes ∧ bytes.length = bounds.length ∧
      code lead bytes = char.toNat := by
  have valid : char.toNat < 0xD800 ∨ 0xDFFF < char.toNat ∧ char.toNat < 0x110000 := char.valid
  have sizes : char.toNat ≤ 0x7F ∨ (0x7F < char.toNat ∧ char.toNat ≤ 0x7FF) ∨
      (0x7FF < char.toNat ∧ char.toNat ≤ 0xFFFF) ∨ 0xFFFF < char.toNat := by omega
  rcases sizes with one | two | three | four
  · rw [encode_one one] at encoded
    cases encoded
    have first := toNat_ofNat_byte (show char.toNat < 256 by omega)
    exact ⟨[], tails?_one (by omega), trivial, rfl, first⟩
  · rw [encode_two two.1 two.2] at encoded
    cases encoded
    have first := toNat_ofNat_byte (show char.toNat / 64 % 32 + 0xC0 < 256 by omega)
    have second := toNat_ofNat_byte (show char.toNat % 64 + 0x80 < 256 by omega)
    refine ⟨_, tails?_two (by omega), ⟨anyTail_continues_iff.mpr (by omega), trivial⟩, rfl, ?_⟩
    simp only [code, payload]
    omega
  · rw [encode_three three.1 three.2] at encoded
    cases encoded
    have first := toNat_ofNat_byte (show char.toNat / 4096 % 16 + 0xE0 < 256 by omega)
    have second := toNat_ofNat_byte (show char.toNat / 64 % 64 + 0x80 < 256 by omega)
    have third := toNat_ofNat_byte (show char.toNat % 64 + 0x80 < 256 by omega)
    have range : 0xE0 ≤ (UInt8.ofNat (char.toNat / 4096 % 16 + 0xE0)).toNat ∧
        (UInt8.ofNat (char.toNat / 4096 % 16 + 0xE0)).toNat < 0xF0 := by omega
    obtain ⟨low, high, bounded, within⟩ := tails?_three range
    refine ⟨_, bounded, ⟨(within _).mpr (by omega), anyTail_continues_iff.mpr (by omega), trivial⟩,
      rfl, ?_⟩
    simp only [code, payload]
    omega
  · rw [encode_four four] at encoded
    cases encoded
    have first := toNat_ofNat_byte (show char.toNat / 262144 % 8 + 0xF0 < 256 by omega)
    have second := toNat_ofNat_byte (show char.toNat / 4096 % 64 + 0x80 < 256 by omega)
    have third := toNat_ofNat_byte (show char.toNat / 64 % 64 + 0x80 < 256 by omega)
    have fourth := toNat_ofNat_byte (show char.toNat % 64 + 0x80 < 256 by omega)
    have range : 0xF0 ≤ (UInt8.ofNat (char.toNat / 262144 % 8 + 0xF0)).toNat ∧
        (UInt8.ofNat (char.toNat / 262144 % 8 + 0xF0)).toNat ≤ 0xF4 := by omega
    obtain ⟨low, high, bounded, within⟩ := tails?_four range
    refine ⟨_, bounded, ⟨(within _).mpr (by omega), anyTail_continues_iff.mpr (by omega),
      anyTail_continues_iff.mpr (by omega), trivial⟩, rfl, ?_⟩
    simp only [code, payload]
    omega

theorem run_le_bounds (bounds : List (UInt8 × UInt8)) (bytes : List UInt8) :
    run bounds bytes ≤ bounds.length := by
  have fits := (fits_take_run bounds bytes).length_le
  rwa [List.length_take_of_le (run_le_length bounds bytes)] at fits

theorem head_of_encoding {char : Char} (encoded : String.utf8EncodeChar char = lead :: bytes)
    (rest : List UInt8) : head lead (bytes ++ rest) = (some char, bytes.length) := by
  obtain ⟨bounds, bounded, fits, complete, same⟩ := fits_of_utf8EncodeChar encoded
  have full : run bounds (bytes ++ rest) = bounds.length := by
    apply Nat.le_antisymm (run_le_bounds ..)
    rw [← complete]
    exact length_le_run (List.prefix_append ..) fits
  rw [head_eq, bounded, Option.elim, readWithin, if_pos full, ← complete, List.take_left, same,
    Char.ofNat_toNat]

theorem encoding_of_head {char : Char} {taken : Nat}
    (read : head lead bytes = (some char, taken)) :
    String.utf8EncodeChar char = lead :: bytes.take taken := by
  rw [head_eq] at read
  cases bounded : tails? lead with
  | none => simp [bounded] at read
  | some bounds =>
    rw [bounded, Option.elim, readWithin] at read
    split_ifs at read with full
    · cases read
      have fits := fits_take_run bounds bytes
      have enough := run_le_length bounds bytes
      rw [full] at fits enough
      exact utf8EncodeChar_of_fits bounded fits (List.length_take_of_le enough)
    · cases read

/-- What encodes nothing ends where the bounds do. -/
theorem run_of_head {taken : Nat} (read : head lead bytes = (none, taken)) :
    tails? lead = none ∧ taken = 0 ∨
      ∃ bounds, tails? lead = some bounds ∧ taken = run bounds bytes := by
  rw [head_eq] at read
  cases bounded : tails? lead with
  | none =>
    rw [bounded] at read
    cases read
    exact .inl ⟨rfl, rfl⟩
  | some bounds =>
    rw [bounded, Option.elim, readWithin] at read
    split_ifs at read
    · cases read
    · cases read
      exact .inr ⟨bounds, rfl, rfl⟩

/-! ## What bytes are read as -/

/-- A beginning of the encoding of some character. -/
def IsStart (part : List UInt8) : Prop := ∃ char, part <+: String.utf8EncodeChar char

/-- What one replacement stands for: where no encoded character is, a beginning of one that is as
long as possible, or a byte that is not the beginning of any. -/
structure IsBroken (part rest : List UInt8) : Prop where
  nonempty : part ≠ []
  unencoded : ∀ char, ¬ String.utf8EncodeChar char <+: part ++ rest
  start : IsStart part ∨ part.length = 1
  longest : ∀ longer, longer <+: part ++ rest → part.length < longer.length → ¬ IsStart longer

/-- Bytes as characters: the encoded ones, and a replacement for each part between them that encodes
nothing. -/
inductive ReadAs : List UInt8 → List Char → Prop where
  | nil : ReadAs [] []
  | encoded (char : Char) {bytes : List UInt8} {chars : List Char} : ReadAs bytes chars →
      ReadAs (String.utf8EncodeChar char ++ bytes) (char :: chars)
  | broken {part bytes : List UInt8} {chars : List Char} : IsBroken part bytes →
      ReadAs bytes chars → ReadAs (part ++ bytes) (replacement :: chars)

theorem Fits.of_prefix {part : List UInt8} (fits : Fits bounds bytes) (first : part <+: bytes) :
    Fits bounds part := by
  induction part generalizing bounds bytes with
  | nil => exact fits_nil bounds
  | cons b part ih =>
    obtain ⟨rest, rfl⟩ := first
    cases bounds with
    | nil => exact fits.elim
    | cons bound bounds => exact ⟨fits.1, ih fits.2 (List.prefix_append ..)⟩

/-- Bytes within the bounds can be continued within them. -/
theorem Fits.append_least (fits : Fits bounds bytes)
    (inhabited : ∀ bound ∈ bounds, continues bound.1 bound.2 bound.1 = true) :
    Fits bounds (bytes ++ (bounds.drop bytes.length).map Prod.fst) := by
  induction bounds generalizing bytes with
  | nil =>
    cases bytes with
    | nil => exact trivial
    | cons b bytes => exact fits.elim
  | cons bound bounds ih =>
    obtain ⟨least, others⟩ := List.forall_mem_cons.mp inhabited
    cases bytes with
    | nil => exact ⟨least, ih (fits_nil bounds) others⟩
    | cons b bytes => exact ⟨fits.1, ih fits.2 others⟩

theorem continues_of_mem_tails? (bounded : tails? lead = some bounds) :
    ∀ bound ∈ bounds, continues bound.1 bound.2 bound.1 = true := by
  have checked : ∀ code : Fin 256, ((tails? (UInt8.ofNat code)).all fun bounds =>
      bounds.all fun bound => continues bound.1 bound.2 bound.1) = true := by decide +kernel
  have all := checked ⟨lead.toNat, lead.toNat_lt⟩
  rw [UInt8.ofNat_toNat, bounded] at all
  simpa using all

theorem isStart_cons_iff :
    IsStart (lead :: bytes) ↔ ∃ bounds, tails? lead = some bounds ∧ Fits bounds bytes := by
  constructor
  · rintro ⟨char, rest, encoded⟩
    obtain ⟨bounds, bounded, fits, -⟩ := fits_of_utf8EncodeChar encoded.symm
    exact ⟨bounds, bounded, fits.of_prefix (List.prefix_append ..)⟩
  · rintro ⟨bounds, bounded, fits⟩
    have continued := fits.append_least (continues_of_mem_tails? bounded)
    have enough := fits.length_le
    have encoded := utf8EncodeChar_of_fits bounded continued (by simp; omega)
    exact ⟨_, _, encoded.symm⟩

theorem cons_of_encoding {char : Char} {rest : List UInt8}
    (same : String.utf8EncodeChar char ++ rest = lead :: bytes) :
    ∃ tail, String.utf8EncodeChar char = lead :: tail ∧ bytes = tail ++ rest := by
  rcases List.append_eq_cons_iff.mp same with ⟨empty, -⟩ | split
  · exact absurd empty String.utf8EncodeChar_ne_nil
  · exact split

theorem isBroken_of_head {taken : Nat} (read : head lead bytes = (none, taken)) :
    IsBroken (lead :: bytes.take taken) (bytes.drop taken) := by
  have whole : lead :: bytes.take taken ++ bytes.drop taken = lead :: bytes := by
    rw [List.cons_append, List.take_append_drop]
  refine ⟨List.cons_ne_nil _ _, ?_, ?_, ?_⟩
  · rw [whole]
    rintro char ⟨rest, same⟩
    obtain ⟨tail, encoded, rfl⟩ := cons_of_encoding same
    rw [head_of_encoding encoded] at read
    cases read
  · rcases run_of_head read with ⟨_, rfl⟩ | ⟨bounds, bounded, rfl⟩
    · exact .inr rfl
    · exact .inl (isStart_cons_iff.mpr ⟨bounds, bounded, fits_take_run ..⟩)
  · rw [whole]
    rintro longer first more start
    cases longer with
    | nil => cases more
    | cons b part =>
      obtain ⟨rfl, inner⟩ := List.cons_prefix_cons.mp first
      obtain ⟨bounds, bounded, fits⟩ := isStart_cons_iff.mp start
      rcases run_of_head read with ⟨unbounded, -⟩ | ⟨bounds', bounded', rfl⟩
      · rw [unbounded] at bounded
        cases bounded
      · obtain rfl := Option.some.inj (bounded.symm.trans bounded')
        have within := length_le_run inner fits
        have enough := run_le_length bounds bytes
        simp only [List.length_cons, List.length_take_of_le enough] at more
        omega

/-- Two parts at one place are the same, since neither is longer than the other. -/
theorem IsBroken.unique {part rest part' rest' : List UInt8} (broken : IsBroken part rest)
    (broken' : IsBroken part' rest') (same : part ++ rest = part' ++ rest') :
    part = part' ∧ rest = rest' := by
  have not_longer {part rest part' rest' : List UInt8} (broken : IsBroken part rest)
      (broken' : IsBroken part' rest') (same : part ++ rest = part' ++ rest') :
      part'.length ≤ part.length := by
    by_contra longer
    rw [Nat.not_le] at longer
    rcases broken'.start with start | single
    · exact broken.longest part' (same ▸ List.prefix_append ..) longer start
    · have some := List.length_pos_iff.mpr broken.nonempty
      omega
  apply List.append_inj same
  exact Nat.le_antisymm (not_longer broken' broken same.symm) (not_longer broken broken' same)

theorem decode_encode_append (char : Char) (bytes : List UInt8) :
    decode (String.utf8EncodeChar char ++ bytes) = char :: decode bytes := by
  obtain ⟨lead, tail, encoded⟩ :=
    List.exists_cons_of_ne_nil (String.utf8EncodeChar_ne_nil (c := char))
  rw [encoded, List.cons_append, decode_cons, head_of_encoding encoded]
  simp

theorem decode_encode (chars : List Char) : decode (encode chars) = chars := by
  induction chars with
  | nil => rfl
  | cons c chars ih =>
    rw [encode, List.flatMap_cons, decode_encode_append]
    exact congrArg (c :: ·) ih

theorem decode_broken_append {part : List UInt8} (broken : IsBroken part bytes) :
    decode (part ++ bytes) = replacement :: decode bytes := by
  obtain ⟨lead, tail, rfl⟩ := List.exists_cons_of_ne_nil broken.nonempty
  rw [List.cons_append, decode_cons]
  rcases read : head lead (tail ++ bytes) with ⟨_ | char, taken⟩
  · have broken' := isBroken_of_head read
    obtain ⟨-, rest⟩ := broken.unique broken' (by simp)
    exact congrArg (replacement :: decode ·) rest.symm
  · have encoded := encoding_of_head read
    refine absurd ⟨(tail ++ bytes).drop taken, ?_⟩ (broken.unencoded char)
    rw [encoded, List.cons_append, List.take_append_drop, List.cons_append]

theorem readAs_decode (bytes : List UInt8) : ReadAs bytes (decode bytes) := by
  induction size : bytes.length using Nat.strong_induction_on generalizing bytes with
  | h count ih =>
  cases bytes with
  | nil => exact .nil
  | cons lead rest =>
    have later (taken : Nat) : ReadAs (rest.drop taken) (decode (rest.drop taken)) := by
      apply ih _ _ _ rfl
      simp only [List.length_cons] at size
      simp only [List.length_drop]
      omega
    rcases read : head lead rest with ⟨_ | char, taken⟩
    · have step := ReadAs.broken (isBroken_of_head read) (later taken)
      rw [List.cons_append, List.take_append_drop] at step
      rw [decode_cons, read]
      exact step
    · have step := ReadAs.encoded char (later taken)
      rw [encoding_of_head read, List.cons_append, List.take_append_drop] at step
      rw [decode_cons, read]
      exact step

/-- Bytes are read in one way, and this is how they are decoded. -/
theorem readAs_iff {chars : List Char} : ReadAs bytes chars ↔ chars = decode bytes := by
  constructor
  · intro read
    induction read with
    | nil => rfl
    | encoded char _ ih => rw [decode_encode_append, ih]
    | broken broken _ ih => rw [decode_broken_append broken, ih]
  · rintro rfl
    exact readAs_decode bytes

/-! ## Strict reading -/

theorem decodeFrom?_eq_drop (skip : Nat) (bytes : List UInt8) :
    decodeFrom? skip bytes = decode? (bytes.drop skip) := by
  induction bytes generalizing skip with
  | nil => cases skip <;> rfl
  | cons byte rest ih =>
    cases skip with
    | zero => rfl
    | succ skip => exact ih skip

theorem decode?_encode_append (char : Char) (bytes : List UInt8) :
    decode? (String.utf8EncodeChar char ++ bytes) = (decode? bytes).map (char :: ·) := by
  obtain ⟨lead, tail, encoded⟩ :=
    List.exists_cons_of_ne_nil (String.utf8EncodeChar_ne_nil (c := char))
  rw [encoded, List.cons_append, decode?, decodeFrom?, head_of_encoding encoded,
    decodeFrom?_eq_drop, List.drop_left]

theorem decode?_encode (chars : List Char) : decode? (encode chars) = some chars := by
  induction chars with
  | nil => rfl
  | cons c chars ih =>
    rw [encode, List.flatMap_cons, decode?_encode_append, ← encode, ih, Option.map_some]

/-- The bytes of a string encode its characters. -/
theorem toList_toUTF8 (text : String) : text.toUTF8.toList = encode text.toList := by
  rw [byteArray_toList, String.toUTF8, ← String.utf8Encode_toList, List.utf8Encode]
  simp [encode]

theorem decode?_toUTF8 (text : String) : decode? text.toUTF8.toList = some text.toList := by
  rw [toList_toUTF8, decode?_encode]

/-- What is read strictly is the encoding of the characters read. -/
theorem eq_encode_of_decode? {chars : List Char} (read : decode? bytes = some chars) :
    bytes = encode chars := by
  induction size : bytes.length using Nat.strongRecOn generalizing bytes chars with
  | ind size ih =>
    subst size
    cases bytes with
    | nil =>
      cases read
      rfl
    | cons lead rest =>
      rw [decode?, decodeFrom?] at read
      split at read
      · cases read
      · next char first =>
        rw [decodeFrom?_eq_drop] at read
        obtain ⟨more, later, rfl⟩ := Option.map_eq_some_iff.mp read
        have shorter : (rest.drop (head lead rest).2).length < (lead :: rest).length := by
          rw [List.length_drop, List.length_cons]
          omega
        have encoded := encoding_of_head (Prod.ext first rfl :
          head lead rest = (some char, (head lead rest).2))
        rw [encode, List.flatMap_cons, encoded, ← encode, ← ih _ shorter later rfl,
          List.cons_append, List.take_append_drop]

/-- A strict reader accepts the UTF-8 of a text, and reads this text from it. -/
theorem decode?_eq_some_iff {content : ByteArray} {chars : List Char} :
    decode? content.toList = some chars ↔ content = (String.ofList chars).toUTF8 := by
  constructor
  · intro read
    have same : content.toList = (String.ofList chars).toUTF8.toList := by
      rw [toList_toUTF8, String.toList_ofList]
      exact eq_encode_of_decode? read
    rw [byteArray_toList, byteArray_toList, Array.toList_inj] at same
    exact ByteArray.ext same
  · rintro rfl
    rw [decode?_toUTF8, String.toList_ofList]

theorem decode?_eq_none_iff {content : ByteArray} :
    decode? content.toList = none ↔ ∀ text : String, content ≠ text.toUTF8 := by
  rw [Option.eq_none_iff_forall_ne_some]
  constructor
  · rintro refused text rfl
    exact refused _ (decode?_toUTF8 text)
  · intro other chars read
    exact other _ (decode?_eq_some_iff.mp read)

end AssetRefs.Text.Utf8
