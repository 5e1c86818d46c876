import AssetRefs.Json
import Mathlib.Data.List.Nodup
import Mathlib.Data.String.Basic

/-! # Canonical forms of JSON values

The order of members in an object has no meaning: `Json.Alike` is equality of values up to this
order, at any depth. The canonical form of a value differs from it in this order only
(`Json.alike_canonical`). If keys are distinct, it does not depend on the order
(`Json.Alike.canonical_eq`).
-/

namespace AssetRefs.Json

/-! ## Values up to the order of members -/

/-- What holds of a value if it holds of all that it has inside holds of every value. -/
@[elab_as_elim]
theorem induct {motive : Json → Prop} (null : motive .null) (bool : ∀ value, motive (.bool value))
    (number : ∀ value, motive (.number value)) (string : ∀ text, motive (.string text))
    (array : ∀ items, (∀ item ∈ items, motive item) → motive (.array items))
    (object : ∀ members, (∀ member ∈ members, motive member.2) → motive (.object members))
    (value : Json) : motive value := by
  cases value with
  | null => exact null
  | bool value => exact bool value
  | number value => exact number value
  | string text => exact string text
  | array items =>
    exact array items fun item _ => induct null bool number string array object item
  | object members =>
    exact object members fun member _ => induct null bool number string array object member.2
termination_by sizeOf value
decreasing_by
  · have := List.sizeOf_lt_of_mem ‹item ∈ items›
    simp only [Json.array.sizeOf_spec]
    omega
  · have := List.sizeOf_lt_of_mem ‹member ∈ members›
    have : sizeOf member.2 < sizeOf member := by
      cases member
      simp only [Prod.mk.sizeOf_spec]
      omega
    simp only [Json.object.sizeOf_spec]
    omega

/-- No object in the value has a key twice. -/
inductive DistinctKeys : Json → Prop where
  | null : DistinctKeys .null
  | bool (value : Bool) : DistinctKeys (.bool value)
  | number (value : Int) : DistinctKeys (.number value)
  | string (text : String) : DistinctKeys (.string text)
  | array {items : List Json} : (∀ item ∈ items, item.DistinctKeys) → DistinctKeys (.array items)
  | object {members : List (String × Json)} : (members.map Prod.fst).Nodup →
      (∀ member ∈ members, member.2.DistinctKeys) → DistinctKeys (.object members)

/-- The values are equal up to the order of members, in any object inside them. -/
inductive Alike : Json → Json → Prop where
  | refl (value : Json) : Alike value value
  | symm {value other : Json} : Alike value other → Alike other value
  | trans {first second third : Json} : Alike first second → Alike second third → Alike first third
  | item {before after : List Json} {item other : Json} : Alike item other →
      Alike (.array (before ++ item :: after)) (.array (before ++ other :: after))
  | member {before after : List (String × Json)} {key : String} {value other : Json} :
      Alike value other →
      Alike (.object (before ++ (key, value) :: after)) (.object (before ++ (key, other) :: after))
  | order {members others : List (String × Json)} : members.Perm others →
      Alike (.object members) (.object others)

theorem distinctKeys_array_iff {items : List Json} :
    (array items).DistinctKeys ↔ ∀ item ∈ items, item.DistinctKeys := by
  refine ⟨?_, .array⟩
  rintro (_ | _ | _ | _ | inside)
  exact inside

theorem distinctKeys_object_iff {members : List (String × Json)} :
    (object members).DistinctKeys ↔
      (members.map Prod.fst).Nodup ∧ ∀ member ∈ members, member.2.DistinctKeys := by
  refine ⟨?_, fun known => .object known.1 known.2⟩
  intro distinct
  cases distinct with
  | object keys inside => exact ⟨keys, inside⟩

theorem Alike.distinctKeys_iff {value other : Json} (alike : value.Alike other) :
    value.DistinctKeys ↔ other.DistinctKeys := by
  induction alike with
  | refl value => exact Iff.rfl
  | symm _ ih => exact ih.symm
  | trans _ _ first second => exact first.trans second
  | item _ ih =>
    simp only [distinctKeys_array_iff, List.forall_mem_append, List.forall_mem_cons, ih]
  | member _ ih =>
    simp only [distinctKeys_object_iff, List.forall_mem_append, List.forall_mem_cons, ih,
      List.map_append, List.map_cons]
  | order perm =>
    simp only [distinctKeys_object_iff, (perm.map Prod.fst).nodup_iff, perm.mem_iff]

/-! ## Canonical forms -/

theorem canonicalItems_eq_map (items : List Json) : canonicalItems items = items.map canonical := by
  induction items with
  | nil => rfl
  | cons item items ih => rw [canonicalItems, ih, List.map_cons]

/-- A member with its value in canonical form. -/
def canonicalMember (member : String × Json) : String × Json := (member.1, member.2.canonical)

theorem canonicalMembers_eq_foldr (members : List (String × Json)) :
    canonicalMembers members = (members.map canonicalMember).foldr insertMember [] := by
  induction members with
  | nil => rfl
  | cons member members ih => rw [canonicalMembers, ih, List.map_cons, List.foldr_cons]; rfl

theorem perm_insertMember (member : String × Json) (members : List (String × Json)) :
    (insertMember member members).Perm (member :: members) := by
  induction members with
  | nil => exact .rfl
  | cons other rest ih =>
    rw [insertMember]
    split
    · exact .rfl
    · exact (ih.cons other).trans (.swap ..)

theorem perm_canonicalMembers (members : List (String × Json)) :
    (canonicalMembers members).Perm (members.map canonicalMember) := by
  rw [canonicalMembers_eq_foldr]
  induction members.map canonicalMember with
  | nil => exact .rfl
  | cons member members ih => exact (perm_insertMember ..).trans (ih.cons member)

theorem insertMember_comm {first second : String × Json} (apart : first.1 ≠ second.1)
    (members : List (String × Json)) :
    insertMember first (insertMember second members) =
      insertMember second (insertMember first members) := by
  induction members with
  | nil =>
    rcases lt_or_gt_of_ne apart with less | less <;>
      simp only [insertMember, if_pos less, if_neg less.asymm]
  | cons member members ih =>
    -- Which of the three keys is least decides what comes first, not which is put in first.
    grind [insertMember]

/-- The order of members with distinct keys does not matter for the canonical form. -/
theorem canonicalMembers_eq_of_perm {members others : List (String × Json)}
    (distinct : (members.map Prod.fst).Nodup) (perm : members.Perm others) :
    canonicalMembers members = canonicalMembers others := by
  rw [canonicalMembers_eq_foldr, canonicalMembers_eq_foldr]
  refine (perm.map canonicalMember).foldr_eq' ?_ []
  have keys : ((members.map canonicalMember).map Prod.fst).Nodup := by
    rw [List.map_map]
    exact distinct
  intro first inFirst second inSecond members
  by_cases same : first = second
  · rw [same]
  · apply insertMember_comm
    intro key
    exact same (List.inj_on_of_nodup_map keys inFirst inSecond key.symm)

theorem Alike.canonical_eq {value other : Json} (alike : value.Alike other)
    (distinct : value.DistinctKeys) : value.canonical = other.canonical := by
  induction alike with
  | refl value => rfl
  | symm alike ih => exact (ih (alike.distinctKeys_iff.mpr distinct)).symm
  | trans first _ ihFirst ihSecond =>
    exact (ihFirst distinct).trans (ihSecond (first.distinctKeys_iff.mp distinct))
  | item _ ih =>
    have inside := distinctKeys_array_iff.mp distinct _ List.mem_append_cons_self
    simp only [canonical, canonicalItems_eq_map, List.map_append, List.map_cons, ih inside]
  | member _ ih =>
    have inside := (distinctKeys_object_iff.mp distinct).2 _ List.mem_append_cons_self
    simp only [canonical, canonicalMembers_eq_foldr, canonicalMember, List.map_append,
      List.map_cons, ih inside]
  | order perm =>
    have keys := (distinctKeys_object_iff.mp distinct).1
    rw [canonical, canonical, canonicalMembers_eq_of_perm keys perm]

/-- Items are put into canonical form one after the other; those before are done. -/
theorem Alike.items {items : List Json} (inside : ∀ item ∈ items, item.Alike item.canonical)
    (before : List Json) :
    (array (before ++ items)).Alike (array (before ++ items.map canonical)) := by
  induction items generalizing before with
  | nil => exact .refl _
  | cons item items ih =>
    rw [List.forall_mem_cons] at inside
    have rest := ih inside.2 (before ++ [item.canonical])
    rw [List.append_assoc, List.append_assoc] at rest
    exact .trans (.item inside.1) rest

theorem Alike.members {members : List (String × Json)}
    (inside : ∀ member ∈ members, member.2.Alike member.2.canonical)
    (before : List (String × Json)) :
    (object (before ++ members)).Alike (object (before ++ members.map canonicalMember)) := by
  induction members generalizing before with
  | nil => exact .refl _
  | cons member members ih =>
    rw [List.forall_mem_cons] at inside
    have rest := ih inside.2 (before ++ [canonicalMember member])
    rw [List.append_assoc, List.append_assoc] at rest
    exact .trans (.member inside.1) rest

theorem alike_canonical (value : Json) : value.Alike value.canonical := by
  induction value using induct with
  | null => exact .refl _
  | bool value => exact .refl _
  | number value => exact .refl _
  | string text => exact .refl _
  | array items ih =>
    rw [canonical, canonicalItems_eq_map]
    exact Alike.items ih []
  | object members ih =>
    rw [canonical]
    exact .trans (Alike.members ih []) (.order (perm_canonicalMembers members).symm)

/-- Values are equal up to the order of members if their canonical forms are equal. -/
theorem alike_of_canonical_eq {value other : Json} (same : value.canonical = other.canonical) :
    value.Alike other :=
  .trans value.alike_canonical (same ▸ other.alike_canonical.symm)

end AssetRefs.Json
