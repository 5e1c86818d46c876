import AssetRefs.AssetPath
import Mathlib.Data.List.Sort
import Mathlib.Data.String.Basic

/-! # The order of asset paths

Paths are ordered by package and then by name, and this order is strict and total. A list that is
strictly increasing in it is a canonical form of the set of its members: `increasing_ext` says that
two such lists with the same members are equal. Insertion keeps the form.
-/

namespace AssetRefs.AssetPath

theorem before_iff {a b : AssetPath} :
    a.before b ↔ a.pkg < b.pkg ∨ a.pkg = b.pkg ∧ a.name < b.name := by
  simp only [before, Bool.or_eq_true, Bool.and_eq_true, beq_iff_eq, decide_eq_true_eq]

theorem before_irrefl (path : AssetPath) : ¬ path.before path := by
  rw [before_iff]
  rintro (less | ⟨_, less⟩)
  · exact lt_irrefl _ less
  · exact lt_irrefl _ less

theorem before_trans {a b c : AssetPath} (first : a.before b) (second : b.before c) :
    a.before c := by
  rw [before_iff] at first second ⊢
  rcases first with first | ⟨same, first⟩
  · rcases second with second | ⟨same, _⟩
    · exact .inl (first.trans second)
    · exact .inl (same ▸ first)
  · rcases second with second | ⟨same', second⟩
    · exact .inl (same ▸ second)
    · exact .inr ⟨same.trans same', first.trans second⟩

/-- Of two different paths one is before the other. -/
theorem before_total {a b : AssetPath} (different : a ≠ b) : a.before b ∨ b.before a := by
  simp only [before_iff]
  rcases lt_trichotomy a.pkg b.pkg with less | same | greater
  · exact .inl (.inl less)
  · rcases lt_trichotomy a.name b.name with less | sameName | greater
    · exact .inl (.inr ⟨same, less⟩)
    · exact (different (by cases a; cases b; simp_all)).elim
    · exact .inr (.inr ⟨same.symm, greater⟩)
  · exact .inr (.inl greater)

/-- A list without repeats in the order of paths. -/
def Increasing (paths : List AssetPath) : Prop := paths.Pairwise fun a b => a.before b

theorem mem_insert {path other : AssetPath} {paths : List AssetPath} :
    other ∈ insert path paths ↔ other = path ∨ other ∈ paths := by
  induction paths with
  | nil => simp [insert]
  | cons head rest ih =>
    rw [insert]
    split_ifs with smaller same
    · simp
    · simp [same]
    · simp only [List.mem_cons, ih]
      tauto

theorem Increasing.insert {paths : List AssetPath} (increasing : Increasing paths)
    (path : AssetPath) : Increasing (AssetPath.insert path paths) := by
  induction paths with
  | nil => exact List.pairwise_singleton _ _
  | cons head rest ih =>
    obtain ⟨least, increasingRest⟩ := List.pairwise_cons.mp increasing
    rw [AssetPath.insert]
    split_ifs with smaller same
    · refine List.pairwise_cons.mpr ⟨?_, increasing⟩
      intro other member
      rcases List.mem_cons.mp member with rfl | member
      · exact smaller
      · exact before_trans smaller (least other member)
    · exact increasing
    · refine List.pairwise_cons.mpr ⟨?_, ih increasingRest⟩
      intro other member
      rcases mem_insert.mp member with rfl | member
      · exact (before_total (Ne.symm same)).resolve_right smaller
      · exact least other member

theorem mem_sorted {path : AssetPath} {paths : List AssetPath} :
    path ∈ sorted paths ↔ path ∈ paths := by
  suffices ∀ acc, path ∈ paths.foldl (fun acc other => AssetPath.insert other acc) acc ↔
      path ∈ acc ∨ path ∈ paths by simpa [sorted] using this []
  induction paths with
  | nil => simp
  | cons first rest ih =>
    intro acc
    rw [List.foldl_cons, ih, mem_insert, List.mem_cons]
    tauto

theorem increasing_sorted (paths : List AssetPath) : Increasing (sorted paths) := by
  suffices ∀ acc, Increasing acc →
      Increasing (paths.foldl (fun acc other => AssetPath.insert other acc) acc) from
    this [] List.Pairwise.nil
  induction paths with
  | nil => exact fun _ increasing => increasing
  | cons first rest ih => exact fun acc increasing => ih _ (increasing.insert first)

/-- Increasing lists with the same members are equal. -/
theorem increasing_ext {first second : List AssetPath} (increasing : Increasing first)
    (increasing' : Increasing second) (same : ∀ path, path ∈ first ↔ path ∈ second) :
    first = second := by
  have : Std.Irrefl fun a b : AssetPath => a.before b = true := ⟨before_irrefl⟩
  have : Std.Antisymm fun a b : AssetPath => a.before b = true :=
    ⟨fun a _ less greater => (before_irrefl a (before_trans less greater)).elim⟩
  exact List.Pairwise.eq_of_mem_iff increasing increasing' same

end AssetRefs.AssetPath
