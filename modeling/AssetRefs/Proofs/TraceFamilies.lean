import AssetRefs.Proofs.ScopeLaws
import AssetRefs.Scan.Run

/-! # Families of scans

Scans of one file that are told different packages, or that have its declarations at different
places, go the same way: they look at the same values and the same members, and they follow
declarations that correspond to each other. What such scans do side by side is a family of traces,
one for each scan. A property of families that the few kinds of traces have and that survives
putting traces together holds of every resolution: see `ScanFamily.Closed`.
-/

namespace AssetRefs

/-- Scans that may differ in the packages they are told and in the places of declarations, and in
nothing else. -/
structure ScanFamily (ι : Type) where
  context : ι → ScanContext
  table : ι → BindingTable
  /-- Where a scan has the declaration that the table `names` has at a place. -/
  move : ι → Address → Address
  base : ScanContext
  names : BindingTable
  file_eq : ∀ i, (context i).file = base.file
  spaceName_eq : ∀ i, (context i).spaceName = base.spaceName
  size_eq : ∀ i, (table i).size = names.size
  find?_eq : ∀ i offset,
    (table i).find? offset = (names.find? offset).map (Binding.relocate (move i))

namespace ScanFamily

/-- The family of one scan. -/
def single (context : ScanContext) (table : BindingTable) : ScanFamily Unit where
  context _ := context
  table _ := table
  move _ place := place
  base := context
  names := table
  file_eq _ := rfl
  spaceName_eq _ := rfl
  size_eq _ := rfl
  find?_eq _ _ := (Binding.map_relocate_id _).symm

variable {ι : Type} (family : ScanFamily ι)

theorem problem_eq (i : ι) (site : Site) (problem : Problem) :
    (family.context i).problem site problem = family.base.problem site problem := by
  rw [ScanContext.problem, ScanContext.problem, family.file_eq]

theorem memberOf?_eq (i : ι) (callee : Node) :
    memberOf? (family.context i) callee = memberOf? family.base callee := by
  unfold memberOf?
  rw [family.spaceName_eq]

theorem valueOf?_eq (i : ι) (offset : Nat) (site : Site) (name : String) :
    valueOf? (family.context i) ((family.table i).find? offset) site name =
      valueOf? family.base (family.names.find? offset) site name := by
  rw [family.find?_eq]
  cases family.names.find? offset with
  | none => rfl
  | some target =>
    cases target with
    | marker kind => rfl
    | declaration place declaration =>
      simp only [Option.map_some, Binding.relocate, valueOf?, family.problem_eq]
      cases declaration with
      | assignment _ _ _ defines => cases defines <;> rfl
      | valueSpec _ _ _ _ constant => cases constant <;> rfl

/-- A property of families of traces that all the ways to put traces together preserve. Scans may
register different paths for one literal. -/
structure Closed (holds : {α : Type} → (ι → Trace α) → Prop) : Prop where
  done : ∀ {α : Type} (value : α), holds fun _ => Trace.done value
  halt : ∀ {α : Type} (reason : Halt), holds fun _ => (Trace.halt reason : Trace α)
  resume : ∀ {α β : Type} {first : ι → Trace α} {next : ι → Except Halt α → Trace β},
    holds first → (∀ outcome, holds fun i => next i outcome) →
    holds fun i => (first i).resume (next i)
  addPath : ∀ (raw : String) (site : Site),
    holds fun i => ((family.context i).addPath raw site).andThen fun _ => .done ()
  following : ∀ {trace : ι → Trace Unit} (place : Address), holds trace →
    holds fun i => Trace.following (family.move i place) (trace i)

end ScanFamily

/-- It does not matter which result is dropped. -/
theorem Trace.deferring_void {α : Type} (first : Trace α) (next : Unit → Trace Unit) :
    (first.andThen fun _ => .done ()).deferring next = first.deferring next := by
  simp only [deferring, andThen, resume, Trace.mk.injEq]
  funext session
  rcases (first.run session).2 with (_ | _) | _ <;> rfl

namespace ScanFamily.Closed

variable {ι : Type} {family : ScanFamily ι} {holds : {α : Type} → (ι → Trace α) → Prop}
  (closed : family.Closed holds) (follow : ι → Nat → Trace Unit)

include closed

theorem andThen {α β : Type} {first : ι → Trace α} {next : ι → α → Trace β}
    (holdsFirst : holds first) (holdsNext : ∀ value, holds fun i => next i value) :
    holds fun i => (first i).andThen (next i) := by
  refine closed.resume holdsFirst fun outcome => ?_
  cases outcome with
  | error reason => exact closed.halt reason
  | ok value => exact holdsNext value

theorem deferring {α : Type} {first : ι → Trace α} {next : ι → Unit → Trace Unit}
    (holdsFirst : holds first) (holdsNext : holds fun i => next i ()) :
    holds fun i => (first i).deferring (next i) := by
  refine closed.resume holdsFirst fun outcome => ?_
  cases outcome with
  | ok _ => exact holdsNext
  | error reason =>
    cases reason with
    | problem _ => exact closed.andThen holdsNext fun _ => closed.halt _
    | malformedLiteral => exact closed.halt _

theorem plainValue (followed : ∀ offset, holds fun i => follow i offset) (node : Node) :
    holds fun i => plainValue (family.context i) (family.table i) (follow i) node := by
  cases node with
  | ident site name offset =>
    simp only [AssetRefs.plainValue, family.valueOf?_eq]
    split
    · exact closed.done _
    · exact closed.halt _
    · exact closed.andThen (followed _) fun _ => closed.done _
  | literal => exact closed.done _
  | _ =>
    simp only [AssetRefs.plainValue, family.problem_eq]
    exact closed.halt _

theorem walkArgument (followed : ∀ offset, holds fun i => follow i offset) (node : Node) :
    holds fun i => walkArgument (family.context i) (family.table i) (follow i) node := by
  refine closed.andThen (closed.plainValue follow followed node) fun value => ?_
  cases value with
  | none => exact closed.done _
  | some raw => exact closed.addPath raw _

theorem openArgument (followed : ∀ offset, holds fun i => follow i offset) (node : Node) :
    holds fun i => openArgument (family.context i) (family.table i) (follow i) node := by
  cases node with
  | ident site name offset =>
    simp only [AssetRefs.openArgument, family.valueOf?_eq]
    split
    · exact followed _
    · exact closed.andThen (followed _) fun _ => closed.halt _
    · simp only [← Trace.deferring_void (ScanContext.addPath _ _ _)]
      exact closed.deferring (closed.addPath _ _) (followed _)
  | literal => exact closed.addPath _ _
  | _ => exact closed.done _

mutual

theorem resolveDirect (followed : ∀ offset, holds fun i => follow i offset) : (node : Node) →
    holds fun i => resolveDirect (family.context i) (family.table i) (follow i) node
  | .call site callee arguments => by
    simp only [AssetRefs.resolveDirect, family.memberOf?_eq]
    refine closed.andThen (resolveArguments followed callee arguments) fun borrowed => ?_
    split
    · exact closed.done _
    · exact recognize followed _ site arguments
  | .keyed _ _ value => resolveDirect followed value
  | .generic .. | .ident .. | .literal .. | .selector .. | .composite .. | .assignment ..
  | .valueSpec .. | .group .. | .function .. | .statement .. => closed.done _
termination_by structural node => node

theorem resolveArguments (followed : ∀ offset, holds fun i => follow i offset) (callee : Node) :
    (nodes : List Node) → holds fun i =>
      resolveArguments (family.context i) (family.table i) (follow i) callee nodes
  | [] => closed.done _
  | .call site inner arguments :: rest => by
    simp only [AssetRefs.resolveArguments, family.memberOf?_eq]
    split
    · exact closed.andThen (resolveNested followed (.call site inner arguments)) fun _ =>
        resolveArguments followed callee rest
    · exact closed.andThen (recognize followed _ site arguments) fun _ => closed.done _
  | .composite _ _ elements :: rest =>
    closed.andThen (resolveAllDirect followed elements) fun _ =>
      resolveArguments followed callee rest
  | .generic .. :: rest | .ident .. :: rest | .literal .. :: rest | .selector .. :: rest
  | .keyed .. :: rest | .assignment .. :: rest | .valueSpec .. :: rest | .group .. :: rest
  | .function .. :: rest | .statement .. :: rest => resolveArguments followed callee rest
termination_by structural nodes => nodes

theorem resolveAllDirect (followed : ∀ offset, holds fun i => follow i offset) :
    (nodes : List Node) → holds fun i =>
      resolveAllDirect (family.context i) (family.table i) (follow i) nodes
  | [] => closed.done _
  | node :: rest =>
    closed.andThen (resolveDirect followed node) fun _ => resolveAllDirect followed rest
termination_by structural nodes => nodes

theorem resolveNested (followed : ∀ offset, holds fun i => follow i offset) : (node : Node) →
    holds fun i => resolveNested (family.context i) (family.table i) (follow i) node
  | .composite _ _ elements => resolveAllDirect followed elements
  | .call site callee arguments => by
    simp only [AssetRefs.resolveNested, family.memberOf?_eq]
    refine closed.andThen ?_ fun _ => resolveAllNested followed arguments
    split
    · exact recognize followed _ site arguments
    · exact followed _
    · exact closed.done _
  | .generic .. | .ident .. | .literal .. | .selector .. | .keyed .. | .assignment ..
  | .valueSpec .. | .group .. | .function .. | .statement .. => closed.done _
termination_by structural node => node

theorem resolveAllNested (followed : ∀ offset, holds fun i => follow i offset) :
    (nodes : List Node) → holds fun i =>
      resolveAllNested (family.context i) (family.table i) (follow i) nodes
  | [] => closed.done _
  | node :: rest =>
    closed.andThen (resolveNested followed node) fun _ => resolveAllNested followed rest
termination_by structural nodes => nodes

theorem recognize (followed : ∀ offset, holds fun i => follow i offset) (member : Option Member)
    (site : Site) : (nodes : List Node) → holds fun i =>
      recognize (family.context i) (family.table i) (follow i) member site nodes
  | [] => by
    simp only [AssetRefs.recognize, family.problem_eq]
    split
    · exact closed.halt _
    · exact closed.done _
  | first :: rest => by
    simp only [AssetRefs.recognize, family.problem_eq]
    split
    · exact closed.done _
    · split_ifs
      · exact closed.halt _
      · exact resolveDirect followed first
      · exact closed.walkArgument follow followed first
    · split_ifs
      · exact resolveDirect followed first
      · exact closed.openArgument follow followed first
termination_by structural nodes => nodes

end

theorem literalValue (followed : ∀ offset, holds fun i => follow i offset) (node : Node) :
    holds fun i => literalValue (family.context i) (family.table i) (follow i) node := by
  unfold AssetRefs.literalValue
  split_ifs
  · exact closed.andThen (closed.resolveDirect follow followed node) fun _ => closed.done _
  · exact closed.plainValue follow followed node

theorem resolveDeclaration (followed : ∀ offset, holds fun i => follow i offset)
    (declaration : Declaration) : holds fun i =>
      resolveDeclaration (family.context i) (family.table i) (follow i) declaration := by
  cases declaration with
  | assignment => exact closed.resolveAllNested follow followed _
  | valueSpec => exact closed.resolveAllDirect follow followed _

theorem resolveStatement (followed : ∀ offset, holds fun i => follow i offset) (node : Node) :
    holds fun i => resolveStatement (family.context i) (family.table i) (follow i) node := by
  cases node with
  | statement => exact closed.resolveDirect follow followed _
  | assignment => exact closed.resolveAllNested follow followed _
  | _ => exact closed.done _

theorem resolveStatements (followed : ∀ offset, holds fun i => follow i offset)
    (nodes : List Node) :
    holds fun i => resolveStatements (family.context i) (family.table i) (follow i) nodes := by
  induction nodes with
  | nil => exact closed.done _
  | cons node rest ih =>
    exact closed.andThen (closed.resolveStatement follow followed node) fun _ => ih

mutual

theorem classify (followed : ∀ offset, holds fun i => follow i offset) : (node : Node) →
    holds fun i => classify (family.context i) (family.table i) (follow i) node
  | .call site callee arguments =>
    closed.resolveDirect follow followed (.call site callee arguments)
  | .ident _ _ offset => followed offset
  | .group _ specs => classifyAll followed specs
  | .function _ _ _ (some body) => closed.resolveStatements follow followed body
  | .valueSpec _ _ _ values _ => closed.resolveAllDirect follow followed values
  | .generic .. | .literal .. | .selector .. | .composite .. | .keyed .. | .assignment ..
  | .function _ _ _ none | .statement .. => closed.done _
termination_by structural node => node

theorem classifyAll (followed : ∀ offset, holds fun i => follow i offset) :
    (nodes : List Node) → holds fun i =>
      classifyAll (family.context i) (family.table i) (follow i) nodes
  | [] => closed.done _
  | node :: rest => closed.andThen (classify followed node) fun _ => classifyAll followed rest
termination_by structural nodes => nodes

end

/-- Scans follow a name to declarations that correspond to each other. -/
theorem followName (rounds offset : Nat) :
    holds fun i => followName (family.context i) (family.table i) rounds offset := by
  induction rounds generalizing offset with
  | zero => exact closed.done _
  | succ rounds ih =>
    simp only [AssetRefs.followName, family.find?_eq]
    cases family.names.find? offset with
    | none => exact closed.done _
    | some target =>
      cases target with
      | marker kind => exact closed.done _
      | declaration place declaration =>
        exact closed.following place (closed.resolveDeclaration _ ih declaration)

theorem followFresh (offset : Nat) :
    holds fun i => followFresh (family.context i) (family.table i) offset := by
  simp only [AssetRefs.followFresh, family.size_eq]
  exact closed.followName _ offset

end ScanFamily.Closed

end AssetRefs
