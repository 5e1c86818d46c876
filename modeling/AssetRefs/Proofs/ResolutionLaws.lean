import AssetRefs.Proofs.TraceLaws

/-! # Laws of resolution

Which of the ways to resolve a call applies. A callee that selects no member of the namespace makes
no call site, and arguments other than calls and composite literals are passed over.
-/

namespace AssetRefs

theorem ScanContext.pathOf_eq_ok_iff {context : ScanContext} {raw : String} {path : AssetPath} :
    context.pathOf raw = .ok path ↔
      ∃ text parsed, GoString.unquote raw = .ok text ∧
        AssetPath.parse context.home text = .ok parsed ∧
        path = if text.toList.head? = some ':' then { parsed with pkg := context.package }
          else parsed := by
  unfold pathOf
  cases GoString.unquote raw with
  | error fault => simp
  | ok text =>
    cases parsed : AssetPath.parse context.home text with
    | error error => simp [parsed]
    | ok path => simp [parsed, eq_comm]

theorem onlyLiteral?_eq_some_iff {nodes : List Node} {text : String} :
    onlyLiteral? nodes = some text ↔ ∃ site, nodes = [.literal site text] := by
  constructor
  · intro only
    unfold onlyLiteral? at only
    split at only
    · next site found =>
      cases only
      exact ⟨site, rfl⟩
    · cases only
  · rintro ⟨site, rfl⟩
    rfl

/-- An expression denotes the literal with the given source text: it is that literal, or the name of
a variable defined by it, or the name of a constant declared with it. -/
inductive Denotes (table : BindingTable) : Node → String → Prop where
  | literal (site : Site) (raw : String) : Denotes table (.literal site raw) raw
  | defined {site spot inner : Site} {name raw : String} {offset : Nat} {place : Address}
      {left : List Node} :
      table.find? offset =
        some (.declaration place (.assignment spot left [.literal inner raw] true)) →
      Denotes table (.ident site name offset) raw
  | declared {site spot inner : Site} {name raw : String} {offset : Nat} {place : Address}
      {names : List Node} {type : Option Node} :
      table.find? offset =
        some (.declaration place (.valueSpec spot names type [.literal inner raw] true)) →
      Denotes table (.ident site name offset) raw

theorem valueOf?_eq_ok_iff {context : ScanContext} {table : BindingTable} {site : Site}
    {name raw : String} {offset : Nat} :
    valueOf? context (table.find? offset) site name = some (.ok raw) ↔
      Denotes table (.ident site name offset) raw := by
  constructor
  · intro readable
    unfold valueOf? at readable
    split at readable
    · next place spot left right found =>
      split at readable
      · next text only =>
        cases readable
        obtain ⟨inner, rfl⟩ := onlyLiteral?_eq_some_iff.mp only
        exact .defined found
      · cases readable
    · next place spot names type values found =>
      split at readable
      · next text only =>
        cases readable
        obtain ⟨inner, rfl⟩ := onlyLiteral?_eq_some_iff.mp only
        exact .declared found
      · cases readable
    · cases readable
  · intro denotes
    cases denotes with
    | defined found =>
      rw [found]
      rfl
    | declared found =>
      rw [found]
      rfl

/-- A value that cannot be read is a problem at the name. -/
theorem problem_of_valueOf? {context : ScanContext} {binding : Option Binding} {site : Site}
    {name : String} {reason : Halt}
    (unreadable : valueOf? context binding site name = some (.error reason)) :
    ∃ problem, reason = context.problem site problem := by
  unfold valueOf? at unreadable
  split at unreadable
  · split at unreadable
    · cases unreadable
    · cases unreadable
      exact ⟨_, rfl⟩
  · split at unreadable
    · cases unreadable
    · cases unreadable
      exact ⟨_, rfl⟩
  · cases unreadable

/-- Whether a node is a composite literal. -/
def Node.isComposite : Node → Bool
  | .composite .. => true
  | _ => false

theorem memberOf?_eq_none {context : ScanContext} {callee : Node}
    (plain : callee.isSelector = false) : memberOf? context callee = none := by
  cases callee with
  | selector => cases plain
  | _ => rfl

theorem memberOf?_eq_some {context : ScanContext} {callee : Node} {member : Member}
    (selected : memberOf? context callee = some member) :
    ∃ place spot offset name,
      callee = .selector place (.ident spot context.spaceName offset) name ∧
        (name = "Open" ∨ name = "Walk") := by
  unfold memberOf? at selected
  split at selected
  · next place spot space offset name =>
    split_ifs at selected with named opens walks
    · exact ⟨place, spot, offset, name, by rw [named], .inl opens⟩
    · exact ⟨place, spot, offset, name, by rw [named], .inr walks⟩
  · cases selected

@[simp] theorem memberOf?_open (context : ScanContext) (place spot : Site) (offset : Nat) :
    memberOf? context (.selector place (.ident spot context.spaceName offset) "Open") =
      some .open := by
  simp [memberOf?]

@[simp] theorem memberOf?_walk (context : ScanContext) (place spot : Site) (offset : Nat) :
    memberOf? context (.selector place (.ident spot context.spaceName offset) "Walk") =
      some .walk := by
  simp [memberOf?]

section

variable {context : ScanContext} {table : BindingTable} {follow : Nat → Trace Unit}

theorem recognize_none (site : Site) (arguments : List Node) :
    recognize context table follow none site arguments = .done () := by
  cases arguments <;> rfl

theorem recognize_open (site : Site) (first : Node) (rest : List Node) :
    recognize context table follow (some .open) site (first :: rest) =
      if first.isCall then resolveDirect context table follow first
      else openArgument context table follow first := rfl

theorem recognize_walk (site : Site) (first other : Node) :
    recognize context table follow (some .walk) site [first, other] =
      if first.isCall then resolveDirect context table follow first
      else walkArgument context table follow first := rfl

theorem resolveArguments_cons_plain {node : Node} (notCall : node.isCall = false)
    (notComposite : node.isComposite = false) (callee : Node) (rest : List Node) :
    resolveArguments context table follow callee (node :: rest) =
      resolveArguments context table follow callee rest := by
  cases node with
  | call => cases notCall
  | composite => cases notComposite
  | _ => rfl

/-- The first call among the arguments borrows the member of a callee that selects one. -/
theorem resolveArguments_yields (callee : Node) (nodes : List Node) :
    (resolveArguments context table follow callee nodes).Yields
      (· = (callee.isSelector && nodes.any Node.isCall)) := by
  induction nodes with
  | nil => exact .done (by simp)
  | cons node rest ih =>
    cases node with
    | call site inner arguments =>
      unfold resolveArguments
      cases selects : callee.isSelector with
      | false =>
        simp only [Node.isCall, Bool.not_false, Bool.and_true, ↓reduceIte]
        rw [selects] at ih
        exact .andThen fun _ => by simpa using ih
      | true =>
        simp only [Node.isCall, Bool.not_true, Bool.and_false, Bool.false_eq_true, ↓reduceIte]
        exact .andThen fun _ => .done (by simp [Node.isCall])
    | composite => exact .andThen fun _ => by simpa [Node.isCall] using ih
    | _ =>
      rw [resolveArguments_cons_plain rfl rfl]
      simpa [Node.isCall] using ih

/-- A call without calls and composite literals among its arguments is only looked at itself. -/
theorem resolveDirect_plain {arguments : List Node}
    (plain : ∀ argument ∈ arguments, argument.isCall = false ∧ argument.isComposite = false)
    (site : Site) (callee : Node) :
    resolveDirect context table follow (.call site callee arguments) =
      recognize context table follow (memberOf? context callee) site arguments := by
  have passed : resolveArguments context table follow callee arguments = .done false := by
    clear site
    induction arguments with
    | nil => rfl
    | cons node rest ih =>
      obtain ⟨⟨notCall, notComposite⟩, plainRest⟩ := List.forall_mem_cons.mp plain
      rw [resolveArguments_cons_plain notCall notComposite]
      exact ih plainRest
  rw [resolveDirect, passed, Trace.done_andThen]
  rfl

end

end AssetRefs
