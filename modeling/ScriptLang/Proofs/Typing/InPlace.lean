import Mathlib.Data.List.Basic
import ScriptLang.Proofs.Stateful
import ScriptLang.Proofs.Typing.Inversion
import ScriptLang.Typing.InPlace

/-!
Checking in place finds what checking without a state finds. Inside a scope of the tree only that
scope and scopes opened later change, so whatever way a part of a program is left, also at an error
with scopes open all the way down, the scopes around it, the types of the host and the return type
are as they were.
-/

set_option autoImplicit false
set_option relaxedAutoImplicit false

namespace ScriptLang

/-! ### Scopes in a tree -/

namespace ScopeTree

variable {V F : Type} {tree changed : ScopeTree V F} {number other : Nat} {here : Scope V F}
  {outer : Chain V F}

/-- A changed scope keeps the scopes that are around it. -/
theorem modify_same (change : Scope V F → Scope V F) :
    (tree.modify number change).nodes[number]? =
      tree.nodes[number]?.map fun node ↦ { node with scope := change node.scope } := by
  unfold modify
  simp only [List.getElem?_modify, if_true]
  rfl

/-- A change of one scope leaves the others where they are. -/
theorem modify_of_ne (h : number ≠ other) (change : Scope V F → Scope V F) :
    (tree.modify number change).nodes[other]? = tree.nodes[other]? := by
  unfold modify
  simp only [List.getElem?_modify, if_neg h]
  exact id_map _

theorem child_of_lt (h : other < tree.nodes.length) :
    (tree.child number).nodes[other]? = tree.nodes[other]? :=
  List.getElem?_append_left h

/-- The scope with the number `number` is `here`, inside of the older scopes `outer`. -/
def At (tree : ScopeTree V F) (number : Nat) (here : Scope V F) (outer : Chain V F) : Prop :=
  ∃ enclosing, tree.nodes[number]? = some ⟨here, enclosing⟩ ∧
    (∀ other ∈ enclosing, other < number) ∧
    enclosing.filterMap tree.scope? = outer

namespace At

variable (h : tree.At number here outer)
include h

/-- The scope with the number is the one that it is said to be. -/
theorem scope? : tree.scope? number = some here := by
  obtain ⟨enclosing, hnode, -, -⟩ := h
  unfold ScopeTree.scope?
  rw [hnode]
  rfl

theorem lt_length : number < tree.nodes.length := by
  obtain ⟨enclosing, hnode, -, -⟩ := h
  exact (List.getElem?_eq_some_iff.mp hnode).1

/-- The chain from a scope is the scope and those around it. -/
theorem chain : tree.chain number = here :: outer := by
  have hscope := h.scope?
  obtain ⟨enclosing, hnode, -, houter⟩ := h
  unfold ScopeTree.chain path
  rw [hnode]
  dsimp only
  rw [List.filterMap_cons_some hscope, houter]

/-- A scope is inside of the same scopes when none of these has changed. -/
theorem of_nodes {now : Scope V F}
    (hself : changed.nodes[number]? = tree.nodes[number]?.map fun node ↦ { node with scope := now })
    (hbelow : ∀ other < number, changed.nodes[other]? = tree.nodes[other]?) :
    changed.At number now outer := by
  obtain ⟨enclosing, hnode, hlt, rfl⟩ := h
  rw [hnode] at hself
  refine ⟨enclosing, hself, hlt, List.filterMap_congr fun other hother ↦ ?_⟩
  unfold ScopeTree.scope?
  rw [hbelow other (hlt other hother)]

/-- What is known of a scope stays known while it and all older scopes are kept. -/
theorem kept (hkept : ∀ other ≤ number, changed.nodes[other]? = tree.nodes[other]?) :
    changed.At number here outer := by
  refine h.of_nodes ?_ fun other hother ↦ hkept other (Nat.le_of_lt hother)
  obtain ⟨enclosing, hnode, -, -⟩ := h
  rw [hkept number (Nat.le_refl _), hnode]
  rfl

/-- A change of a scope is known, and the scopes around it are as before. -/
theorem modify (change : Scope V F → Scope V F) :
    (tree.modify number change).At number (change here) outer := by
  refine h.of_nodes ?_ fun other hother ↦ modify_of_ne (Nat.ne_of_gt hother) change
  obtain ⟨enclosing, hnode, -, -⟩ := h
  rw [modify_same, hnode]
  rfl

/-- A new scope is empty, inside of the scope it is opened in. -/
theorem child : (tree.child number).At tree.nodes.length {} (here :: outer) := by
  have hchain := h.chain
  have hold (other : Nat) (hother : other ∈ tree.path number) : other < tree.nodes.length := by
    have hlength := h.lt_length
    obtain ⟨enclosing, hnode, hlt, -⟩ := h
    unfold path at hother
    rw [hnode] at hother
    obtain rfl | hother := List.mem_cons.mp hother
    · exact hlength
    · exact Nat.lt_trans (hlt other hother) hlength
  refine ⟨tree.path number, ?_, hold, ?_⟩
  · unfold ScopeTree.child
    rw [List.getElem?_append_right (Nat.le_refl _), Nat.sub_self]
    rfl
  · rw [← hchain]
    unfold ScopeTree.chain
    refine List.filterMap_congr fun other hother ↦ ?_
    unfold ScopeTree.scope?
    rw [child_of_lt (hold other hother)]

end At

end ScopeTree

/-! ### What an analysis leaves alone -/

/-- Nothing has changed outside of the scopes from `number` on. -/
structure Analyzer.Keeps (number : Nat) (before after : Analyzer) : Prop where
  records : after.records = before.records
  returns : after.returns = before.returns
  nodes : ∀ other < number, after.scopes.nodes[other]? = before.scopes.nodes[other]?

namespace Analyzer.Keeps

variable {number larger : Nat} {before middle after : Analyzer}

theorem refl (number : Nat) (analyzer : Analyzer) : Keeps number analyzer analyzer :=
  ⟨rfl, rfl, fun _ _ ↦ rfl⟩

theorem trans (hfirst : Keeps number before middle) (hsecond : Keeps number middle after) :
    Keeps number before after :=
  ⟨hsecond.records.trans hfirst.records, hsecond.returns.trans hfirst.returns,
    fun other hother ↦ (hsecond.nodes other hother).trans (hfirst.nodes other hother)⟩

theorem mono (h : Keeps larger before after) (hle : number ≤ larger) :
    Keeps number before after :=
  ⟨h.records, h.returns, fun other hother ↦ h.nodes other (Nat.lt_of_lt_of_le hother hle)⟩

/-- A change of a scope from the number on leaves the older ones alone. -/
theorem modify (change : TypeScope → TypeScope) :
    Keeps number before { before with scopes := before.scopes.modify number change } :=
  ⟨rfl, rfl, fun _ hother ↦ ScopeTree.modify_of_ne (Nat.ne_of_gt hother) change⟩

/-- All that the host has made known is outside of the scopes of programs. -/
theorem context (h : Keeps (number + 1) before after) : after.context = before.context := by
  unfold Analyzer.context ScopeTree.scope?
  rw [h.records, h.nodes 0 (Nat.succ_pos number)]

end Analyzer.Keeps

/-- A part of an analysis that finds what `verdict` says, and changes nothing. -/
def Analyzer.Finds {α : Type} (before : Analyzer) (part : Analysis α)
    (verdict : Except TypingError α) : Prop :=
  part before = (ofExcept verdict : Analysis α) before

namespace Analyzer.Finds

variable {α β : Type} {before : Analyzer}

/-- Parts that find what they are said to find may be put one after another, as none of them changes
anything. -/
theorem bind {first : Analysis α} {next : α → Analysis β} {verdict : Except TypingError α}
    {next' : α → Except TypingError β} (h : before.Finds first verdict)
    (hnext : ∀ value, before.Finds (next value) (next' value)) :
    before.Finds (first >>= next) (verdict >>= next') := by
  unfold Finds
  cases verdict with
  | ok value =>
    rw [Stateful.bind_of_ok h]
    exact hnext value
  | error cause =>
    rw [Stateful.bind_of_error h]
    rfl

/-- An item that may be missing is looked at if it is there. -/
theorem option_mapM {part : α → Analysis β} {verdict : α → Except TypingError β}
    (h : ∀ item, before.Finds (part item) (verdict item)) (item : Option α) :
    before.Finds (item.mapM part) (item.mapM verdict) := by
  cases item with
  | none => exact rfl
  | some item =>
    rw [Option.mapM_some, Option.mapM_some, map_eq_pure_bind, map_eq_pure_bind]
    exact (h item).bind fun _ ↦ rfl

/-- Items are looked at one by one, up to the first that fails. -/
theorem list_mapM {part : α → Analysis β} {verdict : α → Except TypingError β}
    (h : ∀ item, before.Finds (part item) (verdict item)) (items : List α) :
    before.Finds (items.mapM part) (items.mapM verdict) := by
  induction items with
  | nil => exact rfl
  | cons head tail ih =>
    rw [List.mapM_cons, List.mapM_cons]
    exact (h head).bind fun _ ↦ ih.bind fun _ ↦ rfl

end Analyzer.Finds

/-- An end of an analysis that began with `before`, and what a check found: both values, related by
`post`, or the same error. -/
inductive Agrees {α β : Type} (number : Nat) (before : Analyzer) (post : α → β → Analyzer → Prop) :
    EStateM.Result TypingError Analyzer α → Except TypingError β → Prop
  | ok {value : α} {found : β} {after : Analyzer} (hkeeps : before.Keeps number after)
    (hpost : post value found after) : Agrees number before post (.ok value after) (.ok found)
  | error {cause : TypingError} {after : Analyzer} (hkeeps : before.Keeps number after) :
    Agrees number before post (.error cause after) (.error cause)

namespace Agrees

variable {α β γ δ : Type} {number larger : Nat} {before middle : Analyzer}
  {post : α → β → Analyzer → Prop} {result : EStateM.Result TypingError Analyzer α}
  {verdict : Except TypingError β}

theorem pure {value : α} {found : β} (h : post value found before) :
    Agrees number before post ((Pure.pure value : Analysis α) before) (.ok found) :=
  .ok (.refl number before) h

/-- What agrees for many scopes agrees for fewer, in every weaker relation. -/
theorem imp {post' : α → β → Analyzer → Prop} (h : Agrees larger before post result verdict)
    (hle : number ≤ larger) (hpost : ∀ value found after, before.Keeps larger after →
      post value found after → post' value found after) :
    Agrees number before post' result verdict := by
  cases h with
  | ok hkeeps h => exact .ok (hkeeps.mono hle) (hpost _ _ _ hkeeps h)
  | error hkeeps => exact .error (hkeeps.mono hle)

/-- The analysis began earlier, with a step that changes nothing outside either. -/
theorem earlier (h : Agrees number middle post result verdict)
    (hkeeps : before.Keeps number middle) : Agrees number before post result verdict := by
  cases h with
  | ok hafter hpost => exact .ok (hkeeps.trans hafter) hpost
  | error hafter => exact .error (hkeeps.trans hafter)

/-- Parts of an analysis agree with those of a check: the second begins with what the first has
left. -/
theorem bind {first : Analysis γ} {next : γ → Analysis α} {verdict : Except TypingError δ}
    {next' : δ → Except TypingError β} {between : γ → δ → Analyzer → Prop}
    (h : Agrees number before between (first before) verdict)
    (hnext : ∀ value found middle, before.Keeps number middle → between value found middle →
      Agrees number middle post (next value middle) (next' found)) :
    Agrees number before post ((first >>= next) before) (verdict >>= next') := by
  generalize hfirst : first before = result at h
  cases h with
  | ok hkeeps hpost =>
    rw [Stateful.bind_of_ok hfirst]
    exact (hnext _ _ _ hkeeps hpost).earlier hkeeps
  | error hkeeps =>
    rw [Stateful.bind_of_error hfirst]
    exact .error hkeeps

/-- A part that changes nothing may come first, and what follows may use what it found. -/
theorem find_bind {first : Analysis γ} {next : γ → Analysis α} {verdict : Except TypingError γ}
    {next' : γ → Except TypingError β} (hfirst : before.Finds first verdict)
    (hnext : ∀ value, verdict = .ok value →
      Agrees number before post (next value before) (next' value)) :
    Agrees number before post ((first >>= next) before) (verdict >>= next') := by
  cases verdict with
  | ok value =>
    rw [Stateful.bind_of_ok hfirst]
    exact hnext value rfl
  | error cause =>
    rw [Stateful.bind_of_error hfirst]
    exact .error (.refl number before)

/-- A part that changes nothing agrees with its verdict. -/
theorem of_finds {part : Analysis α} {verdict : Except TypingError α}
    (h : before.Finds part verdict) :
    Agrees number before (fun value found after ↦ value = found ∧ after = before) (part before)
      verdict := by
  rw [h]
  cases verdict with
  | ok value => exact .ok (.refl number before) ⟨rfl, rfl⟩
  | error cause => exact .error (.refl number before)

/-- The check goes on to give a scope where the analysis ends. -/
theorem then_pure {post' : α → δ → Analyzer → Prop} (h : Agrees number before post result verdict)
    {found : δ} (hpost : ∀ value other after, post value other after → post' value found after) :
    Agrees number before post' result (verdict >>= fun _ ↦ Pure.pure found) := by
  cases h with
  | ok hkeeps h => exact .ok hkeeps (hpost _ _ _ h)
  | error hkeeps => exact .error hkeeps

/-- A value that is changed in the end agrees if the changed one is related. -/
theorem bind_pure {post' : γ → β → Analyzer → Prop} {part : Analysis α}
    (h : Agrees number before post (part before) verdict) (change : α → γ)
    (hpost : ∀ value found after, post value found after → post' (change value) found after) :
    Agrees number before post' ((part >>= fun value ↦ Pure.pure (change value)) before)
      verdict := by
  generalize hpart : part before = result at h
  cases h with
  | ok hkeeps h =>
    rw [Stateful.bind_of_ok hpart]
    exact .ok hkeeps (hpost _ _ _ h)
  | error hkeeps =>
    rw [Stateful.bind_of_error hpart]
    exact .error hkeeps

/-- The return type that is set for a body is there in the body alone. -/
theorem returning {type : Ty} {part : Analysis α}
    (h : Agrees number { before with returns := some type } post
      (part { before with returns := some type }) verdict) :
    Agrees number before (fun _ _ _ ↦ True) (Analysis.returning type part before) verdict := by
  unfold Analysis.returning
  generalize part { before with returns := some type } = result at h
  cases h with
  | ok hkeeps => exact .ok ⟨hkeeps.records, rfl, hkeeps.nodes⟩ trivial
  | error hkeeps => exact .error ⟨hkeeps.records, rfl, hkeeps.nodes⟩

/-- The branches agree if each does under its own condition. -/
theorem ite {test : Prop} [Decidable test] {yes no : Analysis α} {yes' no' : Except TypingError β}
    (hyes : test → Agrees number before post (yes before) yes')
    (hno : ¬test → Agrees number before post (no before) no') :
    Agrees number before post ((if test then yes else no) before) (if test then yes' else no') := by
  by_cases h : test
  · rw [if_pos h, if_pos h]
    exact hyes h
  · rw [if_neg h, if_neg h]
    exact hno h

end Agrees

/-! ### Statements -/

/-- The analyzer is in the scope `number`, under the types of `context`, in a method that has to
return `returns`. -/
structure Analyzer.Inside (context : TypeContext) (returns : Option Ty) (number : Nat)
    (outer : TypeChain) (here : TypeScope) (analyzer : Analyzer) : Prop where
  records : analyzer.records = context.records
  returns : analyzer.returns = returns
  scope : analyzer.scopes.At number here outer

section

variable {context : TypeContext} {returns : Option Ty} {number : Nat} {outer : TypeChain}
  {here : TypeScope} {before after : Analyzer}

namespace Analyzer.Inside

/-- A scope is as it was when only scopes inside of it have changed. -/
theorem kept {larger : Nat} (h : before.Inside context returns number outer here)
    (hkeeps : before.Keeps larger after) (hlt : number < larger) :
    after.Inside context returns number outer here :=
  ⟨hkeeps.records.trans h.records, hkeeps.returns.trans h.returns,
    h.scope.kept fun other hother ↦ hkeeps.nodes other (Nat.lt_of_le_of_lt hother hlt)⟩

/-- A change of the innermost scope changes what the check has for it. -/
theorem modify (h : before.Inside context returns number outer here)
    (change : TypeScope → TypeScope) :
    Inside context returns number outer (change here)
      { before with scopes := before.scopes.modify number change } :=
  ⟨h.records, h.returns, h.scope.modify change⟩

variable (h : before.Inside context returns number outer here)
include h

/-- The name of a type is looked up among the same records. -/
theorem resolve (offset : Nat) (name : String) :
    before.Finds (Analysis.resolve offset name) (context.resolve offset name) := by
  have hresolve : before.context.resolve offset name = context.resolve offset name := by
    unfold TypeContext.resolve TypeContext.type? Analyzer.context
    rw [h.records]
  rw [← hresolve]
  exact rfl

/-- A type is inferred in the chain from the innermost scope. -/
theorem infer (expr : Expr) :
    before.Finds (Analysis.infer number expr) (expr.infer (here :: outer)) := by
  rw [← h.scope.chain]
  exact rfl

/-- An expression is checked for a target in the chain from the innermost scope. -/
theorem checkAs (target : Ty) (expr : Expr) :
    before.Finds (Analysis.checkAs number target expr) (expr.checkAs (here :: outer) target) :=
  (h.infer expr).bind fun _ ↦ rfl

/-- The type of a declaration is found in the same scopes. -/
theorem bindingType (binding : Binding) :
    before.Finds (binding.analyzeType number) (binding.infer context outer here) := by
  refine (Finds.option_mapM (h.resolve binding.offset) binding.typeName).bind fun written ↦ ?_
  cases written <;> cases binding.value
  · exact rfl
  · exact h.infer _
  · exact rfl
  · exact (h.checkAs _ _).bind fun _ ↦ rfl

/-- A variable is added to the innermost scope, or its name is there already, on both sides. -/
theorem add (offset : Nat) (name : String) (type : Ty) :
    Agrees number before (fun _ here after ↦ after.Inside context returns number outer here)
      (Analysis.add number offset name type before) (here.add offset name type) := by
  have hlocal : before.scopes.localLookup? number name = here.lookup? name := by
    unfold ScopeTree.localLookup?
    rw [h.scope.scope?]
    rfl
  unfold TypeScope.add
  rw [← hlocal]
  exact Agrees.ite (fun _ ↦ .error (.refl number before))
    fun _ ↦ .ok (.modify _) (h.modify (·.declare name ⟨name, type⟩))

/-- A declaration is analyzed as it is checked. -/
theorem binding (binding : Binding) :
    Agrees number before (fun _ here after ↦ after.Inside context returns number outer here)
      (binding.analyze number before) (binding.check context outer here) :=
  .find_bind (h.bindingType binding) fun type _ ↦ h.add binding.offset binding.name type

/-- A scope that is opened here is empty, and nothing outside of it has changed. -/
theorem open_bind {α β : Type} {least : Nat} (hleast : least ≤ number + 1)
    {next : Nat → Analysis α} {post : α → β → Analyzer → Prop} {verdict : Except TypingError β}
    (hnext : ∀ inner middle, number < inner → before.Keeps inner middle →
      middle.Inside context returns inner (here :: outer) {} →
      Agrees least middle post (next inner middle) verdict) :
    Agrees least before post ((Analysis.openScope number >>= next) before) verdict := by
  have hkeeps : before.Keeps before.scopes.nodes.length
      { before with scopes := before.scopes.child number } :=
    ⟨rfl, rfl, fun _ ↦ ScopeTree.child_of_lt⟩
  have hlt := h.scope.lt_length
  exact (hnext _ _ hlt hkeeps ⟨h.records, h.returns, h.scope.child⟩).earlier
    (hkeeps.mono (Nat.le_trans hleast hlt))

/-- Nothing that happens in a scope inside of this one is seen from here. -/
theorem of_inner {α β : Type} {inner : Nat} {middle : Analyzer} {post : α → β → Analyzer → Prop}
    {result : EStateM.Result TypingError Analyzer α} {verdict : Except TypingError β}
    (hkeeps : before.Keeps inner middle) (hlt : number < inner)
    (hinner : Agrees inner middle post result verdict) :
    Agrees number middle (fun _ _ after ↦ after.Inside context returns number outer here)
      result verdict :=
  hinner.imp (Nat.le_of_lt hlt) fun _ _ _ hafter _ ↦ h.kept (hkeeps.trans hafter) hlt

end Analyzer.Inside

end

section

variable {context : TypeContext} {returns : Ty}

mutual

/-- A statement is analyzed in the scope it stands in, and its own blocks in scopes inside of it. -/
theorem Stmt.analyze_agrees (stmt : Stmt) {number : Nat} {outer : TypeChain} {here : TypeScope}
    {before : Analyzer} (h : before.Inside context (some returns) number outer here) :
    Agrees number before (fun _ here after ↦ after.Inside context (some returns) number outer here)
      (stmt.analyze number before) (stmt.check context returns outer here) := by
  cases stmt with
  | expr value =>
    refine .find_bind ((h.infer value).bind fun _ ↦ rfl) fun _ _ ↦ ?_
    exact .ite (fun _ ↦ .pure h) fun _ ↦ .error (.refl number before)
  | declare binding => exact h.binding binding
  | assign target value =>
    refine .ite (fun _ ↦ ?_) fun _ ↦ .error (.refl number before)
    refine .find_bind (h.infer value) fun found _ ↦ .find_bind (h.infer target) fun expected _ ↦ ?_
    have hfinds : before.Finds (ofExcept (requireAssignable expected found value.offset))
      (requireAssignable expected found value.offset) := rfl
    exact (Agrees.of_finds hfinds).then_pure fun _ _ _ hafter ↦ hafter.2 ▸ h
  | branch condition thenBody elseBody =>
    refine .find_bind (h.checkAs _ _) fun _ _ ↦ ?_
    refine .ite (fun _ ↦ .error (.refl number before)) fun _ ↦ ?_
    -- Each branch is analyzed in a scope of its own, which is opened behind all there are.
    refine h.open_bind (Nat.le_succ _) fun first middle hlt hkeeps hinner ↦ ?_
    refine (h.of_inner hkeeps hlt (analyzeBlock_agrees thenBody hinner)).bind
      fun _ _ between _ hbetween ↦
        hbetween.open_bind (Nat.le_succ _) fun second last hlt' hkeeps' hinner' ↦ ?_
    exact (hbetween.of_inner hkeeps' hlt' (analyzeBlock_agrees elseBody hinner')).then_pure
      fun _ _ _ hafter ↦ hafter
  | forEach offset name iterable body =>
    refine .find_bind (h.checkAs _ _) fun _ _ ↦ ?_
    refine h.open_bind (Nat.le_succ _) fun inner middle hlt hkeeps hinner ↦ ?_
    have hbody := (analyzeBlock_agrees body (hinner.modify (·.declare name ⟨name, .integer⟩)))
    exact (h.of_inner hkeeps hlt (hbody.earlier (.modify _))).then_pure fun _ _ _ hafter ↦ hafter
  | loop condition body =>
    refine .find_bind (h.checkAs _ _) fun _ _ ↦ ?_
    refine h.open_bind (Nat.le_succ _) fun inner middle hlt hkeeps hinner ↦ ?_
    exact (h.of_inner hkeeps hlt (analyzeBlock_agrees body hinner)).then_pure
      fun _ _ _ hafter ↦ hafter
  | ret value =>
    -- The result type is not handed down but read from its slot.
    have hfinds : before.Finds (Stmt.analyze number (.ret value))
        (value.checkAs (here :: outer) returns) := by
      refine (h.infer value).bind fun type ↦ ?_
      change (ofExcept (requireAssignable (before.returns.getD .nil) type value.offset) :
        Analysis Unit) before = _
      rw [h.returns]
      rfl
    exact (Agrees.of_finds hfinds).then_pure fun _ _ _ hafter ↦ hafter.2 ▸ h

/-- A block is analyzed in a scope that is opened for it, as it is checked in an empty one. The
recursion follows the tree. -/
theorem analyzeBlock_agrees (body : List Stmt) {number : Nat} {outer : TypeChain}
    {here : TypeScope} {before : Analyzer}
    (h : before.Inside context (some returns) number outer here) :
    Agrees number before (fun _ _ _ ↦ True) (analyzeBlock number body before)
      (checkBlock context returns outer here body) := by
  cases body with
  | nil => exact .pure trivial
  | cons head tail =>
    exact (head.analyze_agrees h).bind fun _ _ _ _ hmiddle ↦ analyzeBlock_agrees tail hmiddle

end

end

/-! ### Programs -/

section

variable {context : TypeContext} {returns : Option Ty} {number : Nat} {outer : TypeChain}
  {here : TypeScope} {before : Analyzer}

namespace Analyzer.Inside

variable (h : before.Inside context returns number outer here)

include h in
/-- The signature of a method needs no scope. -/
theorem signature (method : Method) :
    before.Finds method.analyzeSignature (method.signature context) :=
  (Finds.list_mapM (h.resolve method.offset) method.paramTypes).bind fun _ ↦
    (Finds.option_mapM (h.resolve method.offset) method.returnType).bind fun _ ↦ rfl

include h in
/-- A method is declared in the module on both sides. -/
theorem declaration (method : Method) :
    Agrees number before (fun signature here after ↦ method.signature context = .ok signature ∧
        after.Inside context returns number outer here)
      (method.analyzeDeclaration number before) (method.declare context here) := by
  refine .find_bind (h.signature method) fun signature hsignature ↦ ?_
  have hname : signature.name = method.name := by
    obtain ⟨params, -, hsignature⟩ := except_bind_eq_ok.mp hsignature
    obtain ⟨given, -, hsignature⟩ := except_bind_eq_ok.mp hsignature
    cases hsignature
    rfl
  have hlocal : before.scopes.hasLocalFunction number method.name signature.arity =
      (here.function? method.name signature.arity).isSome := by
    unfold ScopeTree.hasLocalFunction
    rw [h.scope.scope?]
    rfl
  rw [← hlocal]
  refine Agrees.ite (fun _ ↦ .error (.refl number before)) fun _ ↦ .ok (.modify _) ⟨hsignature, ?_⟩
  rw [← hname]
  exact h.modify (·.declareFunction signature.name signature.arity signature)

end Analyzer.Inside

/-- Fields are analyzed one after another in the scope of the module. -/
theorem analyzeFields_agrees (fields : List Binding) {here : TypeScope} {before : Analyzer}
    (h : before.Inside context returns number [context.globals] here) :
    Agrees number before
      (fun _ here after ↦ after.Inside context returns number [context.globals] here)
      (fields.forM (Binding.analyze number) before) (checkFields context here fields) := by
  induction fields generalizing here before with
  | nil => exact .pure h
  | cons head tail ih => exact (h.binding head).bind fun _ _ _ _ hmiddle ↦ ih hmiddle

/-- Methods are declared one after another, and their signatures are those of the check. -/
theorem analyzeDeclarations_agrees (methods : List Method) {here : TypeScope} {before : Analyzer}
    (h : before.Inside context returns number outer here) :
    Agrees number before
      (fun signatures here after ↦
        List.Forall₂ (fun method signature ↦ method.signature context = .ok signature) methods
          signatures ∧ after.Inside context returns number outer here)
      (methods.mapM (Method.analyzeDeclaration number) before)
      (declareMethods context here methods) := by
  induction methods generalizing here before with
  | nil => exact .pure ⟨.nil, h⟩
  | cons head tail ih =>
    rw [List.mapM_cons]
    unfold declareMethods
    rw [List.foldlM_cons]
    exact (h.declaration head).bind fun signature _ _ _ hmiddle ↦
      (ih hmiddle.2).bind_pure (signature :: ·) fun _ _ _ htail ↦ ⟨.cons hmiddle.1 htail.1, htail.2⟩

/-- Parameters are added one after another to the scope of their method. -/
theorem analyzeParams_agrees (offset : Nat) (params : List (String × Ty)) {here : TypeScope}
    {before : Analyzer} (h : before.Inside context returns number outer here) :
    Agrees number before (fun _ here after ↦ after.Inside context returns number outer here)
      (params.forM (fun param ↦ Analysis.add number offset param.1 param.2) before)
      (declareParams offset here params) := by
  induction params generalizing here before with
  | nil => exact .pure h
  | cons head tail ih => exact (h.add offset head.1 head.2).bind fun _ _ _ _ hmiddle ↦ ih hmiddle

/-- A body is analyzed for the result of its own method, which is set back behind it. -/
theorem Analyzer.Inside.returning (h : before.Inside context returns number outer here) (type : Ty)
    (body : List Stmt) :
    Agrees number before (fun _ _ _ ↦ True)
      (Analysis.returning type (analyzeBlock number body) before)
      (checkBlock context type outer here body) := by
  have hbody : Inside context (some type) number outer here { before with returns := some type } :=
    ⟨h.records, rfl, h.scope⟩
  exact (analyzeBlock_agrees body hbody).returning

/-- The body of a method is analyzed in a scope under the module, with the parameters in it. -/
theorem Analyzer.Inside.body (h : before.Inside context returns number [context.globals] here)
    {method : Method} {signature : Signature Ty}
    (hsignature : method.signature context = .ok signature) :
    Agrees number before
      (fun _ _ after ↦ after.Inside context returns number [context.globals] here)
      (method.analyzeBody number signature before) (method.check context here) := by
  have hcheck : method.check context here =
      (method.scope signature >>= fun own ↦
        checkBlock context signature.returns [here, context.globals] own method.body) := by
    unfold Method.check
    rw [hsignature]
    rfl
  rw [hcheck]
  refine h.open_bind (Nat.le_succ number) fun inner middle hlt hkeeps hinner ↦ ?_
  have hinside := (analyzeParams_agrees method.offset (method.params.zip signature.params)
    hinner).bind fun _ _ _ _ hlast ↦ hlast.returning signature.returns method.body
  exact h.of_inner hkeeps hlt hinside

/-- Bodies are analyzed one after another, each with the signature that its method was declared
by. -/
theorem analyzeBodies_agrees {methods : List Method} {signatures : List (Signature Ty)}
    (hsignatures : List.Forall₂
      (fun method signature ↦ method.signature context = .ok signature) methods signatures)
    {before : Analyzer} (h : before.Inside context returns number [context.globals] here) :
    Agrees number before (fun _ _ _ ↦ True)
      ((methods.zip signatures).forM (fun known ↦ known.1.analyzeBody number known.2) before)
      (methods.forM (Method.check context here)) := by
  induction hsignatures generalizing before with
  | nil => exact .pure trivial
  | cons hhead _ ih => exact (h.body hhead).bind fun _ _ _ _ hmiddle ↦ ih hmiddle

/-- Going through a program in place finds what a check finds, and changes neither what the host has
made known nor the return type. -/
theorem Program.analyze_agrees (program : Program) (hroot : before.scopes.At 0 here []) :
    Agrees 1 before (fun _ _ _ ↦ True) (program.analyze before) (program.check before.context) := by
  have hglobals : here = before.context.globals := by
    unfold Analyzer.context
    rw [hroot.scope?]
    rfl
  have h : before.Inside before.context before.returns 0 [] before.context.globals :=
    ⟨rfl, rfl, hglobals ▸ hroot⟩
  refine .ite (fun _ ↦ ?_) fun _ ↦ .error (.refl 1 before)
  refine h.open_bind (Nat.le_refl 1) fun module middle hlt _ hmodule ↦ ?_
  refine Agrees.imp ?_ hlt fun _ _ _ _ h ↦ h
  refine (analyzeFields_agrees program.fields hmodule).bind fun _ _ _ _ hfields ↦ ?_
  refine (analyzeDeclarations_agrees program.methods hfields).bind fun _ _ _ _ hmethods ↦ ?_
  exact analyzeBodies_agrees hmethods.1 hmethods.2

end

end ScriptLang
