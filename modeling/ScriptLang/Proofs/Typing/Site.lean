import Mathlib.Data.List.Induction
import ScriptLang.Proofs.Execution.Moment
import ScriptLang.Proofs.Typing.Module

/-!
The scopes in which the checker meets the nodes of a program. A site is a node with the chain of
scopes that is visible when the node is checked; the sites of a program are found by place. In an
accepted program every site is accepted.
-/

set_option autoImplicit false
set_option relaxedAutoImplicit false

namespace ScriptLang

/-- A node with the scopes in which it is checked, and the result type of the method around it. -/
structure Site where
  node : Node
  here : TypeScope
  outer : TypeChain
  returns : Ty

namespace Site

/-- The visible scopes, innermost first. -/
def scopes (site : Site) : TypeChain := site.here :: site.outer

/-- The site of an expression that is checked in the same scopes. -/
def withExpr (site : Site) (expr : Expr) : Site := { site with node := .expr expr }

variable (context : TypeContext)

/-- The site of a statement of a block, which is checked behind the statements before it. -/
def inBlock (outer : TypeChain) (returns : Ty) (start : TypeScope) (body : List Stmt)
    (index : Nat) : Option Site := do
  let statement ← body[index]?
  let here ← (scopeBehind context outer returns start (body.take index)).toOption
  return ⟨.stmt statement, here, outer, returns⟩

/-- The site of an argument that is passed for one of `params`. -/
def arg? (site : Site) (params : List Ty) (args : List Expr) (index : Nat) : Option Site :=
  if index < params.length then args[index]?.map site.withExpr else none

/-- The site of a part of the node. An argument that is not checked has none. -/
def part? (site : Site) (turn : Turn) : Option Site :=
  match site.node, turn with
  | .expr (.group _ inner), .inner => some (site.withExpr inner)
  | .expr (.binary _ _ left _), .left => some (site.withExpr left)
  | .expr (.binary _ _ _ right), .right => some (site.withExpr right)
  | .expr (.member _ receiver _ _), .receiver => some (site.withExpr receiver)
  | .expr (.call _ name args _), .arg index => do
    let found ← Chain.function? site.scopes name args.length
    site.arg? found.params args index
  | .expr (.invoke _ receiver _ _ _), .receiver => some (site.withExpr receiver)
  | .expr (.invoke _ receiver name args _), .arg index => do
    let type ← (receiver.infer site.scopes).toOption
    let found ← type.method? name (args.length + 1)
    site.arg? (found.params.drop 1) args index
  | .stmt (.expr value), .value => some (site.withExpr value)
  | .stmt (.declare binding), .value => binding.value.map site.withExpr
  | .stmt (.assign _ value), .value => some (site.withExpr value)
  | .stmt (.assign target _), .target => some (site.withExpr target)
  | .stmt (.branch condition _ _), .condition => some (site.withExpr condition)
  | .stmt (.branch _ thenBody _), .thenBody index =>
    inBlock context site.scopes site.returns {} thenBody index
  | .stmt (.branch _ _ elseBody), .elseBody index =>
    inBlock context site.scopes site.returns {} elseBody index
  | .stmt (.forEach _ _ iterable _), .value => some (site.withExpr iterable)
  | .stmt (.forEach _ name _ body), .body index =>
    inBlock context site.scopes site.returns (Scope.declare {} name ⟨name, .integer⟩) body index
  | .stmt (.loop condition _), .condition => some (site.withExpr condition)
  | .stmt (.loop _ body), .body index => inBlock context site.scopes site.returns {} body index
  | .stmt (.ret value), .value => some (site.withExpr value)
  | _, _ => none

/-- Whether the checker accepts the node. -/
def Accepted (site : Site) : Prop :=
  match site.node with
  | .expr expr => ∃ type, expr.infer site.scopes = .ok type
  | .stmt statement =>
    ∃ behind, statement.check context site.returns site.outer site.here = .ok behind

end Site

section

variable (context : TypeContext) (program : Program)

/-- The scope of the module of a program, under which its bodies are checked. -/
def Program.module? : Option TypeScope :=
  (checkFields context {} program.fields >>= fun fields ↦
    declareMethods context fields program.methods).toOption

def Program.method? (name : String) (arity : Nat) : Option Method :=
  program.methods.find? fun method ↦ method.name == name && method.params.length == arity

/-- The site that a way through a program begins at. -/
def Root.site? : Root → Option Site
  | .field index => do
    let field ← program.fields[index]?
    let value ← field.value
    let here ← (checkFields context {} (program.fields.take index)).toOption
    return ⟨.expr value, here, [context.globals], .nil⟩
  | .entry => do
    let module ← program.module? context
    return ⟨.expr Program.entry, module, [context.globals], .nil⟩
  | .statement name arity index => do
    let module ← program.module? context
    let method ← program.method? name arity
    let signature ← (method.signature context).toOption
    let start ← (method.scope signature).toOption
    Site.inBlock context [module, context.globals] signature.returns start method.body index

/-- The site of the node at a place. -/
def Program.site? (place : Place) : Option Site := do
  let first ← place.root.site? context program
  place.turns.foldlM (Site.part? context) first

/-- The site of a part is found from the site of the node around it. -/
theorem Program.site?_turn (place : Place) (turn : Turn) :
    program.site? context (place.turn turn) =
      (program.site? context place).bind fun site ↦ site.part? context turn := by
  unfold site? Place.turn
  cases place.root.site? context program with
  | none => rfl
  | some first =>
    change (place.turns ++ [turn]).foldlM (Site.part? context) first =
      Option.bind (place.turns.foldlM (Site.part? context) first) _
    rw [List.foldlM_append]
    cases place.turns.foldlM (Site.part? context) first with
    | none => rfl
    | some site =>
      change List.foldlM (Site.part? context) site [turn] = site.part? context turn
      simp

end

/-! ### Sites of accepted programs -/

section

variable {context : TypeContext} {site part : Site}

theorem Except.toOption_eq_some {ε α : Type} {result : Except ε α} {value : α} :
    result.toOption = some value ↔ result = .ok value := by
  cases result <;> simp [Except.toOption]

namespace Site

/-- A statement of a block is met in the scope behind those before it. -/
theorem inBlock_eq_some {outer : TypeChain} {returns : Ty} {start : TypeScope} {body : List Stmt}
    {index : Nat} : inBlock context outer returns start body index = some part ↔
      ∃ statement here, body[index]? = some statement ∧
        scopeBehind context outer returns start (body.take index) = .ok here ∧
        part = ⟨.stmt statement, here, outer, returns⟩ := by
  unfold inBlock
  simp only [Option.bind_eq_bind, Option.bind_eq_some_iff, Except.toOption_eq_some]
  constructor
  · rintro ⟨statement, hstatement, here, hhere, hpart⟩
    cases hpart
    exact ⟨statement, here, hstatement, hhere, rfl⟩
  · rintro ⟨statement, here, hstatement, hhere, rfl⟩
    exact ⟨statement, hstatement, here, hhere, rfl⟩

/-- Each statement of an accepted block is accepted where it is met. -/
theorem inBlock_accepted {outer : TypeChain} {returns : Ty} {start : TypeScope} {body : List Stmt}
    {index : Nat} (hcheck : checkBlock context returns outer start body = .ok ())
    (hpart : inBlock context outer returns start body index = some part) :
    part.Accepted context := by
  obtain ⟨statement, here, hstatement, hhere, rfl⟩ := inBlock_eq_some.mp hpart
  obtain ⟨behind, hbehind⟩ := checkBlock_eq_ok.mp hcheck
  obtain ⟨before, after, hbefore, hafter⟩ := scopeBehind_getElem? hbehind hstatement
  rw [hhere] at hbefore
  cases hbefore
  exact ⟨after, hafter⟩

/-- An argument has a site as long as there is a parameter for it. -/
theorem arg?_eq_some {params : List Ty} {args : List Expr} {index : Nat} :
    site.arg? params args index = some part ↔
      ∃ arg, index < params.length ∧ args[index]? = some arg ∧ part = site.withExpr arg := by
  unfold arg?
  by_cases hindex : index < params.length
  · rw [if_pos hindex, Option.map_eq_some_iff]
    constructor
    · rintro ⟨arg, harg, rfl⟩
      exact ⟨arg, hindex, harg, rfl⟩
    · rintro ⟨arg, -, harg, rfl⟩
      exact ⟨arg, harg, rfl⟩
  · simp [hindex]

/-- Arguments that have been checked are accepted. -/
theorem arg?_accepted {params : List Ty} {args : List Expr} {index : Nat}
    (hargs : checkArgs site.scopes args params = .ok ())
    (hpart : site.arg? params args index = some part) : part.Accepted context := by
  obtain ⟨arg, hindex, harg, rfl⟩ := arg?_eq_some.mp hpart
  obtain ⟨param, hparam⟩ := checkArgs_getElem? hargs hindex harg
  obtain ⟨source, hsource, -⟩ := Expr.checkAs_eq_ok.mp hparam
  exact ⟨source, hsource⟩

/-- An expression is accepted if it has a type. -/
theorem accepted_expr {expr : Expr} (hnode : site.node = .expr expr) :
    site.Accepted context ↔ ∃ type, expr.infer site.scopes = .ok type := by
  unfold Accepted
  rw [hnode]

/-- A statement is accepted if the checker gets past it. -/
theorem accepted_stmt {statement : Stmt} (hnode : site.node = .stmt statement) :
    site.Accepted context ↔
      ∃ behind, statement.check context site.returns site.outer site.here = .ok behind := by
  unfold Accepted
  rw [hnode]

/-- An expression of the type that is wanted is accepted. -/
theorem withExpr_accepted {target : Ty} {expr : Expr}
    (hcheck : expr.checkAs site.scopes target = .ok ()) :
    (site.withExpr expr).Accepted context := by
  obtain ⟨source, hsource, -⟩ := Expr.checkAs_eq_ok.mp hcheck
  exact ⟨source, hsource⟩

/-- The parts of an accepted expression are accepted. Each case reads the types of the parts from
that of the whole. -/
theorem part?_expr_accepted {turn : Turn} {expr : Expr} (hnode : site.node = .expr expr)
    (haccepted : site.Accepted context) (hpart : site.part? context turn = some part) :
    part.Accepted context := by
  obtain ⟨type, htype⟩ := (accepted_expr hnode).mp haccepted
  unfold part? at hpart
  rw [hnode] at hpart
  cases expr with
  | literal mark value => cases turn <;> cases hpart
  | access mark name resolved => cases turn <;> cases hpart
  | group mark inner =>
    cases turn <;> cases hpart
    exact ⟨type, htype⟩
  | binary mark op left right =>
    obtain ⟨leftType, rightType, hleft, hright, -⟩ := Expr.infer_binary.mp htype
    cases turn <;> cases hpart
    · exact ⟨leftType, hleft⟩
    · exact ⟨rightType, hright⟩
  | member mark receiver name resolved =>
    obtain ⟨receiverType, found, hreceiver, -⟩ := Expr.infer_member.mp htype
    cases turn <;> cases hpart
    exact ⟨receiverType, hreceiver⟩
  | call mark name args resolved =>
    obtain ⟨found, hfound, hargs, -⟩ := Expr.infer_call.mp htype
    cases turn with
    | arg index =>
      obtain ⟨other, hother, harg⟩ := Option.bind_eq_some_iff.mp hpart
      rw [hfound] at hother
      cases hother
      exact arg?_accepted hargs harg
    | _ => cases hpart
  | invoke mark receiver name args resolved =>
    obtain ⟨receiverType, found, hreceiver, hfound, hargs, -⟩ := Expr.infer_invoke.mp htype
    cases turn with
    | receiver =>
      cases hpart
      exact ⟨receiverType, hreceiver⟩
    | arg index =>
      obtain ⟨other, hother, hpart⟩ := Option.bind_eq_some_iff.mp hpart
      rw [hreceiver] at hother
      cases hother
      obtain ⟨method, hmethod, harg⟩ := Option.bind_eq_some_iff.mp hpart
      rw [hfound] at hmethod
      cases hmethod
      exact arg?_accepted hargs harg
    | _ => cases hpart

/-- The parts of an accepted statement are accepted: expressions in its own scopes, statements in
the scopes of the blocks in it. -/
theorem part?_stmt_accepted {turn : Turn} {statement : Stmt} (hnode : site.node = .stmt statement)
    (haccepted : site.Accepted context) (hpart : site.part? context turn = some part) :
    part.Accepted context := by
  obtain ⟨behind, hcheck⟩ := (accepted_stmt hnode).mp haccepted
  unfold part? at hpart
  rw [hnode] at hpart
  cases statement with
  | expr value =>
    obtain ⟨-, -, hvalue⟩ := Stmt.check_expr.mp hcheck
    cases turn <;> cases hpart
    exact hvalue
  | declare binding =>
    obtain ⟨type, htype, -⟩ := Binding.check_eq_ok.mp (Stmt.check_declare ▸ hcheck)
    cases turn with
    | value =>
      obtain ⟨value, hvalue, rfl⟩ := Option.map_eq_some_iff.mp hpart
      exact Binding.value_infer htype hvalue
    | _ => cases hpart
  | assign target value =>
    obtain ⟨-, -, found, expected, hfound, hexpected, -⟩ := Stmt.check_assign.mp hcheck
    cases turn <;> cases hpart
    · exact ⟨found, hfound⟩
    · exact ⟨expected, hexpected⟩
  | branch condition thenBody elseBody =>
    obtain ⟨-, hcondition, -, hthen, helse⟩ := Stmt.check_branch.mp hcheck
    cases turn with
    | condition =>
      cases hpart
      exact withExpr_accepted hcondition
    | thenBody index => exact inBlock_accepted hthen hpart
    | elseBody index => exact inBlock_accepted helse hpart
    | _ => cases hpart
  | forEach offset name iterable body =>
    obtain ⟨-, hiterable, hbody⟩ := Stmt.check_forEach.mp hcheck
    cases turn with
    | value =>
      cases hpart
      exact withExpr_accepted hiterable
    | body index => exact inBlock_accepted hbody hpart
    | _ => cases hpart
  | loop condition body =>
    obtain ⟨-, hcondition, hbody⟩ := Stmt.check_loop.mp hcheck
    cases turn with
    | condition =>
      cases hpart
      exact withExpr_accepted hcondition
    | body index => exact inBlock_accepted hbody hpart
    | _ => cases hpart
  | ret value =>
    obtain ⟨-, hvalue⟩ := Stmt.check_ret.mp hcheck
    cases turn <;> cases hpart
    exact withExpr_accepted hvalue

/-- Every part of an accepted node that has a site is accepted there. -/
theorem part?_accepted {turn : Turn} (haccepted : site.Accepted context)
    (hpart : site.part? context turn = some part) : part.Accepted context := by
  cases hnode : site.node with
  | expr expr => exact part?_expr_accepted hnode haccepted hpart
  | stmt statement => exact part?_stmt_accepted hnode haccepted hpart

/-- Expressions are met in the scopes of the node around them, statements inside of these. -/
theorem part?_scopes {turn : Turn} (hpart : site.part? context turn = some part) :
    (∃ expr, part = site.withExpr expr) ∨ ∃ statement, part.node = .stmt statement ∧
      part.outer = site.scopes := by
  have hblock {returns : Ty} {start : TypeScope} {body : List Stmt} {index : Nat}
      (hpart : inBlock context site.scopes returns start body index = some part) :
      ∃ statement, part.node = .stmt statement ∧ part.outer = site.scopes := by
    obtain ⟨statement, here, -, -, rfl⟩ := inBlock_eq_some.mp hpart
    exact ⟨statement, rfl, rfl⟩
  have harg {params : List Ty} {args : List Expr} {index : Nat}
      (hpart : site.arg? params args index = some part) : ∃ expr, part = site.withExpr expr := by
    obtain ⟨arg, -, -, rfl⟩ := arg?_eq_some.mp hpart
    exact ⟨arg, rfl⟩
  unfold part? at hpart
  split at hpart
  case h_5 =>
    obtain ⟨found, -, hpart⟩ := Option.bind_eq_some_iff.mp hpart
    exact .inl (harg hpart)
  case h_7 =>
    obtain ⟨type, -, hpart⟩ := Option.bind_eq_some_iff.mp hpart
    obtain ⟨found, -, hpart⟩ := Option.bind_eq_some_iff.mp hpart
    exact .inl (harg hpart)
  case h_9 =>
    obtain ⟨value, -, rfl⟩ := Option.map_eq_some_iff.mp hpart
    exact .inl ⟨value, rfl⟩
  case h_13 | h_14 | h_16 | h_18 => exact .inr (hblock hpart)
  case h_20 => cases hpart
  all_goals
    cases hpart
    exact .inl ⟨_, rfl⟩

end Site

variable {program : Program}

/-- A program has a module if its fields and methods can be declared. -/
theorem Program.module?_eq_some {module : TypeScope} :
    program.module? context = some module ↔ ∃ fields,
      checkFields context {} program.fields = .ok fields ∧
        declareMethods context fields program.methods = .ok module := by
  unfold module?
  rw [Except.toOption_eq_some, except_bind_eq_ok]

/-- The method that is found by a key is one of the program, and has that key. -/
theorem Program.method?_eq_some {name : String} {arity : Nat} {method : Method}
    (hmethod : program.method? name arity = some method) :
    method ∈ program.methods ∧ method.name = name ∧ method.params.length = arity := by
  have hkey := List.find?_some hmethod
  simp only [Bool.and_eq_true, beq_iff_eq] at hkey
  exact ⟨List.mem_of_find?_eq_some hmethod, hkey⟩

/-- A statement of a method is met behind the parameters, in the module. -/
theorem Root.site?_statement {name : String} {arity index : Nat} {site : Site} :
    Root.site? context program (.statement name arity index) = some site ↔
      ∃ module method signature start, program.module? context = some module ∧
        program.method? name arity = some method ∧
        method.signature context = .ok signature ∧ method.scope signature = .ok start ∧
        Site.inBlock context [module, context.globals] signature.returns start method.body index =
          some site := by
  unfold Root.site?
  simp only [Option.bind_eq_bind, Option.bind_eq_some_iff, Except.toOption_eq_some]
  constructor
  · rintro ⟨module, hmodule, method, hmethod, signature, hsignature, start, hstart, hsite⟩
    exact ⟨module, method, signature, start, hmodule, hmethod, hsignature, hstart, hsite⟩
  · rintro ⟨module, method, signature, start, hmodule, hmethod, hsignature, hstart, hsite⟩
    exact ⟨module, hmodule, method, hmethod, signature, hsignature, start, hstart, hsite⟩

/-- The value of a field is met behind the fields before it. -/
theorem Root.site?_field {index : Nat} {site : Site} :
    Root.site? context program (.field index) = some site ↔
      ∃ field value here, program.fields[index]? = some field ∧ field.value = some value ∧
        checkFields context {} (program.fields.take index) = .ok here ∧
        site = ⟨.expr value, here, [context.globals], .nil⟩ := by
  unfold Root.site?
  simp only [Option.bind_eq_bind, Option.bind_eq_some_iff, Except.toOption_eq_some]
  constructor
  · rintro ⟨field, hfield, value, hvalue, here, hhere, hsite⟩
    cases hsite
    exact ⟨field, value, here, hfield, hvalue, hhere, rfl⟩
  · rintro ⟨field, value, here, hfield, hvalue, hhere, rfl⟩
    exact ⟨field, hfield, value, hvalue, here, hhere, rfl⟩

/-- What a program starts from is accepted: the values of its fields, the call of its entry and the
statements of its methods. -/
theorem Root.site?_accepted {root : Root} {site : Site} (hpaired : program.Paired)
    (hcheck : program.check context = .ok ()) (hsite : root.site? context program = some site) :
    site.Accepted context := by
  obtain ⟨hmain, fields, module, hfields, hmodule, hbodies⟩ := Program.check_eq_ok.mp hcheck
  have hknown := Program.module?_eq_some.mpr ⟨fields, hfields, hmodule⟩
  cases root with
  | field index =>
    obtain ⟨field, value, here, hfield, hvalue, hhere, rfl⟩ := Root.site?_field.mp hsite
    obtain ⟨before, behind, hbefore, hbehind⟩ := checkFields_getElem? hfields hfield
    rw [hhere] at hbefore
    cases hbefore
    obtain ⟨type, htype, -⟩ := Binding.check_eq_ok.mp hbehind
    exact Binding.value_infer htype hvalue
  | entry =>
    obtain ⟨other, hother, hpure⟩ := Option.bind_eq_some_iff.mp hsite
    rw [hknown] at hother
    cases hother
    cases hpure
    exact ⟨.integer, Program.entry_infer hpaired hmain hmodule⟩
  | statement name arity index =>
    obtain ⟨other, method, signature, start, hother, hmethod, hsignature, hstart, hsite⟩ :=
      Root.site?_statement.mp hsite
    rw [hknown] at hother
    cases hother
    obtain ⟨hmember, -⟩ := Program.method?_eq_some hmethod
    obtain ⟨checked, here, hchecked, hhere, hbody⟩ := Method.check_eq_ok.mp (hbodies method hmember)
    rw [hsignature] at hchecked
    cases hchecked
    rw [hstart] at hhere
    cases hhere
    exact Site.inBlock_accepted hbody hsite

/-- In an accepted program the node at every site is accepted. -/
theorem Program.site?_accepted {place : Place} {site : Site} (hpaired : program.Paired)
    (hcheck : program.check context = .ok ()) (hsite : program.site? context place = some site) :
    site.Accepted context := by
  obtain ⟨root, turns⟩ := place
  induction turns using List.reverseRecOn generalizing site with
  | nil =>
    obtain ⟨first, hfirst, hpure⟩ := Option.bind_eq_some_iff.mp hsite
    cases hpure
    exact Root.site?_accepted hpaired hcheck hfirst
  | append_singleton turns turn ih =>
    have hturn := Program.site?_turn context program ⟨root, turns⟩ turn
    rw [Place.turn, hsite] at hturn
    obtain ⟨before, hbefore, hpart⟩ := Option.bind_eq_some_iff.mp hturn.symm
    exact Site.part?_accepted (ih hbefore) hpart

/-- A statement is inside of a method, and the scopes of its block are around it. -/
theorem Program.site?_length {place : Place} {site : Site}
    (hsite : program.site? context place = some site) :
    1 ≤ site.outer.length ∧ ∀ statement, site.node = .stmt statement → 2 ≤ site.outer.length := by
  obtain ⟨root, turns⟩ := place
  induction turns using List.reverseRecOn generalizing site with
  | nil =>
    obtain ⟨first, hfirst, hpure⟩ := Option.bind_eq_some_iff.mp hsite
    cases hpure
    cases root with
    | field index =>
      obtain ⟨field, value, here, -, -, -, rfl⟩ := Root.site?_field.mp hfirst
      exact ⟨Nat.le_refl 1, fun _ hnode ↦ by cases hnode⟩
    | entry =>
      obtain ⟨module, -, hpure⟩ := Option.bind_eq_some_iff.mp hfirst
      cases hpure
      exact ⟨Nat.le_refl 1, fun _ hnode ↦ by cases hnode⟩
    | statement name arity index =>
      obtain ⟨module, method, signature, start, -, -, -, -, hblock⟩ :=
        Root.site?_statement.mp hfirst
      obtain ⟨statement, here, -, -, rfl⟩ := Site.inBlock_eq_some.mp hblock
      exact ⟨Nat.le_succ 1, fun _ _ ↦ Nat.le_refl 2⟩
  | append_singleton turns turn ih =>
    have hturn := Program.site?_turn context program ⟨root, turns⟩ turn
    rw [Place.turn, hsite] at hturn
    obtain ⟨before, hbefore, hpart⟩ := Option.bind_eq_some_iff.mp hturn.symm
    obtain ⟨hlength, -⟩ := ih hbefore
    obtain ⟨expr, rfl⟩ | ⟨statement, -, houter⟩ := Site.part?_scopes hpart
    · exact ⟨hlength, fun _ hnode ↦ by cases hnode⟩
    · rw [houter, Site.scopes, List.length_cons]
      exact ⟨by omega, fun _ _ ↦ by omega⟩

/-- The call that starts a program has no parts. -/
theorem Program.site?_entry {place : Place} {site : Site} (hroot : place.root = .entry)
    (hsite : program.site? context place = some site) : site.node = .expr entry := by
  obtain ⟨root, turns⟩ := place
  change root = .entry at hroot
  subst hroot
  obtain ⟨first, hfirst, hturns⟩ := Option.bind_eq_some_iff.mp hsite
  obtain ⟨module, -, hpure⟩ := Option.bind_eq_some_iff.mp hfirst
  cases hpure
  cases turns with
  | nil =>
    cases hturns
    rfl
  | cons turn turns =>
    rw [List.foldlM_cons] at hturns
    obtain ⟨next, hnext, -⟩ := Option.bind_eq_some_iff.mp hturns
    cases turn with
    | arg index =>
      obtain ⟨found, -, harg⟩ := Option.bind_eq_some_iff.mp hnext
      obtain ⟨arg, -, hmissing, -⟩ := Site.arg?_eq_some.mp harg
      cases hmissing
    | _ => cases hnext

end

end ScriptLang
