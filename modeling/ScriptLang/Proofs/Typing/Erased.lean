import ScriptLang.Program.Erasure
import ScriptLang.Proofs.Correspondence
import ScriptLang.Typing.Check

/-!
Checking reads no annotations, positions only to report them in errors, and of the host only what
names stand for. So the check of a tree without its annotations and with its positions moved gives
the same verdict, or the same error where it is moved to, also where the host was told of the same
things in another order. With the positions kept, a tree is checked like the tree without its
annotations.
-/

set_option autoImplicit false
set_option relaxedAutoImplicit false

namespace ScriptLang

/-- Every name stands for the same in both chains. -/
structure Chain.Same {V F : Type} (first second : Chain V F) : Prop where
  lookup? : ∀ name, first.lookup? name = second.lookup? name
  function? : ∀ name arity, first.function? name arity = second.function? name arity

namespace Chain.Same

variable {V F : Type} {first second : Chain V F}

theorem refl (chain : Chain V F) : chain.Same chain := ⟨fun _ ↦ rfl, fun _ _ ↦ rfl⟩

/-- A scope more on both sides changes nothing of what is the same. -/
theorem cons (h : first.Same second) (scope : Scope V F) :
    Chain.Same (scope :: first) (scope :: second) where
  lookup? name := by rw [Chain.lookup?_cons, Chain.lookup?_cons, h.lookup?]
  function? name arity := by rw [Chain.function?_cons, Chain.function?_cons, h.function?]

end Chain.Same

/-- Two hosts have made the same types, variables and functions known. -/
structure TypeContext.Same (first second : TypeContext) : Prop where
  type? : ∀ name, first.type? name = second.type? name
  lookup? : ∀ name, first.globals.lookup? name = second.globals.lookup? name
  function? : ∀ name arity,
    first.globals.function? name arity = second.globals.function? name arity

namespace TypeContext.Same

variable {first second : TypeContext}

theorem refl (context : TypeContext) : context.Same context :=
  ⟨fun _ ↦ rfl, fun _ ↦ rfl, fun _ _ ↦ rfl⟩

theorem globals (h : first.Same second) : Chain.Same [first.globals] [second.globals] where
  lookup? name := by rw [Chain.lookup?_cons, Chain.lookup?_cons, h.lookup?]
  function? name arity := by rw [Chain.function?_cons, Chain.function?_cons, h.function?]

/-- Hosts that make the same known give the same meaning to the names of types. -/
theorem resolve (h : first.Same second) : first.resolve = second.resolve := by
  funext offset name
  unfold TypeContext.resolve
  rw [h.type?]

end TypeContext.Same

/-! ### Errors that are moved -/

def TypingError.relocate (move : Nat → Nat) : TypingError → TypingError
  | missingMain => missingMain
  | typeMismatch expected found offset => typeMismatch expected found (move offset)
  | invalidOperands op left right offset => invalidOperands op left right (move offset)
  | undefinedVariable name offset => undefinedVariable name (move offset)
  | undefinedFunction name arity offset => undefinedFunction name arity (move offset)
  | undefinedField type name offset => undefinedField type name (move offset)
  | undefinedMethod type name arity offset => undefinedMethod type name arity (move offset)
  | unknownType name offset => unknownType name (move offset)
  | redefinition name offset => redefinition name (move offset)
  | missingTypeOrValue name offset => missingTypeOrValue name (move offset)
  | invalidAssignmentTarget offset => invalidAssignmentTarget (move offset)
  | invalidStatement offset => invalidStatement (move offset)
  | emptyThenBranch offset => emptyThenBranch (move offset)
  | integerOutOfRange literal offset => integerOutOfRange literal (move offset)
  | decimalOutOfRange literal offset => decimalOutOfRange literal (move offset)

/-- What a check finds where the tree is moved. -/
def relocateError {α : Type} (move : Nat → Nat) (found : Except TypingError α) :
    Except TypingError α :=
  found.mapError (TypingError.relocate move)

section

variable {α β : Type} (move : Nat → Nat)

theorem relocateError_pure (value : α) : relocateError move (pure value) = pure value := rfl

theorem relocateError_throw (cause : TypingError) :
    relocateError move (throw cause : Except TypingError α) = throw (cause.relocate move) := rfl

/-- A check in two parts is moved in both. -/
theorem relocateError_bind (first : Except TypingError α) (next : α → Except TypingError β) :
    relocateError move (first >>= next) =
      relocateError move first >>= fun value ↦ relocateError move (next value) := by
  cases first <;> rfl

theorem relocateError_map (first : Except TypingError α) (change : α → β) :
    relocateError move (change <$> first) = change <$> relocateError move first := by
  cases first <;> rfl

theorem relocateError_discard (first : Except TypingError α) :
    relocateError move (discard first) = discard (relocateError move first) := by
  cases first <;> rfl

/-- Which part is checked does not depend on positions. -/
theorem relocateError_ite (condition : Prop) [Decidable condition]
    (first second : Except TypingError α) :
    relocateError move (if condition then first else second) =
      if condition then relocateError move first else relocateError move second := by
  split <;> rfl

theorem relocateError_id (found : Except TypingError α) : relocateError id found = found := by
  cases found with
  | ok value => rfl
  | error cause => cases cause <;> rfl

/-- A check of an item that may be missing is moved. -/
theorem option_mapM_relocate {find find' : α → Except TypingError β}
    (h : ∀ item, find item = relocateError move (find' item)) (item : Option α) :
    item.mapM find = relocateError move (item.mapM find') := by
  cases item with
  | none => rfl
  | some item =>
    change some <$> find item = relocateError move (some <$> find' item)
    rw [h, relocateError_map]

/-- A check of each item is moved, up to the first that fails. -/
theorem list_mapM_relocate {find find' : α → Except TypingError β}
    (h : ∀ item, find item = relocateError move (find' item)) (items : List α) :
    items.mapM find = relocateError move (items.mapM find') := by
  induction items with
  | nil => rfl
  | cons head tail ih =>
    simp only [List.mapM_cons, relocateError_bind, relocateError_pure, h, ih]

/-- A check that carries a scope along is moved, up to the first step that fails. -/
theorem foldlM_relocate {step step' : β → α → Except TypingError β}
    (h : ∀ state item, step state item = relocateError move (step' state item)) (items : List α)
    (state : β) : items.foldlM step state = relocateError move (items.foldlM step' state) := by
  induction items generalizing state with
  | nil => rfl
  | cons head tail ih => simp only [List.foldlM_cons, relocateError_bind, h, ih]

/-- A check of each item without a value is moved. -/
theorem forM_relocate {check check' : α → Except TypingError Unit}
    (h : ∀ item, check item = relocateError move (check' item)) (items : List α) :
    List.forM items check = relocateError move (List.forM items check') := by
  induction items with
  | nil => rfl
  | cons head tail ih =>
    rw [List.forM_eq_forM] at ih ⊢
    simp only [List.forM_cons, relocateError_bind, h, ih]

end

/-! ### Expressions -/

@[simp]
theorem Mark.offset_move (move : Nat → Nat) (mark : Mark) :
    (mark.relocate move).offset = move mark.offset := rfl

@[simp]
theorem Expr.offset_move (move : Nat → Nat) (expr : Expr) :
    (expr.relocate move).offset = move expr.offset := by
  cases expr <;> rfl

@[simp]
theorem Expr.isCall_move (move : Nat → Nat) (expr : Expr) :
    (expr.relocate move).isCall = expr.isCall := by
  cases expr <;> rfl

@[simp]
theorem Expr.isTarget_move (move : Nat → Nat) (expr : Expr) :
    (expr.relocate move).isTarget = expr.isTarget := by
  cases expr <;> rfl

@[simp]
theorem length_relocateArgs (move : Nat → Nat) (args : List Expr) :
    (relocateArgs move args).length = args.length := by
  induction args with
  | nil => rfl
  | cons head tail ih => exact congrArg Nat.succ ih

section

variable {scopes scopes' : TypeChain}

/-- A variable that is required is found in the same way in chains that are the same. -/
theorem requireVariable_same (hsame : Chain.Same scopes scopes') :
    requireVariable scopes = requireVariable scopes' := by
  funext offset name
  unfold requireVariable
  rw [hsame.lookup?]

/-- A function that is required is found in the same way in chains that are the same. -/
theorem requireFunction_same (hsame : Chain.Same scopes scopes') :
    requireFunction scopes = requireFunction scopes' := by
  funext offset name arity
  unfold requireFunction
  rw [hsame.function?]

section

variable (move : Nat → Nat)

/-- A variable is missing at the moved position. -/
theorem requireVariable_move (offset : Nat) (name : String) :
    requireVariable scopes (move offset) name =
      relocateError move (requireVariable scopes offset name) := by
  unfold requireVariable
  split <;> rfl

/-- A function is missing at the moved position. -/
theorem requireFunction_move (offset : Nat) (name : String) (arity : Nat) :
    requireFunction scopes (move offset) name arity =
      relocateError move (requireFunction scopes offset name arity) := by
  unfold requireFunction
  split <;> rfl

/-- A field is missing at the moved position. -/
theorem Ty.requireField_move (type : Ty) (offset : Nat) (name : String) :
    type.requireField (move offset) name = relocateError move (type.requireField offset name) := by
  unfold requireField
  split <;> rfl

/-- A method is missing at the moved position. -/
theorem Ty.requireMethod_move (type : Ty) (offset : Nat) (name : String) (arity : Nat) :
    type.requireMethod (move offset) name arity =
      relocateError move (type.requireMethod offset name arity) := by
  unfold requireMethod
  split <;> rfl

/-- What cannot be assigned is reported at the moved position. -/
theorem requireAssignable_move (target source : Ty) (offset : Nat) :
    requireAssignable target source (move offset) =
      relocateError move (requireAssignable target source offset) := by
  unfold requireAssignable
  split <;> rfl

/-- A literal out of range is reported at the moved position. -/
theorem Literal.type_move (literal : Literal) (offset : Nat) :
    literal.type (move offset) = relocateError move (literal.type offset) := by
  cases literal with
  | integer n =>
    rw [Literal.type, Literal.type]
    split <;> rfl
  | decimal x =>
    rw [Literal.type, Literal.type]
    split <;> rfl
  | nil | boolean | character | string => rfl

/-- Operands that do not fit are reported at the moved position of the side to blame. -/
theorem BinaryOp.type_move (op : BinaryOp) (left right : Ty) (operator first second : Nat) :
    op.type left right ⟨move operator, move first, move second⟩ =
      relocateError move (op.type left right ⟨operator, first, second⟩) := by
  unfold BinaryOp.type
  simp only [requireAssignable_move, relocateError_ite, relocateError_bind, relocateError_pure]
  rfl

mutual

/-- The type of an expression does not depend on positions and annotations, and a fault is moved.
The recursion follows the tree. -/
theorem Expr.infer_move (hsame : Chain.Same scopes scopes') : ∀ expr : Expr,
    (expr.relocate move).infer scopes = relocateError move (expr.infer scopes')
  | .literal mark value => Literal.type_move move value mark.offset
  | .group mark inner => by
    rw [Expr.relocate, Expr.infer, Expr.infer, Expr.infer_move hsame inner]
  | .binary mark op left right => by
    simp only [Expr.relocate, Expr.infer, Expr.infer_move hsame left,
      Expr.infer_move hsame right, Mark.offset_move, Expr.offset_move,
      BinaryOp.type_move, relocateError_bind]
  | .access mark name resolved => by
    simp only [Expr.relocate, Expr.infer, requireVariable_same hsame, Mark.offset_move,
      requireVariable_move, relocateError_bind, relocateError_pure]
  | .member mark receiver name resolved => by
    simp only [Expr.relocate, Expr.infer, Expr.infer_move hsame receiver, Mark.offset_move,
      Ty.requireField_move, relocateError_bind, relocateError_pure]
  | .call mark name args resolved => by
    simp only [Expr.relocate, Expr.infer, requireFunction_same hsame, Mark.offset_move,
      length_relocateArgs, checkArgs_move hsame args, requireFunction_move, relocateError_bind,
      relocateError_pure]
  | .invoke mark receiver name args resolved => by
    simp only [Expr.relocate, Expr.infer, Expr.infer_move hsame receiver, Mark.offset_move,
      length_relocateArgs, checkArgs_move hsame args, Ty.requireMethod_move, relocateError_bind,
      relocateError_pure]

/-- Arguments are checked alike at moved positions. -/
theorem checkArgs_move (hsame : Chain.Same scopes scopes') :
    ∀ (args : List Expr) (params : List Ty),
      checkArgs scopes (relocateArgs move args) params =
        relocateError move (checkArgs scopes' args params)
  | [], _ => rfl
  | _ :: _, [] => rfl
  | head :: tail, param :: params => by
    simp only [relocateArgs, checkArgs, Expr.infer_move hsame head,
      checkArgs_move hsame tail params, Expr.offset_move, requireAssignable_move,
      relocateError_bind]

end

/-- An expression is checked alike for a target at moved positions. -/
theorem Expr.checkAs_move (hsame : Chain.Same scopes scopes') (target : Ty) (expr : Expr) :
    (expr.relocate move).checkAs scopes target =
      relocateError move (expr.checkAs scopes' target) := by
  simp only [checkAs, infer_move move hsame, offset_move, requireAssignable_move,
    relocateError_bind]

end

@[simp]
theorem Mark.offset_relocate (mark : Mark) : (mark.relocate id).offset = mark.offset := rfl

theorem Expr.isTarget_relocate (expr : Expr) : (expr.relocate id).isTarget = expr.isTarget :=
  expr.isTarget_move id

theorem Expr.infer_relocate (hsame : Chain.Same scopes scopes') (expr : Expr) :
    (expr.relocate id).infer scopes = expr.infer scopes' :=
  (Expr.infer_move id hsame expr).trans (relocateError_id _)

theorem Expr.checkAs_relocate (hsame : Chain.Same scopes scopes') (target : Ty) (expr : Expr) :
    (expr.relocate id).checkAs scopes target = expr.checkAs scopes' target :=
  (Expr.checkAs_move id hsame target expr).trans (relocateError_id _)

end

/-! ### Declarations and statements -/

section

variable {context context' : TypeContext}

/-- The name of a type stands for the same, or is missing at the moved position. -/
theorem TypeContext.Same.resolve_move (hcontext : context.Same context') (move : Nat → Nat)
    (offset : Nat) (name : String) :
    context.resolve (move offset) name = relocateError move (context'.resolve offset name) := by
  rw [hcontext.resolve]
  unfold TypeContext.resolve
  split <;> rfl

/-- A name that is declared twice is reported at the moved position. -/
theorem TypeScope.add_move (here : TypeScope) (move : Nat → Nat) (offset : Nat) (name : String)
    (type : Ty) :
    here.add (move offset) name type = relocateError move (here.add offset name type) := by
  unfold add
  split <;> rfl

section

variable (hcontext : context.Same context')
include hcontext

variable {outer outer' : TypeChain} (houter : Chain.Same outer outer') (here : TypeScope)
include houter

/-- The type of a declaration does not depend on positions and annotations. -/
theorem Binding.infer_move (move : Nat → Nat) (binding : Binding) :
    (binding.relocate move).infer context outer here =
      relocateError move (binding.infer context' outer' here) := by
  obtain ⟨name, typeName, value, offset, resolved⟩ := binding
  have hwritten := option_mapM_relocate move (hcontext.resolve_move move offset) typeName
  simp only [infer, relocate, hwritten, relocateError_bind]
  refine bind_congr fun written ↦ ?_
  cases value with
  | none => cases written <;> rfl
  | some value =>
    cases written with
    | none => exact Expr.infer_move move (houter.cons here) value
    | some type =>
      simp only [Option.map_some, Expr.checkAs_move move (houter.cons here), relocateError_bind,
        relocateError_pure]

/-- A declaration is checked alike at moved positions. -/
theorem Binding.check_move (move : Nat → Nat) (binding : Binding) :
    (binding.relocate move).check context outer here =
      relocateError move (binding.check context' outer' here) := by
  unfold check
  rw [infer_move hcontext houter, relocateError_bind]
  exact bind_congr fun type ↦ here.add_move move binding.offset binding.name type

theorem Binding.infer_relocate (binding : Binding) :
    (binding.relocate id).infer context outer here = binding.infer context' outer' here :=
  (binding.infer_move hcontext houter here id).trans (relocateError_id _)

theorem Binding.check_relocate (binding : Binding) :
    (binding.relocate id).check context outer here = binding.check context' outer' here :=
  (binding.check_move hcontext houter here id).trans (relocateError_id _)

end

section

variable (move : Nat → Nat)

mutual

/-- A statement is checked alike at moved positions and leaves the same scope. The recursion follows
the tree. -/
theorem Stmt.check_move (hcontext : context.Same context') (returns : Ty) :
    ∀ (stmt : Stmt) {outer outer' : TypeChain} (here : TypeScope), Chain.Same outer outer' →
      (stmt.relocate move).check context returns outer here =
        relocateError move (stmt.check context' returns outer' here)
  | .expr value, outer, outer', here, houter => by
    simp only [Stmt.relocate, Stmt.check, Expr.infer_move move (houter.cons here),
      Expr.isCall_move, Expr.offset_move, relocateError_bind,
      relocateError_discard, relocateError_ite, relocateError_pure, relocateError_throw]
    rfl
  | .declare binding, outer, outer', here, houter => by
    rw [Stmt.relocate, Stmt.check, Stmt.check, Binding.check_move hcontext houter]
  | .assign target value, outer, outer', here, houter => by
    simp only [Stmt.relocate, Stmt.check, Expr.infer_move move (houter.cons here),
      Expr.isTarget_move, Expr.offset_move, requireAssignable_move, relocateError_bind,
      relocateError_ite, relocateError_pure, relocateError_throw]
    rfl
  | .branch condition thenBody elseBody, outer, outer', here, houter => by
    have hthen : (relocateAll move thenBody).isEmpty = thenBody.isEmpty := by
      cases thenBody <;> rfl
    simp only [Stmt.relocate, Stmt.check, Expr.checkAs_move move (houter.cons here), hthen,
      checkBlock_move hcontext returns thenBody {} (houter.cons here),
      checkBlock_move hcontext returns elseBody {} (houter.cons here), Expr.offset_move,
      relocateError_bind, relocateError_ite, relocateError_pure, relocateError_throw]
    rfl
  | .forEach offset name iterable body, outer, outer', here, houter => by
    simp only [Stmt.relocate, Stmt.check, Expr.checkAs_move move (houter.cons here),
      checkBlock_move hcontext returns body _ (houter.cons here), relocateError_bind,
      relocateError_pure]
  | .loop condition body, outer, outer', here, houter => by
    simp only [Stmt.relocate, Stmt.check, Expr.checkAs_move move (houter.cons here),
      checkBlock_move hcontext returns body {} (houter.cons here), relocateError_bind,
      relocateError_pure]
  | .ret value, outer, outer', here, houter => by
    simp only [Stmt.relocate, Stmt.check, Expr.checkAs_move move (houter.cons here),
      relocateError_bind, relocateError_pure]

/-- A block is checked alike at moved positions. -/
theorem checkBlock_move (hcontext : context.Same context') (returns : Ty) :
    ∀ (block : List Stmt) {outer outer' : TypeChain} (here : TypeScope), Chain.Same outer outer' →
      checkBlock context returns outer here (relocateAll move block) =
        relocateError move (checkBlock context' returns outer' here block)
  | [], _, _, _, _ => rfl
  | head :: tail, outer, outer', here, houter => by
    simp only [relocateAll, checkBlock, Stmt.check_move hcontext returns head here houter,
      checkBlock_move hcontext returns tail _ houter, relocateError_bind]

end

end

/-- Annotations do not change what a statement is checked to. -/
theorem Stmt.check_relocate (hcontext : context.Same context') (returns : Ty) (stmt : Stmt)
    {outer outer' : TypeChain} (here : TypeScope) (houter : Chain.Same outer outer') :
    (stmt.relocate id).check context returns outer here =
      stmt.check context' returns outer' here :=
  (stmt.check_move id hcontext returns here houter).trans (relocateError_id _)

/-- Annotations do not change what a block is checked to. -/
theorem checkBlock_relocate (hcontext : context.Same context') (returns : Ty) (block : List Stmt)
    {outer outer' : TypeChain} (here : TypeScope) (houter : Chain.Same outer outer') :
    checkBlock context returns outer here (relocateAll id block) =
      checkBlock context' returns outer' here block :=
  (checkBlock_move id hcontext returns block here houter).trans (relocateError_id _)

end

/-! ### Programs -/

section

variable {context context' : TypeContext} (hcontext : context.Same context') (move : Nat → Nat)
include hcontext

/-- Fields are checked alike at moved positions and make the same module. -/
theorem checkFields_move (module : TypeScope) (fields : List Binding) :
    checkFields context module (fields.map (Binding.relocate move)) =
      relocateError move (checkFields context' module fields) := by
  induction fields generalizing module with
  | nil => rfl
  | cons head tail ih =>
    rw [List.map_cons, checkFields, checkFields,
      Binding.check_move hcontext hcontext.globals, relocateError_bind]
    simp only [ih]

/-- The signature of a method does not depend on positions and annotations. -/
theorem Method.signature_move (method : Method) :
    (method.relocate move).signature context =
      relocateError move (method.signature context') := by
  have hresolve := hcontext.resolve_move move method.offset
  simp only [signature, relocate, list_mapM_relocate move hresolve,
    option_mapM_relocate move hresolve, relocateError_bind, relocateError_pure]

/-- A method is declared alike at its moved position. -/
theorem Method.declare_move (module : TypeScope) (method : Method) :
    (method.relocate move).declare context module =
      relocateError move (method.declare context' module) := by
  simp only [declare, signature_move hcontext, relocateError_bind, relocateError_ite,
    relocateError_pure, relocateError_throw]
  rfl

/-- Methods are declared alike at moved positions and make the same module. -/
theorem declareMethods_move (module : TypeScope) (methods : List Method) :
    declareMethods context module (methods.map (Method.relocate move)) =
      relocateError move (declareMethods context' module methods) := by
  unfold declareMethods
  rw [List.foldlM_map]
  exact foldlM_relocate move (fun module method ↦ method.declare_move hcontext move module) _ _

omit hcontext in
theorem Method.scope_move (method : Method) (signature : Signature Ty) :
    (method.relocate move).scope signature = relocateError move (method.scope signature) :=
  foldlM_relocate move (fun here param ↦ here.add_move move method.offset param.1 param.2) _ _

/-- A method is checked alike at moved positions. -/
theorem Method.check_move (module : TypeScope) (method : Method) :
    (method.relocate move).check context module =
      relocateError move (method.check context' module) := by
  have hbody (returns : Ty) (here : TypeScope) :=
    checkBlock_move move hcontext returns method.body here (hcontext.globals.cons module)
  simp only [check, signature_move hcontext, scope_move, relocateError_bind]
  simp only [relocate, hbody]

/-- A tree that is moved gets the same verdict, or the same error where it is moved to. -/
theorem Program.check_move (program : Program) :
    (program.relocate move).check context = relocateError move (program.check context') := by
  have hmain : (program.methods.map (Method.relocate move)).any Method.isMain =
      program.methods.any Method.isMain := List.any_map
  have hbodies (module : TypeScope) :
      (program.methods.map (Method.relocate move)).forM (Method.check context module) =
        relocateError move (program.methods.forM (Method.check context' module)) := by
    rw [List.forM_eq_forM, List.forM_map, ← List.forM_eq_forM]
    exact forM_relocate move (fun method ↦ method.check_move hcontext move module) _
  unfold check
  simp only [relocate, hmain, checkFields_move hcontext, declareMethods_move hcontext, hbodies,
    relocateError_bind, relocateError_ite, relocateError_throw]
  rfl

end

section

variable {context context' : TypeContext} (hcontext : context.Same context')
include hcontext

theorem checkFields_relocate (module : TypeScope) (fields : List Binding) :
    checkFields context module (fields.map (Binding.relocate id)) =
      checkFields context' module fields :=
  (checkFields_move hcontext id module fields).trans (relocateError_id _)

theorem Method.signature_relocate (method : Method) :
    (method.relocate id).signature context = method.signature context' :=
  (method.signature_move hcontext id).trans (relocateError_id _)

theorem Method.declare_relocate (module : TypeScope) (method : Method) :
    (method.relocate id).declare context module = method.declare context' module :=
  (method.declare_move hcontext id module).trans (relocateError_id _)

theorem declareMethods_relocate (module : TypeScope) (methods : List Method) :
    declareMethods context module (methods.map (Method.relocate id)) =
      declareMethods context' module methods :=
  (declareMethods_move hcontext id module methods).trans (relocateError_id _)

theorem Method.check_relocate (module : TypeScope) (method : Method) :
    (method.relocate id).check context module = method.check context' module :=
  (method.check_move hcontext id module).trans (relocateError_id _)

/-- The verdict on a program, and the error if it is rejected, is that on its tree without
annotations. -/
theorem Program.check_erase (program : Program) :
    program.erase.check context = program.check context' :=
  (program.check_move hcontext id).trans (relocateError_id _)

end

end ScriptLang
