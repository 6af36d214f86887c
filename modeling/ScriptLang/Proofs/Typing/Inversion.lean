import Mathlib.Data.List.Forall2
import ScriptLang.Typing.Check
import ScriptLang.Value.Operation

/-!
What an accepting check has found. For each form of expression and statement, and for fields,
methods and programs, the check accepts exactly when the listed parts are accepted.
-/

set_option autoImplicit false
set_option relaxedAutoImplicit false

namespace ScriptLang

/-- Two parts of a check are accepted if both are, the second with the value of the first. -/
theorem except_bind_eq_ok {ε α β : Type} {first : Except ε α} {next : α → Except ε β} {result : β} :
    (first >>= next) = .ok result ↔ ∃ value, first = .ok value ∧ next value = .ok result := by
  cases first with
  | ok value =>
    constructor
    · exact fun h ↦ ⟨value, rfl, h⟩
    · rintro ⟨other, hother, hnext⟩
      cases hother
      exact hnext
  | error cause =>
    constructor
    · exact fun h ↦ by cases h
    · rintro ⟨other, hother, -⟩
      cases hother

/-- Two parts of a check are rejected if the first is, or the second with the value of the first. -/
theorem except_bind_eq_error {ε α β : Type} {first : Except ε α} {next : α → Except ε β}
    {cause : ε} :
    first >>= next = .error cause ↔
      first = .error cause ∨ ∃ value, first = .ok value ∧ next value = .error cause := by
  cases first with
  | ok value => simp [bind, Except.bind]
  | error other => simp [bind, Except.bind]

theorem except_pure_eq_ok {ε α : Type} {value result : α} :
    (pure value : Except ε α) = .ok result ↔ value = result := by
  constructor
  · exact fun h ↦ by cases h; rfl
  · rintro rfl
    rfl

/-- A changed value is accepted if the value is. -/
theorem except_map_eq_ok {ε α β : Type} {first : Except ε α} {f : α → β} {result : β} :
    f <$> first = .ok result ↔ ∃ value, first = .ok value ∧ f value = result := by
  rw [map_eq_pure_bind, except_bind_eq_ok]
  simp only [except_pure_eq_ok]

theorem except_discard_eq_ok {ε α : Type} {first : Except ε α} {result : Unit} :
    discard first = .ok result ↔ ∃ value, first = .ok value := by
  cases first with
  | ok value => exact ⟨fun _ ↦ ⟨value, rfl⟩, fun _ ↦ rfl⟩
  | error cause =>
    constructor
    · exact fun h ↦ by cases h
    · rintro ⟨other, hother⟩
      cases hother

/-- A source that is required to be assignable is. -/
theorem requireAssignable_eq_ok {target source : Ty} {offset : Nat} {result : Unit} :
    requireAssignable target source offset = .ok result ↔ target.assignable source = true := by
  unfold requireAssignable
  split <;> simp_all

/-- A variable that is required is there. -/
theorem requireVariable_eq_ok {scopes : TypeChain} {offset : Nat} {name : String}
    {found : Variable Ty} :
    requireVariable scopes offset name = .ok found ↔ scopes.lookup? name = some found := by
  unfold requireVariable
  split <;> simp_all

/-- A function that is required is there, under its count of arguments. -/
theorem requireFunction_eq_ok {scopes : TypeChain} {offset : Nat} {name : String} {arity : Nat}
    {found : Signature Ty} :
    requireFunction scopes offset name arity = .ok found ↔
      scopes.function? name arity = some found := by
  unfold requireFunction
  split <;> simp_all

/-- Only record types have members. -/
theorem Ty.field?_eq_some {type : Ty} {name : String} {found : Variable Ty} :
    type.field? name = some found ↔
      ∃ record, type = .record record ∧ record.members.lookup? name = some found := by
  cases type <;> simp [field?]

/-- Only records have methods. -/
theorem Ty.method?_eq_some {type : Ty} {name : String} {arity : Nat} {found : Signature Ty} :
    type.method? name arity = some found ↔
      ∃ record, type = .record record ∧ record.members.function? name arity = some found := by
  cases type <;> simp [method?]

/-- A field that is required is one of the type. -/
theorem Ty.requireField_eq_ok {type : Ty} {offset : Nat} {name : String} {found : Variable Ty} :
    type.requireField offset name = .ok found ↔ type.field? name = some found := by
  unfold Ty.requireField
  split <;> simp_all

/-- A method that is required is one of the type, with the receiver as one more parameter. -/
theorem Ty.requireMethod_eq_ok {type : Ty} {offset : Nat} {name : String} {arity : Nat}
    {found : Signature Ty} :
    type.requireMethod offset name arity = .ok found ↔
      type.method? name (arity + 1) = some found := by
  unfold Ty.requireMethod
  split <;> simp_all

/-- A type that is named is known to programs. -/
theorem TypeContext.resolve_eq_ok {context : TypeContext} {offset : Nat} {name : String}
    {type : Ty} : context.resolve offset name = .ok type ↔ context.type? name = some type := by
  unfold TypeContext.resolve
  split <;> simp_all

/-- No literal is an object of a record type, and no operator gives one. -/
theorem Literal.type_plain {literal : Literal} {type : Ty} {offset : Nat}
    (htype : literal.type offset = .ok type) : ∀ record, type ≠ .record record := by
  rintro record rfl
  cases literal <;> unfold Literal.type at htype <;> grind

/-- The four rules for operators: logical ones, comparisons, joining texts, and arithmetic. -/
theorem BinaryOp.type_cases {op : BinaryOp} {left right type : Ty} {offsets : OperandOffsets}
    (htype : op.type left right offsets = .ok type) :
    ((op = .and ∨ op = .or) ∧ Ty.boolean.assignable left = true ∧
        Ty.boolean.assignable right = true ∧ type = .boolean) ∨
      (op.isComparison = true ∧ left.assignable right = true ∧ type = .boolean) ∨
      (op = .add ∧ (left = .string ∨ right = .string) ∧ type = .string) ∨
      (op ∈ BinaryOp.additive ++ BinaryOp.multiplicative ∧ (left = .integer ∨ left = .decimal) ∧
        left.same right = true ∧ type = left) := by
  unfold BinaryOp.type at htype
  by_cases hlogical : op = .and ∨ op = .or
  · rw [if_pos hlogical] at htype
    simp only [except_bind_eq_ok, except_pure_eq_ok, requireAssignable_eq_ok] at htype
    obtain ⟨_, hleft, _, hright, rfl⟩ := htype
    exact .inl ⟨hlogical, hleft, hright, rfl⟩
  rw [if_neg hlogical] at htype
  by_cases hcomparison : op.isComparison = true
  · rw [if_pos hcomparison] at htype
    simp only [except_bind_eq_ok, except_pure_eq_ok, requireAssignable_eq_ok] at htype
    obtain ⟨_, -, _, hright, rfl⟩ := htype
    exact .inr (.inl ⟨hcomparison, hright, rfl⟩)
  rw [if_neg hcomparison] at htype
  split at htype
  · rename_i hjoin
    cases htype
    refine .inr (.inr (.inl ⟨hjoin.1, ?_, rfl⟩))
    cases left <;> cases right <;> simp_all [Ty.isString]
  · split at htype
    · rename_i harith
      cases htype
      refine .inr (.inr (.inr ⟨?_, ?_, ?_, rfl⟩))
      · cases op <;> simp_all [isComparison, comparisons, additive, multiplicative]
      · cases left <;> simp_all [Ty.isNumber]
      · exact (Bool.and_eq_true_iff.mp harith).2
    · cases htype

/-- The result of an operator is no record. -/
theorem BinaryOp.type_plain {op : BinaryOp} {left right type : Ty} {offsets : OperandOffsets}
    (htype : op.type left right offsets = .ok type) : ∀ record, type ≠ .record record := by
  rintro record rfl
  obtain ⟨_, _, _, h⟩ | ⟨_, _, h⟩ | ⟨_, _, h⟩ | ⟨_, hleft, _, rfl⟩ := type_cases htype
  · cases h
  · cases h
  · cases h
  · obtain h | h := hleft <;> cases h

/-- An operator that may not need its right operand is logical. -/
theorem BinaryOp.type_of_shortcut {op : BinaryOp} {left right type : Ty} {offsets : OperandOffsets}
    {decisive : Bool} (hop : op.shortcut? = some decisive)
    (htype : op.type left right offsets = .ok type) :
    type = .boolean ∧ Ty.boolean.assignable left = true ∧
      Ty.boolean.assignable right = true := by
  obtain ⟨-, hleft, hright, hboolean⟩ | ⟨hcomparison, -⟩ | ⟨rfl, -⟩ | ⟨harithmetic, -⟩ :=
    type_cases htype
  · exact ⟨hboolean, hleft, hright⟩
  · cases op <;> simp_all [shortcut?, isComparison, comparisons]
  · cases hop
  · cases op <;> simp_all [shortcut?, additive, multiplicative]

/-! ### Expressions -/

section

variable {scopes : TypeChain} {mark : Mark} {type : Ty}

/-- An operation has a type if both sides have one and the operator takes them. -/
theorem Expr.infer_binary {op : BinaryOp} {left right : Expr} :
    (binary mark op left right).infer scopes = .ok type ↔
      ∃ leftType rightType, left.infer scopes = .ok leftType ∧ right.infer scopes = .ok rightType ∧
        op.type leftType rightType ⟨mark.offset, left.offset, right.offset⟩ = .ok type := by
  simp only [infer, except_bind_eq_ok]
  constructor
  · rintro ⟨leftType, hleft, rightType, hright, htype⟩
    exact ⟨leftType, rightType, hleft, hright, htype⟩
  · rintro ⟨leftType, rightType, hleft, hright, htype⟩
    exact ⟨leftType, hleft, rightType, hright, htype⟩

/-- A variable has the type that it was declared with. -/
theorem Expr.infer_access {name : String} {resolved : Option (Variable Ty)} :
    (access mark name resolved).infer scopes = .ok type ↔
      ∃ found, scopes.lookup? name = some found ∧ found.type = type := by
  simp only [infer, except_bind_eq_ok, except_pure_eq_ok, requireVariable_eq_ok]

/-- A field has its type if the receiver has one with this field. -/
theorem Expr.infer_member {receiver : Expr} {name : String} {resolved : Option (Variable Ty)} :
    (member mark receiver name resolved).infer scopes = .ok type ↔
      ∃ receiverType found, receiver.infer scopes = .ok receiverType ∧
        receiverType.field? name = some found ∧ found.type = type := by
  simp only [infer, except_bind_eq_ok, except_pure_eq_ok, Ty.requireField_eq_ok]
  constructor
  · rintro ⟨receiverType, hreceiver, found, hfound, htype⟩
    exact ⟨receiverType, found, hreceiver, hfound, htype⟩
  · rintro ⟨receiverType, found, hreceiver, hfound, htype⟩
    exact ⟨receiverType, hreceiver, found, hfound, htype⟩

/-- A call has the type of the result if the function takes the arguments. -/
theorem Expr.infer_call {name : String} {args : List Expr} {resolved : Option (Signature Ty)} :
    (call mark name args resolved).infer scopes = .ok type ↔
      ∃ found, scopes.function? name args.length = some found ∧
        checkArgs scopes args found.params = .ok () ∧ found.returns = type := by
  simp only [infer, except_bind_eq_ok, except_pure_eq_ok, requireFunction_eq_ok]
  constructor
  · rintro ⟨found, hfound, _, hargs, htype⟩
    exact ⟨found, hfound, hargs, htype⟩
  · rintro ⟨found, hfound, hargs, htype⟩
    exact ⟨found, hfound, (), hargs, htype⟩

/-- A call of a method has the type of the result if the type of the receiver has the method and it
takes the arguments. -/
theorem Expr.infer_invoke {receiver : Expr} {name : String} {args : List Expr}
    {resolved : Option (Signature Ty)} :
    (invoke mark receiver name args resolved).infer scopes = .ok type ↔
      ∃ receiverType found, receiver.infer scopes = .ok receiverType ∧
        receiverType.method? name (args.length + 1) = some found ∧
        checkArgs scopes args (found.params.drop 1) = .ok () ∧ found.returns = type := by
  simp only [infer, except_bind_eq_ok, except_pure_eq_ok, Ty.requireMethod_eq_ok]
  constructor
  · rintro ⟨receiverType, hreceiver, found, hfound, _, hargs, htype⟩
    exact ⟨receiverType, found, hreceiver, hfound, hargs, htype⟩
  · rintro ⟨receiverType, found, hreceiver, hfound, hargs, htype⟩
    exact ⟨receiverType, hreceiver, found, hfound, (), hargs, htype⟩

/-- An expression fits a target if it has a type that may be assigned to it. -/
theorem Expr.checkAs_eq_ok {target : Ty} {expr : Expr} {result : Unit} :
    expr.checkAs scopes target = .ok result ↔
      ∃ source, expr.infer scopes = .ok source ∧ target.assignable source = true := by
  simp only [checkAs, except_bind_eq_ok, requireAssignable_eq_ok]

/-- Arguments fit parameters one by one. -/
theorem checkArgs_cons {head : Expr} {tail : List Expr} {param : Ty} {params : List Ty} :
    checkArgs scopes (head :: tail) (param :: params) = .ok () ↔
      head.checkAs scopes param = .ok () ∧ checkArgs scopes tail params = .ok () := by
  simp only [checkArgs, except_bind_eq_ok, Expr.checkAs_eq_ok, requireAssignable_eq_ok]
  constructor
  · rintro ⟨source, hsource, _, hassignable, htail⟩
    exact ⟨⟨source, hsource, hassignable⟩, htail⟩
  · rintro ⟨⟨source, hsource, hassignable⟩, htail⟩
    exact ⟨source, hsource, (), hassignable, htail⟩

/-- An argument that there is a parameter for is checked. -/
theorem checkArgs_getElem? {args : List Expr} {params : List Ty} {index : Nat} {arg : Expr}
    (hargs : checkArgs scopes args params = .ok ()) (hindex : index < params.length)
    (harg : args[index]? = some arg) : ∃ param, arg.checkAs scopes param = .ok () := by
  induction args generalizing params index with
  | nil => simp at harg
  | cons head tail ih =>
    match params, hindex with
    | param :: params, hindex =>
      obtain ⟨hhead, htail⟩ := checkArgs_cons.mp hargs
      cases index with
      | zero =>
        rw [List.getElem?_cons_zero, Option.some_inj] at harg
        exact ⟨param, harg ▸ hhead⟩
      | succ index =>
        rw [List.getElem?_cons_succ] at harg
        exact ih htail (Nat.lt_of_succ_lt_succ hindex) harg

/-- The first arguments fit the first parameters. -/
theorem checkArgs_take {args : List Expr} {params : List Ty} (count : Nat)
    (hargs : checkArgs scopes args params = .ok ()) :
    checkArgs scopes (args.take count) (params.take count) = .ok () := by
  induction args generalizing params count with
  | nil =>
    rw [List.take_nil]
    rfl
  | cons head tail ih =>
    match params, count with
    | _, 0 => rfl
    | [], _ + 1 => rfl
    | param :: params, count + 1 =>
      obtain ⟨hhead, htail⟩ := checkArgs_cons.mp hargs
      exact checkArgs_cons.mpr ⟨hhead, ih count htail⟩

end

/-! ### Statements -/

/-- A variable may be added if the scope has none of its name. -/
theorem TypeScope.add_eq_ok {here after : TypeScope} {offset : Nat} {name : String} {type : Ty} :
    here.add offset name type = .ok after ↔
      here.lookup? name = none ∧ here.declare name ⟨name, type⟩ = after := by
  unfold TypeScope.add
  by_cases hbound : (here.lookup? name).isSome = true
  · rw [if_pos hbound]
    constructor
    · exact fun h ↦ by cases h
    · rintro ⟨hnone, -⟩
      rw [hnone] at hbound
      cases hbound
  · rw [if_neg hbound]
    simp_all

section

variable {context : TypeContext} {outer : TypeChain} {here after : TypeScope}

/-- A declaration is accepted if it has a type and its name is new in the scope. -/
theorem Binding.check_eq_ok {binding : Binding} :
    binding.check context outer here = .ok after ↔
      ∃ type, binding.infer context outer here = .ok type ∧
        here.add binding.offset binding.name type = .ok after := by
  simp only [check, except_bind_eq_ok]

/-- A declaration has a written type that is known, or a value to take the type from; a value beside
a type is assignable to it. -/
theorem Binding.infer_eq_ok {binding : Binding} {type : Ty} :
    binding.infer context outer here = .ok type ↔
      (∃ name, binding.typeName = some name ∧ context.type? name = some type ∧
          ∀ value, binding.value = some value → value.checkAs (here :: outer) type = .ok ()) ∨
        ∃ value, binding.typeName = none ∧ binding.value = some value ∧
          value.infer (here :: outer) = .ok type := by
  unfold infer
  cases hname : binding.typeName with
  | none =>
    cases hvalue : binding.value with
    | none =>
      constructor
      · exact fun h ↦ by cases h
      · rintro (⟨_, h, -⟩ | ⟨_, -, h, -⟩) <;> cases h
    | some value =>
      change value.infer (here :: outer) = .ok type ↔ _
      simp
  | some name =>
    have hwritten : (some name).mapM (context.resolve binding.offset) =
        some <$> context.resolve binding.offset name := rfl
    rw [hwritten]
    simp only [except_bind_eq_ok, except_map_eq_ok, TypeContext.resolve_eq_ok]
    constructor
    · rintro ⟨_, ⟨found, hfound, rfl⟩, htype⟩
      refine .inl ⟨name, rfl, ?_⟩
      cases hvalue : binding.value with
      | none =>
        rw [hvalue] at htype
        cases htype
        exact ⟨hfound, fun _ h ↦ by cases h⟩
      | some value =>
        rw [hvalue] at htype
        obtain ⟨_, hcheck, hpure⟩ := except_bind_eq_ok.mp htype
        cases hpure
        exact ⟨hfound, fun _ h ↦ by cases h; exact hcheck⟩
    · rintro (⟨_, hsame, hfound, hcheck⟩ | ⟨_, h, -⟩)
      · cases hsame
        refine ⟨some type, ⟨type, hfound, rfl⟩, ?_⟩
        cases hvalue : binding.value with
        | none => rfl
        | some value => exact except_bind_eq_ok.mpr ⟨(), hcheck value hvalue, rfl⟩
      · cases h

/-- A declaration with a type has one whose name is known. -/
theorem Binding.typeName_isOk {binding : Binding} {type : Ty}
    (htype : binding.infer context outer here = .ok type) :
    (binding.typeName.mapM (context.resolve binding.offset)).isOk = true := by
  unfold infer at htype
  obtain ⟨written, hwritten, -⟩ := except_bind_eq_ok.mp htype
  rw [hwritten]
  rfl

/-- The value of an accepted declaration has a type. -/
theorem Binding.value_infer {binding : Binding} {type : Ty}
    (htype : binding.infer context outer here = .ok type) {value : Expr}
    (hvalue : binding.value = some value) : ∃ found, value.infer (here :: outer) = .ok found := by
  obtain ⟨name, -, -, hwritten⟩ | ⟨other, -, hother, hinfer⟩ := infer_eq_ok.mp htype
  · obtain ⟨found, hfound, -⟩ := Expr.checkAs_eq_ok.mp (hwritten value hvalue)
    exact ⟨found, hfound⟩
  · cases hvalue.symm.trans hother
    exact ⟨type, hinfer⟩

variable {returns : Ty}

/-- An expression as a statement must be a call with a type, and leaves the scope as it is. -/
theorem Stmt.check_expr {value : Expr} :
    (expr value).check context returns outer here = .ok after ↔
      after = here ∧ value.isCall = true ∧ ∃ type, value.infer (here :: outer) = .ok type := by
  rw [check]
  simp only [except_bind_eq_ok, except_discard_eq_ok]
  by_cases hcall : value.isCall = true
  · simp only [if_pos hcall, except_pure_eq_ok]
    constructor
    · rintro ⟨-, htype, rfl⟩
      exact ⟨rfl, hcall, htype⟩
    · rintro ⟨rfl, -, htype⟩
      exact ⟨(), htype, rfl⟩
  · simp [hcall]

theorem Stmt.check_declare {binding : Binding} :
    (declare binding).check context returns outer here = binding.check context outer here := by
  rw [check]

/-- An assignment needs a target of the right form, to whose type the value may be assigned. -/
theorem Stmt.check_assign {target value : Expr} :
    (assign target value).check context returns outer here = .ok after ↔
      after = here ∧ target.isTarget = true ∧ ∃ found expected,
        value.infer (here :: outer) = .ok found ∧ target.infer (here :: outer) = .ok expected ∧
          expected.assignable found = true := by
  rw [check]
  by_cases htarget : target.isTarget = true
  · rw [if_pos htarget]
    simp only [except_bind_eq_ok, except_pure_eq_ok, requireAssignable_eq_ok]
    constructor
    · rintro ⟨found, hfound, expected, hexpected, -, hassignable, rfl⟩
      exact ⟨rfl, htarget, found, expected, hfound, hexpected, hassignable⟩
    · rintro ⟨rfl, -, found, expected, hfound, hexpected, hassignable⟩
      exact ⟨found, hfound, expected, hexpected, (), hassignable, rfl⟩
  · rw [if_neg htarget]
    constructor
    · exact fun h ↦ by cases h
    · exact fun h ↦ (htarget h.2.1).elim

/-- A conditional needs a Boolean, something in its first block, and blocks that are accepted. -/
theorem Stmt.check_branch {condition : Expr} {thenBody elseBody : List Stmt} :
    (branch condition thenBody elseBody).check context returns outer here = .ok after ↔
      after = here ∧ condition.checkAs (here :: outer) .boolean = .ok () ∧ thenBody ≠ [] ∧
        checkBlock context returns (here :: outer) {} thenBody = .ok () ∧
        checkBlock context returns (here :: outer) {} elseBody = .ok () := by
  rw [check, except_bind_eq_ok]
  by_cases hempty : thenBody.isEmpty = true
  · rw [if_pos hempty]
    constructor
    · rintro ⟨_, -, h⟩
      cases h
    · rintro ⟨-, -, hthen, -⟩
      exact (hthen (List.isEmpty_iff.mp hempty)).elim
  · rw [if_neg hempty]
    simp only [except_bind_eq_ok, except_pure_eq_ok]
    constructor
    · rintro ⟨_, hcondition, _, hthen, _, helse, rfl⟩
      exact ⟨rfl, hcondition, fun h ↦ hempty (h ▸ rfl), hthen, helse⟩
    · rintro ⟨rfl, hcondition, -, hthen, helse⟩
      exact ⟨(), hcondition, (), hthen, (), helse, rfl⟩

/-- A loop over a range needs a range and a body that is accepted with the variable of the loop in
its scope. -/
theorem Stmt.check_forEach {offset : Nat} {name : String} {iterable : Expr} {body : List Stmt} :
    (forEach offset name iterable body).check context returns outer here = .ok after ↔
      after = here ∧ iterable.checkAs (here :: outer) .range = .ok () ∧
        checkBlock context returns (here :: outer) (Scope.declare {} name ⟨name, .integer⟩) body =
          .ok () := by
  rw [check]
  simp only [except_bind_eq_ok, except_pure_eq_ok]
  constructor
  · rintro ⟨_, hiterable, _, hbody, rfl⟩
    exact ⟨rfl, hiterable, hbody⟩
  · rintro ⟨rfl, hiterable, hbody⟩
    exact ⟨(), hiterable, (), hbody, rfl⟩

/-- A conditional loop needs a Boolean and a body that is accepted. -/
theorem Stmt.check_loop {condition : Expr} {body : List Stmt} :
    (loop condition body).check context returns outer here = .ok after ↔
      after = here ∧ condition.checkAs (here :: outer) .boolean = .ok () ∧
        checkBlock context returns (here :: outer) {} body = .ok () := by
  rw [check]
  simp only [except_bind_eq_ok, except_pure_eq_ok]
  constructor
  · rintro ⟨_, hcondition, _, hbody, rfl⟩
    exact ⟨rfl, hcondition, hbody⟩
  · rintro ⟨rfl, hcondition, hbody⟩
    exact ⟨(), hcondition, (), hbody, rfl⟩

/-- A RETURN needs a value that fits the result of its method. -/
theorem Stmt.check_ret {value : Expr} :
    (ret value).check context returns outer here = .ok after ↔
      after = here ∧ value.checkAs (here :: outer) returns = .ok () := by
  rw [check]
  simp only [except_bind_eq_ok, except_pure_eq_ok]
  constructor
  · rintro ⟨_, hvalue, rfl⟩
    exact ⟨rfl, hvalue⟩
  · rintro ⟨rfl, hvalue⟩
    exact ⟨(), hvalue, rfl⟩

/-- Only a declaration changes the scope that a statement stands in. -/
theorem Stmt.check_cases {returns : Ty} {stmt : Stmt}
    (hcheck : stmt.check context returns outer here = .ok after) :
    after = here ∨ ∃ binding, stmt = .declare binding ∧
      binding.check context outer here = .ok after := by
  cases stmt with
  | expr value => exact .inl (check_expr.mp hcheck).1
  | declare binding => exact .inr ⟨binding, rfl, check_declare ▸ hcheck⟩
  | assign target value => exact .inl (check_assign.mp hcheck).1
  | branch condition thenBody elseBody => exact .inl (check_branch.mp hcheck).1
  | forEach offset name iterable body => exact .inl (check_forEach.mp hcheck).1
  | loop condition body => exact .inl (check_loop.mp hcheck).1
  | ret value => exact .inl (check_ret.mp hcheck).1

/-- A block is accepted if its first statement is, and the others behind it. -/
theorem checkBlock_cons {head : Stmt} {tail : List Stmt} :
    checkBlock context returns outer here (head :: tail) = .ok () ↔
      ∃ behind, head.check context returns outer here = .ok behind ∧
        checkBlock context returns outer behind tail = .ok () := by
  simp only [checkBlock, except_bind_eq_ok]

section

variable (context outer returns)

/-- The scope behind statements that are checked one after the other. -/
def scopeBehind (here : TypeScope) (statements : List Stmt) : Except TypingError TypeScope :=
  statements.foldlM (fun here statement ↦ statement.check context returns outer here) here

end

/-- The scope behind statements is the one that the last of them leaves. -/
theorem scopeBehind_cons {head : Stmt} {tail : List Stmt} :
    scopeBehind context outer returns here (head :: tail) = .ok after ↔
      ∃ behind, head.check context returns outer here = .ok behind ∧
        scopeBehind context outer returns behind tail = .ok after := by
  unfold scopeBehind
  rw [List.foldlM_cons, except_bind_eq_ok]

/-- A block is accepted if its statements leave a scope behind. -/
theorem checkBlock_eq_ok {statements : List Stmt} :
    checkBlock context returns outer here statements = .ok () ↔
      ∃ behind, scopeBehind context outer returns here statements = .ok behind := by
  induction statements generalizing here with
  | nil => exact ⟨fun _ ↦ ⟨here, rfl⟩, fun _ ↦ rfl⟩
  | cons head tail ih =>
    rw [checkBlock_cons]
    constructor
    · rintro ⟨behind, hhead, htail⟩
      obtain ⟨last, hlast⟩ := ih.mp htail
      exact ⟨last, scopeBehind_cons.mpr ⟨behind, hhead, hlast⟩⟩
    · rintro ⟨last, hlast⟩
      obtain ⟨behind, hhead, htail⟩ := scopeBehind_cons.mp hlast
      exact ⟨behind, hhead, ih.mpr ⟨last, htail⟩⟩

/-- Each statement of an accepted list is accepted behind those before it. -/
theorem scopeBehind_getElem? {statements : List Stmt} {statement : Stmt} {index : Nat}
    (hcheck : scopeBehind context outer returns here statements = .ok after)
    (hstatement : statements[index]? = some statement) :
    ∃ before behind, scopeBehind context outer returns here (statements.take index) = .ok before ∧
      statement.check context returns outer before = .ok behind := by
  induction statements generalizing here index with
  | nil => simp at hstatement
  | cons head tail ih =>
    obtain ⟨behind, hhead, htail⟩ := scopeBehind_cons.mp hcheck
    cases index with
    | zero =>
      rw [List.getElem?_cons_zero, Option.some_inj] at hstatement
      subst hstatement
      exact ⟨here, behind, rfl, hhead⟩
    | succ index =>
      rw [List.getElem?_cons_succ] at hstatement
      obtain ⟨before, last, hbefore, hlast⟩ := ih htail hstatement
      exact ⟨before, last, scopeBehind_cons.mpr ⟨behind, hhead, hbefore⟩, hlast⟩

/-! ### Programs -/

/-- Fields are accepted one after another, each in the module that those before it make. -/
theorem checkFields_cons {module : TypeScope} {head : Binding} {tail : List Binding} :
    checkFields context module (head :: tail) = .ok after ↔
      ∃ behind, head.check context [context.globals] module = .ok behind ∧
        checkFields context behind tail = .ok after := by
  simp only [checkFields, except_bind_eq_ok]

/-- A list is looked at with success if each item gives its own result. -/
theorem except_mapM_eq_ok {ε α β : Type} {f : α → Except ε β} {items : List α} {results : List β} :
    items.mapM f = .ok results ↔
      List.Forall₂ (fun item result ↦ f item = .ok result) items results := by
  induction items generalizing results with
  | nil => rw [List.mapM_nil, except_pure_eq_ok, List.forall₂_nil_left_iff, eq_comm]
  | cons head tail ih =>
    rw [List.mapM_cons, List.forall₂_cons_left_iff, except_bind_eq_ok]
    simp only [except_bind_eq_ok, except_pure_eq_ok, ih]
    constructor
    · rintro ⟨result, hresult, others, hothers, rfl⟩
      exact ⟨result, others, hresult, hothers, rfl⟩
    · rintro ⟨result, others, hresult, hothers, rfl⟩
      exact ⟨result, hresult, others, hothers, rfl⟩

/-- The types of the signature of a method are those that are written, and `Nil` where no type of a
result is. -/
theorem Method.signature_eq_ok {method : Method} {signature : Signature Ty} :
    method.signature context = .ok signature ↔
      signature.name = method.name ∧
        List.Forall₂ (fun name type ↦ context.type? name = some type) method.paramTypes
          signature.params ∧
        ((method.returnType = none ∧ signature.returns = .nil) ∨
          ∃ name, method.returnType = some name ∧
            context.type? name = some signature.returns) := by
  obtain ⟨name, params, returns⟩ := signature
  unfold Method.signature
  simp only [except_bind_eq_ok, except_pure_eq_ok, except_mapM_eq_ok,
    TypeContext.resolve_eq_ok]
  cases hreturn : method.returnType with
  | none =>
    constructor
    · rintro ⟨types, htypes, result, hresult, h⟩
      cases hresult
      cases h
      exact ⟨rfl, htypes, .inl ⟨rfl, rfl⟩⟩
    · rintro ⟨rfl, htypes, ⟨-, rfl⟩ | ⟨_, h, -⟩⟩
      · exact ⟨params, htypes, none, rfl, rfl⟩
      · cases h
  | some written =>
    have hwritten : (some written).mapM (context.resolve method.offset) =
        some <$> context.resolve method.offset written := rfl
    rw [hwritten]
    simp only [except_map_eq_ok, TypeContext.resolve_eq_ok]
    constructor
    · rintro ⟨types, htypes, _, ⟨found, hfound, rfl⟩, h⟩
      cases h
      exact ⟨rfl, htypes, .inr ⟨written, rfl, hfound⟩⟩
    · rintro ⟨rfl, htypes, ⟨h, -⟩ | ⟨_, h, hfound⟩⟩
      · cases h
      · cases h
        exact ⟨params, htypes, some returns, ⟨returns, hfound, rfl⟩, rfl⟩

/-- The type of a parameter has a name that is known. -/
theorem Method.signature_param {method : Method} {signature : Signature Ty}
    (hsignature : method.signature context = .ok signature) {type : Ty}
    (htype : type ∈ signature.params) : ∃ name, context.type? name = some type := by
  obtain ⟨-, htypes, -⟩ := signature_eq_ok.mp hsignature
  obtain ⟨index, hindex, rfl⟩ := List.getElem_of_mem htype
  exact ⟨_, htypes.get (by rw [htypes.length_eq]; exact hindex) hindex⟩

/-- A method is declared if it has a signature and no other of its name and count is in the
module. -/
theorem Method.declare_eq_ok {module : TypeScope} {method : Method} :
    method.declare context module = .ok after ↔
      ∃ signature, method.signature context = .ok signature ∧
        module.function? method.name signature.arity = none ∧
        module.declareFunction method.name signature.arity signature = after := by
  simp only [declare, except_bind_eq_ok]
  constructor
  · rintro ⟨signature, hsignature, hdeclare⟩
    refine ⟨signature, hsignature, ?_⟩
    split at hdeclare
    · cases hdeclare
    · rename_i hnew
      cases hdeclare
      exact ⟨by simpa using hnew, rfl⟩
  · rintro ⟨signature, hsignature, hnew, rfl⟩
    refine ⟨signature, hsignature, ?_⟩
    rw [hnew]
    rfl

/-- A method is accepted if its body is, in the scope of its parameters and for its result. -/
theorem Method.check_eq_ok {module : TypeScope} {method : Method} :
    method.check context module = .ok () ↔
      ∃ signature here, method.signature context = .ok signature ∧
        method.scope signature = .ok here ∧
        checkBlock context signature.returns [module, context.globals] here method.body =
          .ok () := by
  simp only [check, except_bind_eq_ok]
  constructor
  · rintro ⟨signature, hsignature, here, hhere, hbody⟩
    exact ⟨signature, here, hsignature, hhere, hbody⟩
  · rintro ⟨signature, here, hsignature, hhere, hbody⟩
    exact ⟨signature, hsignature, here, hhere, hbody⟩

/-- A list is checked with success if each item is. -/
theorem except_forM_eq_ok {ε α : Type} {f : α → Except ε Unit} {items : List α} :
    items.forM f = .ok () ↔ ∀ item ∈ items, f item = .ok () := by
  induction items with
  | nil => simp [except_pure_eq_ok]
  | cons head tail ih =>
    rw [List.forall_mem_cons, List.forM, except_bind_eq_ok]
    constructor
    · rintro ⟨_, hhead, htail⟩
      exact ⟨hhead, ih.mp htail⟩
    · rintro ⟨hhead, htail⟩
      exact ⟨(), hhead, ih.mpr htail⟩

/-- The fields, the signatures and then the bodies are accepted, and one of the methods is an
entry. -/
theorem Program.check_eq_ok {program : Program} :
    program.check context = .ok () ↔
      program.methods.any Method.isMain = true ∧ ∃ fields module,
        checkFields context {} program.fields = .ok fields ∧
        declareMethods context fields program.methods = .ok module ∧
        ∀ method ∈ program.methods, method.check context module = .ok () := by
  unfold check
  by_cases hmain : program.methods.any Method.isMain = true
  · rw [if_pos hmain]
    simp only [except_bind_eq_ok, except_forM_eq_ok]
    constructor
    · rintro ⟨fields, hfields, module, hmodule, hbodies⟩
      exact ⟨hmain, fields, module, hfields, hmodule, hbodies⟩
    · rintro ⟨-, fields, module, hfields, hmodule, hbodies⟩
      exact ⟨fields, hfields, module, hmodule, hbodies⟩
  · rw [if_neg hmain]
    constructor
    · exact fun h ↦ by cases h
    · exact fun h ↦ (hmain h.1).elim

end

end ScriptLang
