import ScriptLang.Proofs.Typing.Inversion

/-!
What a host can make known to programs. Functions and methods are found by the count of their own
parameters, so the arguments of a call are as many as the parameters they are checked against.
Checking a program adds nothing to this but variables and functions of the same kind.
-/

set_option autoImplicit false
set_option relaxedAutoImplicit false

namespace ScriptLang

/-- The record types that a host can build. -/
inductive RecordType.Built : RecordType Ty → Prop
  | new (name : String) : Built ⟨name, {}⟩
  | withField {type name field} (htype : Built type)
    (hfield : ∀ record, field = .record record → Built record) : Built (type.withField name field)
  | withMethod {type name params returns} (htype : Built type)
    (hreturns : ∀ record, returns = .record record → Built record) :
    Built (type.withMethod name params returns)

/-- The types that a host can build: all but records are there from the beginning. -/
def Ty.Built (type : Ty) : Prop := ∀ record, type = .record record → record.Built

theorem Ty.built_of_plain {type : Ty} (hplain : ∀ record, type ≠ .record record) : type.Built :=
  fun record hrecord ↦ (hplain record hrecord).elim

namespace RecordType.Built

/-- A field of a record that a host can build has a type that it can build. -/
theorem lookup? {type : RecordType Ty} (h : type.Built) {name : String} {found : Variable Ty}
    (hfound : type.members.lookup? name = some found) : found.type.Built := by
  induction h with
  | new => cases hfound
  | @withField type field fieldType _ hfield ih =>
    change (Scope.declare type.members field ⟨field, fieldType⟩).lookup? name = _ at hfound
    rw [Scope.lookup?_declare] at hfound
    by_cases hname : name = field
    · rw [if_pos hname] at hfound
      cases hfound
      exact hfield
    · rw [if_neg hname] at hfound
      exact ih hfound
  | withMethod _ _ ih => exact ih hfound

/-- A method is found by the count of its parameters, the receiver among them. -/
theorem function? {type : RecordType Ty} (h : type.Built) {name : String} {arity : Nat}
    {found : Signature Ty} (hfound : type.members.function? name arity = some found) :
    found.arity = arity ∧ found.returns.Built := by
  induction h with
  | new => cases hfound
  | withField _ _ ih => exact ih hfound
  | @withMethod type method params returns _ hreturns ih =>
    change (Scope.declareFunction type.members method
      (Signature.arity ⟨method, .any :: params, returns⟩) _).function? name arity = _ at hfound
    rw [Scope.function?_declareFunction] at hfound
    by_cases hkey : (name, arity) = (method, Signature.arity ⟨method, Ty.any :: params, returns⟩)
    · rw [if_pos hkey] at hfound
      cases hfound
      exact ⟨(Prod.mk.inj hkey).2.symm, hreturns⟩
    · rw [if_neg hkey] at hfound
      exact ih hfound

end RecordType.Built

/-- A field of a type that a host can build has such a type as well. -/
theorem Ty.Built.field? {type : Ty} (h : type.Built) {name : String} {found : Variable Ty}
    (hfound : type.field? name = some found) : found.type.Built := by
  cases type with
  | record record => exact (h record rfl).lookup? hfound
  | _ => cases hfound

/-- A method is found by its own count of parameters, and its result has a type that a host can
build. -/
theorem Ty.Built.method? {type : Ty} (h : type.Built) {name : String} {arity : Nat}
    {found : Signature Ty} (hfound : type.method? name arity = some found) :
    found.arity = arity ∧ found.returns.Built := by
  cases type with
  | record record => exact (h record rfl).function? hfound
  | _ => cases hfound

/-- The contexts that a host can build. -/
inductive TypeContext.Built : TypeContext → Prop
  | initial : Built initial
  | register {context type} (hcontext : Built context) (htype : type.Built) :
    Built (context.register type)
  | defineVariable {context} (hcontext : Built context) (name : String) {type : Ty}
    (htype : type.Built) : Built (context.defineVariable name type)
  | defineFunction {context} (hcontext : Built context) {signature : Signature Ty}
    (hreturns : signature.returns.Built) : Built (context.defineFunction signature)

/-- Variables have types that a host can build, and each function stands under its own count of
parameters. -/
structure TypeScope.Keyed (scope : TypeScope) : Prop where
  lookup? : ∀ {name found}, scope.lookup? name = some found → found.type.Built
  function? : ∀ {name arity found}, scope.function? name arity = some found →
    found.arity = arity ∧ found.returns.Built

namespace TypeScope.Keyed

variable {scope : TypeScope}

theorem empty : Keyed {} := ⟨fun h ↦ (by cases h), fun h ↦ (by cases h)⟩

/-- A variable may be declared if its type is one that a host can build. -/
theorem declare (h : scope.Keyed) (name : String) {found : Variable Ty}
    (htype : found.type.Built) : Keyed (Scope.declare scope name found) := by
  refine ⟨fun {sought other} hother ↦ ?_, h.function?⟩
  rw [Scope.lookup?_declare] at hother
  by_cases hname : sought = name
  · rw [if_pos hname] at hother
    cases hother
    exact htype
  · rw [if_neg hname] at hother
    exact h.lookup? hother

/-- A function may be declared under its own count of parameters. -/
theorem declareFunction (h : scope.Keyed) (name : String) (found : Signature Ty)
    (hreturns : found.returns.Built) :
    Keyed (Scope.declareFunction scope name found.arity found) := by
  refine ⟨h.lookup?, fun {sought count other} hother ↦ ?_⟩
  rw [Scope.function?_declareFunction] at hother
  by_cases hkey : (sought, count) = (name, found.arity)
  · rw [if_pos hkey] at hother
    cases hother
    exact ⟨(Prod.mk.inj hkey).2.symm, hreturns⟩
  · rw [if_neg hkey] at hother
    exact h.function? hother

end TypeScope.Keyed

/-- Where no records are known, no name stands for one. -/
theorem TypeContext.plain_of_no_records {context : TypeContext}
    (hrecords : ∀ name, context.records.find? name = none) (name : String) (type : Ty)
    (htype : context.records.find? name = some type) : ∀ record, type ≠ .record record := by
  rw [hrecords] at htype
  cases htype

namespace TypeContext.Built

variable {context : TypeContext}

/-- What a host has made known to all programs is keyed. -/
theorem globals (h : context.Built) : context.globals.Keyed := by
  induction h with
  | initial =>
    have hprint := TypeScope.Keyed.empty.declareFunction "print" ⟨"print", [.any], .nil⟩
      (Ty.built_of_plain fun _ h ↦ by cases h)
    exact hprint.declareFunction "range" ⟨"range", [.integer, .integer], .range⟩
      (Ty.built_of_plain fun _ h ↦ by cases h)
  | register _ _ ih => exact ih
  | defineVariable _ name htype ih => exact ih.declare name htype
  | defineFunction _ hreturns ih => exact ih.declareFunction _ _ hreturns

/-- Names besides those of built-in types stand for records. -/
theorem records (h : context.Built) {name : String} {type : Ty}
    (htype : context.records.find? name = some type) :
    ∃ record, type = .record record ∧ record.Built := by
  induction h with
  | initial => cases htype
  | @register context added _ hadded ih =>
    change (context.records.insert added.name (.record added)).find? name = _ at htype
    rw [Bindings.find?_insert] at htype
    by_cases hname : name = added.name
    · rw [if_pos hname] at htype
      cases htype
      exact ⟨added, rfl, hadded⟩
    · rw [if_neg hname] at htype
      exact ih htype
  | defineVariable _ _ _ ih => exact ih htype
  | defineFunction _ _ ih => exact ih htype

/-- A type that has a name is one that a host can build. -/
theorem type? (h : context.Built) {name : String} {type : Ty}
    (htype : context.type? name = some type) : type.Built := by
  unfold TypeContext.type? at htype
  obtain hbuiltin | ⟨-, hrecord⟩ := Option.or_eq_some_iff.mp htype
  · have hmem := List.mem_of_find?_eq_some hbuiltin
    exact Ty.built_of_plain fun record hrecord ↦ by simp [Ty.builtins, hrecord] at hmem
  · obtain ⟨record, rfl, hbuilt⟩ := h.records hrecord
    exact fun _ h ↦ by cases h; exact hbuilt

end TypeContext.Built

/-- Nested scopes all of which are keyed. -/
def TypeChain.Keyed (scopes : TypeChain) : Prop := ∀ scope ∈ scopes, TypeScope.Keyed scope

namespace TypeChain.Keyed

variable {scopes outer : TypeChain} {here : TypeScope}

theorem cons (hhere : here.Keyed) (houter : TypeChain.Keyed outer) :
    TypeChain.Keyed (here :: outer) :=
  List.forall_mem_cons.mpr ⟨hhere, houter⟩

/-- A variable that is found in keyed scopes has a type that a host can build. -/
theorem lookup? (h : scopes.Keyed) {name : String} {found : Variable Ty}
    (hfound : Chain.lookup? scopes name = some found) : found.type.Built := by
  obtain ⟨scope, hmem, hscope⟩ := List.exists_of_findSome?_eq_some hfound
  exact (h scope hmem).lookup? hscope

/-- A function that is found in keyed scopes is found by its own count. -/
theorem function? (h : scopes.Keyed) {name : String} {arity : Nat} {found : Signature Ty}
    (hfound : Chain.function? scopes name arity = some found) :
    found.arity = arity ∧ found.returns.Built := by
  obtain ⟨scope, hmem, hscope⟩ := List.exists_of_findSome?_eq_some hfound
  exact (h scope hmem).function? hscope

end TypeChain.Keyed

/-- The scopes around the fields of a program, which are checked before it has methods. -/
theorem TypeContext.Built.chain {context : TypeContext} (h : context.Built) :
    TypeChain.Keyed [context.globals] :=
  .cons h.globals fun _ hscope ↦ by cases hscope

/-- The result of an operator has a type that a host can build. -/
theorem BinaryOp.type_built {op : BinaryOp} {left right type : Ty} {offsets : OperandOffsets}
    (htype : op.type left right offsets = .ok type) (hleft : left.Built) : type.Built := by
  obtain ⟨-, -, -, rfl⟩ | ⟨-, -, rfl⟩ | ⟨-, -, rfl⟩ | ⟨-, -, -, rfl⟩ := type_cases htype
  · exact Ty.built_of_plain fun _ h ↦ by cases h
  · exact Ty.built_of_plain fun _ h ↦ by cases h
  · exact Ty.built_of_plain fun _ h ↦ by cases h
  · exact hleft

/-- Every expression has a type that a host can build, so its members can be looked up. -/
theorem Expr.infer_built {scopes : TypeChain} (hscopes : scopes.Keyed) {type : Ty} :
    ∀ expr : Expr, expr.infer scopes = .ok type → type.Built
  | .literal mark value, htype => by
    refine Ty.built_of_plain fun record hrecord ↦ ?_
    subst hrecord
    cases value <;> simp only [infer, Literal.type] at htype <;> grind
  | .group mark inner, htype => infer_built hscopes inner (by rwa [infer] at htype)
  | .binary mark op left right, htype => by
    obtain ⟨leftType, rightType, hleft, -, hop⟩ := infer_binary.mp htype
    exact BinaryOp.type_built hop (infer_built hscopes left hleft)
  | .access mark name resolved, htype => by
    obtain ⟨found, hfound, rfl⟩ := infer_access.mp htype
    exact hscopes.lookup? hfound
  | .member mark receiver name resolved, htype => by
    obtain ⟨receiverType, found, hreceiver, hfound, rfl⟩ := infer_member.mp htype
    exact (infer_built hscopes receiver hreceiver).field? hfound
  | .call mark name args resolved, htype => by
    obtain ⟨found, hfound, -, rfl⟩ := infer_call.mp htype
    exact (hscopes.function? hfound).2
  | .invoke mark receiver name args resolved, htype => by
    obtain ⟨receiverType, found, hreceiver, hfound, -, rfl⟩ := infer_invoke.mp htype
    exact ((infer_built hscopes receiver hreceiver).method? hfound).2

section

variable {context : TypeContext} {outer : TypeChain} {here after : TypeScope}

/-- Adding a variable keeps a scope keyed. -/
theorem TypeScope.Keyed.add (h : here.Keyed) {offset : Nat} {name : String} {type : Ty}
    (htype : type.Built) (hadd : here.add offset name type = .ok after) : after.Keyed := by
  obtain ⟨-, rfl⟩ := TypeScope.add_eq_ok.mp hadd
  exact h.declare name htype

/-- A declaration keeps its scope keyed. -/
theorem Binding.check_keyed (hcontext : context.Built) (houter : outer.Keyed) (hhere : here.Keyed)
    {binding : Binding} (hcheck : binding.check context outer here = .ok after) : after.Keyed := by
  obtain ⟨type, htype, hadd⟩ := Binding.check_eq_ok.mp hcheck
  refine hhere.add ?_ hadd
  obtain ⟨name, -, hwritten, -⟩ | ⟨value, -, -, hvalue⟩ := Binding.infer_eq_ok.mp htype
  · exact hcontext.type? hwritten
  · exact Expr.infer_built (.cons hhere houter) value hvalue

/-- A statement keeps its scope keyed. -/
theorem Stmt.check_keyed (hcontext : context.Built) (houter : outer.Keyed) (hhere : here.Keyed)
    {returns : Ty} {stmt : Stmt} (hcheck : stmt.check context returns outer here = .ok after) :
    after.Keyed := by
  obtain rfl | ⟨binding, -, hbinding⟩ := check_cases hcheck
  · exact hhere
  · exact Binding.check_keyed hcontext houter hhere hbinding

end

section

variable {context : TypeContext} {module after : TypeScope}

/-- The fields of a program make a keyed module. -/
theorem checkFields_keyed (hcontext : context.Built) (hmodule : module.Keyed)
    {fields : List Binding} (hcheck : checkFields context module fields = .ok after) :
    after.Keyed := by
  induction fields generalizing module with
  | nil =>
    cases hcheck
    exact hmodule
  | cons head tail ih =>
    obtain ⟨behind, hhead, htail⟩ := checkFields_cons.mp hcheck
    exact ih (Binding.check_keyed hcontext hcontext.chain hmodule hhead) htail

/-- The result of a method has a type that a host can build. -/
theorem Method.signature_built (hcontext : context.Built) {method : Method}
    {signature : Signature Ty} (hsignature : method.signature context = .ok signature) :
    signature.returns.Built := by
  obtain ⟨-, -, ⟨-, hreturns⟩ | ⟨name, -, hreturns⟩⟩ := Method.signature_eq_ok.mp hsignature
  · exact Ty.built_of_plain fun record hrecord ↦ by rw [hreturns] at hrecord; cases hrecord
  · exact hcontext.type? hreturns

/-- Declaring the methods keeps the module keyed. -/
theorem declareMethods_keyed (hcontext : context.Built) (hmodule : module.Keyed)
    {methods : List Method} (hdeclare : declareMethods context module methods = .ok after) :
    after.Keyed := by
  unfold declareMethods at hdeclare
  induction methods generalizing module with
  | nil =>
    cases hdeclare
    exact hmodule
  | cons head tail ih =>
    rw [List.foldlM_cons] at hdeclare
    obtain ⟨behind, hhead, htail⟩ := except_bind_eq_ok.mp hdeclare
    obtain ⟨signature, hsignature, -, rfl⟩ := Method.declare_eq_ok.mp hhead
    exact ih (hmodule.declareFunction _ _ (Method.signature_built hcontext hsignature)) htail

/-- Declaring parameters keeps a scope keyed. -/
theorem declareParams_keyed {offset : Nat} {params : List (String × Ty)}
    (hmodule : module.Keyed) (hparams : ∀ param ∈ params, param.2.Built)
    (hdeclare : declareParams offset module params = .ok after) : after.Keyed := by
  unfold declareParams at hdeclare
  induction params generalizing module with
  | nil =>
    cases hdeclare
    exact hmodule
  | cons head tail ih =>
    rw [List.foldlM_cons] at hdeclare
    obtain ⟨behind, hhead, htail⟩ := except_bind_eq_ok.mp hdeclare
    obtain ⟨hbuilt, hrest⟩ := List.forall_mem_cons.mp hparams
    exact ih (hmodule.add hbuilt hhead) hrest htail

/-- The parameters of a method are variables of types that a host can build. -/
theorem Method.scope_keyed (hcontext : context.Built) {method : Method}
    {signature : Signature Ty} {here : TypeScope}
    (hsignature : method.signature context = .ok signature)
    (hscope : method.scope signature = .ok here) : here.Keyed := by
  refine declareParams_keyed .empty (fun param hparam ↦ ?_) hscope
  obtain ⟨name, htype⟩ := Method.signature_param hsignature (List.of_mem_zip hparam).2
  exact hcontext.type? htype

end

end ScriptLang
