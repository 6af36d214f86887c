import Mathlib.Data.List.Forall2
import ScriptLang.Proofs.Typing.Built
import ScriptLang.Proofs.Typing.Judgment
import ScriptLang.Proofs.Typing.Module

/-!
The checker decides the rules of typing on expressions and statements. The scopes that it carries
along are read as environments, and each step of checking is an instance of a rule, in both
directions. A scope of a block is a level of variables, so what is declared in a block reaches
neither the statements behind it nor other blocks.
-/

set_option autoImplicit false
set_option relaxedAutoImplicit false

namespace ScriptLang

/-! ### Rules that do not look into a tree -/

/-- Types are told apart by their kinds, and records by their names. -/
theorem Ty.same_iff {first second : Ty} :
    first.same second = true ↔ first = second ∨
      ∃ one other, first = .record one ∧ second = .record other ∧ one.name = other.name := by
  cases first <;> cases second <;> simp [same]
  grind

/-- The test for what may be assigned decides the rules for it. -/
theorem Ty.assignable_iff {target source : Ty} :
    target.assignable source = true ↔ target.Assignable source := by
  unfold assignable
  rw [Bool.or_eq_true, same_iff]
  constructor
  · rintro ((rfl | ⟨one, other, rfl, rfl, hname⟩) | htop)
    · exact .refl _
    · exact .record hname
    · cases target with
      | any => exact .any source
      | comparable => exact .comparable source
      | _ => cases htop
  · rintro (_ | hname | _ | _)
    · exact .inl (.inl rfl)
    · exact .inl (.inr ⟨_, _, rfl, rfl, hname⟩)
    · exact .inr rfl
    · exact .inr rfl

/-- The type of a literal is the one that the rules give it, and it is in range. -/
theorem Literal.type_eq_ok {value : Literal} {type : Ty} {offset : Nat} :
    value.type offset = .ok type ↔ value.HasType type := by
  constructor
  · intro h
    cases value with
    | nil => cases h; exact .nil
    | boolean value => cases h; exact .boolean value
    | character value => cases h; exact .character value
    | string value => cases h; exact .string value
    | integer n =>
      change (if fitsWord n then _ else _) = _ at h
      split at h
      · rename_i hfits
        cases h
        simp only [fitsWord, Bool.and_eq_true, decide_eq_true_eq] at hfits
        exact .integer (by omega) (by omega)
      · cases h
    | decimal x =>
      change (if x.inDoubleRange then _ else _) = _ at h
      split at h
      · cases h
        exact .decimal ‹_›
      · cases h
  · rintro (_ | _ | _ | _ | ⟨hlow, hhigh⟩ | hrange)
    · rfl
    · rfl
    · rfl
    · rfl
    · rename_i n
      have hfits : fitsWord n = true := by
        simp only [fitsWord, Bool.and_eq_true, decide_eq_true_eq]
        omega
      exact if_pos hfits
    · exact if_pos hrange

/-- The type of an operation is the one that the rules give it. -/
theorem BinaryOp.type_eq_ok {op : BinaryOp} {left right type : Ty} {offsets : OperandOffsets} :
    op.type left right offsets = .ok type ↔ op.HasType left right type := by
  constructor
  · intro h
    obtain ⟨hlogical, hleft, hright, rfl⟩ | ⟨hcomparison, hright, rfl⟩ | ⟨rfl, hstring, rfl⟩ |
      ⟨harithmetic, hnumber, hsame, rfl⟩ := type_cases h
    · cases Ty.assignable_iff.mp hleft
      cases Ty.assignable_iff.mp hright
      exact .logical (by simpa [logical] using hlogical)
    · exact .comparison (List.contains_iff_mem.mp hcomparison) (.comparable left)
        (Ty.assignable_iff.mp hright)
    · exact .join hstring
    · obtain rfl | ⟨record, -, rfl, -⟩ := Ty.same_iff.mp hsame
      · exact .arithmetic harithmetic hnumber
      · obtain h | h := hnumber <;> cases h
  · rintro (hop | ⟨hop, hleft, hright⟩ | hstring | ⟨hop, htype⟩)
    · obtain rfl | rfl : op = .and ∨ op = .or := by simpa [logical] using hop
      · rfl
      · rfl
    · have hlogical : ¬(op = .and ∨ op = .or) := by
        rintro (rfl | rfl) <;> simp [comparisons] at hop
      have hcomparison : op.isComparison = true := List.contains_iff_mem.mpr hop
      unfold BinaryOp.type
      rw [if_neg hlogical, if_pos hcomparison]
      simp only [except_bind_eq_ok, except_pure_eq_ok, requireAssignable_eq_ok]
      exact ⟨(), Ty.assignable_iff.mpr hleft, (), Ty.assignable_iff.mpr hright, trivial⟩
    · obtain rfl | rfl := hstring
      · rfl
      · cases left <;> rfl
    · simp only [additive, multiplicative, List.cons_append, List.nil_append, List.mem_cons,
        List.not_mem_nil, or_false] at hop
      obtain rfl | rfl := htype <;> obtain rfl | rfl | rfl | rfl := hop <;> rfl

/-! ### Scopes as environments -/

/-- The variables of a scope with their types. -/
def TypeScope.types (scope : TypeScope) : Locals :=
  fun name ↦ (scope.lookup? name).map fun found ↦ found.type

/-- What names stand for where nested scopes are visible. -/
def Env.of (scopes : TypeChain) : Env where
  var name := (scopes.lookup? name).map fun found ↦ found.type
  fn := scopes.function?

theorem TypeScope.types_empty : TypeScope.types {} = .empty := rfl

/-- A declared variable is bound to its type. -/
theorem TypeScope.types_declare (scope : TypeScope) (name : String) (type : Ty) :
    TypeScope.types (scope.declare name ⟨name, type⟩) = (TypeScope.types scope).bind name type := by
  funext other
  unfold TypeScope.types Locals.bind
  rw [Scope.lookup?_declare]
  split <;> rfl

theorem TypeScope.types_eq_none {scope : TypeScope} {name : String} :
    scope.types name = none ↔ scope.lookup? name = none :=
  Option.map_eq_none_iff

@[simp]
theorem Env.of_var (scopes : TypeChain) (name : String) :
    (of scopes).var name = (Chain.lookup? scopes name).map fun found ↦ found.type := rfl

@[simp]
theorem Env.of_fn (scopes : TypeChain) (name : String) (arity : Nat) :
    (of scopes).fn name arity = Chain.function? scopes name arity := rfl

theorem Env.host_eq (context : TypeContext) : Env.host context = Env.of [context.globals] := by
  ext1
  · funext name
    have houtside : Chain.lookup? ([] : TypeChain) name = none := rfl
    rw [of_var, Chain.lookup?_cons, houtside, Option.or_none]
    rfl
  · funext name arity
    rw [of_fn, Chain.function?_cons]
    exact (Option.or_none).symm

/-- A scope of variables alone changes nothing but what variables stand for. -/
theorem Env.of_cons {here : TypeScope} (hplain : here.Plain) (outer : TypeChain) :
    Env.of (here :: outer) = (Env.of outer).under here.types := by
  ext1
  · funext name
    rw [of_var, Chain.lookup?_cons, Option.map_or]
    rfl
  · funext name arity
    rw [of_fn, Chain.function?_cons, hplain, Option.none_or]
    rfl

/-! ### Expressions -/

mutual

/-- A type is found for an expression just when the rules give it. -/
theorem Expr.infer_iff {scopes : TypeChain} (hscopes : scopes.Keyed) :
    ∀ (expr : Expr) (type : Ty), expr.infer scopes = .ok type ↔ expr.HasType (.of scopes) type
  | .literal mark value, type => by
    rw [Expr.infer, Literal.type_eq_ok]
    exact ⟨.literal, fun h ↦ by cases h; assumption⟩
  | .group mark inner, type => by
    rw [Expr.infer, Expr.infer_iff hscopes inner type]
    exact ⟨.group, fun h ↦ by cases h; assumption⟩
  | .binary mark op left right, type => by
    simp only [Expr.infer_binary, Expr.infer_iff hscopes left, Expr.infer_iff hscopes right,
      BinaryOp.type_eq_ok]
    constructor
    · rintro ⟨leftType, rightType, hleft, hright, hop⟩
      exact .binary hleft hright hop
    · rintro (_ | _ | ⟨hleft, hright, hop⟩)
      exact ⟨_, _, hleft, hright, hop⟩
  | .access mark name resolved, type => by
    rw [Expr.infer_access]
    constructor
    · rintro ⟨found, hfound, rfl⟩
      exact .access (Option.map_eq_some_iff.mpr ⟨found, hfound, rfl⟩)
    · rintro (_ | _ | _ | hname)
      exact Option.map_eq_some_iff.mp hname
  | .member mark receiver name resolved, type => by
    simp only [Expr.infer_member, Expr.infer_iff hscopes receiver, Ty.field?_eq_some]
    constructor
    · rintro ⟨_, found, hreceiver, ⟨record, rfl, hfound⟩, rfl⟩
      exact .member hreceiver hfound
    · rintro (_ | _ | _ | _ | ⟨hreceiver, hfound⟩)
      exact ⟨_, _, hreceiver, ⟨_, rfl, hfound⟩, rfl⟩
  | .call mark name args resolved, type => by
    rw [Expr.infer_call]
    constructor
    · rintro ⟨found, hfound, hargs, rfl⟩
      -- The function that is found has a parameter for each argument, so the check skips none.
      have harity := (hscopes.function? hfound).1
      exact .call hfound ((checkArgs_iff hscopes args _ harity.symm).mp hargs)
    · rintro (_ | _ | _ | _ | _ | ⟨hfound, hargs⟩)
      have harity := (hscopes.function? hfound).1
      exact ⟨_, hfound, (checkArgs_iff hscopes args _ harity.symm).mpr hargs, rfl⟩
  | .invoke mark receiver name args resolved, type => by
    have hlength {receiverType : Ty} {found : Signature Ty}
        (hreceiver : receiver.infer scopes = .ok receiverType)
        (hfound : receiverType.method? name (args.length + 1) = some found) :
        args.length = found.params.tail.length := by
      have harity := ((Expr.infer_built hscopes receiver hreceiver).method? hfound).1
      rw [List.length_tail]
      exact (Nat.sub_eq_of_eq_add harity).symm
    rw [Expr.infer_invoke]
    constructor
    · rintro ⟨receiverType, found, hreceiver, hfound, hargs, rfl⟩
      rw [List.drop_one, checkArgs_iff hscopes args _ (hlength hreceiver hfound)] at hargs
      obtain ⟨record, rfl, hmethod⟩ := Ty.method?_eq_some.mp hfound
      exact .invoke ((Expr.infer_iff hscopes receiver _).mp hreceiver) hmethod hargs
    · rintro (_ | _ | _ | _ | _ | _ | ⟨hreceiver, hmethod, hargs⟩)
      have hreceiver := (Expr.infer_iff hscopes receiver _).mpr hreceiver
      have hfound := Ty.method?_eq_some.mpr ⟨_, rfl, hmethod⟩
      rw [← checkArgs_iff hscopes args _ (hlength hreceiver hfound), ← List.drop_one] at hargs
      exact ⟨_, _, hreceiver, hfound, hargs, rfl⟩

/-- As many arguments as there are parameters are accepted just when they fit by the rules. -/
theorem checkArgs_iff {scopes : TypeChain} (hscopes : scopes.Keyed) :
    ∀ (args : List Expr) (params : List Ty), args.length = params.length →
      (checkArgs scopes args params = .ok () ↔ ArgsFit (.of scopes) args params)
  | [], [], _ => ⟨fun _ ↦ .nil, fun _ ↦ rfl⟩
  | head :: tail, param :: params, hlength => by
    rw [checkArgs_cons, checkArgs_iff hscopes tail params (Nat.succ.inj hlength),
      Expr.checkAs_eq_ok]
    simp only [Expr.infer_iff hscopes head, Ty.assignable_iff]
    constructor
    · rintro ⟨⟨type, htype, hassignable⟩, htail⟩
      exact .cons htype hassignable htail
    · rintro (_ | ⟨htype, hassignable, htail⟩)
      exact ⟨⟨_, htype, hassignable⟩, htail⟩

end

/-- The check of an expression for a target decides the rules for it. -/
theorem Expr.checkAs_iff {scopes : TypeChain} (hscopes : scopes.Keyed) {target : Ty} {expr : Expr} :
    expr.checkAs scopes target = .ok () ↔ expr.Fits (.of scopes) target := by
  unfold Fits
  simp only [checkAs_eq_ok, infer_iff hscopes, Ty.assignable_iff]

/-! ### Declarations and statements -/

section

variable {context : TypeContext} {outer : TypeChain} {here : TypeScope}

/-- The check of a declaration finds the type that the rules give it. -/
theorem Binding.infer_iff (hscopes : TypeChain.Keyed (here :: outer)) {binding : Binding}
    {type : Ty} : binding.infer context outer here = .ok type ↔
      binding.HasType context (.of (here :: outer)) type := by
  rw [infer_eq_ok]
  simp only [Expr.checkAs_iff hscopes, Expr.infer_iff hscopes]
  constructor
  · rintro (⟨name, hname, htype, hvalue⟩ | ⟨value, hname, hvalue, htype⟩)
    · exact .written hname htype hvalue
    · exact .inferred hname hvalue htype
  · rintro (⟨hname, htype, hvalue⟩ | ⟨hname, hvalue, htype⟩)
    · exact .inl ⟨_, hname, htype, hvalue⟩
    · exact .inr ⟨_, hname, hvalue, htype⟩

/-- A declaration is accepted just when it is typed and its name is new, and it binds the name. -/
theorem Binding.check_iff (hscopes : TypeChain.Keyed (here :: outer)) {binding : Binding}
    {behind : Locals} :
    (∃ after, binding.check context outer here = .ok after ∧ after.types = behind) ↔
      ∃ type, binding.HasType context (.of (here :: outer)) type ∧
        here.types binding.name = none ∧ here.types.bind binding.name type = behind := by
  simp only [check_eq_ok, infer_iff hscopes, TypeScope.add_eq_ok, TypeScope.types_eq_none]
  constructor
  · rintro ⟨_, ⟨type, htype, hnew, rfl⟩, rfl⟩
    exact ⟨type, htype, hnew, (here.types_declare _ type).symm⟩
  · rintro ⟨type, htype, hnew, rfl⟩
    exact ⟨_, ⟨type, htype, hnew, rfl⟩, here.types_declare _ type⟩

/-- A statement that is accepted declares no function. -/
theorem Stmt.check_plain {returns : Ty} {stmt : Stmt} {after : TypeScope}
    (hcheck : stmt.check context returns outer here = .ok after) (hplain : here.Plain) :
    after.Plain := by
  obtain rfl | ⟨binding, -, hbinding⟩ := check_cases hcheck
  · exact hplain
  · exact binding.check_plain hbinding hplain

/-- Where only one type may stand, an expression has just that type. -/
theorem Expr.checkAs_exact {scopes : TypeChain} (hscopes : scopes.Keyed) (target : Ty)
    (hexact : ∀ source, target.Assignable source → source = target) {expr : Expr} :
    expr.checkAs scopes target = .ok () ↔ expr.HasType (.of scopes) target := by
  rw [checkAs_iff hscopes]
  constructor
  · rintro ⟨source, hsource, hassignable⟩
    exact hexact source hassignable ▸ hsource
  · exact fun h ↦ ⟨target, h, .refl target⟩

end

section

variable {context : TypeContext} {returns : Ty}

mutual

/-- A statement is accepted just when it is typed, and leaves the variables that the rules say. -/
theorem Stmt.check_iff (hcontext : context.Built) :
    ∀ (stmt : Stmt) {outer : TypeChain} {here : TypeScope} {behind : Locals},
      TypeChain.Keyed (here :: outer) → here.Plain →
      ((∃ after, stmt.check context returns outer here = .ok after ∧ after.types = behind) ↔
        stmt.Typed context returns (.of outer) here.types behind)
  | .expr value, outer, here, behind, hscopes, hplain => by
    simp only [Stmt.check_expr, Expr.infer_iff hscopes, Env.of_cons hplain]
    constructor
    · rintro ⟨_, ⟨rfl, hcall, type, htype⟩, rfl⟩
      exact .expr hcall htype
    · rintro ⟨hcall, htype⟩
      exact ⟨here, ⟨rfl, hcall, _, htype⟩, rfl⟩
  | .declare binding, outer, here, behind, hscopes, hplain => by
    simp only [Stmt.check_declare]
    rw [Binding.check_iff hscopes, Env.of_cons hplain]
    constructor
    · rintro ⟨type, htype, hnew, rfl⟩
      exact .declare htype hnew
    · rintro (_ | ⟨htype, hnew⟩)
      exact ⟨_, htype, hnew, rfl⟩
  | .assign target value, outer, here, behind, hscopes, hplain => by
    simp only [Stmt.check_assign, Expr.infer_iff hscopes, Env.of_cons hplain, Ty.assignable_iff]
    constructor
    · rintro ⟨_, ⟨rfl, htarget, found, expected, hfound, hexpected, hassignable⟩, rfl⟩
      exact .assign htarget hexpected ⟨found, hfound, hassignable⟩
    · rintro (_ | _ | ⟨htarget, hexpected, found, hfound, hassignable⟩)
      exact ⟨here, ⟨rfl, htarget, found, _, hfound, hexpected, hassignable⟩, rfl⟩
  | .branch condition thenBody elseBody, outer, here, behind, hscopes, hplain => by
    have hinner : TypeChain.Keyed ({} :: here :: outer) := .cons .empty hscopes
    simp only [Stmt.check_branch, checkBlock_iff hcontext thenBody hinner fun _ _ ↦ rfl,
      checkBlock_iff hcontext elseBody hinner fun _ _ ↦ rfl, TypeScope.types_empty,
      Expr.checkAs_exact hscopes .boolean fun _ h ↦ by cases h; rfl,
      Env.of_cons hplain]
    constructor
    · rintro ⟨_, ⟨rfl, hcondition, hsome, hthen, helse⟩, rfl⟩
      exact .branch hcondition hsome hthen helse
    · rintro (_ | _ | _ | ⟨hcondition, hsome, hthen, helse⟩)
      exact ⟨here, ⟨rfl, hcondition, hsome, hthen, helse⟩, rfl⟩
  | .forEach offset name iterable body, outer, here, behind, hscopes, hplain => by
    have hinner : TypeChain.Keyed (Scope.declare {} name ⟨name, .integer⟩ :: here :: outer) :=
      .cons (TypeScope.Keyed.empty.declare name (Ty.built_of_plain fun _ h ↦ by cases h)) hscopes
    simp only [Stmt.check_forEach, checkBlock_iff hcontext body hinner fun _ _ ↦ rfl,
      TypeScope.types_declare, TypeScope.types_empty,
      Expr.checkAs_exact hscopes .range fun _ h ↦ by cases h; rfl,
      Env.of_cons hplain]
    constructor
    · rintro ⟨_, ⟨rfl, hiterable, hbody⟩, rfl⟩
      exact .forEach hiterable hbody
    · rintro (_ | _ | _ | _ | ⟨hiterable, hbody⟩)
      exact ⟨here, ⟨rfl, hiterable, hbody⟩, rfl⟩
  | .loop condition body, outer, here, behind, hscopes, hplain => by
    have hinner : TypeChain.Keyed ({} :: here :: outer) := .cons .empty hscopes
    simp only [Stmt.check_loop, checkBlock_iff hcontext body hinner fun _ _ ↦ rfl,
      TypeScope.types_empty, Expr.checkAs_exact hscopes .boolean fun _ h ↦ by cases h; rfl,
      Env.of_cons hplain]
    constructor
    · rintro ⟨_, ⟨rfl, hcondition, hbody⟩, rfl⟩
      exact .loop hcondition hbody
    · rintro (_ | _ | _ | _ | _ | ⟨hcondition, hbody⟩)
      exact ⟨here, ⟨rfl, hcondition, hbody⟩, rfl⟩
  | .ret value, outer, here, behind, hscopes, hplain => by
    simp only [Stmt.check_ret, Expr.checkAs_iff hscopes, Env.of_cons hplain]
    constructor
    · rintro ⟨_, ⟨rfl, hvalue⟩, rfl⟩
      exact .ret hvalue
    · rintro (_ | _ | _ | _ | _ | _ | hvalue)
      exact ⟨here, ⟨rfl, hvalue⟩, rfl⟩

/-- The check of a block decides the rules for it. -/
theorem checkBlock_iff (hcontext : context.Built) :
    ∀ (block : List Stmt) {outer : TypeChain} {here : TypeScope},
      TypeChain.Keyed (here :: outer) → here.Plain →
      (checkBlock context returns outer here block = .ok () ↔
        BlockTyped context returns (.of outer) here.types block)
  | [], _, _, _, _ => ⟨fun _ ↦ .nil, fun _ ↦ rfl⟩
  | head :: tail, outer, here, hscopes, hplain => by
    obtain ⟨hhere, houter⟩ := List.forall_mem_cons.mp hscopes
    have htail {after : TypeScope} (hhead : head.check context returns outer here = .ok after) :
        checkBlock context returns outer after tail = .ok () ↔
          BlockTyped context returns (.of outer) after.types tail :=
      checkBlock_iff hcontext tail (.cons (Stmt.check_keyed hcontext houter hhere hhead) houter)
        (Stmt.check_plain hhead hplain)
    rw [checkBlock_cons]
    constructor
    · rintro ⟨after, hhead, hrest⟩
      exact .cons ((Stmt.check_iff hcontext head hscopes hplain).mp ⟨after, hhead, rfl⟩)
        ((htail hhead).mp hrest)
    · rintro (_ | ⟨hhead, hrest⟩)
      obtain ⟨after, hafter, rfl⟩ := (Stmt.check_iff hcontext head hscopes hplain).mpr hhead
      exact ⟨after, hafter, (htail hafter).mpr hrest⟩

end

end

end ScriptLang
