import ScriptLang.Proofs.Session.Acceptance
import ScriptLang.Proofs.Typing.Decision

/-!
The checker decides the type system: it accepts exactly the programs that the rules type. The fields
and then the signatures of a module, which the checker declares one after the other, make up the
environment that the rules give to all bodies at once.
-/

set_option autoImplicit false
set_option relaxedAutoImplicit false

namespace ScriptLang

/-! ### Modules -/

namespace TypeScope

/-- The scope with functions of the given signatures. -/
def declareAll (module : TypeScope) (signatures : List (Signature Ty)) : TypeScope :=
  signatures.foldl (fun module signature ↦
    module.declareFunction signature.name signature.arity signature) module

/-- Methods do not hide the types of fields. -/
theorem types_declareAll (module : TypeScope) (signatures : List (Signature Ty)) :
    (module.declareAll signatures).types = module.types := by
  unfold declareAll
  induction signatures generalizing module with
  | nil => rfl
  | cons head tail ih => exact ih _

/-- Among functions that differ in name or count of parameters, each is found by both. -/
theorem function?_declareAll (module : TypeScope) {signatures : List (Signature Ty)}
    (hdistinct : (signatures.map fun signature ↦ (signature.name, signature.arity)).Nodup)
    (name : String) (arity : Nat) :
    (module.declareAll signatures).function? name arity =
      (signatures.find? fun signature ↦ signature.name = name ∧ signature.arity = arity).or
        (module.function? name arity) := by
  unfold declareAll
  induction signatures generalizing module with
  | nil => rfl
  | cons head tail ih =>
    rw [List.map_cons, List.nodup_cons] at hdistinct
    rw [List.foldl_cons, ih _ hdistinct.2, Scope.function?_declareFunction, List.find?_cons]
    by_cases hkey : head.name = name ∧ head.arity = arity
    · obtain ⟨rfl, rfl⟩ := hkey
      have hrest : (tail.find? fun signature ↦
          signature.name = head.name ∧ signature.arity = head.arity) = none := by
        refine List.find?_eq_none.mpr fun signature hmem hsame ↦ hdistinct.1 ?_
        obtain ⟨hname, harity⟩ := of_decide_eq_true hsame
        exact List.mem_map.mpr ⟨signature, hmem, Prod.ext hname harity⟩
      rw [hrest, if_pos rfl]
      simp
    · have hother : (name, arity) ≠ (head.name, head.arity) := fun h ↦
        hkey ⟨(Prod.mk.inj h).1.symm, (Prod.mk.inj h).2.symm⟩
      rw [if_neg hother]
      simp [hkey]

/-- The scope with variables of the given names and types. -/
def bindAll (here : TypeScope) (params : List (String × Ty)) : TypeScope :=
  params.foldl (fun here param ↦ here.declare param.1 ⟨param.1, param.2⟩) here

/-- Parameters add no function to their scope. -/
theorem bindAll_plain {here : TypeScope} (hplain : here.Plain) (params : List (String × Ty)) :
    (here.bindAll params).Plain := by
  unfold bindAll
  induction params generalizing here with
  | nil => exact hplain
  | cons head tail ih => exact ih fun name arity ↦ hplain name arity

/-- Among variables of different names, each is found by its name. -/
theorem types_bindAll (here : TypeScope) {params : List (String × Ty)}
    (hdistinct : (params.map Prod.fst).Nodup) (name : String) :
    (here.bindAll params).types name = (params.lookup name).or (here.types name) := by
  unfold bindAll
  induction params generalizing here with
  | nil => rfl
  | cons head tail ih =>
    rw [List.map_cons, List.nodup_cons] at hdistinct
    rw [List.foldl_cons, ih _ hdistinct.2, types_declare, List.lookup_cons]
    unfold Locals.bind
    by_cases hname : name = head.1
    · subst hname
      have hrest : tail.lookup head.1 = none := by
        refine List.lookup_eq_none_iff.mpr fun param hmem ↦ ?_
        exact bne_iff_ne.mpr fun h ↦ hdistinct.1 (List.mem_map.mpr ⟨param, hmem, h.symm⟩)
      rw [hrest, if_pos rfl, beq_self_eq_true]
      rfl
    · rw [if_neg hname, beq_false_of_ne hname]

end TypeScope

/-- Entries are added one after the other to what takes no key twice. This ends well just when no
key is there before and no two entries have the same key. -/
theorem foldlM_fresh_iff {ε σ α β κ : Type} {add : σ → α → Except ε σ} {entry : α → β → Prop}
    {key : β → κ} {put : σ → β → σ} (free : σ → κ → Prop)
    (hadd : ∀ state item after, add state item = .ok after ↔
      ∃ value, entry item value ∧ free state (key value) ∧ put state value = after)
    (hfree : ∀ state value other, free (put state value) other ↔
      other ≠ key value ∧ free state other) {items : List α} {state after : σ} :
    items.foldlM add state = .ok after ↔
      ∃ values, List.Forall₂ entry items values ∧ (values.map key).Nodup ∧
        (∀ value ∈ values, free state (key value)) ∧ values.foldl put state = after := by
  induction items generalizing state with
  | nil =>
    constructor
    · intro h
      cases h
      exact ⟨[], .nil, .nil, (fun _ h ↦ by cases h), rfl⟩
    · rintro ⟨_, ⟨⟩, -, -, rfl⟩
      rfl
  | cons head tail ih =>
    rw [List.foldlM_cons, except_bind_eq_ok]
    simp only [hadd, ih]
    constructor
    · rintro ⟨_, ⟨value, hvalue, hnew, rfl⟩, others, hothers, hdistinct, hrest, rfl⟩
      refine ⟨value :: others, .cons hvalue hothers, List.nodup_cons.mpr ⟨fun hmem ↦ ?_, hdistinct⟩,
        List.forall_mem_cons.mpr ⟨hnew, fun other hother ↦ ?_⟩, rfl⟩
      · obtain ⟨other, hother, hkey⟩ := List.mem_map.mp hmem
        exact ((hfree _ _ _).mp (hrest other hother)).1 hkey
      · exact ((hfree _ _ _).mp (hrest other hother)).2
    · rintro ⟨_, hwritten, hdistinct, hrest, rfl⟩
      obtain ⟨value, others, hvalue, hothers, rfl⟩ := List.forall₂_cons_left_iff.mp hwritten
      obtain ⟨hnew, hrest⟩ := List.forall_mem_cons.mp hrest
      obtain ⟨hhead, hdistinct⟩ := List.nodup_cons.mp hdistinct
      refine ⟨_, ⟨value, hvalue, hnew, rfl⟩, others, hothers, hdistinct, ?_, rfl⟩
      exact fun other hother ↦ (hfree _ _ _).mpr
        ⟨fun hkey ↦ hhead (List.mem_map.mpr ⟨other, hother, hkey⟩), hrest other hother⟩

section

variable {context : TypeContext}

/-- Fields are accepted just when they are typed. -/
theorem checkFields_iff (hcontext : context.Built) {fields : List Binding} {module : TypeScope}
    {behind : Locals} (hmodule : module.Keyed) (hplain : module.Plain) :
    (∃ after, checkFields context module fields = .ok after ∧ after.types = behind) ↔
      FieldsTyped context module.types fields behind := by
  induction fields generalizing module with
  | nil =>
    constructor
    · rintro ⟨after, hafter, rfl⟩
      cases hafter
      exact .nil
    · rintro ⟨⟩
      exact ⟨module, rfl, rfl⟩
  | cons head tail ih =>
    have hscopes : TypeChain.Keyed [module, context.globals] :=
      .cons hmodule hcontext.chain
    have henv : (Env.host context).under module.types = .of [module, context.globals] := by
      rw [Env.of_cons hplain, Env.host_eq]
    simp only [checkFields_cons]
    constructor
    · rintro ⟨last, ⟨after, hhead, htail⟩, rfl⟩
      have hrest := (ih (head.check_keyed hcontext hcontext.chain hmodule hhead)
        (head.check_plain hhead hplain)).mp ⟨last, htail, rfl⟩
      obtain ⟨type, htype, hnew, hafter⟩ := (Binding.check_iff hscopes).mp ⟨after, hhead, rfl⟩
      exact .cons (henv ▸ htype) hnew (hafter ▸ hrest)
    · rintro (_ | ⟨htype, hnew, hrest⟩)
      obtain ⟨after, hhead, hafter⟩ :=
        (Binding.check_iff hscopes).mpr ⟨_, henv ▸ htype, hnew, rfl⟩
      obtain ⟨last, hlast, hbehind⟩ := (ih (head.check_keyed hcontext hcontext.chain hmodule hhead)
        (head.check_plain hhead hplain)).mpr (hafter ▸ hrest)
      exact ⟨last, ⟨after, hhead, hlast⟩, hbehind⟩

/-- The checker finds the signature that the head of a method writes. -/
theorem Method.signature_iff {method : Method} {signature : Signature Ty} :
    method.signature context = .ok signature ↔ method.HasSignature context signature := by
  rw [signature_eq_ok]
  exact ⟨fun ⟨hname, hparams, hreturns⟩ ↦ ⟨hname, hparams, hreturns⟩,
    fun h ↦ ⟨h.name, h.params, h.returns⟩⟩

/-- Methods are declared just when all have a signature, no two signatures are of one name and count
of parameters, and none is of a function that is there before. -/
theorem declareMethods_iff {methods : List Method} {module after : TypeScope} :
    declareMethods context module methods = .ok after ↔
      ∃ signatures, List.Forall₂ (Method.HasSignature context) methods signatures ∧
        (signatures.map fun signature ↦ (signature.name, signature.arity)).Nodup ∧
        (∀ signature ∈ signatures, module.function? signature.name signature.arity = none) ∧
        module.declareAll signatures = after := by
  refine foldlM_fresh_iff
    (fun (module : TypeScope) (key : String × Nat) ↦ module.function? key.1 key.2 = none) ?_ ?_
  · intro module method after
    rw [Method.declare_eq_ok]
    constructor
    · rintro ⟨signature, hsignature, hnew, hafter⟩
      have hwritten := Method.signature_iff.mp hsignature
      exact ⟨signature, hwritten, hwritten.name ▸ hnew, hwritten.name ▸ hafter⟩
    · rintro ⟨signature, hwritten, hnew, hafter⟩
      exact ⟨signature, Method.signature_iff.mpr hwritten, hwritten.name ▸ hnew,
        hwritten.name ▸ hafter⟩
  · intro module signature key
    rw [Scope.function?_declareFunction]
    by_cases hkey : key = (signature.name, signature.arity)
    · simp [hkey]
    · simp [hkey]

/-- Parameters are declared just when their names are new and no two of them are the same. -/
theorem declareParams_iff {offset : Nat} {params : List (String × Ty)} {here after : TypeScope} :
    declareParams offset here params = .ok after ↔
      (params.map Prod.fst).Nodup ∧ (∀ param ∈ params, here.lookup? param.1 = none) ∧
        here.bindAll params = after := by
  have hfresh : declareParams offset here params = .ok after ↔
      ∃ values, List.Forall₂ Eq params values ∧ (values.map Prod.fst).Nodup ∧
        (∀ param ∈ values, here.lookup? param.1 = none) ∧ here.bindAll values = after := by
    refine foldlM_fresh_iff
      (fun (here : TypeScope) name ↦ here.lookup? name = none) ?_ ?_
    · intro here param after
      rw [TypeScope.add_eq_ok]
      exact ⟨fun ⟨hnew, hafter⟩ ↦ ⟨param, rfl, hnew, hafter⟩,
        fun ⟨_, hsame, hnew, hafter⟩ ↦ by cases hsame; exact ⟨hnew, hafter⟩⟩
    · intro here param name
      rw [Scope.lookup?_declare]
      by_cases hname : name = param.1
      · simp [hname]
      · simp [hname]
  rw [hfresh, List.forall₂_eq_eq_eq]
  exact ⟨fun ⟨_, hsame, h⟩ ↦ by cases hsame; exact h, fun h ↦ ⟨params, rfl, h⟩⟩

/-! ### Methods and programs -/

namespace Method

variable {method : Method} {signature : Signature Ty}

/-- The entry of a program is the method `main` without parameters that returns `Integer`. -/
theorem isMain_iff (hcontext : context.Built) (hpaired : method.Paired)
    (hsignature : method.HasSignature context signature) :
    method.isMain = true ↔ signature = ⟨"main", [], .integer⟩ := by
  obtain ⟨name, params, returns⟩ := signature
  obtain ⟨hname, hparams, hreturns⟩ := hsignature
  have hlength := hparams.length_eq
  rw [hpaired] at hlength
  unfold isMain
  simp only [Bool.and_eq_true, beq_iff_eq, List.isEmpty_iff]
  constructor
  · rintro ⟨⟨hmain, hnone⟩, hinteger⟩
    obtain ⟨hreturn, -⟩ | ⟨written, hwritten, htype⟩ := hreturns
    · rw [hinteger] at hreturn
      cases hreturn
    · rw [hinteger] at hwritten
      cases hwritten
      cases htype
      rw [hnone, List.length_nil, eq_comm, List.length_eq_zero_iff] at hlength
      change name = method.name at hname
      change params = [] at hlength
      rw [hname, hmain, hlength]
  · rintro ⟨⟩
    refine ⟨⟨hname.symm, List.length_eq_zero_iff.mp hlength⟩, ?_⟩
    obtain ⟨-, hreturn⟩ | ⟨written, hwritten, htype⟩ := hreturns
    · cases hreturn
    · unfold TypeContext.type? at htype
      obtain hbuiltin | ⟨-, hrecord⟩ := Option.or_eq_some_iff.mp htype
      · have hinteger := List.find?_some hbuiltin
        rw [hwritten, ← eq_of_beq hinteger]
        rfl
      · obtain ⟨record, h, -⟩ := hcontext.records hrecord
        cases h

/-- A body is accepted just when it is typed behind the parameters of its method. -/
theorem check_iff (hcontext : context.Built) (hpaired : method.Paired)
    (hsignature : method.HasSignature context signature) {module : TypeScope}
    (hmodule : module.Keyed) :
    method.check context module = .ok () ↔
      method.BodyTyped context (.of [module, context.globals]) signature := by
  have hscopes : TypeChain.Keyed [module, context.globals] := .cons hmodule hcontext.chain
  have hwritten := signature_iff.mpr hsignature
  have hfst : (method.params.zip signature.params).map Prod.fst = method.params := by
    exact List.map_fst_zip (Nat.le_of_eq (hpaired.symm.trans hsignature.params.length_eq))
  have hbody {here : TypeScope} (hdistinct : method.params.Nodup)
      (hscope : method.scope signature = .ok here) :
      checkBlock context signature.returns [module, context.globals] here method.body = .ok () ↔
        BlockTyped context signature.returns (.of [module, context.globals])
          (fun name ↦ (method.params.zip signature.params).lookup name) method.body := by
    have hkeyed := scope_keyed hcontext hwritten hscope
    obtain ⟨-, -, rfl⟩ := declareParams_iff.mp hscope
    have htypes : (TypeScope.bindAll {} (method.params.zip signature.params)).types =
        fun name ↦ (method.params.zip signature.params).lookup name := by
      funext name
      rw [TypeScope.types_bindAll _ (hfst.symm ▸ hdistinct)]
      exact Option.or_none
    rw [← htypes]
    exact checkBlock_iff hcontext method.body (.cons hkeyed hscopes)
      (TypeScope.bindAll_plain (fun _ _ ↦ rfl) _)
  rw [check_eq_ok]
  constructor
  · rintro ⟨other, here, hother, hscope, hblock⟩
    cases hwritten.symm.trans hother
    have hdistinct : method.params.Nodup := hfst ▸ (declareParams_iff.mp hscope).1
    exact ⟨hdistinct, (hbody hdistinct hscope).mp hblock⟩
  · rintro ⟨hdistinct, hblock⟩
    have hscope : method.scope signature = .ok _ :=
      declareParams_iff.mpr ⟨hfst.symm ▸ hdistinct, fun _ _ ↦ rfl, rfl⟩
    exact ⟨signature, _, hwritten, hscope, (hbody hdistinct hscope).mpr hblock⟩

end Method

/-- The environment of the bodies of a module with the fields `fields`. -/
theorem Env.of_declareAll {fields : TypeScope} (hplain : fields.Plain)
    {signatures : List (Signature Ty)}
    (hdistinct : (signatures.map fun signature ↦ (signature.name, signature.arity)).Nodup) :
    Env.of [fields.declareAll signatures, context.globals] =
      ((Env.host context).under fields.types).withMethods signatures := by
  rw [host_eq, ← of_cons hplain]
  ext1
  · funext name
    have htypes := congrFun (fields.types_declareAll signatures) name
    unfold TypeScope.types at htypes
    change _ = (of [fields, context.globals]).var name
    rw [of_var, of_var, Chain.lookup?_cons, Option.map_or, htypes, ← Option.map_or,
      ← Chain.lookup?_cons]
  · funext name arity
    rw [of_fn, Chain.function?_cons, TypeScope.function?_declareAll fields hdistinct, hplain,
      Option.or_none]
    change _ = Option.or _ (Chain.function? [fields, context.globals] name arity)
    rw [Chain.function?_cons fields, hplain, Option.none_or]

section

variable {methods : List Method} {signatures : List (Signature Ty)}
  (hwritten : List.Forall₂
    (fun method signature ↦ method.Paired ∧ method.HasSignature context signature) methods
    signatures)
include hwritten

/-- There is an entry among methods just when its signature is among theirs. -/
theorem any_isMain_iff (hcontext : context.Built) :
    methods.any Method.isMain = true ↔ ⟨"main", [], .integer⟩ ∈ signatures := by
  induction hwritten with
  | nil => simp
  | cons hhead _ ih =>
    rw [List.any_cons, Bool.or_eq_true, ih, Method.isMain_iff hcontext hhead.1 hhead.2,
      List.mem_cons, eq_comm]

/-- All bodies are accepted just when all are typed. -/
theorem bodies_iff (hcontext : context.Built) {module : TypeScope} (hmodule : module.Keyed) :
    (∀ method ∈ methods, method.check context module = .ok ()) ↔
      List.Forall₂ (Method.BodyTyped context (.of [module, context.globals])) methods
        signatures := by
  induction hwritten with
  | nil => simp
  | cons hhead _ ih =>
    rw [List.forall_mem_cons, List.forall₂_cons, ih,
      Method.check_iff hcontext hhead.1 hhead.2 hmodule]

end

/-- A program is accepted just when it is typed. Every program that is read from a text is paired,
see `Program.ofTokens_paired`. -/
theorem Program.check_iff_typed (hcontext : context.Built) {program : Program}
    (hpaired : program.Paired) : program.check context = .ok () ↔ program.Typed context := by
  have hmethods {signatures : List (Signature Ty)}
      (hwritten : List.Forall₂ (Method.HasSignature context) program.methods signatures) :=
    (List.forall₂_and_left _ _).mpr ⟨hpaired, hwritten⟩
  have hmodule {fields module : TypeScope}
      (hfields : checkFields context {} program.fields = .ok fields)
      (hmodule : declareMethods context fields program.methods = .ok module) : module.Keyed :=
    declareMethods_keyed hcontext (checkFields_keyed hcontext .empty hfields) hmodule
  rw [check_eq_ok]
  constructor
  · rintro ⟨hmain, fields, module, hfields, hdeclare, hbodies⟩
    have hkeyed := hmodule hfields hdeclare
    have hplain := checkFields_plain hfields fun _ _ ↦ rfl
    obtain ⟨signatures, hwritten, hdistinct, -, rfl⟩ := declareMethods_iff.mp hdeclare
    refine ⟨fields.types, signatures, ?_, hwritten, hdistinct, ?_, ?_⟩
    · exact (checkFields_iff hcontext .empty fun _ _ ↦ rfl).mp ⟨fields, hfields, rfl⟩
    · exact (any_isMain_iff (hmethods hwritten) hcontext).mp hmain
    · rw [← Env.of_declareAll hplain hdistinct]
      exact (bodies_iff (hmethods hwritten) hcontext hkeyed).mp hbodies
  · rintro ⟨_, signatures, htyped, hwritten, hdistinct, hmain, hbodies⟩
    obtain ⟨fields, hfields, rfl⟩ :=
      (checkFields_iff hcontext .empty fun _ _ ↦ rfl).mpr htyped
    have hplain := checkFields_plain hfields fun _ _ ↦ rfl
    have hdeclare : declareMethods context fields program.methods =
        .ok (fields.declareAll signatures) :=
      declareMethods_iff.mpr ⟨signatures, hwritten, hdistinct, fun _ _ ↦ hplain _ _, rfl⟩
    rw [← Env.of_declareAll hplain hdistinct] at hbodies
    exact ⟨(any_isMain_iff (hmethods hwritten) hcontext).mpr hmain, fields, _, hfields, hdeclare,
      (bodies_iff (hmethods hwritten) hcontext (hmodule hfields hdeclare)).mpr hbodies⟩

end

/-- A record of the host with a field and a method. -/
def counter : RecordType Ty :=
  let record : RecordType Ty := RecordType.withField ⟨"Counter", {}⟩ "count" .integer
  record.withMethod "add" [.integer] .nil

/-- A host with a type `Counter` and a function that makes one. -/
def counting : TypeContext :=
  (TypeContext.initial.register counter).defineFunction ⟨"counter", [], .record counter⟩

/-- The host of the example builds its types as hosts do. -/
theorem counting_built : counting.Built := by
  have hcounter : counter.Built :=
    .withMethod (.withField (.new _) fun _ h ↦ by cases h) fun _ h ↦ by cases h
  exact .defineFunction (.register .initial hcounter) fun _ h ↦ by cases h; exact hcounter

/-- The tree of `LET c = counter(); DEF main(): Integer DO c.add(1); RETURN c.field; END`. -/
def counted (field : String) : Program where
  fields :=
    [{ name := "c", typeName := none, value := some (.call ⟨8, none⟩ "counter" [] none)
       offset := 4 }]
  methods :=
    [{ name := "main"
       params := []
       paramTypes := []
       returnType := some "Integer"
       body :=
        [.expr (.invoke ⟨46, none⟩ (.access ⟨44, none⟩ "c" none) "add"
          [.literal ⟨50, none⟩ (.integer 1)] none),
         .ret (.member ⟨62, none⟩ (.access ⟨61, none⟩ "c" none) field none)]
       offset := 23 }]

/-- The rules decide the example: it is typed with a field that the record has, and not with
another. -/
theorem Program.check_iff_typed_counted :
    counting.Built ∧ (∀ field, (counted field).Paired) ∧ (counted "count").Typed counting ∧
      ¬(counted "total").Typed counting := by
  have hpaired (field : String) : (counted field).Paired := by simp [Paired, counted, Method.Paired]
  have hdecides (field : String) := check_iff_typed counting_built (hpaired field)
  refine ⟨counting_built, hpaired, (hdecides "count").mp rfl, fun htyped ↦ ?_⟩
  have hcheck := (hdecides "total").mpr htyped
  cases hcheck

end ScriptLang
