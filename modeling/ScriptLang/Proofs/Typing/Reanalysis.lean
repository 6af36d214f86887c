import ScriptLang.Proofs.Typing.Reannotation

/-!
Analysing a program, which is checking and annotating it, depends on the tree without annotations
alone, changes annotations alone, and does nothing when it is done again. Signatures are written
before bodies are; as neither reads what the other writes, their order does not matter.
-/

set_option autoImplicit false
set_option relaxedAutoImplicit false

namespace ScriptLang

variable {context context' : TypeContext}

/-! ### Fields -/

/-- Annotated fields are declared as they were without annotations. -/
theorem checkFields_annotateFields (hcontext : context.Same context') (module : TypeScope)
    (fields : List Binding) :
    checkFields context' module (annotateFields context module fields) =
      checkFields context module fields := by
  rw [← checkFields_relocate hcontext, relocate_annotateFields,
    checkFields_relocate (.refl context)]

/-- A second time nothing new is written into fields. -/
theorem annotateFields_annotateFields (hcontext : context.Same context') (module : TypeScope)
    (fields : List Binding) :
    annotateFields context' module (annotateFields context module fields) =
      annotateFields context module fields := by
  induction fields generalizing module with
  | nil => rfl
  | cons head tail ih =>
    rw [annotateFields, annotateFields, Binding.annotate_annotate hcontext hcontext.globals,
      Binding.check_annotate hcontext hcontext.globals]
    cases head.check context [context.globals] module with
    | ok behind => simp only [ih]
    | error cause => rfl

/-- What is written into accepted fields does not depend on earlier annotations. -/
theorem annotateFields_relocate (hcontext : context.Same context') (hbuilt : context'.Built)
    {module after : TypeScope} (hmodule : module.Keyed) {fields : List Binding}
    (hcheck : checkFields context' module fields = .ok after) :
    annotateFields context module (fields.map (Binding.relocate id)) =
      annotateFields context' module fields := by
  induction fields generalizing module with
  | nil => rfl
  | cons head tail ih =>
    obtain ⟨behind, hhead, htail⟩ := checkFields_cons.mp hcheck
    rw [List.map_cons, annotateFields, annotateFields,
      Binding.annotate_relocate hcontext hcontext.globals (.cons hmodule hbuilt.chain) hhead,
      Binding.check_relocate hcontext hcontext.globals, hhead]
    dsimp only
    rw [ih (Binding.check_keyed hbuilt hbuilt.chain hmodule hhead) htail]

/-! ### Methods -/

namespace Method

/-- The signature of a method is the same under hosts that have made the same known. -/
theorem signature_same (hcontext : context.Same context') (method : Method) :
    method.signature context = method.signature context' := by
  unfold signature
  rw [hcontext.resolve]

theorem declare_same (hcontext : context.Same context') (module : TypeScope) (method : Method) :
    method.declare context module = method.declare context' module := by
  unfold declare
  rw [signature_same hcontext]

/-- A signature is noted once; the second note is the first one. -/
theorem signed_signed (hcontext : context.Same context') (method : Method) :
    (method.signed context).signed context' = method.signed context := by
  have hnote : settle (settle method.resolved (method.signature context) (method.signature context))
      (method.signature context') (method.signature context') =
        settle method.resolved (method.signature context) (method.signature context) := by
    rw [← signature_same hcontext, settle_settle]
  exact congrArg (fun note ↦ { method with resolved := note }) hnote

variable {module other : TypeScope}

/-- What has been written into the body of a method does not matter to its declaration. -/
theorem declare_annotate (module other : TypeScope) (method : Method) :
    (method.annotate context other).declare context' module = method.declare context' module := by
  rw [← declare_relocate (.refl context'), relocate_annotate, declare_relocate (.refl context')]

/-- What has been written into the body of a method does not matter to its verdict. -/
theorem check_annotate (hcontext : context.Same context') (module : TypeScope)
    (method : Method) : (method.annotate context module).check context' module =
      method.check context module := by
  rw [← check_relocate hcontext, relocate_annotate, check_relocate (.refl context)]

/-- Nothing is written into the body of a method whose types or parameters are not correct. -/
theorem annotate_of_no_scope {method : Method}
    (hnone : ¬∃ signature here, method.signature context = .ok signature ∧
      method.scope signature = .ok here) : method.annotate context module = method := by
  unfold annotate
  cases hsignature : method.signature context with
  | error cause => rfl
  | ok signature =>
    cases hscope : method.scope signature with
    | error cause => simp only [hscope]
    | ok here => exact (hnone ⟨signature, here, hsignature, hscope⟩).elim

/-- What is written into the body does not depend on the note of the signature, nor does the note
depend on the body. -/
theorem signed_annotate (other : TypeScope) (method : Method) :
    (method.signed context').annotate context other =
      (method.annotate context other).signed context' := by
  by_cases hsome : ∃ signature here, method.signature context = .ok signature ∧
      method.scope signature = .ok here
  · obtain ⟨signature, here, hsignature, hscope⟩ := hsome
    rw [annotate_of_scope hsignature hscope]
    exact annotate_of_scope hsignature hscope
  · rw [annotate_of_no_scope hsome]
    exact annotate_of_no_scope hsome

/-- A second time nothing new is written into the body of a method. -/
theorem annotate_annotate (hcontext : context.Same context') (module : TypeScope)
    (method : Method) : (method.annotate context module).annotate context' module =
      method.annotate context module := by
  have hsignature := signature_same hcontext method
  by_cases hsome : ∃ signature here, method.signature context = .ok signature ∧
      method.scope signature = .ok here
  · obtain ⟨signature, here, hfound, hscope⟩ := hsome
    have hwritten : Method.signature context' { method with
        body := annotateBlock context signature.returns [module, context.globals] here
          method.body } = .ok signature := hsignature ▸ hfound
    rw [annotate_of_scope hfound hscope, annotate_of_scope hwritten hscope]
    exact congrArg (fun body ↦ { method with body })
      (annotateBlock_annotateBlock hcontext method.body here (hcontext.globals.cons module))
  · rw [annotate_of_no_scope hsome]
    exact annotate_of_no_scope (hsignature ▸ hsome)

/-- A note of the signature and a body of an accepted method do not depend on earlier ones. -/
theorem annotate_relocate (hcontext : context.Same context') (hbuilt : context'.Built)
    {module : TypeScope} (hmodule : module.Keyed) {method : Method}
    (hcheck : method.check context' module = .ok ()) :
    ((method.relocate id).signed context).annotate context module =
      (method.signed context').annotate context' module := by
  obtain ⟨signature, here, hsignature, hscope, hbody⟩ := check_eq_ok.mp hcheck
  have hscopes : TypeChain.Keyed [here, module, context'.globals] :=
    .cons (scope_keyed hbuilt hsignature hscope) (.cons hmodule hbuilt.chain)
  have herased : (method.relocate id).signature context = .ok signature := by
    rw [signature_relocate hcontext, hsignature]
  have hwritten := annotateBlock_relocate hcontext hbuilt method.body
    (hcontext.globals.cons module) hscopes hbody
  have hfirst : ((method.relocate id).signed context).signature context = .ok signature := herased
  have hsecond : (method.signed context').signature context' = .ok signature := hsignature
  rw [annotate_of_scope hfirst hscope, annotate_of_scope hsecond hscope]
  unfold signed
  rw [herased, hsignature]
  exact congrArg (fun body ↦ { method with body, resolved := some signature }) hwritten

end Method

/-- Signatures are noted as long as methods can be declared. -/
theorem annotateSignatures_cons {module behind : TypeScope} {head : Method} {tail : List Method}
    (hhead : head.declare context module = .ok behind) :
    annotateSignatures context module (head :: tail) =
      head.signed context :: annotateSignatures context behind tail := by
  rw [annotateSignatures, hhead]
  rfl

/-- At the first method that cannot be declared the notes end. -/
theorem annotateSignatures_of_error {module : TypeScope} {head : Method} {tail : List Method}
    {cause : TypingError} (hhead : head.declare context module = .error cause) :
    annotateSignatures context module (head :: tail) = head :: tail := by
  rw [annotateSignatures, hhead]

/-- A second time nothing new is noted; the notes end at the same method as before. -/
theorem annotateSignatures_annotateSignatures (hcontext : context.Same context')
    (module : TypeScope) (methods : List Method) :
    annotateSignatures context' module (annotateSignatures context module methods) =
      annotateSignatures context module methods := by
  induction methods generalizing module with
  | nil => rfl
  | cons head tail ih =>
    have hsame := head.declare_same hcontext module
    cases hhead : head.declare context module with
    | error cause =>
      rw [annotateSignatures_of_error hhead, annotateSignatures_of_error (hsame ▸ hhead)]
    | ok behind =>
      have hsigned : (head.signed context).declare context' module = .ok behind :=
        hsame ▸ hhead
      rw [annotateSignatures_cons hhead, annotateSignatures_cons hsigned,
        Method.signed_signed hcontext, ih]

/-- Signatures and bodies can be written in either order. -/
theorem annotateSignatures_annotateMethods (module other : TypeScope) (methods : List Method) :
    annotateSignatures context' module (annotateMethods context other methods) =
      annotateMethods context other (annotateSignatures context' module methods) := by
  induction methods generalizing module with
  | nil => rfl
  | cons head tail ih =>
    have hdeclare : (head.annotate context other).declare context' module = _ :=
      head.declare_annotate module other
    rw [annotateMethods]
    cases hhead : head.declare context' module with
    | error cause =>
      rw [hhead] at hdeclare
      rw [annotateSignatures_of_error hhead, annotateSignatures_of_error hdeclare, annotateMethods]
    | ok behind =>
      rw [hhead] at hdeclare
      have hcheck : (head.signed context').check context other = head.check context other := rfl
      rw [annotateSignatures_cons hhead, annotateSignatures_cons hdeclare, annotateMethods,
        Method.signed_annotate, hcheck]
      by_cases hok : (head.check context other).isOk = true
      · rw [if_pos hok, if_pos hok, ih]
      · rw [if_neg hok, if_neg hok]

/-- A second time nothing new is written into the bodies, and the second pass ends at the same
method. -/
theorem annotateMethods_annotateMethods (hcontext : context.Same context') (module : TypeScope)
    (methods : List Method) :
    annotateMethods context' module (annotateMethods context module methods) =
      annotateMethods context module methods := by
  induction methods with
  | nil => rfl
  | cons head tail ih =>
    rw [annotateMethods, annotateMethods, Method.annotate_annotate hcontext,
      Method.check_annotate hcontext]
    by_cases hok : (head.check context module).isOk = true
    · rw [if_pos hok, if_pos hok, ih]
    · rw [if_neg hok, if_neg hok]

/-! ### Programs -/

theorem any_isMain_relocate (methods : List Method) :
    (methods.map (Method.relocate id)).any Method.isMain = methods.any Method.isMain := List.any_map

/-- Whether methods can be declared does not depend on annotations. -/
theorem declareMethods_of_erase (hcontext : context.Same context') (module : TypeScope)
    {methods methods' : List Method}
    (herase : methods'.map (Method.relocate id) = methods.map (Method.relocate id)) :
    declareMethods context' module methods' = declareMethods context module methods := by
  rw [← declareMethods_relocate hcontext, herase, declareMethods_relocate (.refl context)]

namespace Program

/-- Where a field is rejected, the methods are left as they are. -/
theorem annotate_of_fields_error {program : Program} {cause : TypingError}
    (hmain : program.methods.any Method.isMain = true)
    (hfields : checkFields context {} program.fields = .error cause) :
    program.annotate context =
      { program with fields := annotateFields context {} program.fields } := by
  unfold annotate
  rw [if_pos hmain, hfields]

/-- Where a method cannot be declared, no body is written into. -/
theorem annotate_of_methods_error {program : Program} {fields : TypeScope} {cause : TypingError}
    (hmain : program.methods.any Method.isMain = true)
    (hfields : checkFields context {} program.fields = .ok fields)
    (hmethods : declareMethods context fields program.methods = .error cause) :
    program.annotate context =
      { fields := annotateFields context {} program.fields
        methods := annotateSignatures context fields program.methods } := by
  unfold annotate
  rw [if_pos hmain, hfields]
  dsimp only
  rw [hmethods]

/-- Where fields and methods can be declared, signatures and bodies are written, up to the first
body that is rejected. -/
theorem annotate_of_module {program : Program} {fields module : TypeScope}
    (hmain : program.methods.any Method.isMain = true)
    (hfields : checkFields context {} program.fields = .ok fields)
    (hmethods : declareMethods context fields program.methods = .ok module) :
    program.annotate context =
      { fields := annotateFields context {} program.fields
        methods := annotateMethods context module
          (annotateSignatures context fields program.methods) } := by
  unfold annotate
  rw [if_pos hmain, hfields]
  dsimp only
  rw [hmethods]

/-- Nothing is written into a program without an entry. -/
theorem annotate_of_no_main {program : Program}
    (hmain : ¬program.methods.any Method.isMain = true) : program.annotate context = program := by
  unfold annotate
  rw [if_neg hmain]

/-- Annotating changes nothing but annotations in the methods. -/
theorem methods_annotate (program : Program) :
    (program.annotate context).methods.map (Method.relocate id) =
      program.methods.map (Method.relocate id) :=
  congrArg Program.methods (program.relocate_annotate id context)

theorem any_isMain_annotate (program : Program) :
    (program.annotate context).methods.any Method.isMain = program.methods.any Method.isMain := by
  rw [← any_isMain_relocate, methods_annotate, any_isMain_relocate]

/-- A second time nothing new is written, however far the first time came. -/
theorem annotate_annotate (hcontext : context.Same context') (program : Program) :
    (program.annotate context).annotate context' = program.annotate context := by
  by_cases hmain : program.methods.any Method.isMain = true
  · have hmain' : (program.annotate context).methods.any Method.isMain = true :=
      (any_isMain_annotate program).trans hmain
    have herase : (program.annotate context).methods.map (Method.relocate id) = _ :=
      methods_annotate program
    have hfields' := checkFields_annotateFields hcontext {} program.fields
    have hfieldsOnce := annotateFields_annotateFields hcontext {} program.fields
    cases hfields : checkFields context {} program.fields with
    | error cause =>
      rw [annotate_of_fields_error hmain hfields] at hmain' ⊢
      rw [annotate_of_fields_error hmain' (hfields'.trans hfields), hfieldsOnce]
    | ok fields =>
      cases hmethods : declareMethods context fields program.methods with
      | error cause =>
        rw [annotate_of_methods_error hmain hfields hmethods] at hmain' herase ⊢
        rw [annotate_of_methods_error hmain' (hfields'.trans hfields)
          ((declareMethods_of_erase hcontext fields herase).trans hmethods), hfieldsOnce,
          annotateSignatures_annotateSignatures hcontext]
      | ok module =>
        rw [annotate_of_module hmain hfields hmethods] at hmain' herase ⊢
        rw [annotate_of_module hmain' (hfields'.trans hfields)
          ((declareMethods_of_erase hcontext fields herase).trans hmethods), hfieldsOnce,
          annotateSignatures_annotateMethods, annotateSignatures_annotateSignatures hcontext,
          annotateMethods_annotateMethods hcontext]
  · rw [annotate_of_no_main hmain, annotate_of_no_main hmain]

/-- Nothing of earlier annotations is left in an accepted program. -/
theorem annotate_erase (hcontext : context.Same context') (hbuilt : context'.Built)
    {program : Program} (hcheck : program.check context' = .ok ()) :
    program.erase.annotate context = program.annotate context' := by
  have herased : program.erase.check context = .ok () := (check_erase hcontext program).trans hcheck
  obtain ⟨hmain, fields, module, hfields, hmethods, hbodies⟩ := check_eq_ok.mp hcheck
  obtain ⟨hmain', fields', module', hfields', hmethods', hbodies'⟩ := check_eq_ok.mp herased
  cases hfields'.symm.trans ((checkFields_relocate hcontext {} program.fields).trans hfields)
  cases hmethods'.symm.trans
    ((declareMethods_relocate hcontext fields program.methods).trans hmethods)
  have hkeyed := declareMethods_keyed hbuilt (checkFields_keyed hbuilt .empty hfields) hmethods
  rw [annotate_eq hmain hfields hmethods hbodies, annotate_eq hmain' hfields' hmethods' hbodies']
  congr 1
  · exact annotateFields_relocate hcontext hbuilt .empty hfields
  · refine List.map_map.trans (List.map_congr_left fun method hmethod ↦ ?_)
    exact Method.annotate_relocate hcontext hbuilt hkeyed (hbodies method hmethod)

/-- Analysis depends only on the tree without annotations and on what the host has made known. It
changes nothing but annotations, gives equal trees where it accepts, and a second time gives the
same result and changes nothing, also where the first time ended midway. -/
theorem analysis_stable {program other : Program} (herase : program.erase = other.erase)
    (hcontext : context.Same context') (hbuilt : context.Built) (hbuilt' : context'.Built) :
    program.check context = other.check context' ∧
      (program.annotate context).erase = program.erase ∧
      (other.annotate context').erase = other.erase ∧
      (program.check context = .ok () → program.annotate context = other.annotate context') ∧
      (program.annotate context).check context' = program.check context ∧
      (program.annotate context).annotate context' = program.annotate context := by
  have hcheck : program.check context = other.check context' := by
    rw [← check_erase (.refl context), herase, check_erase hcontext]
  refine ⟨hcheck, program.relocate_annotate id context, other.relocate_annotate id context',
    fun haccepted ↦ ?_, ?_, program.annotate_annotate hcontext⟩
  · rw [← annotate_erase (.refl context) hbuilt haccepted, herase,
      annotate_erase hcontext hbuilt' (hcheck ▸ haccepted)]
  · have hwritten : (program.annotate context).erase = program.erase :=
      program.relocate_annotate id context
    rw [← check_erase hcontext, hwritten, check_erase (.refl context)]

/-- The tree of `DEF main(): Integer DO RETURN name; END` with the given annotations. -/
def returning (name : String) (type : Option Ty) (resolved : Option (Variable Ty)) : Program where
  methods :=
    [{ name := "main"
       params := []
       paramTypes := []
       returnType := some "Integer"
       body := [.ret (.access ⟨30, type⟩ name resolved)]
       offset := 4 }]

/-- A tree of `returning` with annotations that were never right. -/
def stale (name : String) : Program := returning name (some .nil) (some ⟨"c", .boolean⟩)

def integerFirst : TypeContext :=
  (TypeContext.initial.defineVariable "a" .integer).defineVariable "b" .string

def stringFirst : TypeContext :=
  (TypeContext.initial.defineVariable "b" .string).defineVariable "a" .integer

/-- Two hosts are told of the same variables in different order. One analysis of stale annotations
and the other of none end with the same tree or the same error, and a rejected tree stays as it
is. -/
theorem analysis_stable_stale :
    ((stale "a").annotate integerFirst = (returning "a" none none).annotate stringFirst) ∧
      (stale "b").check integerFirst = .error (.typeMismatch "Integer" "String" 30) ∧
      (stale "b").check integerFirst = (returning "b" none none).check stringFirst ∧
      ((stale "b").annotate integerFirst).annotate stringFirst =
        (stale "b").annotate integerFirst := by
  have hinteger : Ty.integer.Built := Ty.built_of_plain fun _ h ↦ by cases h
  have hstring : Ty.string.Built := Ty.built_of_plain fun _ h ↦ by cases h
  have hfirst : integerFirst.Built :=
    .defineVariable (.defineVariable .initial "a" hinteger) "b" hstring
  have hsecond : stringFirst.Built :=
    .defineVariable (.defineVariable .initial "b" hstring) "a" hinteger
  have hsame : integerFirst.Same stringFirst := by
    refine ⟨fun _ ↦ rfl, fun name ↦ ?_, fun _ _ ↦ rfl⟩
    unfold integerFirst stringFirst TypeContext.defineVariable
    simp only [Scope.lookup?_declare]
    split <;> split <;> simp_all
  have herase (name : String) : (stale name).erase = (returning name none none).erase := rfl
  have hstable (name : String) := analysis_stable (herase name) hsame hfirst hsecond
  exact ⟨(hstable "a").2.2.2.1 rfl, rfl, (hstable "b").1, (hstable "b").2.2.2.2.2⟩

end Program

end ScriptLang
