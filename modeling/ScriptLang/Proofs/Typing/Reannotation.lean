import ScriptLang.Proofs.Typing.Annotation
import ScriptLang.Proofs.Typing.Built
import ScriptLang.Proofs.Typing.Erased

/-!
Annotating changes annotations alone, and what it writes does not depend on annotations that are
there. So a second time it writes nothing new, however far the first time came, and where a program
is accepted nothing of earlier annotations is left.
-/

set_option autoImplicit false
set_option relaxedAutoImplicit false

namespace ScriptLang

/-! ### Annotations alone change -/

section

variable (move : Nat → Nat)

@[simp]
theorem Mark.relocate_settle (mark : Mark) (found : Except TypingError Ty) :
    (mark.settle found).relocate move = mark.relocate move := by
  cases found <;> rfl

section

variable (scopes : TypeChain)

mutual

/-- An expression differs from its annotated form in annotations alone, however far the check
came. -/
theorem Expr.relocate_annotate : ∀ expr : Expr,
    (expr.annotate scopes).relocate move = expr.relocate move
  | .literal mark value => by
    rw [Expr.annotate, Expr.relocate, Expr.relocate, Mark.relocate_settle]
  | .group mark inner => by
    rw [Expr.annotate, Expr.relocate, Expr.relocate, Mark.relocate_settle,
      Expr.relocate_annotate inner]
  | .binary mark op left right => by
    rw [Expr.annotate, Expr.relocate, Expr.relocate, Mark.relocate_settle,
      Expr.relocate_annotate left]
    split
    · rw [Expr.relocate_annotate right]
    · rfl
  | .access mark name resolved => by
    rw [Expr.annotate, Expr.relocate, Expr.relocate, Mark.relocate_settle]
  | .member mark receiver name resolved => by
    rw [Expr.annotate, Expr.relocate, Expr.relocate, Mark.relocate_settle,
      Expr.relocate_annotate receiver]
  | .call mark name args resolved => by
    rw [Expr.annotate, Expr.relocate, Expr.relocate, Mark.relocate_settle]
    split
    · rw [relocateArgs_annotateArgs args]
    · rfl
  | .invoke mark receiver name args resolved => by
    rw [Expr.annotate, Expr.relocate, Expr.relocate, Mark.relocate_settle,
      Expr.relocate_annotate receiver]
    split
    · rw [relocateArgs_annotateArgs args]
    · rfl

theorem relocateArgs_annotateArgs : ∀ (args : List Expr) (params : List Ty),
    relocateArgs move (annotateArgs scopes args params) = relocateArgs move args
  | [], _ => rfl
  | _ :: _, [] => rfl
  | head :: tail, param :: params => by
    rw [annotateArgs, relocateArgs, relocateArgs, Expr.relocate_annotate head]
    split
    · rw [relocateArgs_annotateArgs tail params]
    · rfl

end

end

section

variable (context : TypeContext)

theorem Binding.relocate_annotate (outer : TypeChain) (here : TypeScope) (binding : Binding) :
    (binding.annotate context outer here).relocate move = binding.relocate move := by
  unfold annotate
  split
  · unfold relocate
    simp only [Option.map_map, Function.comp_def, Expr.relocate_annotate]
  · rfl

variable (returns : Ty)

mutual

theorem Stmt.relocate_annotate : ∀ (stmt : Stmt) (outer : TypeChain) (here : TypeScope),
    (stmt.annotate context returns outer here).relocate move = stmt.relocate move
  | .expr value, outer, here => by
    rw [Stmt.annotate, Stmt.relocate, Stmt.relocate, Expr.relocate_annotate]
  | .declare binding, outer, here => by
    rw [Stmt.annotate, Stmt.relocate, Stmt.relocate, Binding.relocate_annotate]
  | .assign target value, outer, here => by
    rw [Stmt.annotate]
    split
    · rw [Stmt.relocate, Stmt.relocate, Expr.relocate_annotate]
      split
      · rw [Expr.relocate_annotate]
      · rfl
    · rfl
  | .branch condition thenBody elseBody, outer, here => by
    rw [Stmt.annotate]
    split
    · rw [Stmt.relocate, Stmt.relocate, Expr.relocate_annotate, relocateAll_annotateBlock thenBody]
      split
      · rw [relocateAll_annotateBlock elseBody]
      · rfl
    · rw [Stmt.relocate, Stmt.relocate, Expr.relocate_annotate]
  | .forEach offset name iterable body, outer, here => by
    rw [Stmt.annotate, Stmt.relocate, Stmt.relocate, Expr.relocate_annotate]
    split
    · rw [relocateAll_annotateBlock body]
    · rfl
  | .loop condition body, outer, here => by
    rw [Stmt.annotate, Stmt.relocate, Stmt.relocate, Expr.relocate_annotate]
    split
    · rw [relocateAll_annotateBlock body]
    · rfl
  | .ret value, outer, here => by
    rw [Stmt.annotate, Stmt.relocate, Stmt.relocate, Expr.relocate_annotate]

theorem relocateAll_annotateBlock : ∀ (block : List Stmt) (outer : TypeChain) (here : TypeScope),
    relocateAll move (annotateBlock context returns outer here block) = relocateAll move block
  | [], _, _ => rfl
  | head :: tail, outer, here => by
    rw [annotateBlock, relocateAll, relocateAll, Stmt.relocate_annotate head]
    split
    · rw [relocateAll_annotateBlock tail]
    · rfl

end

/-- Fields differ from their annotated forms in annotations alone. -/
theorem relocate_annotateFields (module : TypeScope) (fields : List Binding) :
    (annotateFields context module fields).map (Binding.relocate move) =
      fields.map (Binding.relocate move) := by
  induction fields generalizing module with
  | nil => rfl
  | cons head tail ih =>
    rw [annotateFields, List.map_cons, List.map_cons, Binding.relocate_annotate]
    split
    · rw [ih]
    · rfl

theorem relocate_annotateSignatures (module : TypeScope) (methods : List Method) :
    (annotateSignatures context module methods).map (Method.relocate move) =
      methods.map (Method.relocate move) := by
  induction methods generalizing module with
  | nil => rfl
  | cons head tail ih =>
    rw [annotateSignatures]
    split
    · rw [List.map_cons, List.map_cons, ih]
      rfl
    · rfl

theorem Method.relocate_annotate (module : TypeScope) (method : Method) :
    (method.annotate context module).relocate move = method.relocate move := by
  unfold annotate
  split
  · rfl
  · split
    · rfl
    · unfold relocate
      rw [relocateAll_annotateBlock]

theorem relocate_annotateMethods (module : TypeScope) (methods : List Method) :
    (annotateMethods context module methods).map (Method.relocate move) =
      methods.map (Method.relocate move) := by
  induction methods with
  | nil => rfl
  | cons head tail ih =>
    rw [annotateMethods, List.map_cons, List.map_cons, Method.relocate_annotate]
    split
    · rw [ih]
    · rfl

/-- Annotating changes nothing but annotations, whether the program is accepted or not. -/
theorem Program.relocate_annotate (program : Program) :
    (program.annotate context).relocate move = program.relocate move := by
  unfold annotate
  split
  · dsimp only
    split
    · simp only [relocate, relocate_annotateFields]
    · split
      · simp only [relocate, relocate_annotateFields, relocate_annotateSignatures]
      · simp only [relocate, relocate_annotateFields, relocate_annotateSignatures,
          relocate_annotateMethods]
  · rfl

end

end

/-! ### Nothing is left of earlier annotations of what is accepted -/

section

variable {scopes scopes' : TypeChain}

theorem settle_ok {α β : Type} (old : Option α) (value : α) (verdict : β) :
    settle old (.ok value) (.ok verdict) = some value := rfl

/-- Where an expression is accepted, its mark has the type that was found, whatever it had. -/
theorem Mark.settle_relocate (mark : Mark) (type : Ty) :
    (mark.relocate id).settle (.ok type) = mark.settle (.ok type) := rfl

mutual

/-- What is written into a typed expression is found anew at every node, so nothing of earlier
annotations is left. That the scopes are keyed sees to it that each argument has a parameter. -/
theorem Expr.annotate_relocate (hsame : Chain.Same scopes scopes') (hscopes : scopes'.Keyed) :
    ∀ (expr : Expr) {type : Ty}, expr.infer scopes' = .ok type →
      (expr.relocate id).annotate scopes = expr.annotate scopes'
  | .literal mark value, type, htype => by
    have hinfer := Expr.infer_relocate hsame (.literal mark value)
    rw [Expr.relocate, htype] at hinfer
    rw [Expr.relocate, Expr.annotate, Expr.annotate, hinfer, htype, Mark.settle_relocate]
  | .group mark inner, type, htype => by
    have hinfer := Expr.infer_relocate hsame (.group mark inner)
    rw [Expr.relocate, htype] at hinfer
    have hinner : inner.infer scopes' = .ok type := by rwa [Expr.infer] at htype
    rw [Expr.relocate, Expr.annotate, Expr.annotate, hinfer, htype, Mark.settle_relocate,
      Expr.annotate_relocate hsame hscopes inner hinner]
  | .binary mark op left right, type, htype => by
    have hinfer := Expr.infer_relocate hsame (.binary mark op left right)
    rw [Expr.relocate, htype] at hinfer
    obtain ⟨leftType, rightType, hleft, hright, -⟩ := Expr.infer_binary.mp htype
    rw [Expr.relocate, Expr.annotate, Expr.annotate, hinfer, htype, Mark.settle_relocate,
      Expr.annotate_relocate hsame hscopes left hleft, Expr.infer_relocate hsame left, hleft,
      Expr.annotate_relocate hsame hscopes right hright]
    rfl
  | .access mark name resolved, type, htype => by
    have hinfer := Expr.infer_relocate hsame (.access mark name resolved)
    rw [Expr.relocate, htype] at hinfer
    obtain ⟨found, hfound, -⟩ := Expr.infer_access.mp htype
    rw [Expr.relocate, Expr.annotate, Expr.annotate, hinfer, htype, Mark.settle_relocate,
      requireVariable_same hsame, Mark.offset_relocate, requireVariable_eq_ok.mpr hfound,
      settle_ok, settle_ok]
  | .member mark receiver name resolved, type, htype => by
    have hinfer := Expr.infer_relocate hsame (.member mark receiver name resolved)
    rw [Expr.relocate, htype] at hinfer
    obtain ⟨receiverType, found, hreceiver, hfound, -⟩ := Expr.infer_member.mp htype
    have hmember : (receiver.infer scopes' >>= (·.requireField mark.offset name)) = .ok found :=
      except_bind_eq_ok.mpr ⟨_, hreceiver, Ty.requireField_eq_ok.mpr hfound⟩
    rw [Expr.relocate, Expr.annotate, Expr.annotate, hinfer, htype, Mark.settle_relocate,
      Expr.annotate_relocate hsame hscopes receiver hreceiver,
      Expr.infer_relocate hsame receiver, Mark.offset_relocate, hmember, settle_ok, settle_ok]
  | .call mark name args resolved, type, htype => by
    have hinfer := Expr.infer_relocate hsame (.call mark name args resolved)
    rw [Expr.relocate, htype] at hinfer
    obtain ⟨found, hfound, hargs, -⟩ := Expr.infer_call.mp htype
    have harity := (hscopes.function? hfound).1
    rw [Expr.relocate, Expr.annotate, Expr.annotate, hinfer, htype, Mark.settle_relocate,
      requireFunction_same hsame, length_relocateArgs, Mark.offset_relocate,
      requireFunction_eq_ok.mpr hfound, settle_ok, settle_ok]
    dsimp only
    rw [annotateArgs_relocate hsame hscopes args harity.symm hargs]
  | .invoke mark receiver name args resolved, type, htype => by
    have hinfer := Expr.infer_relocate hsame (.invoke mark receiver name args resolved)
    rw [Expr.relocate, htype] at hinfer
    obtain ⟨receiverType, found, hreceiver, hfound, hargs, -⟩ := Expr.infer_invoke.mp htype
    have hmethod : (receiver.infer scopes' >>=
        (·.requireMethod mark.offset name args.length)) = .ok found :=
      except_bind_eq_ok.mpr ⟨_, hreceiver, Ty.requireMethod_eq_ok.mpr hfound⟩
    have harity := ((Expr.infer_built hscopes receiver hreceiver).method? hfound).1
    have hlength : args.length = (found.params.drop 1).length := by
      rw [List.length_drop]
      exact (Nat.sub_eq_of_eq_add harity).symm
    rw [Expr.relocate, Expr.annotate, Expr.annotate, hinfer, htype, Mark.settle_relocate,
      Expr.annotate_relocate hsame hscopes receiver hreceiver,
      Expr.infer_relocate hsame receiver, length_relocateArgs, Mark.offset_relocate, hmethod,
      settle_ok, settle_ok]
    dsimp only
    rw [annotateArgs_relocate hsame hscopes args hlength hargs]

/-- Arguments of an accepted call are as many as the parameters, so none is left out. -/
theorem annotateArgs_relocate (hsame : Chain.Same scopes scopes') (hscopes : scopes'.Keyed) :
    ∀ (args : List Expr) {params : List Ty}, args.length = params.length →
      checkArgs scopes' args params = .ok () →
      annotateArgs scopes (relocateArgs id args) params = annotateArgs scopes' args params
  | [], _, _, _ => rfl
  | head :: tail, param :: params, hlength, hargs => by
    obtain ⟨hhead, htail⟩ := checkArgs_cons.mp hargs
    obtain ⟨type, htype, -⟩ := Expr.checkAs_eq_ok.mp hhead
    rw [relocateArgs, annotateArgs, annotateArgs, Expr.checkAs_relocate hsame, hhead,
      Expr.annotate_relocate hsame hscopes head htype,
      annotateArgs_relocate hsame hscopes tail (Nat.succ.inj hlength) htail]
    rfl

end

end

/-! ### A second time nothing new is written -/

@[simp]
theorem Mark.offset_settle (mark : Mark) (found : Except TypingError Ty) :
    (mark.settle found).offset = mark.offset := by
  cases found <;> rfl

theorem Mark.settle_settle (mark : Mark) (found : Except TypingError Ty) :
    (mark.settle found).settle found = mark.settle found := by
  cases found <;> rfl

/-- A note of a verdict is not changed by the same verdict. -/
theorem settle_settle {α β : Type} (old : Option α) (found : Except TypingError α)
    (verdict : Except TypingError β) :
    settle (settle old found verdict) found verdict = settle old found verdict := by
  cases verdict <;> cases found <;> rfl

section

variable {scopes scopes' : TypeChain} (hsame : Chain.Same scopes scopes') (any : TypeChain)

@[simp]
theorem length_annotateArgs (args : List Expr) (params : List Ty) :
    (annotateArgs any args params).length = args.length := by
  rw [← length_relocateArgs id, relocateArgs_annotateArgs, length_relocateArgs]

@[simp]
theorem Expr.isTarget_annotate (expr : Expr) : (expr.annotate any).isTarget = expr.isTarget := by
  rw [← isTarget_relocate, relocate_annotate, isTarget_relocate]

include hsame

/-- What was written into an expression does not change its type. -/
theorem Expr.infer_annotate (expr : Expr) :
    (expr.annotate any).infer scopes' = expr.infer scopes := by
  rw [← infer_relocate hsame, relocate_annotate, infer_relocate (.refl scopes)]

/-- Whether an expression has the type that is wanted does not depend on annotations. -/
theorem Expr.checkAs_annotate (target : Ty) (expr : Expr) :
    (expr.annotate any).checkAs scopes' target = expr.checkAs scopes target := by
  rw [← checkAs_relocate hsame, relocate_annotate, checkAs_relocate (.refl scopes)]

omit hsame

mutual

/-- A second time nothing new is written into an expression: each check in it ends as it did the
first time, so the same parts are reached. -/
theorem Expr.annotate_annotate (hsame : Chain.Same scopes scopes') :
    ∀ expr : Expr, (expr.annotate scopes).annotate scopes' = expr.annotate scopes
  | .literal mark value => by
    have hinfer := Expr.infer_annotate hsame scopes (.literal mark value)
    rw [Expr.annotate] at hinfer ⊢
    rw [Expr.annotate, hinfer, Mark.settle_settle]
  | .group mark inner => by
    have hinfer := Expr.infer_annotate hsame scopes (.group mark inner)
    rw [Expr.annotate] at hinfer ⊢
    rw [Expr.annotate, hinfer, Mark.settle_settle, Expr.annotate_annotate hsame inner]
  | .binary mark op left right => by
    have hinfer := Expr.infer_annotate hsame scopes (.binary mark op left right)
    rw [Expr.annotate] at hinfer ⊢
    rw [Expr.annotate, hinfer, Mark.settle_settle, Expr.annotate_annotate hsame left,
      Expr.infer_annotate hsame]
    by_cases hleft : (left.infer scopes).isOk = true
    · rw [if_pos hleft, if_pos hleft, Expr.annotate_annotate hsame right]
    · rw [if_neg hleft, if_neg hleft]
  | .access mark name resolved => by
    have hinfer := Expr.infer_annotate hsame scopes (.access mark name resolved)
    rw [Expr.annotate] at hinfer ⊢
    rw [Expr.annotate, hinfer, Mark.settle_settle, Mark.offset_settle,
      ← requireVariable_same hsame, settle_settle]
  | .member mark receiver name resolved => by
    have hinfer := Expr.infer_annotate hsame scopes (.member mark receiver name resolved)
    rw [Expr.annotate] at hinfer ⊢
    rw [Expr.annotate, hinfer, Mark.settle_settle, Mark.offset_settle,
      Expr.annotate_annotate hsame receiver, Expr.infer_annotate hsame, settle_settle]
  | .call mark name args resolved => by
    have hinfer := Expr.infer_annotate hsame scopes (.call mark name args resolved)
    rw [Expr.annotate] at hinfer ⊢
    rw [Expr.annotate, hinfer, Mark.settle_settle, Mark.offset_settle,
      ← requireFunction_same hsame]
    cases hfound : requireFunction scopes mark.offset name args.length with
    | error cause => simp only [hfound, settle_settle]
    | ok found =>
      simp only [length_annotateArgs, hfound, annotateArgs_annotateArgs hsame args, settle_settle]
  | .invoke mark receiver name args resolved => by
    have hinfer := Expr.infer_annotate hsame scopes (.invoke mark receiver name args resolved)
    rw [Expr.annotate] at hinfer ⊢
    rw [Expr.annotate, hinfer, Mark.settle_settle, Mark.offset_settle,
      Expr.annotate_annotate hsame receiver, Expr.infer_annotate hsame]
    cases hfound : receiver.infer scopes >>= (·.requireMethod mark.offset name args.length) with
    | error cause => simp only [hfound, settle_settle]
    | ok found =>
      simp only [length_annotateArgs, hfound, annotateArgs_annotateArgs hsame args, settle_settle]

/-- A second time nothing new is written into arguments. -/
theorem annotateArgs_annotateArgs (hsame : Chain.Same scopes scopes') :
    ∀ (args : List Expr) (params : List Ty),
      annotateArgs scopes' (annotateArgs scopes args params) params =
        annotateArgs scopes args params
  | [], _ => rfl
  | _ :: _, [] => rfl
  | head :: tail, param :: params => by
    rw [annotateArgs, annotateArgs, Expr.annotate_annotate hsame head,
      Expr.checkAs_annotate hsame]
    by_cases hhead : (head.checkAs scopes param).isOk = true
    · rw [if_pos hhead, if_pos hhead, annotateArgs_annotateArgs hsame tail]
    · rw [if_neg hhead, if_neg hhead]

end

end

/-! ### Declarations and statements -/

section

variable {context context' : TypeContext} {outer outer' : TypeChain} {here : TypeScope}

/-- What is written into an accepted declaration does not depend on earlier annotations. -/
theorem Binding.annotate_relocate (hcontext : context.Same context')
    (houter : Chain.Same outer outer') (hscopes : TypeChain.Keyed (here :: outer'))
    {binding : Binding} {after : TypeScope}
    (hcheck : binding.check context' outer' here = .ok after) :
    (binding.relocate id).annotate context outer here = binding.annotate context' outer' here := by
  have hcheck' := check_relocate hcontext houter here binding
  have hinfer' := infer_relocate hcontext houter here binding
  obtain ⟨type, htype, -⟩ := check_eq_ok.mp hcheck
  rw [hcheck] at hcheck'
  rw [htype] at hinfer'
  unfold annotate
  rw [if_pos (typeName_isOk htype), if_pos (typeName_isOk hinfer'), hcheck, hcheck', htype, hinfer']
  unfold relocate
  cases hvalue : binding.value with
  | none => rfl
  | some value =>
    obtain ⟨found, hfound⟩ := value_infer htype hvalue
    simp only [Option.map_some, Expr.annotate_relocate (houter.cons here) hscopes value hfound]
    rfl

/-- An annotated declaration is checked as it was without annotations. -/
theorem Binding.check_annotate (hcontext : context.Same context')
    (houter : Chain.Same outer outer') (binding : Binding) :
    (binding.annotate context outer here).check context' outer' here =
      binding.check context outer here := by
  rw [← check_relocate hcontext houter, relocate_annotate,
    check_relocate (.refl context) (.refl outer)]

/-- An annotated declaration has the type that it had without annotations. -/
theorem Binding.infer_annotate (hcontext : context.Same context')
    (houter : Chain.Same outer outer') (binding : Binding) :
    (binding.annotate context outer here).infer context' outer' here =
      binding.infer context outer here := by
  rw [← infer_relocate hcontext houter, relocate_annotate,
    infer_relocate (.refl context) (.refl outer)]

/-- A second time nothing new is written into a declaration. -/
theorem Binding.annotate_annotate (hcontext : context.Same context')
    (houter : Chain.Same outer outer') (binding : Binding) :
    (binding.annotate context outer here).annotate context' outer' here =
      binding.annotate context outer here := by
  have hcheck : (binding.annotate context outer here).check context' outer' here = _ :=
    check_annotate hcontext houter binding
  have hinfer : (binding.annotate context outer here).infer context' outer' here = _ :=
    infer_annotate hcontext houter binding
  unfold annotate at hcheck hinfer ⊢
  by_cases hwritten : (binding.typeName.mapM (context.resolve binding.offset)).isOk = true
  · rw [if_pos hwritten] at hcheck hinfer ⊢
    dsimp only at hcheck hinfer ⊢
    rw [← hcontext.resolve, if_pos hwritten, hcheck, hinfer, settle_settle, Option.map_map]
    simp only [Function.comp_def, Expr.annotate_annotate (houter.cons here)]
  · rw [if_neg hwritten, ← hcontext.resolve, if_neg hwritten]

variable {returns : Ty}

/-- An annotated statement is checked as it was without annotations. -/
theorem Stmt.check_annotate (hcontext : context.Same context') (houter : Chain.Same outer outer')
    (stmt : Stmt) : (stmt.annotate context returns outer here).check context' returns outer' here =
      stmt.check context returns outer here := by
  rw [← check_relocate hcontext returns _ here houter, relocate_annotate,
    check_relocate (.refl context) returns stmt here (.refl outer)]

/-- An annotated block is checked as it was without annotations. -/
theorem checkBlock_annotateBlock (hcontext : context.Same context')
    (houter : Chain.Same outer outer') (block : List Stmt) :
    checkBlock context' returns outer' here (annotateBlock context returns outer here block) =
      checkBlock context returns outer here block := by
  rw [← checkBlock_relocate hcontext returns _ here houter, relocateAll_annotateBlock,
    checkBlock_relocate (.refl context) returns block here (.refl outer)]

/-- Statements are not lost when a block is annotated. -/
theorem isEmpty_annotateBlock (block : List Stmt) :
    (annotateBlock context returns outer here block).isEmpty = block.isEmpty := by
  cases block with
  | nil => rfl
  | cons head tail => rw [annotateBlock]; rfl

end

section

variable {context context' : TypeContext} {returns : Ty}

mutual

/-- A second time nothing new is written into a statement. -/
theorem Stmt.annotate_annotate (hcontext : context.Same context') :
    ∀ (stmt : Stmt) {outer outer' : TypeChain} (here : TypeScope), Chain.Same outer outer' →
      (stmt.annotate context returns outer here).annotate context' returns outer' here =
        stmt.annotate context returns outer here
  | .expr value, outer, outer', here, houter => by
    rw [Stmt.annotate, Stmt.annotate, Expr.annotate_annotate (houter.cons here)]
  | .declare binding, outer, outer', here, houter => by
    rw [Stmt.annotate, Stmt.annotate, Binding.annotate_annotate hcontext houter]
  | .assign target value, outer, outer', here, houter => by
    have hscopes := houter.cons here
    rw [Stmt.annotate]
    by_cases htarget : target.isTarget = true
    · rw [if_pos htarget, Stmt.annotate, Expr.infer_annotate hscopes,
        Expr.annotate_annotate hscopes]
      by_cases hvalue : (value.infer (here :: outer)).isOk = true
      · rw [if_pos hvalue, if_pos hvalue, Expr.isTarget_annotate, if_pos htarget,
          Expr.annotate_annotate hscopes]
      · rw [if_neg hvalue, if_neg hvalue, if_pos htarget]
    · rw [if_neg htarget, Stmt.annotate, if_neg htarget]
  | .branch condition thenBody elseBody, outer, outer', here, houter => by
    have hscopes := houter.cons here
    rw [Stmt.annotate]
    by_cases hboth : ((condition.checkAs (here :: outer) .boolean).isOk && !thenBody.isEmpty) = true
    · rw [if_pos hboth, Stmt.annotate, Expr.checkAs_annotate hscopes, isEmpty_annotateBlock,
        if_pos hboth, Expr.annotate_annotate hscopes,
        annotateBlock_annotateBlock hcontext thenBody {} hscopes,
        checkBlock_annotateBlock hcontext hscopes]
      by_cases hthen :
          (checkBlock context returns (here :: outer) {} thenBody).isOk = true
      · rw [if_pos hthen, if_pos hthen, annotateBlock_annotateBlock hcontext elseBody {} hscopes]
      · rw [if_neg hthen, if_neg hthen]
    · rw [if_neg hboth, Stmt.annotate, Expr.checkAs_annotate hscopes, if_neg hboth,
        Expr.annotate_annotate hscopes]
  | .forEach offset name iterable body, outer, outer', here, houter => by
    have hscopes := houter.cons here
    rw [Stmt.annotate, Stmt.annotate, Expr.annotate_annotate hscopes, Expr.checkAs_annotate hscopes]
    by_cases hrange : (iterable.checkAs (here :: outer) .range).isOk = true
    · rw [if_pos hrange, if_pos hrange, annotateBlock_annotateBlock hcontext body _ hscopes]
    · rw [if_neg hrange, if_neg hrange]
  | .loop condition body, outer, outer', here, houter => by
    have hscopes := houter.cons here
    rw [Stmt.annotate, Stmt.annotate, Expr.annotate_annotate hscopes, Expr.checkAs_annotate hscopes]
    by_cases hboolean : (condition.checkAs (here :: outer) .boolean).isOk = true
    · rw [if_pos hboolean, if_pos hboolean, annotateBlock_annotateBlock hcontext body {} hscopes]
    · rw [if_neg hboolean, if_neg hboolean]
  | .ret value, outer, outer', here, houter => by
    rw [Stmt.annotate, Stmt.annotate, Expr.annotate_annotate (houter.cons here)]

/-- A second time nothing new is written into a block, and the second pass ends at the same
statement. -/
theorem annotateBlock_annotateBlock (hcontext : context.Same context') :
    ∀ (block : List Stmt) {outer outer' : TypeChain} (here : TypeScope), Chain.Same outer outer' →
      annotateBlock context' returns outer' here (annotateBlock context returns outer here block) =
        annotateBlock context returns outer here block
  | [], _, _, _, _ => rfl
  | head :: tail, outer, outer', here, houter => by
    rw [annotateBlock, annotateBlock, Stmt.annotate_annotate hcontext head here houter,
      Stmt.check_annotate hcontext houter]
    cases head.check context returns outer here with
    | ok behind => simp only [annotateBlock_annotateBlock hcontext tail behind houter]
    | error cause => rfl

end

mutual

/-- What is written into an accepted statement does not depend on earlier annotations. -/
theorem Stmt.annotate_relocate (hcontext : context.Same context') (hbuilt : context'.Built) :
    ∀ (stmt : Stmt) {outer outer' : TypeChain} {here after : TypeScope}, Chain.Same outer outer' →
      TypeChain.Keyed (here :: outer') → stmt.check context' returns outer' here = .ok after →
      (stmt.relocate id).annotate context returns outer here =
        stmt.annotate context' returns outer' here
  | .expr value, outer, outer', here, after, houter, hscopes, hcheck => by
    obtain ⟨-, -, type, htype⟩ := Stmt.check_expr.mp hcheck
    rw [Stmt.relocate, Stmt.annotate, Stmt.annotate,
      Expr.annotate_relocate (houter.cons here) hscopes value htype]
  | .declare binding, outer, outer', here, after, houter, hscopes, hcheck => by
    rw [Stmt.check_declare] at hcheck
    rw [Stmt.relocate, Stmt.annotate, Stmt.annotate,
      Binding.annotate_relocate hcontext houter hscopes hcheck]
  | .assign target value, outer, outer', here, after, houter, hscopes, hcheck => by
    obtain ⟨-, htarget, found, expected, hfound, hexpected, -⟩ := Stmt.check_assign.mp hcheck
    have hsame := houter.cons here
    rw [Stmt.relocate, Stmt.annotate, Stmt.annotate, Expr.isTarget_relocate, if_pos htarget,
      if_pos htarget, Expr.infer_relocate hsame, hfound,
      Expr.annotate_relocate hsame hscopes value hfound,
      Expr.annotate_relocate hsame hscopes target hexpected]
    rfl
  | .branch condition thenBody elseBody, outer, outer', here, after, houter, hscopes, hcheck => by
    obtain ⟨-, hcondition, hsome, hthen, helse⟩ := Stmt.check_branch.mp hcheck
    obtain ⟨type, htype, -⟩ := Expr.checkAs_eq_ok.mp hcondition
    have hsame := houter.cons here
    have hinner : TypeChain.Keyed ({} :: here :: outer') := .cons .empty hscopes
    have hempty : (relocateAll id thenBody).isEmpty = false ∧ thenBody.isEmpty = false := by
      cases thenBody with
      | nil => exact (hsome rfl).elim
      | cons head tail => exact ⟨rfl, rfl⟩
    rw [Stmt.relocate, Stmt.annotate, Stmt.annotate, Expr.checkAs_relocate hsame, hcondition,
      hempty.1, hempty.2, checkBlock_relocate hcontext returns thenBody {} hsame, hthen,
      Expr.annotate_relocate hsame hscopes condition htype,
      annotateBlock_relocate hcontext hbuilt thenBody hsame hinner hthen,
      annotateBlock_relocate hcontext hbuilt elseBody hsame hinner helse]
    rfl
  | .forEach offset name iterable body, outer, outer', here, after, houter, hscopes, hcheck => by
    obtain ⟨-, hiterable, hbody⟩ := Stmt.check_forEach.mp hcheck
    obtain ⟨type, htype, -⟩ := Expr.checkAs_eq_ok.mp hiterable
    have hsame := houter.cons here
    have hloop : TypeScope.Keyed (Scope.declare {} name ⟨name, .integer⟩) :=
      TypeScope.Keyed.empty.declare name (Ty.built_of_plain fun _ h ↦ by cases h)
    rw [Stmt.relocate, Stmt.annotate, Stmt.annotate, Expr.checkAs_relocate hsame, hiterable,
      Expr.annotate_relocate hsame hscopes iterable htype,
      annotateBlock_relocate hcontext hbuilt body hsame (.cons hloop hscopes) hbody]
    rfl
  | .loop condition body, outer, outer', here, after, houter, hscopes, hcheck => by
    obtain ⟨-, hcondition, hbody⟩ := Stmt.check_loop.mp hcheck
    obtain ⟨type, htype, -⟩ := Expr.checkAs_eq_ok.mp hcondition
    have hsame := houter.cons here
    rw [Stmt.relocate, Stmt.annotate, Stmt.annotate, Expr.checkAs_relocate hsame, hcondition,
      Expr.annotate_relocate hsame hscopes condition htype,
      annotateBlock_relocate hcontext hbuilt body hsame (.cons .empty hscopes) hbody]
    rfl
  | .ret value, outer, outer', here, after, houter, hscopes, hcheck => by
    obtain ⟨type, htype, -⟩ := Expr.checkAs_eq_ok.mp (Stmt.check_ret.mp hcheck).2
    rw [Stmt.relocate, Stmt.annotate, Stmt.annotate,
      Expr.annotate_relocate (houter.cons here) hscopes value htype]

/-- What is written into an accepted block does not depend on earlier annotations. The scope behind
each statement is keyed again, which lets the recursion go on. -/
theorem annotateBlock_relocate (hcontext : context.Same context') (hbuilt : context'.Built) :
    ∀ (block : List Stmt) {outer outer' : TypeChain} {here : TypeScope}, Chain.Same outer outer' →
      TypeChain.Keyed (here :: outer') → checkBlock context' returns outer' here block = .ok () →
      annotateBlock context returns outer here (relocateAll id block) =
        annotateBlock context' returns outer' here block
  | [], _, _, _, _, _, _ => rfl
  | head :: tail, outer, outer', here, houter, hscopes, hcheck => by
    obtain ⟨behind, hhead, htail⟩ := checkBlock_cons.mp hcheck
    obtain ⟨hhere, hkeyed⟩ := List.forall_mem_cons.mp hscopes
    have hbehind := Stmt.check_keyed hbuilt hkeyed hhere hhead
    rw [relocateAll, annotateBlock, annotateBlock,
      Stmt.annotate_relocate hcontext hbuilt head houter hscopes hhead,
      Stmt.check_relocate hcontext returns head here houter, hhead]
    dsimp only
    rw [annotateBlock_relocate hcontext hbuilt tail houter (.cons hbehind hkeyed) htail]

end

end

end ScriptLang
