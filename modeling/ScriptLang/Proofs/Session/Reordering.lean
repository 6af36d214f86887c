import ScriptLang.Proofs.Session.Layout
import ScriptLang.Proofs.Typing.Reordering

/-!
The order of the methods of a program does not matter. All methods are declared before any of them
is called, so calls find the same methods in any order: what is checked, what is written into the
tree and what a run does stay the same. The checker tells methods of one name apart by their numbers
of types, a run by their numbers of parameters; where these differ, which they never do in a program
that is read from a text, a run may depend on the order.
-/

set_option autoImplicit false
set_option relaxedAutoImplicit false

namespace ScriptLang

/-- Scopes that show the same correspond to the same scopes. -/
theorem Scope.Follows.trans_same {V W F G : Type} {vars : V → W → Prop}
    {functions : String → Nat → F → G → Prop} {static : Scope V F} {dynamic other : Scope W G}
    (h : Scope.Follows vars functions static dynamic) (hsame : dynamic.Same other) :
    Scope.Follows vars functions static other where
  lookup? name := hsame.lookup? name ▸ h.lookup? name
  function? name arity := hsame.function? name arity ▸ h.function? name arity

section

variable {H : Type} [Host H] {likeness : Likeness H}

/-- Methods with keys of their own may be declared in any order: the scopes that come about show the
same. -/
theorem Likeness.States.declareMethods_perm {state state' : State H}
    (h : likeness.States state state') {methods others : List Method}
    (hperm : methods.Perm others)
    (hdistinct : (methods.map fun method ↦ (method.name, method.params.length)).Nodup) :
    likeness.States (state.declareMethods methods) (state'.declareMethods others) := by
  have hsame := Scope.declareEach_perm (fun method : Method ↦ (method.name, method.params.length))
    (fun method ↦ .procedure method.procedure) hperm hdistinct state'.module
  have halike : List.Forall₂ Method.CallsAlike methods methods :=
    List.forall₂_same.mpr fun method _ ↦ ⟨rfl, rfl, (BlockTrims.refl _).bodies⟩
  have hdeclared := h.declareMethods halike
  exact { hdeclared with module := hdeclared.module.trans_same hsame }

end

namespace Session

variable {H : Type} [Host H]

/-- With methods that are told apart by names and counts of parameters, a run ends alike in any
order of them. -/
theorem interpret_perm (session : Session H) (fuel : Nat) {program : Program}
    {methods : List Method} (hperm : program.methods.Perm methods)
    (hdistinct : (program.methods.map fun method ↦ (method.name, method.params.length)).Nodup) :
    (session.interpret fuel program).1 =
        (session.interpret fuel { program with methods }).1 ∧
      (session.interpret fuel program).2.SameView
        (session.interpret fuel { program with methods }).2 := by
  refine session.interpret_ends fuel (Program.run_ends fuel ?_ ?_ (Likeness.identical_self _))
  · exact List.forall₂_same.mpr fun field _ ↦ rfl
  · exact fun _ _ hstates ↦ hstates.declareMethods_perm hperm hdistinct

/-- Permuting the methods of a program changes nothing: it is accepted or not as before, an accepted
method is annotated as before, and if every method has as many names of parameters as types of
them, a run of the accepted program from any state ends as before, with the same values of fields
and the same output. A method that is read from a text is always paired, see
`Program.ofTokens_paired`; `order_matters_unpaired` shows that a run needs this. -/
theorem methods_in_any_order (session : Session H) (fuel : Nat) (context : TypeContext)
    {program : Program} {methods : List Method} (hperm : program.methods.Perm methods) :
    (program.check context = .ok () ↔ Program.check context { program with methods } = .ok ()) ∧
    (program.check context = .ok () →
      (∃ annotated : Method → Method,
        (program.annotate context).methods = program.methods.map annotated ∧
        Program.annotate context { program with methods } =
          { program.annotate context with methods := methods.map annotated }) ∧
      (program.Paired →
        (session.interpret fuel program).1 =
          (session.interpret fuel { program with methods }).1 ∧
        (session.interpret fuel program).2.SameView
          (session.interpret fuel { program with methods }).2)) :=
  ⟨⟨Program.check_perm hperm,
      @Program.check_perm context { program with methods } program.methods hperm.symm⟩,
    fun hcheck ↦ ⟨Program.annotate_perm hperm hcheck, fun hpaired ↦
      session.interpret_perm fuel hperm (Program.methods_distinct hpaired hcheck)⟩⟩

/-- The tree of `DEF main(): Integer DO RETURN f(2); END DEF f(n: Integer): Integer DO RETURN
f(n, 1); END DEF f(n: Integer, m: Integer): Integer DO RETURN n + m; END`. -/
def overloads : Program where
  methods :=
    [{ name := "main", params := [], paramTypes := [], returnType := some "Integer"
       body := [.ret (.call ⟨30, none⟩ "f" [.literal ⟨32, none⟩ (.integer 2)] none)]
       offset := 4 },
     { name := "f", params := ["n"], paramTypes := ["Integer"], returnType := some "Integer"
       body :=
        [.ret (.call ⟨77, none⟩ "f"
          [.access ⟨79, none⟩ "n" none, .literal ⟨82, none⟩ (.integer 1)] none)]
       offset := 44 },
     { name := "f", params := ["n", "m"], paramTypes := ["Integer", "Integer"]
       returnType := some "Integer"
       body :=
        [.ret (.binary ⟨141, none⟩ .add (.access ⟨139, none⟩ "n" none)
          (.access ⟨143, none⟩ "m" none))]
       offset := 94 }]

/-- A chain of calls through overloaded methods gives the same in reverse order. -/
theorem methods_in_any_order_overloads :
    let session : Session Empty := initial (.text "")
    overloads.check .initial = .ok () ∧ overloads.Paired ∧
    (session.interpret 3 overloads).1 = .ok (.integer 3) ∧
    (session.interpret 3 { overloads with methods := overloads.methods.reverse }).1 =
      .ok (.integer 3) := by
  intro session
  have hperm := (List.reverse_perm overloads.methods).symm
  have hcheck : overloads.check .initial = .ok () := rfl
  have hpaired : overloads.Paired := by simp [Program.Paired, overloads, Method.Paired]
  have hrun : (session.interpret 3 overloads).1 = .ok (.integer 3) := by cbv
  obtain ⟨hsame, -⟩ := ((methods_in_any_order session 3 .initial hperm).2 hcheck).2 hpaired
  exact ⟨hcheck, hpaired, hrun, hsame ▸ hrun⟩

/-- The tree of `DEF f(a: Integer): Integer DO RETURN 1; END DEF f(b: Integer): Integer DO RETURN
2; END DEF main(): Integer DO RETURN f(1); END`, with the given types for the parameters of the
first method. -/
def twoMethods (paramTypes : List String) : Program where
  methods :=
    [{ name := "f", params := ["a"], paramTypes, returnType := some "Integer"
       body := [.ret (.literal ⟨37, none⟩ (.integer 1))], offset := 4 },
     { name := "f", params := ["b"], paramTypes := ["Integer"], returnType := some "Integer"
       body := [.ret (.literal ⟨81, none⟩ (.integer 2))], offset := 48 },
     { name := "main", params := [], paramTypes := [], returnType := some "Integer"
       body := [.ret (.call ⟨118, none⟩ "f" [.literal ⟨120, none⟩ (.integer 1)] none)]
       offset := 92 }]

/-- A tree that no text is read as can be accepted in either order of its methods and yet give two
results: the analyzer tells the two methods `f` apart by their numbers of types, which are none and
one, while a run keeps the last method with one name of a parameter. With types as a text gives
them, the run depends on the order in the same way, but the analyzer rejects the second `f`. -/
theorem order_matters_unpaired :
    let session : Session Empty := initial (.text "")
    let reversed (paramTypes : List String) : Program :=
      { twoMethods paramTypes with methods := (twoMethods paramTypes).methods.reverse }
    (twoMethods []).methods.Perm (reversed []).methods ∧ ¬ (twoMethods []).Paired ∧
    (twoMethods []).check .initial = .ok () ∧ (reversed []).check .initial = .ok () ∧
    (session.interpret 2 (twoMethods [])).1 = .ok (.integer 2) ∧
    (session.interpret 2 (reversed [])).1 = .ok (.integer 1) ∧
    (twoMethods ["Integer"]).check .initial = .error (.redefinition "f" 48) ∧
    (session.interpret 2 (twoMethods ["Integer"])).1 = .ok (.integer 2) ∧
    (session.interpret 2 (reversed ["Integer"])).1 = .ok (.integer 1) := by
  intro session reversed
  refine ⟨(List.reverse_perm _).symm, ?_, rfl, rfl, ?_, ?_, rfl, ?_, ?_⟩
  · simp [Program.Paired, twoMethods, Method.Paired]
  · cbv
  · cbv
  · cbv
  · cbv

end Session

end ScriptLang
