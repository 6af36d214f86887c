import ScriptLang.Proofs.Execution.Memory
import ScriptLang.Proofs.Invariant
import ScriptLang.Proofs.Typing.Built
import ScriptLang.Proofs.Typing.Site

/-!
Functions stand under the counts of their parameters. An analysis in place adds functions under
their own counts and to scopes of types that a host can build, wherever it stops. So a look-up by
the count of some arguments finds as many parameters as there are arguments, and a zip of both is
complete.
-/

set_option autoImplicit false
set_option relaxedAutoImplicit false

namespace ScriptLang

open Stateful (Upholds)

/-- Zipping the lists drops nothing of either. -/
def PairsUp {α β : Type} (first : List α) (second : List β) : Prop :=
  (first.zip second).unzip = (first, second)

theorem pairsUp_of_length {α β : Type} {first : List α} {second : List β}
    (h : first.length = second.length) : PairsUp first second := List.unzip_zip h

/-! ### Scopes -/

/-- Every function is found by the count of its own parameters. -/
def Scope.ByArity {V F : Type} (arity : F → Nat) (scope : Scope V F) : Prop :=
  ∀ name count found, scope.function? name count = some found → arity found = count

namespace Scope.ByArity

variable {V F : Type} {arity : F → Nat} {scope : Scope V F}

theorem empty : ByArity arity ({} : Scope V F) := fun _ _ _ h ↦ by cases h

theorem declare (h : scope.ByArity arity) (name : String) (value : V) :
    (scope.declare name value).ByArity arity := h

/-- A function may be declared under the count of its own parameters. -/
theorem declareFunction (h : scope.ByArity arity) (name : String) {count : Nat} {added : F}
    (hadded : arity added = count) : (scope.declareFunction name count added).ByArity arity := by
  intro other sought found hfound
  rw [function?_declareFunction] at hfound
  by_cases hkey : (other, sought) = (name, count)
  · rw [if_pos hkey] at hfound
    cases hfound
    exact hadded.trans (Prod.mk.inj hkey).2.symm
  · rw [if_neg hkey] at hfound
    exact h other sought found hfound

end Scope.ByArity

theorem TypeScope.Keyed.byArity {scope : TypeScope} (h : scope.Keyed) :
    Scope.ByArity Signature.arity scope := fun _ _ _ hfound ↦ (h.function? hfound).1

/-- All scopes of a tree are like this. -/
def ScopeTree.Each {V F : Type} (holds : Scope V F → Prop) (tree : ScopeTree V F) : Prop :=
  ∀ number, holds (tree.scopeAt number)

namespace ScopeTree.Each

variable {V F : Type} {holds : Scope V F → Prop} {tree : ScopeTree V F}

/-- A tree of one empty scope has what empty scopes have. -/
theorem root (hempty : holds {}) : Each holds root := by
  rintro (_ | number)
  · exact hempty
  · exact hempty

theorem child (h : tree.Each holds) (parent : Nat) : (tree.child parent).Each holds :=
  fun number ↦ (tree.scopeAt_child parent number).symm ▸ h number

/-- A change of one scope keeps what it keeps of this scope. -/
theorem modify (h : tree.Each holds) (number : Nat) {change : Scope V F → Scope V F}
    (hchange : ∀ scope, holds scope → holds (change scope)) :
    (tree.modify number change).Each holds := by
  intro other
  obtain hnumber | habsent := Nat.lt_or_ge number tree.nodes.length
  · rw [scopeAt_modify hnumber]
    split
    · exact hchange _ (h other)
    · exact h other
  · have hsame : tree.modify number change = tree :=
      congrArg ScopeTree.mk (List.modify_eq_self habsent)
    exact hsame.symm ▸ h other

/-- What all scopes of a tree have, those of a chain have. -/
theorem chain (h : tree.Each holds) (number : Nat) : ∀ scope ∈ tree.chain number, holds scope := by
  intro scope hscope
  obtain ⟨other, -, hother⟩ := List.mem_filterMap.mp hscope
  have hfound : tree.scopeAt other = scope := by
    unfold scopeAt
    rw [hother]
    rfl
  exact hfound ▸ h other

end ScopeTree.Each

/-! ### Records -/

/-- The first parameter of every method is the receiver. -/
theorem RecordType.Built.params_pos {type : RecordType Ty} (h : type.Built) {name : String}
    {arity : Nat} {found : Signature Ty} (hfound : type.members.function? name arity = some found) :
    1 ≤ found.params.length := by
  induction h with
  | new => cases hfound
  | withField _ _ ih => exact ih hfound
  | @withMethod type method params returns _ _ ih =>
    change (Scope.declareFunction type.members method
      (Signature.arity ⟨method, .any :: params, returns⟩) _).function? name arity = _ at hfound
    rw [Scope.function?_declareFunction] at hfound
    split at hfound
    · cases hfound
      exact Nat.le_add_left 1 params.length
    · exact ih hfound

/-! ### Sites -/

section

variable {context : TypeContext} {program : Program}

/-- Statements leave a keyed scope keyed. -/
theorem scopeBehind_keyed (hcontext : context.Built) {outer : TypeChain} (houter : outer.Keyed)
    {returns : Ty} {statements : List Stmt} {here behind : TypeScope} (hhere : here.Keyed)
    (hbehind : scopeBehind context outer returns here statements = .ok behind) : behind.Keyed := by
  induction statements generalizing here with
  | nil =>
    cases hbehind
    exact hhere
  | cons head tail ih =>
    obtain ⟨middle, hhead, htail⟩ := scopeBehind_cons.mp hbehind
    exact ih (Stmt.check_keyed hcontext houter hhere hhead) htail

namespace Site

variable {site part : Site}

/-- A statement of a block stands in a keyed scope. -/
theorem inBlock_keyed (hcontext : context.Built) {outer : TypeChain} (houter : outer.Keyed)
    {returns : Ty} {start : TypeScope} (hstart : start.Keyed) {body : List Stmt} {index : Nat}
    (hpart : inBlock context outer returns start body index = some part) :
    TypeChain.Keyed part.scopes := by
  obtain ⟨statement, here, -, hhere, rfl⟩ := inBlock_eq_some.mp hpart
  exact .cons (scopeBehind_keyed hcontext houter hstart hhere) houter

/-- The scopes of a part are keyed, as those of a block begin empty or with the item of a loop. -/
theorem part?_keyed (hcontext : context.Built) (hscopes : TypeChain.Keyed site.scopes) {turn : Turn}
    (hpart : site.part? context turn = some part) : TypeChain.Keyed part.scopes := by
  have hitem (name : String) : TypeScope.Keyed (Scope.declare {} name ⟨name, .integer⟩) :=
    TypeScope.Keyed.empty.declare name (Ty.built_of_plain fun _ h ↦ by cases h)
  have harg {params : List Ty} {args : List Expr} {index : Nat}
      (hpart : site.arg? params args index = some part) : TypeChain.Keyed part.scopes := by
    obtain ⟨arg, -, -, rfl⟩ := arg?_eq_some.mp hpart
    exact hscopes
  unfold part? at hpart
  split at hpart
  case h_5 =>
    obtain ⟨found, -, hpart⟩ := Option.bind_eq_some_iff.mp hpart
    exact harg hpart
  case h_7 =>
    obtain ⟨type, -, hpart⟩ := Option.bind_eq_some_iff.mp hpart
    obtain ⟨found, -, hpart⟩ := Option.bind_eq_some_iff.mp hpart
    exact harg hpart
  case h_9 =>
    obtain ⟨value, -, rfl⟩ := Option.map_eq_some_iff.mp hpart
    exact hscopes
  case h_13 | h_14 | h_18 => exact inBlock_keyed hcontext hscopes .empty hpart
  case h_16 => exact inBlock_keyed hcontext hscopes (hitem _) hpart
  case h_20 => cases hpart
  all_goals
    cases hpart
    exact hscopes

end Site

/-- The module of a program has its methods under their counts. -/
theorem Program.module?_keyed (hcontext : context.Built) {module : TypeScope}
    (hmodule : program.module? context = some module) : module.Keyed := by
  obtain ⟨fields, hfields, hmethods⟩ := Program.module?_eq_some.mp hmodule
  exact declareMethods_keyed hcontext (checkFields_keyed hcontext .empty hfields) hmethods

/-- Every node of an accepted program stands in keyed scopes. -/
theorem Root.site?_keyed (hcontext : context.Built) {root : Root} {site : Site}
    (hsite : root.site? context program = some site) : TypeChain.Keyed site.scopes := by
  cases root with
  | field index =>
    obtain ⟨field, value, here, -, -, hhere, rfl⟩ := Root.site?_field.mp hsite
    exact .cons (checkFields_keyed hcontext .empty hhere) hcontext.chain
  | entry =>
    obtain ⟨module, hmodule, hpure⟩ := Option.bind_eq_some_iff.mp hsite
    cases hpure
    exact .cons (Program.module?_keyed hcontext hmodule) hcontext.chain
  | statement name arity index =>
    obtain ⟨module, method, signature, start, hmodule, -, hsignature, hstart, hblock⟩ :=
      Root.site?_statement.mp hsite
    have houter := TypeChain.Keyed.cons (Program.module?_keyed hcontext hmodule) hcontext.chain
    have hstart := Method.scope_keyed hcontext hsignature hstart
    exact Site.inBlock_keyed hcontext houter hstart hblock

/-- At every site of a program the visible scopes are keyed, whether the program is accepted or
not. -/
theorem Program.site?_keyed (hcontext : context.Built) {place : Place} {site : Site}
    (hsite : program.site? context place = some site) : TypeChain.Keyed site.scopes := by
  obtain ⟨root, turns⟩ := place
  induction turns using List.reverseRecOn generalizing site with
  | nil =>
    obtain ⟨first, hfirst, hpure⟩ := Option.bind_eq_some_iff.mp hsite
    cases hpure
    exact Root.site?_keyed hcontext hfirst
  | append_singleton turns turn ih =>
    have hturn := Program.site?_turn context program ⟨root, turns⟩ turn
    rw [Place.turn, hsite] at hturn
    obtain ⟨before, hbefore, hpart⟩ := Option.bind_eq_some_iff.mp hturn.symm
    exact Site.part?_keyed hcontext (ih hbefore) hpart

/-- If the node is a call for which a function is found, no argument and no type of a parameter is
left without the other. The parameters of a method begin with the receiver. -/
def Site.PassesAll (site : Site) : Prop :=
  match site.node with
  | .expr (.call _ name args _) => ∀ found,
    Chain.function? site.scopes name args.length = some found → PairsUp args found.params
  | .expr (.invoke _ receiver name args _) => ∀ type found,
    receiver.infer site.scopes = .ok type → type.method? name (args.length + 1) = some found →
      1 ≤ found.params.length ∧ PairsUp args (found.params.drop 1)
  | _ => True

/-- At a site in keyed scopes, a call has as many arguments as the function that is found has
parameters. -/
theorem Site.passesAll {site : Site} (hscopes : TypeChain.Keyed site.scopes) : site.PassesAll := by
  unfold PassesAll
  split
  · intro found hfound
    exact pairsUp_of_length (hscopes.function? hfound).1.symm
  · intro type found htype hfound
    have harity := ((Expr.infer_built hscopes _ htype).method? hfound).1
    unfold Signature.arity at harity
    refine ⟨by omega, pairsUp_of_length ?_⟩
    rw [List.length_drop]
    omega
  · trivial

/-- The signature of a paired method has a type for each name of a parameter. -/
theorem Method.signature_pairsUp {method : Method} (hpaired : method.Paired)
    {signature : Signature Ty} (hsignature : method.signature context = .ok signature) :
    PairsUp method.params signature.params :=
  pairsUp_of_length (hpaired.symm.trans (Method.signature_arity hsignature).symm)

end

/-! ### Analyses in place -/

/-- The analyzer has the types of `context`, and all of its scopes are keyed. -/
structure Analyzer.KeyedIn (context : TypeContext) (analyzer : Analyzer) : Prop where
  records : analyzer.records = context.records
  scopes : analyzer.scopes.Each TypeScope.Keyed

namespace Analyzer.KeyedIn

variable {context : TypeContext} {analyzer : Analyzer} (h : analyzer.KeyedIn context)
include h

/-- A variable whose type a host can build may be declared in the analyzer. -/
theorem declare (scope : Nat) (name : String) {type : Ty} (htype : type.Built) :
    (analyzer.declare scope name type).KeyedIn context :=
  ⟨h.records, h.scopes.modify scope fun _ hscope ↦ hscope.declare name htype⟩

/-- A function may be declared in the analyzer under its own count. -/
theorem declareFunction (scope : Nat) {signature : Signature Ty}
    (hreturns : signature.returns.Built) :
    (analyzer.declareFunction scope signature).KeyedIn context :=
  ⟨h.records, h.scopes.modify scope fun _ hscope ↦ hscope.declareFunction _ signature hreturns⟩

/-- What a name of a type stands for is a type that a host can build. -/
theorem resolve (hcontext : context.Built) {offset : Nat} {name : String} {type : Ty}
    (htype : analyzer.context.resolve offset name = .ok type) : type.Built := by
  have hsame : analyzer.context.resolve offset name = context.resolve offset name := by
    unfold TypeContext.resolve TypeContext.type? Analyzer.context
    rw [h.records]
  exact hcontext.type? (TypeContext.resolve_eq_ok.mp (hsame ▸ htype))

/-- A type that is inferred in the analyzer is one that a host can build. -/
theorem infer {scope : Nat} {expr : Expr} {type : Ty}
    (htype : expr.infer (analyzer.scopes.chain scope) = .ok type) : type.Built :=
  Expr.infer_built (h.scopes.chain scope) expr htype

end Analyzer.KeyedIn

namespace Analysis

variable {α : Type} {context : TypeContext}

/-- However the analysis ends, all scopes are keyed again, and what it gives is as expected. -/
abbrev Keys (context : TypeContext) (gives : α → Prop) (part : Analysis α) : Prop :=
  Upholds (Analyzer.KeyedIn context) gives (fun _ ↦ True) part

theorem resolve_keys (hcontext : context.Built) (offset : Nat) (name : String) :
    (resolve offset name).Keys context Ty.Built :=
  Upholds.get.bind fun _ h ↦ .ofExcept (fun _ ↦ h.resolve hcontext) fun _ _ ↦ trivial

theorem infer_keys (scope : Nat) (expr : Expr) : (infer scope expr).Keys context Ty.Built :=
  Upholds.get.bind fun _ h ↦ .ofExcept (fun _ ↦ h.infer) fun _ _ ↦ trivial

theorem require_keys (verdict : Except TypingError Unit) :
    Keys context (fun _ ↦ True) (ofExcept verdict) :=
  .ofExcept (fun _ _ ↦ trivial) fun _ _ ↦ trivial

theorem checkAs_keys (scope : Nat) (target : Ty) (expr : Expr) :
    (checkAs scope target expr).Keys context fun _ ↦ True :=
  (infer_keys scope expr).bind fun _ _ ↦ require_keys _

theorem openScope_keys (parent : Nat) : (openScope parent).Keys context fun _ ↦ True :=
  Upholds.get.bind fun _ _ ↦
    (Upholds.modify fun _ h ↦ ⟨h.records, h.scopes.child parent⟩).bind fun _ _ ↦ .pure trivial

/-- Adding a variable keeps the scopes keyed. -/
theorem add_keys (scope offset : Nat) (name : String) {type : Ty} (htype : type.Built) :
    (add scope offset name type).Keys context fun _ ↦ True :=
  Upholds.get.bind fun _ _ ↦ .ite (fun _ ↦ .throw trivial) fun _ ↦
    .modify fun _ h ↦ h.declare scope name htype

/-- The type of the result is set back when a body is done, and no scope has changed for it. -/
theorem returning_keys {gives : α → Prop} {body : Analysis α} (hbody : body.Keys context gives)
    (type : Ty) : (returning type body).Keys context gives := by
  intro analyzer h
  have hend := hbody { analyzer with returns := some type } ⟨h.records, h.scopes⟩
  unfold returning
  generalize body { analyzer with returns := some type } = reached at hend
  cases hend with
  | ok hvalue hafter => exact .ok hvalue ⟨hafter.records, hafter.scopes⟩
  | error hcause hafter => exact .error hcause ⟨hafter.records, hafter.scopes⟩

end Analysis

section

variable {context : TypeContext} (hcontext : context.Built)
include hcontext

-- A mutual recursion over the tree does not name the hypothesis that it shares.
set_option linter.unusedSectionVars false

/-- The type of a declaration is one that a host can build. -/
theorem Binding.analyzeType_keys (scope : Nat) (binding : Binding) :
    (binding.analyzeType scope).Keys context Ty.Built := by
  refine (Upholds.option_mapM (Analysis.resolve_keys hcontext binding.offset)
    binding.typeName).bind fun written hwritten ↦ ?_
  cases written <;> cases binding.value
  · exact .throw trivial
  · exact Analysis.infer_keys scope _
  · exact .pure (hwritten _ rfl)
  · exact (Analysis.checkAs_keys scope _ _).bind fun _ _ ↦ .pure (hwritten _ rfl)

theorem Binding.analyze_keys (scope : Nat) (binding : Binding) :
    (binding.analyze scope).Keys context fun _ ↦ True :=
  (binding.analyzeType_keys hcontext scope).bind fun _ ↦ Analysis.add_keys scope _ _

mutual

/-- A statement keeps all scopes keyed, whether it is accepted or not. The recursion follows the
tree. -/
theorem Stmt.analyze_keys (scope : Nat) : ∀ statement : Stmt,
    (statement.analyze scope).Keys context fun _ ↦ True
  | .expr value => by
    rw [Stmt.analyze]
    refine (Analysis.infer_keys scope value).discard.bind fun _ _ ↦ ?_
    exact .ite (fun _ ↦ .pure trivial) fun _ ↦ .throw trivial
  | .declare binding => by
    rw [Stmt.analyze]
    exact binding.analyze_keys hcontext scope
  | .assign target value => by
    rw [Stmt.analyze]
    refine .ite (fun _ ↦ ?_) fun _ ↦ .throw trivial
    refine (Analysis.infer_keys scope value).bind fun _ _ ↦ ?_
    exact (Analysis.infer_keys scope target).bind fun _ _ ↦ Analysis.require_keys _
  | .branch condition thenBody elseBody => by
    rw [Stmt.analyze]
    refine (Analysis.checkAs_keys scope _ condition).bind fun _ _ ↦ ?_
    refine .ite (fun _ ↦ .throw trivial) fun _ ↦ ?_
    refine (Analysis.openScope_keys scope).bind fun first _ ↦ ?_
    refine (analyzeBlock_keys first thenBody).bind fun _ _ ↦ ?_
    exact (Analysis.openScope_keys scope).bind fun second _ ↦ analyzeBlock_keys second elseBody
  | .forEach _ name iterable body => by
    rw [Stmt.analyze]
    refine (Analysis.checkAs_keys scope _ iterable).bind fun _ _ ↦ ?_
    refine (Analysis.openScope_keys scope).bind fun inner _ ↦ ?_
    refine (Upholds.modify fun _ h ↦ h.declare inner name ?_).bind fun _ _ ↦
      analyzeBlock_keys inner body
    exact Ty.built_of_plain fun _ h ↦ by cases h
  | .loop condition body => by
    rw [Stmt.analyze]
    refine (Analysis.checkAs_keys scope _ condition).bind fun _ _ ↦ ?_
    exact (Analysis.openScope_keys scope).bind fun inner _ ↦ analyzeBlock_keys inner body
  | .ret value => by
    rw [Stmt.analyze]
    refine (Analysis.infer_keys scope value).bind fun _ _ ↦ ?_
    exact Upholds.get.bind fun _ _ ↦ Analysis.require_keys _

/-- A block keeps all scopes keyed. -/
theorem analyzeBlock_keys (scope : Nat) : ∀ statements : List Stmt,
    (analyzeBlock scope statements).Keys context fun _ ↦ True
  | [] => by
    rw [analyzeBlock]
    exact .pure trivial
  | head :: tail => by
    rw [analyzeBlock]
    exact (head.analyze_keys scope).bind fun _ _ ↦ analyzeBlock_keys scope tail

end

/-- The types in a signature are those that its method names. -/
theorem Method.analyzeSignature_keys (method : Method) :
    method.analyzeSignature.Keys context fun signature ↦
      (∀ type ∈ signature.params, type.Built) ∧ signature.returns.Built := by
  refine (Upholds.list_mapM (Analysis.resolve_keys hcontext method.offset)
    method.paramTypes).bind fun params hparams ↦ ?_
  refine (Upholds.option_mapM (Analysis.resolve_keys hcontext method.offset)
    method.returnType).bind fun returns hreturns ↦ .pure ⟨hparams.2, ?_⟩
  cases returns with
  | none => exact Ty.built_of_plain fun _ h ↦ by cases h
  | some type => exact hreturns type rfl

/-- Declaring a method keeps the scopes keyed: it is declared under the count of its own
parameters. -/
theorem Method.analyzeDeclaration_keys (module : Nat) (method : Method) :
    (method.analyzeDeclaration module).Keys context fun signature ↦
      ∀ type ∈ signature.params, type.Built := by
  refine (method.analyzeSignature_keys hcontext).bind fun signature hsignature ↦ ?_
  refine Upholds.get.bind fun _ _ ↦ .ite (fun _ ↦ .throw trivial) fun _ ↦ ?_
  exact (Upholds.modify fun _ h ↦ h.declareFunction module hsignature.2).bind fun _ _ ↦
    .pure hsignature.1

/-- The body of a method keeps all scopes keyed. -/
theorem Method.analyzeBody_keys (module : Nat) (method : Method) {signature : Signature Ty}
    (hparams : ∀ type ∈ signature.params, type.Built) :
    (method.analyzeBody module signature).Keys context fun _ ↦ True := by
  refine (Analysis.openScope_keys module).bind fun scope _ ↦ ?_
  refine (Upholds.list_forM fun param hparam ↦ ?_).bind fun _ _ ↦
    Analysis.returning_keys (analyzeBlock_keys hcontext scope method.body) signature.returns
  exact Analysis.add_keys scope _ _ (hparams param.2 (List.of_mem_zip hparam).2)

/-- Wherever it stops, going through a program leaves every scope of the analyzer keyed. -/
theorem Program.analyze_keys (program : Program) :
    program.analyze.Keys context fun _ ↦ True := by
  refine .ite (fun _ ↦ ?_) fun _ ↦ .throw trivial
  refine (Analysis.openScope_keys 0).bind fun module _ ↦ ?_
  refine (Upholds.list_forM fun field _ ↦ field.analyze_keys hcontext module).bind fun _ _ ↦ ?_
  refine (Upholds.list_mapM (Method.analyzeDeclaration_keys hcontext module)
    program.methods).bind fun signatures hsignatures ↦ ?_
  exact Upholds.list_forM fun known hknown ↦
    known.1.analyzeBody_keys hcontext module (hsignatures.2 known.2 (List.of_mem_zip hknown).2)

end

end ScriptLang
