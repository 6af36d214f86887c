import Mathlib
import ScriptLang.Program.Requests
import ScriptLang.Proofs.Program.Bounds
import ScriptLang.Proofs.Program.Operands
import ScriptLang.Proofs.Token.Cut

/-!
Literals are read as what they are spelled like. Scanning decides which texts are literals and
reading decides what they stand for, and both agree: a scanned token is never malformed for a
reader, and a literal in a tree has the value of the token at its place. This holds for all that is
read from the tokens of a text, also behind an error.
-/

set_option autoImplicit false
set_option relaxedAutoImplicit false

namespace ScriptLang

mutual

/-- The literals of an expression and their places, from the left. -/
def Expr.literals : Expr → List (Nat × Literal)
  | .literal mark value => [(mark.offset, value)]
  | .group _ inner => inner.literals
  | .binary _ _ left right => left.literals ++ right.literals
  | .access .. => []
  | .member _ receiver _ _ => receiver.literals
  | .call _ _ args _ => argLiterals args
  | .invoke _ receiver _ args _ => receiver.literals ++ argLiterals args

def argLiterals : List Expr → List (Nat × Literal)
  | [] => []
  | arg :: args => arg.literals ++ argLiterals args

end

def Binding.literals (binding : Binding) : List (Nat × Literal) :=
  (binding.value.map Expr.literals).getD []

mutual

def Stmt.literals : Stmt → List (Nat × Literal)
  | .expr value => value.literals
  | .declare binding => binding.literals
  | .assign target value => target.literals ++ value.literals
  | .branch condition thenBody elseBody =>
    condition.literals ++ (blockLiterals thenBody ++ blockLiterals elseBody)
  | .forEach _ _ iterable body => iterable.literals ++ blockLiterals body
  | .loop condition body => condition.literals ++ blockLiterals body
  | .ret value => value.literals

def blockLiterals : List Stmt → List (Nat × Literal)
  | [] => []
  | statement :: statements => statement.literals ++ blockLiterals statements

end

def Program.literals (program : Program) : List (Nat × Literal) :=
  program.fields.flatMap Binding.literals ++
    program.methods.flatMap fun method ↦ blockLiterals method.body

def Reader.Answer.literals : Reader.Answer → List (Nat × Literal)
  | .expression value => value.literals
  | .program value => value.literals

/-- The values that a token stands for. -/
inductive Token.Denotes (token : Token) : Literal → Prop
  | spelled {value : Literal} (hvalue : Literal.Spelled token.kind token.text.toList value) :
    Denotes token value
  | constant {value : Literal} (hvalue : Grammar.Constant token value) : Denotes token value

/-- A token stands for at most one value. -/
theorem Token.Denotes.eq {token : Token} {first second : Literal} (hfirst : token.Denotes first)
    (hsecond : token.Denotes second) : first = second := by
  have hkinds {spelled constant : Literal}
      (hspelled : Literal.Spelled token.kind token.text.toList spelled)
      (hconstant : Grammar.Constant token constant) : False :=
    hspelled.kind_ne.1 (Grammar.constant_iff.mp hconstant).1
  cases hfirst with
  | spelled hfirst =>
    cases hsecond with
    | spelled hsecond => exact hfirst.eq hsecond
    | constant hsecond => exact (hkinds hfirst hsecond).elim
  | constant hfirst =>
    cases hsecond with
    | spelled hsecond => exact (hkinds hsecond hfirst).elim
    | constant hsecond =>
      have hvalue := (Grammar.constant_iff.mp hfirst).2
      rw [(Grammar.constant_iff.mp hsecond).2] at hvalue
      exact (Option.some.inj hvalue).symm

/-- Each literal is what one of the tokens stands for, and has its place. -/
def Copied (tokens : List Token) (literals : List (Nat × Literal)) : Prop :=
  ∀ literal ∈ literals, ∃ token ∈ tokens, token.offset = literal.1 ∧ token.Denotes literal.2

section

variable {tokens : List Token}

theorem Copied.nil : Copied tokens [] := fun _ hliteral ↦ (List.not_mem_nil hliteral).elim

theorem Copied.append {first second : List (Nat × Literal)} (hfirst : Copied tokens first)
    (hsecond : Copied tokens second) : Copied tokens (first ++ second) :=
  List.forall_mem_append.mpr ⟨hfirst, hsecond⟩

/-- Literals of a list are copied if those of each item are. -/
theorem Copied.flatMap {α : Type} {values : List α} {literals : α → List (Nat × Literal)}
    (h : ∀ value ∈ values, Copied tokens (literals value)) :
    Copied tokens (values.flatMap literals) := by
  intro literal hliteral
  obtain ⟨value, hvalue, hmem⟩ := List.mem_flatMap.mp hliteral
  exact h value hvalue literal hmem

/-- The literals of arguments are those of each in their order. -/
theorem argLiterals_eq_flatMap (args : List Expr) :
    argLiterals args = args.flatMap Expr.literals := by
  induction args with
  | nil => rfl
  | cons arg args ih => rw [argLiterals, ih, List.flatMap_cons]

/-- The literals of a block are those of each statement in their order. -/
theorem blockLiterals_eq_flatMap (statements : List Stmt) :
    blockLiterals statements = statements.flatMap Stmt.literals := by
  induction statements with
  | nil => rfl
  | cons statement statements ih => rw [blockLiterals, ih, List.flatMap_cons]

theorem Copied.args {args : List Expr} (h : ∀ arg ∈ args, Copied tokens arg.literals) :
    Copied tokens (argLiterals args) := argLiterals_eq_flatMap args ▸ .flatMap h

theorem Copied.block {statements : List Stmt}
    (h : ∀ statement ∈ statements, Copied tokens statement.literals) :
    Copied tokens (blockLiterals statements) := blockLiterals_eq_flatMap statements ▸ .flatMap h

end

namespace Reader

variable {α β : Type}

/-- From an end of the tokens, `reader` goes on to an end of them, also if it fails. What it reads
is `good`, and no literal is malformed. -/
def Draws (tokens : List Token) (good : α → Prop) (reader : Reader α) : Prop :=
  ∀ rest, rest <:+ tokens →
    match reader rest with
    | .ok value after => after <:+ tokens ∧ good value
    | .error cause after => after <:+ tokens ∧ ∀ text offset, cause ≠ .invalidLiteral text offset

namespace Draws

variable {tokens : List Token} {good : α → Prop} {good' : β → Prop} {reader : Reader α}

theorem pure {value : α} (hvalue : good value) : Draws tokens good (pure value) :=
  fun _ hrest ↦ ⟨hrest, hvalue⟩

theorem throw {cause : ParseError} (h : ∀ text offset, cause ≠ .invalidLiteral text offset) :
    Draws tokens good (throw cause) := fun _ hrest ↦ ⟨hrest, h⟩

/-- Readers may be put one after another: both take their tokens from the same list. -/
theorem bind {next : α → Reader β} (h : Draws tokens good reader)
    (hnext : ∀ value, good value → Draws tokens good' (next value)) :
    Draws tokens good' (reader >>= next) := by
  intro rest hrest
  have hreader := h rest hrest
  cases hread : reader rest with
  | ok value after =>
    rw [hread] at hreader
    rw [Stateful.bind_of_ok hread]
    exact hnext value hreader.2 after hreader.1
  | error cause after =>
    rw [hread] at hreader
    rw [Stateful.bind_of_error hread]
    exact hreader

theorem map {use : α → β} (h : Draws tokens good reader)
    (huse : ∀ value, good value → good' (use value)) : Draws tokens good' (use <$> reader) := by
  rw [Stateful.map_eq]
  exact h.bind fun value hvalue ↦ .pure (huse value hvalue)

/-- What is drawn satisfies every weaker condition. -/
theorem imp {other : α → Prop} (h : Draws tokens good reader)
    (himp : ∀ value, good value → other value) : Draws tokens other reader := by
  rw [← LawfulFunctor.id_map reader]
  exact h.map himp

/-- What is drawn may be wrapped as something that is there. -/
theorem some (h : Draws tokens good reader) :
    Draws tokens (fun found ↦ ∀ value ∈ found, good value) (some <$> reader) := by
  refine h.map fun value hvalue ↦ ?_
  rintro _ ⟨⟩
  exact hvalue

/-- Reading a word, if it is next, draws nothing. -/
theorem accept (text : String) : Draws tokens (fun _ ↦ True) (accept text) := by
  intro rest hrest
  cases rest with
  | nil => exact ⟨hrest, trivial⟩
  | cons token rest =>
    cases hword : token.isWord text with
    | true =>
      rw [accept_of_isWord hword]
      exact ⟨(List.suffix_cons token rest).trans hrest, trivial⟩
    | false =>
      rw [accept_of_not_isWord hword]
      exact ⟨hrest, trivial⟩

theorem position (stop : Nat) : Draws tokens (fun _ ↦ True) (position stop) :=
  fun _ hrest ↦ ⟨hrest, trivial⟩

theorem nextIsAny (texts : List String) : Draws tokens (fun _ ↦ True) (nextIsAny texts) :=
  fun _ hrest ↦ ⟨hrest, trivial⟩

theorem atEnd : Draws tokens (fun _ ↦ True) atEnd := fun _ hrest ↦ ⟨hrest, trivial⟩

theorem expected (stop : Nat) (what : String) : Draws tokens good (expected stop what) := by
  intro rest hrest
  cases rest <;> exact ⟨hrest, nofun⟩

/-- A word chooses between two ways, each of which draws. -/
theorem accept_then (text : String) {other : Reader α} (h : Draws tokens good reader)
    (hother : Draws tokens good other) :
    Draws tokens good (Reader.accept text >>= fun found ↦
      if found = true then reader else other) := by
  refine (accept text).bind fun found _ ↦ ?_
  cases found with
  | true => exact h
  | false => exact hother

theorem expectWord (stop : Nat) (text : String) :
    Draws tokens (fun _ ↦ True) (expectWord stop text) :=
  .accept_then text (.pure trivial) (.expected stop _)

/-- A name is no literal. -/
theorem name (stop : Nat) : Draws tokens (fun _ ↦ True) (name stop) := by
  intro rest hrest
  cases rest with
  | nil => exact ⟨hrest, nofun⟩
  | cons token rest =>
    cases hname : token.isName with
    | true =>
      rw [name_of_isName hname]
      exact ⟨(List.suffix_cons token rest).trans hrest, trivial⟩
    | false =>
      rw [name_of_not_isName hname]
      exact ⟨hrest, nofun⟩

theorem following (text : String) (h : Draws tokens good reader) :
    Draws tokens (fun found ↦ ∀ value ∈ found, good value) (following text reader) :=
  .accept_then text h.some (.pure nofun)

/-- A repetition draws what its items draw. -/
theorem many {item : Reader (Option α)}
    (h : Draws tokens (fun found ↦ ∀ value ∈ found, good value) item) :
    Draws tokens (fun values ↦ ∀ value ∈ values, good value) (many item) := by
  have hbound (bound : List Token) :
      Draws tokens (fun values ↦ ∀ value ∈ values, good value) (manyWithin item bound) := by
    induction bound with
    | nil => exact .pure nofun
    | cons _ bound ih =>
      refine h.bind fun found hfound ↦ ?_
      cases found with
      | none => exact .pure nofun
      | some head =>
        exact ih.bind fun tail htail ↦ .pure (List.forall_mem_cons.mpr ⟨hfound head rfl, htail⟩)
  exact fun rest ↦ hbound rest rest

end Draws

/-! ### Expressions -/

section

variable {tokens : List Token} (stop : Nat) {expression : Reader Expr}
  (h : Draws tokens (fun expr ↦ Copied tokens expr.literals) expression)
include h

/-- A tier of operators draws what its operands draw. -/
theorem level_draws (ops : List BinaryOp) :
    Draws tokens (fun expr ↦ Copied tokens expr.literals) (level ops expression) := by
  have hoperator : Draws tokens (fun _ ↦ True) (acceptOperator ops) := by
    intro rest hrest
    cases rest with
    | nil => exact ⟨hrest, trivial⟩
    | cons token rest =>
      rw [acceptOperator_cons]
      cases ops.find? fun op ↦ token.isWord op.lexeme with
      | some op => exact ⟨(List.suffix_cons token rest).trans hrest, trivial⟩
      | none => exact ⟨hrest, trivial⟩
  have hoperation : Draws tokens
      (fun found ↦ ∀ operation ∈ found, Copied tokens (Operation.right operation).literals)
      (operation ops expression) := by
    refine hoperator.bind fun found _ ↦ ?_
    cases found with
    | none => exact .pure nofun
    | some found =>
      refine h.bind fun right hright ↦ .pure ?_
      rintro _ ⟨⟩
      exact hright
  refine h.bind fun left hleft ↦ hoperation.many.bind fun operations hoperations ↦ .pure ?_
  induction operations generalizing left with
  | nil => exact hleft
  | cons operation operations ih =>
    rw [List.forall_mem_cons] at hoperations
    exact ih _ (hleft.append hoperations.1) hoperations.2

/-- Arguments draw what expressions draw. -/
theorem arguments_draws :
    Draws tokens (fun args ↦ Copied tokens (argLiterals args)) (arguments stop expression) := by
  have hnext : Draws tokens (fun found ↦ ∀ arg ∈ found, Copied tokens (Expr.literals arg))
      (nextArgument stop expression) := by
    refine (Draws.position stop).bind fun comma _ ↦ (Draws.accept ",").bind fun found _ ↦ ?_
    cases found with
    | false => exact .pure nofun
    | true =>
      refine (Draws.nextIsAny _).bind fun trailing _ ↦ ?_
      cases trailing with
      | true =>
        have hcomma : Draws tokens (fun _ ↦ True)
            (throw (.trailingComma comma) : Reader PUnit) := .throw nofun
        exact hcomma.bind fun _ _ ↦ h.some
      | false => exact h.some
  refine .accept_then ")" (.pure .nil) (h.bind fun head hhead ↦ hnext.many.bind fun others hothers ↦
    ?_)
  have hargs : Copied tokens (argLiterals (head :: others)) :=
    .args (List.forall_mem_cons.mpr ⟨hhead, hothers⟩)
  have hexpected : Draws tokens (fun _ ↦ True) (expected stop "',' or ')'" : Reader Unit) :=
    .expected stop _
  exact .accept_then ")" (.pure hargs) (hexpected.bind fun _ _ ↦ .pure hargs)

/-- What is attached by a dot draws what its arguments draw. -/
theorem suffix_draws : Draws tokens
    (fun found ↦ ∀ suffix ∈ found, ∀ args ∈ Suffix.args suffix, Copied tokens (argLiterals args))
    (suffix stop expression) :=
  .following "." ((Draws.position stop).bind fun _ _ ↦ (Draws.name stop).bind fun _ _ ↦
    (Draws.following "(" (arguments_draws stop h)).bind fun _ hargs ↦ .pure hargs)

/-- A name with or without arguments draws what the arguments draw. -/
theorem named_draws {token : Token} (hname : token.isName = true) :
    Draws tokens (fun expr ↦ Copied tokens expr.literals) (operandFrom stop expression token) := by
  rw [operandFrom_of_name hname]
  refine (Draws.following "(" (arguments_draws stop h)).bind fun args hargs ↦ .pure ?_
  cases args with
  | none => exact .nil
  | some args => exact hargs args rfl

/-- An operand draws the literal of its token, if it is one, which is among the tokens and
well-formed, so that its text has a value. -/
theorem operandFrom_draws {token : Token} (hmem : token ∈ tokens) (hwell : token.WellFormed) :
    Draws tokens (fun expr ↦ Copied tokens expr.literals) (operandFrom stop expression token) := by
  have hliteral {value : Literal} (hvalue : token.Denotes value) :
      Draws tokens (fun expr ↦ Copied tokens expr.literals)
        (pure (.literal ⟨token.offset, none⟩ value) : Reader Expr) :=
    .pure (List.forall_mem_singleton.mpr ⟨token, hmem, rfl, hvalue⟩)
  cases hopens : token.opensOperand with
  | false =>
    intro rest hrest
    rw [operandFrom_of_not_opens hopens]
    exact ⟨hrest, nofun⟩
  | true =>
    cases hkind : token.kind with
    | identifier =>
      cases hvalue : Literal.ofKeyword? token.text with
      | some value =>
        have hconstant : Grammar.Constant token value := Grammar.constant_iff.mpr ⟨hkind, hvalue⟩
        rw [operandFrom_of_constant hconstant]
        exact hliteral (.constant hconstant)
      | none =>
        simp only [Token.opensOperand, hkind, hvalue] at hopens
        exact named_draws stop h (by simpa [Token.isName, hkind] using hopens)
    | operator =>
      simp only [Token.opensOperand, hkind] at hopens
      have hword : token.isWord "(" = true := by simp [Token.isWord, hkind, hopens]
      rw [operandFrom_of_opening (hwell.is_of_isWord (by decide) hword)]
      exact h.bind fun inner hinner ↦ (Draws.expectWord stop ")").bind fun _ _ ↦ .pure hinner
    | integer | decimal | character | string =>
      have hspelled : ∃ value, Literal.Spelled token.kind token.text.toList value := by
        unfold Token.WellFormed at hwell
        rw [hkind] at hwell ⊢
        exact hwell
      obtain ⟨value, hvalue⟩ := hspelled
      rw [operandFrom_of_literal hvalue]
      exact hliteral (.spelled hvalue)

/-- An operand with everything attached to it draws what the parts draw. -/
theorem suffixed_draws (hwell : ∀ token ∈ tokens, token.WellFormed) :
    Draws tokens (fun expr ↦ Copied tokens expr.literals) (suffixed stop expression) := by
  have hoperand : Draws tokens (fun expr ↦ Copied tokens expr.literals)
      (operand stop expression) := by
    intro rest hrest
    cases rest with
    | nil => exact ⟨hrest, nofun⟩
    | cons token rest =>
      have hmem := hrest.subset List.mem_cons_self
      exact operandFrom_draws stop h hmem (hwell token hmem) rest
        ((List.suffix_cons token rest).trans hrest)
  refine hoperand.bind fun receiver hreceiver ↦ (suffix_draws stop h).many.bind
    fun suffixes hsuffixes ↦ .pure ?_
  induction suffixes generalizing receiver with
  | nil => exact hreceiver
  | cons suffix suffixes ih =>
    rw [List.forall_mem_cons] at hsuffixes
    refine ih _ ?_ hsuffixes.2
    obtain ⟨offset, name, args⟩ := suffix
    cases args with
    | none => exact hreceiver
    | some args => exact hreceiver.append (hsuffixes.1 args rfl)

theorem levels_draws (hwell : ∀ token ∈ tokens, token.WellFormed) :
    Draws tokens (fun expr ↦ Copied tokens expr.literals) (levels stop expression) :=
  level_draws (level_draws (level_draws (level_draws (suffixed_draws stop h hwell) _) _) _) _

end

section

variable {tokens : List Token} (hwell : ∀ token ∈ tokens, token.WellFormed) (stop : Nat)
include hwell

/-- An expression draws literals of its own tokens only, and never an invalid one. The induction is
on the bound of nesting. -/
theorem expression_draws :
    Draws tokens (fun expr ↦ Copied tokens expr.literals) (expression stop) := by
  have hbound (bound : List Token) :
      Draws tokens (fun expr ↦ Copied tokens expr.literals) (expressionWithin stop bound) := by
    induction bound with
    | nil => exact .expected stop _
    | cons _ bound ih => exact levels_draws stop ih hwell
  exact fun rest ↦ hbound rest rest

/-! ### Statements and programs -/

/-- A declaration draws the literals of its value. -/
theorem binding_draws :
    Draws tokens (fun binding ↦ Copied tokens binding.literals) (binding stop) := by
  refine (Draws.position stop).bind fun _ _ ↦ (Draws.name stop).bind fun _ _ ↦
    (Draws.following ":" (Draws.name stop)).bind fun _ _ ↦
    (Draws.following "=" (expression_draws hwell stop)).bind fun value hvalue ↦
    (Draws.expectWord stop ";").bind fun _ _ ↦ .pure ?_
  cases value with
  | none => exact .nil
  | some value => exact hvalue value rfl

/-- A call or an assignment draws the literals of both sides. -/
theorem expressionStatement_draws : Draws tokens
    (fun statement ↦ Copied tokens statement.literals) (expressionStatement stop) := by
  refine (expression_draws hwell stop).bind fun target htarget ↦
    (Draws.following "=" (expression_draws hwell stop)).bind fun value hvalue ↦
    (Draws.expectWord stop ";").bind fun _ _ ↦ ?_
  cases value with
  | none => exact .pure htarget
  | some value => exact .pure (htarget.append (hvalue value rfl))

theorem ret_draws :
    Draws tokens (fun statement ↦ Copied tokens statement.literals) (ret stop) :=
  (expression_draws hwell stop).bind fun _ hvalue ↦ (Draws.expectWord stop ";").bind fun _ _ ↦
    .pure hvalue

section

variable {statement : Reader Stmt}
  (h : Draws tokens (fun statement ↦ Copied tokens statement.literals) statement)
include h

omit hwell in
/-- A block draws the literals of its statements. -/
theorem block_draws (closers : List String) :
    Draws tokens (fun body ↦ Copied tokens (blockLiterals body)) (block statement closers) := by
  have hitems : Draws tokens
      (fun body ↦ ∀ statement ∈ body, Copied tokens (Stmt.literals statement))
      (block statement closers) := by
    refine .many (Draws.atEnd.bind fun ended _ ↦ ?_)
    cases ended with
    | true => exact .pure nofun
    | false =>
      refine (Draws.nextIsAny closers).bind fun closed _ ↦ ?_
      cases closed with
      | true => exact .pure nofun
      | false => exact h.some
  exact hitems.imp fun _ ↦ .block

omit hwell in
theorem body_draws :
    Draws tokens (fun body ↦ Copied tokens (blockLiterals body)) (body stop statement) :=
  (Draws.expectWord stop "DO").bind fun _ _ ↦ (block_draws h ["END"]).bind fun _ hbody ↦
    (Draws.expectWord stop "END").bind fun _ _ ↦ .pure hbody

/-- A conditional draws the literals of its condition and of both blocks. -/
theorem branch_draws :
    Draws tokens (fun statement ↦ Copied tokens statement.literals) (branch stop statement) := by
  refine (expression_draws hwell stop).bind fun condition hcondition ↦
    (Draws.expectWord stop "DO").bind fun _ _ ↦
    (block_draws h ["ELSE", "END"]).bind fun thenBody hthen ↦
    (Draws.following "ELSE" (block_draws h ["END"])).bind fun elseBody helse ↦
    (Draws.expectWord stop "END").bind fun _ _ ↦ .pure (hcondition.append (hthen.append ?_))
  cases elseBody with
  | none => exact .nil
  | some elseBody => exact helse elseBody rfl

theorem forEach_draws :
    Draws tokens (fun statement ↦ Copied tokens statement.literals) (forEach stop statement) :=
  (Draws.position stop).bind fun _ _ ↦ (Draws.name stop).bind fun _ _ ↦
    (Draws.expectWord stop "IN").bind fun _ _ ↦
    (expression_draws hwell stop).bind fun _ hiterable ↦
    (body_draws stop h).bind fun _ hbody ↦ .pure (hiterable.append hbody)

theorem loop_draws :
    Draws tokens (fun statement ↦ Copied tokens statement.literals) (loop stop statement) :=
  (expression_draws hwell stop).bind fun _ hcondition ↦ (body_draws stop h).bind fun _ hbody ↦
    .pure (hcondition.append hbody)

theorem nested_draws :
    Draws tokens (fun statement ↦ Copied tokens statement.literals) (nested stop statement) := by
  refine .accept_then "LET" ((binding_draws hwell stop).bind fun _ hbinding ↦ .pure hbinding) ?_
  refine .accept_then "IF" (branch_draws hwell stop h) ?_
  refine .accept_then "FOR" (forEach_draws hwell stop h) ?_
  refine .accept_then "WHILE" (loop_draws hwell stop h) ?_
  exact .accept_then "RETURN" (ret_draws hwell stop) (expressionStatement_draws hwell stop)

end

/-- A statement draws literals of its own tokens only. The induction is on the bound of nesting. -/
theorem statement_draws :
    Draws tokens (fun statement ↦ Copied tokens statement.literals) (statement stop) := by
  have hbound (bound : List Token) : Draws tokens
      (fun statement ↦ Copied tokens statement.literals) (statementWithin stop bound) := by
    induction bound with
    | nil => exact .expected stop _
    | cons _ bound ih => exact nested_draws hwell stop ih
  exact fun rest ↦ hbound rest rest

omit hwell in
/-- Parameters have names and types and no literals. -/
theorem parameters_draws : Draws tokens (fun _ ↦ True) (parameters stop) := by
  have hparameter : Draws tokens (fun _ ↦ True) (parameter stop) :=
    (Draws.name stop).bind fun _ _ ↦ (Draws.expectWord stop ":").bind fun _ _ ↦
      (Draws.name stop).bind fun _ _ ↦ .pure trivial
  exact .accept_then ")" (.pure trivial) (hparameter.bind fun _ _ ↦
    (Draws.following "," hparameter).many.bind fun _ _ ↦
    (Draws.expectWord stop ")").bind fun _ _ ↦ .pure trivial)

/-- A method draws the literals of its body. -/
theorem method_draws :
    Draws tokens (fun method ↦ Copied tokens (blockLiterals method.body)) (method stop) :=
  (Draws.position stop).bind fun _ _ ↦ (Draws.name stop).bind fun _ _ ↦
    (Draws.expectWord stop "(").bind fun _ _ ↦ (parameters_draws stop).bind fun _ _ ↦
    (Draws.following ":" (Draws.name stop)).bind fun _ _ ↦
    (body_draws stop (statement_draws hwell stop)).bind fun _ hbody ↦ .pure hbody

/-- A program draws the literals of its fields and of its methods. -/
theorem program_draws :
    Draws tokens (fun program ↦ Copied tokens program.literals) (program stop) := by
  refine (Draws.following "LET" (binding_draws hwell stop)).many.bind fun fields hfields ↦
    (Draws.following "DEF" (method_draws hwell stop)).many.bind fun methods hmethods ↦
    Draws.atEnd.bind fun ended _ ↦ ?_
  have hprogram : Copied tokens (Program.literals { fields, methods }) :=
    .append (.flatMap hfields) (.flatMap hmethods)
  cases ended with
  | true => exact .pure hprogram
  | false =>
    have hexpected : Draws tokens (fun _ ↦ True)
        (expected stop "'DEF' or end of input" : Reader Unit) := .expected stop _
    exact hexpected.bind fun _ _ ↦ .pure hprogram

/-- Each request draws literals of the tokens only, whichever reader it asks for. -/
theorem Request.reader_draws (request : Request) :
    Draws tokens (fun answer ↦ Copied tokens answer.literals) (request.reader stop) := by
  cases request with
  | expression => exact (expression_draws hwell stop).map fun _ hliterals ↦ hliterals
  | program => exact (program_draws hwell stop).map fun _ hliterals ↦ hliterals

/-- All that is read in answer to requests is copied from the tokens. -/
theorem answersFrom_draws (requests : List Request) {rest : List Token} (hrest : rest <:+ tokens) :
    ∀ result ∈ answersFrom stop requests rest,
      (∀ answer, result = .ok answer → Copied tokens answer.literals) ∧
        ∀ text offset, result ≠ .error (.invalidLiteral text offset) := by
  induction requests generalizing rest with
  | nil => exact nofun
  | cons request requests ih =>
    have hread := request.reader_draws hwell stop rest hrest
    rw [answersFrom]
    split
    · rename_i answer after hanswer
      rw [hanswer] at hread
      refine List.forall_mem_cons.mpr ⟨⟨?_, nofun⟩, ih hread.1⟩
      rintro _ ⟨⟩
      exact hread.2
    · rename_i cause after hcause
      rw [hcause] at hread
      refine List.forall_mem_cons.mpr ⟨⟨nofun, fun text offset heq ↦ ?_⟩, ih hread.1⟩
      exact hread.2 text offset (Except.error.inj heq)

end

/-- Whatever is read from a scanned text, no literal is malformed, and each literal in a tree has
the only value of the only token at its place. -/
theorem answers_literals {text : String} {tokens : List Token} (hscan : scan text = .ok tokens)
    (requests : List Request) :
    (∀ literal offset, .error (.invalidLiteral literal offset) ∉ answers requests tokens) ∧
      ∀ answer, .ok answer ∈ answers requests tokens →
        ∀ offset value, (offset, value) ∈ answer.literals → ∃ token ∈ tokens,
          token.offset = offset ∧ (∀ other ∈ tokens, other.offset = offset → other = token) ∧
          ∀ denoted, token.Denotes denoted ↔ denoted = value := by
  have hdraw := answersFrom_draws (scan_wellFormed hscan) (endOfTokens tokens) requests
    List.suffix_rfl
  refine ⟨fun literal offset hmem ↦ (hdraw _ hmem).2 literal offset rfl,
    fun answer hmem offset value hvalue ↦ ?_⟩
  obtain ⟨token, htoken, rfl, hdenotes⟩ := (hdraw _ hmem).1 answer rfl _ hvalue
  refine ⟨token, htoken, rfl, fun other hother hoffset ↦ ?_, fun denoted ↦ ⟨?_, ?_⟩⟩
  · exact (Scan.tokensFrom_cut hscan).eq_of_offset_eq hother htoken hoffset
  · exact fun hdenoted ↦ hdenoted.eq hdenotes
  · rintro rfl
    exact hdenotes

/-- The second request fails and consumes a token; the third goes on behind it. -/
theorem answers_literals_behind_error : ∃ tokens,
    scan "f(-1, '\\t') ) 2.50" = .ok tokens ∧
    (answers [.expression, .expression, .expression] tokens).map
      (fun result ↦ result.toOption.map Answer.literals) =
        [some [(2, .integer (-1)), (6, .character '\t')], none, some [(14, .decimal ⟨250, 2⟩)]] ∧
    ∀ literal offset, .error (.invalidLiteral literal offset) ∉
      answers [.expression, .expression, .expression] tokens := by
  have hscan : scan "f(-1, '\\t') ) 2.50" = .ok [⟨.identifier, "f", 0⟩, ⟨.operator, "(", 1⟩,
      ⟨.integer, "-1", 2⟩, ⟨.operator, ",", 4⟩, ⟨.character, "'\\t'", 6⟩, ⟨.operator, ")", 10⟩,
      ⟨.operator, ")", 12⟩, ⟨.decimal, "2.50", 14⟩] := by cbv
  exact ⟨_, hscan, by cbv, (answers_literals hscan _).1⟩

end Reader

end ScriptLang
