import ScriptLang.Program.Erasure
import ScriptLang.Program.OfTokens
import ScriptLang.Proofs.Stateful

/-!
Reading does not look at positions. Where all tokens are moved, and the end of the tokens with them,
a reader consumes the same words and gives the same tree with its positions moved, or the same error
at the position it is moved to.
-/

set_option autoImplicit false
set_option relaxedAutoImplicit false

namespace ScriptLang

variable (move : Nat → Nat)

def Token.relocate (token : Token) : Token := { token with offset := move token.offset }

def ParseError.relocate : ParseError → ParseError
  | expectedToken expected found offset => expectedToken expected found (move offset)
  | unexpectedEnd expected offset => unexpectedEnd expected (move offset)
  | expectedExpression found offset => expectedExpression found (move offset)
  | trailingComma offset => trailingComma (move offset)
  | invalidLiteral text offset => invalidLiteral text (move offset)

def Suffix.relocate (suffix : Suffix) : Suffix :=
  ⟨move suffix.offset, suffix.name, suffix.args.map (relocateArgs move)⟩

def Operation.relocate (operation : Operation) : Operation :=
  ⟨move operation.offset, operation.op, operation.right.relocate move⟩

/-- Arguments are moved one by one. -/
theorem relocateArgs_eq_map (args : List Expr) :
    relocateArgs move args = args.map (Expr.relocate move) := by
  induction args with
  | nil => rfl
  | cons head tail ih => rw [relocateArgs, ih, List.map_cons]

/-- Statements are moved one by one. -/
theorem relocateAll_eq_map (statements : List Stmt) :
    relocateAll move statements = statements.map (Stmt.relocate move) := by
  induction statements with
  | nil => rfl
  | cons head tail ih => rw [relocateAll, ih, List.map_cons]

/-- What is attached by a dot may be moved before or after it is attached. -/
theorem Suffix.apply_relocate (receiver : Expr) (suffix : Suffix) :
    Suffix.apply (receiver.relocate move) (suffix.relocate move) =
      (Suffix.apply receiver suffix).relocate move := by
  obtain ⟨offset, name, args⟩ := suffix
  cases args <;> rfl

/-- An operator with its right operand may be moved before or after it is attached. -/
theorem Operation.apply_relocate (left : Expr) (operation : Operation) :
    Operation.apply (left.relocate move) (operation.relocate move) =
      (Operation.apply left operation).relocate move := rfl

namespace Reader

variable {α β γ δ : Type}

/-- On moved tokens `second` reads what `first` reads, changed by `change`, or it fails with the
error of `first`, moved. -/
def Relocates (change : α → β) (first : Reader α) (second : Reader β) : Prop :=
  ∀ tokens, second (tokens.map (Token.relocate move)) =
    match first tokens with
    | .ok value rest => .ok (change value) (rest.map (Token.relocate move))
    | .error cause rest => .error (cause.relocate move) (rest.map (Token.relocate move))

namespace Relocates

variable {move} {change : α → β} {change' : γ → δ} {first : Reader α} {second : Reader β}

theorem pure (value : α) : Relocates move change (pure value) (Pure.pure (change value)) :=
  fun _ ↦ rfl

theorem throw (cause : ParseError) :
    Relocates move change (throw cause) (MonadExcept.throw (cause.relocate move)) := fun _ ↦ rfl

/-- Nothing is read behind an error. -/
theorem throw_bind (cause : ParseError) (next : α → Reader γ) (next' : β → Reader δ) :
    Relocates move change' (MonadExcept.throw cause >>= next)
      (MonadExcept.throw (cause.relocate move) >>= next') := fun _ ↦ rfl

/-- Readers may be put one after another: the second is given what the first reads, changed. -/
theorem bind {next : α → Reader γ} {next' : β → Reader δ} (h : Relocates move change first second)
    (hnext : ∀ value, Relocates move change' (next value) (next' (change value))) :
    Relocates move change' (first >>= next) (second >>= next') := by
  intro tokens
  have hsecond := h tokens
  cases hfirst : first tokens with
  | ok value rest =>
    rw [hfirst] at hsecond
    rw [Stateful.bind_of_ok hfirst, Stateful.bind_of_ok hsecond]
    exact hnext value rest
  | error cause rest =>
    rw [hfirst] at hsecond
    rw [Stateful.bind_of_error hfirst, Stateful.bind_of_error hsecond]

/-- What is read is put to use by functions that agree up to the move. -/
theorem map {use : α → γ} {use' : β → δ} (h : Relocates move change first second)
    (huse : ∀ value, use' (change value) = change' (use value)) :
    Relocates move change' (use <$> first) (use' <$> second) := by
  rw [Stateful.map_eq, Stateful.map_eq]
  refine h.bind fun value ↦ ?_
  rw [huse]
  exact .pure (use value)

/-- Whether a word is next does not depend on positions. -/
theorem accept (text : String) : Relocates move id (accept text) (accept text) := by
  intro tokens
  cases tokens with
  | nil => rfl
  | cons token tokens =>
    have hword : (token.relocate move).isWord text = token.isWord text := rfl
    rw [List.map_cons, Reader.accept, Reader.accept, hword]
    split <;> rfl

theorem nextIsAny (texts : List String) :
    Relocates move id (nextIsAny texts) (nextIsAny texts) := by
  intro tokens
  cases tokens <;> rfl

theorem atEnd : Relocates move id atEnd atEnd := by
  intro tokens
  cases tokens <;> rfl

/-- The position of the next token is moved, and that of the end as well. -/
theorem position (stop : Nat) : Relocates move move (position stop) (position (move stop)) := by
  intro tokens
  cases tokens <;> rfl

/-- A missing token is reported at the position that it is moved to. -/
theorem expected (stop : Nat) (what : String) :
    Relocates move change (expected stop what) (expected (move stop) what) := by
  intro tokens
  cases tokens <;> rfl

/-- A required word is read at any position. -/
theorem expectWord (stop : Nat) (text : String) :
    Relocates move id (expectWord stop text) (expectWord (move stop) text) := by
  refine (accept text).bind fun found ↦ ?_
  cases found with
  | true => exact .pure ()
  | false => exact .expected stop _

/-- A required name is read at any position. -/
theorem name (stop : Nat) : Relocates move id (name stop) (name (move stop)) := by
  intro tokens
  cases tokens with
  | nil => rfl
  | cons token tokens =>
    have hname : (token.relocate move).isName = token.isName := rfl
    rw [List.map_cons, Reader.name, Reader.name, hname]
    split <;> rfl

/-- The way that is chosen by a word does not depend on positions. -/
theorem accept_then (text : String) {other : Reader α} {other' : Reader β}
    (h : Relocates move change first second) (hother : Relocates move change other other') :
    Relocates move change (Reader.accept text >>= fun found ↦ if found = true then first else other)
      (Reader.accept text >>= fun found ↦ if found = true then second else other') := by
  refine (accept text).bind fun found ↦ ?_
  cases found with
  | true => exact h
  | false => exact hother

theorem following (text : String) (h : Relocates move change first second) :
    Relocates move (Option.map change) (following text first) (following text second) :=
  .accept_then text (h.map fun _ ↦ rfl) (.pure none)

section

variable {item : Reader (Option α)} {item' : Reader (Option β)}

/-- A repetition reads as many items on moved tokens. The induction is on the bound. -/
theorem manyWithin (h : Relocates move (Option.map change) item item') (bound : List Token) :
    Relocates move (List.map change) (manyWithin item bound)
      (Reader.manyWithin item' (bound.map (Token.relocate move))) := by
  induction bound with
  | nil => exact .pure []
  | cons _ bound ih =>
    refine h.bind fun found ↦ ?_
    cases found with
    | none => exact .pure []
    | some head => exact ih.bind fun tail ↦ .pure (head :: tail)

theorem many (h : Relocates move (Option.map change) item item') :
    Relocates move (List.map change) (many item) (Reader.many item') :=
  fun tokens ↦ h.manyWithin tokens tokens

end

end Relocates

/-! ### Expressions -/

section

variable {move} (stop : Nat) {first second : Reader Expr}
  (h : Relocates move (Expr.relocate move) first second)
include h

/-- A tier of operators attaches moved operands at moved positions. -/
theorem level_relocates (ops : List BinaryOp) :
    Relocates move (Expr.relocate move) (level ops first) (level ops second) := by
  have hoperator : Relocates move (Option.map (Prod.map id move)) (acceptOperator ops)
      (acceptOperator ops) := by
    intro tokens
    cases tokens with
    | nil => rfl
    | cons token tokens =>
      have hword : (token.relocate move).isWord = token.isWord := rfl
      rw [List.map_cons, acceptOperator, acceptOperator, hword]
      split <;> rfl
  have hoperation : Relocates move (Option.map (Operation.relocate move)) (operation ops first)
      (operation ops second) := by
    refine hoperator.bind fun found ↦ ?_
    cases found with
    | none => exact .pure none
    | some found => exact h.bind fun right ↦ .pure (some (Operation.mk found.2 found.1 right))
  have hfold (operations : List Operation) (left : Expr) :
      (operations.map (Operation.relocate move)).foldl Operation.apply (left.relocate move) =
        (operations.foldl Operation.apply left).relocate move := by
    rw [List.foldl_map]
    exact List.foldl_hom (Expr.relocate move) fun left operation ↦
      Operation.apply_relocate move left operation
  refine h.bind fun left ↦ hoperation.many.bind fun operations ↦ ?_
  rw [hfold]
  exact .pure _

/-- Arguments are read at moved positions. -/
theorem arguments_relocates :
    Relocates move (relocateArgs move) (arguments stop first) (arguments (move stop) second) := by
  have hnext : Relocates move (Option.map (Expr.relocate move)) (nextArgument stop first)
      (nextArgument (move stop) second) := by
    refine (Relocates.position stop).bind fun comma ↦ (Relocates.accept ",").bind fun found ↦ ?_
    cases found with
    | false => exact .pure none
    | true =>
      refine (Relocates.nextIsAny _).bind fun trailing ↦ ?_
      cases trailing with
      | true => exact .throw_bind (.trailingComma comma) _ _
      | false => exact h.map fun _ ↦ rfl
  refine (Relocates.accept ")").bind fun closed ↦ ?_
  cases closed with
  | true => exact .pure []
  | false =>
    refine h.bind fun head ↦ hnext.many.bind fun others ↦ (Relocates.accept ")").bind fun ended ↦ ?_
    rw [← List.map_cons, ← relocateArgs_eq_map]
    cases ended with
    | true => exact .pure (head :: others)
    | false =>
      have hexpected : Relocates move id (expected stop "',' or ')'" : Reader Unit)
        (expected (move stop) "',' or ')'") := .expected stop _
      exact hexpected.bind fun _ ↦ .pure (head :: others)

/-- A member or a call of a method is read at moved positions. -/
theorem suffix_relocates :
    Relocates move (Option.map (Suffix.relocate move)) (suffix stop first)
      (suffix (move stop) second) := by
  refine .following "." ((Relocates.position stop).bind fun offset ↦
    (Relocates.name stop).bind fun name ↦ ?_)
  refine (Relocates.following "(" (arguments_relocates stop h)).bind fun args ↦ ?_
  exact .pure (Suffix.mk offset name args)

/-- An operand is read at moved positions once its first token is known. -/
theorem operandFrom_relocates (token : Token) :
    Relocates move (Expr.relocate move) (operandFrom stop first token)
      (operandFrom (move stop) second (token.relocate move)) := by
  obtain ⟨kind, text, offset⟩ := token
  change Relocates move _ _ (operandFrom (move stop) second ⟨kind, text, move offset⟩)
  have hliteral (value : Literal) : Relocates move (Expr.relocate move)
      (pure (.literal ⟨offset, none⟩ value)) (pure (.literal ⟨move offset, none⟩ value)) :=
    .pure (Expr.literal ⟨offset, none⟩ value)
  unfold operandFrom
  cases kind with
  | identifier =>
    cases Literal.ofKeyword? text with
    | some value => exact hliteral value
    | none =>
      by_cases hkeyword : keywords.contains text = true
      · simp only [if_pos hkeyword]
        exact .throw_bind (.expectedExpression text offset) _ _
      · simp only [if_neg hkeyword]
        refine (Relocates.following "(" (arguments_relocates stop h)).bind fun args ↦ ?_
        cases args with
        | some args => exact .pure (Expr.call ⟨offset, none⟩ text args none)
        | none => exact .pure (Expr.access ⟨offset, none⟩ text none)
  | operator =>
    have hspells : (Token.mk .operator text (move offset)).spells "(" =
      (Token.mk .operator text offset).spells "(" := rfl
    rw [hspells]
    by_cases hopen : (Token.mk .operator text offset).spells "(" = true
    · simp only [if_pos hopen]
      refine h.bind fun inner ↦ (Relocates.expectWord stop ")").bind fun _ ↦ ?_
      exact .pure (Expr.group ⟨offset, none⟩ inner)
    · simp only [if_neg hopen]
      exact .throw_bind (.expectedExpression text offset) _ _
  | integer | decimal | character | string =>
    have hvalue (kind : TokenKind) : Literal.ofToken? ⟨kind, text, move offset⟩ =
      Literal.ofToken? ⟨kind, text, offset⟩ := rfl
    simp only [hvalue]
    cases Literal.ofToken? _ with
    | some value => exact hliteral value
    | none => exact .throw (.invalidLiteral text offset)

/-- An operand begins with a moved token, of the same kind and text. -/
theorem operand_relocates :
    Relocates move (Expr.relocate move) (operand stop first) (operand (move stop) second) := by
  intro tokens
  cases tokens with
  | nil => rfl
  | cons token tokens => exact operandFrom_relocates stop h token tokens

theorem suffixed_relocates :
    Relocates move (Expr.relocate move) (suffixed stop first) (suffixed (move stop) second) := by
  have hfold (suffixes : List Suffix) (receiver : Expr) :
      (suffixes.map (Suffix.relocate move)).foldl Suffix.apply (receiver.relocate move) =
        (suffixes.foldl Suffix.apply receiver).relocate move := by
    rw [List.foldl_map]
    exact List.foldl_hom (Expr.relocate move) fun receiver suffix ↦
      Suffix.apply_relocate move receiver suffix
  refine (operand_relocates stop h).bind fun receiver ↦
    (suffix_relocates stop h).many.bind fun suffixes ↦ ?_
  rw [hfold]
  exact .pure _

theorem levels_relocates :
    Relocates move (Expr.relocate move) (levels stop first) (levels (move stop) second) :=
  level_relocates (level_relocates (level_relocates (level_relocates (suffixed_relocates stop h)
    _) _) _) _

end

section

variable {move} (stop : Nat)

/-- An expression is read from moved tokens as the moved expression. The induction is on the bound
of nesting. -/
theorem expression_relocates :
    Relocates move (Expr.relocate move) (expression stop) (expression (move stop)) := by
  have hbound (bound : List Token) : Relocates move (Expr.relocate move)
      (expressionWithin stop bound)
      (expressionWithin (move stop) (bound.map (Token.relocate move))) := by
    induction bound with
    | nil => exact .expected stop _
    | cons _ bound ih => exact levels_relocates stop ih
  exact fun tokens ↦ hbound tokens tokens

/-! ### Statements and programs -/

/-- A declaration is read from moved tokens as the moved declaration. -/
theorem binding_relocates :
    Relocates move (Binding.relocate move) (binding stop) (binding (move stop)) := by
  refine (Relocates.position stop).bind fun offset ↦ (Relocates.name stop).bind fun name ↦
    (Relocates.following ":" (Relocates.name stop)).bind fun typeName ↦
    (Relocates.following "=" (expression_relocates stop)).bind fun value ↦
    (Relocates.expectWord stop ";").bind fun _ ↦ ?_
  rw [Option.map_id]
  exact .pure (Binding.mk name typeName value offset none)

/-- A call or an assignment is read from moved tokens as the moved one. -/
theorem expressionStatement_relocates :
    Relocates move (Stmt.relocate move) (expressionStatement stop)
      (expressionStatement (move stop)) := by
  refine (expression_relocates stop).bind fun target ↦
    (Relocates.following "=" (expression_relocates stop)).bind fun value ↦
    (Relocates.expectWord stop ";").bind fun _ ↦ ?_
  cases value with
  | some value => exact .pure (Stmt.assign target value)
  | none => exact .pure (Stmt.expr target)

theorem ret_relocates : Relocates move (Stmt.relocate move) (ret stop) (ret (move stop)) :=
  (expression_relocates stop).bind fun value ↦ (Relocates.expectWord stop ";").bind fun _ ↦
    .pure (Stmt.ret value)

section

variable {first second : Reader Stmt} (h : Relocates move (Stmt.relocate move) first second)
include h

/-- A block is read from moved tokens as the moved statements. -/
theorem block_relocates (closers : List String) :
    Relocates move (relocateAll move) (block first closers) (block second closers) := by
  have hitem : Relocates move (List.map (Stmt.relocate move)) (block first closers)
      (block second closers) := by
    refine .many (Relocates.atEnd.bind fun ended ↦ ?_)
    cases ended with
    | true => exact .pure none
    | false =>
      refine (Relocates.nextIsAny closers).bind fun closed ↦ ?_
      cases closed with
      | true => exact .pure none
      | false => exact h.map fun _ ↦ rfl
  rwa [← funext (relocateAll_eq_map move)] at hitem

theorem body_relocates :
    Relocates move (relocateAll move) (body stop first) (body (move stop) second) :=
  (Relocates.expectWord stop "DO").bind fun _ ↦ (block_relocates h ["END"]).bind fun body ↦
    (Relocates.expectWord stop "END").bind fun _ ↦ .pure body

/-- A conditional is read from moved tokens as the moved one. -/
theorem branch_relocates :
    Relocates move (Stmt.relocate move) (branch stop first) (branch (move stop) second) := by
  refine (expression_relocates stop).bind fun condition ↦
    (Relocates.expectWord stop "DO").bind fun _ ↦
    (block_relocates h ["ELSE", "END"]).bind fun thenBody ↦
    (Relocates.following "ELSE" (block_relocates h ["END"])).bind fun elseBody ↦
    (Relocates.expectWord stop "END").bind fun _ ↦ ?_
  cases elseBody with
  | some elseBody => exact .pure (Stmt.branch condition thenBody elseBody)
  | none => exact .pure (Stmt.branch condition thenBody [])

theorem forEach_relocates :
    Relocates move (Stmt.relocate move) (forEach stop first) (forEach (move stop) second) :=
  (Relocates.position stop).bind fun offset ↦ (Relocates.name stop).bind fun name ↦
    (Relocates.expectWord stop "IN").bind fun _ ↦ (expression_relocates stop).bind fun iterable ↦
      (body_relocates stop h).bind fun body ↦ .pure (Stmt.forEach offset name iterable body)

theorem loop_relocates :
    Relocates move (Stmt.relocate move) (loop stop first) (loop (move stop) second) :=
  (expression_relocates stop).bind fun condition ↦
    (body_relocates stop h).bind fun body ↦ .pure (Stmt.loop condition body)

/-- The rule for a statement is chosen by its first word, wherever it stands. -/
theorem nested_relocates :
    Relocates move (Stmt.relocate move) (nested stop first) (nested (move stop) second) := by
  refine .accept_then "LET" ((binding_relocates stop).bind fun binding ↦
    .pure (Stmt.declare binding)) ?_
  refine .accept_then "IF" (branch_relocates stop h) ?_
  refine .accept_then "FOR" (forEach_relocates stop h) ?_
  refine .accept_then "WHILE" (loop_relocates stop h) ?_
  exact .accept_then "RETURN" (ret_relocates stop) (expressionStatement_relocates stop)

end

/-- A statement is read from moved tokens as the moved statement. The induction is on the bound of
nesting. -/
theorem statement_relocates :
    Relocates move (Stmt.relocate move) (statement stop) (statement (move stop)) := by
  have hbound (bound : List Token) : Relocates move (Stmt.relocate move)
      (statementWithin stop bound)
      (statementWithin (move stop) (bound.map (Token.relocate move))) := by
    induction bound with
    | nil => exact .expected stop _
    | cons _ bound ih => exact nested_relocates stop ih
  exact fun tokens ↦ hbound tokens tokens

/-- Parameters have no positions. -/
theorem parameters_relocates :
    Relocates move id (parameters stop) (parameters (move stop)) := by
  have hparameter : Relocates move id (parameter stop) (parameter (move stop)) :=
    (Relocates.name stop).bind fun param ↦ (Relocates.expectWord stop ":").bind fun _ ↦
      (Relocates.name stop).bind fun type ↦ .pure (param, type)
  have hothers := (Relocates.following "," hparameter).many
  rw [List.map_id_fun] at hothers
  refine .accept_then ")" (.pure []) (hparameter.bind fun head ↦ hothers.bind fun others ↦ ?_)
  exact (Relocates.expectWord stop ")").bind fun _ ↦ .pure (head :: others)

/-- A method is read from moved tokens as the moved method. -/
theorem method_relocates :
    Relocates move (Method.relocate move) (method stop) (method (move stop)) := by
  refine (Relocates.position stop).bind fun offset ↦ (Relocates.name stop).bind fun name ↦
    (Relocates.expectWord stop "(").bind fun _ ↦ (parameters_relocates stop).bind fun params ↦
    (Relocates.following ":" (Relocates.name stop)).bind fun returnType ↦
    (body_relocates stop (statement_relocates stop)).bind fun body ↦ ?_
  rw [Option.map_id]
  exact .pure
    (Method.mk name (params.map Prod.fst) (params.map Prod.snd) returnType body offset none)

/-- A program is read from moved tokens as the moved program, or it fails at the moved position. -/
theorem program_relocates :
    Relocates move (Program.relocate move) (program stop) (program (move stop)) := by
  refine (Relocates.following "LET" (binding_relocates stop)).many.bind fun fields ↦
    (Relocates.following "DEF" (method_relocates stop)).many.bind fun methods ↦
    Relocates.atEnd.bind fun ended ↦ ?_
  cases ended with
  | true => exact .pure (Program.mk fields methods)
  | false =>
    have hexpected : Relocates move id (expected stop "'DEF' or end of input" : Reader Unit)
      (expected (move stop) "'DEF' or end of input") := .expected stop _
    exact hexpected.bind fun _ ↦ .pure (Program.mk fields methods)

end

end Reader

end ScriptLang
