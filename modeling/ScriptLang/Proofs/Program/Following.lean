import ScriptLang.Proofs.Program.Cursor
import ScriptLang.Proofs.Program.Phrases

/-!
Each part of the grammar as a cursor reads it, from operators up to whole programs. With more fuel
than there are tokens left it follows the reader of that part, and expressions and statements
consume a token.
-/

set_option autoImplicit false
set_option relaxedAutoImplicit false

namespace ScriptLang

/-- A change of what stands behind a word may be made before or after it is known whether the word
is next. -/
theorem Reader.map_following {α β : Type} (change : α → β) (text : String) (reader : Reader α) :
    Option.map change <$> following text reader = following text (change <$> reader) := by
  unfold following
  rw [map_bind]
  refine congrArg _ (funext fun found ↦ ?_)
  cases found with
  | true => simp only [if_true, Functor.map_map, Option.map_some]
  | false => simp only [Bool.false_eq_true, if_false, map_pure, Option.map_none]

/-- A token is one word at most. -/
theorem Token.isWord_of_isWord {token : Token} {text other : String} (h : token.isWord text = true)
    (hne : text ≠ other) : token.isWord other = false := by
  have htext : token.text = text := eq_of_beq (Bool.and_eq_true_iff.mp h).2
  unfold isWord spells
  rw [htext, beq_eq_false_iff_ne.mpr hne, Bool.and_false]

namespace Cursor

variable {α β : Type} {size : Nat}

/-! ### Operators -/

section

variable {tokens : List Token} {start : Nat} {ops : List BinaryOp}

/-- An operator that a level takes is known. -/
theorem operator_of_find {token : Token} {op : BinaryOp} (h : tokens[start]? = some token)
    (hfind : (ops.find? fun op ↦ token.isWord op.lexeme) = some op) :
    operator (ops.map BinaryOp.lexeme) tokens start =
      .ok (some (op, token.offset)) (start + 1) := by
  have hword := List.find?_some hfind
  have hany : (tokens[start]?.any fun token ↦
      (ops.map BinaryOp.lexeme).any token.isWord) = true := by
    rw [h, Option.any_some, List.any_map]
    exact List.any_eq_true.mpr ⟨op, List.mem_of_find?_eq_some hfind, hword⟩
  have htext : token.text = op.lexeme := eq_of_beq (Bool.and_eq_true_iff.mp hword).2
  have hknown : BinaryOp.ofLexeme? token.text = some op := htext ▸ BinaryOp.ofLexeme?_lexeme op
  refine (bind_of_ok (matchNext_of_true hany)).trans ((bind_of_ok (previous_apply h)).trans ?_)
  rw [hknown]
  rfl

/-- Without an operator of the tier nothing is consumed. -/
theorem operator_of_none (h : (tokens[start]?.any fun token ↦
    (ops.map BinaryOp.lexeme).any token.isWord) = false) :
    operator (ops.map BinaryOp.lexeme) tokens start = .ok none start :=
  bind_of_ok (matchNext_of_false h)

end

/-- The next token is an operator of the tier, and the first that it spells is found, or it is
none. -/
theorem operator_cases (tokens : List Token) (start : Nat) (ops : List BinaryOp) :
    (∃ token op, tokens[start]? = some token ∧
      (ops.find? fun op ↦ token.isWord op.lexeme) = some op ∧
      tokens.drop start = token :: tokens.drop (start + 1) ∧ start < tokens.length) ∨
      (tokens[start]?.any fun token ↦ (ops.map BinaryOp.lexeme).any token.isWord) = false ∧
        Reader.acceptOperator ops (tokens.drop start) = .ok none (tokens.drop start) := by
  obtain ⟨hnone, hdrop, -⟩ | ⟨token, hsome, hdrop, hlt⟩ := next_cases tokens start
  · exact .inr ⟨hnone ▸ rfl, hdrop ▸ rfl⟩
  · cases hfind : ops.find? fun op ↦ token.isWord op.lexeme with
    | some op => exact .inl ⟨token, op, hsome, hfind, hdrop, hlt⟩
    | none =>
      refine .inr ⟨?_, ?_⟩
      · rw [hsome, Option.any_some, List.any_map]
        exact List.any_eq_false.mpr (List.find?_eq_none.mp hfind)
      · rw [hdrop, Reader.acceptOperator_cons, hfind]

/-- An operator is read alike, with its position. -/
theorem operator_follows (ops : List BinaryOp) :
    Follows size (operator (ops.map BinaryOp.lexeme)) fun _ ↦ Reader.acceptOperator ops := by
  refine ⟨fun tokens start hsize ↦ ?_, fun tokens start value stop hrun ↦ ?_⟩
  · obtain ⟨token, op, hsome, hfind, hdrop, hlt⟩ | ⟨hnone, hread⟩ := operator_cases tokens start ops
    · rw [operator_of_find hsome hfind, hdrop, Reader.acceptOperator_cons, hfind]
      exact .ok rfl (Nat.le_succ _) (by omega)
    · rw [operator_of_none hnone, hread]
      exact .ok rfl (Nat.le_refl _) (Nat.le_max_left _ _)
  · obtain ⟨token, op, hsome, hfind, -⟩ | ⟨hnone, -⟩ := operator_cases tokens start ops
    · rw [operator_of_find hsome hfind] at hrun
      cases hrun
      refine ⟨Nat.le_succ _, fun others hothers ↦ operator_of_find ?_ hfind⟩
      exact (hothers start (Nat.le_refl _) (Nat.le_succ _)).trans hsome
    · rw [operator_of_none hnone] at hrun
      cases hrun
      refine ⟨Nat.le_refl _, fun others hothers ↦ operator_of_none ?_⟩
      rw [hothers start (Nat.le_refl _) (Nat.le_refl _)]
      exact hnone

/-- An operator with its right operand is read alike and attached to what is on its left. -/
theorem operation_follows (ops : List BinaryOp) {next : Cursor Expr} {next' : Nat → Reader Expr}
    (h : Follows size next next') (left : Expr) :
    Follows size (operation (ops.map BinaryOp.lexeme) next left) fun stop ↦
      Option.map (Operation.apply left) <$> Reader.operation ops (next' stop) := by
  simp only [Reader.operation, map_bind]
  refine (operator_follows ops).bind fun found ↦ ?_
  cases found with
  | none => exact .pure none
  | some found =>
    simp only [map_bind, map_pure]
    exact h.bind fun right ↦ .pure _

/-- An operator that was found is consumed. -/
theorem operation_advances (ops : List BinaryOp) {next : Cursor Expr} (h : Near next)
    (left : Expr) : AdvancesIfSome (operation (ops.map BinaryOp.lexeme) next left) := by
  intro tokens start value stop hrun
  obtain ⟨found, middle, hfound, hlast⟩ := bind_eq_ok hrun
  obtain ⟨token, op, hsome, hfind, -⟩ | ⟨hnone, -⟩ := operator_cases tokens start ops
  · rw [operator_of_find hsome hfind] at hfound
    cases hfound
    have hnear : Near (next >>= fun right ↦ pure (some (Expr.binary ⟨token.offset, none⟩ op left
      right))) := h.bind fun right ↦ .pure _
    exact (hnear _ _ _ _ hlast).1
  · rw [operator_of_none hnone] at hfound
    cases hfound
    cases hlast

section

variable (ops : List BinaryOp) {next : Cursor Expr} {next' : Nat → Reader Expr}
  (h : Follows size next next')
include h

/-- A tier of operators is read alike: the loop carries the expression so far, where the reader
collects operations and attaches them in the end. -/
theorem level_follows {fuel : Nat} (hfuel : size ≤ fuel) :
    Follows size (binaryLevel fuel (ops.map BinaryOp.lexeme) next) fun stop ↦
      Reader.level ops (next' stop) :=
  h.bind fun first ↦ .repeatFrom (operation_follows ops h) (operation_advances ops h.near)
    (fun _ ↦ rfl) hfuel first

theorem level_advances (hadvances : Advances next) (fuel : Nat) :
    Advances (binaryLevel fuel (ops.map BinaryOp.lexeme) next) :=
  hadvances.bind fun first ↦ .repeatFrom (fun left ↦ (operation_follows ops h left).near) fuel first

end

/-! ### Arguments -/

section

variable {expression : Cursor Expr} {expression' : Nat → Reader Expr}

/-- What follows an argument: the closing parenthesis, or a comma and the next argument. -/
def argumentsBehind (expression : Cursor Expr) (fuel : Nat) (args : List Expr) :
    Cursor (List Expr) := do
  if ← matchNext [")"] then return args
  else if ← matchNext [","] then
    if ← nextIsAny [")"] then
      let comma ← previous
      fail (.trailingComma comma.offset)
    else argumentsFrom expression fuel args
  else expected "',' or ')'"

theorem argumentsFrom_succ (fuel : Nat) (args : List Expr) :
    argumentsFrom expression (fuel + 1) args =
      expression >>= fun arg ↦ argumentsBehind expression fuel (args ++ [arg]) := rfl

section

variable {tokens : List Token} {start fuel : Nat} {args : List Expr}

/-- A closing parenthesis ends the arguments. -/
theorem argumentsBehind_of_close
    (h : (tokens[start]?.any fun token ↦ token.isWord ")") = true) :
    argumentsBehind expression fuel args tokens start = .ok args (start + 1) :=
  bind_of_ok (matchNext_of_true (any_isWord ")" ▸ h))

/-- Neither the closing parenthesis nor a comma is next. -/
theorem argumentsBehind_of_other
    (hclose : (tokens[start]?.any fun token ↦ token.isWord ")") = false)
    (hcomma : (tokens[start]?.any fun token ↦ token.isWord ",") = false) :
    argumentsBehind expression fuel args tokens start = expected "',' or ')'" tokens start :=
  (bind_of_ok (matchNext_of_false (any_isWord ")" ▸ hclose))).trans
    (bind_of_ok (matchNext_of_false (any_isWord "," ▸ hcomma)))

section

variable {comma : Token} (h : tokens[start]? = some comma) (hcomma : comma.isWord "," = true)
include h hcomma

/-- Behind a comma there is a closing parenthesis, which is a fault, or a further argument. -/
theorem argumentsBehind_of_comma :
    argumentsBehind expression fuel args tokens start =
      (nextIsAny [")"] >>= fun closed ↦
        if closed = true then previous >>= fun comma ↦ fail (.trailingComma comma.offset)
        else argumentsFrom expression fuel args) tokens (start + 1) := by
  have hclose : (tokens[start]?.any fun token ↦ [")"].any token.isWord) = false := by
    rw [any_isWord, h]
    exact Token.isWord_of_isWord hcomma (by decide)
  have hfound : (tokens[start]?.any fun token ↦ [","].any token.isWord) = true := by
    rw [any_isWord, h]
    exact hcomma
  exact (bind_of_ok (matchNext_of_false hclose)).trans (bind_of_ok (matchNext_of_true hfound))

/-- A comma before the closing parenthesis is reported at the comma. -/
theorem argumentsBehind_of_trailing
    (hclosing : (tokens[start + 1]?.any fun token ↦ token.isWord ")") = true) :
    argumentsBehind expression fuel args tokens start =
      .error (.failed (.trailingComma comma.offset)) (start + 1) := by
  rw [argumentsBehind_of_comma h hcomma, bind_of_ok nextIsAny_apply, any_isWord, hclosing]
  exact bind_of_ok (previous_apply h)

/-- A comma before anything else leads to a further argument. -/
theorem argumentsBehind_of_next
    (hnext : (tokens[start + 1]?.any fun token ↦ token.isWord ")") = false) :
    argumentsBehind expression fuel args tokens start =
      argumentsFrom expression fuel args tokens (start + 1) := by
  rw [argumentsBehind_of_comma h hcomma, bind_of_ok nextIsAny_apply, any_isWord, hnext]
  rfl

end

end

/-- The closing parenthesis of a call, behind its arguments. -/
def closeArguments (stop : Nat) (args : List Expr) : Reader (List Expr) := do
  unless ← Reader.accept ")" do Reader.expected stop "',' or ')'"
  return args

theorem closeArguments_of_isWord {stop : Nat} {args : List Expr} {token : Token} {rest : List Token}
    (h : token.isWord ")" = true) : closeArguments stop args (token :: rest) = .ok args rest :=
  Stateful.bind_of_ok (Reader.accept_of_isWord h)

/-- Anything else behind the arguments is reported. -/
theorem closeArguments_of_head {stop : Nat} {args : List Expr} {rest : List Token}
    (h : ∀ token ∈ rest.head?, token.isWord ")" = false) :
    closeArguments stop args rest = Reader.expected stop "',' or ')'" rest := by
  cases rest with
  | nil => rfl
  | cons token rest =>
    exact (Stateful.bind_of_ok (Reader.accept_of_not_isWord (h token rfl))).trans rfl

/-- An argument behind a comma is the first of those that are left. -/
theorem manyWithin_bind_of_comma {stop : Nat} {reader : Reader Expr} {use : List Expr → Reader β}
    {comma token : Token} {bound rest : List Token} (hcomma : comma.isWord "," = true)
    (h : ∀ token ∈ rest.head?, token.isWord ")" = false) :
    (Reader.manyWithin (Reader.nextArgument stop reader) (token :: bound) >>= use)
        (comma :: rest) =
      (reader >>= fun arg ↦ Reader.manyWithin (Reader.nextArgument stop reader) bound >>=
        fun others ↦ use (arg :: others)) rest := by
  have hnext : Reader.nextArgument stop reader (comma :: rest) = (some <$> reader) rest :=
    Reader.nextArgument_of_comma hcomma h
  rw [Stateful.map_eq] at hnext
  cases hread : reader rest with
  | ok arg left =>
    rw [manyWithin_bind_of_some (hnext.trans (Stateful.bind_of_ok hread)),
      Stateful.bind_of_ok hread]
  | error cause left =>
    have hmany : Reader.manyWithin (Reader.nextArgument stop reader) (token :: bound)
        (comma :: rest) = .error cause left :=
      Stateful.bind_of_error (hnext.trans (Stateful.bind_of_error hread))
    rw [Stateful.bind_of_error hmany, Stateful.bind_of_error hread]

section

variable {tokens : List Token} {start : Nat} {bound : List Token}

/-- What follows an argument is read alike, if what follows a comma is. -/
theorem argumentsBehind_ends (fuel : Nat) (args : List Expr) {reader : Reader Expr}
    (hbound : tokens.length - start ≤ bound.length)
    (hnext : start < tokens.length → ∀ token shorter, bound = token :: shorter →
      Matches tokens (start + 1) (argumentsFrom expression fuel args tokens (start + 1))
        ((reader >>= fun arg ↦
          Reader.manyWithin (Reader.nextArgument (endOfTokens tokens) reader) shorter >>=
            fun others ↦ closeArguments (endOfTokens tokens) (args ++ arg :: others))
          (tokens.drop (start + 1)))) :
    Matches tokens start (argumentsBehind expression fuel args tokens start)
      ((Reader.manyWithin (Reader.nextArgument (endOfTokens tokens) reader) bound >>=
        fun others ↦ closeArguments (endOfTokens tokens) (args ++ others))
        (tokens.drop start)) := by
  -- Without a comma there are no more arguments.
  have hlast (h : ∀ token ∈ (tokens.drop start).head?, token.isWord "," = false) :
      (Reader.manyWithin (Reader.nextArgument (endOfTokens tokens) reader) bound >>= fun others ↦
        closeArguments (endOfTokens tokens) (args ++ others)) (tokens.drop start) =
        closeArguments (endOfTokens tokens) args (tokens.drop start) := by
    have hread : Reader.nextArgument (endOfTokens tokens) reader (tokens.drop start) =
      .ok none (tokens.drop start) := Reader.nextArgument_of_not_isWord h
    rw [Stateful.bind_of_ok (Reader.manyWithin_of_none hread), List.append_nil]
  obtain ⟨hclose, token, -, hword, hdrop, hlt⟩ | ⟨hclose, hhead⟩ :=
    found_cases tokens start fun token ↦ token.isWord ")"
  · have hother : token.isWord "," = false := Token.isWord_of_isWord hword (by decide)
    rw [argumentsBehind_of_close hclose, hlast, hdrop, closeArguments_of_isWord hword]
    · exact .ok rfl (Nat.le_succ _) (by omega)
    · rw [hdrop]
      rintro _ ⟨⟩
      exact hother
  · obtain ⟨-, comma, hsome, hcomma, hdrop, hlt⟩ | ⟨hcomma, hhead'⟩ :=
      found_cases tokens start fun token ↦ token.isWord ","
    · cases bound with
      | nil =>
        rw [List.length_nil] at hbound
        omega
      | cons token shorter =>
        obtain ⟨hclosing, closing, -, hword, hdrop', hlt'⟩ | ⟨hopen, hhead⟩ :=
          found_cases tokens (start + 1) fun token ↦ token.isWord ")"
        · have hread : Reader.nextArgument (endOfTokens tokens) reader (tokens.drop start) =
              .error (.trailingComma comma.offset) (tokens.drop (start + 1)) := by
            rw [hdrop, hdrop']
            exact Reader.nextArgument_of_trailing hcomma hword
          have hmany : Reader.manyWithin (Reader.nextArgument (endOfTokens tokens) reader)
              (token :: shorter) (tokens.drop start) =
            .error (.trailingComma comma.offset) (tokens.drop (start + 1)) :=
            Stateful.bind_of_error hread
          rw [argumentsBehind_of_trailing hsome hcomma hclosing, Stateful.bind_of_error hmany]
          exact .error rfl rfl (Nat.le_succ _) (by omega)
        · rw [argumentsBehind_of_next hsome hcomma hopen, hdrop,
            manyWithin_bind_of_comma hcomma hhead]
          exact (hnext hlt token shorter rfl).of_later (Nat.le_succ _) (by omega)
    · have hexpected : Follows (tokens.length - start + 1) (expected "',' or ')'" :
          Cursor (List Expr))
        fun stop ↦ Reader.expected stop "',' or ')'" := .expected (by decide)
      rw [argumentsBehind_of_other hclose hcomma, hlast hhead', closeArguments_of_head hhead]
      exact hexpected.ends tokens start (Nat.lt_succ_self _)

end

variable (h : Follows size expression expression')
include h

/-- Arguments come to the same end as a repetition behind commas with the closing parenthesis. The
induction is on the fuel. -/
theorem argumentsFrom_ends (tokens : List Token) (fuel : Nat) {start : Nat} {bound : List Token}
    (hsize : tokens.length - start < size) (hfuel : tokens.length - start < fuel)
    (hbound : tokens.length - start ≤ bound.length) (args : List Expr) :
    Matches tokens start (argumentsFrom expression fuel args tokens start)
      ((expression' (endOfTokens tokens) >>= fun arg ↦
        Reader.manyWithin
          (Reader.nextArgument (endOfTokens tokens) (expression' (endOfTokens tokens))) bound >>=
          fun others ↦ closeArguments (endOfTokens tokens) (args ++ arg :: others))
        (tokens.drop start)) := by
  induction fuel generalizing start bound args with
  | zero => exact (Nat.not_lt_zero _ hfuel).elim
  | succ fuel ih =>
    rw [argumentsFrom_succ]
    refine (h.ends tokens start hsize).bind fun arg middle hlow hhigh ↦ ?_
    have hargs : (fun others ↦ closeArguments (endOfTokens tokens) (args ++ arg :: others)) =
        fun others ↦ closeArguments (endOfTokens tokens) (args ++ [arg] ++ others) := by
      funext others
      rw [List.append_assoc]
      rfl
    rw [hargs]
    refine argumentsBehind_ends fuel (args ++ [arg]) (by omega) fun hlt token shorter hshorter ↦ ?_
    rw [hshorter, List.length_cons] at hbound
    exact ih (by omega) (by omega) (by omega) (args ++ [arg])

omit h in
/-- Arguments look one token ahead if expressions do. -/
theorem argumentsFrom_near (h : Near expression) (fuel : Nat) (args : List Expr) :
    Near (argumentsFrom expression fuel args) := by
  induction fuel generalizing args with
  | zero => exact .of_error nofun
  | succ fuel ih =>
    refine h.bind fun arg ↦ (Near.matchNext [")"]).bind fun closed ↦ ?_
    cases closed with
    | true => exact .pure _
    | false =>
      refine (Near.matchNext [","]).bind fun found ↦ ?_
      cases found with
      | false => exact .of_error (expected_ne_ok _)
      | true =>
        refine (Near.nextIsAny [")"]).bind fun trailing ↦ ?_
        cases trailing with
        | false => exact ih (args ++ [arg])
        | true =>
          refine .of_error fun tokens start value stop hrun ↦ ?_
          obtain ⟨comma, middle, -, hlast⟩ := bind_eq_ok hrun
          cases hlast

/-- Arguments are read alike with enough fuel for all tokens. -/
theorem arguments_follows {fuel : Nat} (hfuel : size ≤ fuel) :
    Follows size (arguments fuel expression) fun stop ↦
      Reader.arguments stop (expression' stop) := by
  refine (Follows.matchNext ")").bind fun closed ↦ ?_
  cases closed with
  | true => exact .pure []
  | false =>
    refine ⟨fun tokens start hsize ↦ ?_, argumentsFrom_near h.near fuel []⟩
    cases fuel with
    | zero => exact (Nat.not_lt_zero _ (Nat.lt_of_lt_of_le hsize hfuel)).elim
    | succ fuel =>
      refine (h.ends tokens start hsize).bind fun arg middle hlow hhigh ↦ ?_
      have hbound : tokens.length - middle ≤ (tokens.drop middle).length :=
        Nat.le_of_eq List.length_drop.symm
      refine argumentsBehind_ends fuel [arg] hbound fun hlt token shorter hshorter ↦ ?_
      rw [hshorter, List.length_cons] at hbound
      exact argumentsFrom_ends h tokens fuel (by omega) (by omega) (by omega) [arg]

end

/-- A part behind a word consumes that word. -/
theorem following_advances (text : String) {cursor : Cursor α} (h : Near cursor) :
    AdvancesIfSome (following text cursor) := by
  intro tokens start value stop hrun
  obtain ⟨found, middle, hfound, hlast⟩ := bind_eq_ok hrun
  cases found with
  | false => cases hlast
  | true => exact Nat.lt_of_lt_of_le (lt_of_matchNext hfound) (h.map some _ _ _ _ hlast).1

/-! ### Operands and levels -/

section

variable {expression : Cursor Expr} {expression' : Nat → Reader Expr}
  (h : Follows size expression expression')
include h

section

variable {fuel : Nat} (hfuel : size ≤ fuel)
include hfuel

/-- A member or a call of a method is read alike and attached to its receiver. -/
theorem suffix_follows (receiver : Expr) :
    Follows (size + 1) (suffix fuel expression receiver) fun stop ↦
      Option.map (Suffix.apply receiver) <$> Reader.suffix stop (expression' stop) := by
  simp only [Reader.suffix, Reader.map_following, map_bind, map_pure]
  refine .following (.offset_identifier fun offset name ↦ ?_)
  refine ((Follows.following (arguments_follows h hfuel)).mono (Nat.le_succ size)).bind
    fun args ↦ ?_
  cases args <;> exact .pure _

/-- An operand is read alike once its first token is known. -/
theorem operandFrom_follows (token : Token) :
    Follows size (operandFrom fuel expression token.offset token) fun stop ↦
      Reader.operandFrom stop (expression' stop) token := by
  unfold operandFrom Reader.operandFrom
  cases token.kind with
  | identifier =>
    dsimp only
    cases Literal.ofKeyword? token.text with
    | some value => exact .pure _
    | none =>
      dsimp only
      cases keywords.contains token.text with
      | true => exact .fail rfl
      | false =>
        refine ((Follows.following (arguments_follows h hfuel)).mono (Nat.le_succ size)).bind
          fun args ↦ ?_
        cases args <;> exact .pure _
  | operator =>
    dsimp only
    cases token.spells "(" with
    | true => exact h.bind fun inner ↦ .consume_then (.pure _)
    | false => exact .fail rfl
  | integer | decimal | character | string =>
    dsimp only
    cases Literal.ofToken? token with
    | some value => exact .pure _
    | none => exact .fail rfl

omit hfuel in
omit h in
/-- An operand consumes its first token before it looks at it. -/
theorem operand_of_some {tokens : List Token} {start : Nat} {token : Token}
    (hsome : tokens[start]? = some token) : operand fuel expression tokens start =
      operandFrom fuel expression token.offset token tokens (start + 1) := by
  have hadvance : advance tokens start = .ok (some token) (start + 1) := hsome ▸ rfl
  exact (bind_of_ok (offset_of_some hsome)).trans (bind_of_ok hadvance)

omit hfuel in
omit h in
/-- Where there is no token, the position is moved all the same. -/
theorem operand_of_none {tokens : List Token} {start : Nat} (hnone : tokens[start]? = none) :
    operand fuel expression tokens start =
      .error (.failed (.unexpectedEnd "an expression" (endOfTokens tokens))) (start + 1) := by
  have hadvance : advance tokens start = .ok none (start + 1) := hnone ▸ rfl
  exact (bind_of_ok (offset_of_none hnone)).trans ((bind_of_ok hadvance).trans rfl)

/-- An operand is read alike, also where none is left: then the cursor moves behind the end, where
nothing is left either. -/
theorem operand_follows : Follows (size + 1) (operand fuel expression) fun stop ↦
    Reader.operand stop (expression' stop) := by
  refine ⟨fun tokens start hsize ↦ ?_, fun tokens start value stop hrun ↦ ?_⟩
  · obtain ⟨hnone, hdrop, hle⟩ | ⟨token, hsome, hdrop, hlt⟩ := next_cases tokens start
    · have hstop : start + 1 = max start tokens.length + 1 := by omega
      rw [operand_of_none hnone, hdrop, hstop]
      exact .overrun rfl
    · rw [operand_of_some hsome, hdrop]
      exact ((operandFrom_follows h hfuel token).ends tokens (start + 1) (by omega)).of_later
        (Nat.le_succ _) (by omega)
  · cases hstart : tokens[start]? with
    | none =>
      rw [operand_of_none hstart] at hrun
      cases hrun
    | some token =>
      rw [operand_of_some hstart] at hrun
      obtain ⟨hle, hsame⟩ := (operandFrom_follows h hfuel token).near _ _ _ _ hrun
      refine ⟨by omega, fun others hothers ↦ ?_⟩
      rw [operand_of_some ((hothers start (Nat.le_refl _) (by omega)).trans hstart)]
      exact hsame others fun index hlow hhigh ↦ hothers index (by omega) hhigh

/-- An operand consumes a token. -/
theorem operand_advances : Advances (operand fuel expression) := by
  intro tokens start value stop hrun
  cases hstart : tokens[start]? with
  | none =>
    rw [operand_of_none hstart] at hrun
    cases hrun
  | some token =>
    rw [operand_of_some hstart] at hrun
    exact ((operandFrom_follows h hfuel token).near _ _ _ _ hrun).1

theorem suffix_advances (receiver : Expr) :
    AdvancesIfSome (suffix fuel expression receiver) := by
  refine following_advances "." (.offset_identifier fun offset name ↦ ?_)
  refine ((Follows.following (arguments_follows h hfuel)).near).bind fun args ↦ ?_
  cases args <;> exact .pure _

end

section

variable {fuel : Nat} (hfuel : size + 1 ≤ fuel)
include hfuel

/-- An operand with everything attached to it is read alike. -/
theorem suffixed_follows : Follows (size + 1) (suffixed fuel expression) fun stop ↦
    Reader.suffixed stop (expression' stop) :=
  have hless : size ≤ fuel := Nat.le_of_succ_le hfuel
  (operand_follows h hless).bind fun first ↦ .repeatFrom (suffix_follows h hless)
    (suffix_advances h hless) (fun _ ↦ rfl) hfuel first

theorem suffixed_advances : Advances (suffixed fuel expression) :=
  have hless : size ≤ fuel := Nat.le_of_succ_le hfuel
  (operand_advances h hless).bind fun first ↦
    .repeatFrom (fun receiver ↦ (suffix_follows h hless receiver).near) fuel first

/-- Expressions inside of parentheses have fewer tokens. -/
theorem levels_follows : Follows (size + 1) (levels fuel expression) fun stop ↦
      Reader.levels stop (expression' stop) :=
  level_follows BinaryOp.logical (level_follows BinaryOp.comparisons
    (level_follows BinaryOp.additive (level_follows BinaryOp.multiplicative
      (suffixed_follows h hfuel) hfuel) hfuel) hfuel) hfuel

theorem levels_advances : Advances (levels fuel expression) := by
  have hsuffixed := suffixed_follows h hfuel
  have hproducts := level_follows BinaryOp.multiplicative hsuffixed hfuel
  have hsums := level_follows BinaryOp.additive hproducts hfuel
  have hrelations := level_follows BinaryOp.comparisons hsums hfuel
  exact level_advances BinaryOp.logical hrelations
    (level_advances BinaryOp.comparisons hsums
      (level_advances BinaryOp.additive hproducts
        (level_advances BinaryOp.multiplicative hsuffixed (suffixed_advances h hfuel) fuel) fuel)
      fuel) fuel

end

end

/-- An expression is read alike with more fuel than there are tokens. The induction is on the
fuel. -/
theorem expression_follows (fuel : Nat) :
    Follows fuel (expression fuel) fun stop ↦ Reader.expression stop := by
  induction fuel with
  | zero => exact ⟨fun tokens start hsize ↦ (Nat.not_lt_zero _ hsize).elim, .of_error nofun⟩
  | succ fuel ih =>
    have hlevels := levels_follows ih (Nat.le_refl (fuel + 1))
    simp only [← Reader.expression_eq] at hlevels
    exact hlevels

/-- An expression consumes a token. -/
theorem expression_advances (fuel : Nat) : Advances (expression fuel) := by
  cases fuel with
  | zero => exact nofun
  | succ fuel => exact levels_advances (expression_follows fuel) (Nat.le_refl (fuel + 1))

/-! ### Statements -/

/-- A declaration is read alike. -/
theorem binding_follows (fuel : Nat) :
    Follows fuel (binding fuel) fun stop ↦ Reader.binding stop := by
  refine .offset_identifier fun offset name ↦ ?_
  refine ((Follows.following .identifier).mono (Nat.le_succ fuel)).bind fun typeName ↦ ?_
  refine ((Follows.following (expression_follows fuel)).mono (Nat.le_succ fuel)).bind fun value ↦ ?_
  exact .consume_then (.pure _)

/-- A call or an assignment is read alike. -/
theorem expressionStatement_follows (fuel : Nat) :
    Follows fuel (expressionStatement fuel) fun stop ↦ Reader.expressionStatement stop := by
  refine (expression_follows fuel).bind fun target ↦ ?_
  refine ((Follows.following (expression_follows fuel)).mono (Nat.le_succ fuel)).bind fun value ↦ ?_
  refine .consume_then ?_
  cases value <;> exact .pure _

/-- A statement of a block consumes a token, so that blocks come to an end. -/
theorem blockItem_advances {statement : Cursor Stmt} (h : Advances statement)
    (closers : List String) (statements : List Stmt) :
    AdvancesIfSome (blockItem statement closers statements) := by
  intro tokens start value stop hrun
  obtain ⟨more, middle, hmore, hrun⟩ := bind_eq_ok hrun
  cases hmore
  generalize decide (start < tokens.length) = more at hrun
  cases more with
  | false => cases hrun
  | true =>
    obtain ⟨closed, middle, hclosed, hrun⟩ := bind_eq_ok hrun
    cases hclosed
    generalize (tokens[start]?.any fun token ↦ closers.any token.isWord) = closed at hrun
    cases closed with
    | true => cases hrun
    | false =>
      obtain ⟨read, middle, hread, hrun⟩ := bind_eq_ok hrun
      cases hrun
      exact h _ _ _ _ hread

section

variable {fuel : Nat} {statement : Cursor Stmt} {statement' : Nat → Reader Stmt}
  (h : Follows size statement statement') (hadvances : Advances statement) (hfuel : size ≤ fuel)
include h hadvances hfuel

/-- A block is read alike if its statements are. -/
theorem block_follows (closers : List String) :
    Follows size (block fuel statement closers) fun stop ↦
      Reader.block (statement' stop) closers := by
  have hitem (statements : List Stmt) : Follows size (blockItem statement closers statements)
      fun stop ↦ Option.map (fun value ↦ statements ++ [value]) <$> (do
        if ← Reader.atEnd then return none
        if ← Reader.nextIsAny closers then return none
        some <$> statement' stop) := by
    simp only [map_bind]
    refine .hasNext_bind fun ended ↦ ?_
    cases ended with
    | true => exact .pure none
    | false =>
      simp only [Bool.not_false, if_true, Bool.false_eq_true, if_false, map_bind]
      refine (Follows.nextIsAny closers).bind fun closed ↦ ?_
      cases closed with
      | true => exact .pure none
      | false =>
        simp only [Bool.false_eq_true, if_false, Stateful.map_eq, bind_assoc, pure_bind]
        exact h.bind fun value ↦ .pure _
  have hblock := Follows.repeatFrom_append hitem (blockItem_advances hadvances closers)
    (fun _ ↦ rfl) hfuel []
  simp only [List.nil_append, id_map'] at hblock
  exact hblock

theorem body_follows :
    Follows size (body fuel statement) fun stop ↦ Reader.body stop (statement' stop) :=
  .consume_then ((block_follows h hadvances hfuel ["END"]).bind fun _ ↦ .consume_then (.pure _))

/-- A conditional is read alike, with or without an alternative. -/
theorem branch_follows :
    Follows size (branch fuel statement) fun stop ↦ Reader.branch stop (statement' stop) := by
  refine ((expression_follows fuel).mono hfuel).bind fun condition ↦ .consume_then ?_
  refine (block_follows h hadvances hfuel _).bind fun thenBody ↦ ?_
  refine ((Follows.following (block_follows h hadvances hfuel _)).mono (Nat.le_succ size)).bind
    fun elseBody ↦ ?_
  exact .consume_then (.pure _)

/-- A loop over a range is read alike. -/
theorem forEach_follows :
    Follows size (forEach fuel statement) fun stop ↦ Reader.forEach stop (statement' stop) :=
  .offset_identifier fun _ _ ↦ .consume_then <|
    ((expression_follows fuel).mono hfuel).bind fun _ ↦
      (body_follows h hadvances hfuel).bind fun _ ↦ .pure _

/-- A conditional loop is read alike. -/
theorem loop_follows :
    Follows size (loop fuel statement) fun stop ↦ Reader.loop stop (statement' stop) :=
  ((expression_follows fuel).mono hfuel).bind fun _ ↦
    (body_follows h hadvances hfuel).bind fun _ ↦ .pure _

end

theorem ret_follows (fuel : Nat) : Follows fuel (ret fuel) fun stop ↦ Reader.ret stop :=
  (expression_follows fuel).bind fun _ ↦ .consume_then (.pure _)

section

variable {fuel : Nat} {statement : Cursor Stmt} {statement' : Nat → Reader Stmt}
  (h : Follows size statement statement') (hadvances : Advances statement)
  (hfuel : size + 1 ≤ fuel)
include h hadvances hfuel

/-- Statements inside of blocks have fewer tokens. -/
theorem nested_follows :
    Follows (size + 1) (nested fuel statement) fun stop ↦ Reader.nested stop (statement' stop) := by
  have hless : size ≤ fuel := Nat.le_of_succ_le hfuel
  exact .matchNext_then (((binding_follows fuel).mono hless).bind fun _ ↦ .pure _) <|
    .matchNext_then (branch_follows h hadvances hless) <|
    .matchNext_then (forEach_follows h hadvances hless) <|
    .matchNext_then (loop_follows h hadvances hless) <|
    .matchNext_then ((ret_follows fuel).mono hless) <|
    (expressionStatement_follows fuel).mono hfuel

end

/-- Where a word is tried first, a token is consumed in either way. -/
theorem matchNext_advances (text : String) {first other : Cursor α} (h : Near first)
    (hother : Advances other) :
    Advances (matchNext [text] >>= fun found ↦ if found = true then first else other) := by
  intro tokens start value stop hrun
  obtain ⟨found, middle, hfound, hlast⟩ := bind_eq_ok hrun
  cases found with
  | false =>
    exact Nat.lt_of_le_of_lt (Near.matchNext [text] _ _ _ _ hfound).1 (hother _ _ _ _ hlast)
  | true => exact Nat.lt_of_lt_of_le (lt_of_matchNext hfound) (h _ _ _ _ hlast).1

/-- A statement that begins with a word consumes a token. -/
theorem nested_advances {fuel : Nat} {statement : Cursor Stmt} {statement' : Nat → Reader Stmt}
    (h : Follows size statement statement') (hadvances : Advances statement)
    (hfuel : size ≤ fuel) : Advances (nested fuel statement) := by
  refine matchNext_advances "LET" ((binding_follows fuel).near.bind fun _ ↦ .pure _) ?_
  refine matchNext_advances "IF" (branch_follows h hadvances hfuel).near ?_
  refine matchNext_advances "FOR" (forEach_follows h hadvances hfuel).near ?_
  refine matchNext_advances "WHILE" (loop_follows h hadvances hfuel).near ?_
  refine matchNext_advances "RETURN" (ret_follows fuel).near ?_
  refine (expression_advances fuel).bind fun target ↦ ?_
  refine (Follows.following (expression_follows fuel)).near.bind fun value ↦ ?_
  refine (Near.consume ";").bind fun _ ↦ ?_
  cases value <;> exact .pure _

/-- A statement consumes a token, and it follows its reader. -/
theorem statement_follows (fuel : Nat) :
    Follows fuel (statement fuel) (fun stop ↦ Reader.statement stop) ∧
      Advances (statement fuel) := by
  induction fuel with
  | zero =>
    exact ⟨⟨fun tokens start hsize ↦ (Nat.not_lt_zero _ hsize).elim, .of_error nofun⟩, nofun⟩
  | succ fuel ih =>
    obtain ⟨hfollows, hadvances⟩ := ih
    have hnested := nested_follows hfollows hadvances (Nat.le_refl (fuel + 1))
    simp only [← Reader.statement_eq] at hnested
    exact ⟨hnested, nested_advances hfollows hadvances (Nat.le_succ fuel)⟩

/-! ### Programs -/

theorem parameter_follows : Follows size parameter fun stop ↦ Reader.parameter stop :=
  Follows.identifier.bind fun _ ↦ .consume_then (Follows.identifier.bind fun _ ↦ .pure _)

/-- Items that each stand behind the word `text`. -/
theorem repeat_following_follows (text : String) {fuel : Nat} {item : Cursor α}
    {item' : Nat → Reader α} (h : Follows fuel item item') (values : List α) :
    Follows fuel (repeatFrom (fun values ↦ following text do return values ++ [← item]) fuel values)
      fun stop ↦ (values ++ ·) <$> Reader.many (Reader.following text (item' stop)) := by
  have hnext (values : List α) : Follows fuel (do return values ++ [← item])
      fun stop ↦ (fun value ↦ values ++ [value]) <$> item' stop := by
    simp only [Stateful.map_eq]
    exact h.bind fun value ↦ .pure _
  have hend (stop : Nat) : Reader.following text (item' stop) [] = .ok none [] := rfl
  refine .repeatFrom_append (fun values ↦ ?_)
    (fun values ↦ following_advances text (hnext values).near) hend (Nat.le_refl fuel) values
  simp only [Reader.map_following]
  exact (Follows.following (hnext values)).mono (Nat.le_succ fuel)

/-- Parameters are read alike to their closing parenthesis. -/
theorem parameters_follows (fuel : Nat) :
    Follows fuel (parameters fuel) fun stop ↦ Reader.parameters stop := by
  have hlast (params : List (String × String)) : Follows fuel (consume ")" >>= fun _ ↦ pure params)
    fun stop ↦ Reader.expectWord stop ")" >>= fun _ ↦ pure params := .consume_then (.pure params)
  have hparams : Follows fuel
      (parameter >>= fun first ↦ repeatFrom nextParameter fuel [first] >>= fun params ↦
        consume ")" >>= fun _ ↦ pure params)
      fun stop ↦ Reader.parameter stop >>= fun first ↦
        Reader.many (Reader.following "," (Reader.parameter stop)) >>= fun others ↦
          Reader.expectWord stop ")" >>= fun _ ↦ pure (first :: others) := by
    refine parameter_follows.bind fun first ↦ ?_
    have hothers := (repeat_following_follows "," parameter_follows [first]).bind hlast
    simp only [bind_map_left] at hothers
    exact hothers
  refine ⟨fun tokens start hsize ↦ ?_, (Near.nextIsAny [")"]).bind fun closed ↦ ?_⟩
  · obtain ⟨hclose, token, hsome, hword, hdrop, hlt⟩ | ⟨hclose, hhead⟩ :=
      found_cases tokens start fun token ↦ token.isWord ")"
    · have hnext : nextIsAny [")"] tokens start = .ok true start := by
        rw [nextIsAny_apply, any_isWord, hclose]
      have hrun : parameters fuel tokens start = (consume ")" >>= fun _ ↦ pure []) tokens start :=
        bind_of_ok hnext
      have hread : Reader.parameters (endOfTokens tokens) (token :: tokens.drop (start + 1)) =
        .ok [] (tokens.drop (start + 1)) := Stateful.bind_of_ok (Reader.accept_of_isWord hword)
      rw [hrun, bind_of_ok (consume_of_isWord hsome hword), hdrop, hread]
      exact .ok rfl (Nat.le_succ _) (by omega)
    · have hnext : nextIsAny [")"] tokens start = .ok false start := by
        rw [nextIsAny_apply, any_isWord, hclose]
      have hrun : parameters fuel tokens start = _ := bind_of_ok hnext
      have hread : Reader.parameters (endOfTokens tokens) (tokens.drop start) = _ :=
        Stateful.bind_of_ok (Reader.accept_of_head hhead)
      rw [hrun, hread]
      exact hparams.ends tokens start hsize
  · cases closed with
    | true => exact (hlast []).near
    | false => exact hparams.near

/-- A method is read alike from its name to END. -/
theorem method_follows (fuel : Nat) :
    Follows fuel (method fuel) fun stop ↦ Reader.method stop := by
  obtain ⟨hstatement, hadvances⟩ := statement_follows fuel
  refine .offset_identifier fun offset name ↦ .consume_then ?_
  refine (parameters_follows fuel).bind fun params ↦ ?_
  refine ((Follows.following .identifier).mono (Nat.le_succ fuel)).bind fun returnType ↦ ?_
  exact (body_follows hstatement hadvances (Nat.le_refl fuel)).bind fun _ ↦ .pure _

/-- A program is read alike to the last token. -/
theorem program_follows (fuel : Nat) :
    Follows fuel (program fuel) fun stop ↦ Reader.program stop := by
  have hfields := repeat_following_follows "LET" (binding_follows fuel) []
  have hmethods := repeat_following_follows "DEF" (method_follows fuel) []
  simp only [List.nil_append, id_map'] at hfields hmethods
  refine hfields.bind fun fields ↦ hmethods.bind fun methods ↦ .hasNext_bind fun ended ↦ ?_
  cases ended with
  | true => exact .pure _
  | false =>
    simp only [Bool.not_false, if_true, Bool.false_eq_true, if_false, Reader.expected_bind]
    exact .expected (by decide)

end Cursor

end ScriptLang
