import ScriptLang.Proofs.Program.Grammar

/-!
The names that a program looks up. Variables and functions are looked up where they are read,
assigned to and called, types where they are written down, and the entry of a program is looked up
among its methods. A tree that was read from tokens looks up no names but those in the tokens.
-/

set_option autoImplicit false
set_option relaxedAutoImplicit false

namespace ScriptLang

mutual

/-- The variables and functions that an expression looks up by name. Members of objects are not
looked up in any scope. -/
def Expr.mentions : Expr → List String
  | .literal .. => []
  | .group _ inner => inner.mentions
  | .binary _ _ left right => left.mentions ++ right.mentions
  | .access _ name _ => [name]
  | .member _ receiver _ _ => receiver.mentions
  | .call _ name args _ => name :: argMentions args
  | .invoke _ receiver _ args _ => receiver.mentions ++ argMentions args

def argMentions : List Expr → List String
  | [] => []
  | head :: tail => head.mentions ++ argMentions tail

end

/-- The names that a declaration looks up: that of its type, and those in its initial value. -/
def Binding.mentions (binding : Binding) : List String :=
  binding.typeName.toList ++ binding.value.elim [] Expr.mentions

mutual

def Stmt.mentions : Stmt → List String
  | .expr value | .ret value => value.mentions
  | .declare binding => binding.mentions
  | .assign target value => target.mentions ++ value.mentions
  | .branch condition thenBody elseBody =>
    condition.mentions ++ (blockMentions thenBody ++ blockMentions elseBody)
  | .forEach _ _ iterable body => iterable.mentions ++ blockMentions body
  | .loop condition body => condition.mentions ++ blockMentions body

def blockMentions : List Stmt → List String
  | [] => []
  | head :: tail => head.mentions ++ blockMentions tail

end

/-- The names that a method looks up, and its own, by which it may be the entry. -/
def Method.mentions (method : Method) : List String :=
  method.name :: (method.paramTypes ++ (method.returnType.toList ++ blockMentions method.body))

def Program.mentions (program : Program) : List String :=
  program.fields.flatMap Binding.mentions ++ program.methods.flatMap Method.mentions

/-- Each of the names is one of the tokens. -/
def Written (tokens : List Token) (names : List String) : Prop :=
  ∀ name ∈ names, ∃ token ∈ tokens, token.isName = true ∧ token.text = name

namespace Written

variable {tokens others : List Token} {names first second : List String}

theorem nil : Written tokens [] := List.forall_mem_nil _

theorem append (hfirst : Written tokens first) (hsecond : Written tokens second) :
    Written tokens (first ++ second) := List.forall_mem_append.mpr ⟨hfirst, hsecond⟩

/-- A name that is written may stand in front of others that are. -/
theorem cons {token : Token} (hmem : token ∈ tokens) (hname : token.isName = true)
    (h : Written tokens names) : Written tokens (token.text :: names) :=
  List.forall_mem_cons.mpr ⟨⟨token, hmem, hname, rfl⟩, h⟩

/-- What is written among some tokens is written among more. -/
theorem among (h : Written tokens names) (hsubset : tokens ⊆ others) : Written others names := by
  intro name hname
  obtain ⟨token, hmem, htoken⟩ := h name hname
  exact ⟨token, hsubset hmem, htoken⟩

end Written

/-! ### What is read from tokens -/

namespace Grammar

mutual

/-- An expression mentions names that are written among its tokens. The recursion follows the
grammar, here and below. -/
theorem Expression.written {levels : List (List BinaryOp)} {tokens : List Token} {expr : Expr} :
    Expression levels tokens expr → Written tokens expr.mentions
  | .tighter hexpr => hexpr.written
  | .binary hleft _ _ hright =>
    (hleft.written.among (by grind)).append (hright.written.among (by grind))
  | .operand hexpr => hexpr.written
  | .member hreceiver _ _ => hreceiver.written.among (by grind)
  | .invoke hreceiver _ _ hargs =>
    (hreceiver.written.among (by grind)).append (hargs.written.among (by grind))

/-- An operand mentions its own name, if it has one, and those of its parts. -/
theorem Operand.written {tokens : List Token} {expr : Expr} :
    Operand tokens expr → Written tokens expr.mentions
  | .constant _ => .nil
  | .literal _ => .nil
  | .group _ hinner _ => hinner.written.among (by grind)
  | .access hname => .cons List.mem_cons_self hname .nil
  | .call hname hargs => .cons List.mem_cons_self hname (hargs.written.among (by grind))

/-- Arguments mention names that are written between their parentheses. -/
theorem Arguments.written {tokens : List Token} {args : List Expr} :
    Arguments tokens args → Written tokens (argMentions args)
  | .none _ _ => .nil
  | .some _ hfirst hrest _ =>
    (hfirst.written.among (by grind)).append ((Many.args_written hrest).among (by grind))

/-- Further arguments mention names that are written behind their commas. -/
theorem Many.args_written {tokens : List Token} {args : List Expr} :
    Many (Behind (Expression tiers) ",") tokens args → Written tokens (argMentions args)
  | .nil => .nil
  | .cons (.intro _ hfirst) hrest =>
    (hfirst.written.among (by grind)).append ((Many.args_written hrest).among (by grind))

end

section

variable {α : Type} {phrase : Phrase α} {mentions : α → List String}
  (h : ∀ tokens value, phrase tokens value → Written tokens (mentions value))
include h

/-- The word in front of a part is no mention. -/
theorem Behind.written {word : String} (tokens : List Token) (value : α)
    (hphrase : Behind phrase word tokens value) : Written tokens (mentions value) := by
  obtain ⟨_, hphrase⟩ := hphrase
  exact (h _ _ hphrase).among (List.subset_cons_self _ _)

/-- A part that may be left out mentions nothing then. -/
theorem Maybe.written {tokens : List Token} {value : Option α}
    (hphrase : Maybe phrase tokens value) : Written tokens (value.elim [] mentions) := by
  cases hphrase with
  | none => exact .nil
  | some hphrase => exact h _ _ hphrase

/-- Names of a repetition are written if those of each item are. -/
theorem Many.written {tokens : List Token} {values : List α}
    (hphrases : Many phrase tokens values) :
    Written tokens (values.flatMap mentions) := by
  induction hphrases with
  | nil => exact .nil
  | cons hfirst _ ih => exact ((h _ _ hfirst).among (by grind)).append (ih.among (by grind))

end

/-- The name of a type is written as it is mentioned. -/
theorem Maybe.type_written {word : String} {tokens : List Token} {name : Option String}
    (h : Maybe (Behind TypeName word) tokens name) : Written tokens name.toList := by
  cases h with
  | none => exact .nil
  | some hphrase =>
    obtain ⟨_, ⟨hname⟩⟩ := hphrase
    exact .cons (List.mem_cons_of_mem _ List.mem_cons_self) hname .nil

/-- A declaration mentions its type and what its value mentions, not its own name. -/
theorem Declaration.written (tokens : List Token) (binding : Binding)
    (h : Declaration tokens binding) : Written tokens binding.mentions := by
  obtain ⟨_, htype, hvalue, _⟩ := h
  have hvalue := hvalue.written (Behind.written fun _ _ hexpr ↦ hexpr.written)
  exact (htype.type_written.among (by grind)).append (hvalue.among (by grind))

mutual

/-- A statement mentions names that are written among its tokens. -/
theorem Statement.written {tokens : List Token} {statement : Stmt} :
    Statement tokens statement → Written tokens statement.mentions
  | .declare _ hbinding => (Declaration.written _ _ hbinding).among (by grind)
  | .branch _ hcondition _ hthen .none _ =>
    (hcondition.written.among (by grind)).append
      (((Many.block_written hthen).among (by grind)).append .nil)
  | .branch _ hcondition _ hthen (.some (.intro _ helse)) _ =>
    (hcondition.written.among (by grind)).append
      (((Many.block_written hthen).among (by grind)).append
        ((Many.block_written helse).among (by grind)))
  | .forEach _ _ _ hiterable _ hbody _ =>
    (hiterable.written.among (by grind)).append ((Many.block_written hbody).among (by grind))
  | .loop _ hcondition _ hbody _ =>
    (hcondition.written.among (by grind)).append ((Many.block_written hbody).among (by grind))
  | .ret _ hvalue _ => hvalue.written.among (by grind)
  | .assign htarget _ hvalue _ =>
    (htarget.written.among (by grind)).append (hvalue.written.among (by grind))
  | .expr hvalue _ => hvalue.written.among (by grind)

/-- A block mentions names that are written among its tokens. -/
theorem Many.block_written {tokens : List Token} {statements : List Stmt} :
    Many Statement tokens statements → Written tokens (blockMentions statements)
  | .nil => .nil
  | .cons hfirst hrest =>
    (hfirst.written.among (by grind)).append ((Many.block_written hrest).among (by grind))

end

/-- A parameter mentions its type. -/
theorem Parameter.written (tokens : List Token) (param : String × String)
    (h : Parameter tokens param) : Written tokens [param.2] := by
  obtain ⟨_, _, htype⟩ := h
  exact .cons (by simp) htype .nil

theorem Parameters.written {tokens : List Token} {params : List (String × String)}
    (h : Parameters tokens params) : Written tokens (params.map Prod.snd) := by
  cases h with
  | none => exact .nil
  | some _ hfirst hrest _ =>
    have hrest := hrest.written (Behind.written Parameter.written)
    rw [← List.map_eq_flatMap] at hrest
    exact ((Parameter.written _ _ hfirst).among (by grind)).append (hrest.among (by grind))

/-- A method mentions its own name, the types of its head and what its body mentions. -/
theorem Definition.written (tokens : List Token) (method : Method) (h : Definition tokens method) :
    Written tokens method.mentions := by
  obtain ⟨hname, hparams, hresult, _, hbody, _⟩ := h
  refine .cons List.mem_cons_self hname ((hparams.written.among (by grind)).append ?_)
  exact (hresult.type_written.among (by grind)).append
    ((Many.block_written hbody).among (by grind))

/-- A program mentions names that are written among its tokens. -/
theorem Source.written {tokens : List Token} {program : Program} (h : Source tokens program) :
    Written tokens program.mentions := by
  obtain ⟨hfields, hmethods⟩ := h
  have hfields := hfields.written (Behind.written Declaration.written)
  have hmethods := hmethods.written (Behind.written Definition.written)
  exact (hfields.among (by grind)).append (hmethods.among (by grind))

end Grammar

end ScriptLang
