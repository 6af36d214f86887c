import ScriptLang.Proofs.Token.Shape

/-!
The grammar of programs, as a relation between lists of tokens and trees. A phrase says which lists
of tokens stand for a value, and each rule lists its tokens in order, without any left out. Binary
operators are read from the left in four tiers, `AND` and `OR` binding loosest; behind the tiers,
members and calls are attached to an operand. A node has the position of the word it is designated
by.
-/

set_option autoImplicit false
set_option relaxedAutoImplicit false

namespace ScriptLang

/-- The lists of tokens that stand for a value. -/
abbrev Phrase (α : Type) := List Token → α → Prop

namespace Grammar

section

variable {α : Type} (phrase : Phrase α)

/-- Any number of phrases, one behind the other. -/
inductive Many : Phrase (List α)
  | nil : Many [] []
  | cons {first rest : List Token} {head : α} {tail : List α} (hfirst : phrase first head)
    (hrest : Many rest tail) : Many (first ++ rest) (head :: tail)

/-- A phrase behind the keyword or operator `word`. -/
inductive Behind (word : String) : Phrase α
  | intro {token : Token} {tokens : List Token} {value : α} (hword : token.Is word)
    (hphrase : phrase tokens value) : Behind word (token :: tokens) value

/-- A phrase that may be left out. -/
inductive Maybe : Phrase (Option α)
  | none : Maybe [] none
  | some {tokens : List Token} {value : α} (hphrase : phrase tokens value) :
    Maybe tokens (some value)

/-- A phrase, and behind it one that depends on its value. -/
inductive Then {β : Type} (next : α → Phrase β) : Phrase β
  | intro {first second : List Token} {value : α} {result : β} (hfirst : phrase first value)
    (hsecond : next value second result) : Then next (first ++ second) result

end

/-- Nothing, which stands for `value`. -/
inductive Nothing {α : Type} (value : α) : Phrase α
  | intro : Nothing value [] value

/-- The keyword or operator `word` alone. -/
inductive Word (word : String) : Phrase Unit
  | intro {token : Token} (hword : token.Is word) : Word word [token] ()

/-- The name of a type. -/
inductive TypeName : Phrase String
  | intro {token : Token} (hname : token.isName = true) : TypeName [token] token.text

/-- The literals that are written as keywords. -/
inductive Constant : Token → Literal → Prop
  | true {token : Token} (hword : token.Is "TRUE") : Constant token (.boolean true)
  | false {token : Token} (hword : token.Is "FALSE") : Constant token (.boolean false)
  | nil {token : Token} (hword : token.Is "NIL") : Constant token .nil

/-- The tiers of binary operators, from the one that binds loosest. -/
def tiers : List (List BinaryOp) :=
  [BinaryOp.logical, BinaryOp.comparisons, BinaryOp.additive, BinaryOp.multiplicative]

mutual

/-- Expressions with the operators of some tiers outside of parentheses. With no tiers left, there
are only members and calls on an operand. -/
inductive Expression : List (List BinaryOp) → Phrase Expr
  | tighter {ops : List BinaryOp} {others : List (List BinaryOp)} {tokens : List Token}
    {expr : Expr} (hexpr : Expression others tokens expr) : Expression (ops :: others) tokens expr
  | binary {ops : List BinaryOp} {others : List (List BinaryOp)} {op : BinaryOp} {token : Token}
    {first second : List Token} {left right : Expr} (hleft : Expression (ops :: others) first left)
    (hop : op ∈ ops) (htoken : token.Is op.lexeme) (hright : Expression others second right) :
    Expression (ops :: others) (first ++ token :: second)
      (.binary ⟨token.offset, none⟩ op left right)
  | operand {tokens : List Token} {expr : Expr} (hexpr : Operand tokens expr) :
    Expression [] tokens expr
  | member {tokens : List Token} {point name : Token} {receiver : Expr}
    (hreceiver : Expression [] tokens receiver) (hpoint : point.Is ".")
    (hname : name.isName = true) :
    Expression [] (tokens ++ [point, name]) (.member ⟨name.offset, none⟩ receiver name.text none)
  | invoke {tokens inner : List Token} {point name : Token} {receiver : Expr} {args : List Expr}
    (hreceiver : Expression [] tokens receiver) (hpoint : point.Is ".")
    (hname : name.isName = true) (hargs : Arguments inner args) :
    Expression [] (tokens ++ point :: name :: inner)
      (.invoke ⟨name.offset, none⟩ receiver name.text args none)

inductive Operand : Phrase Expr
  | constant {token : Token} {value : Literal} (hvalue : Constant token value) :
    Operand [token] (.literal ⟨token.offset, none⟩ value)
  | literal {token : Token} {value : Literal}
    (hvalue : Literal.Spelled token.kind token.text.toList value) :
    Operand [token] (.literal ⟨token.offset, none⟩ value)
  | group {opening closing : Token} {tokens : List Token} {inner : Expr}
    (hopening : opening.Is "(") (hinner : Expression tiers tokens inner)
    (hclosing : closing.Is ")") :
    Operand (opening :: (tokens ++ [closing])) (.group ⟨opening.offset, none⟩ inner)
  | access {name : Token} (hname : name.isName = true) :
    Operand [name] (.access ⟨name.offset, none⟩ name.text none)
  | call {name : Token} {tokens : List Token} {args : List Expr} (hname : name.isName = true)
    (hargs : Arguments tokens args) :
    Operand (name :: tokens) (.call ⟨name.offset, none⟩ name.text args none)

/-- The arguments of a call in their parentheses. -/
inductive Arguments : Phrase (List Expr)
  | none {opening closing : Token} (hopening : opening.Is "(") (hclosing : closing.Is ")") :
    Arguments [opening, closing] []
  | some {opening closing : Token} {first rest : List Token} {head : Expr} {tail : List Expr}
    (hopening : opening.Is "(") (hfirst : Expression tiers first head)
    (hrest : Many (Behind (Expression tiers) ",") rest tail) (hclosing : closing.Is ")") :
    Arguments (opening :: (first ++ (rest ++ [closing]))) (head :: tail)

end

/-- A declaration behind its keyword. -/
inductive Declaration : Phrase Binding
  | intro {name last : Token} {typing initial : List Token} {typeName : Option String}
    {value : Option Expr} (hname : name.isName = true)
    (htype : Maybe (Behind TypeName ":") typing typeName)
    (hvalue : Maybe (Behind (Expression tiers) "=") initial value) (hlast : last.Is ";") :
    Declaration (name :: (typing ++ (initial ++ [last])))
      { name := name.text, typeName, value, offset := name.offset }

inductive Statement : Phrase Stmt
  | declare {word : Token} {tokens : List Token} {binding : Binding} (hword : word.Is "LET")
    (hbinding : Declaration tokens binding) : Statement (word :: tokens) (.declare binding)
  | branch {word opening closing : Token} {tokens thenTokens elseTokens : List Token}
    {condition : Expr} {thenBody : List Stmt} {elseBody : Option (List Stmt)}
    (hword : word.Is "IF") (hcondition : Expression tiers tokens condition)
    (hopening : opening.Is "DO") (hthen : Many Statement thenTokens thenBody)
    (helse : Maybe (Behind (Many Statement) "ELSE") elseTokens elseBody)
    (hclosing : closing.Is "END") :
    Statement (word :: (tokens ++ opening :: (thenTokens ++ (elseTokens ++ [closing]))))
      (.branch condition thenBody (elseBody.getD []))
  | forEach {word name preposition opening closing : Token} {tokens inner : List Token}
    {iterable : Expr} {body : List Stmt} (hword : word.Is "FOR") (hname : name.isName = true)
    (hpreposition : preposition.Is "IN") (hiterable : Expression tiers tokens iterable)
    (hopening : opening.Is "DO") (hbody : Many Statement inner body) (hclosing : closing.Is "END") :
    Statement (word :: name :: preposition :: (tokens ++ opening :: (inner ++ [closing])))
      (.forEach name.offset name.text iterable body)
  | loop {word opening closing : Token} {tokens inner : List Token} {condition : Expr}
    {body : List Stmt} (hword : word.Is "WHILE") (hcondition : Expression tiers tokens condition)
    (hopening : opening.Is "DO") (hbody : Many Statement inner body) (hclosing : closing.Is "END") :
    Statement (word :: (tokens ++ opening :: (inner ++ [closing]))) (.loop condition body)
  | ret {word last : Token} {tokens : List Token} {value : Expr} (hword : word.Is "RETURN")
    (hvalue : Expression tiers tokens value) (hlast : last.Is ";") :
    Statement (word :: (tokens ++ [last])) (.ret value)
  | assign {sign last : Token} {first second : List Token} {target value : Expr}
    (htarget : Expression tiers first target) (hsign : sign.Is "=")
    (hvalue : Expression tiers second value) (hlast : last.Is ";") :
    Statement (first ++ sign :: (second ++ [last])) (.assign target value)
  | expr {last : Token} {tokens : List Token} {value : Expr}
    (hvalue : Expression tiers tokens value) (hlast : last.Is ";") :
    Statement (tokens ++ [last]) (.expr value)

/-- A parameter with the name of its type. -/
inductive Parameter : Phrase (String × String)
  | intro {name colon type : Token} (hname : name.isName = true) (hcolon : colon.Is ":")
    (htype : type.isName = true) : Parameter [name, colon, type] (name.text, type.text)

/-- The parameters of a method in their parentheses. -/
inductive Parameters : Phrase (List (String × String))
  | none {opening closing : Token} (hopening : opening.Is "(") (hclosing : closing.Is ")") :
    Parameters [opening, closing] []
  | some {opening closing : Token} {first rest : List Token} {head : String × String}
    {tail : List (String × String)} (hopening : opening.Is "(") (hfirst : Parameter first head)
    (hrest : Many (Behind Parameter ",") rest tail) (hclosing : closing.Is ")") :
    Parameters (opening :: (first ++ (rest ++ [closing]))) (head :: tail)

/-- A method behind its keyword. -/
inductive Definition : Phrase Method
  | intro {name opening closing : Token} {tokens result inner : List Token}
    {params : List (String × String)} {returnType : Option String} {body : List Stmt}
    (hname : name.isName = true) (hparams : Parameters tokens params)
    (hresult : Maybe (Behind TypeName ":") result returnType) (hopening : opening.Is "DO")
    (hbody : Many Statement inner body) (hclosing : closing.Is "END") :
    Definition (name :: (tokens ++ (result ++ opening :: (inner ++ [closing]))))
      { name := name.text, params := params.map Prod.fst, paramTypes := params.map Prod.snd,
        returnType, body, offset := name.offset }

/-- A whole program: fields, then methods. -/
inductive Source : Phrase Program
  | intro {first second : List Token} {fields : List Binding} {methods : List Method}
    (hfields : Many (Behind Declaration "LET") first fields)
    (hmethods : Many (Behind Definition "DEF") second methods) :
    Source (first ++ second) { fields, methods }

end Grammar

end ScriptLang
