import Mathlib.Data.List.TakeWhile
import ScriptLang.Program.Rendering
import ScriptLang.Proofs.Program.Grammar
import ScriptLang.Proofs.Token.Spaced

/-!
The trees that can be written as text. Names are identifiers and no keywords, decimals have places,
each parameter has a type, and operands bind tightly enough for where they stand. All words of such
a tree are well formed.
-/

set_option autoImplicit false
set_option relaxedAutoImplicit false

namespace ScriptLang

def isIdentifierText (text : String) : Bool :=
  match text.toList with
  | [] => false
  | first :: rest => Scan.isIdentifierStart first && rest.all Scan.isIdentifierPart

/-- Whether the text can name a variable, function or type. -/
def isNameText (text : String) : Bool := isIdentifierText text && !keywords.contains text

/-- A decimal without places would be read as an integer. -/
def Literal.isWritable : Literal → Bool
  | .decimal x => 1 ≤ x.scale
  | _ => true

/-- How tightly an operator binds: the tiers in front of its own. -/
def BinaryOp.strength (op : BinaryOp) : Nat := Grammar.tiers.findIdx (·.contains op)

/-- How tightly an expression holds together. What is no operation binds tighter than all tiers. -/
def Expr.strength : Expr → Nat
  | .binary _ op _ _ => op.strength
  | _ => Grammar.tiers.length

mutual

/-- Whether the expression can be written without more parentheses than it has. Operators associate
to the left, and members and calls are taken of what is no operation. -/
def Expr.isWritable : Expr → Bool
  | .literal _ value => value.isWritable
  | .group _ inner => inner.isWritable
  | .binary _ op left right =>
    op.strength ≤ left.strength && op.strength < right.strength && left.isWritable &&
      right.isWritable
  | .access _ name _ => isNameText name
  | .member _ receiver name _ =>
    receiver.strength == Grammar.tiers.length && receiver.isWritable && isNameText name
  | .call _ name args _ => isNameText name && areWritable args
  | .invoke _ receiver name args _ =>
    receiver.strength == Grammar.tiers.length && receiver.isWritable && isNameText name &&
      areWritable args

def areWritable : List Expr → Bool
  | [] => true
  | head :: tail => head.isWritable && areWritable tail

end

def Binding.isWritable (binding : Binding) : Bool :=
  isNameText binding.name && binding.typeName.all isNameText && binding.value.all Expr.isWritable

mutual

def Stmt.isWritable : Stmt → Bool
  | .expr value => value.isWritable
  | .declare binding => binding.isWritable
  | .assign target value => target.isWritable && value.isWritable
  | .branch condition thenBody elseBody =>
    condition.isWritable && isWritableBlock thenBody && isWritableBlock elseBody
  | .forEach _ name iterable body =>
    isNameText name && iterable.isWritable && isWritableBlock body
  | .loop condition body => condition.isWritable && isWritableBlock body
  | .ret value => value.isWritable

def isWritableBlock : List Stmt → Bool
  | [] => true
  | head :: tail => head.isWritable && isWritableBlock tail

end

def Method.isWritable (method : Method) : Bool :=
  isNameText method.name && method.params.all isNameText && method.paramTypes.all isNameText &&
    method.params.length == method.paramTypes.length && method.returnType.all isNameText &&
    isWritableBlock method.body

def Program.isWritable (program : Program) : Bool :=
  program.fields.all Binding.isWritable && program.methods.all Method.isWritable

/-! ### How literals are spelled -/

namespace Decimal

/-- The number that a sign stands for. -/
def signFactor (n : Int) : Int := if n < 0 then -1 else 1

/-- The sign that is written stands for the factor of an integer. -/
theorem isSign_sign (n : Int) : IsSign (sign n) (signFactor n) := by
  unfold sign signFactor
  split
  · exact .minus
  · exact .none

theorem signFactor_mul_natAbs (n : Int) : signFactor n * n.natAbs = n := by
  unfold signFactor
  split <;> omega

theorem isDigits_digits (n : Nat) : IsDigits (digits n) :=
  ⟨Nat.toDigits_ne_nil, fun _ hc ↦ Nat.isDigit_of_mem_toDigits (by decide) (by decide) hc⟩

/-- Digits with a point among them are the same digits, with `places` of them behind the point. -/
theorem plain_eq {ds : List Char} (hdigits : IsDigits ds) (places : Nat) (hplaces : 0 < places) :
    ∃ whole rest, plain ds places = whole ++ '.' :: rest ∧ IsDigits whole ∧ IsDigits rest ∧
      rest.length = places ∧ Nat.ofDigitChars 10 (whole ++ rest) 0 = Nat.ofDigitChars 10 ds 0 := by
  set padded := List.replicate (places + 1 - ds.length) '0' ++ ds with hpadded
  have hlength : places < padded.length := by
    rw [hpadded, List.length_append, List.length_replicate]
    omega
  have hpaddedDigits : ∀ c ∈ padded, c.isDigit = true := by
    intro c hc
    obtain hc | hc := List.mem_append.mp hc
    · rw [List.eq_of_mem_replicate hc]
      rfl
    · exact hdigits.2 c hc
  have hrest : (padded.drop (padded.length - places)).length = places := by
    rw [List.length_drop]
    omega
  refine ⟨padded.take (padded.length - places), padded.drop (padded.length - places), rfl,
    ⟨?_, fun c hc ↦ hpaddedDigits c (List.mem_of_mem_take hc)⟩,
    ⟨?_, fun c hc ↦ hpaddedDigits c (List.mem_of_mem_drop hc)⟩, hrest, ?_⟩
  · apply List.ne_nil_of_length_pos
    rw [List.length_take]
    omega
  · exact List.ne_nil_of_length_pos (by rw [hrest]; exact hplaces)
  · rw [List.take_append_drop, hpadded, Nat.ofDigitChars_append, Nat.ofDigitChars_replicate_zero,
      Nat.mul_zero]

end Decimal

/-- A character is written as a glyph that stands for it, with a backslash where it needs one. -/
theorem glyph_escaped {quote : Char} (hquote : Escape.meaning quote = some quote) (c : Char) :
    Glyph quote (Escape.escaped quote c) c := by
  unfold Escape.escaped
  split_ifs with hself hline hreturn
  · refine .escape ?_
    obtain rfl | rfl := hself
    · exact hquote
    · rfl
  · exact hline ▸ .escape rfl
  · exact hreturn ▸ .escape rfl
  · rw [not_or] at hself
    exact .plain hself.1 hself.2 (by simp [Scan.isLineBreak, hline, hreturn])

/-- A text is written as glyphs that stand for it. -/
theorem glyphs_encode {quote : Char} (hquote : Escape.meaning quote = some quote)
    (text : List Char) : Glyphs quote (Escape.encode quote text) text := by
  induction text with
  | nil => exact .nil
  | cons c text ih => exact .cons (glyph_escaped hquote c) ih

/-- A literal is written as a keyword, or spelled with its own value. -/
theorem Literal.spelled_lexeme {value : Literal} (h : value.isWritable = true) :
    (value.lexeme ∈ keywords ∧ ∀ token : Token, token.Is value.lexeme →
      Grammar.Constant token value) ∨ ∃ kind, Literal.Spelled kind value.lexeme.toList value := by
  cases value with
  | nil => exact .inl ⟨by decide, fun token hword ↦ .nil hword⟩
  | boolean value =>
    cases value with
    | false => exact .inl ⟨by decide, fun token hword ↦ .false hword⟩
    | true => exact .inl ⟨by decide, fun token hword ↦ .true hword⟩
  | integer n =>
    refine .inr ⟨.integer, ?_⟩
    have hspelled := Literal.Spelled.integer (Decimal.isSign_sign n)
      (Decimal.isDigits_digits n.natAbs)
    rw [Decimal.digits, Nat.ofDigitChars_ten_toDigits, Decimal.signFactor_mul_natAbs] at hspelled
    rwa [Literal.lexeme, String.toList_ofList]
  | decimal x =>
    refine .inr ⟨.decimal, ?_⟩
    have hscale : 1 ≤ x.scale := of_decide_eq_true h
    obtain ⟨whole, places, htext, hwhole, hplaces, hlength, hvalue⟩ :=
      Decimal.plain_eq (Decimal.isDigits_digits x.coefficient.natAbs) x.scale.toNat (by omega)
    have hspelled := Literal.Spelled.decimal (Decimal.isSign_sign x.coefficient) hwhole hplaces
    rw [hvalue, Decimal.digits, Nat.ofDigitChars_ten_toDigits, Decimal.signFactor_mul_natAbs,
      hlength, Int.toNat_of_nonneg (by omega), List.append_assoc, ← htext] at hspelled
    rwa [Literal.lexeme, String.toList_ofList]
  | character c =>
    refine .inr ⟨.character, ?_⟩
    rw [Literal.lexeme, quotedLexeme, String.toList_ofList, Escape.encode, List.flatMap_singleton]
    exact .character (glyph_escaped rfl c)
  | string text =>
    refine .inr ⟨.string, ?_⟩
    have hglyphs : Glyphs '"' _ _ := glyphs_encode rfl text.toList
    have hspelled := Literal.Spelled.string hglyphs
    rw [String.ofList_toList] at hspelled
    rwa [Literal.lexeme, quotedLexeme, String.toList_ofList]

/-! ### All words are well formed -/

/-- A text that has the form of an identifier is one. -/
theorem wellFormed_of_isIdentifierText {text : String} (h : isIdentifierText text = true) :
    Token.WellFormed ⟨.identifier, text, 0⟩ := by
  unfold isIdentifierText at h
  split at h
  · cases h
  · rename_i first rest htext
    rw [Bool.and_eq_true, List.all_eq_true] at h
    exact ⟨first, rest, by rw [← htext, String.ofList_toList], h.1, h.2⟩

theorem isWord_of_isNameText {text : String} (h : isNameText text = true) : IsWord text :=
  ⟨.identifier, wellFormed_of_isIdentifierText (Bool.and_eq_true_iff.mp h).1⟩

/-- Keywords and operators are words of their own between blanks. -/
theorem isWord_of_mem {word : String} (h : word ∈ keywords ++ operators) : IsWord word := by
  have hkeywords : ∀ other ∈ keywords, isIdentifierText other = true := by decide
  obtain h | h := List.mem_append.mp h
  · exact ⟨.identifier, wellFormed_of_isIdentifierText (hkeywords word h)⟩
  · exact ⟨.operator, h⟩

theorem isWord_operator (op : BinaryOp) : IsWord op.lexeme :=
  isWord_of_mem (by cases op <;> decide)

/-- A lexeme that spells a literal is a well-formed token. -/
theorem Literal.Spelled.wellFormed {kind : TokenKind} {text : String} {value : Literal}
    (h : Literal.Spelled kind text.toList value) : Token.WellFormed ⟨kind, text, 0⟩ := by
  cases kind with
  | identifier | operator => cases h
  | integer | decimal | character | string => exact ⟨value, h⟩

/-- A literal that can be written is a word of its own, as none of its characters ends the token. -/
theorem isWord_literal {value : Literal} (h : value.isWritable = true) : IsWord value.lexeme := by
  obtain ⟨hkeyword, -⟩ | ⟨kind, hspelled⟩ := Literal.spelled_lexeme h
  · exact isWord_of_mem (List.mem_append_left operators hkeyword)
  · exact ⟨kind, hspelled.wellFormed⟩

/-- Words that are all well formed. -/
def AreWords (words : List String) : Prop := ∀ word ∈ words, IsWord word

namespace AreWords

variable {first second words : List String} {word : String}

theorem nil : AreWords [] := nofun

theorem cons (hword : IsWord word) (h : AreWords words) : AreWords (word :: words) :=
  List.forall_mem_cons.mpr ⟨hword, h⟩

/-- A keyword or an operator in front. -/
theorem mark (hword : word ∈ keywords ++ operators) (h : AreWords words) :
    AreWords (word :: words) :=
  .cons (isWord_of_mem hword) h

theorem name (hname : isNameText word = true) (h : AreWords words) : AreWords (word :: words) :=
  .cons (isWord_of_isNameText hname) h

theorem append (hfirst : AreWords first) (hsecond : AreWords second) : AreWords (first ++ second) :=
  List.forall_mem_append.mpr ⟨hfirst, hsecond⟩

theorem drop (h : AreWords words) (count : Nat) : AreWords (words.drop count) :=
  fun word hword ↦ h word (List.mem_of_mem_drop hword)

/-- The words of a list are those of its items. -/
theorem flatMap {α : Type} {lexemes : α → List String} {items : List α}
    (h : ∀ item ∈ items, AreWords (lexemes item)) : AreWords (items.flatMap lexemes) := by
  intro word hword
  obtain ⟨item, hitem, hword⟩ := List.mem_flatMap.mp hword
  exact h item hitem word hword

/-- A part that may be left out is words, be it there or not. -/
theorem optional {α : Type} {lexemes : α → List String} {item : Option α}
    (hword : word ∈ keywords ++ operators) (h : ∀ value ∈ item, AreWords (lexemes value)) :
    AreWords (optionalLexemes word (item.map lexemes)) := by
  cases item with
  | none => exact .nil
  | some value => exact .mark hword (h value rfl)

end AreWords

mutual

/-- An expression that can be written is a list of words. The recursion follows the tree. -/
theorem Expr.areWords_lexemes : ∀ expr : Expr, expr.isWritable = true → AreWords expr.lexemes
  | .literal _ value, h => .cons (isWord_literal h) .nil
  | .group _ inner, h =>
    (AreWords.mark (by decide) (inner.areWords_lexemes h)).append (.mark (by decide) .nil)
  | .binary _ op left right, h => by
    simp only [Expr.isWritable, Bool.and_eq_true] at h
    obtain ⟨⟨-, hleft⟩, hright⟩ := h
    exact (left.areWords_lexemes hleft).append
      (.cons (isWord_operator op) (right.areWords_lexemes hright))
  | .access _ name _, h => .name h .nil
  | .member _ receiver name _, h => by
    simp only [Expr.isWritable, Bool.and_eq_true] at h
    obtain ⟨⟨-, hreceiver⟩, hname⟩ := h
    exact (receiver.areWords_lexemes hreceiver).append (.mark (by decide) (.name hname .nil))
  | .call _ name args _, h => by
    simp only [Expr.isWritable, Bool.and_eq_true] at h
    obtain ⟨hname, hargs⟩ := h
    exact (AreWords.name hname (.mark (by decide) ((areWords_argLexemes args hargs).drop 1))).append
      (.mark (by decide) .nil)
  | .invoke _ receiver name args _, h => by
    simp only [Expr.isWritable, Bool.and_eq_true] at h
    obtain ⟨⟨⟨-, hreceiver⟩, hname⟩, hargs⟩ := h
    exact ((receiver.areWords_lexemes hreceiver).append (.mark (by decide) (.name hname
      (.mark (by decide) ((areWords_argLexemes args hargs).drop 1))))).append
        (.mark (by decide) .nil)

/-- Arguments that can be written are a list of words. -/
theorem areWords_argLexemes : ∀ args : List Expr, areWritable args = true →
    AreWords (argLexemes args)
  | [], _ => .nil
  | head :: tail, h => by
    simp only [areWritable, Bool.and_eq_true] at h
    obtain ⟨hhead, htail⟩ := h
    exact (AreWords.mark (by decide) (head.areWords_lexemes hhead)).append
      (areWords_argLexemes tail htail)

end

/-- A declaration that can be written is a list of words. -/
theorem Binding.areWords_lexemes {binding : Binding} (h : binding.isWritable = true) :
    AreWords binding.lexemes := by
  simp only [Binding.isWritable, Bool.and_eq_true, Option.all_eq_true] at h
  obtain ⟨⟨hname, htype⟩, hvalue⟩ := h
  have htype : AreWords (optionalLexemes ":" (binding.typeName.map ([·]))) :=
    .optional (by decide) fun name hmem ↦ .name (htype name hmem) .nil
  have hvalue : AreWords (optionalLexemes "=" (binding.value.map Expr.lexemes)) :=
    .optional (by decide) fun value hmem ↦ value.areWords_lexemes (hvalue value hmem)
  exact (AreWords.mark (by decide) (.name hname htype)).append hvalue |>.append
    (.mark (by decide) .nil)

mutual

/-- A statement that can be written is a list of words. The recursion follows the tree. -/
theorem Stmt.areWords_lexemes : ∀ stmt : Stmt, stmt.isWritable = true → AreWords stmt.lexemes
  | .expr value, h => (value.areWords_lexemes h).append (.mark (by decide) .nil)
  | .declare binding, h => Binding.areWords_lexemes h
  | .assign target value, h => by
    simp only [Stmt.isWritable, Bool.and_eq_true] at h
    obtain ⟨htarget, hvalue⟩ := h
    exact ((target.areWords_lexemes htarget).append (.mark (by decide)
      (value.areWords_lexemes hvalue))).append (.mark (by decide) .nil)
  | .branch condition thenBody elseBody, h => by
    simp only [Stmt.isWritable, Bool.and_eq_true] at h
    obtain ⟨⟨hcondition, hthen⟩, helse⟩ := h
    have helse : AreWords (if elseBody.isEmpty then [] else "ELSE" :: blockLexemes elseBody) := by
      split
      · exact .nil
      · exact .mark (by decide) (areWords_blockLexemes elseBody helse)
    exact (AreWords.mark (by decide) (condition.areWords_lexemes hcondition)).append
      (.mark (by decide) (areWords_blockLexemes thenBody hthen)) |>.append helse |>.append
      (.mark (by decide) .nil)
  | .forEach _ name iterable body, h => by
    simp only [Stmt.isWritable, Bool.and_eq_true] at h
    obtain ⟨⟨hname, hiterable⟩, hbody⟩ := h
    exact (AreWords.mark (by decide) (.name hname (.mark (by decide)
      (iterable.areWords_lexemes hiterable)))).append
      (.mark (by decide) (areWords_blockLexemes body hbody)) |>.append (.mark (by decide) .nil)
  | .loop condition body, h => by
    simp only [Stmt.isWritable, Bool.and_eq_true] at h
    obtain ⟨hcondition, hbody⟩ := h
    exact (AreWords.mark (by decide) (condition.areWords_lexemes hcondition)).append
      (.mark (by decide) (areWords_blockLexemes body hbody)) |>.append (.mark (by decide) .nil)
  | .ret value, h =>
    (AreWords.mark (by decide) (value.areWords_lexemes h)).append (.mark (by decide) .nil)

/-- A block that can be written is a list of words. -/
theorem areWords_blockLexemes : ∀ body : List Stmt, isWritableBlock body = true →
    AreWords (blockLexemes body)
  | [], _ => .nil
  | head :: tail, h => by
    simp only [isWritableBlock, Bool.and_eq_true] at h
    obtain ⟨hhead, htail⟩ := h
    exact (head.areWords_lexemes hhead).append (areWords_blockLexemes tail htail)

end

/-- Parameters that have names and types are a list of words. -/
theorem areWords_paramLexemes {params types : List String}
    (hparams : ∀ name ∈ params, isNameText name = true)
    (htypes : ∀ name ∈ types, isNameText name = true) :
    AreWords (paramLexemes (params.zip types)) := by
  refine .flatMap fun (name, type) hmem ↦ ?_
  obtain ⟨hname, htype⟩ := List.of_mem_zip hmem
  exact .mark (by decide) (.name (hparams name hname) (.mark (by decide)
    (.name (htypes type htype) .nil)))

/-- A method that can be written is a list of words. -/
theorem Method.areWords_lexemes {method : Method} (h : method.isWritable = true) :
    AreWords method.lexemes := by
  simp only [Method.isWritable, Bool.and_eq_true, Option.all_eq_true, List.all_eq_true] at h
  obtain ⟨⟨⟨⟨⟨hname, hparams⟩, htypes⟩, -⟩, hreturn⟩, hbody⟩ := h
  have hreturn : AreWords (optionalLexemes ":" (method.returnType.map ([·]))) :=
    .optional (by decide) fun name hmem ↦ .name (hreturn name hmem) .nil
  exact ((AreWords.mark (by decide) (.name hname (.mark (by decide)
    ((areWords_paramLexemes hparams htypes).drop 1)))).append (.mark (by decide) hreturn)).append
    (.mark (by decide) (areWords_blockLexemes method.body hbody)) |>.append (.mark (by decide) .nil)

/-- All words of a writable program are well formed. -/
theorem Program.areWords_lexemes {program : Program} (h : program.isWritable = true) :
    AreWords program.lexemes := by
  rw [Program.isWritable, Bool.and_eq_true, List.all_eq_true, List.all_eq_true] at h
  exact (AreWords.flatMap fun binding hmem ↦ Binding.areWords_lexemes (h.1 binding hmem)).append
    (.flatMap fun method hmem ↦ Method.areWords_lexemes (h.2 method hmem))

end ScriptLang
