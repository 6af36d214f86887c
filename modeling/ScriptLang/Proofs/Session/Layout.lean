import Mathlib
import ScriptLang.Proofs.Execution.Likeness
import ScriptLang.Proofs.Program.Relocation
import ScriptLang.Proofs.Session.Acceptance
import ScriptLang.Proofs.Typing.Reannotation

/-!
What a program does depends on its words alone. Positions and annotations never come into a run, and
reading and checking use positions only in errors. So two texts with the same words in the same
order are rejected for the same reason, or run alike, whatever blanks stand between the words.
-/

set_option autoImplicit false
set_option relaxedAutoImplicit false

namespace ScriptLang

/-! ### Runs from one state -/

/-- A scope corresponds to itself by relations that are reflexive. -/
theorem Scope.follows_self {V F : Type} {vars : V → V → Prop}
    {functions : String → Nat → F → F → Prop}
    (hvars : ∀ value, vars value value)
    (hfunctions : ∀ name arity function, functions name arity function function)
    (scope : Scope V F) : Scope.Follows vars functions scope scope where
  lookup? name := by
    cases scope.lookup? name with
    | none => exact .none
    | some value => exact .some (hvars value)
  function? name arity := by
    cases scope.function? name arity with
    | none => exact .none
    | some function => exact .some (hfunctions name arity function)

section

variable {H : Type} [Host H]

/-- Runs that have everything in common. -/
def Likeness.identical : Likeness H where
  occurs _ := True
  offers _ := True
  objects := Eq
  sinks := Eq
  plain _ _ := trivial
  print := by
    rintro line sink _ rfl
    cases sink.print line with
    | ok after => exact .ok rfl
    | error cause => exact .error cause
  field := by
    rintro objects _ ref name rfl -
    exact .of_eq rfl fun _ _ ↦ trivial
  setField := by
    rintro objects _ ref name value rfl - -
    cases objects.setField ref name value with
    | ok after => exact .ok rfl
    | error cause => exact .error cause
  method := by
    rintro objects _ ref name arity rfl -
    exact .of_eq rfl fun _ _ ↦ trivial
  host := by
    rintro function args objects _ - - rfl
    exact ⟨.of_eq rfl fun _ _ ↦ trivial, rfl⟩

/-- Every state is like itself if nothing may differ. -/
theorem Likeness.identical_self (state : State H) : Likeness.identical.States state state := by
  have hscope (scope : ValueScope H) : Likeness.identical.Scopes scope scope := by
    refine Scope.follows_self (fun _ ↦ ⟨rfl, trivial⟩) (fun _ _ callable ↦ ?_) scope
    cases callable with
    | print => exact .print
    | range => exact .range
    | host => exact .host trivial
    | procedure => exact .procedure rfl rfl (BlockTrims.refl _).bodies
  have hchain (chain : ValueChain H) : List.Forall₂ Likeness.identical.Scopes chain chain :=
    List.forall₂_same.mpr fun scope _ ↦ hscope scope
  exact ⟨hchain _, List.forall₂_same.mpr fun chain _ ↦ hchain chain, hscope _, hscope _, rfl, rfl⟩

namespace Session

/-- Sessions that answer alike: names stand for the same, and objects and output are the same. -/
structure SameView (first second : Session H) : Prop where
  context : first.context = second.context
  module : ∀ name, first.state.module.lookup? name = second.state.module.lookup? name
  globals : ∀ name, first.state.globals.lookup? name = second.state.globals.lookup? name
  objects : first.state.objects = second.state.objects
  sink : first.state.sink = second.state.sink

/-- States that are alike where nothing may differ give the same view. -/
theorem sameView_of_states {context : TypeContext} {state state' : State H}
    (h : Likeness.identical.States state state') :
    SameView ⟨context, state⟩ ⟨context, state'⟩ := by
  have hlookup {scope scope' : ValueScope H} (hscope : Likeness.identical.Scopes scope scope')
      (name : String) : scope.lookup? name = scope'.lookup? name := by
    have hfound := hscope.lookup? name
    generalize scope.lookup? name = found at hfound ⊢
    generalize scope'.lookup? name = found' at hfound ⊢
    cases hfound with
    | none => rfl
    | some hvalue => exact congrArg some hvalue.1
  exact ⟨rfl, hlookup h.module, hlookup h.globals, h.objects, h.sink⟩

omit [Host H] in
theorem sameView_self (session : Session H) : session.SameView session :=
  ⟨rfl, fun _ ↦ rfl, fun _ ↦ rfl, rfl, rfl⟩

/-- Programs that come to the same end cannot be told apart by running them. -/
theorem interpret_ends (session : Session H) (fuel : Nat) {program other : Program}
    (hends : (Likeness.identical (H := H)).Ends (Shared fun _ ↦ True)
      (program.run fuel session.state) (other.run fuel session.state)) :
    (session.interpret fuel program).1 = (session.interpret fuel other).1 ∧
      (session.interpret fuel program).2.SameView (session.interpret fuel other).2 := by
  unfold interpret
  generalize program.run fuel session.state = result at hends ⊢
  generalize other.run fuel session.state = result' at hends ⊢
  cases hends with
  | ok hvalue hstates => exact ⟨congrArg Except.ok hvalue.1, sameView_of_states hstates⟩
  | error hstates => exact ⟨rfl, sameView_of_states hstates⟩

/-- Programs that differ in positions and annotations end alike from every session. -/
theorem interpret_alike (session : Session H) (fuel : Nat) {program other : Program}
    (h : program.Alike other) :
    (session.interpret fuel program).1 = (session.interpret fuel other).1 ∧
      (session.interpret fuel program).2.SameView (session.interpret fuel other).2 :=
  session.interpret_ends fuel (Program.run_alike fuel h (Likeness.identical_self _))

end Session

end

/-! ### Texts of the same words -/

/-- The words of a text: their kinds and how they are written. -/
def words (tokens : List Token) : List (TokenKind × String) :=
  tokens.map fun token ↦ (token.kind, token.text)

/-- Tokens with the same words are the same but for their positions. -/
theorem relocate_eq_of_words {tokens others : List Token} (h : words tokens = words others) :
    tokens.map (Token.relocate fun _ ↦ 0) = others.map (Token.relocate fun _ ↦ 0) := by
  have hplaced (tokens : List Token) : tokens.map (Token.relocate fun _ ↦ 0) =
      (words tokens).map fun word ↦ ⟨word.1, word.2, 0⟩ := by
    rw [words, List.map_map]
    rfl
  rw [hplaced, hplaced, h]

/-- The error without its position. -/
def RunError.unplaced : RunError → RunError
  | lex cause => lex cause
  | parse cause => parse (cause.relocate fun _ ↦ 0)
  | typing cause => typing (cause.relocate fun _ ↦ 0)
  | runtime cause => runtime cause
  | outOfFuel => outOfFuel

/-- Tokens of the same words have trees that are alike, or the same error but for its position. -/
theorem Program.ofTokens_words {tokens others : List Token} (h : words tokens = words others) :
    (∃ program other, ofTokens tokens = .ok program ∧ ofTokens others = .ok other ∧
      program.Alike other) ∨
    ∃ cause cause', ofTokens tokens = .error cause ∧ ofTokens others = .error cause' ∧
      cause.relocate (fun _ ↦ 0) = cause'.relocate fun _ ↦ 0 := by
  have hmoved := @Reader.program_relocates (fun _ ↦ 0) (endOfTokens tokens) tokens
  have hmoved' := @Reader.program_relocates (fun _ ↦ 0) (endOfTokens others) others
  rw [relocate_eq_of_words h, hmoved'] at hmoved
  unfold ofTokens
  cases hread : Reader.program (endOfTokens tokens) tokens with
  | ok program rest =>
    cases hread' : Reader.program (endOfTokens others) others with
    | ok other rest' =>
      rw [hread, hread'] at hmoved
      exact .inl ⟨program, other, rfl, rfl, (EStateM.Result.ok.inj hmoved).1.symm⟩
    | error cause rest' =>
      rw [hread, hread'] at hmoved
      cases hmoved
  | error cause rest =>
    cases hread' : Reader.program (endOfTokens others) others with
    | ok other rest' =>
      rw [hread, hread'] at hmoved
      cases hmoved
    | error cause' rest' =>
      rw [hread, hread'] at hmoved
      exact .inr ⟨cause, cause', rfl, rfl, (EStateM.Result.error.inj hmoved).1.symm⟩

/-- Once a text is cut into tokens, its program depends on these alone. -/
theorem Program.ofCheckedText_of_scan (context : TypeContext) {text : String} {tokens : List Token}
    (htokens : scan text = .ok tokens) : ofCheckedText context text =
      match ofTokens tokens with
      | .error cause => .error (.parse cause)
      | .ok program =>
        match program.check context with
        | .error cause => .error (.typing cause)
        | .ok () => .ok program := by
  unfold ofCheckedText ofText
  rw [htokens]
  cases hread : ofTokens tokens with
  | error cause =>
    change (Except.mapError RunError.parse (ofTokens tokens) >>= _) = _
    rw [hread]
    rfl
  | ok program =>
    change (Except.mapError RunError.parse (ofTokens tokens) >>= _) = _
    rw [hread]
    dsimp only
    change (Except.mapError RunError.typing (program.check context) >>= _) = _
    cases program.check context <;> rfl

/-- Texts with the same words are both accepted, as programs that are alike, or both rejected, with
errors that differ in positions at most. -/
theorem Program.ofCheckedText_words (context : TypeContext) {text other : String}
    {tokens others : List Token} (htokens : scan text = .ok tokens)
    (hothers : scan other = .ok others) (h : words tokens = words others) :
    (∃ program program', ofCheckedText context text = .ok program ∧
      ofCheckedText context other = .ok program' ∧ program.Alike program') ∨
    ∃ cause cause', ofCheckedText context text = .error cause ∧
      ofCheckedText context other = .error cause' ∧ cause.unplaced = cause'.unplaced := by
  rw [ofCheckedText_of_scan context htokens, ofCheckedText_of_scan context hothers]
  obtain ⟨program, program', hread, hread', halike⟩ | ⟨cause, cause', hread, hread', hcause⟩ :=
    Program.ofTokens_words h
  · have hcheck := program.check_move (.refl context) fun _ ↦ 0
    have hskeleton : program.relocate (fun _ ↦ 0) = program'.relocate fun _ ↦ 0 := halike
    rw [hskeleton, program'.check_move (.refl context) fun _ ↦ 0] at hcheck
    rw [hread, hread']
    dsimp only
    generalize program.check context = verdict at hcheck ⊢
    generalize program'.check context = verdict' at hcheck ⊢
    cases verdict with
    | ok _ =>
      cases verdict' with
      | ok _ => exact .inl ⟨program, program', rfl, rfl, halike⟩
      | error cause => cases hcheck
    | error cause =>
      cases verdict' with
      | ok _ => cases hcheck
      | error cause' =>
        have hcause := Except.error.inj hcheck
        exact .inr ⟨.typing cause, .typing cause', rfl, rfl,
          congrArg RunError.typing hcause.symm⟩
  · rw [hread, hread']
    exact .inr ⟨.parse cause, .parse cause', rfl, rfl, congrArg RunError.parse hcause⟩

namespace Session

variable {H : Type} [Host H]

/-- Texts with the same words end alike in a session, up to the positions in errors. -/
theorem run_words (session : Session H) (fuel : Nat) {text other : String}
    {tokens others : List Token} (htokens : scan text = .ok tokens)
    (hothers : scan other = .ok others) (h : words tokens = words others) :
    (session.run fuel text).1.mapError RunError.unplaced =
        (session.run fuel other).1.mapError RunError.unplaced ∧
      (session.run fuel text).2.SameView (session.run fuel other).2 := by
  unfold run
  obtain ⟨program, program', haccepted, haccepted', halike⟩ |
    ⟨cause, cause', hrejected, hrejected', hcause⟩ :=
    Program.ofCheckedText_words session.context htokens hothers h
  · rw [haccepted, haccepted']
    obtain ⟨hresult, hview⟩ := session.interpret_alike fuel halike
    exact ⟨congrArg (Except.mapError RunError.unplaced) hresult, hview⟩
  · rw [hrejected, hrejected']
    exact ⟨congrArg Except.error hcause, session.sameView_self⟩

/-- Behaviour depends on the words alone. Trees that are equal up to positions and annotations run
alike in any state, so an accepted text runs like the tree that was read from it and like the tree
with the results of checking; and texts of the same words run alike or fail for the same reason. -/
theorem layout_irrelevant (session : Session H) (fuel : Nat) :
    (∀ program other : Program, program.skeleton = other.skeleton →
      (session.interpret fuel program).1 = (session.interpret fuel other).1 ∧
      (session.interpret fuel program).2.SameView (session.interpret fuel other).2) ∧
    (∀ text program, Program.ofText text = .ok program → program.check session.context = .ok () →
      session.run fuel text = session.interpret fuel program ∧
      (session.run fuel text).1 =
        (session.interpret fuel (program.annotate session.context)).1 ∧
      (session.run fuel text).2.SameView
        (session.interpret fuel (program.annotate session.context)).2) ∧
    ∀ text other tokens others, scan text = .ok tokens → scan other = .ok others →
      tokens.map (fun token ↦ (token.kind, token.text)) =
        others.map (fun token ↦ (token.kind, token.text)) →
      (session.run fuel text).1.mapError RunError.unplaced =
        (session.run fuel other).1.mapError RunError.unplaced ∧
      (session.run fuel text).2.SameView (session.run fuel other).2 := by
  refine ⟨fun program other h ↦ session.interpret_alike fuel h, ?_,
    fun text other tokens others htokens hothers h ↦ session.run_words fuel htokens hothers h⟩
  intro text program htext hcheck
  have hrun : session.run fuel text = session.interpret fuel program := by
    unfold run Program.ofCheckedText
    rw [htext]
    simp only [bind, Except.bind, hcheck]
    rfl
  have halike : program.Alike (program.annotate session.context) :=
    (program.relocate_annotate (fun _ ↦ 0) session.context).symm
  rw [hrun]
  exact ⟨rfl, session.interpret_alike fuel halike⟩

def tightText : String := "DEF main(): Integer DO END"

def looseText : String := "\n DEF main ( )\n : Integer DO\n END"

/-- The tree of both texts, whose method is named at `offset`. -/
def idle (offset : Nat) : Program where
  methods :=
    [{ name := "main", params := [], paramTypes := [], returnType := some "Integer", body := [],
       offset }]

def tightTokens : List Token :=
  [⟨.identifier, "DEF", 0⟩, ⟨.identifier, "main", 4⟩, ⟨.operator, "(", 8⟩, ⟨.operator, ")", 9⟩,
   ⟨.operator, ":", 10⟩, ⟨.identifier, "Integer", 12⟩, ⟨.identifier, "DO", 20⟩,
   ⟨.identifier, "END", 23⟩]

def looseTokens : List Token :=
  [⟨.identifier, "DEF", 2⟩, ⟨.identifier, "main", 6⟩, ⟨.operator, "(", 11⟩, ⟨.operator, ")", 13⟩,
   ⟨.operator, ":", 16⟩, ⟨.identifier, "Integer", 18⟩, ⟨.identifier, "DO", 26⟩,
   ⟨.identifier, "END", 30⟩]

theorem scan_tight : scan tightText = .ok tightTokens := by cbv

theorem scan_loose : scan looseText = .ok looseTokens := by cbv

/-- Two trees at different positions and two texts with different blanks come to the same end. -/
theorem layout_irrelevant_idle :
    let session : Session Empty := initial (.text "")
    (session.interpret 1 (idle 4)).1 = (session.interpret 1 (idle 6)).1 ∧
    session.run 1 tightText = session.interpret 1 (idle 4) ∧
    (session.run 1 tightText).2.SameView (session.run 1 looseText).2 := by
  intro session
  obtain ⟨htrees, haccepted, hwords⟩ := layout_irrelevant session 1
  exact ⟨(htrees (idle 4) (idle 6) rfl).1, (haccepted tightText (idle 4) (by cbv) (by cbv)).1,
    (hwords tightText looseText _ _ scan_tight scan_loose rfl).2⟩

end Session

end ScriptLang
