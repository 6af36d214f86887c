import ScriptLang.Proofs.Execution.Mentioned
import ScriptLang.Proofs.Program.Parsing
import ScriptLang.Proofs.Session.Acceptance
import ScriptLang.Proofs.Session.Termination
import ScriptLang.Proofs.Token.Scanned

/-!
Definitions of a host that a text does not mention are inert. Whatever a session has been through, a
type, variable or function more changes nothing for a text in which its name is no identifier: the
text is rejected for the same cause, or it comes to the same end and prints the same. The definition
can as well be made after the run.
-/

set_option autoImplicit false
set_option relaxedAutoImplicit false

namespace ScriptLang

/-- The name stands in the text, as an identifier that is not a keyword. -/
def TextMentions (text name : String) : Prop :=
  ∃ tokens, scan text = .ok tokens ∧ ∃ token ∈ tokens, token.isName = true ∧ token.text = name

/-- The program of a text looks up no names but those that stand in the text. -/
theorem Program.textMentions {text : String} {program : Program}
    (h : Program.ofText text = .ok program) {name : String} (hname : name ∈ program.mentions) :
    TextMentions text name := by
  obtain ⟨tokens, hscan, hread⟩ := except_bind_eq_ok.mp h
  have hscan := except_mapError_eq_ok.mp hscan
  have hread := ofTokens_eq_ok.mp (except_mapError_eq_ok.mp hread)
  have hsource := (Reader.program_eq_ok_iff (scan_wellFormed hscan)).mp hread
  exact ⟨tokens, hscan, hsource.written name hname⟩

theorem Program.ofCheckedText_of_ofText {text : String} {program : Program}
    (h : Program.ofText text = .ok program) (context : TypeContext) :
    Program.ofCheckedText context text =
      match program.check context with
      | .ok _ => .ok program
      | .error cause => .error (.typing cause) := by
  unfold ofCheckedText
  rw [h]
  change ((program.check context).mapError RunError.typing >>= fun _ ↦ pure program) = _
  cases program.check context <;> rfl

/-- An accepted program mentions its entry. -/
theorem Program.main_mem_mentions {context : TypeContext} {program : Program}
    (hcheck : program.check context = .ok ()) : "main" ∈ program.mentions := by
  obtain ⟨hmain, -⟩ := check_eq_ok.mp hcheck
  obtain ⟨method, hmem, hmethod⟩ := List.any_eq_true.mp hmain
  have hname : method.name = "main" := by
    simp only [Method.isMain, Bool.and_eq_true, beq_iff_eq] at hmethod
    exact hmethod.1.1
  refine List.mem_append_right _ (List.mem_flatMap.mpr ⟨method, hmem, ?_⟩)
  rw [← hname]
  exact List.mem_cons_self

/-! ### Definitions -/

/-- What a host can define in a session. -/
inductive HostDefinition (H : Type)
  | recordType (type : RecordType Ty)
  | hostVariable (name : String) (type : Ty) (value : Value)
  | hostFunction (signature : Signature Ty) (body : H)

namespace HostDefinition

variable {H : Type}

def name : HostDefinition H → String
  | recordType type => type.name
  | hostVariable name _ _ => name
  | hostFunction signature _ => signature.name

/-- What programs are told of the host, with the definition. -/
def tell (context : TypeContext) : HostDefinition H → TypeContext
  | recordType type => context.register type
  | hostVariable name type _ => context.defineVariable name type
  | hostFunction signature _ => context.defineFunction signature

/-- The scope of the host, with the definition. -/
def bind (definition : HostDefinition H) (globals : ValueScope H) : ValueScope H :=
  match definition with
  | recordType _ => globals
  | hostVariable name _ value => globals.declare name value
  | hostFunction signature body =>
    globals.declareFunction signature.name signature.arity
      (.host ⟨signature.name, signature.arity, body⟩)

variable {names : List String} {definition : HostDefinition H} (hname : definition.name ∉ names)
include hname

theorem agreeOn_tell (context : TypeContext) :
    context.AgreeOn names (definition.tell context) := by
  cases definition with
  | recordType type =>
    refine ⟨fun other hother ↦ ?_, .refl context.globals⟩
    change context.type? other =
      (Ty.builtin? other).or ((context.records.insert type.name (.record type)).find? other)
    have hne : other ≠ type.name := ne_of_mem_of_not_mem hother hname
    rw [Bindings.find?_insert, if_neg hne]
    rfl
  | hostVariable name type value =>
    exact ⟨fun _ _ ↦ rfl, (Scope.Unnoticed.declare hname _).agreeOn _⟩
  | hostFunction signature body =>
    exact ⟨fun _ _ ↦ rfl, (Scope.Unnoticed.declareFunction hname _ _).agreeOn _⟩

theorem unnoticed_bind : Scope.Unnoticed names definition.bind := by
  cases definition with
  | recordType type => exact .id
  | hostVariable name type value => exact .declare hname value
  | hostFunction signature body => exact .declareFunction hname _ _

end HostDefinition

namespace Session

section

variable {H : Type}

def define (session : Session H) : HostDefinition H → Session H
  | .recordType type => session.registerType type
  | .hostVariable name type value => session.defineVariable name type value
  | .hostFunction signature body => session.defineFunction signature body

theorem define_eq (session : Session H) (definition : HostDefinition H) :
    session.define definition =
      ⟨definition.tell session.context, session.state.mapGlobals definition.bind⟩ := by
  cases definition <;> rfl

variable [Host H] {session : Session H} (hoffers : { session.state with module := {} }.Offers [])
  {definition : HostDefinition H} (fuel : Nat)
include hoffers

/-- A program that does not mention a definition runs before it as it does after it. -/
theorem interpret_define {program : Program} (hname : definition.name ∉ program.mentions)
    (hmain : "main" ∈ program.mentions) :
    (session.define definition).interpret fuel program =
      ((session.interpret fuel program).1,
        (session.interpret fuel program).2.define definition) := by
  have hends := Program.run_changed (HostDefinition.unnoticed_bind hname)
    (List.Subset.refl program.mentions) hmain fuel hoffers
  rw [define_eq]
  unfold interpret
  dsimp only
  generalize program.run fuel session.state = one at hends
  generalize program.run fuel (session.state.mapGlobals definition.bind) = other at hends
  cases hends with
  | ok h => rw [define_eq, h]
  | error h => rw [define_eq, h]

/-- A text that does not mention a definition runs before it as it does after it. -/
theorem run_define {text : String} (hname : ¬ TextMentions text definition.name) :
    (session.define definition).run fuel text =
      ((session.run fuel text).1, (session.run fuel text).2.define definition) := by
  unfold run
  cases htext : Program.ofText text with
  | error cause =>
    have hrejected (context : TypeContext) :
        Program.ofCheckedText context text = .error cause := by
      unfold Program.ofCheckedText
      rw [htext]
      rfl
    rw [hrejected, hrejected]
  | ok program =>
    have hunmentioned : definition.name ∉ program.mentions :=
      fun hmem ↦ hname (program.textMentions htext hmem)
    have hcheck : program.check session.context =
        program.check (session.define definition).context := by
      rw [define_eq]
      exact program.check_congr (HostDefinition.agreeOn_tell hunmentioned session.context)
        (List.Subset.refl program.mentions)
    rw [Program.ofCheckedText_of_ofText htext, Program.ofCheckedText_of_ofText htext, ← hcheck]
    cases hverdict : program.check session.context with
    | error cause => rfl
    | ok verdict =>
      exact interpret_define hoffers fuel hunmentioned (program.main_mem_mentions hverdict)

end

variable {H : Type} [Host H]

/-- After any history, one more definition that a text does not mention changes neither the end of a
run of the text, at whichever stage it comes, nor what is printed; and it can as well be made after
the run. -/
theorem unmentioned_inert (sink : Sink) (acts : List (Act H)) (definition : HostDefinition H)
    (fuel : Nat) (text : String) (hname : ¬ TextMentions text definition.name) :
    let session := after sink acts
    let extended := session.define definition
    (extended.run fuel text).1 = (session.run fuel text).1 ∧
      (extended.run fuel text).2.state.sink = (session.run fuel text).2.state.sink ∧
      (extended.run fuel text).2 = (session.run fuel text).2.define definition := by
  intro session extended
  have hrun : extended.run fuel text =
      ((session.run fuel text).1, (session.run fuel text).2.define definition) :=
    run_define (offers_after sink acts) fuel hname
  rw [hrun]
  refine ⟨rfl, ?_, rfl⟩
  rw [define_eq]
  rfl

/-- A text in which `spare` stands in a string, and is no identifier. -/
def quotingText : String := "LET n = 2; DEF main(): Integer DO print(\"spare\"); RETURN n + 1; END"

theorem unmentioned_inert_quoted :
    ¬ TextMentions quotingText "spare" ∧
      let session := after (.text "") [.run 1 quotingText]
      let extended : Session Empty :=
        session.define (.hostVariable "spare" .string (.string "other"))
      (extended.run 1 quotingText).1 = .ok (.integer 3) ∧
        (extended.run 1 quotingText).2.state.sink = .text "spare\nspare\n" := by
  have hnames : (scan quotingText).map (fun tokens ↦ (tokens.filter Token.isName).map Token.text) =
      .ok ["n", "main", "Integer", "print", "n"] := by cbv
  have hspare : ¬ TextMentions quotingText "spare" := by
    rintro ⟨tokens, hscan, token, hmem, hname, htext⟩
    rw [hscan] at hnames
    have hfound : "spare" ∈ ["n", "main", "Integer", "print", "n"] := by
      rw [← Except.ok.inj hnames, ← htext]
      exact List.mem_map_of_mem (List.mem_filter.mpr ⟨hmem, hname⟩)
    exact absurd hfound (by decide)
  obtain ⟨hresult, hsink, -⟩ := unmentioned_inert (.text "") [(.run 1 quotingText : Act Empty)]
    (.hostVariable "spare" .string (.string "other")) 1 quotingText hspare
  exact ⟨hspare, hresult.trans (by cbv), hsink.trans (by cbv)⟩

end Session

end ScriptLang
