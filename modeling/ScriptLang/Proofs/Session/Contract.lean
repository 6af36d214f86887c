import Mathlib.Order.Basic
import ScriptLang.Proofs.Session.History
import ScriptLang.Proofs.Typing.Module
import ScriptLang.Proofs.Typing.Records

/-!
Sessions of hosts that keep to a contract. What a host makes known to programs conforms step by
step, as it registers types, adds objects and defines variables and functions; and in the discipline
of the contract, what conforms before a run of an accepted program conforms after it.
-/

set_option autoImplicit false
set_option relaxedAutoImplicit false

namespace ScriptLang

variable {H : Type} [Host H]

/-- The types and functions that a host has made known to programs are those that it promises. -/
structure Contract.Covers (contract : Contract H) (context : TypeContext) (ledger : Ledger H)
    (world : Assignment) : Prop where
  keyed : ledger.Keyed
  records : ∀ name type, context.records.find? name = some type → contract.Admits type
  functions : ∀ name arity signature function,
    ledger.find? (name, arity) = some (signature, .host function) →
    contract.Admits signature.returns ∧ contract.trusts world function.body (.function signature)

/-- The discipline of a contract, from the objects that there are in the beginning. -/
def Discipline.ofContract {context : TypeContext} {ledger : Ledger H} {contract : Contract H}
    {start : Assignment} (hcovers : contract.Covers context ledger start) :
    Discipline H context where
  -- Functions of the host may hold on to objects that there are in the beginning.
  World := { world : Assignment // start ≤ world }
  admits := contract.Admits
  fits world := world.1.Holds
  objects world := contract.Conforms world.1
  offers name arity signature callable := ledger.find? (name, arity) = some (signature, callable)
  fits_later hlater h := h.later hlater
  admits_plain _ := Vocabulary.admits_plain
  admits_registered := hcovers.records
  admits_field _ _ _ := Vocabulary.Admits.field?
  admits_method _ _ _ _ := Vocabulary.Admits.method?
  fits_field hobjects hadmits hfits hfound hfield := by
    obtain ⟨record, rfl, hmember⟩ := Ty.field?_eq_some.mp hfound
    obtain ⟨value, hvalue, hholds⟩ :=
      hobjects.field (hadmits.2 record rfl) (hfits.object record _ rfl rfl) hmember
    rw [ObjectStore.field_eq_ok, hvalue] at hfield
    cases hfield
    exact hholds
  objects_setField hobjects hadmits hfits hfound hvalue hafter := by
    obtain ⟨record, rfl, hmember⟩ := Ty.field?_eq_some.mp hfound
    exact hobjects.setField (hadmits.2 record rfl) (hfits.object record _ rfl rfl) hmember hvalue
      hafter
  keeps_method {world} _ _ _ _ _ _ _ _ hobjects hadmits hfits hfound hmethod hargs := by
    obtain ⟨record, rfl, hmember⟩ := Ty.method?_eq_some.mp hfound
    obtain ⟨function, hfunction, hcalls⟩ :=
      Contract.method_keeps hobjects (hadmits.2 record rfl) (hfits.object record _ rfl rfl) hmember
    rw [ObjectStore.method_eq_ok, hfunction] at hmethod
    cases hmethod
    obtain ⟨later, hkeeps⟩ := hcalls _ hargs
    exact ⟨⟨later, le_trans world.2 hkeeps.grows⟩, hkeeps.grows, hkeeps.conforms,
      fun _ ↦ hkeeps.value⟩
  blank _ := True
  fits_blank _ type _ := .nil type
  fits_literal _ _ _ _ htype := .of_plain (Literal.type_plain htype) (.literal htype)
  fits_integer _ _ := .of_plain (fun _ h ↦ nomatch h) (.inr fun _ hkind ↦ Option.some_inj.mp hkind)
  fits_boolean _ _ := .of_plain (fun _ h ↦ nomatch h) (.inr fun _ hkind ↦ Option.some_inj.mp hkind)
  fits_assignable _ _ _ _ := .assignable
  fits_operator _ _ _ _ _ _ _ _ _ htype hop hleft hright happly :=
    .of_plain (BinaryOp.type_plain htype)
      (BinaryOp.apply_holds htype hop hleft.kind hright.kind happly)
  offers_arity name arity signature callable hfound := by
    obtain ⟨hsignature, hcallable, -⟩ := hcovers.keyed.arity name arity signature callable hfound
    refine ⟨hsignature, hcallable, ?_⟩
    obtain h | h | ⟨function, rfl⟩ := hcovers.keyed.callable name arity signature callable hfound
    · cases h
      exact Vocabulary.admits_plain fun _ h ↦ nomatch h
    · cases h
      exact Vocabulary.admits_plain fun _ h ↦ nomatch h
    · exact (hcovers.functions name arity signature function hfound).1
  offers_answers name arity signature callable hfound := by
    obtain h | h | ⟨function, rfl⟩ := hcovers.keyed.callable name arity signature callable hfound
    · cases h
      exact fun _ ↦ .nil _
    · cases h
      exact fun _ _ _ ↦
        .of_plain (fun _ h ↦ nomatch h) (.inr fun _ hkind ↦ Option.some_inj.mp hkind)
    · intro world store args hobjects hargs
      have htrusts := contract.trusts_later world.2
        (hcovers.functions name arity signature function hfound).2
      obtain ⟨later, hkeeps⟩ := contract.keeps htrusts hargs hobjects
      exact ⟨⟨later, le_trans world.2 hkeeps.grows⟩, hkeeps.grows, hkeeps.conforms,
        fun _ ↦ hkeeps.value⟩

namespace Session

/-- What a host has made known to programs keeps to its contract: types and functions are those that
it promises, objects conform, and variables have values of their types. -/
structure Conforms (session : Session H) (ledger : Ledger H) (contract : Contract H)
    (world : Assignment) : Prop where
  records : ∀ name type, session.context.records.find? name = some type → contract.Admits type
  globals : ∀ name known value, session.context.globals.lookup? name = some known →
    session.state.globals.lookup? name = some value →
    contract.Admits known.type ∧ world.Holds known.type value
  functions : ∀ name arity signature function,
    ledger.find? (name, arity) = some (signature, .host function) →
    contract.Admits signature.returns ∧ contract.trusts world function.body (.function signature)
  objects : contract.Conforms world session.state.objects

section

variable {session : Session H} {ledger : Ledger H} {contract : Contract H} {world : Assignment}

/-! ### What a host may do -/

/-- A new session has promised nothing yet. -/
theorem conforms_initial (sink : Sink) (contract : Contract H) :
    (initial sink).Conforms Ledger.initial contract {} where
  records _ _ hfound := nomatch hfound
  globals _ _ _ hknown := nomatch hknown
  functions _ _ _ _ hfound := by
    obtain h | h := Ledger.initial_cases hfound <;> cases h
  objects := ⟨nofun, fun _ ↦ .none⟩

namespace Conforms

variable (h : session.Conforms ledger contract world)

include h

/-- A record that the contract admits may be registered. -/
theorem registerType {type : RecordType Ty} (hadmits : contract.Admits (.record type)) :
    (session.registerType type).Conforms ledger contract world where
  records name found hfound := by
    change (session.context.records.insert type.name (.record type)).find? name = _ at hfound
    rw [Bindings.find?_insert] at hfound
    split at hfound
    · cases hfound
      exact hadmits
    · exact h.records name found hfound
  globals := h.globals
  functions := h.functions
  objects := h.objects

/-- A variable may be defined with a value of its type. -/
theorem defineVariable (name : String) {type : Ty} {value : Value} (hadmits : contract.Admits type)
    (hvalue : world.Holds type value) :
    (session.defineVariable name type value).Conforms ledger contract world where
  records := h.records
  globals sought known found hknown hfound := by
    change (session.context.globals.declare name ⟨name, type⟩).lookup? sought = _ at hknown
    change (session.state.globals.declare name value).lookup? sought = _ at hfound
    rw [Scope.lookup?_declare] at hknown hfound
    by_cases hsought : sought = name
    · rw [if_pos hsought] at hknown hfound
      cases hknown
      cases hfound
      exact ⟨hadmits, hvalue⟩
    · rw [if_neg hsought] at hknown hfound
      exact h.globals sought known found hknown hfound
  functions := h.functions
  objects := h.objects

/-- A function that the contract trusts may be defined. -/
theorem defineFunction {signature : Signature Ty} {body : H}
    (hadmits : contract.Admits signature.returns)
    (htrusts : contract.trusts world body (.function signature)) :
    (session.defineFunction signature body).Conforms
      (ledger.record (.defineFunction signature hadmits.1 body)) contract world where
  records := h.records
  globals := h.globals
  functions name arity found function hfound := by
    unfold Ledger.record at hfound
    rw [Bindings.find?_insert] at hfound
    split at hfound
    · cases hfound
      exact ⟨hadmits, htrusts⟩
    · exact h.functions name arity found function hfound
  objects := h.objects

/-- An object that conforms to its record may be added, in a world that has grown by it. -/
theorem addObject {record : RecordType Ty} {object : Object H} (hdefined : contract.defines record)
    (hobject : Object.Conforms contract.trusts (world.assign record) record object) :
    (session.addObject object).2.Conforms ledger contract (world.assign record) where
  records := h.records
  globals name known value hknown hvalue := by
    obtain ⟨hadmits, hholds⟩ := h.globals name known value hknown hvalue
    exact ⟨hadmits, hholds.later (world.le_assign record)⟩
  functions name arity signature function hfound := by
    obtain ⟨hadmits, htrusts⟩ := h.functions name arity signature function hfound
    exact ⟨hadmits, contract.trusts_later (world.le_assign record) htrusts⟩
  objects := Contract.conforms_append h.objects hdefined hobject

end Conforms

/-! ### Runs -/

/-- What a session that conforms has made known is covered by the contract. -/
theorem Conforms.covers (h : session.Conforms ledger contract world) (hkeyed : ledger.Keyed) :
    contract.Covers session.context ledger world :=
  ⟨hkeyed, h.records, h.functions⟩

/-- A session that conforms follows the discipline of its contract, so that what is known of runs
under a discipline applies. -/
theorem Sound.follows_contract (h : session.Sound ledger) (hkeyed : ledger.Keyed)
    (hconforms : session.Conforms ledger contract world) (methods : List Method) :
    (Discipline.ofContract (hconforms.covers hkeyed)).Follows methods {} [] ⟨world, le_refl world⟩
      (Program.opened session.state) := by
  refine ⟨?_, .empty, ⟨fun name ↦ ?_, h.globals.function?⟩, hconforms.objects,
    fun method _ ↦ Discipline.settlesMethod_of_blank (fun _ ↦ trivial) method⟩
  · change List.Forall₂ _ [] session.state.locals
    rw [h.locals]
    exact .nil
  · change Option.Rel _ _ (session.state.globals.lookup? name)
    have hrel := h.globals.lookup? name
    cases hknown : session.context.globals.lookup? name with
    | none =>
      rw [hknown] at hrel
      rw [option_rel_of_none hrel]
      exact .none
    | some known =>
      rw [hknown] at hrel
      obtain ⟨value, hvalue, -⟩ := option_rel_of_some hrel
      rw [hvalue]
      exact .some (hconforms.globals name known value hknown hvalue)

/-- A session conforms after a run whose last state follows the scopes of its program. -/
theorem Conforms.after_run {hcovers : contract.Covers session.context ledger world}
    {methods : List Method} {module : TypeScope}
    {later : (Discipline.ofContract hcovers).World} {state : State H}
    (hfollows : (Discipline.ofContract hcovers).Follows methods module [] later state) :
    Conforms { session with state } ledger contract later.1 where
  records := hcovers.records
  globals name known value hknown hvalue := by
    have hrel := hfollows.globals.lookup? name
    change session.context.globals.lookup? name = some known at hknown
    change state.globals.lookup? name = some value at hvalue
    rw [hknown, hvalue, Option.rel_some_some] at hrel
    exact hrel
  functions name arity signature function hfound := by
    obtain ⟨hadmits, htrusts⟩ := hcovers.functions name arity signature function hfound
    exact ⟨hadmits, contract.trusts_later later.2 htrusts⟩
  objects := hfollows.objects

end

end Session

end ScriptLang
