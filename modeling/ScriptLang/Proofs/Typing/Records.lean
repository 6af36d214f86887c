import Mathlib.Order.Defs.PartialOrder
import ScriptLang.Execution.Run
import ScriptLang.Proofs.Typing.Decision
import ScriptLang.Proofs.Typing.Kinds

/-!
Objects and the record types that programs know them by. Programs compare record types by name
alone, so the host has to see to it that each name stands for one definition, that its objects have
the members of their records, and that its functions and methods keep to their types. What is said
of the functions rests on what is said of the objects, and that on the methods, which are functions
again; so a contract names the functions that are trusted, and promises that each of them keeps
objects as they were described as long as all methods are trusted.
-/

set_option autoImplicit false
set_option relaxedAutoImplicit false

namespace ScriptLang

/-- The failures in the use of a member. -/
def RuntimeError.IsMember : RuntimeError → Prop
  | undefinedField _ _ | undefinedMethod _ _ _ | wrongArgumentCount _ _
  | typeMismatch .object _ => True
  | _ => False

/-- Two definitions of a record that differ in nothing that programs can see: types are the same if
they have the same name. -/
def RecordType.Agrees (first second : RecordType Ty) : Prop :=
  Scope.Follows (fun (field other : Variable Ty) ↦ field.type.same other.type = true)
    (fun _ _ (method other : Signature Ty) ↦
      List.Forall₂ (fun type other ↦ Ty.same type other = true) (method.params.drop 1)
        (other.params.drop 1) ∧ method.returns.same other.returns = true)
    first.members second.members

theorem Ty.same_refl (type : Ty) : type.same type = true := Ty.same_iff.mpr (.inl rfl)

/-- A definition of a record agrees with itself. -/
theorem RecordType.Agrees.refl (record : RecordType Ty) : record.Agrees record := by
  refine ⟨fun name ↦ ?_, fun name arity ↦ ?_⟩
  · cases record.members.lookup? name with
    | none => exact .none
    | some field => exact .some field.type.same_refl
  · cases record.members.function? name arity with
    | none => exact .none
    | some method =>
      exact .some ⟨List.forall₂_same.mpr fun type _ ↦ type.same_refl, method.returns.same_refl⟩

/-- The record types that a host makes use of, of which there is one for each name. -/
structure Vocabulary where
  defines : RecordType Ty → Prop
  defines_field : ∀ {record name field inner}, defines record →
    record.members.lookup? name = some field → field.type = .record inner → defines inner
  defines_method : ∀ {record name arity signature inner}, defines record →
    record.members.function? name arity = some signature → signature.returns = .record inner →
    defines inner
  agrees : ∀ {first second}, defines first → defines second → first.name = second.name →
    first.Agrees second

namespace Vocabulary

variable {vocabulary : Vocabulary}

/-- The types that a host may tell programs of. -/
def Admits (vocabulary : Vocabulary) (type : Ty) : Prop :=
  type.Built ∧ ∀ record, type = .record record → vocabulary.defines record

theorem admits_plain {type : Ty} (hplain : ∀ record, type ≠ .record record) :
    vocabulary.Admits type :=
  ⟨Ty.built_of_plain hplain, fun record hrecord ↦ (hplain record hrecord).elim⟩

/-- The fields of an admitted record type are of admitted types. -/
theorem Admits.field? {type : Ty} {name : String} {found : Variable Ty}
    (h : vocabulary.Admits type) (hfound : type.field? name = some found) :
    vocabulary.Admits found.type := by
  obtain ⟨record, rfl, hmember⟩ := Ty.field?_eq_some.mp hfound
  exact ⟨h.1.field? hfound, fun inner hinner ↦
    vocabulary.defines_field (h.2 record rfl) hmember hinner⟩

/-- The methods of an admitted record type return admitted types, and are keyed by their own counts
of parameters. -/
theorem Admits.method? {type : Ty} {name : String} {arity : Nat} {found : Signature Ty}
    (h : vocabulary.Admits type) (hfound : type.method? name arity = some found) :
    found.arity = arity ∧ vocabulary.Admits found.returns := by
  obtain ⟨record, rfl, hmember⟩ := Ty.method?_eq_some.mp hfound
  obtain ⟨harity, hbuilt⟩ := h.1.method? hfound
  exact ⟨harity, hbuilt, fun inner hinner ↦
    vocabulary.defines_method (h.2 record rfl) hmember hinner⟩

end Vocabulary

/-! ### Objects by number -/

/-- The record types of the objects of a host, by the numbers of the objects. -/
structure Assignment where
  records : List (RecordType Ty) := []

namespace Assignment

/-- There may be more objects later on; those that there are keep their record types. -/
instance : Preorder Assignment where
  le world later := world.records <+: later.records
  le_refl world := List.prefix_refl world.records
  le_trans _ _ _ := List.IsPrefix.trans

/-- One more object, of the type `record`. -/
def assign (world : Assignment) (record : RecordType Ty) : Assignment :=
  ⟨world.records ++ [record]⟩

theorem le_assign (world : Assignment) (record : RecordType Ty) : world ≤ world.assign record :=
  List.prefix_append world.records [record]

/-- The object behind `ref` is of a record type with the name of `record`. -/
def Assigns (world : Assignment) (ref : ObjectRef) (record : RecordType Ty) : Prop :=
  ∃ assigned, world.records[ref.index]? = some assigned ∧ assigned.name = record.name

/-- A variable of type `type` can have `value`: NIL or a value of that type. An object is of its own
record type alone, or where any value is expected. -/
structure Holds (world : Assignment) (type : Ty) (value : Value) : Prop where
  kind : type.Holds value
  object : ∀ record ref, type = .record record → value = .object ref → world.Assigns ref record

variable {world : Assignment} {type : Ty} {value : Value} {record : RecordType Ty}
  {ref : ObjectRef}

/-- An object keeps its record type when there are more. -/
theorem getElem?_later {later : Assignment} (hlater : world ≤ later) {index : Nat}
    {assigned : RecordType Ty} (h : world.records[index]? = some assigned) :
    later.records[index]? = some assigned := by
  obtain ⟨added, hadded⟩ : world.records <+: later.records := hlater
  obtain ⟨hindex, -⟩ := List.getElem?_eq_some_iff.mp h
  rw [← hadded, List.getElem?_append_left hindex, h]

/-- An object is still of a record type when there are more. -/
theorem Assigns.later {later : Assignment} (h : world.Assigns ref record) (hlater : world ≤ later) :
    later.Assigns ref record := by
  obtain ⟨assigned, hassigned, hname⟩ := h
  exact ⟨assigned, getElem?_later hlater hassigned, hname⟩

/-- A variable of a record type can have the objects of that type. -/
theorem Assigns.holds (h : world.Assigns ref record) :
    world.Holds (.record record) (.object ref) := by
  refine ⟨.inr fun kind hkind ↦ Option.some_inj.mp hkind, fun other found hother hfound ↦ ?_⟩
  cases hother
  cases hfound
  exact h

namespace Holds

/-- What a variable can have it can have when there are more objects. -/
theorem later {later : Assignment} (h : world.Holds type value) (hlater : world ≤ later) :
    later.Holds type value :=
  ⟨h.kind, fun record ref hrecord href ↦ (h.object record ref hrecord href).later hlater⟩

/-- Where no record type is concerned, the kind of a value says it all. -/
theorem of_plain (hplain : ∀ record, type ≠ .record record) (h : type.Holds value) :
    world.Holds type value :=
  ⟨h, fun record _ hrecord ↦ (hplain record hrecord).elim⟩

theorem nil (type : Ty) : world.Holds type .nil := ⟨.nil type, fun _ _ _ h ↦ nomatch h⟩

/-- A value may go wherever its type is assignable. -/
theorem assignable {target source : Ty} (htarget : target.assignable source = true)
    (h : world.Holds source value) : world.Holds target value := by
  refine ⟨h.kind.assignable htarget, fun record ref hrecord href ↦ ?_⟩
  subst hrecord
  obtain rfl | ⟨_, other, hone, rfl, hname⟩ := Ty.same_iff.mp
    (((Bool.or_eq_true _ _).mp htarget).resolve_right Bool.false_ne_true)
  · exact h.object record ref rfl href
  · cases hone
    obtain ⟨assigned, hassigned, hother⟩ := h.object other ref rfl href
    exact ⟨assigned, hassigned, hother.trans hname.symm⟩

theorem same {other : Ty} (hsame : type.same other = true) (h : world.Holds other value) :
    world.Holds type value :=
  h.assignable ((Bool.or_eq_true _ _).mpr (.inl hsame))

theorem all_same {types others : List Ty} {values : List Value}
    (hsame : List.Forall₂ (fun type other ↦ Ty.same type other = true) types others)
    (h : List.Forall₂ world.Holds others values) : List.Forall₂ world.Holds types values := by
  induction hsame generalizing values with
  | nil => exact h
  | cons hhead _ ih =>
    cases h with
    | cons hvalue htail => exact .cons (hvalue.same hhead) (ih htail)

end Holds

end Assignment

/-! ### What a host promises -/

/-- What a function of the host is called as: by its name, or as a method of a record, with the
object before the other arguments. -/
inductive Role
  | function (signature : Signature Ty)
  | method (record : RecordType Ty) (signature : Signature Ty)

namespace Role

def returns : Role → Ty
  | function signature | method _ signature => signature.returns

/-- The arguments that a call in this role has. -/
def Takes (world : Assignment) : Role → List Value → Prop
  | function signature, args => List.Forall₂ world.Holds signature.params args
  | method record signature, args => ∃ ref rest, args = .object ref :: rest ∧
    world.Assigns ref record ∧ List.Forall₂ world.Holds (signature.params.drop 1) rest

end Role

variable {H : Type}

namespace ObjectStore

variable {objects after : ObjectStore H} {ref : ObjectRef} {name : String} {value : Value}

/-- Reading a field succeeds with what the object has by that name. -/
theorem field_eq_ok :
    objects.field ref name = .ok value ↔ (objects.members ref).lookup? name = some value := by
  unfold field
  split <;> simp_all

/-- Finding a method succeeds with what the object has by that name and count of arguments. -/
theorem method_eq_ok {arity : Nat} {function : HostFunction H} :
    objects.method ref name arity = .ok function ↔
      (objects.members ref).function? name arity = some function := by
  unfold method
  split <;> simp_all

/-- Writing a field that succeeds changes one object, in one field. -/
theorem setField_eq_ok (h : objects.setField ref name value = .ok after) :
    ∃ object, objects[ref.index]? = some object ∧
      after = objects.set ref.index (object.withField name value) := by
  unfold setField at h
  split at h
  · rename_i changed hchanged
    cases h
    obtain ⟨object, hobject, hset⟩ := Option.bind_eq_some_iff.mp hchanged
    refine ⟨object, hobject, ?_⟩
    unfold Object.setField? at hset
    split at hset
    · cases hset
      rfl
    · cases hset
  · cases h

end ObjectStore

/-- An object has all members of its record type: its fields with values of their types, and its
methods, which are trusted. -/
structure Object.Conforms (trusts : Assignment → H → Role → Prop) (world : Assignment)
    (record : RecordType Ty) (object : Object H) : Prop where
  fields : ∀ {name field}, record.members.lookup? name = some field →
    ∃ value, object.members.lookup? name = some value ∧ world.Holds field.type value
  methods : ∀ {name arity signature}, record.members.function? name arity = some signature →
    ∃ function, object.members.function? name arity = some function ∧
      trusts world function.body (.method record signature)

/-- All objects conform to their record types. -/
structure ObjectStore.Conforms (vocabulary : Vocabulary) (trusts : Assignment → H → Role → Prop)
    (world : Assignment) (objects : ObjectStore H) : Prop where
  defined : ∀ record ∈ world.records, vocabulary.defines record
  objects : ∀ index : Nat,
    Option.Rel (Object.Conforms trusts world) world.records[index]? objects[index]?

section

variable {vocabulary : Vocabulary} {trusts : Assignment → H → Role → Prop} {world : Assignment}
  {objects : ObjectStore H} {ref : ObjectRef} {record : RecordType Ty} {name : String}
  {value : Value}

/-- Giving a field a value of its type keeps an object conforming. -/
theorem Object.Conforms.withField {object : Object H}
    (h : Object.Conforms trusts world record object)
    (hvalue : ∀ field, record.members.lookup? name = some field → world.Holds field.type value) :
    Object.Conforms trusts world record (object.withField name value) where
  fields {sought field} hfield := by
    change ∃ found, (object.members.declare name value).lookup? sought = some found ∧ _
    rw [Scope.lookup?_declare]
    by_cases hsought : sought = name
    · subst hsought
      exact ⟨value, if_pos rfl, hvalue field hfield⟩
    · rw [if_neg hsought]
      exact h.fields hfield
  methods := h.methods

namespace ObjectStore.Conforms

/-- There are as many objects as there are record types assigned. -/
theorem length_eq (h : objects.Conforms vocabulary trusts world) :
    objects.length = world.records.length := by
  have hnone (index : Nat) : world.records[index]? = none ↔ objects[index]? = none := by
    rw [← Option.isNone_iff_eq_none, ← Option.isNone_iff_eq_none, ← Option.not_isSome,
      ← Option.not_isSome, option_rel_isSome (h.objects index)]
  simp only [List.getElem?_eq_none_iff] at hnone
  exact Nat.le_antisymm ((hnone _).mp (Nat.le_refl _)) ((hnone _).mpr (Nat.le_refl _))

variable (hobjects : objects.Conforms vocabulary trusts world)
  (hdefined : vocabulary.defines record) (hassigns : world.Assigns ref record)

include hobjects hdefined hassigns

/-- An object that is known as one of `record` conforms to a definition that agrees with it. -/
theorem object :
    ∃ assigned object, world.records[ref.index]? = some assigned ∧
      objects[ref.index]? = some object ∧ Object.Conforms trusts world assigned object ∧
      record.Agrees assigned ∧ assigned.Agrees record := by
  obtain ⟨assigned, hassigned, hname⟩ := hassigns
  have hrel := hobjects.objects ref.index
  rw [hassigned] at hrel
  obtain ⟨object, hobject, hconforms⟩ := option_rel_of_some hrel
  have hother := hobjects.defined assigned (List.mem_of_getElem? hassigned)
  exact ⟨assigned, object, hassigned, hobject, hconforms,
    vocabulary.agrees hdefined hother hname.symm, vocabulary.agrees hother hdefined hname⟩

/-- An object has the fields of its record type, with values of their types. -/
theorem field {field : Variable Ty} (hfield : record.members.lookup? name = some field) :
    ∃ value, (objects.members ref).lookup? name = some value ∧ world.Holds field.type value := by
  obtain ⟨assigned, object, -, hobject, hconforms, hagrees, -⟩ :=
    hobjects.object hdefined hassigns
  obtain ⟨other, hother, hsame⟩ := option_rel_of_some (hfield ▸ hagrees.lookup? name)
  obtain ⟨value, hvalue, hholds⟩ := hconforms.fields hother
  refine ⟨value, ?_, hholds.same hsame⟩
  rw [members, hobject]
  exact hvalue

/-- Objects still conform when a field is given a value of its type. -/
theorem setField {field : Variable Ty} (hfield : record.members.lookup? name = some field)
    (hvalue : world.Holds field.type value) {after : ObjectStore H}
    (hafter : objects.setField ref name value = .ok after) :
    after.Conforms vocabulary trusts world := by
  obtain ⟨assigned, object, hassigned, hobject, hconforms, -, hagrees⟩ :=
    hobjects.object hdefined hassigns
  obtain ⟨other, hother, rfl⟩ := setField_eq_ok hafter
  rw [hobject] at hother
  cases hother
  refine ⟨hobjects.defined, fun index ↦ ?_⟩
  rw [List.getElem?_set]
  by_cases hindex : ref.index = index
  · obtain ⟨hlength, -⟩ := List.getElem?_eq_some_iff.mp hobject
    rw [if_pos hindex, ← hindex, if_pos hlength, hassigned]
    refine .some (hconforms.withField fun found hfound ↦ ?_)
    have hsame := hagrees.lookup? name
    rw [hfound, hfield, Option.rel_some_some] at hsame
    exact hvalue.same hsame
  · rw [if_neg hindex]
    exact hobjects.objects index

end ObjectStore.Conforms

end

/-- A call of a function of the host that is made in `world` keeps objects conforming and gives a
value of type `returns`, or it fails in a way of its own. -/
structure Host.Keeps [Host H] (vocabulary : Vocabulary) (trusts : Assignment → H → Role → Prop)
    (world : Assignment) (body : H) (args : List Value) (objects : ObjectStore H) (returns : Ty)
    (later : Assignment) : Prop where
  grows : world ≤ later
  conforms : (Host.run body args objects).2.Conforms vocabulary trusts later
  value : ∀ {value}, (Host.run body args objects).1 = .ok value → later.Holds returns value
  error : ∀ {cause}, (Host.run body args objects).1 = .error cause → ¬ cause.IsMember

/-- What a host promises: functions that keep to their signatures as long as objects conform. -/
structure Contract (H : Type) [Host H] extends Vocabulary where
  trusts : Assignment → H → Role → Prop
  trusts_later : ∀ {world later body role}, world ≤ later → trusts world body role →
    trusts later body role
  keeps : ∀ {world body role args} {objects : ObjectStore H}, trusts world body role →
    role.Takes world args → objects.Conforms toVocabulary trusts world →
    ∃ later, Host.Keeps toVocabulary trusts world body args objects role.returns later

namespace Contract

variable [Host H] {contract : Contract H} {world : Assignment} {objects : ObjectStore H}
  {ref : ObjectRef} {record : RecordType Ty} {name : String}

/-- The objects of a host conform as its contract says. -/
abbrev Conforms (contract : Contract H) (world : Assignment) (objects : ObjectStore H) : Prop :=
  objects.Conforms contract.toVocabulary contract.trusts world

/-- An object still conforms when there are more objects. -/
theorem object_later {later : Assignment} (hlater : world ≤ later) {object : Object H}
    (h : Object.Conforms contract.trusts world record object) :
    Object.Conforms contract.trusts later record object where
  fields hfield := by
    obtain ⟨value, hvalue, hholds⟩ := h.fields hfield
    exact ⟨value, hvalue, hholds.later hlater⟩
  methods hmethod := by
    obtain ⟨function, hfunction, htrusts⟩ := h.methods hmethod
    exact ⟨function, hfunction, contract.trusts_later hlater htrusts⟩

/-- Objects conform next to one more that is assigned a record type. -/
theorem conforms_append (hobjects : contract.Conforms world objects)
    (hdefined : contract.defines record) {object : Object H}
    (hobject : Object.Conforms contract.trusts (world.assign record) record object) :
    contract.Conforms (world.assign record) (objects ++ [object]) := by
  refine ⟨fun other hother ↦ ?_, fun index ↦ ?_⟩
  · obtain hother | hother := List.mem_append.mp hother
    · exact hobjects.defined other hother
    · exact List.mem_singleton.mp hother ▸ hdefined
  · unfold Assignment.assign
    rw [List.getElem?_append, List.getElem?_append, hobjects.length_eq]
    by_cases hindex : index < world.records.length
    · rw [if_pos hindex, if_pos hindex]
      have hrel := hobjects.objects index
      rw [List.getElem?_eq_getElem hindex] at hrel ⊢
      obtain ⟨earlier, hearlier, hconforms⟩ := option_rel_of_some hrel
      rw [hearlier]
      exact .some (object_later (world.le_assign record) hconforms)
    · rw [if_neg hindex, if_neg hindex]
      cases index - world.records.length with
      | zero => exact .some hobject
      | succ index => exact .none

/-- An object has the methods of its record type, and they keep to their signatures. -/
theorem method_keeps (hobjects : contract.Conforms world objects)
    (hdefined : contract.defines record) (hassigns : world.Assigns ref record) {arity : Nat}
    {signature : Signature Ty} (hsignature : record.members.function? name arity = some signature) :
    ∃ function, (objects.members ref).function? name arity = some function ∧
      ∀ args, List.Forall₂ world.Holds (signature.params.drop 1) args →
        ∃ later, Host.Keeps contract.toVocabulary contract.trusts world function.body
          (.object ref :: args) objects signature.returns later := by
  obtain ⟨assigned, object, hassigned, hobject, hconforms, hagrees, hagrees'⟩ :=
    hobjects.object hdefined hassigns
  -- The object may be assigned another definition of the record: arguments are carried from
  -- `record` to that one, and the result is carried back.
  obtain ⟨other, hother, -, hreturns⟩ :=
    option_rel_of_some (hsignature ▸ hagrees.function? name arity)
  have hback := hagrees'.function? name arity
  rw [hother, hsignature, Option.rel_some_some] at hback
  obtain ⟨function, hfunction, htrusts⟩ := hconforms.methods hother
  refine ⟨function, ?_, fun args hargs ↦ ?_⟩
  · rw [ObjectStore.members, hobject]
    exact hfunction
  · have htakes : (Role.method assigned other).Takes world (.object ref :: args) :=
      ⟨ref, args, rfl, ⟨assigned, hassigned, rfl⟩, Assignment.Holds.all_same hback.1 hargs⟩
    obtain ⟨later, hkeeps⟩ := contract.keeps htrusts htakes hobjects
    exact ⟨later, hkeeps.grows, hkeeps.conforms, fun hvalue ↦ (hkeeps.value hvalue).same hreturns,
      hkeeps.error⟩

end Contract

end ScriptLang
