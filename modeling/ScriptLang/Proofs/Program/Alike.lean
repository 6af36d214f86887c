import Mathlib.Data.List.Forall2
import ScriptLang.Program.Erasure

/-!
Trees that differ in positions and annotations alone. Such trees have the same skeleton, so they are
built alike from parts that are alike, form by form.
-/

set_option autoImplicit false
set_option relaxedAutoImplicit false

namespace ScriptLang

def Expr.Alike (first second : Expr) : Prop :=
  first.relocate (fun _ ↦ 0) = second.relocate fun _ ↦ 0

def ArgsAlike (first second : List Expr) : Prop :=
  relocateArgs (fun _ ↦ 0) first = relocateArgs (fun _ ↦ 0) second

def Binding.Alike (first second : Binding) : Prop :=
  first.relocate (fun _ ↦ 0) = second.relocate fun _ ↦ 0

def Stmt.Alike (first second : Stmt) : Prop :=
  first.relocate (fun _ ↦ 0) = second.relocate fun _ ↦ 0

def BlocksAlike (first second : List Stmt) : Prop :=
  relocateAll (fun _ ↦ 0) first = relocateAll (fun _ ↦ 0) second

def Method.Alike (first second : Method) : Prop :=
  first.relocate (fun _ ↦ 0) = second.relocate fun _ ↦ 0

def Program.Alike (first second : Program) : Prop := first.skeleton = second.skeleton

namespace Expr.Alike

variable {mark : Mark} {other : Expr}

/-- Only a literal with the same value is like a literal. -/
theorem literal {value : Literal} (h : (Expr.literal mark value).Alike other) :
    ∃ mark', other = .literal mark' value := by
  cases other with
  | literal mark' value' =>
    obtain ⟨-, rfl⟩ := Expr.literal.inj h
    exact ⟨_, rfl⟩
  | _ => cases h

/-- Only a group is like a group. -/
theorem group {inner : Expr} (h : (Expr.group mark inner).Alike other) :
    ∃ mark' inner', other = .group mark' inner' ∧ inner.Alike inner' := by
  cases other with
  | group mark' inner' => exact ⟨_, _, rfl, (Expr.group.inj h).2⟩
  | _ => cases h

/-- Only the same operator on sides that are alike is like an operator. -/
theorem binary {op : BinaryOp} {left right : Expr}
    (h : (Expr.binary mark op left right).Alike other) :
    ∃ mark' left' right', other = .binary mark' op left' right' ∧ left.Alike left' ∧
      right.Alike right' := by
  cases other with
  | binary mark' op' left' right' =>
    obtain ⟨-, rfl, hleft, hright⟩ := Expr.binary.inj h
    exact ⟨_, _, _, rfl, hleft, hright⟩
  | _ => cases h

/-- Only a variable of the same name is like a variable. -/
theorem access {name : String} {resolved : Option (Variable Ty)}
    (h : (Expr.access mark name resolved).Alike other) :
    ∃ mark' resolved', other = .access mark' name resolved' := by
  cases other with
  | access mark' name' resolved' =>
    obtain ⟨-, rfl, -⟩ := Expr.access.inj h
    exact ⟨_, _, rfl⟩
  | _ => cases h

/-- Only a field of the same name, of receivers that are alike, is like a field. -/
theorem member {receiver : Expr} {name : String} {resolved : Option (Variable Ty)}
    (h : (Expr.member mark receiver name resolved).Alike other) :
    ∃ mark' receiver' resolved', other = .member mark' receiver' name resolved' ∧
      receiver.Alike receiver' := by
  cases other with
  | member mark' receiver' name' resolved' =>
    obtain ⟨-, hreceiver, rfl, -⟩ := Expr.member.inj h
    exact ⟨_, _, _, rfl, hreceiver⟩
  | _ => cases h

/-- Only a call of the same name with arguments that are alike is like a call. -/
theorem call {name : String} {args : List Expr} {resolved : Option (Signature Ty)}
    (h : (Expr.call mark name args resolved).Alike other) :
    ∃ mark' args' resolved', other = .call mark' name args' resolved' ∧ ArgsAlike args args' := by
  cases other with
  | call mark' name' args' resolved' =>
    obtain ⟨-, rfl, hargs, -⟩ := Expr.call.inj h
    exact ⟨_, _, _, rfl, hargs⟩
  | _ => cases h

/-- Only a call of the same method, of receivers that are alike, is like a call of a method. -/
theorem invoke {receiver : Expr} {name : String} {args : List Expr}
    {resolved : Option (Signature Ty)}
    (h : (Expr.invoke mark receiver name args resolved).Alike other) :
    ∃ mark' receiver' args' resolved', other = .invoke mark' receiver' name args' resolved' ∧
      receiver.Alike receiver' ∧ ArgsAlike args args' := by
  cases other with
  | invoke mark' receiver' name' args' resolved' =>
    obtain ⟨-, hreceiver, rfl, hargs, -⟩ := Expr.invoke.inj h
    exact ⟨_, _, _, _, rfl, hreceiver, hargs⟩
  | _ => cases h

end Expr.Alike

namespace ArgsAlike

theorem nil {others : List Expr} (h : ArgsAlike [] others) : others = [] := by
  cases others
  · rfl
  · cases h

/-- Arguments are alike one by one. -/
theorem cons {head : Expr} {tail others : List Expr} (h : ArgsAlike (head :: tail) others) :
    ∃ head' tail', others = head' :: tail' ∧ head.Alike head' ∧ ArgsAlike tail tail' := by
  cases others with
  | nil => cases h
  | cons head' tail' =>
    obtain ⟨hhead, htail⟩ := List.cons_eq_cons.mp h
    exact ⟨head', tail', rfl, hhead, htail⟩

end ArgsAlike

/-- Declarations that are alike declare one name. -/
theorem Binding.Alike.name {first second : Binding} (h : first.Alike second) :
    first.name = second.name := by
  have hname := congrArg Binding.name h
  exact hname

/-- Declarations that are alike have values that are alike, or neither has one. -/
theorem Binding.Alike.value {first second : Binding} (h : first.Alike second) :
    Option.Rel Expr.Alike first.value second.value := by
  have hvalue := congrArg Binding.value h
  unfold Binding.relocate at hvalue
  cases hfirst : first.value <;> cases hsecond : second.value <;>
    simp only [hfirst, hsecond, Option.map_none, Option.map_some, reduceCtorEq] at hvalue
  · exact .none
  · exact .some (Option.some.inj hvalue)

namespace Stmt.Alike

variable {other : Stmt}

/-- Only a call is like a call that stands as a statement. -/
theorem expr {value : Expr} (h : (Stmt.expr value).Alike other) :
    ∃ value', other = .expr value' ∧ value.Alike value' := by
  cases other with
  | expr value' => exact ⟨_, rfl, Stmt.expr.inj h⟩
  | _ => cases h

/-- Only a declaration is like a declaration. -/
theorem declare {binding : Binding} (h : (Stmt.declare binding).Alike other) :
    ∃ binding', other = .declare binding' ∧ binding.Alike binding' := by
  cases other with
  | declare binding' => exact ⟨_, rfl, Stmt.declare.inj h⟩
  | _ => cases h

/-- Only an assignment with both sides alike is like an assignment. -/
theorem assign {target value : Expr} (h : (Stmt.assign target value).Alike other) :
    ∃ target' value', other = .assign target' value' ∧ target.Alike target' ∧
      value.Alike value' := by
  cases other with
  | assign target' value' =>
    obtain ⟨htarget, hvalue⟩ := Stmt.assign.inj h
    exact ⟨_, _, rfl, htarget, hvalue⟩
  | _ => cases h

/-- Only a conditional is like a conditional, in its condition and in both of its blocks. -/
theorem branch {condition : Expr} {thenBody elseBody : List Stmt}
    (h : (Stmt.branch condition thenBody elseBody).Alike other) :
    ∃ condition' thenBody' elseBody', other = .branch condition' thenBody' elseBody' ∧
      condition.Alike condition' ∧ BlocksAlike thenBody thenBody' ∧
      BlocksAlike elseBody elseBody' := by
  cases other with
  | branch condition' thenBody' elseBody' =>
    obtain ⟨hcondition, hthen, helse⟩ := Stmt.branch.inj h
    exact ⟨_, _, _, rfl, hcondition, hthen, helse⟩
  | _ => cases h

/-- Only a loop over a range with the same variable is like such a loop. -/
theorem forEach {offset : Nat} {name : String} {iterable : Expr} {body : List Stmt}
    (h : (Stmt.forEach offset name iterable body).Alike other) :
    ∃ offset' iterable' body', other = .forEach offset' name iterable' body' ∧
      iterable.Alike iterable' ∧ BlocksAlike body body' := by
  cases other with
  | forEach offset' name' iterable' body' =>
    obtain ⟨-, rfl, hiterable, hbody⟩ := Stmt.forEach.inj h
    exact ⟨_, _, _, rfl, hiterable, hbody⟩
  | _ => cases h

/-- Only a conditional loop is like a conditional loop. -/
theorem loop {condition : Expr} {body : List Stmt} (h : (Stmt.loop condition body).Alike other) :
    ∃ condition' body', other = .loop condition' body' ∧ condition.Alike condition' ∧
      BlocksAlike body body' := by
  cases other with
  | loop condition' body' =>
    obtain ⟨hcondition, hbody⟩ := Stmt.loop.inj h
    exact ⟨_, _, rfl, hcondition, hbody⟩
  | _ => cases h

/-- Only a RETURN is like a RETURN. -/
theorem ret {value : Expr} (h : (Stmt.ret value).Alike other) :
    ∃ value', other = .ret value' ∧ value.Alike value' := by
  cases other with
  | ret value' => exact ⟨_, rfl, Stmt.ret.inj h⟩
  | _ => cases h

end Stmt.Alike

namespace BlocksAlike

theorem nil {others : List Stmt} (h : BlocksAlike [] others) : others = [] := by
  cases others
  · rfl
  · cases h

/-- Statements are alike one by one. -/
theorem cons {head : Stmt} {tail others : List Stmt} (h : BlocksAlike (head :: tail) others) :
    ∃ head' tail', others = head' :: tail' ∧ head.Alike head' ∧ BlocksAlike tail tail' := by
  cases others with
  | nil => cases h
  | cons head' tail' =>
    obtain ⟨hhead, htail⟩ := List.cons_eq_cons.mp h
    exact ⟨head', tail', rfl, hhead, htail⟩

end BlocksAlike

namespace Method.Alike

variable {first second : Method} (h : first.Alike second)
include h

theorem name : first.name = second.name := by
  have hname := congrArg Method.name h
  exact hname

theorem params : first.params = second.params := by
  have hparams := congrArg Method.params h
  exact hparams

theorem body : BlocksAlike first.body second.body := congrArg Method.body h

end Method.Alike

/-- Lists that are alike once each item is reduced hold items that are alike, in order. -/
theorem forall₂_of_map_eq {α β : Type} {reduce : α → β} {first second : List α}
    (h : first.map reduce = second.map reduce) :
    List.Forall₂ (fun item other ↦ reduce item = reduce other) first second := by
  rw [← List.forall₂_eq_eq_eq, List.forall₂_map_left_iff, List.forall₂_map_right_iff] at h
  exact h

namespace Program.Alike

variable {first second : Program} (h : first.Alike second)
include h

theorem fields : List.Forall₂ Binding.Alike first.fields second.fields :=
  forall₂_of_map_eq (congrArg Program.fields h)

theorem methods : List.Forall₂ Method.Alike first.methods second.methods :=
  forall₂_of_map_eq (congrArg Program.methods h)

end Program.Alike

end ScriptLang
