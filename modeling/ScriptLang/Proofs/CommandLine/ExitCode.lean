import ScriptLang.CommandLine
import ScriptLang.Proofs.Execution.Fuel
import ScriptLang.Proofs.Session.Rejection

/-!
The exit code of the program for a file. It is narrowed in two steps, to a word of 64 bits and then
to a byte. Where the first step succeeds the code is the result modulo 256, whatever its sign; a
result that no such word holds gives the code of a failure, like every end that is not an integer.
-/

set_option autoImplicit false
set_option relaxedAutoImplicit false

namespace ScriptLang

/-- A run of a text that was not cut off gives the same with more fuel. -/
theorem Session.run_of_le {H : Type} [Host H] {session : Session H} {text : String}
    {fuel more : Nat} (hmore : fuel ≤ more)
    (hended : (session.run fuel text).1 ≠ .error .outOfFuel) :
    session.run more text = session.run fuel text := by
  unfold Session.run at hended ⊢
  cases haccepted : Program.ofCheckedText session.context text with
  | ok program =>
    rw [haccepted] at hended
    exact Session.interpret_of_le hmore hended
  | error cause => rfl

namespace CommandLine

/-! ### Narrowing -/

/-- The words of 64 bits, as integers. -/
def FitsDoubleWord (n : Int) : Prop := -2 ^ 63 ≤ n ∧ n < 2 ^ 63

instance (n : Int) : Decidable (FitsDoubleWord n) := inferInstanceAs (Decidable (_ ∧ _))

/-- The word of 64 bits that stands for an integer, if there is one. -/
def doubleWord? (n : Int) : Option (BitVec 64) :=
  if FitsDoubleWord n then some (BitVec.ofInt 64 n) else none

def lowByte (word : BitVec 64) : UInt8 := .ofBitVec (word.setWidth 8)

/-- A word keeps the low byte of what it stands for. -/
theorem toNat_lowByte (n : Int) : ((lowByte (BitVec.ofInt 64 n)).toNat : Int) = n % 256 := by
  change (((BitVec.ofInt 64 n).setWidth 8).toNat : Int) = _
  rw [BitVec.toNat_setWidth, BitVec.toNat_ofInt, Int.natCast_mod, Int.toNat_of_nonneg (by omega)]
  exact Int.emod_emod_of_dvd n (by decide)

/-- The low byte of an integer is that of its two's complement in 64 bits. -/
theorem ofNat_emod (n : Int) : UInt8.ofNat (n % 256).toNat = lowByte (BitVec.ofInt 64 n) := by
  refine UInt8.toNat_inj.mp (Int.ofNat_inj.mp ?_)
  rw [toNat_lowByte, UInt8.toNat_ofNat']
  omega

/-- The exit code is the low byte of the word for an integer, where there is such a word. -/
theorem exitCode_eq (value : Value) :
    exitCode value = ((value.asInteger.toOption.bind doubleWord?).map lowByte).getD 1 := by
  cases value with
  | integer n =>
    change (if (-0x8000000000000000 ≤ n && n < 0x8000000000000000) = true then
        UInt8.ofNat (n % 256).toNat else 1) = ((doubleWord? n).map lowByte).getD 1
    unfold doubleWord?
    by_cases hfits : FitsDoubleWord n
    · rw [if_pos (by simpa [FitsDoubleWord] using hfits), if_pos hfits, ofNat_emod]
      rfl
    · rw [if_neg (by simpa [FitsDoubleWord] using hfits), if_neg hfits]
      rfl
  | nil | boolean | decimal | character | string | range | object => rfl

/-- An integer has the code that is its low byte if a word holds it, and hardly ever else. -/
theorem exitCode_integer_iff (n : Int) :
    ((exitCode (.integer n)).toNat : Int) = n % 256 ↔ FitsDoubleWord n ∨ n % 256 = 1 := by
  rw [exitCode_eq]
  change ((((doubleWord? n).map lowByte).getD 1).toNat : Int) = n % 256 ↔ _
  unfold doubleWord?
  by_cases hfits : FitsDoubleWord n
  · rw [if_pos hfits]
    exact iff_of_true (toNat_lowByte n) (.inl hfits)
  · rw [if_neg hfits, or_iff_right hfits]
    exact eq_comm

/-! ### Files -/

/-- How the pipeline ends for the content of a file, in an interpreter of its own, and what was
printed by then: with an integer, or in another way. -/
inductive FileEnds (fuel : Nat) : Except ReadError ByteArray → Option Int → String → Prop
  | unreadable (cause : ReadError) : FileEnds fuel (.error cause) none ""
  | notText {bytes : ByteArray} (hbytes : ∀ text : String, bytes ≠ text.toUTF8) :
    FileEnds fuel (.ok bytes) none ""
  | value {text : String} {value : Value} {interpreter : Interpreter Empty}
    (hrun : (Interpreter.initial (.text "")).run fuel text = (.ok value, interpreter)) :
    FileEnds fuel (.ok text.toUTF8) value.asInteger.toOption interpreter.state.sink.printed
  | failed {text : String} {cause : RunError} {interpreter : Interpreter Empty}
    (hrun : (Interpreter.initial (.text "")).run fuel text = (.error cause, interpreter))
    (hended : cause ≠ .outOfFuel) :
    FileEnds fuel (.ok text.toUTF8) none interpreter.state.sink.printed

/-- The bytes of a text are decoded to it. -/
theorem decode_toUTF8 (text : String) : decode (.ok text.toUTF8) = .ok text := by
  have htext : String.fromUTF8? text.toUTF8 = some text := by
    unfold String.fromUTF8?
    exact dif_pos text.isValidUTF8
  unfold decode
  simp only [bind, Except.bind, htext]
  rfl

/-- Bytes that are those of no text are not decoded. -/
theorem decode_of_not_text {bytes : ByteArray} (hbytes : ∀ text : String, bytes ≠ text.toUTF8) :
    decode (.ok bytes) = .error .invalidText := by
  have hnone : String.fromUTF8? bytes = none := by
    unfold String.fromUTF8?
    exact dif_neg fun hvalid ↦ hbytes (String.fromUTF8 bytes hvalid) rfl
  unfold decode
  simp only [bind, Except.bind, hnone]
  rfl

/-- A text is run as in a fresh interpreter. -/
theorem runText_eq (fuel : Nat) (text : String) :
    runText fuel text =
      (((Interpreter.initial (H := Empty) (.text "")).run fuel text).1,
        ((Interpreter.initial (H := Empty) (.text "")).run fuel text).2.state.sink.printed) := by
  let fresh : Interpreter Empty := .initial (.text "")
  have hinitial : fresh.session = Session.initial (.text "") :=
    congrArg (Session.mk · _) Analyzer.context_initial
  have hready : fresh.analyzer.Ready := Analyzer.ready_initial
  obtain ⟨hresult, hsession, -⟩ := Interpreter.session_run hready fuel text
  have hstate := congrArg Session.state hsession
  rw [hinitial] at hresult hstate
  unfold runText
  rw [hresult]
  exact congrArg (fun state : State Empty ↦ (_, state.sink.printed)) hstate.symm

/-- A text whose run was not cut off gives the same with more fuel. -/
theorem runText_of_le {fuel more : Nat} (hmore : fuel ≤ more) {text : String}
    (hended : (runText fuel text).1 ≠ .error .outOfFuel) :
    runText more text = runText fuel text := by
  unfold runText at hended ⊢
  rw [Session.run_of_le hmore hended]

/-- What the program reports for a text that was run to a value. -/
theorem runFile_of_value {fuel : Nat} {path text output : String} {value : Value}
    (hrun : runText fuel text = (.ok value, output)) :
    runFile fuel path (.ok text.toUTF8) = { code := exitCode value, output } := by
  unfold runFile
  rw [decode_toUTF8]
  dsimp only
  rw [hrun]

/-- What the program reports for a text whose run has failed. -/
theorem runFile_of_error {fuel : Nat} {path text output : String} {cause : RunError}
    (hrun : runText fuel text = (.error cause, output)) :
    runFile fuel path (.ok text.toUTF8) =
      { code := 1, output, errors := "error: " ++ cause.message ++ "\n" } := by
  unfold runFile
  rw [decode_toUTF8]
  dsimp only
  rw [hrun]

/-- The pipeline ends for every content, unless the run of its text is cut off. -/
theorem exists_fileEnds (fuel : Nat) (content : Except ReadError ByteArray) :
    (∃ result output, FileEnds fuel content result output) ∨
      ∃ text : String, content = .ok text.toUTF8 ∧
        ((Interpreter.initial (H := Empty) (.text "")).run fuel text).1 = .error .outOfFuel := by
  cases content with
  | error cause => exact .inl ⟨_, _, .unreadable cause⟩
  | ok bytes =>
    by_cases htext : ∃ text : String, bytes = text.toUTF8
    · obtain ⟨text, rfl⟩ := htext
      cases hrun : (Interpreter.initial (H := Empty) (.text "")).run fuel text with
      | mk result interpreter =>
        cases result with
        | ok value => exact .inl ⟨_, _, .value hrun⟩
        | error cause =>
          by_cases hcause : cause = .outOfFuel
          · exact .inr ⟨text, rfl, by rw [hrun, hcause]⟩
          · exact .inl ⟨_, _, .failed hrun hcause⟩
    · exact .inl ⟨_, _, .notText fun text h ↦ htext ⟨text, h⟩⟩

/-- What is reported for an end of the pipeline: its output, and the code for its result. Messages
are kept for the ends that are no integer. -/
structure Reports (result : Option Int) (output : String) (report : Report) : Prop where
  output : report.output = output
  errors : result ≠ none → report.errors = ""
  code : report.code = ((result.bind doubleWord?).map lowByte).getD 1

/-- Every way to end is reported with its output and the code for its result, also with more
fuel. -/
theorem FileEnds.reports {fuel more : Nat} {content : Except ReadError ByteArray}
    {result : Option Int} {output : String} (hends : FileEnds fuel content result output)
    (hmore : fuel ≤ more) (path : String) :
    Reports result output (runFile more path content) := by
  cases hends with
  | unreadable cause => exact ⟨rfl, fun h ↦ absurd rfl h, rfl⟩
  | notText hbytes =>
    unfold runFile
    rw [decode_of_not_text hbytes]
    exact ⟨rfl, fun h ↦ absurd rfl h, rfl⟩
  | @value text value interpreter hrun =>
    have htext := runText_eq fuel text
    rw [hrun] at htext
    rw [runFile_of_value ((runText_of_le hmore (by rw [htext]; nofun)).trans htext)]
    exact ⟨rfl, fun _ ↦ rfl, exitCode_eq value⟩
  | @failed text cause interpreter hrun hended =>
    have htext := runText_eq fuel text
    rw [hrun] at htext
    have hended : (runText fuel text).1 ≠ .error .outOfFuel := by
      rw [htext]
      exact fun h ↦ hended (Except.error.inj h)
    rw [runFile_of_error ((runText_of_le hmore hended).trans htext)]
    exact ⟨rfl, fun h ↦ absurd rfl h, rfl⟩

/-- The exit code for a file. If the pipeline ends with an integer, just the output of the program
is printed, with no message, and the code is the low byte of the word of 64 bits for the integer, or
that of a failure if there is no such word; so it is the integer modulo 256 if a word holds it, and
else only where that is the code of a failure. If the pipeline ends in another way, the code is that
of a failure. More fuel changes none of this, and the pipeline ends unless the run is cut off. -/
theorem runFile_code (fuel : Nat) (path : String) (content : Except ReadError ByteArray) :
    ((∃ result output, FileEnds fuel content result output) ∨
      ∃ text : String, content = .ok text.toUTF8 ∧
        ((Interpreter.initial (H := Empty) (.text "")).run fuel text).1 = .error .outOfFuel) ∧
    ∀ result output, FileEnds fuel content result output → ∀ more ≥ fuel,
      let report := runFile more path content
      report.output = output ∧
      (∀ n, result = some n → report.errors = "" ∧
        report.code = ((doubleWord? n).map lowByte).getD 1 ∧
        ((report.code.toNat : Int) = n % 256 ↔ FitsDoubleWord n ∨ n % 256 = 1)) ∧
      (result = none → report.code = 1) := by
  refine ⟨exists_fileEnds fuel content, fun result output hends more hmore ↦ ?_⟩
  have hreports := hends.reports hmore path
  refine ⟨hreports.output, ?_, ?_⟩
  · rintro n rfl
    refine ⟨hreports.errors nofun, hreports.code, ?_⟩
    have hcode : (runFile more path content).code = exitCode (.integer n) :=
      hreports.code.trans (exitCode_eq (.integer n)).symm
    rw [hcode]
    exact exitCode_integer_iff n
  · rintro rfl
    exact hreports.code

/-- A file that prints and returns a negative integer of more than a byte. -/
def belowZeroText : String := "DEF main(): Integer DO print(\"hi\"); RETURN 0 - 300; END"

/-- A result below zero: the low byte of -300 is 212. -/
theorem runFile_code_belowZero :
    FileEnds 1 (.ok belowZeroText.toUTF8) (some (-300)) "hi\n" ∧
      (runFile 2 "prog" (.ok belowZeroText.toUTF8)).output = "hi\n" ∧
      ((runFile 2 "prog" (.ok belowZeroText.toUTF8)).code.toNat : Int) = 212 := by
  let fresh : Interpreter Empty := .initial (.text "")
  have hresult : (fresh.run 1 belowZeroText).1 = .ok (.integer (-300)) := by cbv
  have hprinted : (fresh.run 1 belowZeroText).2.state.sink.printed = "hi\n" := by cbv
  have hends : FileEnds 1 (.ok belowZeroText.toUTF8) (some (-300)) "hi\n" := by
    rw [← hprinted]
    exact .value (Prod.ext hresult rfl)
  obtain ⟨houtput, hinteger, -⟩ := (runFile_code 1 "prog" _).2 _ _ hends 2 (by decide)
  exact ⟨hends, houtput, ((hinteger _ rfl).2.2.mpr (.inl (by decide))).trans (by decide)⟩

/-- A file with the result 2 ^ 64 + 7. -/
def beyondWordText : String :=
  "DEF main(): Integer DO LET p = 1073741824 * 1073741824 * 16; RETURN p + 7; END"

/-- The result of this program is 7 modulo 256, and it ends with the code of a failure. -/
theorem runFile_code_beyondWord :
    ((Interpreter.initial (H := Empty) (.text "")).run 1 beyondWordText).1 =
        .ok (.integer (2 ^ 64 + 7)) ∧
      ((runFile 1 "prog.berg" (.ok beyondWordText.toUTF8)).code.toNat : Int) ≠
        (2 ^ 64 + 7) % 256 := by
  have hrun : runText 1 beyondWordText = (.ok (.integer (2 ^ 64 + 7)), "") := by cbv
  refine ⟨(congrArg Prod.fst (runText_eq 1 beyondWordText)).symm.trans (congrArg Prod.fst hrun), ?_⟩
  rw [runFile_of_value hrun]
  exact fun h ↦ ((exitCode_integer_iff (2 ^ 64 + 7)).mp h).elim (by decide) (by decide)

end CommandLine

end ScriptLang
