import ScriptLang.Text.Combining
import ScriptLang.Text.Unprintable

/-!
Text in double quotes, for descriptions. Quotes, backslashes and all characters that would not be
seen for what they are, are escaped, so that a description is one line and shows its text fully.
-/

set_option autoImplicit false
set_option relaxedAutoImplicit false

namespace ScriptLang

/-- Whether a character lies in one of `ranges`, which are given by their first and last. -/
def inRanges (ranges : List (Nat × Nat)) (c : Char) : Bool :=
  ranges.any fun (first, last) ↦ first ≤ c.toNat && c.toNat ≤ last

/-- Letters that fill the place of a letter and are shown as nothing. -/
def fillers : List Char := ['\u115f', '\u1160', '\u3164', '\uffa0']

/-- Whether a character is written by its number inside double quotes. -/
def isHidden (c : Char) : Bool :=
  inRanges unprintableRanges c || inRanges combiningRanges c || fillers.contains c

/-- How a character is written inside double quotes. -/
def escapeQuoted (c : Char) : List Char :=
  match c with
  | '"' => ['\\', '"']
  | '\\' => ['\\', '\\']
  | '\n' => ['\\', 'n']
  | '\r' => ['\\', 'r']
  | '\t' => ['\\', 't']
  | '\x00' => ['\\', '0']
  | c =>
    if isHidden c then ['\\', 'u', '\x7b'] ++ Nat.toDigits 16 c.toNat ++ ['\x7d'] else [c]

def quoted (text : String) : String :=
  String.ofList ('"' :: text.toList.flatMap escapeQuoted ++ ['"'])

example : quoted "a\"b" = "\"a\\\"b\"" := by decide +kernel
example : quoted "e\u0301" = "\"e\\u\x7b301\x7d\"" := by decide +kernel
example : quoted "日 本" = "\"日 本\"" := by decide +kernel

end ScriptLang
