import Mathlib.Data.List.TakeWhile
import ScriptLang.Proofs.Stateful
import ScriptLang.Proofs.Token.Spaced
import ScriptLang.Token.Cursor

/-!
A cursor over a text scans it. Where the characters that are left begin a word, the cursor reads the
word that they begin, or stops for the same cause, and stands where what follows the word begins. So
with enough fuel none of its faults occurs: it is never asked for an operator at the end of the
text, and it never cuts a word out of places that are not there.
-/

set_option autoImplicit false
set_option relaxedAutoImplicit false

namespace ScriptLang

namespace TextCursor

variable {α β : Type} {text rest : List Char} {place : TextPlace}

section

variable {first : TextCursor α} {next : α → TextCursor β} {middle : TextPlace}

theorem bind_of_ok {value : α} (hfirst : first text place = .ok value middle) :
    (first >>= next) text place = next value text middle := Stateful.bind_of_ok hfirst

theorem bind_of_error {cause : TextHalt} (hfirst : first text place = .error cause middle) :
    (first >>= next) text place = .error cause middle := Stateful.bind_of_error hfirst

end

/-! ### Steps -/

/-- The next character is the first of what is left. -/
theorem peek_eq (hrest : text.drop place.index = rest) :
    peek text place = .ok rest.head? place := by
  rw [← hrest, List.head?_drop]
  rfl

/-- The character behind the next is the second of what is left. -/
theorem peekAt_one_eq (hrest : text.drop place.index = rest) :
    peekAt 1 text place = .ok rest.tail.head? place := by
  rw [← hrest, List.tail_drop, List.head?_drop]
  rfl

/-- Moving on takes the next character, or moves behind the end. -/
theorem advance_eq (hrest : text.drop place.index = rest) :
    advance text place = .ok rest.head? { place with index := place.index + 1 } := by
  rw [← hrest, List.head?_drop]
  rfl

/-- A character that passes the test is taken. -/
theorem matchNext_of_true {test : Char → Bool} {c : Char}
    (hrest : text.drop place.index = c :: rest) (hc : test c = true) :
    matchNext test text place = .ok true { place with index := place.index + 1 } := by
  unfold matchNext
  rw [bind_of_ok (peek_eq hrest), List.head?_cons, Option.any_some, if_pos hc]
  rfl

/-- A character that fails the test is not taken, nor is the end of the text. -/
theorem matchNext_of_false {test : Char → Bool} (hrest : text.drop place.index = rest)
    (hhead : ∀ c ∈ rest.head?, test c = false) :
    matchNext test text place = .ok false place := by
  have hany : rest.head?.any test = false := (Option.any_eq_false _ _).mpr hhead
  unfold matchNext
  rw [bind_of_ok (peek_eq hrest), hany]
  rfl

/-- All characters are passed that pass the test, up to the first that does not. -/
theorem matchAll_eq {test : Char → Bool} {fuel : Nat} (hrest : text.drop place.index = rest)
    (hfuel : rest.length < fuel) : matchAll test fuel text place =
      .ok () { place with index := place.index + (rest.takeWhile test).length } := by
  induction fuel generalizing place rest with
  | zero => exact absurd hfuel (Nat.not_lt_zero _)
  | succ fuel ih =>
    have hstop (hhead : ∀ c ∈ rest.head?, test c = false) :
        matchAll test (fuel + 1) text place = .ok () place := by
      rw [matchAll, bind_of_ok (matchNext_of_false hrest hhead)]
      rfl
    cases rest with
    | nil => exact hstop nofun
    | cons c rest =>
      by_cases hc : test c = true
      · have hnext : text.drop (place.index + 1) = rest := by
          rw [← List.drop_drop, hrest, List.drop_one, List.tail_cons]
        rw [matchAll, bind_of_ok (matchNext_of_true hrest hc), if_pos rfl,
          ih hnext (Nat.lt_of_succ_lt_succ hfuel), List.takeWhile_cons, if_pos hc, List.length_cons,
          Nat.add_assoc, Nat.add_comm 1]
      · rw [List.takeWhile_cons, if_neg hc]
        refine hstop fun head hhead ↦ ?_
        obtain rfl : c = head := by simpa using hhead
        exact Bool.eq_false_iff.mpr hc

/-- A token has the characters between its start and the cursor. -/
theorem emit_of_range (kind : TokenKind)
    (hrange : place.start ≤ place.index ∧ place.index ≤ text.length) :
    emit kind text place =
      .ok ⟨kind, String.ofList ((text.drop place.start).take (place.index - place.start)),
        place.start⟩ { place with start := place.index } := by
  have hread : (read : TextCursor (List Char)) text place = .ok text place := rfl
  have hget : (get : TextCursor TextPlace) text place = .ok place place := rfl
  unfold emit
  rw [bind_of_ok hread, bind_of_ok hget, if_pos hrange]
  rfl

/-- A word is cut out of the text where it stands. -/
theorem emit_eq {start : Nat} {word : List Char} (kind : TokenKind)
    (hrest : text.drop start = word ++ rest) (hword : word ≠ []) :
    emit kind text ⟨start + word.length, start⟩ =
      .ok ⟨kind, String.ofList word, start⟩ ⟨start + word.length, start + word.length⟩ := by
  have hlength := congrArg List.length hrest
  rw [List.length_drop, List.length_append] at hlength
  have hpos := List.length_pos_iff.mpr hword
  have hslice : (text.drop start).take (start + word.length - start) = word := by
    rw [Nat.add_sub_cancel_left, hrest, List.take_left]
  rw [emit_of_range kind ⟨Nat.le_add_right _ _, by dsimp only; omega⟩, hslice]

/-- Behind digits, a point begins the places if a digit follows it. -/
theorem atPlaces_of_point (hrest : text.drop place.index = '.' :: rest) :
    atPlaces text place = .ok (Scan.startsWithDigit rest) place := by
  unfold atPlaces
  rw [bind_of_ok (peek_eq hrest), bind_of_ok (peekAt_one_eq hrest)]
  rfl

/-- Behind digits, anything but a point begins no places. -/
theorem atPlaces_of_other (hrest : text.drop place.index = rest)
    (hpoint : ∀ after, rest ≠ '.' :: after) : atPlaces text place = .ok false place := by
  have hhead : (rest.head? == some '.') = false := by
    rw [beq_eq_false_iff_ne]
    intro heq
    obtain ⟨after, hafter⟩ := List.head?_eq_some_iff.mp heq
    exact hpoint after hafter
  unfold atPlaces
  rw [bind_of_ok (peek_eq hrest), bind_of_ok (peekAt_one_eq hrest), hhead]
  rfl

/-! ### Words -/

/-- The cursor has read the word that begins with `first` at `start` and stands behind it, or it has
stopped for the same cause. -/
inductive Follows (first : Char) (start : Nat) :
    EStateM.Result TextHalt TextPlace Token → Except LexError Scan.Lexeme → Prop
  | ok {word : Scan.Lexeme} {stop : Nat} (hstop : stop = start + 1 + word.tail.length) :
    Follows first start (.ok ⟨word.kind, String.ofList (first :: word.tail), start⟩ ⟨stop, stop⟩)
      (.ok word)
  | error {cause : LexError} {place : TextPlace} :
    Follows first start (.error (.failed cause) place) (.error cause)

variable {first : Char} {start stop fuel : Nat}

/-- A token is emitted behind its word, with all characters of the word. -/
theorem emit_follows {tail : List Char} (kind : TokenKind)
    (hrest : text.drop start = first :: (tail ++ rest)) (hstop : stop = start + 1 + tail.length) :
    Follows first start (emit kind text ⟨stop, start⟩) (.ok ⟨kind, tail, rest⟩) := by
  have hstop' : stop = start + (first :: tail).length := by
    rw [hstop, List.length_cons, Nat.add_assoc, Nat.add_comm 1]
  rw [hstop', emit_eq kind hrest (List.cons_ne_nil _ _), ← hstop']
  exact @Follows.ok first start ⟨kind, tail, rest⟩ stop hstop

theorem drop_behind {count : Nat} (before : List Char) (hrest : text.drop count = before ++ rest) :
    text.drop (count + before.length) = rest := by
  rw [← List.drop_drop, hrest, List.drop_left]

/-- The places of a number are read alike, point by point. The induction is on the fuel: a second
point with a digit is a fault. -/
theorem places_follows {digits : List Char}
    (hrest : text.drop start = first :: (digits ++ '.' :: rest)) (hfuel : rest.length < fuel)
    (hstop : stop = start + 1 + digits.length) :
    Follows first start (places fuel text ⟨stop, start⟩) (Scan.places stop digits rest) := by
  have hsplit := List.takeWhile_append_dropWhile (p := Char.isDigit) (l := rest)
  have hpoint : text.drop stop = '.' :: rest := by
    rw [hstop, Nat.add_assoc, Nat.add_comm 1]
    exact drop_behind (first :: digits) hrest
  have hbehind : text.drop (stop + 1) = rest := drop_behind ['.'] hpoint
  have hend : text.drop (stop + 1 + (rest.takeWhile Char.isDigit).length) =
      rest.dropWhile Char.isDigit := drop_behind _ (hbehind.trans hsplit.symm)
  have hword (after : List Char) (hafter : rest.dropWhile Char.isDigit = after) :
      Follows first start
        (emit .decimal text ⟨stop + 1 + (rest.takeWhile Char.isDigit).length, start⟩)
        (.ok ⟨.decimal, digits ++ '.' :: rest.takeWhile Char.isDigit, after⟩) := by
    refine emit_follows _ ?_ ?_
    · rw [hrest, ← hafter]
      simp
    · rw [hstop, List.length_append, List.length_cons]
      omega
  unfold places Scan.places
  rw [bind_of_ok (advance_eq hpoint), bind_of_ok (matchAll_eq hbehind hfuel)]
  split
  · rename_i after hafter
    rw [bind_of_ok (atPlaces_of_point (hend.trans hafter))]
    split
    · exact .error
    · exact hword _ hafter
  · rename_i after hafter
    rw [bind_of_ok (atPlaces_of_other hend hafter)]
    exact hword _ rfl

/-- A number begins with a digit, or with a sign and a digit; either way all digits are passed. -/
theorem digits_eq (hrest : text.drop start = first :: rest)
    (hnumber : (first.isDigit || (Scan.isSign first && Scan.startsWithDigit rest)) = true)
    (hfuel : (first :: rest).length < fuel) : ∃ signed middle,
      matchNext Scan.isSign text ⟨start, start⟩ = .ok signed ⟨middle, start⟩ ∧
      matchAll Char.isDigit fuel text ⟨middle, start⟩ =
        .ok () ⟨start + 1 + (rest.takeWhile Char.isDigit).length, start⟩ := by
  by_cases hsign : Scan.isSign first = true
  · refine ⟨true, start + 1, matchNext_of_true hrest hsign, ?_⟩
    exact matchAll_eq (drop_behind [first] hrest) (Nat.lt_of_succ_lt hfuel)
  · have hdigit : first.isDigit = true := by simpa [hsign] using hnumber
    have hhead : ∀ c ∈ (first :: rest).head?, Scan.isSign c = false := by
      rintro c ⟨⟩
      exact Bool.eq_false_iff.mpr hsign
    refine ⟨false, start, matchNext_of_false hrest hhead, ?_⟩
    rw [matchAll_eq hrest hfuel, List.takeWhile_cons, if_pos hdigit, List.length_cons,
      Nat.add_assoc, Nat.add_comm 1]

/-- A number is read alike with its sign, its digits and its places. -/
theorem number_follows (hrest : text.drop start = first :: rest)
    (hnumber : (first.isDigit || (Scan.isSign first && Scan.startsWithDigit rest)) = true)
    (hfuel : (first :: rest).length < fuel) :
    Follows first start (number fuel text ⟨start, start⟩) (Scan.number start rest) := by
  have hsplit := List.takeWhile_append_dropWhile (p := Char.isDigit) (l := rest)
  have hend : text.drop (start + 1 + (rest.takeWhile Char.isDigit).length) =
      rest.dropWhile Char.isDigit :=
    drop_behind _ ((drop_behind [first] hrest).trans hsplit.symm)
  have hword (after : List Char) (hafter : rest.dropWhile Char.isDigit = after) :
      Follows first start
        (emit .integer text ⟨start + 1 + (rest.takeWhile Char.isDigit).length, start⟩)
        (.ok ⟨.integer, rest.takeWhile Char.isDigit, after⟩) := by
    refine emit_follows _ ?_ rfl
    rw [hrest, ← hafter, hsplit]
  obtain ⟨signed, middle, hsigned, hdigits⟩ := digits_eq hrest hnumber hfuel
  unfold number Scan.number
  rw [bind_of_ok hsigned, bind_of_ok hdigits]
  split
  · rename_i after hafter
    rw [bind_of_ok (atPlaces_of_point (hend.trans hafter))]
    split
    · refine places_follows ?_ ?_ rfl
      · rw [hrest, ← hafter, hsplit]
      · have hlength := congrArg List.length hsplit
        rw [hafter, List.length_append, List.length_cons] at hlength
        rw [List.length_cons] at hfuel
        omega
    · exact hword _ hafter
  · rename_i after hafter
    rw [bind_of_ok (atPlaces_of_other hend hafter)]
    exact hword _ rfl

/-- An escape takes the backslash and asks for the letter behind it. -/
theorem escape_eq (hrest : text.drop place.index = '\\' :: rest) :
    escape text place = (match rest.head? with
      | some letter =>
        if (Escape.meaning letter).isSome then return () else fail (.invalidEscape place.index)
      | none => fail (.invalidEscape place.index) : TextCursor Unit) text
        { place with index := place.index + 2 } := by
  have hget : (get : TextCursor TextPlace) text place = .ok place place := rfl
  have hbehind : text.drop (place.index + 1) = rest := drop_behind ['\\'] hrest
  unfold escape
  rw [bind_of_ok hget, bind_of_ok (advance_eq hrest)]
  exact bind_of_ok (advance_eq hbehind)

/-- An escape with a letter that means something takes both. -/
theorem escape_of_isSome {letter : Char} (hrest : text.drop place.index = '\\' :: letter :: rest)
    (hmeaning : (Escape.meaning letter).isSome = true) :
    escape text place = .ok () { place with index := place.index + 2 } := by
  rw [escape_eq hrest]
  simp only [List.head?_cons, if_pos hmeaning]
  rfl

/-- An escape without such a letter fails at the backslash. -/
theorem escape_of_not_isSome (hrest : text.drop place.index = '\\' :: rest)
    (hmeaning : ∀ letter ∈ rest.head?, ¬(Escape.meaning letter).isSome = true) :
    escape text place =
      .error (.failed (.invalidEscape place.index)) { place with index := place.index + 2 } := by
  rw [escape_eq hrest]
  cases rest with
  | nil => rfl
  | cons letter rest =>
    simp only [List.head?_cons, if_neg (hmeaning letter rfl)]
    rfl

/-- A character literal ends with its closing quote, or it is not terminated. -/
theorem closeCharacter_follows {content : List Char}
    (hrest : text.drop start = first :: (content ++ rest))
    (hstop : stop = start + 1 + content.length) :
    Follows first start
      ((do
        if ← matchNext (· == '\'') then emit .character else fail (.unterminatedCharacter start) :
          TextCursor Token) text ⟨stop, start⟩)
      (Scan.closeCharacter start content rest) := by
  have hbehind : text.drop stop = rest := by
    rw [hstop, Nat.add_assoc, Nat.add_comm 1]
    exact drop_behind (first :: content) hrest
  unfold Scan.closeCharacter
  split
  · rename_i after
    rw [bind_of_ok (matchNext_of_true hbehind rfl), if_pos rfl]
    refine emit_follows _ ?_ ?_
    · rw [hrest, List.append_assoc, List.singleton_append]
    · rw [hstop, List.length_append]
      rfl
  · rename_i hquote
    have hhead : ∀ c ∈ rest.head?, (c == '\'') = false := by
      intro c hc
      obtain ⟨after, rfl⟩ := List.head?_eq_some_iff.mp hc
      exact beq_eq_false_iff_ne.mpr fun heq ↦ hquote after (heq ▸ rfl)
    rw [bind_of_ok (matchNext_of_false hbehind hhead)]
    exact .error

/-- A character literal is read alike: its escape is looked at before its closing quote. -/
theorem character_follows (hrest : text.drop start = '\'' :: rest) :
    Follows '\'' start (character text ⟨start, start⟩) (Scan.character start rest) := by
  have hget : (get : TextCursor TextPlace) text ⟨start, start⟩ =
      .ok ⟨start, start⟩ ⟨start, start⟩ :=
    rfl
  have hbehind : text.drop (start + 1) = rest := drop_behind ['\''] hrest
  unfold character Scan.character
  rw [bind_of_ok hget, bind_of_ok (advance_eq hrest), bind_of_ok (peek_eq hbehind)]
  cases rest with
  | nil => exact .error
  | cons c rest =>
    simp only [List.head?_cons]
    by_cases hescape : c = '\\'
    · subst hescape
      rw [if_pos rfl, if_pos rfl]
      cases rest with
      | nil =>
        rw [bind_of_error (escape_of_not_isSome hbehind (by simp))]
        exact .error
      | cons letter rest =>
        simp only
        by_cases hmeaning : (Escape.meaning letter).isSome = true
        · rw [if_pos hmeaning, bind_of_ok (escape_of_isSome hbehind hmeaning)]
          exact closeCharacter_follows hrest rfl
        · rw [if_neg hmeaning, bind_of_error (escape_of_not_isSome hbehind ?_)]
          · exact .error
          · rintro other ⟨⟩
            exact hmeaning
    · rw [if_neg hescape, if_neg hescape]
      by_cases hplain : (c = '\'' || Scan.isLineBreak c) = true
      · rw [if_pos hplain, if_pos hplain]
        exact .error
      · rw [if_neg hplain, if_neg hplain]
        exact closeCharacter_follows hrest rfl

/-- What is left of a string literal is read from any of its characters on; `before` is what was
read of it. -/
theorem stringRest_follows (before : List Char)
    (hrest : text.drop start = first :: (before ++ rest))
    (hstop : stop = start + 1 + before.length) (hfuel : rest.length < fuel) :
    Follows first start (stringRest start fuel text ⟨stop, start⟩)
      ((Scan.stringTail start stop rest).map fun (taken, rest) ↦
        ⟨.string, before ++ taken, rest⟩) := by
  have hbehind : text.drop stop = rest := by
    rw [hstop, Nat.add_assoc, Nat.add_comm 1]
    exact drop_behind (first :: before) hrest
  induction fuel generalizing before rest stop with
  | zero => exact absurd hfuel (Nat.not_lt_zero _)
  | succ fuel ih =>
    rw [stringRest, bind_of_ok (peek_eq hbehind)]
    cases rest with
    | nil => exact .error
    | cons c rest =>
      have hnext : text.drop (stop + 1) = rest := drop_behind [c] hbehind
      simp only [List.head?_cons]
      rw [Scan.stringTail.eq_def]
      simp only
      by_cases hquote : c = '"'
      · subst hquote
        rw [if_pos rfl, if_pos rfl, bind_of_ok (advance_eq hbehind)]
        refine emit_follows _ ?_ ?_
        · rw [hrest, List.append_assoc, List.singleton_append]
        · rw [hstop, List.length_append]
          rfl
      rw [if_neg hquote, if_neg hquote]
      by_cases hescape : c = '\\'
      · subst hescape
        rw [if_pos rfl, if_pos rfl]
        cases rest with
        | nil =>
          rw [bind_of_error (escape_of_not_isSome hbehind (by simp))]
          exact .error
        | cons letter rest =>
          simp only
          -- Both characters of an escape are kept as they are written.
          by_cases hmeaning : (Escape.meaning letter).isSome = true
          · have hafter : text.drop (stop + 2) = rest := drop_behind ['\\', letter] hbehind
            have hread := ih (before ++ ['\\', letter])
              (by rw [hrest, List.append_assoc]; rfl)
              (by rw [hstop, List.length_append]; rfl)
              (by simp only [List.length_cons] at hfuel; omega) hafter
            rw [if_pos hmeaning, bind_of_ok (escape_of_isSome hbehind hmeaning)]
            cases htail : Scan.stringTail start (stop + 2) rest <;> rw [htail] at hread
            · exact hread
            · simpa [Except.map] using hread
          · rw [if_neg hmeaning, bind_of_error (escape_of_not_isSome hbehind ?_)]
            · exact .error
            · rintro other ⟨⟩
              exact hmeaning
      rw [if_neg hescape, if_neg hescape]
      by_cases hbreak : Scan.isLineBreak c = true
      · rw [if_pos hbreak, if_pos hbreak]
        exact .error
      · have hread := ih (before ++ [c])
          (by rw [hrest, List.append_assoc]; rfl)
          (by rw [hstop, List.length_append]; rfl)
          (Nat.lt_of_succ_lt_succ hfuel) hnext
        rw [if_neg hbreak, if_neg hbreak, bind_of_ok (advance_eq hbehind)]
        cases htail : Scan.stringTail start (stop + 1) rest <;> rw [htail] at hread
        · exact hread
        · simpa [Except.map] using hread

/-- A string is read alike with enough fuel for the text that is left. -/
theorem string_follows (hrest : text.drop start = '"' :: rest) (hfuel : rest.length < fuel) :
    Follows '"' start (string fuel text ⟨start, start⟩)
      ((Scan.stringTail start (start + 1) rest).map fun (taken, rest) ↦
        ⟨.string, taken, rest⟩) := by
  have hget : (get : TextCursor TextPlace) text ⟨start, start⟩ =
      .ok ⟨start, start⟩ ⟨start, start⟩ :=
    rfl
  unfold string
  rw [bind_of_ok hget, bind_of_ok (advance_eq hrest)]
  exact stringRest_follows [] hrest rfl hfuel

/-- An operator is read alike, with a second character where one belongs to it. -/
theorem operator_follows (hrest : text.drop start = first :: rest) :
    Follows first start (operator text ⟨start, start⟩) (Scan.operator start first rest) := by
  have hbehind : text.drop (start + 1) = rest := drop_behind [first] hrest
  unfold operator Scan.operator
  rw [bind_of_ok (advance_eq hrest)]
  simp only [List.head?_cons]
  by_cases hrelation : Scan.isRelationOperator first = true
  · rw [if_pos hrelation, if_pos hrelation]
    split
    · rename_i after
      rw [bind_of_ok (matchNext_of_true hbehind rfl)]
      exact emit_follows _ hrest rfl
    · rename_i hequal
      have hhead : ∀ c ∈ rest.head?, (c == '=') = false := by
        intro c hc
        obtain ⟨after, rfl⟩ := List.head?_eq_some_iff.mp hc
        exact beq_eq_false_iff_ne.mpr fun heq ↦ hequal after (heq ▸ rfl)
      rw [bind_of_ok (matchNext_of_false hbehind hhead)]
      exact emit_follows _ hrest rfl
  · rw [if_neg hrelation, if_neg hrelation]
    by_cases hsingle : Scan.isSingleOperator first = true
    · rw [if_pos hsingle, if_pos hsingle]
      exact emit_follows _ hrest rfl
    · rw [if_neg hsingle, if_neg hsingle]
      exact .error

/-- The cursor decides the kind of a word from its first two characters. -/
theorem token_eq (hrest : text.drop start = first :: rest) :
    token fuel text ⟨start, start⟩ =
      (if Scan.isIdentifierStart first then do
        matchAll Scan.isIdentifierPart fuel
        emit .identifier
      else if first.isDigit || (Scan.isSign first && Scan.startsWithDigit rest) then number fuel
      else if first == '\'' then character
      else if first == '"' then string fuel
      else operator) text ⟨start, start⟩ := by
  have hbehind : (peekAt 1 : TextCursor (Option Char)) text ⟨start, start⟩ =
      .ok (first :: rest).tail.head? ⟨start, start⟩ := peekAt_one_eq hrest
  unfold token
  rw [bind_of_ok (peek_eq hrest), bind_of_ok hbehind]
  rfl

/-- A word is read alike by the rule that its first character chooses. -/
theorem token_follows (hrest : text.drop start = first :: rest)
    (hfuel : (first :: rest).length < fuel) :
    Follows first start (token fuel text ⟨start, start⟩) (Scan.lexeme start first rest) := by
  unfold Scan.lexeme
  rw [token_eq hrest]
  by_cases hstart : Scan.isIdentifierStart first = true
  · have hpart := Scan.isIdentifierPart_of_isIdentifierStart hstart
    have hsplit := List.takeWhile_append_dropWhile (p := Scan.isIdentifierPart) (l := rest)
    rw [if_pos hstart, if_pos hstart, bind_of_ok (matchAll_eq hrest hfuel), List.takeWhile_cons,
      if_pos hpart]
    refine emit_follows _ (hrest.trans (by rw [hsplit])) ?_
    rw [List.length_cons, Nat.add_assoc, Nat.add_comm 1]
  rw [if_neg hstart, if_neg hstart]
  by_cases hnumber : (first.isDigit || (Scan.isSign first && Scan.startsWithDigit rest)) = true
  · rw [if_pos hnumber, if_pos hnumber]
    exact number_follows hrest hnumber hfuel
  rw [if_neg hnumber, if_neg hnumber]
  by_cases hcharacter : first = '\''
  · subst hcharacter
    exact character_follows hrest
  rw [if_neg (by simpa using hcharacter), if_neg hcharacter]
  by_cases hstring : first = '"'
  · subst hstring
    exact string_follows hrest (Nat.lt_of_succ_lt hfuel)
  · rw [if_neg (by simpa using hstring), if_neg hstring]
    exact operator_follows hrest

/-! ### The whole text -/

/-- From the beginning of a word on, the cursor finds the tokens that are left, or it stops for the
cause for which there are none. -/
theorem tokens_follows (hrest : text.drop start = rest) (hfuel : rest.length + 1 < fuel) :
    match Scan.tokensFrom start rest with
    | .ok found => ∃ place, tokens fuel text ⟨start, start⟩ = .ok found place
    | .error cause => ∃ place, tokens fuel text ⟨start, start⟩ = .error (.failed cause) place := by
  induction fuel generalizing start rest with
  | zero => exact absurd hfuel (Nat.not_lt_zero _)
  | succ fuel ih =>
    rw [tokens, bind_of_ok (peek_eq hrest)]
    cases rest with
    | nil =>
      rw [Scan.tokensFrom]
      exact ⟨_, rfl⟩
    | cons first rest =>
      have hless : (first :: rest).length < fuel := Nat.lt_of_succ_lt_succ hfuel
      simp only [List.head?_cons]
      by_cases hblank : Scan.isBlank first = true
      · have hbehind : text.drop (start + 1) = rest := drop_behind [first] hrest
        rw [Scan.tokensFrom_of_blank hblank, if_pos hblank, bind_of_ok (advance_eq hrest)]
        exact ih hbehind hless
      rw [if_neg hblank]
      have hfollows := token_follows hrest hless
      cases hlexeme : Scan.lexeme start first rest with
      | error cause =>
        rw [hlexeme] at hfollows
        generalize hread : token fuel text ⟨start, start⟩ = read at hfollows
        cases hfollows
        rw [Scan.tokensFrom_of_error hblank hlexeme, bind_of_error hread]
        exact ⟨_, rfl⟩
      | ok word =>
        rw [hlexeme] at hfollows
        generalize hread : token fuel text ⟨start, start⟩ = read at hfollows
        cases hfollows with
        | ok hstop =>
          have happend := Scan.lexeme_append hlexeme
          have hbehind : text.drop (start + 1 + word.tail.length) = word.rest := by
            rw [Nat.add_assoc, Nat.add_comm 1]
            exact drop_behind (first :: word.tail) (hrest.trans (by rw [← happend]; rfl))
          -- A word takes at least its first character, so the rest is shorter than the fuel.
          have hlength := congrArg List.length happend
          rw [List.length_append] at hlength
          rw [List.length_cons] at hless
          have hlater := ih hbehind (by omega)
          rw [Scan.tokensFrom_of_lexeme hblank hlexeme, bind_of_ok hread, hstop]
          cases htokens : Scan.tokensFrom (start + 1 + word.tail.length) word.rest with
          | ok found =>
            rw [htokens] at hlater
            obtain ⟨place, hfound⟩ := hlater
            rw [bind_of_ok hfound]
            exact ⟨place, rfl⟩
          | error cause =>
            rw [htokens] at hlater
            obtain ⟨place, hfound⟩ := hlater
            rw [bind_of_error hfound]
            exact ⟨place, rfl⟩

/-- With enough fuel the cursor finds the tokens of a text or stops for its first malformed word,
and for nothing else. -/
theorem scan_eq (text : String) (hfuel : text.length + 1 < fuel) :
    scan fuel text = (ScriptLang.scan text).mapError .failed := by
  have hlength : text.toList.length + 1 < fuel := by rwa [String.length_toList]
  have hfollows := tokens_follows List.drop_zero hlength
  unfold scan ScriptLang.scan
  cases htokens : Scan.tokensFrom 0 text.toList <;> rw [htokens] at hfollows <;>
    obtain ⟨place, hfound⟩ := hfollows
  · rw [hfound]
    rfl
  · rw [hfound]
    rfl

end TextCursor

end ScriptLang
