/-
Strings, numbers and words in JSON, read back as they were written.

A character stands for itself or is escaped, by a letter or by one or two
UTF-16 units of four hexadecimal digits each; reading takes off exactly
the characters that writing put there, whatever comes after them. A whole
number ends where the text goes on with something else than a digit, a
point or an exponent, so a value is read back in front of a comma, a line
feed or the end of the text (`Ends`), which is all that writing puts there.
-/
import Mathlib.Algebra.BigOperators.Group.List.Basic
import Marginalia.Value.Json

namespace Marginalia.Json

-- =========================================================== escapes

/-- A hexadecimal digit is read as what it was written for. -/
theorem hexValue?_hexDigit (n : Nat) :
    Text.hexValue? (Text.hexDigit n) = some (n % 16) := by
  have hall : ∀ d < 16, Text.hexValue? (Nat.digitChar d) = some d := by decide
  exact hall (n % 16) (Nat.mod_lt n (by decide))

/-- Four hexadecimal digits are read back. -/
theorem readUnit_hexDigits {n : Nat} (hn : n < 0x10000) (rest : List Char) :
    readUnit (Text.hexDigits 4 n ++ rest) = some (n, rest) := by
  have hvalue :
      ((n / 16 / 16 / 16 % 16 * 16 + n / 16 / 16 % 16) * 16 + n / 16 % 16) * 16
      + n % 16 = n := by omega
  simp only [Text.hexDigits, List.nil_append, List.cons_append, readUnit,
    hexValue?_hexDigit, Option.bind_eq_bind, Option.bind_some,
    Option.pure_def, hvalue]

/-- A character of one unit is read back. -/
theorem readCodePoint_one {c : Char} (hc : c.toNat < 0x10000)
    (rest : List Char) :
    readCodePoint (Text.hexDigits 4 c.toNat ++ rest) = some (c, rest) := by
  -- the units that come in twos are no characters
  have hvalid : c.toNat < 0xD800 ∨ 0xDFFF < c.toNat := by
    rcases c.valid with h | h
    · exact .inl h
    · exact .inr h.1
  have hhigh : isHighUnit c.toNat = false := by simp [isHighUnit]; omega
  have hlow : isLowUnit c.toNat = false := by simp [isLowUnit]; omega
  simp [readCodePoint, readUnit_hexDigits hc, hhigh, hlow]

/-- Two escapes that make a pair are read as one character. -/
theorem readCodePoint_pair {first second : Nat}
    (hfirst : isHighUnit first = true) (hsecond : isLowUnit second = true)
    (rest : List Char) :
    readCodePoint (Text.hexDigits 4 first ++ (unitEscape second ++ rest))
      = some
        (Char.ofNat (0x10000 + (first - 0xD800) * 0x400 + (second - 0xDC00)),
          rest) := by
  have hunits : first < 0x10000 ∧ second < 0x10000 := by
    simp only [isHighUnit, isLowUnit, Bool.and_eq_true, decide_eq_true_eq]
      at hfirst hsecond
    omega
  rw [readCodePoint, readUnit_hexDigits hunits.1]
  simp only [Option.bind_eq_bind, Option.bind_some, hfirst, if_true, unitEscape,
    List.cons_append, readUnit_hexDigits hunits.2, paired?, hsecond,
    Bool.and_self, Option.map_some, Option.getD_some, Option.pure_def]

/-- A character of two units is read back. -/
theorem readCodePoint_two {c : Char} (hc : 0x10000 ≤ c.toNat)
    (rest : List Char) :
    readCodePoint (Text.hexDigits 4 (0xD800 + (c.toNat - 0x10000) / 0x400)
      ++ (unitEscape (0xDC00 + (c.toNat - 0x10000) % 0x400) ++ rest))
        = some (c, rest) := by
  obtain ⟨n, hn⟩ : ∃ n, c.toNat = 0x10000 + n := Nat.exists_eq_add_of_le hc
  have hbound : n < 0x100000 := by
    rcases c.valid with h | h
    · have : c.toNat < 0xD800 := h
      omega
    · have : c.toNat < 0x110000 := h.2
      omega
  rw [hn, Nat.add_sub_cancel_left,
    readCodePoint_pair (by simp [isHighUnit]; omega)
    (by simp [isLowUnit]; omega), Nat.add_sub_cancel_left,
      Nat.add_sub_cancel_left, Nat.add_assoc,
    Nat.div_add_mod', ← hn, Char.ofNat_toNat]

-- =========================================================== strings

/-- A character that stands for itself. -/
theorem readChar_itself {c : Char} (hquote : c ≠ '"') (hslash : c ≠ '\\')
    (hcontrol : 0x20 ≤ c.toNat) (rest : List Char) :
    readChar (c :: rest) = some (some c, rest) := by
  have hsmall : ¬ c.toNat < 0x20 := by omega
  simp [readChar, hslash, hsmall]

/-- The ways in which a character is written: by the letter that stands for
it after a backslash, as itself, or by one or two units. -/
theorem writeChar_cases (c : Char) :
    (∃ letter, writeChar c = ['\\', letter] ∧ escapedChar? letter = some c)
      ∨ (writeChar c = [c] ∧ c ≠ '"' ∧ c ≠ '\\' ∧ 0x20 ≤ c.toNat
        ∧ c.toNat < 0x7F)
      ∨ (writeChar c = unitEscape c.toNat ∧ c.toNat < 0x10000)
      ∨ (writeChar c = unitEscape (0xD800 + (c.toNat - 0x10000) / 0x400)
          ++ unitEscape (0xDC00 + (c.toNat - 0x10000) % 0x400)
            ∧ 0x10000 ≤ c.toNat) := by
  have hletter : ∀ letter d, (c == d) = true → escapedChar? letter = some d →
      ∃ l, ['\\', letter] = ['\\', l] ∧ escapedChar? l = some c :=
    fun letter d hc hd => ⟨letter, rfl, by rw [eq_of_beq hc, hd]⟩
  generalize hw : writeChar c = written
  unfold writeChar at hw
  split at hw
  · next h => exact hw ▸ .inl (hletter '"' _ h rfl)
  split at hw
  · next h => exact hw ▸ .inl (hletter '\\' _ h rfl)
  split at hw
  · next h => exact hw ▸ .inl (hletter 'n' _ h rfl)
  split at hw
  · next h => exact hw ▸ .inl (hletter 'r' _ h rfl)
  split at hw
  · next h => exact hw ▸ .inl (hletter 't' _ h rfl)
  split at hw
  · next h => exact hw ▸ .inl (hletter 'b' _ h rfl)
  split at hw
  · next h => exact hw ▸ .inl (hletter 'f' _ h rfl)
  split at hw
  · next hquote hslash _ _ _ _ _ hprints =>
    simp only [Bool.and_eq_true, decide_eq_true_eq] at hprints
    exact .inr (.inl ⟨hw.symm, by simpa using hquote, by simpa using hslash,
      hprints⟩)
  split at hw
  · next hone => exact .inr (.inr (.inl ⟨hw.symm, hone⟩))
  · next htwo => exact .inr (.inr (.inr ⟨hw.symm, Nat.not_lt.1 htwo⟩))

/-- Every character is read back, however it is written. -/
theorem readChar_writeChar (c : Char) (rest : List Char) :
    readChar (writeChar c ++ rest) = some (some c, rest) := by
  rcases writeChar_cases c with ⟨letter, hc, hescaped⟩ | ⟨hc, hquote, hslash,
    hprints, -⟩
    | ⟨hc, hone⟩ | ⟨hc, htwo⟩
  · have hletter : letter ≠ 'u' := by
      rintro rfl
      cases hescaped
    simp [hc, readChar, hescaped]
  · rw [hc]
    exact readChar_itself hquote hslash hprints rest
  · simp only [hc, unitEscape, List.cons_append, readChar,
      readCodePoint_one hone, Option.map_some]
  · have hread := readCodePoint_two htwo rest
    rw [hc, List.append_assoc, unitEscape, List.cons_append, List.cons_append,
      readChar, hread, Option.map_some]

theorem writeChar_length_pos (c : Char) : 0 < (writeChar c).length := by
  rcases writeChar_cases c with ⟨letter, hc, -⟩ | ⟨hc, -⟩ | ⟨hc, -⟩ | ⟨hc, -⟩
  all_goals simp [hc, unitEscape]

/-- The characters of a string are read back up to its closing quote. -/
theorem readChars_written (cs : List Char) {fuel : Nat} (rest : List Char)
    (hfuel : cs.length < fuel) :
    readChars fuel (cs.flatMap writeChar ++ '"' :: rest) = some (cs, rest) := by
  induction cs generalizing fuel with
  | nil =>
      obtain ⟨fuel, rfl⟩ :=
        Nat.exists_eq_succ_of_ne_zero (Nat.ne_zero_of_lt hfuel)
      rfl
  | cons c cs ih =>
      obtain ⟨fuel, rfl⟩ :=
        Nat.exists_eq_succ_of_ne_zero (Nat.ne_zero_of_lt hfuel)
      rw [List.length_cons] at hfuel
      rw [List.flatMap_cons, List.append_assoc, readChars, readChar_writeChar]
      simp only [ih (Nat.lt_of_succ_lt_succ hfuel), Option.map_some]

/-- A string is read back after its opening quote. -/
theorem readString_written (s : String) (rest : List Char) :
    readString (s.toList.flatMap writeChar ++ '"' :: rest)
      = some (s, rest) := by
  have hlength : s.toList.length ≤ (s.toList.flatMap writeChar).length := by
    rw [List.length_flatMap]
    have hsum :=
      List.length_le_sum_of_one_le (s.toList.map fun c => (writeChar c).length)
      (by simpa using fun c _ => Nat.succ_le_of_lt (writeChar_length_pos c))
    simpa using hsum
  have hfuel : s.toList.length
      < (s.toList.flatMap writeChar ++ '"' :: rest).length + 1 := by
    rw [List.length_append]
    omega
  rw [readString, readChars_written s.toList rest hfuel]
  simp only [Option.map_some, String.ofList_toList]

/-- The characters that are written: the line feed and those that print in
ASCII. -/
def isPrinted (c : Char) : Bool :=
  c == '\n' || (0x20 ≤ c.toNat && c.toNat < 0x7F)

theorem unitEscape_printed (n : Nat) : (unitEscape n).all isPrinted = true := by
  have hdigit : ∀ n, isPrinted (Text.hexDigit n) = true := by
    intro n
    have hall : ∀ d < 16, isPrinted (Nat.digitChar d) = true := by decide
    exact hall (n % 16) (Nat.mod_lt n (by decide))
  simp only [unitEscape, Text.hexDigits, List.nil_append, List.cons_append,
    List.all_cons, hdigit]
  rfl

theorem escapedChar?_printed {letter c : Char}
    (h : escapedChar? letter = some c) :
    isPrinted letter = true := by
  unfold escapedChar? at h
  split at h
  case h_9 => cases h
  all_goals rfl

/-- It is written in characters that can be printed. -/
theorem writeChar_printed (c : Char) : (writeChar c).all isPrinted = true := by
  rcases writeChar_cases c with ⟨letter, hc, hescaped⟩ | ⟨hc, -, -, hlow,
    hhigh⟩ | ⟨hc, -⟩
    | ⟨hc, -⟩
  · rw [hc, List.all_cons, List.all_cons, escapedChar?_printed hescaped]
    rfl
  · simp [hc, isPrinted, hlow, hhigh]
  · rw [hc, unitEscape_printed]
  · rw [hc, List.all_append, unitEscape_printed, unitEscape_printed,
      Bool.and_self]

/-- A string is written in ASCII, whatever its characters are. -/
theorem writeString_printed (s : String) :
    (writeString s).all isPrinted = true := by
  simp only [writeString, List.cons_append, List.all_cons, List.all_append,
    List.all_flatMap, writeChar_printed]
  simp [isPrinted]

-- =========================================================== numbers

/-- The ends of a written value: the end of the text, a comma or a line feed. -/
def Ends (rest : List Char) : Prop := ∀ c ∈ rest.head?, c = ',' ∨ c = '\n'

theorem Ends.nil : Ends [] := by simp [Ends]

theorem Ends.comma (rest : List Char) : Ends (',' :: rest) := by simp [Ends]

/-- A line break ends a scalar. -/
theorem Ends.newline (level : Nat) (rest : List Char) :
    Ends (newline level ++ rest) := by
  simp [Ends, Json.newline]

/-- The digits of a number that is not zero do not start with zero. -/
theorem toDigits_head_ne_zero (n : Nat) :
    0 < n → (Nat.toDigits 10 n).head? ≠ some '0' := by
  induction n using Nat.strongRecOn with
  | _ n ih =>
      intro hpos
      by_cases hn : n < 10
      · have hall : ∀ d < 10, 0 < d → Nat.digitChar d ≠ '0' := by decide
        rw [Nat.toDigits_of_lt_base hn, List.head?_cons]
        simpa using hall n hn hpos
      · -- the first digit is that of a tenth of the number
        rw [Nat.toDigits_of_base_le (by decide) (by omega),
          List.head?_append_of_ne_nil _ Nat.toDigits_ne_nil]
        exact ih (n / 10) (by omega) (by omega)

/-- The digits of a number are read back as a whole number's. -/
theorem readWhole_toDigits (n : Nat) {rest : List Char} (hrest : Ends rest) :
    readWhole (Nat.toDigits 10 n ++ rest) = some (Nat.toDigits 10 n, rest) := by
  have hdigits : ∀ c ∈ Nat.toDigits 10 n, c.isDigit = true := fun c hc =>
    Nat.isDigit_of_mem_toDigits (by decide) (by decide) hc
  have hstop : rest.takeWhile Char.isDigit = []
      ∧ rest.dropWhile Char.isDigit = rest := by
    cases rest with
    | nil => exact ⟨rfl, rfl⟩
    | cons c rest => rcases hrest c rfl with rfl | rfl <;> exact ⟨rfl, rfl⟩
  rcases Nat.eq_zero_or_pos n with rfl | hpos
  · rw [Nat.toDigits_zero]; rfl
  · have hread : readDigits (Nat.toDigits 10 n ++ rest)
        = some (Nat.toDigits 10 n, rest) := by
      rw [readDigits, List.takeWhile_append_of_pos hdigits,
        List.dropWhile_append_of_pos hdigits, hstop.1, hstop.2, List.append_nil]
      cases hd : Nat.toDigits 10 n with
      | nil => exact absurd hd Nat.toDigits_ne_nil
      | cons d ds => rfl
    have hzero := toDigits_head_ne_zero n hpos
    cases hd : Nat.toDigits 10 n with
    | nil => exact absurd hd Nat.toDigits_ne_nil
    | cons d ds =>
        rw [hd] at hread hzero
        rw [List.cons_append] at hread ⊢
        rw [readWhole]
        · exact hread
        · rintro cs hcs
          rw [List.cons.injEq] at hcs
          exact hzero (by rw [List.head?_cons, hcs.1])

/-- A number of not too many digits is read back behind its sign. -/
theorem readNumber_toDigits (negative : Bool) {n : Nat} {rest : List Char}
    (hrest : Ends rest) (hn : (Nat.toDigits 10 n).length ≤ Text.maxDigits) :
    readNumber negative (Nat.toDigits 10 n ++ rest)
      = .ok (.int (if negative then -(n : Int) else n), rest) := by
  have hfraction : readFraction rest = ([], rest) := by
    cases rest with
    | nil => rfl
    | cons c rest => rcases hrest c rfl with rfl | rfl <;> rfl
  have hexponent : readExponent rest = (none, rest) := by
    cases rest with
    | nil => rfl
    | cons c rest => rcases hrest c rfl with rfl | rfl <;> rfl
  have hvalue : Text.digitsValue (Nat.toDigits 10 n) = n :=
    Nat.ofDigitChars_toDigits (by decide) (by decide)
  rw [readNumber, readWhole_toDigits n hrest]
  simp [orMalformed, bind, Except.bind, pure, Except.pure, hfraction,
    hexponent, hvalue, Nat.not_lt.2 hn]

-- =========================================================== scalars

/-- Text that starts with none of the words is a number. -/
theorem findWord_eq_none {cs : List Char}
    (h : ∀ entry ∈ words, entry.1.toList.isPrefixOf cs = false) :
    (words.findSome? fun (word, value) => (afterWord? word cs).map (value, ·))
      = none := by
  rw [List.findSome?_eq_none_iff]
  intro entry hentry
  simp [afterWord?, h entry hentry]

/-- A scalar that starts with a digit is a number. -/
theorem readScalar_digit {d : Char} (hd : d.isDigit = true) (cs : List Char) :
    readScalar (d :: cs) = readNumber false (d :: cs) := by
  have hother : ∀ c : Char, c.isDigit = false → (c == d) = false := by
    intro c hc
    rw [beq_eq_false_iff_ne]
    rintro rfl
    exact absurd hd (by simp [hc])
  have hwords : ∀ entry ∈ words,
      entry.1.toList.isPrefixOf (d :: cs) = false := by
    intro entry hentry
    simp only [words, List.mem_cons, List.not_mem_nil, or_false] at hentry
    rcases hentry with rfl | rfl | rfl | rfl | rfl | rfl
    all_goals simp [List.isPrefixOf, hother, Char.isDigit]
  rw [readScalar, findWord_eq_none hwords]
  have hminus : d ≠ '-' := by
    rintro rfl
    exact absurd hd (by decide)
  simp [hminus]

/-- So is one that starts with a sign and a digit. -/
theorem readScalar_minus {d : Char} (hd : d.isDigit = true) (cs : List Char) :
    readScalar ('-' :: d :: cs) = readNumber true (d :: cs) := by
  have hother : ('I' == d) = false := by
    rw [beq_eq_false_iff_ne]
    rintro rfl
    exact absurd hd (by decide)
  have hwords : ∀ entry ∈ words,
      entry.1.toList.isPrefixOf ('-' :: d :: cs) = false := by
    intro entry hentry
    simp only [words, List.mem_cons, List.not_mem_nil, or_false] at hentry
    rcases hentry with rfl | rfl | rfl | rfl | rfl | rfl
    all_goals simp [List.isPrefixOf, hother]
  rw [readScalar, findWord_eq_none hwords]

/-- An integer is written with its sign and its digits. -/
theorem toString_toList (n : Int) :
    (toString n).toList
      = (if n < 0 then ['-'] else []) ++ Nat.toDigits 10 n.natAbs := by
  cases n with
  | ofNat m => simp [toString, Int.repr]
  | negSucc m => simp [toString, Int.repr, Int.natAbs]

/-- A whole number of not too many digits is read back. -/
theorem readScalar_int {n : Int} {rest : List Char} (hrest : Ends rest)
    (hn : Text.isWritable n = true) :
    readScalar ((toString n).toList ++ rest) = .ok (.int n, rest) := by
  have hlength : (Nat.toDigits 10 n.natAbs).length ≤ Text.maxDigits := by
    simpa [Text.isWritable] using hn
  have hread := fun negative => readNumber_toDigits negative hrest hlength
  rw [toString_toList]
  cases hd : Nat.toDigits 10 n.natAbs with
  | nil => exact absurd hd Nat.toDigits_ne_nil
  | cons d ds =>
      have hdigit : d.isDigit = true :=
        Nat.isDigit_of_mem_toDigits (by decide) (by decide)
          (hd ▸ List.mem_cons_self)
      rw [hd] at hread
      split_ifs with hneg
      · rw [List.cons_append, List.nil_append, List.cons_append,
          List.cons_append, readScalar_minus hdigit, ← List.cons_append,
          hread true, if_pos rfl]
        congr
        omega
      · rw [List.nil_append, List.cons_append, readScalar_digit hdigit,
          ← List.cons_append, hread false]
        simp only [Bool.false_eq_true, if_false]
        congr
        omega

/-- The word for nothing is read back. -/
theorem readScalar_null (rest : List Char) :
    readScalar ("null".toList ++ rest) = .ok (.null, rest) := rfl

/-- The two truth values are read back. -/
theorem readScalar_bool (b : Bool) (rest : List Char) :
    readScalar ((if b then "true" else "false").toList ++ rest)
      = .ok (.bool b, rest) := by
  cases b <;> rfl

end Marginalia.Json
