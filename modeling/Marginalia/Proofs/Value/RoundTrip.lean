/-
JSON texts, read back as the values they were written for.

A value has an exact form in JSON if it is made of nothing, truth values,
whole numbers, texts, lists and mappings with different texts as keys.
Such a value is written unless one of its numbers has too many digits, and
the text is read back as the value, however deeply it stands in others.

Reading is by fuel and by room for nested collections. The length of a
text is fuel enough for it, because each item costs one unit and starts
with a line feed; the room needed is the depth of the value.
-/
import Marginalia.Proofs.Value.Scalars

namespace Marginalia

-- ================================================ values with a form

namespace Value

mutual

/-- Whether JSON has a form for exactly this value. Pairs are left out, being
written as lists, and floating-point numbers. -/
def isPlain : Value → Bool
  | null => true
  | bool _ => true
  | int _ => true
  | str _ => true
  | list items => arePlain items
  | map entries => entriesPlain entries
  | _ => false

/-- Whether all items have a form. -/
def arePlain : List Value → Bool
  | [] => true
  | v :: vs => isPlain v && arePlain vs

/-- Whether the keys are different texts and all values have a form. -/
def entriesPlain : List (Value × Value) → Bool
  | [] => true
  | (str k, v) :: entries =>
    entries.all (fun e => !sameKey (str k) e.1) && isPlain v
      && entriesPlain entries
  | _ :: _ => false

end

/-- An entry under a new key goes behind the others. -/
theorem insertEntry_new {key value : Value} {entries : List (Value × Value)}
    (h : ∀ e ∈ entries, sameKey e.1 key = false) :
    insertEntry key value entries = entries ++ [(key, value)] := by
  induction entries with
  | nil => rfl
  | cons e entries ih =>
      obtain ⟨k, v⟩ := e
      rw [insertEntry, if_neg (by simp [h (k, v) List.mem_cons_self]),
        ih fun e he => h e (List.mem_cons_of_mem _ he), List.cons_append]

/-- Entries with different keys are those of their mapping. -/
theorem ofEntries_distinct {entries : List (Value × Value)}
    (h : entries.Pairwise fun a b => sameKey a.1 b.1 = false) :
    ofEntries entries = map entries := by
  -- the entries taken in so far are new to each that is still to come
  have hfold : ∀ (more acc : List (Value × Value)),
      (acc ++ more).Pairwise (fun a b => sameKey a.1 b.1 = false) →
      more.foldl (fun acc e => insertEntry e.1 e.2 acc) acc = acc ++ more := by
    intro more
    induction more with
    | nil => intro acc _; simp
    | cons e more ih =>
        intro acc hacc
        have hnew : ∀ a ∈ acc, sameKey a.1 e.1 = false := fun a ha =>
          (List.pairwise_append.1 hacc).2.2 a ha e List.mem_cons_self
        rw [List.append_cons] at hacc
        rw [List.foldl_cons, insertEntry_new hnew, ih _ hacc,
          ← List.append_cons]
  rw [ofEntries, hfold entries [] h, List.nil_append]

/-- The keys of entries that have a form are different. -/
theorem entriesPlain_distinct {entries : List (Value × Value)}
    (h : entriesPlain entries = true) :
    entries.Pairwise fun a b => sameKey a.1 b.1 = false := by
  induction entries with
  | nil => exact .nil
  | cons e entries ih =>
      obtain ⟨k, v⟩ := e
      cases k with
      | str k =>
          simp only [entriesPlain, Bool.and_eq_true, List.all_eq_true,
            Bool.not_eq_true'] at h
          exact .cons h.1.1 (ih h.2)
      | _ => cases h

end Value

namespace Json

-- =================================================== reading it back

/-- What is not white space is no space between the signs of a text either. -/
theorem isSpace_of_isBlank {c : Char} (hc : Text.isBlank c = false) :
    isSpace c = false := by
  cases hspace : isSpace c with
  | false => rfl
  | true =>
      simp only [isSpace, Bool.or_eq_true, beq_iff_eq] at hspace
      rcases hspace with ((rfl | rfl) | rfl) | rfl
        <;> exact absurd hc (by decide)

/-- Nothing is skipped in front of a sign. -/
theorem skipSpace_cons {c : Char} (hc : isSpace c = false) (cs : List Char) :
    skipSpace (c :: cs) = c :: cs := by
  rw [skipSpace, List.dropWhile_cons_of_neg (by simp [hc])]

/-- Blanks are skipped. -/
theorem skipSpace_append {blanks : List Char}
    (hblanks : ∀ d ∈ blanks, isSpace d = true) (cs : List Char) :
    skipSpace (blanks ++ cs) = skipSpace cs := by
  rw [skipSpace, List.dropWhile_append_of_pos hblanks, ← skipSpace]

/-- A line feed and the indentation behind it are skipped. -/
theorem isSpace_newline (level : Nat) :
    ∀ d ∈ newline level, isSpace d = true := by
  intro d hd
  rcases List.mem_cons.1 hd with rfl | hd
  · rfl
  · rw [List.eq_of_mem_replicate hd]; rfl

/-- Text on a line of its own leaves a unit of fuel. -/
theorem exists_fuel {level fuel : Nat} {text : List Char}
    (h : (newline level ++ text).length ≤ fuel) :
    ∃ left, fuel = left + 1 ∧ text.length ≤ left := by
  rw [List.length_append, newline, List.length_cons] at h
  exact ⟨fuel - 1, by omega, by omega⟩

/-- A text that is read back as the value, in front of whatever is written
after values. It starts like no end of a list. -/
structure ReadsAs (v : Value) (text : List Char) : Prop where
  read : ∀ (fuel room : Nat) (rest : List Char),
    text.length ≤ fuel → v.depth ≤ room →
    Ends rest → readValue fuel room (text ++ rest) = .ok (v, rest)
  head : ∃ c cs, text = c :: cs ∧ Text.isBlank c = false ∧ c ≠ ']'
  printed : text.all isPrinted = true

/-- No blank stands in front of a value. -/
theorem ReadsAs.skipSpace_append {v : Value} {text : List Char}
    (h : ReadsAs v text) (rest : List Char) :
    skipSpace (text ++ rest) = text ++ rest := by
  obtain ⟨c, cs, rfl, hblank, -⟩ := h.head
  exact skipSpace_cons (isSpace_of_isBlank hblank) (cs ++ rest)

/-- A value may stand on a line of its own. -/
theorem ReadsAs.skipSpace_newline {v : Value} {text : List Char}
    (h : ReadsAs v text) (level : Nat) (rest : List Char) :
    skipSpace (newline level ++ (text ++ rest)) = text ++ rest := by
  rw [Json.skipSpace_append (isSpace_newline level), h.skipSpace_append]

/-- A value starts like no end of a list, whatever is behind it. -/
theorem ReadsAs.head_append {v : Value} {text : List Char} (h : ReadsAs v text)
    (rest : List Char) : ∃ c cs, text ++ rest = c :: cs ∧ c ≠ ']' := by
  obtain ⟨c, cs, rfl, -, hc⟩ := h.head
  exact ⟨c, cs ++ rest, rfl, hc⟩

/-- A text that is read back as the items of a list up to its bracket. -/
structure ItemsReadAs (items : List Value) (text : List Char) : Prop where
  read : ∀ (fuel room level : Nat) (rest : List Char), text.length ≤ fuel →
    Value.depthOfItems items ≤ room →
    readItems fuel room (skipSpace (text ++ newline level ++ ']' :: rest))
      = .ok (items, rest)
  head : ∀ rest, ∃ c cs, skipSpace (text ++ rest) = c :: cs ∧ c ≠ ']'
  printed : text.all isPrinted = true

/-- A text that is read back as the entries of a mapping up to its brace. -/
structure EntriesReadAs (entries : List (Value × Value)) (text : List Char) :
    Prop where
  read : ∀ (fuel room level : Nat) (rest : List Char), text.length ≤ fuel →
    Value.depthOfEntries entries ≤ room →
    readEntries fuel room (skipSpace (text ++ newline level ++ '\x7d' :: rest))
      = .ok (entries, rest)
  head : ∀ rest, ∃ cs, skipSpace (text ++ rest) = '"' :: cs
  printed : text.all isPrinted = true

-- =========================================================== scalars

/-- Where the characters of words and numbers lie. -/
theorem scalar_range {c : Char} (hc : c.isAlphanum = true ∨ c = '-') :
    0x2D ≤ c.toNat ∧ c.toNat ≤ 0x7A := by
  rcases hc with hc | rfl
  · delta Char.isAlphanum Char.isAlpha Char.isUpper Char.isLower
      Char.isDigit at hc
    simp only [Bool.or_eq_true, Bool.and_eq_true, decide_eq_true_eq, ge_iff_le,
      UInt32.le_iff_toNat_le] at hc
    have hc' : (65 ≤ c.toNat ∧ c.toNat ≤ 90 ∨ 97 ≤ c.toNat ∧ c.toNat ≤ 122)
      ∨ 48 ≤ c.toNat ∧ c.toNat ≤ 57 := hc
    omega
  · decide

/-- No character of a word or number is white space. -/
theorem isBlank_scalar {c : Char} (hc : c.isAlphanum = true ∨ c = '-') :
    Text.isBlank c = false := by
  have hrange := scalar_range hc
  have hranges : ∀ r ∈ Text.blankRanges, r.2 < 0x2D ∨ 0x7A < r.1 := by decide
  rw [Text.isBlank, Text.Ranges.covers, List.any_eq_false]
  intro r hr
  rw [Bool.and_eq_true, decide_eq_true_eq, decide_eq_true_eq]
  have := hranges r hr
  omega

/-- The characters of words and numbers are printed as they are. -/
theorem isPrinted_scalar {c : Char} (hc : c.isAlphanum = true ∨ c = '-') :
    isPrinted c = true := by
  have hrange := scalar_range hc
  simp only [isPrinted, Bool.or_eq_true, Bool.and_eq_true, decide_eq_true_eq]
  omega

/-- A word or a number. -/
theorem ReadsAs.scalar {v : Value} {text : List Char} (hne : text ≠ [])
    (hchars : ∀ c ∈ text, c.isAlphanum = true ∨ c = '-')
    (hread : ∀ {rest : List Char},
      Ends rest → readScalar (text ++ rest) = .ok (v, rest)) :
    ReadsAs v text := by
  obtain ⟨c, cs, rfl⟩ := List.exists_cons_of_ne_nil hne
  have hc := hchars c List.mem_cons_self
  refine ⟨?_, ⟨c, cs, rfl, isBlank_scalar hc, ?_⟩,
    List.all_eq_true.2 fun d hd => isPrinted_scalar (hchars d hd)⟩
  · intro fuel room rest hfuel _ hrest
    obtain ⟨fuel, rfl⟩ :=
      Nat.exists_eq_succ_of_ne_zero (Nat.ne_zero_of_lt hfuel)
    rw [← hread hrest, List.cons_append, readValue]
    -- it starts with none of the signs that open strings and collections
    all_goals
      rintro text htext
      rw [List.cons.injEq] at htext
      rw [htext.1] at hc
      exact absurd hc (by decide)
  · rintro rfl
    exact absurd hc (by decide)

/-- A number that is not too long is read back. -/
theorem ReadsAs.int {n : Int} (hn : Text.isWritable n = true) :
    ReadsAs (.int n) (toString n).toList := by
  refine .scalar ?_ ?_ fun hrest => readScalar_int hrest hn
  · rw [toString_toList]
    exact List.append_ne_nil_of_right_ne_nil _ Nat.toDigits_ne_nil
  · intro c hc
    rw [toString_toList, List.mem_append] at hc
    rcases hc with hc | hc
    · split at hc
      · exact .inr (List.mem_singleton.1 hc)
      · cases hc
    · have hdigit : c.isDigit = true :=
        Nat.isDigit_of_mem_toDigits (by decide) (by decide) hc
      exact .inl (by rw [Char.isAlphanum, hdigit, Bool.or_true])

/-- A text in quotes is read back, whatever is behind it. -/
theorem readValue_str (s : String) (fuel room : Nat) (rest : List Char) :
    readValue (fuel + 1) room (writeString s ++ rest) = .ok (.str s, rest) := by
  simp only [writeString, List.cons_append, List.append_assoc, List.nil_append,
    readValue, readString_written, orMalformed]
  rfl

/-- Every text is read back. -/
theorem ReadsAs.str (s : String) : ReadsAs (.str s) (writeString s) where
  read := by
    intro fuel room rest hfuel _ _
    obtain ⟨fuel, rfl⟩ :=
      Nat.exists_eq_succ_of_ne_zero (Nat.ne_zero_of_lt hfuel)
    exact readValue_str s fuel room rest
  head := ⟨'"', _, rfl, by decide, by decide⟩
  printed := writeString_printed s

-- ============================================================= lists

/-- Line feeds and indentation are printed as they are. -/
theorem newline_printed (level : Nat) :
    (newline level).all isPrinted = true := by
  simp [newline, isPrinted]

/-- Reading items ends at the bracket. -/
theorem readItems_last {v : Value} {fuel room : Nat} {text rest : List Char}
    (level : Nat)
    (h : readValue fuel room text = .ok (v, newline level ++ ']' :: rest)) :
    readItems (fuel + 1) room text = .ok ([v], rest) := by
  rw [readItems, h]
  simp only [bind, Except.bind, skipSpace_append (isSpace_newline level),
    skipSpace_cons (c := ']') rfl]
  rfl

/-- Reading items goes on behind a comma. -/
theorem readItems_more {v : Value} {vs : List Value} {fuel room : Nat}
    {text more rest : List Char}
    (h : readValue fuel room text = .ok (v, ',' :: more))
    (hmore : readItems fuel room (skipSpace more) = .ok (vs, rest)) :
    readItems (fuel + 1) room text = .ok (v :: vs, rest) := by
  rw [readItems, h]
  simp only [bind, Except.bind, skipSpace_cons (c := ',') rfl, hmore]
  rfl

/-- A bracket with anything but its counterpart behind it opens a list of
items. -/
theorem readValue_list {items : List Value} {fuel room : Nat}
    {text inner rest : List Char} {c : Char}
    (htext : skipSpace text = c :: inner)
    (hc : c ≠ ']') (h : readItems fuel room (skipSpace text)
      = .ok (items, rest)) :
    readValue (fuel + 1) (room + 1) ('[' :: text)
      = .ok (.list items, rest) := by
  rw [htext] at h
  simp [readValue, htext, hc, h, bind, Except.bind, pure, Except.pure]

/-- The last item, on a line of its own. -/
theorem ItemsReadAs.last {v : Value} {text : List Char} (h : ReadsAs v text)
    (level : Nat) :
    ItemsReadAs [v] (newline level ++ text) where
  read := by
    intro fuel room level' rest hfuel hroom
    obtain ⟨fuel, rfl, hlength⟩ := exists_fuel hfuel
    rw [List.append_assoc, List.append_assoc, h.skipSpace_newline]
    refine readItems_last level' (h.read fuel room _ hlength ?_ (.newline _ _))
    simpa [Value.depthOfItems] using hroom
  head := by
    intro rest
    rw [List.append_assoc, h.skipSpace_newline]
    exact h.head_append rest
  printed := by
    simp [newline_printed, h.printed]

/-- An item on a line of its own, with others behind a comma. -/
theorem ItemsReadAs.more {v : Value} {vs : List Value} {text more : List Char}
    (h : ReadsAs v text) (hmore : ItemsReadAs vs more) (level : Nat) :
    ItemsReadAs (v :: vs) (newline level ++ text ++ ',' :: more) where
  read := by
    intro fuel room level' rest hfuel hroom
    rw [List.append_assoc] at hfuel
    obtain ⟨fuel, rfl, hlength⟩ := exists_fuel hfuel
    rw [List.length_append, List.length_cons] at hlength
    simp only [Value.depthOfItems, Nat.max_le] at hroom
    simp only [List.append_assoc, List.cons_append, h.skipSpace_newline]
    refine readItems_more (h.read fuel room _ (by omega) hroom.1 (.comma _)) ?_
    rw [← List.append_assoc]
    exact hmore.read fuel room level' rest (by omega) hroom.2
  head := by
    intro rest
    simp only [List.append_assoc, h.skipSpace_newline]
    exact h.head_append _
  printed := by
    simp [newline_printed, h.printed, hmore.printed, isPrinted]

/-- The empty list is read back. -/
theorem ReadsAs.emptyList : ReadsAs (.list []) ['[', ']'] where
  read := by
    intro fuel room rest hfuel hroom _
    obtain ⟨fuel, rfl⟩ :=
      Nat.exists_eq_succ_of_ne_zero (Nat.ne_zero_of_lt hfuel)
    obtain ⟨room, rfl⟩ :=
      Nat.exists_eq_succ_of_ne_zero (Nat.ne_zero_of_lt hroom)
    rfl
  head := ⟨'[', _, rfl, by decide, by decide⟩
  printed := by decide

/-- A list is read back if its items are. -/
theorem ReadsAs.list {items : List Value} {text : List Char}
    (h : ItemsReadAs items text) (level : Nat) :
    ReadsAs (.list items) ('[' :: text ++ newline level ++ [']']) where
  read := by
    intro fuel room rest hfuel hroom _
    obtain ⟨fuel, rfl⟩ :=
      Nat.exists_eq_succ_of_ne_zero (Nat.ne_zero_of_lt hfuel)
    obtain ⟨room, rfl⟩ :=
      Nat.exists_eq_succ_of_ne_zero (Nat.ne_zero_of_lt hroom)
    simp only [List.cons_append, List.length_cons, List.length_append,
      List.append_assoc, List.nil_append, List.length_nil] at hfuel ⊢
    obtain ⟨c, inner, hinner, hc⟩ := h.head (newline level ++ ']' :: rest)
    refine readValue_list hinner hc ?_
    rw [← List.append_assoc]
    exact h.read fuel room level rest (by omega) (Nat.le_of_succ_le_succ hroom)
  head := ⟨'[', _, rfl, by decide, by decide⟩
  printed := by
    simp [h.printed, newline_printed, isPrinted]

-- ========================================================== mappings

/-- Reading entries ends at the brace. -/
theorem readEntries_last (key : String) {v : Value} {fuel room : Nat}
    {text after rest : List Char} (htext : skipSpace text = text)
    (h : readValue fuel room text = .ok (v, after))
    (hafter : skipSpace after = '\x7d' :: rest) :
    readEntries (fuel + 1) room (writeString key ++ (':' :: ' ' :: text))
      = .ok ([(.str key, v)], rest) := by
  have hblank : skipSpace (' ' :: text) = text := htext
  simp only [writeString, List.cons_append, List.append_assoc, List.nil_append,
    readEntries, readString_written, orMalformed, bind, Except.bind,
    skipSpace_cons (c := ':') rfl, hblank, h, hafter]
  rfl

/-- Reading entries goes on behind a comma. -/
theorem readEntries_more (key : String) {v : Value}
    {entries : List (Value × Value)} {fuel room : Nat}
    {text more rest : List Char} (htext : skipSpace text = text)
    (h : readValue fuel room text = .ok (v, ',' :: more))
    (hmore : readEntries fuel room (skipSpace more) = .ok (entries, rest)) :
    readEntries (fuel + 1) room (writeString key ++ (':' :: ' ' :: text))
      = .ok ((.str key, v) :: entries, rest) := by
  have hblank : skipSpace (' ' :: text) = text := htext
  simp only [writeString, List.cons_append, List.append_assoc, List.nil_append,
    readEntries, readString_written, orMalformed, bind, Except.bind,
    skipSpace_cons (c := ':') rfl, hblank, h,
    skipSpace_cons (c := ',') rfl, hmore]
  rfl

/-- A brace with a key behind it opens a mapping. -/
theorem readValue_map {entries : List (Value × Value)}
    (hdistinct : entries.Pairwise fun a b => Value.sameKey a.1 b.1 = false)
    {fuel room : Nat} {text inner rest : List Char}
    (htext : skipSpace text = '"' :: inner)
    (h : readEntries fuel room (skipSpace text) = .ok (entries, rest)) :
    readValue (fuel + 1) (room + 1) ('\x7b' :: text)
      = .ok (.map entries, rest) := by
  rw [htext] at h
  rw [← Value.ofEntries_distinct hdistinct]
  simp [readValue, htext, h, bind, Except.bind, pure, Except.pure]

/-- The last entry, on a line of its own. -/
theorem EntriesReadAs.last {v : Value} {text : List Char} (key : String)
    (h : ReadsAs v text) (level : Nat) :
    EntriesReadAs [(.str key, v)]
      (newline level ++ writeString key ++ [':', ' '] ++ text) where
  read := by
    intro fuel room level' rest hfuel hroom
    simp only [List.append_assoc] at hfuel ⊢
    obtain ⟨fuel, rfl, hlength⟩ := exists_fuel hfuel
    simp only [List.length_append] at hlength
    rw [(ReadsAs.str key).skipSpace_newline]
    refine readEntries_last key (h.skipSpace_append _)
      (h.read fuel room _ ?_ ?_ (.newline _ _)) ?_
    · omega
    · simpa [Value.depthOfEntries, Value.depth] using hroom
    · rw [Json.skipSpace_append (isSpace_newline level'), skipSpace_cons rfl]
  head := by
    intro rest
    simp only [List.append_assoc, (ReadsAs.str key).skipSpace_newline]
    exact ⟨_, rfl⟩
  printed := by
    simp [newline_printed, writeString_printed, h.printed, isPrinted]

/-- An entry on a line of its own, with others behind a comma. -/
theorem EntriesReadAs.more {v : Value} {entries : List (Value × Value)}
    {text more : List Char} (key : String) (h : ReadsAs v text)
    (hmore : EntriesReadAs entries more) (level : Nat) :
    EntriesReadAs ((.str key, v) :: entries)
      (newline level ++ writeString key ++ [':', ' '] ++ text ++ ',' :: more)
        where
  read := by
    intro fuel room level' rest hfuel hroom
    simp only [List.append_assoc, List.cons_append, List.nil_append] at hfuel ⊢
    obtain ⟨fuel, rfl, hlength⟩ := exists_fuel hfuel
    simp only [List.length_append, List.length_cons] at hlength
    simp only [Value.depthOfEntries, Nat.max_le] at hroom
    rw [(ReadsAs.str key).skipSpace_newline]
    refine readEntries_more key (h.skipSpace_append _)
      (h.read fuel room _ (by omega) hroom.1.2 (.comma _)) ?_
    rw [← List.append_assoc]
    exact hmore.read fuel room level' rest (by omega) hroom.2
  head := by
    intro rest
    simp only [List.append_assoc, (ReadsAs.str key).skipSpace_newline]
    exact ⟨_, rfl⟩
  printed := by
    simp [newline_printed, writeString_printed, h.printed, hmore.printed,
      isPrinted]

/-- The empty mapping is read back. -/
theorem ReadsAs.emptyMap : ReadsAs (.map []) ['\x7b', '\x7d'] where
  read := by
    intro fuel room rest hfuel hroom _
    obtain ⟨fuel, rfl⟩ :=
      Nat.exists_eq_succ_of_ne_zero (Nat.ne_zero_of_lt hfuel)
    obtain ⟨room, rfl⟩ :=
      Nat.exists_eq_succ_of_ne_zero (Nat.ne_zero_of_lt hroom)
    rfl
  head := ⟨'\x7b', _, rfl, by decide, by decide⟩
  printed := by decide

/-- A mapping is read back if its entries are, and no two have one key. -/
theorem ReadsAs.map {entries : List (Value × Value)} {text : List Char}
    (h : EntriesReadAs entries text)
    (hdistinct : entries.Pairwise fun a b => Value.sameKey a.1 b.1 = false)
    (level : Nat) :
    ReadsAs (.map entries) ('\x7b' :: text ++ newline level ++ ['\x7d']) where
  read := by
    intro fuel room rest hfuel hroom _
    obtain ⟨fuel, rfl⟩ :=
      Nat.exists_eq_succ_of_ne_zero (Nat.ne_zero_of_lt hfuel)
    obtain ⟨room, rfl⟩ :=
      Nat.exists_eq_succ_of_ne_zero (Nat.ne_zero_of_lt hroom)
    simp only [List.cons_append, List.length_cons, List.length_append,
      List.append_assoc, List.nil_append, List.length_nil] at hfuel ⊢
    obtain ⟨inner, hinner⟩ := h.head (newline level ++ '\x7d' :: rest)
    refine readValue_map hdistinct hinner ?_
    rw [← List.append_assoc]
    exact h.read fuel room level rest (by omega) (Nat.le_of_succ_le_succ hroom)
  head := ⟨'\x7b', _, rfl, by decide, by decide⟩
  printed := by
    simp [h.printed, newline_printed, isPrinted]

-- =========================================================== writing

/-- The outcomes of writing: a text with the property if all numbers can be
written, and the refusal of one if not. -/
def Written (writable : Bool) (P : List Char → Prop) :
    Except WriteError (List Char) → Prop
  | .ok text => writable = true ∧ P text
  | .error error => writable = false ∧ error = .unwritable

/-- Two texts written in a row. -/
theorem Written.bind {a b : Bool} {P Q : List Char → Prop}
    {written : Except WriteError (List Char)}
    {next : List Char → Except WriteError (List Char)} (h : Written a P written)
    (hnext : ∀ text, P text → Written b Q (next text)) :
    Written (a && b) Q (written >>= next) := by
  cases written with
  | ok text =>
      rw [h.1, Bool.true_and]
      exact hnext text h.2
  | error error =>
      rw [h.1, Bool.false_and]
      exact ⟨rfl, h.2⟩

/-- A text that is written and then changed. -/
theorem Written.map {a : Bool} {P Q : List Char → Prop}
    {written : Except WriteError (List Char)} {f : List Char → List Char}
    (h : Written a P written) (hf : ∀ text, P text → Q (f text)) :
    Written a Q (written >>= fun text => pure (f text)) := by
  rw [← Bool.and_true a]
  exact h.bind fun text htext => ⟨rfl, hf text htext⟩

mutual

/-- A value with a form is written unless one of its numbers has too many
digits, and the text is read back as the value. -/
theorem writeValue_written : ∀ (v : Value) (level : Nat), v.isPlain = true →
    Written v.isWritable (ReadsAs v) (writeValue level v)
  | .null, level, _ => by
      rw [writeValue, Value.isWritable]
      · exact ⟨rfl, .scalar (by simp) (by simp) fun _ => readScalar_null _⟩
      all_goals simp
  | .bool b, level, _ => by
      rw [writeValue, Value.isWritable]
      · refine ⟨rfl, .scalar ?_ ?_ fun _ => readScalar_bool b _⟩ <;> cases b
          <;> simp
      all_goals simp
  | .int n, level, _ => by
      rw [writeValue, Value.isWritable, writeInt]
      cases hn : Text.isWritable n with
      | true => exact ⟨rfl, .int hn⟩
      | false => exact ⟨rfl, rfl⟩
  | .str s, level, _ => by
      rw [writeValue, Value.isWritable]
      · exact ⟨rfl, .str s⟩
      all_goals simp
  | .list items, level, hplain => by
      rw [Value.isPlain] at hplain
      have hitems := writeItems_written items (level + 1) hplain
      rw [Value.isWritable]
      cases items with
      | nil => exact ⟨rfl, .emptyList⟩
      | cons v vs =>
          rw [writeValue]
          · exact hitems.map fun text h => .list (h (by simp)) level
          · simp
  | .map entries, level, hplain => by
      rw [Value.isPlain] at hplain
      have hentries := writeEntries_written entries (level + 1) hplain
      rw [Value.isWritable]
      cases entries with
      | nil => exact ⟨rfl, .emptyMap⟩
      | cons e entries =>
          rw [writeValue]
          · exact hentries.map fun text h =>
              .map (h (by simp)) (Value.entriesPlain_distinct hplain) level
          · simp

@[inherit_doc writeValue_written]
theorem writeItems_written : ∀ (items : List Value) (level : Nat),
    Value.arePlain items = true →
    Written (Value.areWritable items)
      (fun text => items ≠ [] → ItemsReadAs items text) (writeItems level items)
  | [], level, _ => ⟨rfl, fun h => absurd rfl h⟩
  | v :: vs, level, hplain => by
      rw [Value.arePlain, Bool.and_eq_true] at hplain
      have hv := writeValue_written v level hplain.1
      have hvs := writeItems_written vs level hplain.2
      rw [Value.areWritable]
      cases vs with
      | nil =>
          rw [writeItems, Value.areWritable, Bool.and_true]
          exact hv.map fun text h _ => .last h level
      | cons w vs =>
          rw [writeItems]
          · exact hv.bind fun text h => hvs.map fun more hmore _ =>
              .more h (hmore (by simp)) level
          · simp

@[inherit_doc writeValue_written]
theorem writeEntries_written : ∀ (entries : List (Value × Value)) (level : Nat),
    Value.entriesPlain entries = true →
    Written (Value.entriesWritable entries)
      (fun text => entries ≠ [] → EntriesReadAs entries text)
        (writeEntries level entries)
  | [], level, _ => ⟨rfl, fun h => absurd rfl h⟩
  | (.str k, v) :: entries, level, hplain => by
      rw [Value.entriesPlain, Bool.and_eq_true, Bool.and_eq_true] at hplain
      have hv := writeValue_written v level hplain.1.2
      have hentries := writeEntries_written entries level hplain.2
      rw [Value.entriesWritable, show (Value.str k).isWritable = true from rfl,
        Bool.true_and]
      cases entries with
      | nil =>
          rw [writeEntries, Value.entriesWritable, Bool.and_true]
          exact hv.map fun text h _ => .last k h level
      | cons e entries =>
          rw [writeEntries]
          · exact hv.bind fun text h =>
              hentries.map fun more hmore _ => .more k h (hmore (by simp)) level
          · simp

end

-- ========================================================= documents

/-- A document is a value with nothing around it. -/
theorem read_of_readValue {v : Value} {text : List Char} {fuel : Nat}
    (hskip : skipSpace text = text) (hfuel : 2 * text.length + 2 = fuel)
    (h : readValue fuel maxDepth text = .ok (v, [])) :
    Json.read text = .ok v := by
  rw [Json.read, hskip, hfuel, h]
  rfl

/-- A text that is read back is read back as a document. -/
theorem ReadsAs.document {v : Value} {text : List Char} (h : ReadsAs v text)
    (hdepth : v.depth ≤ maxDepth) : Json.read text = .ok v := by
  have hskip := h.skipSpace_append []
  have hread := h.read (2 * text.length + 2) maxDepth [] (by omega) hdepth .nil
  rw [List.append_nil] at hskip hread
  exact read_of_readValue hskip rfl hread

/-- A document with a form is written, and the text read back as the document,
if no number has too many digits. -/
theorem write_readsAs {v : Value} (hplain : v.isPlain = true)
    (hwritable : v.isWritable = true) :
    ∃ text, write v = .ok (String.ofList text) ∧ ReadsAs v text := by
  have h := writeValue_written v 0 hplain
  rw [hwritable] at h
  cases htext : writeValue 0 v with
  | ok text =>
      rw [htext] at h
      exact ⟨text, by rw [write, htext, Except.map], h.2⟩
  | error error =>
      rw [htext] at h
      cases h.1

/-- A document with a form is refused if a number has too many digits. -/
theorem write_unwritable {v : Value} (hplain : v.isPlain = true)
    (hwritable : v.isWritable = false) : write v = .error .unwritable := by
  have h := writeValue_written v 0 hplain
  rw [hwritable] at h
  cases htext : writeValue 0 v with
  | ok text =>
      rw [htext] at h
      cases h.1
  | error error =>
      rw [htext] at h
      rw [write, htext, Except.map, h.2]

end Json

end Marginalia
