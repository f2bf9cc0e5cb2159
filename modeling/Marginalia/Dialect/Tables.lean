/-
The rule tables of the supported dialects.

Comment delimiters are the same in all of them; what differs is which
openers mark a doc comment, whether block comments nest, how literals are
written and which words and signs introduce a declaration.
-/
import Marginalia.Dialect.Rules

namespace Marginalia

-- ======================================================= shared rows

/-- A string in double quotes with backslash escapes. -/
def doubleQuoted : LiteralRule := { opener := ⟨['"']⟩, closer := ⟨['"']⟩ }

/-- A string in apostrophes with backslash escapes. -/
def singleQuoted : LiteralRule := { opener := ⟨['\x27']⟩, closer := ⟨['\x27']⟩ }

/-- A character in apostrophes. -/
def quotedCharacter : LiteralRule :=
  { singleQuoted with kind := .literal .char }

/-- A string in backticks with backslash escapes. -/
def backtickQuoted : LiteralRule :=
  { opener := ⟨['\x60']⟩, closer := ⟨['\x60']⟩ }

/-- A block of text in triple quotes with backslash escapes. -/
def textBlock : LiteralRule :=
  { opener := ⟨['"', '"', '"']⟩, closer := ⟨['"', '"', '"']⟩ }

/-- A block of text in triple quotes without escapes. -/
def rawTextBlock : LiteralRule := { textBlock with escape := none }

/-- Three slashes. -/
def tripleSlash : DocMarker :=
  { opener := ⟨['/', '/', '/']⟩, kind := .comment .line }

/-- A block comment opened with two stars. -/
def doubleStar : DocMarker :=
  { opener := ⟨['/', '*', '*']⟩, kind := .comment .block }

/-- Two slashes and an exclamation mark. -/
def slashBang : DocMarker :=
  { opener := ⟨['/', '/', '!']⟩, kind := .comment .line }

/-- A block comment opened with a star and an exclamation mark. -/
def starBang : DocMarker :=
  { opener := ⟨['/', '*', '!']⟩, kind := .comment .block }

/-- Words that look like calls but open plain blocks. -/
def controlWords : List String :=
  ["alignof", "assert", "await", "case", "catch", "checked", "decltype",
   "defer", "delete", "do", "elif", "else", "finally", "fixed", "for",
   "foreach", "goto", "if", "lock", "loop", "match", "new", "return", "sizeof",
   "static_assert", "switch", "synchronized", "throw", "try", "typeof",
   "unchecked", "unsafe", "using", "when", "while", "with", "yield"]

/-- Words that may stand in front of any declaration. -/
def modifierWords : List String :=
  ["abstract", "async", "const", "constexpr", "data", "declare", "default",
   "explicit", "export", "extern", "final", "friend", "get", "inline",
   "internal", "native", "open", "operator", "override", "partial", "private",
   "protected", "pub", "public", "readonly", "sealed", "set", "static",
   "strictfp", "suspend", "transient", "unsafe", "virtual", "volatile"]

-- ============================================================ tables

/-- The rule table of a dialect. -/
def Dialect.rules : Dialect → Rules
  | .c => {
      dialect := .c
      markers := [tripleSlash, doubleStar, slashBang, starBang]
      literals := [doubleQuoted, quotedCharacter]
      classKeywords := ["class", "enum", "struct", "union"]
      modifierKeywords := modifierWords
      controlKeywords := controlWords
      preprocessor := true }
  | .cpp => {
      dialect := .cpp
      markers := [tripleSlash, doubleStar, slashBang, starBang]
      literals := [
        { opener := ⟨['R', '"', '(']⟩, closer := ⟨[')', '"']⟩, escape := none,
          wordPrefixed := true },
        doubleQuoted, quotedCharacter]
      classKeywords := ["class", "enum", "struct", "union"]
      modifierKeywords := modifierWords
      controlKeywords := controlWords
      bracketLambdas := true
      preprocessor := true }
  | .csharp => {
      dialect := .csharp
      markers := [tripleSlash, doubleStar]
      literals := [
        rawTextBlock,
        { opener := ⟨['@', '"']⟩, closer := ⟨['"']⟩, escape := none,
          doubledCloser := true, wordPrefixed := true },
        doubleQuoted, quotedCharacter]
      classKeywords := ["class", "enum", "interface", "record", "struct"]
      modifierKeywords := modifierWords
      controlKeywords := controlWords
      lambdaArrows := ["=>"]
      attributeOpeners := ["["]
      preprocessor := true }
  | .java => {
      dialect := .java
      markers := [tripleSlash, doubleStar]
      literals := [textBlock, doubleQuoted, quotedCharacter]
      classKeywords := ["class", "enum", "interface", "record"]
      modifierKeywords := modifierWords
      controlKeywords := controlWords
      lambdaArrows := ["->"]
      decorator := some "@" }
  | .javascript => {
      dialect := .javascript
      markers := [tripleSlash, doubleStar]
      literals := [backtickQuoted, doubleQuoted, singleQuoted]
      functionKeywords := ["function"]
      classKeywords := ["class"]
      modifierKeywords := modifierWords
      controlKeywords := controlWords
      lambdaArrows := ["=>"]
      decorator := some "@" }
  | .typescript => {
      dialect := .typescript
      markers := [tripleSlash, doubleStar]
      literals := [backtickQuoted, doubleQuoted, singleQuoted]
      functionKeywords := ["function"]
      classKeywords := ["class", "enum", "interface"]
      modifierKeywords := modifierWords
      controlKeywords := controlWords
      lambdaArrows := ["=>"]
      decorator := some "@" }
  | .kotlin => {
      dialect := .kotlin
      nestedBlocks := true
      markers := [tripleSlash, doubleStar]
      literals := [rawTextBlock, doubleQuoted, quotedCharacter]
      functionKeywords := ["fun"]
      classKeywords := ["class", "interface", "object"]
      modifierKeywords := modifierWords
      controlKeywords := controlWords
      signatureFunctions := false
      decorator := some "@"
      newlineTerminates := true }
  | .rust => {
      dialect := .rust
      nestedBlocks := true
      markers :=
        [tripleSlash, doubleStar, { slashBang with placement := .inner },
        { starBang with placement := .inner }]
      literals := [
        { opener := ⟨['r', '#', '"']⟩, closer := ⟨['"', '#']⟩, escape := none,
          wordPrefixed := true },
        { opener := ⟨['r', '"']⟩, closer := ⟨['"']⟩, escape := none,
          wordPrefixed := true },
        doubleQuoted,
        { quotedCharacter with maxLength := some 12 }]
      functionKeywords := ["fn"]
      classKeywords := ["enum", "impl", "struct", "trait", "union"]
      modifierKeywords := modifierWords
      controlKeywords := controlWords
      signatureFunctions := false
      barClosures := true
      attributeOpeners := ["#"] }

end Marginalia
